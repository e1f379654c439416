import Mathlib.Data.List.Nodup
import PhpMemcached.GetMulti
import PhpMemcached.SetMulti
import PhpMemcached.Updates

/-!
# Array keys through `setMulti` and `getMulti`

* `ItemKey`                  the keys of an array that are item keys: all integers, and strings of 1 to
                             250 bytes;
* `WrittenUnder`             what one entry of `setMulti` sends;
* `ReadSucceeds`             a fetch request that is answered in full;
* `setMulti_getMulti_keys`   the keys come back as they were.

An integer key is written as its numeral, and a symbol table reads exactly the numerals as integers.
-/

namespace PhpMemcached
open Ascii Requests

/-! ## keys -/

/-- a key of a PHP array (so no string that is a canonical decimal) that is an item key -/
structure ItemKey (k : ArrKey) : Prop where
  canonical : ∀ s, k = .str s → zendHandleNumeric s = .str s
  ne_nil : k ≠ .str []
  length_le : ∀ s, k = .str s → s.length ≤ 250

/-- what is written for a key is read as that key -/
theorem handleNumeric_entryKey {k : ArrKey} (hk : ItemKey k) : zendHandleNumeric (entryKey k) = k := by
  cases k with
  | str s => exact hk.canonical s rfl
  | int n =>
    have hread : strtoz (intText n.toInt) = n.toInt := by
      have h := strtoz_intText n.toInt (r := []) rfl
      rwa [List.append_nil] at h
    show zendHandleNumeric (intText n.toInt) = .int n
    unfold zendHandleNumeric
    rw [hread, Int64.ofInt_toInt]
    exact if_pos rfl

theorem entryKey_injective {k k' : ArrKey} (hk : ItemKey k) (hk' : ItemKey k')
    (h : entryKey k = entryKey k') : k = k' := by
  rw [← handleNumeric_entryKey hk, h, handleNumeric_entryKey hk']

theorem length_natText_le (k : Nat) : ∀ {n : Nat}, n < 10 ^ (k + 1) → (natText n).length ≤ k + 1 := by
  induction k with
  | zero =>
    intro n hn
    rw [natText_eq, if_pos (by omega)]
    exact Nat.le_refl 1
  | succ k ih =>
    intro n hn
    rw [natText_eq, List.length_append, List.length_singleton]
    by_cases h10 : n < 10
    · rw [if_pos h10]
      exact Nat.succ_le_succ (Nat.zero_le _)
    · rw [if_neg h10]
      have hdiv : n / 10 < 10 ^ (k + 1) := Nat.div_lt_of_lt_mul (by rw [← Nat.pow_succ']; exact hn)
      exact Nat.succ_le_succ (ih hdiv)

/-- the numeral of a 64-bit integer has 20 characters at most -/
theorem length_intText_le (n : Int64) : (intText n.toInt).length ≤ 20 := by
  have hlow := Int64.le_toInt n
  have hhigh := Int64.toInt_lt n
  cases hn : n.toInt with
  | ofNat m =>
    rw [hn] at hhigh
    have hcast : (m : Int) < 2 ^ 63 := hhigh
    have hm : m < 10 ^ 19 := by omega
    exact (length_natText_le 18 hm).trans (by decide)
  | negSucc m =>
    have hm : m + 1 < 10 ^ 19 := by omega
    exact Nat.succ_le_succ (length_natText_le 18 hm)

theorem length_entryKey {k : ArrKey} (hk : ItemKey k) :
    0 < (entryKey k).length ∧ (entryKey k).length ≤ 250 := by
  cases k with
  | int n =>
    have hle := length_intText_le n
    exact ⟨List.length_pos_iff.mpr (intText_ne_nil n.toInt), hle.trans (by decide)⟩
  | str s =>
    have hne : s ≠ [] := fun h => hk.ne_nil (congrArg ArrKey.str h)
    exact ⟨List.length_pos_iff.mpr hne, hk.length_le s rfl⟩

/-- a key as a value -/
def keyZval : ArrKey → Zval
  | .int n => .long n
  | .str s => .str s

/-- `array_keys` -/
def arrayKeys (a : HashTable) : HashTable := a.foldl (fun keys e => addNextIndexZval keys (keyZval e.1)) []

theorem values_arrayKeys (a : HashTable) : (arrayKeys a).map Prod.snd = a.map fun e => keyZval e.1 := by
  suffices hall : ∀ keys : HashTable,
      (a.foldl (fun keys e => addNextIndexZval keys (keyZval e.1)) keys).map Prod.snd =
        keys.map Prod.snd ++ a.map fun e => keyZval e.1 by
    exact hall []
  induction a with
  | nil => exact fun keys => (List.append_nil _).symm
  | cons e a ih =>
    intro keys
    rw [List.foldl_cons, ih, addNextIndexZval, List.map_append, List.append_assoc]
    rfl

section
variable (env : Env) {a : HashTable}

theorem getString_arrayKeys (a : HashTable) :
    (arrayKeys a).map (fun e => zvalGetString env.zend e.2) = a.map fun e => entryKey e.1 := by
  have hcomp : (arrayKeys a).map (fun e => zvalGetString env.zend e.2) =
      ((arrayKeys a).map Prod.snd).map (zvalGetString env.zend) := by
    rw [List.map_map]
    rfl
  rw [hcomp, values_arrayKeys, List.map_map]
  refine List.map_congr_left fun e _ => ?_
  show zvalGetString env.zend (keyZval e.1) = entryKey e.1
  cases e.1 with
  | int n => rfl
  | str s => rfl

/-- the keys of a request for all keys of an array are those under which its entries are written -/
theorem sHashToKeys_arrayKeys (ha : ∀ e ∈ a, ItemKey e.1) :
    sHashToKeys env.zend (arrayKeys a) = a.map fun e => entryKey e.1 := by
  unfold sHashToKeys memcachedMaxKey
  rw [getString_arrayKeys]
  refine List.filter_eq_self.mpr fun key hkey => ?_
  obtain ⟨e, he, rfl⟩ := List.mem_map.mp hkey
  obtain ⟨hpos, hle⟩ := length_entryKey (ha e he)
  rw [decide_eq_true hpos, decide_eq_true (Nat.lt_succ_of_le hle)]
  rfl

theorem nodup_entryKeys (hnodup : (a.map Prod.fst).Nodup) (ha : ∀ e ∈ a, ItemKey e.1) :
    (a.map fun e => entryKey e.1).Nodup := by
  rw [show (a.map fun e => entryKey e.1) = (a.map Prod.fst).map entryKey by rw [List.map_map]; rfl]
  refine List.Nodup.map_on (fun k hk k' hk' h => ?_) hnodup
  obtain ⟨e, he, rfl⟩ := List.mem_map.mp hk
  obtain ⟨e', he', rfl⟩ := List.mem_map.mp hk'
  exact entryKey_injective (ha e he) (ha e' he') h

end

/-! ## the writes -/

/-- the requests of one entry all name its key, and there is one that does -/
structure WrittenUnder (e : ArrKey × Zval) (part : List (Entry Call Ans)) : Prop where
  only : ∀ c ∈ part, ∀ key ∈ c.req.itemKeys, key = entryKey e.1
  sent : ∃ c ∈ part, c.req.itemKeys = [entryKey e.1]

section
variable (env : Env) {σ : Type} {h : Handler Call Ans σ} {s s' : State} {w w' : σ}
  {serverKey : Option Bytes} {expiration : Int64}

theorem Cmd.mem_log_bind {α β : Type} {m : MemcM α} {c : Entry Call Ans} (f : α → MemcM β)
    (hc : c ∈ Cmd.log h m s w) : c ∈ Cmd.log h (m >>= f) s w := by
  cases hm : Cmd.exec h m s w with
  | mk o w₁ =>
    cases o with
    | done a s₁ =>
      rw [Cmd.log_bind_done hm]
      exact List.mem_append_left _ hc
    | stop e s₁ =>
      rw [Cmd.log_bind_stop hm]
      exact hc

/-- the first attempt of a write asks for its key -/
theorem mem_log_writeAttempts (key payload : Bytes) (flags : Flags) (retries : Int64) (s : State)
    (w : σ) : ∃ c ∈ Cmd.log h (writeAttempts env .set serverKey key (some payload) expiration flags
      retries) s w, c.req.itemKeys = [key] := by
  unfold writeAttempts
  cases serverKey with
  | none => exact ⟨_, Cmd.mem_log_bind _ List.mem_cons_self, rfl⟩
  | some serverKey => exact ⟨_, Cmd.mem_log_bind _ List.mem_cons_self, rfl⟩

theorem writtenUnder_of_write {e : ArrKey × Zval}
    (hx : Cmd.exec h (sMemcWriteZval env .set serverKey (entryKey e.1) (some e.2) expiration) s w =
      (.done true s', w')) :
    WrittenUnder e (Cmd.log h (sMemcWriteZval env .set serverKey (entryKey e.1) (some e.2)
      expiration) s w) where
  only := (sendsKeys_sMemcWriteZval (V := (· = entryKey e.1)) env .set serverKey (some e.2)
    expiration rfl s).log h w
  sent := by
    unfold sMemcWriteZval at hx ⊢
    rw [Cmd.exec_get_bind] at hx
    rw [Cmd.log_get_bind]
    obtain ⟨r, s₁, w₁, hpayload, hrest, hlog⟩ := Cmd.run_bind_inv hx
    cases r with
    | error st => cases hrest
    | ok r =>
      have hend := (ends_writePayload env s (some e.2)).exec h w
      rw [hpayload] at hend
      obtain ⟨payload, flags⟩ := r
      cases hout : writeOut env s (some e.2) with
      | refuse st => rw [hout] at hend; exact hend.elim
      | crash => rw [hout] at hend; exact hend.elim
      | send p f =>
        rw [hout] at hend
        obtain ⟨hr, -⟩ := hend
        obtain ⟨bytes, rfl⟩ := isSome_of_writeOut_send env hout
        obtain ⟨rfl, rfl⟩ := Prod.mk.inj hr
        obtain ⟨c, hc, hkeys⟩ : ∃ c ∈ Cmd.log h (writeAttempts env .set serverKey (entryKey e.1)
            (some bytes) expiration flags s.memc.userData.storeRetryCount) s₁ w₁,
            c.req.itemKeys = [entryKey e.1] :=
          mem_log_writeAttempts env (entryKey e.1) bytes flags _ s₁ w₁
        refine ⟨c, ?_, hkeys⟩
        rw [hlog]
        exact List.mem_append_right _ (Cmd.mem_log_bind _ hc)

/-- the log of the writes, entry by entry -/
theorem writtenUnder_of_writeEach {entries : HashTable} :
    ∀ {rs : List (Bool × Status)} {s s' : State} {w w' : σ},
      Cmd.exec h (writeEach env serverKey expiration entries) s w = (.done rs s', w') →
      (∀ r ∈ rs, r.1 = true) →
      ∃ parts : List (List (Entry Call Ans)),
        Cmd.log h (writeEach env serverKey expiration entries) s w = parts.flatten ∧
        List.Forall₂ WrittenUnder entries parts := by
  induction entries with
  | nil => exact fun _ _ => ⟨[], rfl, .nil⟩
  | cons e entries ih =>
    obtain ⟨k, value⟩ := e
    intro rs s s' w w' hx hrs
    obtain ⟨ok, s₁, w₁, hwrite, hx, hlog⟩ := Cmd.run_bind_inv hx
    rw [Cmd.exec_get_bind] at hx
    obtain ⟨rs', s₂, w₂, hrest, hx, hlog'⟩ := Cmd.run_bind_inv hx
    cases hx
    obtain rfl : ok = true := hrs (ok, s₁.rescode) List.mem_cons_self
    obtain ⟨parts, hparts, hwritten⟩ := ih hrest fun r hr => hrs r (List.mem_cons_of_mem _ hr)
    refine ⟨_ :: parts, ?_, .cons (writtenUnder_of_write env (e := (k, value)) hwrite) hwritten⟩
    rw [writeEach, hlog, Cmd.log_get_bind, hlog', hparts]
    exact congrArg _ (List.append_nil _)

theorem log_phpMemcSetMultiImpl {entries : HashTable} {rs : List (Bool × Status)}
    (hx : Cmd.exec h (writeEach env serverKey expiration entries)
      { s with rescode := .success, memcErrno := 0 } w = (.done rs s', w')) :
    Cmd.log h (phpMemcSetMultiImpl env serverKey entries expiration) s w =
      Cmd.log h (writeEach env serverKey expiration entries)
        { s with rescode := .success, memcErrno := 0 } w := by
  unfold phpMemcSetMultiImpl sMemcSetStatus
  rw [Cmd.log_modify_bind, setMultiLoop_eq, bind_assoc, Cmd.log_bind_done hx]
  exact List.append_nil _

end

/-! ## the keys that come back -/

/-- the fetch request succeeds, every one of the keys is answered, no other one is, and all answers
decode -/
structure ReadSucceeds (env : Env) (serializer : SerializerType) (keys : List Bytes)
    (r : Status × Stream) : Prop where
  status : sMemcachedReturnIsError r.1 true = false
  decodes : Decodes env serializer r.2
  answered : ∀ key, (∃ p ∈ r.2.pending, p.2.key = key) ↔ key ∈ keys

section
variable (env : Env)

/-- with every answer decoded, there is an entry for each of them -/
theorem mem_keys_answerEntries {serializer : SerializerType} {stream : Stream}
    (hdec : Decodes env serializer stream) (extended : Bool) (k : ArrKey) :
    k ∈ (answerEntries env serializer extended stream.pending).map Prod.fst ↔
      ∃ p ∈ stream.pending, zendHandleNumeric p.2.key = k := by
  constructor
  · intro hk
    obtain ⟨e, he, rfl⟩ := List.mem_map.mp hk
    obtain ⟨p, hp, hkey⟩ := mem_answerEntries env he
    exact ⟨p, hp, hkey.symm⟩
  · rintro ⟨p, hp, rfl⟩
    obtain ⟨v, hv⟩ := Option.isSome_iff_exists.mp (hdec.results p hp)
    have hrecord : (p.2, v) ∈ records (decodeResult env serializer) stream.pending :=
      List.mem_filterMap.mpr ⟨p, hp, by rw [hv]; rfl⟩
    exact List.mem_map.mpr ⟨_, List.mem_map_of_mem hrecord, rfl⟩

/-- the keys of an array that maps the answers to a request for all keys of `a` -/
theorem keys_of_mapsAnswers {a b : HashTable} (hnodup : (a.map Prod.fst).Nodup)
    (ha : ∀ e ∈ a, ItemKey e.1) {serializer : SerializerType} {r : Status × Stream}
    (hread : ReadSucceeds env serializer (a.map fun e => entryKey e.1) r) {preserveOrder extended : Bool}
    (hmaps : MapsAnswers env.zend (arrayKeys a) preserveOrder
      (answerEntries env serializer extended r.2.pending) b) :
    (b.map Prod.fst).Perm (a.map Prod.fst) ∧
      (preserveOrder = true → b.map Prod.fst = a.map Prod.fst) := by
  have hself : (a.map fun e => entryKey e.1).map zendHandleNumeric = a.map Prod.fst := by
    rw [List.map_map]
    exact List.map_congr_left fun e he => handleNumeric_entryKey (ha e he)
  cases preserveOrder with
  | true =>
    have hkeys : b.map Prod.fst = a.map Prod.fst := by
      rw [hmaps.keys, mappedKeys, if_pos rfl]
      have hmap : (arrayKeys a).map (fun e => zendHandleNumeric (zvalGetString env.zend e.2)) =
          ((arrayKeys a).map fun e => zvalGetString env.zend e.2).map zendHandleNumeric := by
        rw [List.map_map]
        rfl
      rw [hmap, getString_arrayKeys, hself, eraseDups_of_nodup hnodup]
    exact ⟨hkeys ▸ List.Perm.refl _, fun _ => hkeys⟩
  | false =>
    have hkeys : b.map Prod.fst =
        ((answerEntries env serializer extended r.2.pending).map Prod.fst).eraseDups := hmaps.keys
    have hnodup' : (b.map Prod.fst).Nodup := by
      rw [hkeys]
      exact nodup_eraseDups _
    refine ⟨(List.perm_ext_iff_of_nodup hnodup' hnodup).mpr fun k => ?_, nofun⟩
    rw [hkeys, List.mem_eraseDups, mem_keys_answerEntries env hread.decodes, ← hself, List.mem_map]
    constructor
    · rintro ⟨p, hp, rfl⟩
      exact ⟨p.2.key, (hread.answered p.2.key).mp ⟨p, hp, rfl⟩, rfl⟩
    · rintro ⟨key, hkey, rfl⟩
      obtain ⟨p, hp, rfl⟩ := (hread.answered key).mpr hkey
      exact ⟨p, hp, rfl⟩

/-- **`setMulti` and `getMulti` agree on keys.** The entries of an array are written under distinct
item keys, each under its own; a request for all its keys asks for these, and when all of them are
answered the result has the keys of the array again, integers as integers and strings as strings. -/
theorem setMulti_getMulti_keys {a : HashTable} (hnodup : (a.map Prod.fst).Nodup)
    (ha : ∀ e ∈ a, ItemKey e.1)
    {σ : Type} {h : Handler Call Ans σ} {s s' : State} {w w' : σ} {serverKey : Option Bytes}
    {expiration : Int64} {rs : List (Bool × Status)}
    (hset : Cmd.exec h (writeEach env serverKey expiration a)
      { s with rescode := .success, memcErrno := 0 } w = (.done rs s', w'))
    (hwritten : ∀ r ∈ rs, r.1 = true)
    {τ : Type} {g : Handler Call Ans τ} {t t' : State} {v v' : τ} {serverKey' : Option Bytes}
    {preserveOrder extended : Bool} {ret : Zval} (hexc : t.exception = false)
    (hget : Cmd.exec g (phpMemcGetMultiImpl env serverKey' (arrayKeys a) preserveOrder extended) t v =
      (.done ret t', v'))
    (hread : ∀ r ∈ fetchAnswers (Cmd.log g
        (phpMemcGetMultiImpl env serverKey' (arrayKeys a) preserveOrder extended) t v),
      ReadSucceeds env t.memc.userData.serializer (a.map fun e => entryKey e.1) r) :
    (∃ parts : List (List (Entry Call Ans)),
      Cmd.log h (phpMemcSetMultiImpl env serverKey a expiration) s w = parts.flatten ∧
        List.Forall₂ WrittenUnder a parts) ∧
    (a.map fun e => entryKey e.1).Nodup ∧
    sHashToKeys env.zend (arrayKeys a) = a.map (fun e => entryKey e.1) ∧
    ∃ b, ret = .arr b ∧ (b.map Prod.fst).Perm (a.map Prod.fst) ∧
      (preserveOrder = true → b.map Prod.fst = a.map Prod.fst) := by
  have hrequest := sHashToKeys_arrayKeys env ha
  refine ⟨?_, nodup_entryKeys hnodup ha, hrequest, ?_⟩
  · obtain ⟨parts, hparts, hunder⟩ := writtenUnder_of_writeEach env hset hwritten
    exact ⟨parts, (log_phpMemcSetMultiImpl env hset).trans hparts, hunder⟩
  · by_cases hempty : a = []
    · subst hempty
      cases hget
      exact ⟨[], rfl, .nil, fun _ => rfl⟩
    · have hkeys : sHashToKeys env.zend (arrayKeys a) ≠ [] := by
        rw [hrequest]
        exact fun h => hempty (List.map_eq_nil_iff.mp h)
      have hne : arrayKeys a ≠ [] := by
        intro h
        rw [h] at hkeys
        exact hkeys rfl
      obtain ⟨b, rfl⟩ := returns_array_of_decodes env hkeys hexc hget
        fun r hr => ⟨(hread r hr).status, (hread r hr).decodes⟩
      obtain ⟨status, stream, hanswers, hb⟩ := run_phpMemcGetMultiImpl env hne hget
      have hsucceeds := hread (status, stream) (hanswers ▸ List.mem_singleton_self _)
      rw [hsucceeds.status, if_neg Bool.false_ne_true] at hb
      subst hb
      refine ⟨_, rfl, keys_of_mapsAnswers env hnodup ha hsucceeds (mapsAnswers_updateAll env ?_)⟩
      intro _ e he
      obtain ⟨p, hp, hkey⟩ := mem_answerEntries env he
      have hmem := (hsucceeds.answered p.2.key).mp ⟨p, hp, rfl⟩
      rw [← hrequest] at hmem
      obtain ⟨⟨x, hx, htext⟩, -⟩ := (mem_sHashToKeys env.zend (arrayKeys a) p.2.key).mp hmem
      exact ⟨x, hx, by rw [hkey, htext]⟩

/-- an integer key and a string that looks like it -/
def mixedKeys : HashTable := [(.int 7, .bool true), (.str (ascii ['0', '0', '7']), .long 1)]

/-- the answers for them, the other way round -/
def mixedAnswers : Stream :=
  ⟨[(.success, ⟨ascii ['0', '0', '7'], .bytes (ascii ['1']), memcValIsLong, 1⟩),
    (.success, ⟨ascii ['7'], .bytes (ascii ['1']), memcValIsBool, 2⟩)], .end_⟩

theorem readSucceeds_mixedAnswers : ReadSucceeds plainEnv .php (mixedKeys.map fun e => entryKey e.1)
    (.success, mixedAnswers) where
  status := rfl
  decodes := ⟨by decide, rfl, by
    intro p hp
    simp only [mixedAnswers, List.mem_cons, List.not_mem_nil, or_false] at hp
    rcases hp with rfl | rfl <;> rfl, by
    intro p hp
    simp only [mixedAnswers, List.mem_cons, List.not_mem_nil, or_false] at hp
    rcases hp with rfl | rfl <;> rfl⟩
  answered key := by
    have hkeys : (mixedKeys.map fun e => entryKey e.1) = [ascii ['7'], ascii ['0', '0', '7']] := rfl
    rw [hkeys]
    simp only [mixedAnswers, List.mem_cons, List.not_mem_nil, or_false, exists_eq_or_imp,
      exists_eq_left]
    constructor
    · rintro (rfl | rfl)
      · exact .inr rfl
      · exact .inl rfl
    · rintro (rfl | rfl)
      · exact .inr rfl
      · exact .inl rfl

/-- both written and read -/
theorem setMulti_getMulti_mixedKeys :
    (∃ parts : List (List (Entry Call Ans)),
      Cmd.log storesAll (phpMemcSetMultiImpl plainEnv none mixedKeys 0) (newObject iniDefaults 1)
          (0, ()) = parts.flatten ∧ List.Forall₂ WrittenUnder mixedKeys parts) ∧
    (mixedKeys.map fun e => entryKey e.1).Nodup ∧
    sHashToKeys plainEnv.zend (arrayKeys mixedKeys) = mixedKeys.map (fun e => entryKey e.1) ∧
    ∃ b, Zval.arr [(.str (ascii ['0', '0', '7']), .long 1), (.int 7, .bool true)] = .arr b ∧
      (b.map Prod.fst).Perm (mixedKeys.map Prod.fst) ∧
      (false = true → b.map Prod.fst = mixedKeys.map Prod.fst) := by
  have hkeys : ∀ e ∈ mixedKeys, ItemKey e.1 := by
    intro e he
    simp only [mixedKeys, List.mem_cons, List.not_mem_nil, or_false] at he
    rcases he with rfl | rfl
    · exact ⟨nofun, nofun, nofun⟩
    · refine ⟨?_, by decide, ?_⟩
      · rintro s ⟨⟩
        decide
      · rintro s ⟨⟩
        decide
  have hset : Cmd.exec storesAll (writeEach plainEnv none 0 mixedKeys) (newObject iniDefaults 1)
      (0, ()) = (.done [(true, .success), (true, .success)] (newObject iniDefaults 1), (2, ())) := rfl
  have hget : Cmd.exec (answering (.success, mixedAnswers))
      (phpMemcGetMultiImpl plainEnv none (arrayKeys mixedKeys) false false) (newObject iniDefaults 1)
      () = (.done (.arr [(.str (ascii ['0', '0', '7']), .long 1), (.int 7, .bool true)]) _, ()) := rfl
  refine setMulti_getMulti_keys plainEnv (by decide) hkeys hset (by decide) rfl hget ?_
  intro r hr
  obtain rfl := List.mem_singleton.mp hr
  exact readSucceeds_mixedAnswers

end
end PhpMemcached
