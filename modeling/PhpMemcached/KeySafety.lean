import PhpMemcached.Passive
import PhpMemcached.Routing

/-!
# Which item keys reach libmemcached

* `Call.itemKeys`          the item keys of a request;
* `KeysAre V`              the requests whose item keys satisfy `V`;
* `setMultiKeys`           the keys `setMulti` sends: those of the entries it has a payload for;
* `Method.KeysChecked`     when a call sends valid keys only.

Methods of one key test it. `getMulti`, `getDelayed` and `deleteMulti` look at the length of a key
only, `setMulti` at nothing.
-/

namespace PhpMemcached
open Ascii Requests

/-- the item keys of a request; a server key is not one -/
def Call.itemKeys : Call → List Bytes
  | .store _ _ key _ _ _ => [key]
  | .storeByKey _ _ _ key _ _ _ => [key]
  | .touch _ key _ => [key]
  | .touchByKey _ _ key _ => [key]
  | .cas _ key _ _ _ _ => [key]
  | .casByKey _ _ key _ _ _ _ => [key]
  | .mget _ keys => keys
  | .mgetByKey _ _ keys => keys
  | .delete _ key _ => [key]
  | .deleteByKey _ _ key _ => [key]
  | .counterByKey _ _ _ key _ => [key]
  | .counterWithInitial _ _ key _ _ _ => [key]
  | .counterWithInitialByKey _ _ _ key _ _ _ => [key]
  | _ => []

def KeysAre (V : Bytes → Prop) (c : Call) : Prop := ∀ key ∈ c.itemKeys, V key

section
variable (env : Env) {V : Bytes → Prop} {s : State} {α : Type}

theorem keysAre_one {key : Bytes} (h : V key) : ∀ k ∈ [key], V k := by
  intro k hk
  rw [List.mem_singleton.mp hk]
  exact h

theorem keysAre_none : ∀ k ∈ ([] : List Bytes), V k := fun _ hk => absurd hk List.not_mem_nil

theorem Call.IsWarning.keysAre {c : Call} (h : c.IsWarning) : KeysAre V c := by
  cases c <;> first | exact h.elim | exact keysAre_none

theorem passive_keysAre : Passive (KeysAre V) :=
  ⟨fun _ => keysAre_none, fun _ => keysAre_none, fun _ => keysAre_none, fun _ _ _ => keysAre_none,
    fun _ _ _ _ => keysAre_none, fun _ _ => keysAre_none⟩

theorem keysAre_fetchCall {serverKey : Option Bytes} {keys : List Bytes}
    (h : ∀ key ∈ keys, V key) (memc : Memc) : KeysAre V (fetchCall serverKey keys memc) := by
  cases serverKey <;> exact h

/-! ## one key -/

theorem sendsKeys_touchWarning (memc : Memc) (s : State) :
    Cmd.Asks (KeysAre V) (touchWarning env memc) s := by
  unfold touchWarning
  split
  · exact ⟨keysAre_none, fun _ => trivial⟩
  · trivial

theorem sendsKeys_writeAttempt {op : WriteOp} {serverKey : Option Bytes} {key : Bytes}
    (payload : Option Bytes) (expiration : Int64) (flags : Flags) (hkey : V key) (s : State) :
    Cmd.Asks (KeysAre V) (writeAttempt env op serverKey key payload expiration flags) s := by
  cases op with
  | touch =>
    cases serverKey with
    | none =>
      have h : Cmd.Asks (KeysAre V) (phpMemcachedTouch env key expiration) s :=
        Cmd.Asks.bind (m := touchWarning env s.memc) (sendsKeys_touchWarning env s.memc s)
          fun _ _ => ⟨keysAre_one hkey, fun _ => trivial⟩
      exact h.map
    | some serverKey =>
      have h : Cmd.Asks (KeysAre V) (phpMemcachedTouchByKey env serverKey key expiration) s :=
        Cmd.Asks.bind (m := touchWarning env s.memc) (sendsKeys_touchWarning env s.memc s)
          fun _ _ => ⟨keysAre_one hkey, fun _ => trivial⟩
      exact h.map
  | _ =>
    cases payload with
    | none => cases serverKey <;> trivial
    | some p => cases serverKey <;> exact ⟨keysAre_one hkey, fun _ => trivial⟩

/-- a write sends its key, and no other -/
theorem sendsKeys_sMemcWriteZval (op : WriteOp) (serverKey : Option Bytes) {key : Bytes}
    (value : Option Zval) (expiration : Int64) (hkey : V key) (s : State) :
    Cmd.Asks (KeysAre V) (sMemcWriteZval env op serverKey key value expiration) s := by
  have hpayload : Cmd.Asks (KeysAre V) (writePayload env value) s :=
    (ends_writePayload env s value).sat.mono (fun _ h => h.keysAre) fun _ _ _ => trivial
  unfold sMemcWriteZval
  rw [Cmd.asks_get_bind]
  refine hpayload.bind fun r s' => ?_
  cases r with
  | error status => trivial
  | ok r =>
    show Cmd.Asks (KeysAre V) (writeAttempts env op serverKey key r.1 expiration r.2
      s.memc.userData.storeRetryCount >>= sMemcStatusHandleResultCode) s'
    rw [writeAttempts_eq, bind_assoc]
    refine (sendsKeys_writeAttempt env _ _ _ hkey s').bind fun status s₁ => ?_
    have hretry : Cmd.Asks (KeysAre V) (Cmd.retry sShouldRetryWrite
        (fun _ => writeAttempt env op none key r.1 expiration r.2)
        s.memc.userData.storeRetryCount.toInt.toNat status) s₁ :=
      Cmd.Sat.retry (fun _ s _ _ => sendsKeys_writeAttempt env _ _ _ hkey s) _ trivial
    exact hretry.bind fun status s₂ => asks_handleResultCode passive_keysAre status s₂

/-- what follows the test runs on a valid key -/
theorem sendsKeys_checkKeyOr {key : Bytes} {next : MemcM Zval}
    (h : ValidKey s.memc key → Cmd.Asks (KeysAre V) next s) :
    Cmd.Asks (KeysAre V) (checkKeyOr key next) s := by
  unfold checkKeyOr
  rw [Cmd.asks_get_bind]
  split
  · rename_i hk
    exact h ((memcCheckKey_iff _ _).mp hk)
  · trivial

/-! ## the fill -/

/-- the fill of a read sends the key of the read -/
theorem sendsKeys_sInvokeCacheCallback (withCas : Bool) {key : Bytes} (value : Zval)
    (hkey : V key) (s : State) :
    Cmd.Asks (KeysAre V) (sInvokeCacheCallback env withCas key value) s := by
  have hwrite : ∀ rv expiration (v : Zval) s', Cmd.Asks (KeysAre V) (do
      let status ← sMemcWriteZval env .set none key (some rv) expiration
      pure (status, v)) s' :=
    fun rv expiration v s' =>
      (sendsKeys_sMemcWriteZval env .set none (some rv) expiration hkey s').bind fun _ _ => trivial
  unfold sInvokeCacheCallback
  rw [Cmd.asks_get_bind]
  refine ⟨keysAre_none, fun r => ?_⟩
  show Cmd.Asks (KeysAre V) (if r.ran then _ else _ : MemcM (Bool × Zval)) r.object
  split
  · split
    · split
      · split
        · split
          · exact hwrite _ _ _ _
          · trivial
        · trivial
      · exact hwrite _ _ _ _
    · trivial
  · trivial

/-! ## `setMulti` -/

/-- whether the serializer a value goes through throws -/
def serializerThrows (s : State) : Zval → Bool
  | .str _ | .long _ | .double _ | .bool _ => false
  | value => (serializeBuffer env s.memc.userData.serializer value).2

/-- the keys `setMulti` sends if no error handler of the user throws: those of the entries that
have a payload, up to one whose serializer crashes -/
def setMultiKeys (s : State) : HashTable → List Bytes
  | [] => []
  | (k, value) :: entries =>
    let rest := setMultiKeys { s with exception := s.exception || serializerThrows env s value }
      entries
    match writeOut env s (some value) with
    | .send _ _ => entryKey k :: rest
    | .refuse _ => rest
    | .crash => []

/-- the same handle, an exception pending that was pending or that `thrown` tells of -/
structure Thrown (s : State) (thrown : Bool) (s' : State) : Prop where
  memc : s'.memc = s.memc
  exception : (s.exception || thrown) = true → s'.exception = true

theorem Thrown.of_or {s₀ : State} {thrown e : Bool} :
    Thrown s₀ thrown { s₀ with exception := s₀.exception || thrown || e } where
  memc := rfl
  exception h := by
    show (s₀.exception || thrown || e) = true
    rw [h]
    rfl

theorem Thrown.none : Thrown s false s := ⟨rfl, fun h => by simpa using h⟩

theorem Thrown.trans {s₀ s₁ s₂ : State} {thrown : Bool} (h : Thrown s₀ thrown s₁)
    (h' : Thrown s₁ false s₂) : Thrown s₀ thrown s₂ where
  memc := h'.memc.trans h.memc
  exception ht := h'.exception (by rw [h.exception ht]; rfl)

theorem sat_serializePayload_thrown (value : Zval) (flags : Flags) :
    Cmd.Sat (fun _ => True)
      (fun _ => Thrown s (serializeBuffer env s.memc.userData.serializer value).2)
      (serializePayload env s.memc.userData value flags) s := by
  unfold serializePayload sSerializeValue raise phpWarning
  rcases serializeBuffer env s.memc.userData.serializer value with ⟨_ | ⟨_ | b, type⟩, thrown⟩
  · exact ⟨trivial, fun r => Thrown.of_or⟩
  · simp only [bind_assoc, Cmd.sat_modify_bind, Cmd.sat_get_bind]
    split <;> trivial
  · have hs : Thrown s thrown { s with exception := s.exception || thrown } := ⟨rfl, id⟩
    simp only [bind_assoc, Cmd.sat_modify_bind, Cmd.sat_get_bind]
    split
    · split <;> exact hs
    · exact hs

theorem sat_sZvalToPayload_thrown (value : Zval) (flags : Flags) :
    Cmd.Sat (fun _ => True) (fun _ => Thrown s (serializerThrows env s value))
      (sZvalToPayload env value flags) s := by
  cases value with
  | str b => exact Thrown.none
  | long n => exact Thrown.none
  | double d => exact Thrown.none
  | bool b => cases b <;> exact Thrown.none
  | null => exact sat_serializePayload_thrown env _ flags
  | arr a => exact sat_serializePayload_thrown env _ flags
  | obj n => exact sat_serializePayload_thrown env _ flags

/-- with an exception pending a value is refused that would be sent otherwise; nothing else
changes -/
theorem writeOut_thrown {s s' : State} (h : Thrown s false s') (value : Zval) :
    writeOut env s' (some value) = writeOut env s (some value) ∨
      (writeOut env s' (some value) = .refuse .payloadFailure ∧
        writeOut env s (some value) ≠ .crash) := by
  obtain ⟨memc, pristine, rescode, errno, exception⟩ := s
  obtain ⟨memc', pristine', rescode', errno', exception'⟩ := s'
  obtain ⟨rfl, hexc⟩ := h
  have hser : ∀ v, (PayloadOut.toWrite ⟨memc', pristine', rescode', errno', exception'⟩
        (serializedOut env ⟨memc', pristine', rescode', errno', exception'⟩ v 0) =
      PayloadOut.toWrite ⟨memc', pristine, rescode, errno, exception⟩
        (serializedOut env ⟨memc', pristine, rescode, errno, exception⟩ v 0)) ∨
      (PayloadOut.toWrite ⟨memc', pristine', rescode', errno', exception'⟩
        (serializedOut env ⟨memc', pristine', rescode', errno', exception'⟩ v 0) =
          .refuse .payloadFailure ∧
      PayloadOut.toWrite ⟨memc', pristine, rescode, errno, exception⟩
        (serializedOut env ⟨memc', pristine, rescode, errno, exception⟩ v 0) ≠ .crash) := by
    intro v
    unfold serializedOut
    rcases serializeBuffer env memc'.userData.serializer v with ⟨_ | ⟨_ | b, type⟩, thrown⟩
    · exact .inl rfl
    · exact .inl rfl
    · dsimp only
      by_cases hs : (exception || thrown) = true ∧ b.length ≠ 0
      · have hs' : (exception' || thrown) = true ∧ b.length ≠ 0 := by
          refine ⟨?_, hs.2⟩
          cases exception with
          | true => rw [show exception' = true from hexc rfl]; rfl
          | false => rw [show thrown = true from hs.1, Bool.or_true]
        rw [if_pos hs, if_pos hs']
        exact .inl rfl
      · by_cases hs' : (exception' || thrown) = true ∧ b.length ≠ 0
        · rw [if_neg hs, if_pos hs']
          refine .inr ⟨rfl, ?_⟩
          unfold finishOut PayloadOut.toWrite
          dsimp only
          split <;> exact nofun
        · rw [if_neg hs, if_neg hs']
          exact .inl rfl
  cases value with
  | str b => exact .inl rfl
  | long n => exact .inl rfl
  | double d => exact .inl rfl
  | bool b => cases b <;> exact .inl rfl
  | null => exact hser _
  | arr a => exact hser _
  | obj n => exact hser _

theorem sat_handleResultCode_thrown (status : Status) (s : State) :
    Cmd.Sat (KeysAre V) (fun _ => Thrown s false) (sMemcStatusHandleResultCode status) s := by
  unfold sMemcStatusHandleResultCode sMemcSetStatus
  rw [Cmd.sat_modify_bind]
  have hs : ∀ e, Thrown s false { s with rescode := status, memcErrno := e } :=
    fun e => ⟨rfl, fun h => by simpa using h⟩
  split
  · exact ⟨keysAre_none, fun e => hs e⟩
  · exact hs 0

theorem sat_writePayload_thrown (value : Zval) :
    Cmd.Sat (KeysAre V) (fun r s' => (writeOut env s (some value)).Ends s (.done r s') ∧
      Thrown s (serializerThrows env s value) s') (writePayload env (some value)) s := by
  have hthrown : Cmd.Sat (fun _ => True) (fun _ => Thrown s (serializerThrows env s value))
      (writePayload env (some value)) s := by
    refine (sat_sZvalToPayload_thrown env value 0).bind fun r s' hr => ?_
    cases r with
    | none => exact hr
    | some r =>
      rw [Cmd.sat_get_bind]
      split <;> exact hr
  exact ((ends_writePayload env s (some value)).sat.and hthrown).mono
    (fun _ h => h.1.keysAre) fun _ _ h => h

/-- an attempt to set leaves the object as it is -/
theorem sat_writeAttempt_set (serverKey : Option Bytes) (key : Bytes) (payload : Option Bytes)
    (expiration : Int64) (flags : Flags) (s : State) :
    Cmd.Sat (fun _ => True) (fun _ s' => s' = s)
      (writeAttempt env .set serverKey key payload expiration flags) s := by
  cases payload <;> cases serverKey <;> first | exact ⟨trivial, fun _ => rfl⟩ | exact rfl

/-- a write of `setMulti`: its key is sent if there is a payload, and there is a next write unless
it crashes -/
theorem sat_sMemcWriteZval_set {serverKey : Option Bytes} {key : Bytes} {value : Zval}
    {expiration : Int64} (hkey : ∀ p f, writeOut env s (some value) = .send p f → V key) :
    Cmd.Sat (KeysAre V) (fun _ s' => Thrown s (serializerThrows env s value) s' ∧
        writeOut env s (some value) ≠ .crash)
      (sMemcWriteZval env .set serverKey key (some value) expiration) s := by
  unfold sMemcWriteZval
  rw [Cmd.sat_get_bind]
  refine (sat_writePayload_thrown env value).bind fun r s₁ hr => ?_
  obtain ⟨hr, ht⟩ := hr
  cases hout : writeOut env s (some value) with
  | crash =>
    rw [hout] at hr
    cases r <;> exact hr.elim
  | refuse st =>
    rw [hout] at hr
    cases r with
    | ok r => exact hr.elim
    | error st' => exact ⟨⟨ht.memc, ht.exception⟩, nofun⟩
  | send p f =>
    rw [hout] at hr
    cases r with
    | error st => exact hr.elim
    | ok r =>
      have hkey := hkey p f hout
      show Cmd.Sat _ _ (writeAttempts env .set serverKey key r.1 expiration r.2
        s.memc.userData.storeRetryCount >>= sMemcStatusHandleResultCode) s₁
      have hattempt : ∀ serverKey, Cmd.Sat (KeysAre V) (fun _ s' => s' = s₁)
          (writeAttempt env .set serverKey key r.1 expiration r.2) s₁ := fun serverKey =>
        ((sendsKeys_writeAttempt env _ _ _ hkey s₁).and
          (sat_writeAttempt_set env serverKey key _ _ _ s₁)).mono (fun _ h => h.1) fun _ _ h => h.2
      rw [writeAttempts_eq, bind_assoc]
      refine (hattempt serverKey).bind fun st s₂ hs₂ => ?_
      have hretry : Cmd.Sat (KeysAre V) (fun _ s' => s' = s₁) (Cmd.retry sShouldRetryWrite
          (fun _ => writeAttempt env .set none key r.1 expiration r.2)
          s.memc.userData.storeRetryCount.toInt.toNat st) s₂ :=
        Cmd.Sat.retry (fun _ s' hs' _ => by rw [hs']; exact hattempt none) _ hs₂
      refine hretry.bind fun st s₃ hs₃ => ?_
      subst hs₃
      exact (sat_handleResultCode_thrown st s₃).mono (fun _ h => h) fun _ _ h =>
        ⟨ht.trans h, nofun⟩

theorem serializerThrows_congr {s s' : State} (hmemc : s'.memc = s.memc) (value : Zval) :
    serializerThrows env s' value = serializerThrows env s value := by
  cases value <;> first | rfl | exact congrArg (fun m : Memc =>
    (serializeBuffer env m.userData.serializer _).2) hmemc

/-- after a write of a value: an exception is pending at least if it were without error handlers
that throw -/
theorem Thrown.next {s' s₁ : State} {value : Zval} (hs : Thrown s false s')
    (h₁ : Thrown s' (serializerThrows env s' value) s₁) :
    Thrown { s with exception := s.exception || serializerThrows env s value } false s₁ := by
  refine ⟨h₁.memc.trans hs.memc, fun ht => h₁.exception ?_⟩
  rw [serializerThrows_congr env hs.memc]
  change (s.exception || serializerThrows env s value || false) = true at ht
  cases hexc : s.exception with
  | true => rw [hs.exception (by rw [hexc]; rfl)]; rfl
  | false =>
    rw [hexc, Bool.or_false, Bool.false_or] at ht
    rw [ht, Bool.or_true]

/-- the loop sends no other keys than those, even if error handlers throw -/
theorem sendsKeys_setMultiLoop (serverKey : Option Bytes) (expiration : Int64)
    {entries : HashTable} {s' : State} (hs : Thrown s false s')
    (h : ∀ key ∈ setMultiKeys env s entries, V key) :
    Cmd.Asks (KeysAre V) (setMultiLoop env serverKey expiration entries) s' := by
  induction entries generalizing s s' with
  | nil => trivial
  | cons e entries ih =>
    obtain ⟨k, value⟩ := e
    rw [setMultiKeys] at h
    have hkey : ∀ p f, writeOut env s' (some value) = .send p f → V (entryKey k) := by
      intro p f hsend
      rcases writeOut_thrown env hs value with heq | ⟨hrefuse, -⟩
      · rw [heq] at hsend
        rw [hsend] at h
        exact h _ List.mem_cons_self
      · rw [hrefuse] at hsend
        cases hsend
    refine (sat_sMemcWriteZval_set env hkey).bind fun ok s₁ hs₁ => ?_
    obtain ⟨ht, hcrash⟩ := hs₁
    refine ih (hs.next env ht) fun key hmem => ?_
    cases hout : writeOut env s (some value) with
    | crash =>
      rcases writeOut_thrown env hs value with heq | ⟨-, hne⟩
      · exact absurd (heq.trans hout) hcrash
      · exact absurd hout hne
    | refuse st =>
      rw [hout] at h
      exact h key hmem
    | send p f =>
      rw [hout] at h
      exact h key (List.mem_cons_of_mem _ hmem)

/-! ## `setMulti` against a libmemcached that stores everything -/

/-- every write succeeds, no error handler throws -/
def storesAll : Handler Call Ans (Nat × Unit) := scripted (fun _ => .success) noServers

/-- no error handler throws: the exception that is pending comes from the serializer -/
theorem exec_sZvalToPayload_storesAll {value : Zval}
    (hout : writeOut env s (some value) ≠ .crash) (w : Nat × Unit) :
    ∃ r, Cmd.exec storesAll (sZvalToPayload env value 0) s w =
      (.done r { s with exception := s.exception || serializerThrows env s value }, w) := by
  have hplain : ∀ r : Option (Bytes × Flags), ∃ r',
      ((.done r s, w) : Outcome Abort State (Option (Bytes × Flags)) × (Nat × Unit)) =
        (.done r' { s with exception := s.exception || false }, w) :=
    fun r => ⟨r, by rw [Bool.or_false]⟩
  have hser : ∀ v, serializedOut env s v 0 ≠ .crash → ∃ r,
      Cmd.exec storesAll (serializePayload env s.memc.userData v 0) s w = (.done r
        { s with exception := s.exception ||
          (serializeBuffer env s.memc.userData.serializer v).2 }, w) := by
    intro v hv
    unfold serializedOut at hv
    unfold serializePayload sSerializeValue raise phpWarning
    rcases hbuf : serializeBuffer env s.memc.userData.serializer v with
      ⟨_ | ⟨_ | b, type⟩, thrown⟩
    · refine ⟨none, ?_⟩
      show (Outcome.done none { s with exception := s.exception || thrown || false }, w) = _
      rw [Bool.or_false]
    · rw [hbuf] at hv
      exact absurd rfl hv
    · simp only [bind_assoc, Cmd.exec_modify_bind, Cmd.exec_get_bind]
      split
      · split
        · exact ⟨_, rfl⟩
        · exact ⟨_, rfl⟩
      · exact ⟨_, rfl⟩
  have hcrash : ∀ o : PayloadOut, o.toWrite s ≠ .crash → o ≠ .crash := by
    rintro o ho rfl
    exact ho rfl
  cases value with
  | str b => exact hplain _
  | long n => exact hplain _
  | double d => exact hplain _
  | bool b => cases b <;> exact hplain _
  | null => exact hser _ (hcrash _ hout)
  | arr a => exact hser _ (hcrash _ hout)
  | obj n => exact hser _ (hcrash _ hout)

/-- the first attempt succeeds -/
theorem exec_writeAttempts_storesAll (serverKey : Option Bytes) (key payload : Bytes)
    (expiration : Int64) (flags : Flags) (retries : Int64) (s : State) (w : Nat × Unit) :
    Cmd.exec storesAll (writeAttempts env .set serverKey key (some payload) expiration flags
      retries) s w = (.done .success s, (w.1 + 1, w.2)) := by
  have hattempt : Cmd.exec storesAll
      (writeAttempt env .set serverKey key (some payload) expiration flags) s w =
        (.done .success s, (w.1 + 1, w.2)) := by
    cases serverKey <;> rfl
  have hmore : sShouldRetryWrite s .success = false := by
    unfold sShouldRetryWrite
    split <;> rfl
  rw [writeAttempts_eq, Cmd.exec_bind_done hattempt, Cmd.exec, Cmd.retry_of_not_more hmore]
  rfl

/-- a write that does not crash ends, and an exception comes from the serializer -/
theorem exec_sMemcWriteZval_storesAll (serverKey : Option Bytes) (key : Bytes) {value : Zval}
    (expiration : Int64) (hout : writeOut env s (some value) ≠ .crash) (w : Nat × Unit) :
    ∃ ok s' w', Cmd.exec storesAll (sMemcWriteZval env .set serverKey key (some value) expiration)
        s w = (.done ok s', w') ∧
      s'.memc = s.memc ∧ s'.exception = (s.exception || serializerThrows env s value) := by
  obtain ⟨r, hr⟩ := exec_sZvalToPayload_storesAll env hout w
  obtain ⟨s₁, hs₁⟩ : ∃ s₁ : State, s₁ =
    { s with exception := s.exception || serializerThrows env s value } := ⟨_, rfl⟩
  rw [← hs₁] at hr
  suffices hend : ∃ ok s' w', Cmd.exec storesAll
      (sMemcWriteZval env .set serverKey key (some value) expiration) s w = (.done ok s', w') ∧
      s'.memc = s₁.memc ∧ s'.exception = s₁.exception by
    rw [hs₁] at hend
    exact hend
  unfold sMemcWriteZval
  rw [Cmd.exec_get_bind]
  cases r with
  | none =>
    have hpayload : Cmd.exec storesAll (writePayload env (some value)) s w =
      (.done (.error .payloadFailure) s₁, w) := Cmd.exec_bind_done hr
    rw [Cmd.exec_bind_done hpayload]
    exact ⟨_, _, _, rfl, rfl, rfl⟩
  | some r =>
    by_cases hbig : sIsPayloadTooBig s₁ r.1 = true
    · have hpayload : Cmd.exec storesAll (writePayload env (some value)) s w =
          (.done (.error .e2big) s₁, w) := by
        refine (Cmd.exec_bind_done hr).trans ?_
        rw [Cmd.exec_get_bind, if_pos hbig]
        rfl
      rw [Cmd.exec_bind_done hpayload]
      exact ⟨_, _, _, rfl, rfl, rfl⟩
    · have hpayload : Cmd.exec storesAll (writePayload env (some value)) s w =
          (.done (.ok (some r.1, r.2)) s₁, w) := by
        refine (Cmd.exec_bind_done hr).trans ?_
        rw [Cmd.exec_get_bind, if_neg hbig]
        rfl
      rw [Cmd.exec_bind_done hpayload]
      exact ⟨_, _, _, Cmd.exec_bind_done (exec_writeAttempts_storesAll env serverKey key r.1
        expiration r.2 _ s₁ w), rfl, rfl⟩

theorem Call.req_of_attempt? {c c' : Call} {r : Ans c} {st : Status}
    (h : c.attempt? r = some (c', st)) : c = c' := by
  cases c <;> first | exact (Prod.mk.inj (Option.some.inj h)).1 | cases h

/-- a write that has a payload sends its key -/
theorem key_of_sMemcWriteZval {serverKey : Option Bytes} {key : Bytes} {value : Zval}
    {expiration : Int64} {payload : Option Bytes} {flags : Flags}
    (hout : writeOut env s (some value) = .send payload flags)
    (h : Cmd.Asks (KeysAre V) (sMemcWriteZval env .set serverKey key (some value) expiration) s) :
    V key := by
  obtain ⟨p, rfl⟩ := isSome_of_writeOut_send env hout
  have hkeys : ∀ c, writeRequest s.memc .set serverKey key (some p) expiration flags = some c →
      c.itemKeys = [key] := by
    intro c hc
    cases serverKey <;> cases hc <;> rfl
  obtain ⟨c, hc⟩ : ∃ c, writeRequest s.memc .set serverKey key (some p) expiration flags =
      some c := by
    cases serverKey <;> exact ⟨_, rfl⟩
  obtain ⟨c', hc'⟩ := writeRequest_plain hc
  obtain ⟨k, as, hlog, -⟩ := writeLog_of_send (fun _ => .success) noServers () hout hc hc'
  have hfirst : attempts (Cmd.log storesAll
      (sMemcWriteZval env .set serverKey key (some value) expiration) s (0, ())) =
        (c, Status.success) :: as := hlog
  have hmem : (c, Status.success) ∈ (c, Status.success) :: as := List.mem_cons_self
  rw [← hfirst] at hmem
  obtain ⟨e, he, hreq⟩ := List.mem_filterMap.mp hmem
  have hV := h.log storesAll (0, ()) e he
  rw [KeysAre, Call.req_of_attempt? hreq, hkeys c hc] at hV
  exact hV key List.mem_cons_self

/-- only handle and exception flag have a part in what is sent -/
theorem setMultiKeys_congr {s s' : State} (hmemc : s'.memc = s.memc)
    (hexc : s'.exception = s.exception) (entries : HashTable) :
    setMultiKeys env s' entries = setMultiKeys env s entries := by
  induction entries generalizing s s' with
  | nil => rfl
  | cons e entries ih =>
    obtain ⟨k, value⟩ := e
    obtain ⟨memc, pristine, rescode, errno, exception⟩ := s
    obtain ⟨memc', pristine', rescode', errno', exception'⟩ := s'
    cases hmemc
    cases hexc
    have hout : writeOut env ⟨memc, pristine', rescode', errno', exception⟩ (some value) =
        writeOut env ⟨memc, pristine, rescode, errno, exception⟩ (some value) :=
      writeOut_congr env rfl rfl _
    have hser : serializerThrows env ⟨memc, pristine', rescode', errno', exception⟩ value =
        serializerThrows env ⟨memc, pristine, rescode, errno, exception⟩ value := by
      cases value <;> rfl
    rw [setMultiKeys, setMultiKeys, hout, hser]
    cases writeOut env ⟨memc, pristine, rescode, errno, exception⟩ (some value) with
    | send p f => exact congrArg (entryKey k :: ·) (ih rfl rfl)
    | refuse st => exact ih rfl rfl
    | crash => rfl

/-- the loop sends all those keys -/
theorem keys_of_setMultiLoop (serverKey : Option Bytes) (expiration : Int64) {entries : HashTable}
    (h : Cmd.Asks (KeysAre V) (setMultiLoop env serverKey expiration entries) s) :
    ∀ key ∈ setMultiKeys env s entries, V key := by
  induction entries generalizing s with
  | nil => exact keysAre_none
  | cons e entries ih =>
    obtain ⟨k, value⟩ := e
    have hbind := (Cmd.sat_bind (sMemcWriteZval env .set serverKey (entryKey k) (some value)
      expiration) (fun _ => setMultiLoop env serverKey expiration entries)).mp h
    have hfirst : Cmd.Asks (KeysAre V) (sMemcWriteZval env .set serverKey (entryKey k) (some value)
        expiration) s := hbind.mono (fun _ h => h) fun _ _ _ => trivial
    have hrest : writeOut env s (some value) ≠ .crash → ∀ key ∈ setMultiKeys env
        { s with exception := s.exception || serializerThrows env s value } entries, V key := by
      intro hout
      obtain ⟨ok, s', w', hx, hmemc, hexc⟩ :=
        exec_sMemcWriteZval_storesAll env serverKey (entryKey k) expiration hout (0, ())
      have hsame := setMultiKeys_congr env
        (s := { s with exception := s.exception || serializerThrows env s value }) hmemc hexc entries
      rw [← hsame]
      exact ih (hbind.exec hx)
    rw [setMultiKeys]
    cases hout : writeOut env s (some value) with
    | crash => exact keysAre_none
    | refuse st => exact hrest (by rw [hout]; exact nofun)
    | send p f =>
      intro key hkey
      rcases List.mem_cons.mp hkey with rfl | hkey
      · exact key_of_sMemcWriteZval env hout hfirst
      · exact hrest (by rw [hout]; exact nofun) key hkey

/-! ## the methods -/

/-- the tested key of a read is the only one it asks for -/
theorem sendsKeys_phpMemcGetImpl (serverKey : Option Bytes) (key : Bytes)
    (hasCallback extended : Bool) :
    Cmd.Asks (KeysAre (ValidKey s.memc))
      (phpMemcGetImpl env serverKey key hasCallback extended) s := by
  unfold phpMemcGetImpl sMemcSetStatus
  rw [Cmd.asks_modify_bind]
  refine sendsKeys_checkKeyOr fun hkey => ?_
  have hkeys : ∀ k ∈ sKeyToKeys env.zend key, ValidKey s.memc k := by
    intro k hk
    obtain ⟨⟨e, he, rfl⟩, -⟩ := (mem_sHashToKeys _ _ _).mp hk
    rw [List.mem_singleton.mp he]
    exact hkey
  refine (asks_phpMemcMgetApply env passive_keysAre extended _ (keysAre_fetchCall hkeys) ?_ _).bind
    fun r s₁ => ?_
  · intro a ha
    cases ha
    exact passiveApply_sGetApplyFn extended
  · have hend : ∀ v s', Cmd.Asks (KeysAre (ValidKey s.memc)) (phpMemcGetImpl.endOfGet v) s' :=
      fun _ _ => trivial
    show Cmd.Asks (KeysAre (ValidKey s.memc)) (if _ then _ else _ : MemcM Zval) s₁
    split
    · refine (sendsKeys_sInvokeCacheCallback env extended r.2 hkey s₁).bind fun r s₂ => ?_
      show Cmd.Asks (KeysAre (ValidKey s.memc)) (if _ then _ else _ : MemcM Zval) s₂
      split
      · trivial
      · exact hend _ _
    · exact hend _ _

/-- the tested key of a write is the only one it sends -/
theorem sendsKeys_phpMemcStoreImpl (op : WriteOp) (serverKey : Option Bytes) (key : Bytes)
    (value : Option Zval) (expiration : Int64) :
    Cmd.Asks (KeysAre (ValidKey s.memc))
      (phpMemcStoreImpl env op serverKey key value expiration) s := by
  unfold phpMemcStoreImpl sMemcSetStatus
  rw [Cmd.asks_modify_bind]
  refine sendsKeys_checkKeyOr fun hkey => ?_
  rw [Cmd.asks_get_bind]
  split
  · exact (asks_phpWarning passive_keysAre _ _).bind fun _ _ => trivial
  · exact (sendsKeys_sMemcWriteZval env op serverKey value expiration hkey _).bind
      fun _ _ => trivial

theorem sendsKeys_phpMemcCasImpl (serverKey : Option Bytes) (zvCas : Zval) (key : Bytes)
    (value : Zval) (expiration : Int64) :
    Cmd.Asks (KeysAre (ValidKey s.memc))
      (phpMemcCasImpl env serverKey zvCas key value expiration) s := by
  unfold phpMemcCasImpl sMemcSetStatus
  rw [Cmd.asks_modify_bind]
  refine sendsKeys_checkKeyOr fun hkey => ?_
  split
  · trivial
  · have hpayload (s' : State) :
        Cmd.Asks (KeysAre (ValidKey s.memc)) (sZvalToPayload env value 0) s' :=
      (ends_sZvalToPayload env s' value 0).sat.mono (fun _ h => h.1.keysAre) fun _ _ _ => trivial
    refine (hpayload _).bind fun r s₁ => ?_
    cases r with
    | none => trivial
    | some r =>
      rw [Cmd.asks_get_bind]
      split
      · trivial
      · refine asks_status passive_keysAre _ ?_
        cases serverKey <;> exact ⟨keysAre_one hkey, fun _ => trivial⟩

theorem sendsKeys_phpMemcDeleteImpl (serverKey : Option Bytes) (key : Bytes)
    (expiration : Int64) :
    Cmd.Asks (KeysAre (ValidKey s.memc)) (phpMemcDeleteImpl serverKey key expiration) s := by
  unfold phpMemcDeleteImpl sMemcSetStatus
  rw [Cmd.asks_modify_bind]
  refine sendsKeys_checkKeyOr fun hkey => ?_
  refine asks_status passive_keysAre _ ?_
  cases serverKey <;> exact ⟨keysAre_one hkey, fun _ => trivial⟩

theorem sendsKeys_counterEnd (r : CounterRes) (s : State) :
    Cmd.Asks (KeysAre V) (counterEnd r) s := by
  cases r with
  | none => trivial
  | some r =>
    refine (asks_handleResultCode passive_keysAre r.1 s).bind fun ok s' => ?_
    show Cmd.Asks (KeysAre V) (if _ then _ else _ : MemcM Zval) s'
    split
    · split <;> trivial
    · trivial

theorem sendsKeys_counterAttempt (fn : CounterFn) (serverKey : Option Bytes) {key : Bytes}
    (offset initial expiry : Int64) (value : UInt64) (hkey : V key) (s : State) :
    Cmd.Asks (KeysAre V) (counterAttempt fn serverKey key offset initial expiry value) s := by
  unfold counterAttempt
  rw [Cmd.asks_get_bind]
  split
  · exact (asks_phpWarning passive_keysAre _ _).bind fun _ _ => trivial
  · cases serverKey <;> exact ⟨keysAre_one hkey, fun _ => trivial⟩

theorem sendsKeys_phpMemcIncdecImpl (fn : CounterFn) (serverKey : Option Bytes) (key : Bytes)
    (offset : Int64) (initial : Option (Int64 × Int64)) :
    Cmd.Asks (KeysAre (ValidKey s.memc)) (phpMemcIncdecImpl fn serverKey key offset initial) s := by
  unfold phpMemcIncdecImpl sMemcSetStatus
  rw [Cmd.asks_modify_bind]
  refine sendsKeys_checkKeyOr fun hkey => ?_
  split
  · exact (asks_phpWarning passive_keysAre _ _).bind fun _ _ => trivial
  · cases initial with
    | none =>
      have hplain : ∀ s',
          Cmd.Asks (KeysAre (ValidKey s.memc)) (counterPlain fn serverKey key offset) s' :=
        fun _ => ⟨keysAre_one hkey, fun _ => trivial⟩
      exact (hplain _).bind fun r s₁ => sendsKeys_counterEnd r s₁
    | some initial =>
      rw [Cmd.asks_get_bind]
      refine (sendsKeys_counterAttempt fn serverKey offset _ _ _ hkey _).bind fun r s₁ => ?_
      have hretry : ∀ n, Cmd.Asks (KeysAre (ValidKey s.memc)) (Cmd.retry shouldRetryCounter
          (counterAgain fn serverKey key offset initial.1 initial.2) n r) s₁ := by
        refine fun n => Cmd.Sat.retry (fun r s' _ _ => ?_) n trivial
        cases r with
        | none => trivial
        | some r => exact sendsKeys_counterAttempt fn serverKey offset _ _ _ hkey s'
      exact (hretry _).bind fun r s₂ => sendsKeys_counterEnd r s₂

/-- a request of several keys sends them all -/
theorem keys_of_phpMemcMgetApply {serverKey : Option Bytes} {keys : List Bytes}
    {apply : Option (ResultApplyFn α)} {withCas : Bool} {acc : α}
    (h : Cmd.Asks (KeysAre V) (phpMemcMgetApply env serverKey keys apply withCas acc) s) :
    ∀ key ∈ keys, V key := by
  unfold phpMemcMgetApply sMemcSetStatus at h
  rw [Cmd.asks_modify_bind] at h
  split at h
  · rename_i hnil
    rw [hnil]
    exact keysAre_none
  · rw [Cmd.asks_get_bind] at h
    dsimp only at h
    obtain ⟨s₁, f, h₁⟩ : ∃ s₁, ∃ f : Status → MemcM (Bool × α),
        Cmd.Asks (KeysAre V) (memcachedMget serverKey keys >>= f) s₁ := by
      cases hc : (withCas && decide (memcachedBehaviorGet s.memc .supportCas = 0)) with
      | false =>
        rw [hc] at h
        exact ⟨_, _, h⟩
      | true =>
        rw [hc] at h
        exact ⟨_, _, h.2 (.success, s.memc.behavior)⟩
    have hmget := (Cmd.sat_bind _ _).mp h₁
    cases serverKey <;> exact hmget.1

theorem sendsKeys_phpMemcMgetApply_iff (serverKey : Option Bytes) (keys : List Bytes)
    (apply : Option (ResultApplyFn α)) (withCas : Bool) (acc : α)
    (happly : ∀ a ∈ apply, PassiveApply a) (s : State) :
    Cmd.Asks (KeysAre V) (phpMemcMgetApply env serverKey keys apply withCas acc) s ↔
      ∀ key ∈ keys, V key :=
  ⟨keys_of_phpMemcMgetApply env, fun h =>
    asks_phpMemcMgetApply env passive_keysAre withCas acc (keysAre_fetchCall h) happly s⟩

/-- the loop of `deleteMulti` sends the keys that are not empty -/
theorem sendsKeys_deleteMultiLoop_iff (serverKey : Option Bytes) (expiration : Int64)
    (entries : List Zval) (ret : HashTable) (s : State) :
    Cmd.Asks (KeysAre V) (deleteMultiLoop env serverKey expiration entries ret) s ↔
      ∀ zv ∈ entries, zvalGetString env.zend zv ≠ [] → V (zvalGetString env.zend zv) := by
  induction entries generalizing ret s with
  | nil => exact iff_of_true trivial fun zv h => absurd h List.not_mem_nil
  | cons zv entries ih =>
    rw [List.forall_mem_cons]
    unfold deleteMultiLoop
    by_cases hlen : (zvalGetString env.zend zv).length = 0
    · have hnil := List.length_eq_zero_iff.mp hlen
      rw [if_pos hlen, ih]
      exact ⟨fun h => ⟨fun hne => absurd hnil hne, h⟩, fun h => h.2⟩
    · have hne : zvalGetString env.zend zv ≠ [] := fun h => hlen (List.length_eq_zero_iff.mpr h)
      rw [if_neg hlen, Cmd.asks_get_bind]
      constructor
      · intro h
        have hrest := h.2 .success
        exact ⟨fun _ => h.1 _ List.mem_cons_self, (ih _ _).mp hrest⟩
      · intro h
        refine ⟨keysAre_one (h.1 hne), fun status => ?_⟩
        exact (asks_handleResultCode passive_keysAre status s).bind fun ok s₁ => (ih _ s₁).mpr h.2

/-- when a call sends valid keys only, judged by the settings of the object it is made on -/
def Method.KeysChecked (s : State) : Method → Prop
  | .getMulti _ keys _ _ | .getDelayed _ keys _ _ =>
    ∀ e ∈ keys, 0 < (zvalGetString env.zend e.2).length →
      (zvalGetString env.zend e.2).length ≤ 250 → ValidKey s.memc (zvalGetString env.zend e.2)
  | .setMulti _ entries _ => ∀ key ∈ setMultiKeys env s entries, ValidKey s.memc key
  | .deleteMulti _ keys _ =>
    ∀ e ∈ keys, zvalGetString env.zend e.2 ≠ [] → ValidKey s.memc (zvalGetString env.zend e.2)
  | _ => True

theorem forall_mem_sHashToKeys (hashIn : HashTable) :
    (∀ key ∈ sHashToKeys env.zend hashIn, V key) ↔
      ∀ e ∈ hashIn, 0 < (zvalGetString env.zend e.2).length →
        (zvalGetString env.zend e.2).length ≤ 250 → V (zvalGetString env.zend e.2) := by
  constructor
  · intro h e he hpos hle
    exact h _ ((mem_sHashToKeys _ _ _).mpr ⟨⟨e, he, rfl⟩, hpos, hle⟩)
  · intro h key hkey
    obtain ⟨⟨e, he, rfl⟩, hpos, hle⟩ := (mem_sHashToKeys _ _ _).mp hkey
    exact h e he hpos hle

theorem sendsKeys_getMulti_iff (serverKey : Option Bytes) (keys : HashTable)
    (preserveOrder extended : Bool) :
    Cmd.Asks (KeysAre V) (phpMemcGetMultiImpl env serverKey keys preserveOrder extended) s ↔
      ∀ key ∈ sHashToKeys env.zend keys, V key := by
  unfold phpMemcGetMultiImpl sMemcSetStatus
  by_cases hnil : keys = []
  · subst hnil
    exact iff_of_true trivial keysAre_none
  · rw [if_neg hnil, Cmd.asks_modify_bind]
    have happly : ∀ a ∈ some (sGetMultiApplyFn extended), PassiveApply a := by
      intro a ha
      cases ha
      exact passiveApply_sGetMultiApplyFn extended
    refine (Cmd.asks_bind_iff fun r s₁ => ?_).trans
      (sendsKeys_phpMemcMgetApply_iff env serverKey _ _ extended _ happly _)
    show Cmd.Asks (KeysAre V) (if _ then _ else _ : MemcM Zval) s₁
    split
    · trivial
    · split <;> trivial

theorem sendsKeys_getDelayed_iff (serverKey : Option Bytes) (keys : HashTable)
    (withCas hasCallback : Bool) :
    Cmd.Asks (KeysAre V) (phpMemcGetDelayedImpl env serverKey keys withCas hasCallback) s ↔
      ∀ key ∈ sHashToKeys env.zend keys, V key := by
  unfold phpMemcGetDelayedImpl sMemcSetStatus
  rw [Cmd.asks_modify_bind]
  have happly : ∀ a ∈ (if hasCallback then some (sResultCallbackApply env) else none),
      PassiveApply a := by
    intro a ha
    cases hasCallback with
    | false => cases ha
    | true =>
      cases ha
      exact passiveApply_sResultCallbackApply env
  refine (Cmd.asks_bind_iff ?_).trans
    (sendsKeys_phpMemcMgetApply_iff env serverKey _ _ withCas () happly _)
  exact fun _ _ => trivial

theorem sendsKeys_deleteMulti_iff (serverKey : Option Bytes) (keys : HashTable)
    (expiration : Int64) :
    Cmd.Asks (KeysAre V) (phpMemcDeleteMultiImpl env serverKey keys expiration) s ↔
      ∀ e ∈ keys, zvalGetString env.zend e.2 ≠ [] → V (zvalGetString env.zend e.2) := by
  unfold phpMemcDeleteMultiImpl sMemcSetStatus
  rw [Cmd.asks_modify_bind]
  refine (Cmd.asks_bind_iff (m := deleteMultiLoop env serverKey expiration _ _) ?_).trans ?_
  · exact fun _ _ => trivial
  · rw [sendsKeys_deleteMultiLoop_iff, List.forall_mem_map]

theorem sendsKeys_setMulti_iff (serverKey : Option Bytes) (entries : HashTable)
    (expiration : Int64) :
    Cmd.Asks (KeysAre V) (phpMemcSetMultiImpl env serverKey entries expiration) s ↔
      ∀ key ∈ setMultiKeys env s entries, V key := by
  unfold phpMemcSetMultiImpl sMemcSetStatus
  rw [Cmd.asks_modify_bind]
  refine (Cmd.asks_bind_iff (m := setMultiLoop env serverKey expiration entries) ?_).trans ?_
  · exact fun _ _ => trivial
  · have hsame : setMultiKeys env { s with rescode := .success, memcErrno := 0 } entries =
        setMultiKeys env s entries := setMultiKeys_congr env (by rfl) (by rfl) entries
    rw [← hsame]
    exact ⟨keys_of_setMultiLoop env serverKey expiration,
      fun h => sendsKeys_setMultiLoop env serverKey expiration Thrown.none h⟩

/-- **Which calls send valid keys only.** Whatever libmemcached and the callbacks answer, a call
asks for or writes valid keys if and only if it is one of a single key, or every key of its array
that it takes without a test is valid. -/
theorem method_sendsValidKeys_iff (m : Method) (s : State) :
    (∀ (σ : Type) (h : Handler Call Ans σ) (w : σ), ∀ e ∈ Cmd.log h (m.run env) s w,
      ∀ key ∈ e.req.itemKeys, ValidKey s.memc key) ↔ m.KeysChecked env s := by
  have hall : (∀ (σ : Type) (h : Handler Call Ans σ) (w : σ), ∀ e ∈ Cmd.log h (m.run env) s w,
      ∀ key ∈ e.req.itemKeys, ValidKey s.memc key) ↔
      Cmd.Asks (KeysAre (ValidKey s.memc)) (m.run env) s :=
    ⟨fun h => Cmd.sat_of_log h, fun h _ m w => h.log m w⟩
  rw [hall]
  cases m with
  | get serverKey key hasCallback extended =>
    exact iff_of_true (sendsKeys_phpMemcGetImpl env serverKey key hasCallback extended) trivial
  | getMulti serverKey keys preserveOrder extended =>
    exact (sendsKeys_getMulti_iff env serverKey keys preserveOrder extended).trans
      (forall_mem_sHashToKeys env keys)
  | getDelayed serverKey keys withCas hasCallback =>
    exact (sendsKeys_getDelayed_iff env serverKey keys withCas hasCallback).trans
      (forall_mem_sHashToKeys env keys)
  | set serverKey key value expiration =>
    exact iff_of_true (sendsKeys_phpMemcStoreImpl env _ serverKey key _ expiration) trivial
  | add serverKey key value expiration =>
    exact iff_of_true (sendsKeys_phpMemcStoreImpl env _ serverKey key _ expiration) trivial
  | replace serverKey key value expiration =>
    exact iff_of_true (sendsKeys_phpMemcStoreImpl env _ serverKey key _ expiration) trivial
  | append serverKey key value =>
    exact iff_of_true (sendsKeys_phpMemcStoreImpl env _ serverKey key _ 0) trivial
  | prepend serverKey key value =>
    exact iff_of_true (sendsKeys_phpMemcStoreImpl env _ serverKey key _ 0) trivial
  | touch serverKey key expiration =>
    exact iff_of_true (sendsKeys_phpMemcStoreImpl env _ serverKey key _ expiration) trivial
  | setMulti serverKey entries expiration =>
    exact sendsKeys_setMulti_iff env serverKey entries expiration
  | cas serverKey zvCas key value expiration =>
    exact iff_of_true (sendsKeys_phpMemcCasImpl env serverKey zvCas key value expiration) trivial
  | delete serverKey key expiration =>
    exact iff_of_true (sendsKeys_phpMemcDeleteImpl serverKey key expiration) trivial
  | deleteMulti serverKey keys expiration =>
    exact sendsKeys_deleteMulti_iff env serverKey keys expiration
  | increment serverKey key offset initial =>
    exact iff_of_true (sendsKeys_phpMemcIncdecImpl _ serverKey key offset initial) trivial
  | decrement serverKey key offset initial =>
    exact iff_of_true (sendsKeys_phpMemcIncdecImpl _ serverKey key offset initial) trivial

/-- the failing case: in text mode `setMulti` writes under a key with a line break in it -/
theorem setMulti_sends_line_break :
    ¬ ∀ (env : Env) (m : Method) (s : State) (h : Handler Call Ans Unit) (w : Unit),
      ∀ e ∈ Cmd.log h (m.run env) s w, ∀ key ∈ e.req.itemKeys, ValidKey s.memc key := by
  intro hclaim
  let s := newObject iniDefaults 1
  let key : Bytes := ascii ['a', '\r', '\n', 'b']
  let write : Call := .store s.memc .set key (ascii ['v']) 0 0
  have hvalid := hclaim plainEnv (.setMulti none [(.str key, .str (ascii ['v']))] 0) s noServers ()
    ⟨write, Status.noServers⟩ List.mem_cons_self key List.mem_cons_self
  have hspace := hvalid.space rfl 13 (List.mem_cons_of_mem _ List.mem_cons_self)
  cases hspace

end
end PhpMemcached
