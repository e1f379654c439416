import PhpMemcached.Passive
import PhpMemcached.Routing

/-!
# The item size limit

* `Call.payload?`          the payload of a request that stores one, and the handle it is made on;
* `WithinLimit`            the requests whose payload is within the limit of their handle;
* `asks_run`               payloads are stored by `s_memc_write_zval` and `php_memc_cas_impl` only;
* `RefusedForSize`, `Stores`   the two ends of a write that has its payload;
* `itemSizeLimit_holds`    a write is refused exactly if its payload is over the limit, and no
                           method sends one that is.
-/

namespace PhpMemcached
open Ascii Requests

def Call.payload? : Call → Option (Memc × Bytes)
  | .store memc _ _ payload _ _ => some (memc, payload)
  | .storeByKey memc _ _ _ payload _ _ => some (memc, payload)
  | .cas memc _ payload _ _ _ => some (memc, payload)
  | .casByKey memc _ _ payload _ _ _ => some (memc, payload)
  | _ => none

/-- **A payload is never longer than the limit of the handle it is sent with**, if that has one. -/
def WithinLimit (c : Call) : Prop :=
  ∀ memc payload, c.payload? = some (memc, payload) →
    ∀ limit : Nat, 0 < limit → memc.userData.itemSizeLimit.toInt = limit → payload.length ≤ limit

theorem withinLimit_of_none {c : Call} (h : c.payload? = none) : WithinLimit c :=
  fun _ _ hp => by cases h.symm.trans hp

theorem Call.IsWarning.withinLimit {c : Call} (h : c.IsWarning) : WithinLimit c := by
  cases c with
  | warning text => exact withinLimit_of_none rfl
  | _ => exact h.elim

/-! ## which methods store payloads -/

section
variable (env : Env) {φ : Call → Prop} (hφ : ∀ c, c.payload? = none → φ c)
include hφ

theorem passive_of_storeless : Passive φ :=
  ⟨fun _ => hφ _ rfl, fun _ => hφ _ rfl, fun _ => hφ _ rfl, fun _ _ _ => hφ _ rfl,
    fun _ _ _ _ => hφ _ rfl, fun _ _ => hφ _ rfl⟩

theorem storeless_fetchCall (serverKey : Option Bytes) (keys : List Bytes) (memc : Memc) :
    φ (fetchCall serverKey keys memc) := by
  cases serverKey <;> exact hφ _ rfl

omit hφ in
theorem asks_checkKeyOr {key : Bytes} {next : MemcM Zval} {s : State} (h : Cmd.Asks φ next s) :
    Cmd.Asks φ (checkKeyOr key next) s := by
  unfold checkKeyOr
  rw [Cmd.asks_get_bind]
  split
  · exact h
  · trivial

theorem asks_phpMemcDeleteImpl (serverKey : Option Bytes) (key : Bytes) (expiration : Int64)
    (s : State) : Cmd.Asks φ (phpMemcDeleteImpl serverKey key expiration) s := by
  unfold phpMemcDeleteImpl sMemcSetStatus
  rw [Cmd.asks_modify_bind]
  refine asks_checkKeyOr (asks_status (passive_of_storeless hφ) _ ?_)
  cases serverKey <;> exact ⟨hφ _ rfl, fun _ => trivial⟩

theorem asks_deleteMultiLoop (serverKey : Option Bytes) (expiration : Int64) (entries : List Zval)
    (ret : HashTable) (s : State) :
    Cmd.Asks φ (deleteMultiLoop env serverKey expiration entries ret) s := by
  induction entries generalizing ret s with
  | nil => trivial
  | cons zv entries ih =>
    unfold deleteMultiLoop
    dsimp only
    split
    · exact ih ret s
    · rw [Cmd.asks_get_bind]
      refine ⟨hφ _ rfl, fun status => ?_⟩
      exact (asks_handleResultCode (passive_of_storeless hφ) status s).bind fun _ s' => ih _ s'

theorem asks_counterEnd (r : CounterRes) (s : State) : Cmd.Asks φ (counterEnd r) s := by
  cases r with
  | none => trivial
  | some r =>
    refine (asks_handleResultCode (passive_of_storeless hφ) r.1 s).bind fun ok s' => ?_
    show Cmd.Asks φ (if _ then _ else _ : MemcM Zval) s'
    split
    · split <;> trivial
    · trivial

theorem asks_counterAttempt (fn : CounterFn) (serverKey : Option Bytes) (key : Bytes)
    (offset initial expiry : Int64) (value : UInt64) (s : State) :
    Cmd.Asks φ (counterAttempt fn serverKey key offset initial expiry value) s := by
  unfold counterAttempt
  rw [Cmd.asks_get_bind]
  split
  · exact (asks_phpWarning (passive_of_storeless hφ) _ _).bind fun _ _ => trivial
  · cases serverKey <;> exact ⟨hφ _ rfl, fun _ => trivial⟩

theorem asks_phpMemcIncdecImpl (fn : CounterFn) (serverKey : Option Bytes) (key : Bytes)
    (offset : Int64) (initial : Option (Int64 × Int64)) (s : State) :
    Cmd.Asks φ (phpMemcIncdecImpl fn serverKey key offset initial) s := by
  unfold phpMemcIncdecImpl sMemcSetStatus
  rw [Cmd.asks_modify_bind]
  refine asks_checkKeyOr ?_
  split
  · exact (asks_phpWarning (passive_of_storeless hφ) _ _).bind fun _ _ => trivial
  · cases initial with
    | none =>
      refine Cmd.Asks.bind (m := counterPlain fn serverKey key offset) ?_ fun r s₁ =>
        asks_counterEnd hφ r s₁
      exact ⟨hφ _ rfl, fun _ => trivial⟩
    | some initial =>
      rw [Cmd.asks_get_bind]
      refine (asks_counterAttempt hφ fn serverKey key offset _ _ _ _).bind fun r s₁ => ?_
      refine Cmd.Asks.bind (Cmd.Sat.retry (fun r s' _ _ => ?_) _ trivial) fun r s₂ =>
        asks_counterEnd hφ r s₂
      cases r with
      | none => trivial
      | some r => exact asks_counterAttempt hφ fn serverKey key offset _ _ _ s'

theorem asks_phpMemcGetMultiImpl (serverKey : Option Bytes) (keys : HashTable)
    (preserveOrder extended : Bool) (s : State) :
    Cmd.Asks φ (phpMemcGetMultiImpl env serverKey keys preserveOrder extended) s := by
  unfold phpMemcGetMultiImpl sMemcSetStatus
  split
  · trivial
  · rw [Cmd.asks_modify_bind]
    refine (asks_phpMemcMgetApply env (passive_of_storeless hφ) extended _
      (storeless_fetchCall hφ serverKey _) ?_ _).bind fun r s₁ => ?_
    · intro a ha
      cases ha
      exact passiveApply_sGetMultiApplyFn extended
    · show Cmd.Asks φ (if _ then _ else _ : MemcM Zval) s₁
      split
      · trivial
      · split <;> trivial

theorem asks_phpMemcGetDelayedImpl (serverKey : Option Bytes) (keys : HashTable)
    (withCas hasCallback : Bool) (s : State) :
    Cmd.Asks φ (phpMemcGetDelayedImpl env serverKey keys withCas hasCallback) s := by
  unfold phpMemcGetDelayedImpl sMemcSetStatus
  rw [Cmd.asks_modify_bind]
  refine (asks_phpMemcMgetApply env (passive_of_storeless hφ) withCas _
    (storeless_fetchCall hφ serverKey _) ?_ _).bind fun _ _ => trivial
  intro a ha
  cases hasCallback with
  | false => cases ha
  | true =>
    cases ha
    exact passiveApply_sResultCallbackApply env

end

section
variable (env : Env) {φ : Call → Prop} (hφ : ∀ c, c.payload? = none → φ c)
  (hwrite : ∀ op serverKey key value expiration s,
    Cmd.Asks φ (sMemcWriteZval env op serverKey key value expiration) s)
include hφ hwrite

theorem asks_sInvokeCacheCallback (withCas : Bool) (key : Bytes) (value : Zval) (s : State) :
    Cmd.Asks φ (sInvokeCacheCallback env withCas key value) s := by
  have hfill : ∀ rv expiration (v : Zval) s', Cmd.Asks φ (do
      let status ← sMemcWriteZval env .set none key (some rv) expiration
      pure (status, v)) s' := fun _ _ _ _ => (hwrite ..).bind fun _ _ => trivial
  unfold sInvokeCacheCallback
  rw [Cmd.asks_get_bind]
  refine ⟨hφ _ rfl, fun r => ?_⟩
  show Cmd.Asks φ (if r.ran then _ else _ : MemcM (Bool × Zval)) r.object
  split
  · split
    · split
      · split
        · split
          · exact hfill _ _ _ _
          · trivial
        · trivial
      · exact hfill _ _ _ _
    · trivial
  · trivial

theorem asks_phpMemcGetImpl (serverKey : Option Bytes) (key : Bytes) (hasCallback extended : Bool)
    (s : State) : Cmd.Asks φ (phpMemcGetImpl env serverKey key hasCallback extended) s := by
  unfold phpMemcGetImpl sMemcSetStatus
  rw [Cmd.asks_modify_bind]
  refine asks_checkKeyOr ?_
  refine (asks_phpMemcMgetApply env (passive_of_storeless hφ) extended _
    (storeless_fetchCall hφ serverKey _) ?_ _).bind fun r s₁ => ?_
  · intro a ha
    cases ha
    exact passiveApply_sGetApplyFn extended
  · have hend : ∀ v s', Cmd.Asks φ (phpMemcGetImpl.endOfGet v) s' := fun _ _ => trivial
    show Cmd.Asks φ (if _ then _ else _ : MemcM Zval) s₁
    split
    · refine (asks_sInvokeCacheCallback env hφ hwrite extended key r.2 s₁).bind fun r s₂ => ?_
      show Cmd.Asks φ (if _ then _ else _ : MemcM Zval) s₂
      split
      · trivial
      · exact hend _ _
    · exact hend _ _

theorem asks_phpMemcStoreImpl (op : WriteOp) (serverKey : Option Bytes) (key : Bytes)
    (value : Option Zval) (expiration : Int64) (s : State) :
    Cmd.Asks φ (phpMemcStoreImpl env op serverKey key value expiration) s := by
  unfold phpMemcStoreImpl sMemcSetStatus
  rw [Cmd.asks_modify_bind]
  refine asks_checkKeyOr ?_
  rw [Cmd.asks_get_bind]
  split
  · exact (asks_phpWarning (passive_of_storeless hφ) _ _).bind fun _ _ => trivial
  · exact (hwrite ..).bind fun _ _ => trivial

omit hφ in
theorem asks_setMultiLoop (serverKey : Option Bytes) (expiration : Int64) (entries : HashTable)
    (s : State) : Cmd.Asks φ (setMultiLoop env serverKey expiration entries) s := by
  induction entries generalizing s with
  | nil => trivial
  | cons e entries ih => exact (hwrite ..).bind fun _ s' => ih s'

/-- **Payloads are stored by the writes and by `cas` only.** -/
theorem asks_run (hcas : ∀ serverKey zvCas key value expiration s,
      Cmd.Asks φ (phpMemcCasImpl env serverKey zvCas key value expiration) s)
    (m : Method) (s : State) : Cmd.Asks φ (m.run env) s := by
  cases m with
  | get serverKey key hasCallback extended =>
    exact asks_phpMemcGetImpl env hφ hwrite serverKey key hasCallback extended s
  | getMulti serverKey keys preserveOrder extended =>
    exact asks_phpMemcGetMultiImpl env hφ serverKey keys preserveOrder extended s
  | getDelayed serverKey keys withCas hasCallback =>
    exact asks_phpMemcGetDelayedImpl env hφ serverKey keys withCas hasCallback s
  | set | add | replace | append | prepend | touch =>
    exact asks_phpMemcStoreImpl env hφ hwrite _ _ _ _ _ s
  | setMulti serverKey entries expiration =>
    show Cmd.Asks φ (phpMemcSetMultiImpl env serverKey entries expiration) s
    unfold phpMemcSetMultiImpl sMemcSetStatus
    rw [Cmd.asks_modify_bind]
    exact (asks_setMultiLoop env hwrite serverKey expiration entries _).bind fun _ _ => trivial
  | cas serverKey zvCas key value expiration => exact hcas ..
  | delete serverKey key expiration => exact asks_phpMemcDeleteImpl hφ serverKey key expiration s
  | deleteMulti serverKey keys expiration =>
    show Cmd.Asks φ (phpMemcDeleteMultiImpl env serverKey keys expiration) s
    unfold phpMemcDeleteMultiImpl sMemcSetStatus
    rw [Cmd.asks_modify_bind]
    exact (asks_deleteMultiLoop env hφ serverKey expiration _ _ _).bind fun _ _ => trivial
  | increment serverKey key offset initial =>
    exact asks_phpMemcIncdecImpl hφ _ serverKey key offset initial s
  | decrement serverKey key offset initial =>
    exact asks_phpMemcIncdecImpl hφ _ serverKey key offset initial s

end

/-! ## the test -/

section
variable (env : Env) {s : State}

/-- a number that is not negative is the same without a sign -/
theorem toNat_toUInt64_of_toInt {n : Int64} {limit : Nat} (h : n.toInt = limit) :
    n.toUInt64.toNat = limit := by
  have hlt := n.toBitVec.isLt
  have hint : n.toBitVec.toInt = limit := h
  rw [BitVec.toInt_eq_toNat_cond] at hint
  show n.toBitVec.toNat = limit
  split at hint <;> omega

theorem sIsPayloadTooBig_iff {limit : Nat} (hlimit : s.memc.userData.itemSizeLimit.toInt = limit)
    (payload : Bytes) : sIsPayloadTooBig s payload = true ↔ 0 < limit ∧ limit < payload.length := by
  unfold sIsPayloadTooBig
  rw [toNat_toUInt64_of_toInt hlimit]
  split
  · rename_i hzero
    rw [hzero] at hlimit
    have hnone : limit = 0 := Int.ofNat_eq_zero.mp hlimit.symm
    exact iff_of_false Bool.false_ne_true fun h => Nat.ne_of_gt h.1 hnone
  · rename_i hne
    have hpos : 0 < limit := by
      refine Nat.pos_of_ne_zero fun hzero => hne (Int64.toInt_inj.mp ?_)
      rw [hlimit, hzero]
      rfl
    rw [decide_eq_true_eq]
    exact (and_iff_right hpos).symm

/-- a payload that comes out is asked for nothing -/
theorem log_of_payloadOut {value : Zval} {flags f : Flags} {p : Bytes}
    (h : payloadOut env s value flags = .payload p f) {σ : Type} (m : Handler Call Ans σ) (w : σ) :
    Cmd.log m (sZvalToPayload env value flags) s w = [] := by
  have hends := ends_sZvalToPayload env s value flags
  rw [h] at hends
  exact (hends.mono (fun c hc => by cases hc.2) fun _ ho => ho).log_silent m w

/-! ## the writes -/

/-- the write fails with `RES_E2BIG` and nothing is requested -/
def RefusedForSize {σ α : Type} (h : Handler Call Ans σ) (m : MemcM α) (no : α) (s : State)
    (w : σ) : Prop :=
  ∃ s', Cmd.exec h m s w = (.done no s', w) ∧ s'.rescode = .e2big ∧ Cmd.log h m s w = []

/-- the first thing that is requested is to store this payload -/
def Stores {σ α : Type} (h : Handler Call Ans σ) (m : MemcM α) (payload : Bytes) (s : State)
    (w : σ) : Prop :=
  ∃ e rest memc, Cmd.log h m s w = e :: rest ∧ e.req.payload? = some (memc, payload)

/-- **A write that has its payload is refused if that is over the limit, and sent if not.** -/
def JudgedBySize {σ α : Type} (h : Handler Call Ans σ) (m : MemcM α) (no : α) (payload : Bytes)
    (limit : Nat) (s : State) (w : σ) : Prop :=
  (0 < limit ∧ limit < payload.length → RefusedForSize h m no s w) ∧
    (¬ (0 < limit ∧ limit < payload.length) → Stores h m payload s w)

variable {σ : Type} (h : Handler Call Ans σ) (w : σ) {limit : Nat} {payload : Bytes} {flags : Flags}

theorem stores_writeAttempts {op : WriteOp} (hop : op ≠ .touch) (serverKey : Option Bytes)
    (key : Bytes) (expiration : Int64) (flags : Flags) (retries : Int64) {α : Type}
    (f : Status → MemcM α) (s : State) :
    Stores h (writeAttempts env op serverKey key (some payload) expiration flags retries >>= f)
      payload s w := by
  cases op with
  | touch => exact absurd rfl hop
  | _ => cases serverKey <;> exact ⟨_, _, s.memc, rfl, rfl⟩

/-- the payload of a write, and the test it is put to -/
theorem exec_writePayload {value : Zval} (hout : payloadOut env s value 0 = .payload payload flags) :
    ∃ s₁, SameButException s s₁ ∧ Cmd.exec h (writePayload env (some value)) s w =
        (.done (if sIsPayloadTooBig s payload then .error .e2big else .ok (some payload, flags)) s₁,
          w) ∧
      Cmd.log h (writePayload env (some value)) s w = [] := by
  obtain ⟨s₁, hpayload, hs₁⟩ := exec_of_payloadOut env hout h w
  have hlog := log_of_payloadOut env hout h w
  have htest : sIsPayloadTooBig s₁ payload = sIsPayloadTooBig s payload := by
    rw [sIsPayloadTooBig, sIsPayloadTooBig, hs₁.memc]
  refine ⟨s₁, hs₁, (Cmd.exec_bind_done hpayload).trans ?_, (Cmd.log_bind_done hpayload).trans ?_⟩
  · rw [Cmd.exec_get_bind, htest]
    split <;> rfl
  · rw [hlog, Cmd.log_get_bind]
    split <;> rfl

theorem judged_sMemcWriteZval (hlimit : s.memc.userData.itemSizeLimit.toInt = limit) {op : WriteOp}
    (hop : op ≠ .touch) {value : Zval} (hout : payloadOut env s value 0 = .payload payload flags)
    (serverKey : Option Bytes) (key : Bytes) (expiration : Int64) :
    JudgedBySize h (sMemcWriteZval env op serverKey key (some value) expiration) false payload limit
      s w := by
  obtain ⟨s₁, -, hexec, hlog⟩ := exec_writePayload env h w hout
  have hbig := sIsPayloadTooBig_iff hlimit payload
  constructor
  · intro hover
    rw [if_pos (hbig.mpr hover)] at hexec
    refine ⟨{ s₁ with rescode := .e2big, memcErrno := 0 }, ?_, rfl, ?_⟩
    · unfold sMemcWriteZval
      rw [Cmd.exec_get_bind, Cmd.exec_bind_done hexec]
      rfl
    · unfold sMemcWriteZval
      rw [Cmd.log_get_bind, Cmd.log_bind_done hexec, hlog]
      rfl
  · intro hfits
    rw [if_neg fun hb => hfits (hbig.mp hb)] at hexec
    obtain ⟨e, rest, memc, hstore, hpayload⟩ := stores_writeAttempts env h w hop serverKey key
      expiration flags s.memc.userData.storeRetryCount sMemcStatusHandleResultCode s₁
    refine ⟨e, rest, memc, ?_, hpayload⟩
    unfold sMemcWriteZval
    rw [Cmd.log_get_bind, Cmd.log_bind_done hexec, hlog]
    exact hstore

theorem judged_phpMemcCasImpl (hlimit : s.memc.userData.itemSizeLimit.toInt = limit) {key : Bytes}
    (hkey : memcCheckKey s.memc key = true) {zvCas : Zval} {cas : UInt64}
    (hcas : sZvalToUint64 env zvCas = some cas) {value : Zval}
    (hout : payloadOut env s value 0 = .payload payload flags) (serverKey : Option Bytes)
    (expiration : Int64) :
    JudgedBySize h (phpMemcCasImpl env serverKey zvCas key value expiration) (.bool false) payload
      limit s w := by
  have hsame : payloadOut env { s with rescode := .success, memcErrno := 0 } value 0 =
      payloadOut env s value 0 := by
    cases value with
    | bool b => cases b <;> rfl
    | _ => rfl
  rw [← hsame] at hout
  obtain ⟨s₁, hexec, hs₁⟩ := exec_of_payloadOut env hout h w
  have hlog := log_of_payloadOut env hout h w
  have hbig : sIsPayloadTooBig s₁ payload = true ↔ 0 < limit ∧ limit < payload.length := by
    rw [← sIsPayloadTooBig_iff hlimit, sIsPayloadTooBig, hs₁.memc]
    rfl
  unfold phpMemcCasImpl sMemcSetStatus checkKeyOr
  constructor
  · intro hover
    refine ⟨{ s₁ with rescode := .e2big }, ?_, rfl, ?_⟩
    · rw [Cmd.exec_modify_bind, Cmd.exec_get_bind, if_pos hkey, hcas]
      dsimp only
      rw [Cmd.exec_bind_done hexec]
      dsimp only
      rw [Cmd.exec_get_bind, if_pos (hbig.mpr hover)]
      rfl
    · rw [Cmd.log_modify_bind, Cmd.log_get_bind, if_pos hkey, hcas]
      dsimp only
      rw [Cmd.log_bind_done hexec, hlog]
      dsimp only
      rw [Cmd.log_get_bind, if_pos (hbig.mpr hover)]
      rfl
  · intro hfits
    unfold Stores
    rw [Cmd.log_modify_bind, Cmd.log_get_bind, if_pos hkey, hcas]
    dsimp only
    rw [Cmd.log_bind_done hexec, hlog]
    dsimp only
    rw [Cmd.log_get_bind, if_neg fun hb => hfits (hbig.mp hb)]
    cases serverKey <;> exact ⟨_, _, s₁.memc, rfl, rfl⟩

/-! ## what is sent -/

omit h w in
/-- what is sent for a value is within the limit -/
theorem le_of_writeOut {value : Option Zval} (hout : writeOut env s value = .send (some payload) flags)
    (hlimit : s.memc.userData.itemSizeLimit.toInt = limit) (hpos : 0 < limit) :
    payload.length ≤ limit := by
  cases value with
  | none => cases hout
  | some value =>
    change (payloadOut env s value 0).toWrite s = _ at hout
    cases hp : payloadOut env s value 0 with
    | failed => rw [hp] at hout; cases hout
    | crash => rw [hp] at hout; cases hout
    | payload p f =>
      rw [hp, PayloadOut.toWrite] at hout
      split at hout
      · cases hout
      · rename_i hfits
        cases hout
        rw [sIsPayloadTooBig_iff hlimit] at hfits
        exact Nat.le_of_not_lt fun hlt => hfits ⟨hpos, hlt⟩

/-- an attempt sends its payload, and leaves the handle alone -/
theorem withinLimit_writeAttempt {memc : Memc} {payload : Option Bytes}
    (hpayload : ∀ p, payload = some p → ∀ limit : Nat, 0 < limit →
      memc.userData.itemSizeLimit.toInt = limit → p.length ≤ limit)
    (op : WriteOp) (serverKey : Option Bytes) (key : Bytes) (expiration : Int64) (flags : Flags)
    (hs : s.memc = memc) :
    Cmd.Sat WithinLimit (fun _ s' => s'.memc = memc)
      (writeAttempt env op serverKey key payload expiration flags) s := by
  subst hs
  have hwarn : Cmd.Sat WithinLimit (fun _ s' => s'.memc = s.memc) (touchWarning env s.memc) s := by
    unfold touchWarning
    split
    · exact ⟨withinLimit_of_none rfl, fun _ => rfl⟩
    · exact rfl
  cases op with
  | touch =>
    cases serverKey with
    | none =>
      have htouch : Cmd.Sat WithinLimit (fun _ s' => s'.memc = s.memc)
          (phpMemcachedTouch env key expiration) s :=
        Cmd.Sat.bind (m := touchWarning env s.memc) hwarn fun _ _ hs =>
          ⟨withinLimit_of_none rfl, fun _ => hs⟩
      exact htouch.map
    | some serverKey =>
      have htouch : Cmd.Sat WithinLimit (fun _ s' => s'.memc = s.memc)
          (phpMemcachedTouchByKey env serverKey key expiration) s :=
        Cmd.Sat.bind (m := touchWarning env s.memc) hwarn fun _ _ hs =>
          ⟨withinLimit_of_none rfl, fun _ => hs⟩
      exact htouch.map
  | _ =>
    cases payload with
    | none => cases serverKey <;> exact rfl
    | some p =>
      have hstore : ∀ memc payload, some (s.memc, p) = some (memc, payload) →
          ∀ limit : Nat, 0 < limit → memc.userData.itemSizeLimit.toInt = limit →
            payload.length ≤ limit := by
        rintro memc payload ⟨⟩
        exact hpayload p rfl
      cases serverKey <;> exact ⟨hstore, fun _ => rfl⟩

theorem withinLimit_sMemcWriteZval (op : WriteOp) (serverKey : Option Bytes) (key : Bytes)
    (value : Option Zval) (expiration : Int64) (s : State) :
    Cmd.Asks WithinLimit (sMemcWriteZval env op serverKey key value expiration) s := by
  have hpassive := passive_of_storeless fun c hc => withinLimit_of_none (c := c) hc
  unfold sMemcWriteZval
  rw [Cmd.asks_get_bind]
  have hwrite := (ends_writePayload env s value).sat.mono (fun _ hc => hc.withinLimit)
    fun _ _ hr => hr
  refine hwrite.bind fun r s' hr => ?_
  cases hout : writeOut env s value with
  | crash => rw [hout] at hr; cases r <;> exact hr.elim
  | refuse status =>
    rw [hout] at hr
    cases r with
    | ok r => exact hr.elim
    | error status' => trivial
  | send payload flags =>
    rw [hout] at hr
    cases r with
    | error status => exact hr.elim
    | ok r =>
      obtain ⟨rfl, hs⟩ := hr
      have hfits : ∀ p, payload = some p → ∀ limit : Nat, 0 < limit →
          s'.memc.userData.itemSizeLimit.toInt = limit → p.length ≤ limit := by
        rintro p rfl limit hpos hlimit
        rw [hs.memc] at hlimit
        exact le_of_writeOut env hout hlimit hpos
      show Cmd.Asks WithinLimit (writeAttempts env op serverKey key payload expiration flags
        s.memc.userData.storeRetryCount >>= sMemcStatusHandleResultCode) s'
      rw [writeAttempts_eq, bind_assoc]
      refine (withinLimit_writeAttempt env hfits op serverKey key expiration flags rfl).bind
        fun status s₁ hs₁ => ?_
      refine Cmd.Asks.bind (Cmd.Sat.mono (Cmd.Sat.retry (Q := fun _ s₂ => s₂.memc = s'.memc)
        (fun _ s₂ hs₂ _ => withinLimit_writeAttempt env hfits op none key expiration flags hs₂)
        _ hs₁) (fun _ h => h) fun _ _ _ => trivial) fun status s₂ => ?_
      exact asks_handleResultCode hpassive status s₂

theorem withinLimit_phpMemcCasImpl (serverKey : Option Bytes) (zvCas : Zval) (key : Bytes)
    (value : Zval) (expiration : Int64) (s : State) :
    Cmd.Asks WithinLimit (phpMemcCasImpl env serverKey zvCas key value expiration) s := by
  have hpassive := passive_of_storeless fun c hc => withinLimit_of_none (c := c) hc
  unfold phpMemcCasImpl sMemcSetStatus
  rw [Cmd.asks_modify_bind]
  refine asks_checkKeyOr ?_
  split
  · trivial
  · have hpayload (s' : State) : Cmd.Asks WithinLimit (sZvalToPayload env value 0) s' :=
      (ends_sZvalToPayload env s' value 0).sat.mono (fun _ hc => hc.1.withinLimit) fun _ _ _ => trivial
    refine (hpayload _).bind fun r s₁ => ?_
    cases r with
    | none => trivial
    | some r =>
      rw [Cmd.asks_get_bind]
      split
      · trivial
      · rename_i hfits
        have hstore : ∀ memc payload, some (s₁.memc, r.1) = some (memc, payload) →
            ∀ limit : Nat, 0 < limit → memc.userData.itemSizeLimit.toInt = limit →
              payload.length ≤ limit := by
          rintro memc payload ⟨⟩ limit hpos hlimit
          rw [sIsPayloadTooBig_iff hlimit] at hfits
          exact Nat.le_of_not_lt fun hlt => hfits ⟨hpos, hlt⟩
        refine asks_status hpassive _ ?_
        cases serverKey <;> exact ⟨hstore, fun _ => trivial⟩

/-- **The item size limit holds on every path.** No method sends a payload over the limit of its
handle; a write that has its payload is refused if that is over the limit, and sent if not. -/
theorem itemSizeLimit_holds :
    (∀ (m : Method) (s : State) (σ : Type) (h : Handler Call Ans σ) (w : σ),
      ∀ e ∈ Cmd.log h (m.run env) s w, WithinLimit e.req) ∧
    ∀ (s : State) (limit : Nat), s.memc.userData.itemSizeLimit.toInt = limit →
      ∀ value payload flags, payloadOut env s value 0 = .payload payload flags →
      ∀ (σ : Type) (h : Handler Call Ans σ) (w : σ) serverKey key expiration,
        (∀ op, op ≠ .touch → JudgedBySize h
          (sMemcWriteZval env op serverKey key (some value) expiration) false payload limit s w) ∧
        ∀ zvCas cas, memcCheckKey s.memc key = true → sZvalToUint64 env zvCas = some cas →
          JudgedBySize h (phpMemcCasImpl env serverKey zvCas key value expiration) (.bool false)
            payload limit s w := by
  constructor
  · intro m s σ h w
    exact Cmd.Sat.log (asks_run env (fun _ hc => withinLimit_of_none hc)
      (fun _ _ _ _ _ _ => withinLimit_sMemcWriteZval env _ _ _ _ _ _)
      (fun _ _ _ _ _ _ => withinLimit_phpMemcCasImpl env _ _ _ _ _ _) m s) h w
  · intro s limit hlimit value payload flags hout σ h w serverKey key expiration
    exact ⟨fun op hop => judged_sMemcWriteZval env h w hlimit hop hout serverKey key expiration,
      fun zvCas cas hkey hcas =>
        judged_phpMemcCasImpl env h w hlimit hkey hcas hout serverKey expiration⟩

end

/-- a new object whose limit is 3 bytes -/
def limitedObject : State := newObject { iniDefaults with itemSizeLimit := 3 } 1

theorem itemSizeLimit_holds_three :
    RefusedForSize noServers
        (sMemcWriteZval plainEnv .set none (ascii ['k']) (some (.str (ascii ['a', 'b', 'c', 'd']))) 0)
        false limitedObject () ∧
      Stores noServers
        (phpMemcCasImpl plainEnv none (.long 1) (ascii ['k']) (.str (ascii ['a', 'b', 'c'])) 0)
        (ascii ['a', 'b', 'c']) limitedObject () := by
  refine ⟨?_, ?_⟩
  · exact (((itemSizeLimit_holds plainEnv).2 limitedObject 3 rfl _ _ _ rfl Unit noServers () none _ _).1
      .set (by decide)).1 (by decide)
  · exact (((itemSizeLimit_holds plainEnv).2 limitedObject 3 rfl _ _ _ rfl Unit noServers () none _ _).2
      _ 1 (by decide) rfl).2 (by decide)

end PhpMemcached
