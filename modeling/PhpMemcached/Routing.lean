import PhpMemcached.Write

/-!
# Where the attempts of a write go

* `attempts`                the write requests of a run with their status codes;
* `writeRequest`            the one request every attempt of a write is to be;
* `scripted`                a libmemcached that answers the attempts with given codes, in order;
* `RoutesWrite`             the contract: every attempt is that request, up to the first code that
                            is no error, `1 + max 0 retries` of them at most.

A write without a `server_key` keeps the contract. A write with one keeps it only as long as it is
not retried: the label `retry` stands in the branch of the plain requests.
-/

namespace PhpMemcached
open Ascii Requests

/-- a write request and its status -/
def Call.attempt? : (c : Call) → Ans c → Option (Call × Status)
  | .store memc fn key payload expiration flags, st =>
    some (.store memc fn key payload expiration flags, st)
  | .storeByKey memc fn serverKey key payload expiration flags, st =>
    some (.storeByKey memc fn serverKey key payload expiration flags, st)
  | .touch memc key expiration, st => some (.touch memc key expiration, st)
  | .touchByKey memc serverKey key expiration, st =>
    some (.touchByKey memc serverKey key expiration, st)
  | _, _ => none

/-- the write requests of a log, with their status codes -/
def attempts (l : List (Entry Call Ans)) : List (Call × Status) :=
  l.filterMap fun e => e.req.attempt? e.ans

@[simp] theorem attempts_nil : attempts [] = [] := rfl

@[simp] theorem attempts_append (l l' : List (Entry Call Ans)) :
    attempts (l ++ l') = attempts l ++ attempts l' := List.filterMap_append

/-- the requests that are no attempt -/
def Call.NoAttempt (c : Call) : Prop := ∀ r, c.attempt? r = none

theorem Call.IsWarning.noAttempt {c : Call} (h : c.IsWarning) : c.NoAttempt := by
  cases c <;> first | exact h.elim | exact fun _ => rfl

theorem attempts_of_noAttempt {l : List (Entry Call Ans)} (h : ∀ e ∈ l, e.req.NoAttempt) :
    attempts l = [] := List.filterMap_eq_nil_iff.mpr fun e he => h e he e.ans

/-- the libmemcached function of an operation; `touch` sends no payload -/
def WriteOp.storeFn : WriteOp → Option StoreFn
  | .set => some .set
  | .touch => none
  | .add => some .add
  | .replace => some .replace
  | .append => some .append
  | .prepend => some .prepend

/-- the request an attempt is to be; without a payload there is only `touch` -/
def writeRequest (memc : Memc) (op : WriteOp) (serverKey : Option Bytes) (key : Bytes)
    (payload : Option Bytes) (expiration : Int64) (flags : Flags) : Option Call :=
  match op.storeFn, serverKey with
  | none, none => some (.touch memc key expiration)
  | none, some serverKey => some (.touchByKey memc serverKey key expiration)
  | some fn, none => payload.map (.store memc fn key · expiration flags)
  | some fn, some serverKey => payload.map (.storeByKey memc fn serverKey key · expiration flags)

/-- the answers `answers` to the attempts, in order; everything else is left to `rest` -/
def scripted {σ : Type} (answers : Nat → Status) (rest : Handler Call Ans σ) :
    Handler Call Ans (Nat × σ)
  | .store .., w => (answers w.1, w.1 + 1, w.2)
  | .storeByKey .., w => (answers w.1, w.1 + 1, w.2)
  | .touch .., w => (answers w.1, w.1 + 1, w.2)
  | .touchByKey .., w => (answers w.1, w.1 + 1, w.2)
  | c, w => ((rest c w.2).1, w.1, (rest c w.2).2)

section
variable (env : Env) {σ : Type} (answers : Nat → Status) (rest : Handler Call Ans σ)

/-- one attempt, in the branch `serverKey` asks for -/
def writeAttempt (op : WriteOp) (serverKey : Option Bytes) (key : Bytes) (payload : Option Bytes)
    (expiration : Int64) (flags : Flags) : MemcM Status :=
  match serverKey with
  | some serverKey => memcWriteByKey env op serverKey key payload expiration flags
  | none => memcWrite env op key payload expiration flags

/-- the run of a command whose one attempt is `c`: it returns the next code, seen through `f` -/
structure OneAttempt (f : Status → Status) (m : MemcM Status) (c : Call) (s : State)
    (w : Nat × σ) : Prop where
  ends : ∃ s' w', Cmd.exec (scripted answers rest) m s w =
    (.done (f (answers w.1)) s', w.1 + 1, w') ∧ SameButException s s'
  attempts : attempts (Cmd.log (scripted answers rest) m s w) = [(c, answers w.1)]

theorem OneAttempt.map {m : MemcM Status} {c : Call} {s : State} {w : Nat × σ}
    (h : OneAttempt answers rest id m c s w) (f : Status → Status) :
    OneAttempt answers rest f (f <$> m) c s w := by
  obtain ⟨⟨s', w', hx, hs⟩, ha⟩ := h
  rw [← bind_pure_comp]
  refine ⟨⟨s', w', Cmd.exec_bind_done hx, hs⟩, ?_⟩
  rw [Cmd.log_bind_done hx, Cmd.log_pure, List.append_nil]
  exact ha

theorem OneAttempt.get {f : Status → Status} {k : State → MemcM Status} {c : Call} {s : State}
    {w : Nat × σ} (h : OneAttempt answers rest f (k s) c s w) :
    OneAttempt answers rest f (Cmd.get >>= k) c s w := ⟨h.ends, h.attempts⟩

/-- a warning in front of the request is no attempt -/
theorem OneAttempt.touch {m : MemcM Status} {c : Call} {s : State} {w : Nat × σ}
    (h : ∀ s' w', SameButException s s' → OneAttempt answers rest id m c s' (w.1, w')) :
    OneAttempt answers rest id (touchWarning env s.memc >>= fun _ => m) c s w := by
  unfold touchWarning
  split
  · obtain ⟨⟨s', w', hx, e, hs⟩, ha⟩ := h _ _ ⟨_, rfl⟩
    exact ⟨⟨s', w', hx, e, hs⟩, ha⟩
  · exact h s w.2 (.refl s)

/-- **An attempt sends the request of its branch.** -/
theorem writeAttempt_run {op : WriteOp} {serverKey : Option Bytes} {key : Bytes}
    {payload : Option Bytes} {expiration : Int64} {flags : Flags} {s : State} {c : Call}
    (hc : writeRequest s.memc op serverKey key payload expiration flags = some c) (w : Nat × σ) :
    OneAttempt answers rest endIsSuccess
      (writeAttempt env op serverKey key payload expiration flags) c s w := by
  cases op with
  | touch =>
    cases serverKey with
    | none =>
      cases hc
      have h : OneAttempt answers rest id (phpMemcachedTouch env key expiration)
          (.touch s.memc key expiration) s w := by
        unfold phpMemcachedTouch
        exact OneAttempt.get answers rest (OneAttempt.touch env answers rest fun s' w' _ =>
          ⟨⟨s', w', rfl, .refl s'⟩, rfl⟩)
      exact h.map answers rest endIsSuccess
    | some serverKey =>
      cases hc
      have h : OneAttempt answers rest id (phpMemcachedTouchByKey env serverKey key expiration)
          (.touchByKey s.memc serverKey key expiration) s w := by
        unfold phpMemcachedTouchByKey
        exact OneAttempt.get answers rest (OneAttempt.touch env answers rest fun s' w' _ =>
          ⟨⟨s', w', rfl, .refl s'⟩, rfl⟩)
      exact h.map answers rest endIsSuccess
  | _ =>
    cases payload with
    | none => cases serverKey <;> exact absurd hc (by simp [writeRequest, WriteOp.storeFn])
    | some p => cases serverKey <;> (cases hc; exact ⟨⟨s, w.2, rfl, .refl s⟩, rfl⟩)

/-- the attempts `retry` adds: `k` times the request `c`, each but the last answered by an error -/
structure Retries (c : Call) (s : State) (w : Nat × σ) (n : Nat) (status : Status) (k : Nat)
    (as : List (Call × Status)) : Prop where
  le : k ≤ n
  attempts : as = (List.range' w.1 k).map fun i => (c, answers i)
  first : 0 < k → sShouldRetryWrite s status = true
  errors : ∀ i, i + 1 < k → sMemcachedReturnIsError (answers (w.1 + i)) true = true
  due : 0 < n → sShouldRetryWrite s status = true → 0 < k

theorem isError_endIsSuccess (status : Status) :
    sMemcachedReturnIsError (endIsSuccess status) true = sMemcachedReturnIsError status true := by
  unfold endIsSuccess
  split
  · rename_i h
    subst h
    rfl
  · rfl

theorem sShouldRetryWrite_eq (s : State) (status : Status) : sShouldRetryWrite s status = true ↔
    s.memc.serverCount ≠ 0 ∧ sMemcachedReturnIsError status true = true := by
  unfold sShouldRetryWrite
  split
  · rename_i h
    simp [h]
  · rename_i h
    simp [h]

theorem sShouldRetryWrite_endIsSuccess (s : State) (status : Status) :
    sShouldRetryWrite s (endIsSuccess status) = sShouldRetryWrite s status := by
  rw [sShouldRetryWrite, sShouldRetryWrite, isError_endIsSuccess]

theorem SameButException.shouldRetry {s s' : State} (h : SameButException s s')
    (status : Status) : sShouldRetryWrite s' status = sShouldRetryWrite s status := by
  rw [sShouldRetryWrite, sShouldRetryWrite, h.memc]

theorem retry_run {again : MemcM Status} {c : Call} {s : State}
    (hagain : ∀ s', SameButException s s' → ∀ w,
      OneAttempt answers rest endIsSuccess again c s' w)
    (n : Nat) (status : Status) (w : Nat × σ) :
    ∃ k, (∃ st s' w', Cmd.exec (scripted answers rest)
        (Cmd.retry sShouldRetryWrite (fun _ => again) n status) s w = (.done st s', w.1 + k, w') ∧
        SameButException s s') ∧
      Retries answers c s w n status k (attempts (Cmd.log (scripted answers rest)
        (Cmd.retry sShouldRetryWrite (fun _ => again) n status) s w)) := by
  induction n generalizing s status w with
  | zero =>
    exact ⟨0, ⟨status, s, w.2, rfl, .refl s⟩, le_refl 0, rfl, fun h => absurd h (lt_irrefl 0),
      fun i hi => absurd hi (by omega), fun h => absurd h (lt_irrefl 0)⟩
  | succ n ih =>
    cases hm : sShouldRetryWrite s status with
    | false =>
      refine ⟨0, ⟨status, s, w.2, ?_, .refl s⟩, Nat.zero_le _, ?_, fun h => absurd h (lt_irrefl 0),
        fun i hi => absurd hi (by omega), fun _ h => ?_⟩
      · rw [Cmd.exec, Cmd.retry_of_not_more hm]
        rfl
      · rw [Cmd.log, Cmd.retry_of_not_more hm]
        rfl
      · rw [hm] at h
        cases h
    | true =>
      obtain ⟨⟨s₁, w₁, hx, hs⟩, ha⟩ := hagain s (.refl s) w
      obtain ⟨k, ⟨st, s₂, w₂, hx₂, hs₂⟩, hr⟩ :=
        ih (fun s' hs' w => hagain s' (hs.trans hs') w) (endIsSuccess (answers w.1)) (w.1 + 1, w₁)
      refine ⟨k + 1, ⟨st, s₂, w₂, ?_, hs.trans hs₂⟩, by have := hr.le; omega, ?_, fun _ => hm,
        fun i hi => ?_, fun _ _ => Nat.succ_pos k⟩
      · rw [Cmd.exec, Cmd.retry_of_more hm]
        refine (Cmd.exec_bind_done hx).trans (hx₂.trans ?_)
        rw [Nat.add_assoc, Nat.add_comm 1 k]
      · rw [Cmd.log, Cmd.retry_of_more hm]
        have hl := Cmd.log_bind_done (f := Cmd.retry sShouldRetryWrite (fun _ => again) n) hx
        rw [show ((again >>= Cmd.retry sShouldRetryWrite (fun _ => again) n) s).log
              (scripted answers rest) w
          = _ from hl, attempts_append, ha, hr.attempts]
        rfl
      · cases i with
        | zero =>
          have h1 := ((sShouldRetryWrite_eq _ _).mp (hr.first (by omega))).2
          rw [isError_endIsSuccess] at h1
          exact h1
        | succ i =>
          have h1 := hr.errors i (by omega)
          rw [← Nat.add_assoc, Nat.add_right_comm]
          exact h1

/-! ## the whole write -/

/-- warnings do not use up answers -/
theorem scripted_warnings {α : Type} {p : Prog Call Ans α} {Q : α → Prop}
    (hp : p.Sat Call.IsWarning Q) (w : Nat × σ) : (p.run (scripted answers rest) w).2.1 = w.1 := by
  induction p generalizing w with
  | ret a => rfl
  | call c k ih =>
    have hc := hp.1
    cases c with
    | warning text => exact ih _ (hp.2 _) _
    | _ => exact hc.elim

/-- the handling of the last code makes no attempt -/
theorem sat_statusHandle (status : Status) (s : State) :
    Cmd.Sat Call.NoAttempt (fun _ _ => True) (sMemcStatusHandleResultCode status) s := by
  unfold sMemcStatusHandleResultCode sMemcSetStatus
  rw [Cmd.sat_modify_bind]
  split
  · exact ⟨fun _ => rfl, fun _ => trivial⟩
  · exact trivial

/-- the request of a write of `value` in state `s`, if there is one -/
def writeCall (s : State) (op : WriteOp) (serverKey : Option Bytes) (key : Bytes)
    (value : Option Zval) (expiration : Int64) : Option Call :=
  match writeOut env s value with
  | .send payload flags => writeRequest s.memc op serverKey key payload expiration flags
  | .refuse _ => none
  | .crash => none

/-- the attempts of a write -/
def writeLog (s : State) (w : σ) (op : WriteOp) (serverKey : Option Bytes) (key : Bytes)
    (value : Option Zval) (expiration : Int64) : List (Call × Status) :=
  attempts (Cmd.log (scripted answers rest)
    (sMemcWriteZval env op serverKey key value expiration) s (0, w))

variable {env} {op : WriteOp} {serverKey : Option Bytes} {key : Bytes} {value : Option Zval}
  {expiration : Int64} {s : State} (w : σ)

theorem writeAttempts_eq (payload : Option Bytes) (flags : Flags) (retries : Int64) :
    writeAttempts env op serverKey key payload expiration flags retries =
      writeAttempt env op serverKey key payload expiration flags >>=
        Cmd.retry sShouldRetryWrite
          (fun _ => writeAttempt env op none key payload expiration flags)
          retries.toInt.toNat := by
  cases serverKey <;> rfl

/-- a first attempt in the branch of `serverKey`, then the retries, in the plain branch -/
theorem writeLog_of_send {payload : Option Bytes} {flags : Flags} {c c' : Call}
    (hout : writeOut env s value = .send payload flags)
    (hc : writeRequest s.memc op serverKey key payload expiration flags = some c)
    (hc' : writeRequest s.memc op none key payload expiration flags = some c') :
    ∃ k as, writeLog env answers rest s w op serverKey key value expiration =
        (c, answers 0) :: as ∧
      Retries answers c' s (1, w) s.memc.userData.storeRetryCount.toInt.toNat (answers 0) k as := by
  have hp := ends_writePayload env s value
  have hcount := scripted_warnings answers rest hp (0, w)
  have hlog := attempts_of_noAttempt fun e he =>
    (hp.log (scripted answers rest) (0, w) e he).noAttempt
  have hend := hp.exec (scripted answers rest) (0, w)
  rw [hout] at hend
  cases hx : Cmd.exec (scripted answers rest) (writePayload env value) s (0, w) with
  | mk o w₁ =>
    rw [hx] at hend
    cases o with
    | stop e s₁ => exact hend.elim
    | done r s₁ =>
      cases r with
      | error st => exact hend.elim
      | ok r =>
        obtain ⟨rfl, hs₁⟩ := hend
        have hw₁ : w₁.1 = 0 := by
          rw [show (writePayload env value s).run (scripted answers rest) (0, w) = _ from hx]
            at hcount
          exact hcount
        rw [← hs₁.memc] at hc hc'
        obtain ⟨⟨s₂, w₂, hx₂, hs₂⟩, ha₂⟩ := writeAttempt_run env answers rest hc w₁
        obtain ⟨k, ⟨st, s₃, w₃, hx₃, hs₃⟩, hr⟩ :=
          retry_run answers rest (fun s' hs' w => writeAttempt_run env answers rest
            (hs'.memc ▸ hs₂.memc ▸ hc') w) s.memc.userData.storeRetryCount.toInt.toNat
            (endIsSuccess (answers w₁.1)) (w₁.1 + 1, w₂)
        rw [hw₁] at ha₂ hr
        have hsame : ∀ st, sShouldRetryWrite s₂ (endIsSuccess st) = sShouldRetryWrite s st :=
          fun st => by rw [(hs₁.trans hs₂).shouldRetry, sShouldRetryWrite_endIsSuccess]
        refine ⟨k, _, ?_, hr.le, hr.attempts, fun h => hsame _ ▸ hr.first h, hr.errors,
          fun h h' => hr.due h ((hsame _).trans h')⟩
        have hx₄ : Cmd.exec (scripted answers rest) (writeAttempts env op serverKey key payload
            expiration flags s.memc.userData.storeRetryCount) s₁ w₁ =
              (.done st s₃, w₁.1 + 1 + k, w₃) := by
          rw [writeAttempts_eq]
          exact (Cmd.exec_bind_done hx₂).trans hx₃
        rw [writeLog, sMemcWriteZval, Cmd.log_get_bind, Cmd.log_bind_done hx, attempts_append,
          hlog, List.nil_append]
        show attempts (Cmd.log _ (writeAttempts env op serverKey key payload expiration flags
          s.memc.userData.storeRetryCount >>= sMemcStatusHandleResultCode) s₁ w₁) = _
        rw [Cmd.log_bind_done hx₄, attempts_append,
          attempts_of_noAttempt ((sat_statusHandle st s₃).log _ _), List.append_nil,
          writeAttempts_eq, Cmd.log_bind_done hx₂, attempts_append, ha₂, hw₁]
        rfl

/-- without a payload, an operation other than `touch` sends nothing -/
theorem sat_writeAttempt_none {payload : Option Bytes} {flags : Flags} {memc : Memc}
    (h : writeRequest memc op serverKey key payload expiration flags = none) (s : State) :
    Cmd.Sat Call.NoAttempt (fun _ _ => True)
      (writeAttempt env op serverKey key payload expiration flags) s := by
  cases op with
  | touch => cases serverKey <;> cases h
  | _ =>
    cases payload with
    | some p => cases serverKey <;> cases h
    | none => cases serverKey <;> exact trivial

theorem writeRequest_none_of_none {payload : Option Bytes} {flags : Flags} {memc : Memc}
    (h : writeRequest memc op serverKey key payload expiration flags = none) :
    writeRequest memc op none key payload expiration flags = none := by
  cases op with
  | touch => cases serverKey <;> cases h
  | _ =>
    cases payload with
    | some p => cases serverKey <;> cases h
    | none => rfl

/-- a write that has no request makes no attempt -/
theorem writeLog_of_not_sent (h : writeCall env s op serverKey key value expiration = none) :
    writeLog env answers rest s w op serverKey key value expiration = [] := by
  have hsat : Cmd.Sat Call.NoAttempt (fun _ _ => True)
      (sMemcWriteZval env op serverKey key value expiration) s := by
    unfold sMemcWriteZval
    rw [Cmd.sat_get_bind]
    refine ((ends_writePayload env s value).sat.mono (fun _ => Call.IsWarning.noAttempt)
      fun _ _ h => h).bind fun r s' hr => ?_
    unfold writeCall at h
    cases hout : writeOut env s value with
    | crash => rw [hout] at hr; cases r <;> exact hr.elim
    | refuse st =>
      rw [hout] at hr
      cases r with
      | error st' => exact trivial
      | ok r => exact hr.elim
    | send payload flags =>
      rw [hout] at hr h
      cases r with
      | error st => exact hr.elim
      | ok r =>
        obtain ⟨rfl, -⟩ := hr
        show Cmd.Sat _ _ (writeAttempts env op serverKey key payload expiration flags
          s.memc.userData.storeRetryCount >>= sMemcStatusHandleResultCode) s'
        rw [writeAttempts_eq, bind_assoc]
        refine (sat_writeAttempt_none h s').bind fun st s₁ _ => ?_
        refine (Cmd.Sat.retry (fun _ s _ _ =>
          sat_writeAttempt_none (writeRequest_none_of_none h) s) _ trivial).bind fun st s₁ _ => ?_
        exact sat_statusHandle st s₁
  exact attempts_of_noAttempt (hsat.log _ _)

/-! ## the contract -/

/-- the contract of a write: every attempt is the one request of its operation, `server_key`, key,
payload, expiration and flags; the attempts end with the first code that is no error, and there
are `1 + max 0 store_retry_count` at most -/
structure RoutesWrite (env : Env) {σ : Type} (answers : Nat → Status) (rest : Handler Call Ans σ)
    (s : State) (w : σ) (op : WriteOp) (serverKey : Option Bytes) (key : Bytes)
    (value : Option Zval) (expiration : Int64) : Prop where
  same : ∀ a ∈ writeLog env answers rest s w op serverKey key value expiration,
    some a.1 = writeCall env s op serverKey key value expiration
  stops : ∀ a ∈ (writeLog env answers rest s w op serverKey key value expiration).dropLast,
    sMemcachedReturnIsError a.2 true = true
  bound : ((writeLog env answers rest s w op serverKey key value expiration).length : Int) ≤
    1 + max 0 s.memc.userData.storeRetryCount.toInt

theorem writeRequest_plain_ne {memc : Memc} {payload : Option Bytes} {flags : Flags}
    {serverKey : Bytes} {c c' : Call}
    (hc : writeRequest memc op (some serverKey) key payload expiration flags = some c)
    (hc' : writeRequest memc op none key payload expiration flags = some c') : c' ≠ c := by
  cases op <;> cases payload <;> cases hc <;> cases hc' <;> exact Call.noConfusion

/-- a request of one branch has its counterpart in the other -/
theorem writeRequest_plain {memc : Memc} {payload : Option Bytes} {flags : Flags} {c : Call}
    (hc : writeRequest memc op serverKey key payload expiration flags = some c) :
    ∃ c', writeRequest memc op none key payload expiration flags = some c' := by
  cases op <;> cases payload <;> cases serverKey <;> first | exact ⟨_, rfl⟩ | cases hc

/-- the number of attempts and the codes between them, whatever the requests are -/
theorem Retries.chain (c : Call) {c' : Call} {k : Nat} {as : List (Call × Status)}
    (h : Retries answers c' s (1, w) s.memc.userData.storeRetryCount.toInt.toNat (answers 0) k as) :
    (∀ a ∈ ((c, answers 0) :: as).dropLast, sMemcachedReturnIsError a.2 true = true) ∧
    (((c, answers 0) :: as).length : Int) ≤ 1 + max 0 s.memc.userData.storeRetryCount.toInt := by
  have hlen : as.length = k := by simp [h.attempts]
  have hle := h.le
  refine ⟨fun a ha => ?_, by simp only [List.length_cons, hlen]; omega⟩
  obtain ⟨i, hi, rfl⟩ := List.mem_iff_getElem.mp ha
  rw [List.length_dropLast, List.length_cons, hlen] at hi
  rw [List.getElem_dropLast]
  cases i with
  | zero => exact ((sShouldRetryWrite_eq _ _).mp (h.first (by omega))).2
  | succ i =>
    have hi' : i < as.length := by omega
    have hget : as[i].2 = answers (1 + i) := by simp [h.attempts]
    rw [List.getElem_cons_succ, hget]
    exact h.errors i (by omega)

/-- **When a write keeps to its route.** Every attempt of a write is the request its `server_key`
asks for if and only if there is no `server_key`, or there is no second attempt: no server, no
retry configured, nothing to send, or a first answer that is no error. -/
theorem sMemcWriteZval_routes_iff :
    RoutesWrite env answers rest s w op serverKey key value expiration ↔
      serverKey = none ∨ s.memc.serverCount = 0 ∨
      s.memc.userData.storeRetryCount.toInt ≤ 0 ∨
      writeCall env s op serverKey key value expiration = none ∨
      sMemcachedReturnIsError (answers 0) true = false := by
  cases hcall : writeCall env s op serverKey key value expiration with
  | none =>
    have hlog := writeLog_of_not_sent answers rest w hcall
    refine iff_of_true ⟨?_, ?_, ?_⟩ (.inr (.inr (.inr (.inl rfl)))) <;> rw [hlog]
    · exact fun a ha => absurd ha List.not_mem_nil
    · exact fun a ha => absurd ha List.not_mem_nil
    · simp only [List.length_nil]
      omega
  | some c =>
    have hcall' := hcall
    unfold writeCall at hcall'
    split at hcall'
    · rename_i payload flags hout
      obtain ⟨c', hc'⟩ := writeRequest_plain hcall'
      obtain ⟨k, as, hlog, hr⟩ := writeLog_of_send answers rest w hout hcall' hc'
      obtain ⟨hstops, hbound⟩ := hr.chain answers w c
      constructor
      · intro h
        by_contra hcon
        simp only [not_or, Bool.not_eq_false, reduceCtorEq, not_false_eq_true, true_and] at hcon
        obtain ⟨hkey, hcount, hretry, herr⟩ := hcon
        obtain ⟨serverKey, rfl⟩ := Option.ne_none_iff_exists'.mp hkey
        have hk : 0 < k := hr.due (by omega) ((sShouldRetryWrite_eq _ _).mpr ⟨hcount, herr⟩)
        have hmem : (c', answers 1) ∈ as := by
          rw [hr.attempts]
          exact List.mem_map.mpr ⟨1, List.mem_range'.mpr ⟨0, hk, rfl⟩, rfl⟩
        have hsame := h.same (c', answers 1) (hlog ▸ List.mem_cons_of_mem _ hmem)
        rw [hcall] at hsame
        exact writeRequest_plain_ne hcall' hc' (Option.some.inj hsame)
      · intro h
        refine ⟨?_, hlog ▸ hstops, hlog ▸ hbound⟩
        rw [hlog, hcall]
        intro a ha
        rcases List.mem_cons.mp ha with rfl | ha
        · rfl
        · rw [hr.attempts] at ha
          obtain ⟨i, hi, rfl⟩ := List.mem_map.mp ha
          have hk : 0 < k := by
            obtain ⟨j, hj, -⟩ := List.mem_range'.mp hi
            omega
          rcases h with rfl | h | h | h | h
          · exact congrArg some (Option.some.inj (hc'.symm.trans hcall'))
          · exact absurd h ((sShouldRetryWrite_eq _ _).mp (hr.first hk)).1
          · have := hr.le
            omega
          · cases h
          · rw [((sShouldRetryWrite_eq _ _).mp (hr.first hk)).2] at h
            cases h
    · cases hcall'
    · cases hcall'

end

/-- the failing case: `setByKey` with one retry, whose first attempt is answered with an error -/
theorem setByKey_retry_unrouted :
    ¬ ∀ (env : Env) (answers : Nat → Status) (rest : Handler Call Ans Unit) (s : State) (w : Unit)
      (op : WriteOp) (serverKey : Option Bytes) (key : Bytes) (value : Option Zval)
      (expiration : Int64),
      RoutesWrite env answers rest s w op serverKey key value expiration := by
  intro h
  let memc := (newObject { iniDefaults with storeRetryCount := 1 } 2).memc
  let first : Call × Status :=
    (.storeByKey memc .set (ascii ['s']) (ascii ['k']) (ascii ['v']) 0 0, .timeout)
  let second : Call × Status := (.store memc .set (ascii ['k']) (ascii ['v']) 0 0, .success)
  have hroute := h plainEnv (fun n => if n = 0 then .timeout else .success) noServers
    (newObject { iniDefaults with storeRetryCount := 1 } 2) () .set (some (ascii ['s']))
    (ascii ['k']) (some (.str (ascii ['v']))) 0
  have hsecond := hroute.same second
    (show second ∈ [first, second] from List.mem_cons_of_mem _ List.mem_cons_self)
  exact Call.noConfusion (Option.some.inj hsecond)

end PhpMemcached
