import PhpMemcached.Encode
import PhpMemcached.Keys

/-!
# Writing an item (`s_memc_write_zval`)

* `memcWriteByKey`, `memcWrite`   one attempt, in the `server_key` branch and at the label `retry`;
* `sShouldRetryWrite`             whether another attempt is due;
* `writePayload`                  payload and flags of the value, or why there is no request;
* `sMemcWriteZval`                the payload, the first attempt, the retries, the status;
* `writeOut`                      what the value comes to, as a function of value and state.
-/

namespace PhpMemcached
open Ascii Requests

/-- `php_memc_write_op` -/
inductive WriteOp where
  | set | touch | add | replace | append | prepend
  deriving DecidableEq, Repr

/-- `s_should_retry_write` -/
def sShouldRetryWrite (s : State) (status : Status) : Bool :=
  if s.memc.serverCount = 0 then false else sMemcachedReturnIsError status true

section
variable (env : Env)

/-- the warning of an old libmemcached -/
def touchWarning (memc : Memc) : MemcM Unit :=
  if env.build.oldLibmemcached && memcachedBehaviorGet memc .binaryProtocol ≠ 0 then
    phpWarning <| "using touch command with binary protocol is not recommended with libmemcached" ++
      " versions below 1.0.18, please use ascii protocol or upgrade libmemcached"
  else pure ()

/-- `php_memcached_touch` -/
def phpMemcachedTouch (key : Bytes) (expiration : Int64) : MemcM Status := do
  let s ← Cmd.get
  touchWarning env s.memc
  ask (.touch s.memc key expiration)

/-- `php_memcached_touch_by_key` -/
def phpMemcachedTouchByKey (serverKey key : Bytes) (expiration : Int64) : MemcM Status := do
  let s ← Cmd.get
  touchWarning env s.memc
  ask (.touchByKey s.memc serverKey key expiration)

/-- `memc_write_using_fn` -/
def memcWriteUsingFn (fn : StoreFn) (key : Bytes) (payload : Option Bytes) (expiration : Int64)
    (flags : Flags) : MemcM Status := do
  match payload with
  | some payload =>
    let s ← Cmd.get
    ask (.store s.memc fn key payload expiration flags)
  | none => pure .payloadFailure

/-- `memc_write_using_fn_by_key` -/
def memcWriteUsingFnByKey (fn : StoreFn) (serverKey key : Bytes) (payload : Option Bytes)
    (expiration : Int64) (flags : Flags) : MemcM Status := do
  match payload with
  | some payload =>
    let s ← Cmd.get
    ask (.storeByKey s.memc fn serverKey key payload expiration flags)
  | none => pure .payloadFailure

/-- `if (status == MEMCACHED_END) status = MEMCACHED_SUCCESS;` -/
def endIsSuccess (status : Status) : Status := if status = .end_ then .success else status

/-- one attempt of the branch with a `server_key` -/
def memcWriteByKey (op : WriteOp) (serverKey key : Bytes) (payload : Option Bytes)
    (expiration : Int64) (flags : Flags) : MemcM Status :=
  endIsSuccess <$> match op with
  | .set => memcWriteUsingFnByKey .set serverKey key payload expiration flags
  | .touch => phpMemcachedTouchByKey env serverKey key expiration
  | .add => memcWriteUsingFnByKey .add serverKey key payload expiration flags
  | .replace => memcWriteUsingFnByKey .replace serverKey key payload expiration flags
  | .append => memcWriteUsingFnByKey .append serverKey key payload expiration flags
  | .prepend => memcWriteUsingFnByKey .prepend serverKey key payload expiration flags

/-- one attempt at the label `retry`, inside the branch without a `server_key` -/
def memcWrite (op : WriteOp) (key : Bytes) (payload : Option Bytes) (expiration : Int64)
    (flags : Flags) : MemcM Status :=
  endIsSuccess <$> match op with
  | .set => memcWriteUsingFn .set key payload expiration flags
  | .touch => phpMemcachedTouch env key expiration
  | .add => memcWriteUsingFn .add key payload expiration flags
  | .replace => memcWriteUsingFn .replace key payload expiration flags
  | .append => memcWriteUsingFn .append key payload expiration flags
  | .prepend => memcWriteUsingFn .prepend key payload expiration flags

/-- the payload of a write and its flags, or the status of a write that is not sent -/
def writePayload (value : Option Zval) : MemcM (Except Status (Option Bytes × Flags)) := do
  match value with
  | none => pure (.ok (none, 0))
  | some value =>
    match ← sZvalToPayload env value 0 with
    | none => pure (.error .payloadFailure)
    | some (payload, flags) =>
      let s ← Cmd.get
      if sIsPayloadTooBig s payload then pure (.error .e2big)
      else pure (.ok (some payload, flags))

/-- the attempts of `s_memc_write_zval`: a first one in the branch `server_key` asks for, then,
from either branch, `goto retry` -/
def writeAttempts (op : WriteOp) (serverKey : Option Bytes) (key : Bytes) (payload : Option Bytes)
    (expiration : Int64) (flags : Flags) (retries : Int64) : MemcM Status := do
  let status ← match serverKey with
    | some serverKey => memcWriteByKey env op serverKey key payload expiration flags
    | none => memcWrite env op key payload expiration flags
  Cmd.retry sShouldRetryWrite (fun _ => memcWrite env op key payload expiration flags)
    retries.toInt.toNat status

/-- `s_memc_write_zval` -/
def sMemcWriteZval (op : WriteOp) (serverKey : Option Bytes) (key : Bytes) (value : Option Zval)
    (expiration : Int64) : MemcM Bool := do
  let s ← Cmd.get
  match ← writePayload env value with
  | .error status =>
    sMemcSetStatus status 0
    pure false
  | .ok (payload, flags) =>
    let status ← writeAttempts env op serverKey key payload expiration flags
      s.memc.userData.storeRetryCount
    sMemcStatusHandleResultCode status

/-! ## what is sent -/

/-- what a value comes to before any attempt -/
inductive WriteOut where
  | send (payload : Option Bytes) (flags : Flags)
  | refuse (status : Status)
  | crash

/-- a payload is sent unless it is too big -/
def PayloadOut.toWrite (s : State) : PayloadOut → WriteOut
  | .payload p f => if sIsPayloadTooBig s p then .refuse .e2big else .send (some p) f
  | .failed => .refuse .payloadFailure
  | .crash => .crash

/-- the outcome of `writePayload` in state `s` -/
def writeOut (s : State) (value : Option Zval) : WriteOut :=
  match value with
  | none => .send none 0
  | some value => (payloadOut env s value 0).toWrite s

/-- only handle and exception flag have a part in it -/
theorem writeOut_congr {s s' : State} (hmemc : s'.memc = s.memc) (hexc : s'.exception = s.exception)
    (value : Option Zval) : writeOut env s' value = writeOut env s value := by
  obtain ⟨memc, pristine, rescode, errno, exception⟩ := s
  obtain ⟨memc', pristine', rescode', errno', exception'⟩ := s'
  cases hmemc
  cases hexc
  cases value with
  | none => rfl
  | some value =>
    cases value with
    | bool b => cases b <;> rfl
    | _ => rfl

/-- the result of a command that ends as `o` says -/
def WriteOut.Ends (s : State) :
    WriteOut → Outcome Abort State (Except Status (Option Bytes × Flags)) → Prop
  | .send p f, .done (.ok r) s' => r = (p, f) ∧ SameButException s s'
  | .refuse st, .done (.error st') s' => st' = st ∧ SameButException s s'
  | .crash, .stop .nullDeref s' => SameButException s s'
  | _, _ => False

theorem ends_writePayload (s : State) (value : Option Zval) :
    Cmd.Ends Call.IsWarning ((writeOut env s value).Ends s) (writePayload env value) s := by
  cases value with
  | none => exact ⟨rfl, .refl s⟩
  | some value =>
    show Cmd.Ends _ (((payloadOut env s value 0).toWrite s).Ends s) _ _
    have hpayload := (ends_sZvalToPayload env s value 0).mono (fun _ h => h.1) fun _ h => h
    refine hpayload.bind (fun r s' hr => ?_) (fun e s' hr => ?_)
    · cases hp : payloadOut env s value 0 with
      | payload p f =>
        rw [hp] at hr
        cases r with
        | none => exact hr.elim
        | some r =>
          obtain ⟨rfl, hs⟩ := hr
          have htoo : sIsPayloadTooBig s' p = sIsPayloadTooBig s p := by
            rw [sIsPayloadTooBig, sIsPayloadTooBig, hs.memc]
          simp only [Cmd.ends_get_bind, htoo, PayloadOut.toWrite]
          cases sIsPayloadTooBig s p <;> exact ⟨rfl, hs⟩
      | failed =>
        rw [hp] at hr
        cases r with
        | none => exact ⟨rfl, hr⟩
        | some r => exact hr.elim
      | crash => rw [hp] at hr; cases r <;> exact hr.elim
    · cases hp : payloadOut env s value 0 with
      | crash =>
        rw [hp] at hr
        cases e with
        | nullDeref => exact hr
        | fatal t => exact hr.elim
      | payload p f => rw [hp] at hr; exact hr.elim
      | failed => rw [hp] at hr; exact hr.elim

/-- what is sent for a value has a payload -/
theorem isSome_of_writeOut_send {s : State} {value : Zval} {payload : Option Bytes} {flags : Flags}
    (h : writeOut env s (some value) = .send payload flags) : ∃ p, payload = some p := by
  change (payloadOut env s value 0).toWrite s = _ at h
  cases hp : payloadOut env s value 0 with
  | payload p f =>
    rw [hp] at h
    simp only [PayloadOut.toWrite] at h
    split at h
    · cases h
    · cases h
      exact ⟨p, rfl⟩
  | failed => rw [hp] at h; cases h
  | crash => rw [hp] at h; cases h

/-- a write is refused with an error code -/
theorem writeOut_refuse {s : State} {value : Option Zval} {status : Status}
    (h : writeOut env s value = .refuse status) : sMemcachedReturnIsError status true = true := by
  cases value with
  | none => cases h
  | some value =>
    change (payloadOut env s value 0).toWrite s = _ at h
    cases hp : payloadOut env s value 0 with
    | payload p f =>
      rw [hp] at h
      simp only [PayloadOut.toWrite] at h
      split at h
      · cases h
        rfl
      · cases h
    | failed => rw [hp] at h; cases h; rfl
    | crash => rw [hp] at h; cases h

/-- a write that is sent comes down to its attempts -/
theorem exec_sMemcWriteZval_sent {s : State} {value : Zval} {payload : Option Bytes} {flags : Flags}
    (hout : writeOut env s (some value) = .send payload flags) (op : WriteOp)
    (serverKey : Option Bytes) (key : Bytes) (expiration : Int64) {σ : Type}
    (h : Handler Call Ans σ) (w : σ) :
    ∃ s₁, SameButException s s₁ ∧
      Cmd.exec h (sMemcWriteZval env op serverKey key (some value) expiration) s w =
        Cmd.exec h (writeAttempts env op serverKey key payload expiration flags
          s.memc.userData.storeRetryCount >>= sMemcStatusHandleResultCode) s₁ w := by
  change (payloadOut env s value 0).toWrite s = _ at hout
  cases hp : payloadOut env s value 0 with
  | failed => rw [hp] at hout; cases hout
  | crash => rw [hp] at hout; cases hout
  | payload p f =>
    rw [hp, PayloadOut.toWrite] at hout
    by_cases hbig : sIsPayloadTooBig s p = true
    · rw [if_pos hbig] at hout
      cases hout
    · rw [if_neg hbig] at hout
      cases hout
      obtain ⟨s₁, hpayload, hs₁⟩ := exec_of_payloadOut env hp h w
      have hwrite : Cmd.exec h (writePayload env (some value)) s w =
          (.done (.ok (some p, flags)) s₁, w) := by
        refine (Cmd.exec_bind_done hpayload).trans ?_
        rw [Cmd.exec_get_bind, sIsPayloadTooBig, hs₁.memc, ← sIsPayloadTooBig, if_neg hbig]
        rfl
      refine ⟨s₁, hs₁, ?_⟩
      unfold sMemcWriteZval
      rw [Cmd.exec_get_bind, Cmd.exec_bind_done hwrite]

/-! ## the status of a write -/

/-- a result code is handled as a failure exactly if it is an error, and it is left in the object -/
theorem sat_handleResultCode (status : Status) (s : State) :
    Cmd.Sat (fun _ => True) (fun ok s' => s'.rescode = status ∧ ok = !sMemcStatusHasError s')
      (sMemcStatusHandleResultCode status) s := by
  unfold sMemcStatusHandleResultCode sMemcSetStatus
  rw [Cmd.sat_modify_bind]
  cases h : sMemcachedReturnIsError status true with
  | true => exact ⟨trivial, fun _ => ⟨rfl, by simp [sMemcStatusHasError, h]⟩⟩
  | false => exact ⟨rfl, by simp [sMemcStatusHasError, h]⟩

/-- **A write returns false exactly when it leaves an error code.** -/
theorem sat_sMemcWriteZval_status (op : WriteOp) (serverKey : Option Bytes) (key : Bytes)
    (value : Option Zval) (expiration : Int64) (s : State) :
    Cmd.Sat (fun _ => True) (fun ok s' => ok = !sMemcStatusHasError s')
      (sMemcWriteZval env op serverKey key value expiration) s := by
  unfold sMemcWriteZval
  rw [Cmd.sat_get_bind]
  refine ((ends_writePayload env s value).sat.mono (fun _ _ => trivial) fun _ _ h => h).bind ?_
  intro r s' hr
  cases hout : writeOut env s value with
  | crash => rw [hout] at hr; cases r <;> exact hr.elim
  | refuse status =>
    rw [hout] at hr
    cases r with
    | ok r => exact hr.elim
    | error status' =>
      obtain ⟨rfl, -⟩ := hr
      show false = !sMemcachedReturnIsError status' true
      rw [writeOut_refuse env hout]
      rfl
  | send payload flags =>
    cases r with
    | error status => rw [hout] at hr; exact hr.elim
    | ok r =>
      refine (Cmd.sat_true _ s').bind ?_
      intro status s₁ _
      exact (sat_handleResultCode status s₁).mono (fun _ h => h) fun _ _ h => h.2

end
end PhpMemcached
