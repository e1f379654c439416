import PhpMemcached.Ops
import PhpMemcached.Updates

/-!
# How often a retried update is made

* `Method.update`          the update a call stands for: its place, and what it makes of the item;
* `update_made_once_iff`   a call that reports success has made it once, and once more for every
                           answer that was lost.
-/

namespace PhpMemcached
open Ascii Requests

section
variable {pool : Pool} {rest : Handler Call Ans Net} {s : State} {l : Loc}
  {f : Option Item → Option Item}

/-! ## append and prepend -/

/-- what follows the payload of an `append` or `prepend` is left as it is on the server -/
theorem storeChange_concat {fn : StoreFn} (hfn : fn = .append ∨ fn = .prepend) (payload : Bytes)
    (expiration : Int64) (flags : Flags) :
    storeChange fn payload expiration flags = storeChange fn payload 0 0 := by
  funext item
  rcases hfn with rfl | rfl <;> cases item <;> rfl

/-! ## counters -/

/-- the code of a round, an error if the method has returned -/
def CounterRes.code : CounterRes → Status
  | some (status, _) => status
  | none => .failure

theorem isError_of_shouldRetryCounter {r : CounterRes} (h : shouldRetryCounter s r = true) :
    sMemcachedReturnIsError r.code true = true := by
  cases r with
  | none => rfl
  | some r => exact isError_of_shouldRetry h

theorem counter_deliver (c : Call) (l : Loc) (fn : CounterFn) (offset : UInt64)
    (initial : Option (UInt64 × Int64)) (net : Net) :
    (pool.counter c l fn offset initial net).1.1 =
        (pool.deliver c l (pool.countChange fn offset initial (net.items l)) net).1 ∧
      (pool.counter c l fn offset initial net).2 =
        (pool.deliver c l (pool.countChange fn offset initial (net.items l)) net).2 := by
  unfold Pool.counter
  dsimp only
  split <;> exact ⟨rfl, rfl⟩

theorem oneDelivery_counterAttempt (fn : CounterFn) (serverKey : Option Bytes) (key : Bytes)
    (offset initial expiry : Int64) (value : UInt64)
    (hbinary : s.memc.behavior .binaryProtocol ≠ 0) :
    OneDelivery rest pool
      (updateItem (pool.countChange fn offset.toUInt64 (some (initial.toUInt64, expiry))))
      (pool.loc s.memc serverKey key) CounterRes.code
      (counterAttempt fn serverKey key offset initial expiry value) s := by
  intro net
  obtain ⟨c, hx⟩ : ∃ c, Cmd.exec (pool.handler rest)
      (counterAttempt fn serverKey key offset initial expiry value) s net =
        (.done (counterRes value (pool.counter c (pool.loc s.memc serverKey key) fn offset.toUInt64
          (some (initial.toUInt64, expiry)) net).1) s,
          (pool.counter c (pool.loc s.memc serverKey key) fn offset.toUInt64
            (some (initial.toUInt64, expiry)) net).2) := by
    unfold counterAttempt memcachedBehaviorGet
    rw [Cmd.exec_get_bind, if_neg hbinary]
    cases serverKey <;> exact ⟨_, rfl⟩
  obtain ⟨hcode, hnet⟩ := counter_deliver c (pool.loc s.memc serverKey key) fn offset.toUInt64
    (some (initial.toUInt64, expiry)) net
  obtain ⟨d, hd, hup⟩ := deliver_updates pool c (pool.loc s.memc serverKey key)
    (pool.countChange fn offset.toUInt64 (some (initial.toUInt64, expiry))) net
  rw [← hcode] at hd
  rw [← hnet] at hup
  exact ⟨_, d, _, hx, hd, hup⟩

theorem exec_counterEnd {r : CounterRes} {ret : Zval} {s s' : State} {net net' : Net}
    (hret : ret.Succeeded)
    (hx : Cmd.exec (pool.handler rest) (counterEnd r) s net = (.done ret s', net')) :
    sMemcachedReturnIsError r.code true = false ∧ net' = net := by
  cases r with
  | none =>
    cases hx
    exact hret.elim
  | some r =>
    obtain ⟨ok, s₁, net₁, hhandle, hend⟩ := Cmd.exec_bind_inv hx
    cases ok with
    | false =>
      cases hend
      exact hret.elim
    | true =>
      obtain ⟨s₂, hhandle', -, -, -⟩ := exec_handleResultCode pool rest r.1 s net
      rw [hhandle] at hhandle'
      obtain ⟨herr, rfl⟩ : sMemcachedReturnIsError r.1 true = false ∧ net₁ = net := by
        cases hcode : sMemcachedReturnIsError r.1 true with
        | true => rw [hcode] at hhandle'; cases hhandle'
        | false => rw [hcode] at hhandle'; cases hhandle'; exact ⟨rfl, rfl⟩
      change Cmd.exec (pool.handler rest)
        (if r.2 = UInt64.ofNat (2 ^ 64 - 1) then pure (.bool false)
        else pure (.long r.2.toInt64) : MemcM Zval) s₁ net₁ = _ at hend
      split at hend
      · cases hend
        exact hret.elim
      · cases hend
        exact ⟨herr, rfl⟩

/-! ## the calls -/

/-- the place a call updates, and what its update makes of the item there: `append` and `prepend`
without a `server_key`, counters with an initial value -/
def Method.update (pool : Pool) (memc : Memc) : Method → Option (Loc × (Option Item → Option Item))
  | .append none key value =>
    some (pool.loc memc none key, updateItem (storeChange .append value 0 0))
  | .prepend none key value =>
    some (pool.loc memc none key, updateItem (storeChange .prepend value 0 0))
  | .increment serverKey key offset (some (initial, expiry)) =>
    some (pool.loc memc serverKey key, updateItem
      (pool.countChange .increment offset.toUInt64 (some (initial.toUInt64, expiry))))
  | .decrement serverKey key offset (some (initial, expiry)) =>
    some (pool.loc memc serverKey key, updateItem
      (pool.countChange .decrement offset.toUInt64 (some (initial.toUInt64, expiry))))
  | _ => none

theorem phpMemcStoreImpl_updates (env : Env) {op : WriteOp} {fn : StoreFn}
    (hop : op.storeFn = some fn) (hfn : fn = .append ∨ fn = .prepend) {key value : Bytes}
    {ret : Zval} {s s' : State} {net net' : Net} (hret : ret.Succeeded)
    (hx : Cmd.exec (pool.handler rest)
      (phpMemcStoreImpl env op none key (some (.str value)) 0) s net = (.done ret s', net')) :
    ∃ ds st, Updates (updateItem (storeChange fn value 0 0)) (pool.loc s.memc none key) net ds
      net' ∧ Tally ds st ∧ sMemcachedReturnIsError st true = false := by
  have hguard : (op == .append || op == .prepend) = true := by
    rcases hfn with rfl | rfl <;> cases op <;> first | rfl | cases hop
  obtain ⟨-, hcomp, hwrite⟩ := exec_phpMemcStoreImpl hret hx
  obtain ⟨payload, flags, ds, hout, hwrote⟩ := wrote_of_sMemcWriteZval env hop hwrite
  have hpayload : payload = value := by
    rw [payloadOut_str_plain (s := { s with rescode := .success, memcErrno := 0 }) env value
      (hcomp hguard)] at hout
    cases hout
    exact finishPayload_plain env s.memc.userData value _
  have hup := hwrote.updates
  rw [storeChange_concat hfn, hpayload] at hup
  have herr := hwrote.ok
  rw [eq_comm, Bool.not_eq_true'] at herr
  exact ⟨ds, _, hup, hwrote.tally, herr⟩

theorem phpMemcIncdecImpl_updates {fn : CounterFn} {serverKey : Option Bytes} {key : Bytes}
    {offset initial expiry : Int64} {ret : Zval} {s s' : State} {net net' : Net}
    (hret : ret.Succeeded)
    (hx : Cmd.exec (pool.handler rest)
      (phpMemcIncdecImpl fn serverKey key offset (some (initial, expiry))) s net =
        (.done ret s', net')) :
    ∃ ds st, Updates
      (updateItem (pool.countChange fn offset.toUInt64 (some (initial.toUInt64, expiry))))
      (pool.loc s.memc serverKey key) net ds net' ∧ Tally ds st ∧
      sMemcachedReturnIsError st true = false := by
  unfold phpMemcIncdecImpl sMemcSetStatus at hx
  rw [Cmd.exec_modify_bind] at hx
  replace hx := (exec_checkKeyOr hret hx).2
  obtain ⟨s₁, hs₁, hmemc⟩ : ∃ s₁ : State,
      { s with rescode := .success, memcErrno := 0 } = s₁ ∧ s₁.memc = s.memc := ⟨_, rfl, rfl⟩
  rw [hs₁] at hx
  split at hx
  · obtain ⟨_, _, _, -, hend⟩ := Cmd.exec_bind_inv hx
    cases hend
    exact hret.elim
  · dsimp only at hx
    rw [Cmd.exec_get_bind] at hx
    by_cases hbinary : s₁.memc.behavior .binaryProtocol = 0
    · -- the method has returned, and nothing is retried
      obtain ⟨r, s₂, net₂, hfirst, hrest⟩ := Cmd.exec_bind_inv hx
      unfold counterAttempt memcachedBehaviorGet at hfirst
      rw [Cmd.exec_get_bind, if_pos hbinary] at hfirst
      obtain ⟨_, _, _, -, hend⟩ := Cmd.exec_bind_inv hfirst
      cases hend
      obtain ⟨r, s₃, net₃, hretry, hend⟩ := Cmd.exec_bind_inv hrest
      rw [Cmd.exec, Cmd.retry_of_not_more rfl] at hretry
      cases hretry
      cases hend
      exact hret.elim
    · have hone : ∀ value, OneDelivery rest pool
          (updateItem (pool.countChange fn offset.toUInt64 (some (initial.toUInt64, expiry))))
          (pool.loc s₁.memc serverKey key) CounterRes.code
          (counterAttempt fn serverKey key offset initial expiry value) s₁ := fun value =>
        oneDelivery_counterAttempt fn serverKey key offset initial expiry value hbinary
      have hagain : ∀ r, shouldRetryCounter s₁ r = true → OneDelivery rest pool
          (updateItem (pool.countChange fn offset.toUInt64 (some (initial.toUInt64, expiry))))
          (pool.loc s₁.memc serverKey key) CounterRes.code
          (counterAgain fn serverKey key offset initial expiry r) s₁ := by
        intro r hr
        cases r with
        | none => cases hr
        | some r => exact hone r.2
      rw [← bind_assoc] at hx
      obtain ⟨r, ds, net₁, hattempts, hup, ht⟩ := attempts_update
        (fun _ h => isError_of_shouldRetryCounter h) (hone _) hagain
        s₁.memc.userData.storeRetryCount.toInt.toNat net
      rw [Cmd.exec_bind_done hattempts] at hx
      obtain ⟨herr, rfl⟩ := exec_counterEnd hret hx
      rw [hmemc] at hup
      exact ⟨ds, r.code, hup, ht, herr⟩

/-- **How often a call that succeeds has made its update**: once, and once more for every answer
that was lost. -/
theorem update_made_once_iff (env : Env) {m : Method} {ret : Zval} {s s' : State} {net net' : Net}
    (hm : m.update pool s.memc = some (l, f))
    (hx : Cmd.exec (pool.handler rest) (m.run env) s net = (.done ret s', net'))
    (hret : ret.Succeeded) :
    ∃ ds, Updates f l net ds net' ∧ ds.countP (·.applied) = 1 + ds.countP Delivery.lost ∧
      (ds.countP (·.applied) = 1 ↔ ∀ d ∈ ds, d.lost = false) := by
  suffices hmade : ∃ ds st, Updates f l net ds net' ∧ Tally ds st ∧
      sMemcachedReturnIsError st true = false by
    obtain ⟨ds, st, hup, ht, herr⟩ := hmade
    have hcount : ds.countP (·.applied) = 1 + ds.countP Delivery.lost := by
      rw [Tally, herr] at ht
      rw [ht, Nat.add_comm]
      rfl
    refine ⟨ds, hup, hcount, ?_⟩
    rw [hcount, Nat.add_eq_left, List.countP_eq_zero]
    simp only [Bool.not_eq_true]
  cases m with
  | append serverKey key value =>
    cases serverKey with
    | some serverKey => cases hm
    | none =>
      cases hm
      exact phpMemcStoreImpl_updates env rfl (.inl rfl) hret hx
  | prepend serverKey key value =>
    cases serverKey with
    | some serverKey => cases hm
    | none =>
      cases hm
      exact phpMemcStoreImpl_updates env rfl (.inr rfl) hret hx
  | increment serverKey key offset initial =>
    cases initial with
    | none => cases hm
    | some initial =>
      cases hm
      exact phpMemcIncdecImpl_updates hret hx
  | decrement serverKey key offset initial =>
    cases initial with
    | none => cases hm
    | some initial =>
      cases hm
      exact phpMemcIncdecImpl_updates hret hx
  | _ => cases hm

end

/-! ## an answer that is lost -/

/-- a pool of one server that loses the answer to the first update, and serves all others -/
def forgetful : Pool where
  route _ := 0
  count _ offset _ item := .ok (item.getD ⟨natText offset.toNat, 0, 0⟩, offset)
  fate n := if n = 0 then .lost ⟨.timeout, rfl⟩ else .served
  readFate _ := none
  cas _ _ := 0

/-- a client without compression that retries `n` times -/
def retrying (n : Int64) : State :=
  let s := newObject { iniDefaults with storeRetryCount := n } 1
  { s with memc := { s.memc with userData :=
      { s.memc.userData with compressionEnabled := false } } }

/-- one item at the key `k` -/
def oneItem (payload : Bytes) : Net where
  items := Function.update (fun _ => none) ⟨0, ascii ['k']⟩ (some ⟨payload, 0, 0⟩)
  trace := []
  reads := 0

/-- the theorem on an `append` with one retry, the answer to the first attempt being lost -/
theorem update_made_twice :
    ∃ ds, Updates (updateItem (storeChange .append (ascii ['x']) 0 0)) ⟨0, ascii ['k']⟩
        (oneItem (ascii ['a'])) ds
        (Cmd.exec (forgetful.handler calls)
          ((Method.append none (ascii ['k']) (ascii ['x'])).run plainEnv) (retrying 1)
          (oneItem (ascii ['a']))).2 ∧
      ds.countP (·.applied) = 1 + ds.countP Delivery.lost ∧
      (ds.countP (·.applied) = 1 ↔ ∀ d ∈ ds, d.lost = false) := by
  have hx : Cmd.exec (forgetful.handler calls)
      ((Method.append none (ascii ['k']) (ascii ['x'])).run plainEnv) (retrying 1)
      (oneItem (ascii ['a'])) = (.done (.bool true) (retrying 1), _) := rfl
  exact update_made_once_iff plainEnv rfl hx trivial

/-- the failing case: that `append` leaves `axx` -/
theorem append_applied_twice :
    ¬ ∀ (pool : Pool) (rest : Handler Call Ans Net) (env : Env) (m : Method) (l : Loc)
      (f : Option Item → Option Item) (ret : Zval) (s s' : State) (net net' : Net),
      m.update pool s.memc = some (l, f) →
      Cmd.exec (pool.handler rest) (m.run env) s net = (.done ret s', net') → ret.Succeeded →
      net'.items l = f (net.items l) := by
  intro hclaim
  have honce := hclaim forgetful calls plainEnv (.append none (ascii ['k']) (ascii ['x']))
    ⟨0, ascii ['k']⟩ (updateItem (storeChange .append (ascii ['x']) 0 0)) (.bool true)
    (retrying 1) _ (oneItem (ascii ['a'])) _ rfl rfl trivial
  have hpayload := congrArg (Option.map fun item => item.payload) honce
  revert hpayload
  decide

end PhpMemcached
