import PhpMemcached.Ops

/-!
# Requests to all servers, and the code of the last operation

* `AdminCall`, `AdminM`     the requests without item keys, among those of the methods;
* `memcachedGetStats`, `memcachedGetVersion`, `memcachedGetAllKeys`, `memcachedFlush`,
  `memcachedFlushBuffers`   the methods;
* `Operation`               all methods that send requests to the servers;
* `Operation.LeavesCode`    those that may leave the code of an earlier one;
* `code_of_last_operation_iff`   the others set it themselves.
-/

namespace PhpMemcached
open Ascii Requests

/-- a server as its callbacks see it -/
structure Instance where
  name : Bytes
  port : Nat
  majorVersion : Nat
  minorVersion : Nat
  microVersion : Nat

/-- `"%s:%d"` -/
def Instance.address (server : Instance) : Bytes := server.name ++ 58 :: natText server.port

inductive AdminCall where
  | statExecute (memc : Memc) (args : Option Bytes)
  | version (memc : Memc)
  | serverCursor (memc : Memc)
  | dump (memc : Memc)
  | flush (memc : Memc) (delay : Int64)
  | flushBuffers (memc : Memc)

/-- the status, with what the callbacks are called on -/
def AdminAns : AdminCall → Type
  | .statExecute .. => Status × List (Instance × Bytes × Bytes)
  | .serverCursor .. => Status × List Instance
  | .dump .. => Status × List Bytes
  | _ => Status

abbrev AdminM := Cmd (Call ⊕ AdminCall) (Sum.elim Ans AdminAns) Abort State

abbrev askAll (c : AdminCall) : AdminM (AdminAns c) :=
  Cmd.req (ι := Call ⊕ AdminCall) (Sum.inr c)

/-! ## statistics -/

/-- `strtod` of the C library: the value, what is left, and whether `errno` is set -/
structure Strtod where
  val : Dbl
  rest : Bytes
  errno : Bool

/-- `s_long_value` -/
def sLongValue (str : Bytes) : Option Int64 :=
  let t := (signDigits str).2
  if t ≠ [] ∧ t.all isDigit = true ∧ -2 ^ 63 ≤ strtoz str ∧ strtoz str < 2 ^ 63 then
    some (Int64.ofInt (strtoz str))
  else none

section
variable (strtod : Bytes → Strtod)

/-- `s_double_value` -/
def sDoubleValue (str : Bytes) : Option Dbl :=
  let r := strtod str
  if r.errno = true ∨ r.rest = str ∨ r.rest ≠ [] then none else some r.val

/-- `s_stat_execute_cb` -/
def sStatExecuteCb (ret : HashTable) (server : Instance) (key value : Bytes) : HashTable :=
  let serverKey := ArrKey.str server.address
  let serverValues := match zendHashFind ret serverKey with
    | some (.arr a) => a
    | _ => []
  let buffer := cString value
  let serverValues :=
    match sLongValue buffer with
    | some n => zendSymtableUpdate serverValues (cString key) (.long n)
    | none =>
      match sDoubleValue strtod buffer with
      | some d => zendSymtableUpdate serverValues (cString key) (.double d)
      | none => zendSymtableUpdate serverValues key (.str value)
  zendHashUpdate ret serverKey (.arr serverValues)

/-- the request of `getStats`, made without `NO_BLOCK` where that is to be switched off -/
def statExecuteBlocking (switch : Bool) (origNoBlock : UInt64) (args : Option Bytes) :
    AdminM Zval := do
  Cmd.inl (Cmd.when switch (memcachedBehaviorSet .noBlock 0 >>= fun _ => pure ()))
  let s ← Cmd.get
  let r ← askAll (.statExecute s.memc args)
  Cmd.inl (Cmd.when switch (memcachedBehaviorSet .noBlock origNoBlock >>= fun _ => pure ()))
  let ok ← Cmd.inl (sMemcStatusHandleResultCode r.1)
  if ok then
    pure (.arr (r.2.foldl (fun ret stat => sStatExecuteCb strtod ret stat.1 stat.2.1 stat.2.2) []))
  else pure (.bool false)

/-- `Memcached::getStats`: statistics hang in non-blocking mode -/
def memcachedGetStats (args : Option Bytes) : AdminM Zval := do
  let s ← Cmd.get
  let origNoBlock := memcachedBehaviorGet s.memc .noBlock
  let origProtocol := memcachedBehaviorGet s.memc .binaryProtocol
  statExecuteBlocking strtod (origNoBlock ≠ 0 && origProtocol ≠ 0) origNoBlock args

end

/-! ## the other methods -/

/-- `s_server_cursor_version_cb`: a server that is there already is left as it is -/
def sServerCursorVersionCb (ret : HashTable) (server : Instance) : HashTable :=
  let address := ArrKey.str server.address
  match zendHashFind ret address with
  | some _ => ret
  | none => zendHashUpdate ret address (.str (natText server.majorVersion ++ 46 ::
      natText server.minorVersion ++ 46 :: natText server.microVersion))

/-- `Memcached::getVersion` -/
def memcachedGetVersion : AdminM Zval := do
  let s ← Cmd.get
  let status ← askAll (.version s.memc)
  let ok ← Cmd.inl (sMemcStatusHandleResultCode status)
  if ok then
    let s ← Cmd.get
    let r ← askAll (.serverCursor s.memc)
    let ok ← Cmd.inl (sMemcStatusHandleResultCode r.1)
    if ok then pure (.arr (r.2.foldl sServerCursorVersionCb [])) else pure (.bool false)
  else pure (.bool false)

/-- `Memcached::getAllKeys`: two errors are ignored -/
def memcachedGetAllKeys : AdminM Zval := do
  let s ← Cmd.get
  let r ← askAll (.dump s.memc)
  let returnValue := Zval.arr (r.2.foldl (fun ret key => addNextIndexZval ret (.str key)) [])
  if r.1 = .clientError ∨ r.1 = .serverError then pure returnValue
  else
    let ok ← Cmd.inl (sMemcStatusHandleResultCode r.1)
    if ok then pure returnValue else pure (.bool false)

/-- `Memcached::flush` -/
def memcachedFlush (delay : Int64) : AdminM Zval := do
  Cmd.inl (sMemcSetStatus .success 0)
  let s ← Cmd.get
  let status ← askAll (.flush s.memc delay)
  let ok ← Cmd.inl (sMemcStatusHandleResultCode status)
  pure (.bool ok)

/-- `Memcached::flushBuffers` -/
def memcachedFlushBuffers : AdminM Zval := do
  let s ← Cmd.get
  let status : Status ← askAll (.flushBuffers s.memc)
  pure (.bool (status == .success))

/-! ## the code of the last operation -/

/-- a call of a method that sends requests to the servers -/
inductive Operation where
  | method (m : Method)
  | fetch
  | fetchAll
  | getStats (args : Option Bytes)
  | getVersion
  | getAllKeys
  | flush (delay : Int64)
  | flushBuffers

def Operation.run (env : Env) (strtod : Bytes → Strtod) : Operation → AdminM Zval
  | .method m => Cmd.inl (m.run env)
  | .fetch => Cmd.inl (memcachedFetch env)
  | .fetchAll => Cmd.inl (memcachedFetchAll env)
  | .getStats args => memcachedGetStats strtod args
  | .getVersion => memcachedGetVersion
  | .getAllKeys => memcachedGetAllKeys
  | .flush delay => memcachedFlush delay
  | .flushBuffers => memcachedFlushBuffers

/-- the object with another code -/
def State.withCode (s : State) (rescode : Status) (memcErrno : Int) : State :=
  { s with rescode := rescode, memcErrno := memcErrno }

/-- code and error number at the end of a run -/
def codeAfter {α σ : Type} (r : Outcome Abort State α × σ) : Status × Int :=
  (r.1.state.rescode, r.1.state.memcErrno)

section
variable (env : Env) (strtod : Bytes → Strtod) {σ : Type}
  (h : Handler (Call ⊕ AdminCall) (Sum.elim Ans AdminAns) σ) (s : State) (w : σ)

/-- the operations that may leave an earlier code: `flushBuffers`, and `getAllKeys` on an error it
ignores -/
def Operation.LeavesCode : Operation → Prop
  | .flushBuffers => True
  | .getAllKeys =>
    let rc : Status := (h (.inr (.dump s.memc)) w).1.1
    rc = .clientError ∨ rc = .serverError
  | _ => False

/-- every other operation sets code and error number before it looks at them -/
theorem run_withCode {op : Operation} (hop : op ≠ .getAllKeys ∧ op ≠ .flushBuffers) (rescode : Status)
    (memcErrno : Int) : op.run env strtod (s.withCode rescode memcErrno) = op.run env strtod s := by
  cases op with
  | method m =>
    cases m with
    | getMulti serverKey keys preserveOrder extended =>
      cases keys with
      | nil => rfl
      | cons e keys => rfl
    | _ => rfl
  | fetch => rfl
  | fetchAll => rfl
  | getStats args =>
    show statExecuteBlocking strtod (s.memc.behavior .noBlock ≠ 0 && s.memc.behavior .binaryProtocol ≠ 0)
        (s.memc.behavior .noBlock) args (s.withCode rescode memcErrno) =
      statExecuteBlocking strtod (s.memc.behavior .noBlock ≠ 0 && s.memc.behavior .binaryProtocol ≠ 0)
        (s.memc.behavior .noBlock) args s
    cases (s.memc.behavior .noBlock ≠ 0 && s.memc.behavior .binaryProtocol ≠ 0 : Bool) with
    | true => rfl
    | false => rfl
  | getVersion => rfl
  | getAllKeys => exact absurd rfl hop.1
  | flush delay => rfl
  | flushBuffers => exact absurd rfl hop.2

/-- what `getAllKeys` leaves -/
theorem codeAfter_getAllKeys (rescode : Status) (memcErrno : Int) :
    let rc : Status := (h (.inr (.dump s.memc)) w).1.1
    codeAfter (Cmd.exec h memcachedGetAllKeys (s.withCode rescode memcErrno) w) =
      if rc = .clientError ∨ rc = .serverError then (rescode, memcErrno)
      else codeAfter (Cmd.exec h (Cmd.inl (sMemcStatusHandleResultCode rc)) s
        (h (.inr (.dump s.memc)) w).2) := by
  intro rc
  obtain ⟨ret, hrun⟩ : ∃ ret : Zval,
      Cmd.exec h memcachedGetAllKeys (s.withCode rescode memcErrno) w =
        Cmd.exec h (if rc = .clientError ∨ rc = .serverError then pure ret
          else do
            let ok ← Cmd.inl (sMemcStatusHandleResultCode rc)
            if ok then pure ret else pure (.bool false) : AdminM Zval) (s.withCode rescode memcErrno)
          (h (.inr (.dump s.memc)) w).2 := ⟨_, rfl⟩
  rw [hrun]
  by_cases hrc : rc = .clientError ∨ rc = .serverError
  · rw [if_pos hrc, if_pos hrc]
    rfl
  · rw [if_neg hrc, if_neg hrc]
    have hcode : Cmd.exec h (Cmd.inl (sMemcStatusHandleResultCode rc)) (s.withCode rescode memcErrno)
        (h (.inr (.dump s.memc)) w).2 =
        Cmd.exec h (Cmd.inl (sMemcStatusHandleResultCode rc)) s (h (.inr (.dump s.memc)) w).2 := rfl
    cases hx : Cmd.exec h (Cmd.inl (sMemcStatusHandleResultCode rc)) s
        (h (.inr (.dump s.memc)) w).2 with
    | mk o w' =>
      cases o with
      | done ok s' =>
        refine (congrArg codeAfter (Cmd.exec_bind_done (hcode.trans hx))).trans ?_
        cases ok <;> rfl
      | stop e s' => exact congrArg codeAfter (Cmd.exec_bind_stop (hcode.trans hx))

/-- **When the result code belongs to the last operation.** -/
theorem code_of_last_operation_iff (op : Operation) :
    (∀ rescode memcErrno rescode' memcErrno',
      codeAfter (Cmd.exec h (op.run env strtod) (s.withCode rescode memcErrno) w) =
        codeAfter (Cmd.exec h (op.run env strtod) (s.withCode rescode' memcErrno') w)) ↔
      ¬ op.LeavesCode h s w := by
  by_cases hop : op ≠ .getAllKeys ∧ op ≠ .flushBuffers
  · have hnot : ¬ op.LeavesCode h s w := by
      cases op with
      | getAllKeys => exact absurd rfl hop.1
      | flushBuffers => exact absurd rfl hop.2
      | _ => exact id
    refine iff_of_true (fun rescode memcErrno rescode' memcErrno' => ?_) hnot
    rw [Cmd.exec_congr (run_withCode env strtod s hop rescode memcErrno),
      Cmd.exec_congr (run_withCode env strtod s hop rescode' memcErrno')]
  · rw [not_and_or, not_not, not_not] at hop
    rcases hop with rfl | rfl
    · show _ ↔ ¬ (_ ∨ _)
      constructor
      · intro hsame hleaves
        have h01 := hsame .success 0 .failure 0
        simp only [Operation.run, codeAfter_getAllKeys, if_pos hleaves] at h01
        cases h01
      · intro hnot rescode memcErrno rescode' memcErrno'
        simp only [Operation.run, codeAfter_getAllKeys, if_neg hnot]
    · refine iff_of_false (fun hsame => ?_) fun hnot => hnot trivial
      have h01 := hsame .success 0 .failure 0
      cases h01

end

/-! ## a code that is left -/

/-- flushing the buffers fails, everything else as by `noServers` -/
def timingOut : Handler (Call ⊕ AdminCall) (Sum.elim Ans AdminAns) Unit
  | .inl c, w => noServers c w
  | .inr (.flushBuffers _), w => ((.timeout : Status), w)
  | .inr (.statExecute ..), w => (((.noServers, []) : Status × List (Instance × Bytes × Bytes)), w)
  | .inr (.serverCursor _), w => (((.noServers, []) : Status × List Instance), w)
  | .inr (.dump _), w => (((.noServers, []) : Status × List Bytes), w)
  | .inr (.version _), w => ((.noServers : Status), w)
  | .inr (.flush ..), w => ((.noServers : Status), w)

/-- the failing case: `flushBuffers` leaves the code of the operation before it -/
theorem flushBuffers_leaves_code :
    ¬ ∀ (env : Env) (strtod : Bytes → Strtod)
      (h : Handler (Call ⊕ AdminCall) (Sum.elim Ans AdminAns) Unit) (s : State) (w : Unit)
      (op : Operation) (rescode rescode' : Status) (memcErrno memcErrno' : Int),
      codeAfter (Cmd.exec h (op.run env strtod) (s.withCode rescode memcErrno) w) =
        codeAfter (Cmd.exec h (op.run env strtod) (s.withCode rescode' memcErrno') w) := by
  intro hclaim
  have hsame := hclaim plainEnv (fun b => ⟨⟨0⟩, b, false⟩) timingOut (newObject iniDefaults 1) ()
    .flushBuffers .success .notfound 0 0
  cases hsame

end PhpMemcached
