import PhpMemcached.Ops
import PhpMemcached.Routing

/-!
# What `setMulti` reports

* `writeEach`            the writes of `setMulti` one by one, with what each of them returned and
                         left in the object;
* `SetMultiReports`      the contract: TRUE if and only if every write succeeded, and otherwise the
                         code of a write that failed.

The object's code is that of the LAST write (`Cmd` run of `writeEach`), so the contract is kept
exactly when the last write is among the failed ones, or none failed.
-/

namespace PhpMemcached
open Ascii Requests

section
variable (env : Env)

/-- the writes of `setMulti`, each with its result and the result code it left -/
def writeEach (serverKey : Option Bytes) (expiration : Int64) :
    HashTable → MemcM (List (Bool × Status))
  | [] => pure []
  | (k, value) :: entries => do
    let ok ← sMemcWriteZval env .set serverKey (entryKey k) (some value) expiration
    let s ← Cmd.get
    let rs ← writeEach serverKey expiration entries
    pure ((ok, s.rescode) :: rs)

/-- the same writes as in `setMultiLoop` -/
theorem setMultiLoop_eq (serverKey : Option Bytes) (expiration : Int64) (entries : HashTable) :
    setMultiLoop env serverKey expiration entries =
      writeEach env serverKey expiration entries >>= fun _ => pure () := by
  induction entries with
  | nil => rfl
  | cons e entries ih =>
    obtain ⟨k, value⟩ := e
    simp only [setMultiLoop, writeEach, bind_assoc, ih, pure_bind]
    rfl

/-- what every write of a run returned says whether its code is an error; the object is left with
the last code -/
theorem writeEach_status (serverKey : Option Bytes) (expiration : Int64) (entries : HashTable)
    (s : State) :
    Cmd.Sat (fun _ => True) (fun rs s' => (∀ r ∈ rs, r.1 = !sMemcachedReturnIsError r.2 true) ∧
        s'.rescode = (rs.getLast?.map Prod.snd).getD s.rescode)
      (writeEach env serverKey expiration entries) s := by
  induction entries generalizing s with
  | nil => exact ⟨fun r hr => absurd hr List.not_mem_nil, rfl⟩
  | cons e entries ih =>
    obtain ⟨k, value⟩ := e
    refine (sat_sMemcWriteZval_status env .set serverKey (entryKey k) (some value) expiration
      s).bind ?_
    intro ok s₁ hok
    rw [Cmd.sat_get_bind]
    refine (ih s₁).bind ?_
    rintro rs s₂ ⟨hrs, hlast⟩
    refine ⟨fun r hr => ?_, ?_⟩
    · rcases List.mem_cons.mp hr with rfl | hr
      · exact hok
      · exact hrs r hr
    · rw [hlast, List.getLast?_cons]
      cases rs.getLast? <;> rfl

/-! ## the contract -/

/-- TRUE if and only if every write succeeded; after FALSE the code of a write that failed -/
structure SetMultiReports (rs : List (Bool × Status)) (ret : Zval) (rescode : Status) : Prop where
  true_iff : ret = .bool true ↔ ∀ r ∈ rs, r.1 = true
  code : ret = .bool false → (false, rescode) ∈ rs

variable {env} {σ : Type} {h : Handler Call Ans σ} {serverKey : Option Bytes} {entries : HashTable}
  {expiration : Int64} {s s' : State} {w w' : σ} {rs : List (Bool × Status)}

/-- the run of `setMulti` from that of its writes -/
theorem exec_phpMemcSetMultiImpl
    (hrun : Cmd.exec h (writeEach env serverKey expiration entries)
      { s with rescode := .success, memcErrno := 0 } w = (.done rs s', w')) :
    Cmd.exec h (phpMemcSetMultiImpl env serverKey entries expiration) s w =
      (.done (.bool !sMemcStatusHasError s') s', w') := by
  unfold phpMemcSetMultiImpl sMemcSetStatus
  rw [Cmd.exec_modify_bind, setMultiLoop_eq, bind_assoc, Cmd.exec_bind_done hrun]
  rfl

/-- **When `setMulti` reports what its writes did.** It does if and only if they all succeeded or
the last one is among those that failed. -/
theorem phpMemcSetMultiImpl_reports_iff
    (hrun : Cmd.exec h (writeEach env serverKey expiration entries)
      { s with rescode := .success, memcErrno := 0 } w = (.done rs s', w')) :
    (∃ ret s₁ w₁, Cmd.exec h (phpMemcSetMultiImpl env serverKey entries expiration) s w =
        (.done ret s₁, w₁) ∧ SetMultiReports rs ret s₁.rescode) ↔
      (∀ r ∈ rs, r.1 = true) ∨ ∃ r, rs.getLast? = some r ∧ r.1 = false := by
  obtain ⟨hrs, hlast⟩ := (writeEach_status env serverKey expiration entries _).exec hrun
  have hexec := exec_phpMemcSetMultiImpl hrun
  have hok : ∀ r ∈ rs, r.1 = true ↔ sMemcachedReturnIsError r.2 true = false := by
    intro r hr
    rw [hrs r hr, Bool.not_eq_true']
  constructor
  · rintro ⟨ret, s₁, w₁, hx, hrep⟩
    rw [hexec] at hx
    cases hx
    by_cases hall : ∀ r ∈ rs, r.1 = true
    · exact .inl hall
    · -- some write failed, so `setMulti` must not return true: the last code is an error
      right
      have herr : sMemcStatusHasError s' = true := by
        by_contra hne
        rw [Bool.not_eq_true] at hne
        exact hall (hrep.true_iff.mp (by rw [hne]; rfl))
      cases hl : rs.getLast? with
      | none =>
        rw [List.getLast?_eq_none_iff.mp hl] at hall
        exact absurd (fun r hr => absurd hr List.not_mem_nil) hall
      | some r =>
        refine ⟨r, rfl, ?_⟩
        rw [hl] at hlast
        rw [hrs r (List.mem_of_getLast? hl), ← show s'.rescode = r.2 from hlast]
        exact congrArg (!·) herr
  · intro hcond
    rcases hcond with hall | ⟨r, hl, hr⟩
    · have hno : sMemcStatusHasError s' = false := by
        rw [sMemcStatusHasError, hlast]
        cases hl : rs.getLast? with
        | none => rfl
        | some r =>
          have hmem := List.mem_of_getLast? hl
          exact (hok r hmem).mp (hall r hmem)
      rw [hno] at hexec
      exact ⟨_, _, _, hexec, iff_of_true rfl hall, fun h => by cases h⟩
    · have hmem := List.mem_of_getLast? hl
      have hcode : s'.rescode = r.2 := by
        rw [hlast, hl]
        rfl
      have herr : sMemcStatusHasError s' = true := by
        rw [sMemcStatusHasError, hcode, ← Bool.not_eq_false, ← hok r hmem, hr]
        exact Bool.false_ne_true
      rw [herr] at hexec
      refine ⟨_, _, _, hexec, iff_of_false (fun h => by cases h) ?_, fun _ => ?_⟩
      · intro hall
        rw [hall r hmem] at hr
        cases hr
      · rw [hcode, ← hr]
        exact hmem

/-- the theorem on two entries against no server: both writes fail, and `setMulti` says so -/
theorem phpMemcSetMultiImpl_reports_noServers :
    ∃ ret s₁ w₁, Cmd.exec noServers (phpMemcSetMultiImpl plainEnv none
      [(.int 1, .bool true), (.str (ascii ['k']), .null)] 0) (newObject iniDefaults 1) () =
        (.done ret s₁, w₁) ∧
      SetMultiReports [(false, .noServers), (false, .noServers)] ret s₁.rescode :=
  (phpMemcSetMultiImpl_reports_iff rfl).mpr (.inr ⟨(false, .noServers), rfl, rfl⟩)

/-- the failing case: an entry that does not serialize, followed by one that is stored -/
theorem setMulti_hides_failure :
    ¬ ∀ (env : Env) (h : Handler Call Ans (Nat × Unit)) (serverKey : Option Bytes)
      (entries : HashTable) (expiration : Int64) (s s' : State) (w w' : Nat × Unit)
      (rs : List (Bool × Status)),
      Cmd.exec h (writeEach env serverKey expiration entries)
        { s with rescode := .success, memcErrno := 0 } w = (.done rs s', w') →
      ∃ ret s₁ w₁, Cmd.exec h (phpMemcSetMultiImpl env serverKey entries expiration) s w =
        (.done ret s₁, w₁) ∧ SetMultiReports rs ret s₁.rescode := by
  intro hclaim
  have hrun := hclaim plainEnv (scripted (fun _ => .success) noServers) none
    [(.str (ascii ['a']), .obj 0), (.str (ascii ['b']), .bool true)] 0
    (newObject iniDefaults 1) (newObject iniDefaults 1) (0, ()) (1, ())
    [(false, .payloadFailure), (true, .success)] rfl
  obtain ⟨ret, s₁, w₁, hx, hrep⟩ := hrun
  cases hx
  have hall := hrep.true_iff.mp rfl (false, .payloadFailure) List.mem_cons_self
  cases hall

end
end PhpMemcached
