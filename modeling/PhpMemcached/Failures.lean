import PhpMemcached.Counters
import PhpMemcached.ReadThrough

/-!
# Failures and their codes

* `Reports`              a command that returns FALSE leaves an error code;
* `Method.Failed`        what a method returns when it fails;
* `Method.StoredFalse`   a `get` whose FALSE is a value;
* `Method.Silent`        the failures that leave the code of a success;
* `false_means_error_iff`   there are no others.

The code is set to `SUCCESS` at the start, so each return of FALSE has to come with a code of its own.
-/

namespace PhpMemcached
open Ascii Requests

/-- FALSE comes with an error code -/
def Reports (m : MemcM Zval) (s : State) : Prop :=
  Cmd.Sat (fun _ => True) (fun ret s' => ret = .bool false → sMemcStatusHasError s' = true) m s

section
variable (env : Env)

/-! ## the parts of a method -/

theorem reports_checkKeyOr {key : Bytes} {next : MemcM Zval} {s : State}
    (hnext : memcCheckKey s.memc key = true → Reports next s) : Reports (checkKeyOr key next) s := by
  unfold Reports checkKeyOr
  rw [Cmd.sat_get_bind]
  split
  · rename_i hkey
    exact hnext hkey
  · exact fun _ => rfl

/-- a boolean that says whether there is no error -/
theorem reports_of_sat {m : MemcM Bool} {s : State}
    (hm : Cmd.Sat (fun _ => True) (fun ok s' => ok = !sMemcStatusHasError s') m s) :
    Reports (m >>= fun ok => pure (.bool ok)) s := by
  refine hm.bind fun ok s' hok hret => ?_
  have hfalse : ok = false := Zval.bool.inj hret
  rw [hfalse, eq_comm, Bool.not_eq_false'] at hok
  exact hok

theorem reports_handleResultCode (status : Status) (s : State) :
    Reports (sMemcStatusHandleResultCode status >>= fun ok => pure (.bool ok)) s :=
  reports_of_sat ((sat_handleResultCode status s).mono (fun _ h => h) fun _ _ h => h.2)

/-- a request, and its status -/
theorem reports_status (m : MemcM Status) (s : State) :
    Reports (m >>= fun status => sMemcStatusHandleResultCode status >>= fun ok => pure (.bool ok)) s :=
  (Cmd.sat_true m s).bind fun status s' _ => reports_handleResultCode status s'

/-- a fetch request reports false exactly with an error code -/
theorem sat_phpMemcMgetApply_status {α : Type} (serverKey : Option Bytes) (keys : List Bytes)
    (apply : Option (ResultApplyFn α)) (withCas : Bool) (acc : α) (s : State) :
    Cmd.Sat (fun _ => True) (fun r s' => r.1 = !sMemcStatusHasError s')
      (phpMemcMgetApply env serverKey keys apply withCas acc) s := by
  have hswitch : ∀ (c : Bool) (data : UInt64) (s : State), Cmd.Sat (fun _ => True)
      (fun _ s' => s'.rescode = s.rescode)
      (Cmd.when c (memcachedBehaviorSet .supportCas data >>= fun _ => pure ())) s := by
    intro c data s
    cases c with
    | true => exact ⟨trivial, fun _ => rfl⟩
    | false => exact rfl
  unfold phpMemcMgetApply sMemcSetStatus
  rw [Cmd.sat_modify_bind]
  split
  · exact rfl
  · rw [Cmd.sat_get_bind]
    refine (hswitch _ _ _).bind fun _ s₁ _ => ?_
    refine (Cmd.sat_true (memcachedMget serverKey keys) s₁).bind fun status s₂ _ => ?_
    refine (sat_handleResultCode status s₂).bind fun ok s₃ hcode => ?_
    refine (hswitch _ _ s₃).bind fun _ s₄ hrescode => ?_
    have hok : ok = !sMemcStatusHasError s₄ := by
      rw [hcode.2, sMemcStatusHasError, sMemcStatusHasError, hrescode]
    cases ok with
    | false => exact hok
    | true =>
      cases apply with
      | none => exact hok
      | some apply =>
        refine (Cmd.sat_true (phpMemcResultApply env apply false acc) s₄).bind fun r s₅ _ => ?_
        exact (sat_handleResultCode r.1 s₅).bind fun ok s₆ hend => hend.2

/-! ## the methods that always report -/

theorem reports_phpMemcStoreImpl {op : WriteOp} (serverKey : Option Bytes) (key : Bytes)
    (value : Option Zval) (expiration : Int64) (s : State) :
    Reports (phpMemcStoreImpl env op serverKey key value expiration) s := by
  unfold phpMemcStoreImpl sMemcSetStatus
  refine reports_checkKeyOr fun _ => ?_
  unfold Reports
  rw [Cmd.sat_get_bind]
  split
  · exact (Cmd.sat_true _ _).bind fun _ _ _ hret => nomatch hret
  · exact reports_of_sat (sat_sMemcWriteZval_status env op serverKey key value expiration _)

theorem reports_phpMemcSetMultiImpl (serverKey : Option Bytes) (entries : HashTable)
    (expiration : Int64) (s : State) :
    Reports (phpMemcSetMultiImpl env serverKey entries expiration) s := by
  unfold phpMemcSetMultiImpl sMemcSetStatus Reports
  rw [Cmd.sat_modify_bind]
  refine (Cmd.sat_true _ _).bind fun _ s' _ hret => ?_
  have hno : (!sMemcStatusHasError s') = false := Zval.bool.inj hret
  rwa [Bool.not_eq_false'] at hno

theorem reports_phpMemcCasImpl (serverKey : Option Bytes) (zvCas : Zval) (key : Bytes) (value : Zval)
    (expiration : Int64) (s : State) :
    Reports (phpMemcCasImpl env serverKey zvCas key value expiration) s := by
  unfold phpMemcCasImpl sMemcSetStatus
  refine reports_checkKeyOr fun _ => ?_
  cases sZvalToUint64 env zvCas with
  | none => trivial
  | some cas =>
    refine (Cmd.sat_true (sZvalToPayload env value 0) _).bind fun r s₁ _ => ?_
    cases r with
    | none => exact fun _ => rfl
    | some r =>
      obtain ⟨payload, flags⟩ := r
      rw [Cmd.sat_get_bind]
      split
      · exact fun _ => rfl
      · exact reports_status (memcachedCas serverKey key payload expiration flags cas) s₁

theorem reports_phpMemcDeleteImpl (serverKey : Option Bytes) (key : Bytes) (expiration : Int64)
    (s : State) : Reports (phpMemcDeleteImpl serverKey key expiration) s := by
  unfold phpMemcDeleteImpl sMemcSetStatus
  exact reports_checkKeyOr fun _ => reports_status (memcachedDelete serverKey key expiration) _

theorem reports_phpMemcDeleteMultiImpl (serverKey : Option Bytes) (entries : HashTable)
    (expiration : Int64) (s : State) :
    Reports (phpMemcDeleteMultiImpl env serverKey entries expiration) s := by
  unfold phpMemcDeleteMultiImpl sMemcSetStatus Reports
  rw [Cmd.sat_modify_bind]
  exact (Cmd.sat_true _ _).bind fun _ _ _ hret => nomatch hret

theorem reports_phpMemcGetDelayedImpl (serverKey : Option Bytes) (keys : HashTable)
    (withCas hasCallback : Bool) (s : State) :
    Reports (phpMemcGetDelayedImpl env serverKey keys withCas hasCallback) s := by
  unfold phpMemcGetDelayedImpl sMemcSetStatus Reports
  rw [Cmd.sat_modify_bind]
  refine (sat_phpMemcMgetApply_status env _ _ _ _ _ _).bind fun r s' hr hret => ?_
  have hfalse : r.1 = false := Zval.bool.inj hret
  rw [hfalse, eq_comm, Bool.not_eq_false'] at hr
  exact hr

/-- without an exception: one that is pending makes FALSE of an array that is complete -/
theorem sat_phpMemcGetMultiImpl_reports (serverKey : Option Bytes) (keys : HashTable)
    (preserveOrder extended : Bool) (s : State) :
    Cmd.Sat (fun _ => True) (fun ret s' => ret = .bool false → s'.exception = false →
        sMemcStatusHasError s' = true)
      (phpMemcGetMultiImpl env serverKey keys preserveOrder extended) s := by
  unfold phpMemcGetMultiImpl sMemcSetStatus
  split
  · exact fun hret => nomatch hret
  · rw [Cmd.sat_modify_bind]
    refine (sat_phpMemcMgetApply_status env _ _ _ _ _ _).bind fun r s' hr => ?_
    obtain ⟨ok, acc⟩ := r
    show Cmd.Sat _ _ (if !ok && (s'.rescode == .notfound || s'.rescode == .someErrors) then
        pure (.arr acc) else if !ok || s'.exception then pure (.bool false)
        else pure (.arr acc) : MemcM Zval) s'
    split
    · exact fun hret => nomatch hret
    · split
      · rename_i hfail
        intro _ hexc
        rw [hexc, Bool.or_false, Bool.not_eq_true'] at hfail
        rw [hfail, eq_comm, Bool.not_eq_false'] at hr
        exact hr
      · exact fun hret => nomatch hret

/-! ## append and prepend -/

/-- an `append` or `prepend` reports exactly without compression -/
theorem concat_reports_iff {op : WriteOp} (hop : (op == .append || op == .prepend) = true) {σ : Type}
    {h : Handler Call Ans σ} {serverKey : Option Bytes} {key : Bytes} {value : Option Zval}
    {expiration : Int64} {s s' : State} {w w' : σ} {ret : Zval}
    (hx : Cmd.exec h (phpMemcStoreImpl env op serverKey key value expiration) s w = (.done ret s', w')) :
    (ret = .bool false ∨ ret = .null → sMemcStatusHasError s' = true) ↔
      ¬ (memcCheckKey s.memc key = true ∧ s.memc.userData.compressionEnabled = true) := by
  have hreports : ret = .bool false → sMemcStatusHasError s' = true :=
    (reports_phpMemcStoreImpl env serverKey key value expiration s).exec hx
  unfold phpMemcStoreImpl sMemcSetStatus checkKeyOr at hx
  rw [Cmd.exec_modify_bind, Cmd.exec_get_bind] at hx
  by_cases hkey : memcCheckKey s.memc key = true
  · rw [if_pos hkey, Cmd.exec_get_bind, hop, Bool.and_true] at hx
    by_cases hcompression : s.memc.userData.compressionEnabled = true
    · refine iff_of_false (fun h => ?_) fun hnot => hnot ⟨hkey, hcompression⟩
      rw [if_pos hcompression] at hx
      cases hx
      exact nomatch h (.inr rfl)
    · refine iff_of_true (fun hret => hret.elim hreports fun hnull => ?_) fun h => hcompression h.2
      rw [if_neg hcompression] at hx
      obtain ⟨ok, s₁, w₁, -, hend⟩ := Cmd.exec_bind_inv hx
      cases hend
      cases hnull
  · refine iff_of_true (fun hret => ?_) fun h => hkey h.1
    rw [if_neg hkey] at hx
    cases hx
    rfl

/-! ## counters -/

/-- a counter method that fails without an error code: its arguments are refused though the key is
valid, or it was answered and the value argument holds the mark for "not set" -/
def CounterSilent {σ : Type} (h : Handler Call Ans σ) (fn : CounterFn) (serverKey : Option Bytes)
    (key : Bytes) (offset : Int64) (initial : Option (Int64 × Int64)) (s : State) (w : σ) : Prop :=
  memcCheckKey s.memc key = true ∧
    let answers := (Cmd.log h (phpMemcIncdecImpl fn serverKey key offset initial) s w).filterMap
      counterAnswer
    (CounterRefused s.memc key offset initial ∨
      ∃ last, answers.getLast? = some last ∧ sMemcachedReturnIsError last.1 true = false ∧
        leftValue uint64Max answers = uint64Max)

theorem counter_reports_iff {σ : Type} {h : Handler Call Ans σ} {fn : CounterFn}
    {serverKey : Option Bytes} {key : Bytes} {offset : Int64} {initial : Option (Int64 × Int64)}
    {s s' : State} {w w' : σ} {ret : Zval}
    (hx : Cmd.exec h (phpMemcIncdecImpl fn serverKey key offset initial) s w = (.done ret s', w')) :
    (ret = .bool false → sMemcStatusHasError s' = true) ↔
      ¬ CounterSilent h fn serverKey key offset initial s w := by
  unfold CounterSilent
  by_cases href : CounterRefused s.memc key offset initial
  · obtain ⟨s₁, w₁, hrun, hrescode⟩ := ran_incdec_refused h fn serverKey key offset href w
    cases hx.symm.trans hrun.exec
    rw [sMemcStatusHasError, hrescode]
    cases hkey : memcCheckKey s.memc key with
    | true =>
      exact iff_of_false (fun h => Bool.false_ne_true (h rfl)) fun hnot => hnot ⟨rfl, .inl href⟩
    | false => exact iff_of_true (fun _ => rfl) fun h => Bool.false_ne_true h.1
  · obtain ⟨answers, last, s₁, w₁, hlast, hrun, hrescode⟩ :=
      ran_phpMemcIncdecImpl h fn serverKey key offset href w
    cases hx.symm.trans hrun.exec
    have hkey : memcCheckKey s.memc key = true := by
      rw [← Bool.not_eq_false]
      exact fun hbad => href (.inl hbad)
    rw [hrun.log, sMemcStatusHasError, hrescode, counterRet]
    cases hstatus : sMemcachedReturnIsError last.1 true with
    | true =>
      refine iff_of_true (fun _ => rfl) ?_
      rintro ⟨-, hbad | ⟨last', hlast', hfine, -⟩⟩
      · exact href hbad
      · cases hlast.symm.trans hlast'
        cases hstatus.symm.trans hfine
    | false =>
      rw [if_neg Bool.false_ne_true]
      by_cases hvalue : leftValue uint64Max answers = uint64Max
      · rw [if_pos hvalue]
        exact iff_of_false (fun h => Bool.false_ne_true (h rfl))
          fun hnot => hnot ⟨hkey, .inr ⟨last, hlast, hstatus, hvalue⟩⟩
      · rw [if_neg hvalue]
        refine iff_of_true (fun hret => by cases hret) ?_
        rintro ⟨-, hbad | ⟨_, _, _, hmark⟩⟩
        · exact href hbad
        · exact hvalue hmark

/-! ## get -/

/-- the read of a `get` -/
def getRead (serverKey : Option Bytes) (key : Bytes) (extended : Bool) : MemcM (Bool × Zval) :=
  phpMemcMgetApply env serverKey (sKeyToKeys env.zend key) (some (sGetApplyFn extended)) extended .null

section
variable {σ : Type} (h : Handler Call Ans σ) (serverKey : Option Bytes) (key : Bytes)
  (hasCallback extended : Bool) (s : State) (w : σ)

/-- a `get` whose FALSE is the value of the item, or the one its callback had stored -/
def GetStoredFalse : Prop :=
  ∃ ok v s₁ w₁, Cmd.exec h (getRead env serverKey key extended)
      { s with rescode := .success, memcErrno := 0 } w = (.done (ok, v) s₁, w₁) ∧
    (sMemcStatusHasError s₁ = false ∧ v = .bool false ∨
      s₁.rescode = .notfound ∧ hasCallback = true ∧
        ∃ r w₂ expiration s₂ w₃, h (.cacheCallback s₁ extended key v) w₁ = (r, w₂) ∧
          supplied env extended r = some (.bool false, expiration) ∧
          Cmd.exec h (sMemcWriteZval env .set none key (some (.bool false))
            (fillExpiration env extended r)) r.object w₂ = (.done true s₂, w₃))

/-- a `get` that misses, and whose callback stores nothing and leaves the code of a success -/
def GetDeclined : Prop :=
  ∃ v s₁ w₁ r w₂, Cmd.exec h (getRead env serverKey key extended)
      { s with rescode := .success, memcErrno := 0 } w = (.done (false, v) s₁, w₁) ∧
    s₁.rescode = .notfound ∧ hasCallback = true ∧
    h (.cacheCallback s₁ extended key v) w₁ = (r, w₂) ∧ r.ran = true ∧
    supplied env extended r = none ∧ sMemcStatusHasError r.object = false

variable {h serverKey key hasCallback extended s w}

/-- how the fill ends: without a callback, without a value, or with the write of the value -/
theorem run_sInvokeCacheCallback {v rv : Zval} {status : Bool} {s₁ s₂ : State} {w₁ w₂ w₃ : σ}
    {r : CacheCallbackAns} (hask : h (.cacheCallback s₁ extended key v) w₁ = (r, w₂))
    (hx : Cmd.exec h (sInvokeCacheCallback env extended key v) s₁ w₁ = (.done (status, rv) s₂, w₃)) :
    (r.ran = false ∧ status = false ∧ s₂.rescode = .notfound) ∨
      (r.ran = true ∧ supplied env extended r = none ∧ status = false ∧ s₂ = r.object) ∨
      ∃ value expiration, supplied env extended r = some (value, expiration) ∧ rv = r.value ∧
        Cmd.exec h (sMemcWriteZval env .set none key (some value) (fillExpiration env extended r))
          r.object w₂ = (.done status s₂, w₃) := by
  unfold sInvokeCacheCallback sMemcSetStatus at hx
  rw [Cmd.exec_get_bind, Cmd.exec_req_bind, hask] at hx
  dsimp only at hx
  rw [Cmd.exec_modify_bind] at hx
  unfold supplied fillExpiration
  cases hran : r.ran with
  | false =>
    rw [hran] at hx
    cases hx
    exact .inl ⟨rfl, rfl, rfl⟩
  | true =>
    rw [hran, if_pos rfl] at hx
    right
    cases htrue : r.isTrue with
    | false =>
      rw [htrue] at hx
      cases hx
      exact .inl ⟨rfl, rfl, rfl, rfl⟩
    | true =>
      rw [htrue, if_pos rfl] at hx
      cases extended with
      | false =>
        rw [if_neg Bool.false_ne_true] at hx
        obtain ⟨ok, s₃, w₄, hwrite, hend⟩ := Cmd.exec_bind_inv hx
        cases hend
        exact .inr ⟨_, _, rfl, rfl, hwrite⟩
      | true =>
        rw [if_pos rfl] at hx
        cases hvalue : r.value with
        | arr a =>
          rw [hvalue] at hx
          dsimp only at hx
          cases hfind : zendHashFind a valueName with
          | none =>
            rw [hfind] at hx
            cases hx
            exact .inl ⟨rfl, by simp [hfind], rfl, rfl⟩
          | some value =>
            rw [hfind] at hx
            obtain ⟨ok, s₃, w₄, hwrite, hend⟩ := Cmd.exec_bind_inv hx
            cases hend
            exact .inr ⟨value, 0, by simp [hfind], rfl, hwrite⟩
        | _ =>
          rw [hvalue] at hx
          cases hx
          exact .inl ⟨rfl, rfl, rfl, rfl⟩

theorem get_reports_iff {s' : State} {w' : σ} {ret : Zval}
    (hx : Cmd.exec h (phpMemcGetImpl env serverKey key hasCallback extended) s w = (.done ret s', w')) :
    (ret = .bool false ∧ ¬ GetStoredFalse env h serverKey key hasCallback extended s w →
        sMemcStatusHasError s' = true) ↔
      ¬ (memcCheckKey s.memc key = true ∧
        GetDeclined env h serverKey key hasCallback extended s w) := by
  unfold phpMemcGetImpl sMemcSetStatus checkKeyOr at hx
  rw [Cmd.exec_modify_bind, Cmd.exec_get_bind] at hx
  by_cases hkey : memcCheckKey s.memc key = true
  · rw [if_pos hkey] at hx
    obtain ⟨⟨ok, v⟩, s₁, w₁, hread, hx⟩ := Cmd.exec_bind_inv hx
    have hok := (sat_phpMemcMgetApply_status env serverKey (sKeyToKeys env.zend key)
      (some (sGetApplyFn extended)) extended .null _).exec hread
    dsimp only at hok hx
    rw [Cmd.exec_get_bind] at hx
    split at hx
    · -- the callback is asked
      rename_i hmiss
      rw [Bool.and_eq_true, Bool.and_eq_true, Bool.not_eq_true', beq_iff_eq] at hmiss
      obtain ⟨⟨rfl, hnotfound⟩, hcallback⟩ := hmiss
      obtain ⟨r, w₂, hask⟩ : ∃ r w₂, h (.cacheCallback s₁ extended key v) w₁ = (r, w₂) := ⟨_, _, rfl⟩
      obtain ⟨⟨status, rv⟩, s₂, w₃, hinvoke, hx⟩ := Cmd.exec_bind_inv hx
      have hfill := run_sInvokeCacheCallback env hask hinvoke
      -- the callback stored nothing, and the object is left as the callback left it
      have hdeclined : r.ran = true → supplied env extended r = none → s₂ = r.object →
          (sMemcStatusHasError s₂ = true ↔
            ¬ GetDeclined env h serverKey key hasCallback extended s w) := by
        rintro hran hnone rfl
        rw [← Bool.not_eq_false, not_iff_not]
        constructor
        · exact fun herr => ⟨_, _, _, _, _, hread, hnotfound, hcallback, hask, hran, hnone, herr⟩
        · rintro ⟨v', s₁', w₁', r', w₂', hread', -, -, hask', -, -, herr⟩
          cases hread.symm.trans hread'
          cases hask.symm.trans hask'
          exact herr
      have hsupplied : (∃ value, supplied env extended r = some value) ∨ r.ran = false →
          ¬ GetDeclined env h serverKey key hasCallback extended s w := by
        rintro hsup ⟨v', s₁', w₁', r', w₂', hread', -, -, hask', hran, hnone, -⟩
        cases hread.symm.trans hread'
        cases hask.symm.trans hask'
        rcases hsup with ⟨value, hsome⟩ | hnot
        · cases hnone.symm.trans hsome
        · cases hran.symm.trans hnot
      rcases hfill with ⟨hran, rfl, hrescode⟩ | ⟨hran, hnone, rfl, hobject⟩ |
        ⟨value, expiration, hsome, rfl, hwrite⟩
      · cases hx
        refine iff_of_true (fun _ => ?_) fun h => hsupplied (.inr hran) h.2
        rw [sMemcStatusHasError, hrescode]
        rfl
      · cases hx
        have hunstored : ¬ GetStoredFalse env h serverKey key hasCallback extended s w := by
          rintro ⟨ok', v', s₁', w₁', hread', hhit | ⟨-, -, r', w₂', expiration, _, _, hask', hsome, -⟩⟩
          · cases hread.symm.trans hread'
            rw [hhit.1] at hok
            cases hok
          · cases hread.symm.trans hread'
            cases hask.symm.trans hask'
            cases hnone.symm.trans hsome
        rw [and_iff_right hkey, ← hdeclined hran hnone hobject]
        exact ⟨fun h => h ⟨rfl, hunstored⟩, fun h _ => h⟩
      · refine iff_of_true ?_ fun h => hsupplied (.inl ⟨_, hsome⟩) h.2
        rintro ⟨hret, hstored⟩
        have hstatus := (sat_sMemcWriteZval_status env .set none key (some value)
          (fillExpiration env extended r) r.object).exec hwrite
        cases status with
        | false =>
          cases hx
          rw [eq_comm, Bool.not_eq_false'] at hstatus
          exact hstatus
        | true =>
          rw [eq_comm, Bool.not_eq_true'] at hstatus
          change (Outcome.done (if sMemcStatusHasError s₂ then .bool false else r.value) s₂, w₃) =
            _ at hx
          rw [hstatus] at hx
          obtain ⟨hvalue, rfl⟩ : r.value = ret ∧ s₂ = s' := by
            cases hx
            exact ⟨rfl, rfl⟩
          -- FALSE was the value, and has been stored
          have hfalse : value = .bool false := by
            obtain ⟨-, ⟨-, hplain, -⟩ | ⟨-, -, a, harr, -⟩⟩ := supplied_eq hsome
            · rw [hplain, hvalue, hret]
            · rw [← hvalue, harr] at hret
              cases hret
          subst hfalse
          exact absurd ⟨_, _, _, _, hread, .inr ⟨hnotfound, hcallback, r, w₂, expiration, _, _, hask,
            hsome, hwrite⟩⟩ hstored
    · -- the end of a read without a fill
      rename_i hmiss
      change (Outcome.done (if sMemcStatusHasError s₁ then .bool false else v) s₁, w₁) = _ at hx
      have hnot : ¬ GetDeclined env h serverKey key hasCallback extended s w := by
        rintro ⟨v', s₁', w₁', r, w₂, hread', hnotfound, hcallback, -⟩
        cases hread.symm.trans hread'
        exact hmiss (by rw [hnotfound, hcallback]; rfl)
      refine iff_of_true ?_ fun h => hnot h.2
      rintro ⟨hret, hstored⟩
      cases herr : sMemcStatusHasError s₁ with
      | true =>
        cases hx
        exact herr
      | false =>
        rw [herr] at hx
        cases hx
        exact absurd ⟨ok, _, _, _, hread, .inl ⟨herr, hret⟩⟩ hstored
  · refine iff_of_true (fun _ => ?_) fun h => hkey h.1
    rw [if_neg hkey] at hx
    cases hx
    rfl

end

/-! ## all methods -/

/-- what a method returns when it fails -/
def Method.Failed : Method → Zval → Prop
  | .append .., ret | .prepend .., ret => ret = .bool false ∨ ret = .null
  | _, ret => ret = .bool false

section
variable {σ : Type} (h : Handler Call Ans σ) (s : State) (w : σ)

/-- the FALSE of a `get` that is a value, not a failure -/
def Method.StoredFalse : Method → Prop
  | .get serverKey key hasCallback extended =>
    GetStoredFalse env h serverKey key hasCallback extended s w
  | _ => False

/-- the calls that fail and leave the code of a success -/
def Method.Silent : Method → Prop
  | .get serverKey key hasCallback extended =>
    memcCheckKey s.memc key = true ∧ GetDeclined env h serverKey key hasCallback extended s w
  | .append _ key _ | .prepend _ key _ =>
    memcCheckKey s.memc key = true ∧ s.memc.userData.compressionEnabled = true
  | .increment serverKey key offset initial =>
    CounterSilent h .increment serverKey key offset initial s w
  | .decrement serverKey key offset initial =>
    CounterSilent h .decrement serverKey key offset initial s w
  | _ => False

end

/-- **When a failure comes with an error code**: exactly if it is none of the silent ones. (A call
that throws returns nothing.) -/
theorem false_means_error_iff (m : Method) {σ : Type} {h : Handler Call Ans σ} {s s' : State}
    {w w' : σ} {ret : Zval} (hx : Cmd.exec h (m.run env) s w = (.done ret s', w'))
    (hreturns : s'.exception = false) :
    (m.Failed ret ∧ ¬ m.StoredFalse env h s w → sMemcStatusHasError s' = true) ↔
      ¬ m.Silent env h s w := by
  -- only the FALSE of a `get` can be a value
  have hfailed : ∀ {P S : Prop}, ((P → sMemcStatusHasError s' = true) ↔ ¬ S) →
      ((P ∧ ¬ False → sMemcStatusHasError s' = true) ↔ ¬ S) := fun h =>
    ⟨fun hp => h.mp fun p => hp ⟨p, id⟩, fun hs hp => h.mpr hs hp.1⟩
  have halways : (ret = .bool false → sMemcStatusHasError s' = true) →
      ((ret = .bool false ∧ ¬ False → sMemcStatusHasError s' = true) ↔ ¬ False) := fun hreports =>
    hfailed (iff_of_true hreports id)
  cases m with
  | get serverKey key hasCallback extended => exact get_reports_iff env hx
  | getMulti serverKey keys preserveOrder extended =>
    exact halways fun hret => (sat_phpMemcGetMultiImpl_reports env serverKey keys preserveOrder
      extended s).exec hx hret hreturns
  | getDelayed serverKey keys withCas hasCallback =>
    exact halways ((reports_phpMemcGetDelayedImpl env serverKey keys withCas hasCallback s).exec hx)
  | set serverKey key value expiration =>
    exact halways ((reports_phpMemcStoreImpl env serverKey key _ expiration s).exec hx)
  | add serverKey key value expiration =>
    exact halways ((reports_phpMemcStoreImpl env serverKey key _ expiration s).exec hx)
  | replace serverKey key value expiration =>
    exact halways ((reports_phpMemcStoreImpl env serverKey key _ expiration s).exec hx)
  | append serverKey key value =>
    exact hfailed (concat_reports_iff env rfl hx)
  | prepend serverKey key value =>
    exact hfailed (concat_reports_iff env rfl hx)
  | touch serverKey key expiration =>
    exact halways ((reports_phpMemcStoreImpl env serverKey key none expiration s).exec hx)
  | setMulti serverKey entries expiration =>
    exact halways ((reports_phpMemcSetMultiImpl env serverKey entries expiration s).exec hx)
  | cas serverKey zvCas key value expiration =>
    exact halways ((reports_phpMemcCasImpl env serverKey zvCas key value expiration s).exec hx)
  | delete serverKey key expiration =>
    exact halways ((reports_phpMemcDeleteImpl serverKey key expiration s).exec hx)
  | deleteMulti serverKey keys expiration =>
    exact halways ((reports_phpMemcDeleteMultiImpl env serverKey keys expiration s).exec hx)
  | increment serverKey key offset initial =>
    exact hfailed (counter_reports_iff hx)
  | decrement serverKey key offset initial =>
    exact hfailed (counter_reports_iff hx)

/-- a `delete` that reaches no server fails with `NO_SERVERS` -/
theorem false_means_error_delete :
    ((Method.delete none (ascii ['k']) 0).Failed (.bool false) ∧
        ¬ (Method.delete none (ascii ['k']) 0).StoredFalse plainEnv noServers (newObject iniDefaults 1)
          () →
      sMemcStatusHasError { newObject iniDefaults 1 with rescode := .noServers } = true) ↔
      ¬ (Method.delete none (ascii ['k']) 0).Silent plainEnv noServers (newObject iniDefaults 1) () := by
  have hx : Cmd.exec noServers ((Method.delete none (ascii ['k']) 0).run plainEnv)
      (newObject iniDefaults 1) () =
      (.done (.bool false) { newObject iniDefaults 1 with rescode := .noServers }, ()) := rfl
  exact false_means_error_iff plainEnv _ hx rfl

/-- the failing case: a negative offset is refused, and the code is that of a success -/
theorem increment_fails_silently :
    ¬ ∀ (env : Env) (m : Method) (h : Handler Call Ans Unit) (s s' : State) (w w' : Unit) (ret : Zval),
      Cmd.exec h (m.run env) s w = (.done ret s', w') → s'.exception = false →
      m.Failed ret ∧ ¬ m.StoredFalse env h s w → sMemcStatusHasError s' = true := by
  intro hclaim
  have herr := hclaim plainEnv (.increment none (ascii ['k']) (-1) none) noServers
    (newObject iniDefaults 1) (newObject iniDefaults 1) () () (.bool false) rfl rfl ⟨rfl, id⟩
  cases herr

end
end PhpMemcached
