import PhpMemcached.Ops

/-!
# What a counter method returns

* `counterAnswer`        the answers to the counter requests of a run;
* `leftValue`            the value argument after some answers, which an error may leave as it was;
* `counterRet`           the end of the method, on the last status and that value;
* `run_phpMemcIncdecImpl`   a run is refused before any request, or ends so;
* `Faithful`             the integer of the server, or none.

The value argument starts as `UINT64_MAX`, which stands for "not set" at the end, and is cast to a
signed integer: the contract is kept exactly below `2 ^ 63`.
-/

namespace PhpMemcached
open Ascii Requests

/-! ## the rounds -/

def counterAnswerOf : (c : Call) → Ans c → Option (Status × Option UInt64)
  | .counterByKey .., r => some r
  | .counterWithInitial .., r => some r
  | .counterWithInitialByKey .., r => some r
  | _, _ => none

def counterAnswer (e : Entry Call Ans) : Option (Status × Option UInt64) :=
  counterAnswerOf e.req e.ans

/-- `UINT64_MAX` -/
def uint64Max : UInt64 := UInt64.ofNat (2 ^ 64 - 1)

/-- the value argument after some answers -/
def leftValue (value : UInt64) (answers : List (Status × Option UInt64)) : UInt64 :=
  answers.foldl (fun value r => r.2.getD value) value

/-- the status after some answers -/
def lastStatus (status : Status) (answers : List (Status × Option UInt64)) : Status :=
  answers.foldl (fun _ r => r.1) status

/-- what is returned for a last status and a value argument -/
def counterRet (status : Status) (value : UInt64) : Zval :=
  if sMemcachedReturnIsError status true then .bool false
  else if value = uint64Max then .bool false
  else .long value.toInt64

theorem lastStatus_eq {status : Status} {answers : List (Status × Option UInt64)}
    {last : Status × Option UInt64} (h : answers.getLast? = some last) :
    lastStatus status answers = last.1 := by
  obtain ⟨front, rfl⟩ := List.getLast?_eq_some_iff.mp h
  unfold lastStatus
  rw [List.foldl_append]
  rfl

/-- a value that comes last is left -/
theorem leftValue_eq {value c : UInt64} {status : Status} {answers : List (Status × Option UInt64)}
    (h : answers.getLast? = some (status, some c)) : leftValue value answers = c := by
  obtain ⟨front, rfl⟩ := List.getLast?_eq_some_iff.mp h
  unfold leftValue
  rw [List.foldl_append]
  rfl

section
variable {σ : Type} (h : Handler Call Ans σ) (fn : CounterFn) (serverKey : Option Bytes) (key : Bytes)
  (offset : Int64)

theorem ran_counterPlain (s : State) (w : σ) :
    ∃ answer w', Cmd.Ran counterAnswer h (counterPlain fn serverKey key offset) s w
      (.done (counterRes uint64Max answer) s) w' [answer] := ⟨_, _, rfl, rfl⟩

theorem ran_counterAttempt (initial expiry : Int64) (value : UInt64) {s : State}
    (hbinary : memcachedBehaviorGet s.memc .binaryProtocol ≠ 0) (w : σ) :
    ∃ answer w', Cmd.Ran counterAnswer h
      (counterAttempt fn serverKey key offset initial expiry value) s w
      (.done (counterRes value answer) s) w' [answer] := by
  unfold counterAttempt
  simp only [Cmd.ran_get_bind]
  rw [if_neg hbinary]
  cases serverKey with
  | none => exact ⟨_, _, rfl, rfl⟩
  | some serverKey => exact ⟨_, _, rfl, rfl⟩

/-- the rounds after the first one, by induction on the retries that are left -/
theorem ran_counterRetries (initial expiry : Int64) {s : State}
    (hbinary : memcachedBehaviorGet s.memc .binaryProtocol ≠ 0) (n : Nat) :
    ∀ (status : Status) (value : UInt64) (w : σ), ∃ answers w', Cmd.Ran counterAnswer h
      (Cmd.retry shouldRetryCounter (counterAgain fn serverKey key offset initial expiry) n
        (some (status, value))) s w
      (.done (some (lastStatus status answers, leftValue value answers)) s) w' answers := by
  induction n with
  | zero => exact fun status value w => ⟨[], w, rfl, rfl⟩
  | succ n ih =>
    intro status value w
    cases hmore : shouldRetryCounter s (some (status, value)) with
    | false =>
      refine ⟨[], w, ?_, ?_⟩
      · rw [Cmd.exec, Cmd.retry_of_not_more hmore]
        rfl
      · rw [Cmd.log, Cmd.retry_of_not_more hmore]
        rfl
    | true =>
      obtain ⟨answer, w₁, hattempt⟩ :=
        ran_counterAttempt h fn serverKey key offset initial expiry value hbinary w
      obtain ⟨answers, w₂, hrest⟩ := ih answer.1 (answer.2.getD value) w₁
      have hrun := hattempt.bind hrest
      refine ⟨answer :: answers, w₂, ?_, ?_⟩
      · rw [Cmd.exec, Cmd.retry_of_more hmore]
        exact hrun.exec
      · rw [Cmd.log, Cmd.retry_of_more hmore]
        exact hrun.log

theorem ran_counterEnd (status : Status) (value : UInt64) (s : State) (w : σ) :
    ∃ s' w', Cmd.Ran counterAnswer h (counterEnd (some (status, value))) s w
        (.done (counterRet status value) s') w' [] ∧
      s'.rescode = status ∧ s'.exception = s.exception := by
  have hcode : ∃ s' w', Cmd.Ran counterAnswer h (sMemcStatusHandleResultCode status) s w
        (.done (!sMemcachedReturnIsError status true) s') w' [] ∧
      s'.rescode = status ∧ s'.exception = s.exception := by
    unfold sMemcStatusHandleResultCode sMemcSetStatus
    simp only [Cmd.ran_modify_bind]
    cases sMemcachedReturnIsError status true with
    | true => exact ⟨_, _, ⟨rfl, rfl⟩, rfl, rfl⟩
    | false => exact ⟨_, _, ⟨rfl, rfl⟩, rfl, rfl⟩
  obtain ⟨s', w', hrun, hrescode, hexc⟩ := hcode
  refine ⟨s', w', hrun.bind_unseen ?_, hrescode, hexc⟩
  unfold counterRet uint64Max
  cases sMemcachedReturnIsError status true with
  | true => exact .pure _ _ _ _ _
  | false =>
    show Cmd.Ran counterAnswer h (if value = UInt64.ofNat (2 ^ 64 - 1) then pure (.bool false)
      else pure (.long value.toInt64) : MemcM Zval) s' w' (.done (if value = UInt64.ofNat (2 ^ 64 - 1)
        then .bool false else .long value.toInt64) s') w' []
    split
    · exact .pure _ _ _ _ _
    · exact .pure _ _ _ _ _

/-- the arguments with which no request is made -/
def CounterRefused (memc : Memc) (key : Bytes) (offset : Int64) (initial : Option (Int64 × Int64)) :
    Prop :=
  memcCheckKey memc key = false ∨ offset < 0 ∨
    initial.isSome ∧ memcachedBehaviorGet memc .binaryProtocol = 0

theorem ran_incdec_refused {initial : Option (Int64 × Int64)} {s : State}
    (href : CounterRefused s.memc key offset initial) (w : σ) :
    ∃ s' w', Cmd.Ran counterAnswer h (phpMemcIncdecImpl fn serverKey key offset initial) s w
        (.done (.bool false) s') w' [] ∧
      s'.rescode = if memcCheckKey s.memc key then .success else .badKeyProvided := by
  unfold phpMemcIncdecImpl sMemcSetStatus checkKeyOr
  simp only [Cmd.ran_modify_bind, Cmd.ran_get_bind]
  cases hkey : memcCheckKey s.memc key with
  | false => exact ⟨_, _, ⟨rfl, rfl⟩, rfl⟩
  | true =>
    rw [if_pos rfl, if_pos rfl]
    by_cases hoffset : offset < 0
    · rw [if_pos hoffset]
      exact ⟨_, _, ⟨rfl, rfl⟩, rfl⟩
    · rw [if_neg hoffset]
      -- what is left is an initial value without the binary protocol
      obtain ⟨hinitial, hbinary⟩ := (href.resolve_left (by simp [hkey])).resolve_left hoffset
      obtain ⟨⟨initial, expiry⟩, rfl⟩ := Option.isSome_iff_exists.mp hinitial
      have hfirst : ∃ s₁ w₁, Cmd.Ran counterAnswer h (counterAttempt fn serverKey key offset initial
          expiry (UInt64.ofNat (2 ^ 64 - 1))) { s with rescode := .success, memcErrno := 0 } w
          (.done none s₁) w₁ [] ∧ s₁.rescode = .success := by
        unfold counterAttempt
        simp only [Cmd.ran_get_bind]
        rw [if_pos hbinary]
        exact ⟨_, _, ⟨rfl, rfl⟩, rfl⟩
      obtain ⟨s₁, w₁, hattempt, hrescode⟩ := hfirst
      have hretry : Cmd.Ran counterAnswer h (Cmd.retry shouldRetryCounter
          (counterAgain fn serverKey key offset initial expiry)
          s.memc.userData.storeRetryCount.toInt.toNat none) s₁ w₁ (.done none s₁) w₁ [] := by
        constructor
        · rw [Cmd.exec, Cmd.retry_of_not_more rfl]
          rfl
        · rw [Cmd.log, Cmd.retry_of_not_more rfl]
          rfl
      refine ⟨s₁, w₁, ?_, hrescode⟩
      simp only [Cmd.ran_get_bind]
      exact hattempt.bind_unseen (hretry.bind_unseen (.pure _ _ _ _ _))

/-- **A run that is not refused** ends on the last status and the value that the answers left. -/
theorem ran_phpMemcIncdecImpl {initial : Option (Int64 × Int64)} {s : State}
    (href : ¬ CounterRefused s.memc key offset initial) (w : σ) :
    ∃ answers last s' w', answers.getLast? = some last ∧
      Cmd.Ran counterAnswer h (phpMemcIncdecImpl fn serverKey key offset initial) s w
        (.done (counterRet last.1 (leftValue uint64Max answers)) s') w' answers ∧
      s'.rescode = last.1 := by
  obtain ⟨hkey, hoffset, hbinary⟩ : memcCheckKey s.memc key = true ∧ ¬ offset < 0 ∧
      (initial.isSome → memcachedBehaviorGet s.memc .binaryProtocol ≠ 0) := by
    simp only [CounterRefused, not_or, not_and, Bool.not_eq_false] at href
    exact href
  unfold phpMemcIncdecImpl sMemcSetStatus checkKeyOr
  simp only [Cmd.ran_modify_bind, Cmd.ran_get_bind]
  rw [if_pos hkey, if_neg hoffset]
  let s₀ : State := { s with rescode := .success, memcErrno := 0 }
  cases initial with
  | none =>
    obtain ⟨answer, w₁, hplain⟩ := ran_counterPlain h fn serverKey key offset s₀ w
    obtain ⟨s₂, w₂, hend, hrescode, -⟩ :=
      ran_counterEnd h answer.1 (answer.2.getD uint64Max) s₀ w₁
    exact ⟨[answer], answer, s₂, w₂, rfl, hplain.bind hend, hrescode⟩
  | some initial =>
    obtain ⟨initial, expiry⟩ := initial
    obtain ⟨answer, w₁, hattempt⟩ := ran_counterAttempt h fn serverKey key offset initial expiry
      uint64Max (s := s₀) (hbinary rfl) w
    obtain ⟨answers, w₂, hretry⟩ := ran_counterRetries h fn serverKey key offset initial expiry
      (s := s₀) (hbinary rfl) s.memc.userData.storeRetryCount.toInt.toNat answer.1
      (answer.2.getD uint64Max) w₁
    obtain ⟨s₃, w₃, hend, hrescode, -⟩ := ran_counterEnd h (lastStatus answer.1 answers)
      (leftValue (answer.2.getD uint64Max) answers) s₀ w₂
    have hrest := hretry.bind hend
    rw [List.append_nil] at hrest
    obtain ⟨last, hlast⟩ : ∃ last, (answer :: answers).getLast? = some last :=
      ⟨_, List.getLast?_eq_some_getLast (List.cons_ne_nil _ _)⟩
    have hstatus : lastStatus answer.1 answers = last.1 := by
      show lastStatus .success (answer :: answers) = last.1
      exact lastStatus_eq hlast
    rw [hstatus] at hrest hrescode
    refine ⟨answer :: answers, last, s₃, w₃, hlast, ?_, hrescode⟩
    simp only [Cmd.ran_get_bind]
    exact hattempt.bind hrest

end

/-! ## faithful results -/

/-- the counter `c` as it is, if it fits, and no other integer -/
structure Faithful (c : UInt64) (ret : Zval) : Prop where
  not_false : ret ≠ .bool false
  fits : c.toNat < 2 ^ 63 → ∃ n, ret = .long n ∧ n.toInt = c.toNat
  large : 2 ^ 63 ≤ c.toNat → ∀ n, ret ≠ .long n

/-- **When a counter method returns the counter**: exactly below `2 ^ 63`. -/
theorem counter_faithful_iff {σ : Type} {h : Handler Call Ans σ} {fn : CounterFn}
    {serverKey : Option Bytes} {key : Bytes} {offset : Int64} {initial : Option (Int64 × Int64)}
    {s s' : State} {w w' : σ} {ret : Zval} {answers : List (Status × Option UInt64)} {status : Status}
    {c : UInt64}
    (hx : Cmd.Ran counterAnswer h (phpMemcIncdecImpl fn serverKey key offset initial) s w
      (.done ret s') w' answers)
    (hlast : answers.getLast? = some (status, some c))
    (hok : sMemcachedReturnIsError status true = false) :
    Faithful c ret ↔ c.toNat < 2 ^ 63 := by
  by_cases href : CounterRefused s.memc key offset initial
  · obtain ⟨_, _, hrun, -⟩ := ran_incdec_refused h fn serverKey key offset href w
    rw [← hx.log, hrun.log] at hlast
    cases hlast
  · obtain ⟨answers', last, s₁, w₁, hlast', hrun, -⟩ :=
      ran_phpMemcIncdecImpl h fn serverKey key offset href w
    obtain rfl : answers = answers' := hx.log.symm.trans hrun.log
    obtain rfl : last = (status, some c) := Option.some.inj (hlast'.symm.trans hlast)
    rw [leftValue_eq hlast, counterRet, hok, if_neg Bool.false_ne_true] at hrun
    cases hx.exec.symm.trans hrun.exec
    constructor
    · intro hfaithful
      by_contra hlarge
      -- the sentinel is returned as false, everything else is cast
      split at hfaithful
      · exact hfaithful.not_false rfl
      · exact hfaithful.large (Nat.le_of_not_lt hlarge) _ rfl
    · intro hfits
      have hne : c ≠ uint64Max := by
        rintro rfl
        exact absurd hfits (by decide)
      rw [if_neg hne]
      have hcast : c.toInt64.toInt = c.toNat := by
        show c.toBitVec.toInt = c.toBitVec.toNat
        exact BitVec.toInt_eq_toNat_of_lt (by
          have hnat : c.toBitVec.toNat < 2 ^ 63 := hfits
          omega)
      exact ⟨nofun, fun _ => ⟨_, rfl, hcast⟩, fun hlarge => absurd hfits (Nat.not_lt_of_le hlarge)⟩

/-- counters are answered with `c`, everything else as by `noServers` -/
def counting (c : UInt64) : Handler Call Ans Unit
  | .counterByKey .., _ => ((.success, some c), ())
  | .counterWithInitial .., _ => ((.success, some c), ())
  | .counterWithInitialByKey .., _ => ((.success, some c), ())
  | req, w => noServers req w

/-- an increment to 1 -/
theorem counter_faithful_one : Faithful 1 (.long 1) ↔ (1 : UInt64).toNat < 2 ^ 63 := by
  have hrun : Cmd.Ran counterAnswer (counting 1)
      (phpMemcIncdecImpl .increment none (ascii ['k']) 1 none) (newObject iniDefaults 1) ()
      (.done (.long 1) (newObject iniDefaults 1)) () [(.success, some 1)] := ⟨rfl, rfl⟩
  exact counter_faithful_iff hrun rfl rfl

/-- the failing case: the counter `2 ^ 63` comes back as a negative integer -/
theorem counter_negative :
    ¬ ∀ (h : Handler Call Ans Unit) (fn : CounterFn) (serverKey : Option Bytes) (key : Bytes)
      (offset : Int64) (initial : Option (Int64 × Int64)) (s s' : State) (w w' : Unit) (ret : Zval)
      (answers : List (Status × Option UInt64)) (status : Status) (c : UInt64),
      Cmd.Ran counterAnswer h (phpMemcIncdecImpl fn serverKey key offset initial) s w
        (.done ret s') w' answers →
      answers.getLast? = some (status, some c) →
      sMemcachedReturnIsError status true = false → Faithful c ret := by
  intro hclaim
  have hfaithful := hclaim (counting (UInt64.ofNat (2 ^ 63))) .increment none (ascii ['k']) 1 none
    (newObject iniDefaults 1) (newObject iniDefaults 1) () ()
    (.long (UInt64.ofNat (2 ^ 63)).toInt64) [(.success, some (UInt64.ofNat (2 ^ 63)))] .success (UInt64.ofNat (2 ^ 63)) ⟨rfl, rfl⟩ rfl rfl
  exact hfaithful.large (by decide) _ rfl

end PhpMemcached
