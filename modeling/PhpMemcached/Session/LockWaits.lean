import Mathlib.Tactic.Ring
import PhpMemcached.Lib.Backoff
import PhpMemcached.Session.Durability
import PhpMemcached.Session.Lock

/-!
# The waits between attempts to lock

* `answering`           a server that gives the attempts to lock these outcomes;
* `lockEvents`          the attempts of `s_lock_session` and what it sleeps between them;
* `waitTimeAt`          `wait_time` after some contended attempts;
* `WaitsFit`            the microseconds fit an `unsigned int`, and the first wait is not above the
                        maximum;
* `lockSchedule_iff`    the schedule of the INI file is kept exactly if they do.
-/

namespace PhpMemcached.Session
open Ascii Requests Backoff

/-- the `switch` of `s_lock_session` -/
def lockVerdict : Status → Verdict
  | .success => .won
  | .notstored | .dataExists => .contended
  | _ => .failed

/-- an attempt and its outcome, a sleep and its microseconds -/
def lockEvent : Entry Call Ans → Option (Round Status UInt32)
  | ⟨.add _ _ _, rc⟩ => some (.attempt rc)
  | ⟨.usleep usec, _⟩ => some (.wait usec)
  | _ => none

/-- the `n`-th `add` ends as `rcs n` -/
def answering (rcs : Nat → Status) {σ : Type} (other : Handler Call Ans σ) :
    Handler Call Ans (Nat × σ)
  | .add .., (n, w) => (rcs n, n + 1, w)
  | c, (n, w) => ((other c w).1, n, (other c w).2)

def lockEvents {L : Library} {α σ : Type} (hd : Handler Call Ans σ) (m : SessM L α) (p : Proc L)
    (w : σ) : List (Round Status UInt32) :=
  (Cmd.log hd m p w).filterMap lockEvent

/-! ## the waits of the code -/

/-- `wait_time` after the sleep of that time -/
def nextWait (ini : Ini) (waitTime : Int64) : Int64 :=
  if ini.lockWaitMax < waitTime * 2 then ini.lockWaitMax else waitTime * 2

/-- `wait_time` after `i` sleeps -/
def waitTimeAt (ini : Ini) : Nat → Int64
  | 0 => ini.lockWaitMin
  | i + 1 => nextWait ini (waitTimeAt ini i)

/-- the argument of `usleep` -/
def usecOf (waitTime : Int64) : UInt32 := (waitTime * 1000).toUInt64.toUInt32

section
variable {L : Library} {p : Proc L} {h : Nat} {memc : Memc L} {lockKey : Bytes} {σ : Type}
  {rcs : Nat → Status} {other : Handler Call Ans σ}

variable (p h lockKey other)

theorem exec_lockAttempt_won (hm : p.memory h = some memc) {n : Nat} (hrc : rcs n = .success)
    (expiration : Int64) (more : Bool) (waitTime : Int64) (w : σ) :
    Cmd.exec (answering rcs other) (lockAttempt h lockKey expiration more waitTime) p (n, w) =
      (.done waitTime (p.store h (some (memc.locked lockKey))), n + 1, w) ∧
    lockEvents (answering rcs other) (lockAttempt h lockKey expiration more waitTime) p (n, w) =
      [.attempt (rcs n)] := by
  have hend : Cmd.exec (answering rcs other) (lockOutcome h lockKey more waitTime .success) p
        (n + 1, w) = (.done waitTime (p.store h (some (memc.locked lockKey))), n + 1, w) ∧
      lockEvents (answering rcs other) (lockOutcome h lockKey more waitTime .success) p
        (n + 1, w) = [] := by
    have hout : lockOutcome h lockKey more waitTime .success p =
        .ret (.done waitTime (p.store h (some (memc.locked lockKey)))) := by
      show (deref h p >>= _) = _
      rw [deref_of_some hm]
      rfl
    unfold Cmd.exec lockEvents Cmd.log
    rw [hout]
    exact ⟨rfl, rfl⟩
  rw [← hrc] at hend
  exact ⟨hend.1, congrArg (Round.attempt (rcs n) :: ·) hend.2⟩

/-- an attempt that another one follows -/
theorem exec_lockAttempt_contended {n : Nat} (hrc : lockVerdict (rcs n) = .contended)
    (expiration waitTime : Int64) (w : σ) :
    ∃ w', Cmd.exec (answering rcs other) (lockAttempt h lockKey expiration true waitTime) p (n, w) =
      (.done (nextWait p.ini waitTime) p, n + 1, w') ∧
    lockEvents (answering rcs other) (lockAttempt h lockKey expiration true waitTime) p (n, w) =
      [.attempt (rcs n), .wait (usecOf waitTime)] := by
  have hend (rc : Status) (hrc : lockVerdict rc = .contended) (w : Nat × σ) :
      ∃ w', Cmd.exec (answering rcs other) (lockOutcome h lockKey true waitTime rc) p w =
        (.done (nextWait p.ini waitTime) p, w.1, w') ∧
      lockEvents (answering rcs other) (lockOutcome h lockKey true waitTime rc) p w =
        [.wait (usecOf waitTime)] := by
    cases rc <;> first | exact ⟨_, rfl, rfl⟩ | cases hrc
  obtain ⟨w', hexec, hlog⟩ := hend (rcs n) hrc (n + 1, w)
  exact ⟨w', hexec, congrArg (Round.attempt (rcs n) :: ·) hlog⟩

/-- an attempt without a wait: it failed, or no other one follows -/
theorem exec_lockAttempt_over {n : Nat} {more : Bool} (hwon : rcs n ≠ .success)
    (hover : lockVerdict (rcs n) = .failed ∨ more = false) (expiration waitTime : Int64) (w : σ) :
    ∃ w', Cmd.exec (answering rcs other) (lockAttempt h lockKey expiration more waitTime) p (n, w) =
      (.done waitTime p, n + 1, w') ∧
    lockEvents (answering rcs other) (lockAttempt h lockKey expiration more waitTime) p (n, w) =
      [.attempt (rcs n)] := by
  have hend (rc : Status) (hwon : rc ≠ .success) (hover : lockVerdict rc = .failed ∨ more = false)
      (w : Nat × σ) :
      ∃ w', Cmd.exec (answering rcs other) (lockOutcome h lockKey more waitTime rc) p w =
        (.done waitTime p, w.1, w') ∧
      lockEvents (answering rcs other) (lockOutcome h lockKey more waitTime rc) p w = [] := by
    cases hv : lockVerdict rc with
    | won => cases rc <;> first | exact absurd rfl hwon | cases hv
    | contended =>
      obtain rfl : more = false := hover.resolve_left (by rw [hv]; decide)
      cases rc <;> first | exact ⟨_, rfl, rfl⟩ | cases hv
    | failed => cases rc <;> first | exact ⟨_, rfl, rfl⟩ | cases hv
  obtain ⟨w', hexec, hlog⟩ := hend (rcs n) hwon hover (n + 1, w)
  exact ⟨w', hexec, congrArg (Round.attempt (rcs n) :: ·) hlog⟩

variable {p h lockKey other}

/-- the events of two commands one after the other -/
theorem lockEvents_bind {α β : Type} {hd : Handler Call Ans σ} {m : SessM L α} {f : α → SessM L β}
    {p p' : Proc L} {w w' : σ} {a : α} (hm : Cmd.exec hd m p w = (.done a p', w')) :
    lockEvents hd (m >>= f) p w = lockEvents hd m p w ++ lockEvents hd (f a) p' w' := by
  unfold lockEvents
  rw [Cmd.log_bind_done hm, List.filterMap_append]

theorem lockEvents_deref_bind (hd : Handler Call Ans σ) {α : Type} (f : Memc L → SessM L α)
    (hm : p.memory h = some memc) (w : σ) :
    lockEvents hd (deref h >>= f) p w = lockEvents hd (f memc) p w := by
  unfold lockEvents Cmd.log
  rw [deref_bind_of_some hm]

theorem lockEvents_iniValues_bind (hd : Handler Call Ans σ) {α : Type} (f : Ini → SessM L α) (w : σ) :
    lockEvents hd (iniValues >>= f) p w = lockEvents hd (f p.ini) p w := rfl

variable (lockKey rcs other)

/-- **The loop**, by induction on the attempts that are left: it makes the attempts and the waits of
`rounds`. -/
theorem lockEvents_lockLoop (hm : p.memory h = some memc) (hfree : memc.userData.isLocked = false)
    (expiration : Int64) (retries i n : Nat) (w : σ) :
    lockEvents (answering rcs other) (lockLoop h lockKey expiration retries (waitTimeAt p.ini i)) p
      (n, w) =
    rounds lockVerdict (fun i => usecOf (waitTimeAt p.ini i)) retries i fun k => rcs (n + k) := by
  have hlocked : (p.store h (some (memc.locked lockKey))).memory h =
      some (memc.locked lockKey) := Function.update_self _ _ _
  induction retries generalizing i n w with
  | zero =>
    unfold lockLoop rounds
    by_cases hwon : rcs n = .success
    · obtain ⟨hexec, hevents⟩ := exec_lockAttempt_won p h lockKey other hm hwon
        expiration false (waitTimeAt p.ini i) w
      rw [lockEvents_bind hexec, hevents, lockEvents_deref_bind _ _ hlocked]
      rfl
    · obtain ⟨w', hexec, hevents⟩ := exec_lockAttempt_over p h lockKey other hwon (.inr rfl)
        expiration (waitTimeAt p.ini i) w
      rw [lockEvents_bind hexec, hevents, lockEvents_deref_bind _ _ hm]
      rfl
  | succ retries ih =>
    -- a handle that is not locked goes on
    have hgoes (j : Nat) (w : σ) : lockEvents (answering rcs other) (deref h >>= fun memc =>
        if memc.userData.isLocked then pure true
        else lockLoop h lockKey expiration retries (waitTimeAt p.ini j)) p (n + 1, w) =
        rounds lockVerdict (fun i => usecOf (waitTimeAt p.ini i)) retries j
          fun k => rcs (n + (k + 1)) := by
      have hshift (k : Nat) : n + 1 + k = n + (k + 1) := by omega
      rw [lockEvents_deref_bind _ _ hm, hfree, if_neg (by decide), ih]
      exact congrArg _ (funext fun k => congrArg rcs (hshift k))
    unfold lockLoop rounds
    cases hv : lockVerdict (rcs n) with
    | won =>
      have hwon : rcs n = .success := by
        revert hv
        cases rcs n <;> first | exact fun _ => rfl | exact fun h => by cases h
      obtain ⟨hexec, hevents⟩ := exec_lockAttempt_won p h lockKey other hm hwon
        expiration true (waitTimeAt p.ini i) w
      rw [lockEvents_bind hexec, hevents, lockEvents_deref_bind _ _ hlocked]
      rfl
    | contended =>
      obtain ⟨w', hexec, hevents⟩ := exec_lockAttempt_contended p h lockKey other hv
        expiration (waitTimeAt p.ini i) w
      rw [lockEvents_bind hexec, hevents]
      exact congrArg ([Round.attempt (rcs n), Round.wait (usecOf (waitTimeAt p.ini i))] ++ ·)
        (hgoes (i + 1) w')
    | failed =>
      have hwon : rcs n ≠ .success := by
        intro hrc
        rw [hrc] at hv
        cases hv
      obtain ⟨w', hexec, hevents⟩ := exec_lockAttempt_over p h lockKey other hwon (.inl hv)
        expiration (waitTimeAt p.ini i) w
      rw [lockEvents_bind hexec, hevents]
      exact congrArg ([Round.attempt (rcs n)] ++ ·) (hgoes i w')

/-- the expiration of the lock may need the time, which is no attempt and no sleep -/
theorem lockEvents_sLockExpiration_bind (p : Proc L) {α : Type} (f : Int64 → SessM L α) (n : Nat) (w : σ) :
    ∃ expiration w', lockEvents (answering rcs other) (sLockExpiration >>= f) p (n, w) =
      lockEvents (answering rcs other) (f expiration) p (n, w') := by
  have hadjust (e : Int64) : ∃ expiration w',
      Cmd.exec (answering rcs other) (sAdjustExpiration e) p (n, w) =
        (.done expiration p, n, w') ∧
      lockEvents (answering rcs other) (sAdjustExpiration e) p (n, w) = [] := by
    unfold sAdjustExpiration
    split
    · exact ⟨e, w, rfl, rfl⟩
    · exact ⟨_, _, rfl, rfl⟩
  have hexpiration : ∃ expiration w',
      Cmd.exec (answering rcs other) sLockExpiration p (n, w) = (.done expiration p, n, w') ∧
      lockEvents (answering rcs other) sLockExpiration p (n, w) = [] := by
    have hini : (sLockExpiration : SessM L Int64) p =
        (if 0 < p.ini.lockExpiration then sAdjustExpiration p.ini.lockExpiration
        else if 0 < p.ini.maxExecutionTime then sAdjustExpiration p.ini.maxExecutionTime
        else pure 0) p := rfl
    unfold Cmd.exec lockEvents Cmd.log
    rw [hini]
    split
    · exact hadjust _
    · split
      · exact hadjust _
      · exact ⟨0, w, rfl, rfl⟩
  obtain ⟨expiration, w', hexec, hevents⟩ := hexpiration
  refine ⟨expiration, w', ?_⟩
  rw [lockEvents_bind hexec, hevents, List.nil_append]

theorem lockEvents_sLockSession (hm : p.memory h = some memc)
    (hfree : memc.userData.isLocked = false) (sid : Bytes) (w : σ) :
    lockEvents (answering rcs other) (sLockSession h sid) p (0, w) =
      rounds lockVerdict (fun i => usecOf (waitTimeAt p.ini i)) p.ini.lockRetries.toInt.toNat 0
        rcs := by
  unfold sLockSession
  obtain ⟨expiration, w', hevents⟩ := lockEvents_sLockExpiration_bind rcs other p
    (fun expiration => iniValues >>= fun ini =>
      lockLoop h (lockKeyOf sid) expiration ini.lockRetries.toInt.toNat ini.lockWaitMin) 0 w
  have hloop := lockEvents_lockLoop (lockKeyOf sid) rcs other hm hfree expiration
    p.ini.lockRetries.toInt.toNat 0 0 w'
  simp only [Nat.zero_add] at hloop
  rw [hevents, lockEvents_iniValues_bind]
  exact hloop

end

/-! ## the schedule -/

/-- the `i`-th sleep takes so many milliseconds -/
def lockDue (ini : Ini) (i : Nat) (usec : UInt32) : Prop :=
  (usec.toNat : Int) = 1000 * min ini.lockWaitMax.toInt (ini.lockWaitMin.toInt * 2 ^ i)

theorem toNat_usecOf (waitTime : Int64) :
    ((usecOf waitTime).toNat : Int) = waitTime.toInt * 1000 % 2 ^ 32 := by
  have hmul : (waitTime * 1000).toBitVec.toInt = (waitTime.toInt * 1000).bmod (2 ^ 64) :=
    Int64.toInt_mul waitTime 1000
  rw [BitVec.toInt_eq_toNat_bmod] at hmul
  have hnat : (usecOf waitTime).toNat = (waitTime * 1000).toBitVec.toNat % 2 ^ 32 :=
    UInt64.toNat_toUInt32 _
  rw [hnat]
  -- the same number up to a multiple of `2 ^ 64`, and so of `2 ^ 32`
  have hmod : ((waitTime * 1000).toBitVec.toNat : Int) % (2 ^ 64 : Nat) =
      waitTime.toInt * 1000 % (2 ^ 64 : Nat) := by
    rw [← Int.bmod_emod, hmul, Int.bmod_emod]
  generalize (waitTime * 1000).toBitVec.toNat = n at hmod ⊢
  generalize waitTime.toInt * 1000 = x at hmod ⊢
  omega

/-- as long as twice the wait is a `zend_long`, the next one is that, or the maximum -/
theorem toInt_nextWait (ini : Ini) (waitTime : Int64) (h0 : 0 ≤ waitTime.toInt)
    (h : waitTime.toInt < 2 ^ 62) :
    (nextWait ini waitTime).toInt = min ini.lockWaitMax.toInt (2 * waitTime.toInt) := by
  have hdouble : (waitTime * 2).toInt = 2 * waitTime.toInt := by
    rw [Int64.toInt_mul, Int.mul_comm]
    exact Int.bmod_eq_of_le (by show -(2 ^ 64 / 2) ≤ 2 * _; omega) (by show 2 * _ < _; omega)
  unfold nextWait
  split
  · rename_i hlt
    rw [Int64.lt_iff_toInt_lt, hdouble] at hlt
    omega
  · rename_i hge
    rw [Int64.lt_iff_toInt_lt, hdouble] at hge
    rw [hdouble]
    omega

/-- the settings are right for `n` sleeps: no sleep has more microseconds than an `unsigned int`, and
the minimum is not above the maximum. If it is, cutting the first argument of `usleep` down to 32
bits may still happen to leave that of the maximum. -/
structure WaitsFit (ini : Ini) (n : Nat) : Prop where
  fit : ∀ i < n, 1000 * min ini.lockWaitMax.toInt (ini.lockWaitMin.toInt * 2 ^ i) < 2 ^ 32
  ordered : n = 0 ∨ ini.lockWaitMin ≤ ini.lockWaitMax ∨
    ((2 ^ 29 : Int) ∣ ini.lockWaitMin.toInt - ini.lockWaitMax.toInt ∧
      (n = 1 ∨ ini.lockWaitMin.toInt < 2 ^ 62 ∨ ini.lockWaitMax = 0))

section
variable {ini : Ini}

/-- if the first sleep is short enough to be doubled, the others are what is due -/
theorem toInt_waitTimeAt (hmin : 0 ≤ ini.lockWaitMin.toInt) (hmax : 0 ≤ ini.lockWaitMax.toInt)
    (hsmall : ini.lockWaitMin.toInt < 2 ^ 62) {i : Nat}
    (hfit : ∀ j ≤ i, 1000 * min ini.lockWaitMax.toInt (ini.lockWaitMin.toInt * 2 ^ j) < 2 ^ 32) :
    (waitTimeAt ini (i + 1)).toInt =
      min ini.lockWaitMax.toInt (ini.lockWaitMin.toInt * 2 ^ (i + 1)) := by
  induction i with
  | zero =>
    show (nextWait ini ini.lockWaitMin).toInt = _
    rw [toInt_nextWait ini _ hmin hsmall]
    omega
  | succ i ih =>
    have hprev := ih fun j hj => hfit j (Nat.le_succ_of_le hj)
    have hlt := hfit (i + 1) (Nat.le_refl _)
    have hpow : 0 ≤ ini.lockWaitMin.toInt * 2 ^ (i + 1) :=
      Int.mul_nonneg hmin (Int.le_of_lt (Int.pow_pos (by decide)))
    have hnext : ini.lockWaitMin.toInt * 2 ^ (i + 1 + 1) =
        2 * (ini.lockWaitMin.toInt * 2 ^ (i + 1)) := by
      rw [Int.pow_succ, ← Int.mul_assoc, Int.mul_comm]
    have hstep := toInt_nextWait ini (waitTimeAt ini (i + 1)) (by omega) (by omega)
    show (nextWait ini (waitTimeAt ini (i + 1))).toInt = _
    rw [hstep, hprev, hnext]
    omega

/-- with a maximum of nothing, every wait is a multiple of `2 ^ 29` milliseconds if the first is,
and none in microseconds -/
theorem dvd_waitTimeAt (hmax : ini.lockWaitMax = 0) (hdvd : (2 ^ 29 : Int) ∣ ini.lockWaitMin.toInt)
    (i : Nat) : (2 ^ 29 : Int) ∣ (waitTimeAt ini i).toInt := by
  induction i with
  | zero => exact hdvd
  | succ i ih =>
    show (2 ^ 29 : Int) ∣ (nextWait ini (waitTimeAt ini i)).toInt
    unfold nextWait
    split
    · rw [hmax]
      exact Int.dvd_zero _
    · rw [Int64.toInt_mul]
      have hmod : (2 ^ 29 : Int) ∣ (waitTimeAt ini i).toInt * 2 := Int.dvd_mul_of_dvd_left ih
      have hbmod := Int.bmod_emod (x := (waitTimeAt ini i).toInt * 2) (m := 2 ^ 64)
      have htwo : (2 : Int64).toInt = 2 := rfl
      rw [htwo]
      generalize (waitTimeAt ini i).toInt * 2 = x at hmod hbmod ⊢
      omega

theorem WaitsFit.due {n : Nat} (hmin : 0 ≤ ini.lockWaitMin.toInt)
    (hmax : 0 ≤ ini.lockWaitMax.toInt) (h : WaitsFit ini n) {i : Nat} (hi : i < n) :
    lockDue ini i (usecOf (waitTimeAt ini i)) := by
  obtain ⟨hfit, hordered⟩ := h
  unfold lockDue
  rw [toNat_usecOf]
  have hfirst := hfit 0 (by omega)
  rw [Int.pow_zero, Int.mul_one] at hfirst
  have hle : ini.lockWaitMin ≤ ini.lockWaitMax ↔
      ini.lockWaitMin.toInt ≤ ini.lockWaitMax.toInt := Int64.le_iff_toInt_le
  rw [hle] at hordered
  cases i with
  | zero =>
    show ini.lockWaitMin.toInt * 1000 % 2 ^ 32 = _
    rw [Int.pow_zero, Int.mul_one]
    omega
  | succ i =>
    by_cases hsmall : ini.lockWaitMin.toInt < 2 ^ 62
    · rw [toInt_waitTimeAt hmin hmax hsmall fun j hj => hfit j (by omega)]
      have hlt := hfit (i + 1) hi
      have hpow : 0 ≤ ini.lockWaitMin.toInt * 2 ^ (i + 1) :=
        Int.mul_nonneg hmin (Int.le_of_lt (Int.pow_pos (by decide)))
      omega
    · -- only a maximum of nothing is left
      have hzero : ini.lockWaitMax = 0 := by
        rcases hordered with h | h | ⟨-, h | h | h⟩
        · omega
        · omega
        · omega
        · omega
        · exact h
      have hmaxZero : ini.lockWaitMax.toInt = 0 := by
        rw [hzero]
        rfl
      have hdvd := dvd_waitTimeAt hzero (by omega) (i + 1)
      have hpow : 0 ≤ ini.lockWaitMin.toInt * 2 ^ (i + 1) :=
        Int.mul_nonneg hmin (Int.le_of_lt (Int.pow_pos (by decide)))
      omega

/-- a count that is cut down to the same as its double is cut down to nothing -/
theorem eq_zero_of_emod_double {a b : Int} (h : a % 2 ^ 32 = b) (h' : 2 * a % 2 ^ 32 = b) :
    b = 0 := by omega

/-- two microsecond counts that are cut down to the same, the second of a wait that overflowed -/
theorem eq_zero_of_wraps {m M : Int} (h : m * 1000 % 2 ^ 32 = 1000 * M)
    (h' : (2 * m - 2 ^ 64) * 1000 % 2 ^ 32 = 1000 * M) : M = 0 := by
  have hsplit : (2 * m - 2 ^ 64) * 1000 = 2 * (m * 1000) - 2 ^ 32 * (2 ^ 32 * 1000) := by ring
  rw [hsplit, Int.sub_mul_emod_self_left] at h'
  exact (Int.mul_eq_zero.mp (eq_zero_of_emod_double h h')).resolve_left (by decide)

/-- twice a wait of `2 ^ 62` or more is negative -/
theorem toInt_mul_two {waitTime : Int64} (h : 2 ^ 62 ≤ waitTime.toInt) :
    (waitTime * 2).toInt = 2 * waitTime.toInt - 2 ^ 64 := by
  have hlt := waitTime.toInt_lt
  have hbmod : (waitTime * 2).toInt = (waitTime.toInt * 2).bmod (2 ^ 64) := Int64.toInt_mul _ 2
  rw [hbmod, Int.bmod_def]
  split <;> omega

/-- if the first wait overflows when it is doubled, both are cut down to what is due for a maximum of
nothing alone -/
theorem lockWaitMax_eq_zero (hmax : 0 ≤ ini.lockWaitMax.toInt)
    (hlarge : 2 ^ 62 ≤ ini.lockWaitMin.toInt) (hlt : ini.lockWaitMax.toInt < ini.lockWaitMin.toInt)
    (hfirst : ini.lockWaitMin.toInt * 1000 % 2 ^ 32 =
      1000 * min ini.lockWaitMax.toInt ini.lockWaitMin.toInt)
    (hsecond : (waitTimeAt ini 1).toInt * 1000 % 2 ^ 32 =
      1000 * min ini.lockWaitMax.toInt (ini.lockWaitMin.toInt * 2 ^ 1)) : ini.lockWaitMax = 0 := by
  have hdouble := toInt_mul_two hlarge
  have hnext : waitTimeAt ini 1 = ini.lockWaitMin * 2 := by
    have htop := ini.lockWaitMin.toInt_lt
    refine if_neg (Int64.lt_iff_toInt_lt.not.mpr ?_)
    show ¬ ini.lockWaitMax.toInt < (ini.lockWaitMin * 2).toInt
    rw [hdouble]
    clear hfirst hsecond
    omega
  have hle : ini.lockWaitMax.toInt ≤ ini.lockWaitMin.toInt * 2 ^ 1 := by
    clear hfirst hsecond
    omega
  rw [hnext, hdouble, Int.min_eq_left hle] at hsecond
  rw [Int.min_eq_left (Int.le_of_lt hlt)] at hfirst
  exact Int64.toInt_inj.mp (eq_zero_of_wraps hfirst hsecond)

theorem WaitsFit.of_due {n : Nat} (hmax : 0 ≤ ini.lockWaitMax.toInt)
    (h : ∀ i < n, lockDue ini i (usecOf (waitTimeAt ini i))) : WaitsFit ini n := by
  have hdue (i : Nat) (hi : i < n) : (waitTimeAt ini i).toInt * 1000 % 2 ^ 32 =
      1000 * min ini.lockWaitMax.toInt (ini.lockWaitMin.toInt * 2 ^ i) := by
    rw [← toNat_usecOf]
    exact h i hi
  refine ⟨fun i hi => ?_, ?_⟩
  · have := hdue i hi
    omega
  · have hle : ini.lockWaitMin ≤ ini.lockWaitMax ↔
        ini.lockWaitMin.toInt ≤ ini.lockWaitMax.toInt := Int64.le_iff_toInt_le
    by_cases hzero : n = 0
    · exact .inl hzero
    · by_cases hordered : ini.lockWaitMin.toInt ≤ ini.lockWaitMax.toInt
      · exact .inr (.inl (hle.mpr hordered))
      · have hfirst := hdue 0 (by omega)
        change ini.lockWaitMin.toInt * 1000 % 2 ^ 32 = _ at hfirst
        rw [Int.pow_zero, Int.mul_one] at hfirst
        refine .inr (.inr ⟨by omega, ?_⟩)
        by_cases hone : n = 1
        · exact .inl hone
        · by_cases hsmall : ini.lockWaitMin.toInt < 2 ^ 62
          · exact .inr (.inl hsmall)
          · refine .inr (.inr (lockWaitMax_eq_zero hmax (Int.not_lt.mp hsmall)
              (Int.not_le.mp hordered) hfirst (hdue 1 ?_)))
            exact Nat.lt_of_le_of_ne (Nat.pos_of_ne_zero hzero) (Ne.symm hone)

/-- **The sleeps are those that are due exactly if the settings are right for them.** -/
theorem due_iff_waitsFit {n : Nat} (hmin : 0 ≤ ini.lockWaitMin) (hmax : 0 ≤ ini.lockWaitMax) :
    (∀ i < n, lockDue ini i (usecOf (waitTimeAt ini i))) ↔ WaitsFit ini n := by
  have hmin' := Int64.le_iff_toInt_le.mp hmin
  have hmax' := Int64.le_iff_toInt_le.mp hmax
  exact ⟨.of_due hmax', fun h i hi => h.due hmin' hmax' hi⟩

/-- **The schedule of the lock.** `s_lock_session` makes one attempt and `lock_retries` more at most
and stops at the first success, it sleeps only between a contended attempt and another one, and its
`i`-th sleep takes `min lock_wait_max (lock_wait_min * 2 ^ i)` milliseconds, exactly if the settings
are right for the sleeps that the outcomes lead to. -/
theorem lockSchedule_iff {L : Library} {p : Proc L} {h : Nat} {memc : Memc L}
    (hm : p.memory h = some memc) (hfree : memc.userData.isLocked = false)
    (hmin : 0 ≤ p.ini.lockWaitMin) (hmax : 0 ≤ p.ini.lockWaitMax) (sid : Bytes)
    (rcs : Nat → Status) {σ : Type} (other : Handler Call Ans σ) (w : σ) :
    Schedule lockVerdict p.ini.lockRetries.toInt.toNat (lockDue p.ini)
        (lockEvents (answering rcs other) (sLockSession h sid) p (0, w)) ↔
      WaitsFit p.ini (waitsDue lockVerdict p.ini.lockRetries.toInt.toNat rcs) := by
  rw [lockEvents_sLockSession rcs other hm hfree, schedule_rounds_iff]
  exact due_iff_waitsFit hmin hmax

end

/-- held by another session all the time -/
def contendedAlways : Nat → Status := fun _ => .notstored

theorem lockSchedule_iff_defaults :
    Schedule lockVerdict 5 (lockDue iniDefaults)
        (lockEvents (answering contendedAlways (fated ())) (sLockSession 0 (ascii ['a']))
          (openProc plainLibrary iniDefaults) (0, emptyServer Unit, fun _ => goodFate)) ↔
      WaitsFit iniDefaults (waitsDue lockVerdict 5 contendedAlways) :=
  lockSchedule_iff (p := openProc plainLibrary iniDefaults) (h := 0) rfl rfl (by decide) (by decide)
    (ascii ['a']) contendedAlways (fated ()) (emptyServer Unit, fun _ => goodFate)

/-- a minimum of 300 milliseconds and a maximum of 150: the first sleep takes 300 -/
def highMinimum : Ini := { iniDefaults with lockWaitMin := 300, lockWaitMax := 150 }

theorem first_sleep_above_maximum :
    ¬ Schedule lockVerdict 5 (lockDue highMinimum)
      (lockEvents (answering contendedAlways (fated ())) (sLockSession 0 (ascii ['a']))
        (openProc plainLibrary highMinimum) (0, emptyServer Unit, fun _ => goodFate)) := by
  intro hschedule
  rw [lockEvents_sLockSession contendedAlways (fated ()) (p := openProc plainLibrary highMinimum)
    (h := 0) rfl rfl] at hschedule
  have hdue := (schedule_rounds_iff _ _ 5 _ _).mp hschedule 0 (by decide)
  revert hdue
  unfold lockDue
  decide

end PhpMemcached.Session
