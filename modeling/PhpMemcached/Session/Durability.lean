import PhpMemcached.Session.Server

/-!
# What `PS_WRITE` and `PS_UPDATE_TIMESTAMP` leave on the server

* `expirationAt`, `due`          the expiration a session is given, and when its item is to expire;
* `expiry_expirationAt`          memcached's rule makes the one of the other;
* `fated`                        a server that serves requests as a sequence of fates says;
* `durability`                   a `PS_WRITE` that succeeds stores the item until it is due; for
                                 `PS_UPDATE_TIMESTAMP` it depends on the answer and on the item.
-/

namespace PhpMemcached.Session
open Ascii Requests

/-- the result of `s_session_expiration` at the time `clock` -/
def expirationAt (clock : Nat) (maxlifetime : Int64) : Int64 :=
  if 0 < maxlifetime then
    if maxlifetime ≤ realtimeMaxdelta then maxlifetime else Int64.ofNat clock + maxlifetime
  else 0

/-- `maxlifetime` seconds after `clock`, or never -/
def due (clock : Nat) (maxlifetime : Int64) : Option Nat :=
  if 0 < maxlifetime then some (clock + maxlifetime.toInt.toNat) else none

/-! ## the expiration -/

theorem toNat_low_word (n : Int64) : n.toUInt64.toUInt32.toNat = n.toBitVec.toNat % 2 ^ 32 := rfl

theorem toBitVec_toNat {n : Int64} (hn : 0 ≤ n.toInt) : n.toBitVec.toNat = n.toInt.toNat := by
  have hlt := n.toBitVec.isLt
  have hi : n.toInt = n.toBitVec.toInt := rfl
  rw [BitVec.toInt_eq_toNat_cond] at hi
  split at hi <;> omega

theorem toInt_pos {n : Int64} : 0 < n ↔ 0 < n.toInt := Int64.lt_iff_toInt_lt

theorem le_realtimeMaxdelta {n : Int64} : n ≤ realtimeMaxdelta ↔ n.toInt ≤ 2592000 :=
  Int64.le_iff_toInt_le

/-- **Memcached's rule makes of the expiration of a session the time it is due**, if that fits into
the 32 bits that are sent. -/
theorem expiry_expirationAt {clock : Nat} {maxlifetime : Int64}
    (hfits : clock + maxlifetime.toInt < 2 ^ 32) :
    expiry clock (expirationAt clock maxlifetime) = due clock maxlifetime := by
  unfold expiry expirationAt due
  by_cases hpos : 0 < maxlifetime
  · rw [if_pos hpos, if_pos hpos]
    have hpos' := toInt_pos.mp hpos
    have hword := toBitVec_toNat (n := maxlifetime) (Int.le_of_lt hpos')
    by_cases hrel : maxlifetime ≤ realtimeMaxdelta
    · have hrel' := le_realtimeMaxdelta.mp hrel
      rw [if_pos hrel, toNat_low_word, hword]
      have hsmall : maxlifetime.toInt.toNat % 2 ^ 32 = maxlifetime.toInt.toNat := by omega
      rw [hsmall]
      simp only [show ¬ maxlifetime.toInt.toNat = 0 by omega,
        show maxlifetime.toInt.toNat ≤ 60 * 60 * 24 * 30 by omega, if_true, if_false]
    · have hrel' : ¬ maxlifetime.toInt ≤ 2592000 := fun h => hrel (le_realtimeMaxdelta.mpr h)
      rw [if_neg hrel, toNat_low_word]
      have hsum : (Int64.ofNat clock + maxlifetime).toBitVec.toNat % 2 ^ 32 =
          clock + maxlifetime.toInt.toNat := by
        have hadd : (Int64.ofNat clock + maxlifetime).toBitVec.toNat =
            (clock % 2 ^ 64 + maxlifetime.toBitVec.toNat) % 2 ^ 64 := rfl
        rw [hadd, hword]
        omega
      rw [hsum]
      simp only [show ¬ clock + maxlifetime.toInt.toNat = 0 by omega,
        show ¬ clock + maxlifetime.toInt.toNat ≤ 60 * 60 * 24 * 30 by omega, if_false]
  · rw [if_neg hpos, if_neg hpos]
    rfl

/-! ## a server that fails as it is told -/

/-- each request about items takes the next of the fates -/
def fated {T : Type} (t : T) : Handler Call Ans (Server T × (Nat → Fate)) := fun c w =>
  ((w.1.answer t (w.2 0) c).1, (w.1.answer t (w.2 0) c).2,
    if c.isItem then fun n => w.2 (n + 1) else w.2)

section
variable {T : Type} {L : Library} (t : T)

theorem serve_fated (c : Call) (w : Server T × (Nat → Fate)) :
    w.1.Serve t c (fated t c w).1 (fated t c w).2.1 := ⟨w.2 0, rfl⟩

theorem fated_of_not_item {c : Call} (hc : c.isItem = false) (w : Server T × (Nat → Fate)) :
    (fated t c w).2 = w := by
  have hs := (serve_fated t c w).of_not_item hc
  have hf : (fated t c w).2.2 = w.2 := by
    show (if c.isItem then _ else _) = _
    rw [hc]
    rfl
  exact Prod.ext hs hf

theorem fated_time (w : Server T × (Nat → Fate)) :
    fated t .time w = (Int64.ofNat w.1.clock, w) := by
  refine Prod.ext ?_ (fated_of_not_item t rfl w)
  show (w.1.answer t (w.2 0) .time).1 = _
  unfold Server.answer
  split <;> rfl

theorem exec_warn (text : String) (detail : Detail) (p : Proc L) (w : Server T × (Nat → Fate)) :
    Cmd.exec (fated t) (warn text detail) p w = (.done () p, w) := by
  show (Outcome.done (fated t (.warning text detail) w).1 p, (fated t (.warning text detail) w).2) = _
  rw [fated_of_not_item t rfl]

theorem exec_sSessionExpiration (maxlifetime : Int64) (p : Proc L)
    (w : Server T × (Nat → Fate)) :
    Cmd.exec (fated t) (sSessionExpiration maxlifetime) p w =
      (.done (expirationAt w.1.clock maxlifetime) p, w) := by
  unfold sSessionExpiration sAdjustExpiration expirationAt
  by_cases hpos : 0 < maxlifetime
  · rw [if_pos hpos, if_pos hpos]
    by_cases hrel : maxlifetime ≤ realtimeMaxdelta
    · rw [if_pos hrel, if_pos hrel]
      rfl
    · rw [if_neg hrel, if_neg hrel, Cmd.exec_req_bind, fated_time]
      rfl
  · rw [if_neg hpos, if_neg hpos]
    rfl

end

/-- the item is there, and expires at `at_` -/
def Kept {T : Type} (s : Server T) (sid : Bytes) (at_ : Option Nat) : Prop :=
  ∃ item, s.items sid = some item ∧ item.expires = at_

namespace Server
variable {T : Type} {t : T} {s s' : Server T} {key value : Bytes} {expiration : Int64} {c : Call}
  {r : Ans c}

theorem exec_clock (t : T) (c : Call) (s : Server T) : (s.exec t c).clock = s.clock := by
  cases c with
  | add key value expiration =>
    show (s.addItem t key value expiration).clock = s.clock
    unfold addItem
    split <;> rfl
  | delete by_ key =>
    show (s.removeItem (some (t, _)) key).clock = s.clock
    unfold removeItem
    split <;> rfl
  | touch key expiration =>
    show (s.touchItem key expiration).clock = s.clock
    unfold touchItem
    split <;> rfl
  | _ => rfl

theorem Serve.clock (h : Serve t c r s s') : s'.clock = s.clock := by
  rcases h.state with rfl | rfl
  · exact exec_clock t c s
  · rfl

/-- a `set` that succeeded was done -/
theorem Serve.wrote (h : Serve t (.set key value expiration) Status.success s s') :
    s' = s.exec t (.set key value expiration) := by
  obtain ⟨f, h⟩ := h
  unfold answer at h
  split at h
  · exact (congrArg Prod.snd h).symm
  · rename_i fault _
    exact absurd (congrArg Prod.fst h) fault.ne_success
  · rename_i fault _
    exact absurd (congrArg Prod.fst h) fault.ne_success

theorem kept_exec_set (t : T) (s : Server T) (key value : Bytes) (expiration : Int64) :
    Kept (s.exec t (.set key value expiration)) key (expiry s.clock expiration) :=
  ⟨_, Function.update_self _ _ _, rfl⟩

end Server

/-! ## `PS_WRITE` -/

section
variable {T : Type} {L : Library} {t : T} {sid val : Bytes} {expiration maxlifetime : Int64}
  {p p' : Proc L} {w w' : Server T × (Nat → Fate)} {ret : Ret}

/-- one round that succeeds stores the item; one that does not leaves the clock -/
theorem exec_saveItem {saved : Bool}
    (hx : Cmd.exec (fated t) (saveItem sid val expiration) p w = (.done saved p', w')) :
    p' = p ∧ w'.1.clock = w.1.clock ∧
      (saved = true → Kept w'.1 sid (expiry w.1.clock expiration)) := by
  have hserve := serve_fated t (.set sid val expiration) w
  unfold saveItem at hx
  rw [Cmd.exec_req_bind] at hx
  generalize fated t (.set sid val expiration) w = a at hx hserve
  obtain ⟨rc, w₁⟩ := a
  by_cases hrc : (rc : Status) = .success
  · dsimp only at hx
    rw [if_pos hrc] at hx
    cases hx
    subst hrc
    refine ⟨rfl, hserve.clock, fun _ => ?_⟩
    rw [hserve.wrote]
    exact Server.kept_exec_set t w.1 sid val expiration
  · dsimp only at hx
    rw [if_neg hrc, Cmd.exec_bind_done (exec_warn t _ _ p w₁)] at hx
    cases hx
    exact ⟨rfl, hserve.clock, nofun⟩

/-- the loop, by induction on its rounds -/
theorem exec_writeLoop (retries : Nat)
    (hx : Cmd.exec (fated t) (writeLoop sid val expiration retries) p w = (.done .success p', w')) :
    Kept w'.1 sid (expiry w.1.clock expiration) := by
  induction retries generalizing p w with
  | zero =>
    unfold writeLoop at hx
    obtain ⟨saved, p₁, w₁, hsave, hrest⟩ := Cmd.exec_bind_inv hx
    cases saved with
    | false => cases hrest
    | true =>
      cases hrest
      exact (exec_saveItem hsave).2.2 rfl
  | succ retries ih =>
    unfold writeLoop at hx
    obtain ⟨saved, p₁, w₁, hsave, hrest⟩ := Cmd.exec_bind_inv hx
    obtain ⟨-, hclock, hkept⟩ := exec_saveItem hsave
    cases saved with
    | true =>
      cases hrest
      exact hkept rfl
    | false =>
      rw [← hclock]
      exact ih hrest

theorem exec_deref {h : Nat} {memc : Memc L}
    (hx : Cmd.exec (fated t) (deref h) p w = (.done memc p', w')) : p' = p ∧ w' = w := by
  unfold deref at hx
  rw [Cmd.exec_get_bind] at hx
  cases hm : p.memory h with
  | some memc' =>
    rw [hm] at hx
    cases hx
    exact ⟨rfl, rfl⟩
  | none =>
    rw [hm] at hx
    cases hx

/-- a callback that returns something else than `FAILURE` had module data -/
theorem exec_withModData {next : Nat → SessM L Ret} (hret : ret ≠ .failure)
    (hx : Cmd.exec (fated t) (withModData next) p w = (.done ret p', w')) :
    ∃ h, p.modData = some h ∧ Cmd.exec (fated t) (next h) p w = (.done ret p', w') := by
  unfold withModData at hx
  rw [Cmd.exec_get_bind] at hx
  cases hm : p.modData with
  | some h =>
    rw [hm] at hx
    exact ⟨h, rfl, hx⟩
  | none =>
    rw [hm] at hx
    dsimp only at hx
    rw [Cmd.exec_bind_done (exec_warn t _ _ p w)] at hx
    cases hx
    exact absurd rfl hret

/-- a `PS_WRITE` that succeeds stores the item until it is due -/
theorem kept_of_psWrite (hfits : w.1.clock + maxlifetime.toInt < 2 ^ 32)
    (hx : Cmd.exec (fated t) (psWrite sid val maxlifetime) p w = (.done .success p', w')) :
    Kept w'.1 sid (due w.1.clock maxlifetime) := by
  unfold psWrite at hx
  rw [Cmd.exec_bind_done (exec_sSessionExpiration t maxlifetime p w)] at hx
  have hret : Ret.success ≠ .failure := by decide
  obtain ⟨h, -, hx⟩ := exec_withModData hret hx
  obtain ⟨ini, p₁, w₁, hini, hx⟩ := Cmd.exec_bind_inv hx
  obtain ⟨memc, p₂, w₂, hderef, hx⟩ := Cmd.exec_bind_inv hx
  have hw₁ : w₁ = w := by
    cases hini
    rfl
  have hw₂ : w₂ = w₁ := (exec_deref hderef).2
  have hkept := exec_writeLoop _ hx
  rw [hw₂, hw₁, expiry_expirationAt hfits] at hkept
  exact hkept

end

/-! ## `PS_UPDATE_TIMESTAMP` -/

/-- libmemcached reports `MEMCACHED_FAILURE` -/
def Mode.Failed : Mode → Prop
  | .served => False
  | .refused fault | .lost fault => fault.rc = .failure

/-- the request comes to the server -/
def Mode.Reaches : Mode → Prop
  | .refused _ => False
  | .served | .lost _ => True

/-- the `touch` is reported to have failed, or the item is there, and the request comes to it or it
expires at `at_` anyway; without a handle no request is made -/
def TouchKeeps {T : Type} {L : Library} (p : Proc L) (s : Server T) (f : Fate) (sid : Bytes)
    (at_ : Option Nat) : Prop :=
  match p.modData with
  | none => f.any .onNull = .failure ∨ Kept s sid at_
  | some _ => f.mode.Failed ∨
      ∃ item, s.items sid = some item ∧ (f.mode.Reaches ∨ item.expires = at_)

namespace Server
variable {T : Type} {s : Server T} {key : Bytes} {expiration : Int64} {at_ : Option Nat}

theorem kept_touchItem :
    Kept (s.touchItem key expiration) key (expiry s.clock expiration) ↔
      ∃ item, s.items key = some item := by
  unfold touchItem
  cases hi : s.items key with
  | none =>
    constructor
    · rintro ⟨item, hk, -⟩
      exact ⟨item, hi.symm.trans hk⟩
    · rintro ⟨item, hk⟩
      cases hk
  | some item => exact ⟨fun _ => ⟨item, rfl⟩, fun _ => ⟨_, Function.update_self _ _ _, rfl⟩⟩

theorem found_ne_failure : s.found key ≠ .failure := by
  unfold found
  split <;> decide

end Server

section
variable {T : Type} {L : Library} {t : T} {sid val : Bytes} {expiration maxlifetime : Int64}
  {p p' : Proc L} {w w' : Server T × (Nat → Fate)} {ret : Ret}

/-- the status of the request decides about the result, unless the item is kept -/
theorem touch_keeps_iff {h : Nat} (hm : p.modData = some h) (w : Server T × (Nat → Fate)) :
    ((fated t (.touch sid expiration) w).1 ≠ Status.failure →
        Kept (fated t (.touch sid expiration) w).2.1 sid (expiry w.1.clock expiration)) ↔
      TouchKeeps p w.1 (w.2 0) sid (expiry w.1.clock expiration) := by
  obtain ⟨s, fates⟩ := w
  have hanswer : fated t (.touch sid expiration) (s, fates) =
      ((s.answer t (fates 0) (.touch sid expiration)).1,
        (s.answer t (fates 0) (.touch sid expiration)).2, fun n => fates (n + 1)) := rfl
  rw [hanswer]
  unfold TouchKeeps Server.answer
  rw [hm]
  dsimp only
  cases hmode : (fates 0).mode with
  | served =>
    show (s.found sid ≠ _ → Kept (s.touchItem sid expiration) _ _) ↔ _
    rw [Server.kept_touchItem]
    constructor
    · intro hk
      obtain ⟨item, hi⟩ := hk Server.found_ne_failure
      exact .inr ⟨item, hi, .inl trivial⟩
    · rintro (hf | ⟨item, hi, -⟩) _
      · exact hf.elim
      · exact ⟨item, hi⟩
  | refused fault =>
    show (fault.rc ≠ _ → Kept s _ _) ↔ _
    constructor
    · intro hk
      by_cases hrc : fault.rc = .failure
      · exact .inl hrc
      · obtain ⟨item, hi, he⟩ := hk hrc
        exact .inr ⟨item, hi, .inr he⟩
    · rintro (hf | ⟨item, hi, hr | he⟩) hrc
      · exact absurd hf hrc
      · exact hr.elim
      · exact ⟨item, hi, he⟩
  | lost fault =>
    show (fault.rc ≠ _ → Kept (s.touchItem sid expiration) _ _) ↔ _
    rw [Server.kept_touchItem]
    constructor
    · intro hk
      by_cases hrc : fault.rc = .failure
      · exact .inl hrc
      · obtain ⟨item, hi⟩ := hk hrc
        exact .inr ⟨item, hi, .inl trivial⟩
    · rintro (hf | ⟨item, hi, -⟩) hrc
      · exact absurd hf hrc
      · exact ⟨item, hi⟩

/-- without a handle nothing is done -/
theorem onNull_keeps_iff (hm : p.modData = none) (w : Server T × (Nat → Fate)) (at_ : Option Nat) :
    ((fated t .onNull w).1 ≠ Status.failure → Kept (fated t .onNull w).2.1 sid at_) ↔
      TouchKeeps p w.1 (w.2 0) sid at_ := by
  have hrc : (fated t .onNull w).1 = (w.2 0).any .onNull := by
    show (w.1.answer t (w.2 0) .onNull).1 = _
    unfold Server.answer
    split <;> rfl
  rw [fated_of_not_item t rfl, hrc]
  unfold TouchKeeps
  rw [hm]
  exact ⟨Decidable.or_iff_not_imp_left.mpr, Decidable.or_iff_not_imp_left.mp⟩

theorem exec_warnTouch {h : Nat}
    (hx : Cmd.exec (fated t) (warnTouch h) p w = (.done () p', w')) : p' = p ∧ w' = w := by
  unfold warnTouch at hx
  obtain ⟨memc, p₁, w₁, hderef, hrest⟩ := Cmd.exec_bind_inv hx
  obtain ⟨rfl, rfl⟩ := exec_deref hderef
  cases hb : decide (L.get memc.settings .binaryProtocol ≠ 0) with
  | false =>
    rw [hb] at hrest
    cases hrest
    exact ⟨rfl, rfl⟩
  | true =>
    rw [hb, Cmd.when_true, exec_warn] at hrest
    cases hrest
    exact ⟨rfl, rfl⟩

/-- `php_memcached_touch` ends with its request; the warning before it changes nothing -/
theorem exec_phpMemcachedTouch {rc : Status}
    (hx : Cmd.exec (fated t) (phpMemcachedTouch sid expiration) p w = (.done rc p', w')) :
    (rc ≠ .failure → Kept w'.1 sid (expiry w.1.clock expiration)) ↔
      TouchKeeps p w.1 (w.2 0) sid (expiry w.1.clock expiration) := by
  unfold phpMemcachedTouch at hx
  rw [Cmd.exec_get_bind] at hx
  cases hm : p.modData with
  | none =>
    rw [hm] at hx
    cases hx
    exact onNull_keeps_iff hm w _
  | some h =>
    rw [hm] at hx
    obtain ⟨_, p₁, w₁, hwarn, hrest⟩ := Cmd.exec_bind_inv hx
    have hsame : p₁ = p ∧ w₁ = w := by
      cases hold : L.old with
      | false =>
        rw [hold] at hwarn
        cases hwarn
        exact ⟨rfl, rfl⟩
      | true =>
        rw [hold] at hwarn
        exact exec_warnTouch hwarn
    obtain ⟨rfl, rfl⟩ := hsame
    cases hrest
    exact touch_keeps_iff hm w₁

/-- **What a successful callback leaves on the server.**  After a `PS_WRITE` that succeeds the item is
there and expires when it is due; after a `PS_UPDATE_TIMESTAMP` that succeeds it does if and only if
the `touch` failed outright or found the item. -/
theorem session_durability (t : T) (p : Proc L) (w : Server T × (Nat → Fate)) (sid val : Bytes)
    (maxlifetime : Int64) (hfits : w.1.clock + maxlifetime.toInt < 2 ^ 32) {ret : Ret} :
    (Cmd.exec (fated t) (callback (.write sid val maxlifetime)) p w = (.done ret p', w') →
      ret = .success → Kept w'.1 sid (due w.1.clock maxlifetime)) ∧
    (Cmd.exec (fated t) (callback (.updateTimestamp sid val maxlifetime)) p w =
        (.done ret p', w') →
      ((ret = .success → Kept w'.1 sid (due w.1.clock maxlifetime)) ↔
        TouchKeeps p w.1 (w.2 0) sid (due w.1.clock maxlifetime))) := by
  constructor
  · rintro hx rfl
    exact kept_of_psWrite hfits hx
  · intro hx
    unfold callback psUpdateTimestamp at hx
    dsimp only at hx
    rw [Cmd.exec_bind_done (exec_sSessionExpiration t maxlifetime p w)] at hx
    obtain ⟨rc, p₁, w₁, htouch, hx⟩ := Cmd.exec_bind_inv hx
    have hiff := exec_phpMemcachedTouch htouch
    rw [expiry_expirationAt hfits] at hiff
    rw [← hiff]
    by_cases hrc : rc = .failure
    · rw [if_pos hrc] at hx
      cases hx
      exact ⟨fun _ hne => absurd hrc hne, nofun⟩
    · rw [if_neg hrc] at hx
      cases hx
      exact ⟨fun hk _ => hk rfl, fun hk _ => hk hrc⟩

end

/-- the `touch` of an item that is not there -/
def touchMissing : Outcome Abort (Proc plainLibrary) Ret × Server Unit × (Nat → Fate) :=
  Cmd.exec (fated ()) (callback (.updateTimestamp (ascii ['a']) [] 60))
    (openProc plainLibrary iniDefaults) (emptyServer Unit, fun _ => goodFate)

/-- it succeeds, and no item is there -/
theorem updateTimestamp_of_missing :
    touchMissing.1 = .done .success (openProc plainLibrary iniDefaults) ∧
      ¬ Kept touchMissing.2.1 (ascii ['a']) (due 0 60) := by
  refine ⟨rfl, ?_⟩
  rintro ⟨item, hi, -⟩
  have hnone : touchMissing.2.1.items (ascii ['a']) = none := rfl
  rw [hnone] at hi
  cases hi

/-- a session of a minute is written, and touched -/
theorem session_durability_minute :
    (∃ w', Cmd.exec (fated ()) (callback (.write (ascii ['a']) [] 60))
        (openProc plainLibrary iniDefaults) (emptyServer Unit, fun _ => goodFate) =
        (.done .success (openProc plainLibrary iniDefaults), w') ∧
      Kept w'.1 (ascii ['a']) (some 60)) ∧
    ∃ w', Cmd.exec (fated ()) (callback (.updateTimestamp (ascii ['a']) [] 60))
        (openProc plainLibrary iniDefaults)
        ((emptyServer Unit).setItem () (ascii ['a']) [] 0, fun _ => goodFate) =
        (.done .success (openProc plainLibrary iniDefaults), w') ∧
      Kept w'.1 (ascii ['a']) (some 60) := by
  have hfits : ((0 : Nat) : Int) + (60 : Int64).toInt < 2 ^ 32 := by decide
  refine ⟨⟨_, rfl, ?_⟩, ⟨_, rfl, ?_⟩⟩
  · exact (session_durability () (openProc plainLibrary iniDefaults)
      (emptyServer Unit, fun _ => goodFate) (ascii ['a']) [] 60 hfits).1 rfl rfl
  · refine ((session_durability () (openProc plainLibrary iniDefaults)
      ((emptyServer Unit).setItem () (ascii ['a']) [] 0, fun _ => goodFate) (ascii ['a']) [] 60
      hfits).2 rfl).mpr ?_ rfl
    exact .inr ⟨_, rfl, .inl trivial⟩

end PhpMemcached.Session
