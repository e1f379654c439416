import PhpMemcached.Session.Bookkeeping
import PhpMemcached.Session.Freed

/-!
# Locking prevents lost updates

* `Section`, `Serial`      what a client does from a `PS_READ` that succeeds to the `PS_CLOSE` or
                           `PS_DESTROY` after it; such sections one after the other;
* `Server.Sure`            a server on which what `PS_WRITE` and `PS_DESTROY` report is so;
* `Hold`, `sectionRules`   what a client may do about the lock and the item of a session;
* `Tidy`, `keeps_section`  what the callbacks leave of them;
* `Ledger`, `Orderly`      a run with a record of the sections, and the order of the callbacks;
* `sections_serial`        in every run of orderly clients one client at most is in a section, and
                           what is stored at the end is what the sections leave one after the other.
-/

namespace PhpMemcached.Session
open Ascii Requests

/-! ## sections -/

/-- what a client has read, what it has written, the last value first, and whether it destroyed the
session -/
structure Section (T : Type) where
  client : T
  value : Bytes
  writes : List Bytes
  destroyed : Bool

section
variable {T : Type}

/-- what a section leaves of the value `x` -/
def Section.result (s : Section T) (x : Option Bytes) : Option Bytes :=
  if s.destroyed then none
  else match s.writes with
    | [] => x
    | val :: _ => some val

/-- what sections leave of the value `x`, one after the other, the last one first -/
def outcome (x : Option Bytes) : List (Section T) → Option Bytes
  | [] => x
  | s :: l => s.result (outcome x l)

/-- each section read what the one before it left -/
def Serial (x : Option Bytes) : List (Section T) → Prop
  | [] => True
  | s :: l => s.value = (outcome x l).getD [] ∧ Serial x l

theorem Section.result_wrote {s : Section T} (hs : s.destroyed = false) (val : Bytes)
    (x : Option Bytes) : { s with writes := val :: s.writes }.result x = some val := by
  unfold Section.result
  dsimp only
  rw [hs]
  rfl

end

/-! ## the rules of one session -/

def Act.isWrite : Act → Bool
  | .callback (.write ..) => true
  | _ => false

def Act.isDestroy : Act → Bool
  | .callback (.destroy _) => true
  | _ => false

/-- whether a client has the lock of the session, and the value that is stored -/
structure Hold where
  own : Prop
  stored : Option Bytes

/-- the lock is as it was, and with it the value -/
def Hold.Kept (g g' : Hold) : Prop := (g.own ↔ g'.own) ∧ (g.own → g'.stored = g.stored)

theorem Hold.Kept.refl (g : Hold) : g.Kept g := ⟨Iff.rfl, fun _ => rfl⟩

theorem Hold.Kept.trans {g₁ g₂ g₃ : Hold} (h : g₁.Kept g₂) (h' : g₂.Kept g₃) : g₁.Kept g₃ :=
  ⟨h.1.trans h'.1, fun hg => (h'.2 (h.1.mp hg)).trans (h.2 hg)⟩

/-- the requests of the action `a` that are about items -/
def sectionGuard (sid : Bytes) (a : Act) (c : Call) (g : Hold) : Prop :=
  match c with
  | .add key value _ =>
    key = lockKeyOf sid ∧ value = lockValue ∧ a.isWrite = false ∧ a.isDestroy = false
  | .set key _ _ => key = sid ∧ g.own ∧ a.isWrite = true
  | .delete .destroy key => key = sid ∧ g.own ∧ a.isDestroy = true
  | .delete .unlock key =>
    key = lockKeyOf sid ∧ g.own ∧ a.isWrite = false ∧ (a.isDestroy = true → g.stored = none)
  | .get key => key = sid
  | .touch .. => False
  | _ => True

/-- what is learnt from their answers; a lock that is to be given back may stay -/
def sectionServed : (c : Call) → Ans c → Hold → Hold → Prop
  | .add .., rc, g, g' => (g.own → g'.own) ∧ ((rc : Status) = .success → g'.own)
  | .get _, r, g, g' => g.Kept g' ∧ ∀ val, readRet r = .data val → val = g.stored.getD []
  | .set _ value _, rc, g, g' =>
    (g.own ↔ g'.own) ∧ g'.stored = if (rc : Status) = .success then some value else g.stored
  | .delete .destroy _, _, g, g' => (g.own ↔ g'.own) ∧ g'.stored = none
  | .delete .unlock _, _, g, g' => ¬ g'.own ∨ g.Kept g'
  | _, _, g, g' => g.Kept g'

/-- a lock is given back by a `delete` -/
theorem sectionServed.keeps {c : Call} {r : Ans c} {g g' : Hold} (h : sectionServed c r g g')
    (hunlock : ∀ key, c ≠ .delete .unlock key) (hown : g.own) : g'.own := by
  cases c with
  | add key value expiration => exact h.1 hown
  | get key => exact h.1.1.mp hown
  | set key value expiration => exact h.1.mp hown
  | delete by_ key =>
    cases by_ with
    | destroy => exact h.1.mp hown
    | unlock => exact absurd rfl (hunlock key)
  | _ => exact h.1.mp hown

/-- a lock is got by an `add` -/
theorem sectionServed.had {c : Call} {r : Ans c} {g g' : Hold} (h : sectionServed c r g g')
    (hadd : ∀ key value expiration, c ≠ .add key value expiration) (hown : g'.own) : g.own := by
  cases c with
  | add key value expiration => exact absurd rfl (hadd key value expiration)
  | get key => exact h.1.1.mpr hown
  | set key value expiration => exact h.1.mpr hown
  | delete by_ key =>
    cases by_ with
    | destroy => exact h.1.mpr hown
    | unlock => exact (h.resolve_left fun hn => hn hown).1.mpr hown
  | _ => exact h.1.mpr hown

/-- the others leave the lock of a client alone, and the value while it has it -/
def sectionRules (sid : Bytes) (a : Act) : Rules Call Ans Hold where
  env := Hold.Kept
  guard := sectionGuard sid a
  served := sectionServed
  refl := Hold.Kept.refl
  trans _ _ _ := Hold.Kept.trans

theorem neutral_sectionRules (sid : Bytes) (a : Act) : Neutral (sectionRules sid a) where
  guard c g hc := by
    cases c <;> trivial
  served c r g g' hc hs := by
    cases c <;> first | exact hs | cases hc

/-! ## the server keeps the rules -/

section
variable {T : Type} {t u : T} {s s' : Server T} {sid : Bytes} {a : Act} {c : Call} {r : Ans c}

/-- a request is served or fails; but a `set` that fails is not done, and the `delete` of
`PS_DESTROY`, whose answer is not looked at, is served -/
def Server.Sure (t : T) (c : Call) (r : Ans c) (s s' : Server T) : Prop :=
  ∃ f : Fate, s.answer t f c = (r, s') ∧ match c with
    | .set .. => ∀ fault, f.mode ≠ .lost fault
    | .delete .destroy _ => f.mode = .served
    | _ => True

theorem Server.Sure.serve (h : s.Sure t c r s') : s.Serve t c r s' := by
  obtain ⟨f, h, -⟩ := h
  exact ⟨f, h⟩

def stored (sid : Bytes) (s : Server T) : Option Bytes := (s.items sid).map Item.value

def holdOf (sid : Bytes) (t : T) (s : Server T) : Hold := ⟨lockKeyOf sid ∈ owned t s, stored sid s⟩

theorem ne_lockKeyOf (sid : Bytes) : sid ≠ lockKeyOf sid := by
  intro h
  -- a key with a NUL is not that of a lock, and one without is shorter
  have hall : ∀ b ∈ sid, (decide (b ≠ 0)) = true := by
    intro b hb
    rw [h] at hb
    rcases List.mem_append.mp hb with hb | hb
    · exact List.all_eq_true.mp (by decide : (ascii "lock.".toList).all (· ≠ 0) = true) b hb
    · exact List.mem_takeWhile_imp (p := fun b => decide (b ≠ 0)) hb
  have hlength := congrArg List.length h
  rw [lockKeyOf, List.length_append, List.takeWhile_eq_self_iff.mpr hall] at hlength
  have hfive : (ascii "lock.".toList).length = 5 := by decide
  omega

theorem stored_put_of_ne (item : Option (Item T)) {key : Bytes} (hne : sid ≠ key) :
    stored sid (s.put key item) = stored sid s := by
  unfold stored
  rw [Server.put_items, if_neg hne]

theorem stored_put (item : Option (Item T)) :
    stored sid (s.put sid item) = item.map Item.value := by
  unfold stored
  rw [Server.put_items, if_pos rfl]

theorem stored_removeItem (by_ : Option (T × DeleteBy)) :
    stored sid (s.removeItem by_ sid) = none := by
  unfold Server.removeItem
  split
  · exact stored_put none
  · rename_i hnone
    unfold stored
    rw [hnone]
    rfl

theorem stored_removeItem_of_ne (by_ : Option (T × DeleteBy)) {key : Bytes} (hne : sid ≠ key) :
    stored sid (s.removeItem by_ key) = stored sid s := by
  unfold Server.removeItem
  split
  · exact stored_put_of_ne none hne
  · rfl

theorem stored_addItem_of_ne (t : T) (value : Bytes) (expiration : Int64) {key : Bytes}
    (hne : sid ≠ key) : stored sid (s.addItem t key value expiration) = stored sid s := by
  unfold Server.addItem
  split
  · exact stored_put_of_ne _ hne
  · rfl

/-- an `add` of the lock gives nobody but its client a lock -/
theorem own_addItem (t : T) (key : Bytes) (expiration : Int64) (u : T) (k : Bytes) :
    (k ∈ owned u s → k ∈ owned u (s.addItem t key lockValue expiration)) ∧
      (u ≠ t → k ∈ owned u (s.addItem t key lockValue expiration) → k ∈ owned u s) := by
  cases hi : s.items key with
  | none =>
    have hmem := mem_owned_addItem hi t lockValue expiration u k
    exact ⟨fun h => hmem.mpr (.inr h), fun hne h => (hmem.mp h).resolve_left fun hc => hne hc.2.2⟩
  | some item =>
    rw [Server.addItem_of_found hi]
    exact ⟨id, fun _ => id⟩

/-- an item is removed that is not the lock -/
theorem own_removeItem_of_ne (by_ : Option (T × DeleteBy)) (u : T) {key k : Bytes} (hne : k ≠ key) :
    k ∈ owned u s ↔ k ∈ owned u (s.removeItem by_ key) := by
  rw [owned_removeItem]
  exact ⟨fun h => ⟨h, hne⟩, fun h => h.1⟩

theorem not_own_removeItem (by_ : Option (T × DeleteBy)) (u : T) (key : Bytes) :
    key ∉ owned u (s.removeItem by_ key) := by
  rw [owned_removeItem]
  exact fun h => h.2 rfl

/-- what a client does leaves the lock of another alone, and the value while that has it -/
theorem kept_exec (hguard : sectionGuard sid a c (holdOf sid t s)) (hne : u ≠ t) :
    (holdOf sid u s).Kept (holdOf sid u (s.exec t c)) := by
  cases c with
  | add key value expiration =>
    obtain ⟨rfl, rfl, -⟩ := hguard
    obtain ⟨hkept, hnew⟩ := own_addItem (s := s) t (lockKeyOf sid) expiration u (lockKeyOf sid)
    refine ⟨⟨hkept, hnew hne⟩, fun _ => ?_⟩
    exact stored_addItem_of_ne t lockValue expiration (ne_lockKeyOf sid)
  | set key value expiration =>
    obtain ⟨rfl, hown, -⟩ := hguard
    refine ⟨?_, fun hu => absurd (owned_unique hu hown) hne⟩
    exact Iff.of_eq (congrArg (lockKeyOf key ∈ ·) (owned_setItem t key value expiration s u).symm)
  | delete by_ key =>
    cases by_ with
    | destroy =>
      obtain ⟨rfl, hown, -⟩ := hguard
      exact ⟨own_removeItem_of_ne _ u (ne_lockKeyOf key).symm,
        fun hu => absurd (owned_unique hu hown) hne⟩
    | unlock =>
      obtain ⟨rfl, hown, -⟩ := hguard
      have hu : lockKeyOf sid ∉ owned u s := fun hu => hne (owned_unique hu hown)
      exact ⟨⟨fun h => absurd h hu, fun h => absurd h (not_own_removeItem _ u _)⟩,
        fun h => absurd h hu⟩
  | touch key expiration => exact hguard.elim
  | _ => exact Hold.Kept.refl _

theorem kept_of_sure (h : s.Sure t c r s') (hguard : sectionGuard sid a c (holdOf sid t s))
    (hne : u ≠ t) : (holdOf sid u s).Kept (holdOf sid u s') := by
  rcases h.serve.state with rfl | rfl
  · exact kept_exec hguard hne
  · exact Hold.Kept.refl _

/-- the value that is stored is changed by `PS_WRITE` and `PS_DESTROY` alone -/
theorem stored_of_sure (h : s.Sure t c r s') (hguard : sectionGuard sid a c (holdOf sid t s))
    (hwrite : a.isWrite = false) (hdestroy : ∀ key, c ≠ .delete .destroy key) :
    stored sid s' = stored sid s := by
  rcases h.serve.state with rfl | rfl
  · cases c with
    | add key value expiration =>
      obtain ⟨rfl, -, -⟩ := hguard
      exact stored_addItem_of_ne t value expiration (ne_lockKeyOf sid)
    | set key value expiration =>
      rw [hguard.2.2] at hwrite
      cases hwrite
    | delete by_ key =>
      cases by_ with
      | destroy => exact absurd rfl (hdestroy key)
      | unlock =>
        obtain ⟨rfl, -, -⟩ := hguard
        exact stored_removeItem_of_ne _ (ne_lockKeyOf sid)
    | touch key expiration => exact hguard.elim
    | _ => rfl
  · rfl

theorem getReply_data {key val : Bytes} (h : readRet (s.getReply key) = .data val) :
    val = (stored key s).getD [] := by
  unfold Server.getReply at h
  unfold stored
  split at h
  · rename_i item hitem
    rw [hitem]
    exact (Ret.data.inj h).symm
  · rename_i hnone
    rw [hnone]
    exact (Ret.data.inj h).symm

theorem readRet_fault (fault : Fault) (val : Bytes) : readRet (fault.rc, []) ≠ .data val := by
  obtain ⟨rc, hsuccess, hnotfound⟩ := fault
  cases rc <;> first | exact absurd rfl hsuccess | exact absurd rfl hnotfound | exact nofun

/-- what a client learns from its own requests -/
theorem sectionServed_of_sure (h : s.Sure t c r s')
    (hguard : sectionGuard sid a c (holdOf sid t s)) :
    sectionServed c r (holdOf sid t s) (holdOf sid t s') := by
  cases c with
  | add key value expiration =>
    obtain ⟨rfl, rfl, -⟩ := hguard
    refine ⟨fun hown => ?_, fun hrc => ?_⟩
    · rcases h.serve.state with rfl | rfl
      · exact (own_addItem t (lockKeyOf sid) expiration t (lockKeyOf sid)).1 hown
      · exact hown
    · have hrc' : r = Status.success := hrc
      subst hrc'
      obtain ⟨hnone, rfl⟩ := h.serve.added
      exact (mem_owned_addItem hnone t lockValue expiration t _).mpr (.inl ⟨rfl, rfl, rfl⟩)
  | get key =>
    obtain rfl := hguard
    obtain ⟨f, hf, -⟩ := h
    unfold Server.answer at hf
    split at hf
    · cases hf
      exact ⟨Hold.Kept.refl _, fun val => getReply_data⟩
    · rename_i fault _
      cases hf
      exact ⟨Hold.Kept.refl _, fun val hval => absurd hval (readRet_fault fault val)⟩
    · rename_i fault _
      cases hf
      exact ⟨Hold.Kept.refl _, fun val hval => absurd hval (readRet_fault fault val)⟩
  | set key value expiration =>
    obtain ⟨rfl, -, -⟩ := hguard
    obtain ⟨f, hf, hlost⟩ := h
    unfold Server.answer at hf
    split at hf
    · cases hf
      refine ⟨?_, (stored_put _).trans (if_pos rfl).symm⟩
      have howned := owned_setItem t key value expiration s t
      exact Iff.of_eq (congrArg (lockKeyOf key ∈ ·) howned.symm)
    · rename_i fault _
      cases hf
      exact ⟨Iff.rfl, (if_neg fault.ne_success).symm⟩
    · rename_i fault hmode
      exact absurd hmode (hlost fault)
  | delete by_ key =>
    cases by_ with
    | destroy =>
      obtain ⟨rfl, -, -⟩ := hguard
      obtain ⟨f, hf, hserved⟩ := h
      unfold Server.answer at hf
      rw [hserved] at hf
      cases hf
      exact ⟨own_removeItem_of_ne _ t (ne_lockKeyOf key).symm, stored_removeItem _⟩
    | unlock =>
      obtain ⟨rfl, -, -⟩ := hguard
      rcases h.serve.state with rfl | rfl
      · exact .inl (not_own_removeItem _ t _)
      · exact .inr (Hold.Kept.refl _)
  | touch key expiration => exact hguard.elim
  | _ =>
    have hs' : s' = s := by
      rcases h.serve.state with rfl | rfl <;> rfl
    subst hs'
    exact Hold.Kept.refl _

end

/-! ## a client -/

/-- a process that locks: what it knows to be locked is the handle of its session, and the lock is
its client's -/
structure Tidy {L : Library} (sid : Bytes) (p : Proc L) (g : Hold) : Prop where
  sound : Sound p
  lockEnabled : p.ini.lockEnabled = true
  tied : ∀ h memc, p.memory h = some memc → memc.userData.isLocked = true →
    p.modData = some h ∧ memc.userData.lockKey = lockKeyOf sid ∧ g.own

/-- the handle of the session is locked -/
def Proc.Locked {L : Library} (p : Proc L) : Prop :=
  ∃ h memc, p.modData = some h ∧ p.memory h = some memc ∧ memc.userData.isLocked = true

section
variable {L : Library} {sid : Bytes} {a : Act} {p p' : Proc L} {g g' : Hold} {h : Nat}
  {memc : Memc L} {savePath : Bytes} {ret : Ret}

theorem Tidy.own (hp : Tidy sid p g) (hlocked : p.Locked) : g.own := by
  obtain ⟨h, memc, -, hm, hl⟩ := hlocked
  exact (hp.tied h memc hm hl).2.2

theorem Tidy.mono (hp : Tidy sid p g) (hown : g.own → g'.own) : Tidy sid p g' where
  sound := hp.sound
  lockEnabled := hp.lockEnabled
  tied h memc hm hl := by
    obtain ⟨hmod, hkey, ho⟩ := hp.tied h memc hm hl
    exact ⟨hmod, hkey, hown ho⟩

theorem Tidy.kept (hp : Tidy sid p g) (he : g.Kept g') : Tidy sid p g' := hp.mono he.1.mp

theorem Tidy.of_unlocked (hsound : Sound p) (hon : p.ini.lockEnabled = true) (hp : p.Unlocked) :
    Tidy sid p g where
  sound := hsound
  lockEnabled := hon
  tied h memc hm hl := by
    rw [hp h memc hm] at hl
    cases hl

theorem Tidy.unlocked_of_none (hp : Tidy sid p g) (hmod : p.modData = none) : p.Unlocked := by
  intro h memc hm
  cases hl : memc.userData.isLocked with
  | false => rfl
  | true =>
    have hc := (hp.tied h memc hm hl).1
    rw [hmod] at hc
    cases hc

/-- the handle of the session is locked -/
theorem Tidy.locked (hp : Tidy sid p g) (hmod : p.modData = some h) (hm : p.memory h = some memc)
    (hown : g'.own) : Tidy sid (p.store h (some (memc.locked (lockKeyOf sid)))) g' where
  sound := hp.sound.store hm rfl
  lockEnabled := hp.lockEnabled
  tied h' m hm' hl := by
    by_cases he : h' = h
    · subst he
      rw [store_memory_self] at hm'
      obtain rfl := Option.some.inj hm'
      exact ⟨hmod, rfl, hown⟩
    · rw [store_memory_of_ne p _ he] at hm'
      have hmod' := (hp.tied h' m hm' hl).1
      exact absurd (Option.some.inj (hmod'.symm.trans hmod)) he

/-- the handle of the session is unlocked, and with it the process -/
theorem Tidy.unlocked (hp : Tidy sid p g) (hmod : p.modData = some h)
    (hm : p.memory h = some memc) : (p.store h (some memc.unlocked)).Unlocked := by
  intro h' m hm'
  by_cases he : h' = h
  · subst he
    rw [store_memory_self] at hm'
    obtain rfl := Option.some.inj hm'
    rfl
  · rw [store_memory_of_ne p _ he] at hm'
    cases hl : m.userData.isLocked with
    | false => rfl
    | true =>
      have hmod' := (hp.tied h' m hm' hl).1
      exact absurd (Option.some.inj (hmod'.symm.trans hmod)) he

theorem Opens.ini (ho : Opens savePath p ret p') : p'.ini = p.ini := by
  cases ho with
  | refused => rfl
  | reused => rfl
  | @new p₁ _ _ hfrom hnew =>
    have h₁ : p₁.ini = p.ini := by
      rcases hfrom with rfl | ⟨h, -, -, rfl⟩ <;> rfl
    refine Eq.trans ?_ h₁
    cases hnew with
    | failed => rfl
    | opened => cases p.ini.persistentEnabled <;> rfl

/-! ### `PS_OPEN`, `PS_CLOSE` and `PS_DESTROY` -/

theorem keeps_open (hp : Tidy sid p g) (hmod : p.modData = none) (savePath : Bytes) :
    Cmd.Keeps (sectionRules sid a) (fun _ p' g' => Tidy sid p' g') (psOpen savePath) p g := by
  refine keeps_psOpen (neutral_sectionRules sid a) hp.sound fun ret p' g' ho _ => ?_
  refine .of_unlocked (hp.sound.opens ho) (ho.ini ▸ hp.lockEnabled) ?_
  exact ho.locksFrom.unlocked (hp.unlocked_of_none hmod)

/-- a process after `s_unlock_session`: the lock may have stayed, of a session that is destroyed -/
structure Released (a : Act) (p : Proc L) (g : Hold) : Prop where
  sound : Sound p
  lockEnabled : p.ini.lockEnabled = true
  unlocked : p.Unlocked
  destroyed : a.isDestroy = true → g.own → g.stored = none

theorem keeps_release (hp : Tidy sid p g) (hmod : p.modData = some h) (ha : a.isWrite = false)
    (hnone : a.isDestroy = true → g.stored = none) :
    Cmd.Keeps (sectionRules sid a) (fun _ p' g' => Released a p' g') (sUnlockSession h) p g := by
  refine keeps_sUnlockSession (fun memc g' hm hl he => ?_) fun memc g₁ hm hl he => ?_
  · -- the handle of the session is the one that can be locked
    have hunlocked : p.Unlocked := by
      have hsame := hp.unlocked hmod hm
      intro h' m hm'
      by_cases heq : h' = h
      · subst heq
        obtain rfl := Option.some.inj (hm.symm.trans hm')
        exact hl
      · exact hsame h' m ((store_memory_of_ne p _ heq).trans hm')
    refine ⟨hp.sound, hp.lockEnabled, hunlocked, fun ha hown => ?_⟩
    exact (he.2 (he.1.mpr hown)).trans (hnone ha)
  · obtain ⟨-, hkey, hown⟩ := hp.tied h memc hm hl
    have hnone₁ : a.isDestroy = true → g₁.stored = none := fun ha => (he.2 hown).trans (hnone ha)
    refine ⟨⟨hkey, he.1.mp hown, ha, hnone₁⟩, fun rc g₂ g₃ hs he' => ?_⟩
    refine ⟨hp.sound.store hm rfl, hp.lockEnabled, hp.unlocked hmod hm, fun ha hown₃ => ?_⟩
    have hown₂ := he'.1.mpr hown₃
    rcases hs with hs | hs
    · exact absurd hown₂ hs
    · exact (he'.2 hown₂).trans ((hs.2 (hs.1.mpr hown₂)).trans (hnone₁ ha))

theorem keeps_close (hp : Tidy sid p g) : Cmd.Keeps (sectionRules sid (.callback .close))
    (fun _ p' g' => Tidy sid p' g' ∧ p'.modData = none) psClose p g := by
  refine keeps_psClose (neutral_sectionRules sid _) (J := Released (.callback .close))
    (fun hmod g' he => ⟨hp.kept he, hmod⟩) (fun h hmod => keeps_release hp hmod rfl nofun)
    fun h memc p₁ g₁ g₂ _ hp₁ _ hm => ⟨.of_unlocked (hp₁.sound.closed hm) ?_ ?_, rfl⟩
  · unfold Proc.closed
    cases memc.userData.isPersistent <;> exact hp₁.lockEnabled
  · exact (LocksFrom.closed p₁ h memc).unlocked hp₁.unlocked

theorem keeps_destroy (hp : Tidy sid p g) (hlocked : p.Locked) :
    Cmd.Keeps (sectionRules sid (.callback (.destroy sid)))
      (fun _ p' g' => Tidy sid p' g' ∧ (g'.own → g'.stored = none)) (psDestroy sid) p g := by
  refine keeps_psDestroy (neutral_sectionRules sid _) (fun hmod => ?_) (fun h g₁ hmod he => ?_)
    fun p' g g' hp' he => ⟨hp'.1.kept he, fun hown => ?_⟩
  · obtain ⟨h, -, hmod', -⟩ := hlocked
    rw [hmod] at hmod'
    cases hmod'
  · refine ⟨⟨rfl, he.1.mp (hp.own hlocked), rfl⟩, fun rc g₂ hs => ?_⟩
    have hp₂ : Tidy sid p g₂ := hp.mono fun hown => hs.1.mp (he.1.mp hown)
    refine (keeps_release hp₂ hmod rfl fun _ => hs.2).mono fun _ p' g' hp' => ?_
    refine ⟨?_, hp'.destroyed rfl⟩
    exact .of_unlocked hp'.sound hp'.lockEnabled hp'.unlocked
  · exact (he.2 (he.1.mpr hown)).trans (hp'.2 (he.1.mpr hown))

/-! ### `PS_READ` -/

theorem addKeeps_tidy (hw : a.isWrite = false) (hd : a.isDestroy = false) (h : Nat) :
    AddKeeps (sectionRules sid a) (L := L) (fun p g => Tidy sid p g ∧ p.modData = some h) h
      (lockKeyOf sid) where
  stable _ _ _ hp he := ⟨hp.1.kept he, hp.2⟩
  guard _ _ _ _ := ⟨rfl, rfl, hw, hd⟩
  added _ _ _ _ _ hp hm hs := ⟨hp.1.locked hp.2 hm (hs.2 rfl), hp.2⟩
  refused _ _ _ _ _ hp _ hs := ⟨hp.1.mono hs.1, hp.2⟩

/-- what `PS_READ` returns is what is stored, and the client has the lock -/
theorem keeps_read (hp : Tidy sid p g) : Cmd.Keeps (sectionRules sid (.callback (.read sid)))
    (fun ret p' g' => Tidy sid p' g' ∧
      ∀ val, ret = .data val → p'.Locked ∧ val = g'.stored.getD []) (psRead sid) p g := by
  have hR := neutral_sectionRules sid (.callback (.read sid))
  refine keeps_psRead hR (fun _ g' he => ⟨hp.kept he, nofun⟩)
    (fun h hmod _ => keeps_sLockSession hR (addKeeps_tidy rfl rfl h) ⟨hp, hmod⟩)
    (fun h p' g' g'' hj he => ⟨hj.1.1.kept he, nofun⟩) fun h p' g' hmod hj => ?_
  rcases hj with ⟨⟨⟨hp', hmod'⟩, memc, hm, hl⟩, -⟩ | ⟨-, -, hoff⟩
  · have hlocked : p'.Locked := ⟨h, memc, hmod', hm, hl⟩
    refine keeps_readItem hR fun g₁ h₁ => ⟨rfl, fun r g₂ g₃ h₂ h₃ => ?_⟩
    have hown₂ : g₂.own := h₂.1.1.mp (h₁.1.mp (hp'.own hlocked))
    refine ⟨((hp'.kept h₁).kept h₂.1).kept h₃, fun val hval => ⟨hlocked, ?_⟩⟩
    rw [h₂.2 val hval, h₃.2 hown₂, h₂.1.2 (h₂.1.1.mpr hown₂)]
  · rw [hp.lockEnabled] at hoff
    cases hoff

/-! ### `PS_WRITE` -/

variable {val : Bytes} {maxlifetime : Int64}

theorem keeps_saveItem (ha : a.isWrite = true) (hown : g.own) (expiration : Int64) :
    Cmd.Keeps (sectionRules sid a) (fun saved p' g' => p' = p ∧ g'.own ∧
      g'.stored = if saved then some val else g.stored) (saveItem sid val expiration) p g := by
  refine fun g₁ h₁ => ⟨⟨rfl, h₁.1.mp hown, ha⟩, fun rc g₂ h₂ => ?_⟩
  have hown₂ : g₂.own := h₂.1.mp (h₁.1.mp hown)
  show Cmd.Keeps (sectionRules sid a) _ (if (rc : Status) = .success then pure true else _) p g₂
  have hstored := h₂.2
  split
  · rename_i hrc
    rw [if_pos hrc] at hstored
    exact fun g₃ h₃ => ⟨rfl, h₃.1.mp hown₂, (h₃.2 hown₂).trans hstored⟩
  · rename_i hrc
    rw [if_neg hrc] at hstored
    refine (neutral_sectionRules sid a).keeps_bind (c := .warning _ _) rfl fun _ g₃ h₃ => ?_
    refine fun g₄ h₄ => ⟨rfl, h₄.1.mp (h₃.1.mp hown₂), ?_⟩
    exact (h₄.2 (h₃.1.mp hown₂)).trans ((h₃.2 hown₂).trans (hstored.trans (h₁.2 hown)))

/-- the loop: a round that fails leaves the value -/
theorem keeps_writeLoop (ha : a.isWrite = true) (hown : g.own) (expiration : Int64)
    (retries : Nat) : Cmd.Keeps (sectionRules sid a) (fun ret p' g' => p' = p ∧ g'.own ∧
      g'.stored = if ret = .success then some val else g.stored)
      (writeLoop sid val expiration retries) p g := by
  induction retries generalizing g with
  | zero =>
    refine (keeps_saveItem ha hown expiration).bind fun saved p₁ g₁ h₁ g₂ h₂ => ?_
    obtain ⟨rfl, hown₁, hstored⟩ := h₁
    refine ⟨rfl, h₂.1.mp hown₁, (h₂.2 hown₁).trans (hstored.trans ?_)⟩
    cases saved <;> rfl
  | succ retries ih =>
    refine (keeps_saveItem ha hown expiration).bind fun saved p₁ g₁ h₁ => ?_
    obtain ⟨rfl, hown₁, hstored⟩ := h₁
    cases saved with
    | true => exact fun g₂ h₂ => ⟨rfl, h₂.1.mp hown₁, (h₂.2 hown₁).trans hstored⟩
    | false =>
      have hstored' : g₁.stored = g.stored := hstored
      exact hstored' ▸ ih hown₁

theorem keeps_write (hp : Tidy sid p g) (hlocked : p.Locked) :
    Cmd.Keeps (sectionRules sid (.callback (.write sid val maxlifetime)))
      (fun ret p' g' => p' = p ∧ g'.own ∧ g'.stored = if ret = .success then some val else g.stored)
      (psWrite sid val maxlifetime) p g := by
  have hR := neutral_sectionRules sid (.callback (.write sid val maxlifetime))
  have hown := hp.own hlocked
  refine (hR.keeps (sat_sSessionExpiration maxlifetime) g).bind fun expiration p₁ g₁ h₁ => ?_
  obtain ⟨rfl, he⟩ := h₁
  refine keeps_withModData hR (fun hmod => ?_) fun h hmod => ?_
  · obtain ⟨h, -, hmod', -⟩ := hlocked
    rw [hmod] at hmod'
    cases hmod'
  · rw [keeps_iniValues_bind]
    refine keeps_deref_bind fun memc _ => ?_
    rw [← he.2 hown]
    exact keeps_writeLoop rfl (he.1.mp hown) expiration _

/-! ### the callbacks that do not stop -/

section
variable {ψ : (c : Call) → Ans c → Prop} {P : Abort → Proc L → Prop}

theorem stops_sAdjustExpiration (expiration : Int64) :
    Cmd.Stops ψ P (sAdjustExpiration expiration) p := by
  unfold sAdjustExpiration
  split
  · trivial
  · exact fun now _ => trivial

theorem stops_sSessionExpiration (maxlifetime : Int64) :
    Cmd.Stops ψ P (sSessionExpiration maxlifetime) p := by
  unfold sSessionExpiration
  split
  · exact stops_sAdjustExpiration maxlifetime
  · trivial

theorem stops_saveItem (expiration : Int64) : Cmd.Stops ψ P (saveItem sid val expiration) p := by
  refine fun rc _ => ?_
  show Cmd.Stops ψ P (if (rc : Status) = .success then pure true else _) p
  split
  · trivial
  · exact fun _ _ => trivial

theorem stops_writeLoop (expiration : Int64) (retries : Nat) :
    Cmd.Stops ψ P (writeLoop sid val expiration retries) p := by
  induction retries generalizing p with
  | zero =>
    exact Cmd.Stops.bind (stops_saveItem expiration) (Cmd.sat_true _ _) fun _ _ _ => trivial
  | succ retries ih =>
    refine Cmd.Stops.bind (stops_saveItem expiration) (Cmd.sat_true _ _) fun saved p₁ _ => ?_
    cases saved with
    | true => trivial
    | false => exact ih

theorem stops_iniValues_bind {β : Type} (f : Ini → SessM L β) :
    Cmd.Stops ψ P (iniValues >>= f) p ↔ Cmd.Stops ψ P (f p.ini) p := Iff.rfl

theorem stops_psWrite (hp : Sound p) : Cmd.Stops ψ P (psWrite sid val maxlifetime) p := by
  refine Cmd.Stops.bind (stops_sSessionExpiration maxlifetime) (sat_sSessionExpiration maxlifetime)
    fun expiration p₁ hp₁ => ?_
  obtain rfl : p₁ = p := hp₁
  refine stops_withModData fun h hmod => ?_
  obtain ⟨memc, hm⟩ := hp.modData h hmod
  rw [stops_iniValues_bind, stops_deref_bind hm]
  exact stops_writeLoop expiration _

theorem stops_psDestroy (hp : Sound p) : Cmd.Stops ψ P (psDestroy sid) p := by
  refine stops_withModData fun h hmod => fun rc _ => ?_
  obtain ⟨memc, hm⟩ := hp.modData h hmod
  exact Cmd.Stops.bind (stops_sUnlockSession hm) (Cmd.sat_true _ _) fun _ _ _ => trivial

end

end

/-! ## the stages of a client -/

/-- where a client is between `PS_OPEN` and `PS_CLOSE` -/
inductive Stage (T : Type) where
  | closed
  | opened
  /-- from a `PS_READ` that succeeded on -/
  | inside (s : Section T)
  /-- after a `PS_READ` that failed -/
  | failed
  /-- after `PS_DESTROY` -/
  | destroyed

section
variable {T : Type} {L : Library}

/-- the order of the callbacks -/
def Stage.may (sid : Bytes) : Stage T → Callback → Prop
  | .closed, .open_ _ => True
  | .opened, .read sid' => sid' = sid
  | .inside _, .write sid' _ _ => sid' = sid
  | .inside _, .destroy sid' => sid' = sid
  | .opened, .close => True
  | .inside _, .close => True
  | .failed, .close => True
  | .destroyed, .close => True
  | _, _ => False

/-- a section ends where `PS_DESTROY` or `PS_CLOSE` is called -/
def Stage.start : Act → Stage T → Stage T
  | .callback .close, _ => .closed
  | .callback (.destroy _), _ => .destroyed
  | _, stage => stage

/-- the section that ends, if one does -/
def Stage.completes : Act → Stage T → List (Section T)
  | .callback .close, .inside s => [s]
  | .callback (.destroy _), .inside s => [{ s with destroyed := true }]
  | _, _ => []

/-- a section begins where `PS_READ` has returned the data -/
def Stage.finish (t : T) (stage : Stage T) : Act → Client L → Stage T
  | .callback (.open_ _), .live _ _ => .opened
  | .callback (.read _), .live _ ((_, .data value) :: _) => .inside ⟨t, value, [], false⟩
  | .callback (.read _), _ => .failed
  | .callback (.write _ val _), .live _ ((_, .success) :: _) =>
    match stage with
    | .inside s => .inside { s with writes := val :: s.writes }
    | stage => stage
  | _, _ => stage

/-- the stage of a client while it is in the action -/
def Stage.Fits (sid : Bytes) : Stage T → Act → Prop
  | .closed, .callback (.open_ _) => True
  | .closed, .callback .close => True
  | .opened, .callback (.read sid') => sid' = sid
  | .inside _, .callback (.write sid' _ _) => sid' = sid
  | .destroyed, .callback (.destroy sid') => sid' = sid
  | _, _ => False

/-- what a callback leaves, if the sections that are completed leave `x` -/
def Leaves (sid : Bytes) (x : Option Bytes) (stage : Stage T) :
    Callback → Ret → Proc L → Hold → Prop
  | .read _, ret, p, g =>
    Tidy sid p g ∧ ∀ val, ret = .data val → p.Locked ∧ val = g.stored.getD []
  | .write _ val _, ret, p, g => Tidy sid p g ∧ p.Locked ∧ ∀ s, stage = .inside s →
    g.stored = if ret = .success then some val else s.result x
  | .destroy _, _, p, g => Tidy sid p g ∧ (g.own → g.stored = none)
  | .close, _, p, g => Tidy sid p g ∧ p.modData = none
  | _, _, p, g => Tidy sid p g

/-- how a client ends the action `a` -/
def Ending (sid : Bytes) (x : Option Bytes) (stage : Stage T) (a : Act) : Client L → Hold → Prop
  | .live p ((cb, ret) :: _), g => a = .callback cb ∧ Leaves sid x stage cb ret p g
  | .live _ [], _ => False
  | .dead, _ => a.isWrite = false ∧ a.isDestroy = false

/-- a client between callbacks -/
def AtRest (sid : Bytes) (x : Option Bytes) (stage : Stage T) : Client L → Hold → Prop
  | .live p _, g => Tidy sid p g ∧ match stage with
    | .closed => p.modData = none
    | .inside s => p.Locked ∧ g.stored = s.result x
    | _ => True
  | .dead, _ => ∀ s, stage ≠ .inside s

variable {sid : Bytes} {x x' : Option Bytes} {stage : Stage T} {a : Act} {cb : Callback}
  {client : Client L} {g g' : Hold} {t : T}

theorem AtRest.kept (h : AtRest sid x stage client g) (he : g.Kept g') :
    AtRest sid x stage client g' := by
  cases client with
  | dead => exact h
  | live p past =>
    refine ⟨h.1.kept he, ?_⟩
    cases stage with
    | inside s => exact ⟨h.2.1, (he.2 (h.1.own h.2.1)).trans h.2.2⟩
    | _ => exact h.2

/-- outside of a section it does not matter what the others leave -/
theorem AtRest.congr (h : AtRest sid x stage client g) (hstage : ∀ s, stage ≠ .inside s) :
    AtRest sid x' stage client g := by
  cases client with
  | dead => exact h
  | live p past =>
    cases stage with
    | inside s => exact absurd rfl (hstage s)
    | _ => exact h

theorem Ending.congr (h : Ending sid x stage a client g) (hstage : ∀ s, stage ≠ .inside s) :
    Ending sid x' stage a client g := by
  cases client with
  | dead => exact h
  | live p past =>
    cases past with
    | nil => exact h
    | cons entry past =>
      obtain ⟨cb, ret⟩ := entry
      refine ⟨h.1, ?_⟩
      have hleaves := h.2
      cases cb with
      | write sid' val maxlifetime =>
        exact ⟨hleaves.1, hleaves.2.1, fun s hs => absurd hs (hstage s)⟩
      | _ => exact hleaves

theorem Leaves.kept {ret : Ret} {p : Proc L} (h : Leaves sid x stage cb ret p g) (he : g.Kept g') :
    Leaves sid x stage cb ret p g' := by
  cases cb with
  | read sid' =>
    refine ⟨h.1.kept he, fun val hval => ?_⟩
    obtain ⟨hlocked, hstored⟩ := h.2 val hval
    exact ⟨hlocked, hstored.trans (congrArg (Option.getD · []) (he.2 (h.1.own hlocked)).symm)⟩
  | write sid' val maxlifetime =>
    refine ⟨h.1.kept he, h.2.1, fun s hs => ?_⟩
    exact (he.2 (h.1.own h.2.1)).trans (h.2.2 s hs)
  | destroy sid' =>
    refine ⟨h.1.kept he, fun hown => ?_⟩
    exact (he.2 (he.1.mpr hown)).trans (h.2 (he.1.mpr hown))
  | close => exact ⟨h.1.kept he, h.2⟩
  | _ => exact Tidy.kept h he

theorem Ending.kept (h : Ending sid x stage a client g) (he : g.Kept g') :
    Ending sid x stage a client g' := by
  cases client with
  | dead => exact h
  | live p past =>
    cases past with
    | nil => exact h
    | cons entry past => exact ⟨h.1, h.2.kept he⟩

/-- a callback that may stop -/
theorem keeps_leaves {p : Proc L} {past : List (Callback × Ret)}
    (hwrite : (Act.callback cb).isWrite = false) (hdestroy : (Act.callback cb).isDestroy = false)
    (hcb : Cmd.Keeps (sectionRules sid (.callback cb)) (Leaves sid x stage cb) (callback cb) p g) :
    (Client.code (.callback cb) (.live p past)).Keeps (sectionRules sid (.callback cb))
      (Ending sid x stage (.callback cb)) g :=
  keeps_code (hcb.mono fun _ _ _ h => ⟨rfl, h⟩) (fun _ _ _ => Ending.kept)
    fun _ => ⟨hwrite, hdestroy⟩

/-- a callback that does not stop -/
theorem keeps_leaves_done {p : Proc L} {past : List (Callback × Ret)}
    (hcb : Cmd.Keeps (sectionRules sid (.callback cb)) (Leaves sid x stage cb) (callback cb) p g)
    (hstop : Cmd.Stops (fun _ _ => True) (fun _ _ => False) (callback cb) p) :
    (Client.code (.callback cb) (.live p past)).Keeps (sectionRules sid (.callback cb))
      (Ending sid x stage (.callback cb)) g := by
  refine Prog.Keeps.bind (hcb.done hstop) fun o g₁ ho => ?_
  obtain ⟨ret, p', rfl, hleaves⟩ := ho
  have hending : Ending sid x stage (.callback cb) (.live p' ((cb, ret) :: past)) g₁ :=
    ⟨rfl, hleaves⟩
  exact fun g₂ h₂ => hending.kept h₂

/-- **What a callback in its place leaves.** -/
theorem keeps_section (h : AtRest sid x stage client g) (hmay : stage.may sid cb) :
    (Client.code (.callback cb) client).Keeps (sectionRules sid (.callback cb))
      (Ending sid x (stage.start (.callback cb)) (.callback cb)) g := by
  cases client with
  | dead =>
    refine fun g' _ => ?_
    cases stage <;> cases cb <;> first | exact hmay.elim | exact ⟨rfl, rfl⟩ | exact absurd rfl (h _)
  | live p past =>
    obtain ⟨hp, hstage⟩ := h
    have hclose : Cmd.Keeps (sectionRules sid (.callback .close))
        (Leaves sid x (.closed : Stage T) .close) (callback .close) p g := keeps_close hp
    cases stage with
    | closed =>
      cases cb with
      | open_ savePath => exact keeps_leaves rfl rfl (keeps_open hp hstage savePath)
      | _ => exact hmay.elim
    | opened =>
      cases cb with
      | read sid' =>
        obtain rfl : sid' = sid := hmay
        exact keeps_leaves rfl rfl (keeps_read hp)
      | close => exact keeps_leaves rfl rfl hclose
      | _ => exact hmay.elim
    | inside s =>
      obtain ⟨hlocked, hstored⟩ := hstage
      cases cb with
      | write sid' val maxlifetime =>
        obtain rfl : sid' = sid := hmay
        refine keeps_leaves_done ((keeps_write hp hlocked).mono fun ret p' g' hw => ?_)
          (stops_psWrite hp.sound)
        obtain ⟨rfl, hown, hw⟩ := hw
        refine ⟨hp.mono fun _ => hown, hlocked, fun s' hs => ?_⟩
        cases hs
        rw [hw, hstored]
      | destroy sid' =>
        obtain rfl : sid' = sid := hmay
        exact keeps_leaves_done (keeps_destroy hp hlocked) (stops_psDestroy hp.sound)
      | close => exact keeps_leaves rfl rfl hclose
      | _ => exact hmay.elim
    | failed =>
      cases cb with
      | close => exact keeps_leaves rfl rfl hclose
      | _ => exact hmay.elim
    | destroyed =>
      cases cb with
      | close => exact keeps_leaves rfl rfl hclose
      | _ => exact hmay.elim

theorem Stage.may.fits (hmay : stage.may sid cb) :
    (stage.start (.callback cb)).Fits sid (.callback cb) := by
  cases stage <;> cases cb <;> first | exact hmay | trivial

/-- a client writes in a section, and is in nothing else there -/
theorem Stage.Fits.inside_iff (hfits : stage.Fits sid a) :
    (∃ s, stage = .inside s) ↔ a.isWrite = true := by
  cases a with
  | setIni ini => cases stage <;> exact hfits.elim
  | callback cb =>
    cases stage with
    | inside s =>
      cases cb with
      | write => exact ⟨fun _ => rfl, fun _ => ⟨s, rfl⟩⟩
      | _ => exact hfits.elim
    | _ => cases cb <;> first | exact hfits.elim | exact ⟨nofun, nofun⟩

theorem Ending.dead_atRest (h : Ending sid x stage a (.dead : Client L) g)
    (hfits : stage.Fits sid a) (t : T) :
    AtRest sid x (stage.finish t a (.dead : Client L)) (.dead : Client L) g := by
  obtain ⟨hwrite, hdestroy⟩ := h
  cases a with
  | setIni ini => cases stage <;> exact hfits.elim
  | callback cb =>
    cases stage with
    | inside s =>
      cases cb with
      | write => cases hwrite
      | _ => exact hfits.elim
    | destroyed =>
      cases cb with
      | destroy => cases hdestroy
      | _ => exact hfits.elim
    | _ => cases cb <;> first | exact hfits.elim | exact nofun

/-- what a callback leaves is what its client has between callbacks, if what it has read is what the
sections that are completed left -/
theorem Ending.atRest (h : Ending sid x stage a client g) (hfits : stage.Fits sid a) (t : T)
    (hread : a = .callback (.read sid) → g.own → g.stored = x)
    (hinside : ∀ s, stage = .inside s → s.destroyed = false) :
    AtRest sid x (stage.finish t a client) client g := by
  cases client with
  | dead => exact Ending.dead_atRest h hfits t
  | live p past =>
    cases past with
    | nil => exact h.elim
    | cons entry past =>
      obtain ⟨cb, ret⟩ := entry
      obtain ⟨rfl, hleaves⟩ := h
      cases stage with
      | closed =>
        cases cb with
        | open_ savePath => exact ⟨hleaves, trivial⟩
        | close => exact hleaves
        | _ => exact hfits.elim
      | opened =>
        cases cb with
        | read sid' =>
          obtain rfl : sid' = sid := hfits
          obtain ⟨hp, hdata⟩ := hleaves
          cases ret with
          | data val =>
            have hlocked := (hdata val rfl).1
            exact ⟨hp, hlocked, hread rfl (hp.own hlocked)⟩
          | _ => exact ⟨hp, trivial⟩
        | _ => exact hfits.elim
      | inside s =>
        cases cb with
        | write sid' val maxlifetime =>
          obtain ⟨hp, hlocked, hstored⟩ := hleaves
          have hs := hstored s rfl
          cases ret with
          | success =>
            exact ⟨hp, hlocked, hs.trans (Section.result_wrote (hinside s rfl) val x).symm⟩
          | _ => exact ⟨hp, hlocked, hs⟩
        | _ => exact hfits.elim
      | failed => cases cb <;> exact hfits.elim
      | destroyed =>
        cases cb with
        | destroy sid' => exact ⟨hleaves.1, trivial⟩
        | _ => exact hfits.elim

/-- the section a client is in after a callback, if it is in one -/
theorem Ending.section_ (h : Ending sid x stage a client g) (hfits : stage.Fits sid a)
    (hread : a = .callback (.read sid) → g.own → g.stored = x)
    (hinside : ∀ s, stage = .inside s → g.own ∧ s.destroyed = false ∧ s.value = x.getD [])
    {s : Section T} (hs : stage.finish t a client = .inside s) :
    g.own ∧ s.destroyed = false ∧ s.value = x.getD [] := by
  have hrest := h.atRest hfits t hread fun s hs => (hinside s hs).2.1
  rw [hs] at hrest
  cases client with
  | dead => exact absurd rfl (hrest s)
  | live p past =>
    have hown := hrest.1.own hrest.2.1
    refine ⟨hown, ?_⟩
    cases past with
    | nil => exact h.elim
    | cons entry past =>
      obtain ⟨cb, ret⟩ := entry
      obtain ⟨rfl, hleaves⟩ := h
      cases stage with
      | opened =>
        cases cb with
        | read sid' =>
          obtain rfl : sid' = sid := hfits
          cases ret with
          | data val =>
            cases hs
            refine ⟨rfl, ?_⟩
            rw [(hleaves.2 val rfl).2, hread rfl hown]
          | _ => cases hs
        | _ => exact hfits.elim
      | inside s' =>
        cases cb with
        | write sid' val maxlifetime =>
          have hs' := (hinside s' rfl).2
          cases ret <;> cases hs <;> exact hs'
        | _ => exact hfits.elim
      | _ => cases cb <;> first | exact hfits.elim | cases hs

theorem Ending.nothing_stored (h : Ending sid x stage a client g) (ha : a.isDestroy = true)
    (hown : g.own) : g.stored = none := by
  cases client with
  | dead =>
    rw [h.2] at ha
    cases ha
  | live p past =>
    cases past with
    | nil => exact h.elim
    | cons entry past =>
      obtain ⟨cb, ret⟩ := entry
      obtain ⟨rfl, hleaves⟩ := h
      cases cb with
      | destroy sid' => exact hleaves.2 hown
      | _ => cases ha

/-- a section goes on after a callback that does not end it -/
theorem Stage.Fits.finish_inside (hfits : stage.Fits sid a) (hinside : ∃ s, stage = .inside s)
    (h : Ending sid x stage a client g) (t : T) : ∃ s, stage.finish t a client = .inside s := by
  have hwrite := hfits.inside_iff.mp hinside
  obtain ⟨s, rfl⟩ := hinside
  cases client with
  | dead =>
    rw [h.1] at hwrite
    cases hwrite
  | live p past =>
    cases past with
    | nil => exact h.elim
    | cons entry past =>
      obtain ⟨cb, ret⟩ := entry
      obtain ⟨rfl, -⟩ := h
      cases cb with
      | write sid' val maxlifetime => cases ret <;> exact ⟨_, rfl⟩
      | _ => cases hwrite

/-- a callback starts that goes on in the stage of its client, or one that ends its section -/
theorem Stage.may.completes (hmay : stage.may sid cb) :
    (stage.completes (.callback cb) = [] ∧ (Act.callback cb).isDestroy = false ∧
      ∀ s, stage.start (.callback cb) = .inside s ↔ stage = .inside s) ∨
    ∃ s s', stage = .inside s ∧ (∀ s, stage.start (.callback cb) ≠ .inside s) ∧
      stage.completes (.callback cb) = [s'] ∧ s'.value = s.value ∧
      ((Act.callback cb).isDestroy = false → s' = s) ∧
      ((Act.callback cb).isDestroy = true → s'.destroyed = true) := by
  cases stage with
  | inside s =>
    cases cb with
    | write => exact .inl ⟨rfl, rfl, fun _ => Iff.rfl⟩
    | destroy => exact .inr ⟨s, _, rfl, nofun, rfl, rfl, nofun, fun _ => rfl⟩
    | close => exact .inr ⟨s, s, rfl, nofun, rfl, rfl, fun _ => rfl, nofun⟩
    | _ => exact hmay.elim
  | _ => cases cb <;> first | exact hmay.elim | exact .inl ⟨rfl, rfl, fun _ => ⟨nofun, nofun⟩⟩

end

/-! ## runs with a record of the sections -/

/-- clients on a server, the stage of each, and the completed sections, the last one first -/
structure Ledger (L : Library) (T : Type) where
  world : Clients L T
  stage : T → Stage T
  done : List (Section T)

section
variable {L : Library} {T : Type}

/-- the stage of a client that ends what it does -/
def Ledger.ended (w : Ledger L T) (t : T) : Stage T :=
  match w.world.phase t with
  | .busy a (.ret client) => (w.stage t).finish t a client
  | _ => w.stage t

theorem Ledger.ended_eq {w : Ledger L T} {t : T} {a : Act} {client : Client L}
    (hphase : w.world.phase t = .busy a (.ret client)) :
    w.ended t = (w.stage t).finish t a client := by
  unfold Ledger.ended
  rw [hphase]

def Ledger.Next [DecidableEq T] (w : Ledger L T) (move : Move T Act Drift) (w' : Ledger L T) :
    Prop :=
  (sessions L T Server.Sure).Next w.world move w'.world ∧
    match move with
    | .start t a => w'.stage = Function.update w.stage t ((w.stage t).start a) ∧
      w'.done = (w.stage t).completes a ++ w.done
    | .finish t => w'.stage = Function.update w.stage t (w.ended t) ∧ w'.done = w.done
    | _ => w'.stage = w.stage ∧ w'.done = w.done

/-- the clients keep to the order of the callbacks, for the one session; no item leaves by itself -/
def Orderly (sid : Bytes) (w : Ledger L T) : Move T Act Drift → Prop
  | .start t (.callback cb) => (w.stage t).may sid cb
  | .start _ (.setIni _) => False
  | .drift (.leave _) => False
  | _ => True

def Ledger.Destroying (w : Ledger L T) (t : T) : Prop :=
  ∃ a p, w.world.phase t = .busy a p ∧ a.isDestroy = true

theorem Ledger.destroying_iff {w : Ledger L T} {t : T} {a : Act} {p : Prog Call Ans (Client L)}
    (hphase : w.world.phase t = .busy a p) : w.Destroying t ↔ a.isDestroy = true := by
  refine ⟨fun ⟨a', p', hphase', ha⟩ => ?_, fun ha => ⟨a, p, hphase, ha⟩⟩
  rw [hphase] at hphase'
  cases hphase'
  exact ha

/-- a client that may change the value -/
def Ledger.Writing (w : Ledger L T) (sid : Bytes) (t : T) : Prop :=
  (∃ s, w.stage t = .inside s) ∨ (w.Destroying t ∧ lockKeyOf sid ∈ owned t w.world.shared)

/-- what carries the record: the client that may change the value has the lock; when none may, the
value is what the sections left -/
structure Ledger.Ok (sid : Bytes) (x₀ : Option Bytes) (w : Ledger L T) : Prop where
  serial : Serial x₀ w.done
  agree : (∀ t, ¬ w.Writing sid t) → stored sid w.world.shared = outcome x₀ w.done
  inside : ∀ t s, w.stage t = .inside s → lockKeyOf sid ∈ owned t w.world.shared ∧
    s.destroyed = false ∧ s.value = (outcome x₀ w.done).getD []
  destroyed : ∀ t, w.Destroying t → lockKeyOf sid ∈ owned t w.world.shared →
    outcome x₀ w.done = none
  idle : ∀ t client, w.world.phase t = .idle client →
    AtRest sid (outcome x₀ w.done) (w.stage t) client (holdOf sid t w.world.shared)
  busy : ∀ t a p, w.world.phase t = .busy a p → (w.stage t).Fits sid a ∧
    p.Keeps (sectionRules sid a) (Ending sid (outcome x₀ w.done) (w.stage t) a)
      (holdOf sid t w.world.shared)

variable {sid : Bytes} {x₀ : Option Bytes} {w w' : Ledger L T} {t u : T}

theorem Ledger.Ok.own (hw : w.Ok sid x₀) (h : w.Writing sid t) :
    lockKeyOf sid ∈ owned t w.world.shared := by
  rcases h with ⟨s, hs⟩ | ⟨-, hown⟩
  · exact (hw.inside t s hs).1
  · exact hown

/-- **One client at most may change the value.** -/
theorem Ledger.Ok.alone (hw : w.Ok sid x₀) (ht : w.Writing sid t) (hu : w.Writing sid u) : t = u :=
  owned_unique (hw.own ht) (hw.own hu)

theorem Ledger.Ok.drift (hw : w.Ok sid x₀) {shared : Server T}
    (hdrift : w.world.shared.drift .tick shared)
    (hworld : w'.world = { w.world with shared := shared }) (hstage : w'.stage = w.stage)
    (hdone : w'.done = w.done) : w'.Ok sid x₀ := by
  obtain rfl : shared = _ := hdrift
  obtain ⟨world, stage, done⟩ := w'
  subst hworld hstage hdone
  exact ⟨hw.serial, hw.agree, hw.inside, hw.destroyed, hw.idle, hw.busy⟩

/-- a request changes the value if its client may; and `PS_DESTROY` gives the lock back when nothing
is stored any more -/
theorem Ledger.Ok.agree_serve (hw : w.Ok sid x₀) {a : Act} {c : Call}
    {k : Ans c → Prog Call Ans (Client L)} {r : Ans c}
    (hphase : w.world.phase t = .busy a (.call c k))
    (hserve : w.world.shared.Sure t c r w'.world.shared)
    (hguard : sectionGuard sid a c (holdOf sid t w.world.shared)) (hstage : w'.stage = w.stage)
    (hdestroying : ∀ u, w'.Destroying u ↔ w.Destroying u)
    (hkept : ∀ u, u ≠ t → (holdOf sid u w.world.shared).Kept (holdOf sid u w'.world.shared))
    (hnone : ∀ u, ¬ w'.Writing sid u) : stored sid w'.world.shared = outcome x₀ w.done := by
  have hfits := (hw.busy t a _ hphase).1
  have hserved := sectionServed_of_sure hserve hguard
  have hwrite : a.isWrite = false := by
    cases ha : a.isWrite with
    | false => rfl
    | true =>
      obtain ⟨s, hs⟩ := hfits.inside_iff.mpr ha
      exact absurd (.inl ⟨s, hstage ▸ hs⟩) (hnone t)
  by_cases hd : a.isDestroy = true ∧ lockKeyOf sid ∈ owned t w.world.shared
  · obtain ⟨ha, hown⟩ := hd
    have hdestroy : w.Destroying t := (Ledger.destroying_iff hphase).mpr ha
    -- the lock is lost: the request is that of `s_unlock_session`
    by_cases hunlock : ∃ key, c = .delete .unlock key
    · obtain ⟨key, rfl⟩ := hunlock
      have hsame := stored_of_sure hserve hguard hwrite nofun
      have hempty : stored sid w.world.shared = none := hguard.2.2.2 ha
      rw [hsame, hempty, hw.destroyed t hdestroy hown]
    · have hown' := hserved.keeps (fun key hc => hunlock ⟨key, hc⟩) hown
      exact absurd (.inr ⟨(hdestroying t).mpr hdestroy, hown'⟩) (hnone t)
  · have hsame := stored_of_sure hserve hguard hwrite fun key hc => by
      subst hc
      exact hd ⟨hguard.2.2, hguard.2.1⟩
    rw [hsame]
    refine hw.agree fun u hu => ?_
    by_cases he : u = t
    · subst he
      rcases hu with hu | ⟨hu, hown⟩
      · rw [hfits.inside_iff.mp hu] at hwrite
        cases hwrite
      · exact hd ⟨(Ledger.destroying_iff hphase).mp hu, hown⟩
    · refine hnone u ?_
      rcases hu with hu | ⟨hu, hown⟩
      · exact .inl (hstage ▸ hu)
      · exact .inr ⟨(hdestroying u).mpr hu, (hkept u he).1.mp hown⟩

variable [DecidableEq T]

/-- a request of a client is served -/
theorem Ledger.Ok.serve (hw : w.Ok sid x₀) {a : Act} {c : Call}
    {k : Ans c → Prog Call Ans (Client L)} {r : Ans c} {shared : Server T}
    (hphase : w.world.phase t = .busy a (.call c k)) (hserve : w.world.shared.Sure t c r shared)
    (hworld : w'.world = ({ w.world with shared := shared } : Clients L T).set t (.busy a (k r)))
    (hstage : w'.stage = w.stage) (hdone : w'.done = w.done) : w'.Ok sid x₀ := by
  have hself : w'.world.phase t = .busy a (k r) := by rw [hworld, World.set_phase_self]
  have hother : ∀ u, u ≠ t → w'.world.phase u = w.world.phase u := fun u hne => by
    rw [hworld, World.set_phase_of_ne hne]
  obtain rfl : w'.world.shared = shared := by rw [hworld, World.set_shared]
  obtain ⟨hfits, hkeeps⟩ := hw.busy t a _ hphase
  obtain ⟨hguard, hk⟩ := hkeeps _ (Hold.Kept.refl _)
  have hserved := sectionServed_of_sure hserve hguard
  have hkept : ∀ u, u ≠ t → (holdOf sid u w.world.shared).Kept (holdOf sid u w'.world.shared) :=
    fun u hne => kept_of_sure hserve hguard hne
  have hdestroying : ∀ u, w'.Destroying u ↔ w.Destroying u := fun u => by
    by_cases he : u = t
    · subst he
      rw [Ledger.destroying_iff hself, Ledger.destroying_iff hphase]
    · unfold Ledger.Destroying
      rw [hother u he]
  -- the client gets the lock in `PS_READ`, and does not give it back in `PS_WRITE`
  have hgets : a.isDestroy = true → lockKeyOf sid ∈ owned t w'.world.shared →
      lockKeyOf sid ∈ owned t w.world.shared := fun ha => by
    refine hserved.had fun key value expiration hc => ?_
    subst hc
    rw [hguard.2.2.2] at ha
    cases ha
  have hholds : a.isWrite = true → lockKeyOf sid ∈ owned t w.world.shared →
      lockKeyOf sid ∈ owned t w'.world.shared := fun ha => by
    refine hserved.keeps fun key hc => ?_
    subst hc
    rw [hguard.2.2.1] at ha
    cases ha
  refine ⟨hdone ▸ hw.serial, fun hnone => ?_, fun u s hs => ?_, fun u hu hown => ?_,
    fun u client hu => ?_, fun u b p hu => ?_⟩
  · rw [hdone]
    exact hw.agree_serve hphase hserve hguard hstage hdestroying hkept hnone
  · rw [hdone]
    obtain ⟨hown, hs'⟩ := hw.inside u s (hstage ▸ hs)
    refine ⟨?_, hs'⟩
    by_cases he : u = t
    · subst he
      exact hholds (hfits.inside_iff.mp ⟨s, hstage ▸ hs⟩) hown
    · exact (hkept u he).1.mp hown
  · rw [hdone]
    have hu' := (hdestroying u).mp hu
    refine hw.destroyed u hu' ?_
    by_cases he : u = t
    · subst he
      exact hgets ((Ledger.destroying_iff hphase).mp hu') hown
    · exact (hkept u he).1.mpr hown
  · have hne : u ≠ t := by
      rintro rfl
      rw [hself] at hu
      cases hu
    rw [hdone, hstage]
    exact (hw.idle u client ((hother u hne).symm.trans hu)).kept (hkept u hne)
  · rw [hdone, hstage]
    by_cases he : u = t
    · subst he
      rw [hself] at hu
      cases hu
      exact ⟨hfits, hk r _ hserved⟩
    · obtain ⟨hfits', hkeeps'⟩ := hw.busy u b p ((hother u he).symm.trans hu)
      exact ⟨hfits', hkeeps'.env (hkept u he)⟩

/-- a client ends what it does -/
theorem Ledger.Ok.finish (hw : w.Ok sid x₀) {a : Act} {client : Client L}
    (hphase : w.world.phase t = .busy a (.ret client))
    (hworld : w'.world = w.world.set t (.idle client))
    (hstage : w'.stage = Function.update w.stage t (w.ended t)) (hdone : w'.done = w.done) :
    w'.Ok sid x₀ := by
  have hself : w'.world.phase t = .idle client := by rw [hworld, World.set_phase_self]
  have hother : ∀ u, u ≠ t → w'.world.phase u = w.world.phase u := fun u hne => by
    rw [hworld, World.set_phase_of_ne hne]
  have hshared : w'.world.shared = w.world.shared := by rw [hworld, World.set_shared]
  have hended : w'.stage t = (w.stage t).finish t a client := by
    rw [hstage, Function.update_self, Ledger.ended_eq hphase]
  have hstage' : ∀ u, u ≠ t → w'.stage u = w.stage u := fun u hne => by
    rw [hstage, Function.update_of_ne hne]
  obtain ⟨hfits, hkeeps⟩ := hw.busy t a _ hphase
  have hending := hkeeps _ (Hold.Kept.refl _)
  have hnot : ¬ w'.Destroying t := fun ⟨b, p, hp, _⟩ => by
    rw [hself] at hp
    cases hp
  -- what the client has read is what the sections left: it has the lock, and no other may write
  have hread : a = .callback (.read sid) → lockKeyOf sid ∈ owned t w.world.shared →
      stored sid w.world.shared = outcome x₀ w.done := fun ha hown => by
    refine hw.agree fun u hu => ?_
    obtain rfl := owned_unique (hw.own hu) hown
    rcases hu with hu | ⟨hu, -⟩
    · have hwrite := hfits.inside_iff.mp hu
      rw [ha] at hwrite
      cases hwrite
    · have hdestroy := (Ledger.destroying_iff hphase).mp hu
      rw [ha] at hdestroy
      cases hdestroy
  refine ⟨hdone ▸ hw.serial, fun hnone => ?_, fun u s hs => ?_, fun u hu hown => ?_,
    fun u client' hu => ?_, fun u b p hu => ?_⟩
  · rw [hshared, hdone]
    by_cases hd : a.isDestroy = true ∧ lockKeyOf sid ∈ owned t w.world.shared
    · have hempty : stored sid w.world.shared = none := hending.nothing_stored hd.1 hd.2
      rw [hempty, hw.destroyed t ((Ledger.destroying_iff hphase).mpr hd.1) hd.2]
    · refine hw.agree fun u hu => ?_
      by_cases he : u = t
      · subst he
        rcases hu with hu | ⟨hu, hown⟩
        · obtain ⟨s, hs⟩ := hfits.finish_inside hu hending u
          exact hnone u (.inl ⟨s, hended.trans hs⟩)
        · exact hd ⟨(Ledger.destroying_iff hphase).mp hu, hown⟩
      · refine hnone u ?_
        unfold Ledger.Writing Ledger.Destroying at hu ⊢
        rw [hstage' u he, hother u he, hshared]
        exact hu
  · rw [hshared, hdone]
    by_cases he : u = t
    · subst he
      exact hending.section_ hfits hread (hw.inside u) (hended.symm.trans hs)
    · exact hw.inside u s ((hstage' u he).symm.trans hs)
  · rw [hdone]
    have hne : u ≠ t := fun he => hnot (he ▸ hu)
    refine hw.destroyed u ?_ (hshared ▸ hown)
    unfold Ledger.Destroying at hu ⊢
    rw [← hother u hne]
    exact hu
  · rw [hshared, hdone]
    by_cases he : u = t
    · subst he
      rw [hself] at hu
      cases hu
      rw [hended]
      exact hending.atRest hfits u hread fun s hs => (hw.inside u s hs).2.1
    · rw [hstage' u he]
      exact hw.idle u client' ((hother u he).symm.trans hu)
  · have hne : u ≠ t := by
      rintro rfl
      rw [hself] at hu
      cases hu
    rw [hshared, hdone, hstage' u hne]
    exact hw.busy u b p ((hother u hne).symm.trans hu)

/-- what is the same where a client starts a callback, and what is new -/
structure Ledger.Started (w w' : Ledger L T) (t : T) (cb : Callback) (client : Client L) :
    Prop where
  phase : w.world.phase t = .idle client
  self : w'.world.phase t = .busy (.callback cb) (Client.code (.callback cb) client)
  other : ∀ u, u ≠ t → w'.world.phase u = w.world.phase u
  shared : w'.world.shared = w.world.shared
  stage : w'.stage t = (w.stage t).start (.callback cb)
  stages : ∀ u, u ≠ t → w'.stage u = w.stage u

omit [DecidableEq T] in
/-- who is idle then was so before, and is another client -/
theorem Ledger.Started.idle {cb : Callback} {client client' : Client L}
    (h : w.Started w' t cb client) (hu : w'.world.phase u = .idle client') :
    u ≠ t ∧ w.world.phase u = .idle client' := by
  have hne : u ≠ t := by
    rintro rfl
    rw [h.self] at hu
    cases hu
  exact ⟨hne, (h.other u hne).symm.trans hu⟩

omit [DecidableEq T] in
theorem Ledger.Started.destroying_iff {cb : Callback} {client : Client L}
    (h : w.Started w' t cb client) (hne : u ≠ t) : w'.Destroying u ↔ w.Destroying u := by
  unfold Ledger.Destroying
  rw [h.other u hne]

omit [DecidableEq T] in
/-- a callback that ends no section -/
theorem Ledger.Ok.goesOn (hw : w.Ok sid x₀) {cb : Callback} {client : Client L}
    (h : w.Started w' t cb client) (hmay : (w.stage t).may sid cb)
    (hdestroy : (Act.callback cb).isDestroy = false)
    (hsame : ∀ s, (w.stage t).start (.callback cb) = .inside s ↔ w.stage t = .inside s)
    (hdone : w'.done = w.done) : w'.Ok sid x₀ := by
  have hkeeps := keeps_section (hw.idle t client h.phase) hmay
  refine ⟨hdone ▸ hw.serial, fun hnone => ?_, fun u s hs => ?_, fun u hu hown => ?_,
    fun u client' hu => ?_, fun u b p hu => ?_⟩
  · rw [h.shared, hdone]
    refine hw.agree fun u hu => hnone u ?_
    by_cases he : u = t
    · subst he
      rcases hu with ⟨s, hs⟩ | ⟨⟨b, p, hp, -⟩, -⟩
      · exact .inl ⟨s, h.stage.trans ((hsame s).mpr hs)⟩
      · rw [h.phase] at hp
        cases hp
    · unfold Ledger.Writing at hu ⊢
      rw [h.stages u he, h.destroying_iff he, h.shared]
      exact hu
  · rw [h.shared, hdone]
    by_cases he : u = t
    · subst he
      exact hw.inside u s ((hsame s).mp (h.stage.symm.trans hs))
    · exact hw.inside u s ((h.stages u he).symm.trans hs)
  · rw [hdone]
    have hne : u ≠ t := by
      rintro rfl
      rw [Ledger.destroying_iff h.self, hdestroy] at hu
      cases hu
    exact hw.destroyed u ((h.destroying_iff hne).mp hu) (h.shared ▸ hown)
  · obtain ⟨hne, hu'⟩ := h.idle hu
    rw [h.shared, hdone, h.stages u hne]
    exact hw.idle u client' hu'
  · rw [h.shared, hdone]
    by_cases he : u = t
    · subst he
      rw [h.self] at hu
      cases hu
      rw [h.stage]
      exact ⟨hmay.fits, hkeeps⟩
    · rw [h.stages u he]
      exact hw.busy u b p ((h.other u he).symm.trans hu)

omit [DecidableEq T] in
/-- `PS_DESTROY` or `PS_CLOSE` in a section: there is no other section, and what this one leaves is
none, or what is stored -/
theorem Ledger.Ok.completes (hw : w.Ok sid x₀) {cb : Callback} {client : Client L}
    (h : w.Started w' t cb client) (hmay : (w.stage t).may sid cb) {s s' : Section T}
    (hs : w.stage t = .inside s) (hleft : ∀ s, (w.stage t).start (.callback cb) ≠ .inside s)
    (hval : s'.value = s.value) (hclose : (Act.callback cb).isDestroy = false → s' = s)
    (hdel : (Act.callback cb).isDestroy = true → s'.destroyed = true)
    (hdone : w'.done = s' :: w.done) : w'.Ok sid x₀ := by
  have hrest := hw.idle t client h.phase
  have hkeeps := keeps_section hrest hmay
  obtain ⟨hown, -, hvalue⟩ := hw.inside t s hs
  have hnone : ∀ u, u ≠ t → ∀ s, w.stage u ≠ .inside s := fun u hne s hu =>
    hne (owned_unique (hw.inside u s hu).1 hown)
  refine ⟨?_, fun hquiet => ?_, fun u s'' hu => ?_, fun u hu hown' => ?_, fun u client' hu => ?_,
    fun u b p hu => ?_⟩
  · rw [hdone]
    exact ⟨hval.trans hvalue, hw.serial⟩
  · rw [hdone, h.shared]
    cases hd : (Act.callback cb).isDestroy with
    | true =>
      refine absurd (.inr ⟨(Ledger.destroying_iff h.self).mpr hd, ?_⟩) (hquiet t)
      exact h.shared ▸ hown
    | false =>
      obtain rfl := hclose hd
      rw [hs] at hrest
      cases client with
      | dead => exact absurd rfl (hrest s')
      | live p past => exact hrest.2.2
  · by_cases he : u = t
    · subst he
      exact absurd (h.stage.symm.trans hu) (hleft s'')
    · exact absurd ((h.stages u he).symm.trans hu) (hnone u he s'')
  · obtain rfl := owned_unique (h.shared ▸ hown') hown
    rw [hdone]
    unfold outcome Section.result
    rw [if_pos (hdel ((Ledger.destroying_iff h.self).mp hu))]
  · obtain ⟨hne, hu'⟩ := h.idle hu
    rw [h.shared, h.stages u hne]
    exact (hw.idle u client' hu').congr (hnone u hne)
  · rw [h.shared]
    by_cases he : u = t
    · subst he
      rw [h.self] at hu
      cases hu
      rw [h.stage]
      exact ⟨hmay.fits, hkeeps.mono fun _ _ h => h.congr hleft⟩
    · rw [h.stages u he]
      obtain ⟨hfits, hkeeps'⟩ := hw.busy u b p ((h.other u he).symm.trans hu)
      exact ⟨hfits, hkeeps'.mono fun _ _ h => h.congr (hnone u he)⟩

/-- a client starts a callback -/
theorem Ledger.Ok.start (hw : w.Ok sid x₀) {cb : Callback} {client : Client L}
    (hphase : w.world.phase t = .idle client) (hmay : (w.stage t).may sid cb)
    (hworld : w'.world =
      w.world.set t (.busy (.callback cb) (Client.code (.callback cb) client)))
    (hstage : w'.stage = Function.update w.stage t ((w.stage t).start (.callback cb)))
    (hdone : w'.done = (w.stage t).completes (.callback cb) ++ w.done) : w'.Ok sid x₀ := by
  have h : w.Started w' t cb client := {
    phase := hphase
    self := by rw [hworld, World.set_phase_self]
    other := fun u hne => by rw [hworld, World.set_phase_of_ne hne]
    shared := by rw [hworld, World.set_shared]
    stage := by rw [hstage, Function.update_self]
    stages := fun u hne => by rw [hstage, Function.update_of_ne hne] }
  rcases hmay.completes with
    ⟨hnothing, hdestroy, hsame⟩ | ⟨s, s', hs, hleft, hone, hval, hclose, hdel⟩
  · rw [hnothing, List.nil_append] at hdone
    exact hw.goesOn h hmay hdestroy hsame hdone
  · rw [hone, List.singleton_append] at hdone
    exact hw.completes h hmay hs hleft hval hclose hdel hdone

/-- one move -/
theorem Ledger.Ok.next (hw : w.Ok sid x₀) {move : Move T Act Drift} (hmove : Orderly sid w move)
    (hnext : w.Next move w') : w'.Ok sid x₀ := by
  obtain ⟨hworld, hrecord⟩ := hnext
  generalize hw₁ : w.world = w₁ at hworld
  generalize hw₂ : w'.world = w₂ at hworld
  cases hworld with
  | @start t a client hphase =>
    cases a with
    | setIni ini => exact hmove.elim
    | callback cb =>
      exact hw.start (hw₁ ▸ hphase) hmove (by rw [hw₂, hw₁]; rfl) hrecord.1 hrecord.2
  | serve hphase hserve =>
    exact hw.serve (hw₁ ▸ hphase) (hw₁ ▸ hserve) (by rw [hw₂, hw₁]) hrecord.1 hrecord.2
  | finish hphase => exact hw.finish (hw₁ ▸ hphase) (by rw [hw₂, hw₁]) hrecord.1 hrecord.2
  | @drift d shared hdrift =>
    cases d with
    | tick => exact hw.drift (hw₁ ▸ hdrift) (by rw [hw₂, hw₁]) hrecord.1 hrecord.2
    | leave key => exact hmove.elim

/-- clients that have not opened a session yet -/
def newLedger (L : Library) (ini : T → Ini) (s : Server T) : Ledger L T where
  world := newClients L ini s
  stage _ := .closed
  done := []

omit [DecidableEq T] in
theorem newLedger_ok (ini : T → Ini) (hon : ∀ t, (ini t).lockEnabled = true) (s : Server T) :
    (newLedger L ini s).Ok sid (stored sid s) where
  serial := trivial
  agree _ := rfl
  inside _ _ := nofun
  destroyed t h _ := by
    obtain ⟨a, p, hp, -⟩ := h
    cases hp
  idle t client ht := by
    cases ht
    exact ⟨.of_unlocked (sound_newProc L (ini t)) (hon t) nofun, rfl⟩
  busy _ _ _ ht := nomatch ht

/-- **No update is lost.**  In every run of any number of clients that lock, each with its own
settings, and keep to the order of the callbacks, on a server from which no item leaves by itself:
one client at most is in a section; each section that is completed read what the one before it left;
and when all sessions are closed, what is stored is what they left. -/
theorem sections_serial (ini : T → Ini) (hon : ∀ t, (ini t).lockEnabled = true) (s₀ : Server T)
    (hrun : Runs Ledger.Next (Orderly sid) (newLedger L ini s₀) w) :
    (∀ t u s s', w.stage t = .inside s → w.stage u = .inside s' → t = u) ∧
      Serial (stored sid s₀) w.done ∧
      ((∀ t, w.stage t = .closed) →
        stored sid w.world.shared = outcome (stored sid s₀) w.done) := by
  have hw : w.Ok sid (stored sid s₀) := hrun.invariant (newLedger_ok ini hon s₀)
    fun _ _ _ hw hmove hnext => hw.next hmove hnext
  refine ⟨fun t u s s' ht hu => hw.alone (.inl ⟨s, ht⟩) (.inl ⟨s', hu⟩), hw.serial,
    fun hclosed => hw.agree fun t ht => ?_⟩
  have hstage := hclosed t
  rcases ht with ⟨s, hs⟩ | ⟨⟨a, p, hp, ha⟩, -⟩
  · rw [hs] at hstage
    cases hstage
  · have hfits := (hw.busy t a p hp).1
    rw [hstage] at hfits
    cases a with
    | setIni ini => cases ha
    | callback cb => cases cb <;> first | exact hfits.elim | cases ha

/-! ## calls without interruption -/

/-- `t`, if it is idle, calls a callback -/
def Ledger.starts (t : T) (cb : Callback) (w : Ledger L T) : Ledger L T :=
  match w.world.phase t with
  | .idle client =>
    ⟨w.world.set t (.busy (.callback cb) (Client.code (.callback cb) client)),
      Function.update w.stage t ((w.stage t).start (.callback cb)),
      (w.stage t).completes (.callback cb) ++ w.done⟩
  | .busy _ _ => w

/-- clients after the requests of `t` in `p`, if all are served -/
def served (v : Clients L T) (t : T) (a : Act) (p : Prog Call Ans (Client L)) : Clients L T :=
  let after := p.run (fun c s => s.answer t goodFate c) v.shared
  ({ v with shared := after.2 } : Clients L T).set t (.busy a (.ret after.1))

/-- the requests of `t`, and it returns -/
def Ledger.returns (t : T) (w : Ledger L T) : Ledger L T :=
  match w.world.phase t with
  | .busy a p =>
    let client := (p.run (fun c s => s.answer t goodFate c) w.world.shared).1
    ⟨(served w.world t a p).set t (.idle client),
      Function.update w.stage t ((w.stage t).finish t a client), w.done⟩
  | .idle _ => w

def Ledger.call (t : T) (cb : Callback) (w : Ledger L T) : Ledger L T := (w.starts t cb).returns t

omit [DecidableEq T] in
theorem sure_good (t : T) (c : Call) (s : Server T) :
    s.Sure t c (s.answer t goodFate c).1 (s.answer t goodFate c).2 := by
  refine ⟨goodFate, rfl, ?_⟩
  cases c with
  | set => exact fun _ => nofun
  | delete by_ => cases by_ <;> trivial
  | _ => trivial

variable {ok : Ledger L T → Move T Act Drift → Prop} {w₀ : Ledger L T}

/-- the requests of a client, one after the other, by induction on its program -/
theorem Ledger.runs_served (hserve : ∀ w, ok w (.serve t)) {a : Act} (p : Prog Call Ans (Client L))
    (hrun : Runs Ledger.Next ok w₀ w) (hphase : w.world.phase t = .busy a p) :
    Runs Ledger.Next ok w₀ ⟨served w.world t a p, w.stage, w.done⟩ := by
  induction p generalizing w with
  | ret client =>
    have hsame : w.world.set t (.busy a (.ret client)) = w.world := by
      unfold World.set
      rw [← hphase, Function.update_eq_self]
    show Runs Ledger.Next ok w₀ ⟨w.world.set t (.busy a (.ret client)), w.stage, w.done⟩
    rw [hsame]
    exact hrun
  | call c k ih =>
    have hnext : w.Next (.serve t) ⟨({ w.world with
        shared := (w.world.shared.answer t goodFate c).2 } : Clients L T).set t
          (.busy a (k (w.world.shared.answer t goodFate c).1)), w.stage, w.done⟩ :=
      ⟨.serve hphase (sure_good t c w.world.shared), rfl, rfl⟩
    have hlast := ih _ (hrun.snoc (hserve w) hnext) World.set_phase_self
    unfold served at hlast
    dsimp only at hlast
    rw [World.set_set] at hlast
    exact hlast

theorem Ledger.runs_call (t : T) (cb : Callback) (hstart : ok w (.start t (.callback cb)))
    (hserve : ∀ w, ok w (.serve t)) (hfinish : ∀ w, ok w (.finish t))
    (hrun : Runs Ledger.Next ok w₀ w) : Runs Ledger.Next ok w₀ (w.call t cb) := by
  have hstarted : Runs Ledger.Next ok w₀ (w.starts t cb) := by
    unfold Ledger.starts
    split
    · rename_i hphase
      exact hrun.snoc hstart ⟨.start hphase, rfl, rfl⟩
    · exact hrun
  unfold Ledger.call Ledger.returns
  split
  · rename_i a p hphase
    have hserved := Ledger.runs_served hserve p hstarted hphase
    refine hserved.snoc (hfinish _) ⟨.finish World.set_phase_self, ?_, rfl⟩
    rw [Ledger.ended_eq World.set_phase_self]
  · exact hstarted

end

/-- two clients on a server without items -/
def twoLedgers : Ledger plainLibrary Bool :=
  newLedger plainLibrary (fun _ => iniDefaults) (emptyServer Bool)

/-- `true` has opened, read and written the session `a` -/
def writtenOnce : Ledger plainLibrary Bool :=
  ((twoLedgers.call true (.open_ (ascii ['h']))).call true (.read (ascii ['a']))).call true
    (.write (ascii ['a']) (ascii ['v']) 0)

/-- `false` cannot read it, destroys it, and closes it after `true` has -/
def destroyedUnread : Ledger plainLibrary Bool :=
  ((((writtenOnce.call false (.open_ (ascii ['h']))).call false (.read (ascii ['a']))).call false
    (.destroy (ascii ['a']))).call true .close).call false .close

/-- the order of the callbacks, or a `PS_DESTROY` after a `PS_READ` that failed -/
def OrderlyOrFailed (sid : Bytes) (w : Ledger plainLibrary Bool) (move : Move Bool Act Drift) :
    Prop :=
  Orderly sid w move ∨ ∃ t, move = .start t (.callback (.destroy sid)) ∧ w.stage t = .failed

/-- `PS_DESTROY` does not look at the lock: it deletes what a section has written that is not its
client's -/
theorem destroy_unread : ∃ w : Ledger plainLibrary Bool,
    Runs Ledger.Next (OrderlyOrFailed (ascii ['a'])) twoLedgers w ∧
      (∀ t, ∃ client, w.world.phase t = .idle client) ∧ (∀ t, w.stage t = .closed) ∧
      ¬ ∃ l, l.Perm w.done ∧ Serial (stored (ascii ['a']) (emptyServer Bool)) l ∧
        stored (ascii ['a']) w.world.shared =
          outcome (stored (ascii ['a']) (emptyServer Bool)) l := by
  have hcall : ∀ {w : Ledger plainLibrary Bool} (t : Bool) (cb : Callback),
      Runs Ledger.Next (OrderlyOrFailed (ascii ['a'])) twoLedgers w →
      OrderlyOrFailed (ascii ['a']) w (.start t (.callback cb)) →
      Runs Ledger.Next (OrderlyOrFailed (ascii ['a'])) twoLedgers (w.call t cb) :=
    fun t cb hrun hstart =>
      Ledger.runs_call t cb hstart (fun _ => .inl trivial) (fun _ => .inl trivial) hrun
  have hopened := hcall true (.open_ (ascii ['h'])) .refl (.inl trivial)
  have hread := hcall true (.read (ascii ['a'])) hopened (.inl rfl)
  have hwritten := hcall true (.write (ascii ['a']) (ascii ['v']) 0) hread (.inl rfl)
  have hopened' := hcall false (.open_ (ascii ['h'])) hwritten (.inl trivial)
  have hfailed := hcall false (.read (ascii ['a'])) hopened' (.inl rfl)
  have hdestroyed := hcall false (.destroy (ascii ['a'])) hfailed (.inr ⟨false, rfl, rfl⟩)
  have hclosed := hcall true .close hdestroyed (.inl trivial)
  refine ⟨destroyedUnread, hcall false .close hclosed (.inl trivial), ?_, ?_, ?_⟩
  · exact fun t => by cases t <;> exact ⟨_, rfl⟩
  · exact fun t => by cases t <;> rfl
  · rintro ⟨l, hperm, -, hstored⟩
    have hdone : destroyedUnread.done = [⟨true, [], [ascii ['v']], false⟩] := rfl
    rw [hdone] at hperm
    obtain rfl := List.perm_singleton.mp hperm
    cases hstored

/-- `true` closes the session it has written, and then `false` reads it -/
def readAgain : Ledger plainLibrary Bool :=
  (((writtenOnce.call true .close).call false (.open_ (ascii ['h']))).call false
    (.read (ascii ['a']))).call false .close

theorem sections_serial_twice : Serial none readAgain.done ∧
    stored (ascii ['a']) readAgain.world.shared = outcome none readAgain.done := by
  have hcall : ∀ {w : Ledger plainLibrary Bool} (t : Bool) (cb : Callback),
      Runs Ledger.Next (Orderly (ascii ['a'])) twoLedgers w → (w.stage t).may (ascii ['a']) cb →
      Runs Ledger.Next (Orderly (ascii ['a'])) twoLedgers (w.call t cb) :=
    fun t cb hrun hmay => Ledger.runs_call t cb hmay (fun _ => trivial) (fun _ => trivial) hrun
  have hopened := hcall true (.open_ (ascii ['h'])) .refl trivial
  have hread := hcall true (.read (ascii ['a'])) hopened rfl
  have hwritten := hcall true (.write (ascii ['a']) (ascii ['v']) 0) hread rfl
  have hclosed := hcall true .close hwritten trivial
  have hopened' := hcall false (.open_ (ascii ['h'])) hclosed trivial
  have hread' := hcall false (.read (ascii ['a'])) hopened' rfl
  obtain ⟨-, hserial, hstored⟩ := sections_serial (fun _ => iniDefaults) (fun _ => rfl)
    (emptyServer Bool) (hcall false .close hread' trivial)
  exact ⟨hserial, hstored fun t => by cases t <;> rfl⟩

end PhpMemcached.Session
