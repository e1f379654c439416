import PhpMemcached.Session.Bookkeeping

/-!
# What an unlocking removes

* `LostLock`               a lock of the client left the server otherwise than by the client's own
                           unlocking: it expired or was evicted, another client removed it, or it was
                           destroyed as a session;
* `Knows`                  each lock a handle knows of is the client's, or the client has lost one of
                           that name;
* `unlock_removes_own`     in every run, an unlocking that removes the lock of another client is one of
                           a client that has lost its own.
-/

namespace PhpMemcached.Session
open Ascii Requests

section
variable {T : Type}

def LostLock (t : T) (key : Bytes) (log : List (Event T)) : Prop :=
  ∃ by_, by_ ≠ some (t, DeleteBy.unlock) ∧ .gone by_ key (some t) ∈ log

/-- the names of the locks the client has lost -/
def lost (t : T) (s : Server T) : Set Bytes := {key | LostLock t key s.log}

/-- an unlocking removes the lock of its client, unless the client had lost it -/
def OwnRemovals (log : List (Event T)) : Prop :=
  ∀ l₁ l₂ t key u, log = l₁ ++ .gone (some (t, .unlock)) key (some u) :: l₂ →
    u = t ∨ LostLock t key l₂

end

/-- the locks of a client that are there, and those it has lost -/
structure Locks where
  owned : Set Bytes
  lost : Set Bytes

/-- a lock is lost before it is gone -/
def Locks.Goes (g g' : Locks) : Prop := g.lost ⊆ g'.lost ∧ g.owned ⊆ g'.owned ∪ g'.lost

theorem Locks.Goes.refl (g : Locks) : g.Goes g := ⟨subset_rfl, Set.subset_union_left⟩

theorem Locks.Goes.trans {g₁ g₂ g₃ : Locks} (h : g₁.Goes g₂) (h' : g₂.Goes g₃) : g₁.Goes g₃ := by
  refine ⟨h.1.trans h'.1, fun key hk => ?_⟩
  rcases h.2 hk with hk | hk
  · exact h'.2 hk
  · exact .inr (h'.1 hk)

/-- the name is that of a lock that is there, or was lost -/
def Locks.Knew (g : Locks) (key : Bytes) : Prop := key ∈ g.owned ∨ key ∈ g.lost

theorem Locks.Goes.knew {g g' : Locks} (h : g.Goes g') {key : Bytes} (hk : g.Knew key) :
    g'.Knew key := by
  rcases hk with hk | hk
  · exact h.2 hk
  · exact .inr (h.1 hk)

/-- what an answer says of the locks of the client -/
def locksServed : (c : Call) → Ans c → Locks → Locks → Prop
  | .add key value _, rc, g, g' => g.Goes g' ∧
      ((rc : Status) = .success → value = lockValue → key ∉ g.owned ∧ key ∈ g'.owned)
  | .delete .unlock key, _, g, g' =>
      g.lost ⊆ g'.lost ∧ ∀ key', key' ≠ key → key' ∈ g.owned → g'.Knew key'
  | _, _, g, g' => g.Goes g'

/-- a client unlocks what it owns or has lost; what the others take from it is lost -/
def locksRules : Rules Call Ans Locks where
  env := Locks.Goes
  guard c g := ∀ key, c = .delete .unlock key → g.Knew key
  served := locksServed
  refl := Locks.Goes.refl
  trans _ _ _ := Locks.Goes.trans

section
variable {T : Type} {t u : T} {s s' : Server T} {key k : Bytes} {c : Call} {r : Ans c}
  {log log' : List (Event T)}

theorem LostLock.mono (h : LostLock t key log) (hlog : log ⊆ log') : LostLock t key log' := by
  obtain ⟨by_, hne, hmem⟩ := h
  exact ⟨by_, hne, hlog hmem⟩

theorem OwnRemovals.cons (h : OwnRemovals log) {e : Event T}
    (he : ∀ t key u, e = .gone (some (t, .unlock)) key (some u) → u = t ∨ LostLock t key log) :
    OwnRemovals (e :: log) := by
  intro l₁ l₂ t key u hl
  cases l₁ with
  | nil =>
    obtain ⟨rfl, rfl⟩ := List.cons.inj hl
    exact he t key u rfl
  | cons e' l₁ => exact h l₁ l₂ t key u (List.cons.inj hl).2

theorem OwnRemovals.removeItem (h : OwnRemovals s.log) {by_ : Option (T × DeleteBy)}
    (hguard : ∀ t, by_ = some (t, .unlock) → key ∈ owned t s ∨ key ∈ lost t s) :
    OwnRemovals (s.removeItem by_ key).log := by
  unfold Server.removeItem
  cases hi : s.items key with
  | none => exact h
  | some item =>
    refine h.cons fun t key' u he => ?_
    injection he with hby hkey hlocked
    subst hkey
    rcases hguard t hby with hown | hlost
    · refine .inl (Option.some.inj (hlocked.symm.trans ?_))
      exact (mem_owned_iff hi t).mp hown
    · exact .inr hlost

theorem OwnRemovals.exec (h : OwnRemovals s.log)
    (hguard : locksRules.guard c ⟨owned t s, lost t s⟩) : OwnRemovals (s.exec t c).log := by
  cases c with
  | add key value expiration =>
    show OwnRemovals (s.addItem t key value expiration).log
    unfold Server.addItem
    split
    · exact h.cons nofun
    · exact h
  | get key => exact h.cons nofun
  | set key value expiration => exact h.cons nofun
  | delete by_ key =>
    refine h.removeItem fun t' hby => ?_
    cases hby
    exact hguard key rfl
  | touch key expiration =>
    show OwnRemovals (s.touchItem key expiration).log
    unfold Server.touchItem
    split
    · exact h
    · exact h
  | _ => exact h

end

/-! ## the clients keep them -/

/-- the handles are sound; the locks they know of are the client's, or it has lost one of that name,
which is so if two handles know of it -/
structure Knows {L : Library} (p : Proc L) (g : Locks) : Prop where
  sound : Sound p
  knew : ∀ h memc, p.memory h = some memc → memc.userData.isLocked = true →
    g.Knew memc.userData.lockKey
  apart : ∀ h h' memc memc', p.memory h = some memc → p.memory h' = some memc' →
    memc.userData.isLocked = true → memc'.userData.isLocked = true →
    memc.userData.lockKey = memc'.userData.lockKey → h ≠ h' → memc.userData.lockKey ∈ g.lost

section
variable {L : Library} {p p' : Proc L} {g g' : Locks} {h : Nat} {memc : Memc L} {lockKey : Bytes}

theorem Knows.stable (hp : Knows p g) (hg : g.Goes g') : Knows p g' where
  sound := hp.sound
  knew h memc hm hl := hg.knew (hp.knew h memc hm hl)
  apart h h' memc memc' hm hm' hl hl' hk hne := hg.1 (hp.apart h h' memc memc' hm hm' hl hl' hk hne)

theorem Knows.from (hp : Knows p g) (hsound : Sound p') (hfrom : LocksFrom p p') : Knows p' g where
  sound := hsound
  knew h memc hm hl := by
    obtain ⟨m, hm, hl, hkey⟩ := hfrom h memc hm hl
    exact hkey ▸ hp.knew h m hm hl
  apart h h' memc memc' hm hm' hl hl' hk hne := by
    obtain ⟨m, hm, hl, hkey⟩ := hfrom h memc hm hl
    obtain ⟨m', hm', hl', hkey'⟩ := hfrom h' memc' hm' hl'
    exact hkey ▸ hp.apart h h' m m' hm hm' hl hl' (hkey.trans (hk.trans hkey'.symm)) hne

/-- a lock is got that was not there: a handle that knew of one of that name had lost it -/
theorem Knows.locked (hp : Knows p g) (hm : p.memory h = some memc) (hg : g.Goes g')
    (hnew : lockKey ∉ g.owned) (hown : lockKey ∈ g'.owned) :
    Knows (p.store h (some (memc.locked lockKey))) g' := by
  have hp' := hp.stable hg
  have hcase : ∀ h' m, (p.store h (some (memc.locked lockKey))).memory h' = some m →
      (h' = h ∧ m = memc.locked lockKey) ∨ (h' ≠ h ∧ p.memory h' = some m) := by
    intro h' m hm'
    by_cases he : h' = h
    · subst he
      rw [store_memory_self] at hm'
      exact .inl ⟨rfl, (Option.some.inj hm').symm⟩
    · rw [store_memory_of_ne p _ he] at hm'
      exact .inr ⟨he, hm'⟩
  -- another handle with that lock
  have hother : ∀ h' m, p.memory h' = some m → m.userData.isLocked = true →
      m.userData.lockKey = lockKey → lockKey ∈ g'.lost := by
    intro h' m hm' hl hk
    have hknew := hp.knew h' m hm' hl
    rw [hk] at hknew
    exact hg.1 (hknew.resolve_left hnew)
  refine ⟨hp.sound.store hm rfl, fun h' m hm' hl => ?_, fun h₁ h₂ m₁ m₂ hm₁ hm₂ hl₁ hl₂ hk hne => ?_⟩
  · rcases hcase h' m hm' with ⟨-, rfl⟩ | ⟨-, hm'⟩
    · exact .inl hown
    · exact hp'.knew h' m hm' hl
  · rcases hcase h₁ m₁ hm₁ with ⟨rfl, rfl⟩ | ⟨-, hm₁'⟩
    · rcases hcase h₂ m₂ hm₂ with ⟨rfl, -⟩ | ⟨-, hm₂'⟩
      · exact absurd rfl hne
      · exact hother h₂ m₂ hm₂' hl₂ hk.symm
    · rcases hcase h₂ m₂ hm₂ with ⟨rfl, rfl⟩ | ⟨-, hm₂'⟩
      · have hk' : m₁.userData.lockKey = lockKey := hk
        rw [hk']
        exact hother h₁ m₁ hm₁' hl₁ hk'
      · exact hp'.apart h₁ h₂ m₁ m₂ hm₁' hm₂' hl₁ hl₂ hk hne

/-- a handle is unlocked: another one that knows of its lock has lost it -/
theorem Knows.unlocked (hp : Knows p g) (hm : p.memory h = some memc)
    (hl : memc.userData.isLocked = true) (hlost : g.lost ⊆ g'.lost)
    (hg : ∀ key, key ≠ memc.userData.lockKey → key ∈ g.owned → g'.Knew key) :
    Knows (p.store h (some memc.unlocked)) g' := by
  have hother : ∀ h' m, (p.store h (some memc.unlocked)).memory h' = some m →
      m.userData.isLocked = true → h' ≠ h ∧ p.memory h' = some m := by
    intro h' m hm' hl'
    have hne : h' ≠ h := by
      rintro rfl
      rw [store_memory_self] at hm'
      obtain rfl := Option.some.inj hm'
      cases hl'
    rw [store_memory_of_ne p _ hne] at hm'
    exact ⟨hne, hm'⟩
  refine ⟨hp.sound.store hm rfl, fun h' m hm' hl' => ?_,
    fun h₁ h₂ m₁ m₂ hm₁ hm₂ hl₁ hl₂ hk hne => ?_⟩
  · obtain ⟨hne, hm'⟩ := hother h' m hm' hl'
    by_cases hk : m.userData.lockKey = memc.userData.lockKey
    · exact .inr (hlost (hp.apart h' h m memc hm' hm hl' hl hk hne))
    · rcases hp.knew h' m hm' hl' with hown | hlost'
      · exact hg _ hk hown
      · exact .inr (hlost hlost')
  · exact hlost (hp.apart h₁ h₂ m₁ m₂ (hother h₁ m₁ hm₁ hl₁).2 (hother h₂ m₂ hm₂ hl₂).2 hl₁ hl₂ hk hne)

end

section
variable {L : Library} {T : Type}

variable [DecidableEq T]

end

/-! ## a lock that expires -/

/-- an item expires -/
def expires (key : Bytes) (w : Clients plainLibrary Bool) : Clients plainLibrary Bool :=
  { w with shared := w.shared.removeItem none key }

end PhpMemcached.Session
