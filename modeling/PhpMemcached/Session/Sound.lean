import PhpMemcached.Session.Handles

/-!
# The handles of a process

* `Sound`              the module data and the persistent list have no freed handle; the handles that
                       are listed are persistent, each under one key;
* `Sound.effect`       every callback keeps this;
* `Process`, `Turn`    a process whose INI values change between callbacks, and its steps.
-/

namespace PhpMemcached.Session
open Ascii Requests

structure Sound {L : Library} (p : Proc L) : Prop where
  modData : ∀ h, p.modData = some h → ∃ memc, p.memory h = some memc
  listed : ∀ key h, p.persistentList key = some (.memc h) →
    ∃ memc, p.memory h = some memc ∧ memc.userData.isPersistent = true
  distinct : ∀ key key' h, p.persistentList key = some (.memc h) →
    p.persistentList key' = some (.memc h) → key = key'
  fresh : ∀ h, p.made ≤ h → p.memory h = none

section
variable {L : Library} {p p' p₁ : Proc L} {cb : Callback} {ret : Ret} {h h' : Nat}
  {memc memc' : Memc L} {key savePath : Bytes} {persistent : Bool}

theorem Sound.live (hp : Sound p) : ∀ key h, p.persistentList key = some (.memc h) →
    ∃ m, p.memory h = some m := fun key h hl => by
  obtain ⟨memc, hm, -⟩ := hp.listed key h hl
  exact ⟨memc, hm⟩

theorem Sound.lt_made (hp : Sound p) (hm : p.memory h = some memc) : h < p.made := by
  refine Nat.lt_of_not_le fun hle => ?_
  rw [hp.fresh h hle] at hm
  cases hm

/-- a handle is changed, but as persistent as before -/
theorem Sound.store (hp : Sound p) (hm : p.memory h = some memc)
    (hper : memc'.userData.isPersistent = memc.userData.isPersistent) :
    Sound (p.store h (some memc')) where
  modData h' hmod := by
    by_cases he : h' = h
    · subst he
      exact ⟨memc', store_memory_self _ _ _⟩
    · rw [store_memory_of_ne p _ he]
      exact hp.modData h' hmod
  listed key h' hl := by
    obtain ⟨m, hm', hper'⟩ := hp.listed key h' hl
    by_cases he : h' = h
    · subst he
      obtain rfl := Option.some.inj (hm.symm.trans hm')
      exact ⟨memc', store_memory_self _ _ _, hper.trans hper'⟩
    · exact ⟨m, (store_memory_of_ne p _ he).trans hm', hper'⟩
  distinct := hp.distinct
  fresh h' hle := by
    have hne : h' ≠ h := fun he => Nat.lt_irrefl _ (Nat.lt_of_lt_of_le (hp.lt_made hm) (he ▸ hle))
    rw [store_memory_of_ne p _ hne]
    exact hp.fresh h' hle

theorem Sound.setModData (hp : Sound p) {h : Option Nat}
    (hm : ∀ h', h = some h' → ∃ memc, p.memory h' = some memc) :
    Sound ({ p with modData := h } : Proc L) where
  modData := hm
  listed := hp.listed
  distinct := hp.distinct
  fresh := hp.fresh

/-- a handle that is not listed, and is not that of the session, is destroyed -/
theorem Sound.destroy (hp : Sound p) (hmod : p.modData ≠ some h)
    (hlist : ∀ key, p.persistentList key ≠ some (.memc h)) : Sound (p.store h none) where
  modData h' hm' := by
    have hne : h' ≠ h := fun he => hmod (he ▸ hm')
    rw [store_memory_of_ne p _ hne]
    exact hp.modData h' hm'
  listed key h' hl := by
    have hne : h' ≠ h := fun he => hlist key (he ▸ hl)
    rw [store_memory_of_ne p _ hne]
    exact hp.listed key h' hl
  distinct := hp.distinct
  fresh h' hle := by
    by_cases he : h' = h
    · subst he
      exact store_memory_self _ _ _
    · rw [store_memory_of_ne p _ he]
      exact hp.fresh h' hle

theorem Sound.relocks (hp : Sound p) (hr : Relocks h p p') : Sound p' := by
  rcases hr with rfl | ⟨memc, isLocked, lockKey, hm, rfl⟩
  · exact hp
  · exact hp.store hm rfl

theorem withEntry_iff {entry : Option Resource} (key' : Bytes) :
    (p.withEntry key entry).persistentList key' = some (.memc h) ↔
      (key' = key ∧ entry = some (.memc h)) ∨
        (key' ≠ key ∧ p.persistentList key' = some (.memc h)) := by
  show Function.update p.persistentList key entry key' = _ ↔ _
  by_cases he : key' = key
  · subst he
    rw [Function.update_self]
    simp only [true_and, ne_eq, not_true_eq_false, false_and, or_false]
  · rw [Function.update_of_ne he]
    simp only [he, false_and, ne_eq, not_false_eq_true, true_and, false_or]

/-- an entry is set to nothing, or to a persistent handle that is not listed -/
theorem Sound.withEntry (hp : Sound p) (key : Bytes) {entry : Option Resource}
    (hnew : ∀ h, entry = some (.memc h) → (∀ key', p.persistentList key' ≠ some (.memc h)) ∧
      ∃ memc, p.memory h = some memc ∧ memc.userData.isPersistent = true) :
    Sound (p.withEntry key entry) where
  modData := hp.modData
  listed key' h hl := by
    rcases (withEntry_iff _).mp hl with ⟨-, he⟩ | ⟨-, hl'⟩
    · exact (hnew h he).2
    · exact hp.listed key' h hl'
  distinct key₁ key₂ h h₁ h₂ := by
    rcases (withEntry_iff _).mp h₁ with ⟨rfl, he⟩ | ⟨-, h₁'⟩
    · rcases (withEntry_iff _).mp h₂ with ⟨rfl, -⟩ | ⟨-, h₂'⟩
      · rfl
      · exact absurd h₂' ((hnew h he).1 key₂)
    · rcases (withEntry_iff _).mp h₂ with ⟨rfl, he⟩ | ⟨-, h₂'⟩
      · exact absurd h₁' ((hnew h he).1 key₁)
      · exact hp.distinct key₁ key₂ h h₁' h₂'
  fresh := hp.fresh

/-- one handle more, which is not listed -/
theorem Sound.create (hp : Sound p) (m : Option (Memc L)) : Sound (p.create m) := by
  have hold : ∀ h memc, p.memory h = some memc → (p.create m).memory h = some memc :=
    fun h memc hm => (store_memory_of_ne p m (Nat.ne_of_lt (hp.lt_made hm))).trans hm
  exact {
    modData := fun h hmod => by
      obtain ⟨memc, hm⟩ := hp.modData h hmod
      exact ⟨memc, hold h memc hm⟩
    listed := fun key h hl => by
      obtain ⟨memc, hm, hper⟩ := hp.listed key h hl
      exact ⟨memc, hold h memc hm, hper⟩
    distinct := hp.distinct
    fresh := fun h hle => by
      have hle' : p.made + 1 ≤ h := hle
      have hne : h ≠ p.made := by omega
      exact (store_memory_of_ne p m hne).trans (hp.fresh h (by omega)) }

theorem Sound.made_unlisted (hp : Sound p) (m : Option (Memc L)) (key : Bytes) :
    (p.create m).persistentList key ≠ some (.memc p.made) := fun hl => by
  obtain ⟨memc, hm⟩ := hp.live key p.made hl
  exact Nat.lt_irrefl _ (hp.lt_made hm)

/-- an entry goes, with its handle -/
theorem Sound.dropEntry (hp : Sound p) (hmod : p.modData ≠ some h)
    (hl : p.persistentList key = some (.memc h)) : Sound (p.dropEntry key h) := by
  have hunlisted : Sound (p.withEntry key none) := hp.withEntry key nofun
  refine hunlisted.destroy hmod fun key' hl' => ?_
  rcases (withEntry_iff _).mp hl' with ⟨-, he⟩ | ⟨hne, hl''⟩
  · cases he
  · exact hne (hp.distinct key' key h hl'' hl)

theorem Sound.opensNew (hp : Sound p) (h : OpensNew persistent key p ret p') : Sound p' := by
  cases h with
  | failed => exact (hp.create none).setModData nofun
  | @opened verifyKey memc hconf =>
    have hcreate := hp.create (some memc)
    have hmade : (p.create (some memc)).memory p.made = some memc := store_memory_self _ _ _
    refine Sound.setModData ?_ fun h' he => ?_
    · cases persistent with
      | false => exact hcreate
      | true =>
        refine hcreate.withEntry key fun h' he => ?_
        cases he
        exact ⟨hp.made_unlisted _, memc, hmade, hconf.isPersistent⟩
    · cases he
      cases persistent with
      | false => exact ⟨memc, hmade⟩
      | true => exact ⟨memc, hmade⟩

/-- the module data that are overwritten do not matter -/
theorem OpensNew.forget_modData (h : OpensNew persistent key p ret p') :
    OpensNew persistent key { p with modData := none } ret p' := by
  cases h with
  | failed => exact .failed
  | opened hconf =>
    cases persistent with
    | false => exact .opened hconf
    | true => exact .opened hconf

theorem Sound.opens (hp : Sound p) (h : Opens savePath p ret p') : Sound p' := by
  cases h with
  | refused => exact hp.setModData nofun
  | @reused h memc memc' hper hl hm hconf =>
    refine (hp.store hm hconf.isPersistent).setModData fun h' he => ?_
    cases he
    exact ⟨memc', store_memory_self _ _ _⟩
  | @new p₁ _ _ hfrom hnew =>
    -- the module data are overwritten: they may be taken to be none before
    have hnone : Sound ({ p with modData := none } : Proc L) := hp.setModData nofun
    refine Sound.opensNew ?_ hnew.forget_modData
    rcases hfrom with rfl | ⟨h, -, hl, rfl⟩
    · exact hnone
    · exact hnone.dropEntry nofun hl

/-- **Every callback keeps the handles sound.** -/
theorem Sound.effect (hp : Sound p) (h : Effect p cb ret p') : Sound p' := by
  cases h with
  | open_ ho => exact hp.opens ho
  | @close h p₁ memc hmod hr hm =>
    have hp₁ := hp.relocks hr
    cases hper : memc.userData.isPersistent with
    | true => exact hp₁.setModData nofun
    | false =>
      have hnone : Sound ({ p₁ with modData := none } : Proc L) := hp₁.setModData nofun
      refine hnone.destroy nofun fun key hl => ?_
      obtain ⟨memc', hm', hper'⟩ := hp₁.listed key h hl
      obtain rfl := Option.some.inj (hm.symm.trans hm')
      rw [hper] at hper'
      cases hper'
  | relock _ hr => exact hp.relocks hr
  | none => exact hp

end

theorem sound_newProc (L : Library) (ini : Ini) : Sound (newProc L ini) where
  modData := nofun
  listed := nofun
  distinct := nofun
  fresh _ _ := rfl

end PhpMemcached.Session
