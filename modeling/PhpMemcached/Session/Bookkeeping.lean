import PhpMemcached.Session.Lock
import Mathlib.Order.BooleanAlgebra.Set

/-!
# Which locks a connection owns

* `owned`             the lock items a client has on the server;
* `ownerRules`        what a client may do about them: it unlocks what it owns;
* `Held`              the locks a process knows of are its own, each of one handle;
* `Exact`             the process has one lock, that of its module data, and knows of it;
* `lock_bookkeeping`  in runs in which no session is locked over another one, a connection owns the
                      lock of the session it has read, and none after it is closed.
-/

namespace PhpMemcached.Session
open Ascii Requests

section
variable {T : Type}

def owned (t : T) (s : Server T) : Set Bytes :=
  {key | ∃ item, s.items key = some item ∧ item.lockedBy = some t}

end

section
variable {T : Type} {t u : T} {s s' : Server T} {key : Bytes} {c : Call} {r : Ans c}

theorem mem_owned_put {item : Option (Item T)} {k : Bytes} :
    k ∈ owned u (s.put key item) ↔
      (k = key ∧ ∃ i, item = some i ∧ i.lockedBy = some u) ∨ (k ≠ key ∧ k ∈ owned u s) := by
  show (∃ i, Function.update s.items key item k = some i ∧ _) ↔ _
  by_cases hk : k = key
  · subst hk
    rw [Function.update_self]
    simp only [true_and, ne_eq, not_true_eq_false, false_and, or_false]
  · rw [Function.update_of_ne hk]
    simp only [hk, false_and, ne_eq, not_false_eq_true, true_and, false_or]
    exact Iff.rfl

/-- an item that becomes another one of the same lock -/
theorem owned_put_same {item : Item T}
    (hlock : ∀ u, item.lockedBy = some u ↔ key ∈ owned u s) (u : T) :
    owned u (s.put key (some item)) = owned u s := by
  ext k
  rw [mem_owned_put]
  constructor
  · rintro (⟨rfl, i, hi, hl⟩ | ⟨-, hk⟩)
    · obtain rfl := Option.some.inj hi
      exact (hlock u).mp hl
    · exact hk
  · intro hk
    by_cases he : k = key
    · subst he
      exact .inl ⟨rfl, item, rfl, (hlock u).mpr hk⟩
    · exact .inr ⟨he, hk⟩

theorem not_mem_owned (hi : s.items key = none) (u : T) : key ∉ owned u s := by
  rintro ⟨item, hi', -⟩
  rw [hi] at hi'
  cases hi'

theorem mem_owned_iff {item : Item T} (hi : s.items key = some item) (u : T) :
    key ∈ owned u s ↔ item.lockedBy = some u := by
  constructor
  · rintro ⟨item', hi', hl⟩
    obtain rfl := Option.some.inj (hi.symm.trans hi')
    exact hl
  · exact fun hl => ⟨item, hi, hl⟩

/-- a lock has one owner -/
theorem owned_unique (ht : key ∈ owned t s) (hu : key ∈ owned u s) : t = u := by
  obtain ⟨item, hi, hl⟩ := ht
  have hl' := (mem_owned_iff hi u).mp hu
  exact Option.some.inj (hl.symm.trans hl')

theorem owned_setItem (t : T) (key value : Bytes) (expiration : Int64) (s : Server T) (u : T) :
    owned u (s.setItem t key value expiration) = owned u s := by
  refine owned_put_same (fun u => ?_) u
  show (s.items key).bind Item.lockedBy = some u ↔ _
  cases hi : s.items key with
  | none => exact ⟨nofun, fun hk => absurd hk (not_mem_owned hi u)⟩
  | some item => exact (mem_owned_iff hi u).symm

theorem owned_removeItem (by_ : Option (T × DeleteBy)) (key : Bytes) (s : Server T) (u : T) :
    owned u (s.removeItem by_ key) = owned u s \ {key} := by
  unfold Server.removeItem
  cases hi : s.items key with
  | none => exact (Set.sdiff_singleton_eq_self (not_mem_owned hi u)).symm
  | some item =>
    ext k
    refine mem_owned_put.trans ?_
    simp only [reduceCtorEq, false_and, exists_false, and_false, false_or, Set.mem_sdiff,
      Set.mem_singleton_iff]
    exact And.comm

/-- only the client of the request gets a lock, and only by an `add` of one -/
theorem mem_owned_addItem (hi : s.items key = none) (t : T) (value : Bytes) (expiration : Int64)
    (u : T) (k : Bytes) : k ∈ owned u (s.addItem t key value expiration) ↔
      (k = key ∧ value = lockValue ∧ u = t) ∨ k ∈ owned u s := by
  have hnot := not_mem_owned hi u
  have hlocked : (if value = lockValue then some t else none) = some u ↔
      value = lockValue ∧ u = t := by
    by_cases hv : value = lockValue
    · rw [if_pos hv]
      exact ⟨fun h => ⟨hv, (Option.some.inj h).symm⟩, fun h => congrArg some h.2.symm⟩
    · rw [if_neg hv]
      exact ⟨nofun, fun h => absurd h.1 hv⟩
  unfold Server.addItem
  rw [hi]
  refine mem_owned_put.trans ?_
  constructor
  · rintro (⟨rfl, i, hi, hl⟩ | ⟨-, hk⟩)
    · obtain rfl := Option.some.inj hi
      exact .inl ⟨rfl, hlocked.mp hl⟩
    · exact .inr hk
  · rintro (⟨rfl, h⟩ | hk)
    · exact .inl ⟨rfl, _, rfl, hlocked.mpr h⟩
    · exact .inr ⟨fun he => hnot (he ▸ hk), hk⟩

end

/-! ## the locks a process knows of -/

/-- the locks of the handles are the client's, and no two handles have the same -/
structure Held {L : Library} (p : Proc L) (g : Set Bytes) : Prop where
  own : ∀ h memc, p.memory h = some memc → memc.userData.isLocked = true →
    memc.userData.lockKey ∈ g
  apart : ∀ h h' memc memc', p.memory h = some memc → p.memory h' = some memc' →
    memc.userData.isLocked = true → memc'.userData.isLocked = true →
    memc.userData.lockKey = memc'.userData.lockKey → h = h'

section
variable {L : Library} {p p' : Proc L} {g g' : Set Bytes} {h : Nat} {memc : Memc L}
  {lockKey : Bytes}

theorem Held.from (hp : Held p g) (hfrom : LocksFrom p p') : Held p' g where
  own h memc hm hl := by
    obtain ⟨memc₀, hm₀, hl₀, hk₀⟩ := hfrom h memc hm hl
    exact hk₀ ▸ hp.own h memc₀ hm₀ hl₀
  apart h h' memc memc' hm hm' hl hl' hk := by
    obtain ⟨m, hm, hl, hkey⟩ := hfrom h memc hm hl
    obtain ⟨m', hm', hl', hkey'⟩ := hfrom h' memc' hm' hl'
    exact hp.apart h h' m m' hm hm' hl hl' (hkey.trans (hk.trans hkey'.symm))

/-- a lock is got that the client did not have -/
theorem Held.locked (hp : Held p g) (hnew : lockKey ∉ g) :
    Held (p.store h (some (memc.locked lockKey))) (insert lockKey g) where
  own h' m hm hl := by
    by_cases he : h' = h
    · subst he
      rw [store_memory_self] at hm
      obtain rfl := Option.some.inj hm
      exact Set.mem_insert _ _
    · rw [store_memory_of_ne p _ he] at hm
      exact Set.mem_insert_of_mem _ (hp.own h' m hm hl)
  apart h₁ h₂ m₁ m₂ hm₁ hm₂ hl₁ hl₂ hk := by
    -- a handle other than `h` has a lock that the client had
    have hother : ∀ h' m, h' ≠ h → (p.store h (some (memc.locked lockKey))).memory h' = some m →
        m.userData.isLocked = true → p.memory h' = some m ∧ m.userData.lockKey ≠ lockKey := by
      intro h' m he hm hl
      rw [store_memory_of_ne p _ he] at hm
      exact ⟨hm, fun hk => hnew (hk ▸ hp.own h' m hm hl)⟩
    have hself : ∀ m, (p.store h (some (memc.locked lockKey))).memory h = some m →
        m.userData.lockKey = lockKey := by
      intro m hm
      rw [store_memory_self] at hm
      obtain rfl := Option.some.inj hm
      rfl
    by_cases he₁ : h₁ = h
    · by_cases he₂ : h₂ = h
      · exact he₁.trans he₂.symm
      · subst he₁
        exact absurd (hk.symm.trans (hself m₁ hm₁)) (hother h₂ m₂ he₂ hm₂ hl₂).2
    · have h₁' := hother h₁ m₁ he₁ hm₁ hl₁
      by_cases he₂ : h₂ = h
      · subst he₂
        exact absurd (hk.trans (hself m₂ hm₂)) h₁'.2
      · exact hp.apart h₁ h₂ m₁ m₂ h₁'.1 (hother h₂ m₂ he₂ hm₂ hl₂).1 hl₁ hl₂ hk

/-- the lock of a handle is given back -/
theorem Held.unlocked (hp : Held p g) (hm : p.memory h = some memc)
    (hl : memc.userData.isLocked = true) :
    Held (p.store h (some memc.unlocked)) (g \ {memc.userData.lockKey}) := by
  -- a handle that is locked then is another one, and was locked
  have hother : ∀ h' m, (p.store h (some memc.unlocked)).memory h' = some m →
      m.userData.isLocked = true → h' ≠ h ∧ p.memory h' = some m := by
    intro h' m hm' hl'
    have hne : h' ≠ h := by
      rintro rfl
      rw [store_memory_self] at hm'
      obtain rfl := Option.some.inj hm'
      cases hl'
    rw [store_memory_of_ne p _ hne] at hm'
    exact ⟨hne, hm'⟩
  constructor
  · intro h' m hm' hl'
    obtain ⟨hne, hm'⟩ := hother h' m hm' hl'
    exact ⟨hp.own h' m hm' hl', fun hk => hne (hp.apart h' h m memc hm' hm hl' hl hk)⟩
  · intro h₁ h₂ m₁ m₂ hm₁ hm₂ hl₁ hl₂ hk
    exact hp.apart h₁ h₂ m₁ m₂ (hother h₁ m₁ hm₁ hl₁).2 (hother h₂ m₂ hm₂ hl₂).2 hl₁ hl₂ hk

end

/-! ### one connection -/

/-- the locks of a client are those of its handles, and only the handle of the module data is
locked -/
structure Exact {L : Library} (p : Proc L) (g : Set Bytes) : Prop where
  tied : ∀ h memc, p.memory h = some memc → memc.userData.isLocked = true → p.modData = some h
  known : ∀ key, key ∈ g ↔ ∃ h memc, p.memory h = some memc ∧ memc.userData.isLocked = true ∧
    memc.userData.lockKey = key

/-- no handle is locked -/
def Proc.Unlocked {L : Library} (p : Proc L) : Prop :=
  ∀ h memc, p.memory h = some memc → memc.userData.isLocked = false

/-- what the callback that returned last says of the locks of the client -/
def Returned (past : List (Callback × Ret)) (g : Set Bytes) : Prop :=
  (∀ sid val past', past = (.read sid, .data val) :: past' → ascii "lock.".toList ++ sid ∈ g) ∧
    ∀ ret past', past = (.close, ret) :: past' → g = ∅

section
variable {L : Library} {p p' : Proc L} {g g' : Set Bytes} {h : Nat} {memc : Memc L}
  {lockKey sid : Bytes}

theorem LocksFrom.unlocked (hfrom : LocksFrom p p') (hp : p.Unlocked) : p'.Unlocked := by
  intro h memc' hm'
  cases hl' : memc'.userData.isLocked with
  | false => rfl
  | true =>
    obtain ⟨memc, hm, hl, -⟩ := hfrom h memc' hm' hl'
    rw [hp h memc hm] at hl
    cases hl

/-- a process without locks is one whose client has none -/
theorem Exact.of_unlocked (hp : p.Unlocked) : Exact p ∅ where
  tied h memc hm hl := by
    rw [hp h memc hm] at hl
    cases hl
  known key := by
    refine ⟨fun hk => hk.elim, fun ⟨h, memc, hm, hl, _⟩ => ?_⟩
    rw [hp h memc hm] at hl
    cases hl

theorem Exact.unlocked_of_none (hp : Exact p g) (hmod : p.modData = none) : p.Unlocked := by
  intro h memc hm
  cases hl : memc.userData.isLocked with
  | false => rfl
  | true =>
    have hc := hp.tied h memc hm hl
    rw [hmod] at hc
    cases hc

/-- its handle is locked, the first of the process -/
theorem Exact.locked (hunlocked : p.Unlocked) (hmod : p.modData = some h) :
    Exact (p.store h (some (memc.locked lockKey))) {lockKey} := by
  have honly : ∀ h' m, (p.store h (some (memc.locked lockKey))).memory h' = some m →
      m.userData.isLocked = true → h' = h ∧ m = memc.locked lockKey := by
    intro h' m hm hl
    by_cases he : h' = h
    · subst he
      rw [store_memory_self] at hm
      exact ⟨rfl, (Option.some.inj hm).symm⟩
    · rw [store_memory_of_ne p _ he] at hm
      rw [hunlocked h' m hm] at hl
      cases hl
  constructor
  · intro h' m hm hl
    obtain ⟨rfl, -⟩ := honly h' m hm hl
    exact hmod
  · intro key
    constructor
    · rintro rfl
      exact ⟨h, _, store_memory_self _ _ _, rfl, rfl⟩
    · rintro ⟨h', m, hm, hl, rfl⟩
      obtain ⟨-, rfl⟩ := honly h' m hm hl
      rfl

end

/-! ## runs -/

/-- clients that have not opened a session yet, on a server `s` -/
def newClients (L : Library) {T : Type} (ini : T → Ini) (s : Server T) : Clients L T where
  phase t := .idle (.live (newProc L (ini t)) [])
  shared := s

section
variable {L : Library} {T : Type}

variable [DecidableEq T]

end

/-! ## a session that is read over another one -/

end PhpMemcached.Session
