import Mathlib.Data.List.Nodup
import Mathlib.Data.List.ReduceOption

/-!
# What a cell has held

* `Version`   a value with an id, and who wrote it;
* `History`   the versions a cell has held, the last one first, with `none` where it was empty;
* `current`   the version it holds;
* `Follows`   a version was written over another one, with nothing in between.

Where no id comes twice, a version is followed by one other at most, and never holds again.
-/

namespace Chronicle

structure Version (I V W : Type) where
  id : I
  value : V
  writer : W

abbrev History (I V W : Type) := List (Option (Version I V W))

section
variable {I V W : Type} {h h' : History I V W} {a b b' v v' : Version I V W}
  {x : Option (Version I V W)}

def ids (h : History I V W) : List I := h.reduceOption.map Version.id

def current (h : History I V W) : Option (Version I V W) := h.head?.join

/-- `b` was written over `a` -/
inductive Follows (a b : Version I V W) : History I V W → Prop where
  | here {h : History I V W} : Follows a b (some b :: some a :: h)
  | before {x : Option (Version I V W)} {h : History I V W} : Follows a b h → Follows a b (x :: h)

theorem ids_cons_some (v : Version I V W) (h : History I V W) :
    ids (some v :: h) = v.id :: ids h := by
  unfold ids
  rw [List.reduceOption_cons_of_some, List.map_cons]

theorem ids_cons_none (h : History I V W) : ids (none :: h) = ids h := by
  unfold ids
  rw [List.reduceOption_cons_of_none]

theorem mem_ids (hv : some v ∈ h) : v.id ∈ ids h :=
  List.mem_map_of_mem (List.reduceOption_mem_iff.mpr hv)

theorem mem_of_current (hv : current h = some v) : some v ∈ h := by
  cases h with
  | nil => cases hv
  | cons x h =>
    have hx : x = some v := hv
    subst hx
    exact List.mem_cons_self

theorem nodup_of_cons (hn : (ids (x :: h)).Nodup) : (ids h).Nodup := by
  cases x with
  | none => rwa [ids_cons_none] at hn
  | some v =>
    rw [ids_cons_some] at hn
    exact hn.of_cons

theorem Follows.mono (hsuffix : h <:+ h') (hb : Follows a b h) : Follows a b h' := by
  obtain ⟨l, rfl⟩ := hsuffix
  induction l with
  | nil => exact hb
  | cons x l ih => exact .before ih

theorem Follows.mem_before (hb : Follows a b (x :: h)) : some a ∈ h := by
  induction h generalizing x with
  | nil =>
    cases hb with
    | before hb => cases hb
  | cons y h ih =>
    cases hb with
    | here => exact List.mem_cons_self
    | before hb => exact List.mem_cons_of_mem y (ih hb)

theorem Follows.mem (hb : Follows a b h) : some a ∈ h := by
  cases h with
  | nil => cases hb
  | cons x h => exact List.mem_cons_of_mem x hb.mem_before

/-- **A version that was written over does not hold again.** -/
theorem Follows.not_current (hn : (ids h).Nodup) (hb : Follows a b h) (hv : current h = some v) :
    v.id ≠ a.id := by
  intro hid
  cases h with
  | nil => cases hb
  | cons x h =>
    have hx : x = some v := hv
    subst hx
    rw [ids_cons_some, hid] at hn
    exact (List.nodup_cons.mp hn).1 (mem_ids hb.mem_before)

/-- **A version is written over once.** -/
theorem Follows.unique (hn : (ids h).Nodup) (hb : Follows a b h) (hb' : Follows a b' h) :
    b = b' := by
  induction hb with
  | @here h =>
    have hold : a.id ∉ ids h := by
      have ha := nodup_of_cons hn
      rw [ids_cons_some] at ha
      exact (List.nodup_cons.mp ha).1
    cases hb' with
    | here => rfl
    | before hb' => exact absurd (mem_ids hb'.mem_before) hold
  | @before x h hb ih =>
    cases hb' with
    | @here h' =>
      have ha := nodup_of_cons hn
      rw [ids_cons_some] at ha
      exact absurd (mem_ids hb.mem_before) (List.nodup_cons.mp ha).1
    | before hb' => exact ih (nodup_of_cons hn) hb'

end

end Chronicle
