import Mathlib.Logic.Function.Basic
import Mathlib.Data.List.Nodup
import Mathlib.Order.Basic

/-!
# Logs of a shared object

* `Replays step s ops s'`   the operations `ops`, the newest first, lead from `s` to `s'`;
* `Logged`                  an object with the log of who has done what to it;
* `Acts`, `Adds`            what somebody does to it at a moment, and what somebody has added between
                            two moments, the others doing what they do;
* `Rises`                   a counter that only grows: what it has shown is in order
                            (`Replays.rises`), and is shown once (`who_eq_of_nodup`);
* `MapOp`, `MapOp.Step`     the operations of a map, and what each does and shows; a map whose values
                            are carried along a function goes through the same (`replays_mapValues`).
-/

namespace Linear

/-! ## replaying -/

section
variable {σ τ O P : Type} {step : σ → O → σ → Prop} {step' : τ → P → τ → Prop} {s s' s'' : σ}
  {ops ops' : List O}

/-- the operations, the newest first, lead from `s` to `s'` -/
def Replays (step : σ → O → σ → Prop) (s : σ) : List O → σ → Prop
  | [], s' => s' = s
  | op :: ops, s' => ∃ m, Replays step s ops m ∧ step m op s'

theorem replays_nil : Replays step s [] s := rfl

theorem Replays.append (h : Replays step s ops s') (h' : Replays step s' ops' s'') :
    Replays step s (ops' ++ ops) s'' := by
  induction ops' generalizing s'' with
  | nil =>
    cases h'
    exact h
  | cons op ops' ih =>
    obtain ⟨m, hm, hop⟩ := h'
    exact ⟨m, ih hm, hop⟩

theorem Replays.map {f : σ → τ} {g : O → P}
    (hstep : ∀ s op s', step s op s' → step' (f s) (g op) (f s')) (h : Replays step s ops s') :
    Replays step' (f s) (ops.map g) (f s') := by
  induction ops generalizing s' with
  | nil =>
    cases h
    exact replays_nil
  | cons op ops ih =>
    obtain ⟨m, hm, hop⟩ := h
    exact ⟨f m, ih hm, hstep m op s' hop⟩

end

/-! ## who has done what -/

/-- an operation, and who has done it -/
structure Event (T O : Type) where
  who : Option T
  op : O

/-- an object as it is now, and its log, the newest event first -/
structure Logged (T O σ : Type) where
  log : List (Event T O)
  now : σ

section
variable {T O σ : Type}

/-- between two moments the events `new` have come to the log -/
structure Extends (step : σ → O → σ → Prop) (new : List (Event T O)) (g g' : Logged T O σ) :
    Prop where
  log : g'.log = new ++ g.log
  replays : Replays step g.now (new.map Event.op) g'.now

/-- `who` does the operations `ops` -/
def Acts (step : σ → O → σ → Prop) (who : Option T) (ops : List O) (g g' : Logged T O σ) : Prop :=
  Extends step (ops.map (Event.mk who)) g g'

variable [DecidableEq T]

/-- the operations of `t` in a log -/
def opsOf (t : T) (log : List (Event T O)) : List O :=
  log.filterMap fun e => if e.who = some t then some e.op else none

/-- between two moments `t` has added the operations `ops` -/
def Adds (step : σ → O → σ → Prop) (t : T) (ops : List O) (g g' : Logged T O σ) : Prop :=
  ∃ new, Extends step new g g' ∧ opsOf t new = ops

variable {step : σ → O → σ → Prop} {t u : T} {who : Option T} {ops ops' : List O}
  {new new' : List (Event T O)} {g g' g'' : Logged T O σ}

theorem opsOf_append : opsOf t (new ++ new') = opsOf t new ++ opsOf t new' := by
  simp [opsOf]

theorem opsOf_self : opsOf t (ops.map (Event.mk (some t))) = ops := by
  simp [opsOf]

theorem opsOf_other (h : who ≠ some t) : opsOf t (ops.map (Event.mk who)) = [] := by
  simp [opsOf, h]

omit [DecidableEq T] in
theorem Extends.refl : Extends step [] g g := ⟨rfl, replays_nil⟩

omit [DecidableEq T] in
theorem Extends.trans (h : Extends step new g g') (h' : Extends step new' g' g'') :
    Extends step (new' ++ new) g g'' := by
  refine ⟨?_, ?_⟩
  · rw [h'.log, h.log, List.append_assoc]
  · rw [List.map_append]
    exact h.replays.append h'.replays

theorem Adds.refl : Adds step t [] g g := ⟨[], .refl, rfl⟩

theorem Adds.trans (h : Adds step t ops g g') (h' : Adds step t ops' g' g'') :
    Adds step t (ops' ++ ops) g g'' := by
  obtain ⟨new, hnew, rfl⟩ := h
  obtain ⟨new', hnew', rfl⟩ := h'
  exact ⟨new' ++ new, hnew.trans hnew', opsOf_append⟩

theorem Acts.adds (h : Acts step (some t) ops g g') : Adds step t ops g g' := ⟨_, h, opsOf_self⟩

theorem Acts.others (h : Acts step who ops g g') (hwho : who ≠ some t) : Adds step t [] g g' :=
  ⟨_, h, opsOf_other hwho⟩

end

/-! ## counters -/

section
variable {T V N : Type} [DecidableEq T] {t u : T} {log : List (Event T V)} {v : V}

theorem opsOf_sublist : (opsOf t log).Sublist (log.map Event.op) := by
  induction log with
  | nil => exact .slnil
  | cons e log ih =>
    by_cases hwho : e.who = some t
    · have hcons : opsOf t (e :: log) = e.op :: opsOf t log := by simp [opsOf, hwho]
      rw [hcons]
      exact ih.cons_cons e.op
    · have hskip : opsOf t (e :: log) = opsOf t log := by simp [opsOf, hwho]
      rw [hskip]
      exact ih.cons e.op

/-- what is shown once is shown to one -/
theorem who_eq_of_nodup (hnodup : (log.map Event.op).Nodup) (ht : v ∈ opsOf t log)
    (hu : v ∈ opsOf u log) : t = u := by
  have hevent {t : T} (ht : v ∈ opsOf t log) : ⟨some t, v⟩ ∈ log := by
    obtain ⟨e, he, hsome⟩ := List.mem_filterMap.mp ht
    obtain ⟨who, op⟩ := e
    by_cases hwho : who = some t
    · rw [if_pos hwho] at hsome
      cases hsome
      exact hwho ▸ he
    · rw [if_neg hwho] at hsome
      cases hsome
  have hsame := List.inj_on_of_nodup_map hnodup (hevent ht) (hevent hu) rfl
  exact Option.some.inj (congrArg Event.who hsame)

variable [Preorder N]

/-- the counter has a larger value now, and shows it -/
def Rises (f : V → N) (m : Option V) (v : V) (m' : Option V) : Prop :=
  (∀ x ∈ m, f x < f v) ∧ m' = some v

/-- what it has shown, the newest first: in order, more than at the start, and no more than it has
now -/
theorem Replays.rises {f : V → N} {m m' : Option V} {ops : List V}
    (h : Replays (Rises f) m ops m') : ops.Pairwise (fun v x => f x < f v) ∧
      (∀ v ∈ ops, ∀ x ∈ m, f x < f v) ∧ (∀ v ∈ ops, ∃ y ∈ m', f v ≤ f y) ∧
      ∀ x ∈ m, ∃ y ∈ m', f x ≤ f y := by
  induction ops generalizing m' with
  | nil =>
    cases h
    exact ⟨.nil, fun v hv => absurd hv List.not_mem_nil, fun v hv => absurd hv List.not_mem_nil,
      fun x hx => ⟨x, hx, le_refl _⟩⟩
  | cons v ops ih =>
    obtain ⟨n, hn, hlast, rfl⟩ := h
    obtain ⟨hpairwise, hstart, hnow, hgrows⟩ := ih hn
    have hbefore : ∀ x ∈ ops, f x < f v := fun x hx => by
      obtain ⟨y, hy, hle⟩ := hnow x hx
      exact lt_of_le_of_lt hle (hlast y hy)
    have hfirst : ∀ x ∈ m, f x < f v := fun x hx => by
      obtain ⟨y, hy, hle⟩ := hgrows x hx
      exact lt_of_le_of_lt hle (hlast y hy)
    refine ⟨.cons hbefore hpairwise, fun x hx => ?_, fun x hx => ⟨v, rfl, ?_⟩,
      fun x hx => ⟨v, rfl, le_of_lt (hfirst x hx)⟩⟩
    · rcases List.mem_cons.mp hx with rfl | hx
      · exact hfirst
      · exact hstart x hx
    · rcases List.mem_cons.mp hx with rfl | hx
      · exact le_refl _
      · exact le_of_lt (hbefore x hx)

end

/-! ## maps -/

/-- when a write is made: always, or only over nothing, or only over something -/
inductive Mode where
  | always | ifAbsent | ifPresent
  deriving DecidableEq

def Mode.admits {V : Type} : Mode → Option V → Bool
  | .always, _ => true
  | .ifAbsent, x => x.isNone
  | .ifPresent, x => x.isSome

/-- the operations of a map with what they show: what is read, or whether something is done -/
inductive MapOp (K V : Type) where
  | read (k : K) (x : Option V)
  | write (mode : Mode) (k : K) (v : V) (done : Bool)
  | delete (k : K) (done : Bool)
  | change (k : K) (x : Option V)

section
variable {K V W : Type}

def MapOp.map (f : V → W) : MapOp K V → MapOp K W
  | .read k x => .read k (x.map f)
  | .write mode k v done => .write mode k (f v) done
  | .delete k done => .delete k done
  | .change k x => .change k (x.map f)

def mapValues (f : V → W) (m : K → Option V) (k : K) : Option W := (m k).map f

variable [DecidableEq K]

/-- what an operation does, and when it shows what it shows -/
def MapOp.Step (m : K → Option V) : MapOp K V → (K → Option V) → Prop
  | .read k x, m' => m k = x ∧ m' = m
  | .write mode k v done, m' => done = mode.admits (m k) ∧
      m' = if done then Function.update m k (some v) else m
  | .delete k done, m' => done = (m k).isSome ∧ m' = Function.update m k none
  | .change k x, m' => m' = Function.update m k x

omit [DecidableEq K] in
theorem admits_mapValues (f : V → W) (mode : Mode) (m : K → Option V) (k : K) :
    mode.admits (mapValues f m k) = mode.admits (m k) := by
  cases mode with
  | always => rfl
  | ifAbsent => exact Option.isNone_map
  | ifPresent => exact Option.isSome_map

theorem mapValues_update (f : V → W) (m : K → Option V) (k : K) (x : Option V) :
    mapValues f (Function.update m k x) = Function.update (mapValues f m) k (x.map f) := by
  funext k'
  by_cases hk : k' = k
  · subst hk
    simp [mapValues]
  · simp [mapValues, hk]

variable {m m' : K → Option V} {op : MapOp K V} {ops : List (MapOp K V)}

theorem MapOp.Step.mapValues (f : V → W) (h : MapOp.Step m op m') :
    MapOp.Step (Linear.mapValues f m) (op.map f) (Linear.mapValues f m') := by
  cases op with
  | read k x =>
    obtain ⟨rfl, rfl⟩ := h
    exact ⟨rfl, rfl⟩
  | write mode k v done =>
    obtain ⟨hdone, rfl⟩ := h
    refine ⟨by rw [admits_mapValues, hdone], ?_⟩
    cases done with
    | true => exact mapValues_update f m k (some v)
    | false => rfl
  | delete k done =>
    obtain ⟨hdone, rfl⟩ := h
    exact ⟨hdone.trans Option.isSome_map.symm, mapValues_update f m k none⟩
  | change k x =>
    cases h
    exact mapValues_update f m k x

end
end Linear
