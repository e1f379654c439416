import Mathlib.Data.List.Basic

/-!
# The life of a client

What may happen to a client of an event loop, for sockets `F` and protocol clients `P` of any kind.

* `LifeEvent`          what is seen of a client;
* `Phase`              where it is in its life, `Phase.Next` the way on;
* `Phase.Leads`        the events that lead from one phase to another;
* `Lived l p`          the events `l`, from the start, lead to `p`;
* `Lived.sockets`, `Lived.clients`   what a client holds is what was opened and not closed;
* `Orderly`            `ON_CONNECT` comes once and before all work, a rejected client does none, and
                       only the closing of the socket follows the destruction;
* `Lived.orderly`      every history is orderly.
-/

namespace PhpMemcached.Server
variable {F P : Type}

inductive LifeEvent (F P : Type) where
  | accepted (fd : F)
  | created (pc : Option P)
  | onConnect (ok : Bool)
  | worked (pc : P)
  | scheduled (ok : Bool)
  | destroyed (pc : P)
  | closed (fd : F)

/-- `waiting` for the one event it is registered for; `lost` is neither registered nor destroyed -/
inductive Phase (F P : Type) where
  | unborn
  | accepted (fd : F)
  | ready (fd : F) (pc : P)
  | waiting (fd : F) (pc : P) (connected : Bool)
  | admitted (fd : F) (pc : P)
  | served (fd : F) (pc : P)
  | doomed (fd : F) (pc : P)
  | closing (fd : F)
  | lost (fd : F) (pc : P)
  | gone

namespace Phase

inductive Next : Phase F P → LifeEvent F P → Phase F P → Prop
  | accept (fd : F) : Next .unborn (.accepted fd) (.accepted fd)
  | create (fd : F) (pc : P) : Next (.accepted fd) (.created (some pc)) (.ready fd pc)
  | createNot (fd : F) : Next (.accepted fd) (.created none) (.closing fd)
  | arm (fd : F) (pc : P) : Next (.ready fd pc) (.scheduled true) (.waiting fd pc false)
  | armNot (fd : F) (pc : P) : Next (.ready fd pc) (.scheduled false) (.doomed fd pc)
  | permit (fd : F) (pc : P) : Next (.waiting fd pc false) (.onConnect true) (.admitted fd pc)
  | reject (fd : F) (pc : P) : Next (.waiting fd pc false) (.onConnect false) (.doomed fd pc)
  | work (fd : F) (pc : P) (connected : Bool) :
      Next (.waiting fd pc connected) (.worked pc) (.served fd pc)
  | workAdmitted (fd : F) (pc : P) : Next (.admitted fd pc) (.worked pc) (.served fd pc)
  | rearm (fd : F) (pc : P) : Next (.served fd pc) (.scheduled true) (.waiting fd pc true)
  | lose (fd : F) (pc : P) : Next (.served fd pc) (.scheduled false) (.lost fd pc)
  | fail (fd : F) (pc : P) : Next (.served fd pc) (.destroyed pc) (.closing fd)
  | destroy (fd : F) (pc : P) : Next (.doomed fd pc) (.destroyed pc) (.closing fd)
  | close (fd : F) : Next (.closing fd) (.closed fd) .gone

/-- the events, from `p` on, lead to a phase -/
inductive Leads (p : Phase F P) : List (LifeEvent F P) → Phase F P → Prop
  | nil : Leads p [] p
  | snoc {l : List (LifeEvent F P)} {q r : Phase F P} {e : LifeEvent F P} (hl : Leads p l q)
      (he : Next q e r) : Leads p (l ++ [e]) r

variable {p q r : Phase F P} {l l' : List (LifeEvent F P)} {e : LifeEvent F P}

theorem Leads.append (h : p.Leads l q) (h' : q.Leads l' r) : p.Leads (l ++ l') r := by
  induction h' with
  | nil =>
    rw [List.append_nil]
    exact h
  | snoc _ he ih =>
    rw [← List.append_assoc]
    exact .snoc ih he

theorem Leads.cons (he : p.Next e q) (h : q.Leads l r) : p.Leads (e :: l) r :=
  Leads.append (.snoc .nil he) h

end Phase

abbrev Lived (l : List (LifeEvent F P)) (p : Phase F P) : Prop := Phase.unborn.Leads l p

/-! ## what a client holds -/

def LifeEvent.accepted? : LifeEvent F P → Option F
  | .accepted fd => some fd
  | _ => none

def LifeEvent.closed? : LifeEvent F P → Option F
  | .closed fd => some fd
  | _ => none

def LifeEvent.created? : LifeEvent F P → Option P
  | .created pc => pc
  | _ => none

def LifeEvent.destroyed? : LifeEvent F P → Option P
  | .destroyed pc => some pc
  | _ => none

def Phase.socket : Phase F P → List F
  | .accepted fd | .ready fd _ | .waiting fd _ _ | .admitted fd _ | .served fd _ | .doomed fd _
  | .closing fd | .lost fd _ => [fd]
  | _ => []

def Phase.client : Phase F P → List P
  | .ready _ pc | .waiting _ pc _ | .admitted _ pc | .served _ pc | .doomed _ pc | .lost _ pc => [pc]
  | _ => []

variable {l : List (LifeEvent F P)} {p q : Phase F P} {e : LifeEvent F P}

theorem Phase.Next.sockets (he : p.Next e q) :
    [e].filterMap LifeEvent.closed? ++ q.socket = p.socket ++ [e].filterMap LifeEvent.accepted? := by
  cases he <;> rfl

theorem Phase.Next.clients (he : p.Next e q) :
    [e].filterMap LifeEvent.destroyed? ++ q.client = p.client ++ [e].filterMap LifeEvent.created? := by
  cases he <;> rfl

/-- a socket that is held was accepted and not closed -/
theorem Lived.sockets (h : Lived l p) :
    l.filterMap LifeEvent.closed? ++ p.socket = l.filterMap LifeEvent.accepted? := by
  induction h with
  | nil => rfl
  | snoc _ he ih =>
    rw [List.filterMap_append, List.append_assoc, he.sockets, ← List.append_assoc, ih,
      ← List.filterMap_append]

/-- a protocol client that is held was created and not destroyed -/
theorem Lived.clients (h : Lived l p) :
    l.filterMap LifeEvent.destroyed? ++ p.client = l.filterMap LifeEvent.created? := by
  induction h with
  | nil => rfl
  | snoc _ he ih =>
    rw [List.filterMap_append, List.append_assoc, he.clients, ← List.append_assoc, ih,
      ← List.filterMap_append]

/-- every client has one socket -/
theorem Lived.accepted (h : Lived l p) :
    p = .unborn ∧ l.filterMap LifeEvent.accepted? = [] ∨
      p ≠ .unborn ∧ ∃ fd, l.filterMap LifeEvent.accepted? = [fd] := by
  induction h with
  | nil => exact .inl ⟨rfl, rfl⟩
  | snoc _ he ih =>
    rw [List.filterMap_append]
    rcases ih with ⟨rfl, hnone⟩ | ⟨hne, fd, hone⟩
    · cases he with
      | accept fd =>
        rw [hnone]
        exact .inr ⟨nofun, fd, rfl⟩
    · rw [hone]
      refine .inr ⟨?_, fd, ?_⟩
      · rintro rfl
        cases he
      · cases he with
        | accept => exact absurd rfl hne
        | _ => rfl

def Phase.isLost : Phase F P → Bool
  | .lost .. => true
  | _ => false

/-- whether a client has been registered for its first event -/
def Phase.isArmed : Phase F P → Bool
  | .unborn | .accepted _ | .ready .. => false
  | _ => true

theorem Phase.Next.armed (he : p.Next e q) (hp : p.isArmed = true) :
    q.isArmed = true ∧ p.isLost = false ∧ (e = .scheduled false ↔ q.isLost = true) := by
  cases he <;> cases hp <;> simp [isArmed, isLost]

/-- a client that has been registered once is lost when it is refused its next event -/
theorem Phase.Leads.isLost_iff (h : p.Leads l q) (hp : p.isArmed = true) (hlost : p.isLost = false) :
    q.isLost = true ↔ .scheduled false ∈ l := by
  have hboth : q.isArmed = true ∧ (q.isLost = true ↔ .scheduled false ∈ l) := by
    induction h with
    | nil => exact ⟨hp, iff_of_false (Bool.eq_false_iff.mp hlost) List.not_mem_nil⟩
    | snoc _ he ih =>
      obtain ⟨harmed, hnot, hiff⟩ := he.armed ih.1
      rw [List.mem_append, List.mem_singleton, ← ih.2, hnot, ← hiff]
      exact ⟨harmed, ⟨fun h => .inr h.symm, fun h => h.elim nofun Eq.symm⟩⟩
  exact hboth.2

/-! ## the order of things -/

def LifeEvent.IsOnConnect : LifeEvent F P → Prop
  | .onConnect _ => True
  | _ => False

def LifeEvent.IsWorked : LifeEvent F P → Prop
  | .worked _ => True
  | _ => False

def LifeEvent.IsDestroyed : LifeEvent F P → Prop
  | .destroyed _ => True
  | _ => False

def LifeEvent.IsClosed : LifeEvent F P → Prop
  | .closed _ => True
  | _ => False

/-- what may come before what -/
structure LifeEvent.Before (before later : LifeEvent F P) : Prop where
  connectOnce : before.IsOnConnect → ¬ later.IsOnConnect
  connectFirst : before.IsWorked → ¬ later.IsOnConnect
  rejected : before = .onConnect false → ¬ later.IsWorked
  destroyed : before.IsDestroyed → later.IsClosed
  closed : ¬ before.IsClosed

/-- **`ON_CONNECT` comes at most once, and before all work; a rejected client does no work; after
its destruction a client is not used, nor its socket after it has been closed.** -/
def Orderly (l : List (LifeEvent F P)) : Prop := l.Pairwise LifeEvent.Before

/-- whether a client in this phase may have been rejected -/
def Phase.afterReject : Phase F P → Bool
  | .doomed .. | .closing _ | .gone => true
  | _ => false

def Phase.afterWork : Phase F P → Bool
  | .served .. | .waiting _ _ true | .lost .. | .closing _ | .gone => true
  | _ => false

def Phase.afterConnect : Phase F P → Bool
  | .admitted .. => true
  | p => p.afterReject || p.afterWork

def Phase.afterDestroy : Phase F P → Bool
  | .closing _ | .gone => true
  | _ => false

def Phase.isGone : Phase F P → Bool
  | .gone => true
  | _ => false

/-- what may have happened to a client in this phase -/
def Phase.past (p : Phase F P) : LifeEvent F P → Bool
  | .onConnect true => p.afterConnect
  | .onConnect false => p.afterReject
  | .worked _ => p.afterWork
  | .destroyed _ => p.afterDestroy
  | .closed _ => p.isGone
  | _ => true

theorem Phase.Next.past_mono (he : p.Next e q) {x : LifeEvent F P} (hx : p.past x = true) :
    q.past x = true := by
  rcases x with _ | _ | (_ | _) | _ | _ | _ | _ <;> cases he <;>
    first | rfl | exact hx

theorem Phase.Next.past_last (he : p.Next e q) : q.past e = true := by
  cases he <;> rfl

theorem Phase.Next.of_isOnConnect (he : p.Next e q) (hc : e.IsOnConnect) :
    p.afterConnect = false ∧ p.afterReject = false ∧ p.afterWork = false := by
  cases he with
  | permit | reject => exact ⟨rfl, rfl, rfl⟩
  | _ => exact hc.elim

theorem Phase.Next.of_isWorked (he : p.Next e q) (hw : e.IsWorked) : p.afterReject = false := by
  cases he with
  | work | workAdmitted => rfl
  | _ => exact hw.elim

theorem Phase.Next.isClosed (he : p.Next e q) (hp : p.afterDestroy = true) : e.IsClosed := by
  cases he with
  | close => trivial
  | _ => cases hp

/-- what may have happened may come before what happens next -/
theorem Phase.Next.before (he : p.Next e q) {x : LifeEvent F P} (hx : p.past x = true) :
    x.Before e where
  connectOnce hxc hc := by
    obtain ⟨hconnect, hreject, -⟩ := he.of_isOnConnect hc
    cases x with
    | onConnect ok =>
      cases ok with
      | true => exact absurd hx (Bool.eq_false_iff.mp hconnect)
      | false => exact absurd hx (Bool.eq_false_iff.mp hreject)
    | _ => exact hxc
  connectFirst hxw hc := by
    obtain ⟨-, -, hwork⟩ := he.of_isOnConnect hc
    cases x with
    | worked pc => exact absurd hx (Bool.eq_false_iff.mp hwork)
    | _ => exact hxw
  rejected hxr hw := by
    subst hxr
    exact absurd hx (Bool.eq_false_iff.mp (he.of_isWorked hw))
  destroyed hxd := by
    cases x with
    | destroyed pc => exact he.isClosed hx
    | _ => exact hxd.elim
  closed hxc := by
    cases x with
    | closed fd =>
      cases he <;> cases hx
    | _ => exact hxc

theorem Lived.past (h : Lived l p) : ∀ e ∈ l, p.past e = true := by
  induction h with
  | nil => exact fun e he => nomatch he
  | snoc _ hnext ih =>
    intro e he
    rcases List.mem_append.mp he with hl | hlast
    · exact hnext.past_mono (ih e hl)
    · rw [List.mem_singleton.mp hlast]
      exact hnext.past_last

theorem Lived.undestroyed (h : Lived l p) (hp : p.afterDestroy = false) :
    l.filterMap LifeEvent.destroyed? = [] := by
  refine List.filterMap_eq_nil_iff.mpr fun e he => ?_
  cases e with
  | destroyed pc => exact absurd (h.past _ he) (Bool.eq_false_iff.mp hp)
  | _ => rfl

theorem Lived.orderly (h : Lived l p) : Orderly l := by
  induction h with
  | nil => exact List.Pairwise.nil
  | snoc hl hnext ih =>
    refine List.pairwise_append.mpr ⟨ih, List.pairwise_singleton _ _, fun x hx y hy => ?_⟩
    rw [List.mem_singleton.mp hy]
    exact hnext.before (Lived.past hl x hx)

end PhpMemcached.Server
