import Mathlib.Data.List.Induction
import Mathlib.Data.List.Nodup
import PhpMemcached.Server.Model

/-!
# The references to callbacks

* `memcachedServerOn`, `memcachedServerEndRun`   `MemcachedServer::on`, and what
                          `MemcachedServer::run` does when it comes back;
* `ServerAction`          what happens: a registration, a command or a new client in a run, the end
                          of a run;
* `ServerState.after`     the state after any sequence of these, with its log of references;
* `Balanced`              every reference is released once, and not used afterwards;
* `NoReuse`               nothing registered before the end of a run is touched after it;
* `callbacks_balanced_iff`   the one holds if the other does.
-/

namespace PhpMemcached
open Ascii Requests

/-! ## references -/

/-- a reference to the function or to the object of a callable, taken by the `on` of this number -/
structure Ref where
  on : Nat
  ofObject : Bool
  deriving DecidableEq

/-- the references of a registered callback -/
def FcallInfo.refs (fci : FcallInfo) : List Ref :=
  ⟨fci.ref, false⟩ :: (if fci.object.isSome then [⟨fci.ref, true⟩] else [])

inductive RefEvent where
  | taken (r : Ref)
  | released (r : Ref)
  | invoked (on : Nat)
  deriving DecidableEq

/-- `s_destroy_cb` -/
def sDestroyCb (fci : FcallInfo) : List RefEvent :=
  if 0 < fci.size then fci.refs.map .released else []

/-- the global table, the number of registrations, and what was done with references -/
structure ServerState (σ : Type) where
  callbacks : Callbacks
  taken : Nat
  log : List RefEvent
  world : σ

/-- an event that `on` accepts -/
def serverEvent? (event : Int64) : Option ServerEvent :=
  if event ≤ -1 ∨ 15 ≤ event then none else serverEvents[event.toInt.toNat]?

section
variable {σ : Type}

/-- `MemcachedServer::on`; the argument has size 0 if it is NULL. It never returns TRUE. -/
def memcachedServerOn (g : ServerState σ) (event : Int64) (fci : FcallInfo) :
    Bool × ServerState σ :=
  match serverEvent? event with
  | none => (false, g)
  | some e =>
    if 0 < fci.size then
      let fci := { fci with ref := g.taken }
      (false, { g with
        callbacks := Function.update g.callbacks e fci
        taken := g.taken + 1
        log := g.log ++ sDestroyCb (g.callbacks e) ++ fci.refs.map .taken })
    else (false, g)

/-- `MemcachedServer::run` after `php_memc_proto_handler_run`, whose result it returns -/
def memcachedServerEndRun (g : ServerState σ) (rc : Bool) : Bool × ServerState σ :=
  (rc, { g with log := g.log ++ serverEvents.flatMap fun e => sDestroyCb (g.callbacks e) })

/-! ## sequences of calls -/

/-- what happens to the server objects of a process. A run that fails at once is its end alone; one
that ends in a fatal error is the last thing that happens. -/
inductive ServerAction where
  | on (event : Int64) (fci : FcallInfo)
  | command (cookie : Nat) (c : Command)
  | connect (remoteAddr : Option Bytes)
  | endRun (rc : Bool)

/-- a callback that is called -/
def invocation : Entry ServerCall ServerAns → Option RefEvent
  | ⟨.invoke fci _, _⟩ => some (.invoked fci.ref)
  | _ => none

variable (env : ServerEnv) (h : Handler ServerCall ServerAns σ)

/-- a handler runs -/
def ServerState.handled {α : Type} (g : ServerState σ) (m : ServerM Unit α) : ServerState σ :=
  { g with
    log := g.log ++ (Cmd.log h m () g.world).filterMap invocation
    world := (Cmd.exec h m () g.world).2 }

def ServerState.step (g : ServerState σ) : ServerAction → ServerState σ
  | .on event fci => (memcachedServerOn g event fci).2
  | .command cookie c => g.handled h (c.handle env g.callbacks cookie)
  | .connect remoteAddr => g.handled h (sOnConnect env g.callbacks remoteAddr)
  | .endRun rc => (memcachedServerEndRun g rc).2

/-- the state of a new process: no callback is registered -/
def ServerState.start (w : σ) : ServerState σ :=
  ⟨fun _ => ⟨0, .null, none, 0⟩, 0, [], w⟩

def ServerState.after (w : σ) (trace : List ServerAction) : ServerState σ :=
  trace.foldl (ServerState.step env h) (.start w)

end

/-! ## what is claimed -/

/-- a registration for this event -/
def ServerAction.Registers (e : ServerEvent) : ServerAction → Prop
  | .on event fci => serverEvent? event = some e ∧ 0 < fci.size
  | _ => False

/-- an action that has to do with the callback of this event -/
def ServerAction.Touches (e : ServerEvent) : ServerAction → Prop
  | .command _ c => c.event = e
  | .connect _ => e = .connect
  | .endRun _ => True
  | a => a.Registers e

/-- a replacement of the callback of this event, or the end of a run -/
def ServerAction.Releases (e : ServerEvent) : ServerAction → Prop
  | .endRun _ => True
  | a => a.Registers e

/-- the references an action takes -/
def ServerAction.refs (taken : Nat) : ServerAction → List Ref
  | .on _ fci => { fci with ref := taken : FcallInfo }.refs
  | _ => []

def releasedRef : RefEvent → Option Ref
  | .released r => some r
  | _ => none

section
variable {σ : Type} (env : ServerEnv) (h : Handler ServerCall ServerAns σ) (w : σ)

/-- **Every reference is released exactly once, by a replacement or by the end of a run, and no
callback is called whose reference has been released.** -/
structure Balanced (trace : List ServerAction) : Prop where
  once : ((ServerState.after env h w trace).log.filterMap releasedRef).Nodup
  due : ∀ l₁ a l₂ e, trace = l₁ ++ a :: l₂ → a.Registers e → (∃ b ∈ l₂, b.Releases e) →
    ∀ r ∈ a.refs (ServerState.after env h w l₁).taken,
      .released r ∈ (ServerState.after env h w trace).log
  alive : (ServerState.after env h w trace).log.Pairwise fun before later =>
    ∀ (r : Ref) (n : Nat), before = .released r → later = .invoked n → r.on ≠ n

end

/-- a run has ended after a registration for this event -/
def Spent (e : ServerEvent) (trace : List ServerAction) : Prop :=
  ∃ l₁ rc l₂, trace = l₁ ++ .endRun rc :: l₂ ∧ ∃ a ∈ l₁, a.Registers e

/-- what was registered before the end of a run is not touched afterwards -/
def NoReuse (trace : List ServerAction) : Prop :=
  ∀ l₁ a l₂ e, trace = l₁ ++ a :: l₂ → Spent e l₁ → ¬ a.Touches e

/-! ## steps -/

theorem mem_serverEvents (e : ServerEvent) : e ∈ serverEvents := by
  cases e <;> decide

section
variable {σ : Type} (env : ServerEnv) (h : Handler ServerCall ServerAns σ) (g : ServerState σ)

/-- what a step adds to the log -/
def ServerState.events (g : ServerState σ) : ServerAction → List RefEvent
  | .on event fci =>
    match serverEvent? event with
    | none => []
    | some e =>
      if 0 < fci.size then
        sDestroyCb (g.callbacks e) ++ { fci with ref := g.taken : FcallInfo }.refs.map .taken
      else []
  | .command _ c => if memcHasCb g.callbacks c.event then [.invoked (g.callbacks c.event).ref] else []
  | .connect _ => if memcHasCb g.callbacks .connect then [.invoked (g.callbacks .connect).ref] else []
  | .endRun _ => serverEvents.flatMap fun e => sDestroyCb (g.callbacks e)

theorem invocation_eq_none {e : Entry ServerCall ServerAns} (he : e.req.NoInvoke) :
    invocation e = none := by
  obtain ⟨req, r⟩ := e
  cases req with
  | invoke => exact he.elim
  | _ => rfl

/-- the callbacks called in a log that begins with the call of one -/
theorem invocations_of_log {log rest : List (Entry ServerCall ServerAns)} {fci : FcallInfo}
    {params : List CZval} {r : InvokeAns} (hlog : log = ⟨.invoke fci params, r⟩ :: rest)
    (hrest : ∀ e ∈ rest, e.req.NoInvoke) : log.filterMap invocation = [.invoked fci.ref] := by
  have hnone : rest.filterMap invocation = [] :=
    List.filterMap_eq_nil_iff.mpr fun e he => invocation_eq_none (hrest e he)
  rw [hlog, List.filterMap_cons, hnone]
  rfl

theorem step_log (a : ServerAction) :
    (g.step env h a).log = g.log ++ g.events a := by
  cases a with
  | on event fci =>
    unfold ServerState.step memcachedServerOn ServerState.events
    dsimp only
    cases serverEvent? event with
    | none => exact (List.append_nil _).symm
    | some e =>
      dsimp only
      split_ifs
      · exact List.append_assoc _ _ _
      · exact (List.append_nil _).symm
  | command cookie c =>
    refine congrArg (g.log ++ ·) ?_
    show _ = if memcHasCb g.callbacks c.event = true then _ else _
    cases hcb : memcHasCb g.callbacks c.event with
    | true =>
      obtain ⟨rest, hlog, hrest⟩ := log_handle env hcb h cookie () g.world
      exact invocations_of_log hlog hrest
    | false =>
      show List.filterMap _ _ = []
      rw [log_handle_of_not_hasCb env hcb]
      rfl
  | connect remoteAddr =>
    refine congrArg (g.log ++ ·) ?_
    show _ = if memcHasCb g.callbacks .connect = true then _ else _
    cases hcb : memcHasCb g.callbacks .connect with
    | true =>
      obtain ⟨rest, hlog, hrest⟩ := log_withCallback env hcb true (connectParams remoteAddr)
        (f := fun r => pure (responseStatus r.1 == responseSuccess)) (fun _ _ => trivial) h ()
        g.world
      exact invocations_of_log hlog hrest
    | false =>
      show List.filterMap _ (Cmd.log h (sOnConnect env g.callbacks remoteAddr) () g.world) = []
      rw [sOnConnect, withCallback_neg hcb]
      rfl
  | endRun rc => rfl

/-- a registration puts its callback in place -/
theorem step_of_registers {a : ServerAction} {e : ServerEvent} (ha : a.Registers e) :
    ∃ fci : FcallInfo, 0 < fci.size ∧ fci.ref = g.taken ∧ a.refs g.taken = fci.refs ∧
      (g.step env h a).callbacks = Function.update g.callbacks e fci ∧
      (g.step env h a).taken = g.taken + 1 := by
  cases a with
  | on event fci =>
    obtain ⟨he, hsize⟩ := ha
    refine ⟨{ fci with ref := g.taken }, hsize, rfl, rfl, ?_⟩
    unfold ServerState.step memcachedServerOn
    dsimp only
    rw [he]
    dsimp only
    rw [if_pos hsize]
    exact ⟨rfl, rfl⟩
  | _ => exact ha.elim

/-- every other step leaves the table alone -/
theorem step_of_not_registers {a : ServerAction} (ha : ∀ e, ¬ a.Registers e) :
    (g.step env h a).callbacks = g.callbacks ∧ (g.step env h a).taken = g.taken := by
  cases a with
  | on event fci =>
    unfold ServerState.step memcachedServerOn
    dsimp only
    cases he : serverEvent? event with
    | none => exact ⟨rfl, rfl⟩
    | some e =>
      dsimp only
      rw [if_neg fun hsize => ha e ⟨he, hsize⟩]
      exact ⟨rfl, rfl⟩
  | _ => exact ⟨rfl, rfl⟩

/-- the callback of an event stays if it is neither replaced nor released -/
theorem step_callbacks_of_not_releases {a : ServerAction} {e : ServerEvent}
    (ha : ¬ a.Releases e) : (g.step env h a).callbacks e = g.callbacks e := by
  by_cases hreg : ∃ e', a.Registers e'
  · obtain ⟨e', ha'⟩ := hreg
    have hne : e ≠ e' := by
      rintro rfl
      cases a with
      | on event fci => exact ha ha'
      | _ => exact ha'.elim
    obtain ⟨fci, -, -, -, hcb, -⟩ := step_of_registers env h g ha'
    rw [hcb, Function.update_of_ne hne]
  · rw [(step_of_not_registers env h g fun e' ha' => hreg ⟨e', ha'⟩).1]

variable {g}

theorem FcallInfo.on_of_mem_refs {fci : FcallInfo} {r : Ref} (hr : r ∈ fci.refs) :
    r.on = fci.ref := by
  unfold FcallInfo.refs at hr
  rcases List.mem_cons.mp hr with rfl | hr
  · rfl
  · split_ifs at hr
    · rw [List.mem_singleton.mp hr]
    · cases hr

theorem FcallInfo.mem_refs (fci : FcallInfo) : (⟨fci.ref, false⟩ : Ref) ∈ fci.refs :=
  List.mem_cons_self

theorem FcallInfo.nodup_refs (fci : FcallInfo) : fci.refs.Nodup := by
  unfold FcallInfo.refs
  split_ifs <;> simp

theorem Registers.event_eq {a : ServerAction} {e e' : ServerEvent} (h : a.Registers e)
    (h' : a.Registers e') : e = e' := by
  cases a with
  | on event fci => exact Option.some.inj (h.1.symm.trans h'.1)
  | _ => exact h.elim

/-- a registration releases the callback it replaces -/
theorem events_of_registers {a : ServerAction} {e : ServerEvent} (ha : a.Registers e) :
    ∃ fci : FcallInfo, g.events a = sDestroyCb (g.callbacks e) ++ fci.refs.map .taken := by
  cases a with
  | on event fci =>
    obtain ⟨he, hsize⟩ := ha
    refine ⟨{ fci with ref := g.taken }, ?_⟩
    unfold ServerState.events
    dsimp only
    rw [he]
    exact if_pos hsize
  | _ => exact ha.elim

/-- a registration with a number that is no event's, or with NULL -/
theorem events_eq_nil {event : Int64} {fci : FcallInfo}
    (ha : ∀ e, ¬ (ServerAction.on event fci).Registers e) : g.events (.on event fci) = [] := by
  unfold ServerState.events
  dsimp only
  cases he : serverEvent? event with
  | none => rfl
  | some e => exact if_neg fun hsize => ha e ⟨he, hsize⟩

theorem mem_sDestroyCb {fci : FcallInfo} {x : RefEvent} :
    x ∈ sDestroyCb fci ↔ 0 < fci.size ∧ ∃ r ∈ fci.refs, .released r = x := by
  unfold sDestroyCb
  split_ifs with hsize
  · exact List.mem_map.trans (and_iff_right hsize).symm
  · exact iff_of_false List.not_mem_nil fun h => hsize h.1

/-- what a step releases: the references of the callbacks it replaces, or of all -/
theorem released_mem_events {a : ServerAction} {r : Ref} :
    .released r ∈ g.events a ↔
      ∃ e, a.Releases e ∧ 0 < (g.callbacks e).size ∧ r ∈ (g.callbacks e).refs := by
  have hdestroy : ∀ fci : FcallInfo,
      RefEvent.released r ∈ sDestroyCb fci ↔ 0 < fci.size ∧ r ∈ fci.refs := fun fci => by
    rw [mem_sDestroyCb]
    refine and_congr_right fun _ => ⟨?_, fun hr => ⟨r, hr, rfl⟩⟩
    rintro ⟨r', hr', heq⟩
    exact RefEvent.released.inj heq ▸ hr'
  by_cases hreg : ∃ e, a.Registers e
  · obtain ⟨e, ha⟩ := hreg
    obtain ⟨fci, hev⟩ := events_of_registers (g := g) ha
    have hrel : ∀ e', a.Releases e' ↔ e' = e := fun e' => by
      cases a with
      | on event fci =>
        exact ⟨fun h' => Registers.event_eq (a := .on event fci) h' ha, fun heq => heq ▸ ha⟩
      | _ => exact ha.elim
    rw [hev, List.mem_append, hdestroy]
    constructor
    · rintro (hd | htaken)
      · exact ⟨e, (hrel e).mpr rfl, hd⟩
      · obtain ⟨_, _, heq⟩ := List.mem_map.mp htaken
        cases heq
    · rintro ⟨e', he', hd⟩
      exact .inl ((hrel e').mp he' ▸ hd)
  · have hnot : ∀ e, ¬ a.Registers e := fun e ha => hreg ⟨e, ha⟩
    cases a with
    | on event fci =>
      rw [events_eq_nil hnot]
      exact iff_of_false List.not_mem_nil fun ⟨e, he, _⟩ => hnot e he
    | endRun rc =>
      refine List.mem_flatMap.trans ?_
      constructor
      · rintro ⟨e, _, hd⟩
        exact ⟨e, trivial, (hdestroy _).mp hd⟩
      · rintro ⟨e, _, hd⟩
        exact ⟨e, mem_serverEvents e, (hdestroy _).mpr hd⟩
    | command cookie c =>
      refine iff_of_false (fun hmem => ?_) fun ⟨_, hfalse, _⟩ => hfalse
      unfold ServerState.events at hmem
      dsimp only at hmem
      split_ifs at hmem
      · cases List.mem_singleton.mp hmem
      · cases hmem
    | connect remoteAddr =>
      refine iff_of_false (fun hmem => ?_) fun ⟨_, hfalse, _⟩ => hfalse
      unfold ServerState.events at hmem
      dsimp only at hmem
      split_ifs at hmem
      · cases List.mem_singleton.mp hmem
      · cases hmem

/-- what a step calls: the callback of its event -/
theorem invoked_mem_events {a : ServerAction} {n : Nat} (hn : .invoked n ∈ g.events a) :
    ∃ e, a.Touches e ∧ 0 < (g.callbacks e).size ∧ n = (g.callbacks e).ref ∧
      g.events a = [.invoked n] := by
  have hdestroy : ∀ fci : FcallInfo, RefEvent.invoked n ∉ sDestroyCb fci := fun fci hmem => by
    obtain ⟨_, _, _, heq⟩ := mem_sDestroyCb.mp hmem
    cases heq
  have hcalled : ∀ e, a.Touches e →
      g.events a = (if memcHasCb g.callbacks e then [.invoked (g.callbacks e).ref] else []) →
      ∃ e, a.Touches e ∧ 0 < (g.callbacks e).size ∧ n = (g.callbacks e).ref ∧
        g.events a = [.invoked n] := fun e he hev => by
    rw [hev] at hn
    split_ifs at hn with hcb
    · have heq := RefEvent.invoked.inj (List.mem_singleton.mp hn)
      rw [if_pos hcb, ← heq] at hev
      exact ⟨e, he, of_decide_eq_true hcb, heq, hev⟩
    · cases hn
  cases a with
  | command cookie c => exact hcalled c.event rfl rfl
  | connect remoteAddr => exact hcalled .connect rfl rfl
  | endRun rc =>
    obtain ⟨e, _, he⟩ := List.mem_flatMap.mp hn
    exact absurd he (hdestroy _)
  | on event fci =>
    by_cases hreg : ∃ e, (ServerAction.on event fci).Registers e
    · obtain ⟨e, ha⟩ := hreg
      obtain ⟨fci', hev⟩ := events_of_registers (g := g) ha
      rw [hev] at hn
      rcases List.mem_append.mp hn with hd | htaken
      · exact absurd hd (hdestroy _)
      · obtain ⟨_, _, heq⟩ := List.mem_map.mp htaken
        cases heq
    · rw [events_eq_nil fun e ha => hreg ⟨e, ha⟩] at hn
      cases hn

/-! ## what holds of every sequence -/

/-- a callback is there once it is registered, with references of its own -/
structure Held (trace : List ServerAction) (g : ServerState σ) : Prop where
  registered : ∀ e, 0 < (g.callbacks e).size ↔ ∃ a ∈ trace, a.Registers e
  ref_lt : ∀ e, 0 < (g.callbacks e).size → (g.callbacks e).ref < g.taken
  ref_inj : ∀ e e', 0 < (g.callbacks e).size → 0 < (g.callbacks e').size →
    (g.callbacks e).ref = (g.callbacks e').ref → e = e'
  released_lt : ∀ r : Ref, .released r ∈ g.log → r.on < g.taken

theorem Held.start (w : σ) : Held [] (ServerState.start w) where
  registered _ := iff_of_false (Nat.lt_irrefl 0) fun ⟨_, ha, _⟩ => nomatch ha
  ref_lt _ he := absurd he (Nat.lt_irrefl 0)
  ref_inj _ _ he := absurd he (Nat.lt_irrefl 0)
  released_lt _ hr := nomatch hr

variable (env : ServerEnv) (h : Handler ServerCall ServerAns σ) {trace : List ServerAction}

/-- the references released so far, before and in a step -/
theorem Held.released_step (hg : Held trace g) {a : ServerAction} {r : Ref}
    (hr : .released r ∈ (g.step env h a).log) : r.on < g.taken := by
  rw [step_log, List.mem_append] at hr
  rcases hr with hr | hr
  · exact hg.released_lt r hr
  · obtain ⟨e, _, hsize, hmem⟩ := released_mem_events.mp hr
    rw [FcallInfo.on_of_mem_refs hmem]
    exact hg.ref_lt e hsize

theorem Held.step (hg : Held trace g) (a : ServerAction) :
    Held (trace ++ [a]) (g.step env h a) := by
  by_cases hreg : ∃ e, a.Registers e
  · obtain ⟨e₀, ha⟩ := hreg
    obtain ⟨fci, hsize, href, -, hcb, htaken⟩ := step_of_registers env h g ha
    have hself : (g.step env h a).callbacks e₀ = fci := by rw [hcb, Function.update_self]
    have hother : ∀ e, e ≠ e₀ → (g.step env h a).callbacks e = g.callbacks e := fun e he => by
      rw [hcb, Function.update_of_ne he]
    have hlt : ∀ e, e ≠ e₀ → 0 < (g.callbacks e).size → (g.callbacks e).ref ≠ fci.ref :=
      fun e _ hs => href ▸ Nat.ne_of_lt (hg.ref_lt e hs)
    refine ⟨fun e => ?_, fun e hs => ?_, fun e e' hs hs' heq => ?_, fun r hr => ?_⟩
    · by_cases he : e = e₀
      · subst he
        rw [hself]
        exact iff_of_true hsize ⟨a, List.mem_append_right _ List.mem_cons_self, ha⟩
      · rw [hother e he, hg.registered e]
        constructor
        · rintro ⟨b, hb, hbe⟩
          exact ⟨b, List.mem_append_left _ hb, hbe⟩
        · rintro ⟨b, hb, hbe⟩
          rcases List.mem_append.mp hb with hb | hb
          · exact ⟨b, hb, hbe⟩
          · rw [List.mem_singleton.mp hb] at hbe
            exact absurd (Registers.event_eq hbe ha) he
    · rw [htaken]
      by_cases he : e = e₀
      · subst he
        rw [hself, href]
        exact Nat.lt_succ_self _
      · rw [hother e he] at hs ⊢
        exact Nat.lt_succ_of_lt (hg.ref_lt e hs)
    · by_cases he : e = e₀ <;> by_cases he' : e' = e₀
      · rw [he, he']
      · rw [he, hself, hother e' he'] at heq
        rw [hother e' he'] at hs'
        exact absurd heq.symm (hlt e' he' hs')
      · rw [he', hself, hother e he] at heq
        rw [hother e he] at hs
        exact absurd heq (hlt e he hs)
      · rw [hother e he] at hs heq
        rw [hother e' he'] at hs' heq
        exact hg.ref_inj e e' hs hs' heq
    · rw [htaken]
      exact Nat.lt_succ_of_lt (hg.released_step env h hr)
  · have hnot : ∀ e, ¬ a.Registers e := fun e ha => hreg ⟨e, ha⟩
    obtain ⟨hcb, htaken⟩ := step_of_not_registers env h g hnot
    refine ⟨fun e => ?_, fun e => ?_, fun e e' => ?_, fun r hr => ?_⟩
    · rw [hcb, hg.registered e]
      constructor
      · rintro ⟨b, hb, hbe⟩
        exact ⟨b, List.mem_append_left _ hb, hbe⟩
      · rintro ⟨b, hb, hbe⟩
        rcases List.mem_append.mp hb with hb | hb
        · exact ⟨b, hb, hbe⟩
        · rw [List.mem_singleton.mp hb] at hbe
          exact absurd hbe (hnot e)
    · rw [hcb, htaken]
      exact hg.ref_lt e
    · rw [hcb]
      exact hg.ref_inj e e'
    · rw [htaken]
      exact hg.released_step env h hr

variable (w : σ)

theorem after_snoc (trace : List ServerAction) (a : ServerAction) :
    ServerState.after env h w (trace ++ [a]) = (ServerState.after env h w trace).step env h a := by
  unfold ServerState.after
  rw [List.foldl_append]
  rfl

theorem held_after (trace : List ServerAction) :
    Held trace (ServerState.after env h w trace) := by
  induction trace using List.reverseRecOn with
  | nil => exact Held.start w
  | append_singleton l a ih =>
    rw [after_snoc]
    exact ih.step env h a

/-! ## every reference that is due is released -/

variable {w}

/-- a registered callback stays until it is released -/
theorem released_or_held {l₁ : List ServerAction} {a : ServerAction} {e : ServerEvent}
    (ha : a.Registers e) (l₂ : List ServerAction) :
    let g := ServerState.after env h w (l₁ ++ a :: l₂)
    (∀ r ∈ a.refs (ServerState.after env h w l₁).taken, .released r ∈ g.log) ∨
      ((∀ b ∈ l₂, ¬ b.Releases e) ∧ 0 < (g.callbacks e).size ∧
        (g.callbacks e).refs = a.refs (ServerState.after env h w l₁).taken) := by
  induction l₂ using List.reverseRecOn with
  | nil =>
    obtain ⟨fci, hsize, -, hrefs, hcb, -⟩ :=
      step_of_registers env h (ServerState.after env h w l₁) ha
    refine .inr ⟨List.forall_mem_nil _, ?_⟩
    rw [after_snoc, hcb, Function.update_self]
    exact ⟨hsize, hrefs.symm⟩
  | append_singleton l₂ b ih =>
    intro g
    have hg : g = (ServerState.after env h w (l₁ ++ a :: l₂)).step env h b := by
      rw [← after_snoc, List.append_assoc]
      rfl
    rw [hg]
    rcases ih with hdone | ⟨hnone, hsize, hrefs⟩
    · refine .inl fun r hr => ?_
      rw [step_log]
      exact List.mem_append_left _ (hdone r hr)
    · by_cases hb : b.Releases e
      · refine .inl fun r hr => ?_
        rw [step_log]
        exact List.mem_append_right _ (released_mem_events.mpr ⟨e, hb, hsize, hrefs ▸ hr⟩)
      · refine .inr ⟨?_, ?_⟩
        · intro b' hb'
          rcases List.mem_append.mp hb' with hb' | hb'
          · exact hnone b' hb'
          · exact List.mem_singleton.mp hb' ▸ hb
        · rw [step_callbacks_of_not_releases env h _ hb]
          exact ⟨hsize, hrefs⟩

/-- **No reference is forgotten.** -/
theorem due_released {l₁ l₂ : List ServerAction} {a : ServerAction} {e : ServerEvent}
    (ha : a.Registers e) (hdue : ∃ b ∈ l₂, b.Releases e) :
    ∀ r ∈ a.refs (ServerState.after env h w l₁).taken,
      .released r ∈ (ServerState.after env h w (l₁ ++ a :: l₂)).log := by
  rcases released_or_held env h ha l₂ with hdone | ⟨hnone, -⟩
  · exact hdone
  · obtain ⟨b, hb, hbe⟩ := hdue
    exact absurd hbe (hnone b hb)

/-! ## what holds if nothing is reused -/

theorem Spent.snoc {e : ServerEvent} {l : List ServerAction} (hs : Spent e l) (a : ServerAction) :
    Spent e (l ++ [a]) := by
  obtain ⟨l₁, rc, l₂, rfl, hreg⟩ := hs
  exact ⟨l₁, rc, l₂ ++ [a], by rw [List.append_assoc, List.cons_append], hreg⟩

/-- a run ends that did not end before, or nothing changes -/
theorem spent_snoc_iff {e : ServerEvent} {l : List ServerAction} {a : ServerAction} :
    Spent e (l ++ [a]) ↔ Spent e l ∨ ((∃ rc, a = .endRun rc) ∧ ∃ b ∈ l, b.Registers e) := by
  constructor
  · rintro ⟨l₁, rc, l₂, heq, hreg⟩
    rcases List.eq_nil_or_concat l₂ with rfl | ⟨l₂, b, rfl⟩
    · obtain ⟨rfl, ha⟩ := List.append_inj' heq rfl
      exact .inr ⟨⟨rc, (List.cons.inj ha).1⟩, hreg⟩
    · rw [List.concat_eq_append, ← List.cons_append, ← List.append_assoc] at heq
      exact .inl ⟨l₁, rc, l₂, (List.append_inj' heq rfl).1, hreg⟩
  · rintro (hs | ⟨⟨rc, rfl⟩, hreg⟩)
    · exact hs.snoc a
    · exact ⟨l, rc, [], rfl, hreg⟩

theorem noReuse_snoc_iff {l : List ServerAction} {a : ServerAction} :
    NoReuse (l ++ [a]) ↔ NoReuse l ∧ ∀ e, Spent e l → ¬ a.Touches e := by
  constructor
  · intro hno
    refine ⟨fun l₁ b l₂ e heq => hno l₁ b (l₂ ++ [a]) e ?_, fun e => hno l a [] e rfl⟩
    rw [heq, List.append_assoc, List.cons_append]
  · rintro ⟨hno, hlast⟩ l₁ b l₂ e heq
    rcases List.eq_nil_or_concat l₂ with rfl | ⟨l₂, c, rfl⟩
    · obtain ⟨rfl, ha⟩ := List.append_inj' heq rfl
      exact (List.cons.inj ha).1 ▸ hlast e
    · rw [List.concat_eq_append, ← List.cons_append, ← List.append_assoc] at heq
      exact hno l₁ b l₂ e (List.append_inj' heq rfl).1

theorem touches_of_releases {a : ServerAction} {e : ServerEvent} (ha : a.Releases e) :
    a.Touches e := by
  cases a with
  | command => exact ha.elim
  | connect => exact ha.elim
  | _ => exact ha

/-- the references in the table are held, but for those released at the end of a run -/
structure Clean (trace : List ServerAction) (g : ServerState σ) : Prop where
  fresh : ∀ e, 0 < (g.callbacks e).size → ¬ Spent e trace →
    ∀ r : Ref, r.on = (g.callbacks e).ref → .released r ∉ g.log
  stale : ∀ e, Spent e trace →
    0 < (g.callbacks e).size ∧ ∀ r ∈ (g.callbacks e).refs, .released r ∈ g.log
  once : (g.log.filterMap releasedRef).Nodup
  alive : g.log.Pairwise fun before later =>
    ∀ (r : Ref) (n : Nat), before = .released r → later = .invoked n → r.on ≠ n

theorem not_spent_nil (e : ServerEvent) : ¬ Spent e [] := by
  rintro ⟨l₁, rc, l₂, heq, _⟩
  exact absurd heq.symm (List.append_ne_nil_of_right_ne_nil _ (List.cons_ne_nil _ _))

theorem Clean.start (w : σ) : Clean [] (ServerState.start w) where
  fresh _ _ _ _ _ := List.not_mem_nil
  stale e hs := absurd hs (not_spent_nil e)
  once := List.nodup_nil
  alive := List.Pairwise.nil

theorem mem_releasedRef {log : List RefEvent} {r : Ref} :
    r ∈ log.filterMap releasedRef ↔ .released r ∈ log := by
  refine List.mem_filterMap.trans ⟨?_, fun hr => ⟨_, hr, rfl⟩⟩
  rintro ⟨x, hx, heq⟩
  cases x with
  | released r' => exact Option.some.inj heq ▸ hx
  | _ => cases heq

theorem releasedRef_sDestroyCb (fci : FcallInfo) :
    (sDestroyCb fci).filterMap releasedRef = if 0 < fci.size then fci.refs else [] := by
  have hmap : ∀ l : List Ref, (l.map RefEvent.released).filterMap releasedRef = l := fun l => by
    rw [List.filterMap_map]
    exact List.filterMap_some
  unfold sDestroyCb
  split_ifs
  · exact hmap _
  · rfl

/-- a step releases no reference twice -/
theorem Held.nodup_events (hg : Held trace g) (a : ServerAction) :
    ((g.events a).filterMap releasedRef).Nodup := by
  have hone : ∀ fci : FcallInfo, ((sDestroyCb fci).filterMap releasedRef).Nodup := fun fci => by
    rw [releasedRef_sDestroyCb]
    split_ifs
    · exact fci.nodup_refs
    · exact List.nodup_nil
  have hnone : ∀ l : List RefEvent, (∀ x ∈ l, releasedRef x = none) →
      (l.filterMap releasedRef).Nodup := fun l hl => by
    rw [List.filterMap_eq_nil_iff.mpr hl]
    exact List.nodup_nil
  cases a with
  | on event fci =>
    by_cases hreg : ∃ e, (ServerAction.on event fci).Registers e
    · obtain ⟨e, ha⟩ := hreg
      obtain ⟨fci', hev⟩ := events_of_registers (g := g) ha
      have htaken : (fci'.refs.map RefEvent.taken).filterMap releasedRef = [] := by
        rw [List.filterMap_map]
        exact List.filterMap_eq_nil_iff.mpr fun _ _ => rfl
      rw [hev, List.filterMap_append, htaken, List.append_nil]
      exact hone _
    · rw [events_eq_nil fun e ha => hreg ⟨e, ha⟩]
      exact List.nodup_nil
  | command cookie c =>
    refine hnone _ fun x hx => ?_
    unfold ServerState.events at hx
    dsimp only at hx
    split_ifs at hx
    · rw [List.mem_singleton.mp hx]
      rfl
    · cases hx
  | connect remoteAddr =>
    refine hnone _ fun x hx => ?_
    unfold ServerState.events at hx
    dsimp only at hx
    split_ifs at hx
    · rw [List.mem_singleton.mp hx]
      rfl
    · cases hx
  | endRun rc =>
    show ((serverEvents.flatMap _).filterMap releasedRef).Nodup
    rw [List.filterMap_flatMap, List.nodup_flatMap]
    refine ⟨fun e _ => hone _, ?_⟩
    have hdistinct : serverEvents.Pairwise (· ≠ ·) := by decide
    refine hdistinct.imp fun {e e'} hne r hr hr' => ?_
    dsimp only at hr hr'
    rw [releasedRef_sDestroyCb] at hr hr'
    split_ifs at hr hr' with hs hs'
    · have heq := (FcallInfo.on_of_mem_refs hr).symm.trans (FcallInfo.on_of_mem_refs hr')
      exact hne (hg.ref_inj e e' hs hs' heq)
    · cases hr'
    · cases hr
    · cases hr

theorem Clean.step (hg : Held trace g) (hc : Clean trace g) {a : ServerAction}
    (ha : ∀ e, Spent e trace → ¬ a.Touches e) : Clean (trace ++ [a]) (g.step env h a) := by
  -- what a step releases or calls was registered and is not released
  have hunspent : ∀ e, a.Touches e → ¬ Spent e trace := fun e he hs => ha e hs he
  refine ⟨fun e hsize hns r hr hmem => ?_, fun e hs => ?_, ?_, ?_⟩
  · by_cases hrel : a.Releases e
    · have hreg : a.Registers e := by
        cases a with
        | endRun rc =>
          have hin := (hg.registered e).mp hsize
          exact absurd (spent_snoc_iff.mpr (.inr ⟨⟨rc, rfl⟩, hin⟩)) hns
        | on event fci => exact hrel
        | _ => exact hrel.elim
      obtain ⟨fci, -, href, -, hcb, -⟩ := step_of_registers env h g hreg
      rw [hcb, Function.update_self, href] at hr
      exact absurd hr (Nat.ne_of_lt (hg.released_step env h hmem))
    · rw [step_callbacks_of_not_releases env h g hrel] at hsize hr
      rw [step_log, List.mem_append] at hmem
      rcases hmem with hmem | hmem
      · exact hc.fresh e hsize (fun hs => hns (hs.snoc a)) r hr hmem
      · obtain ⟨e', hrel', hsize', hrefs⟩ := released_mem_events.mp hmem
        have heq := hg.ref_inj e' e hsize' hsize
          ((FcallInfo.on_of_mem_refs hrefs).symm.trans hr)
        exact hrel (heq ▸ hrel')
  · rcases spent_snoc_iff.mp hs with hs | ⟨⟨rc, rfl⟩, hreg⟩
    · obtain ⟨hsize, hrefs⟩ := hc.stale e hs
      rw [step_callbacks_of_not_releases env h g fun hrel => ha e hs (touches_of_releases hrel),
        step_log]
      exact ⟨hsize, fun r hr => List.mem_append_left _ (hrefs r hr)⟩
    · have hsize := (hg.registered e).mpr hreg
      refine ⟨hsize, fun r hr => ?_⟩
      rw [step_log]
      exact List.mem_append_right _ (released_mem_events.mpr ⟨e, trivial, hsize, hr⟩)
  · rw [step_log, List.filterMap_append, List.nodup_append']
    refine ⟨hc.once, hg.nodup_events a, fun r hold hnew => ?_⟩
    obtain ⟨e, hrel, hsize, hrefs⟩ := released_mem_events.mp (mem_releasedRef.mp hnew)
    exact hc.fresh e hsize (hunspent e (touches_of_releases hrel)) r
      (FcallInfo.on_of_mem_refs hrefs) (mem_releasedRef.mp hold)
  · rw [step_log, List.pairwise_append]
    refine ⟨hc.alive, ?_, ?_⟩
    · refine List.pairwise_of_forall_mem_list fun x hx y hy r n hxr hyn => ?_
      subst hxr hyn
      obtain ⟨_, _, _, _, hev⟩ := invoked_mem_events hy
      rw [hev] at hx
      cases List.mem_singleton.mp hx
    · intro x hx y hy r n hxr hyn hon
      subst hxr hyn
      obtain ⟨e, htouch, hsize, href, _⟩ := invoked_mem_events hy
      exact hc.fresh e hsize (hunspent e htouch) r (hon.trans href) hx

theorem clean_after (hno : NoReuse trace) : Clean trace (ServerState.after env h w trace) := by
  induction trace using List.reverseRecOn with
  | nil => exact Clean.start w
  | append_singleton l a ih =>
    obtain ⟨hl, ha⟩ := noReuse_snoc_iff.mp hno
    rw [after_snoc]
    exact (ih hl).step env h (held_after env h w l) ha

/-- a callback that is touched and not released is called -/
theorem invoked_of_touches {a : ServerAction} {e : ServerEvent} (ht : a.Touches e)
    (hrel : ¬ a.Releases e) (hsize : 0 < (g.callbacks e).size) :
    .invoked (g.callbacks e).ref ∈ g.events a := by
  have hcb : memcHasCb g.callbacks e = true := decide_eq_true hsize
  cases a with
  | on event fci => exact absurd ht hrel
  | endRun rc => exact absurd trivial hrel
  | command cookie c =>
    obtain rfl : c.event = e := ht
    show RefEvent.invoked _ ∈ ite _ _ _
    rw [if_pos hcb]
    exact List.mem_cons_self
  | connect remoteAddr =>
    obtain rfl : e = .connect := ht
    show RefEvent.invoked _ ∈ ite _ _ _
    rw [if_pos hcb]
    exact List.mem_cons_self

/-- a callback that is touched after its release is released again, or called -/
theorem noReuse_of_balanced (honce : ((ServerState.after env h w trace).log.filterMap releasedRef).Nodup)
    (halive : (ServerState.after env h w trace).log.Pairwise fun before later =>
      ∀ (r : Ref) (n : Nat), before = .released r → later = .invoked n → r.on ≠ n) :
    NoReuse trace := by
  induction trace using List.reverseRecOn with
  | nil =>
    intro l₁ a l₂ e heq
    exact absurd heq.symm (List.append_ne_nil_of_right_ne_nil _ (List.cons_ne_nil _ _))
  | append_singleton l a ih =>
    rw [after_snoc, step_log, List.filterMap_append, List.nodup_append'] at honce
    rw [after_snoc, step_log, List.pairwise_append] at halive
    have hno := ih honce.1 halive.1
    refine noReuse_snoc_iff.mpr ⟨hno, fun e hs ht => ?_⟩
    obtain ⟨hsize, hrefs⟩ := (clean_after env h (w := w) hno).stale e hs
    have hold := hrefs _ (FcallInfo.mem_refs _)
    by_cases hrel : a.Releases e
    · have hnew := released_mem_events.mpr ⟨e, hrel, hsize, FcallInfo.mem_refs _⟩
      exact honce.2.2 (mem_releasedRef.mpr hold) (mem_releasedRef.mpr hnew)
    · exact halive.2.2 _ hold _ (invoked_of_touches ht hrel hsize) _ _ rfl rfl rfl

/-- **When the references to callbacks are balanced.** -/
theorem callbacks_balanced_iff (env : ServerEnv) (h : Handler ServerCall ServerAns σ) (w : σ)
    (trace : List ServerAction) : Balanced env h w trace ↔ NoReuse trace := by
  constructor
  · exact fun hb => noReuse_of_balanced env h hb.once hb.alive
  · intro hno
    have hc := clean_after env h (w := w) hno
    refine ⟨hc.once, fun l₁ a l₂ e heq ha hdue => ?_, hc.alive⟩
    subst heq
    exact due_released env h ha hdue

end

/-! ## a run that is repeated -/

/-- a callback for `get`, and two runs that fail at once -/
def failingTwice : List ServerAction :=
  [.on 6 ⟨64, .obj 1, none, 0⟩, .endRun false, .endRun false]

/-- the failing case: the second run releases the callback again -/
theorem callbacks_released_twice :
    ¬ ∀ (env : ServerEnv) (h : Handler ServerCall ServerAns Unit) (trace : List ServerAction),
      Balanced env h () trace := by
  intro hclaim
  have honce := (hclaim plainServer noCallbacks failingTwice).once
  exact absurd honce (by decide)

end PhpMemcached
