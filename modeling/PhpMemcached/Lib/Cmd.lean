import PhpMemcached.Lib.Prog

/-!
# Commands: request programs with a state that may stop for good

A `Cmd ι ρ ε S α` works on a state of its own, issues requests, and ends either with a result or
with a `stop`, from which nothing after it is run (a fatal error, a crash).

* `Cmd.get`, `modify`, `req`, `stop`, `when`  the basic commands;
* `Cmd.retry more again n a`                  from the result `a`, again while `more`, `n` times at
                                              most;
* `exec h m s w`, `log h m s w`               the run against the machine `h` in state `w`;
* `Cmd.Ran view h m s w o w' l`               the run ends with `o` in `w'`, and `view` sees `l` in its
                                              log;
* `Cmd.Ends φ O m s`                          for all answers: the requests satisfy `φ`, the outcome
                                              satisfies `O`;
* `Cmd.Sat φ Q m s`                           the same with a stop not judged;
* `Cmd.Asks φ m s`                            the requests alone.
-/

namespace Requests

inductive Outcome (ε S α : Type) : Type where
  | done (a : α) (s : S)
  | stop (e : ε) (s : S)

/-- the state at the end -/
def Outcome.state {ε S α : Type} : Outcome ε S α → S
  | .done _ s | .stop _ s => s

/-- a command on states `S`, with requests `ι`, stopping with an `ε` -/
def Cmd (ι : Type) (ρ : ι → Type) (ε S α : Type) : Type := S → Prog ι ρ (Outcome ε S α)

namespace Cmd
variable {ι : Type} {ρ : ι → Type} {ε S σ α β γ : Type}

/-- what follows an outcome -/
def andThen (f : α → Cmd ι ρ ε S β) : Outcome ε S α → Prog ι ρ (Outcome ε S β)
  | .done a s => f a s
  | .stop e s => .ret (.stop e s)

@[simp] theorem andThen_done (f : α → Cmd ι ρ ε S β) (a : α) (s : S) :
    andThen f (.done a s) = f a s := rfl
@[simp] theorem andThen_stop (f : α → Cmd ι ρ ε S β) (e : ε) (s : S) :
    andThen f (.stop e s) = .ret (.stop e s) := rfl

instance : Monad (Cmd ι ρ ε S) where
  pure a := fun s => .ret (.done a s)
  bind m f := fun s => m s >>= andThen f

def get : Cmd ι ρ ε S S := fun s => .ret (.done s s)
def modify (f : S → S) : Cmd ι ρ ε S Unit := fun s => .ret (.done () (f s))
def req (i : ι) : Cmd ι ρ ε S (ρ i) := fun s => .call i fun r => .ret (.done r s)
def stop (e : ε) : Cmd ι ρ ε S α := fun s => .ret (.stop e s)

theorem bind_apply (m : Cmd ι ρ ε S α) (f : α → Cmd ι ρ ε S β) (s : S) :
    (m >>= f) s = m s >>= andThen f := rfl

theorem andThen_ret : (andThen fun a s => .ret (.done a s) :
    Outcome ε S α → Prog ι ρ (Outcome ε S α)) = .ret := by
  funext o
  cases o <;> rfl

theorem andThen_andThen (f : α → Cmd ι ρ ε S β) (g : β → Cmd ι ρ ε S γ) :
    (fun o => (andThen f o).bind (andThen g)) = andThen fun a => f a >>= g := by
  funext o
  cases o <;> rfl

instance : LawfulMonad (Cmd ι ρ ε S) := by
  refine LawfulMonad.mk' _ (fun m => ?_) (fun _ _ => rfl) (fun m f g => ?_)
  · funext s
    exact (congrArg (Prog.bind (m s)) andThen_ret).trans (Prog.bind_ret (m s))
  · funext s
    exact (Prog.bind_assoc (m s) (andThen f) (andThen g)).trans
      (congrArg (Prog.bind (m s)) (andThen_andThen f g))

/-- `m` under a condition -/
def when (c : Bool) (m : Cmd ι ρ ε S Unit) : Cmd ι ρ ε S Unit := if c then m else pure ()

@[simp] theorem when_true (m : Cmd ι ρ ε S Unit) : when true m = m := rfl
@[simp] theorem when_false (m : Cmd ι ρ ε S Unit) : when false m = pure () := rfl

/-- from the result `a` on: `again` as long as `more` wants it, at most `n` times -/
def retry (more : S → α → Bool) (again : α → Cmd ι ρ ε S α) : Nat → α → Cmd ι ρ ε S α
  | 0, a => pure a
  | n + 1, a => get >>= fun s => if more s a then again a >>= retry more again n else pure a

theorem retry_of_not_more {more : S → α → Bool} {s : S} {a : α} (h : more s a = false)
    (again : α → Cmd ι ρ ε S α) (n : Nat) : retry more again n a s = .ret (.done a s) := by
  cases n with
  | zero => rfl
  | succ n =>
    show (if more s a then again a >>= retry more again n else pure a : Cmd ι ρ ε S α) s = _
    rw [h]
    rfl

theorem retry_of_more {more : S → α → Bool} {s : S} {a : α} (h : more s a = true)
    (again : α → Cmd ι ρ ε S α) (n : Nat) :
    retry more again (n + 1) a s = (again a >>= retry more again n) s := by
  show (if more s a then again a >>= retry more again n else pure a : Cmd ι ρ ε S α) s = _
  rw [h]
  rfl

/-! ## runs -/

section
variable (h : Handler ι ρ σ)

def exec (m : Cmd ι ρ ε S α) (s : S) (w : σ) : Outcome ε S α × σ := (m s).run h w

def log (m : Cmd ι ρ ε S α) (s : S) (w : σ) : List (Entry ι ρ) := (m s).log h w

@[simp] theorem exec_pure (a : α) (s : S) (w : σ) :
    exec h (pure a : Cmd ι ρ ε S α) s w = (.done a s, w) := rfl
@[simp] theorem exec_get (s : S) (w : σ) :
    exec h (get : Cmd ι ρ ε S S) s w = (.done s s, w) := rfl
@[simp] theorem exec_modify (f : S → S) (s : S) (w : σ) :
    exec h (modify f : Cmd ι ρ ε S Unit) s w = (.done () (f s), w) := rfl
@[simp] theorem exec_req (i : ι) (s : S) (w : σ) :
    exec h (req i : Cmd ι ρ ε S (ρ i)) s w = (.done (h i w).1 s, (h i w).2) := rfl
@[simp] theorem exec_stop (e : ε) (s : S) (w : σ) :
    exec h (stop e : Cmd ι ρ ε S α) s w = (.stop e s, w) := rfl
@[simp] theorem log_pure (a : α) (s : S) (w : σ) :
    log h (pure a : Cmd ι ρ ε S α) s w = [] := rfl
@[simp] theorem log_get (s : S) (w : σ) : log h (get : Cmd ι ρ ε S S) s w = [] := rfl
@[simp] theorem log_modify (f : S → S) (s : S) (w : σ) :
    log h (modify f : Cmd ι ρ ε S Unit) s w = [] := rfl
@[simp] theorem log_req (i : ι) (s : S) (w : σ) :
    log h (req i : Cmd ι ρ ε S (ρ i)) s w = [⟨i, (h i w).1⟩] := rfl
@[simp] theorem log_stop (e : ε) (s : S) (w : σ) :
    log h (stop e : Cmd ι ρ ε S α) s w = [] := rfl

variable {h} {m : Cmd ι ρ ε S α} {f : α → Cmd ι ρ ε S β} {s s' : S} {w w' : σ} {a : α} {e : ε}

theorem exec_bind_done (hm : exec h m s w = (.done a s', w')) :
    exec h (m >>= f) s w = exec h (f a) s' w' := by
  show (m s >>= andThen f).run h w = _
  rw [Prog.run_bind, show (m s).run h w = _ from hm]
  rfl

theorem exec_bind_stop (hm : exec h m s w = (.stop e s', w')) :
    exec h (m >>= f) s w = (.stop e s', w') := by
  show (m s >>= andThen f).run h w = _
  rw [Prog.run_bind, show (m s).run h w = _ from hm]
  rfl

theorem log_bind_done (hm : exec h m s w = (.done a s', w')) :
    log h (m >>= f) s w = log h m s w ++ log h (f a) s' w' := by
  show (m s >>= andThen f).log h w = _
  rw [Prog.log_bind, show (m s).run h w = _ from hm]
  rfl

theorem log_bind_stop (hm : exec h m s w = (.stop e s', w')) :
    log h (m >>= f) s w = log h m s w := by
  show (m s >>= andThen f).log h w = _
  rw [Prog.log_bind, show (m s).run h w = _ from hm]
  exact List.append_nil _

/-- a result of `m >>= f` is one of `f` after one of `m` -/
theorem exec_bind_inv {b : β} (hx : exec h (m >>= f) s w = (.done b s', w')) :
    ∃ a s₁ w₁, exec h m s w = (.done a s₁, w₁) ∧ exec h (f a) s₁ w₁ = (.done b s', w') := by
  cases hm : exec h m s w with
  | mk o w₁ =>
    cases o with
    | done a s₁ => exact ⟨a, s₁, w₁, rfl, (exec_bind_done hm).symm.trans hx⟩
    | stop e s₁ =>
      rw [exec_bind_stop hm] at hx
      cases hx

/-- the same with the log of the run -/
theorem run_bind_inv {b : β} (hx : exec h (m >>= f) s w = (.done b s', w')) :
    ∃ a s₁ w₁, exec h m s w = (.done a s₁, w₁) ∧ exec h (f a) s₁ w₁ = (.done b s', w') ∧
      log h (m >>= f) s w = log h m s w ++ log h (f a) s₁ w₁ := by
  obtain ⟨a, s₁, w₁, hm, hf⟩ := exec_bind_inv hx
  exact ⟨a, s₁, w₁, hm, hf, log_bind_done hm⟩

theorem get_bind_apply (f : S → Cmd ι ρ ε S β) (s : S) : (get >>= f) s = f s s := rfl

theorem get_bind_const (m : Cmd ι ρ ε S α) : (get >>= fun _ => m) = m := rfl

variable (h)

@[simp] theorem exec_get_bind (f : S → Cmd ι ρ ε S β) :
    exec h (get >>= f) s w = exec h (f s) s w := rfl
@[simp] theorem exec_modify_bind (g : S → S) (f : Unit → Cmd ι ρ ε S β) :
    exec h (modify g >>= f) s w = exec h (f ()) (g s) w := rfl
@[simp] theorem exec_req_bind (i : ι) (f : ρ i → Cmd ι ρ ε S β) :
    exec h (req i >>= f) s w = exec h (f (h i w).1) s (h i w).2 := rfl
@[simp] theorem exec_stop_bind (e : ε) (f : α → Cmd ι ρ ε S β) :
    exec h (stop e >>= f) s w = (.stop e s, w) := rfl
@[simp] theorem log_get_bind (f : S → Cmd ι ρ ε S β) :
    log h (get >>= f) s w = log h (f s) s w := rfl
@[simp] theorem log_modify_bind (g : S → S) (f : Unit → Cmd ι ρ ε S β) :
    log h (modify g >>= f) s w = log h (f ()) (g s) w := rfl
@[simp] theorem log_req_bind (i : ι) (f : ρ i → Cmd ι ρ ε S β) :
    log h (req i >>= f) s w = ⟨i, (h i w).1⟩ :: log h (f (h i w).1) s (h i w).2 := rfl
@[simp] theorem log_stop_bind (e : ε) (f : α → Cmd ι ρ ε S β) :
    log h (stop e >>= f) s w = [] := rfl

end

/-! ## runs with a view of their log -/

section
variable {view : Entry ι ρ → Option γ} {h : Handler ι ρ σ} {m : Cmd ι ρ ε S α}
  {f : α → Cmd ι ρ ε S β} {s s₁ : S} {w w₁ w' : σ} {a : α} {l l' : List γ}

/-- the run ends with `o` in `w'`, and `view` sees `l` in its log -/
structure Ran (view : Entry ι ρ → Option γ) (h : Handler ι ρ σ) (m : Cmd ι ρ ε S α) (s : S) (w : σ)
    (o : Outcome ε S α) (w' : σ) (l : List γ) : Prop where
  exec : exec h m s w = (o, w')
  log : (log h m s w).filterMap view = l

theorem Ran.pure (view : Entry ι ρ → Option γ) (h : Handler ι ρ σ) (a : α) (s : S) (w : σ) :
    Ran view h (Pure.pure a : Cmd ι ρ ε S α) s w (.done a s) w [] := ⟨rfl, rfl⟩

theorem Ran.bind {o : Outcome ε S β} (hm : Ran view h m s w (.done a s₁) w₁ l)
    (hf : Ran view h (f a) s₁ w₁ o w' l') : Ran view h (m >>= f) s w o w' (l ++ l') := by
  refine ⟨(exec_bind_done hm.exec).trans hf.exec, ?_⟩
  rw [log_bind_done hm.exec, List.filterMap_append, hm.log, hf.log]

/-- a first part that `view` does not see -/
theorem Ran.bind_unseen {o : Outcome ε S β} (hm : Ran view h m s w (.done a s₁) w₁ [])
    (hf : Ran view h (f a) s₁ w₁ o w' l) : Ran view h (m >>= f) s w o w' l := hm.bind hf

/-- a last part that `view` does not see -/
theorem Ran.bind_last {o : Outcome ε S β} (hm : Ran view h m s w (.done a s₁) w₁ l)
    (hf : Ran view h (f a) s₁ w₁ o w' []) : Ran view h (m >>= f) s w o w' l := by
  rw [← List.append_nil l]
  exact hm.bind hf

/-- a last part that returns what it is given -/
theorem Ran.map {b : β} (g : α → β) (hm : Ran view h m s w (.done a s₁) w₁ l) (hg : g a = b) :
    Ran view h (m >>= fun a => Pure.pure (g a)) s w (.done b s₁) w₁ l := by
  subst hg
  exact hm.bind_last (f := fun a => Pure.pure (g a)) (Ran.pure view h (g a) s₁ w₁)

@[simp] theorem ran_get_bind {f : S → Cmd ι ρ ε S β} {o : Outcome ε S β} :
    Ran view h (get >>= f) s w o w' l ↔ Ran view h (f s) s w o w' l :=
  ⟨fun h => ⟨h.exec, h.log⟩, fun h => ⟨h.exec, h.log⟩⟩
@[simp] theorem ran_modify_bind {g : S → S} {f : Unit → Cmd ι ρ ε S β} {o : Outcome ε S β} :
    Ran view h (modify g >>= f) s w o w' l ↔ Ran view h (f ()) (g s) w o w' l :=
  ⟨fun h => ⟨h.exec, h.log⟩, fun h => ⟨h.exec, h.log⟩⟩

end

/-! ## all answers -/

/-- whatever the answers: the requests of `m` started in `s` satisfy `φ`, the outcome `O` -/
def Ends (φ : ι → Prop) (O : Outcome ε S α → Prop) (m : Cmd ι ρ ε S α) (s : S) : Prop :=
  (m s).Sat φ O

section
variable {φ φ' : ι → Prop} {O : Outcome ε S α → Prop} {P : Outcome ε S β → Prop} {s : S}

@[simp] theorem ends_pure (a : α) :
    Ends φ O (pure a : Cmd ι ρ ε S α) s ↔ O (.done a s) := Iff.rfl
@[simp] theorem ends_stop (e : ε) :
    Ends φ O (stop e : Cmd ι ρ ε S α) s ↔ O (.stop e s) := Iff.rfl
@[simp] theorem ends_get_bind (f : S → Cmd ι ρ ε S β) :
    Ends φ P (get >>= f) s ↔ Ends φ P (f s) s := Iff.rfl
@[simp] theorem ends_modify_bind (g : S → S) (f : Unit → Cmd ι ρ ε S β) :
    Ends φ P (modify g >>= f) s ↔ Ends φ P (f ()) (g s) := Iff.rfl
@[simp] theorem ends_req_bind (i : ι) (f : ρ i → Cmd ι ρ ε S β) :
    Ends φ P (req i >>= f) s ↔ φ i ∧ ∀ r, Ends φ P (f r) s := Iff.rfl

theorem Ends.mono {O' : Outcome ε S α → Prop} {m : Cmd ι ρ ε S α} (hm : Ends φ O m s)
    (hφ : ∀ i, φ i → φ' i) (hO : ∀ o, O o → O' o) : Ends φ' O' m s := Prog.Sat.mono hm hφ hO

theorem Ends.bind {m : Cmd ι ρ ε S α} {f : α → Cmd ι ρ ε S β} (hm : Ends φ O m s)
    (hf : ∀ a s', O (.done a s') → Ends φ P (f a) s')
    (hs : ∀ e s', O (.stop e s') → P (.stop e s')) : Ends φ P (m >>= f) s :=
  Prog.Sat.bind hm fun o ho => match o, ho with
    | .done a s', ho => hf a s' ho
    | .stop e s', ho => hs e s' ho

/-- the outcome of a run is among those judged -/
theorem Ends.exec {m : Cmd ι ρ ε S α} (hm : Ends φ O m s) (h : Handler ι ρ σ) (w : σ) :
    O (exec h m s w).1 := Prog.Sat.run hm h w

theorem Ends.exec_silent {m : Cmd ι ρ ε S α} (hm : Ends (fun _ => False) O m s)
    (h : Handler ι ρ σ) (w : σ) : (Cmd.exec h m s w).2 = w := Prog.Sat.run_silent hm h w

theorem Ends.log {m : Cmd ι ρ ε S α} (hm : Ends φ O m s) (h : Handler ι ρ σ) (w : σ) :
    ∀ e ∈ log h m s w, φ e.req := Prog.Sat.log hm h w

theorem Ends.log_silent {m : Cmd ι ρ ε S α} (hm : Ends (fun _ => False) O m s)
    (h : Handler ι ρ σ) (w : σ) : Cmd.log h m s w = [] :=
  List.eq_nil_iff_forall_not_mem.mpr (hm.log h w)

end

/-- whatever the answers: the requests of `m` started in `s` satisfy `φ`, and if it ends with a
result, result and state satisfy `Q` -/
def Sat (φ : ι → Prop) (Q : α → S → Prop) (m : Cmd ι ρ ε S α) (s : S) : Prop :=
  Ends φ (fun
    | .done a s' => Q a s'
    | .stop _ _ => True) m s

section
variable {φ φ' : ι → Prop} {Q Q' : α → S → Prop} {R : β → S → Prop} {s : S}

@[simp] theorem sat_pure (a : α) : Sat φ Q (pure a : Cmd ι ρ ε S α) s ↔ Q a s := Iff.rfl
@[simp] theorem sat_get {Q : S → S → Prop} : Sat φ Q (get : Cmd ι ρ ε S S) s ↔ Q s s := Iff.rfl
@[simp] theorem sat_modify {Q : Unit → S → Prop} (f : S → S) :
    Sat φ Q (modify f : Cmd ι ρ ε S Unit) s ↔ Q () (f s) := Iff.rfl
@[simp] theorem sat_req (i : ι) {Q : ρ i → S → Prop} :
    Sat φ Q (req i : Cmd ι ρ ε S (ρ i)) s ↔ φ i ∧ ∀ r, Q r s := Iff.rfl
@[simp] theorem sat_stop (e : ε) : Sat φ Q (stop e : Cmd ι ρ ε S α) s ↔ True := Iff.rfl
@[simp] theorem sat_get_bind (f : S → Cmd ι ρ ε S β) :
    Sat φ R (get >>= f) s ↔ Sat φ R (f s) s := Iff.rfl
@[simp] theorem sat_modify_bind (g : S → S) (f : Unit → Cmd ι ρ ε S β) :
    Sat φ R (modify g >>= f) s ↔ Sat φ R (f ()) (g s) := Iff.rfl
@[simp] theorem sat_req_bind (i : ι) (f : ρ i → Cmd ι ρ ε S β) :
    Sat φ R (req i >>= f) s ↔ φ i ∧ ∀ r, Sat φ R (f r) s := Iff.rfl

theorem Sat.mono {m : Cmd ι ρ ε S α} (hm : Sat φ Q m s) (hφ : ∀ i, φ i → φ' i)
    (hQ : ∀ a s', Q a s' → Q' a s') : Sat φ' Q' m s :=
  Prog.Sat.mono hm hφ fun o ho => match o, ho with
    | .done a s', ho => hQ a s' ho
    | .stop _ _, _ => trivial

theorem Sat.and {m : Cmd ι ρ ε S α} (hm : Sat φ Q m s) (hm' : Sat φ' Q' m s) :
    Sat (fun i => φ i ∧ φ' i) (fun a s' => Q a s' ∧ Q' a s') m s :=
  (Prog.Sat.and hm hm').mono (fun _ h => h) fun o ho => by
    cases o with
    | done a s' => exact ho
    | stop e s' => trivial

theorem sat_true (m : Cmd ι ρ ε S α) (s : S) : Sat (fun _ => True) (fun _ _ => True) m s :=
  (Prog.sat_true (m s)).mono (fun _ h => h) fun o _ => by cases o <;> trivial

theorem Sat.bind {m : Cmd ι ρ ε S α} {f : α → Cmd ι ρ ε S β} (hm : Sat φ Q m s)
    (hf : ∀ a s', Q a s' → Sat φ R (f a) s') : Sat φ R (m >>= f) s :=
  Ends.bind hm hf fun _ _ _ => trivial

/-- a sequence is judged part by part -/
theorem sat_bind (m : Cmd ι ρ ε S α) (f : α → Cmd ι ρ ε S β) :
    Sat φ R (m >>= f) s ↔ Sat φ (fun a s' => Sat φ R (f a) s') m s := by
  refine (Prog.sat_bind (m s) (andThen f)).trans ?_
  constructor
  · exact fun hm => Prog.Sat.mono hm (fun _ h => h) fun o ho => by cases o <;> exact ho
  · exact fun hm => Prog.Sat.mono hm (fun _ h => h) fun o ho => by cases o <;> exact ho

theorem Ends.sat {O : Outcome ε S α → Prop} {m : Cmd ι ρ ε S α} (hm : Ends φ O m s) :
    Sat φ (fun a s' => O (.done a s')) m s :=
  hm.mono (fun _ h => h) fun o ho => match o, ho with
    | .done _ _, ho => ho
    | .stop _ _, _ => trivial

theorem Sat.map {m : Cmd ι ρ ε S α} {f : α → β} (hm : Sat φ (fun a => R (f a)) m s) :
    Sat φ R (f <$> m) s := by
  rw [← bind_pure_comp]
  exact hm.bind fun _ _ h => h

theorem Sat.when {c : Bool} {m : Cmd ι ρ ε S Unit} {Q : Unit → S → Prop}
    (hm : c = true → Sat φ Q m s) (hs : c = false → Q () s) : Sat φ Q (Cmd.when c m) s := by
  cases c with
  | true => exact hm rfl
  | false => exact hs rfl

/-- what the first result satisfies and every further one keeps, the last one satisfies -/
theorem Sat.retry {more : S → α → Bool} {again : α → Cmd ι ρ ε S α}
    (hagain : ∀ a s, Q a s → more s a = true → Sat φ Q (again a) s) (n : Nat) {a : α} (ha : Q a s) :
    Sat φ Q (retry more again n a) s := by
  induction n generalizing a s with
  | zero => exact ha
  | succ n ih =>
    show Prog.Sat _ _ (Cmd.retry more again (n + 1) a s)
    cases hm : more s a with
    | false =>
      rw [retry_of_not_more hm]
      exact ha
    | true =>
      rw [retry_of_more hm]
      exact Sat.bind (hagain a s ha hm) fun a' s' h' => ih h'

/-- whatever the answers: `m` started in `s` does not stop -/
def Total (m : Cmd ι ρ ε S α) (s : S) : Prop := Ends (fun _ => True) (fun o => ∃ a s', o = .done a s') m s

theorem Total.bind {m : Cmd ι ρ ε S α} {f : α → Cmd ι ρ ε S β} (hm : Total m s)
    (hf : ∀ a s', Total (f a) s') : Total (m >>= f) s :=
  Ends.bind hm (fun a s' _ => hf a s') fun _ _ h => nomatch h

theorem Total.map {m : Cmd ι ρ ε S α} (f : α → β) (hm : Total m s) : Total (f <$> m) s := by
  rw [← bind_pure_comp]
  exact hm.bind fun _ s' => ⟨_, s', rfl⟩

theorem Total.retry {more : S → α → Bool} {again : α → Cmd ι ρ ε S α}
    (hagain : ∀ a s, Total (again a) s) (n : Nat) (a : α) (s : S) : Total (retry more again n a) s := by
  induction n generalizing a s with
  | zero => exact ⟨a, s, rfl⟩
  | succ n ih =>
    show Prog.Sat _ _ (Cmd.retry more again (n + 1) a s)
    cases hm : more s a with
    | false =>
      rw [retry_of_not_more hm]
      exact ⟨a, s, rfl⟩
    | true =>
      rw [retry_of_more hm]
      exact (hagain a s).bind fun a' s' => ih a' s'

theorem Total.exec {m : Cmd ι ρ ε S α} (hm : Total m s) (h : Handler ι ρ σ) (w : σ) :
    ∃ a s' w', Cmd.exec h m s w = (.done a s', w') := by
  obtain ⟨a, s', ho⟩ := Ends.exec hm h w
  exact ⟨a, s', (Cmd.exec h m s w).2, Prod.ext ho rfl⟩

/-- whatever the answers that satisfy `ψ`: if `m` started in `s` stops, it stops as `P` says -/
def Stops (ψ : (i : ι) → ρ i → Prop) (P : ε → S → Prop) (m : Cmd ι ρ ε S α) (s : S) : Prop :=
  (m s).Under ψ fun
    | .done _ _ => True
    | .stop e s' => P e s'

section
variable {ψ : (i : ι) → ρ i → Prop} {P : ε → S → Prop}

@[simp] theorem stops_pure (a : α) : Stops ψ P (pure a : Cmd ι ρ ε S α) s ↔ True := Iff.rfl
@[simp] theorem stops_stop (e : ε) : Stops ψ P (stop e : Cmd ι ρ ε S α) s ↔ P e s := Iff.rfl
@[simp] theorem stops_get_bind (f : S → Cmd ι ρ ε S β) :
    Stops ψ P (get >>= f) s ↔ Stops ψ P (f s) s := Iff.rfl
@[simp] theorem stops_modify_bind (g : S → S) (f : Unit → Cmd ι ρ ε S β) :
    Stops ψ P (modify g >>= f) s ↔ Stops ψ P (f ()) (g s) := Iff.rfl
@[simp] theorem stops_req_bind (i : ι) (f : ρ i → Cmd ι ρ ε S β) :
    Stops ψ P (req i >>= f) s ↔ ∀ r, ψ i r → Stops ψ P (f r) s := Iff.rfl

theorem Stops.mono {P' : ε → S → Prop} {m : Cmd ι ρ ε S α} (hm : Stops ψ P m s)
    (h : ∀ e s', P e s' → P' e s') : Stops ψ P' m s :=
  Prog.Under.mono hm fun
    | .done _ _, _ => trivial
    | .stop e s', ho => h e s' ho

/-- what follows goes on from what is known of the first part -/
theorem Stops.bind {m : Cmd ι ρ ε S α} {f : α → Cmd ι ρ ε S β} (hm : Stops ψ P m s)
    (hq : Sat φ Q m s) (hf : ∀ a s', Q a s' → Stops ψ P (f a) s') : Stops ψ P (m >>= f) s := by
  refine Prog.Under.bind (Prog.Under.and_sat hm hq) ?_
  rintro (⟨a, s'⟩ | ⟨e, s'⟩) ⟨hstop, hdone⟩
  · exact hf a s' hdone
  · exact hstop

theorem Stops.when {c : Bool} {m : Cmd ι ρ ε S Unit} (hm : Stops ψ P m s) :
    Stops ψ P (Cmd.when c m) s := by
  cases c with
  | false => trivial
  | true => exact hm

theorem Stops.exec {m : Cmd ι ρ ε S α} (hm : Stops ψ P m s) {h : Handler ι ρ σ}
    (hh : ∀ i w, ψ i (h i w).1) {w w' : σ} {e : ε} {s' : S}
    (hx : Cmd.exec h m s w = (.stop e s', w')) : P e s' := by
  have h1 := Prog.Under.run hm hh w
  rw [show (m s).run h w = _ from hx] at h1
  exact h1

end

/-- whatever the answers: every request of `m` started in `s` satisfies `φ` -/
abbrev Asks (φ : ι → Prop) (m : Cmd ι ρ ε S α) (s : S) : Prop := Sat φ (fun _ _ => True) m s

@[simp] theorem asks_get_bind (f : S → Cmd ι ρ ε S β) :
    Asks φ (get >>= f) s ↔ Asks φ (f s) s := Iff.rfl
@[simp] theorem asks_modify_bind (g : S → S) (f : Unit → Cmd ι ρ ε S β) :
    Asks φ (modify g >>= f) s ↔ Asks φ (f ()) (g s) := Iff.rfl

theorem Asks.bind {m : Cmd ι ρ ε S α} {f : α → Cmd ι ρ ε S β} (hm : Asks φ m s)
    (hf : ∀ a s', Asks φ (f a) s') : Asks φ (m >>= f) s := Sat.bind hm fun a s' _ => hf a s'

/-- what follows asks for nothing else -/
theorem asks_bind_iff {m : Cmd ι ρ ε S α} {f : α → Cmd ι ρ ε S β}
    (hf : ∀ a s', Asks φ (f a) s') : Asks φ (m >>= f) s ↔ Asks φ m s :=
  ⟨fun h => ((sat_bind m f).mp h).mono (fun _ h => h) fun _ _ _ => trivial, fun h => h.bind hf⟩

theorem Asks.map {m : Cmd ι ρ ε S α} {f : α → β} (hm : Asks φ m s) : Asks φ (f <$> m) s :=
  Sat.map hm

theorem Asks.when {c : Bool} {m : Cmd ι ρ ε S Unit} (hm : Asks φ m s) : Asks φ (Cmd.when c m) s :=
  Sat.when (fun _ => hm) fun _ => trivial

theorem Sat.exec {m : Cmd ι ρ ε S α} (hm : Sat φ Q m s) {h : Handler ι ρ σ} {w w' : σ} {a : α}
    {s' : S} (hx : exec h m s w = (.done a s', w')) : Q a s' := by
  have h1 := Ends.exec hm h w
  rw [hx] at h1
  exact h1

theorem Sat.log {m : Cmd ι ρ ε S α} (hm : Sat φ Q m s) (h : Handler ι ρ σ) (w : σ) :
    ∀ e ∈ log h m s w, φ e.req := Prog.Sat.log hm h w

theorem sat_of_log {m : Cmd ι ρ ε S α} [∀ i, Nonempty (ρ i)]
    (hm : ∀ (σ : Type) (h : Handler ι ρ σ) (w : σ), ∀ e ∈ log h m s w, φ e.req) :
    Sat φ (fun _ _ => True) m s :=
  (Prog.sat_of_log hm).mono (fun _ h => h) fun o _ => by cases o <;> trivial

end

/-- the same command among more requests -/
def inl {κ : Type} {τ : κ → Type} (m : Cmd ι ρ ε S α) : Cmd (ι ⊕ κ) (Sum.elim ρ τ) ε S α :=
  fun s => (m s).inl

/-- two states in which a command goes on alike -/
theorem exec_congr {h : Handler ι ρ σ} {m : Cmd ι ρ ε S α} {s s' : S} (hm : m s = m s') (w : σ) :
    exec h m s w = exec h m s' w := congrArg (fun p => Prog.run h p w) hm

end Cmd
end Requests
