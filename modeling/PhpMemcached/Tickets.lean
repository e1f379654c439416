import PhpMemcached.Linearizable
import PhpMemcached.Counters

/-!
# The numbers of a counter

Any number of clients increment one item, with their requests served in any order; an answer may be
lost, and a lost one be asked for again.

* `Counter`              the item: its number now, and who has counted to what;
* `Serves`               what a server does with a request, as far as the item is concerned;
* `Gentle`               a run in which the item is only incremented, and does not overflow;
* `keeps_incdec`         a number that `increment` returns was counted to in that call;
* `numbers_unique`       no number is returned twice, by whichever clients, and later numbers are
                         larger.
-/

namespace PhpMemcached.Tickets
open Ascii Requests Linear

/-! ## the item -/

/-- an increment: where it goes, by how much, and what it starts from -/
structure Increment where
  loc : Loc
  offset : UInt64
  initial : Option UInt64

def incrementOf (route : Bytes → Nat) : Call → Option Increment
  | .counterByKey memc .increment serverKey key offset =>
    some ⟨memc.loc route (some serverKey) key, offset, none⟩
  | .counterWithInitial memc .increment key offset initial _ =>
    some ⟨memc.loc route none key, offset, some initial⟩
  | .counterWithInitialByKey memc .increment serverKey key offset initial _ =>
    some ⟨memc.loc route (some serverKey) key, offset, some initial⟩
  | _ => none

/-- a request that may change an item otherwise; the user's callbacks may do anything -/
def Changes (route : Bytes → Nat) (l : Loc) : Call → Prop
  | .store memc _ key _ _ _ => memc.loc route none key = l
  | .storeByKey memc _ serverKey key _ _ _ => memc.loc route (some serverKey) key = l
  | .touch memc key _ => memc.loc route none key = l
  | .touchByKey memc serverKey key _ => memc.loc route (some serverKey) key = l
  | .cas memc key _ _ _ _ => memc.loc route none key = l
  | .casByKey memc serverKey key _ _ _ _ => memc.loc route (some serverKey) key = l
  | .delete memc key _ => memc.loc route none key = l
  | .deleteByKey memc serverKey key _ => memc.loc route (some serverKey) key = l
  | .counterByKey memc .decrement serverKey key _ => memc.loc route (some serverKey) key = l
  | .counterWithInitial memc .decrement key _ _ _ => memc.loc route none key = l
  | .counterWithInitialByKey memc .decrement serverKey key _ _ _ =>
    memc.loc route (some serverKey) key = l
  | .cacheCallback .. => True
  | .resultCallback .. => True
  | _ => False

/-- the item: the number it has, and who has counted to what -/
abbrev Counter (T : Type) := Logged T UInt64 (Option UInt64)

/-- to count is to get a larger number -/
abbrev Counts : Option UInt64 → UInt64 → Option UInt64 → Prop := Rises UInt64.toNat

section
variable {T : Type}

/-- the increment is made or not; a number that is answered is the new one -/
def Counted (t : T) (i : Increment) (answer : Option UInt64) (g g' : Counter T) : Prop :=
  (answer = none ∧ g' = g) ∨ ∃ v, (g.now.elim (i.initial = some v) fun x => v = x + i.offset) ∧
    g' = ⟨⟨some t, v⟩ :: g.log, some v⟩ ∧ ∀ n ∈ answer, n = v

/-- the number in an answer -/
def numberIn (c : Call) (r : Ans c) : Option UInt64 := (counterAnswerOf c r).bind Prod.snd

/-- a request of `t` is served -/
def Serves (route : T → Bytes → Nat) (l : Loc) (t : T) (c : Call) (r : Ans c) (g g' : Counter T) :
    Prop :=
  match incrementOf (route t) c with
  | some i => if i.loc = l then Counted t i (numberIn c r) g g' else g' = g
  | none => Changes (route t) l c ∨ g' = g

/-- a request that leaves the counter a counter: an increment by a positive number without overflow,
or nothing that changes the item -/
structure Careful (route : T → Bytes → Nat) (l : Loc) (t : T) (c : Call) (g : Counter T) :
    Prop where
  increment : ∀ i, incrementOf (route t) c = some i → i.loc = l →
    0 < i.offset ∧ ∀ x ∈ g.now, x.toNat + i.offset.toNat < 2 ^ 64
  nothing : ¬ Changes (route t) l c

/-- what the owner of a request learns: the numbers it is given are its own -/
def Learned (route : Bytes → Nat) (l : Loc) (c : Call) (r : Ans c) (vs : List UInt64) : Prop :=
  ∀ i, incrementOf route c = some i → i.loc = l → ∀ n ∈ numberIn c r, n ∈ vs

theorem lt_add_offset {x offset : UInt64} (hpos : 0 < offset)
    (hfits : x.toNat + offset.toNat < 2 ^ 64) : x.toNat < (x + offset).toNat := by
  rw [UInt64.lt_iff_toNat_lt] at hpos
  rw [UInt64.toNat_add, Nat.mod_eq_of_lt hfits]
  have hzero : (0 : UInt64).toNat = 0 := rfl
  omega

/-- a careful request counts, or does nothing -/
theorem acts_of_serves {route : T → Bytes → Nat} {l : Loc} {t : T} {c : Call} {r : Ans c}
    {g g' : Counter T} (hcareful : Careful route l t c g) (h : Serves route l t c r g g') :
    ∃ vs, Acts Counts (some t) vs g g' ∧ Learned (route t) l c r vs := by
  have hsame (hg : g' = g) : Acts Counts (some t) [] g g' := hg ▸ Extends.refl
  unfold Serves at h
  cases hinc : incrementOf (route t) c with
  | none =>
    rw [hinc] at h
    refine ⟨[], hsame (h.resolve_left hcareful.nothing), fun i hi => ?_⟩
    rw [hinc] at hi
    cases hi
  | some i =>
    rw [hinc] at h
    dsimp only at h
    by_cases hloc : i.loc = l
    · rw [if_pos hloc] at h
      obtain ⟨hpos, hfits⟩ := hcareful.increment i hinc hloc
      rcases h with ⟨hnone, hg⟩ | ⟨v, hv, rfl, hanswer⟩
      · refine ⟨[], hsame hg, fun _ _ _ n hn => ?_⟩
        rw [hnone] at hn
        cases hn
      · refine ⟨[v], ⟨rfl, g.now, replays_nil, fun x hx => ?_, rfl⟩, fun _ _ _ n hn => ?_⟩
        · rw [hx] at hv
          have hsum : v = x + i.offset := hv
          rw [hsum]
          exact lt_add_offset hpos (hfits x hx)
        · rw [hanswer n hn]
          exact List.mem_cons_self
    · rw [if_neg hloc] at h
      refine ⟨[], hsame h, fun j hj hjl => ?_⟩
      rw [hinc] at hj
      cases hj
      exact absurd hjl hloc

end

/-! ## the method -/

/-- a client, and the item -/
structure View (T : Type) where
  who : T
  counter : Counter T

section
variable {T : Type} [DecidableEq T]

/-- the same client, which has counted to `vs` -/
def View.Adds (g : View T) (vs : List UInt64) (g' : View T) : Prop :=
  g'.who = g.who ∧ Linear.Adds Counts g.who vs g.counter g'.counter

variable {g g' g'' : View T} {vs vs' : List UInt64}

theorem View.Adds.refl (g : View T) : g.Adds [] g := ⟨rfl, .refl⟩

theorem View.Adds.trans (h : g.Adds vs g') (h' : g'.Adds vs' g'') : g.Adds (vs' ++ vs) g'' := by
  refine ⟨h'.1.trans h.1, h.2.trans ?_⟩
  rw [← h.1]
  exact h'.2

/-- the others may count as well -/
def rules (route : T → Bytes → Nat) (l : Loc) : Rules Call Ans (View T) where
  env g g' := g.Adds [] g'
  guard _ _ := True
  served c r g g' := g'.who = g.who ∧
    ∃ vs, Acts Counts (some g.who) vs g.counter g'.counter ∧ Learned (route g.who) l c r vs
  refl := View.Adds.refl
  trans _ _ _ h h' := h.trans h'

variable {route : T → Bytes → Nat} {l : Loc} {α : Type} {s : State}

theorem adds_of_served {c : Call} {r : Ans c} (h : (rules route l).served c r g g') :
    ∃ vs, g.Adds vs g' ∧ Learned (route g.who) l c r vs := by
  obtain ⟨hwho, vs, hacts, hlearned⟩ := h
  exact ⟨vs, ⟨hwho, hacts.adds⟩, hlearned⟩

/-- one request -/
theorem keeps_ask (c : Call) (hg : g.Adds vs g') :
    Cmd.Keeps (rules route l) (fun r s' g'' => s' = s ∧ ∃ vs', g.Adds (vs' ++ vs) g'' ∧
      Learned (route g.who) l c r vs') (ask c) s g' := by
  intro g₁ h₁
  refine ⟨trivial, fun r g₂ hr g₃ h₃ => ⟨rfl, ?_⟩⟩
  obtain ⟨vs', hvs', hlearned⟩ := adds_of_served hr
  have hg₁ := hg.trans h₁
  rw [hg₁.1] at hlearned
  exact ⟨vs', (hg₁.trans hvs').trans h₃, hlearned⟩

/-- whatever a command asks for, its client has only counted -/
theorem keeps_counts {m : MemcM α} {φ : Call → Prop} {Q : α → State → Prop}
    (hm : Cmd.Sat φ Q m s) (hg : g.Adds vs g') :
    Cmd.Keeps (rules route l) (fun a s' g'' => Q a s' ∧ ∃ vs', g.Adds (vs' ++ vs) g'') m s g' := by
  have hbegun : ∃ vs', g.Adds (vs' ++ vs) g' := ⟨[], hg⟩
  refine hm.keeps (J := fun g'' => ∃ vs', g.Adds (vs' ++ vs) g'') (fun g₁ g₂ h henv => ?_)
    (fun c g₁ _ h => ⟨trivial, fun r g₂ hr => ?_⟩) hbegun
  · obtain ⟨vs', hvs'⟩ := h
    exact ⟨vs', hvs'.trans henv⟩
  · obtain ⟨vs', hvs'⟩ := h
    obtain ⟨vs₂, hvs₂, -⟩ := adds_of_served hr
    refine ⟨vs₂ ++ vs', ?_⟩
    rw [List.append_assoc]
    exact hvs'.trans hvs₂

/-- the value argument is as it was set at the start, or was counted to -/
def Holds (counts : Prop) (vs : List UInt64) (value : UInt64) : Prop :=
  counts → value = uint64Max ∨ value ∈ vs

/-- what is known of an attempt: the object's handle is as it was, and the value argument too, or it
holds a number that was counted to -/
def Attempted (counts : Prop) (s : State) (g : View T) (r : CounterRes) (s' : State)
    (g' : View T) : Prop :=
  s'.memc = s.memc ∧ ∃ vs, g.Adds vs g' ∧
    ∀ status value, r = some (status, value) → Holds counts vs value

variable {counts : Prop} {serverKey : Option Bytes} {key : Bytes} {offset : Int64}

/-- the answer to a request -/
theorem keeps_answered {value : UInt64} {s₁ : State} (hmemc : s₁.memc = s.memc) (c : Call)
    (f : Ans c → Status × Option UInt64)
    (hf : ∀ r vs, Learned (route g.who) l c r vs → counts → ∀ n ∈ (f r).2, n ∈ vs)
    (hvalue : Holds counts vs value) (hg : g.Adds vs g') :
    Cmd.Keeps (rules route l) (Attempted counts s g)
      (ask c >>= fun r => pure (counterRes value (f r))) s₁ g' := by
  refine (keeps_ask c hg).bind fun r s₂ g₁ h₁ g₂ h₂ => ?_
  obtain ⟨rfl, vs', hvs', hlearned⟩ := h₁
  refine ⟨hmemc, vs' ++ vs, hvs'.trans h₂, fun status value' hres hcounts => ?_⟩
  cases hres
  have hnumber := hf r vs' hlearned hcounts
  cases hn : (f r).2 with
  | none => exact (hvalue hcounts).imp_right fun h => List.mem_append_right vs' h
  | some n => exact .inr (List.mem_append_left vs (hnumber n hn))

theorem keeps_counterPlain (hcounts : counts → s.memc.loc (route g.who) serverKey key = l) :
    Cmd.Keeps (rules route l) (Attempted counts s g)
      (counterPlain .increment serverKey key offset) s g := by
  unfold counterPlain
  rw [Cmd.keeps_get_bind]
  exact keeps_answered rfl
    (.counterByKey s.memc .increment (serverKey.getD key) key offset.toUInt64) id
    (fun r vs h hc => h _ rfl (hcounts hc)) (fun _ => .inl rfl) (.refl g)

theorem sat_phpWarning (s : State) (text : String) :
    Cmd.Sat (fun _ => True) (fun _ s' => s'.memc = s.memc) (phpWarning text) s :=
  ⟨trivial, fun _ => rfl⟩

theorem keeps_counterAttempt {initial expiry : Int64} {value : UInt64} {s₁ : State}
    (hmemc : s₁.memc = s.memc) (hcounts : counts → s.memc.loc (route g.who) serverKey key = l)
    (hvalue : Holds counts vs value) (hg : g.Adds vs g') :
    Cmd.Keeps (rules route l) (Attempted counts s g)
      (counterAttempt .increment serverKey key offset initial expiry value) s₁ g' := by
  rw [← hmemc] at hcounts
  unfold counterAttempt
  rw [Cmd.keeps_get_bind]
  split
  · refine (keeps_counts (sat_phpWarning s₁ _) hg).bind fun _ s₂ g₁ h₁ => ?_
    obtain ⟨hs₂, vs', hvs'⟩ := h₁
    intro g₂ h₂
    exact ⟨hs₂.trans hmemc, vs' ++ vs, hvs'.trans h₂, fun status value h => by cases h⟩
  · cases serverKey with
    | none =>
      exact keeps_answered hmemc (.counterWithInitial s₁.memc .increment key offset.toUInt64
        initial.toUInt64 expiry) id (fun r vs h hc => h _ rfl (hcounts hc)) hvalue hg
    | some serverKey =>
      exact keeps_answered hmemc (.counterWithInitialByKey s₁.memc .increment serverKey key
        offset.toUInt64 initial.toUInt64 expiry) id (fun r vs h hc => h _ rfl (hcounts hc))
        hvalue hg

/-- the rounds after the first one -/
theorem keeps_counterRetries {initial expiry : Int64} {r : CounterRes} (n : Nat)
    (hcounts : counts → s.memc.loc (route g.who) serverKey key = l)
    {s₁ : State} (hr : Attempted counts s g r s₁ g') :
    Cmd.Keeps (rules route l) (Attempted counts s g)
      (Cmd.retry shouldRetryCounter (counterAgain .increment serverKey key offset initial expiry)
        n r) s₁ g' := by
  refine Cmd.Keeps.retry (fun r s₁ g₁ h₁ => ?_) (fun r s₁ g₁ g₂ h₁ henv => ?_) n hr
  · obtain ⟨hs₁, vs, hvs, hvalue⟩ := h₁
    cases r with
    | none => exact fun g₂ h₂ => ⟨hs₁, vs, hvs.trans h₂, fun status value h => by cases h⟩
    | some r =>
      obtain ⟨status, value⟩ := r
      exact keeps_counterAttempt hs₁ hcounts (hvalue status value rfl) hvs
  · obtain ⟨hs₁, vs, hvs, hvalue⟩ := h₁
    exact ⟨hs₁, vs, hvs.trans henv, hvalue⟩

/-- an integer that is returned is the value argument, and it was set -/
theorem sat_counterEnd (r : CounterRes) (s : State) :
    Cmd.Sat (fun _ => True) (fun z _ => ∀ n, z = .long n →
      ∃ status value, r = some (status, value) ∧ value ≠ uint64Max ∧ value.toInt64 = n)
      (counterEnd r) s := by
  cases r with
  | none => exact fun n h => by cases h
  | some r =>
    obtain ⟨status, value⟩ := r
    unfold counterEnd
    refine (Cmd.sat_true _ s).bind fun ok s' _ => ?_
    cases ok with
    | false => exact fun n h => by cases h
    | true =>
      rw [if_pos rfl]
      by_cases hset : value = UInt64.ofNat (2 ^ 64 - 1)
      · rw [if_pos hset]
        exact fun n h => by cases h
      · rw [if_neg hset]
        intro n h
        cases h
        exact ⟨status, value, rfl, hset, rfl⟩

/-- what is known at the end of a call: an integer that it returns was counted to -/
def Ended (counts : Prop) (g : View T) (z : Zval) (g' : View T) : Prop :=
  ∃ vs, g.Adds vs g' ∧ (counts → ∀ n, z = .long n → ∃ v ∈ vs, v.toInt64 = n)

theorem ended_of_attempted {r : CounterRes} {s' : State} (h : Attempted counts s g r s' g') :
    Cmd.Keeps (rules route l) (fun z _ g'' => Ended counts g z g'') (counterEnd r) s' g' := by
  obtain ⟨-, vs, hvs, hvalue⟩ := h
  refine (keeps_counts (sat_counterEnd r s') hvs).mono fun z s₁ g₁ h₁ => ?_
  obtain ⟨hz, vs', hvs'⟩ := h₁
  refine ⟨vs' ++ vs, hvs', fun hcounts n hn => ?_⟩
  obtain ⟨status, value, hr, hset, rfl⟩ := hz n hn
  have hmem := (hvalue status value hr hcounts).resolve_left hset
  exact ⟨value, List.mem_append_right vs' hmem, rfl⟩

/-- what is returned before any request is no integer -/
theorem ended_refused {m : MemcM Unit} {ok : Bool} (hg : g.Adds vs g') :
    Cmd.Keeps (rules route l) (fun z _ g'' => Ended counts g z g'')
      (m >>= fun _ => pure (.bool ok)) s g' := by
  refine (keeps_counts (Cmd.sat_true m s) hg).bind fun _ s₁ g₁ h₁ g₂ h₂ => ?_
  obtain ⟨-, vs', hvs'⟩ := h₁
  exact ⟨vs' ++ vs, hvs'.trans h₂, fun _ n h => by cases h⟩

/-- **A number that `increment` returns was counted to in the call**, whatever the others do
meanwhile and however often it is retried. -/
theorem keeps_incdec {initial : Option (Int64 × Int64)} :
    Cmd.Keeps (rules route l)
      (fun z _ g' => Ended (s.memc.loc (route g.who) serverKey key = l) g z g')
      (phpMemcIncdecImpl .increment serverKey key offset initial) s g := by
  unfold phpMemcIncdecImpl sMemcSetStatus checkKeyOr
  rw [Cmd.keeps_modify_bind, Cmd.keeps_get_bind]
  split
  · split
    · exact ended_refused (.refl g)
    · cases initial with
      | none =>
        exact (keeps_counterPlain id).bind fun r s₁ g₁ h₁ => ended_of_attempted h₁
      | some initial =>
        obtain ⟨initial, expiry⟩ := initial
        show Cmd.Keeps _ _ (Cmd.get >>= _) _ g
        rw [Cmd.keeps_get_bind]
        refine (keeps_counterAttempt rfl id (fun _ => .inl rfl) (.refl g)).bind fun r s₁ g₁ h₁ => ?_
        exact (keeps_counterRetries _ id h₁).bind fun r s₂ g₂ h₂ => ended_of_attempted h₂
  · exact ended_refused (.refl g)

end

/-! ## runs -/

/-- what an owner does with its object; anything but `increment` is `other` -/
inductive Act where
  | increment (serverKey : Option Bytes) (key : Bytes) (offset : Int64)
      (initial : Option (Int64 × Int64))
  | other (m : MemcM Zval)

def Act.run : Act → MemcM Zval
  | .increment serverKey key offset initial =>
    phpMemcIncdecImpl .increment serverKey key offset initial
  | .other m => m

/-- a call that has returned: the object before it, the call, its result -/
structure Entry where
  before : State
  act : Act
  result : Zval

/-- the number that a call has returned, if it is an increment of the item -/
def Entry.number (route : Bytes → Nat) (l : Loc) (e : Entry) : Option Int64 :=
  match e.act, e.result with
  | .increment serverKey key _ _, .long n =>
    if e.before.memc.loc route serverKey key = l then some n else none
  | _, _ => none

/-- an object, and what its owner has got from it, the newest call first -/
structure Owner where
  object : State
  entries : List Entry

def Owner.numbers (route : Bytes → Nat) (l : Loc) (o : Owner) : List Int64 :=
  o.entries.filterMap (Entry.number route l)

/-- after a fatal error there is no owner any more -/
def Act.after (a : Act) (o : Owner) : Outcome Abort State Zval → Option Owner
  | .done z s => some ⟨s, ⟨o.object, a, z⟩ :: o.entries⟩
  | .stop _ _ => none

def Act.code (a : Act) : Option Owner → Prog Call Ans (Option Owner)
  | some o => a.run o.object >>= fun outcome => .ret (a.after o outcome)
  | none => .ret none

abbrev ClientWorld (T : Type) := World T Call Ans Act (Option Owner) (Counter T)

/-- the clients of the item; without them, anything may happen to it -/
abbrev clients {T : Type} (route : T → Bytes → Nat) (l : Loc) :
    System T Call Ans Act (Option Owner) Unit (Counter T) where
  code := Act.code
  serve := Serves route l
  drift _ _ _ := True

/-- only careful requests are served, and nothing happens to the item without them -/
structure Gentle {T : Type} (route : T → Bytes → Nat) (l : Loc) (w : ClientWorld T)
    (move : Move T Act Unit) : Prop where
  careful : ∀ t a c k, move = .serve t → w.phase t = .busy a (.call c k) →
    Careful route l t c w.shared
  calm : ∀ d, move ≠ .drift d

section
variable {T : Type} [DecidableEq T] {route : T → Bytes → Nat} {l : Loc} {g g' : View T} {o : Owner}
  {t : T}

/-- since the moment of `w`, when its owner was idle, an object has made calls whose numbers were
counted to -/
def Since (route : T → Bytes → Nat) (l : Loc) (w : ClientWorld T) (t : T) (o : Option Owner)
    (g : View T) : Prop :=
  ∀ o₀, w.phase t = .idle (some o₀) → ∀ o' ∈ o, ∃ new vs,
    o'.numbers (route t) l = new ++ o₀.numbers (route t) l ∧ (View.mk t w.shared).Adds vs g ∧
    new.Sublist (vs.map UInt64.toInt64)

theorem number_increment {route : Bytes → Nat} {s : State} {serverKey : Option Bytes} {key : Bytes}
    {offset : Int64} {initial : Option (Int64 × Int64)} {z : Zval} {n : Int64}
    (h : Entry.number route l ⟨s, .increment serverKey key offset initial, z⟩ = some n) :
    s.memc.loc route serverKey key = l ∧ z = .long n := by
  unfold Entry.number at h
  dsimp only at h
  split at h
  · rename_i hact
    cases hact
    by_cases hloc : s.memc.loc route serverKey key = l
    · rw [if_pos hloc] at h
      cases h
      exact ⟨hloc, rfl⟩
    · rw [if_neg hloc] at h
      cases h
  · cases h

/-- what one call does -/
theorem keeps_run (a : Act) (s : State) :
    Cmd.Keeps (rules route l) (fun z _ g' => ∃ vs, g.Adds vs g' ∧
      ∀ n, Entry.number (route g.who) l ⟨s, a, z⟩ = some n → n ∈ vs.map UInt64.toInt64)
      a.run s g := by
  cases a with
  | increment serverKey key offset initial =>
    refine keeps_incdec.mono fun z s' g' h => ?_
    obtain ⟨vs, hvs, hcounted⟩ := h
    refine ⟨vs, hvs, fun n hn => ?_⟩
    obtain ⟨hloc, hz⟩ := number_increment hn
    obtain ⟨v, hv, hvn⟩ := hcounted hloc n hz
    exact List.mem_map.mpr ⟨v, hv, hvn⟩
  | other m =>
    refine (keeps_counts (Cmd.sat_true m s) (.refl g)).mono fun z s' g' h => ?_
    obtain ⟨-, vs, hvs⟩ := h
    exact ⟨vs ++ [], hvs, fun n hn => by cases hn⟩

/-- one more call -/
theorem Since.call {w : ClientWorld T} (a : Act) (h : Since route l w t (some o) g) :
    (a.code (some o)).Keeps (rules route l) (Since route l w t) g := by
  refine Prog.Keeps.bind (keeps_run a o.object) fun outcome g₁ h₁ g₂ h₂ => ?_
  intro o₀ ho₀ o' ho'
  cases outcome with
  | stop e s => cases ho'
  | done z s =>
    cases ho'
    obtain ⟨vs₁, hvs₁, hnumber⟩ := h₁
    obtain ⟨new, vs, hnew, hvs, hsub⟩ := h o₀ ho₀ o rfl
    have hwho : g.who = t := hvs.1
    rw [hwho] at hnumber
    have hall : (View.mk t w.shared).Adds (vs₁ ++ vs) g₂ := (hvs.trans hvs₁).trans h₂
    cases hn : Entry.number (route t) l ⟨o.object, a, z⟩ with
    | none =>
      refine ⟨new, vs₁ ++ vs, ?_, hall, ?_⟩
      · rw [← hnew]
        exact List.filterMap_cons_none hn
      · rw [List.map_append]
        exact hsub.trans (List.sublist_append_right _ _)
    | some n =>
      refine ⟨n :: new, vs₁ ++ vs, ?_, hall, ?_⟩
      · rw [List.cons_append, ← hnew]
        exact List.filterMap_cons_some hn
      · rw [List.map_append]
        exact (List.singleton_sublist.mpr (hnumber n hn)).append hsub

theorem clients_discipline (w : ClientWorld T) :
    Discipline (clients route l) (rules route l) (fun t g => ⟨t, g⟩)
      (fun g => ∃ log, Extends Counts log w.shared g) (Since route l w)
      (fun _ _ _ => True) (Careful route l) (fun _ => False) where
  stable t o g g' h henv o₀ ho₀ o' ho' := by
    obtain ⟨new, vs, hnew, hvs, hsub⟩ := h o₀ ho₀ o' ho'
    exact ⟨new, vs, hnew, hvs.trans henv, hsub⟩
  code t a o g h _ := by
    cases o with
    | none => exact fun g' _ o₀ _ o' ho' => by cases ho'
    | some o => exact h.call a
  served _ _ _ _ _ _ _ hcareful hs := ⟨rfl, acts_of_serves hcareful hs⟩
  others t c r g g' _ _ hcareful hs u hu := by
    obtain ⟨vs, hacts, -⟩ := acts_of_serves hcareful hs
    exact ⟨rfl, hacts.others fun h => hu (Option.some.inj h).symm⟩
  kept t c r g g' hinv _ hcareful hs := by
    obtain ⟨log, hlog⟩ := hinv
    obtain ⟨vs, hacts, -⟩ := acts_of_serves hcareful hs
    exact ⟨_, hlog.trans hacts⟩
  drifts _ _ _ _ hcalm := hcalm.elim

/-- every world is as the discipline asks when it is the first one -/
theorem worldOk_start (w : ClientWorld T) : WorldOk (rules route l) (fun t g => ⟨t, g⟩)
    (fun g => ∃ log, Extends Counts log w.shared g) (Since route l w) w where
  shared := ⟨[], .refl⟩
  idle t o ho o₀ ho₀ o' ho' := by
    rw [ho₀] at ho
    cases ho
    cases ho'
    exact ⟨[], [], rfl, .refl _, .slnil⟩
  busy t a p hp := by
    have hany : p.Keeps (rules route l) (fun _ _ => True ∧ True) ⟨t, w.shared⟩ :=
      (Prog.sat_true p).keeps (fun _ _ _ _ => trivial)
        (fun _ _ _ _ => ⟨trivial, fun _ _ _ => trivial⟩) trivial
    refine hany.mono fun o g _ o₀ ho₀ => ?_
    rw [hp] at ho₀
    cases ho₀

/-- what somebody has been shown of a counter: in order, and between what it had and what it has -/
theorem rises_numbers {log : List (Event T UInt64)} {m m' : Option UInt64} {new : List Int64}
    (hrises : Replays Counts m (log.map Event.op) m')
    (hsub : new.Sublist ((opsOf t log).map UInt64.toInt64)) :
    new.Pairwise (fun n₂ n₁ => n₁.toUInt64 < n₂.toUInt64) ∧ ∀ n ∈ new,
      (∀ x ∈ m, x < n.toUInt64) ∧ ∃ y ∈ m', n.toUInt64 ≤ y := by
  obtain ⟨hpairwise, hstart, hnow, -⟩ := hrises.rises
  have hall : new.Sublist ((log.map Event.op).map UInt64.toInt64) :=
    hsub.trans (opsOf_sublist.map _)
  refine ⟨List.Pairwise.sublist hall (List.pairwise_map.mpr (hpairwise.imp fun h => ?_)),
    fun n hn => ?_⟩
  · rw [UInt64.toUInt64_toInt64, UInt64.toUInt64_toInt64, UInt64.lt_iff_toNat_lt]
    exact h
  · obtain ⟨v, hv, rfl⟩ := List.mem_map.mp (hall.subset hn)
    rw [UInt64.toUInt64_toInt64]
    refine ⟨fun x hx => UInt64.lt_iff_toNat_lt.mpr (hstart v hv x hx), ?_⟩
    obtain ⟨y, hy, hle⟩ := hnow v hv
    exact ⟨y, hy, UInt64.le_iff_toNat_le.mpr hle⟩

/-- a number that two have been shown: they are one -/
theorem eq_of_numbers {log : List (Event T UInt64)} {m m' : Option UInt64} {u : T} {n : Int64}
    (hrises : Replays Counts m (log.map Event.op) m')
    (ht : n ∈ (opsOf t log).map UInt64.toInt64) (hu : n ∈ (opsOf u log).map UInt64.toInt64) :
    t = u := by
  obtain ⟨v, hv, rfl⟩ := List.mem_map.mp ht
  obtain ⟨x, hx, hsame⟩ := List.mem_map.mp hu
  obtain rfl : x = v := by
    rw [← UInt64.toUInt64_toInt64 x, hsame, UInt64.toUInt64_toInt64]
  have hnodup : (log.map Event.op).Nodup := hrises.rises.1.imp fun h heq => by
    rw [heq] at h
    exact Nat.lt_irrefl _ h
  exact who_eq_of_nodup hnodup hv hx

variable {w w' : ClientWorld T}

/-- **No number is returned twice.** Between two moments of a run in which an item is only
incremented, and does not overflow, every client has got a list of new numbers, each larger than its
numbers before, larger than what the item had at the first moment and at most what it has at the
second; and no number is in the lists of two clients. -/
theorem numbers_unique (hrun : Runs (clients route l).Next (Gentle route l) w w') :
    ∃ new : T → List Int64,
      (∀ t o o', w.phase t = .idle (some o) → w'.phase t = .idle (some o') →
        o'.numbers (route t) l = new t ++ o.numbers (route t) l ∧
        (new t).Pairwise (fun n₂ n₁ => n₁.toUInt64 < n₂.toUInt64) ∧
        ∀ n ∈ new t, (∀ x ∈ w.shared.now, x < n.toUInt64) ∧ ∃ y ∈ w'.shared.now, n.toUInt64 ≤ y) ∧
      ∀ t u n, n ∈ new t → n ∈ new u → t = u := by
  have hpermitted : ∀ (v : ClientWorld T) (move : Move T Act Unit), Gentle route l v move →
      Permitted (fun _ _ _ => True) (Careful route l) (fun _ => False) v move :=
    fun v move hmove => ⟨fun _ _ _ _ _ => trivial, hmove.careful, hmove.calm⟩
  have hworld := (clients_discipline w).runs hpermitted hrun (worldOk_start w)
  obtain ⟨log, hlog, hrises⟩ := hworld.shared
  have hnew : ∀ t, ∃ new : List Int64, new.Sublist ((opsOf t log).map UInt64.toInt64) ∧
      ∀ o o', w.phase t = .idle (some o) → w'.phase t = .idle (some o') →
        o'.numbers (route t) l = new ++ o.numbers (route t) l := by
    intro t
    by_cases hidle : ∃ o o', w.phase t = .idle (some o) ∧ w'.phase t = .idle (some o')
    · obtain ⟨o, o', ho, ho'⟩ := hidle
      obtain ⟨new, vs, hnumbers, hvs, hsub⟩ := hworld.idle t (some o') ho' o ho o' rfl
      obtain ⟨log', hlog', rfl⟩ := hvs.2
      obtain rfl : log' = log := List.append_cancel_right (hlog'.log.symm.trans hlog)
      refine ⟨new, hsub, fun o₁ o₁' ho₁ ho₁' => ?_⟩
      rw [ho] at ho₁
      rw [ho'] at ho₁'
      cases ho₁
      cases ho₁'
      exact hnumbers
    · exact ⟨[], List.nil_sublist _, fun o o' ho ho' => absurd ⟨o, o', ho, ho'⟩ hidle⟩
  choose new hsub hnumbers using hnew
  refine ⟨new, fun t o o' ho ho' => ⟨hnumbers t o o' ho ho', rises_numbers hrises (hsub t)⟩,
    fun t u n ht hu => eq_of_numbers hrises ((hsub t).subset ht) ((hsub u).subset hu)⟩

omit [DecidableEq T] in
theorem gentle_start {a : Act} : Gentle route l w (.start t a) where
  careful _ _ _ _ h := by cases h
  calm _ h := by cases h

omit [DecidableEq T] in
theorem gentle_finish : Gentle route l w (.finish t) where
  careful _ _ _ _ h := by cases h
  calm _ h := by cases h

/-- a client does something with one careful request -/
theorem runs_one {w₀ : ClientWorld T} {a : Act} {c : Call}
    {k : Ans c → Prog Call Ans (Option Owner)} {r : Ans c} {counter : Counter T} {o' : Option Owner}
    (hrun : Runs (clients route l).Next (Gentle route l) w₀ w) (ht : w.phase t = .idle (some o))
    (hcode : a.code (some o) = .call c k) (hcareful : Careful route l t c w.shared)
    (hs : Serves route l t c r w.shared counter) (hret : k r = .ret o') :
    Runs (clients route l).Next (Gentle route l) w₀
      ({ w with shared := counter }.set t (.idle o')) := by
  have hbegun := hrun.snoc gentle_start (System.Next.start (a := a) ht)
  have hbusy : (w.set t (.busy a (a.code (some o)))).phase t = .busy a (.call c k) := by
    rw [World.set_phase_self, hcode]
  have hgentle : Gentle route l (w.set t (.busy a (a.code (some o)))) (.serve t) := by
    refine ⟨fun u b d k' hmove hu => ?_, fun _ h => by cases h⟩
    cases hmove
    rw [hbusy] at hu
    cases hu
    exact hcareful
  have hserved := hbegun.snoc hgentle (.serve hbusy hs)
  rw [World.set_set, hret] at hserved
  have hdone := hserved.snoc gentle_finish (.finish World.set_phase_self)
  exact World.set_set ({ w with shared := counter } : ClientWorld T) t _ _ counter ▸ hdone

end

/-! ## a run -/

/-- one number at each call -/
def ticket : Act := .increment none (ascii ['k']) 1 none

def ticketLoc : Loc := (newObject iniDefaults 1).memc.loc (fun _ => 0) none (ascii ['k'])

/-- the owner of a new object, which has been given `numbers` -/
def ticketOwner (numbers : List Int64) : Owner :=
  ⟨newObject iniDefaults 1, numbers.map fun n => ⟨newObject iniDefaults 1, ticket, .long n⟩⟩

/-- two clients, and an item with the number 5 -/
def ticketStart : ClientWorld Bool := ⟨fun _ => .idle (some (ticketOwner [])), ⟨[], some 5⟩⟩

def ticketFirst : ClientWorld Bool :=
  ({ ticketStart with shared := ⟨[⟨some true, 6⟩], some 6⟩ } : ClientWorld Bool).set true
    (.idle (some (ticketOwner [6])))

def ticketSecond : ClientWorld Bool :=
  ({ ticketFirst with shared := ⟨[⟨some false, 7⟩, ⟨some true, 6⟩], some 7⟩ } :
    ClientWorld Bool).set false (.idle (some (ticketOwner [7])))

theorem careful_ticket {t : Bool} {g : Counter Bool} {x : UInt64} (hnow : g.now = some x)
    (hfits : x.toNat + 1 < 2 ^ 64) : Careful (fun _ _ => 0) ticketLoc t
      (.counterByKey (newObject iniDefaults 1).memc .increment (ascii ['k']) (ascii ['k']) 1)
      g where
  increment i hi _ := by
    cases hi
    refine ⟨by decide, fun y hy => ?_⟩
    rw [hnow] at hy
    cases hy
    exact hfits
  nothing h := h

theorem runs_ticketSecond : Runs (clients (fun _ _ => 0) ticketLoc).Next
    (Gentle (fun _ _ => 0) ticketLoc) ticketStart ticketSecond := by
  have hserves {t : Bool} {g : Counter Bool} {x v : UInt64} (hnow : g.now = some x)
      (hv : v = x + 1) : Serves (fun _ _ => 0) ticketLoc t
        (.counterByKey (newObject iniDefaults 1).memc .increment (ascii ['k']) (ascii ['k']) 1)
        (.success, some v) g ⟨⟨some t, v⟩ :: g.log, some v⟩ := by
    refine .inr ⟨v, ?_, rfl, fun n hn => (Option.some.inj hn).symm⟩
    rw [hnow]
    exact hv
  have hfirst := runs_one Relation.ReflTransGen.refl (w := ticketStart) (t := true) (a := ticket)
    rfl rfl (careful_ticket (x := 5) rfl (by decide)) (hserves (x := 5) (v := 6) rfl rfl) rfl
  exact runs_one hfirst (w := ticketFirst) (t := false) (a := ticket) rfl rfl
    (careful_ticket (x := 6) rfl (by decide)) (hserves (x := 6) (v := 7) rfl rfl) rfl

/-- the theorem on that run -/
theorem numbers_unique_run :
    (∃ o, ticketSecond.phase true = .idle (some o) ∧ o.numbers (fun _ => 0) ticketLoc = [6]) ∧
    (∃ o, ticketSecond.phase false = .idle (some o) ∧ o.numbers (fun _ => 0) ticketLoc = [7]) ∧
    ∃ new : Bool → List Int64,
      (∀ t o o', ticketStart.phase t = .idle (some o) → ticketSecond.phase t = .idle (some o') →
        o'.numbers (fun _ => 0) ticketLoc = new t ++ o.numbers (fun _ => 0) ticketLoc ∧
        (new t).Pairwise (fun n₂ n₁ => n₁.toUInt64 < n₂.toUInt64) ∧
        ∀ n ∈ new t, (∀ x ∈ ticketStart.shared.now, x < n.toUInt64) ∧
          ∃ y ∈ ticketSecond.shared.now, n.toUInt64 ≤ y) ∧
      ∀ t u n, n ∈ new t → n ∈ new u → t = u :=
  ⟨⟨_, rfl, rfl⟩, ⟨_, rfl, rfl⟩, numbers_unique runs_ticketSecond⟩

end PhpMemcached.Tickets
