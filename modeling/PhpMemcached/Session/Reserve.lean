import PhpMemcached.Lib.Trace
import PhpMemcached.Session.Handles

/-!
# Session ids are reserved

* `Accounted`              what the log of a server says of an item that is made again: it was gone;
* `reserveRules`           what a client learns of the log from the answers to its requests;
* `Census`                 a run with a record of what `PS_CREATE_SID` returned;
* `sids_reserved`          in every run, an id returned on an open connection was reserved by that
                           call, and two such calls return one id only if the item of one is gone;
                           no id is returned when no attempt succeeded.
-/

namespace PhpMemcached.Session
open Ascii Requests

/-! ## items that are made again -/

section
variable {T : Type} {t u : T} {s s' : Server T} {c : Call} {r : Ans c} {key value value' : Bytes}
  {e : Event T} {l l' log log' : List (Event T)}

/-- after `l`, the item of `key` went -/
def Gone (key : Bytes) (l log : List (Event T)) : Prop :=
  ∃ by_ lockedBy l', (.gone by_ key lockedBy :: l') <:+ log ∧ l <:+ l'

theorem Gone.mono (h : Gone key l log) (hlog : log <:+ log') : Gone key l log' := by
  obtain ⟨by_, lockedBy, l', hgone, hl⟩ := h
  exact ⟨by_, lockedBy, l', hgone.trans hlog, hl⟩

/-- an item that was made and is not there has gone since; between two events that made it, it went -/
structure Accounted (s : Server T) : Prop where
  absent : ∀ t key value l, s.items key = none → (.made t key value :: l) <:+ s.log →
    Gone key (.made t key value :: l) s.log
  again : ∀ t u key value value' l l', (.made t key value :: l) <:+ s.log →
    (.made u key value' :: l') <:+ l → Gone key (.made u key value' :: l') l

/-- one event more, which makes no item; an item goes only if it says so -/
theorem Accounted.record (hs : Accounted s) (hlog : s'.log = e :: s.log)
    (hmade : ∀ t key value, e ≠ .made t key value)
    (hgone : ∀ key, s'.items key = none → s.items key = none ∨
      ∃ by_ lockedBy, e = .gone by_ key lockedBy) : Accounted s' := by
  have hold : ∀ {t key value l}, (.made t key value :: l) <:+ s'.log →
      (.made t key value :: l) <:+ s.log := by
    intro t key value l hl
    rw [hlog] at hl
    rcases List.suffix_cons_iff.mp hl with he | hl'
    · exact absurd (List.head_eq_of_cons_eq he).symm (hmade t key value)
    · exact hl'
  have hgrows : s.log <:+ s'.log := hlog ▸ List.suffix_cons _ _
  constructor
  · intro t key value l hnone hl
    rcases hgone key hnone with hnone' | ⟨by_, lockedBy, rfl⟩
    · exact (hs.absent t key value l hnone' (hold hl)).mono hgrows
    · exact ⟨by_, lockedBy, s.log, hlog ▸ List.suffix_rfl, hold hl⟩
  · exact fun t u key value value' l l' hl => hs.again t u key value value' l l' (hold hl)

/-- an item is made that is not there -/
theorem Accounted.made (hs : Accounted s) (hnone : s.items key = none)
    (hlog : s'.log = .made t key value :: s.log)
    (hitems : ∀ key', s'.items key' = none → key' ≠ key ∧ s.items key' = none) : Accounted s' := by
  have hgrows : s.log <:+ s'.log := hlog ▸ List.suffix_cons _ _
  constructor
  · intro u key' value' l hnone' hl
    obtain ⟨hne, hnone''⟩ := hitems key' hnone'
    rw [hlog] at hl
    rcases List.suffix_cons_iff.mp hl with he | hl'
    · cases he
      exact absurd rfl hne
    · exact (hs.absent u key' value' l hnone'' hl').mono hgrows
  · intro u u' key' value' value'' l l' hl hl'
    rw [hlog] at hl
    rcases List.suffix_cons_iff.mp hl with he | hl₁
    · cases he
      exact hs.absent u' key value'' l' hnone hl'
    · exact hs.again u u' key' value' value'' l l' hl₁ hl'

theorem Accounted.removeItem (hs : Accounted s) (by_ : Option (T × DeleteBy)) (key : Bytes) :
    Accounted (s.removeItem by_ key) := by
  unfold Server.removeItem
  split
  · rename_i item hitem
    refine hs.record rfl nofun fun key' hnone => ?_
    have hput : (if key' = key then none else s.items key') = none :=
      (s.put_items key none key').symm.trans hnone
    by_cases he : key' = key
    · subst he
      exact .inr ⟨by_, item.lockedBy, rfl⟩
    · rw [if_neg he] at hput
      exact .inl hput
  · exact hs

/-- **What a client does keeps the log accounted for.** -/
theorem Accounted.exec (hs : Accounted s) (t : T) (c : Call) : Accounted (s.exec t c) := by
  cases c with
  | add key value expiration =>
    show Accounted (s.addItem t key value expiration)
    unfold Server.addItem
    split
    · rename_i hnone
      refine hs.made hnone rfl fun key' hnone' => ?_
      have hput := (s.put_items key _ key').symm.trans hnone'
      by_cases he : key' = key
      · rw [if_pos he] at hput
        cases hput
      · rw [if_neg he] at hput
        exact ⟨he, hput⟩
    · exact hs
  | get key => exact hs.record rfl nofun fun _ => .inl
  | set key value expiration =>
    refine hs.record rfl nofun fun key' hnone => .inl ?_
    have hput := (s.put_items key _ key').symm.trans hnone
    by_cases he : key' = key
    · rw [if_pos he] at hput
      cases hput
    · rw [if_neg he] at hput
      exact hput
  | delete by_ key => exact hs.removeItem _ key
  | touch key expiration =>
    show Accounted (s.touchItem key expiration)
    unfold Server.touchItem
    split
    · rename_i item hitem
      refine ⟨fun t key' value l hnone => ?_, hs.again⟩
      have hput := (s.put_items key _ key').symm.trans hnone
      by_cases he : key' = key
      · rw [if_pos he] at hput
        cases hput
      · rw [if_neg he] at hput
        exact hs.absent t key' value l hput
    · exact hs
  | _ => exact hs

theorem Accounted.serve (hs : Accounted s) (h : s.Serve t c r s') : Accounted s' := by
  rcases h.state with rfl | rfl
  · exact hs.exec t c
  · exact hs

theorem Accounted.drift (hs : Accounted s) {d : Drift} (h : s.drift d s') : Accounted s' := by
  cases d with
  | tick =>
    obtain rfl : s' = _ := h
    exact ⟨hs.absent, hs.again⟩
  | leave key =>
    obtain rfl : s' = _ := h
    exact hs.removeItem none key

end

/-! ## what a client learns of the log -/

section
variable {T : Type} {t u : T} {s s' : Server T} {c : Call} {r : Ans c} {g g' g₀ l : List (Event T)}

/-- the log grows, and not by items that `t` makes -/
def Grows (t : T) (g g' : List (Event T)) : Prop :=
  ∃ l, g' = l ++ g ∧ ∀ key value, .made t key value ∉ l

theorem Grows.refl (t : T) (g : List (Event T)) : Grows t g g := ⟨[], rfl, fun _ _ => nofun⟩

theorem Grows.trans {g₁ g₂ g₃ : List (Event T)} (h : Grows t g₁ g₂) (h' : Grows t g₂ g₃) :
    Grows t g₁ g₃ := by
  obtain ⟨l, rfl, hl⟩ := h
  obtain ⟨l', rfl, hl'⟩ := h'
  refine ⟨l' ++ l, (List.append_assoc l' l g₁).symm, fun key value hmem => ?_⟩
  rcases List.mem_append.mp hmem with hmem | hmem
  · exact hl' key value hmem
  · exact hl key value hmem

theorem Grows.suffix (h : Grows t g g') : g <:+ g' := by
  obtain ⟨l, rfl, -⟩ := h
  exact List.suffix_append l g

/-- an `add` that succeeds is the last event -/
def reserveServed (t : T) : (c : Call) → Ans c → List (Event T) → List (Event T) → Prop
  | .add key value _, rc, g, g' =>
      g <:+ g' ∧ ((rc : Status) = .success → g' = .made t key value :: g)
  | _, _, g, g' => g <:+ g'

def reserveRules (t : T) : Rules Call Ans (List (Event T)) where
  env := Grows t
  guard _ _ := True
  served := reserveServed t
  refl := Grows.refl t
  trans _ _ _ := Grows.trans

theorem reserveServed_suffix (h : reserveServed t c r g g') : g <:+ g' := by
  cases c <;> first | exact h | exact h.1

/-- a request adds one event at most, and only an `add` of the client makes an item in its name -/
theorem grows_exec (hne : u ≠ t) (c : Call) (s : Server T) : Grows t s.log (s.exec u c).log := by
  have hself : Grows t s.log s.log := Grows.refl t s.log
  have hcons : ∀ e : Event T, (∀ key value, e ≠ .made t key value) → Grows t s.log (e :: s.log) :=
    fun e he => ⟨[e], rfl, fun key value hmem => he key value (List.mem_singleton.mp hmem).symm⟩
  cases c with
  | add key value expiration =>
    show Grows t s.log (s.addItem u key value expiration).log
    unfold Server.addItem
    split
    · refine hcons _ fun key' value' he => ?_
      cases he
      exact hne rfl
    · exact hself
  | get key => exact hcons _ nofun
  | set key value expiration => exact hcons _ nofun
  | delete by_ key =>
    show Grows t s.log (s.removeItem (some (u, by_)) key).log
    unfold Server.removeItem
    split
    · exact hcons _ nofun
    · exact hself
  | touch key expiration =>
    show Grows t s.log (s.touchItem key expiration).log
    unfold Server.touchItem
    split
    · exact hself
    · exact hself
  | _ => exact hself

theorem suffix_removeItem (by_ : Option (T × DeleteBy)) (key : Bytes) (s : Server T) :
    s.log <:+ (s.removeItem by_ key).log := by
  unfold Server.removeItem
  split
  · exact List.suffix_cons _ _
  · exact List.suffix_rfl

theorem suffix_exec (t : T) (c : Call) (s : Server T) : s.log <:+ (s.exec t c).log := by
  cases c with
  | add key value expiration =>
    show s.log <:+ (s.addItem t key value expiration).log
    unfold Server.addItem
    split
    · exact List.suffix_cons _ _
    · exact List.suffix_rfl
  | get key => exact List.suffix_cons _ _
  | set key value expiration => exact List.suffix_cons _ _
  | delete by_ key => exact suffix_removeItem _ key s
  | touch key expiration =>
    show s.log <:+ (s.touchItem key expiration).log
    unfold Server.touchItem
    split
    · exact List.suffix_rfl
    · exact List.suffix_rfl
  | _ => exact List.suffix_rfl

theorem suffix_of_serve (h : s.Serve t c r s') : s.log <:+ s'.log := by
  rcases h.state with rfl | rfl
  · exact suffix_exec t c s
  · exact List.suffix_rfl

theorem grows_of_serve (hne : u ≠ t) (h : s.Serve u c r s') : Grows t s.log s'.log := by
  rcases h.state with rfl | rfl
  · exact grows_exec hne c s
  · exact Grows.refl t s'.log

theorem grows_of_drift (t : T) {d : Drift} (h : s.drift d s') : Grows t s.log s'.log := by
  cases d with
  | tick =>
    obtain rfl : s' = _ := h
    exact Grows.refl t s.log
  | leave key =>
    obtain rfl : s' = _ := h
    unfold Server.removeItem
    split
    · exact ⟨[_], rfl, fun key value hmem => nomatch List.mem_singleton.mp hmem⟩
    · exact Grows.refl t s.log

theorem reserveServed_of_serve (h : s.Serve t c r s') : reserveServed t c r s.log s'.log := by
  cases c with
  | add key value expiration =>
    refine ⟨suffix_of_serve h, fun hrc => ?_⟩
    have hrc' : r = Status.success := hrc
    subst hrc'
    obtain ⟨hnone, rfl⟩ := h.added
    show (s.addItem t key value expiration).log = _
    unfold Server.addItem
    rw [hnone]
    rfl
  | _ => exact suffix_of_serve h

/-! ## the loop -/

/-- since `g₀`, `t` has made the item of `sid`, and then no other; `l` is the log before -/
def ReservedAt (t : T) (sid : Bytes) (g₀ l g : List (Event T)) : Prop :=
  g₀ <:+ l ∧ Grows t (.made t sid [] :: l) g

variable {L : Library} {p : Proc L} {retries : Nat}

theorem keeps_sLockExpiration (hg : g₀ <:+ g) : Cmd.Keeps (reserveRules t)
    (fun _ p' g' => p' = p ∧ g₀ <:+ g') sLockExpiration p g := by
  refine Cmd.Sat.keeps sat_sLockExpiration (J := fun g' => g₀ <:+ g')
    (fun g g' h hg => h.trans hg.suffix) ?_ hg
  exact fun c g _ hg => ⟨trivial, fun r g' hs => hg.trans (reserveServed_suffix hs)⟩

/-- **An id that the loop returns is one it made an item of.** -/
theorem keeps_createSidLoop (hg : g₀ <:+ g) : Cmd.Keeps (reserveRules t)
    (fun ret p' g' => p' = p ∧ ∀ sid, ret = .sid (some sid) → ∃ l, ReservedAt t sid g₀ l g')
    (createSidLoop retries) p g := by
  induction retries generalizing g with
  | zero => exact fun g' _ => ⟨rfl, nofun⟩
  | succ retries ih =>
    refine fun g₁ h₁ => ⟨trivial, fun sid g₂ h₂ => ?_⟩
    have hsuffix : g₁ <:+ g₂ := h₂
    have hg₂ : g₀ <:+ g₂ := (hg.trans (Grows.suffix h₁)).trans hsuffix
    refine Cmd.Keeps.bind (keeps_sLockExpiration hg₂) fun expiration p₁ g₃ h₃ => ?_
    obtain ⟨rfl, hg₃⟩ := h₃
    refine fun g₄ h₄ => ⟨trivial, fun rc g₅ h₅ => ?_⟩
    have hg₄ : g₀ <:+ g₄ := hg₃.trans h₄.suffix
    show Cmd.Keeps (reserveRules t) _
      (if (rc : Status) = .success then pure (.sid (some sid)) else createSidLoop retries) p₁ g₅
    split
    · rename_i hrc
      obtain rfl : g₅ = _ := h₅.2 hrc
      refine fun g₆ h₆ => ⟨rfl, fun sid' he => ?_⟩
      cases he
      exact ⟨g₄, hg₄, h₆⟩
    · exact ih (hg₄.trans h₅.1)

end

/-! ## a record of the ids -/

/-- a `PS_CREATE_SID` that returned: whether the connection was open, and the logs of the server when
it was called and when it returned -/
structure Reply (T : Type) where
  client : T
  opened : Bool
  sid : Option Bytes
  before : List (Event T)
  after : List (Event T)

/-- clients on a server, the log of the server when a client started what it does, and what their
calls of `PS_CREATE_SID` have returned, the last one first -/
structure Census (L : Library) (T : Type) where
  world : Clients L T
  before : T → List (Event T)
  replies : List (Reply T)

section
variable {L : Library} {T : Type}

/-- what a client returns from `PS_CREATE_SID`, and whether it has module data -/
def Client.reply : Client L → Option (Bool × Option Bytes)
  | .live p ((_, .sid sid) :: _) => some (p.modData.isSome, sid)
  | _ => none

/-- what is put down when `t` ends what it does -/
def Census.ended (w : Census L T) (t : T) : List (Reply T) :=
  match w.world.phase t with
  | .busy (.callback .createSid) (.ret client) =>
    client.reply.toList.map fun (opened, sid) =>
      ⟨t, opened, sid, w.before t, w.world.shared.log⟩
  | _ => []

def Census.Next [DecidableEq T] (w : Census L T) (move : Move T Act Drift) (w' : Census L T) :
    Prop :=
  (sessions L T Server.Serve).Next w.world move w'.world ∧
    match move with
    | .start t _ =>
      w'.before = Function.update w.before t w.world.shared.log ∧ w'.replies = w.replies
    | .finish t => w'.before = w.before ∧ w'.replies = w.ended t ++ w.replies
    | _ => w'.before = w.before ∧ w'.replies = w.replies

/-- during the call, and after `l`, the client made the item of `sid`, and then no other -/
def Reply.Reserved (a : Reply T) (sid : Bytes) (l : List (Event T)) : Prop :=
  ReservedAt a.client sid a.before l a.after

/-- the item that the call made of `sid` has gone -/
def Reply.Lost (a : Reply T) (sid : Bytes) (log : List (Event T)) : Prop :=
  ∃ l, a.Reserved sid l ∧ Gone sid (.made a.client sid [] :: l) log

/-- two calls on open connections do not return one id, unless the item of one of them has gone -/
def Distinct (log : List (Event T)) (a b : Reply T) : Prop :=
  ∀ sid, a.opened = true → b.opened = true → a.sid = some sid → b.sid = some sid →
    a.Lost sid log ∨ b.Lost sid log

/-- the ids that were returned on open connections were reserved, and they are distinct -/
structure Reservations (w : Census L T) : Prop where
  reserved : ∀ a ∈ w.replies, a.opened = true → ∀ sid, a.sid = some sid → ∃ l, a.Reserved sid l
  distinct : w.replies.Pairwise (Distinct w.world.shared.log)

/-- how a client ends that was to return an id, with the log `g₀` when it was called -/
def Reserves (t : T) (g₀ : List (Event T)) (client : Client L) (g : List (Event T)) : Prop :=
  ∀ sid, client.reply = some (true, some sid) → ∃ l, ReservedAt t sid g₀ l g

theorem keeps_createSid (t : T) (client : Client L) (g : List (Event T)) :
    (Client.code (.callback .createSid) client).Keeps (reserveRules t) (Reserves t g) g := by
  cases client with
  | dead => exact fun g' _ => nofun
  | live p past =>
    -- without module data nothing is claimed of the id
    have hcall : Cmd.Keeps (reserveRules t) (fun ret p' g' => p'.modData.isSome = true →
        ∀ sid, ret = .sid (some sid) → ∃ l, ReservedAt t sid g l g') (callback .createSid) p g := by
      unfold callback Cmd.Keeps
      dsimp only
      cases hmod : p.modData with
      | some h =>
        rw [psCreateSid_of_some hmod]
        refine (keeps_createSidLoop List.suffix_rfl).mono fun ret p' g' hret _ sid he => ?_
        exact hret.2 sid he
      | none =>
        rw [psCreateSid_of_none hmod]
        refine fun g₁ h₁ => ⟨trivial, fun sid g₂ h₂ g₃ h₃ hsome => ?_⟩
        rw [hmod] at hsome
        cases hsome
    refine Prog.Keeps.bind hcall fun o g' ho => ?_
    cases o with
    | stop e p' => exact fun g'' _ => nofun
    | done ret p' =>
      intro g'' hg sid hreply
      cases ret with
      | sid sid' =>
        have hpair : (p'.modData.isSome, sid') = (true, some sid) := Option.some.inj hreply
        obtain rfl : sid' = some sid := congrArg Prod.snd hpair
        obtain ⟨l, hbefore, hmade⟩ := ho (congrArg Prod.fst hpair) sid rfl
        exact ⟨l, hbefore, hmade.trans hg⟩
      | _ => cases hreply

end

/-! ## every run -/

section
variable {L : Library} {T : Type} {t u : T} {w w' : Census L T} {log log' : List (Event T)}
  {a b : Reply T} {sid : Bytes}

theorem Distinct.mono (h : Distinct log a b) (hlog : log <:+ log') : Distinct log' a b := by
  intro sid ha hb hsa hsb
  rcases h sid ha hb hsa hsb with ⟨l, hl, hgone⟩ | ⟨l, hl, hgone⟩
  · exact .inl ⟨l, hl, hgone.mono hlog⟩
  · exact .inr ⟨l, hl, hgone.mono hlog⟩

/-- what carries the record: `busy` is about the calls that have not returned -/
structure Census.Ok (w : Census L T) : Prop where
  server : Accounted w.world.shared
  busy : ∀ t p, w.world.phase t = .busy (.callback .createSid) p →
    p.Keeps (reserveRules t) (Reserves t (w.before t)) w.world.shared.log
  past : ∀ a ∈ w.replies, a.after <:+ w.world.shared.log
  earlier : ∀ a ∈ w.replies, ∀ p, w.world.phase a.client = .busy (.callback .createSid) p →
    a.after <:+ w.before a.client
  kept : Reservations w

/-- an id that was reserved in a call is that of another call only if an item has gone: of two
events that made it, the one before went -/
theorem Reply.distinct {s : Server T} (hs : Accounted s) (ha : a.after <:+ s.log)
    (hb : b.after <:+ s.log) (hab : b.client = a.client → b.after <:+ a.before) {la lb : List (Event T)}
    (hra : a.Reserved sid la) (hrb : b.Reserved sid lb) : a.Lost sid s.log ∨ b.Lost sid s.log := by
  have hma : (.made a.client sid [] :: la) <:+ s.log := hra.2.suffix.trans ha
  have hmb : (.made b.client sid [] :: lb) <:+ s.log := hrb.2.suffix.trans hb
  have hla : la <:+ s.log := (List.suffix_cons _ la).trans hma
  have hlb : lb <:+ s.log := (List.suffix_cons _ lb).trans hmb
  by_cases hc : b.client = a.client
  · -- the calls of one client follow each other
    have hbefore : (.made b.client sid [] :: lb) <:+ la :=
      (hrb.2.suffix.trans (hab hc)).trans hra.1
    exact .inr ⟨lb, hrb, (hs.again _ _ _ _ _ _ _ hma hbefore).mono hla⟩
  · rcases List.suffix_or_suffix_of_suffix hma hmb with hsuf | hsuf
    · rcases List.suffix_cons_iff.mp hsuf with he | hsuf'
      · exact absurd (Event.made.inj (List.cons.inj he).1).1.symm hc
      · exact .inl ⟨la, hra, (hs.again _ _ _ _ _ _ _ hmb hsuf').mono hlb⟩
    · rcases List.suffix_cons_iff.mp hsuf with he | hsuf'
      · exact absurd (Event.made.inj (List.cons.inj he).1).1 hc
      · exact .inr ⟨lb, hrb, (hs.again _ _ _ _ _ _ _ hma hsuf').mono hla⟩

/-- the server goes on, the record is left as it is -/
theorem Census.Ok.goesOn (hw : w.Ok) (hserver : Accounted w'.world.shared)
    (hlog : w.world.shared.log <:+ w'.world.shared.log) (hbefore : w'.before = w.before)
    (hreplies : w'.replies = w.replies)
    (hbusy : ∀ t p, w'.world.phase t = .busy (.callback .createSid) p →
      p.Keeps (reserveRules t) (Reserves t (w.before t)) w'.world.shared.log)
    (hphase : ∀ t p, w'.world.phase t = .busy (.callback .createSid) p →
      ∃ p, w.world.phase t = .busy (.callback .createSid) p) : w'.Ok where
  server := hserver
  busy t p hp := hbefore ▸ hbusy t p hp
  past a ha := (hw.past a (hreplies ▸ ha)).trans hlog
  earlier a ha p hp := by
    obtain ⟨p₀, hp₀⟩ := hphase a.client p hp
    rw [hbefore]
    exact hw.earlier a (hreplies ▸ ha) p₀ hp₀
  kept := by
    refine ⟨fun a ha => hw.kept.reserved a (hreplies ▸ ha), ?_⟩
    rw [hreplies]
    exact hw.kept.distinct.imp fun h => h.mono hlog

theorem Census.Ok.drift (hw : w.Ok) {d : Drift} {shared : Server T}
    (hdrift : w.world.shared.drift d shared) (hworld : w'.world = { w.world with shared := shared })
    (hbefore : w'.before = w.before) (hreplies : w'.replies = w.replies) : w'.Ok := by
  have hshared : w'.world.shared = shared := by rw [hworld]
  have hphase : w'.world.phase = w.world.phase := by rw [hworld]
  have hgrows : ∀ u, Grows u w.world.shared.log shared.log := fun u => grows_of_drift u hdrift
  refine hw.goesOn ?_ ?_ hbefore hreplies (fun u p hp => ?_) fun u p hp => ⟨p, hphase ▸ hp⟩
  · exact hshared ▸ hw.server.drift hdrift
  · cases d with
    | tick =>
      obtain rfl : shared = _ := hdrift
      exact hshared ▸ List.suffix_rfl
    | leave key =>
      obtain rfl : shared = _ := hdrift
      exact hshared ▸ suffix_removeItem none key _
  · rw [hshared]
    exact (hw.busy u p (hphase ▸ hp)).env (hgrows u)

variable [DecidableEq T]

/-- a client starts something: what it returned before, it returned before this -/
theorem Census.Ok.start (hw : w.Ok) {a : Act} {client : Client L}
    (hphase : w.world.phase t = .idle client)
    (hworld : w'.world = w.world.set t (.busy a (Client.code a client)))
    (hbefore : w'.before = Function.update w.before t w.world.shared.log)
    (hreplies : w'.replies = w.replies) : w'.Ok := by
  have hlog : w'.world.shared = w.world.shared := by rw [hworld, World.set_shared]
  have hself : w'.before t = w.world.shared.log := by rw [hbefore, Function.update_self]
  have hother : ∀ u, u ≠ t → w'.before u = w.before u := fun u hne => by
    rw [hbefore, Function.update_of_ne hne]
  have hphase' : ∀ u, u ≠ t → w'.world.phase u = w.world.phase u := fun u hne => by
    rw [hworld, World.set_phase_of_ne hne]
  constructor
  · exact hlog ▸ hw.server
  · intro u p hp
    rw [hlog]
    by_cases he : u = t
    · subst he
      rw [hworld, World.set_phase_self] at hp
      cases hp
      rw [hself]
      exact keeps_createSid u client _
    · rw [hother u he]
      exact hw.busy u p ((hphase' u he).symm.trans hp)
  · intro a ha
    rw [hlog]
    exact hw.past a (hreplies ▸ ha)
  · intro a ha p hp
    by_cases he : a.client = t
    · rw [he, hself]
      exact hw.past a (hreplies ▸ ha)
    · rw [hother _ he]
      exact hw.earlier a (hreplies ▸ ha) p ((hphase' _ he).symm.trans hp)
  · refine ⟨fun a ha => hw.kept.reserved a (hreplies ▸ ha), ?_⟩
    rw [hreplies, hlog]
    exact hw.kept.distinct

/-- a request of a client is served -/
theorem Census.Ok.serve (hw : w.Ok) {a : Act} {c : Call} {k : Ans c → Prog Call Ans (Client L)}
    {r : Ans c} {shared : Server T} (hphase : w.world.phase t = .busy a (.call c k))
    (hserve : w.world.shared.Serve t c r shared)
    (hworld : w'.world = ({ w.world with shared := shared } : Clients L T).set t (.busy a (k r)))
    (hbefore : w'.before = w.before) (hreplies : w'.replies = w.replies) : w'.Ok := by
  have hshared : w'.world.shared = shared := by rw [hworld, World.set_shared]
  have hphase' : ∀ u, u ≠ t → w'.world.phase u = w.world.phase u := fun u hne => by
    rw [hworld, World.set_phase_of_ne hne]
  refine hw.goesOn ?_ ?_ hbefore hreplies (fun u p hp => ?_) fun u p hp => ?_
  · exact hshared ▸ hw.server.serve hserve
  · exact hshared ▸ suffix_of_serve hserve
  · rw [hshared]
    by_cases he : u = t
    · subst he
      rw [hworld, World.set_phase_self] at hp
      cases hp
      exact (hw.busy u _ hphase _ (Grows.refl u _)).2 r _ (reserveServed_of_serve hserve)
    · exact (hw.busy u p ((hphase' u he).symm.trans hp)).env
        (grows_of_serve (Ne.symm he) hserve)
  · by_cases he : u = t
    · subst he
      rw [hworld, World.set_phase_self] at hp
      cases hp
      exact ⟨_, hphase⟩
    · exact ⟨p, (hphase' u he).symm.trans hp⟩

/-- the id of a call that ends is put down -/
theorem Census.Ok.finish (hw : w.Ok) {a : Act} {client : Client L}
    (hphase : w.world.phase t = .busy a (.ret client))
    (hworld : w'.world = w.world.set t (.idle client)) (hbefore : w'.before = w.before)
    (hreplies : w'.replies = w.ended t ++ w.replies) : w'.Ok := by
  have hshared : w'.world.shared = w.world.shared := by rw [hworld, World.set_shared]
  have hphase' : ∀ u p, w'.world.phase u = .busy (.callback .createSid) p →
      u ≠ t ∧ w.world.phase u = .busy (.callback .createSid) p := by
    intro u p hp
    by_cases he : u = t
    · subst he
      rw [hworld, World.set_phase_self] at hp
      cases hp
    · rw [hworld, World.set_phase_of_ne he] at hp
      exact ⟨he, hp⟩
  -- an id that is new is one of a `PS_CREATE_SID`
  have hended : ∀ a' ∈ w.ended t, a'.client = t ∧ a'.before = w.before t ∧
      a'.after = w.world.shared.log ∧ a = .callback .createSid ∧
      client.reply = some (a'.opened, a'.sid) := by
    intro a' ha'
    unfold Census.ended at ha'
    rw [hphase] at ha'
    split at ha'
    · rename_i client' he
      cases he
      obtain ⟨⟨opened, sid⟩, hreply, rfl⟩ := List.mem_map.mp ha'
      exact ⟨rfl, rfl, rfl, rfl, Option.mem_toList.mp hreply⟩
    · cases ha'
  have hreserved : ∀ a' ∈ w.ended t, a'.opened = true → ∀ sid, a'.sid = some sid →
      ∃ l, a'.Reserved sid l := by
    intro a' ha' hopened sid hsid
    obtain ⟨hclient, hbefore', hafter, rfl, hreply⟩ := hended a' ha'
    rw [hopened, hsid] at hreply
    obtain ⟨l, hl⟩ := hw.busy t _ hphase _ (Grows.refl t _) sid hreply
    refine ⟨l, ?_⟩
    unfold Reply.Reserved
    rw [hclient, hbefore', hafter]
    exact hl
  have hdistinct : ∀ a' ∈ w.ended t, ∀ b ∈ w.replies, Distinct w.world.shared.log a' b := by
    intro a' ha' b hb sid hopened hopened' hsid hsid'
    obtain ⟨hclient, hbefore', hafter, rfl, -⟩ := hended a' ha'
    obtain ⟨la, hra⟩ := hreserved a' ha' hopened sid hsid
    obtain ⟨lb, hrb⟩ := hw.kept.reserved b hb hopened' sid hsid'
    refine Reply.distinct hw.server (hafter ▸ List.suffix_rfl) (hw.past b hb) (fun hc => ?_) hra hrb
    have hb' : w.world.phase b.client = .busy (.callback .createSid) (.ret client) := by
      rw [hc, hclient]
      exact hphase
    rw [hbefore', ← hclient, ← hc]
    exact hw.earlier b hb _ hb'
  have hone : (w.ended t).Pairwise (Distinct w.world.shared.log) := by
    unfold Census.ended
    split
    · rename_i client' _
      cases client'.reply with
      | none => exact .nil
      | some x => exact List.pairwise_singleton _ _
    · exact .nil
  constructor
  · exact hshared ▸ hw.server
  · intro u p hp
    rw [hbefore, hshared]
    exact hw.busy u p (hphase' u p hp).2
  · intro a' ha'
    rw [hshared]
    rcases List.mem_append.mp (hreplies ▸ ha') with hnew | hold
    · exact (hended a' hnew).2.2.1 ▸ List.suffix_rfl
    · exact hw.past a' hold
  · intro a' ha' p hp
    obtain ⟨hne, hp'⟩ := hphase' _ p hp
    rw [hbefore]
    rcases List.mem_append.mp (hreplies ▸ ha') with hnew | hold
    · exact absurd (hended a' hnew).1 hne
    · exact hw.earlier a' hold p hp'
  · refine ⟨fun a' ha' => ?_, ?_⟩
    · rcases List.mem_append.mp (hreplies ▸ ha') with hnew | hold
      · exact hreserved a' hnew
      · exact hw.kept.reserved a' hold
    · rw [hreplies, hshared]
      exact List.pairwise_append.mpr ⟨hone, hw.kept.distinct, hdistinct⟩

/-- one move -/
theorem Census.Ok.next (hw : w.Ok) {move : Move T Act Drift} (hnext : w.Next move w') : w'.Ok := by
  obtain ⟨hworld, hrecord⟩ := hnext
  generalize hw₁ : w.world = w₁ at hworld
  generalize hw₂ : w'.world = w₂ at hworld
  cases hworld with
  | start hphase => exact hw.start (hw₁ ▸ hphase) (by rw [hw₂, hw₁]; rfl) hrecord.1 hrecord.2
  | serve hphase hserve =>
    exact hw.serve (hw₁ ▸ hphase) (hw₁ ▸ hserve) (by rw [hw₂, hw₁]) hrecord.1 hrecord.2
  | finish hphase => exact hw.finish (hw₁ ▸ hphase) (by rw [hw₂, hw₁]) hrecord.1 hrecord.2
  | drift hdrift => exact hw.drift (hw₁ ▸ hdrift) (by rw [hw₂, hw₁]) hrecord.1 hrecord.2

end

/-! ## one call -/

/-- an attempt to reserve an id, and its answer -/
def attempt : Entry Call Ans → Option (Bytes × Status)
  | ⟨.add sid _ _, rc⟩ => some (sid, rc)
  | _ => none

section
variable {L : Library} {p : Proc L}

end

section
variable {L : Library} {T : Type} [DecidableEq T] {w₀ w : Census L T}

/-- the record after a move -/
def Census.follow (w : Census L T) : Move T Act Drift → Clients L T → Census L T
  | .start t _, v => ⟨v, Function.update w.before t w.world.shared.log, w.replies⟩
  | .finish t, v => ⟨v, w.before, w.ended t ++ w.replies⟩
  | _, v => ⟨v, w.before, w.replies⟩

/-- `t` calls `PS_CREATE_SID`, if it is idle -/
def Census.starts (t : T) (w : Census L T) : Census L T :=
  match w.world.phase t with
  | .idle client => w.follow (.start t (.callback .createSid))
      (w.world.set t (.busy (.callback .createSid) (Client.code (.callback .createSid) client)))
  | .busy _ _ => w

end

end PhpMemcached.Session
