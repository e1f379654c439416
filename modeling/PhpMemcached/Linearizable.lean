import PhpMemcached.FastLzCodec
import PhpMemcached.Lib.Linear
import PhpMemcached.Optimistic

/-!
# The calls of all clients are those of one map

* `Answers`             what is relied on of libmemcached and the servers: of each request, what it has
                        done to the items, given its answer;
* `Act`, `Entry`        what an owner does with its object, and what it has got from that;
* `Explained`           the operations, on a map of PHP values, that explain what a call has returned;
* `keeps_get`, `keeps_write`, `keeps_delete`   what one call does, whatever the others do meanwhile;
* `calls_linearizable`  in every run of any number of clients there is one log, which is a run of that
                        map, and the operations of each client in it explain its calls, one by one.

A run can be cut anywhere, so a call that has ended before another begins has its operation before
the other's. Expirations, evictions and other programs are the drift of the items.
-/

namespace PhpMemcached.Linearizable
open Ascii Requests Linear

/-! ## the servers -/

abbrev Servers (T : Type) := Logged T (MapOp Loc Item) (Loc → Option Item)

/-- the codes that say that a write is not for the item as it is, in the two protocols -/
def refusals : Mode → List Status
  | .always => []
  | .ifAbsent => [.notstored, .dataExists]
  | .ifPresent => [.notstored, .notfound]

/-- what a request has done whose code is `status`: `op true`; or it was refused, which is `op false`;
or it has failed, and it may be done or not -/
def Made {V : Type} (refused : List Status) (op : Bool → MapOp Loc V) (status : Status)
    (ops : List (MapOp Loc V)) : Prop :=
  if sMemcachedReturnIsError status true = false then ops = [op true]
  else if status ∈ refused then ops = [op false]
  else ops = [] ∨ ops = [op true]

/-- the answer to a fetch request of one key: the item, or none; or the request has failed, or the
connection -/
inductive Fetched (l : Loc) : Status → Stream → List (MapOp Loc Item) → Prop
  | hit (item : Item) (key : Bytes) (cas : UInt64) : Fetched l .success
      ⟨[(.success, ⟨key, .bytes item.payload, item.flags, cas⟩)], .end_⟩ [.read l (some item)]
  | miss : Fetched l .success ⟨[], .notfound⟩ [.read l none]
  | failed {status : Status} {stream : Stream} (h : sMemcachedReturnIsError status true = true)
      (hfound : status ≠ .notfound) : Fetched l status stream []
  | broken {status : Status} (h : sMemcachedReturnIsError status false = true)
      (hfound : status ≠ .notfound) : Fetched l .success ⟨[], status⟩ []

/-- `memcached_set`, `memcached_add` and `memcached_replace` -/
def storeMode : StoreFn → Option Mode
  | .set => some .always
  | .add => some .ifAbsent
  | .replace => some .ifPresent
  | _ => none

/-- what is done by a request with this answer. An error handler of the user makes no calls on the
object. -/
def Answers (route : Bytes → Nat) : (c : Call) → Ans c → List (MapOp Loc Item) → Prop
  | .store memc fn key payload expiration flags, status, ops => ∀ mode ∈ storeMode fn, memc.Awaits →
      Made (refusals mode) (.write mode (memc.loc route none key) ⟨payload, flags, expiration⟩) status
        ops
  | .storeByKey memc fn serverKey key payload expiration flags, status, ops =>
    ∀ mode ∈ storeMode fn, memc.Awaits →
      Made (refusals mode)
        (.write mode (memc.loc route (some serverKey) key) ⟨payload, flags, expiration⟩) status ops
  | .delete memc key _, status, ops =>
    memc.Awaits → Made [.notfound] (.delete (memc.loc route none key)) status ops
  | .deleteByKey memc serverKey key _, status, ops =>
    memc.Awaits → Made [.notfound] (.delete (memc.loc route (some serverKey) key)) status ops
  | .mget memc [key], r, ops => Fetched (memc.loc route none key) r.1 r.2 ops
  | .mgetByKey memc serverKey [key], r, ops =>
    Fetched (memc.loc route (some serverKey) key) r.1 r.2 ops
  | .lastErrorErrno _, _, ops => ops = []
  | .quit _, _, ops => ops = []
  | .behaviorSet .., _, ops => ops = []
  | .warning _, _, ops => ops = []
  | _, _, _ => True

section
variable {T : Type}

/-- a request of `t` is served -/
def Serves (route : T → Bytes → Nat) (t : T) (c : Call) (r : Ans c) (g g' : Servers T) : Prop :=
  ∃ ops, Acts MapOp.Step (some t) ops g g' ∧ Answers (route t) c r ops

/-- a client, and the servers -/
structure View (T : Type) where
  who : T
  servers : Servers T

variable [DecidableEq T]

/-- the same client, having added the operations `ops` -/
def View.Adds (g : View T) (ops : List (MapOp Loc Item)) (g' : View T) : Prop :=
  g'.who = g.who ∧ Linear.Adds MapOp.Step g.who ops g.servers g'.servers

variable {g g' g'' : View T} {ops ops' : List (MapOp Loc Item)}

theorem View.Adds.refl (g : View T) : g.Adds [] g := ⟨rfl, .refl⟩

theorem View.Adds.trans (h : g.Adds ops g') (h' : g'.Adds ops' g'') : g.Adds (ops' ++ ops) g'' := by
  refine ⟨h'.1.trans h.1, h.2.trans ?_⟩
  rw [← h.1]
  exact h'.2

/-- the others may do anything with the items, of which the log tells -/
def rules (route : T → Bytes → Nat) : Rules Call Ans (View T) where
  env g g' := g.Adds [] g'
  guard _ _ := True
  served c r g g' := g'.who = g.who ∧ Serves route g.who c r g.servers g'.servers
  refl := View.Adds.refl
  trans _ _ _ h h' := h.trans h'

variable {route : T → Bytes → Nat} {c : Call} {α : Type} {m : MemcM α} {Q : α → State → Prop}
  {s : State}

theorem adds_of_served {r : Ans c} (h : (rules route).served c r g g') :
    ∃ ops, g.Adds ops g' ∧ Answers (route g.who) c r ops := by
  obtain ⟨hwho, ops, hacts, hanswers⟩ := h
  exact ⟨ops, ⟨hwho, hacts.adds⟩, hanswers⟩

/-- what one request adds -/
theorem keeps_ask (c : Call) (hg : g.Adds [] g') :
    Cmd.Keeps (rules route) (fun r s' g'' => s' = s ∧ ∃ ops, g.Adds ops g'' ∧
      Answers (route g.who) c r ops) (ask c) s g' := by
  intro g₁ h₁
  refine ⟨trivial, fun r g₂ hr g₃ h₃ => ⟨rfl, ?_⟩⟩
  obtain ⟨ops, hops, hanswers⟩ := adds_of_served hr
  have hg₁ := hg.trans h₁
  rw [hg₁.1] at hanswers
  refine ⟨ops, ?_, hanswers⟩
  have hall := (hg₁.trans hops).trans h₃
  simpa using hall

/-- a request that leaves the items as they are -/
def Quiet (c : Call) : Prop := ∀ route r ops, Answers route c r ops → ops = []

theorem quiet_warning {c : Call} (h : c.IsWarning) : Quiet c := by
  cases c <;> first | exact h.elim | exact fun _ _ _ h => h

/-- a command with quiet requests only -/
theorem keeps_quiet (hm : Cmd.Sat Quiet Q m s) (hg : g.Adds ops g') :
    Cmd.Keeps (rules route) (fun a s' g'' => Q a s' ∧ g.Adds ops g'') m s g' := by
  refine hm.keeps (fun g₁ g₂ h h' => h.trans h') (fun c g₁ hquiet h => ⟨trivial, ?_⟩) hg
  intro r g₂ hr
  obtain ⟨ops', hops', hanswers⟩ := adds_of_served hr
  rw [hquiet _ _ _ hanswers] at hops'
  exact h.trans hops'

/-- the result code: it is left in the object, and tells whether there is an error -/
theorem quiet_handleResultCode (status : Status) (s : State) :
    Cmd.Sat Quiet (fun ok s' => s'.rescode = status ∧ s'.memc = s.memc ∧
      ok = !sMemcachedReturnIsError status true) (sMemcStatusHandleResultCode status) s := by
  unfold sMemcStatusHandleResultCode sMemcSetStatus
  rw [Cmd.sat_modify_bind]
  cases h : sMemcachedReturnIsError status true with
  | true => exact ⟨fun _ _ _ h => h, fun _ => ⟨rfl, rfl, rfl⟩⟩
  | false => exact ⟨rfl, rfl, rfl⟩

end

/-! ## what the calls do -/

/-- the object's calls for the three modes -/
def writeOp : Mode → WriteOp
  | .always => .set
  | .ifAbsent => .add
  | .ifPresent => .replace

section
variable {V : Type} {refused : List Status} {op : Bool → MapOp Loc V} {status : Status}
  {ops : List (MapOp Loc V)}

/-- a call that fails before its request -/
theorem made_failed (h : sMemcachedReturnIsError status true = true) (hne : status ∉ refused) :
    Made refused op status [] := by
  unfold Made
  rw [h, if_neg Bool.noConfusion, if_neg hne]
  exact .inl rfl

/-- `MEMCACHED_END` is no refusal -/
theorem Made.endIsSuccess {mode : Mode} (h : Made (refusals mode) op status ops) :
    Made (refusals mode) op (endIsSuccess status) ops := by
  unfold PhpMemcached.endIsSuccess
  by_cases hend : status = .end_
  · rw [if_pos hend]
    rwa [hend] at h
  · rwa [if_neg hend]

end

section
variable (env : Env) {T : Type} [DecidableEq T] {route : T → Bytes → Nat} {g g' : View T}
  {s : State} {serverKey : Option Bytes} {key : Bytes} {expiration : Int64}

/-- a request whose answer is looked at -/
theorem keeps_answer {α : Type} (c : Call) (f : Ans c → α) {P : α → List (MapOp Loc Item) → Prop}
    (hf : ∀ r ops, Answers (route g.who) c r ops → P (f r) ops) (hg : g.Adds [] g') :
    Cmd.Keeps (rules route) (fun a s' g'' => s' = s ∧ ∃ ops, g.Adds ops g'' ∧ P a ops)
      (ask c >>= fun r => pure (f r)) s g' := by
  refine (keeps_ask c hg).bind fun r s₁ g₁ h₁ g₂ h₂ => ?_
  obtain ⟨rfl, ops, hops, hanswers⟩ := h₁
  exact ⟨rfl, ops, hops.trans h₂, hf r ops hanswers⟩

/-- one attempt of a write -/
theorem keeps_writeAttempts (mode : Mode) (payload : Bytes) (flags : Flags) {retries : Int64}
    (hretries : retries.toInt ≤ 0) (hawaits : s.memc.Awaits) (hg : g.Adds [] g') :
    Cmd.Keeps (rules route) (fun status s' g'' => s' = s ∧ ∃ ops, g.Adds ops g'' ∧
        Made (refusals mode) (.write mode (s.memc.loc (route g.who) serverKey key)
          ⟨payload, flags, expiration⟩) status ops)
      (writeAttempts env (writeOp mode) serverKey key (some payload) expiration flags retries)
      s g' := by
  have hone : retries.toInt.toNat = 0 := by omega
  unfold writeAttempts
  rw [hone]
  cases serverKey with
  | none =>
    cases mode with
    | always =>
      exact keeps_answer (.store s.memc .set key payload expiration flags) endIsSuccess
        (fun _ _ h => (h _ rfl hawaits).endIsSuccess) hg
    | ifAbsent =>
      exact keeps_answer (.store s.memc .add key payload expiration flags) endIsSuccess
        (fun _ _ h => (h _ rfl hawaits).endIsSuccess) hg
    | ifPresent =>
      exact keeps_answer (.store s.memc .replace key payload expiration flags) endIsSuccess
        (fun _ _ h => (h _ rfl hawaits).endIsSuccess) hg
  | some serverKey =>
    cases mode with
    | always =>
      exact keeps_answer (.storeByKey s.memc .set serverKey key payload expiration flags)
        endIsSuccess (fun _ _ h => (h _ rfl hawaits).endIsSuccess) hg
    | ifAbsent =>
      exact keeps_answer (.storeByKey s.memc .add serverKey key payload expiration flags)
        endIsSuccess (fun _ _ h => (h _ rfl hawaits).endIsSuccess) hg
    | ifPresent =>
      exact keeps_answer (.storeByKey s.memc .replace serverKey key payload expiration flags)
        endIsSuccess (fun _ _ h => (h _ rfl hawaits).endIsSuccess) hg

theorem keeps_memcachedDelete (hawaits : s.memc.Awaits) (hg : g.Adds [] g') :
    Cmd.Keeps (rules route) (fun status s' g'' => s' = s ∧ ∃ ops, g.Adds ops g'' ∧
        Made [.notfound] (.delete (s.memc.loc (route g.who) serverKey key)) status ops)
      (memcachedDelete serverKey key expiration) s g' := by
  cases serverKey with
  | none => exact keeps_answer (.delete s.memc key expiration) id (fun _ _ h => h hawaits) hg
  | some serverKey =>
    exact keeps_answer (.deleteByKey s.memc serverKey key expiration) id (fun _ _ h => h hawaits) hg

end

/-! ## clients -/

/-- what an owner does with its object; anything but the calls of the map is `other` -/
inductive Act where
  | get (serverKey : Option Bytes) (key : Bytes)
  | write (mode : Mode) (serverKey : Option Bytes) (key : Bytes) (value : Zval) (expiration : Int64)
  | delete (serverKey : Option Bytes) (key : Bytes) (expiration : Int64)
  | other (m : MemcM Zval)

def Act.run (env : Env) : Act → MemcM Zval
  | .get serverKey key => phpMemcGetImpl env serverKey key false false
  | .write mode serverKey key value expiration =>
    phpMemcStoreImpl env (writeOp mode) serverKey key (some value) expiration
  | .delete serverKey key expiration => phpMemcDeleteImpl serverKey key expiration
  | .other m => m

/-- a call that has returned: the object before it, the call, its result, the result code -/
structure Entry where
  before : State
  act : Act
  result : Zval
  code : Status

/-- an item as the readers see it, each according to its serializer; none if it does not decode -/
abbrev Seen := SerializerType → Option Zval

def seen (env : Env) (item : Item) : Seen := fun serializer =>
  let d := sMemcachedResultToZval env serializer (.bytes item.payload) item.flags
  if d.ok then some d.value else none

/-- what a `get` shows that has left `code` -/
def Shown (l : Loc) (serializer : SerializerType) (z : Zval) (code : Status)
    (ops : List (MapOp Loc Seen)) : Prop :=
  if code = .success then ∃ x : Seen, ops = [.read l (some x)] ∧ x serializer = some z
  else sMemcachedReturnIsError code true = true ∧
    if code = .notfound then ops = [.read l none]
    else ops = [] ∨ ∃ x : Seen, ops = [.read l (some x)] ∧ x serializer = none

/-- the operations on the map of values that explain what a call has returned -/
def Entry.Explained (env : Env) (route : Bytes → Nat) (e : Entry) (ops : List (MapOp Loc Seen)) :
    Prop :=
  match e.act with
  | .get serverKey key => ∃ z,
      Shown (e.before.memc.loc route serverKey key) e.before.memc.userData.serializer z e.code ops ∧
      e.result = if e.code = .success then z else .bool false
  | .write mode serverKey key value _ => ∃ x : Seen,
      (∀ rser, Storable env env e.before rser (· < 2 ^ 31) value → x rser = some value) ∧
      Made (refusals mode) (.write mode (e.before.memc.loc route serverKey key) x) e.code ops ∧
      e.result = .bool (!sMemcachedReturnIsError e.code true)
  | .delete serverKey key _ =>
      Made [.notfound] (.delete (e.before.memc.loc route serverKey key)) e.code ops ∧
      e.result = .bool (!sMemcachedReturnIsError e.code true)
  | .other _ => True

section
variable {env : Env} {behind : Bytes → Bytes} {T : Type} [DecidableEq T] {route : T → Bytes → Nat}
  {g g' : View T} {s : State} {serverKey : Option Bytes} {key : Bytes} {expiration : Int64}

/-- carried along a function, an outcome is one of the values -/
theorem Made.map {V W : Type} (f : V → W) {refused : List Status} {op : Bool → MapOp Loc V}
    {status : Status} {ops : List (MapOp Loc V)} (h : Made refused op status ops) :
    Made refused (fun done => (op done).map f) status (ops.map (MapOp.map f)) := by
  unfold Made at h ⊢
  split_ifs at h ⊢
  · rw [h]
    rfl
  · rw [h]
    rfl
  · rcases h with h | h
    · rw [h]
      exact .inl rfl
    · rw [h]
      exact .inr rfl

variable (env) in
/-- what is known at the end of a call -/
def Ended (route : T → Bytes → Nat) (g : View T) (s : State) (act : Act) (z : Zval) (s' : State)
    (g' : View T) : Prop :=
  ∃ ops, g.Adds ops g' ∧
    (⟨s, act, z, s'.rescode⟩ : Entry).Explained env (route g.who) (ops.map (MapOp.map (seen env)))

/-- the end of a write or a delete -/
theorem keeps_end {status : Status} {ops : List (MapOp Loc Item)} (hg : g.Adds ops g') :
    Cmd.Keeps (rules route) (fun z s' g'' => g.Adds ops g'' ∧ s'.rescode = status ∧
        z = Zval.bool (!sMemcachedReturnIsError status true))
      (do
        let ok ← sMemcStatusHandleResultCode status
        pure (Zval.bool ok)) s g' := by
  refine (keeps_quiet (quiet_handleResultCode status s) hg).bind fun ok s₁ g₁ h₁ g₂ h₂ => ?_
  obtain ⟨⟨hcode, -, hok⟩, hg₁⟩ := h₁
  exact ⟨hg₁.trans h₂, hcode, by rw [hok]⟩

/-- **What a `delete` does, whatever the others do meanwhile.** -/
theorem keeps_delete (hawaits : s.memc.Awaits) :
    Cmd.Keeps (rules route) (Ended env route g s (.delete serverKey key expiration))
      (phpMemcDeleteImpl serverKey key expiration) s g := by
  unfold phpMemcDeleteImpl sMemcSetStatus checkKeyOr
  rw [Cmd.keeps_modify_bind, Cmd.keeps_get_bind]
  split
  · have hawaits₁ : ({ s with rescode := .success, memcErrno := 0 } : State).memc.Awaits := hawaits
    refine (keeps_memcachedDelete hawaits₁ (.refl g)).bind fun status s₁ g₁ h₁ => ?_
    obtain ⟨-, ops, hops, hmade⟩ := h₁
    refine (keeps_end hops).mono fun z s' g' h => ?_
    obtain ⟨hg', hcode, hz⟩ := h
    refine ⟨ops, hg', ?_, ?_⟩
    · rw [hcode]
      exact hmade.map (seen env)
    · rw [hz, hcode]
  · exact fun g₁ h₁ => ⟨[], h₁, made_failed rfl (show Status.badKeyProvided ∉ [.notfound] by decide), rfl⟩

/-- a value that is sent is seen as it was, by those who can decode it -/
theorem seen_of_payloadOut (hlinks : LinksFastLz env env behind) (hothers : LosslessOthers env env)
    {value : Zval} {item : Item} (hout : payloadOut env s value 0 = .payload item.payload item.flags)
    {rser : SerializerType} (hv : Storable env env s rser (· < 2 ^ 31) value) :
    seen env item rser = some value := by
  unfold seen
  rw [readsBack_fastlz hlinks hothers hv _ _ hout]
  rfl

/-- what is refused before its request -/
theorem ended_unsent {mode : Mode} {value : Zval} {s' : State} {status : Status}
    (hg : g.Adds [] g') (hcode : s'.rescode = status)
    (herror : sMemcachedReturnIsError status true = true) (hne : status ∉ refusals mode) :
    Ended env route g s (.write mode serverKey key value expiration) (.bool false) s' g' := by
  refine ⟨[], hg, fun _ => some value, fun _ _ => rfl, ?_, ?_⟩
  · rw [hcode]
    exact made_failed herror hne
  · rw [hcode, herror]
    rfl

/-- a value that does not get so far is no refusal of the servers -/
theorem not_mem_refusals (mode : Mode) {status : Status}
    (h : status ∈ [.badKeyProvided, .payloadFailure, .e2big]) : status ∉ refusals mode := by
  simp only [List.mem_cons, List.not_mem_nil, or_false] at h
  cases mode <;> rcases h with rfl | rfl | rfl <;> simp [refusals]

/-- the request of a write and its end -/
theorem keeps_sent (hlinks : LinksFastLz env env behind) (hothers : LosslessOthers env env)
    {mode : Mode} {value : Zval} {payload : Bytes} {flags : Flags} {retries : Int64} {s₁ : State}
    (hout : payloadOut env s value 0 = .payload payload flags) (hmemc : s₁.memc = s.memc)
    (hawaits : s.memc.Awaits) (hretries : retries.toInt ≤ 0) (hg : g.Adds [] g') :
    Cmd.Keeps (rules route) (Ended env route g s (.write mode serverKey key value expiration))
      ((writeAttempts env (writeOp mode) serverKey key (some payload) expiration flags retries >>=
        sMemcStatusHandleResultCode) >>= fun ok => pure (Zval.bool ok)) s₁ g' := by
  have hawaits₁ : s₁.memc.Awaits := by rwa [hmemc]
  rw [bind_assoc]
  refine (keeps_writeAttempts env mode payload flags hretries hawaits₁ hg).bind ?_
  intro status s₂ g₂ h₂
  obtain ⟨-, ops, hops, hmade⟩ := h₂
  rw [hmemc] at hmade
  refine (keeps_end hops).mono fun z s' g' h => ?_
  obtain ⟨hg', hcode, hz⟩ := h
  refine ⟨ops, hg', seen env ⟨payload, flags, expiration⟩, fun rser hv => ?_, ?_, ?_⟩
  · exact seen_of_payloadOut hlinks hothers hout hv
  · rw [hcode]
    exact hmade.map (seen env)
  · rw [hz, hcode]

/-- **What a `set`, `add` or `replace` does, whatever the others do meanwhile.** -/
theorem keeps_write (hlinks : LinksFastLz env env behind) (hothers : LosslessOthers env env)
    (mode : Mode) (value : Zval) (hawaits : s.memc.Awaits)
    (hretries : s.memc.userData.storeRetryCount.toInt ≤ 0) :
    Cmd.Keeps (rules route) (Ended env route g s (.write mode serverKey key value expiration))
      (phpMemcStoreImpl env (writeOp mode) serverKey key (some value) expiration) s g := by
  have hplain : (writeOp mode == .append || writeOp mode == .prepend) = false := by
    cases mode <;> rfl
  unfold phpMemcStoreImpl sMemcSetStatus checkKeyOr
  rw [Cmd.keeps_modify_bind, Cmd.keeps_get_bind]
  split
  · rw [Cmd.keeps_get_bind, hplain, Bool.and_false, if_neg Bool.noConfusion]
    unfold sMemcWriteZval
    rw [bind_assoc, Cmd.keeps_get_bind, bind_assoc]
    have hwrite := (ends_writePayload env { s with rescode := .success, memcErrno := 0 }
      (some value)).sat.mono (fun _ h => quiet_warning h) fun _ _ h => h
    refine (keeps_quiet hwrite (.refl g)).bind fun r s₁ g₁ h₁ => ?_
    obtain ⟨hr, hg₁⟩ := h₁
    have hout : writeOut env { s with rescode := .success, memcErrno := 0 } (some value) =
        writeOut env s (some value) := writeOut_congr env rfl rfl _
    rw [hout] at hr
    change ((payloadOut env s value 0).toWrite s).Ends _ _ at hr
    cases hp : payloadOut env s value 0 with
    | crash =>
      rw [hp] at hr
      cases r <;> exact hr.elim
    | failed =>
      rw [hp] at hr
      cases r with
      | ok r => exact hr.elim
      | error status =>
        obtain ⟨rfl, -⟩ := hr
        exact fun g₂ h₂ => ended_unsent (hg₁.trans h₂) rfl rfl (not_mem_refusals mode (by simp))
    | payload payload flags =>
      rw [hp, PayloadOut.toWrite] at hr
      by_cases hbig : sIsPayloadTooBig s payload = true
      · rw [if_pos hbig] at hr
        cases r with
        | ok r => exact hr.elim
        | error status =>
          obtain ⟨rfl, -⟩ := hr
          exact fun g₂ h₂ => ended_unsent (hg₁.trans h₂) rfl rfl (not_mem_refusals mode (by simp))
      · rw [if_neg hbig] at hr
        cases r with
        | error status => exact hr.elim
        | ok r =>
          obtain ⟨rfl, hs₁⟩ := hr
          exact keeps_sent hlinks hothers hp hs₁.memc hawaits hretries hg₁
  · exact fun g₁ h₁ => ended_unsent h₁ rfl rfl (not_mem_refusals mode (by simp))

/-! ## what a `get` shows -/

/-- a result as its reader sees it -/
theorem quiet_resultToZval (item : Item) (key : Bytes) (cas : UInt64) (s : State) :
    Cmd.Sat Quiet (fun z s' => s'.memc = s.memc ∧ z = seen env item s.memc.userData.serializer)
      (resultToZval env ⟨key, .bytes item.payload, item.flags, cas⟩) s := by
  unfold resultToZval raise
  rw [Cmd.sat_get_bind, Cmd.sat_modify_bind]
  refine Cmd.Sat.bind (Q := fun _ (s' : State) => s'.memc = s.memc)
    (Cmd.Sat.when (fun _ => ⟨fun _ _ _ h => h, fun _ => rfl⟩) fun _ => rfl) fun _ s' h => ?_
  exact ⟨h, rfl⟩

/-- the loop over the one result of a hit -/
theorem quiet_loop_hit {item : Item} {key : Bytes} {cas : UInt64} {z : Zval}
    (hs : s.memc.stream = ⟨[(.success, ⟨key, .bytes item.payload, item.flags, cas⟩)], .end_⟩) :
    Cmd.Sat Quiet (fun r _ =>
        (∃ v, seen env item s.memc.userData.serializer = some v ∧ r = (.success, v)) ∨
        (seen env item s.memc.userData.serializer = none ∧ (r.1 = .payloadFailure ∨
          r.1 = .someErrors)))
      (resultApplyLoop env (sGetApplyFn false) false 2 .success z) s := by
  have hpending : s.memc.stream.pending =
      [(.success, ⟨key, .bytes item.payload, item.flags, cas⟩)] := by rw [hs]
  have hlast : s.memc.stream.last = .end_ := by rw [hs]
  unfold resultApplyLoop memcachedFetchResult
  rw [bind_assoc, Cmd.sat_get_bind, hpending]
  show Cmd.Sat _ _ (resultToZval env ⟨key, .bytes item.payload, item.flags, cas⟩ >>= _)
    (s.withStream ⟨[], s.memc.stream.last⟩)
  refine (quiet_resultToZval item key cas _).bind fun v s' hv => ?_
  obtain ⟨hmemc, hv⟩ := hv
  change v = seen env item s.memc.userData.serializer at hv
  rw [← hv]
  cases v with
  | some v => exact .inl ⟨v, rfl, rfl⟩
  | none =>
    rw [Cmd.sat_get_bind]
    cases s'.exception with
    | true => exact ⟨fun _ _ _ h => h, fun _ => .inr ⟨rfl, .inl rfl⟩⟩
    | false =>
      show Cmd.Sat _ _ (resultApplyLoop env (sGetApplyFn false) false 1 .someErrors z) s'
      unfold resultApplyLoop memcachedFetchResult
      rw [bind_assoc, Cmd.sat_get_bind, hmemc]
      refine .inr ⟨rfl, .inr ?_⟩
      show (if sMemcachedReturnIsError s.memc.stream.last false then _ else Status.someErrors) = _
      rw [hlast]
      rfl

/-- the loop that finds nothing -/
theorem quiet_loop_miss {status : Status} {z : Zval} (hs : s.memc.stream = ⟨[], status⟩)
    (h : sMemcachedReturnIsError status false = true) :
    Cmd.Sat Quiet (fun r _ => r.1 = status)
      (resultApplyLoop env (sGetApplyFn false) false 1 .success z) s := by
  have hpending : s.memc.stream.pending = [] := by rw [hs]
  have hlast : s.memc.stream.last = status := by rw [hs]
  unfold resultApplyLoop memcachedFetchResult
  rw [bind_assoc, Cmd.sat_get_bind, hpending]
  show (if sMemcachedReturnIsError s.memc.stream.last false then s.memc.stream.last else _) = status
  rw [hlast, if_pos h]

/-- the results, and the code of their end -/
theorem quiet_results {α : Type} {P : α → Status → Prop} {loop : MemcM (Status × α)}
    (hloop : Cmd.Sat Quiet (fun r _ => P r.2 r.1) loop s) :
    Cmd.Sat Quiet (fun r s' => P r.2 s'.rescode) (do
      let r ← loop
      let ok ← sMemcStatusHandleResultCode r.1
      pure (ok, r.2)) s := by
  refine hloop.bind fun r s₁ hr => (quiet_handleResultCode r.1 s₁).bind fun ok s₂ h₂ => ?_
  show P r.2 s₂.rescode
  rwa [h₂.1]

theorem shown_missing {l : Loc} {serializer : SerializerType} {z : Zval} {code : Status}
    (h : sMemcachedReturnIsError code true = true) (hfound : code ≠ .notfound) :
    Shown l serializer z code [] := by
  have hsuccess : code ≠ .success := by
    rintro rfl
    cases h
  unfold Shown
  rw [if_neg hsuccess, if_neg hfound]
  exact ⟨h, .inl rfl⟩

/-- the loop over what a fetch request has left -/
theorem quiet_resultApply {l : Loc} {stream : Stream} {ops : List (MapOp Loc Item)}
    (h : Fetched l .success stream ops) (hs : s.memc.stream = stream) :
    Cmd.Sat Quiet (fun r _ => Shown l s.memc.userData.serializer r.2 r.1
        (ops.map (MapOp.map (seen env))))
      (phpMemcResultApply env (sGetApplyFn false) false .null) s := by
  have hpending : s.memc.stream.pending = stream.pending := by rw [hs]
  unfold phpMemcResultApply
  rw [Cmd.sat_get_bind, hpending]
  cases h with
  | failed h => cases h
  | hit item key cas =>
    refine (quiet_loop_hit hs).mono (fun _ h => h) fun r _ hr => ?_
    rcases hr with ⟨v, hv, rfl⟩ | ⟨hnone, hr⟩
    · exact ⟨seen env item, rfl, hv⟩
    · rcases hr with hr | hr
      · rw [hr]
        exact ⟨rfl, .inr ⟨seen env item, rfl, hnone⟩⟩
      · rw [hr]
        exact ⟨rfl, .inr ⟨seen env item, rfl, hnone⟩⟩
  | miss =>
    refine (quiet_loop_miss hs rfl).mono (fun _ h => h) fun r _ hr => ?_
    rw [hr]
    exact ⟨rfl, rfl⟩
  | broken h hfound =>
    refine (quiet_loop_miss hs h).mono (fun _ h => h) fun r _ hr => ?_
    rw [hr]
    exact shown_missing (isError_of_isError h) hfound

/-- the end of a fetch request, by its answer -/
theorem quiet_fetched {l : Loc} {status : Status} {stream : Stream} {ops : List (MapOp Loc Item)}
    (h : Fetched l status stream ops) (hs : s.memc.stream = stream) :
    Cmd.Sat Quiet (fun r s' => Shown l s.memc.userData.serializer r.2 s'.rescode
        (ops.map (MapOp.map (seen env))))
      (do
        let ok ← sMemcStatusHandleResultCode status
        if !ok then pure (false, Zval.null)
        else
          let r ← phpMemcResultApply env (sGetApplyFn false) false .null
          let ok ← sMemcStatusHandleResultCode r.1
          pure (ok, r.2)) s := by
  refine (quiet_handleResultCode status s).bind fun ok s₁ h₁ => ?_
  obtain ⟨hcode, hmemc, hok⟩ := h₁
  rw [← hmemc] at hs ⊢
  have hsuccess {l' : Loc} {ops'} (h' : Fetched l' .success stream ops') :
      Cmd.Sat Quiet (fun r s' => Shown l' s₁.memc.userData.serializer r.2 s'.rescode
        (ops'.map (MapOp.map (seen env)))) (do
          let r ← phpMemcResultApply env (sGetApplyFn false) false .null
          let ok ← sMemcStatusHandleResultCode r.1
          pure (ok, r.2)) s₁ :=
    quiet_results (P := fun z code => Shown l' _ z code _) (quiet_resultApply h' hs)
  rw [hok]
  cases h with
  | failed h hfound =>
    rw [h]
    show Shown l _ _ s₁.rescode _
    rw [hcode]
    exact shown_missing h hfound
  | hit item key cas => exact hsuccess (.hit item key cas)
  | miss => exact hsuccess .miss
  | broken h hfound => exact hsuccess (.broken h hfound)

/-- the fetch request of one key -/
theorem keeps_fetch (hg : g.Adds [] g') :
    Cmd.Keeps (rules route) (fun status s' g'' => s'.memc.userData = s.memc.userData ∧
        ∃ ops, g.Adds ops g'' ∧
          Fetched (s.memc.loc (route g.who) serverKey key) status s'.memc.stream ops)
      (memcachedMget serverKey [key]) s g' := by
  cases serverKey with
  | none =>
    refine (keeps_ask (.mget s.memc [key]) hg).bind fun r s₁ g₁ h₁ g₂ h₂ => ?_
    obtain ⟨rfl, ops, hops, hfetched⟩ := h₁
    exact ⟨rfl, ops, hops.trans h₂, hfetched⟩
  | some serverKey =>
    refine (keeps_ask (.mgetByKey s.memc serverKey [key]) hg).bind fun r s₁ g₁ h₁ g₂ h₂ => ?_
    obtain ⟨rfl, ops, hops, hfetched⟩ := h₁
    exact ⟨rfl, ops, hops.trans h₂, hfetched⟩

theorem keeps_mgetApply :
    Cmd.Keeps (rules route) (fun r s' g' => ∃ ops, g.Adds ops g' ∧
        Shown (s.memc.loc (route g.who) serverKey key) s.memc.userData.serializer r.2 s'.rescode
          (ops.map (MapOp.map (seen env))))
      (phpMemcMgetApply env serverKey [key] (some (sGetApplyFn false)) false .null) s g := by
  unfold phpMemcMgetApply sMemcSetStatus
  rw [Cmd.keeps_modify_bind, if_neg (List.cons_ne_nil _ _), Cmd.keeps_get_bind]
  show Cmd.Keeps _ _ (memcachedMget serverKey [key] >>= _) _ g
  refine (keeps_fetch (.refl g)).bind fun status s₁ g₁ h₁ => ?_
  obtain ⟨huser, ops, hops, hfetched⟩ := h₁
  refine (keeps_quiet (quiet_fetched hfetched rfl) hops).mono fun r s' g' h => ?_
  obtain ⟨hshown, hg'⟩ := h
  rw [huser] at hshown
  exact ⟨ops, hg', hshown⟩

/-- **What a `get` shows, whatever the others do meanwhile.** -/
theorem keeps_get :
    Cmd.Keeps (rules route) (Ended env route g s (.get serverKey key))
      (phpMemcGetImpl env serverKey key false false) s g := by
  unfold phpMemcGetImpl sMemcSetStatus checkKeyOr
  rw [Cmd.keeps_modify_bind, Cmd.keeps_get_bind]
  split
  · rename_i hcheck
    rw [sKeyToKeys_of_valid _ ((memcCheckKey_iff _ _).mp hcheck)]
    refine keeps_mgetApply.bind fun r s₁ g₁ h₁ => ?_
    obtain ⟨ops, hops, hshown⟩ := h₁
    rw [Cmd.keeps_get_bind, Bool.and_false]
    refine fun g₂ h₂ => ⟨ops, hops.trans h₂, r.2, hshown, ?_⟩
    show (if sMemcachedReturnIsError s₁.rescode true then Zval.bool false else r.2) = _
    unfold Shown at hshown
    by_cases hcode : s₁.rescode = .success
    · rw [if_pos hcode, hcode]
      rfl
    · rw [if_neg hcode] at hshown ⊢
      rw [if_pos hshown.1]
  · refine fun g₁ h₁ => ⟨[], h₁, .null, ?_, rfl⟩
    exact ⟨rfl, .inl rfl⟩

end

/-! ## runs -/

/-- an object, and what its owner has got from it, the newest call first -/
structure Owner where
  object : State
  entries : List Entry

section
variable (env : Env)

/-- after a fatal error there is no owner any more -/
def Act.after (a : Act) (o : Owner) : Outcome Abort State Zval → Option Owner
  | .done z s => some ⟨s, ⟨o.object, a, z, s.rescode⟩ :: o.entries⟩
  | .stop _ _ => none

def Act.code (a : Act) : Option Owner → Prog Call Ans (Option Owner)
  | some o => a.run env o.object >>= fun outcome => .ret (a.after o outcome)
  | none => .ret none

/-- a write or a delete is called on an object that waits for its answer and makes one attempt -/
def Act.may (a : Act) (o : Owner) : Prop :=
  match a with
  | .write .. => o.object.memc.Awaits ∧ o.object.memc.userData.storeRetryCount.toInt ≤ 0
  | .delete .. => o.object.memc.Awaits
  | _ => True

abbrev ClientWorld (T : Type) := World T Call Ans Act (Option Owner) (Servers T)

/-- the clients of the servers; what happens to items without them is the drift -/
abbrev clients {T : Type} (route : T → Bytes → Nat) :
    System T Call Ans Act (Option Owner) Unit (Servers T) where
  code := Act.code env
  serve := Serves route
  drift _ g g' := ∃ ops, Acts MapOp.Step none ops g g'

/-- the calls are explained one by one -/
inductive Explained (route : Bytes → Nat) : List Entry → List (MapOp Loc Seen) → Prop
  | nil : Explained route [] []
  | cons {e : Entry} {entries : List Entry} {ops ops' : List (MapOp Loc Seen)} :
      e.Explained env route ops → Explained route entries ops' →
      Explained route (e :: entries) (ops ++ ops')

variable {env} {behind : Bytes → Bytes} {T : Type} [DecidableEq T] {route : T → Bytes → Nat}
  {g g' : View T} {o : Owner} {t : T}

/-- since the moment of `w`, when its owner was idle, an object has made calls that are explained -/
def Since (env : Env) (route : T → Bytes → Nat) (w : ClientWorld T) (t : T) (o : Option Owner)
    (g : View T) : Prop :=
  ∀ o₀, w.phase t = .idle (some o₀) → ∀ o' ∈ o, ∃ entries ops,
    o'.entries = entries ++ o₀.entries ∧ (View.mk t w.shared).Adds ops g ∧
    Explained env (route t) entries (ops.map (MapOp.map (seen env)))

/-- what one call does -/
theorem keeps_run (hlinks : LinksFastLz env env behind) (hothers : LosslessOthers env env)
    (a : Act) (hmay : a.may o) :
    Cmd.Keeps (rules route) (Ended env route g o.object a) (a.run env) o.object g := by
  cases a with
  | get serverKey key => exact keeps_get
  | write mode serverKey key value expiration =>
    exact keeps_write hlinks hothers mode value hmay.1 hmay.2
  | delete serverKey key expiration => exact keeps_delete hmay
  | other m =>
    have hany : Cmd.Keeps (rules route) (fun _ _ g' => ∃ ops, g.Adds ops g') m o.object g := by
      refine ((Cmd.sat_true m o.object).keeps (J := fun g' => ∃ ops, g.Adds ops g') ?_ ?_
        ⟨[], .refl g⟩).mono fun _ _ _ h => h.2
      · rintro g₁ g₂ ⟨ops, hops⟩ h
        exact ⟨ops, hops.trans h⟩
      · rintro c g₁ - ⟨ops, hops⟩
        refine ⟨trivial, fun r g₂ hr => ?_⟩
        obtain ⟨ops', hops', -⟩ := adds_of_served hr
        exact ⟨ops' ++ ops, hops.trans hops'⟩
    exact hany.mono fun z s' g' ⟨ops, hops⟩ => ⟨ops, hops, trivial⟩

/-- one more call -/
theorem Since.call (hlinks : LinksFastLz env env behind) (hothers : LosslessOthers env env)
    {w : ClientWorld T} {a : Act} (hmay : a.may o) (h : Since env route w t (some o) g) :
    (a.code env (some o)).Keeps (rules route) (Since env route w t) g := by
  refine Prog.Keeps.bind (keeps_run hlinks hothers a hmay) fun outcome g₁ h₁ g₂ h₂ => ?_
  intro o₀ ho₀ o' ho'
  cases outcome with
  | stop e s => cases ho'
  | done z s =>
    cases ho'
    obtain ⟨ops₁, hops₁, hexplained⟩ := h₁
    have hops₂ := hops₁.trans h₂
    obtain ⟨entries, ops, hentries, hops, hall⟩ := h o₀ ho₀ o rfl
    rw [hops.1] at hexplained
    refine ⟨⟨o.object, a, z, s.rescode⟩ :: entries, ops₁ ++ ops, ?_, hops.trans hops₂, ?_⟩
    · rw [List.cons_append, ← hentries]
    · rw [List.map_append]
      exact .cons hexplained hall

theorem clients_discipline (hlinks : LinksFastLz env env behind) (hothers : LosslessOthers env env)
    (w : ClientWorld T) : Discipline (clients env route) (rules route) (fun t g => ⟨t, g⟩)
      (fun g => ∃ log, Extends MapOp.Step log w.shared g) (Since env route w)
      (fun _ o a => ∀ o' ∈ o, a.may o') (fun _ _ _ => True) (fun _ => True) where
  stable t o g g' h henv o₀ ho₀ o' ho' := by
    obtain ⟨entries, ops, hentries, hops, hall⟩ := h o₀ ho₀ o' ho'
    exact ⟨entries, ops, hentries, hops.trans henv, hall⟩
  code t a o g h hmay := by
    cases o with
    | none => exact fun g' _ o₀ _ o' ho' => by cases ho'
    | some o => exact h.call hlinks hothers (hmay o rfl)
  served _ _ _ _ _ _ _ _ hs := ⟨rfl, hs⟩
  others t c r g g' _ _ _ hs u hu := by
    obtain ⟨ops, hacts, -⟩ := hs
    exact ⟨rfl, hacts.others fun h => hu (Option.some.inj h).symm⟩
  kept t c r g g' hinv _ _ hs := by
    obtain ⟨log, hlog⟩ := hinv
    obtain ⟨ops, hacts, -⟩ := hs
    exact ⟨_, hlog.trans hacts⟩
  drifts _ g g' hinv _ hd := by
    obtain ⟨log, hlog⟩ := hinv
    obtain ⟨ops, hacts⟩ := hd
    exact ⟨⟨_, hlog.trans hacts⟩, fun u => ⟨rfl, hacts.others fun h => by cases h⟩⟩

/-- every world is as the discipline asks when it is the first one -/
theorem worldOk_start (w : ClientWorld T) : WorldOk (rules route) (fun t g => ⟨t, g⟩)
    (fun g => ∃ log, Extends MapOp.Step log w.shared g) (Since env route w) w where
  shared := ⟨[], .refl⟩
  idle t o ho o₀ ho₀ o' ho' := by
    rw [ho₀] at ho
    cases ho
    cases ho'
    exact ⟨[], [], rfl, .refl _, .nil⟩
  busy t a p hp := by
    have hany : p.Keeps (rules route) (fun _ _ => True ∧ True) ⟨t, w.shared⟩ :=
      (Prog.sat_true p).keeps (fun _ _ _ _ => trivial)
        (fun _ _ _ _ => ⟨trivial, fun _ _ _ => trivial⟩) trivial
    refine hany.mono fun o g _ o₀ ho₀ => ?_
    rw [hp] at ho₀
    cases ho₀

variable {w w' : ClientWorld T}

end

/-! ## a run -/

/-- one more operation -/
def did {T : Type} (t : T) (op : MapOp Loc Item) (now : Loc → Option Item) (g : Servers T) :
    Servers T := ⟨⟨some t, op⟩ :: g.log, now⟩

/-- a write is made or refused -/
def oneWrite (t : Bool) (mode : Mode) (l : Loc) (item : Item) (g : Servers Bool) :
    Status × Servers Bool :=
  if mode.admits (g.now l) then
    (.success, did t (.write mode l item true) (Function.update g.now l (some item)) g)
  else (.notstored, did t (.write mode l item false) g.now g)

/-- an item is shown, if it is there -/
def oneRead (t : Bool) (l : Loc) (key : Bytes) (g : Servers Bool) :
    (Status × Stream) × Servers Bool :=
  ((.success, (g.now l).elim ⟨[], .notfound⟩ fun item =>
    ⟨[(.success, ⟨key, .bytes item.payload, item.flags, 0⟩)], .end_⟩),
    did t (.read l (g.now l)) g.now g)

/-- a server that stores and shows items; it knows no other requests -/
def oneServer (t : Bool) : Handler Call Ans (Servers Bool)
  | .store memc fn key payload expiration flags, g =>
    match storeMode fn with
    | some mode => oneWrite t mode (memc.loc (fun _ => 0) none key) ⟨payload, flags, expiration⟩ g
    | none => (.failure, g)
  | .mget memc [key], g => oneRead t (memc.loc (fun _ => 0) none key) key g
  | c, g => ((noServers c ()).1, g)

end PhpMemcached.Linearizable
