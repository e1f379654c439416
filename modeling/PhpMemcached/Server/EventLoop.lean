import Mathlib.Data.List.Induction
import Mathlib.Logic.Function.Basic
import PhpMemcached.Lib.Ledger
import PhpMemcached.Lib.Trace
import PhpMemcached.Server.Life
import PhpMemcached.Server.Model

/-!
# The event loop of the server

* `PhpMemcClient`          a client; `LoopMem` the clients in memory and the events they are
                           registered for;
* `LoopCall`, `LoopM`      the requests to libevent, libmemcachedprotocol and the sockets;
* `sHandleMemcachedEvent`, `sAcceptCb`   the two handlers;
* `LoopAction`, `LoopState.after`   the handlers called in any order;
* `CaredFor`               what is claimed of a client;
* `caredFor_iff`           it is so as long as no served client is refused its next event.
-/

namespace PhpMemcached
open Ascii Requests Handles Server

/-! ## clients -/

/-- `php_memc_client_t` -/
structure PhpMemcClient where
  protocolClient : Option Nat
  eventBase : Nat
  onConnectInvoked : Bool

/-- the clients by their addresses, and for each the bases and sockets it is registered with for one
event; `misused` if a client that is not there was read, written or freed -/
structure LoopMem where
  ledger : Ledger
  clients : Handle → PhpMemcClient
  registered : Handle → List (Nat × Int)
  misused : Bool

namespace LoopMem

/-- a client is accessed -/
def touch (client : Handle) (m : LoopMem) : LoopMem :=
  { m with misused := m.misused || !decide (client < m.ledger.next ∧ client ∉ m.ledger.freed) }

/-- `client->.. = ..` -/
def write (client : Handle) (c : PhpMemcClient) (m : LoopMem) : LoopMem :=
  { m.touch client with clients := Function.update m.clients client c }

/-- `ecalloc` -/
def alloc (m : LoopMem) : LoopMem := { m with ledger := m.ledger.make }

/-- `efree` -/
def free (client : Handle) (m : LoopMem) : LoopMem :=
  { m.touch client with ledger := m.ledger.free client }

def register (client : Handle) (base : Nat) (fd : Int) (m : LoopMem) : LoopMem :=
  { m with registered :=
      Function.update m.registered client (m.registered client ++ [(base, fd)]) }

/-- the event a client is registered for comes: it is registered for the others -/
def unregister (client : Handle) (m : LoopMem) : LoopMem :=
  { m with registered := Function.update m.registered client (m.registered client).tail }

end LoopMem

/-! ## requests -/

/-- the bits of `memcached_protocol_event_t` that are looked at -/
structure ProtocolEvents where
  error : Bool
  write : Bool
  read : Bool

/-- `EV_WRITE` and `EV_READ` -/
structure EventFlags where
  write : Bool
  read : Bool
  deriving DecidableEq

inductive LoopCall where
  | accept (fd : Int)
  | createClient (protocolHandle : Nat) (sock : Int)
  | getPeerName (fd : Int)
  | clientWork (pc : Option Nat)
  | eventBaseOnce (base : Nat) (fd : Int) (flags : EventFlags) (client : Handle)
  | clientDestroy (pc : Option Nat)
  | closeSocket (fd : Int)

/-- `strerror(errno)` is part of the answers that may be an error -/
def LoopAns : LoopCall → Type
  | .accept _ => Int × String
  | .createClient .. => Option Nat
  | .getPeerName _ => Except String Bytes
  | .clientWork _ => ProtocolEvents
  | .eventBaseOnce .. => Int32
  | .clientDestroy _ => Unit
  | .closeSocket _ => Unit

abbrev LoopM := Cmd (ServerCall ⊕ LoopCall) (Sum.elim ServerAns LoopAns) Abort LoopMem

abbrev askLoop (c : LoopCall) : LoopM (LoopAns c) :=
  Cmd.req (ρ := Sum.elim ServerAns LoopAns) (Sum.inr c)

/-- `php_error_docref(NULL, E_WARNING, ..)` -/
def loopWarning (text : String) : LoopM Unit := Cmd.inl (askServer (.warning text))

/-- `client->..` -/
def readClient (client : Handle) : LoopM PhpMemcClient := do
  Cmd.modify (·.touch client)
  let m ← Cmd.get
  pure (m.clients client)

/-- `event_base_once`: if it answers 0, the client is registered -/
def eventBaseOnce (base : Nat) (fd : Int) (flags : EventFlags) (client : Handle) : LoopM Int32 := do
  let rc : Int32 ← askLoop (.eventBaseOnce base fd flags client)
  Cmd.when (rc == 0) (Cmd.modify (·.register client base fd))
  pure rc

/-- `php_network_get_peer_name`, with the warning of its caller -/
def networkGetPeerName (fd : Int) : LoopM (Option Bytes) := do
  let r ← askLoop (.getPeerName fd)
  match r with
  | .ok addr => pure (some addr)
  | .error text => do
    loopWarning ("getpeername failed: " ++ text)
    pure none

/-! ## handlers -/

/-- `memcached_protocol_client_destroy`, `efree`, `evutil_closesocket` -/
def destroyClient (fd : Int) (client : Handle) : LoopM Unit := do
  let c ← readClient client
  askLoop (.clientDestroy c.protocolClient)
  Cmd.modify (·.free client)
  askLoop (.closeSocket fd)

/-- the work of a client that is connected, and its registration for the next event -/
def serveClient (fd : Int) (client : Handle) : LoopM Unit := do
  let c ← readClient client
  let events ← askLoop (.clientWork c.protocolClient)
  if events.error then destroyClient fd client
  else do
    let c ← readClient client
    let rc ← eventBaseOnce c.eventBase fd ⟨events.write, events.read⟩ client
    Cmd.when (rc != 0) (loopWarning "Failed to schedule events")

section
variable (env : ServerEnv) (callbacks : Callbacks)

/-- `ON_CONNECT`, if there is a callback: whether the client may go on -/
def invokeOnConnect (fd : Int) : LoopM Bool :=
  if memcHasCb callbacks .connect then do
    let remoteAddr ← networkGetPeerName fd
    Cmd.inl (sOnConnect env callbacks remoteAddr)
  else pure true

/-- the first event of a client -/
def connectClient (fd : Int) (client : Handle) : LoopM Bool := do
  let accepted ← invokeOnConnect env callbacks fd
  if accepted then do
    let c ← readClient client
    Cmd.modify (·.write client { c with onConnectInvoked := true })
    pure true
  else pure false

/-- `s_handle_memcached_event` -/
def sHandleMemcachedEvent (fd : Int) (client : Handle) : LoopM Unit := do
  let c ← readClient client
  if c.onConnectInvoked then serveClient fd client
  else do
    let accepted ← connectClient env callbacks fd client
    if accepted then serveClient fd client else destroyClient fd client

end

/-- `php_memc_proto_handler_t` -/
structure ProtoHandler where
  protocolHandle : Nat
  eventBase : Nat

/-- a new client is registered for its first event -/
def armClient (eventBase : Nat) (sock : Int) (client : Handle) : LoopM Unit := do
  let rc ← eventBaseOnce eventBase sock ⟨false, true⟩ client
  Cmd.when (rc != 0) do
    loopWarning "Failed to add event for client"
    destroyClient sock client

/-- `s_accept_cb` -/
def sAcceptCb (handler : ProtoHandler) (fd : Int) : LoopM Unit := do
  let (sock, text) ← askLoop (.accept fd)
  if sock = -1 then loopWarning ("Failed to accept the client: " ++ text)
  else do
    let m ← Cmd.get
    let client := m.ledger.next
    Cmd.modify LoopMem.alloc
    let pc ← askLoop (.createClient handler.protocolHandle sock)
    Cmd.modify (·.write client ⟨pc, handler.eventBase, false⟩)
    match pc with
    | none => do
      loopWarning "Failed to allocate protocol client"
      Cmd.modify (·.free client)
      askLoop (.closeSocket sock)
    | some _ => armClient handler.eventBase sock client

/-! ## the loop -/

/-- an event of the socket that is listened on, or of the client; `callbacks` is the table as it is
then -/
inductive LoopAction where
  | accept (handler : ProtoHandler) (fd : Int)
  | event (client : Handle) (callbacks : Callbacks)

/-- what an entry shows of the client that is dealt with -/
def lifeEvent (env : ServerEnv) :
    Entry (ServerCall ⊕ LoopCall) (Sum.elim ServerAns LoopAns) → Option (LifeEvent Int (Option Nat))
  | ⟨.inl (.invoke ..), r⟩ =>
    some (.onConnect (responseStatus (callbackResult env r) == responseSuccess))
  | ⟨.inl _, _⟩ => none
  | ⟨.inr (.accept _), (sock, _)⟩ => if sock = -1 then none else some (.accepted sock)
  | ⟨.inr (.createClient ..), pc⟩ => some (.created (Option.map some pc))
  | ⟨.inr (.getPeerName _), _⟩ => none
  | ⟨.inr (.clientWork pc), _⟩ => some (.worked pc)
  | ⟨.inr (.eventBaseOnce ..), rc⟩ =>
    let rc : Int32 := rc
    some (.scheduled (rc == 0))
  | ⟨.inr (.clientDestroy pc), _⟩ => some (.destroyed pc)
  | ⟨.inr (.closeSocket fd), _⟩ => some (.closed fd)

/-- the memory, and what was seen of every client -/
structure LoopState (σ : Type) where
  mem : LoopMem
  history : Handle → List (LifeEvent Int (Option Nat))
  world : σ

section
variable {σ : Type} (env : ServerEnv) (h : Handler (ServerCall ⊕ LoopCall) (Sum.elim ServerAns LoopAns) σ)

/-- the handler that is called, the client it deals with, and the memory it finds. A client that is
not registered has no events. -/
def LoopState.dispatch (g : LoopState σ) : LoopAction → Option (Handle × LoopM Unit × LoopMem)
  | .accept handler fd => some (g.mem.ledger.next, sAcceptCb handler fd, g.mem)
  | .event client callbacks =>
    match g.mem.registered client with
    | [] => none
    | (_, fd) :: _ =>
      some (client, sHandleMemcachedEvent env callbacks fd client, g.mem.unregister client)

/-- what a step shows of its client -/
def LoopState.seen (g : LoopState σ) (a : LoopAction) : List (LifeEvent Int (Option Nat)) :=
  match g.dispatch env a with
  | none => []
  | some (_, m, mem) => (Cmd.log h m mem g.world).filterMap (lifeEvent env)

def LoopState.step (g : LoopState σ) (a : LoopAction) : LoopState σ :=
  match g.dispatch env a with
  | none => g
  | some (client, m, mem) =>
    { mem := (Cmd.exec h m mem g.world).1.state
      history := Function.update g.history client (g.history client ++ g.seen env h a)
      world := (Cmd.exec h m mem g.world).2 }

def LoopMem.empty : LoopMem := ⟨⟨0, []⟩, fun _ => ⟨none, 0, false⟩, fun _ => [], false⟩

def LoopState.after (w : σ) (trace : List LoopAction) : LoopState σ :=
  trace.foldl (LoopState.step env h) ⟨.empty, fun _ => [], w⟩

end

/-! ## what is claimed -/

section
variable {σ : Type} (g : LoopState σ) (client : Handle)

/-- **The client is registered for exactly one further event.** -/
structure Registered : Prop where
  alive : g.mem.ledger.Alive client
  once : ∃ fd, (g.history client).filterMap LifeEvent.accepted? = [fd] ∧
    g.mem.registered client = [((g.mem.clients client).eventBase, fd)]
  undestroyed : (g.history client).filterMap LifeEvent.destroyed? = []
  unclosed : (g.history client).filterMap LifeEvent.closed? = []

/-- **The client has been destroyed exactly once, and its socket is closed.** -/
structure Destroyed : Prop where
  freed : g.mem.ledger.freed.count client = 1
  unregistered : g.mem.registered client = []
  destroyed : (g.history client).filterMap LifeEvent.destroyed? =
    (g.history client).filterMap LifeEvent.created?
  closed : ∃ fd, (g.history client).filterMap LifeEvent.accepted? = [fd] ∧
    (g.history client).filterMap LifeEvent.closed? = [fd]

/-- **Every accepted client is cared for.** -/
structure CaredFor (g : LoopState σ) : Prop where
  unmisused : g.mem.misused = false
  orderly : ∀ client, Orderly (g.history client)
  settled : ∀ client < g.mem.ledger.next, Registered g client ∨ Destroyed g client

end

/-! ## memory -/

section
variable {m m' : LoopMem} {n n' : Handle}

/-- two memories do not differ for a client -/
structure SameFor (n : Handle) (m m' : LoopMem) : Prop where
  alive : m.ledger.Alive n → m'.ledger.Alive n
  freed : n ∈ m.ledger.freed → n ∈ m'.ledger.freed
  unmade : m.ledger.next ≤ n → m'.ledger.next ≤ n
  client : m'.clients n = m.clients n
  registered : m'.registered n = m.registered n

theorem SameFor.refl (n : Handle) (m : LoopMem) : SameFor n m m := ⟨id, id, id, rfl, rfl⟩

theorem SameFor.trans {m'' : LoopMem} (h : SameFor n m m') (h' : SameFor n m' m'') :
    SameFor n m m'' :=
  ⟨h'.alive ∘ h.alive, h'.freed ∘ h.freed, h'.unmade ∘ h.unmade, h'.client.trans h.client,
    h'.registered.trans h.registered⟩

/-- a memory in which nothing has been misused, and clients are freed once -/
structure LoopMem.Sane (m : LoopMem) : Prop where
  unmisused : m.misused = false
  sound : m.ledger.Sound

namespace LoopMem

theorem touch_of_alive (ha : m.ledger.Alive n) : m.touch n = m := by
  unfold touch
  rw [decide_eq_true (⟨ha.made, ha.unfreed⟩ : n < m.ledger.next ∧ n ∉ m.ledger.freed)]
  simp

theorem sameFor_register (hne : n' ≠ n) (base : Nat) (fd : Int) :
    SameFor n' m (m.register n base fd) :=
  ⟨id, id, id, rfl, Function.update_of_ne hne _ _⟩

theorem sameFor_unregister (hne : n' ≠ n) : SameFor n' m (m.unregister n) :=
  ⟨id, id, id, rfl, Function.update_of_ne hne _ _⟩

theorem sameFor_write (hne : n' ≠ n) (c : PhpMemcClient) : SameFor n' m (m.write n c) :=
  ⟨id, id, id, Function.update_of_ne hne _ _, rfl⟩

theorem sameFor_free (hne : n' ≠ n) : SameFor n' m (m.free n) :=
  ⟨fun ha => ha.free hne, fun hf => List.mem_cons_of_mem _ hf, id, rfl, rfl⟩

theorem sameFor_alloc (hne : n' ≠ m.ledger.next) : SameFor n' m m.alloc :=
  ⟨fun ha => ha.make, id, fun hle => Nat.lt_of_le_of_ne hle hne.symm, rfl, rfl⟩

theorem clients_write (c : PhpMemcClient) : (m.write n c).clients n = c :=
  Function.update_self _ _ _

theorem registered_register (hreg : m.registered n = []) {base : Nat} {fd : Int} :
    (m.register n base fd).registered n = [(base, fd)] := by
  refine (Function.update_self _ _ _).trans ?_
  rw [hreg]
  rfl

theorem Sane.alloc (hm : m.Sane) : m.alloc.Sane := ⟨hm.unmisused, hm.sound.make⟩

theorem Sane.free (hm : m.Sane) (ha : m.ledger.Alive n) : (m.free n).Sane := by
  refine ⟨?_, hm.sound.free ha⟩
  show (m.touch n).misused = false
  rw [touch_of_alive ha]
  exact hm.unmisused

theorem Sane.write (hm : m.Sane) (ha : m.ledger.Alive n) (c : PhpMemcClient) : (m.write n c).Sane := by
  refine ⟨?_, hm.sound⟩
  show (m.touch n).misused = false
  rw [touch_of_alive ha]
  exact hm.unmisused

/-- what the memory holds of a client in this phase -/
def Agrees (m : LoopMem) (n : Handle) : Phase Int (Option Nat) → Prop
  | .unborn => m.ledger.next ≤ n ∧ m.registered n = []
  | .waiting fd pc connected => m.ledger.Alive n ∧ (m.clients n).protocolClient = pc ∧
      (m.clients n).onConnectInvoked = connected ∧
      m.registered n = [((m.clients n).eventBase, fd)]
  | .lost _ _ => m.ledger.Alive n ∧ m.registered n = []
  | .gone => n ∈ m.ledger.freed ∧ m.registered n = []
  | _ => False

theorem Agrees.congr {p : Phase Int (Option Nat)} (hp : m.Agrees n p) (hsame : SameFor n m m') :
    m'.Agrees n p := by
  cases p with
  | unborn => exact ⟨hsame.unmade hp.1, hsame.registered.trans hp.2⟩
  | waiting fd pc connected =>
    obtain ⟨ha, hpc, hconn, hreg⟩ := hp
    refine ⟨hsame.alive ha, ?_, ?_, ?_⟩
    · rw [hsame.client]
      exact hpc
    · rw [hsame.client]
      exact hconn
    · rw [hsame.client, hsame.registered]
      exact hreg
  | lost fd pc => exact ⟨hsame.alive hp.1, hsame.registered.trans hp.2⟩
  | gone => exact ⟨hsame.freed hp.1, hsame.registered.trans hp.2⟩
  | _ => exact hp

end LoopMem

end

/-! ## what a handler does -/

section
variable (env : ServerEnv) {n : Handle} {m m' : LoopMem} {p q : Phase Int (Option Nat)}

/-- a handler that has been called in the memory `m` and the phase `p` has ended, the client is in a
phase that `R` allows, and nothing is changed for the others -/
def DealtWith (R : Phase Int (Option Nat) → Prop) (n : Handle) (p : Phase Int (Option Nat))
    (m : LoopMem) (l : List (LifeEvent Int (Option Nat))) (o : Outcome Abort LoopMem Unit) : Prop :=
  ∃ m' q, o = .done () m' ∧ p.Leads l q ∧ R q ∧ m'.Agrees n q ∧ m'.Sane ∧
    ∀ n' ≠ n, SameFor n' m m'

abbrev Deals (R : Phase Int (Option Nat) → Prop) (n : Handle) (p : Phase Int (Option Nat))
    (m : LoopMem) (cmd : LoopM Unit) : Prop :=
  Cmd.Traced (lifeEvent env) (DealtWith R n p m) cmd m

variable {env} {R R' : Phase Int (Option Nat) → Prop} {l : List (LifeEvent Int (Option Nat))}

/-- a handler that goes on after `l` -/
theorem Deals.after {cmd : LoopM Unit} (h : Deals env R n q m' cmd) (hl : p.Leads l q)
    (hR : ∀ r, R r → R' r) (hothers : ∀ n' ≠ n, SameFor n' m m') :
    Cmd.Traced (lifeEvent env) (fun l' => DealtWith R' n p m (l ++ l')) cmd m' := by
  refine h.mono fun l' o hdealt => ?_
  obtain ⟨m'', r, ho, hl', hr, hagrees, hsane, hsame⟩ := hdealt
  exact ⟨m'', r, ho, hl.append hl', hR r hr, hagrees, hsane,
    fun n' hne => (hothers n' hne).trans (hsame n' hne)⟩

theorem traced_readClient_bind {α : Type}
    {Q : List (LifeEvent Int (Option Nat)) → Outcome Abort LoopMem α → Prop}
    (ha : m.ledger.Alive n) (f : PhpMemcClient → LoopM α) :
    Cmd.Traced (lifeEvent env) Q (readClient n >>= f) m ↔
      Cmd.Traced (lifeEvent env) Q (f (m.clients n)) m := by
  show Cmd.Traced (lifeEvent env) Q (f ((m.touch n).clients n)) (m.touch n) ↔ _
  rw [LoopMem.touch_of_alive ha]

theorem traced_eventBaseOnce_bind {α : Type}
    {Q : List (LifeEvent Int (Option Nat)) → Outcome Abort LoopMem α → Prop} {base : Nat} {fd : Int}
    {flags : EventFlags} {f : Int32 → LoopM α}
    (hdone : ∀ rc : Int32, (rc == 0) = true →
      Cmd.Traced (lifeEvent env) (fun l => Q (.scheduled true :: l)) (f rc) (m.register n base fd))
    (hfail : ∀ rc : Int32, (rc == 0) = false →
      Cmd.Traced (lifeEvent env) (fun l => Q (.scheduled false :: l)) (f rc) m) :
    Cmd.Traced (lifeEvent env) Q (eventBaseOnce base fd flags n >>= f) m := by
  intro (rc : Int32)
  show Cmd.Traced (lifeEvent env) (fun l => Q (.scheduled (rc == 0) :: l))
    ((Cmd.when (rc == 0) (Cmd.modify (·.register n base fd)) >>= fun _ => pure rc) >>= f) m
  cases hrc : rc == 0 with
  | true => exact hdone rc hrc
  | false => exact hfail rc hrc

/-- a client that is destroyed is gone -/
theorem deals_destroyClient {fd : Int} {pc : Option Nat} (hm : m.Sane) (ha : m.ledger.Alive n)
    (hreg : m.registered n = []) (hpc : (m.clients n).protocolClient = pc)
    (hp : p.Next (.destroyed pc) (.closing fd)) :
    Deals env (fun q => q = .gone) n p m (destroyClient fd n) := by
  refine (traced_readClient_bind ha _).mpr ?_
  rw [hpc]
  refine fun _ _ => ⟨m.free n, .gone, rfl, .cons hp (.cons (.close fd) .nil), rfl, ?_, hm.free ha, ?_⟩
  · exact ⟨List.mem_cons_self, hreg⟩
  · exact fun n' hne => LoopMem.sameFor_free hne

/-- a client that is served is registered again, destroyed or lost -/
theorem deals_serveClient {fd : Int} {pc : Option Nat} (hm : m.Sane) (ha : m.ledger.Alive n)
    (hreg : m.registered n = []) (hpc : (m.clients n).protocolClient = pc)
    (hconn : (m.clients n).onConnectInvoked = true) (hp : p.Next (.worked pc) (.served fd pc)) :
    Deals env (fun _ => True) n p m (serveClient fd n) := by
  refine (traced_readClient_bind ha _).mpr ?_
  rw [hpc]
  intro (events : ProtocolEvents)
  have hserved : p.Leads [.worked pc] (.served fd pc) := .cons hp .nil
  show Cmd.Traced (lifeEvent env) (fun l => DealtWith _ n p m ([.worked pc] ++ l)) (ite _ _ _) m
  split
  · exact (deals_destroyClient hm ha hreg hpc (.fail fd pc)).after hserved (fun _ _ => trivial)
      fun n' _ => .refl n' m
  · refine Deals.after ?_ hserved (fun _ h => h) fun n' _ => .refl n' m
    refine (traced_readClient_bind ha _).mpr (traced_eventBaseOnce_bind ?_ ?_)
    · intro rc hrc
      rw [bne, hrc]
      refine ⟨_, .waiting fd pc true, rfl, .cons (.rearm fd pc) .nil, trivial, ?_, ⟨hm.unmisused, hm.sound⟩,
        fun n' hne => LoopMem.sameFor_register hne _ _⟩
      exact ⟨ha, hpc, hconn, LoopMem.registered_register hreg⟩
    · intro rc hrc
      rw [bne, hrc]
      exact fun _ => ⟨m, .lost fd pc, rfl, .cons (.lose fd pc) .nil, trivial, ⟨ha, hreg⟩, hm,
        fun n' _ => .refl n' m⟩

theorem traced_networkGetPeerName (fd : Int) (m : LoopMem) :
    Cmd.Traced (lifeEvent env) (fun l o => ∃ addr, o = .done addr m ∧ l = [])
      (networkGetPeerName fd) m := by
  intro (r : Except String Bytes)
  cases r with
  | ok addr => exact ⟨some addr, rfl, rfl⟩
  | error text => exact fun _ => ⟨none, rfl, rfl⟩

theorem traced_sOnConnect {callbacks : Callbacks} (hcb : memcHasCb callbacks .connect = true)
    (remoteAddr : Option Bytes) (m : LoopMem) :
    Cmd.Traced (lifeEvent env) (fun l o => ∃ ok, o = .done ok m ∧ l = [.onConnect ok])
      (Cmd.inl (sOnConnect env callbacks remoteAddr)) m := by
  refine Cmd.Traced.inl ?_
  unfold sOnConnect
  rw [withCallback_pos hcb]
  intro (r : InvokeAns)
  show Prog.Traced _ _ ((((Cmd.when (!r.ran) (askServer (.warning _)) >>= fun _ =>
    pure (callbackResult env r, argumentsAfter r (connectParams remoteAddr))) >>= fun r' =>
      pure (responseStatus r'.1 == responseSuccess)) : ServerM LoopMem Bool) m)
  cases hran : r.ran with
  | true => exact ⟨_, rfl, rfl⟩
  | false => exact fun _ => ⟨_, rfl, rfl⟩

/-- the first event of a client: it may go on, or is doomed -/
theorem traced_connectClient {callbacks : Callbacks} (fd : Int) (pc : Option Nat)
    (ha : m.ledger.Alive n) :
    Cmd.Traced (lifeEvent env) (fun l o =>
      (o = .done true (m.write n { m.clients n with onConnectInvoked := true }) ∧
        ∃ q, (Phase.waiting fd pc false).Leads l q ∧ q.Next (.worked pc) (.served fd pc)) ∨
      (o = .done false m ∧ (Phase.waiting fd pc false).Leads l (.doomed fd pc)))
      (connectClient env callbacks fd n) m := by
  refine Cmd.Traced.bind ?_
  unfold invokeOnConnect
  cases hcb : memcHasCb callbacks .connect with
  | false =>
    rw [if_neg nofun]
    refine ⟨true, m, rfl, ?_⟩
    refine (traced_readClient_bind ha _).mpr ?_
    exact Or.inl ⟨rfl, _, .nil, .work fd pc false⟩
  | true =>
    rw [if_pos rfl]
    refine Cmd.Traced.bind ((traced_networkGetPeerName fd m).mono ?_)
    rintro _ _ ⟨addr, rfl, rfl⟩
    refine ⟨addr, m, rfl, (traced_sOnConnect hcb addr m).mono ?_⟩
    rintro _ _ ⟨ok, rfl, rfl⟩
    refine ⟨ok, m, rfl, ?_⟩
    cases ok with
    | true =>
      refine (traced_readClient_bind ha _).mpr ?_
      exact Or.inl ⟨rfl, _, .cons (.permit fd pc) .nil, .workAdmitted fd pc⟩
    | false => exact .inr ⟨rfl, .cons (.reject fd pc) .nil⟩

/-- **What the handler of an event does with a client that waits for it.** -/
theorem deals_sHandleMemcachedEvent {callbacks : Callbacks} {fd : Int} {pc : Option Nat}
    {connected : Bool} (hm : m.Sane) (ha : m.ledger.Alive n) (hreg : m.registered n = [])
    (hpc : (m.clients n).protocolClient = pc)
    (hconn : (m.clients n).onConnectInvoked = connected) :
    Deals env (fun _ => True) n (.waiting fd pc connected) m
      (sHandleMemcachedEvent env callbacks fd n) := by
  refine (traced_readClient_bind ha _).mpr ?_
  cases connected with
  | true =>
    rw [if_pos hconn]
    exact deals_serveClient hm ha hreg hpc hconn (.work fd pc true)
  | false =>
    rw [if_neg (Bool.eq_false_iff.mp hconn)]
    refine Cmd.Traced.bind ((traced_connectClient fd pc ha).mono ?_)
    rintro l _ (⟨rfl, q, hl, hq⟩ | ⟨rfl, hl⟩)
    · refine ⟨true, _, rfl, Deals.after ?_ hl (fun _ h => h) fun n' hne =>
        LoopMem.sameFor_write hne _⟩
      refine deals_serveClient (hm.write ha _) ha hreg ?_ ?_ hq
      · rw [LoopMem.clients_write]
        exact hpc
      · rw [LoopMem.clients_write]
    · exact ⟨false, m, rfl, (deals_destroyClient hm ha hreg hpc (.destroy fd pc)).after hl
        (fun _ _ => trivial) fun n' _ => .refl n' m⟩

/-- a new client is registered, or destroyed -/
theorem deals_armClient {eventBase : Nat} {sock : Int} {pc : Option Nat} (hm : m.Sane)
    (ha : m.ledger.Alive n) (hreg : m.registered n = [])
    (hclient : m.clients n = ⟨pc, eventBase, false⟩) :
    Deals env (fun q => q.isLost = false) n (.ready sock pc) m (armClient eventBase sock n) := by
  have hpc : (m.clients n).protocolClient = pc := by rw [hclient]
  refine traced_eventBaseOnce_bind ?_ ?_
  · intro rc hrc
    rw [bne, hrc]
    refine ⟨_, .waiting sock pc false, rfl, .cons (.arm sock pc) .nil, rfl, ⟨ha, hpc, ?_, ?_⟩,
      ⟨hm.unmisused, hm.sound⟩, fun n' hne => LoopMem.sameFor_register hne _ _⟩
    · exact congrArg PhpMemcClient.onConnectInvoked hclient
    · refine (LoopMem.registered_register hreg).trans ?_
      exact congrArg (fun c : PhpMemcClient => [(c.eventBase, sock)]) hclient.symm
  · intro rc hrc
    rw [bne, hrc]
    have hdoomed : (Phase.ready sock pc).Leads [.scheduled false] (.doomed sock pc) :=
      .cons (.armNot sock pc) .nil
    exact fun _ => (deals_destroyClient hm ha hreg hpc (.destroy sock pc)).after hdoomed
      (fun q hq => hq ▸ rfl) fun n' _ => .refl n' m

/-- **What the handler of the listening socket does.** -/
theorem deals_sAcceptCb (handler : ProtoHandler) (fd : Int) (hm : m.Sane)
    (hreg : m.registered m.ledger.next = []) :
    Deals env (fun q => q.isLost = false) m.ledger.next .unborn m (sAcceptCb handler fd) := by
  have ha : m.alloc.ledger.Alive m.ledger.next := hm.sound.alive_next
  intro ((sock, text) : Int × String)
  show Cmd.Traced (lifeEvent env) (fun l => DealtWith _ _ _ m
    ((if sock = -1 then none else some (LifeEvent.accepted sock)).toList ++ l)) (ite _ _ _) m
  split
  · exact fun _ => ⟨m, .unborn, rfl, .nil, rfl, ⟨Nat.le_refl _, hreg⟩, hm, fun n' _ => .refl n' m⟩
  · intro (pc : Option Nat)
    have hm₁ : (m.alloc.write m.ledger.next ⟨pc, handler.eventBase, false⟩).Sane :=
      hm.alloc.write ha _
    have hothers : ∀ n' ≠ m.ledger.next,
        SameFor n' m (m.alloc.write m.ledger.next ⟨pc, handler.eventBase, false⟩) := fun n' hne =>
      (LoopMem.sameFor_alloc hne).trans (LoopMem.sameFor_write hne _)
    cases pc with
    | none =>
      refine fun _ _ => ⟨(m.alloc.write m.ledger.next ⟨none, handler.eventBase, false⟩).free
        m.ledger.next, .gone, rfl, .cons (.accept sock) (.cons (.createNot sock)
          (.cons (.close sock) .nil)), rfl, ⟨List.mem_cons_self, hreg⟩, hm₁.free ha, ?_⟩
      exact fun n' hne => (hothers n' hne).trans (LoopMem.sameFor_free hne)
    | some pc =>
      have hready : Phase.unborn.Leads [.accepted sock, .created (some (some pc))]
          (.ready sock (some pc)) := .cons (.accept sock) (.cons (.create sock (some pc)) .nil)
      exact (deals_armClient hm₁ ha hreg (LoopMem.clients_write _)).after hready (fun _ h => h)
        hothers

end

/-! ## what a step does -/

section
variable {σ : Type} (env : ServerEnv)
  (h : Handler (ServerCall ⊕ LoopCall) (Sum.elim ServerAns LoopAns) σ)

/-- a client that has been served is refused its next event -/
def LoopState.Refuses (g : LoopState σ) : LoopAction → Prop
  | .accept .. => False
  | .event client callbacks => .scheduled false ∈ g.seen env h (.event client callbacks)

/-- every client is in a phase of its life, and the memory agrees -/
structure LoopState.Inv (g : LoopState σ) : Prop where
  sane : g.mem.Sane
  phase : ∀ n, ∃ p, Lived (g.history n) p ∧ g.mem.Agrees n p

variable {env} {h} {g : LoopState σ} {n : Handle} {m : LoopMem} {p : Phase Int (Option Nat)}

/-- a client that has not been made yet -/
theorem agrees_next (hsane : m.Sane) (hp : m.Agrees m.ledger.next p) :
    p = .unborn ∧ m.registered m.ledger.next = [] := by
  have hdead : ¬ m.ledger.Alive m.ledger.next := fun ha => Nat.lt_irrefl _ ha.made
  cases p with
  | unborn => exact ⟨rfl, hp.2⟩
  | waiting => exact absurd hp.1 hdead
  | lost => exact absurd hp.1 hdead
  | gone => exact absurd (hsane.sound.made _ hp.1) (Nat.lt_irrefl _)
  | _ => exact hp.elim

/-- a client that is registered -/
theorem agrees_registered (hp : m.Agrees n p) {base : Nat} {fd : Int} {rest : List (Nat × Int)}
    (hreg : m.registered n = (base, fd) :: rest) :
    rest = [] ∧ m.ledger.Alive n ∧ ∃ pc connected, p = .waiting fd pc connected ∧
      (m.clients n).protocolClient = pc ∧ (m.clients n).onConnectInvoked = connected := by
  cases p with
  | waiting fd' pc connected =>
    obtain ⟨ha, hpc, hconn, hone⟩ := hp
    cases hreg.symm.trans hone
    exact ⟨rfl, ha, pc, connected, rfl, hpc, hconn⟩
  | unborn => cases hreg.symm.trans hp.2
  | lost => cases hreg.symm.trans hp.2
  | gone => cases hreg.symm.trans hp.2
  | _ => exact hp.elim

/-- a handler that is called deals with its client -/
theorem step_of_deals {R : Phase Int (Option Nat) → Prop} {a : LoopAction} {cmd : LoopM Unit}
    (hcall : g.dispatch env a = some (n, cmd, m)) (hlived : Lived (g.history n) p)
    (hothers : ∀ n' ≠ n, SameFor n' g.mem m) (hdeals : Deals env R n p m cmd) :
    ∃ q, p.Leads (g.seen env h a) q ∧ R q ∧ Lived ((g.step env h a).history n) q ∧
      (g.step env h a).mem.Agrees n q ∧ (g.step env h a).mem.Sane ∧
      ∀ n' ≠ n, SameFor n' g.mem (g.step env h a).mem ∧
        (g.step env h a).history n' = g.history n' := by
  obtain ⟨m', q, ho, hl, hR, hagrees, hsane, hsame⟩ := hdeals.run h g.world
  have hseen : g.seen env h a = (Cmd.log h cmd m g.world).filterMap (lifeEvent env) := by
    unfold LoopState.seen
    rw [hcall]
  have hstep : g.step env h a = ⟨m', Function.update g.history n (g.history n ++ g.seen env h a),
      (Cmd.exec h cmd m g.world).2⟩ := by
    unfold LoopState.step
    rw [hcall]
    dsimp only
    rw [ho]
    rfl
  rw [← hseen] at hl
  rw [hstep]
  refine ⟨q, hl, hR, ?_, hagrees, hsane, fun n' hne => ⟨(hothers n' hne).trans (hsame n' hne), ?_⟩⟩
  · dsimp only
    rw [Function.update_self]
    exact hlived.append hl
  · exact Function.update_of_ne hne _ _

variable (env h) in
/-- **A step leaves everything as it is, or takes one client on in its life; that client is lost if
it is refused its next event.** -/
theorem step_spec (hg : g.Inv) (a : LoopAction) :
    (g.step env h a = g ∧ ¬ g.Refuses env h a) ∨
      ∃ n q, (q.isLost = true ↔ g.Refuses env h a) ∧ Lived ((g.step env h a).history n) q ∧
        (g.step env h a).mem.Agrees n q ∧ (g.step env h a).mem.Sane ∧
        ∀ n' ≠ n, SameFor n' g.mem (g.step env h a).mem ∧
          (g.step env h a).history n' = g.history n' := by
  cases a with
  | accept handler fd =>
    obtain ⟨p, hlived, hagrees⟩ := hg.phase g.mem.ledger.next
    obtain ⟨rfl, hreg⟩ := agrees_next hg.sane hagrees
    obtain ⟨q, -, hlost, hstep⟩ := step_of_deals (h := h) (a := .accept handler fd) rfl hlived
      (fun n' _ => .refl n' _) (deals_sAcceptCb handler fd hg.sane hreg)
    exact .inr ⟨_, q, iff_of_false (Bool.eq_false_iff.mp hlost) id, hstep⟩
  | event client callbacks =>
    obtain ⟨p, hlived, hagrees⟩ := hg.phase client
    cases hreg : g.mem.registered client with
    | nil =>
      have hcall : g.dispatch env (.event client callbacks) = none := by
        unfold LoopState.dispatch
        dsimp only
        rw [hreg]
      refine .inl ⟨?_, ?_⟩
      · unfold LoopState.step
        rw [hcall]
      · unfold LoopState.Refuses LoopState.seen
        dsimp only
        rw [hcall]
        exact List.not_mem_nil
    | cons e rest =>
      obtain ⟨base, fd⟩ := e
      obtain ⟨rfl, ha, pc, connected, rfl, hpc, hconn⟩ := agrees_registered hagrees hreg
      have hcall : g.dispatch env (.event client callbacks) =
          some (client, sHandleMemcachedEvent env callbacks fd client, g.mem.unregister client) := by
        unfold LoopState.dispatch
        dsimp only
        rw [hreg]
      have hnone : (g.mem.unregister client).registered client = [] := by
        refine (Function.update_self _ _ _).trans ?_
        rw [hreg]
        rfl
      obtain ⟨q, hleads, -, hstep⟩ := step_of_deals (h := h) hcall hlived
        (fun n' hne => LoopMem.sameFor_unregister hne)
        (deals_sHandleMemcachedEvent ⟨hg.sane.unmisused, hg.sane.sound⟩ ha hnone hpc hconn)
      exact .inr ⟨client, q, hleads.isLost_iff rfl rfl, hstep⟩

/-! ## runs -/

theorem Inv.step (hg : g.Inv) (a : LoopAction) : (g.step env h a).Inv := by
  rcases step_spec env h hg a with ⟨heq, -⟩ | ⟨n, q, -, hq, hagrees, hsane, hothers⟩
  · rw [heq]
    exact hg
  · refine ⟨hsane, fun n' => ?_⟩
    by_cases hn : n' = n
    · exact hn ▸ ⟨q, hq, hagrees⟩
    · obtain ⟨p, hp, hpagrees⟩ := hg.phase n'
      obtain ⟨hsame, hhistory⟩ := hothers n' hn
      exact ⟨p, hhistory ▸ hp, hpagrees.congr hsame⟩

/-- no client is lost -/
def LoopState.Lossless (g : LoopState σ) : Prop :=
  ∀ n, ∃ p, Lived (g.history n) p ∧ g.mem.Agrees n p ∧ p.isLost = false

/-- nobody is lost in a step that refuses nobody its next event -/
theorem Lossless.step (hg : g.Inv) (hnone : g.Lossless) {a : LoopAction}
    (ha : ¬ g.Refuses env h a) : (g.step env h a).Lossless := by
  rcases step_spec env h hg a with ⟨heq, -⟩ | ⟨n, q, hlost, hq, hagrees, -, hothers⟩
  · rw [heq]
    exact hnone
  · intro n'
    by_cases hn : n' = n
    · exact hn ▸ ⟨q, hq, hagrees, Bool.eq_false_iff.mpr fun h => ha (hlost.mp h)⟩
    · obtain ⟨p, hp, hpagrees, hplost⟩ := hnone n'
      obtain ⟨hsame, hhistory⟩ := hothers n' hn
      exact ⟨p, hhistory ▸ hp, hpagrees.congr hsame, hplost⟩

/-- a client that is not lost is registered or has been destroyed -/
theorem CaredFor.of_lossless (hg : g.Inv) (hnone : g.Lossless) : CaredFor g := by
  refine ⟨hg.sane.unmisused, fun n => ?_, fun n hn => ?_⟩
  · obtain ⟨p, hp, -⟩ := hnone n
    exact hp.orderly
  · obtain ⟨p, hp, hagrees, hlost⟩ := hnone n
    rcases hp.accepted with ⟨rfl, -⟩ | ⟨hborn, fd, hfd⟩
    · exact absurd hn (Nat.not_lt.mpr hagrees.1)
    · have hsocket := hp.sockets.trans hfd
      cases p with
      | unborn => exact absurd rfl hborn
      | waiting fd' pc connected =>
        obtain ⟨ha, -, -, hreg⟩ := hagrees
        rcases List.append_eq_singleton_iff.mp hsocket with ⟨hclosed, heq⟩ | ⟨-, hnil⟩
        · cases heq
          exact .inl ⟨ha, ⟨fd, hfd, hreg⟩, hp.undestroyed (by cases connected <;> rfl), hclosed⟩
        · cases hnil
      | gone =>
        have hclosed := (List.append_nil _).symm.trans hsocket
        have hdestroyed := (List.append_nil _).symm.trans hp.clients
        exact .inr ⟨List.count_eq_one_of_mem hg.sane.sound.nodup hagrees.1, hagrees.2, hdestroyed,
          fd, hfd, hclosed⟩
      | lost => cases hlost
      | _ => exact hagrees.elim

/-- a client that is lost is neither -/
theorem not_caredFor_of_isLost {q : Phase Int (Option Nat)} (hagrees : g.mem.Agrees n q)
    (hlost : q.isLost = true) : ¬ CaredFor g := by
  intro hcared
  cases q with
  | lost fd pc =>
    obtain ⟨ha, hreg⟩ := hagrees
    rcases hcared.settled n ha.made with hregistered | hdestroyed
    · obtain ⟨fd, -, hone⟩ := hregistered.once
      cases hreg.symm.trans hone
    · have hcount := hdestroyed.freed
      rw [List.count_eq_zero_of_not_mem ha.unfreed] at hcount
      cases hcount
  | _ => cases hlost

variable (env h)

theorem loop_after_snoc (w : σ) (l : List LoopAction) (a : LoopAction) :
    LoopState.after env h w (l ++ [a]) = (LoopState.after env h w l).step env h a :=
  List.foldl_append

theorem inv_loop_after (w : σ) (l : List LoopAction) : (LoopState.after env h w l).Inv := by
  induction l using List.reverseRecOn with
  | nil =>
    refine ⟨⟨rfl, ⟨fun n hn => ?_, List.nodup_nil⟩⟩, fun n => ⟨.unborn, .nil, Nat.zero_le n, rfl⟩⟩
    cases hn
  | append_singleton l a ih =>
    rw [loop_after_snoc]
    exact Inv.step ih a

/-- **Every client is cared for, always, if and only if no client that has been served is refused
its next event.** -/
theorem caredFor_iff (w : σ) (trace : List LoopAction) :
    (∀ l₁ l₂, trace = l₁ ++ l₂ → CaredFor (LoopState.after env h w l₁)) ↔
      ∀ l₁ a l₂, trace = l₁ ++ a :: l₂ → ¬ (LoopState.after env h w l₁).Refuses env h a := by
  constructor
  · rintro hcared l₁ a l₂ rfl hrefuses
    have hstep := hcared (l₁ ++ [a]) l₂ (List.append_cons l₁ a l₂)
    rw [loop_after_snoc] at hstep
    rcases step_spec env h (inv_loop_after env h w l₁) a with
      ⟨-, hnot⟩ | ⟨n, q, hlost, -, hagrees, -⟩
    · exact hnot hrefuses
    · exact not_caredFor_of_isLost hagrees (hlost.mpr hrefuses) hstep
  · rintro hnone l₁ l₂ rfl
    refine CaredFor.of_lossless (inv_loop_after env h w l₁) ?_
    induction l₁ using List.reverseRecOn generalizing l₂ with
    | nil => exact fun n => ⟨.unborn, .nil, ⟨Nat.zero_le n, rfl⟩, rfl⟩
    | append_singleton l a ih =>
      rw [loop_after_snoc]
      refine Lossless.step (inv_loop_after env h w l) (ih (a :: l₂) fun l₁ a' l₂' heq => ?_) ?_
      · exact hnone l₁ a' l₂' ((List.append_cons l a l₂).symm.trans heq)
      · exact hnone l a l₂ (List.append_cons l a l₂).symm

end

/-- libevent registers one event; the client wants to read more -/
def oneEvent : Handler (ServerCall ⊕ LoopCall) (Sum.elim ServerAns LoopAns) Bool
  | .inl c, w => ((noCallbacks c ()).1, w)
  | .inr (.accept _), w => ((7, ""), w)
  | .inr (.createClient ..), w => (some 1, w)
  | .inr (.getPeerName _), w => (.error "", w)
  | .inr (.clientWork _), w => (⟨false, false, true⟩, w)
  | .inr (.eventBaseOnce ..), true => ((0 : Int32), false)
  | .inr (.eventBaseOnce ..), false => ((-1 : Int32), false)
  | .inr (.clientDestroy _), w => ((), w)
  | .inr (.closeSocket _), w => ((), w)

/-- a client is accepted, and served once -/
def servedOnce : List LoopAction :=
  [.accept ⟨1, 1⟩ 3, .event 0 fun _ => ⟨0, .null, none, 0⟩]

/-- the failing case: the second registration fails -/
theorem client_left_alone :
    ¬ ∀ (σ : Type) (env : ServerEnv)
      (h : Handler (ServerCall ⊕ LoopCall) (Sum.elim ServerAns LoopAns) σ) (w : σ)
      (trace : List LoopAction), CaredFor (LoopState.after env h w trace) := by
  intro hclaim
  rcases (hclaim Bool plainServer oneEvent true servedOnce).settled 0 Nat.one_pos with hreg | hdes
  · obtain ⟨fd, -, hone⟩ := hreg.once
    cases hone
  · cases hdes.freed

end PhpMemcached
