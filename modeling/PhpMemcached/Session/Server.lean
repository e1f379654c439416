import PhpMemcached.Session.Model
import PhpMemcached.Lib.Rely

/-!
# The memcached server and its session clients

* `Server`      the items that are there, the clock, and a log of what was done to the items;
* `exec`        what the server does with a request;
* `Fate`        how a request fares: served, refused, or served with its answer lost;
* `answer`      the answer and what becomes of the server;
* `Drift`       what happens by itself: the clock goes on, an item expires or is evicted;
* `Client`      a PHP process with what its callbacks have returned so far;
* `sessions`    any number of clients on one server.

A lock item remembers the client whose `add` made it, and the log tells who did what; only statements
about the system look at that.
-/

namespace PhpMemcached.Session
open Ascii Requests

structure Item (T : Type) where
  value : Bytes
  /-- none: never -/
  expires : Option Nat
  /-- the client that made it as a lock, with an `add` of `lockValue` -/
  lockedBy : Option T

/-- what was done to the items -/
inductive Event (T : Type) where
  /-- an `add` made the item -/
  | made (t : T) (key value : Bytes)
  /-- the item was deleted by a function of a client, or left by itself -/
  | gone (by_ : Option (T × DeleteBy)) (key : Bytes) (lockedBy : Option T)
  | read (t : T) (key : Bytes) (value : Option Bytes)
  | wrote (t : T) (key value : Bytes)

structure Server (T : Type) where
  /-- the items that are neither expired nor evicted -/
  items : Bytes → Option (Item T)
  clock : Nat
  /-- the last event is the first -/
  log : List (Event T)

/-- memcached's rule for the expiration it is sent, of 32 bits: never, relative, or absolute -/
def expiry (clock : Nat) (expiration : Int64) : Option Nat :=
  let n := expiration.toUInt64.toUInt32.toNat
  if n = 0 then none else if n ≤ 60 * 60 * 24 * 30 then some (clock + n) else some n

namespace Server
variable {T : Type}

def put (s : Server T) (key : Bytes) (item : Option (Item T)) : Server T :=
  { s with items := Function.update s.items key item }

def record (s : Server T) (e : Event T) : Server T := { s with log := e :: s.log }

def addItem (t : T) (key value : Bytes) (expiration : Int64) (s : Server T) : Server T :=
  match s.items key with
  | none => (s.put key (some ⟨value, expiry s.clock expiration,
      if value = lockValue then some t else none⟩)).record (.made t key value)
  | some _ => s

/-- an item that is replaced remains the lock it was -/
def setItem (t : T) (key value : Bytes) (expiration : Int64) (s : Server T) : Server T :=
  (s.put key (some ⟨value, expiry s.clock expiration, (s.items key).bind Item.lockedBy⟩)).record
    (.wrote t key value)

def removeItem (by_ : Option (T × DeleteBy)) (key : Bytes) (s : Server T) : Server T :=
  match s.items key with
  | some item => (s.put key none).record (.gone by_ key item.lockedBy)
  | none => s

def touchItem (key : Bytes) (expiration : Int64) (s : Server T) : Server T :=
  match s.items key with
  | some item => s.put key (some { item with expires := expiry s.clock expiration })
  | none => s

/-- what is done with the request of `t` -/
def exec (t : T) : Call → Server T → Server T
  | .add key value expiration, s => s.addItem t key value expiration
  | .get key, s => s.record (.read t key ((s.items key).map Item.value))
  | .set key value expiration, s => s.setItem t key value expiration
  | .delete by_ key, s => s.removeItem (some (t, by_)) key
  | .touch key expiration, s => s.touchItem key expiration
  | _, s => s

end Server

/-- a status other than those by which a server says what it did -/
structure Fault where
  rc : Status
  ne_success : rc ≠ .success
  ne_notfound : rc ≠ .notfound

inductive Mode where
  | served
  | refused (fault : Fault)
  /-- the request is served, the answer is not received -/
  | lost (fault : Fault)

/-- how a request fares, and what else its answer depends on -/
structure Fate where
  mode : Mode
  /-- the answer to an `add` of an item that is there -/
  dataExists : Bool
  /-- the answers that are not the server's -/
  any : (c : Call) → Ans c

/-- the requests that are about items -/
def Call.isItem : Call → Bool
  | .add .. | .get _ | .set .. | .delete .. | .touch .. | .exist _ => true
  | _ => false

namespace Server
variable {T : Type}

/-- an item is there or not -/
def found (s : Server T) (key : Bytes) : Status :=
  match s.items key with
  | some _ => .success
  | none => .notfound

def addReply (s : Server T) (f : Fate) (key : Bytes) : Status :=
  match s.items key with
  | none => .success
  | some _ => if f.dataExists then .dataExists else .notstored

def getReply (s : Server T) (key : Bytes) : Status × Bytes :=
  match s.items key with
  | some item => (.success, item.value)
  | none => (.notfound, [])

/-- the answer to a request that is served -/
def reply (s : Server T) (f : Fate) : (c : Call) → Ans c
  | .add key _ _ => s.addReply f key
  | .get key => s.getReply key
  | .set .. => Status.success
  | .delete _ key | .touch key _ | .exist key => s.found key
  | .time => Int64.ofNat s.clock
  | c => f.any c

/-- the answer to a request about items that fails -/
def failing (s : Server T) (f : Fate) (fault : Fault) : (c : Call) → Ans c
  | .add .. | .set .. | .delete .. | .touch .. | .exist _ => fault.rc
  | .get _ => (fault.rc, [])
  | c => s.reply f c

def answer (t : T) (f : Fate) (c : Call) (s : Server T) : Ans c × Server T :=
  match f.mode with
  | .served => (s.reply f c, s.exec t c)
  | .refused fault => (s.failing f fault c, s)
  | .lost fault => (s.failing f fault c, s.exec t c)

/-- a request of `t` is served, or fails -/
def Serve (t : T) (c : Call) (r : Ans c) (s s' : Server T) : Prop := ∃ f, s.answer t f c = (r, s')

/-- a request of `t` is served -/
def Reliable (t : T) (c : Call) (r : Ans c) (s s' : Server T) : Prop :=
  ∃ f, f.mode = .served ∧ s.answer t f c = (r, s')

end Server

inductive Drift where
  | tick
  | leave (key : Bytes)

namespace Server
variable {T : Type}

def drift : Drift → Server T → Server T → Prop
  | .tick, s, s' => s' = { s with clock := s.clock + 1 }
  | .leave key, s, s' => s' = s.removeItem none key

end Server

/-! ## clients -/

/-- a PHP process between callbacks: what they returned, the last one first; or it has stopped -/
inductive Client (L : Library) where
  | live (p : Proc L) (past : List (Callback × Ret))
  | dead

inductive Act where
  | callback (cb : Callback)
  | setIni (ini : Ini)

section
variable {L : Library}

def Client.after (past : List (Callback × Ret)) (cb : Callback) :
    Outcome Abort (Proc L) Ret → Prog Call Ans (Client L)
  | .done ret p => .ret (.live p ((cb, ret) :: past))
  | .stop _ _ => .ret .dead

def Client.code : Act → Client L → Prog Call Ans (Client L)
  | .callback cb, .live p past => callback cb p >>= Client.after past cb
  | .setIni ini, .live p past => .ret (.live { p with ini := ini } past)
  | _, .dead => .ret .dead

end

/-- any number of clients on a server that serves requests as `serve` says -/
def sessions (L : Library) (T : Type)
    (serve : T → (c : Call) → Ans c → Server T → Server T → Prop) :
    System T Call Ans Act (Client L) Drift (Server T) where
  code := Client.code
  serve := serve
  drift := Server.drift

abbrev Clients (L : Library) (T : Type) := World T Call Ans Act (Client L) (Server T)

/-! ## what the server does -/

namespace Server
variable {T : Type} {t : T} {c : Call} {r : Ans c} {s s' : Server T} {f : Fate} {key value : Bytes}
  {item : Item T}

theorem put_items (s : Server T) (key : Bytes) (item : Option (Item T)) (key' : Bytes) :
    (s.put key item).items key' = if key' = key then item else s.items key' :=
  Function.update_apply s.items key item key'

theorem Reliable.serve (h : Reliable t c r s s') : Serve t c r s s' := by
  obtain ⟨f, -, h⟩ := h
  exact ⟨f, h⟩

/-- a request is done, or the server is left as it is -/
theorem Serve.state (h : Serve t c r s s') : s' = s.exec t c ∨ s' = s := by
  obtain ⟨f, h⟩ := h
  unfold answer at h
  split at h
  · cases h; exact .inl rfl
  · cases h; exact .inr rfl
  · cases h; exact .inl rfl

theorem exec_of_not_item (hc : c.isItem = false) : s.exec t c = s := by
  cases c <;> first | rfl | cases hc

/-- a request that is not about items leaves the server alone -/
theorem Serve.of_not_item (h : Serve t c r s s') (hc : c.isItem = false) : s' = s := by
  rcases h.state with rfl | rfl
  · exact exec_of_not_item hc
  · rfl

theorem addReply_eq_success (h : s.addReply f key = .success) : s.items key = none := by
  unfold addReply at h
  split at h
  · assumption
  · cases hd : f.dataExists <;> rw [hd] at h <;> cases h

theorem addItem_of_found (hi : s.items key = some item) (t : T) (value : Bytes)
    (expiration : Int64) : s.addItem t key value expiration = s := by
  unfold addItem
  rw [hi]

/-- an `add` that succeeded made the item -/
theorem Serve.added {expiration : Int64} (h : Serve t (.add key value expiration) Status.success s s') :
    s.items key = none ∧ s' = s.exec t (.add key value expiration) := by
  obtain ⟨f, h⟩ := h
  unfold answer at h
  split at h
  · exact ⟨addReply_eq_success (congrArg Prod.fst h), (congrArg Prod.snd h).symm⟩
  · rename_i fault _
    exact absurd (congrArg Prod.fst h) fault.ne_success
  · rename_i fault _
    exact absurd (congrArg Prod.fst h) fault.ne_success

end Server

/-! ## the smallest setting -/

/-- everything succeeds -/
def goodAns : (c : Call) → Ans c
  | .get _ => (Status.success, ([] : Bytes))
  | .usleep _ | .warning .. => ()
  | .time => (0 : Int64)
  | .createId => ([] : Bytes)
  | .serversParse _ | .create | .initSasl => true
  | .add .. | .set .. | .delete .. | .touch .. | .exist _ | .onNull | .behaviorSet ..
  | .setSaslAuthData .. => Status.success

def goodFate : Fate := ⟨.served, false, goodAns⟩

/-- a server without items -/
def emptyServer (T : Type) : Server T := ⟨fun _ => none, 0, []⟩

section
variable {L : Library} {T : Type} [DecidableEq T]

/-- a callback of `t` without interruption, on a server that serves everything -/
def Clients.call (t : T) (cb : Callback) (w : Clients L T) : Clients L T :=
  w.act (sessions L T Server.Reliable) (fun c s => s.answer t goodFate c) t (.callback cb)

end

end PhpMemcached.Session
