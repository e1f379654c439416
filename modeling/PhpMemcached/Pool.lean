import PhpMemcached.Client
import Mathlib.Logic.Function.Basic

/-!
# A pool of servers behind libmemcached

* `Loc`, `Item`          a server and the key an item has there; what it holds;
* `storeItem`            what a store request makes of an item;
* `Fate`                 a request is served, or does not arrive, or its answer is lost;
* `Net`                  the items, and the updates so far with what became of them;
* `Pool.handler`         libmemcached on such a pool; `cas`, `touch` and deletes, and the code of the
                         user, are left to another machine.

The server of a request is a function of its `server_key`, and of its item key without one. Counters
are the server's own affair (`Pool.count`).
-/

namespace PhpMemcached
open Ascii Requests

structure Loc where
  server : Nat
  key : Bytes
  deriving DecidableEq

structure Item where
  payload : Bytes
  flags : Flags
  expiration : Int64
  deriving DecidableEq

/-- what a store request makes of an item; none if it is refused -/
def storeItem (fn : StoreFn) (payload : Bytes) (expiration : Int64) (flags : Flags)
    (item : Option Item) : Option Item :=
  match fn, item with
  | .set, _ => some ⟨payload, flags, expiration⟩
  | .add, none => some ⟨payload, flags, expiration⟩
  | .add, some _ => none
  | .replace, some _ => some ⟨payload, flags, expiration⟩
  | .append, some item => some { item with payload := item.payload ++ payload }
  | .prepend, some item => some { item with payload := payload ++ item.payload }
  | _, none => none

structure ErrorCode where
  status : Status
  isError : sMemcachedReturnIsError status true = true

def ErrorCode.clientError : ErrorCode := ⟨.clientError, rfl⟩

/-- a store request as the server takes it -/
def storeChange (fn : StoreFn) (payload : Bytes) (expiration : Int64) (flags : Flags)
    (item : Option Item) : Except ErrorCode Item :=
  match storeItem fn payload expiration flags item with
  | some item => .ok item
  | none => .error ⟨.notstored, rfl⟩

/-- what becomes of an update: it is served and answered; or an error is reported, the update being
made or not -/
inductive Fate where
  | served
  | refused (e : ErrorCode)
  | lost (e : ErrorCode)

/-- an update that was sent: where it went, whether the item was changed, what was reported -/
structure Delivery where
  call : Call
  loc : Loc
  applied : Bool
  status : Status

structure Net where
  items : Loc → Option Item
  trace : List Delivery
  reads : Nat

/-- the items with the one at `loc` replaced -/
def Net.put (net : Net) (loc : Loc) (item : Item) : Loc → Option Item :=
  Function.update net.items loc (some item)

structure Pool where
  route : Bytes → Nat
  /-- what a counter request makes of an item, and its answer; or the code it is refused with -/
  count : CounterFn → (offset : UInt64) → (initial : Option (UInt64 × Int64)) → Option Item →
    Except ErrorCode (Item × UInt64)
  fate : Nat → Fate
  /-- the error a fetch request ends with, if it does -/
  readFate : Nat → Option ErrorCode
  cas : Net → Loc → UInt64

/-- the key an item has on its server -/
def Memc.fullKey (memc : Memc) (key : Bytes) : Bytes :=
  (memc.prefixKey.elim [] fun p => p.bytes) ++ key

namespace Pool
variable (pool : Pool)

/-- where a request with this key goes -/
def loc (memc : Memc) (serverKey : Option Bytes) (key : Bytes) : Loc :=
  ⟨pool.route (serverKey.getD key), memc.fullKey key⟩

/-- one update: its fate decides what is done and what is reported -/
def deliver (call : Call) (loc : Loc) (change : Except ErrorCode Item) (net : Net) :
    Status × Net :=
  match pool.fate net.trace.length, change with
  | .served, .ok item =>
    (.success, ⟨net.put loc item, net.trace ++ [⟨call, loc, true, .success⟩], net.reads⟩)
  | .served, .error e =>
    (e.status, { net with trace := net.trace ++ [⟨call, loc, false, e.status⟩] })
  | .refused e, _ =>
    (e.status, { net with trace := net.trace ++ [⟨call, loc, false, e.status⟩] })
  | .lost e, .ok item =>
    (e.status, ⟨net.put loc item, net.trace ++ [⟨call, loc, true, e.status⟩], net.reads⟩)
  | .lost e, .error _ =>
    (e.status, { net with trace := net.trace ++ [⟨call, loc, false, e.status⟩] })

/-- a store request -/
def store (call : Call) (loc : Loc) (fn : StoreFn) (payload : Bytes) (expiration : Int64)
    (flags : Flags) (net : Net) : Status × Net :=
  pool.deliver call loc (storeChange fn payload expiration flags (net.items loc)) net

/-- a counter request as the server takes it -/
def countChange (fn : CounterFn) (offset : UInt64) (initial : Option (UInt64 × Int64))
    (item : Option Item) : Except ErrorCode Item := (pool.count fn offset initial item).map Prod.fst

/-- a counter request; the value comes with the answer of the server -/
def counter (call : Call) (loc : Loc) (fn : CounterFn) (offset : UInt64)
    (initial : Option (UInt64 × Int64)) (net : Net) : (Status × Option UInt64) × Net :=
  let r := pool.deliver call loc (pool.countChange fn offset initial (net.items loc)) net
  match pool.count fn offset initial (net.items loc) with
  | .ok (_, value) => ((r.1, if r.1 = .success then some value else none), r.2)
  | .error _ => ((r.1, none), r.2)

/-- the results of a fetch request, in the order of its keys -/
def results (memc : Memc) (serverKey : Option Bytes) (keys : List Bytes) (net : Net) :
    List (Status × Result) :=
  keys.filterMap fun key =>
    (net.items (pool.loc memc serverKey key)).map fun item =>
      (.success, ⟨key, .bytes item.payload, item.flags, pool.cas net (pool.loc memc serverKey key)⟩)

/-- a fetch request -/
def fetch (memc : Memc) (serverKey : Option Bytes) (keys : List Bytes) (net : Net) :
    (Status × Stream) × Net :=
  let results := pool.results memc serverKey keys net
  ((match pool.readFate net.reads with
    | some e => (e.status, ⟨[], .notfound⟩)
    | none => (.success, ⟨results, if results = [] then .notfound else .end_⟩)),
    { net with reads := net.reads + 1 })

/-- libmemcached on the pool -/
def handler (rest : Handler Call Ans Net) : Handler Call Ans Net
  | .store memc fn key payload expiration flags, net =>
    pool.store (.store memc fn key payload expiration flags) (pool.loc memc none key) fn payload
      expiration flags net
  | .storeByKey memc fn serverKey key payload expiration flags, net =>
    pool.store (.storeByKey memc fn serverKey key payload expiration flags)
      (pool.loc memc (some serverKey) key) fn payload expiration flags net
  | .mget memc keys, net => pool.fetch memc none keys net
  | .mgetByKey memc serverKey keys, net => pool.fetch memc (some serverKey) keys net
  | .counterByKey memc fn serverKey key offset, net =>
    pool.counter (.counterByKey memc fn serverKey key offset)
      (pool.loc memc (some serverKey) key) fn offset none net
  | .counterWithInitial memc fn key offset initial expiration, net =>
    pool.counter (.counterWithInitial memc fn key offset initial expiration)
      (pool.loc memc none key) fn offset (some (initial, expiration)) net
  | .counterWithInitialByKey memc fn serverKey key offset initial expiration, net =>
    pool.counter (.counterWithInitialByKey memc fn serverKey key offset initial expiration)
      (pool.loc memc (some serverKey) key) fn offset (some (initial, expiration)) net
  | .lastErrorErrno _, net => ((0 : Int), net)
  | .quit _, net => ((), net)
  | .behaviorSet memc flag data, net => ((.success, Function.update memc.behavior flag data), net)
  | c, net => rest c net

end Pool

def emptyNet : Net := ⟨fun _ => none, [], 0⟩

/-- what a pool leaves to another machine, answered as by `noServers` -/
def calls : Handler Call Ans Net := fun c net => ((noServers c ()).1, net)

end PhpMemcached
