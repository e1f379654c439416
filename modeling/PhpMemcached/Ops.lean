import PhpMemcached.Read

/-!
# The methods that write, delete and count

* `phpMemcStoreImpl`         `set`, `add`, `replace`, `append`, `prepend`, `touch`;
* `phpMemcSetMultiImpl`      `setMulti`;
* `phpMemcCasImpl`           `cas`;
* `phpMemcDeleteImpl`, `phpMemcDeleteMultiImpl`   `delete`, `deleteMulti`;
* `phpMemcIncdecImpl`        `increment`, `decrement`;
* `Method`                   the methods with item keys, and what each of them runs.

Each takes the `server_key` of its `ByKey` form as an option.
-/

namespace PhpMemcached
open Ascii Requests

section
variable (env : Env)

/-- `php_memc_store_impl` -/
def phpMemcStoreImpl (op : WriteOp) (serverKey : Option Bytes) (key : Bytes)
    (value : Option Zval) (expiration : Int64) : MemcM Zval := do
  sMemcSetStatus .success 0
  checkKeyOr key do
    let s ← Cmd.get
    if s.memc.userData.compressionEnabled && (op == .append || op == .prepend) then
      -- appending would corrupt a compressed value
      phpWarning "cannot append/prepend with compression turned on"
      pure .null
    else do
      let ok ← sMemcWriteZval env op serverKey key value expiration
      pure (.bool ok)

/-- the key of an entry: an integer key is written out in decimal -/
def entryKey : ArrKey → Bytes
  | .int n => intText n.toInt
  | .str s => s

/-- the loop of `php_memc_setMulti_impl`; what each write returns is not looked at -/
def setMultiLoop (serverKey : Option Bytes) (expiration : Int64) : HashTable → MemcM Unit
  | [] => pure ()
  | (k, value) :: entries => do
    let _ ← sMemcWriteZval env .set serverKey (entryKey k) (some value) expiration
    setMultiLoop serverKey expiration entries

/-- `php_memc_setMulti_impl` -/
def phpMemcSetMultiImpl (serverKey : Option Bytes) (entries : HashTable) (expiration : Int64) :
    MemcM Zval := do
  sMemcSetStatus .success 0
  setMultiLoop env serverKey expiration entries
  let s ← Cmd.get
  pure (.bool !sMemcStatusHasError s)

/-- `s_zval_to_uint64`; none for the fatal error -/
def sZvalToUint64 (cas : Zval) : Option UInt64 :=
  match cas with
  | .long n => some n.toUInt64
  | .double d =>
    if d.isNeg then some 0
    else match d.truncNat with
      | some n => some (if n < 2 ^ 64 then UInt64.ofNat n else env.zend.castOverflow d)
      | none => some (env.zend.castOverflow d)
  | .str s =>
    let r := strtoull s
    if r.rest ≠ [] ∨ (r.erange = true ∧ r.val = UInt64.ofNat (2 ^ 64 - 1)) ∨
        (r.erange = true ∧ r.val = 0) then none
    else some r.val
  | _ => some 0

/-- the request of `php_memc_cas_impl` -/
def memcachedCas (serverKey : Option Bytes) (key payload : Bytes) (expiration : Int64)
    (flags : Flags) (cas : UInt64) : MemcM Status := do
  let s ← Cmd.get
  match serverKey with
  | some serverKey => ask (.casByKey s.memc serverKey key payload expiration flags cas)
  | none => ask (.cas s.memc key payload expiration flags cas)

/-- `php_memc_cas_impl` -/
def phpMemcCasImpl (serverKey : Option Bytes) (zvCas : Zval) (key : Bytes) (value : Zval)
    (expiration : Int64) : MemcM Zval := do
  sMemcSetStatus .success 0
  checkKeyOr key do
    match sZvalToUint64 env zvCas with
    | none => Cmd.stop (.fatal "Failed to unmarshall cas token")
    | some cas =>
      match ← sZvalToPayload env value 0 with
      | none =>
        Cmd.modify fun s => { s with rescode := .payloadFailure }
        pure (.bool false)
      | some (payload, flags) =>
        let s ← Cmd.get
        if sIsPayloadTooBig s payload then
          Cmd.modify fun s => { s with rescode := .e2big }
          pure (.bool false)
        else
          let status ← memcachedCas serverKey key payload expiration flags cas
          let ok ← sMemcStatusHandleResultCode status
          pure (.bool ok)

end

/-- the request of `php_memc_delete_impl` -/
def memcachedDelete (serverKey : Option Bytes) (key : Bytes) (expiration : Int64) :
    MemcM Status := do
  let s ← Cmd.get
  match serverKey with
  | some serverKey => ask (.deleteByKey s.memc serverKey key expiration)
  | none => ask (.delete s.memc key expiration)

/-- `php_memc_delete_impl` -/
def phpMemcDeleteImpl (serverKey : Option Bytes) (key : Bytes) (expiration : Int64) :
    MemcM Zval := do
  sMemcSetStatus .success 0
  checkKeyOr key do
    let status ← memcachedDelete serverKey key expiration
    let ok ← sMemcStatusHandleResultCode status
    pure (.bool ok)

section
variable (env : Env)

/-- the loop of `php_memc_deleteMulti_impl`: without a `server_key` each key is its own; an empty
key is passed over -/
def deleteMultiLoop (serverKey : Option Bytes) (expiration : Int64) :
    List Zval → HashTable → MemcM HashTable
  | [], ret => pure ret
  | zv :: entries, ret => do
    let entry := zvalGetString env.zend zv
    if entry.length = 0 then deleteMultiLoop serverKey expiration entries ret
    else
      let s ← Cmd.get
      let status ← ask (.deleteByKey s.memc (serverKey.getD entry) entry expiration)
      let ok ← sMemcStatusHandleResultCode status
      let r := if ok then .bool true else .long (Int64.ofInt status.code)
      deleteMultiLoop serverKey expiration entries (zendSymtableUpdate ret entry r)

/-- `php_memc_deleteMulti_impl` -/
def phpMemcDeleteMultiImpl (serverKey : Option Bytes) (entries : HashTable)
    (expiration : Int64) : MemcM Zval := do
  sMemcSetStatus .success 0
  let ret ← deleteMultiLoop env serverKey expiration (entries.map Prod.snd) []
  pure (.arr ret)

end

/-! ## counters -/

/-- what an attempt of `increment` or `decrement` leaves: its status and the value argument, which
starts as `UINT64_MAX` and is set on success; none where the method has returned -/
abbrev CounterRes := Option (Status × UInt64)

/-- the answer of a counter request, on a value argument that holds `value` -/
def counterRes (value : UInt64) (r : Status × Option UInt64) : CounterRes :=
  some (r.1, r.2.getD value)

/-- the request without an initial value; the plain form uses the key as its own server key -/
def counterPlain (fn : CounterFn) (serverKey : Option Bytes) (key : Bytes) (offset : Int64) :
    MemcM CounterRes := do
  let s ← Cmd.get
  let r ← ask (.counterByKey s.memc fn (serverKey.getD key) key offset.toUInt64)
  pure (counterRes (UInt64.ofNat (2 ^ 64 - 1)) r)

/-- one round from the label `retry_inc_dec` on, on a value argument that holds `value` -/
def counterAttempt (fn : CounterFn) (serverKey : Option Bytes) (key : Bytes)
    (offset initial expiry : Int64) (value : UInt64) : MemcM CounterRes := do
  let s ← Cmd.get
  if memcachedBehaviorGet s.memc .binaryProtocol = 0 then
    phpWarning "Initial value is only supported with binary protocol"
    pure none
  else
    let r ← match serverKey with
      | some serverKey =>
        ask (.counterWithInitialByKey s.memc fn serverKey key offset.toUInt64 initial.toUInt64
          expiry)
      | none =>
        ask (.counterWithInitial s.memc fn key offset.toUInt64 initial.toUInt64 expiry)
    pure (counterRes value r)

/-- another round, on the value argument as the last one left it -/
def counterAgain (fn : CounterFn) (serverKey : Option Bytes) (key : Bytes)
    (offset initial expiry : Int64) : CounterRes → MemcM CounterRes
  | some (_, value) => counterAttempt fn serverKey key offset initial expiry value
  | none => pure none

/-- `s_should_retry_write` on a round that has not returned -/
def shouldRetryCounter (s : State) : CounterRes → Bool
  | some (status, _) => sShouldRetryWrite s status
  | none => false

/-- the end of `php_memc_incdec_impl` -/
def counterEnd : CounterRes → MemcM Zval
  | none => pure (.bool false)
  | some (status, value) => do
    if ← sMemcStatusHandleResultCode status then
      if value = UInt64.ofNat (2 ^ 64 - 1) then pure (.bool false)
      else pure (.long value.toInt64)
    else pure (.bool false)

/-- `php_memc_incdec_impl`; `initial` is the pair of initial value and expiry, if it is given -/
def phpMemcIncdecImpl (fn : CounterFn) (serverKey : Option Bytes) (key : Bytes) (offset : Int64)
    (initial : Option (Int64 × Int64)) : MemcM Zval := do
  sMemcSetStatus .success 0
  checkKeyOr key do
    if offset < 0 then
      phpWarning "offset cannot be a negative value"
      pure (.bool false)
    else
      match initial with
      | none =>
        let r ← counterPlain fn serverKey key offset
        counterEnd r
      | some (initial, expiry) =>
        let s ← Cmd.get
        let retries := s.memc.userData.storeRetryCount
        let r ← counterAttempt fn serverKey key offset initial expiry (UInt64.ofNat (2 ^ 64 - 1))
        let r ← Cmd.retry shouldRetryCounter
          (counterAgain fn serverKey key offset initial expiry) retries.toInt.toNat r
        counterEnd r

/-! ## the methods with item keys -/

/-- a call of a method; the `ByKey` form is the one with a `server_key` -/
inductive Method where
  | get (serverKey : Option Bytes) (key : Bytes) (hasCallback extended : Bool)
  | getMulti (serverKey : Option Bytes) (keys : HashTable) (preserveOrder extended : Bool)
  | getDelayed (serverKey : Option Bytes) (keys : HashTable) (withCas hasCallback : Bool)
  | set (serverKey : Option Bytes) (key : Bytes) (value : Zval) (expiration : Int64)
  | add (serverKey : Option Bytes) (key : Bytes) (value : Zval) (expiration : Int64)
  | replace (serverKey : Option Bytes) (key : Bytes) (value : Zval) (expiration : Int64)
  | append (serverKey : Option Bytes) (key value : Bytes)
  | prepend (serverKey : Option Bytes) (key value : Bytes)
  | touch (serverKey : Option Bytes) (key : Bytes) (expiration : Int64)
  | setMulti (serverKey : Option Bytes) (entries : HashTable) (expiration : Int64)
  | cas (serverKey : Option Bytes) (zvCas : Zval) (key : Bytes) (value : Zval) (expiration : Int64)
  | delete (serverKey : Option Bytes) (key : Bytes) (expiration : Int64)
  | deleteMulti (serverKey : Option Bytes) (keys : HashTable) (expiration : Int64)
  | increment (serverKey : Option Bytes) (key : Bytes) (offset : Int64)
      (initial : Option (Int64 × Int64))
  | decrement (serverKey : Option Bytes) (key : Bytes) (offset : Int64)
      (initial : Option (Int64 × Int64))

def Method.run (env : Env) : Method → MemcM Zval
  | .get serverKey key hasCallback extended =>
    phpMemcGetImpl env serverKey key hasCallback extended
  | .getMulti serverKey keys preserveOrder extended =>
    phpMemcGetMultiImpl env serverKey keys preserveOrder extended
  | .getDelayed serverKey keys withCas hasCallback =>
    phpMemcGetDelayedImpl env serverKey keys withCas hasCallback
  | .set serverKey key value expiration =>
    phpMemcStoreImpl env .set serverKey key (some value) expiration
  | .add serverKey key value expiration =>
    phpMemcStoreImpl env .add serverKey key (some value) expiration
  | .replace serverKey key value expiration =>
    phpMemcStoreImpl env .replace serverKey key (some value) expiration
  | .append serverKey key value =>
    phpMemcStoreImpl env .append serverKey key (some (.str value)) 0
  | .prepend serverKey key value =>
    phpMemcStoreImpl env .prepend serverKey key (some (.str value)) 0
  | .touch serverKey key expiration =>
    phpMemcStoreImpl env .touch serverKey key none expiration
  | .setMulti serverKey entries expiration =>
    phpMemcSetMultiImpl env serverKey entries expiration
  | .cas serverKey zvCas key value expiration =>
    phpMemcCasImpl env serverKey zvCas key value expiration
  | .delete serverKey key expiration => phpMemcDeleteImpl serverKey key expiration
  | .deleteMulti serverKey keys expiration =>
    phpMemcDeleteMultiImpl env serverKey keys expiration
  | .increment serverKey key offset initial =>
    phpMemcIncdecImpl .increment serverKey key offset initial
  | .decrement serverKey key offset initial =>
    phpMemcIncdecImpl .decrement serverKey key offset initial

end PhpMemcached
