import PhpMemcached.Decode
import PhpMemcached.Write

/-!
# Reading items

* `sUint64ToZval`, `sZvalToUint64`   CAS tokens;
* `phpMemcResultApply`               the loop over the results of a fetch request;
* `phpMemcMgetApply`                 the request, its status, and that loop;
* `sInvokeCacheCallback`             the read-through fill;
* `phpMemcGetImpl`, `phpMemcGetMultiImpl`, `phpMemcGetDelayedImpl`, `memcachedFetch`,
  `memcachedFetchAll`                the methods.
-/

namespace PhpMemcached
open Ascii Requests

/-! ## CAS tokens -/

/-- `s_uint64_to_zval` -/
def sUint64ToZval (value : UInt64) : Zval :=
  if value.toNat ≥ 2 ^ 63 - 1 then .str (natText value.toNat) else .long value.toInt64

/-! ## the loop over the results -/

/-- `memcached_fetch_result` -/
def memcachedFetchResult : MemcM (Option Result × Status) := do
  let s ← Cmd.get
  match s.memc.stream.pending with
  | [] => pure (none, s.memc.stream.last)
  | (rc, result) :: pending =>
    Cmd.modify fun s => { s with memc := { s.memc with stream := ⟨pending, s.memc.stream.last⟩ } }
    pure (some result, rc)

/-- `while (memcached_fetch_result(..)) {}` -/
def drainResults : MemcM Unit :=
  Cmd.modify fun s => { s with memc := { s.memc with stream := ⟨[], s.memc.stream.last⟩ } }

/-- a function the results are applied to: it may change what it collects, `false` stops -/
abbrev ResultApplyFn (α : Type) := α → Bytes → Zval → Zval → Flags → MemcM (α × Bool)

section
variable (env : Env) {α : Type}

/-- `s_memcached_result_to_zval` with what the user gets to see of it -/
def resultToZval (result : Result) : MemcM (Option Zval) := do
  let s ← Cmd.get
  let d := sMemcachedResultToZval env s.memc.userData.serializer result.value result.flags
  raise d.exception
  Cmd.when d.warning.isSome (phpWarning (d.warning.getD ""))
  pure (if d.ok then some d.value else none)

/-- the loop of `php_memc_result_apply`; every round takes one result off the stream -/
def resultApplyLoop (apply : ResultApplyFn α) (fetchDelay : Bool) :
    Nat → Status → α → MemcM (Status × α)
  | 0, status, acc => pure (status, acc)
  | fuel + 1, status, acc => do
    let (result, rc) ← memcachedFetchResult
    let status := if sMemcachedReturnIsError rc false then rc else status
    match result with
    | none => pure (status, acc)
    | some result =>
      match ← resultToZval env result with
      | none =>
        let s ← Cmd.get
        if s.exception then
          memcachedQuit
          pure (.payloadFailure, acc)
        else resultApplyLoop apply fetchDelay fuel .someErrors acc
      | some value =>
        let (acc, retval) ← apply acc result.key value (sUint64ToZval result.cas) result.flags
        if retval then resultApplyLoop apply fetchDelay fuel status acc
        else
          Cmd.when (!fetchDelay) drainResults
          pure (status, acc)

/-- `php_memc_result_apply`: one round for each result, and one that finds none -/
def phpMemcResultApply (apply : ResultApplyFn α) (fetchDelay : Bool) (acc : α) :
    MemcM (Status × α) := do
  let s ← Cmd.get
  resultApplyLoop env apply fetchDelay (s.memc.stream.pending.length + 1) .success acc

/-- the fetch request, whose results replace those of an earlier one -/
def memcachedMget (serverKey : Option Bytes) (keys : List Bytes) : MemcM Status := do
  let s ← Cmd.get
  let r ← match serverKey with
    | some serverKey => ask (.mgetByKey s.memc serverKey keys)
    | none => ask (.mget s.memc keys)
  Cmd.modify fun s => { s with memc := { s.memc with stream := r.2 } }
  pure r.1

/-- `php_memc_mget_apply`; without an apply function the results are left to be fetched -/
def phpMemcMgetApply (serverKey : Option Bytes) (keys : List Bytes)
    (apply : Option (ResultApplyFn α)) (withCas : Bool) (acc : α) : MemcM (Bool × α) := do
  sMemcSetStatus .success 0
  if keys = [] then
    Cmd.modify fun s => { s with rescode := .badKeyProvided }
    pure (false, acc)
  else
    let s ← Cmd.get
    let origCasFlag := memcachedBehaviorGet s.memc .supportCas
    let switch := withCas && origCasFlag = 0
    Cmd.when switch (memcachedBehaviorSet .supportCas 1 >>= fun _ => pure ())
    let status ← memcachedMget serverKey keys
    let ok ← sMemcStatusHandleResultCode status
    Cmd.when switch (memcachedBehaviorSet .supportCas origCasFlag >>= fun _ => pure ())
    if !ok then pure (false, acc)
    else match apply with
      | none => pure (true, acc)
      | some apply =>
        let (status, acc) ← phpMemcResultApply env apply false acc
        let ok ← sMemcStatusHandleResultCode status
        pure (ok, acc)

/-! ## what is collected -/

def keyName : ArrKey := .str (ascii ['k', 'e', 'y'])
def valueName : ArrKey := .str (ascii ['v', 'a', 'l', 'u', 'e'])
def casName : ArrKey := .str (ascii ['c', 'a', 's'])
def flagsName : ArrKey := .str (ascii ['f', 'l', 'a', 'g', 's'])

/-- the user flags as PHP sees them -/
def userFlagsZval (flags : Flags) : Zval :=
  .long (Int64.ofNat (memcValGetUserFlags flags).toNat)

/-- an extended result -/
def extendedZval (value cas : Zval) (flags : Flags) : Zval :=
  .arr [(valueName, value), (casName, cas), (flagsName, userFlagsZval flags)]

/-- `s_get_apply_fn` -/
def sGetApplyFn (extended : Bool) : ResultApplyFn Zval := fun _ _ value cas flags =>
  pure (if extended then extendedZval value cas flags else value, false)

/-- `s_get_multi_apply_fn` -/
def sGetMultiApplyFn (extended : Bool) : ResultApplyFn HashTable := fun acc key value cas flags =>
  pure (zendSymtableUpdate acc key (if extended then extendedZval value cas flags else value), true)

/-- `s_create_result_array` -/
def sCreateResultArray (key : Bytes) (value cas : Zval) (flags : Flags) : HashTable :=
  let r := zendHashUpdate (zendHashUpdate [] keyName (.str key)) valueName value
  if zLvalP env.zend cas ≠ 0 then
    zendHashUpdate (zendHashUpdate r casName cas) flagsName (userFlagsZval flags)
  else r

/-- `s_result_callback_apply`; the callback may take results off the stream itself -/
def sResultCallbackApply : ResultApplyFn Unit := fun _ key value cas flags => do
  let s ← Cmd.get
  let r ← ask (.resultCallback s (sCreateResultArray env key value cas flags))
  Cmd.modify fun s =>
    { r.object with memc := { r.object.memc with
        stream := ⟨s.memc.stream.pending.drop r.fetched, s.memc.stream.last⟩ } }
  if r.ran then pure ((), true)
  else
    phpWarning "could not invoke result callback"
    pure ((), false)

/-- `s_fetch_apply` -/
def sFetchApply : ResultApplyFn HashTable := fun _ key value cas flags =>
  pure (sCreateResultArray env key value cas flags, false)

/-- `s_fetch_all_apply` -/
def sFetchAllApply : ResultApplyFn HashTable := fun acc key value cas flags =>
  pure (addNextIndexZval acc (.arr (sCreateResultArray env key value cas flags)), true)

/-! ## the methods -/

/-- the expiration of a fill in extended mode: `cas? Z_LVAL_P(cas) : 0` -/
def casExpiration (a : HashTable) : Int64 :=
  match zendHashFind a casName with
  | some cas => zLvalP env.zend cas
  | none => 0

/-- `s_invoke_cache_callback`: whether the fill succeeded, and the value; in extended mode the
value is an array whose elements `value` and `cas` are taken, `cas` as the expiration -/
def sInvokeCacheCallback (withCas : Bool) (key : Bytes) (value : Zval) : MemcM (Bool × Zval) := do
  let s ← Cmd.get
  let r ← ask (.cacheCallback s withCas key value)
  Cmd.modify fun _ => r.object
  if r.ran then
    if r.isTrue then
      if withCas then
        match r.value with
        | .arr a =>
          match zendHashFind a valueName with
          | some rv =>
            let status ← sMemcWriteZval env .set none key (some rv) (casExpiration env a)
            pure (status, .arr a)
          | none => pure (false, .arr a)
        | _ => pure (false, value)
      else
        let status ← sMemcWriteZval env .set none key (some r.value)
          (zvalGetLong env.zend r.expiration)
        pure (status, r.value)
    else pure (false, value)
  else
    sMemcSetStatus .notfound 0
    pure (false, value)

/-- `php_memc_get_impl`; `hasCallback` for a callback argument that is not null -/
def phpMemcGetImpl (serverKey : Option Bytes) (key : Bytes) (hasCallback extended : Bool) :
    MemcM Zval := do
  sMemcSetStatus .success 0
  checkKeyOr key do
    let (mgetStatus, returnValue) ← phpMemcMgetApply env serverKey (sKeyToKeys env.zend key)
      (some (sGetApplyFn extended)) extended .null
    let s ← Cmd.get
    if !mgetStatus && s.rescode == .notfound && hasCallback then
      let (status, returnValue) ← sInvokeCacheCallback env extended key returnValue
      if !status then pure (.bool false)
      else endOfGet returnValue
    else endOfGet returnValue
where
  endOfGet (returnValue : Zval) : MemcM Zval := do
    let s ← Cmd.get
    pure (if sMemcStatusHasError s then .bool false else returnValue)

/-- `php_memc_getMulti_impl` -/
def phpMemcGetMultiImpl (serverKey : Option Bytes) (keys : HashTable)
    (preserveOrder extended : Bool) : MemcM Zval := do
  if keys = [] then
    sMemcSetStatus .notfound 0
    pure (.arr [])
  else
    sMemcSetStatus .success 0
    let (retval, returnValue) ← phpMemcMgetApply env serverKey (sHashToKeys env.zend keys)
      (some (sGetMultiApplyFn extended)) extended
      (if preserveOrder then sHashToKeysNulls env.zend keys else [])
    let s ← Cmd.get
    if !retval && (s.rescode == .notfound || s.rescode == .someErrors) then
      pure (.arr returnValue)
    else if !retval || s.exception then pure (.bool false)
    else pure (.arr returnValue)

/-- `php_memc_getDelayed_impl` -/
def phpMemcGetDelayedImpl (serverKey : Option Bytes) (keys : HashTable)
    (withCas hasCallback : Bool) : MemcM Zval := do
  sMemcSetStatus .success 0
  let (status, _) ← phpMemcMgetApply env serverKey (sHashToKeys env.zend keys)
    (if hasCallback then some (sResultCallbackApply env) else none) withCas ()
  pure (.bool status)

/-- `Memcached::fetch` -/
def memcachedFetch : MemcM Zval := do
  sMemcSetStatus .success 0
  let (status, returnValue) ← phpMemcResultApply env (sFetchApply env) true []
  if ← sMemcStatusHandleResultCode status then pure (.arr returnValue) else pure (.bool false)

/-- `Memcached::fetchAll` -/
def memcachedFetchAll : MemcM Zval := do
  sMemcSetStatus .success 0
  let (status, returnValue) ← phpMemcResultApply env (sFetchAllApply env) false []
  if ← sMemcStatusHandleResultCode status then pure (.arr returnValue) else pure (.bool false)

end
end PhpMemcached
