import PhpMemcached.Client
import Mathlib.Data.List.Infix

/-!
# The session handler

* `Ini`             the INI values `memcached.sess_*` and `max_execution_time`;
* `Library`         the libmemcached the extension is built with;
* `Memc`, `Proc`    a session handle, and the state of a PHP process: INI values, handles, persistent
                    list, module data;
* `Call`, `Ans`     the requests of the handler and their answers;
* `callback`        the callbacks of `ps_mod_memcached`.

All handles of a process have the same servers and item names: a request names the key alone.
-/

namespace PhpMemcached.Session
open Ascii Requests

/-- `MEMC_SESS_INI(consistent_hash_type)` -/
inductive HashType where
  | ketama | ketamaWeighted
  deriving DecidableEq, Repr

def HashType.behavior : HashType → Behavior
  | .ketama => .ketama
  | .ketamaWeighted => .ketamaWeighted

structure Ini where
  lockEnabled : Bool
  lockWaitMin : Int64
  lockWaitMax : Int64
  lockRetries : Int64
  lockExpiration : Int64
  binaryProtocolEnabled : Bool
  consistentHashEnabled : Bool
  consistentHashType : HashType
  serverFailureLimit : Int64
  numberOfReplicas : Int64
  randomizeReplicaReadEnabled : Bool
  removeFailedServersEnabled : Bool
  connectTimeout : Int64
  persistentEnabled : Bool
  /-- `MEMC_SESS_STR_INI`: an empty string is none -/
  sessPrefix : Bytes
  saslUsername : Bytes
  saslPassword : Bytes
  maxExecutionTime : Int64

/-- libmemcached, as far as it is not a matter of requests: its settings and what becomes of them,
the namespaces it takes, and what the build found of it -/
structure Library where
  Settings : Type
  /-- those of `memcached_create` -/
  initial : Settings
  get : Settings → Behavior → UInt64
  /-- a `memcached_behavior_set` that succeeded -/
  set : Behavior → UInt64 → Settings → Settings
  takesNamespace : Bytes → Bool
  /-- `LIBMEMCACHED_VERSION_HEX < 0x01000018` -/
  old : Bool
  /-- `HAVE_MEMCACHED_EXIST` -/
  haveExist : Bool

/-- `php_memcached_user_data` -/
structure UserData where
  isPersistent : Bool
  hasSaslData : Bool
  isLocked : Bool
  lockKey : Bytes

/-- `memcached_st` -/
structure Memc (L : Library) where
  settings : L.Settings
  itemNamespace : Option Bytes
  userData : UserData

/-- an entry of the persistent list: of type `le_memc_sess`, or of another -/
inductive Resource where
  | memc (ptr : Nat)
  | other

structure Proc (L : Library) where
  ini : Ini
  /-- the handles that are not freed -/
  memory : Nat → Option (Memc L)
  /-- the handles made -/
  made : Nat
  persistentList : Bytes → Option Resource
  /-- `PS_GET_MOD_DATA` -/
  modData : Option Nat

/-! ## requests -/

/-- the two functions that delete an item -/
inductive DeleteBy where
  | destroy | unlock
  deriving DecidableEq, Repr

/-- what follows the text of a warning -/
inductive Detail where
  | nothing
  /-- `memcached_strerror` -/
  | strerror (rc : Status)
  | lastErrorMessage
  deriving DecidableEq, Repr

inductive Call where
  | add (key value : Bytes) (expiration : Int64)
  | get (key : Bytes)
  | set (key value : Bytes) (expiration : Int64)
  | delete (by_ : DeleteBy) (key : Bytes)
  | touch (key : Bytes) (expiration : Int64)
  | exist (key : Bytes)
  /-- one of these on a NULL handle -/
  | onNull
  | usleep (usec : UInt32)
  | time
  /-- `php_session_create_id` -/
  | createId
  /-- `memcached_servers_parse`: whether it found any -/
  | serversParse (savePath : Bytes)
  /-- `memcached_create`: whether there is memory -/
  | create
  | behaviorSet (flag : Behavior) (data : UInt64)
  /-- `php_memc_init_sasl_if_needed` -/
  | initSasl
  | setSaslAuthData (username password : Bytes)
  /-- `php_error_docref(NULL, E_WARNING, ..)` -/
  | warning (text : String) (detail : Detail)
  deriving DecidableEq, Repr

abbrev Ans : Call → Type
  | .get _ => Status × Bytes
  | .usleep _ | .warning .. => Unit
  | .time => Int64
  | .createId => Bytes
  | .serversParse _ | .create | .initSasl => Bool
  | _ => Status

/-- why nothing after it runs: an `E_ERROR`, or a freed handle -/
inductive Abort where
  | fatal (text : String)
  | useAfterFree
  deriving DecidableEq, Repr

abbrev SessM (L : Library) := Cmd Call Ans Abort (Proc L)

section
variable {L : Library}

abbrev ask (c : Call) : SessM L (Ans c) := Cmd.req c

def warn (text : String) (detail : Detail) : SessM L Unit := ask (.warning text detail)

def iniValues : SessM L Ini := do
  let p ← Cmd.get
  pure p.ini

def setModData (h : Option Nat) : SessM L Unit := Cmd.modify fun p => { p with modData := h }

/-- what a pointer to a handle points to -/
def deref (h : Nat) : SessM L (Memc L) := do
  let p ← Cmd.get
  match p.memory h with
  | some memc => pure memc
  | none => Cmd.stop .useAfterFree

def Proc.store (p : Proc L) (h : Nat) (memc : Option (Memc L)) : Proc L :=
  { p with memory := Function.update p.memory h memc }

def assign (h : Nat) (memc : Memc L) : SessM L Unit := Cmd.modify fun p => p.store h (some memc)

def Memc.withUserData (memc : Memc L) (userData : UserData) : Memc L :=
  { memc with userData := userData }

/-- `s_destroy_mod_data` -/
def sDestroyModData (h : Nat) : SessM L Unit := do
  let _ ← deref h
  Cmd.modify fun p => p.store h none

/-! ## expirations -/

/-- `REALTIME_MAXDELTA` -/
def realtimeMaxdelta : Int64 := 60 * 60 * 24 * 30

/-- `s_adjust_expiration` -/
def sAdjustExpiration (expiration : Int64) : SessM L Int64 :=
  if expiration ≤ realtimeMaxdelta then pure expiration
  else do
    let now : Int64 ← ask .time
    pure (now + expiration)

/-- `s_lock_expiration` -/
def sLockExpiration : SessM L Int64 := do
  let ini ← iniValues
  if 0 < ini.lockExpiration then sAdjustExpiration ini.lockExpiration
  else if 0 < ini.maxExecutionTime then sAdjustExpiration ini.maxExecutionTime
  else pure 0

/-- `s_session_expiration` -/
def sSessionExpiration (maxlifetime : Int64) : SessM L Int64 :=
  if 0 < maxlifetime then sAdjustExpiration maxlifetime else pure 0

/-! ## the lock -/

/-- `"lock.%s"` -/
def lockKeyOf (sid : Bytes) : Bytes := ascii "lock.".toList ++ sid.takeWhile (· ≠ 0)

/-- the contents of a lock item -/
def lockValue : Bytes := ascii ['1']

/-- the `switch` of `s_lock_session`; `more` is `retries > 0` -/
def lockOutcome (h : Nat) (lockKey : Bytes) (more : Bool) (waitTime : Int64) :
    Status → SessM L Int64
  | .success => do
    let memc ← deref h
    assign h (memc.withUserData { memc.userData with lockKey := lockKey, isLocked := true })
    pure waitTime
  | .notstored | .dataExists =>
    if more then do
      let () ← ask (.usleep (waitTime * 1000).toUInt64.toUInt32)
      let ini ← iniValues
      pure (if ini.lockWaitMax < waitTime * 2 then ini.lockWaitMax else waitTime * 2)
    else pure waitTime
  | rc => do
    warn "Failed to write session lock: %s" (.strerror rc)
    pure waitTime

/-- one round of the loop -/
def lockAttempt (h : Nat) (lockKey : Bytes) (expiration : Int64) (more : Bool) (waitTime : Int64) :
    SessM L Int64 := do
  let rc : Status ← ask (.add lockKey lockValue expiration)
  lockOutcome h lockKey more waitTime rc

/-- the loop, with `retries` more rounds at most; it looks at the flag of the handle, not at what
its own `add` did -/
def lockLoop (h : Nat) (lockKey : Bytes) (expiration : Int64) : Nat → Int64 → SessM L Bool
  | 0, waitTime => do
    let _ ← lockAttempt h lockKey expiration false waitTime
    let memc ← deref h
    pure memc.userData.isLocked
  | retries + 1, waitTime => do
    let waitTime ← lockAttempt h lockKey expiration true waitTime
    let memc ← deref h
    if memc.userData.isLocked then pure true else lockLoop h lockKey expiration retries waitTime

/-- `s_lock_session` -/
def sLockSession (h : Nat) (sid : Bytes) : SessM L Bool := do
  let expiration ← sLockExpiration
  let ini ← iniValues
  lockLoop h (lockKeyOf sid) expiration ini.lockRetries.toInt.toNat ini.lockWaitMin

/-- `s_unlock_session` -/
def sUnlockSession (h : Nat) : SessM L Unit := do
  let memc ← deref h
  if memc.userData.isLocked then do
    let _ ← ask (.delete .unlock memc.userData.lockKey)
    assign h (memc.withUserData { memc.userData with isLocked := false })
  else pure ()

/-! ## the settings of a handle -/

/-- `check_set_behavior`; false is the `return 0` in it -/
def checkSetBehavior (h : Nat) (silent : Bool) (flag : Behavior) (data : UInt64) :
    SessM L Bool := do
  let memc ← deref h
  if data ≠ L.get memc.settings flag then do
    let rc : Status ← ask (.behaviorSet flag data)
    if rc = .success then do
      assign h { memc with settings := L.set flag data memc.settings }
      pure true
    else do
      Cmd.when (!silent)
        (warn "failed to initialise session memcached configuration: %s" (.strerror rc))
      pure false
  else pure true

def checkSetBehaviors (h : Nat) (silent : Bool) : List (Behavior × UInt64) → SessM L Bool
  | [] => pure true
  | (flag, data) :: rest => do
    let ok ← checkSetBehavior h silent flag data
    if ok then checkSetBehaviors h silent rest else pure false

/-- the behaviours the INI values ask for, in the order in which they are set -/
def Ini.behaviors (ini : Ini) : List (Behavior × UInt64) :=
  (if ini.binaryProtocolEnabled then [(.binaryProtocol, 1), (.tcpNodelay, 1)] else []) ++
  (if ini.consistentHashEnabled then [(ini.consistentHashType.behavior, 1)] else []) ++
  (if ini.serverFailureLimit ≠ 0 then
    [(.serverFailureLimit, ini.serverFailureLimit.toUInt64)] else []) ++
  (if ini.numberOfReplicas ≠ 0 then [(.numberOfReplicas, ini.numberOfReplicas.toUInt64)] else []) ++
  (if ini.randomizeReplicaReadEnabled then [(.randomizeReplicaRead, 1)] else []) ++
  (if ini.removeFailedServersEnabled then [(.removeFailedServers, 1)] else []) ++
  (if ini.connectTimeout ≠ 0 then [(.connectTimeout, ini.connectTimeout.toUInt64)] else [])

/-- whether SASL credentials are set -/
def Ini.sasl (ini : Ini) : Bool := ini.saslUsername ≠ [] && ini.saslPassword ≠ []

/-- `memcached_callback_set` for `MEMCACHED_CALLBACK_NAMESPACE`, its result not looked at -/
def setNamespace (h : Nat) (sessPrefix : Bytes) : SessM L Unit := do
  let memc ← deref h
  if L.takesNamespace sessPrefix then assign h { memc with itemNamespace := some sessPrefix }
  else pure ()

/-- the SASL part of `s_configure_from_ini_values` -/
def configureSasl (h : Nat) (silent : Bool) (ini : Ini) : SessM L Bool := do
  let ready : Bool ← ask .initSasl
  if ready then do
    let ok ← checkSetBehaviors h silent [(.binaryProtocol, 1)]
    if ok then do
      let rc : Status ← ask (.setSaslAuthData ini.saslUsername ini.saslPassword)
      if rc = .failure then do
        warn "failed to set memcached session sasl credentials" .nothing
        pure false
      else do
        let memc ← deref h
        assign h (memc.withUserData { memc.userData with hasSaslData := true })
        pure true
    else pure false
  else pure false

/-- `s_configure_from_ini_values` -/
def sConfigureFromIniValues (h : Nat) (silent : Bool) : SessM L Bool := do
  let ini ← iniValues
  let ok ← checkSetBehaviors h silent ini.behaviors
  if ok then do
    Cmd.when (ini.sessPrefix ≠ []) (setNamespace h ini.sessPrefix)
    if ini.sasl then configureSasl h silent ini else pure true
  else pure false

/-- the settings of a new handle; the result of `memcached_behavior_set` is not looked at -/
def newMemc (isPersistent verifyKey : Bool) : Memc L where
  settings := if verifyKey then L.set .verifyKey 1 L.initial else L.initial
  itemNamespace := none
  userData := ⟨isPersistent, false, false, []⟩

/-- `s_init_mod_data` -/
def sInitModData (isPersistent : Bool) : SessM L Nat := do
  let created : Bool ← ask .create
  if created then do
    let rc : Status ← ask (.behaviorSet .verifyKey 1)
    let p ← Cmd.get
    Cmd.modify fun p =>
      { p.store p.made (some (newMemc isPersistent (rc = .success))) with made := p.made + 1 }
    pure p.made
  else Cmd.stop (.fatal "failed to allocate memcached structure")

/-! ## the persistent list -/

/-- `php_memc_sess_dtor`, for an entry that is there -/
def sessDtor : Option Resource → SessM L Unit
  | some (.memc h) => sDestroyModData h
  | _ => pure ()

def Proc.withEntry (p : Proc L) (key : Bytes) (entry : Option Resource) : Proc L :=
  { p with persistentList := Function.update p.persistentList key entry }

def setEntry (key : Bytes) (entry : Option Resource) : SessM L Unit :=
  Cmd.modify fun p => p.withEntry key entry

/-- the lookup in `PS_OPEN_FUNC`: a handle that takes the INI values, or none; one that does not is
removed -/
def reuse (plistKey : Bytes) : SessM L (Option Nat) := do
  let p ← Cmd.get
  match p.persistentList plistKey with
  | some (.memc h) => do
    let ok ← sConfigureFromIniValues h true
    if ok then pure (some h)
    else do
      setEntry plistKey none
      sDestroyModData h
      pure none
  | _ => pure none

/-- `zend_hash_str_update_mem`: an entry that is replaced is destroyed -/
def register (plistKey : Bytes) (h : Nat) : SessM L Unit := do
  let p ← Cmd.get
  sessDtor (p.persistentList plistKey)
  setEntry plistKey (some (.memc h))

/-! ## the callbacks -/

/-- what a callback returns: `FAILURE`, `SUCCESS` (for `PS_READ` with the data), a session id -/
inductive Ret where
  | failure
  | success
  | data (val : Bytes)
  | sid (sid : Option Bytes)
  deriving DecidableEq, Repr

/-- the check of a callback that needs module data -/
def withModData (next : Nat → SessM L Ret) : SessM L Ret := do
  let p ← Cmd.get
  match p.modData with
  | some h => next h
  | none => do
    warn "Session is not allocated, check session.save_path value" .nothing
    pure .failure

/-- `PS_OPEN_FUNC` from the creation of a handle on -/
def openNew (persistent : Bool) (plistKey : Bytes) : SessM L Ret := do
  let h ← sInitModData persistent
  let ok ← sConfigureFromIniValues h false
  if ok then do
    Cmd.when persistent (register plistKey h)
    setModData (some h)
    pure .success
  else do
    sDestroyModData h
    setModData none
    pure .failure

/-- `PS_OPEN_FUNC` -/
def psOpen (savePath : Bytes) : SessM L Ret := do
  let path := savePath.takeWhile (· ≠ 0)
  if ascii "PERSISTENT=".toList <:+: path then do
    warn "failed to parse session.save_path: PERSISTENT is replaced by memcached.sess_persistent = On"
      .nothing
    setModData none
    pure .failure
  else do
    let servers : Bool ← ask (.serversParse path)
    if servers then do
      let ini ← iniValues
      let plistKey := ascii "memc-session:".toList ++ path
      let reused ← if ini.persistentEnabled then reuse plistKey else pure none
      match reused with
      | some h => do
        setModData (some h)
        pure .success
      | none => openNew ini.persistentEnabled plistKey
    else do
      warn "failed to parse session.save_path" .nothing
      setModData none
      pure .failure

/-- `PS_CLOSE_FUNC` -/
def psClose : SessM L Ret := withModData fun h => do
  sUnlockSession h
  let memc ← deref h
  Cmd.when (!memc.userData.isPersistent) (sDestroyModData h)
  setModData none
  pure .success

/-- `PS_READ_FUNC` without its lock -/
def readItem (sid : Bytes) : SessM L Ret := do
  let (status, payload) : Status × Bytes ← ask (.get sid)
  match status with
  | .success => pure (.data payload)
  | .notfound => pure (.data [])
  | _ => do
    warn "error getting session from memcached: %s" .lastErrorMessage
    pure .failure

/-- `PS_READ_FUNC` -/
def psRead (sid : Bytes) : SessM L Ret := withModData fun h => do
  let ini ← iniValues
  let locked ← if ini.lockEnabled then sLockSession h sid else pure true
  if locked then readItem sid
  else do
    warn "Unable to clear session lock record" .nothing
    pure .failure

/-- one round of the loop of `PS_WRITE_FUNC` -/
def saveItem (sid val : Bytes) (expiration : Int64) : SessM L Bool := do
  let rc : Status ← ask (.set sid val expiration)
  if rc = .success then pure true
  else do
    warn "error saving session to memcached: %s" .lastErrorMessage
    pure false

/-- the loop, with `retries` more rounds at most -/
def writeLoop (sid val : Bytes) (expiration : Int64) : Nat → SessM L Ret
  | 0 => do
    let saved ← saveItem sid val expiration
    pure (if saved then .success else .failure)
  | retries + 1 => do
    let saved ← saveItem sid val expiration
    if saved then pure .success else writeLoop sid val expiration retries

/-- `retries` of `PS_WRITE_FUNC` -/
def writeRetries (L : Library) (ini : Ini) (memc : Memc L) : Int64 :=
  if ini.removeFailedServersEnabled then
    let replicas := (L.get memc.settings .numberOfReplicas).toInt64
    let failureLimit := (L.get memc.settings .serverFailureLimit).toInt64
    1 + replicas * (failureLimit + 1)
  else 1

/-- `PS_WRITE_FUNC` -/
def psWrite (sid val : Bytes) (maxlifetime : Int64) : SessM L Ret := do
  let expiration ← sSessionExpiration maxlifetime
  withModData fun h => do
    let ini ← iniValues
    let memc ← deref h
    writeLoop sid val expiration ((writeRetries L ini memc).toInt - 1).toNat

/-- `PS_DESTROY_FUNC` -/
def psDestroy (sid : Bytes) : SessM L Ret := withModData fun h => do
  let _ ← ask (.delete .destroy sid)
  sUnlockSession h
  pure .success

/-- the loop of `PS_CREATE_SID_FUNC`, of `retries` rounds -/
def createSidLoop : Nat → SessM L Ret
  | 0 => pure (.sid none)
  | retries + 1 => do
    let sid : Bytes ← ask .createId
    let expiration ← sLockExpiration
    let rc : Status ← ask (.add sid [] expiration)
    if rc = .success then pure (.sid (some sid)) else createSidLoop retries

/-- `PS_CREATE_SID_FUNC` -/
def psCreateSid : SessM L Ret := do
  let p ← Cmd.get
  match p.modData with
  | some _ => createSidLoop 3
  | none => do
    let sid : Bytes ← ask .createId
    pure (.sid (some sid))

/-- `php_memcached_exist` -/
def phpMemcachedExist (key : Bytes) : SessM L Status := do
  let p ← Cmd.get
  match p.modData with
  | none => ask .onNull
  | some _ =>
    if L.haveExist then ask (.exist key)
    else do
      let (rc, _) : Status × Bytes ← ask (.get key)
      pure rc

/-- `PS_VALIDATE_SID_FUNC` -/
def psValidateSid (sid : Bytes) : SessM L Ret := do
  let rc ← phpMemcachedExist sid
  pure (if rc = .success then .success else .failure)

/-- the warning of `php_memcached_touch` -/
def warnTouch (h : Nat) : SessM L Unit := do
  let memc ← deref h
  Cmd.when (L.get memc.settings .binaryProtocol ≠ 0)
    (warn ("using touch command with binary protocol is not recommended with libmemcached " ++
      "versions below 1.0.18, please use ascii protocol or upgrade libmemcached") .nothing)

/-- `php_memcached_touch` -/
def phpMemcachedTouch (key : Bytes) (expiration : Int64) : SessM L Status := do
  let p ← Cmd.get
  match p.modData with
  | none => ask .onNull
  | some h => do
    Cmd.when L.old (warnTouch h)
    ask (.touch key expiration)

/-- `PS_UPDATE_TIMESTAMP_FUNC` -/
def psUpdateTimestamp (sid : Bytes) (maxlifetime : Int64) : SessM L Ret := do
  let expiration ← sSessionExpiration maxlifetime
  let rc ← phpMemcachedTouch sid expiration
  pure (if rc = .failure then .failure else .success)

inductive Callback where
  | open_ (savePath : Bytes)
  | close
  | read (sid : Bytes)
  | write (sid val : Bytes) (maxlifetime : Int64)
  | destroy (sid : Bytes)
  | gc
  | createSid
  | validateSid (sid : Bytes)
  | updateTimestamp (sid val : Bytes) (maxlifetime : Int64)
  deriving DecidableEq, Repr

/-- `ps_mod_memcached` -/
def callback : Callback → SessM L Ret
  | .open_ savePath => psOpen savePath
  | .close => psClose
  | .read sid => psRead sid
  | .write sid val maxlifetime => psWrite sid val maxlifetime
  | .destroy sid => psDestroy sid
  | .gc => pure .success
  | .createSid => psCreateSid
  | .validateSid sid => psValidateSid sid
  | .updateTimestamp sid _ maxlifetime => psUpdateTimestamp sid maxlifetime

end

/-! ## the smallest setting -/

/-- a libmemcached that keeps what it is told, and takes short namespaces -/
def plainLibrary : Library where
  Settings := Behavior → UInt64
  initial _ := 0
  get settings flag := settings flag
  set flag data settings := Function.update settings flag data
  takesNamespace sessPrefix := sessPrefix.length < 128
  old := false
  haveExist := true

/-- the defaults -/
def iniDefaults : Ini where
  lockEnabled := true
  lockWaitMin := 150
  lockWaitMax := 150
  lockRetries := 5
  lockExpiration := 0
  binaryProtocolEnabled := true
  consistentHashEnabled := true
  consistentHashType := .ketama
  serverFailureLimit := 0
  numberOfReplicas := 0
  randomizeReplicaReadEnabled := false
  removeFailedServersEnabled := false
  connectTimeout := 0
  persistentEnabled := false
  sessPrefix := ascii "memc.sess.key.".toList
  saslUsername := []
  saslPassword := []
  maxExecutionTime := 0

/-- a process that has not opened a session -/
def newProc (L : Library) (ini : Ini) : Proc L where
  ini := ini
  memory _ := none
  made := 0
  persistentList _ := none
  modData := none

/-- a process with an open session on a handle that was just made -/
def openProc (L : Library) (ini : Ini) : Proc L where
  ini := ini
  memory := Function.update (fun _ => none) 0 (some (newMemc false true))
  made := 1
  persistentList _ := none
  modData := some 0

end PhpMemcached.Session
