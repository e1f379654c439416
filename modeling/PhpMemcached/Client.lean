import PhpMemcached.Lib.Cmd
import PhpMemcached.Status
import PhpMemcached.Value
import PhpMemcached.Flags
import Mathlib.Algebra.Group.Int.Defs
import Mathlib.Data.UInt

/-!
# The state of a client and its requests

* `Env`        what the extension was built with and calls: PHP runtime, INI values, serializers,
               compressors;
* `UserData`   `php_memc_user_data_t`;
* `Memc`       the `memcached_st` as the extension sees it: behaviours, prefix, unread results;
* `State`      `php_memc_object_t` and the executor's exception flag;
* `Call`       the requests to libmemcached and to user code; `Ans` their answers;
* `MemcM`      the commands of the extension;
* `plainEnv`, `newObject`, `noServers`   the smallest build, a new object, a libmemcached that
               reaches nothing.
-/

namespace PhpMemcached
open Ascii Requests

/-! ## build and runtime -/

/-- `php_memc_serializer_type` -/
inductive SerializerType where
  | php | igbinary | json | jsonArray | msgpack
  deriving DecidableEq, Repr

/-- `php_memc_compression_type` -/
inductive CompressionType where
  | zlib | fastlz | zstd
  deriving DecidableEq, Repr

/-- the optional parts compiled in -/
structure Build where
  haveZstd : Bool
  haveIgbinary : Bool
  haveJson : Bool
  haveMsgpack : Bool
  /-- `LIBMEMCACHED_VERSION_HEX < 0x01000018` -/
  oldLibmemcached : Bool

/-- the INI values `memcached.*`: those a new object is set up from, and the two that are read at
every write -/
structure Ini where
  serializerType : SerializerType
  compressionType : CompressionType
  compressionLevel : Int64
  compressionThreshold : Int64
  compressionFactor : Rat
  storeRetryCount : Int64
  itemSizeLimit : Int64
  consistentHashEnabled : Bool
  binaryProtocolEnabled : Bool
  connectTimeout : Int64

/-- the defaults of a build without igbinary and msgpack -/
def iniDefaults : Ini where
  serializerType := .php
  compressionType := .fastlz
  compressionLevel := 3
  compressionThreshold := 2000
  compressionFactor := 13 / 10
  storeRetryCount := 0
  itemSizeLimit := 0
  consistentHashEnabled := false
  binaryProtocolEnabled := false
  connectTimeout := 0

/-- how a serializer ended: its return code, the buffer it left, an exception it threw -/
structure SerOut where
  ok : Bool
  buf : Option Bytes
  exception : Bool

/-- how a decoder ended; `value` is what it left in its result argument -/
structure DecOut where
  ok : Bool
  value : Zval
  exception : Bool

/-- `ZSTD_getFrameContentSize` -/
inductive FrameSize where
  | error | unknown | size (n : Nat)
  deriving DecidableEq

/-- what a decompressor wrote into a buffer of `cap` bytes -/
abbrev Written (cap : Nat) := {b : Bytes // b.length ≤ cap}

structure Env where
  build : Build
  ini : Ini
  zend : Zend
  phpVarSerialize : Zval → SerOut
  igbinarySerialize : Zval → SerOut
  phpJsonEncode : Zval → SerOut
  msgpackSerialize : Zval → SerOut
  phpVarUnserialize : Bytes → DecOut
  igbinaryUnserialize : Bytes → DecOut
  phpJsonDecode : (assoc : Bool) → Bytes → DecOut
  msgpackUnserialize : Bytes → DecOut
  /-- no bytes: `fastlz_compress` returned 0 -/
  fastlzCompress : Bytes → Bytes
  zstdCompress : (cap : Nat) → (level : Int64) → Bytes → Option Bytes
  zlibCompress2 : (cap : Nat) → (level : Int64) → Bytes → Option Bytes
  /-- no bytes: `fastlz_decompress` returned 0 -/
  fastlzDecompress : Bytes → (cap : Nat) → Written cap
  zstdFrameContentSize : Bytes → FrameSize
  zstdDecompress : Bytes → (cap : Nat) → Option (Written cap)
  zlibUncompress : Bytes → (cap : Nat) → Option (Written cap)
  /-- what fresh memory holds -/
  uninit : Nat → UInt8

/-! ## client state -/

/-- `set_udf_flags`: `-1`, or a word of 16 bits -/
structure UdfFlags where
  val : Int
  ge : -1 ≤ val
  le : val ≤ memcValUserFlagsMax

/-- no flags of the user -/
def UdfFlags.none : UdfFlags := ⟨-1, by decide, by decide⟩

/-- `php_memc_user_data_t` -/
structure UserData where
  isPersistent : Bool
  compressionEnabled : Bool
  encodingEnabled : Bool
  serializer : SerializerType
  compressionType : CompressionType
  compressionLevel : Int64
  storeRetryCount : Int64
  setUdfFlags : UdfFlags
  itemSizeLimit : Int64
  hasSaslData : Bool

/-- the user data of a new object -/
def newUserData (ini : Ini) (isPersistent : Bool) : UserData where
  isPersistent := isPersistent
  compressionEnabled := true
  encodingEnabled := false
  serializer := ini.serializerType
  compressionType := ini.compressionType
  compressionLevel := ini.compressionLevel
  storeRetryCount := ini.storeRetryCount
  setUdfFlags := .none
  itemSizeLimit := ini.itemSizeLimit
  hasSaslData := false

/-- `memcached_behavior` -/
inductive Behavior where
  | noBlock | tcpNodelay | hash | ketama | socketSendSize | socketRecvSize | cacheLookups
  | supportCas | pollTimeout | distribution | bufferRequests | userData | sortHosts | verifyKey
  | connectTimeout | retryTimeout | ketamaWeighted | ketamaHash | binaryProtocol | sndTimeout
  | rcvTimeout | serverFailureLimit | ioMsgWatermark | ioBytesWatermark | ioKeyPrefetch
  | hashWithPrefixKey | noreply | useUdp | autoEjectHosts | numberOfReplicas
  | randomizeReplicaRead | cork | tcpKeepalive | tcpKeepidle | loadFromFile
  | removeFailedServers | deadTimeout | serverTimeoutLimit
  deriving DecidableEq, Repr

/-- a key prefix: libmemcached refuses one that leaves no room for keys -/
structure Prefix where
  bytes : Bytes
  le : bytes.length ≤ 250

/-- `memcached_result_st`; `missing n` is a NULL value pointer with length `n` -/
inductive ResultValue where
  | bytes (b : Bytes)
  | missing (n : Nat)
  deriving DecidableEq, Repr

structure Result where
  key : Bytes
  value : ResultValue
  flags : Flags
  cas : UInt64
  deriving DecidableEq, Repr

/-- the results of the last fetch request not read yet, each with the code that comes with it,
and the code of the end -/
structure Stream where
  pending : List (Status × Result)
  last : Status
  deriving DecidableEq, Repr

/-- `memcached_st` -/
structure Memc where
  userData : UserData
  serverCount : Nat
  behavior : Behavior → UInt64
  prefixKey : Option Prefix
  stream : Stream

/-- `php_memc_object_t`, and `EG(exception)` -/
structure State where
  memc : Memc
  isPristine : Bool
  rescode : Status
  memcErrno : Int
  exception : Bool

/-! ## requests -/

/-- the libmemcached functions that store a payload -/
inductive StoreFn where
  | set | add | replace | append | prepend
  deriving DecidableEq, Repr

inductive CounterFn where
  | increment | decrement
  deriving DecidableEq, Repr

/-- the requests; each is made on a handle -/
inductive Call where
  | store (memc : Memc) (fn : StoreFn) (key payload : Bytes) (expiration : Int64) (flags : Flags)
  | storeByKey (memc : Memc) (fn : StoreFn) (serverKey key payload : Bytes) (expiration : Int64)
      (flags : Flags)
  | touch (memc : Memc) (key : Bytes) (expiration : Int64)
  | touchByKey (memc : Memc) (serverKey key : Bytes) (expiration : Int64)
  | cas (memc : Memc) (key payload : Bytes) (expiration : Int64) (flags : Flags) (cas : UInt64)
  | casByKey (memc : Memc) (serverKey key payload : Bytes) (expiration : Int64) (flags : Flags)
      (cas : UInt64)
  | mget (memc : Memc) (keys : List Bytes)
  | mgetByKey (memc : Memc) (serverKey : Bytes) (keys : List Bytes)
  | delete (memc : Memc) (key : Bytes) (expiration : Int64)
  | deleteByKey (memc : Memc) (serverKey key : Bytes) (expiration : Int64)
  | counterByKey (memc : Memc) (fn : CounterFn) (serverKey key : Bytes) (offset : UInt64)
  | counterWithInitial (memc : Memc) (fn : CounterFn) (key : Bytes) (offset initial : UInt64)
      (expiration : Int64)
  | counterWithInitialByKey (memc : Memc) (fn : CounterFn) (serverKey key : Bytes)
      (offset initial : UInt64) (expiration : Int64)
  | lastErrorErrno (memc : Memc)
  | quit (memc : Memc)
  | behaviorSet (memc : Memc) (flag : Behavior) (data : UInt64)
  | warning (text : String)
  | cacheCallback (object : State) (withCas : Bool) (key : Bytes) (value : Zval)
  | resultCallback (object : State) (item : HashTable)

/-- how a cache callback ended: whether it could be called, whether its result is true, what its
reference arguments hold, and the object it was given -/
structure CacheCallbackAns where
  ran : Bool
  isTrue : Bool
  value : Zval
  expiration : Zval
  object : State

/-- how a result callback ended: whether it could be called, how many results it fetched itself,
and the object it was given (it starts no fetch request of its own on it) -/
structure ResultCallbackAns where
  ran : Bool
  fetched : Nat
  object : State

def Ans : Call → Type
  | .mget .. | .mgetByKey .. => Status × Stream
  | .counterByKey .. | .counterWithInitial .. | .counterWithInitialByKey .. =>
    Status × Option UInt64
  | .lastErrorErrno .. => Int
  | .quit .. => Unit
  | .behaviorSet .. => Status × (Behavior → UInt64)
  -- whether an error handler of the user has thrown
  | .warning .. => Bool
  | .cacheCallback .. => CacheCallbackAns
  | .resultCallback .. => ResultCallbackAns
  | _ => Status

/-- why nothing after it runs: an `E_ERROR`, or a NULL pointer read -/
inductive Abort where
  | fatal (text : String)
  | nullDeref
  deriving DecidableEq, Repr

abbrev MemcM := Cmd Call Ans Abort State

abbrev ask (c : Call) : MemcM (Ans c) := Cmd.req c

/-- `php_error_docref(NULL, E_WARNING, ..)` -/
def phpWarning (text : String) : MemcM Unit := do
  let thrown ← ask (.warning text)
  Cmd.modify fun s => { s with exception := s.exception || thrown }

/-- `memcached_behavior_get` -/
def memcachedBehaviorGet (memc : Memc) (flag : Behavior) : UInt64 := memc.behavior flag

/-- `memcached_behavior_set` -/
def memcachedBehaviorSet (flag : Behavior) (data : UInt64) : MemcM Status := do
  let s ← Cmd.get
  let r ← ask (.behaviorSet s.memc flag data)
  Cmd.modify fun s => { s with memc := { s.memc with behavior := r.2 } }
  pure r.1

/-- `memcached_quit`: results not read yet are gone -/
def memcachedQuit : MemcM Unit := do
  let s ← Cmd.get
  let () ← ask (.quit s.memc)
  Cmd.modify fun s => { s with memc := { s.memc with stream := ⟨[], .notfound⟩ } }

/-! ## status of the object -/

/-- `s_memc_set_status` -/
def sMemcSetStatus (status : Status) (memcErrno : Int) : MemcM Unit :=
  Cmd.modify fun s => { s with rescode := status, memcErrno := memcErrno }

/-- `s_memc_status_handle_result_code`, true for `SUCCESS` -/
def sMemcStatusHandleResultCode (status : Status) : MemcM Bool := do
  sMemcSetStatus status 0
  if sMemcachedReturnIsError status true then
    let s ← Cmd.get
    let errno ← ask (.lastErrorErrno s.memc)
    Cmd.modify fun s => { s with memcErrno := errno }
    pure false
  else pure true

/-- `s_memc_status_has_error` -/
def sMemcStatusHasError (s : State) : Bool := sMemcachedReturnIsError s.rescode true

/-! ## the smallest setting -/

/-- PHP without numeric strings, objects and doubles -/
def plainZend : Zend where
  dtoa _ := (false, ascii ['0'], 1)
  strtod _ := ⟨0⟩
  castOverflow _ := 2 ^ 63
  text _ := []
  toLong _ := 0
  truth _ := true
  lvalWord _ := 0

/-- a serializer that knows `null` alone -/
def nullSerializer : Zval → SerOut
  | .null => ⟨true, some (ascii ['N', ';']), false⟩
  | _ => ⟨false, none, false⟩

/-- a build without optional parts, whose compressors give up on every input -/
def plainEnv : Env where
  build := ⟨false, false, false, false, false⟩
  ini := iniDefaults
  zend := plainZend
  phpVarSerialize := nullSerializer
  igbinarySerialize := nullSerializer
  phpJsonEncode := nullSerializer
  msgpackSerialize := nullSerializer
  phpVarUnserialize b := ⟨b == ascii ['N', ';'], .null, false⟩
  igbinaryUnserialize b := ⟨b == ascii ['N', ';'], .null, false⟩
  phpJsonDecode _ b := ⟨b == ascii ['N', ';'], .null, false⟩
  msgpackUnserialize b := ⟨b == ascii ['N', ';'], .null, false⟩
  fastlzCompress _ := []
  zstdCompress _ _ _ := none
  zlibCompress2 _ _ _ := none
  fastlzDecompress _ cap := ⟨[], Nat.zero_le cap⟩
  zstdFrameContentSize _ := .error
  zstdDecompress _ _ := none
  zlibUncompress _ _ := none
  uninit _ := 0

/-- a handle as `memcached(NULL, 0)` returns it, with `servers` servers added -/
def newMemc (ud : UserData) (servers : Nat) : Memc where
  userData := ud
  serverCount := servers
  behavior _ := 0
  prefixKey := none
  stream := ⟨[], .notfound⟩

/-- a new object without persistent id -/
def newObject (ini : Ini) (servers : Nat) : State where
  memc := newMemc (newUserData ini false) servers
  isPristine := true
  rescode := .success
  memcErrno := 0
  exception := false

/-- every request ends with `NO_SERVERS`; no callback can be run -/
def noServers : Handler Call Ans Unit
  | .store .., _ => (.noServers, ())
  | .storeByKey .., _ => (.noServers, ())
  | .touch .., _ => (.noServers, ())
  | .touchByKey .., _ => (.noServers, ())
  | .cas .., _ => (.noServers, ())
  | .casByKey .., _ => (.noServers, ())
  | .mget .., _ => ((.noServers, ⟨[], .notfound⟩), ())
  | .mgetByKey .., _ => ((.noServers, ⟨[], .notfound⟩), ())
  | .delete .., _ => (.noServers, ())
  | .deleteByKey .., _ => (.noServers, ())
  | .counterByKey .., _ => ((.noServers, none), ())
  | .counterWithInitial .., _ => ((.noServers, none), ())
  | .counterWithInitialByKey .., _ => ((.noServers, none), ())
  | .lastErrorErrno _, _ => ((0 : Int), ())
  | .quit _, _ => ((), ())
  | .behaviorSet memc _ _, _ => ((.success, memc.behavior), ())
  | .warning _, _ => (false, ())
  | .cacheCallback object _ _ value, _ => (⟨false, false, value, .null, object⟩, ())
  | .resultCallback object _, _ => (⟨false, 0, object⟩, ())

instance (c : Call) : Nonempty (Ans c) := ⟨(noServers c ()).1⟩

end PhpMemcached
