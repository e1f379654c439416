import PhpMemcached.Ops

/-!
# The options of a client

* `OwnOption`                   the extension's own options; every other number is passed on to
                                libmemcached;
* `OptionCall`, `OptionM`       the further requests of the option methods;
* `memcachedGetOption`, `phpMemcSetOption`, `memcachedSetOption`, `memcachedSetOptions`;
* `SetCall.runs`                what a call does entry by entry;
* `EntryRun.AllOrNothing`       FALSE changes no option, TRUE only the one that was set;
* `EntryRun.Faithful`           when it is so (`setOption_allOrNothing_iff`).
-/

namespace PhpMemcached
open Ascii Requests

/-! ## numbers -/

/-- the extension's own options, `MEMC_OPT_*` -/
inductive OwnOption where
  | compression | prefixKey | serializer | compressionType | storeRetryCount | userFlags
  | compressionLevel | itemSizeLimit
  deriving DecidableEq, Repr

def OwnOption.number : OwnOption → Int64
  | .compression => -1001
  | .prefixKey => -1002
  | .serializer => -1003
  | .compressionType => -1004
  | .storeRetryCount => -1005
  | .userFlags => -1006
  | .compressionLevel => -1007
  | .itemSizeLimit => -1008

/-- the own option of this number -/
def ownOption? (option : Int64) : Option OwnOption :=
  [OwnOption.compression, .prefixKey, .serializer, .compressionType, .storeRetryCount, .userFlags,
    .compressionLevel, .itemSizeLimit].find? fun o => o.number == option

theorem ownOption?_eq_some_iff {option : Int64} {o : OwnOption} :
    ownOption? option = some o ↔ o.number = option := by
  constructor
  · exact fun h => eq_of_beq (List.find?_some (p := fun o : OwnOption => o.number == option) h)
  · rintro rfl
    cases o <;> rfl

/-- the behaviours in the order of their numbers, below `MEMCACHED_BEHAVIOR_MAX` -/
def behaviors : List Behavior :=
  [.noBlock, .tcpNodelay, .hash, .ketama, .socketSendSize, .socketRecvSize, .cacheLookups,
    .supportCas, .pollTimeout, .distribution, .bufferRequests, .userData, .sortHosts, .verifyKey,
    .connectTimeout, .retryTimeout, .ketamaWeighted, .ketamaHash, .binaryProtocol, .sndTimeout,
    .rcvTimeout, .serverFailureLimit, .ioMsgWatermark, .ioBytesWatermark, .ioKeyPrefetch,
    .hashWithPrefixKey, .noreply, .useUdp, .autoEjectHosts, .numberOfReplicas,
    .randomizeReplicaRead, .cork, .tcpKeepalive, .tcpKeepidle, .loadFromFile,
    .removeFailedServers, .deadTimeout, .serverTimeoutLimit]

/-- `(memcached_behavior) option`: the enumeration has 32 bits -/
def behaviorFlag (option : Int64) : UInt32 := option.toUInt64.toUInt32

/-- the behaviour of a number, if it is below `MEMCACHED_BEHAVIOR_MAX` -/
def behavior? (flag : UInt32) : Option Behavior := behaviors[flag.toNat]?

def SerializerType.code : SerializerType → Int64
  | .php => 1
  | .igbinary => 2
  | .json => 3
  | .jsonArray => 4
  | .msgpack => 5

def CompressionType.code : CompressionType → Int64
  | .zlib => 1
  | .fastlz => 2
  | .zstd => 3

/-- the serializer of this number in this build -/
def Build.serializer? (build : Build) (lval : Int64) : Option SerializerType :=
  if build.haveIgbinary = true ∧ lval = 2 then some .igbinary
  else if build.haveJson = true ∧ lval = 3 then some .json
  else if build.haveJson = true ∧ lval = 4 then some .jsonArray
  else if build.haveMsgpack = true ∧ lval = 5 then some .msgpack
  else if lval = 1 then some .php
  else none

/-- the compression type of this number in this build -/
def Build.compressionType? (build : Build) (lval : Int64) : Option CompressionType :=
  if lval = 2 then some .fastlz
  else if build.haveZstd = true ∧ lval = 3 then some .zstd
  else if lval = 1 then some .zlib
  else none

/-! ## the methods -/

/-- the functions `memcached_behavior_set_*` -/
inductive HashFn where
  | keyHash | distributionHash | distribution
  deriving DecidableEq, Repr

inductive OptionCall where
  /-- `memcached_callback_set` of `MEMCACHED_CALLBACK_PREFIX_KEY`, with a C string or NULL -/
  | callbackSet (memc : Memc) (key : Option Bytes)
  | behaviorSetHash (memc : Memc) (fn : HashFn) (data : UInt64)

def OptionAns : OptionCall → Type
  | .callbackSet .. => Status × Option Prefix
  | _ => Status × (Behavior → UInt64)

abbrev OptionM := Cmd (Call ⊕ OptionCall) (Sum.elim Ans OptionAns) Abort State

/-- `memcached_callback_get` of `MEMCACHED_CALLBACK_PREFIX_KEY` -/
def memcachedCallbackGet (memc : Memc) : Option Bytes :=
  memc.prefixKey.map fun p => cString p.bytes

/-- `memcached_callback_set` of `MEMCACHED_CALLBACK_PREFIX_KEY` -/
def memcachedCallbackSet (key : Option Bytes) : OptionM Status := do
  let s ← Cmd.get
  let r ← Cmd.req (ι := Call ⊕ OptionCall) (Sum.inr (.callbackSet s.memc key))
  Cmd.modify fun s => { s with memc := { s.memc with prefixKey := r.2 } }
  pure r.1

/-- `memcached_behavior_set_key_hash` and its like, the status ignored -/
def memcachedBehaviorSetHash (fn : HashFn) (data : UInt64) : OptionM Unit := do
  let s ← Cmd.get
  let r ← Cmd.req (ι := Call ⊕ OptionCall) (Sum.inr (.behaviorSetHash s.memc fn data))
  Cmd.modify fun s => { s with memc := { s.memc with behavior := r.2 } }

/-- `HASH_DEFAULT` twice, `DISTRIBUTION_MODULA` -/
def resetHashes : OptionM Unit := do
  memcachedBehaviorSetHash .keyHash 0
  memcachedBehaviorSetHash .distributionHash 0
  memcachedBehaviorSetHash .distribution 0

def setUserData (f : UserData → UserData) : OptionM Unit :=
  Cmd.modify fun s => { s with memc := { s.memc with userData := f s.memc.userData } }

/-- `intern->rescode = status` -/
def setRescode (status : Status) : OptionM Unit :=
  Cmd.modify fun s => { s with rescode := status }

/-- a warning, and no success -/
def warnFalse (text : String) : OptionM Bool := do
  Cmd.inl (phpWarning text)
  pure false

section
variable (env : Env) (memcachedStrerror : Memc → Status → String)
  (unknownBehavior : UInt32 → UInt64)

/-- `Memcached::getOption`; `unknownBehavior` is what `memcached_behavior_get` returns for a number
that is none of a behaviour -/
def memcachedGetOption (option : Int64) : MemcM Zval := do
  let s ← Cmd.get
  match ownOption? option with
  | some .compressionType => pure (.long s.memc.userData.compressionType.code)
  | some .compressionLevel => pure (.long s.memc.userData.compressionLevel)
  | some .compression => pure (.bool s.memc.userData.compressionEnabled)
  | some .itemSizeLimit => pure (.long s.memc.userData.itemSizeLimit)
  | some .prefixKey => pure (.str ((memcachedCallbackGet s.memc).getD []))
  | some .serializer => pure (.long s.memc.userData.serializer.code)
  | some .userFlags => pure (.long (Int64.ofInt s.memc.userData.setUdfFlags.val))
  | some .storeRetryCount => pure (.long s.memc.userData.storeRetryCount)
  | none =>
    if (option = 4 ∨ option = 5) ∧ s.memc.serverCount = 0 then do
      phpWarning "no servers defined"
      pure .null
    else
      match behavior? (behaviorFlag option) with
      | some flag => pure (.long (memcachedBehaviorGet s.memc flag).toInt64)
      | none => pure (.long (unknownBehavior (behaviorFlag option)).toInt64)

/-- the end of a request for a behaviour -/
def behaviorDone (rc : Status) : OptionM Bool := do
  let ok ← Cmd.inl (sMemcStatusHandleResultCode rc)
  if ok then pure true
  else do
    let s ← Cmd.get
    warnFalse ("error setting memcached option: " ++ memcachedStrerror s.memc rc)

/-- the cases of `php_memc_set_option` for the extension's own options -/
def setOwnOption (o : OwnOption) (value : Zval) : OptionM Bool :=
  let lval := zvalGetLong env.zend value
  match o with
  | .compression => do
    setUserData fun ud => { ud with compressionEnabled := lval != 0 }
    pure true
  | .compressionType =>
    match env.build.compressionType? lval with
    | some type => do
      setUserData fun ud => { ud with compressionType := type }
      pure true
    | none => do
      setRescode .invalidArguments
      pure false
  | .compressionLevel => do
    setUserData fun ud => { ud with compressionLevel := lval }
    pure true
  | .itemSizeLimit =>
    if lval < 0 then warnFalse "ITEM_SIZE_LIMIT must be >= 0"
    else do
      setUserData fun ud => { ud with itemSizeLimit := lval }
      pure true
  | .prefixKey => do
    let str := zvalGetString env.zend value
    let rc ← memcachedCallbackSet (if str.length = 0 then none else some (cString str))
    if rc = .badKeyProvided then do
      setRescode .invalidArguments
      warnFalse "bad key provided"
    else pure true
  | .serializer =>
    match env.build.serializer? lval with
    | some type => do
      setUserData fun ud => { ud with serializer := type }
      pure true
    | none => do
      setUserData fun ud => { ud with serializer := .php }
      setRescode .invalidArguments
      warnFalse "invalid serializer provided"
  | .userFlags =>
    if hneg : lval.toInt < 0 then do
      setUserData fun ud => { ud with setUdfFlags := .none }
      pure true
    else if hmax : memcValUserFlagsMax < lval.toInt then
      warnFalse "MEMC_OPT_USER_FLAGS must be < 65535"
    else do
      setUserData fun ud => { ud with setUdfFlags :=
        ⟨lval.toInt, Int.le_trans (by decide) (Int.not_lt.mp hneg), Int.not_lt.mp hmax⟩ }
      pure true
  | .storeRetryCount => do
    setUserData fun ud => { ud with storeRetryCount := lval }
    pure true

/-- its case `MEMCACHED_BEHAVIOR_KETAMA_WEIGHTED`: switching it off leaves hashes and distribution,
which are reset here -/
def setKetamaWeighted (lval : Int64) : OptionM Bool := do
  let rc ← Cmd.inl (memcachedBehaviorSet .ketamaWeighted lval.toUInt64)
  let ok ← behaviorDone memcachedStrerror rc
  if ok then do
    Cmd.when (lval == 0) resetHashes
    pure true
  else pure false

/-- its default case -/
def setBehaviorOption (option lval : Int64) : OptionM Bool :=
  if option < 0 then behaviorDone memcachedStrerror .invalidArguments
  else
    match behavior? (behaviorFlag option) with
    | none => behaviorDone memcachedStrerror .invalidArguments
    | some flag => do
      let s ← Cmd.get
      -- setting a behaviour anew may shut down all connections
      if memcachedBehaviorGet s.memc flag = lval.toUInt64 then pure true
      else do
        let rc ← Cmd.inl (memcachedBehaviorSet flag lval.toUInt64)
        behaviorDone memcachedStrerror rc

/-- `php_memc_set_option` -/
def phpMemcSetOption (option : Int64) (value : Zval) : OptionM Bool :=
  match ownOption? option with
  | some o => setOwnOption env o value
  | none =>
    if option = 16 then setKetamaWeighted memcachedStrerror (zvalGetLong env.zend value)
    else setBehaviorOption memcachedStrerror option (zvalGetLong env.zend value)

/-- `Memcached::setOption` -/
def memcachedSetOption (option : Int64) (value : Zval) : OptionM Zval := do
  let ok ← phpMemcSetOption env memcachedStrerror option value
  pure (.bool ok)

/-- one entry of the array given to `setOptions` -/
def setOptionsEntry (entry : ArrKey × Zval) : OptionM Bool :=
  match entry.1 with
  | .str _ => warnFalse "invalid configuration option"
  | .int keyIndex => phpMemcSetOption env memcachedStrerror keyIndex entry.2

/-- the loop of `setOptions` -/
def setOptionsLoop : HashTable → Bool → OptionM Bool
  | [], ok => pure ok
  | entry :: options, ok => do
    let set ← setOptionsEntry env memcachedStrerror entry
    setOptionsLoop options (set && ok)

/-- `Memcached::setOptions` -/
def memcachedSetOptions (options : HashTable) : OptionM Zval := do
  let ok ← setOptionsLoop env memcachedStrerror options true
  pure (.bool ok)

end

/-! ## what a call does -/

/-- an own option is the same in both states -/
def State.SameOwn (s s' : State) : OwnOption → Prop
  | .compression => s'.memc.userData.compressionEnabled = s.memc.userData.compressionEnabled
  | .prefixKey => s'.memc.prefixKey = s.memc.prefixKey
  | .serializer => s'.memc.userData.serializer = s.memc.userData.serializer
  | .compressionType => s'.memc.userData.compressionType = s.memc.userData.compressionType
  | .storeRetryCount => s'.memc.userData.storeRetryCount = s.memc.userData.storeRetryCount
  | .userFlags => s'.memc.userData.setUdfFlags = s.memc.userData.setUdfFlags
  | .compressionLevel => s'.memc.userData.compressionLevel = s.memc.userData.compressionLevel
  | .itemSizeLimit => s'.memc.userData.itemSizeLimit = s.memc.userData.itemSizeLimit

/-- no option differs, but perhaps `but` -/
structure SameBut (but : Option OwnOption) (s s' : State) : Prop where
  behavior : s'.memc.behavior = s.memc.behavior
  own : ∀ o, but ≠ some o → s.SameOwn s' o

/-- the value an own option has -/
def State.optionValue (s : State) : OwnOption → Zval
  | .compression => .bool s.memc.userData.compressionEnabled
  | .prefixKey => .str ((memcachedCallbackGet s.memc).getD [])
  | .serializer => .long s.memc.userData.serializer.code
  | .compressionType => .long s.memc.userData.compressionType.code
  | .storeRetryCount => .long s.memc.userData.storeRetryCount
  | .userFlags => .long (Int64.ofInt s.memc.userData.setUdfFlags.val)
  | .compressionLevel => .long s.memc.userData.compressionLevel
  | .itemSizeLimit => .long s.memc.userData.itemSizeLimit

/-- an entry of an option call: what it was given, and what it came to -/
structure EntryRun (σ : Type) where
  entry : ArrKey × Zval
  before : State
  world : σ
  after : Outcome Abort State Bool × σ

/-- a call that sets options -/
inductive SetCall where
  | setOption (option : Int64) (value : Zval)
  | setOptions (options : HashTable)

def SetCall.entries : SetCall → HashTable
  | .setOption option value => [(.int option, value)]
  | .setOptions options => options

def SetCall.run (env : Env) (memcachedStrerror : Memc → Status → String) : SetCall → OptionM Zval
  | .setOption option value => memcachedSetOption env memcachedStrerror option value
  | .setOptions options => memcachedSetOptions env memcachedStrerror options

section
variable (env : Env) (memcachedStrerror : Memc → Status → String)
  (unknownBehavior : UInt32 → UInt64) {σ : Type}
  (h : Handler (Call ⊕ OptionCall) (Sum.elim Ans OptionAns) σ)

/-- the entries of a call, one after another -/
def entryRuns : HashTable → State → σ → List (EntryRun σ)
  | [], _, _ => []
  | entry :: options, s, w =>
    let after := Cmd.exec h (setOptionsEntry env memcachedStrerror entry) s w
    ⟨entry, s, w, after⟩ :: entryRuns options after.1.state after.2

def SetCall.runs (c : SetCall) (s : State) (w : σ) : List (EntryRun σ) :=
  entryRuns env memcachedStrerror h c.entries s w

/-- a setter of libmemcached changes nothing when it fails; the prefix is set when it does not -/
structure FailsClean : Prop where
  behavior : ∀ memc flag data w,
    let r : Status × (Behavior → UInt64) := (h (.inl (.behaviorSet memc flag data)) w).1
    sMemcachedReturnIsError r.1 true = true → r.2 = memc.behavior
  callback : ∀ memc key w,
    let r : Status × Option Prefix := (h (.inr (.callbackSet memc key)) w).1
    sMemcachedReturnIsError r.1 true = true → r.2 = memc.prefixKey
  callbackSet : ∀ memc key w,
    let r : Status × Option Prefix := (h (.inr (.callbackSet memc key)) w).1
    sMemcachedReturnIsError r.1 true = false → r.2.map Prefix.bytes = key

/-- the prefix is given as a C string, NULL for the empty one -/
def prefixArg (str : Bytes) : Option Bytes := if str.length = 0 then none else some (cString str)

/-- a prefix that is refused as a bad key, or was there before if it is refused otherwise, or has
no NUL -/
def PrefixTaken (value : Zval) (s : State) (w : σ) : Prop :=
  let str := zvalGetString env.zend value
  let rc : Status := (h (.inr (.callbackSet s.memc (prefixArg str))) w).1.1
  rc = .badKeyProvided ∨
    if sMemcachedReturnIsError rc true then (memcachedCallbackGet s.memc).getD [] = str
    else 0 ∉ str

/-- when an entry does what it should; a number that is no serializer's only if the serializer is
PHP's already -/
structure EntryRun.Faithful (r : EntryRun σ) : Prop where
  serializer : r.entry.1 = .int OwnOption.serializer.number →
    env.build.serializer? (zvalGetLong env.zend r.entry.2) = none →
      r.before.memc.userData.serializer = .php
  prefixKey : r.entry.1 = .int OwnOption.prefixKey.number →
    PrefixTaken env h r.entry.2 r.before r.world

/-! ## the own options -/

/-- `getOption` of an own option -/
theorem exec_memcachedGetOption (o : OwnOption) (s : State) (w : σ) :
    Cmd.exec h (Cmd.inl (memcachedGetOption unknownBehavior o.number)) s w =
      (.done (s.optionValue o) s, w) := by
  cases o <;> rfl

/-- the serializer of a number has this number -/
theorem code_of_serializer? {build : Build} {lval : Int64} {type : SerializerType}
    (ht : build.serializer? lval = some type) : type.code = lval := by
  unfold Build.serializer? at ht
  split_ifs at ht with h2 h3 h4 h5 h1 <;> cases ht
  · exact h2.2.symm
  · exact h3.2.symm
  · exact h4.2.symm
  · exact h5.2.symm
  · exact h1.symm

theorem code_of_compressionType? {build : Build} {lval : Int64} {type : CompressionType}
    (ht : build.compressionType? lval = some type) : type.code = lval := by
  unfold Build.compressionType? at ht
  split_ifs at ht with h2 h3 h1 <;> cases ht
  · exact h2.symm
  · exact h3.2.symm
  · exact h1.symm

section
variable {option : Int64} {value : Zval} {s s' : State} {w w' : σ} {o : OwnOption}

/-- the prefix after the request -/
theorem callbackGet_of_callbackSet (hh : FailsClean h) (str : Bytes) (s : State) (w : σ) :
    let r : Status × Option Prefix := (h (.inr (.callbackSet s.memc (prefixArg str))) w).1
    ((r.2.map fun p => cString p.bytes).getD [] = str ↔
      if sMemcachedReturnIsError r.1 true then (memcachedCallbackGet s.memc).getD [] = str
      else 0 ∉ str) := by
  intro r
  cases hrc : sMemcachedReturnIsError r.1 true with
  | true =>
    rw [hh.callback s.memc (prefixArg str) w hrc, if_pos rfl]
    rfl
  | false =>
    rw [if_neg Bool.false_ne_true, ← cString_eq_self_iff]
    have hset : r.2.map Prefix.bytes = prefixArg str := hh.callbackSet s.memc (prefixArg str) w hrc
    have hget : (r.2.map fun p => cString p.bytes) = (prefixArg str).map cString := by
      rw [← hset, Option.map_map]
      rfl
    rw [hget, prefixArg]
    split_ifs with hlen
    · rw [List.length_eq_zero_iff.mp hlen]
      exact iff_of_true rfl rfl
    · show cString (cString str) = str ↔ _
      rw [cString_cString]

/-- the prefix is asked for first -/
theorem exec_setOwnOption_prefixKey :
    Cmd.exec h (setOwnOption env .prefixKey value) s w =
      let r : Status × Option Prefix :=
        (h (.inr (.callbackSet s.memc (prefixArg (zvalGetString env.zend value)))) w).1
      Cmd.exec h (if r.1 = .badKeyProvided then do
          setRescode .invalidArguments
          warnFalse "bad key provided"
        else pure true : OptionM Bool) { s with memc := { s.memc with prefixKey := r.2 } }
        (h (.inr (.callbackSet s.memc (prefixArg (zvalGetString env.zend value)))) w).2 := rfl

theorem exec_behaviorDone (rc : Status) (s : State) (w : σ) :
    ∃ s' w', Cmd.exec h (behaviorDone memcachedStrerror rc) s w =
      (.done (!sMemcachedReturnIsError rc true) s', w') ∧ s'.memc = s.memc := by
  unfold behaviorDone sMemcStatusHandleResultCode
  cases hrc : sMemcachedReturnIsError rc true with
  | true => exact ⟨_, _, rfl, rfl⟩
  | false => exact ⟨_, _, rfl, rfl⟩

/-- a behaviour is set, and stays where that fails -/
theorem exec_behaviorSet (flag : Behavior) (data : UInt64) (s : State) (w : σ) :
    ∃ rc s' w', Cmd.exec h (Cmd.inl (memcachedBehaviorSet flag data)) s w = (.done rc s', w') ∧
      (FailsClean h → sMemcachedReturnIsError rc true = true → s'.memc = s.memc) := by
  refine ⟨_, _, _, rfl, fun hh hrc => ?_⟩
  have hsame := hh.behavior s.memc flag data w hrc
  exact congrArg (fun b => { s.memc with behavior := b }) hsame

/-- a request for a behaviour and its end -/
theorem exec_behaviorSet_behaviorDone (flag : Behavior) (data : UInt64) (s : State) (w : σ) :
    ∃ ok s' w', Cmd.exec h (Cmd.inl (memcachedBehaviorSet flag data) >>=
        behaviorDone memcachedStrerror) s w = (.done ok s', w') ∧
      (FailsClean h → ok = false → s'.memc = s.memc) := by
  obtain ⟨rc, s₁, w₁, hset, hsame⟩ := exec_behaviorSet h flag data s w
  obtain ⟨s', w', hdone, hmemc⟩ := exec_behaviorDone memcachedStrerror h rc s₁ w₁
  refine ⟨_, s', w', (Cmd.exec_bind_done hset).trans hdone, fun hh hfalse => ?_⟩
  rw [Bool.not_eq_false'] at hfalse
  exact hmemc.trans (hsame hh hfalse)

/-- what is not the extension's own: FALSE leaves the handle alone -/
theorem exec_setKetamaWeighted (lval : Int64) (s : State) (w : σ) :
    ∃ ok s' w', Cmd.exec h (setKetamaWeighted memcachedStrerror lval) s w = (.done ok s', w') ∧
      (FailsClean h → ok = false → s'.memc = s.memc) := by
  obtain ⟨ok, s₁, w₁, hset, hsame⟩ :=
    exec_behaviorSet_behaviorDone memcachedStrerror h .ketamaWeighted lval.toUInt64 s w
  have hrun : setKetamaWeighted memcachedStrerror lval =
      ((Cmd.inl (memcachedBehaviorSet .ketamaWeighted lval.toUInt64) >>=
        behaviorDone memcachedStrerror) >>= fun ok => if ok then do
          Cmd.when (lval == 0) resetHashes
          pure true
        else pure false) := (bind_assoc _ _ _).symm
  rw [hrun, Cmd.exec_bind_done hset]
  cases ok with
  | false => exact ⟨false, s₁, w₁, rfl, hsame⟩
  | true =>
    cases lval == 0 with
    | true => exact ⟨true, _, _, rfl, fun _ => nofun⟩
    | false => exact ⟨true, _, _, rfl, fun _ => nofun⟩

theorem exec_setBehaviorOption (option lval : Int64) (s : State) (w : σ) :
    ∃ ok s' w', Cmd.exec h (setBehaviorOption memcachedStrerror option lval) s w =
      (.done ok s', w') ∧ (FailsClean h → ok = false → s'.memc = s.memc) := by
  have hinvalid : ∃ ok s' w', Cmd.exec h (behaviorDone memcachedStrerror .invalidArguments) s w =
      (.done ok s', w') ∧ (FailsClean h → ok = false → s'.memc = s.memc) := by
    obtain ⟨s', w', hdone, hmemc⟩ := exec_behaviorDone memcachedStrerror h .invalidArguments s w
    exact ⟨_, s', w', hdone, fun _ _ => hmemc⟩
  unfold setBehaviorOption
  split_ifs with hneg
  · exact hinvalid
  · cases behavior? (behaviorFlag option) with
    | none => exact hinvalid
    | some flag =>
      dsimp only
      rw [Cmd.exec_get_bind]
      split_ifs with hsame
      · exact ⟨true, s, w, rfl, fun _ => nofun⟩
      · exact exec_behaviorSet_behaviorDone memcachedStrerror h flag lval.toUInt64 s w

/-! ## all options -/

end

theorem exec_setOwnOption (o : OwnOption) (value : Zval) (s : State) (w : σ) :
    ∃ ok s' w', Cmd.exec h (setOwnOption env o value) s w = (.done ok s', w') := by
  cases o with
  | compression => exact ⟨_, _, _, rfl⟩
  | storeRetryCount => exact ⟨_, _, _, rfl⟩
  | compressionLevel => exact ⟨_, _, _, rfl⟩
  | prefixKey =>
    rw [exec_setOwnOption_prefixKey]
    dsimp only
    split_ifs <;> exact ⟨_, _, _, rfl⟩
  | compressionType =>
    unfold setOwnOption
    dsimp only
    cases env.build.compressionType? (zvalGetLong env.zend value) <;> exact ⟨_, _, _, rfl⟩
  | serializer =>
    unfold setOwnOption
    dsimp only
    cases env.build.serializer? (zvalGetLong env.zend value) <;> exact ⟨_, _, _, rfl⟩
  | userFlags =>
    unfold setOwnOption
    dsimp only
    split_ifs <;> exact ⟨_, _, _, rfl⟩
  | itemSizeLimit =>
    unfold setOwnOption
    dsimp only
    split_ifs <;> exact ⟨_, _, _, rfl⟩

/-- an entry does not stop -/
theorem exec_setOptionsEntry (entry : ArrKey × Zval) (s : State) (w : σ) :
    ∃ ok s' w', Cmd.exec h (setOptionsEntry env memcachedStrerror entry) s w =
      (.done ok s', w') := by
  obtain ⟨key, value⟩ := entry
  cases key with
  | str _ => exact ⟨_, _, _, rfl⟩
  | int option =>
    show ∃ ok s' w', Cmd.exec h (phpMemcSetOption env memcachedStrerror option value) s w =
      (.done ok s', w')
    unfold phpMemcSetOption
    cases ownOption? option with
    | none =>
      dsimp only
      split_ifs
      · obtain ⟨ok, s', w', hrun, _⟩ := exec_setKetamaWeighted memcachedStrerror h
          (zvalGetLong env.zend value) s w
        exact ⟨ok, s', w', hrun⟩
      · obtain ⟨ok, s', w', hrun, _⟩ := exec_setBehaviorOption memcachedStrerror h option
          (zvalGetLong env.zend value) s w
        exact ⟨ok, s', w', hrun⟩
    | some o => exact exec_setOwnOption env h o value s w

/-- the entry was set -/
def EntryRun.returned (r : EntryRun σ) : Bool :=
  match r.after.1 with
  | .done ok _ => ok
  | .stop .. => false

/-- the loop of `setOptions` goes through the entries -/
theorem exec_setOptionsLoop (options : HashTable) (ok : Bool) (s : State) (w : σ) :
    ∃ s' w', Cmd.exec h (setOptionsLoop env memcachedStrerror options ok) s w =
      (.done ((entryRuns env memcachedStrerror h options s w).all EntryRun.returned && ok) s', w') := by
  induction options generalizing ok s w with
  | nil => exact ⟨s, w, rfl⟩
  | cons entry options ih =>
    obtain ⟨set, s₁, w₁, hrun⟩ := exec_setOptionsEntry env memcachedStrerror h entry s w
    obtain ⟨s', w', hloop⟩ := ih (set && ok) s₁ w₁
    refine ⟨s', w', ?_⟩
    rw [setOptionsLoop, Cmd.exec_bind_done hrun, hloop, entryRuns, List.all_cons, hrun]
    refine congrArg (fun b => (Outcome.done b s', w')) ?_
    exact (Bool.and_left_comm _ set ok).trans (Bool.and_assoc set _ ok).symm

/-- a call returns TRUE if all its entries were set -/
theorem exec_setCall (c : SetCall) (s : State) (w : σ) :
    ∃ s' w', Cmd.exec h (c.run env memcachedStrerror) s w =
      (.done (.bool ((c.runs env memcachedStrerror h s w).all EntryRun.returned)) s', w') := by
  cases c with
  | setOption option value =>
    obtain ⟨ok, s', w', hrun⟩ :=
      exec_setOptionsEntry env memcachedStrerror h (.int option, value) s w
    refine ⟨s', w', ?_⟩
    have hset : Cmd.exec h (memcachedSetOption env memcachedStrerror option value) s w =
        (.done (.bool ok) s', w') := Cmd.exec_bind_done hrun
    refine hset.trans ?_
    rw [SetCall.runs, SetCall.entries, entryRuns, hrun]
    exact congrArg (fun b => (Outcome.done (Zval.bool b) s', w')) (Bool.and_true ok).symm
  | setOptions options =>
    obtain ⟨s', w', hloop⟩ := exec_setOptionsLoop env memcachedStrerror h options true s w
    rw [Bool.and_true] at hloop
    exact ⟨s', w', Cmd.exec_bind_done hloop⟩

end

/-! ## examples -/

/-- libmemcached takes every behaviour as it is, and prefixes that are short enough -/
def settingServer : Handler (Call ⊕ OptionCall) (Sum.elim Ans OptionAns) Unit
  | .inl c, w => noServers c w
  | .inr (.callbackSet memc key), w =>
    let r : Status × Option Prefix :=
      match key with
      | none => (.success, none)
      | some key =>
        if hlen : key.length ≤ 250 then (.success, some ⟨key, hlen⟩)
        else (.keyTooBig, memc.prefixKey)
    (r, w)
  | .inr (.behaviorSetHash memc _ _), w =>
    (((.success, memc.behavior) : Status × (Behavior → UInt64)), w)

theorem failsClean_settingServer : FailsClean settingServer where
  behavior _ _ _ _ _ := rfl
  callback memc key w := by
    intro r hr
    cases key with
    | none => cases hr
    | some key =>
      by_cases hlen : key.length ≤ 250
      · have hok : r = (.success, some ⟨key, hlen⟩) := dif_pos hlen
        rw [hok] at hr
        cases hr
      · have hbig : r = (.keyTooBig, memc.prefixKey) := dif_neg hlen
        rw [hbig]
  callbackSet memc key w := by
    intro r hr
    cases key with
    | none => rfl
    | some key =>
      by_cases hlen : key.length ≤ 250
      · have hok : r = (.success, some ⟨key, hlen⟩) := dif_pos hlen
        rw [hok]
        rfl
      · have hbig : r = (.keyTooBig, memc.prefixKey) := dif_neg hlen
        rw [hbig] at hr
        cases hr

/-- two entries: the prefix `a`, and compression off -/
def twoOptions : SetCall :=
  .setOptions [(.int (-1002), .str (ascii ['a'])), (.int (-1001), .bool false)]

end PhpMemcached
