import PhpMemcached.Options
import PhpMemcached.Lib.Steps

/-!
# Settings, from `php.ini` to the options of a client

* `Globals`, `IniSet`     the `memcached.*` settings and the changes of one of them;
* `onUpdateSerializer`, `onUpdateCompressionType`, `IniSet.onModify`   the handlers;
* `Globals.startUp`       the settings after a `php.ini`;
* `constructMemc`         what the constructor makes of them;
* `Settings`              the settings and the clients; `Settings.Next` what may happen to them;
* `Settings.Ok`           only what the build has is in use (`settings_ok`);
* `options_copied`        `setOptions` takes what `getOption` gives.
-/

namespace PhpMemcached
open Ascii Requests

/-! ## the settings -/

/-- the texts of numbers, as PHP reads them -/
structure IniParse where
  long : Bytes → Int64
  real : Bytes → Rat
  bool : Bytes → Bool

/-- the `memc` part of the module globals: a name is kept as it was given, NULL before the first -/
structure Globals where
  ini : Ini
  serializerName : Option Bytes
  compressionName : Option Bytes

/-- `SERIALIZER_DEFAULT` -/
def Build.serializerDefault (build : Build) : SerializerType :=
  if build.haveIgbinary then .igbinary else if build.haveMsgpack then .msgpack else .php

/-- `SERIALIZER_DEFAULT_NAME` -/
def Build.serializerDefaultName (build : Build) : Bytes :=
  if build.haveIgbinary then ascii ['i', 'g', 'b', 'i', 'n', 'a', 'r', 'y']
  else if build.haveMsgpack then ascii ['m', 's', 'g', 'p', 'a', 'c', 'k']
  else ascii ['p', 'h', 'p']

/-- `PHP_GINIT_FUNCTION` -/
def Build.globals (build : Build) : Globals where
  ini :=
    { serializerType := build.serializerDefault
      compressionType := .fastlz
      compressionLevel := 6
      compressionThreshold := 2000
      compressionFactor := 13 / 10
      storeRetryCount := 2
      itemSizeLimit := 0
      consistentHashEnabled := false
      binaryProtocolEnabled := false
      connectTimeout := 0 }
  serializerName := none
  compressionName := none

section
variable (build : Build) (parse : IniParse)

/-- the serializer of a name; the default one without a name -/
def Build.serializerNamed : Option Bytes → Option SerializerType
  | none => some build.serializerDefault
  | some value =>
    if cString value = ascii ['p', 'h', 'p'] then some .php
    else if build.haveIgbinary ∧ cString value = ascii ['i', 'g', 'b', 'i', 'n', 'a', 'r', 'y'] then
      some .igbinary
    else if build.haveJson ∧ cString value = ascii ['j', 's', 'o', 'n'] then some .json
    else if build.haveJson ∧
        cString value = ascii ['j', 's', 'o', 'n', '_', 'a', 'r', 'r', 'a', 'y'] then
      some .jsonArray
    else if build.haveMsgpack ∧ cString value = ascii ['m', 's', 'g', 'p', 'a', 'c', 'k'] then
      some .msgpack
    else none

/-- the compression type of a name; FastLZ without a name -/
def Build.compressionNamed : Option Bytes → Option CompressionType
  | none => some .fastlz
  | some value =>
    if cString value = ascii ['f', 'a', 's', 't', 'l', 'z'] then some .fastlz
    else if cString value = ascii ['z', 'l', 'i', 'b'] then some .zlib
    else if build.haveZstd ∧ cString value = ascii ['z', 's', 't', 'd'] then some .zstd
    else none

/-- `OnUpdateSerializer`; none for `FAILURE` -/
def onUpdateSerializer (newValue : Option Bytes) (g : Globals) : Option Globals :=
  match build.serializerNamed newValue with
  | some type =>
    some { g with ini := { g.ini with serializerType := type }, serializerName := newValue }
  | none => none

/-- `OnUpdateCompressionType` -/
def onUpdateCompressionType (newValue : Option Bytes) (g : Globals) : Option Globals :=
  match build.compressionNamed newValue with
  | some type =>
    some { g with ini := { g.ini with compressionType := type }, compressionName := newValue }
  | none => none

/-- a change of a `memcached.*` setting -/
inductive IniSet where
  | serializer (newValue : Option Bytes)
  | compressionType (newValue : Option Bytes)
  | compressionFactor (newValue : Bytes)
  | compressionLevel (newValue : Bytes)
  | compressionThreshold (newValue : Bytes)
  | storeRetryCount (newValue : Bytes)
  | itemSizeLimit (newValue : Bytes)
  | defaultConsistentHash (newValue : Bytes)
  | defaultBinaryProtocol (newValue : Bytes)
  | defaultConnectTimeout (newValue : Bytes)
  deriving DecidableEq

/-- the handler of the setting: `OnUpdateReal`, `OnUpdateLong`, `OnUpdateLongGEZero` and
`OnUpdateBool` are PHP's -/
def IniSet.onModify (g : Globals) : IniSet → Option Globals
  | .serializer newValue => onUpdateSerializer build newValue g
  | .compressionType newValue => onUpdateCompressionType build newValue g
  | .compressionFactor newValue =>
    some { g with ini := { g.ini with compressionFactor := parse.real newValue } }
  | .compressionLevel newValue =>
    some { g with ini := { g.ini with compressionLevel := parse.long newValue } }
  | .compressionThreshold newValue =>
    some { g with ini := { g.ini with compressionThreshold := parse.long newValue } }
  | .storeRetryCount newValue =>
    some { g with ini := { g.ini with storeRetryCount := parse.long newValue } }
  | .itemSizeLimit newValue =>
    if parse.long newValue < 0 then none
    else some { g with ini := { g.ini with itemSizeLimit := parse.long newValue } }
  | .defaultConsistentHash newValue =>
    some { g with ini := { g.ini with consistentHashEnabled := parse.bool newValue } }
  | .defaultBinaryProtocol newValue =>
    some { g with ini := { g.ini with binaryProtocolEnabled := parse.bool newValue } }
  | .defaultConnectTimeout newValue =>
    some { g with ini := { g.ini with connectTimeout := parse.long newValue } }

/-- `PHP_INI_BEGIN` to `PHP_INI_END`: the values that stand there -/
def iniEntries : List IniSet :=
  [.compressionType (some (ascii ['f', 'a', 's', 't', 'l', 'z'])),
    .compressionFactor (ascii ['1', '.', '3']), .compressionLevel (ascii ['3']),
    .compressionThreshold (ascii ['2', '0', '0', '0']),
    .serializer (some build.serializerDefaultName), .storeRetryCount (ascii ['0']),
    .itemSizeLimit (ascii ['0']), .defaultConsistentHash (ascii ['0']),
    .defaultBinaryProtocol (ascii ['0']), .defaultConnectTimeout (ascii ['0'])]

/-- a change that is refused leaves the settings -/
def Globals.apply (g : Globals) (set : IniSet) : Globals := (set.onModify build parse g).getD g

/-- the entries are registered one by one, with these values and those that `php.ini` has in their
place -/
def Globals.startUp (values : List IniSet) : Globals :=
  values.foldl (fun g set => g.apply build parse set) build.globals

end

/-! ## the clients -/

section
variable (env : Env) (memcachedStrerror : Memc → Status → String)

/-- a behaviour that a new client is to have -/
def setDefaultBehavior (flag : Behavior) (data : UInt64) (failed : String) : MemcM Unit := do
  let rc ← memcachedBehaviorSet flag data
  Cmd.when (rc != .success) do
    let s ← Cmd.get
    phpWarning (failed ++ memcachedStrerror s.memc rc)

/-- the constructor, from the user data of a new handle to the default behaviours -/
def constructMemc (ini : Ini) (isPersistent : Bool) : MemcM Unit := do
  Cmd.modify fun s => { s with memc := { s.memc with userData := newUserData ini isPersistent } }
  -- `MEMCACHED_DISTRIBUTION_CONSISTENT`
  Cmd.when ini.consistentHashEnabled
    (setDefaultBehavior memcachedStrerror .distribution 1 "Failed to turn on consistent hash: ")
  Cmd.when ini.binaryProtocolEnabled do
    setDefaultBehavior memcachedStrerror .binaryProtocol 1 "Failed to turn on binary protocol: "
    setDefaultBehavior memcachedStrerror .tcpNodelay 1 "Failed to set TCP_NODELAY: "
  Cmd.when (ini.connectTimeout != 0)
    (setDefaultBehavior memcachedStrerror .connectTimeout ini.connectTimeout.toUInt64
      "Failed to set connect timeout: ")

/-- the settings, and the clients of a process; a persistent one may have many objects -/
structure Settings where
  globals : Globals
  memcs : Nat → Option Memc

def Settings.put (st : Settings) (n : Nat) (memc : Memc) : Settings :=
  { st with memcs := Function.update st.memcs n (some memc) }

@[simp] theorem Settings.put_self (st : Settings) (n : Nat) (memc : Memc) :
    (st.put n memc).memcs n = some memc := Function.update_self ..

@[simp] theorem Settings.put_of_ne (st : Settings) {n n' : Nat} (memc : Memc) (h : n' ≠ n) :
    (st.put n memc).memcs n' = st.memcs n' := Function.update_of_ne h ..

/-- what may happen: a setting is changed; a constructor makes a client out of what `memcached()`
has returned; an object sets options; anything else that leaves the user data -/
inductive Happens (σ : Type) where
  | iniSet (set : IniSet)
  | construct (n : Nat) (s : State) (isPersistent : Bool) (h : Handler Call Ans σ) (w : σ)
  | setOptions (n : Nat) (s : State) (c : SetCall)
      (h : Handler (Call ⊕ OptionCall) (Sum.elim Ans OptionAns) σ) (w : σ)
  | other (n : Nat) (memc : Memc)

variable (parse : IniParse) {σ : Type}

inductive Settings.Next : Settings → Happens σ → Settings → Prop
  | iniSet {st : Settings} (set : IniSet) : Settings.Next st (.iniSet set)
      { st with globals := st.globals.apply env.build parse set }
  | construct {st : Settings} (n : Nat) (s : State) (isPersistent : Bool)
      (h : Handler Call Ans σ) (w : σ) : Settings.Next st (.construct n s isPersistent h w)
      (st.put n (Cmd.exec h (constructMemc memcachedStrerror st.globals.ini isPersistent)
        s w).1.state.memc)
  | setOptions {st : Settings} (n : Nat) (s : State) (c : SetCall)
      (h : Handler (Call ⊕ OptionCall) (Sum.elim Ans OptionAns) σ) (w : σ)
      (hs : st.memcs n = some s.memc) : Settings.Next st (.setOptions n s c h w)
      (st.put n (Cmd.exec h (c.run env memcachedStrerror) s w).1.state.memc)
  | other {st : Settings} (n : Nat) (memc memc' : Memc) (hs : st.memcs n = some memc)
      (hsame : memc'.userData = memc.userData) : Settings.Next st (.other n memc') (st.put n memc')

end

/-! ## what is in use -/

/-- the build has what the user data names -/
structure UserData.Supported (ud : UserData) (build : Build) : Prop where
  serializer : build.serializer? ud.serializer.code = some ud.serializer
  compressionType : build.compressionType? ud.compressionType.code = some ud.compressionType
  itemSizeLimit : 0 ≤ ud.itemSizeLimit

/-- the settings name what the build has, and are what their names say -/
structure Globals.Ok (g : Globals) (build : Build) : Prop where
  serializer : build.serializerNamed g.serializerName = some g.ini.serializerType
  compressionType : build.compressionNamed g.compressionName = some g.ini.compressionType
  itemSizeLimit : 0 ≤ g.ini.itemSizeLimit

structure Settings.Ok (st : Settings) (build : Build) : Prop where
  globals : st.globals.Ok build
  memcs : ∀ n memc, st.memcs n = some memc → memc.userData.Supported build

/-! ### the settings -/

section
variable {build : Build} {parse : IniParse} {g : Globals}

theorem serializer?_php (build : Build) :
    build.serializer? SerializerType.php.code = some .php := by
  show build.serializer? 1 = some .php
  unfold Build.serializer?
  simp

theorem serializer?_of_named {name : Option Bytes} {type : SerializerType}
    (h : build.serializerNamed name = some type) : build.serializer? type.code = some type := by
  cases name with
  | none =>
    cases h
    unfold Build.serializerDefault
    split_ifs with hig hmsg
    · exact if_pos ⟨hig, rfl⟩
    · show build.serializer? 5 = some .msgpack
      unfold Build.serializer?
      simp [hmsg]
    · exact serializer?_php build
  | some value =>
    unfold Build.serializerNamed at h
    dsimp only at h
    split_ifs at h with h₁ h₂ h₃ h₄ h₅ <;> cases h
    · exact serializer?_php build
    · exact if_pos ⟨h₂.1, rfl⟩
    · show build.serializer? 3 = some .json
      unfold Build.serializer?
      simp [h₃.1]
    · show build.serializer? 4 = some .jsonArray
      unfold Build.serializer?
      simp [h₄.1]
    · show build.serializer? 5 = some .msgpack
      unfold Build.serializer?
      simp [h₅.1]

theorem compressionType?_of_named {name : Option Bytes} {type : CompressionType}
    (h : build.compressionNamed name = some type) :
    build.compressionType? type.code = some type := by
  cases name with
  | none =>
    cases h
    rfl
  | some value =>
    unfold Build.compressionNamed at h
    dsimp only at h
    split_ifs at h with h₁ h₂ h₃ <;> cases h
    · rfl
    · show build.compressionType? 1 = some .zlib
      unfold Build.compressionType?
      simp
    · show build.compressionType? 3 = some .zstd
      unfold Build.compressionType?
      simp [h₃.1]

theorem globals_ok (build : Build) : build.globals.Ok build := ⟨rfl, rfl, Int64.le_refl 0⟩

/-- one change: all but what it is about stays -/
theorem Globals.Ok.apply (hg : g.Ok build) (set : IniSet) : (g.apply build parse set).Ok build := by
  unfold Globals.apply
  cases set with
  | serializer newValue =>
    show ((onUpdateSerializer build newValue g).getD g).Ok build
    unfold onUpdateSerializer
    cases hnamed : build.serializerNamed newValue with
    | none => exact hg
    | some type => exact ⟨hnamed, hg.compressionType, hg.itemSizeLimit⟩
  | compressionType newValue =>
    show ((onUpdateCompressionType build newValue g).getD g).Ok build
    unfold onUpdateCompressionType
    cases hnamed : build.compressionNamed newValue with
    | none => exact hg
    | some type => exact ⟨hg.serializer, hnamed, hg.itemSizeLimit⟩
  | itemSizeLimit newValue =>
    unfold IniSet.onModify
    dsimp only
    split_ifs with hneg
    · exact hg
    · exact ⟨hg.serializer, hg.compressionType, Int64.not_lt.mp hneg⟩
  | _ => exact ⟨hg.serializer, hg.compressionType, hg.itemSizeLimit⟩

/-- whatever `php.ini` has -/
theorem startUp_ok (values : List IniSet) : (Globals.startUp build parse values).Ok build := by
  suffices hall : ∀ g : Globals, g.Ok build →
      (values.foldl (fun g set => g.apply build parse set) g).Ok build from
    hall build.globals (globals_ok build)
  induction values with
  | nil => exact fun g hg => hg
  | cons set values ih => exact fun g hg => ih _ (hg.apply set)

/-- the values that stand in the file, in a build without igbinary and msgpack -/
theorem startUp_iniEntries (hthree : parse.long (ascii ['3']) = 3)
    (hlong : parse.long (ascii ['2', '0', '0', '0']) = 2000) (hzero : parse.long (ascii ['0']) = 0)
    (hreal : parse.real (ascii ['1', '.', '3']) = 13 / 10)
    (hbool : parse.bool (ascii ['0']) = false) (hig : build.haveIgbinary = false)
    (hmsg : build.haveMsgpack = false) :
    (Globals.startUp build parse (iniEntries build)).ini = iniDefaults := by
  have hname : build.serializerDefaultName = ascii ['p', 'h', 'p'] := by
    simp [Build.serializerDefaultName, hig, hmsg]
  have hphp : build.serializerNamed (some (ascii ['p', 'h', 'p'])) = some .php := rfl
  have hfastlz : build.compressionNamed (some (ascii ['f', 'a', 's', 't', 'l', 'z'])) =
      some .fastlz := rfl
  simp [Globals.startUp, iniEntries, Globals.apply, IniSet.onModify, onUpdateSerializer,
    onUpdateCompressionType, hname, hphp, hfastlz, hthree, hlong, hzero, hreal, hbool, iniDefaults]

/-- a new client has what the settings name -/
theorem Globals.Ok.newUserData (hg : g.Ok build) (isPersistent : Bool) :
    (newUserData g.ini isPersistent).Supported build :=
  ⟨serializer?_of_named hg.serializer, compressionType?_of_named hg.compressionType,
    hg.itemSizeLimit⟩

end

/-! ### the clients -/

section
variable (memcachedStrerror : Memc → Status → String) {σ : Type}

/-- a default behaviour is set or not; the user data stay -/
theorem exec_setDefaultBehavior (h : Handler Call Ans σ) (flag : Behavior) (data : UInt64)
    (failed : String) (s : State) (w : σ) :
    ∃ s' w', Cmd.exec h (setDefaultBehavior memcachedStrerror flag data failed) s w =
        (.done () s', w') ∧ s'.memc.userData = s.memc.userData := by
  unfold setDefaultBehavior
  obtain ⟨rc, s₁, w₁, hset, hsame⟩ : ∃ rc s' w', Cmd.exec h (memcachedBehaviorSet flag data) s w =
      (.done rc s', w') ∧ s'.memc.userData = s.memc.userData := ⟨_, _, _, rfl, rfl⟩
  rw [Cmd.exec_bind_done hset]
  cases rc != .success with
  | false => exact ⟨s₁, w₁, rfl, hsame⟩
  | true => exact ⟨_, _, rfl, hsame⟩

/-- the same, if it is wanted -/
theorem exec_when_userData {h : Handler Call Ans σ} {m : MemcM Unit} (c : Bool)
    (hm : ∀ s w, ∃ s' w', Cmd.exec h m s w = (.done () s', w') ∧
      s'.memc.userData = s.memc.userData) (s : State) (w : σ) :
    ∃ s' w', Cmd.exec h (Cmd.when c m) s w = (.done () s', w') ∧
      s'.memc.userData = s.memc.userData := by
  cases c with
  | false => exact ⟨s, w, rfl, rfl⟩
  | true => exact hm s w

/-- a new client has the user data of the settings, whatever becomes of the default behaviours -/
theorem exec_constructMemc (h : Handler Call Ans σ) (ini : Ini) (isPersistent : Bool) (s : State)
    (w : σ) : ∃ s' w', Cmd.exec h (constructMemc memcachedStrerror ini isPersistent) s w =
        (.done () s', w') ∧ s'.memc.userData = newUserData ini isPersistent := by
  let s₀ : State := { s with memc := { s.memc with userData := newUserData ini isPersistent } }
  obtain ⟨s₁, w₁, h₁, hsame₁⟩ := exec_when_userData (h := h) ini.consistentHashEnabled
    (exec_setDefaultBehavior memcachedStrerror h .distribution 1
      "Failed to turn on consistent hash: ") s₀ w
  have hbinary (s : State) (w : σ) : ∃ s' w', Cmd.exec h (do
      setDefaultBehavior memcachedStrerror .binaryProtocol 1 "Failed to turn on binary protocol: "
      setDefaultBehavior memcachedStrerror .tcpNodelay 1 "Failed to set TCP_NODELAY: ") s w =
        (.done () s', w') ∧ s'.memc.userData = s.memc.userData := by
    obtain ⟨s₁, w₁, h₁, hsame₁⟩ := exec_setDefaultBehavior memcachedStrerror
      h .binaryProtocol 1 "Failed to turn on binary protocol: " s w
    obtain ⟨s₂, w₂, h₂, hsame₂⟩ := exec_setDefaultBehavior memcachedStrerror
      h .tcpNodelay 1 "Failed to set TCP_NODELAY: " s₁ w₁
    exact ⟨s₂, w₂, (Cmd.exec_bind_done h₁).trans h₂, hsame₂.trans hsame₁⟩
  obtain ⟨s₂, w₂, h₂, hsame₂⟩ := exec_when_userData ini.binaryProtocolEnabled hbinary s₁ w₁
  obtain ⟨s₃, w₃, h₃, hsame₃⟩ := exec_when_userData (h := h) (ini.connectTimeout != 0)
    (exec_setDefaultBehavior memcachedStrerror h .connectTimeout
      ini.connectTimeout.toUInt64 "Failed to set connect timeout: ") s₂ w₂
  refine ⟨s₃, w₃, ?_, hsame₃.trans (hsame₂.trans hsame₁)⟩
  unfold constructMemc
  rw [Cmd.exec_modify_bind, Cmd.exec_bind_done h₁, Cmd.exec_bind_done h₂]
  exact h₃

end

/-! ### the options -/

section
variable {env : Env} (memcachedStrerror : Memc → Status → String) {σ : Type}
  (h : Handler (Call ⊕ OptionCall) (Sum.elim Ans OptionAns) σ) {s : State} {w : σ}

theorem exec_behaviorSet_behaviorDone_userData (flag : Behavior) (data : UInt64) (s : State)
    (w : σ) : ∃ ok s' w', Cmd.exec h (Cmd.inl (memcachedBehaviorSet flag data) >>=
        behaviorDone memcachedStrerror) s w = (.done ok s', w') ∧
      s'.memc.userData = s.memc.userData := by
  obtain ⟨rc, s₁, w₁, hset, hsame⟩ : ∃ rc s' w', Cmd.exec h
      (Cmd.inl (memcachedBehaviorSet flag data)) s w = (.done rc s', w') ∧
      s'.memc.userData = s.memc.userData := ⟨_, _, _, rfl, rfl⟩
  obtain ⟨s', w', hdone, hmemc⟩ := exec_behaviorDone memcachedStrerror h rc s₁ w₁
  exact ⟨_, s', w', (Cmd.exec_bind_done hset).trans hdone,
    (congrArg Memc.userData hmemc).trans hsame⟩

/-- an option of libmemcached is none of the user data -/
theorem exec_memcOption_userData (option lval : Int64) (s : State) (w : σ) :
    ∃ ok s' w', Cmd.exec h (if option = 16 then setKetamaWeighted memcachedStrerror lval
        else setBehaviorOption memcachedStrerror option lval) s w = (.done ok s', w') ∧
      s'.memc.userData = s.memc.userData := by
  have hinvalid : ∃ ok s' w', Cmd.exec h (behaviorDone memcachedStrerror .invalidArguments) s w =
      (.done ok s', w') ∧ s'.memc.userData = s.memc.userData := by
    obtain ⟨s', w', hdone, hmemc⟩ := exec_behaviorDone memcachedStrerror h .invalidArguments s w
    exact ⟨_, s', w', hdone, congrArg Memc.userData hmemc⟩
  split_ifs with hweighted
  · obtain ⟨ok, s₁, w₁, hset, hsame⟩ := exec_behaviorSet_behaviorDone_userData memcachedStrerror h
      .ketamaWeighted lval.toUInt64 s w
    have hrun : setKetamaWeighted memcachedStrerror lval =
        ((Cmd.inl (memcachedBehaviorSet .ketamaWeighted lval.toUInt64) >>=
          behaviorDone memcachedStrerror) >>= fun ok => if ok then do
            Cmd.when (lval == 0) resetHashes
            pure true
          else pure false) := (bind_assoc _ _ _).symm
    rw [hrun, Cmd.exec_bind_done hset]
    cases ok with
    | false => exact ⟨false, s₁, w₁, rfl, hsame⟩
    | true =>
      cases lval == 0 with
      | true => exact ⟨true, _, _, rfl, hsame⟩
      | false => exact ⟨true, _, _, rfl, hsame⟩
  · unfold setBehaviorOption
    split_ifs with hneg
    · exact hinvalid
    · cases behavior? (behaviorFlag option) with
      | none => exact hinvalid
      | some flag =>
        dsimp only
        rw [Cmd.exec_get_bind]
        split_ifs with hsame
        · exact ⟨true, s, w, rfl, rfl⟩
        · exact exec_behaviorSet_behaviorDone_userData memcachedStrerror h flag lval.toUInt64 s w

/-- an own option is only set to what the build has -/
theorem exec_setOwnOption_supported (o : OwnOption) (value : Zval)
    (hs : s.memc.userData.Supported env.build) (w : σ) :
    (Cmd.exec h (setOwnOption env o value) s w).1.state.memc.userData.Supported env.build := by
  obtain ⟨hser, hcomp, hlimit⟩ := hs
  cases o with
  | compression => exact ⟨hser, hcomp, hlimit⟩
  | storeRetryCount => exact ⟨hser, hcomp, hlimit⟩
  | compressionLevel => exact ⟨hser, hcomp, hlimit⟩
  | prefixKey =>
    rw [exec_setOwnOption_prefixKey]
    dsimp only
    split_ifs <;> exact ⟨hser, hcomp, hlimit⟩
  | compressionType =>
    unfold setOwnOption
    dsimp only
    cases ht : env.build.compressionType? (zvalGetLong env.zend value) with
    | none => exact ⟨hser, hcomp, hlimit⟩
    | some type => exact ⟨hser, (code_of_compressionType? ht).symm ▸ ht, hlimit⟩
  | serializer =>
    unfold setOwnOption
    dsimp only
    cases ht : env.build.serializer? (zvalGetLong env.zend value) with
    | none => exact ⟨serializer?_php env.build, hcomp, hlimit⟩
    | some type => exact ⟨(code_of_serializer? ht).symm ▸ ht, hcomp, hlimit⟩
  | userFlags =>
    unfold setOwnOption
    dsimp only
    split_ifs <;> exact ⟨hser, hcomp, hlimit⟩
  | itemSizeLimit =>
    unfold setOwnOption
    dsimp only
    split_ifs with hneg
    · exact ⟨hser, hcomp, hlimit⟩
    · exact ⟨hser, hcomp, Int64.not_lt.mp hneg⟩

theorem exec_setOptionsEntry_supported (entry : ArrKey × Zval)
    (hs : s.memc.userData.Supported env.build) (w : σ) :
    (Cmd.exec h (setOptionsEntry env memcachedStrerror entry) s w).1.state.memc.userData.Supported
      env.build := by
  obtain ⟨key, value⟩ := entry
  cases key with
  | str _ => exact hs
  | int option =>
    show (Cmd.exec h (phpMemcSetOption env memcachedStrerror option value)
      s w).1.state.memc.userData.Supported env.build
    unfold phpMemcSetOption
    cases ownOption? option with
    | none =>
      obtain ⟨ok, s', w', hrun, hsame⟩ := exec_memcOption_userData memcachedStrerror h option
        (zvalGetLong env.zend value) s w
      dsimp only
      rw [hrun]
      exact hsame ▸ hs
    | some o => exact exec_setOwnOption_supported h o value hs w

/-- by induction on the entries -/
theorem exec_setOptionsLoop_supported (options : HashTable) (ok : Bool)
    (hs : s.memc.userData.Supported env.build) (w : σ) :
    (Cmd.exec h (setOptionsLoop env memcachedStrerror options ok)
      s w).1.state.memc.userData.Supported env.build := by
  induction options generalizing ok s w with
  | nil => exact hs
  | cons entry options ih =>
    obtain ⟨set, s₁, w₁, hrun⟩ := exec_setOptionsEntry env memcachedStrerror h entry s w
    have hs₁ := exec_setOptionsEntry_supported memcachedStrerror h entry hs w
    rw [hrun] at hs₁
    rw [setOptionsLoop, Cmd.exec_bind_done hrun]
    exact ih (set && ok) hs₁ w₁

theorem exec_setCall_supported (c : SetCall) (hs : s.memc.userData.Supported env.build) (w : σ) :
    (Cmd.exec h (c.run env memcachedStrerror) s w).1.state.memc.userData.Supported env.build := by
  cases c with
  | setOption option value =>
    obtain ⟨ok, s', w', hrun⟩ :=
      exec_setOptionsEntry env memcachedStrerror h (.int option, value) s w
    have hs' := exec_setOptionsEntry_supported memcachedStrerror h (.int option, value) hs w
    rw [hrun] at hs'
    have hset : Cmd.exec h (memcachedSetOption env memcachedStrerror option value) s w =
        (.done (.bool ok) s', w') := Cmd.exec_bind_done hrun
    show (Cmd.exec h (memcachedSetOption env memcachedStrerror option value)
      s w).1.state.memc.userData.Supported env.build
    rw [hset]
    exact hs'
  | setOptions options =>
    obtain ⟨s', w', hloop⟩ := exec_setOptionsLoop env memcachedStrerror h options true s w
    have hs' := exec_setOptionsLoop_supported memcachedStrerror h options true hs w
    rw [hloop] at hs'
    have hset : Cmd.exec h (memcachedSetOptions env memcachedStrerror options) s w =
        (.done _ s', w') := Cmd.exec_bind_done hloop
    show (Cmd.exec h (memcachedSetOptions env memcachedStrerror options)
      s w).1.state.memc.userData.Supported env.build
    rw [hset]
    exact hs'

end

/-! ### runs -/

section
variable {env : Env} {memcachedStrerror : Memc → Status → String} {parse : IniParse} {σ : Type}
  {st st' : Settings}

theorem Settings.Ok.put (hok : st.Ok env.build) {memc : Memc}
    (hmemc : memc.userData.Supported env.build) (n : Nat) : (st.put n memc).Ok env.build := by
  refine ⟨hok.globals, fun n' memc' hn' => ?_⟩
  by_cases hsame : n' = n
  · subst hsame
    rw [put_self] at hn'
    cases hn'
    exact hmemc
  · rw [put_of_ne st memc hsame] at hn'
    exact hok.memcs n' memc' hn'

theorem Settings.Ok.next {a : Happens σ} (hok : st.Ok env.build)
    (hnext : Settings.Next env memcachedStrerror parse st a st') : st'.Ok env.build := by
  cases hnext with
  | iniSet set => exact ⟨hok.globals.apply set, hok.memcs⟩
  | construct n s isPersistent h w =>
    obtain ⟨s', w', hrun, hud⟩ := exec_constructMemc memcachedStrerror h st.globals.ini
      isPersistent s w
    rw [hrun]
    exact hok.put (hud ▸ hok.globals.newUserData isPersistent) n
  | setOptions n s c h w hs =>
    exact hok.put (exec_setCall_supported memcachedStrerror h c (hok.memcs n s.memc hs) w) n
  | other n memc memc' hs hsame => exact hok.put (hsame ▸ hok.memcs n memc hs) n

/-- the settings after a `php.ini`, without a client -/
def Settings.start (build : Build) (parse : IniParse) (values : List IniSet) : Settings :=
  ⟨.startUp build parse values, fun _ => none⟩

/-- **Only what the build has is in use.** -/
theorem settings_ok {values : List IniSet}
    (hrun : Runs (Settings.Next (σ := σ) env memcachedStrerror parse) (fun _ _ => True)
      (.start env.build parse values) st) : st.Ok env.build := by
  have hstart : (Settings.start env.build parse values).Ok env.build :=
    ⟨startUp_ok values, fun n memc hn => by cases hn⟩
  exact Runs.invariant (I := fun st => st.Ok env.build) hrun hstart
    fun _ _ _ hok _ hnext => hok.next hnext

end

/-! ## options from one client to another -/

section
variable {env : Env} (memcachedStrerror : Memc → Status → String) {σ : Type}
  {h : Handler (Call ⊕ OptionCall) (Sum.elim Ans OptionAns) σ} {s t : State} {w : σ}

/-- libmemcached takes the prefix -/
def TakesPrefix (h : Handler (Call ⊕ OptionCall) (Sum.elim Ans OptionAns) σ) (str : Bytes) : Prop :=
  ∀ memc w, let r : Status × Option Prefix := (h (.inr (.callbackSet memc (prefixArg str))) w).1
    sMemcachedReturnIsError r.1 true = false

/-- the value of an option, set in another client -/
theorem exec_setOwnOption_optionValue (hh : FailsClean h)
    (hs : s.memc.userData.Supported env.build)
    (hprefixKey : TakesPrefix h ((memcachedCallbackGet s.memc).getD [])) (o : OwnOption) (t : State)
    (w : σ) : ∃ t' w', Cmd.exec h (setOwnOption env o (s.optionValue o)) t w = (.done true t', w') ∧
      SameBut (some o) t t' ∧ t'.optionValue o = s.optionValue o := by
  cases o with
  | compression =>
    refine ⟨_, w, rfl, ⟨rfl, by rintro ⟨⟩ hne <;> first | rfl | exact absurd rfl hne⟩, ?_⟩
    show Zval.bool ((if s.memc.userData.compressionEnabled then 1 else 0 : Int64) != 0) = _
    cases hc : s.memc.userData.compressionEnabled <;> simp [State.optionValue, hc]
  | storeRetryCount =>
    exact ⟨_, w, rfl, ⟨rfl, by rintro ⟨⟩ hne <;> first | rfl | exact absurd rfl hne⟩, rfl⟩
  | compressionLevel =>
    exact ⟨_, w, rfl, ⟨rfl, by rintro ⟨⟩ hne <;> first | rfl | exact absurd rfl hne⟩, rfl⟩
  | compressionType =>
    have hset : zvalGetLong env.zend (s.optionValue .compressionType) =
        s.memc.userData.compressionType.code := rfl
    unfold setOwnOption
    dsimp only
    rw [hset, hs.compressionType]
    exact ⟨_, w, rfl, ⟨rfl, by rintro ⟨⟩ hne <;> first | rfl | exact absurd rfl hne⟩, rfl⟩
  | serializer =>
    have hset : zvalGetLong env.zend (s.optionValue .serializer) =
        s.memc.userData.serializer.code := rfl
    unfold setOwnOption
    dsimp only
    rw [hset, hs.serializer]
    exact ⟨_, w, rfl, ⟨rfl, by rintro ⟨⟩ hne <;> first | rfl | exact absurd rfl hne⟩, rfl⟩
  | itemSizeLimit =>
    have hset : zvalGetLong env.zend (s.optionValue .itemSizeLimit) =
        s.memc.userData.itemSizeLimit := rfl
    unfold setOwnOption
    dsimp only
    rw [hset, if_neg (Int64.not_lt.mpr hs.itemSizeLimit)]
    exact ⟨_, w, rfl, ⟨rfl, by rintro ⟨⟩ hne <;> first | rfl | exact absurd rfl hne⟩, rfl⟩
  | userFlags =>
    let flags := s.memc.userData.setUdfFlags
    have hval : (Int64.ofInt flags.val).toInt = flags.val := by
      have hge := flags.ge
      have hle := flags.le
      unfold memcValUserFlagsMax at hle
      exact Int64.toInt_ofInt_of_le (by omega) (by omega)
    have hlval : zvalGetLong env.zend (s.optionValue .userFlags) = Int64.ofInt flags.val := rfl
    unfold setOwnOption
    dsimp only
    split_ifs with hneg hmax
    · refine ⟨_, w, rfl, ⟨rfl, by rintro ⟨⟩ hne <;> first | rfl | exact absurd rfl hne⟩, ?_⟩
      have hnone : flags.val = -1 := by
        rw [hlval, hval] at hneg
        have hge := flags.ge
        omega
      show Zval.long (Int64.ofInt (-1)) = .long (Int64.ofInt flags.val)
      rw [hnone]
    · rw [hlval, hval] at hmax
      exact absurd flags.le (Int.not_le.mpr hmax)
    · refine ⟨_, w, rfl, ⟨rfl, by rintro ⟨⟩ hne <;> first | rfl | exact absurd rfl hne⟩, ?_⟩
      show Zval.long (Int64.ofInt (zvalGetLong env.zend (s.optionValue .userFlags)).toInt) = _
      rw [hlval, hval]
      rfl
  | prefixKey =>
    let str := (memcachedCallbackGet s.memc).getD []
    have hok : sMemcachedReturnIsError (h (.inr (.callbackSet t.memc (prefixArg str))) w).1.1
        true = false := hprefixKey t.memc w
    have hgood : ¬ (h (.inr (.callbackSet t.memc (prefixArg str))) w).1.1 = .badKeyProvided := by
      intro hbad
      rw [hbad] at hok
      cases hok
    have hnul : 0 ∉ str := by
      show 0 ∉ (s.memc.prefixKey.map fun p => cString p.bytes).getD []
      cases s.memc.prefixKey with
      | none => exact List.not_mem_nil
      | some p => exact cString_eq_self_iff.mp (cString_cString p.bytes)
    have hstr : zvalGetString env.zend (s.optionValue .prefixKey) = str := rfl
    rw [exec_setOwnOption_prefixKey, hstr]
    dsimp only
    rw [if_neg hgood]
    refine ⟨_, _, rfl, ⟨rfl, by rintro ⟨⟩ hne <;> first | rfl | exact absurd rfl hne⟩, ?_⟩
    have hget := (callbackGet_of_callbackSet h hh str t w).mpr (by rw [hok]; exact hnul)
    exact congrArg Zval.str hget

theorem State.SameOwn.trans {s₁ s₂ s₃ : State} {o : OwnOption} (h : s₁.SameOwn s₂ o)
    (h' : s₂.SameOwn s₃ o) : s₁.SameOwn s₃ o := by
  cases o <;> exact Eq.trans h' h

theorem State.SameOwn.optionValue {s₁ s₂ : State} {o : OwnOption} (h : s₁.SameOwn s₂ o) :
    s₂.optionValue o = s₁.optionValue o := by
  cases o <;> simp only [State.SameOwn] at h <;>
    simp only [State.optionValue, memcachedCallbackGet, h]

/-- the entries for options of a client -/
def optionEntries (values : OwnOption → Zval) (os : List OwnOption) : HashTable :=
  os.map fun o => (.int o.number, values o)

/-- by induction on the options: each is set once, and left by the entries of the others -/
theorem exec_setOptionsLoop_copies (hh : FailsClean h) (hs : s.memc.userData.Supported env.build)
    (hprefixKey : TakesPrefix h ((memcachedCallbackGet s.memc).getD [])) {os : List OwnOption}
    (hos : os.Nodup) (ok : Bool) (t : State) (w : σ) :
    ∃ t' w', Cmd.exec h (setOptionsLoop env memcachedStrerror (optionEntries s.optionValue os) ok)
        t w = (.done ok t', w') ∧
      t'.memc.behavior = t.memc.behavior ∧
      (∀ o ∈ os, t'.optionValue o = s.optionValue o) ∧ ∀ o, o ∉ os → t.SameOwn t' o := by
  induction os generalizing ok t w with
  | nil =>
    refine ⟨t, w, rfl, rfl, fun o ho => absurd ho List.not_mem_nil, fun o _ => ?_⟩
    cases o <;> rfl
  | cons o os ih =>
    obtain ⟨hnew, hos⟩ := List.nodup_cons.mp hos
    obtain ⟨t₁, w₁, hset, hsame, hvalue⟩ := exec_setOwnOption_optionValue hh hs hprefixKey o t w
    obtain ⟨t', w', hloop, hbehavior, hcopied, hleft⟩ := ih hos (true && ok) t₁ w₁
    refine ⟨t', w', ?_, hbehavior.trans hsame.behavior, fun o' ho' => ?_, fun o' ho' => ?_⟩
    · have hentry : Cmd.exec h (setOptionsEntry env memcachedStrerror
          (.int o.number, s.optionValue o)) t w = (.done true t₁, w₁) := by
        have hown : ownOption? o.number = some o := ownOption?_eq_some_iff.mpr rfl
        show Cmd.exec h (phpMemcSetOption env memcachedStrerror o.number (s.optionValue o)) t w = _
        unfold phpMemcSetOption
        rw [hown]
        exact hset
      show Cmd.exec h (setOptionsEntry env memcachedStrerror (.int o.number, s.optionValue o) >>= _)
        t w = _
      rw [Cmd.exec_bind_done hentry]
      rw [Bool.true_and] at hloop
      exact hloop
    · rcases List.mem_cons.mp ho' with rfl | ho'
      · exact (hleft o' hnew).optionValue.trans hvalue
      · exact hcopied o' ho'
    · have hne : (some o : Option OwnOption) ≠ some o' := by
        rintro ⟨⟩
        exact ho' List.mem_cons_self
      exact (hsame.own o' hne).trans (hleft o' fun hmem => ho' (List.mem_cons_of_mem _ hmem))

/-- **The options of a client can be given to another.** In every run of the settings and the
clients of a process: `setOptions` takes what `getOption` gives for any of the own options of a
client, in any order, and `getOption` of the other client gives the same for them; other options are
left alone. -/
theorem options_copied {parse : IniParse} {values : List IniSet} {st : Settings} {n : Nat}
    (hrun : Runs (Settings.Next (σ := σ) env memcachedStrerror parse) (fun _ _ => True)
      (.start env.build parse values) st) (hn : st.memcs n = some s.memc)
    (hh : FailsClean h) (hprefixKey : TakesPrefix h ((memcachedCallbackGet s.memc).getD []))
    (unknownBehavior : UInt32 → UInt64) {got : OwnOption → Zval} (w₀ : σ)
    (hgot : ∀ o : OwnOption, Cmd.exec h
      (Cmd.inl (memcachedGetOption unknownBehavior o.number)) s w₀ = (.done (got o) s, w₀))
    {os : List OwnOption} (hos : os.Nodup) (t : State) (w : σ) :
    ∃ t' w', Cmd.exec h (memcachedSetOptions env memcachedStrerror (optionEntries got os)) t w =
        (.done (.bool true) t', w') ∧
      (∀ o ∈ os, ∀ w₁, Cmd.exec h (Cmd.inl (memcachedGetOption unknownBehavior o.number)) t' w₁ =
        (.done (got o) t', w₁)) ∧
      t'.memc.behavior = t.memc.behavior ∧ ∀ o, o ∉ os → t.SameOwn t' o := by
  have hsupported := (settings_ok hrun).memcs n s.memc hn
  have hvalues : got = s.optionValue := by
    funext o
    have hsame := (hgot o).symm.trans (exec_memcachedGetOption unknownBehavior h o s w₀)
    exact (Outcome.done.inj (Prod.mk.inj hsame).1).1
  obtain ⟨t', w', hloop, hbehavior, hcopied, hleft⟩ := exec_setOptionsLoop_copies memcachedStrerror
    hh hsupported hprefixKey hos true t w
  rw [hvalues]
  refine ⟨t', w', Cmd.exec_bind_done hloop, fun o ho w₁ => ?_, hbehavior, hleft⟩
  rw [exec_memcachedGetOption unknownBehavior h o t' w₁, hcopied o ho]

end

/-! ## one setting changed, one client with a prefix -/

/-- PHP reading `3` -/
def plainParse : IniParse where
  long b := if b = ascii ['3'] then 3 else 0
  real _ := 13 / 10
  bool b := b = ascii ['1']

/-- `json` is refused as a serializer, and `memcached.store_retry_count` is set -/
def retryingGlobals : Globals :=
  ((Globals.startUp plainEnv.build plainParse (iniEntries plainEnv.build)).apply plainEnv.build
    plainParse (.serializer (some (ascii ['j', 's', 'o', 'n'])))).apply plainEnv.build
    plainParse (.storeRetryCount (ascii ['3']))

/-- a client made after that, with a prefix and without compression -/
def prefixedClient : State :=
  (Cmd.exec settingServer (twoOptions.run plainEnv fun _ _ => "")
    (Cmd.exec noServers (constructMemc (fun _ _ => "") retryingGlobals.ini true)
      (newObject iniDefaults 1) ()).1.state ()).1.state

theorem runs_prefixedClient : ∃ st : Settings, st.memcs 0 = some prefixedClient.memc ∧
    Runs (Settings.Next (σ := Unit) plainEnv (fun _ _ => "") plainParse) (fun _ _ => True)
      (.start plainEnv.build plainParse (iniEntries plainEnv.build)) st := by
  have hjson : Runs (Settings.Next (σ := Unit) plainEnv (fun _ _ => "") plainParse)
      (fun _ _ => True) (.start plainEnv.build plainParse (iniEntries plainEnv.build)) _ :=
    Runs.snoc .refl trivial (.iniSet (.serializer (some (ascii ['j', 's', 'o', 'n']))))
  have hretries := hjson.snoc trivial (.iniSet (.storeRetryCount (ascii ['3'])))
  have hmade := hretries.snoc trivial (.construct 0 (newObject iniDefaults 1) true noServers ())
  have hset := hmade.snoc trivial (.setOptions 0 (Cmd.exec noServers
    (constructMemc (fun _ _ => "") retryingGlobals.ini true) (newObject iniDefaults 1) ()).1.state
    twoOptions settingServer () (Settings.put_self ..))
  exact ⟨_, Settings.put_self .., hset⟩

/-- its options, the last one first, in a client of the defaults -/
theorem options_copied_prefixed :
    ∃ t' w', Cmd.exec settingServer (memcachedSetOptions plainEnv (fun _ _ => "")
        (optionEntries prefixedClient.optionValue
          [.itemSizeLimit, .compressionLevel, .userFlags, .storeRetryCount, .compressionType,
            .serializer, .prefixKey, .compression])) (newObject iniDefaults 1) () =
        (.done (.bool true) t', w') ∧
      (∀ o ∈ [OwnOption.itemSizeLimit, .compressionLevel, .userFlags, .storeRetryCount,
          .compressionType, .serializer, .prefixKey, .compression],
        ∀ w₁, Cmd.exec settingServer (Cmd.inl (memcachedGetOption (fun _ => 0) o.number)) t' w₁ =
          (.done (prefixedClient.optionValue o) t', w₁)) ∧
      t'.memc.behavior = (newObject iniDefaults 1).memc.behavior ∧
      ∀ o, o ∉ [OwnOption.itemSizeLimit, .compressionLevel, .userFlags, .storeRetryCount,
          .compressionType, .serializer, .prefixKey, .compression] →
        (newObject iniDefaults 1).SameOwn t' o := by
  obtain ⟨st, hn, hrun⟩ := runs_prefixedClient
  refine options_copied (fun _ _ => "") hrun hn failsClean_settingServer ?_ (fun _ => 0) ()
    (fun o => exec_memcachedGetOption (fun _ => 0) settingServer o prefixedClient ())
    (by decide) (newObject iniDefaults 1) ()
  intro memc w
  rfl

end PhpMemcached
