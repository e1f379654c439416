import PhpMemcached.Client
import PhpMemcached.GFmt

/-!
# Writing a value: payload and flags word

* `sizeHeader`            the 4 bytes in front of a compressed payload;
* `sCompressValue`        `s_compress_value`;
* `sSerializeValue`       `s_serialize_value`;
* `sZvalToPayload`        `s_zval_to_payload`, with its second half in `finishPayload`;
* `sIsPayloadTooBig`      the item size limit.
-/

namespace PhpMemcached
open Ascii Requests

section
variable (env : Env)

/-- the bytes of a `uint32_t` holding a length; a longer one is cut to its low 32 bits -/
def sizeHeader (n : Nat) : Bytes :=
  [UInt8.ofNat n, UInt8.ofNat (n / 2 ^ 8), UInt8.ofNat (n / 2 ^ 16), UInt8.ofNat (n / 2 ^ 24)]

/-- `buffer_size`, 5% and one byte more than the data -/
def bufferSize (payload : Bytes) : Nat := (105 * payload.length + 100) / 100

/-- `compression_level` kept between two bounds -/
def clampLevel (lo hi level : Int64) : Int64 :=
  if level < lo then lo else if level > hi then hi else level

/-- the codec switch of `s_compress_value`: compressed bytes and type bit. zstd is called with
the level as it is, the clamping that follows the call has no effect. -/
def compressBuffer (compressionType : CompressionType) (level : Int64) (payload : Bytes) :
    Option (Bytes × Flags) :=
  match compressionType with
  | .fastlz =>
    let buffer := env.fastlzCompress payload
    if buffer.length > 0 then some (buffer, memcValCompressionFastlz) else none
  | .zstd =>
    if env.build.haveZstd then
      (env.zstdCompress (bufferSize payload) level payload).map (·, memcValCompressionZstd)
    else none
  | .zlib =>
    (env.zlibCompress2 (bufferSize payload) (clampLevel 0 9 level) payload).map
      (·, memcValCompressionZlib)

/-- `s_compress_value`; a payload that does not shrink by the factor is left alone -/
def sCompressValue (compressionType : CompressionType) (level : Int64) (payload : Bytes)
    (flags : Flags) : Bytes × Flags :=
  match compressBuffer env compressionType level payload with
  | none => (payload, flags)
  | some (buffer, typeFlag) =>
    if (payload.length : Rat) ≤ (buffer.length : Rat) * env.ini.compressionFactor then
      (payload, flags)
    else
      (sizeHeader payload.length ++ buffer, memcValSetFlag flags (memcValCompressed ||| typeFlag))

/-- an exception thrown by a serializer or decoder -/
def raise (thrown : Bool) : MemcM Unit :=
  Cmd.modify fun s => { s with exception := s.exception || thrown }

/-- a branch of `s_serialize_value`: the buffer it leaves and the type, or the warning it
fails with -/
abbrev SerBranch := Except String (Option Bytes × Flags)

/-- the case of the switch a serializer ends in: one that is not compiled in goes to the default -/
def serializerCase (serializer : SerializerType) : SerializerType :=
  match serializer with
  | .igbinary => if env.build.haveIgbinary then .igbinary else .php
  | .json => if env.build.haveJson then .json else .php
  | .jsonArray => if env.build.haveJson then .json else .php
  | .msgpack => if env.build.haveMsgpack then .msgpack else .php
  | .php => .php

/-- the cases of `s_serialize_value`, and whether the serializer threw -/
def serializeBuffer (serializer : SerializerType) (value : Zval) : SerBranch × Bool :=
  match serializerCase env serializer with
  | .igbinary =>
    let out := env.igbinarySerialize value
    (if out.ok then .ok (some (out.buf.getD []), memcValIsIgbinary)
     else .error "could not serialize value with igbinary", out.exception)
  | .json | .jsonArray =>
    let out := env.phpJsonEncode value
    (.ok (out.buf, memcValIsJson), out.exception)
  | .msgpack =>
    let out := env.msgpackSerialize value
    (if out.buf.isSome then .ok (out.buf, memcValIsMsgpack)
     else .error "could not serialize value with msgpack", out.exception)
  | .php =>
    let out := env.phpVarSerialize value
    (if out.buf.isSome then .ok (out.buf, memcValIsSerialized)
     else .error "could not serialize value", out.exception)

/-- `s_serialize_value`; with an exception pending the buffer is read whether it is there or not -/
def sSerializeValue (serializer : SerializerType) (value : Zval) (flags : Flags) :
    MemcM (Option (Option Bytes × Flags)) := do
  let r := serializeBuffer env serializer value
  raise r.2
  match r.1 with
  | .error text =>
    phpWarning text
    pure none
  | .ok (buf, type) =>
    let s ← Cmd.get
    if s.exception then
      match buf with
      | none => Cmd.stop .nullDeref
      | some b => if b.length ≠ 0 then pure none else pure (some (buf, memcValSetType flags type))
    else pure (some (buf, memcValSetType flags type))

/-- compression of a payload that reaches the threshold, which is compared as an unsigned number -/
def compressAbove (ud : UserData) (shouldCompress : Bool) (payload : Bytes) (flags : Flags) :
    Bytes × Flags :=
  if payload.length = 0 ∨ payload.length < env.ini.compressionThreshold.toUInt64.toNat ∨
      shouldCompress = false then (payload, flags)
  else sCompressValue env ud.compressionType ud.compressionLevel payload flags

/-- the second half of `s_zval_to_payload`: compression, then the user flags -/
def finishPayload (ud : UserData) (shouldCompress : Bool) (payload : Bytes) (flags : Flags) :
    Bytes × Flags :=
  let r := compressAbove env ud shouldCompress payload flags
  if 0 ≤ ud.setUdfFlags.val then
    (r.1, memcValSetUserFlags r.2 (BitVec.ofInt 32 ud.setUdfFlags.val))
  else r

/-- without compression the payload is the bytes themselves -/
theorem finishPayload_plain (ud : UserData) (b : Bytes) (flags : Flags) :
    (finishPayload env ud false b flags).1 = b := by
  have h : compressAbove env ud false b flags = (b, flags) := if_pos (.inr (.inr rfl))
  unfold finishPayload
  rw [h]
  dsimp only
  split <;> rfl

/-- the default branch of `s_zval_to_payload` -/
def serializePayload (ud : UserData) (value : Zval) (flags : Flags) :
    MemcM (Option (Bytes × Flags)) := do
  match ← sSerializeValue env ud.serializer value flags with
  | none => pure none
  | some (none, _) => Cmd.stop .nullDeref
  | some (some payload, flags) =>
    pure (some (finishPayload env ud ud.compressionEnabled payload flags))

/-- `s_zval_to_payload` -/
def sZvalToPayload (value : Zval) (flags : Flags) : MemcM (Option (Bytes × Flags)) := do
  let s ← Cmd.get
  let ud := s.memc.userData
  match value with
  | .str b =>
    pure (some (finishPayload env ud ud.compressionEnabled b
      (memcValSetType flags memcValIsString)))
  | .long n =>
    pure (some (finishPayload env ud false (intText n.toInt)
      (memcValSetType flags memcValIsLong)))
  | .double d =>
    pure (some (finishPayload env ud false (phpMemcachedGFmt env.zend d)
      (memcValSetType flags memcValIsDouble)))
  | .bool true =>
    pure (some (finishPayload env ud false (ascii ['1']) (memcValSetType flags memcValIsBool)))
  | .bool false =>
    pure (some (finishPayload env ud false [] (memcValSetType flags memcValIsBool)))
  | value => serializePayload env ud value flags

/-! ## the outcome -/

/-- how `s_zval_to_payload` ends -/
inductive PayloadOut where
  | payload (payload : Bytes) (flags : Flags)
  | failed
  | crash

/-- the outcome of a payload `b` of a type, compressed or not -/
def finishOut (s : State) (compress : Bool) (b : Bytes) (flags : Flags) : PayloadOut :=
  let r := finishPayload env s.memc.userData compress b flags
  .payload r.1 r.2

/-- the outcome for a value that goes through a serializer -/
def serializedOut (s : State) (value : Zval) (flags : Flags) : PayloadOut :=
  match serializeBuffer env s.memc.userData.serializer value with
  | (.error _, _) => .failed
  | (.ok (none, _), _) => .crash
  | (.ok (some b, type), thrown) =>
    if (s.exception || thrown) = true ∧ b.length ≠ 0 then .failed
    else finishOut env s s.memc.userData.compressionEnabled b (memcValSetType flags type)

/-- the outcome of `s_zval_to_payload` in state `s`, which no answer has a part in -/
def payloadOut (s : State) (value : Zval) (flags : Flags) : PayloadOut :=
  match value with
  | .str b => finishOut env s s.memc.userData.compressionEnabled b
      (memcValSetType flags memcValIsString)
  | .long n => finishOut env s false (intText n.toInt) (memcValSetType flags memcValIsLong)
  | .double d => finishOut env s false (phpMemcachedGFmt env.zend d)
      (memcValSetType flags memcValIsDouble)
  | .bool true => finishOut env s false (ascii ['1']) (memcValSetType flags memcValIsBool)
  | .bool false => finishOut env s false [] (memcValSetType flags memcValIsBool)
  | value => serializedOut env s value flags

/-- a string of a client that does not compress -/
theorem payloadOut_str_plain {s : State} (b : Bytes)
    (h : s.memc.userData.compressionEnabled = false) :
    payloadOut env s (.str b) 0 = finishOut env s false b (memcValSetType 0 memcValIsString) := by
  show finishOut env s s.memc.userData.compressionEnabled b _ = _
  rw [h]

/-- only the exception flag differs -/
def SameButException (s s' : State) : Prop := ∃ e, s' = { s with exception := e }

theorem SameButException.refl (s : State) : SameButException s s := ⟨s.exception, rfl⟩

theorem SameButException.trans {s s' s'' : State} (h : SameButException s s')
    (h' : SameButException s' s'') : SameButException s s'' := by
  obtain ⟨e, rfl⟩ := h
  obtain ⟨e', rfl⟩ := h'
  exact ⟨e', rfl⟩

theorem SameButException.memc {s s' : State} (h : SameButException s s') : s'.memc = s.memc := by
  obtain ⟨e, rfl⟩ := h
  rfl

/-- the result of a command that ends as `o` says -/
def PayloadOut.Ends (s : State) : PayloadOut → Outcome Abort State (Option (Bytes × Flags)) → Prop
  | .payload p f, .done (some r) s' => r = (p, f) ∧ SameButException s s'
  | .failed, .done none s' => SameButException s s'
  | .crash, .stop .nullDeref s' => SameButException s s'
  | _, _ => False

/-- the requests that are only a text for the user -/
def Call.IsWarning : Call → Prop
  | .warning _ => True
  | _ => False

theorem ends_serializePayload (s : State) (value : Zval) (flags : Flags) :
    Cmd.Ends (fun c => c.IsWarning ∧ serializedOut env s value flags = .failed)
      ((serializedOut env s value flags).Ends s)
      (serializePayload env s.memc.userData value flags) s := by
  unfold serializePayload sSerializeValue serializedOut raise phpWarning
  rcases serializeBuffer env s.memc.userData.serializer value with ⟨_ | ⟨_ | b, type⟩, thrown⟩
  · exact ⟨⟨trivial, rfl⟩, fun r => ⟨_, rfl⟩⟩
  · simp only [bind_assoc, Cmd.ends_modify_bind, Cmd.ends_get_bind]
    split
    · exact ⟨_, rfl⟩
    · exact ⟨_, rfl⟩
  · simp only [bind_assoc, Cmd.ends_modify_bind, Cmd.ends_get_bind]
    cases s.exception || thrown with
    | false =>
      rw [if_neg (by simp), if_neg (by simp)]
      exact ⟨rfl, _, rfl⟩
    | true =>
      rw [if_pos rfl]
      by_cases hb : b.length ≠ 0
      · rw [if_pos hb, if_pos ⟨rfl, hb⟩]
        exact ⟨_, rfl⟩
      · rw [if_neg hb, if_neg fun h => hb h.2]
        exact ⟨rfl, _, rfl⟩

/-- **`s_zval_to_payload` ends as `payloadOut` says; on the way it warns, if it fails.** -/
theorem ends_sZvalToPayload (s : State) (value : Zval) (flags : Flags) :
    Cmd.Ends (fun c => c.IsWarning ∧ payloadOut env s value flags = .failed)
      ((payloadOut env s value flags).Ends s)
      (sZvalToPayload env value flags) s := by
  cases value with
  | str b => exact ⟨rfl, .refl s⟩
  | long n => exact ⟨rfl, .refl s⟩
  | double d => exact ⟨rfl, .refl s⟩
  | bool b => cases b <;> exact ⟨rfl, .refl s⟩
  | null => exact ends_serializePayload env s _ flags
  | arr a => exact ends_serializePayload env s _ flags
  | obj n => exact ends_serializePayload env s _ flags

/-- a payload that comes out is the result of every run, which asks for nothing -/
theorem exec_of_payloadOut {s : State} {value : Zval} {flags f : Flags} {p : Bytes}
    (h : payloadOut env s value flags = .payload p f) {σ : Type} (m : Handler Call Ans σ) (w : σ) :
    ∃ s', Cmd.exec m (sZvalToPayload env value flags) s w = (.done (some (p, f)) s', w) ∧
      SameButException s s' := by
  have hends := ends_sZvalToPayload env s value flags
  rw [h] at hends
  have hend := hends.exec m w
  have hsilent := (hends.mono (fun c hc => by cases hc.2) fun _ ho => ho).exec_silent m w
  cases hx : Cmd.exec m (sZvalToPayload env value flags) s w with
  | mk o w' =>
    rw [hx] at hend hsilent
    cases hsilent
    cases o with
    | stop e s' => exact hend.elim
    | done r s' =>
      cases r with
      | none => exact hend.elim
      | some r =>
        obtain ⟨rfl, hs⟩ := hend
        exact ⟨s', rfl, hs⟩

end

/-- `s_is_payload_too_big`; the limit is compared as an unsigned number -/
def sIsPayloadTooBig (s : State) (payload : Bytes) : Bool :=
  if s.memc.userData.itemSizeLimit = 0 then false
  else payload.length > s.memc.userData.itemSizeLimit.toUInt64.toNat

end PhpMemcached
