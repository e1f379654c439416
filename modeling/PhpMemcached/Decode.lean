import PhpMemcached.Client

/-!
# Reading a value: from payload and flags word

* `ZStr`                      a `zend_string` some of whose bytes may not have been written;
* `sDecompressValue`          `s_decompress_value`;
* `sUnserializeValue`         `s_unserialize_value`;
* `sMemcachedResultToZval`    `s_memcached_result_to_zval`.
-/

namespace PhpMemcached
open Ascii Requests

/-- a `zend_string`: its length, and the bytes of its memory, the terminator included -/
structure ZStr where
  len : Nat
  cells : List (Option UInt8)

namespace ZStr

/-- `zend_string_init` -/
def ofBytes (b : Bytes) : ZStr := ⟨b.length, b.map some ++ [some 0]⟩

/-- a buffer of `cap` bytes that `w` was written to, terminated at `cap` -/
def ofWritten (len cap : Nat) (w : Bytes) : ZStr :=
  ⟨len, w.map some ++ List.replicate (cap - w.length) none ++ [some 0]⟩

variable (uninit : Nat → UInt8)

/-- the memory as C reads it -/
def memory (z : ZStr) : Bytes := z.cells.mapIdx fun i c => c.getD (uninit i)

def bytes (z : ZStr) : Bytes := (z.memory uninit).take z.len

theorem mapIdx_some (b : Bytes) (r : List (Option UInt8)) :
    (b.map some ++ r).mapIdx (fun i c => c.getD (uninit i)) =
      b ++ r.mapIdx fun i c => c.getD (uninit (i + b.length)) := by
  rw [List.mapIdx_append, List.length_map]
  congr 1
  exact List.ext_getElem (by simp) fun i h1 h2 => by simp

@[simp] theorem memory_ofBytes (b : Bytes) : (ofBytes b).memory uninit = b ++ [0] :=
  mapIdx_some uninit b [some 0]

@[simp] theorem bytes_ofBytes (b : Bytes) : (ofBytes b).bytes uninit = b := by
  rw [bytes, memory_ofBytes]
  exact List.take_left

/-- a buffer filled to the last byte is the string that was written to it -/
theorem ofWritten_full (b : Bytes) : ofWritten b.length b.length b = ofBytes b := by
  simp [ofWritten, ofBytes]

end ZStr

section
variable (env : Env)

/-- the length the header of a compressed payload tells, from its first 4 bytes -/
def headerSize (payload : Bytes) : Nat :=
  (payload.take 4).foldr (fun b n => b.toNat + 256 * n) 0

/-- `s_decompress_value`; on failure the warning, if there is one -/
def sDecompressValue (payload : Bytes) (flags : Flags) : Except (Option String) ZStr :=
  if payload.length < 4 then .error none
  else
    let isFastlz := memcValHasFlag flags memcValCompressionFastlz
    let isZstd := memcValHasFlag flags memcValCompressionZstd
    let isZlib := memcValHasFlag flags memcValCompressionZlib
    let storedLength := headerSize payload
    let data := payload.drop 4
    if isZstd && !env.build.haveZstd then
      .error (some <| "could not decompress value: value was compressed with zstd but zstd " ++
        "support has not been compiled in")
    else if !isFastlz && !isZlib && !isZstd then
      .error (some "could not decompress value: unrecognised compression type")
    else if isZstd then
      match env.zstdFrameContentSize data with
      | .error => .error (some "value was not compressed by zstd")
      | .unknown => .error (some "zstd streaming decompression not supported")
      | .size _ =>
        match env.zstdDecompress data storedLength with
        | some w => .ok (.ofWritten storedLength storedLength w)
        | none => .error (some "could not decompress value")
    else if isFastlz then
      let w := env.fastlzDecompress data storedLength
      if w.val.length > 0 then .ok (.ofWritten storedLength storedLength w)
      else .error (some "could not decompress value")
    else
      match env.zlibUncompress data storedLength with
      | some w => .ok (.ofWritten w.val.length storedLength w)
      | none => .error (some "could not decompress value")

/-- how a payload is read: whether it is, the value, an exception, a warning -/
structure Decoded where
  ok : Bool
  value : Zval
  exception : Bool
  warning : Option String

/-- a value without more ado -/
def Decoded.plain (value : Zval) : Decoded := ⟨true, value, false, none⟩

/-- a failure with its warning -/
def Decoded.failed (warning : Option String) : Decoded := ⟨false, .bool false, false, warning⟩

/-- the igbinary, JSON and msgpack cases of a build without them -/
def noSupport (have_ : Bool) (warning : String) (d : Decoded) : Decoded :=
  if have_ then d else .failed (some warning)

/-- `s_unserialize_value`; what the JSON and msgpack decoders report is not looked at -/
def sUnserializeValue (serializer : SerializerType) (valType : Flags) (payload : Bytes) :
    Decoded :=
  if valType = memcValIsSerialized then
    let out := env.phpVarUnserialize payload
    if out.ok then ⟨true, out.value, out.exception, none⟩
    else ⟨false, .bool false, out.exception, some "could not unserialize value"⟩
  else if valType = memcValIsIgbinary then
    noSupport env.build.haveIgbinary "could not unserialize value, no igbinary support"
      (let out := env.igbinaryUnserialize payload
       if out.ok then ⟨true, out.value, out.exception, none⟩
       else ⟨false, .bool false, out.exception, some "could not unserialize value with igbinary"⟩)
  else if valType = memcValIsJson then
    noSupport env.build.haveJson "could not unserialize value, no json support"
      (let out := env.phpJsonDecode (serializer == .jsonArray) payload
       ⟨true, out.value, out.exception, none⟩)
  else if valType = memcValIsMsgpack then
    noSupport env.build.haveMsgpack "could not unserialize value, no msgpack support"
      (let out := env.msgpackUnserialize payload
       ⟨true, out.value, out.exception, none⟩)
  else .plain .null

/-- `strtol`, which stops at the bounds -/
def strtol (s : Bytes) : Int64 := Int64.ofInt (max (-2 ^ 63) (min (2 ^ 63 - 1) (strtoz s)))

def dblInf : Dbl := ⟨0x7FF0000000000000⟩
def dblNegInf : Dbl := ⟨0xFFF0000000000000⟩
def dblNan : Dbl := ⟨0x7FF8000000000000⟩

/-- the double branch: three names, everything else is a numeral -/
def readDouble (data : ZStr) : Dbl :=
  let s := data.bytes env.uninit
  if s = ascii ['I', 'n', 'f', 'i', 'n', 'i', 't', 'y'] then dblInf
  else if s = ascii ['-', 'I', 'n', 'f', 'i', 'n', 'i', 't', 'y'] then dblNegInf
  else if s = ascii ['N', 'a', 'N'] then dblNan
  else env.zend.strtod (data.memory env.uninit)

/-- the type switch of `s_memcached_result_to_zval`; `payloadLen` is the length on the wire -/
def decodeData (serializer : SerializerType) (type : Flags) (payloadLen : Nat) (data : ZStr) :
    Decoded :=
  if type = memcValIsString then .plain (.str (data.bytes env.uninit))
  else if type = memcValIsLong then .plain (.long (strtol (data.memory env.uninit)))
  else if type = memcValIsDouble then .plain (.double (readDouble env data))
  else if type = memcValIsBool then
    .plain (.bool (payloadLen > 0 && (data.memory env.uninit).head? == some 49))
  else if type = memcValIsSerialized ∨ type = memcValIsIgbinary ∨ type = memcValIsJson ∨
      type = memcValIsMsgpack then
    sUnserializeValue env serializer type (data.bytes env.uninit)
  else .failed (some "unknown payload type")

/-- `s_memcached_result_to_zval`, on a handle with this serializer -/
def sMemcachedResultToZval (serializer : SerializerType) (value : ResultValue) (flags : Flags) :
    Decoded :=
  match value with
  | .missing n =>
    if n > 0 then
      .failed (some ("Could not handle non-existing value of length " ++ toString n))
    else read []
  | .bytes payload => read payload
where
  read (payload : Bytes) : Decoded :=
    if memcValHasFlag flags memcValCompressed then
      match sDecompressValue env payload flags with
      | .error warning => .failed warning
      | .ok data => decodeData env serializer (memcValGetType flags) payload.length data
    else decodeData env serializer (memcValGetType flags) payload.length (.ofBytes payload)

end
end PhpMemcached
