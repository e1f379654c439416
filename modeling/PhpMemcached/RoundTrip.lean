import PhpMemcached.Encode
import PhpMemcached.Decode
import Mathlib.Tactic.NormNum

/-!
# What is written is read back

* `Lossless`             the compressors of a writer are inverted by the decompressors of a reader;
* `Carries`              a payload and flags word from which the reader recovers some bytes;
* `SerializerInverts`    the reader's decoder inverts the writer's serializer on a value;
* `Storable`             the values that make the trip: strings, integers, booleans and what a
                         serializer handles.

The header in front of a compressed payload holds 32 bits, so a serialized form of `2 ^ 32` bytes
or more does not come back.
-/

namespace PhpMemcached
open Ascii Requests

/-- the header tells the low 32 bits of the length -/
theorem headerSize_sizeHeader (n : Nat) (r : Bytes) :
    headerSize (sizeHeader n ++ r) = n % 2 ^ 32 := by
  simp only [headerSize, sizeHeader, List.cons_append, List.nil_append, List.take_succ_cons,
    List.take_zero, List.foldr_cons, List.foldr_nil, UInt8.toNat_ofNat']
  omega

theorem drop_sizeHeader (n : Nat) (r : Bytes) : (sizeHeader n ++ r).drop 4 = r := rfl

theorem length_sizeHeader (n : Nat) (r : Bytes) : (sizeHeader n ++ r).length = 4 + r.length := by
  simp only [sizeHeader, List.length_append, List.length_cons, List.length_nil]

/-- every compressor of `writer`, where it succeeds, is inverted by its decompressor in `reader`,
given room for the original length -/
structure Lossless (writer reader : Env) : Prop where
  fastlz : ∀ p, writer.fastlzCompress p ≠ [] →
    (reader.fastlzDecompress (writer.fastlzCompress p) p.length).val = p
  zlib : ∀ cap level p b, writer.zlibCompress2 cap level p = some b →
    ∃ w, reader.zlibUncompress b p.length = some w ∧ w.val = p
  zstd : ∀ cap level p b, writer.build.haveZstd = true → writer.zstdCompress cap level p = some b →
    reader.build.haveZstd = true ∧ (∃ n, reader.zstdFrameContentSize b = .size n) ∧
    ∃ w, reader.zstdDecompress b p.length = some w ∧ w.val = p

section
variable {writer reader : Env}

/-- the reader recovers the bytes `b` from payload and flags word -/
def Carries (reader : Env) (b p : Bytes) (flags : Flags) : Prop :=
  (memcValHasFlag flags memcValCompressed = false ∧ p = b) ∨
  (memcValHasFlag flags memcValCompressed = true ∧
    sDecompressValue reader p flags = .ok (.ofBytes b))

theorem sDecompressValue_congr {flags flags' : Flags} (p : Bytes)
    (h : memcValGetFlags flags' = memcValGetFlags flags) :
    sDecompressValue reader p flags' = sDecompressValue reader p flags := by
  have hflag : ∀ x, memcValHasFlag flags' x = memcValHasFlag flags x := by
    intro x
    rw [memcValHasFlag, memcValHasFlag, h]
  simp only [sDecompressValue, hflag]

theorem Carries.setUserFlags {b p : Bytes} {flags : Flags} (h : Carries reader b p flags)
    (u : Flags) : Carries reader b p (memcValSetUserFlags flags u) := by
  rw [Carries, hasFlag_setUserFlags, sDecompressValue_congr p (getFlags_setUserFlags flags u)]
  exact h

/-- the type switch works on the recovered bytes -/
theorem Carries.read {b p : Bytes} {flags : Flags} (h : Carries reader b p flags)
    (rser : SerializerType) :
    sMemcachedResultToZval reader rser (.bytes p) flags =
      decodeData reader rser (memcValGetType flags) p.length (.ofBytes b) := by
  show sMemcachedResultToZval.read reader rser flags p = _
  unfold sMemcachedResultToZval.read
  rcases h with ⟨hc, rfl⟩ | ⟨hc, hd⟩
  · rw [hc]
    rfl
  · rw [if_pos hc, hd]

/-- the compression bits a compressor sets -/
theorem flags_of_setFlag {flags f : Flags} (h : flags &&& memcMaskInternal = 0) (x : Flags) :
    memcValHasFlag (memcValSetFlag flags f) x =
      (((((f <<< 4) &&& memcMaskInternal) >>> 4) &&& x) == x) := by
  rw [memcValHasFlag, getFlags_setFlag f h]

/-! ## the three decompressors -/

theorem sDecompressValue_fastlz {p b : Bytes} {flags : Flags} (h4 : 4 ≤ p.length)
    (hzstd : memcValHasFlag flags memcValCompressionZstd = false)
    (hfastlz : memcValHasFlag flags memcValCompressionFastlz = true)
    (hsize : headerSize p = b.length) (hb : 0 < b.length)
    (hd : (reader.fastlzDecompress (p.drop 4) b.length).val = b) :
    sDecompressValue reader p flags = .ok (.ofBytes b) := by
  unfold sDecompressValue
  rw [if_neg (by omega)]
  simp only [hzstd, hfastlz]
  generalize headerSize p = n at hsize ⊢
  subst hsize
  rw [hd]
  simp [hb, ZStr.ofWritten_full]

theorem sDecompressValue_zlib {p b : Bytes} {flags : Flags} (h4 : 4 ≤ p.length)
    (hzstd : memcValHasFlag flags memcValCompressionZstd = false)
    (hfastlz : memcValHasFlag flags memcValCompressionFastlz = false)
    (hzlib : memcValHasFlag flags memcValCompressionZlib = true)
    (hsize : headerSize p = b.length)
    (hd : ∃ w, reader.zlibUncompress (p.drop 4) b.length = some w ∧ w.val = b) :
    sDecompressValue reader p flags = .ok (.ofBytes b) := by
  obtain ⟨w, hw, hval⟩ := hd
  unfold sDecompressValue
  rw [if_neg (by omega)]
  simp only [hzstd, hfastlz, hzlib]
  generalize headerSize p = n at hsize ⊢
  subst hsize
  simp [hw, hval, ZStr.ofWritten_full]

theorem sDecompressValue_zstd {p b : Bytes} {flags : Flags} (h4 : 4 ≤ p.length)
    (hzstd : memcValHasFlag flags memcValCompressionZstd = true)
    (hhave : reader.build.haveZstd = true) (hsize : headerSize p = b.length)
    (hframe : ∃ n, reader.zstdFrameContentSize (p.drop 4) = .size n)
    (hd : ∃ w, reader.zstdDecompress (p.drop 4) b.length = some w ∧ w.val = b) :
    sDecompressValue reader p flags = .ok (.ofBytes b) := by
  obtain ⟨n, hn⟩ := hframe
  obtain ⟨w, hw, hval⟩ := hd
  unfold sDecompressValue
  rw [if_neg (by omega)]
  simp only [hzstd, hhave, hn]
  generalize headerSize p = n at hsize ⊢
  subst hsize
  simp [hw, hval, ZStr.ofWritten_full]

/-- **What `s_compress_value` leaves, the reader recovers**, as long as the length fits the
header. -/
theorem sCompressValue_carries (hl : Lossless writer reader) {b : Bytes} (hb : b ≠ [])
    (hlen : b.length < 2 ^ 32) {flags : Flags} (hf : flags &&& memcMaskInternal = 0)
    (t : CompressionType) (level : Int64) :
    Carries reader b (sCompressValue writer t level b flags).1
      (sCompressValue writer t level b flags).2 := by
  have hplain : Carries reader b b flags := by
    refine .inl ⟨?_, rfl⟩
    rw [memcValHasFlag, memcValGetFlags, hf]
    rfl
  unfold sCompressValue
  cases hc : compressBuffer writer t level b with
  | none => exact hplain
  | some r =>
    obtain ⟨buffer, typeFlag⟩ := r
    dsimp only
    split
    · exact hplain
    · right
      have hsize : headerSize (sizeHeader b.length ++ buffer) = b.length := by
        rw [headerSize_sizeHeader, Nat.mod_eq_of_lt hlen]
      have h4 : 4 ≤ (sizeHeader b.length ++ buffer).length := by
        rw [length_sizeHeader]
        omega
      cases t with
      | fastlz =>
        simp only [compressBuffer] at hc
        split at hc
        · rename_i hpos
          cases hc
          refine ⟨by rw [flags_of_setFlag hf]; decide, sDecompressValue_fastlz h4 ?_ ?_ hsize
            (List.length_pos_iff.mpr hb) (hl.fastlz b (List.length_pos_iff.mp hpos))⟩
          · rw [flags_of_setFlag hf]
            decide
          · rw [flags_of_setFlag hf]
            decide
        · cases hc
      | zlib =>
        simp only [compressBuffer, Option.map_eq_some_iff] at hc
        obtain ⟨buffer', hz, heq⟩ := hc
        cases heq
        refine ⟨by rw [flags_of_setFlag hf]; decide, sDecompressValue_zlib h4 ?_ ?_ ?_ hsize
          (hl.zlib _ _ b buffer hz)⟩
        · rw [flags_of_setFlag hf]
          decide
        · rw [flags_of_setFlag hf]
          decide
        · rw [flags_of_setFlag hf]
          decide
      | zstd =>
        simp only [compressBuffer] at hc
        split at hc
        · rename_i hhave
          simp only [Option.map_eq_some_iff] at hc
          obtain ⟨buffer', hz, heq⟩ := hc
          cases heq
          obtain ⟨hreader, hframe, hd⟩ := hl.zstd _ _ b buffer hhave hz
          refine ⟨by rw [flags_of_setFlag hf]; decide, sDecompressValue_zstd h4 ?_ hreader hsize
            hframe hd⟩
          rw [flags_of_setFlag hf]
          decide
        · cases hc

theorem sCompressValue_type (t : CompressionType) (level : Int64) (b : Bytes) (flags : Flags) :
    memcValGetType (sCompressValue writer t level b flags).2 = memcValGetType flags ∧
    memcValGetUserFlags (sCompressValue writer t level b flags).2 = memcValGetUserFlags flags := by
  unfold sCompressValue
  split
  · exact ⟨rfl, rfl⟩
  · split
    · exact ⟨rfl, rfl⟩
    · exact ⟨getType_setFlag _ _, getUserFlags_setFlag _ _⟩

/-- the bit of a codec -/
def CompressionType.typeFlag : CompressionType → Flags
  | .fastlz => memcValCompressionFastlz
  | .zlib => memcValCompressionZlib
  | .zstd => memcValCompressionZstd

theorem typeFlag_of_compressBuffer {env : Env} {t : CompressionType} {level : Int64}
    {b buffer : Bytes} {typeFlag : Flags}
    (h : compressBuffer env t level b = some (buffer, typeFlag)) : typeFlag = t.typeFlag := by
  cases t with
  | fastlz =>
    simp only [compressBuffer] at h
    split at h
    · cases h
      rfl
    · cases h
  | zlib =>
    obtain ⟨_, -, heq⟩ := Option.map_eq_some_iff.mp h
    cases heq
    rfl
  | zstd =>
    simp only [compressBuffer] at h
    split at h
    · obtain ⟨_, -, heq⟩ := Option.map_eq_some_iff.mp h
      cases heq
      rfl
    · cases h

/-- a value that does not come out compressed is left as it was -/
theorem sCompressValue_of_not_compressed (env : Env) (t : CompressionType) (level : Int64)
    (b : Bytes) {flags : Flags} (hf : flags &&& memcMaskInternal = 0)
    (h : memcValHasFlag (sCompressValue env t level b flags).2 memcValCompressed = false) :
    sCompressValue env t level b flags = (b, flags) := by
  unfold sCompressValue at h ⊢
  cases hc : compressBuffer env t level b with
  | none => rfl
  | some r =>
    obtain ⟨buffer, typeFlag⟩ := r
    rw [hc] at h
    dsimp only at h ⊢
    split at h
    · rename_i hsize
      exact if_pos hsize
    · rw [flags_of_setFlag hf, typeFlag_of_compressBuffer hc] at h
      cases t <;> exact absurd h (by decide)

/-- a payload that is not compressed is the bytes themselves -/
theorem finishPayload_of_not_compressed (env : Env) (ud : UserData) (compress : Bool) (b : Bytes)
    {flags : Flags} (hf : flags &&& memcMaskInternal = 0)
    (h : memcValHasFlag (finishPayload env ud compress b flags).2 memcValCompressed = false) :
    finishPayload env ud compress b flags = finishPayload env ud false b flags := by
  have hplain : compressAbove env ud false b flags = (b, flags) := if_pos (.inr (.inr rfl))
  have hflag : memcValHasFlag (compressAbove env ud compress b flags).2 memcValCompressed =
      false := by
    unfold finishPayload at h
    dsimp only at h
    split at h
    · rw [hasFlag_setUserFlags] at h
      exact h
    · exact h
  have habove : compressAbove env ud compress b flags = (b, flags) := by
    unfold compressAbove at hflag ⊢
    split
    · rfl
    · rename_i hc
      rw [if_neg hc] at hflag
      exact sCompressValue_of_not_compressed env _ _ b hf hflag
  rw [finishPayload, finishPayload, habove, hplain]

/-- the user flags of a word without any, once `set_udf_flags` is put in -/
theorem getUserFlags_udf (udf : UdfFlags) (h : 0 ≤ udf.val) {flags : Flags}
    (hf : memcValGetUserFlags flags = 0) :
    ((memcValGetUserFlags (memcValSetUserFlags flags (BitVec.ofInt 32 udf.val))).toNat : Int) =
      udf.val := by
  have hle : udf.val ≤ 65535 := udf.le
  have hnat : (BitVec.ofInt 32 udf.val).toNat = udf.val.toNat := by
    rw [BitVec.toNat_ofInt]
    omega
  rw [getUserFlags_setUserFlags hf (by omega), hnat]
  omega

/-- the payload and word `s_zval_to_payload` ends with -/
structure Finished (reader : Env) (ud : UserData) (b : Bytes) (flags : Flags)
    (r : Bytes × Flags) : Prop where
  carries : Carries reader b r.1 r.2
  type : memcValGetType r.2 = memcValGetType flags
  user : ((memcValGetUserFlags r.2).toNat : Int) = max 0 ud.setUdfFlags.val

/-- the user flags go in last, over whatever the compressor left -/
theorem Finished.of_compressAbove {ud : UserData} {compress : Bool} {b : Bytes} {flags : Flags}
    (hc : Carries reader b (compressAbove writer ud compress b flags).1
      (compressAbove writer ud compress b flags).2)
    (ht : memcValGetType (compressAbove writer ud compress b flags).2 = memcValGetType flags)
    (hu : memcValGetUserFlags (compressAbove writer ud compress b flags).2 = 0) :
    Finished reader ud b flags (finishPayload writer ud compress b flags) := by
  unfold finishPayload
  dsimp only
  split
  · rename_i h0
    refine ⟨hc.setUserFlags _, (getType_setUserFlags _ _).trans ht, ?_⟩
    rw [getUserFlags_udf _ h0 hu]
    omega
  · refine ⟨hc, ht, ?_⟩
    rw [hu]
    show (0 : Int) = _
    omega

theorem finishPayload_finished (hl : Lossless writer reader) (ud : UserData) {compress : Bool}
    {b : Bytes} (hlen : compress = true → b.length < 2 ^ 32) {flags : Flags}
    (hf : flags &&& memcMaskInternal = 0) (hu : memcValGetUserFlags flags = 0) :
    Finished reader ud b flags (finishPayload writer ud compress b flags) := by
  have hplain : Carries reader b b flags := by
    refine .inl ⟨?_, rfl⟩
    rw [memcValHasFlag, memcValGetFlags, hf]
    rfl
  apply Finished.of_compressAbove
  all_goals unfold compressAbove
  · split
    · exact hplain
    · rename_i hcomp
      simp only [not_or, Bool.not_eq_false] at hcomp
      have hne : b ≠ [] := fun h => hcomp.1 (by rw [h]; rfl)
      exact sCompressValue_carries hl hne (hlen hcomp.2.2) hf _ _
  · split
    · rfl
    · exact (sCompressValue_type _ _ _ _).1
  · split
    · exact hu
    · exact (sCompressValue_type _ _ _ _).2.trans hu

/-! ## the values -/

/-- `null`, arrays and objects: what is left to a serializer -/
def Zval.IsSerialized : Zval → Prop
  | .null | .arr _ | .obj _ => True
  | _ => False

/-- the serializer of the writer succeeds on `v` with the bytes `b`, and the decoder, with the
settings of the reader, takes them back to `v` -/
inductive SerializerInverts (writer reader : Env) (ser rser : SerializerType) (v : Zval)
    (b : Bytes) : Prop where
  | php (he : serializerCase writer ser = .php)
      (hs : writer.phpVarSerialize v = ⟨true, some b, false⟩)
      (hd : reader.phpVarUnserialize b = ⟨true, v, false⟩)
  | igbinary (he : serializerCase writer ser = .igbinary)
      (hs : writer.igbinarySerialize v = ⟨true, some b, false⟩)
      (hr : reader.build.haveIgbinary = true)
      (hd : reader.igbinaryUnserialize b = ⟨true, v, false⟩)
  | json (he : serializerCase writer ser = .json)
      (hs : writer.phpJsonEncode v = ⟨true, some b, false⟩)
      (hr : reader.build.haveJson = true)
      (hd : reader.phpJsonDecode (rser == .jsonArray) b = ⟨true, v, false⟩)
  | msgpack (he : serializerCase writer ser = .msgpack)
      (hs : writer.msgpackSerialize v = ⟨true, some b, false⟩)
      (hr : reader.build.haveMsgpack = true)
      (hd : reader.msgpackUnserialize b = ⟨true, v, false⟩)

/-- the values of the round trip, stored in state `s`; `limit` bounds the serialized form -/
inductive Storable (writer reader : Env) (s : State) (rser : SerializerType)
    (limit : Nat → Prop) : Zval → Prop where
  | str (b : Bytes) (h : b.length ≤ 2 ^ 31 - 1) : Storable writer reader s rser limit (.str b)
  | long (n : Int64) : Storable writer reader s rser limit (.long n)
  | bool (b : Bool) : Storable writer reader s rser limit (.bool b)
  | serialized (v : Zval) (b : Bytes) (hv : v.IsSerialized) (hexc : s.exception = false)
      (hlen : limit b.length)
      (h : SerializerInverts writer reader s.memc.userData.serializer rser v b) :
      Storable writer reader s rser limit v

/-- `v`, written in state `s`, is read back as `v` with the user flags of the writer -/
def RoundTrips (writer reader : Env) (s : State) (rser : SerializerType) (v : Zval) {σ : Type}
    (h : Handler Call Ans σ) (w : σ) : Prop :=
  ∃ payload flags s' w',
    Cmd.exec h (sZvalToPayload writer v 0) s w = (.done (some (payload, flags)) s', w') ∧
    sMemcachedResultToZval reader rser (.bytes payload) flags = .plain v ∧
    ((memcValGetUserFlags flags).toNat : Int) = max 0 s.memc.userData.setUdfFlags.val

theorem strtol_intText (n : Int64) : strtol (intText n.toInt ++ [0]) = n := by
  have h1 := n.le_toInt
  have h2 := n.toInt_lt
  rw [strtol, strtoz_intText n.toInt (by rfl), show max (-2 ^ 63) (min (2 ^ 63 - 1) n.toInt) =
    n.toInt by omega]
  exact Int64.ofInt_toInt n

/-- the word before compression: a type alone -/
theorem setType_zero_clear (t : Flags) : memcValSetType 0 t &&& memcMaskInternal = 0 ∧
    memcValGetUserFlags (memcValSetType 0 t) = 0 := by
  refine ⟨?_, ?_⟩
  · rw [memcValSetType, or_mask_and 0 t memcMaskType memcMaskInternal (by decide)]
    rfl
  · rw [getUserFlags_setType]
    rfl

/-- a run that ends with a finished payload is the round trip, if the type switch reads it right -/
theorem RoundTrips.of_finish (hl : Lossless writer reader) {s : State} {rser : SerializerType}
    {v : Zval} {b : Bytes} {t : Flags} {compress : Bool}
    (hout : payloadOut writer s v 0 = finishOut writer s compress b (memcValSetType 0 t))
    (hlen : compress = true → b.length < 2 ^ 32)
    (hread : decodeData reader rser (memcValGetType (memcValSetType 0 t))
      (finishPayload writer s.memc.userData compress b (memcValSetType 0 t)).1.length
      (.ofBytes b) = .plain v)
    {σ : Type} (h : Handler Call Ans σ) (w : σ) : RoundTrips writer reader s rser v h w := by
  obtain ⟨hclear, huser⟩ := setType_zero_clear t
  have hfin := finishPayload_finished hl s.memc.userData hlen hclear huser
  obtain ⟨s', hx, -⟩ := exec_of_payloadOut writer hout h w
  refine ⟨_, _, s', w, hx, ?_, hfin.user⟩
  rw [hfin.carries.read rser, hfin.type]
  exact hread

theorem payloadOut_serialized {s : State} {v : Zval} (hv : v.IsSerialized) :
    payloadOut writer s v 0 = serializedOut writer s v 0 := by
  cases v <;> first | rfl | exact hv.elim

/-- what a serializer that is inverted leaves, and how the decoder reads it -/
theorem SerializerInverts.types {ser rser : SerializerType} {v : Zval} {b : Bytes}
    (h : SerializerInverts writer reader ser rser v b) :
    ∃ t, serializeBuffer writer ser v = (.ok (some b, t), false) ∧
      ∀ n, decodeData reader rser (memcValGetType (memcValSetType 0 t)) n (.ofBytes b) =
        .plain v := by
  cases h with
  | php he hs hd =>
    refine ⟨memcValIsSerialized, ?_, fun n => ?_⟩
    · rw [serializeBuffer, he, hs]
      rfl
    · rw [show memcValGetType (memcValSetType 0 memcValIsSerialized) = memcValIsSerialized by
        decide]
      unfold decodeData sUnserializeValue
      rw [ZStr.bytes_ofBytes, hd]
      rfl
  | igbinary he hs hr hd =>
    refine ⟨memcValIsIgbinary, ?_, fun n => ?_⟩
    · rw [serializeBuffer, he, hs]
      rfl
    · rw [show memcValGetType (memcValSetType 0 memcValIsIgbinary) = memcValIsIgbinary by decide]
      unfold decodeData sUnserializeValue noSupport
      rw [ZStr.bytes_ofBytes, hd, hr]
      rfl
  | json he hs hr hd =>
    refine ⟨memcValIsJson, ?_, fun n => ?_⟩
    · rw [serializeBuffer, he, hs]
    · rw [show memcValGetType (memcValSetType 0 memcValIsJson) = memcValIsJson by decide]
      unfold decodeData sUnserializeValue noSupport
      rw [ZStr.bytes_ofBytes, hd, hr]
      rfl
  | msgpack he hs hr hd =>
    refine ⟨memcValIsMsgpack, ?_, fun n => ?_⟩
    · rw [serializeBuffer, he, hs]
      rfl
    · rw [show memcValGetType (memcValSetType 0 memcValIsMsgpack) = memcValIsMsgpack by decide]
      unfold decodeData sUnserializeValue noSupport
      rw [ZStr.bytes_ofBytes, hd, hr]
      rfl

theorem roundTrips_of_storable (hl : Lossless writer reader) {s : State} {rser : SerializerType}
    {v : Zval} (hv : Storable writer reader s rser (· < 2 ^ 32) v) {σ : Type}
    (h : Handler Call Ans σ) (w : σ) : RoundTrips writer reader s rser v h w := by
  cases hv with
  | str b hb =>
    refine .of_finish hl rfl (fun _ => by omega) ?_ h w
    rw [show memcValGetType (memcValSetType 0 memcValIsString) = memcValIsString by decide]
    unfold decodeData
    rw [ZStr.bytes_ofBytes]
    rfl
  | long n =>
    refine .of_finish hl rfl (fun hc => absurd hc (by decide)) ?_ h w
    rw [show memcValGetType (memcValSetType 0 memcValIsLong) = memcValIsLong by decide]
    unfold decodeData
    rw [ZStr.memory_ofBytes, strtol_intText]
    rfl
  | bool b =>
    cases b with
    | true =>
      refine .of_finish hl rfl (fun hc => absurd hc (by decide)) ?_ h w
      rw [finishPayload_plain]
      rfl
    | false =>
      refine .of_finish hl rfl (fun hc => absurd hc (by decide)) ?_ h w
      rw [finishPayload_plain]
      rfl
  | serialized v b hv hexc hlen hser =>
    obtain ⟨t, hbuf, hread⟩ := hser.types
    have hout : payloadOut writer s v 0 =
        finishOut writer s s.memc.userData.compressionEnabled b (memcValSetType 0 t) := by
      rw [payloadOut_serialized hv, serializedOut, hbuf]
      simp [hexc]
    exact .of_finish hl hout (fun _ => hlen) (hread _) h w

/-- what a writer in state `s` makes of `v` is read as `v` -/
def ReadsBack (writer reader : Env) (s : State) (rser : SerializerType) (v : Zval) : Prop :=
  ∀ payload flags, payloadOut writer s v 0 = .payload payload flags →
    sMemcachedResultToZval reader rser (.bytes payload) flags = .plain v

theorem readsBack_of_storable (hl : Lossless writer reader) {s : State} {rser : SerializerType}
    {v : Zval} (hv : Storable writer reader s rser (· < 2 ^ 32) v) :
    ReadsBack writer reader s rser v := by
  intro payload flags hout
  obtain ⟨s₁, hx₁, -⟩ := exec_of_payloadOut writer hout noServers ()
  obtain ⟨p, f, s₂, w₂, hx₂, hread, -⟩ := roundTrips_of_storable hl hv noServers ()
  rw [hx₁] at hx₂
  cases hx₂
  exact hread

/-- **The codec round trip.** A string, an integer, a boolean, or a value whose serialized form is
shorter than `2 ^ 32` bytes, is read back as it was written, whatever the options of writer and
reader, and its word tells the writer's user flags. -/
theorem codec_roundTrip (hl : Lossless writer reader) {s : State} {rser : SerializerType}
    {v : Zval} (hv : Storable writer reader s rser (· < 2 ^ 32) v) {σ : Type}
    (h : Handler Call Ans σ) (w : σ) : RoundTrips writer reader s rser v h w :=
  roundTrips_of_storable hl hv h w

end

theorem plainEnv_lossless : Lossless plainEnv plainEnv where
  fastlz _ h := absurd rfl h
  zlib _ _ _ _ h := by cases h
  zstd _ _ _ _ h := by cases h

/-- the trip of a string between two clients of the smallest build -/
theorem codec_roundTrip_str :
    RoundTrips plainEnv plainEnv (newObject iniDefaults 1) .php (.str (ascii ['v'])) noServers () :=
  codec_roundTrip plainEnv_lossless (.str _ (by decide)) noServers ()

/-! ## a serialized form that does not fit the header -/

/-- a build whose serializer has one object, with the form `form`, which its zlib packs into a
byte -/
def packingEnv (form : Bytes) : Env where
  __ := plainEnv
  phpVarSerialize := fun
    | .obj 0 => ⟨true, some form, false⟩
    | _ => ⟨false, none, false⟩
  phpVarUnserialize _ := ⟨true, .obj 0, false⟩
  zlibCompress2 _ _ p := if p = form then some [1] else none
  zlibUncompress b cap :=
    if h : b = [1] ∧ form.length ≤ cap then some ⟨form, h.2⟩ else none

/-- a client that compresses with zlib -/
def zlibObject : State := newObject { iniDefaults with compressionType := .zlib } 1

section
variable (form : Bytes)

theorem packingEnv_lossless : Lossless (packingEnv form) (packingEnv form) where
  fastlz _ h := absurd rfl h
  zlib _ _ p b h := by
    change (if p = form then some [1] else none) = some b at h
    split at h
    · rename_i hp
      cases h
      refine ⟨⟨form, le_of_eq (congrArg List.length hp.symm)⟩, ?_, hp.symm⟩
      exact dif_pos ⟨rfl, le_of_eq (congrArg List.length hp.symm)⟩
    · cases h
  zstd _ _ _ _ h := by cases h

theorem packingEnv_storable :
    Storable (packingEnv form) (packingEnv form) zlibObject .php (fun _ => True) (.obj 0) :=
  .serialized _ form trivial rfl trivial (.php rfl rfl rfl)

variable {form}

/-- a form of `2 ^ 32` bytes is compressed, under a header that says 0 -/
theorem packingEnv_compress (h : form.length = 2 ^ 32) (flags : Flags) :
    compressAbove (packingEnv form) zlibObject.memc.userData true form flags =
      ([0, 0, 0, 0, 1], memcValSetFlag flags (memcValCompressed ||| memcValCompressionZlib)) := by
  have hthreshold : (packingEnv form).ini.compressionThreshold.toUInt64.toNat = 2000 := rfl
  have hfactor : (packingEnv form).ini.compressionFactor = 13 / 10 := rfl
  have hheader : sizeHeader form.length = [0, 0, 0, 0] := by
    rw [h]
    rfl
  have hbuffer : compressBuffer (packingEnv form) .zlib 3 form =
      some ([1], memcValCompressionZlib) := by
    show Option.map _ (if form = form then some [1] else none) = _
    rw [if_pos rfl]
    rfl
  rw [compressAbove, hthreshold, if_neg (by rw [h]; norm_num)]
  show sCompressValue (packingEnv form) .zlib 3 form flags = _
  rw [sCompressValue, hbuffer, hfactor, hheader]
  dsimp only
  rw [if_neg]
  · rfl
  · rw [h]
    norm_num

/-- the reader makes no buffer of that size, and zlib refuses -/
theorem packingEnv_read (h : form.length = 2 ^ 32) :
    sMemcachedResultToZval (packingEnv form) .php (.bytes [0, 0, 0, 0, 1])
        (memcValSetFlag (memcValSetType 0 memcValIsSerialized)
          (memcValCompressed ||| memcValCompressionZlib)) =
      .failed (some "could not decompress value") := by
  have hnone : (packingEnv form).zlibUncompress [1] 0 = none :=
    dif_neg fun hc => by
      have := hc.2
      omega
  show sMemcachedResultToZval.read _ _ _ _ = _
  rw [sMemcachedResultToZval.read, if_pos (by decide)]
  have hdecompress : ∀ flags, memcValHasFlag flags memcValCompressionFastlz = false →
      memcValHasFlag flags memcValCompressionZstd = false →
      memcValHasFlag flags memcValCompressionZlib = true →
      sDecompressValue (packingEnv form) [0, 0, 0, 0, 1] flags =
        .error (some "could not decompress value") := by
    intro flags hf hs hz
    have hhead : headerSize [0, 0, 0, 0, 1] = 0 := rfl
    rw [sDecompressValue, if_neg (by decide), hf, hs, hz, hhead]
    simp only [List.drop_succ_cons, List.drop_zero, hnone, Bool.false_and, Bool.not_true,
      Bool.and_false, Bool.false_eq_true, if_false]
  rw [hdecompress _ (by decide) (by decide) (by decide)]

theorem packingEnv_payloadOut (h : form.length = 2 ^ 32) :
    payloadOut (packingEnv form) zlibObject (.obj 0) 0 =
      .payload [0, 0, 0, 0, 1] (memcValSetFlag (memcValSetType 0 memcValIsSerialized)
        (memcValCompressed ||| memcValCompressionZlib)) := by
  show finishOut (packingEnv form) zlibObject true form (memcValSetType 0 memcValIsSerialized) = _
  rw [finishOut, finishPayload, packingEnv_compress h]
  rfl

end

/-- the failing case: a serialized form of `2 ^ 32` bytes, compressed to one -/
theorem codec_header_wraps :
    ¬ ∀ (writer reader : Env), Lossless writer reader → ∀ (s : State) (rser : SerializerType)
      (v : Zval), Storable writer reader s rser (fun _ => True) v →
      RoundTrips writer reader s rser v noServers () := by
  intro hall
  have hlen : (List.replicate (2 ^ 32) (0 : UInt8)).length = 2 ^ 32 := List.length_replicate
  obtain ⟨payload, flags, s', w', hx, hread, -⟩ :=
    hall _ _ (packingEnv_lossless _) _ _ _ (packingEnv_storable (List.replicate (2 ^ 32) 0))
  obtain ⟨s'', hx', -⟩ :=
    exec_of_payloadOut _ (packingEnv_payloadOut hlen) noServers ()
  rw [hx] at hx'
  cases hx'
  rw [packingEnv_read hlen] at hread
  cases hread

end PhpMemcached
