import PhpMemcached.Decode

/-!
# What a decompressed value consists of

* `decompressed`      what the decompressor that the flags select writes, if it succeeds;
* `ZStr.Consists`     a string of exactly these bytes, terminated after them.

The buffer is as long as the header says, and the length it ends with comes from the header (FastLZ,
zstd) or from the decompressor (zlib), so it consists of what was written exactly if the header tells
the truth.
-/

namespace PhpMemcached
open Ascii

/-- a string whose bytes are those that were written, all of them, with the terminator after them -/
structure ZStr.Consists (z : ZStr) (w : Bytes) : Prop where
  len : z.len = w.length
  written : z.cells.take z.len = w.map some
  terminated : z.cells[z.len]? = some (some 0)

section
variable (env : Env)

/-- what the selected decompressor writes for a payload with its header, if it succeeds; one that
makes a frame size known (zstd) is asked for it first -/
def decompressed (payload : Bytes) (flags : Flags) : Option Bytes :=
  let cap := headerSize payload
  let data := payload.drop 4
  if payload.length < 4 then none
  else if memcValHasFlag flags memcValCompressionZstd then
    match env.build.haveZstd, env.zstdFrameContentSize data with
    | true, .size _ => (env.zstdDecompress data cap).map Subtype.val
    | _, _ => none
  else if memcValHasFlag flags memcValCompressionFastlz then
    let w := env.fastlzDecompress data cap
    if w.val.length > 0 then some w.val else none
  else if memcValHasFlag flags memcValCompressionZlib then
    (env.zlibUncompress data cap).map Subtype.val
  else none

/-- a buffer of `cap` bytes that `w` was written to is `w` exactly if it is full -/
theorem consists_ofWritten_iff {len cap : Nat} {w : Bytes} (hw : w.length ≤ cap)
    (hlen : len = cap ∨ len = w.length) :
    (ZStr.ofWritten len cap w).Consists w ↔ w.length = cap := by
  constructor
  · intro h
    rcases hlen with rfl | rfl
    · exact h.len.symm
    · -- after a string that is too short stands no terminator
      by_contra hne
      have hlt : 0 < cap - w.length := by omega
      have hcell : (ZStr.ofWritten w.length cap w).cells[w.length]? = some none := by
        show (w.map some ++ List.replicate (cap - w.length) none ++ [some 0])[w.length]? = _
        rw [List.append_assoc, List.getElem?_append_right (by simp), List.length_map, Nat.sub_self,
          List.getElem?_append_left (by simpa using hlt), List.getElem?_replicate, if_pos hlt]
      have hterm := h.terminated
      rw [show (ZStr.ofWritten w.length cap w).len = w.length from rfl, hcell] at hterm
      cases hterm
  · rintro rfl
    obtain rfl : len = w.length := by omega
    rw [ZStr.ofWritten_full]
    refine ⟨rfl, ?_, ?_⟩
    · show (w.map some ++ [some 0]).take w.length = _
      rw [List.take_append_of_le_length (by simp), List.take_of_length_le (by simp)]
    · show (w.map some ++ [some 0])[w.length]? = _
      rw [List.getElem?_append_right (by simp), List.length_map, Nat.sub_self]
      rfl

/-- a value whose decompressor succeeds is in a buffer of the size in the header, with that length or
the length of what was written -/
theorem sDecompressValue_of_some {payload : Bytes} {flags : Flags} {w : Bytes}
    (h : decompressed env payload flags = some w) :
    w.length ≤ headerSize payload ∧ ∃ len, (len = headerSize payload ∨ len = w.length) ∧
      sDecompressValue env payload flags = .ok (.ofWritten len (headerSize payload) w) := by
  unfold decompressed at h
  unfold sDecompressValue
  dsimp only at h ⊢
  by_cases hlen : payload.length < 4
  · rw [if_pos hlen] at h
    cases h
  · rw [if_neg hlen] at h ⊢
    cases hzstd : memcValHasFlag flags memcValCompressionZstd with
    | true =>
      rw [hzstd, if_pos rfl] at h
      cases hhave : env.build.haveZstd with
      | false => rw [hhave] at h; cases h
      | true =>
        cases hsize : env.zstdFrameContentSize (payload.drop 4) with
        | error => rw [hhave, hsize] at h; cases h
        | unknown => rw [hhave, hsize] at h; cases h
        | size n =>
          rw [hhave, hsize] at h
          obtain ⟨v, hv, rfl⟩ := Option.map_eq_some_iff.mp h
          refine ⟨v.property, _, .inl rfl, ?_⟩
          simp [hv]
    | false =>
      rw [hzstd, if_neg Bool.false_ne_true] at h
      cases hfastlz : memcValHasFlag flags memcValCompressionFastlz with
      | true =>
        rw [hfastlz, if_pos rfl] at h
        by_cases hpos : (env.fastlzDecompress (payload.drop 4) (headerSize payload)).val.length > 0
        · rw [if_pos hpos] at h
          cases h
          refine ⟨(env.fastlzDecompress _ _).property, _, .inl rfl, ?_⟩
          simp [hpos]
        · rw [if_neg hpos] at h
          cases h
      | false =>
        rw [hfastlz, if_neg Bool.false_ne_true] at h
        cases hzlib : memcValHasFlag flags memcValCompressionZlib with
        | false =>
          rw [hzlib] at h
          cases h
        | true =>
          rw [hzlib, if_pos rfl] at h
          obtain ⟨v, hv, rfl⟩ := Option.map_eq_some_iff.mp h
          refine ⟨v.property, _, .inr rfl, ?_⟩
          simp [hv]

/-- a value is decompressed only if its decompressor succeeds -/
theorem decompressed_of_ok {payload : Bytes} {flags : Flags} {z : ZStr}
    (h : sDecompressValue env payload flags = .ok z) :
    ∃ w, decompressed env payload flags = some w := by
  unfold sDecompressValue at h
  unfold decompressed
  dsimp only at h ⊢
  by_cases hlen : payload.length < 4
  · rw [if_pos hlen] at h
    cases h
  · rw [if_neg hlen] at h ⊢
    cases hzstd : memcValHasFlag flags memcValCompressionZstd with
    | true =>
      rw [if_pos rfl]
      cases hhave : env.build.haveZstd with
      | false => simp [hzstd, hhave] at h
      | true =>
        cases hsize : env.zstdFrameContentSize (payload.drop 4) with
        | error => simp [hzstd, hhave, hsize] at h
        | unknown => simp [hzstd, hhave, hsize] at h
        | size n =>
          cases hv : env.zstdDecompress (payload.drop 4) (headerSize payload) with
          | none => simp [hzstd, hhave, hsize, hv] at h
          | some v => exact ⟨v.val, by simp⟩
    | false =>
      rw [if_neg Bool.false_ne_true]
      cases hfastlz : memcValHasFlag flags memcValCompressionFastlz with
      | true =>
        rw [if_pos rfl]
        by_cases hpos : (env.fastlzDecompress (payload.drop 4) (headerSize payload)).val.length > 0
        · exact ⟨_, if_pos hpos⟩
        · simp [hzstd, hfastlz, hpos] at h
      | false =>
        rw [if_neg Bool.false_ne_true]
        cases hzlib : memcValHasFlag flags memcValCompressionZlib with
        | false => simp [hzstd, hfastlz, hzlib] at h
        | true =>
          rw [if_pos rfl]
          cases hv : env.zlibUncompress (payload.drop 4) (headerSize payload) with
          | none => simp [hzstd, hfastlz, hzlib, hv] at h
          | some v => exact ⟨v.val, rfl⟩

/-- **A decompressed value consists of what the decompressor wrote exactly if that is as much as the
header says.** -/
theorem decompress_consists_iff (payload : Bytes) (flags : Flags) :
    (∀ z, sDecompressValue env payload flags = .ok z →
        ∃ w, decompressed env payload flags = some w ∧ z.Consists w) ↔
      ∀ w, decompressed env payload flags = some w → w.length = headerSize payload := by
  constructor
  · intro h w hw
    obtain ⟨hle, len, hlen, hz⟩ := sDecompressValue_of_some env hw
    obtain ⟨w', hw', hconsists⟩ := h _ hz
    obtain rfl : w = w' := Option.some.inj (hw.symm.trans hw')
    exact (consists_ofWritten_iff hle hlen).mp hconsists
  · intro h z hz
    obtain ⟨w, hw⟩ := decompressed_of_ok env hz
    obtain ⟨hle, len, hlen, hz'⟩ := sDecompressValue_of_some env hw
    obtain rfl : z = _ := Except.ok.inj (hz.symm.trans hz')
    exact ⟨w, hw, (consists_ofWritten_iff hle hlen).mpr (h w hw)⟩

end

/-- a build whose FastLZ decodes every input to the letter `A` -/
def oneByteEnv : Env :=
  { plainEnv with
    fastlzDecompress := fun _ cap => if h : 1 ≤ cap then ⟨[65], h⟩ else ⟨[], Nat.zero_le cap⟩ }

/-- **With a header that says 2, the second byte of the value is one that nothing wrote.** -/
theorem decompress_unwritten_byte :
    ∃ z, sDecompressValue oneByteEnv [2, 0, 0, 0, 0, 65]
        (memcValSetFlag 0 (memcValCompressed ||| memcValCompressionFastlz)) = .ok z ∧
      z.len = 2 ∧ z.cells = [some 65, none, some 0] ∧
      ¬ ∃ w, decompressed oneByteEnv [2, 0, 0, 0, 0, 65]
        (memcValSetFlag 0 (memcValCompressed ||| memcValCompressionFastlz)) = some w ∧
        z.Consists w := by
  refine ⟨_, rfl, rfl, rfl, ?_⟩
  rintro ⟨w, hw, hz⟩
  cases hw
  cases hz.len

end PhpMemcached
