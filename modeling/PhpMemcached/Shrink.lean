import Mathlib.Tactic.NormNum
import PhpMemcached.SizeLimit

/-!
# When compression makes an item larger

* `Bloats`            a codec result that the factor lets pass, and that is longer than the payload
                      with its header;
* `toCompress`        the bytes `s_zval_to_payload` offers to the codec;
* `State.limited`     a state with compression on or off and a limit;
* `compression_shrinks_iff`   what is stored is not longer, and nothing is refused that was accepted
                      without compression, unless the codec result is of that kind.
-/

namespace PhpMemcached
open Ascii Requests

section
variable (env : Env)

/-- the result of the codec is small enough for the factor, and with the 4 bytes of the header longer
than the payload -/
def Bloats (type : CompressionType) (level : Int64) (payload : Bytes) : Prop :=
  ∃ buffer typeFlag, compressBuffer env type level payload = some (buffer, typeFlag) ∧
    (buffer.length : Rat) * env.ini.compressionFactor < payload.length ∧
    payload.length < buffer.length + 4

theorem length_sCompressValue_le_iff (type : CompressionType) (level : Int64) (payload : Bytes)
    (flags : Flags) :
    (sCompressValue env type level payload flags).1.length ≤ payload.length ↔
      ¬ Bloats env type level payload := by
  unfold sCompressValue Bloats
  cases hbuf : compressBuffer env type level payload with
  | none => exact iff_of_true (Nat.le_refl _) fun ⟨_, _, h, _⟩ => by cases h
  | some r =>
    obtain ⟨buffer, typeFlag⟩ := r
    dsimp only
    split
    · rename_i hle
      refine iff_of_true (Nat.le_refl _) ?_
      rintro ⟨buffer', typeFlag', ⟨⟩, hlt, -⟩
      exact absurd hlt (not_lt.mpr hle)
    · rename_i hlt
      have hlen : (sizeHeader payload.length ++ buffer).length = buffer.length + 4 := by
        rw [List.length_append]
        exact Nat.add_comm _ _
      rw [hlen]
      constructor
      · rintro hle ⟨buffer', typeFlag', ⟨⟩, -, hmore⟩
        exact absurd hmore (Nat.not_lt.mpr hle)
      · intro hnot
        exact Nat.le_of_not_lt fun hmore => hnot ⟨buffer, typeFlag, rfl, not_le.mp hlt, hmore⟩

/-! ## from values to payloads -/

/-- a payload that reaches the threshold -/
def ReachesThreshold (payload : Bytes) : Prop :=
  payload.length ≠ 0 ∧ env.ini.compressionThreshold.toUInt64.toNat ≤ payload.length

theorem length_compressAbove_le_iff (ud : UserData) (payload : Bytes) (flags : Flags) :
    (compressAbove env ud true payload flags).1.length ≤ payload.length ↔
      (ReachesThreshold env payload → ¬ Bloats env ud.compressionType ud.compressionLevel payload) := by
  unfold compressAbove ReachesThreshold
  split
  · rename_i hskip
    refine iff_of_true (Nat.le_refl _) fun hreach => ?_
    rcases hskip with hzero | hlt | hoff
    · exact absurd hzero hreach.1
    · exact absurd hlt (Nat.not_lt.mpr hreach.2)
    · cases hoff
  · rename_i hgo
    rw [length_sCompressValue_le_iff]
    have hreach : payload.length ≠ 0 ∧
        env.ini.compressionThreshold.toUInt64.toNat ≤ payload.length :=
      ⟨fun h => hgo (.inl h), Nat.le_of_not_lt fun h => hgo (.inr (.inl h))⟩
    exact ⟨fun h _ => h, fun h => h hreach⟩

/-- compression on or off, and a limit -/
def State.limited (s : State) (compress : Bool) (limit : Int64) : State :=
  { s with memc := { s.memc with userData :=
    { s.memc.userData with compressionEnabled := compress, itemSizeLimit := limit } } }

/-- the write of this value gets past the limit -/
def Accepts (s : State) (value : Zval) : Prop :=
  ∃ payload flags, payloadOut env s value 0 = .payload payload flags ∧
    sIsPayloadTooBig s payload = false

/-- what a serializer makes of a value, if that is what is stored -/
def serialized (s : State) (value : Zval) : Option Bytes :=
  match serializeBuffer env s.memc.userData.serializer value with
  | (.ok (some b, _), thrown) =>
    if (s.exception || thrown) = true ∧ b.length ≠ 0 then none else some b
  | _ => none

/-- the bytes that `s_zval_to_payload` offers to the codec -/
def toCompress (s : State) (value : Zval) : Option Bytes :=
  match value with
  | .str b => some b
  | .long _ | .double _ | .bool _ => none
  | value => serialized env s value

theorem fst_finishPayload (ud : UserData) (compress : Bool) (payload : Bytes) (flags : Flags) :
    (finishPayload env ud compress payload flags).1 =
      (compressAbove env ud compress payload flags).1 := by
  unfold finishPayload
  dsimp only
  split <;> rfl

/-- a payload as long as this one gets past the limit -/
def State.Admits (s : State) (payload : Bytes) : Prop := sIsPayloadTooBig s payload = false

theorem admits_limited (s : State) (compress : Bool) (limit : Int64) (payload : Bytes) :
    (s.limited compress limit).Admits payload ↔
      (limit ≠ 0 → payload.length ≤ limit.toUInt64.toNat) := by
  unfold State.Admits sIsPayloadTooBig State.limited
  dsimp only
  split
  · rename_i hzero
    exact iff_of_true rfl fun hne => absurd hzero hne
  · rename_i hne
    rw [decide_eq_false_iff_not]
    exact ⟨fun h _ => Nat.le_of_not_lt h, fun h => Nat.not_lt.mpr (h hne)⟩

theorem accepts_finishOut {s : State} {value : Zval} {compress : Bool} {b : Bytes} {flags : Flags}
    (h : payloadOut env s value 0 = finishOut env s compress b flags) :
    Accepts env s value ↔
      s.Admits (compressAbove env s.memc.userData compress b flags).1 := by
  unfold Accepts
  rw [h, ← fst_finishPayload]
  unfold finishOut
  constructor
  · rintro ⟨p, f, ⟨⟩, hfits⟩
    exact hfits
  · exact fun hfits => ⟨_, _, rfl, hfits⟩

/-- what is not offered to the codec has one outcome, with compression on and off -/
inductive Uncompressed (s : State) (value : Zval) : Prop where
  | plain (b : Bytes) (flags : Flags) (h : ∀ compress limit,
      payloadOut env (s.limited compress limit) value 0 =
        finishOut env (s.limited compress limit) false b flags)
  | none (h : ∀ compress limit payload flags,
      payloadOut env (s.limited compress limit) value 0 ≠ .payload payload flags)

theorem serializedOut_limited (s : State) (value : Zval) :
    (∃ b flags, serialized env s value = some b ∧ ∀ compress limit,
      serializedOut env (s.limited compress limit) value 0 =
        finishOut env (s.limited compress limit) compress b flags) ∨
    (serialized env s value = none ∧ ∀ compress limit payload flags,
      serializedOut env (s.limited compress limit) value 0 ≠ .payload payload flags) := by
  have hser (compress : Bool) (limit : Int64) :
      serializeBuffer env (s.limited compress limit).memc.userData.serializer value =
        serializeBuffer env s.memc.userData.serializer value := rfl
  unfold serialized serializedOut
  simp only [hser]
  rcases serializeBuffer env s.memc.userData.serializer value with ⟨_ | ⟨_ | b, type⟩, thrown⟩
  · exact .inr ⟨rfl, fun _ _ _ _ h => by cases h⟩
  · exact .inr ⟨rfl, fun _ _ _ _ h => by cases h⟩
  · have hexc (compress : Bool) (limit : Int64) :
        (s.limited compress limit).exception = s.exception := rfl
    simp only [hexc]
    by_cases hthrown : (s.exception || thrown) = true ∧ b.length ≠ 0
    · simp only [if_pos hthrown]
      exact .inr ⟨trivial, fun _ _ _ _ h => by cases h⟩
    · simp only [if_neg hthrown]
      exact .inl ⟨b, _, rfl, fun _ _ => rfl⟩

theorem payloadOut_limited (s : State) (value : Zval) :
    (∃ b flags, toCompress env s value = some b ∧ ∀ compress limit,
      payloadOut env (s.limited compress limit) value 0 =
        finishOut env (s.limited compress limit) compress b flags) ∨
    (toCompress env s value = none ∧ Uncompressed env s value) := by
  have hserialized (h : toCompress env s value = serialized env s value)
      (hout : ∀ compress limit, payloadOut env (s.limited compress limit) value 0 =
        serializedOut env (s.limited compress limit) value 0) :
      (∃ b flags, toCompress env s value = some b ∧ ∀ compress limit,
        payloadOut env (s.limited compress limit) value 0 =
          finishOut env (s.limited compress limit) compress b flags) ∨
      (toCompress env s value = none ∧ Uncompressed env s value) := by
    simp only [h, hout]
    rcases serializedOut_limited env s value with hsome | ⟨hnone, hno⟩
    · exact .inl hsome
    · exact .inr ⟨hnone, .none fun compress limit => hout compress limit ▸ hno compress limit⟩
  cases value with
  | str b => exact .inl ⟨b, _, rfl, fun _ _ => rfl⟩
  | long n => exact .inr ⟨rfl, .plain _ _ fun _ _ => rfl⟩
  | double d => exact .inr ⟨rfl, .plain _ _ fun _ _ => rfl⟩
  | bool b => cases b <;> exact .inr ⟨rfl, .plain _ _ fun _ _ => rfl⟩
  | null => exact hserialized rfl fun _ _ => rfl
  | arr a => exact hserialized rfl fun _ _ => rfl
  | obj n => exact hserialized rfl fun _ _ => rfl

/-- a value that is not offered to the codec is accepted with compression if it is without -/
theorem Uncompressed.accepts {s : State} {value : Zval} (h : Uncompressed env s value)
    {limit : Int64} (hoff : Accepts env (s.limited false limit) value) :
    Accepts env (s.limited true limit) value := by
  cases h with
  | plain b flags h =>
    rw [accepts_finishOut env (h _ _), admits_limited] at hoff ⊢
    exact hoff
  | none h =>
    obtain ⟨p, f, hp, -⟩ := hoff
    exact absurd hp (h _ _ p f)

/-- a length that is not 0 is a limit, and none below it is one too -/
theorem exists_limit {n : Nat} (hpos : n ≠ 0) (h : n < 2 ^ 64) :
    ∃ limit : Int64, limit ≠ 0 ∧ limit.toUInt64.toNat = n := by
  have hn : (UInt64.ofNat n).toInt64.toUInt64.toNat = n := by
    rw [UInt64.toUInt64_toInt64, UInt64.toNat_ofNat']
    exact Nat.mod_eq_of_lt h
  refine ⟨(UInt64.ofNat n).toInt64, fun hzero => hpos ?_, hn⟩
  rw [← hn, hzero]
  rfl

/-- accepted with compression under every limit it is accepted under without: the payload did not
grow -/
theorem accepts_limited_iff {s : State} {value : Zval} {b : Bytes} {flags : Flags}
    (hlen : b.length < 2 ^ 64)
    (h : ∀ compress limit, payloadOut env (s.limited compress limit) value 0 =
      finishOut env (s.limited compress limit) compress b flags) :
    (∀ limit, Accepts env (s.limited false limit) value →
      Accepts env (s.limited true limit) value) ↔
    (compressAbove env s.memc.userData true b flags).1.length ≤ b.length := by
  have hoff (limit : Int64) : Accepts env (s.limited false limit) value ↔
      (limit ≠ 0 → b.length ≤ limit.toUInt64.toNat) := by
    rw [accepts_finishOut env (h _ _), admits_limited, ← fst_finishPayload, finishPayload_plain]
  have hon (limit : Int64) : Accepts env (s.limited true limit) value ↔
      (limit ≠ 0 → (compressAbove env s.memc.userData true b flags).1.length ≤
        limit.toUInt64.toNat) := by
    rw [accepts_finishOut env (h _ _), admits_limited]
    rfl
  simp only [hoff, hon]
  constructor
  · intro hall
    by_cases hzero : b.length = 0
    · have hskip : compressAbove env s.memc.userData true b flags = (b, flags) :=
        if_pos (.inl hzero)
      rw [hskip]
    · obtain ⟨limit, hne, hlimit⟩ := exists_limit hzero hlen
      exact hlimit ▸ hall limit (fun _ => Nat.le_of_eq hlimit.symm) hne
  · exact fun hle limit hfits hne => Nat.le_trans hle (hfits hne)

/-- **What `s_compress_value` leaves is not longer than the payload, and a value accepted without
compression is accepted with it, exactly if the codec has no result that the factor lets pass and
that is longer with the header.** -/
theorem compression_shrinks_iff (s : State) (value : Zval)
    (hb : ∀ b, toCompress env s value = some b → b.length < 2 ^ 64) :
    (∀ type level payload flags,
      (sCompressValue env type level payload flags).1.length ≤ payload.length ↔
        ¬ Bloats env type level payload) ∧
    ((∀ limit, Accepts env (s.limited false limit) value →
        Accepts env (s.limited true limit) value) ↔
      ∀ b, toCompress env s value = some b → ReachesThreshold env b →
        ¬ Bloats env s.memc.userData.compressionType s.memc.userData.compressionLevel b) := by
  refine ⟨length_sCompressValue_le_iff env, ?_⟩
  rcases payloadOut_limited env s value with ⟨b, flags, hcomp, hout⟩ | ⟨hnone, hplain⟩
  · rw [accepts_limited_iff env (hb b hcomp) hout, length_compressAbove_le_iff]
    constructor
    · rintro hreach b' hb'
      obtain rfl : b = b' := Option.some.inj (hcomp.symm.trans hb')
      exact hreach
    · exact fun hall => hall b hcomp
  · exact iff_of_true (fun limit hoff => hplain.accepts env hoff)
      fun b hb' => by rw [hnone] at hb'; cases hb'

end

/-- twelve bytes -/
def twelve : Bytes := List.replicate 12 97

/-- what zlib makes of them -/
def twelveDeflated : Bytes := [120, 156, 75, 76, 68, 0, 0, 29, 154, 4, 141]

/-- a build whose compressor knows these bytes, with a factor of 1 and a threshold of 1 byte -/
def tightEnv : Env :=
  { plainEnv with
    ini := { iniDefaults with
      compressionType := .zlib, compressionFactor := 1, compressionThreshold := 1 }
    zlibCompress2 := fun _ _ p => if p = twelve then some twelveDeflated else none }

theorem compression_shrinks_iff_tight :
    ((∀ type level payload flags,
      (sCompressValue tightEnv type level payload flags).1.length ≤ payload.length ↔
        ¬ Bloats tightEnv type level payload) ∧
    ((∀ limit, Accepts tightEnv ((newObject tightEnv.ini 1).limited false limit) (.str twelve) →
        Accepts tightEnv ((newObject tightEnv.ini 1).limited true limit) (.str twelve)) ↔
      ∀ b, toCompress tightEnv (newObject tightEnv.ini 1) (.str twelve) = some b →
        ReachesThreshold tightEnv b →
        ¬ Bloats tightEnv (newObject tightEnv.ini 1).memc.userData.compressionType
          (newObject tightEnv.ini 1).memc.userData.compressionLevel b)) :=
  compression_shrinks_iff tightEnv (newObject tightEnv.ini 1) (.str twelve) fun b hb => by
    cases hb
    decide

theorem twelve_bloats (level : Int64) : Bloats tightEnv .zlib level twelve := by
  refine ⟨twelveDeflated, _, rfl, ?_, by decide⟩
  show ((11 : Nat) : Rat) * 1 < ((12 : Nat) : Rat)
  norm_num

/-- twelve bytes are stored as fifteen, and a limit of twelve refuses them -/
theorem twelve_grow :
    1 ≤ tightEnv.ini.compressionFactor ∧
    ¬ (sCompressValue tightEnv .zlib 3 twelve 0).1.length ≤ twelve.length ∧
    Accepts tightEnv ((newObject tightEnv.ini 1).limited false 12) (.str twelve) ∧
    ¬ Accepts tightEnv ((newObject tightEnv.ini 1).limited true 12) (.str twelve) := by
  have hgrow : ¬ (sCompressValue tightEnv .zlib 3 twelve 0).1.length ≤ twelve.length :=
    fun hle => (length_sCompressValue_le_iff tightEnv _ _ _ _).mp hle (twelve_bloats 3)
  refine ⟨le_refl 1, hgrow, ?_, ?_⟩
  · refine (accepts_finishOut tightEnv (show payloadOut tightEnv
      ((newObject tightEnv.ini 1).limited false 12) (.str twelve) 0 =
        finishOut tightEnv _ false twelve _ from rfl)).mpr ?_
    rw [← fst_finishPayload, finishPayload_plain, admits_limited]
    exact fun _ => by decide
  · intro haccepts
    have hfits := (accepts_finishOut tightEnv (show payloadOut tightEnv
      ((newObject tightEnv.ini 1).limited true 12) (.str twelve) 0 =
        finishOut tightEnv _ true twelve _ from rfl)).mp haccepts
    rw [admits_limited] at hfits
    have hcodec (flags : Flags) : compressAbove tightEnv
        ((newObject tightEnv.ini 1).limited true 12).memc.userData true twelve flags =
        sCompressValue tightEnv .zlib 3 twelve flags := if_neg (by decide)
    rw [hcodec] at hfits
    exact (length_sCompressValue_le_iff tightEnv _ _ _ _).not.mpr (fun h => h (twelve_bloats 3))
      (hfits (by decide))

end PhpMemcached
