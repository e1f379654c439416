import PhpMemcached.FastLz
import PhpMemcached.Lib.Lz

/-!
# The FastLZ decompressor

* `Fault`             what the C code leaves undefined;
* `Level.round`       a round of the loop of `fastlz1_decompress` or `fastlz2_decompress`;
* `fastlzDecompress`  the level in the first byte, and that loop;
* `unpack_safe`       on any bytes it ends, never writes behind `maxout`, and copies only what it has
                      written; how far it reads behind its input.

The input is followed in memory by other bytes: in a match there is no check before it is read.
-/

namespace PhpMemcached
open Ascii

/-! ## memory -/

/-- a read where no memory is; a read of output that was not written; a write behind the output; and
`endless`, if the rounds of the model do not suffice -/
inductive Fault where
  | readsBehind | readsUnwritten | writesBehind | endless
  deriving DecidableEq, Repr

theorem ok_bind {α β : Type} (a : α) (f : α → Except Fault β) : (Except.ok a >>= f) = f a := rfl

/-- `*ip` -/
def readByte (mem : Bytes) (ip : Nat) : Except Fault UInt8 :=
  match mem[ip]? with
  | some b => .ok b
  | none => .error .readsBehind

/-- `*ref`, from the start of the output -/
def readRef (out : Bytes) (ref : Int) : Except Fault UInt8 :=
  if ref < 0 then .error .readsUnwritten
  else
    match out[ref.toNat]? with
    | some b => .ok b
    | none => .error .readsUnwritten

/-- `*op++ = b`, where `op` is the end of the output -/
def pushByte (maxout : Int) (out : Bytes) (b : UInt8) : Except Fault Bytes :=
  if (out.length : Int) < maxout then .ok (out ++ [b]) else .error .writesBehind

/-- `*op++ = b`, `n` times -/
def fillLoop (maxout : Int) (b : UInt8) : Nat → Bytes → Except Fault Bytes
  | 0, out => .ok out
  | n + 1, out => pushByte maxout out b >>= fillLoop maxout b n

/-- `*op++ = *ref++`, `n` times -/
def copyLoop (maxout : Int) : Nat → Int → Bytes → Except Fault Bytes
  | 0, _, out => .ok out
  | n + 1, ref, out => do
    let b ← readRef out ref
    let out ← pushByte maxout out b
    copyLoop maxout n (ref + 1) out

/-- `*op++ = *ip++`, `n` times -/
def literalLoop (mem : Bytes) (maxout : Int) : Nat → Nat → Bytes → Except Fault Bytes
  | 0, _, out => .ok out
  | n + 1, ip, out => do
    let b ← readByte mem ip
    let out ← pushByte maxout out b
    literalLoop mem maxout n (ip + 1) out

/-! ## a round -/

structure Unpacker where
  ip : Nat
  out : Bytes
  ctrl : Nat

/-- `return 0`, the end of the loop, or another round -/
inductive Turn where
  | refused
  | done (out : Bytes)
  | more (u : Unpacker)

/-- `do { code = *ip++; len += code; } while (code==255);` on the memory from `ip` on -/
def longLength : Bytes → Nat → Nat → Except Fault (Nat × Nat)
  | [], _, _ => .error .readsBehind
  | code :: mem, ip, len =>
    let len := (len + code.toNat) % 2 ^ 32
    if code = 255 then longLength mem (ip + 1) len else .ok (len, ip + 1)

/-- `len` of a match, and `ip` behind it -/
def Level.readLength (level : Level) (mem : Bytes) (ip len : Nat) : Except Fault (Nat × Nat) :=
  if len = 7 - 1 then
    match level with
    | .one => do
      let code ← readByte mem ip
      pure (len + code.toNat, ip + 1)
    | .two => longLength (mem.drop ip) ip len
  else pure (len, ip)

/-- how far `ref` is before `op`, and `ip` behind it -/
def Level.readOffset (level : Level) (mem : Bytes) (ip ofs : Nat) : Except Fault (Nat × Nat) := do
  let code ← readByte mem ip
  if level = .two ∧ code = 255 ∧ ofs = 31 <<< 8 then
    -- a match from a 16-bit distance
    let high ← readByte mem (ip + 1)
    let low ← readByte mem (ip + 2)
    pure ((high.toNat <<< 8) + low.toNat + level.maxDistance, ip + 3)
  else pure (ofs + code.toNat, ip + 1)

/-- `if(ip < ip_limit) ctrl = *ip++; else loop = 0;` -/
def readCtrl (mem : Bytes) (length ip : Nat) : Except Fault (Option UInt8) :=
  if ip < length then some <$> readByte mem ip else pure none

/-- after a round that read up to `ip` -/
def Turn.next (ctrl : Option UInt8) (ip : Nat) (out : Bytes) : Turn :=
  match ctrl with
  | some ctrl => .more ⟨ip + 1, out, ctrl.toNat⟩
  | none => .done out

/-- `len + 3` bytes from behind `ref`; `ref == op` is a run of the last byte -/
def copyMatch (maxout : Int) (len : Nat) (ref : Int) (out : Bytes) : Except Fault Bytes :=
  if ref = out.length then do
    let b ← readRef out (ref - 1)
    fillLoop maxout b (3 + len) out
  else copyLoop maxout (3 + len) (ref - 1) out

/-- the branch `ctrl >= 32` -/
def Level.matchRound (level : Level) (mem : Bytes) (length : Nat) (maxout : Int) (u : Unpacker) :
    Except Fault Turn := do
  let r ← level.readLength mem u.ip ((u.ctrl >>> 5) - 1)
  let q ← level.readOffset mem r.2 ((u.ctrl &&& 31) <<< 8)
  let ref : Int := u.out.length - q.1
  if maxout < u.out.length + r.1 + 3 then pure .refused
  else if ref - 1 < 0 then pure .refused
  else
    let ctrl ← readCtrl mem length q.2
    let out ← copyMatch maxout r.1 ref u.out
    pure (.next ctrl q.2 out)

/-- the branch of the literals -/
def literalRound (mem : Bytes) (length : Nat) (maxout : Int) (u : Unpacker) : Except Fault Turn := do
  let n := u.ctrl + 1
  if maxout < u.out.length + n then pure .refused
  else if length < u.ip + n then pure .refused
  else
    let out ← literalLoop mem maxout n u.ip u.out
    let ctrl ← readCtrl mem length (u.ip + n)
    pure (.next ctrl (u.ip + n) out)

def Level.round (level : Level) (mem : Bytes) (length : Nat) (maxout : Int) (u : Unpacker) :
    Except Fault Turn :=
  if 32 ≤ u.ctrl then level.matchRound mem length maxout u else literalRound mem length maxout u

/-! ## the loop -/

/-- the rest of the loop after a round; none for `return 0` -/
def unpackLoop (level : Level) (mem : Bytes) (length : Nat) (maxout : Int) :
    Nat → Turn → Except Fault (Option Bytes)
  | _, .refused => .ok none
  | _, .done out => .ok (some out)
  | 0, .more _ => .error .endless
  | fuel + 1, .more u => level.round mem length maxout u >>= unpackLoop level mem length maxout fuel

/-- `fastlz1_decompress`, `fastlz2_decompress` -/
def Level.decompress (level : Level) (mem : Bytes) (length : Nat) (maxout : Int) :
    Except Fault (Option Bytes) := do
  let ctrl ← readByte mem 0
  unpackLoop level mem length maxout (length + 1) (.more ⟨1, [], ctrl.toNat &&& 31⟩)

/-- `fastlz_decompress` of the first `length` bytes in memory: what is written to the output, none
if 0 is returned -/
def fastlzDecompress (mem : Bytes) (length : Nat) (maxout : Int) : Except Fault (Option Bytes) := do
  let magic ← readByte mem 0
  let level := (magic.toNat >>> 5) + 1
  if level = 1 then Level.one.decompress mem length maxout
  else if level = 2 then Level.two.decompress mem length maxout
  else pure none

/-! ## what a round does -/

section
variable {level : Level} {mem out : Bytes} {maxout : Int} {b : UInt8} {ip len length n offset : Nat}
  {u : Unpacker}

theorem pushByte_eq (h : (out.length : Int) < maxout) (b : UInt8) :
    pushByte maxout out b = .ok (out ++ [b]) := if_pos h

theorem fillLoop_eq (h : (out.length + n : Int) ≤ maxout) (b : UInt8) :
    fillLoop maxout b n out = .ok (out ++ List.replicate n b) := by
  induction n generalizing out with
  | zero =>
    show Except.ok out = _
    rw [List.replicate_zero, List.append_nil]
  | succ n ih =>
    have hlast : (((out ++ [b]).length : Nat) : Int) + n ≤ maxout := by
      rw [List.length_append, List.length_singleton]
      omega
    unfold fillLoop
    rw [pushByte_eq (by omega)]
    show fillLoop maxout b n (out ++ [b]) = _
    rw [ih hlast, List.replicate_succ, List.append_assoc, List.singleton_append]

theorem copyLoop_eq {dist : Nat} (hpos : 0 < dist) (hle : dist ≤ out.length)
    (h : (out.length + n : Int) ≤ maxout) :
    copyLoop maxout n (out.length - dist : Int) out = .ok (Lz.copy dist n out) := by
  induction n generalizing out with
  | zero => rfl
  | succ n ih =>
    have hlt : out.length - dist < out.length := by omega
    have href : (out.length - dist : Int) = ((out.length - dist : Nat) : Int) := by omega
    have hread : readRef out (out.length - dist : Int) = .ok out[out.length - dist] := by
      unfold readRef
      rw [href, if_neg (by omega), Int.toNat_natCast, List.getElem?_eq_getElem hlt]
    have hlength : (out ++ [out[out.length - dist]]).length = out.length + 1 := by simp
    have hnext : (out.length - dist : Int) + 1 =
        (((out ++ [out[out.length - dist]]).length : Nat) : Int) - dist := by
      rw [hlength]
      omega
    unfold copyLoop Lz.copy
    rw [hread, List.getElem?_eq_getElem hlt]
    show (pushByte maxout out out[out.length - dist] >>= _) = _
    rw [pushByte_eq (by omega)]
    show copyLoop maxout n _ (out ++ [out[out.length - dist]]) = _
    rw [hnext]
    exact ih (by omega) (by omega)

theorem readByte_eq (h : ip < mem.length) : readByte mem ip = .ok mem[ip] := by
  unfold readByte
  rw [List.getElem?_eq_getElem h]

theorem literalLoop_eq (hmem : ip + n ≤ mem.length) (h : (out.length + n : Int) ≤ maxout) :
    literalLoop mem maxout n ip out = .ok (out ++ (mem.drop ip).take n) := by
  induction n generalizing ip out with
  | zero =>
    show Except.ok out = _
    rw [List.take_zero, List.append_nil]
  | succ n ih =>
    have hlt : ip < mem.length := by omega
    have hlength : (((out ++ [mem[ip]]).length : Nat) : Int) + n ≤ maxout := by
      rw [List.length_append, List.length_singleton]
      omega
    unfold literalLoop
    rw [readByte_eq hlt]
    show (pushByte maxout out mem[ip] >>= _) = _
    rw [pushByte_eq (by omega)]
    show literalLoop mem maxout n (ip + 1) (out ++ [mem[ip]]) = _
    rw [ih (by omega) hlength, List.drop_eq_getElem_cons hlt, List.take_succ_cons, List.append_assoc,
      List.singleton_append]

/-- a match is copied from `offset + 1` bytes back -/
theorem copyMatch_eq (hoffset : offset < out.length) (h : (out.length + (3 + len) : Int) ≤ maxout) :
    copyMatch maxout len (out.length - offset : Int) out = .ok (Lz.copy (offset + 1) (3 + len) out) := by
  have hback : (out.length - offset : Int) - 1 = out.length - ((offset + 1 : Nat) : Int) := by omega
  unfold copyMatch
  by_cases hrun : offset = 0
  · -- the last byte over and over
    subst hrun
    obtain ⟨init, last, rfl⟩ : ∃ init last, out = init ++ [last] :=
      ⟨_, _, (List.dropLast_concat_getLast (List.ne_nil_of_length_pos hoffset)).symm⟩
    have hlast : readRef (init ++ [last]) (((init ++ [last]).length : Int) - (0 : Nat) - 1) =
        .ok last := by
      have hlength : (init ++ [last]).length = init.length + 1 := by simp
      unfold readRef
      rw [hlength, if_neg (by omega), show ((init.length + 1 : Nat) : Int) - (0 : Nat) - 1 =
        (init.length : Int) by omega, Int.toNat_natCast, List.getElem?_concat_length]
    rw [if_pos (by omega), hlast, Lz.copy_one]
    exact fillLoop_eq h last
  · rw [if_neg (by omega), hback]
    exact copyLoop_eq (Nat.succ_pos _) hoffset h

theorem readCtrl_eq (hmem : length ≤ mem.length) (ip : Nat) :
    readCtrl mem length ip = .ok (mem.take length)[ip]? := by
  unfold readCtrl
  by_cases hip : ip < length
  · rw [if_pos hip, readByte_eq (by omega), List.getElem?_take_of_lt hip,
      List.getElem?_eq_getElem (by omega)]
    rfl
  · rw [if_neg hip, List.getElem?_eq_none (by rw [List.length_take]; omega)]
    rfl

/-- a round of a match whose length and offset are read -/
theorem matchRound_eq (hmem : length ≤ mem.length) {r q : Nat × Nat}
    (hr : level.readLength mem u.ip ((u.ctrl >>> 5) - 1) = .ok r)
    (hq : level.readOffset mem r.2 ((u.ctrl &&& 31) <<< 8) = .ok q) :
    level.matchRound mem length maxout u =
      if maxout < u.out.length + r.1 + 3 ∨ u.out.length ≤ q.1 then .ok .refused
      else .ok (.next (mem.take length)[q.2]? q.2 (Lz.copy (q.1 + 1) (3 + r.1) u.out)) := by
  unfold Level.matchRound
  rw [hr]
  show (level.readOffset mem r.2 ((u.ctrl &&& 31) <<< 8) >>= _) = _
  rw [hq]
  show (if maxout < (u.out.length : Int) + r.1 + 3 then (.ok .refused : Except Fault Turn)
    else if (u.out.length - q.1 : Int) - 1 < 0 then .ok .refused else _) = _
  by_cases hfull : maxout < u.out.length + r.1 + 3
  · rw [if_pos hfull, if_pos (.inl hfull)]
  · rw [if_neg hfull]
    by_cases hbefore : u.out.length ≤ q.1
    · rw [if_pos (by omega), if_pos (.inr hbefore)]
    · rw [if_neg (by omega), if_neg (not_or.mpr ⟨hfull, hbefore⟩),
        readCtrl_eq hmem, copyMatch_eq (Nat.lt_of_not_le hbefore) (by omega)]
      rfl

/-- a round of literals -/
theorem literalRound_eq (hmem : length ≤ mem.length) :
    literalRound mem length maxout u =
      if maxout < u.out.length + (u.ctrl + 1 : Nat) ∨ length < u.ip + (u.ctrl + 1) then .ok .refused
      else .ok (.next (mem.take length)[u.ip + (u.ctrl + 1)]? (u.ip + (u.ctrl + 1))
        (u.out ++ (mem.drop u.ip).take (u.ctrl + 1))) := by
  unfold literalRound
  by_cases hfull : maxout < u.out.length + (u.ctrl + 1 : Nat)
  · rw [if_pos hfull, if_pos (Or.inl hfull)]
    rfl
  · rw [if_neg hfull]
    by_cases hcut : length < u.ip + (u.ctrl + 1)
    · rw [if_pos hcut, if_pos (Or.inr hcut)]
      rfl
    · rw [if_neg hcut, if_neg (not_or.mpr ⟨hfull, hcut⟩), literalLoop_eq (by omega) (by omega)]
      show (readCtrl mem length (u.ip + (u.ctrl + 1)) >>= _) = _
      rw [readCtrl_eq hmem]
      rfl

/-! ## safety -/

/-- how many bytes a match reads from the last one of its length on -/
def Level.reach : Level → Nat
  | .one => 2
  | .two => 4

/-- the memory goes on behind the input: up to `edge`, where at level 2 the bytes 255 end, and for the
reach of a match from there -/
structure Level.Spare (level : Level) (mem : Bytes) (length edge : Nat) : Prop where
  le : length ≤ edge
  reach : edge + level.reach ≤ mem.length
  stop : level = .two → mem[edge]? ≠ some 255

/-- there is no fault but that of a read behind the memory, and that only if `short` -/
def Reads {α : Type} (short : Prop) (P : α → Prop) : Except Fault α → Prop
  | .ok a => P a
  | .error f => f = .readsBehind ∧ short

theorem Reads.bind {α β : Type} {short : Prop} {P : α → Prop} {Q : β → Prop} {m : Except Fault α}
    {f : α → Except Fault β} (h : Reads short P m) (hf : ∀ a, P a → Reads short Q (f a)) :
    Reads short Q (m >>= f) := by
  cases m with
  | ok a => exact hf a h
  | error e => exact h

variable {edge : Nat}

theorem reads_readByte (hip : level.Spare mem length edge → ip < mem.length) :
    Reads (¬ level.Spare mem length edge) (fun _ => True) (readByte mem ip) := by
  unfold readByte
  split
  · exact trivial
  · rename_i hnone
    refine ⟨rfl, fun hspare => ?_⟩
    have hle := List.getElem?_eq_none_iff.mp hnone
    have hlt := hip hspare
    omega

/-- a length that goes on with bytes 255 ends at the edge -/
theorem reads_longLength {l : Bytes} (hl : l = mem.drop ip)
    (hip : Level.two.Spare mem length edge → ip ≤ edge) :
    Reads (¬ Level.two.Spare mem length edge)
      (fun r => ip ≤ r.2 ∧ (Level.two.Spare mem length edge → r.2 ≤ edge + 1))
      (longLength l ip len) := by
  induction l generalizing ip len with
  | nil =>
    refine ⟨rfl, fun hspare => ?_⟩
    have hreach : edge + 4 ≤ mem.length := hspare.reach
    have hle : mem.length ≤ ip := List.drop_eq_nil_iff.mp hl.symm
    have hedge := hip hspare
    omega
  | cons code l ih =>
    have hcode : mem[ip]? = some code := by
      rw [← List.head?_drop, ← hl, List.head?_cons]
    unfold longLength
    by_cases hmore : code = 255
    · rw [if_pos hmore]
      have hrest : l = mem.drop (ip + 1) := by
        rw [← List.drop_drop, ← hl, List.drop_one, List.tail_cons]
      have hnext : Level.two.Spare mem length edge → ip + 1 ≤ edge := by
        intro hspare
        have hne : ip ≠ edge := by
          intro heq
          exact hspare.stop rfl (by rw [← heq, hcode, hmore])
        have hle := hip hspare
        omega
      have hlast : Reads _ _ (longLength l (ip + 1) ((len + code.toNat) % 2 ^ 32)) :=
        ih hrest hnext
      revert hlast
      cases longLength l (ip + 1) ((len + code.toNat) % 2 ^ 32) with
      | ok r => exact fun h => ⟨by have := h.1; omega, h.2⟩
      | error f => exact id
    · rw [if_neg hmore]
      exact ⟨Nat.le_succ ip, fun hspare => Nat.succ_le_succ (hip hspare)⟩

theorem reads_readLength (hip : ip ≤ length) :
    Reads (¬ level.Spare mem length edge)
      (fun r => ip ≤ r.2 ∧ (level.Spare mem length edge → r.2 ≤ edge + 1))
      (level.readLength mem ip len) := by
  unfold Level.readLength
  split
  · cases level with
    | one =>
      refine Reads.bind (reads_readByte fun hspare => ?_) fun code _ => ?_
      · have hle := hspare.le
        have hreach : edge + 2 ≤ mem.length := hspare.reach
        omega
      · exact ⟨Nat.le_succ ip, fun hspare => Nat.succ_le_succ (hip.trans hspare.le)⟩
    | two => exact reads_longLength rfl fun hspare => hip.trans hspare.le
  · exact ⟨Nat.le_refl ip, fun hspare => by have := hspare.le; show ip ≤ edge + 1; omega⟩

theorem reads_readOffset {ofs : Nat} (hip : level.Spare mem length edge → ip ≤ edge + 1) :
    Reads (¬ level.Spare mem length edge) (fun q => ip ≤ q.2) (level.readOffset mem ip ofs) := by
  unfold Level.readOffset
  refine Reads.bind (reads_readByte fun hspare => ?_) fun code _ => ?_
  · have hreach := hspare.reach
    have hle := hip hspare
    have htwo : 2 ≤ level.reach := by cases level <;> decide
    omega
  · split
    · rename_i hfar
      have hfour : level.reach = 4 := by rw [hfar.1]; rfl
      have hroom : level.Spare mem length edge → ip + 2 < mem.length := by
        intro hspare
        have hreach := hspare.reach
        have hle := hip hspare
        omega
      refine Reads.bind (reads_readByte fun hspare => ?_) fun high _ => ?_
      · have := hroom hspare
        omega
      · refine Reads.bind (reads_readByte fun hspare => hroom hspare) fun low _ => ?_
        exact Nat.le_add_right ip 3
    · exact Nat.le_succ ip

/-- a match is read inside the input, and what is written fits -/
structure Unpacker.Ok (length : Nat) (maxout : Int) (u : Unpacker) : Prop where
  ip : u.ip ≤ length + 1
  inside : 32 ≤ u.ctrl → u.ip ≤ length
  out : u.out = [] ∨ (u.out.length : Int) ≤ maxout

/-- bytes that are returned: one at least, and not more than fit -/
def Returned (maxout : Int) (out : Bytes) : Prop := out ≠ [] ∧ (out.length : Int) ≤ maxout

/-- where a round from `ip` may end -/
def Turn.Ok (length : Nat) (maxout : Int) (ip : Nat) : Turn → Prop
  | .refused => True
  | .done out => Returned maxout out
  | .more u => u.Ok length maxout ∧ ip < u.ip

theorem Turn.Ok.next {ip₁ : Nat} (hip : ip ≤ ip₁) (hout : Returned maxout out) :
    (Turn.next (mem.take length)[ip₁]? ip₁ out).Ok length maxout ip := by
  cases hctrl : (mem.take length)[ip₁]? with
  | none => exact hout
  | some ctrl =>
    have hlt : ip₁ < (mem.take length).length := (List.getElem?_eq_some_iff.mp hctrl).1
    rw [List.length_take] at hlt
    refine ⟨⟨?_, fun _ => ?_, .inr hout.2⟩, Nat.lt_succ_of_le hip⟩
    · show ip₁ + 1 ≤ length + 1
      omega
    · show ip₁ + 1 ≤ length
      omega

/-- **A round writes no more than fits, copies what it has written, and reads on.** -/
theorem reads_round (hmem : length ≤ mem.length) (hu : u.Ok length maxout) :
    Reads (¬ level.Spare mem length edge) (Turn.Ok length maxout u.ip)
      (level.round mem length maxout u) := by
  unfold Level.round
  split
  · rename_i hmatch
    have hlength : Reads (¬ level.Spare mem length edge) _
        (level.readLength mem u.ip ((u.ctrl >>> 5) - 1)) := reads_readLength (hu.inside hmatch)
    cases hr : level.readLength mem u.ip ((u.ctrl >>> 5) - 1) with
    | error f =>
      rw [hr] at hlength
      unfold Level.matchRound
      rw [hr]
      exact hlength
    | ok r =>
      rw [hr] at hlength
      have hoffset : Reads (¬ level.Spare mem length edge) _
          (level.readOffset mem r.2 ((u.ctrl &&& 31) <<< 8)) := reads_readOffset hlength.2
      cases hq : level.readOffset mem r.2 ((u.ctrl &&& 31) <<< 8) with
      | error f =>
        rw [hq] at hoffset
        unfold Level.matchRound
        rw [hr]
        show Reads _ _ (level.readOffset mem r.2 _ >>= _)
        rw [hq]
        exact hoffset
      | ok q =>
        rw [hq] at hoffset
        rw [matchRound_eq hmem hr hq]
        split
        · exact trivial
        · rename_i hfits
          rw [not_or] at hfits
          have hcopied : (Lz.copy (q.1 + 1) (3 + r.1) u.out).length = u.out.length + (3 + r.1) :=
            Lz.length_copy (Nat.succ_pos _) (Nat.lt_of_not_le hfits.2)
          refine Turn.Ok.next (hlength.1.trans hoffset) ⟨?_, ?_⟩
          · exact List.ne_nil_of_length_pos (by omega)
          · omega
  · rw [literalRound_eq hmem]
    split
    · exact trivial
    · rename_i hfits
      rw [not_or] at hfits
      have hcopied : (u.out ++ (mem.drop u.ip).take (u.ctrl + 1)).length =
          u.out.length + (u.ctrl + 1) := by
        rw [List.length_append, List.length_take, List.length_drop]
        omega
      refine Turn.Ok.next (Nat.le_add_right _ _) ⟨?_, ?_⟩
      · exact List.ne_nil_of_length_pos (by omega)
      · omega

/-- the loop ends, as every round reads on -/
theorem reads_unpackLoop (hmem : length ≤ mem.length) {fuel : Nat} {t : Turn}
    (ht : t.Ok length maxout ip) (hfuel : length < ip + fuel) :
    Reads (¬ level.Spare mem length edge) (fun r => ∀ out ∈ r, Returned maxout out)
      (unpackLoop level mem length maxout fuel t) := by
  induction fuel generalizing t ip with
  | zero =>
    cases t with
    | refused => exact fun _ h => by cases h
    | done out =>
      intro _ h
      cases h
      exact ht
    | more u =>
      have hle := ht.1.ip
      have hlt := ht.2
      omega
  | succ fuel ih =>
    cases t with
    | refused => exact fun _ h => by cases h
    | done out =>
      intro _ h
      cases h
      exact ht
    | more u =>
      have hlt := ht.2
      exact (reads_round hmem ht.1).bind fun t' ht' => ih ht' (by omega)

theorem reads_decompress (hmem : length ≤ mem.length) (hpos : 0 < mem.length) :
    Reads (¬ level.Spare mem length edge) (fun r => ∀ out ∈ r, Returned maxout out)
      (level.decompress mem length maxout) := by
  unfold Level.decompress
  rw [readByte_eq hpos]
  have hctrl : (mem[0].toNat &&& 31) ≤ 31 := Nat.and_le_right
  have hu : (Turn.more ⟨1, [], mem[0].toNat &&& 31⟩).Ok length maxout 0 := by
    refine ⟨⟨Nat.succ_le_succ (Nat.zero_le _), fun h => ?_, .inl rfl⟩, Nat.one_pos⟩
    have hle : 32 ≤ mem[0].toNat &&& 31 := h
    omega
  exact reads_unpackLoop hmem hu (by omega)

/-- the level that the first byte of the input tells -/
def Level.ofMagic (magic : UInt8) : Option Level :=
  if magic.toNat >>> 5 = 0 then some .one else if magic.toNat >>> 5 = 1 then some .two else none

theorem fastlzDecompress_of_magic {magic : UInt8} (h : Level.ofMagic magic = some level) (mem : Bytes)
    (length : Nat) (maxout : Int) : fastlzDecompress (magic :: mem) length maxout =
      level.decompress (magic :: mem) length maxout := by
  unfold Level.ofMagic at h
  show (if (magic.toNat >>> 5) + 1 = 1 then _ else if (magic.toNat >>> 5) + 1 = 2 then _ else _) = _
  by_cases hone : magic.toNat >>> 5 = 0
  · rw [if_pos hone] at h
    cases h
    rw [if_pos (by omega)]
  · rw [if_neg hone] at h
    by_cases htwo : magic.toNat >>> 5 = 1
    · rw [if_pos htwo] at h
      cases h
      rw [if_neg (by omega), if_pos (by omega)]
    · rw [if_neg htwo] at h
      cases h

theorem fastlzDecompress_unknown {magic : UInt8} (h : Level.ofMagic magic = none) (mem : Bytes)
    (length : Nat) (maxout : Int) : fastlzDecompress (magic :: mem) length maxout = .ok none := by
  unfold Level.ofMagic at h
  show (if (magic.toNat >>> 5) + 1 = 1 then _ else if (magic.toNat >>> 5) + 1 = 2 then _ else _) = _
  by_cases hone : magic.toNat >>> 5 = 0
  · rw [if_pos hone] at h
    cases h
  · rw [if_neg hone] at h
    by_cases htwo : magic.toNat >>> 5 = 1
    · rw [if_pos htwo] at h
      cases h
    · rw [if_neg (by omega), if_neg (by omega)]
      rfl

/-- what a run reads and what it returns -/
theorem reads_fastlzDecompress (hmem : length ≤ mem.length) (edge : Nat) :
    Reads (∀ level ∈ mem.head?.bind Level.ofMagic, ¬ level.Spare mem length edge)
      (fun r => ∀ out ∈ r, Returned maxout out)
      (fastlzDecompress mem length maxout) := by
  cases mem with
  | nil => exact ⟨rfl, fun level hlevel => by cases hlevel⟩
  | cons magic mem =>
    rw [List.head?_cons, Option.bind_some]
    cases hmagic : Level.ofMagic magic with
    | none =>
      rw [fastlzDecompress_unknown hmagic]
      intro out hout
      cases hout
    | some level =>
      rw [fastlzDecompress_of_magic hmagic]
      have hreads : Reads (¬ level.Spare (magic :: mem) length edge) _
          (level.decompress (magic :: mem) length maxout) :=
        reads_decompress hmem (Nat.succ_pos mem.length)
      cases hrun : level.decompress (magic :: mem) length maxout with
      | error f =>
        rw [hrun] at hreads
        refine ⟨hreads.1, fun level' hlevel => ?_⟩
        cases hlevel
        exact hreads.2
      | ok r =>
        rw [hrun] at hreads
        intro out hout
        cases hout
        exact hreads out rfl

/-- what is returned fits -/
theorem returned_of_unpack {out : Bytes} (hmem : length ≤ mem.length)
    (h : fastlzDecompress mem length maxout = .ok (some out)) : Returned maxout out := by
  have hreads : Reads _ (fun r => ∀ out ∈ r, Returned maxout out) _ :=
    reads_fastlzDecompress hmem 0
  rw [h] at hreads
  exact hreads out rfl

/-- **The decompressor is safe on any bytes.** It ends; it writes no more than fits and copies only
what it has written; and it reads behind the memory only where that ends too near to the input. -/
theorem unpack_safe (hmem : length ≤ mem.length) :
    (∀ f, fastlzDecompress mem length maxout = .error f → f = .readsBehind ∧
      ∀ level ∈ mem.head?.bind Level.ofMagic, ∀ edge, ¬ level.Spare mem length edge) ∧
    ∀ out, fastlzDecompress mem length maxout = .ok (some out) → Returned maxout out := by
  refine ⟨fun f hf => ?_, fun out hout => returned_of_unpack hmem hout⟩
  have hreads := fun edge => (reads_fastlzDecompress hmem edge :
    Reads _ (fun r => ∀ out ∈ r, Returned maxout out) _)
  rw [hf] at hreads
  exact ⟨(hreads 0).1, fun level hlevel edge => (hreads edge).2 level hlevel⟩

/-- the theorem on a match that is cut off -/
theorem unpack_safe_cut :
    (∀ f, fastlzDecompress [0, 7, 32] 3 10 = .error f → f = .readsBehind ∧
      ∀ level ∈ ([0, 7, 32] : Bytes).head?.bind Level.ofMagic, ∀ edge,
        ¬ level.Spare [0, 7, 32] 3 edge) ∧
    ∀ out, fastlzDecompress [0, 7, 32] 3 10 = .ok (some out) → Returned 10 out :=
  unpack_safe (by decide)

example : fastlzDecompress [0, 7, 32] 3 10 = .error .readsBehind := by decide

/-- a smaller output only makes a round give up earlier -/
theorem round_smaller (hmem : length ≤ mem.length) {maxout' : Int} (hle : maxout ≤ maxout')
    (u : Unpacker) :
    level.round mem length maxout u = level.round mem length maxout' u ∨
      level.round mem length maxout u = .ok .refused := by
  unfold Level.round
  split
  · cases hr : level.readLength mem u.ip ((u.ctrl >>> 5) - 1) with
    | error f =>
      unfold Level.matchRound
      rw [hr]
      exact .inl rfl
    | ok r =>
      cases hq : level.readOffset mem r.2 ((u.ctrl &&& 31) <<< 8) with
      | error f =>
        unfold Level.matchRound
        rw [hr]
        show (level.readOffset mem r.2 _ >>= _) = (level.readOffset mem r.2 _ >>= _) ∨
          (level.readOffset mem r.2 _ >>= _) = _
        rw [hq]
        exact .inl rfl
      | ok q =>
        rw [matchRound_eq hmem hr hq, matchRound_eq hmem hr hq]
        by_cases hfits : maxout < u.out.length + r.1 + 3 ∨ u.out.length ≤ q.1
        · rw [if_pos hfits]
          exact .inr rfl
        · rw [if_neg hfits, if_neg (by omega)]
          exact .inl rfl
  · rw [literalRound_eq hmem, literalRound_eq hmem]
    by_cases hfits : maxout < u.out.length + (u.ctrl + 1 : Nat) ∨ length < u.ip + (u.ctrl + 1)
    · rw [if_pos hfits]
      exact .inr rfl
    · rw [if_neg hfits, if_neg (by omega)]
      exact .inl rfl

theorem unpackLoop_smaller (hmem : length ≤ mem.length) {maxout' : Int} (hle : maxout ≤ maxout')
    (fuel : Nat) (t : Turn) :
    unpackLoop level mem length maxout fuel t = unpackLoop level mem length maxout' fuel t ∨
      unpackLoop level mem length maxout fuel t = .ok none := by
  induction fuel generalizing t with
  | zero => cases t <;> exact .inl rfl
  | succ fuel ih =>
    cases t with
    | refused => exact .inl rfl
    | done out => exact .inl rfl
    | more u =>
      unfold unpackLoop
      rcases round_smaller hmem hle u with hsame | hrefused
      · rw [hsame]
        cases level.round mem length maxout' u with
        | error f => exact .inl rfl
        | ok t => exact ih t
      · right
        rw [hrefused]
        cases fuel <;> rfl

/-- **A smaller output makes no other bytes.** -/
theorem unpack_smaller (hmem : length ≤ mem.length) {maxout' : Int} (hle : maxout ≤ maxout') :
    fastlzDecompress mem length maxout = fastlzDecompress mem length maxout' ∨
      fastlzDecompress mem length maxout = .ok none := by
  cases mem with
  | nil => exact .inl rfl
  | cons magic mem =>
    cases hmagic : Level.ofMagic magic with
    | none =>
      rw [fastlzDecompress_unknown hmagic]
      exact .inr rfl
    | some level =>
      rw [fastlzDecompress_of_magic hmagic, fastlzDecompress_of_magic hmagic]
      exact unpackLoop_smaller hmem hle (length + 1) _

end

end PhpMemcached
