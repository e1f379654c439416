import PhpMemcached.FastLzUnpack

/-!
# What FastLZ packs, it unpacks

* `Level.stepBytes`     the bytes of a literal run or a match, `Level.Codable` those that have some;
* `unpackLoop_step`     a round of the decompressor reads a step and makes it;
* `unpackLoop_factors`  the loop, on the steps a list is split into, makes that list;
* `Out.Codes`           the invariant of a compressor: what it has written are the steps of the input
                        so far, and literals that are not counted yet;
* `matches_search`      a match is one: what it stands for repeats;
* `fastlz_roundTrip`    the decompressor makes the input of the compressor, if it fits.
-/

namespace PhpMemcached
open Ascii

/-! ## the format -/

/-- the bytes of a step -/
def Level.stepBytes (level : Level) : Lz.Step UInt8 → Bytes
  | .lits xs => UInt8.ofNat (xs.length - 1) :: xs
  | .back dist len =>
    match level with
    | .one => matchBytes1.lastBytes (dist - 1) (len - 2)
    | .two => matchBytes2 (len - 2) (dist - 1)

/-- the distances and lengths that there are bytes for -/
def Level.Codable (level : Level) : Lz.Step UInt8 → Prop
  | .lits xs => 1 ≤ xs.length ∧ xs.length ≤ maxCopy
  | .back dist len =>
    1 ≤ dist ∧ dist ≤ level.farthest ∧ 3 ≤ len ∧
      match level with
      | .one => len ≤ 264
      | .two => len < 2 ^ 32

section
variable {level : Level} {mem rest out bs : Bytes} {ip len length fuel n : Nat} {maxout : Int}
  {b : UInt8}

theorem readByte_of_drop (h : mem.drop ip = b :: rest) : readByte mem ip = .ok b := by
  have hb : mem[ip]? = some b := by rw [← List.head?_drop, h, List.head?_cons]
  unfold readByte
  rw [hb]

theorem drop_of_drop (bs : Bytes) (h : mem.drop ip = bs ++ rest) : mem.drop (ip + bs.length) = rest := by
  rw [← List.drop_drop, h, List.drop_left]

/-- three bits of a length and five of a distance -/
theorem ctrl_toNat {a c : Nat} (ha : a ≤ 7) (hc : c ≤ 31) :
    (UInt8.ofNat ((a <<< 5) + c)).toNat = 32 * a + c := by
  rw [UInt8.toNat_ofNat', Nat.shiftLeft_eq]
  omega

theorem shiftRight_ctrl {a c : Nat} (hc : c ≤ 31) : (32 * a + c) >>> 5 = a := by
  rw [Nat.shiftRight_eq_div_pow]
  omega

theorem and_ctrl {a c : Nat} (hc : c ≤ 31) : (32 * a + c) &&& 31 = c := by
  rw [show (31 : Nat) = 2 ^ 5 - 1 by decide, Nat.and_two_pow_sub_one_eq_mod]
  omega

/-- the high and the low part of a distance -/
theorem split_low (d : Nat) : ((d >>> 8) <<< 8) + (UInt8.ofNat (d &&& 255)).toNat = d := by
  rw [show (255 : Nat) = 2 ^ 8 - 1 by decide, Nat.and_two_pow_sub_one_eq_mod, UInt8.toNat_ofNat',
    Nat.shiftRight_eq_div_pow, Nat.shiftLeft_eq]
  omega

/-- a long length is read back -/
theorem longLength_lengthBytes (hfuel : n ≤ 255 * fuel + 254) (hlen : len + n < 2 ^ 32)
    (rest : Bytes) : longLength (lengthBytes fuel n ++ rest) ip len =
      .ok (len + n, ip + (lengthBytes fuel n).length) := by
  have hlast : ∀ {n len ip : Nat}, n ≤ 254 → len + n < 2 ^ 32 →
      longLength ([UInt8.ofNat n] ++ rest) ip len = .ok (len + n, ip + 1) := by
    intro n len ip hn hlen
    have htoNat : (UInt8.ofNat n).toNat = n := by
      rw [UInt8.toNat_ofNat']
      omega
    have hne : UInt8.ofNat n ≠ 255 := by
      intro heq
      have h255 : (UInt8.ofNat n).toNat = 255 := by rw [heq]; rfl
      omega
    show longLength (UInt8.ofNat n :: rest) ip len = _
    unfold longLength
    rw [if_neg hne, htoNat, Nat.mod_eq_of_lt hlen]
  induction fuel generalizing n len ip with
  | zero => exact hlast (by omega) hlen
  | succ fuel ih =>
    unfold lengthBytes
    by_cases hmore : 255 ≤ n
    · rw [if_pos hmore]
      have h255 : (255 : UInt8).toNat = 255 := rfl
      show longLength (255 :: (lengthBytes fuel (n - 255) ++ rest)) ip len = _
      unfold longLength
      rw [if_pos rfl, h255, Nat.mod_eq_of_lt (by omega), ih (by omega) (by omega),
        List.length_cons, show len + 255 + (n - 255) = len + n by omega,
        Nat.add_right_comm ip 1, Nat.add_assoc ip]
    · rw [if_neg hmore]
      exact hlast (by omega) hlen

/-- the length of a short match is in the control byte -/
theorem readLength_short {l : Nat} (hl : l < 7) (level : Level) (mem : Bytes) (ip : Nat) :
    level.readLength mem ip (l - 1) = .ok (l - 1, ip) := by
  unfold Level.readLength
  rw [if_neg (by omega)]
  rfl

/-- a near distance is read back: at level 2 it is not the one that tells a far match -/
theorem readOffset_near {d : Nat} (h : mem.drop ip = UInt8.ofNat (d &&& 255) :: rest)
    (hnear : level = .two → d < level.maxDistance) :
    level.readOffset mem ip ((d >>> 8) <<< 8) = .ok (d, ip + 1) := by
  have hnot : ¬ (level = .two ∧ UInt8.ofNat (d &&& 255) = 255 ∧ (d >>> 8) <<< 8 = 31 <<< 8) := by
    rintro ⟨rfl, hcode, hofs⟩
    have hd := split_low d
    have h255 : (255 : UInt8).toNat = 255 := rfl
    have hlt : d < 8191 := hnear rfl
    rw [hcode, hofs, h255] at hd
    omega
  unfold Level.readOffset
  rw [readByte_of_drop h, ok_bind, if_neg hnot, split_low]
  rfl

/-- a far distance is read back -/
theorem readOffset_far {far : Nat} (hfar : far < 2 ^ 16)
    (h : mem.drop ip = 255 :: UInt8.ofNat (far >>> 8) :: UInt8.ofNat (far &&& 255) :: rest) :
    Level.two.readOffset mem ip (31 <<< 8) = .ok (far + Level.two.maxDistance, ip + 3) := by
  have hhigh : (UInt8.ofNat (far >>> 8)).toNat = far >>> 8 := by
    rw [UInt8.toNat_ofNat', Nat.shiftRight_eq_div_pow]
    omega
  have hcode : Level.two = .two ∧ (255 : UInt8) = 255 ∧ 31 <<< 8 = 31 <<< 8 := ⟨rfl, rfl, rfl⟩
  have h₁ := drop_of_drop [255] h
  have h₂ := drop_of_drop [255, UInt8.ofNat (far >>> 8)] h
  unfold Level.readOffset
  rw [readByte_of_drop h, ok_bind, if_pos hcode]
  rw [show readByte mem (ip + 1) = _ from readByte_of_drop h₁, ok_bind]
  rw [show readByte mem (ip + 2) = _ from readByte_of_drop h₂, ok_bind, hhigh, split_low]
  rfl

/-- how the bytes of a match are read: the length less 3 and the distance less 1 -/
structure ReadsMatch (level : Level) (mem : Bytes) (c : UInt8) (ip ip' dist len : Nat) : Prop where
  ctrl : 32 ≤ c.toNat
  reads : ∃ ip₁, level.readLength mem ip ((c.toNat >>> 5) - 1) = .ok (len - 3, ip₁) ∧
    level.readOffset mem ip₁ ((c.toNat &&& 31) <<< 8) = .ok (dist - 1, ip')

theorem ReadsMatch.make {c : UInt8} {a e dist ip' ip₁ : Nat} (hc : c = UInt8.ofNat ((a <<< 5) + e))
    (hpos : 1 ≤ a) (ha : a ≤ 7) (he : e ≤ 31)
    (hlength : level.readLength mem ip (a - 1) = .ok (len - 3, ip₁))
    (hoffset : level.readOffset mem ip₁ (e <<< 8) = .ok (dist - 1, ip')) :
    ReadsMatch level mem c ip ip' dist len := by
  have hnat : c.toNat = 32 * a + e := by rw [hc, ctrl_toNat ha he]
  refine ⟨by omega, ip₁, ?_, ?_⟩
  · rw [hnat, shiftRight_ctrl he]
    exact hlength
  · rw [hnat, and_ctrl he]
    exact hoffset

theorem readsMatch_one {dist : Nat} {c : UInt8} {bs : Bytes} (h : Level.one.Codable (.back dist len))
    (hbytes : Level.one.stepBytes (.back dist len) = c :: bs) (hdrop : mem.drop ip = bs ++ rest) :
    ReadsMatch .one mem c ip (ip + bs.length) dist len := by
  obtain ⟨hpos, hfar, h3, hle⟩ := h
  have hdist : dist - 1 < 8192 := by
    have hdist' : dist ≤ 8192 := hfar
    omega
  have hhigh : (dist - 1) >>> 8 ≤ 31 := by
    rw [Nat.shiftRight_eq_div_pow]
    omega
  change matchBytes1.lastBytes (dist - 1) (len - 2) = c :: bs at hbytes
  unfold matchBytes1.lastBytes at hbytes
  split at hbytes
  · rename_i hshort
    cases hbytes
    refine .make rfl (show 1 ≤ len - 2 by omega) (by omega) hhigh ?_ (readOffset_near hdrop (by simp))
    exact readLength_short hshort _ _ _
  · rename_i hlong
    have hcode : (UInt8.ofNat (len - 2 - 7)).toNat = len - 2 - 7 := by
      rw [UInt8.toNat_ofNat']
      have hle' : len ≤ 264 := hle
      omega
    cases hbytes
    refine .make (a := 7) rfl (by decide) (by decide) hhigh ?_
      (readOffset_near (drop_of_drop [UInt8.ofNat (len - 2 - 7)] hdrop) (by simp))
    show (readByte mem ip >>= _) = _
    rw [readByte_of_drop hdrop]
    show Except.ok (6 + (UInt8.ofNat (len - 2 - 7)).toNat, ip + 1) = _
    rw [hcode, show 6 + (len - 2 - 7) = len - 3 by omega]
    rfl

theorem readsMatch_two {dist : Nat} {c : UInt8} {bs : Bytes} (h : Level.two.Codable (.back dist len))
    (hbytes : Level.two.stepBytes (.back dist len) = c :: bs) (hdrop : mem.drop ip = bs ++ rest) :
    ReadsMatch .two mem c ip (ip + bs.length) dist len := by
  obtain ⟨hpos, hfarthest, h3, hle⟩ := h
  replace hfarthest : dist ≤ 65535 + 8191 - 1 := hfarthest
  replace hle : len < 2 ^ 32 := hle
  -- a long length, with whatever comes behind it
  have hlong : ∀ {tail : Bytes}, ¬ len - 2 < 7 →
      mem.drop ip = lengthBytes (len - 2 - 7) (len - 2 - 7) ++ tail →
      Level.two.readLength mem ip (7 - 1) =
        .ok (len - 3, ip + (lengthBytes (len - 2 - 7) (len - 2 - 7)).length) := by
    intro tail hseven hdrop
    show longLength (mem.drop ip) ip 6 = _
    rw [hdrop, longLength_lengthBytes (by omega) (by omega)]
    congr 2
    omega
  change matchBytes2 (len - 2) (dist - 1) = c :: bs at hbytes
  unfold matchBytes2 at hbytes
  split at hbytes
  · rename_i hnear
    have hhigh : (dist - 1) >>> 8 ≤ 31 := by
      have hlt : dist - 1 < 8191 := hnear
      rw [Nat.shiftRight_eq_div_pow]
      omega
    split at hbytes
    · rename_i hshort
      cases hbytes
      exact .make rfl (show 1 ≤ len - 2 by omega) (by omega) hhigh (readLength_short hshort _ _ _)
        (readOffset_near hdrop fun _ => hnear)
    · rename_i hseven
      cases hbytes
      rw [List.append_assoc] at hdrop
      rw [List.length_append, ← Nat.add_assoc]
      exact .make (a := 7) rfl (by decide) (by decide) hhigh (hlong hseven hdrop)
        (readOffset_near (drop_of_drop _ hdrop) fun _ => hnear)
  · rename_i hnear
    have hback : dist - 1 - Level.two.maxDistance + Level.two.maxDistance = dist - 1 :=
      Nat.sub_add_cancel (Nat.le_of_not_lt hnear)
    have hfar : dist - 1 - Level.two.maxDistance < 2 ^ 16 := by
      show dist - 1 - 8191 < 2 ^ 16
      omega
    dsimp only at hbytes
    split at hbytes
    · rename_i hshort
      cases hbytes
      refine .make rfl (show 1 ≤ len - 2 by omega) (by omega) (Nat.le_refl 31)
        (readLength_short hshort _ _ _) ?_
      rw [← hback]
      exact readOffset_far hfar hdrop
    · rename_i hseven
      cases hbytes
      rw [List.append_assoc] at hdrop
      rw [List.length_append, ← Nat.add_assoc]
      refine .make (a := 7) rfl (by decide) (by decide) (Nat.le_refl 31) (hlong hseven hdrop) ?_
      rw [← hback]
      exact readOffset_far hfar (drop_of_drop _ hdrop)

/-! ## the steps of a list -/

/-- a round reads literals -/
theorem round_lits {xs : Bytes} (hmem : length ≤ mem.length) (hcodable : level.Codable (.lits xs))
    (hdrop : mem.drop ip = xs ++ rest) (hlength : ip + xs.length ≤ length)
    (hout : ((out ++ xs).length : Int) ≤ maxout) :
    level.round mem length maxout ⟨ip, out, (UInt8.ofNat (xs.length - 1)).toNat⟩ =
      .ok (.next (mem.take length)[ip + xs.length]? (ip + xs.length) (out ++ xs)) := by
  obtain ⟨hpos, hle⟩ := hcodable
  replace hle : xs.length ≤ 32 := hle
  rw [List.length_append] at hout
  have hctrl : (UInt8.ofNat (xs.length - 1)).toNat = xs.length - 1 := by
    rw [UInt8.toNat_ofNat']
    omega
  have hcount : xs.length - 1 + 1 = xs.length := by omega
  unfold Level.round
  rw [hctrl, if_neg (show ¬ 32 ≤ xs.length - 1 by omega), literalRound_eq hmem]
  dsimp only
  rw [hcount, if_neg (by omega), hdrop, List.take_left]

/-- a round reads a match -/
theorem round_back {dist : Nat} {c : UInt8} (hmem : length ≤ mem.length)
    (hcodable : level.Codable (.back dist len)) (hbytes : level.stepBytes (.back dist len) = c :: bs)
    (hdrop : mem.drop ip = bs ++ rest) (hdist : dist ≤ out.length)
    (hout : ((Lz.copy dist len out).length : Int) ≤ maxout) :
    level.round mem length maxout ⟨ip, out, c.toNat⟩ =
      .ok (.next (mem.take length)[ip + bs.length]? (ip + bs.length) (Lz.copy dist len out)) := by
  have hreads : ReadsMatch level mem c ip (ip + bs.length) dist len := by
    cases level with
    | one => exact readsMatch_one hcodable hbytes hdrop
    | two => exact readsMatch_two hcodable hbytes hdrop
  obtain ⟨hctrl, ip₁, hlength, hoffset⟩ := hreads
  obtain ⟨hpos, -, h3, -⟩ := hcodable
  rw [Lz.length_copy hpos hdist] at hout
  unfold Level.round
  rw [if_pos hctrl, matchRound_eq hmem hlength hoffset]
  dsimp only
  rw [if_neg (by omega), show dist - 1 + 1 = dist by omega, show 3 + (len - 3) = len by omega]

theorem stepBytes_cons (level : Level) {s : Lz.Step UInt8} (h : level.Codable s) :
    ∃ c bs, level.stepBytes s = c :: bs := by
  cases s with
  | lits xs => exact ⟨_, _, rfl⟩
  | back dist len =>
    cases level with
    | one =>
      change ∃ c bs, matchBytes1.lastBytes (dist - 1) (len - 2) = c :: bs
      unfold matchBytes1.lastBytes
      split
      · exact ⟨_, _, rfl⟩
      · exact ⟨_, _, rfl⟩
    | two =>
      change ∃ c bs, matchBytes2 (len - 2) (dist - 1) = c :: bs
      unfold matchBytes2
      dsimp only
      split
      · split
        · exact ⟨_, _, rfl⟩
        · exact ⟨_, _, rfl⟩
      · split
        · exact ⟨_, _, rfl⟩
        · exact ⟨_, _, rfl⟩

/-- the control byte of the next step is read, and its round done -/
theorem unpackLoop_step {s : Lz.Step UInt8} (hmem : length ≤ mem.length) (hcodable : level.Codable s)
    (hdrop : mem.drop ip = level.stepBytes s ++ rest)
    (hlength : ip + (level.stepBytes s).length ≤ length)
    (hreaches : s.Reaches out) (hout : ((s.run out).length : Int) ≤ maxout) (fuel : Nat) :
    unpackLoop level mem length maxout (fuel + 1) (.next (mem.take length)[ip]? ip out) =
      unpackLoop level mem length maxout fuel
        (.next (mem.take length)[ip + (level.stepBytes s).length]? (ip + (level.stepBytes s).length)
          (s.run out)) := by
  obtain ⟨c, bs, hbytes⟩ := stepBytes_cons level hcodable
  rw [hbytes] at hdrop
  have hlast : ip + (level.stepBytes s).length = ip + 1 + bs.length := by
    rw [hbytes, List.length_cons, Nat.add_assoc, Nat.add_comm 1]
  have hctrl : (mem.take length)[ip]? = some c := by
    rw [List.getElem?_take_of_lt (by omega), ← List.head?_drop, hdrop]
    rfl
  have hround : level.round mem length maxout ⟨ip + 1, out, c.toNat⟩ =
      .ok (.next (mem.take length)[ip + 1 + bs.length]? (ip + 1 + bs.length) (s.run out)) := by
    have hnext : mem.drop (ip + 1) = bs ++ rest := drop_of_drop [c] hdrop
    cases s with
    | lits xs =>
      cases hbytes
      exact round_lits hmem hcodable hnext (by omega) hout
    | back dist len =>
      exact round_back hmem hcodable hbytes hnext hreaches hout
  rw [hctrl, hlast]
  show (level.round mem length maxout ⟨ip + 1, out, c.toNat⟩ >>= _) = _
  rw [hround]
  rfl

/-- **The loop makes the list that the steps are of.** -/
theorem unpackLoop_factors {input : Bytes} {steps : List (Lz.Step UInt8)} {a b : Nat}
    (hmem : length ≤ mem.length) (hfactors : Lz.Factors input a b steps)
    (hcodable : ∀ s ∈ steps, level.Codable s)
    (hdrop : mem.drop ip = steps.flatMap level.stepBytes ++ rest)
    (hlength : ip + (steps.flatMap level.stepBytes).length = length)
    (hfuel : steps.length ≤ fuel) (hout : (b : Int) ≤ maxout) :
    unpackLoop level mem length maxout fuel (.next (mem.take length)[ip]? ip (input.take a)) =
      .ok (some (input.take b)) := by
  induction hfactors generalizing ip fuel with
  | done hle =>
    have hnone : (mem.take length)[ip]? = none := by
      rw [List.getElem?_eq_none]
      rw [List.length_take, ← hlength]
      exact Nat.min_le_left _ _
    rw [hnone]
    cases fuel <;> rfl
  | @lits a b n steps hle hrest ih =>
    cases fuel with
    | zero => cases hfuel
    | succ fuel =>
      rw [List.flatMap_cons, List.append_assoc] at hdrop
      rw [List.flatMap_cons, List.length_append, ← Nat.add_assoc] at hlength
      have hrun : (Lz.Step.lits ((input.drop a).take n)).run (input.take a) = input.take (a + n) :=
        List.take_add.symm
      have hnext := ih (fun s hs => hcodable s (List.mem_cons_of_mem _ hs)) (drop_of_drop _ hdrop)
        hlength (Nat.le_of_succ_le_succ hfuel) hout
      rw [unpackLoop_step hmem (hcodable _ List.mem_cons_self) hdrop (by omega)
        trivial, hrun]
      · exact hnext
      · have hb := hrest.le
        rw [hrun, List.length_take]
        omega
  | @back a b dist len steps hrepeats hrest ih =>
    cases fuel with
    | zero => cases hfuel
    | succ fuel =>
      rw [List.flatMap_cons, List.append_assoc] at hdrop
      rw [List.flatMap_cons, List.length_append, ← Nat.add_assoc] at hlength
      have hrun : (Lz.Step.back dist len).run (input.take a) = input.take (a + len) :=
        Lz.copy_take hrepeats
      have hnext := ih (fun s hs => hcodable s (List.mem_cons_of_mem _ hs)) (drop_of_drop _ hdrop)
        hlength (Nat.le_of_succ_le_succ hfuel) hout
      have hreaches : (Lz.Step.back dist len).Reaches (input.take a) := by
        have hle := hrepeats.le
        have hinside := hrepeats.inside
        show dist ≤ (input.take a).length
        rw [List.length_take]
        omega
      rw [unpackLoop_step hmem (hcodable _ List.mem_cons_self) hdrop (by omega) hreaches, hrun]
      · exact hnext
      · have hb := hrest.le
        rw [hrun, List.length_take]
        omega

end

/-! ## what a compressor writes -/

/-- the bytes that were written and not taken back -/
def Out.bytes (o : Out) : Bytes := (List.range o.op).map fun i => (o.mem i).getD 0

/-- the output holds these bytes -/
structure Out.Holds (o : Out) (bs : Bytes) : Prop where
  op : o.op = bs.length
  mem : ∀ i < bs.length, o.mem i = bs[i]?

section
variable {level : Level} {input bs xs : Bytes} {o : Out} {ip len distance fuel n : Nat} {b c : UInt8}
  {steps : List (Lz.Step UInt8)}

theorem Out.Holds.bytes (h : o.Holds bs) : o.bytes = bs := by
  refine List.ext_getElem ?_ fun i h₁ h₂ => ?_
  · rw [Out.bytes, List.length_map, List.length_range, h.op]
  · have hi := h.mem i h₂
    rw [List.getElem?_eq_getElem h₂] at hi
    simp [Out.bytes, hi]

theorem Out.Holds.put (h : o.Holds bs) (b : UInt8) : (o.put b).Holds (bs ++ [b]) := by
  refine ⟨?_, fun i hi => ?_⟩
  · show o.op + 1 = _
    rw [h.op, List.length_append, List.length_singleton]
  · rw [List.length_append, List.length_singleton] at hi
    show Function.update o.mem o.op (some b) i = _
    by_cases hlast : i = bs.length
    · rw [hlast, h.op, Function.update_self, List.getElem?_concat_length]
    · rw [h.op, Function.update_of_ne hlast, List.getElem?_append_left (by omega)]
      exact h.mem i (by omega)

theorem Out.Holds.puts (h : o.Holds bs) (bs' : Bytes) : (o.puts bs').Holds (bs ++ bs') := by
  induction bs' generalizing o bs with
  | nil =>
    rw [List.append_nil]
    exact h
  | cons b bs' ih =>
    have hrest := ih (h.put b)
    rw [List.append_assoc, List.singleton_append] at hrest
    exact hrest

theorem Out.Holds.openRun (h : o.Holds bs) : o.openRun.Holds (bs ++ [31]) :=
  have hput := h.put (UInt8.ofNat (maxCopy - 1))
  ⟨hput.op, hput.mem⟩

/-- a byte in the middle is replaced -/
theorem Out.Holds.update (bs : Bytes) (h : o.Holds (bs ++ c :: xs)) (b : UInt8) :
    ({ o with mem := Function.update o.mem bs.length (some b) } : Out).Holds (bs ++ b :: xs) := by
  refine ⟨?_, fun i hi => ?_⟩
  · rw [show ({ o with mem := Function.update o.mem bs.length (some b) } : Out).op = o.op from rfl,
      h.op, List.length_append, List.length_append, List.length_cons, List.length_cons]
  · rw [List.length_append, List.length_cons] at hi
    have hold := h.mem i (by rw [List.length_append, List.length_cons]; exact hi)
    show Function.update o.mem bs.length (some b) i = _
    by_cases hmiddle : i = bs.length
    · rw [hmiddle, Function.update_self, List.getElem?_append_right (Nat.le_refl _), Nat.sub_self]
      rfl
    · rw [Function.update_of_ne hmiddle, hold]
      by_cases hbefore : i < bs.length
      · rw [List.getElem?_append_left hbefore, List.getElem?_append_left hbefore]
      · obtain ⟨k, hk⟩ : ∃ k, i - bs.length = k + 1 := ⟨i - bs.length - 1, by omega⟩
        rw [List.getElem?_append_right (by omega), List.getElem?_append_right (by omega), hk]
        rfl

/-- the steps of the input up to `n`, the first of which is a literal run -/
structure Stepped (level : Level) (input : Bytes) (n : Nat) (steps : List (Lz.Step UInt8)) : Prop where
  factors : Lz.Factors input 0 n steps
  codable : ∀ s ∈ steps, level.Codable s
  first : ∀ s ∈ steps.head?, ∃ xs, s = .lits xs

/-- the output when the input is encoded up to `ip`: the steps before the last literals, their control
byte, and those -/
structure Out.Codes (level : Level) (input : Bytes) (ip : Nat) (o : Out)
    (steps : List (Lz.Step UInt8)) : Prop where
  stepped : Stepped level input (ip - o.copy) steps
  copy : o.copy ≤ ip ∧ o.copy < maxCopy
  le : ip ≤ input.length
  started : steps = [] → 0 < o.copy
  holds : o.Holds (steps.flatMap level.stepBytes ++ 31 :: (input.drop (ip - o.copy)).take o.copy)

/-- more literals, if there are some -/
theorem Stepped.lits (h : Stepped level input ip steps) (hn : 1 ≤ n) (hle : n ≤ maxCopy)
    (hinside : ip + n ≤ input.length) :
    Stepped level input (ip + n) (steps ++ [.lits ((input.drop ip).take n)]) := by
  have hlength : ((input.drop ip).take n).length = n := by
    rw [List.length_take, List.length_drop]
    omega
  refine ⟨h.factors.append (.lits hinside (.done hinside)), fun s hs => ?_, fun s hs => ?_⟩
  · rcases List.mem_append.mp hs with hold | hnew
    · exact h.codable s hold
    · rw [List.mem_singleton.mp hnew]
      show 1 ≤ _ ∧ _ ≤ maxCopy
      rw [hlength]
      exact ⟨hn, hle⟩
  · cases steps with
    | nil =>
      cases hs
      exact ⟨_, rfl⟩
    | cons s' steps => exact h.first s hs

/-- the bytes of a literal run -/
theorem bytes_lits (level : Level) (hinside : ip + n ≤ input.length) :
    level.stepBytes (.lits ((input.drop ip).take n)) =
      UInt8.ofNat (n - 1) :: (input.drop ip).take n := by
  have hlength : ((input.drop ip).take n).length = n := by
    rw [List.length_take, List.length_drop]
    omega
  show UInt8.ofNat (((input.drop ip).take n).length - 1) :: _ = _
  rw [hlength]

/-- the literals of a run that is closed are a step -/
theorem Out.Codes.closeRun (h : o.Codes level input ip steps) :
    ∃ steps', Stepped level input ip steps' ∧ steps' ≠ [] ∧
      o.closeRun.Holds (steps'.flatMap level.stepBytes) := by
  obtain ⟨hcopy, hlt⟩ := h.copy
  have hle := h.le
  have hback : ip - o.copy + o.copy = ip := Nat.sub_add_cancel hcopy
  have hop := h.holds.op
  have hlits : ((input.drop (ip - o.copy)).take o.copy).length = o.copy := by
    rw [List.length_take, List.length_drop]
    omega
  rw [List.length_append, List.length_cons, hlits] at hop
  unfold Out.closeRun
  by_cases hzero : o.copy = 0
  · refine ⟨steps, ?_, fun hnil => ?_, ?_⟩
    · have hstepped := h.stepped
      rwa [hzero, Nat.sub_zero] at hstepped
    · have hpos := h.started hnil
      omega
    · rw [if_neg (fun hne => hne hzero)]
      refine ⟨?_, fun i hi => ?_⟩
      · show o.op - 1 = _
        omega
      · rw [← List.getElem?_append_left hi]
        exact h.holds.mem i (by rw [List.length_append, List.length_cons]; omega)
  · have hinside : ip - o.copy + o.copy ≤ input.length := by omega
    have hstepped := h.stepped.lits (n := o.copy) (by omega) hlt.le hinside
    rw [hback] at hstepped
    refine ⟨_, hstepped, by simp, ?_⟩
    rw [if_pos hzero, List.flatMap_append, List.flatMap_singleton, bytes_lits level hinside,
      show o.op - o.copy - 1 = (steps.flatMap level.stepBytes).length by omega]
    exact h.holds.update _ _

/-- a literal byte is counted, or makes a run of 32 full -/
theorem Out.Codes.literal (h : o.Codes level input ip steps) (hip : ip < input.length) :
    ∃ steps', (o.literal (byteAt input ip)).Codes level input (ip + 1) steps' := by
  obtain ⟨hcopy, hlt⟩ := h.copy
  have hbyte : (input.drop (ip - o.copy)).take o.copy ++ [byteAt input ip] =
      (input.drop (ip - o.copy)).take (o.copy + 1) := by
    have hget : (input.drop (ip - o.copy))[o.copy]? = some (byteAt input ip) := by
      rw [List.getElem?_drop, Nat.sub_add_cancel hcopy, List.getElem?_eq_getElem hip]
      simp [byteAt, hip]
    rw [List.take_add_one, hget]
    rfl
  have hput := h.holds.put (byteAt input ip)
  rw [List.append_assoc, List.cons_append, hbyte] at hput
  have hstart : ip + 1 - (o.copy + 1) = ip - o.copy := by omega
  unfold Out.literal
  split
  · rename_i hfull
    replace hfull : o.copy + 1 = 32 := hfull
    have hinside : ip - o.copy + (o.copy + 1) ≤ input.length := by omega
    have hend : ip - o.copy + (o.copy + 1) = ip + 1 := by omega
    have hstepped := h.stepped.lits (n := o.copy + 1) (by omega) (show o.copy + 1 ≤ 32 by omega) hinside
    have hcount : UInt8.ofNat (o.copy + 1 - 1) = 31 := by rw [hfull]; rfl
    have hbytes : steps.flatMap level.stepBytes ++ 31 :: (input.drop (ip - o.copy)).take (o.copy + 1) =
        (steps ++ [Lz.Step.lits ((input.drop (ip - o.copy)).take (o.copy + 1))]).flatMap
          level.stepBytes := by
      rw [List.flatMap_append, List.flatMap_singleton, bytes_lits level hinside, hcount]
    rw [hbytes] at hput
    rw [hend] at hstepped
    exact ⟨_, hstepped, ⟨Nat.zero_le _, show 0 < 32 by decide⟩, hip, fun hnil => by simp at hnil,
      hput.openRun⟩
  · rename_i hfull
    replace hfull : ¬ o.copy + 1 = 32 := hfull
    replace hlt : o.copy < 32 := hlt
    refine ⟨steps, ?_, ⟨Nat.succ_le_succ hcopy, show o.copy + 1 < 32 by omega⟩, hip,
      fun _ => Nat.succ_pos _, ?_⟩
    · show Stepped level input (ip + 1 - (o.copy + 1)) steps
      rw [hstart]
      exact h.stepped
    · show Out.Holds _ (_ ++ 31 :: (input.drop (ip + 1 - (o.copy + 1))).take (o.copy + 1))
      rw [hstart]
      exact ⟨hput.op, hput.mem⟩

/-- the bytes that are left -/
theorem Out.Codes.literals (h : o.Codes level input ip steps) :
    ∃ steps', ((input.drop ip).foldl Out.literal o).Codes level input input.length steps' := by
  obtain ⟨k, hk⟩ : ∃ k, k = input.length - ip := ⟨_, rfl⟩
  have hle := h.le
  induction k generalizing ip o steps with
  | zero =>
    have hip : ip = input.length := by omega
    subst hip
    rw [List.drop_length]
    exact ⟨steps, h⟩
  | succ k ih =>
    have hlt : ip < input.length := by omega
    obtain ⟨steps', hnext⟩ := h.literal hlt
    have hbyte : byteAt input ip = input[ip] := by simp [byteAt, hlt]
    rw [List.drop_eq_getElem_cons hlt, List.foldl_cons, ← hbyte]
    exact ih hnext (by omega) hlt

/-! ## matches -/

/-- the last piece of a match of level 1 is one step -/
theorem steps_lastBytes (hrepeats : Lz.Repeats input ip (distance + 1) (len + 2)) (hlen : 1 ≤ len)
    (hdistance : distance + 1 ≤ Level.one.farthest) (hshort : len ≤ maxLen) :
    ∃ steps, Lz.Factors input ip (ip + (len + 2)) steps ∧ (∀ s ∈ steps, Level.one.Codable s) ∧
      steps.flatMap Level.one.stepBytes = matchBytes1.lastBytes distance len := by
  replace hshort : len ≤ 262 := hshort
  refine ⟨[.back (distance + 1) (len + 2)], .back hrepeats (.done hrepeats.inside), fun s hs => ?_, ?_⟩
  · rw [List.mem_singleton.mp hs]
    exact ⟨Nat.succ_pos _, hdistance, by omega, show len + 2 ≤ 264 by omega⟩
  · rw [List.flatMap_singleton]
    show matchBytes1.lastBytes (distance + 1 - 1) (len + 2 - 2) = _
    rw [Nat.add_sub_cancel, Nat.add_sub_cancel]

theorem steps_matchBytes1 (hrepeats : Lz.Repeats input ip (distance + 1) (len + 2)) (hlen : 1 ≤ len)
    (hdistance : distance + 1 ≤ Level.one.farthest) (hfuel : len ≤ fuel + maxLen) :
    ∃ steps, Lz.Factors input ip (ip + (len + 2)) steps ∧ (∀ s ∈ steps, Level.one.Codable s) ∧
      steps.flatMap Level.one.stepBytes = matchBytes1 distance fuel len := by
  induction fuel generalizing ip len with
  | zero => exact steps_lastBytes hrepeats hlen hdistance (by omega)
  | succ fuel ih =>
    unfold matchBytes1
    by_cases hlong : maxLen < len
    · rw [if_pos hlong]
      replace hlong : 262 < len := hlong
      have hsplit : len + 2 = 262 + (len - maxLen + 2) := by
        show len + 2 = 262 + (len - 262 + 2)
        omega
      rw [hsplit] at hrepeats
      obtain ⟨hpiece, hrest⟩ := hrepeats.cut
      have hle : 1 ≤ len - maxLen := by
        show 1 ≤ len - 262
        omega
      obtain ⟨steps, hfactors, hcodable, hbytes⟩ := ih hrest hle (by omega)
      refine ⟨.back (distance + 1) 262 :: steps, ?_, fun s hs => ?_, ?_⟩
      · rw [hsplit, ← Nat.add_assoc]
        exact .back hpiece hfactors
      · rcases List.mem_cons.mp hs with rfl | hs
        · exact ⟨Nat.succ_pos _, hdistance, by decide, show 262 ≤ 264 by decide⟩
        · exact hcodable s hs
      · rw [List.flatMap_cons, hbytes]
        rfl
    · rw [if_neg hlong]
      exact steps_lastBytes hrepeats hlen hdistance (Nat.le_of_not_lt hlong)

/-- **A match is written as steps.** -/
theorem steps_matchBytes (hrepeats : Lz.Repeats input ip (distance + 1) (len + 2)) (hlen : 1 ≤ len)
    (hdistance : distance + 1 ≤ level.farthest) (hint : input.length < 2 ^ 32) :
    ∃ steps, Lz.Factors input ip (ip + (len + 2)) steps ∧ (∀ s ∈ steps, level.Codable s) ∧
      steps.flatMap level.stepBytes = level.matchBytes len distance := by
  cases level with
  | one => exact steps_matchBytes1 hrepeats hlen hdistance (Nat.le_add_right len _)
  | two =>
    have hinside := hrepeats.inside
    refine ⟨[.back (distance + 1) (len + 2)], .back hrepeats (.done hinside), fun s hs => ?_, ?_⟩
    · rw [List.mem_singleton.mp hs]
      exact ⟨Nat.succ_pos _, hdistance, by omega, show len + 2 < 2 ^ 32 by omega⟩
    · rw [List.flatMap_singleton]
      show matchBytes2 (len + 2 - 2) (distance + 1 - 1) = _
      rw [Nat.add_sub_cancel, Nat.add_sub_cancel]
      rfl

theorem Out.Codes.match_ (h : o.Codes level input ip steps)
    (hrepeats : Lz.Repeats input ip (distance + 1) (len + 2)) (hlen : 1 ≤ len)
    (hdistance : distance + 1 ≤ level.farthest) (hint : input.length < 2 ^ 32) :
    ∃ steps', (o.match_ level len distance).Codes level input (ip + (len + 2)) steps' := by
  obtain ⟨before, hbefore, hne, hholds⟩ := h.closeRun
  obtain ⟨steps', hfactors, hcodable, hbytes⟩ := steps_matchBytes hrepeats hlen hdistance hint
  have hputs := (hholds.puts (level.matchBytes len distance)).openRun
  have hflat : before.flatMap level.stepBytes ++ level.matchBytes len distance =
      (before ++ steps').flatMap level.stepBytes := by rw [List.flatMap_append, hbytes]
  rw [hflat] at hputs
  refine ⟨before ++ steps', ⟨hbefore.factors.append hfactors, fun s hs => ?_, fun s hs => ?_⟩,
    ⟨Nat.zero_le _, show 0 < 32 by decide⟩, hrepeats.inside, fun hnil => ?_, hputs⟩
  · exact (List.mem_append.mp hs).elim (hbefore.codable s) (hcodable s)
  · cases before with
    | nil => exact absurd rfl hne
    | cons s' before => exact hbefore.first s hs
  · exact absurd (List.append_eq_nil_iff.mp hnil).1 hne

/-! ## what the search finds -/

variable {anchor ref : Nat} {htab : Htab} {x : UInt8}

/-- up to the last byte that was compared, all were equal -/
theorem same_of_compareBytes (input : Bytes) (n ref ip : Nat) :
    (∀ i, ip + i + 1 < (compareBytes input n ref ip).2 →
      byteAt input (ref + i) = byteAt input (ip + i)) ∧
    ((compareBytes input n ref ip).1 = true →
      (compareBytes input n ref ip).2 = ip + n ∧
        ∀ i < n, byteAt input (ref + i) = byteAt input (ip + i)) := by
  induction n generalizing ref ip with
  | zero =>
    refine ⟨fun i hi => ?_, fun _ => ⟨rfl, fun i hi => by cases hi⟩⟩
    change ip + i + 1 < ip at hi
    omega
  | succ n ih =>
    unfold compareBytes
    by_cases hne : byteAt input ref ≠ byteAt input ip
    · rw [if_pos hne]
      refine ⟨fun i hi => ?_, fun htrue => by cases htrue⟩
      change ip + i + 1 < ip + 1 at hi
      omega
    · rw [if_neg hne]
      obtain ⟨hsame, hall⟩ := ih (ref + 1) (ip + 1)
      have hnext : ∀ i, byteAt input (ref + 1 + i) = byteAt input (ip + 1 + i) →
          byteAt input (ref + (i + 1)) = byteAt input (ip + (i + 1)) := by
        intro i h
        rwa [Nat.add_assoc, Nat.add_comm 1 i, Nat.add_assoc ip, Nat.add_comm 1 i] at h
      refine ⟨fun i hi => ?_, fun htrue => ⟨?_, fun i hi => ?_⟩⟩
      · cases i with
        | zero => exact not_not.mp hne
        | succ i => exact hnext i (hsame i (by omega))
      · rw [(hall htrue).1]
        omega
      · cases i with
        | zero => exact not_not.mp hne
        | succ i => exact hnext i ((hall htrue).2 i (Nat.lt_of_succ_lt_succ hi))

theorem same_of_runBytes (input : Bytes) (x : UInt8) (n ref ip : Nat) :
    ∀ i, ip + i < runBytes input x n ref ip → byteAt input (ref + i) = x := by
  induction n generalizing ref ip with
  | zero =>
    intro i hi
    change ip + i < ip at hi
    omega
  | succ n ih =>
    unfold runBytes
    intro i hi
    by_cases hne : byteAt input ref ≠ x
    · rw [if_pos hne] at hi
      omega
    · rw [if_neg hne] at hi
      cases i with
      | zero => exact not_not.mp hne
      | succ i =>
        have h := ih (ref + 1) (ip + 1) i (by omega)
        rwa [Nat.add_assoc, Nat.add_comm 1 i] at h

/-- up to the last byte before its end, a match repeats -/
theorem same_of_matchEnd (hpos : distance + 1 ≤ ip) (hi : ip + n + 1 <
    matchEnd input (ip - (distance + 1)) ip distance) :
    byteAt input (ip + n) = byteAt input (ip + n - (distance + 1)) := by
  unfold matchEnd at hi
  dsimp only at hi
  have hback : ∀ i, ip - (distance + 1) + i = ip + i - (distance + 1) := fun i => by omega
  split at hi
  · rename_i hzero
    subst hzero
    have hrun := same_of_runBytes input (byteAt input (ip - 1)) (input.length - 2 - ip) (ip - (0 + 1)) ip
    have hthis := hrun (n + 1) (by omega)
    have hbefore := hrun n (by omega)
    rw [show ip - (0 + 1) + (n + 1) = ip + n by omega] at hthis
    rw [hthis, ← hback, hbefore]
  · obtain ⟨hsame, hall⟩ := same_of_compareBytes input 8 (ip - (distance + 1)) ip
    split at hi
    · rename_i ip₁ heq
      rw [heq] at hsame
      rw [← hback, hsame n hi]
    · rename_i ip₁ heq
      rw [heq] at hall
      obtain ⟨hip₁, height⟩ := hall rfl
      replace hip₁ : ip₁ = ip + 8 := hip₁
      by_cases hn : n < 8
      · rw [← hback, height n hn]
      · have hrest := (same_of_compareBytes input (input.length - 2 - ip₁)
          (ip - (distance + 1) + 8) ip₁).1 (n - 8) (by omega)
        rw [show ip - (distance + 1) + 8 + (n - 8) = ip + n - (distance + 1) by omega,
          show ip₁ + (n - 8) = ip + n by omega] at hrest
        exact hrest.symm

/-- what a token stands for repeats -/
def Level.Matches (level : Level) (input : Bytes) (anchor : Nat) : Token → Prop
  | .literal => True
  | .match_ len distance =>
    Lz.Repeats input anchor (distance + 1) (len + 2) ∧ distance + 1 ≤ level.farthest

/-- bytes that are equal, in the input -/
theorem getElem?_of_byteAt {i j : Nat} (hi : i < input.length) (hj : j < input.length)
    (h : byteAt input i = byteAt input j) : input[i]? = input[j]? := by
  simp only [byteAt, List.getD_eq_getElem?_getD, List.getElem?_eq_getElem hi,
    List.getElem?_eq_getElem hj, Option.getD_some] at h
  rw [List.getElem?_eq_getElem hi, List.getElem?_eq_getElem hj, h]

theorem matches_foundMatch (level : Level) {dist : Nat} (hlimit : anchor + 12 < input.length) (hpos : 1 ≤ dist)
    (hle : dist ≤ anchor) (h3 : 3 ≤ len) (h5 : len ≤ 5) (hfar : dist < level.farthest)
    (hsame : ∀ i < len, byteAt input (anchor + i) = byteAt input (anchor + i - dist)) :
    level.Matches input anchor (foundMatch input anchor (anchor + len - dist) len dist) := by
  have hone : dist - 1 + 1 = dist := by omega
  obtain ⟨hlt, hend⟩ :
      anchor + len < matchEnd input (anchor + len - dist) (anchor + len) (dist - 1) ∧
      matchEnd input (anchor + len - dist) (anchor + len) (dist - 1) ≤ input.length :=
    matchEnd_bounds (by omega) (fun hzero => by omega)
  unfold foundMatch Level.Matches
  dsimp only
  rw [hone]
  refine ⟨⟨hpos, hle, by omega, fun i hi => ?_⟩, hfar.le⟩
  refine getElem?_of_byteAt (by omega) (by omega) ?_
  by_cases hknown : i < len
  · exact hsame i hknown
  · have hmore : byteAt input (anchor + len + (i - len)) =
        byteAt input (anchor + len + (i - len) - (dist - 1 + 1)) :=
      same_of_matchEnd (by omega) (by rw [hone]; omega)
    rw [hone, show anchor + len + (i - len) = anchor + i by omega] at hmore
    exact hmore

/-- two bytes that are read as one number -/
theorem byteAt_of_readU16 {p q : Nat} (h : readU16 input p = readU16 input q) :
    byteAt input p = byteAt input q ∧ byteAt input (p + 1) = byteAt input (q + 1) := by
  have hread : ∀ p, readU16 input p = (byteAt input p).toNat + 256 * (byteAt input (p + 1)).toNat := by
    intro p
    unfold readU16
    rw [Nat.or_comm, ← Nat.shiftLeft_add_eq_or_of_lt (byteAt input p).toNat_lt, Nat.shiftLeft_eq]
    omega
  rw [hread, hread] at h
  have hp := (byteAt input p).toNat_lt
  have hq := (byteAt input q).toNat_lt
  constructor
  · exact UInt8.toNat_inj.mp (by omega)
  · exact UInt8.toNat_inj.mp (by omega)

/-- **What the search finds repeats.** -/
theorem matches_search (level : Level) (hlimit : anchor + 12 < input.length) (hpos : 0 < anchor)
    (htab : Htab) : level.Matches input anchor (search level input htab anchor).1 := by
  unfold search
  dsimp only
  split
  · rename_i hrun
    obtain ⟨-, hlast, hread⟩ := hrun
    obtain ⟨h₁, h₂⟩ := byteAt_of_readU16 hread
    rw [Nat.sub_add_cancel hpos] at h₂
    have hsame : ∀ i < 3, byteAt input (anchor + i) = byteAt input (anchor + i - 1) := by
      intro i hi
      obtain rfl | rfl | rfl : i = 0 ∨ i = 1 ∨ i = 2 := by omega
      · exact hlast
      · exact h₁.symm.trans hlast.symm
      · exact h₂.symm.trans (hlast.trans h₁)
    have hfar : 1 < level.farthest := by cases level <;> decide
    have hfound := matches_foundMatch level hlimit (Nat.le_refl 1) hpos (by decide)
      (by decide) hfar hsame
    rwa [show anchor - 1 + 3 = anchor + 3 - 1 by omega]
  · split
    · exact trivial
    · rename_i hmatch
      rw [not_or, not_or, Bool.not_eq_false, Nat.not_le] at hmatch
      obtain ⟨hne, hfar, hthree⟩ := hmatch
      obtain ⟨-, hsame⟩ := (same_of_compareBytes input 3 _ anchor).2 hthree
      have href : ∀ i, anchor + i - (anchor - htab (hashFunction input anchor)) =
          htab (hashFunction input anchor) + i := fun i => by omega
      have hthree' : ∀ i < 3, byteAt input (anchor + i) =
          byteAt input (anchor + i - (anchor - htab (hashFunction input anchor))) := by
        intro i hi
        rw [href, hsame i hi]
      split
      · split
        · exact trivial
        · rename_i hfive
          rw [Bool.not_eq_false] at hfive
          obtain ⟨-, htwo⟩ := (same_of_compareBytes input 2 _ (anchor + 3)).2 hfive
          have hall : ∀ i < 5, byteAt input (anchor + i) =
              byteAt input (anchor + i - (anchor - htab (hashFunction input anchor))) := by
            intro i hi
            by_cases h3 : i < 3
            · exact hthree' i h3
            · have h := htwo (i - 3) (by omega)
              rw [show anchor + 3 + (i - 3) = anchor + i by omega,
                show htab (hashFunction input anchor) + 3 + (i - 3) =
                  htab (hashFunction input anchor) + i by omega] at h
              rw [href, h]
          have hfound := matches_foundMatch level hlimit (Nat.pos_of_ne_zero hne)
            (Nat.sub_le _ _) (by decide) (by decide) hfar hall
          rwa [href] at hfound
      · have hfound := matches_foundMatch level hlimit (Nat.pos_of_ne_zero hne)
          (Nat.sub_le _ _) (by decide) (by decide) hfar hthree'
        rwa [href] at hfound

/-! ## a compressor -/

theorem codes_startEncoder (level : Level) (hlong : 4 ≤ input.length) :
    (startEncoder input).out.Codes level input (startEncoder input).ip [] := by
  have hempty : Out.empty.Holds [] := ⟨rfl, fun i hi => by cases hi⟩
  have hputs := (hempty.put (UInt8.ofNat (maxCopy - 1))).puts [byteAt input 0, byteAt input 1]
  have htwo : (input.drop 0).take 2 = [byteAt input 0, byteAt input 1] := by
    obtain ⟨b₀, b₁, rest, rfl⟩ : ∃ b₀ b₁ rest, input = b₀ :: b₁ :: rest := by
      cases input with
      | nil => cases hlong
      | cons b₀ input =>
        cases input with
        | nil => exact absurd hlong (by simp)
        | cons b₁ rest => exact ⟨b₀, b₁, rest, rfl⟩
    rfl
  refine ⟨⟨.done (Nat.zero_le _), fun s hs => (by cases hs), fun s hs => by cases hs⟩,
    ⟨Nat.le_refl 2, show 2 < 32 by decide⟩, by show 2 ≤ _; omega, fun _ => Nat.two_pos, ?_⟩
  show Out.Holds _ ([] ++ 31 :: (input.drop 0).take 2)
  rw [htwo]
  exact ⟨hputs.op, hputs.mem⟩

/-- the invariant of a compressor -/
def Encoder.Codes (level : Level) (input : Bytes) (e : Encoder) : Prop :=
  ∃ steps, e.out.Codes level input e.ip steps

theorem Encoder.Codes.emit {e : Encoder} (h : e.Codes level input) {t : Token}
    (hfinds : Finds level input e.ip t) (hmatches : level.Matches input e.ip t)
    (hint : input.length < 2 ^ 32) : (e.emit level input t).Codes level input := by
  obtain ⟨steps, h⟩ := h
  obtain ⟨hmakes, hlt⟩ := hfinds
  cases t with
  | literal => exact h.literal (Nat.lt_of_succ_lt hlt)
  | match_ len distance => exact h.match_ hmatches.1 hmakes.1 hmatches.2 hint

theorem codes_mainLoop {c : Compressor} (h : c.encoder.Codes level input) (hpos : 0 < c.encoder.ip)
    (hint : input.length < 2 ^ 32) (fuel : Nat) :
    (mainLoop level input fuel c).encoder.Codes level input := by
  induction fuel generalizing c with
  | zero => exact h
  | succ fuel ih =>
    unfold mainLoop
    split
    · rename_i hlimit
      have hround := round_encoder level input c
      refine ih ?_ ?_
      · rw [hround]
        exact h.emit (finds_search level hlimit hpos c.htab) (matches_search level hlimit hpos c.htab)
          hint
      · rw [hround, Encoder.emit_ip]
        exact Nat.lt_of_lt_of_le hpos (Nat.le_add_right _ _)
    · exact h

/-- the control byte of the first run, with the mark of its level -/
def Level.markByte (level : Level) (c : UInt8) : UInt8 :=
  match level with
  | .one => c
  | .two => c ||| ((1 : UInt8) <<< 5)

theorem Out.Holds.mark (h : o.Holds (c :: bs)) (level : Level) :
    (o.mark level).Holds (level.markByte c :: bs) := by
  cases level with
  | one => exact h
  | two =>
    have hfirst : o.mem 0 = some c := h.mem 0 (Nat.succ_pos _)
    have hmarked := h.update [] (c ||| ((1 : UInt8) <<< 5))
    show ({ o with mem := Function.update o.mem 0 ((o.mem 0).map (· ||| ((1 : UInt8) <<< 5))) } :
      Out).Holds _
    rw [hfirst]
    exact hmarked

/-- a control byte of literals leaves room for the mark -/
theorem magic_markByte (level : Level) (hc : c.toNat ≤ 31) :
    Level.ofMagic (level.markByte c) = some level ∧ (level.markByte c).toNat &&& 31 = c.toNat := by
  obtain ⟨n, hn, rfl⟩ : ∃ n < 32, c = UInt8.ofNat n :=
    ⟨c.toNat, by omega, (UInt8.ofNat_toNat).symm⟩
  have hall : ∀ level, ∀ n < 32, Level.ofMagic (level.markByte (UInt8.ofNat n)) = some level ∧
      (level.markByte (UInt8.ofNat n)).toNat &&& 31 = (UInt8.ofNat n).toNat := by
    intro level
    cases level <;> decide
  exact hall level n hn

theorem length_le_bytes (h : ∀ s ∈ steps, level.Codable s) :
    steps.length ≤ (steps.flatMap level.stepBytes).length := by
  induction steps with
  | nil => exact Nat.le_refl 0
  | cons s steps ih =>
    obtain ⟨c, bs, hbytes⟩ := stepBytes_cons level (h s List.mem_cons_self)
    have hrest := ih fun s' hs' => h s' (List.mem_cons_of_mem s hs')
    rw [List.flatMap_cons, List.length_append, hbytes, List.length_cons, List.length_cons]
    omega

/-- **The steps of an input, with their mark, are unpacked to it.** -/
theorem unpack_stepped {maxout : Int} (h : Stepped level input input.length steps)
    (hbytes : steps.flatMap level.stepBytes = c :: bs) (hout : (input.length : Int) ≤ maxout)
    (behind : Bytes) :
    fastlzDecompress (level.markByte c :: bs ++ behind) (bs.length + 1) maxout = .ok (some input) := by
  obtain ⟨hfactors, hcodable, hfirst⟩ := h
  cases steps with
  | nil => cases hbytes
  | cons s steps =>
    obtain ⟨xs, rfl⟩ := hfirst s rfl
    have hlits := hcodable _ List.mem_cons_self
    have hrestCodable : ∀ s ∈ steps, level.Codable s := fun s hs =>
      hcodable s (List.mem_cons_of_mem _ hs)
    have hle : xs.length ≤ 32 := hlits.2
    obtain ⟨hpre, hinside, hrest⟩ := hfactors.of_lits
    rw [Nat.zero_add] at hrest hinside
    obtain ⟨rfl, rfl⟩ := List.cons.inj (show UInt8.ofNat (xs.length - 1) ::
      (xs ++ steps.flatMap level.stepBytes) = c :: bs from hbytes)
    have hctrl : (UInt8.ofNat (xs.length - 1)).toNat ≤ 31 := by
      rw [UInt8.toNat_ofNat']
      omega
    obtain ⟨hmagic, hand⟩ := magic_markByte level hctrl
    let mem := level.markByte (UInt8.ofNat (xs.length - 1)) ::
      (xs ++ steps.flatMap level.stepBytes) ++ behind
    let length := (xs ++ steps.flatMap level.stepBytes).length + 1
    have hlength : length = 1 + xs.length + (steps.flatMap level.stepBytes).length := by
      show (xs ++ steps.flatMap level.stepBytes).length + 1 = _
      rw [List.length_append]
      omega
    have hmem : length ≤ mem.length := by
      show _ ≤ (level.markByte _ :: (xs ++ steps.flatMap level.stepBytes ++ behind)).length
      rw [List.length_cons, List.length_append]
      exact Nat.succ_le_succ (Nat.le_add_right _ _)
    have hdrop : mem.drop 1 = xs ++ (steps.flatMap level.stepBytes ++ behind) :=
      List.append_assoc _ _ _
    have hround : level.round mem length maxout ⟨1, [], (UInt8.ofNat (xs.length - 1)).toNat⟩ =
        .ok (.next (mem.take length)[1 + xs.length]? (1 + xs.length) xs) :=
      round_lits hmem hlits hdrop (by omega) (show (xs.length : Int) ≤ maxout by omega)
    have hcount := length_le_bytes hrestCodable
    have hend : unpackLoop level mem length maxout length
        (.next (mem.take length)[1 + xs.length]? (1 + xs.length) (input.take xs.length)) =
          .ok (some (input.take input.length)) :=
      unpackLoop_factors hmem hrest hrestCodable (drop_of_drop _ hdrop) hlength.symm (by omega) hout
    have htake : input.take xs.length = xs := hpre.symm
    rw [htake, List.take_length] at hend
    show fastlzDecompress (_ :: (xs ++ steps.flatMap level.stepBytes ++ behind)) length maxout = _
    rw [fastlzDecompress_of_magic hmagic]
    show (Except.ok (level.markByte (UInt8.ofNat (xs.length - 1))) >>= fun ctrl =>
      level.round mem length maxout ⟨1, [], ctrl.toNat &&& 31⟩ >>=
        unpackLoop level mem length maxout length) = _
    rw [ok_bind, hand, hround, ok_bind]
    exact hend

/-! ## the round trip -/

/-- what a compressor leaves for an input of some bytes -/
theorem compress_stepped (level : Level) (hne : input ≠ []) (hint : input.length < 2 ^ 32) :
    ∃ level' steps c bs, Stepped level' input input.length steps ∧
      steps.flatMap level'.stepBytes = c :: bs ∧
      (level.compress input).bytes = level'.markByte c :: bs := by
  have hpos : 0 < input.length := List.length_pos_iff.mpr hne
  unfold Level.compress
  by_cases hshort : input.length < 4
  · -- a short input is one literal run, without a mark
    have hnil : Stepped .one input 0 [] :=
      ⟨.done (Nat.zero_le _), fun s hs => (by cases hs), fun s hs => by cases hs⟩
    have hstepped := hnil.lits (n := input.length) hpos (show input.length ≤ 32 by omega) (by omega)
    rw [Nat.zero_add, List.drop_zero, List.take_length, List.nil_append] at hstepped
    refine ⟨.one, _, _, _, hstepped, by rw [List.flatMap_singleton]; rfl, ?_⟩
    have hempty : Out.empty.Holds [] := ⟨rfl, fun i hi => by cases hi⟩
    rw [if_pos hshort, shortCopy, if_neg (by omega)]
    exact ((hempty.put _).puts input).bytes
  · rw [if_neg hshort]
    have hstart : (startEncoder input).Codes level input :=
      ⟨[], codes_startEncoder level (by omega)⟩
    obtain ⟨steps, hcodes⟩ := codes_mainLoop (c := ⟨startEncoder input, fun _ => 0⟩) hstart
      (show 0 < 2 by decide) hint input.length
    obtain ⟨steps', hlast⟩ := hcodes.literals
    obtain ⟨steps'', hstepped, hsome, hholds⟩ := hlast.closeRun
    obtain ⟨c, bs, hbytes⟩ : ∃ c bs, steps''.flatMap level.stepBytes = c :: bs := by
      cases steps'' with
      | nil => exact absurd rfl hsome
      | cons s steps =>
        obtain ⟨c, bs, hcons⟩ := stepBytes_cons level (hstepped.codable s List.mem_cons_self)
        exact ⟨c, bs ++ steps.flatMap level.stepBytes, by rw [List.flatMap_cons, hcons]; rfl⟩
    rw [hbytes] at hholds
    exact ⟨level, steps'', c, bs, hstepped, hbytes, (hholds.mark level).bytes⟩

/-- with room for the input -/
theorem unpack_compress (level : Level) (hne : input ≠ []) (hint : input.length < 2 ^ 32)
    (behind : Bytes) {maxout : Int} (hroom : (input.length : Int) ≤ maxout) :
    fastlzDecompress ((level.compress input).bytes ++ behind) (level.compress input).bytes.length
      maxout = .ok (some input) := by
  obtain ⟨level', steps, c, bs, hstepped, hbytes, hpacked⟩ := compress_stepped level hne hint
  rw [hpacked]
  exact unpack_stepped hstepped hbytes hroom behind

/-- **The FastLZ round trip.** What a compressor of either level makes of an input is unpacked to that
input, whatever is behind it in memory, if the output has room for it; else it is refused. -/
theorem fastlz_roundTrip (level : Level) (hne : input ≠ []) (hint : input.length < 2 ^ 31)
    (behind : Bytes) (maxout : Int) :
    fastlzDecompress ((level.compress input).bytes ++ behind) (level.compress input).bytes.length
        maxout = .ok (if input.length ≤ maxout then some input else none) := by
  have hint' : input.length < 2 ^ 32 := by omega
  by_cases hroom : (input.length : Int) ≤ maxout
  · rw [if_pos hroom]
    exact unpack_compress level hne hint' behind hroom
  · rw [if_neg hroom]
    have hmem : (level.compress input).bytes.length ≤
        ((level.compress input).bytes ++ behind).length := by
      rw [List.length_append]
      exact Nat.le_add_right _ _
    have hle : maxout ≤ (input.length : Int) := by omega
    rcases unpack_smaller hmem hle with hsame | hrefused
    · have hall := unpack_compress level hne hint' behind (Int.le_refl _)
      exact absurd (returned_of_unpack hmem (hsame.trans hall)).2 hroom
    · exact hrefused

/-- the trip of a run, in more memory and with a small output -/
theorem fastlz_roundTrip_run :
    fastlzDecompress ((Level.two.compress (List.replicate 40 7)).bytes ++ [255])
      (Level.two.compress (List.replicate 40 7)).bytes.length 39 =
        .ok (if ((List.replicate 40 (7 : UInt8)).length : Int) ≤ 39 then
          some (List.replicate 40 7) else none) :=
  fastlz_roundTrip .two (by decide) (by decide) [255] 39

end

end PhpMemcached
