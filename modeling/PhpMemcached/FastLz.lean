import PhpMemcached.Encode

/-!
# The FastLZ encoder and its buffer

* `Out`                the output buffer with what was written to it;
* `Level`, `Token`     the two encoders; a literal byte, a match;
* `encode`             what an encoder writes for a sequence of literals and matches;
* `search`, `mainRound`    how it finds them; `fastlzCompress`;
* `Splits`             the sequences into which an encoder may split its input
                       (`compress_eq_encode`);
* `fastlz_fits`        for each of these, what is written fits in the buffer of `s_compress_value`.
-/

namespace PhpMemcached
open Ascii

/-! ## the output -/

/-- the output of an encoder: the bytes that were written to the buffer, where the next one goes, the
literals since the last control byte, and how many bytes were written, those taken back included -/
structure Out where
  mem : Nat → Option UInt8
  op : Nat
  copy : Nat
  written : Nat

def Out.empty : Out := ⟨fun _ => none, 0, 0, 0⟩

/-- `MAX_COPY` -/
def maxCopy : Nat := 32

/-- `*op++ = b` -/
def Out.put (o : Out) (b : UInt8) : Out :=
  { o with mem := Function.update o.mem o.op (some b), op := o.op + 1, written := o.written + 1 }

def Out.puts (o : Out) (bs : Bytes) : Out := bs.foldl Out.put o

/-- the control byte of a literal run, with its length not known yet -/
def Out.openRun (o : Out) : Out := { o.put (UInt8.ofNat (maxCopy - 1)) with copy := 0 }

/-- a literal byte -/
def Out.literal (o : Out) (b : UInt8) : Out :=
  if o.copy + 1 = maxCopy then (o.put b).openRun else { o.put b with copy := o.copy + 1 }

/-- the control byte of the last literal run is given its length, or taken back -/
def Out.closeRun (o : Out) : Out :=
  if o.copy ≠ 0 then
    { o with mem := Function.update o.mem (o.op - o.copy - 1) (some (UInt8.ofNat (o.copy - 1))) }
  else { o with op := o.op - 1 }

/-! ## the encoders -/

/-- `FASTLZ_LEVEL` -/
inductive Level where
  | one | two
  deriving DecidableEq, Repr

/-- `MAX_DISTANCE` -/
def Level.maxDistance : Level → Nat
  | .one => 8192
  | .two => 8191

/-- `MAX_DISTANCE` of level 1, `MAX_FARDISTANCE` of level 2 -/
def Level.farthest : Level → Nat
  | .one => 8192
  | .two => 65535 + 8191 - 1

/-- a literal byte; a match with its length less 2 and its distance less 1 -/
inductive Token where
  | literal
  | match_ (len distance : Nat)
  deriving DecidableEq, Repr

/-- `MAX_LEN - 2` -/
def maxLen : Nat := 264 - 2

/-- a match of level 1; `fuel` bounds the pieces of a long one -/
def matchBytes1 (distance : Nat) : Nat → Nat → Bytes
  | fuel + 1, len =>
    if maxLen < len then
      UInt8.ofNat ((7 <<< 5) + (distance >>> 8)) :: UInt8.ofNat (maxLen - 7 - 2) ::
        UInt8.ofNat (distance &&& 255) :: matchBytes1 distance fuel (len - maxLen)
    else lastBytes len
  | 0, len => lastBytes len
where
  lastBytes (len : Nat) : Bytes :=
    if len < 7 then
      [UInt8.ofNat ((len <<< 5) + (distance >>> 8)), UInt8.ofNat (distance &&& 255)]
    else
      [UInt8.ofNat ((7 <<< 5) + (distance >>> 8)), UInt8.ofNat (len - 7),
        UInt8.ofNat (distance &&& 255)]

/-- `for(; len >= 255; len-= 255) *op++ = 255; *op++ = len;` -/
def lengthBytes : Nat → Nat → Bytes
  | fuel + 1, len => if 255 ≤ len then 255 :: lengthBytes fuel (len - 255) else [UInt8.ofNat len]
  | 0, len => [UInt8.ofNat len]

/-- a match of level 2 -/
def matchBytes2 (len distance : Nat) : Bytes :=
  if distance < Level.two.maxDistance then
    if len < 7 then
      [UInt8.ofNat ((len <<< 5) + (distance >>> 8)), UInt8.ofNat (distance &&& 255)]
    else
      UInt8.ofNat ((7 <<< 5) + (distance >>> 8)) ::
        (lengthBytes (len - 7) (len - 7) ++ [UInt8.ofNat (distance &&& 255)])
  else
    let far := distance - Level.two.maxDistance
    if len < 7 then
      [UInt8.ofNat ((len <<< 5) + 31), 255, UInt8.ofNat (far >>> 8), UInt8.ofNat (far &&& 255)]
    else
      UInt8.ofNat ((7 <<< 5) + 31) :: (lengthBytes (len - 7) (len - 7) ++
        [255, UInt8.ofNat (far >>> 8), UInt8.ofNat (far &&& 255)])

def Level.matchBytes : Level → Nat → Nat → Bytes
  | .one, len, distance => matchBytes1 distance len len
  | .two, len, distance => matchBytes2 len distance

/-- a match, and the control byte of the literals that may follow -/
def Out.match_ (o : Out) (level : Level) (len distance : Nat) : Out :=
  (o.closeRun.puts (level.matchBytes len distance)).openRun

/-- the byte at `ip` -/
def byteAt (input : Bytes) (ip : Nat) : UInt8 := input.getD ip 0

/-- how far the input is encoded, and the output -/
structure Encoder where
  ip : Nat
  out : Out

def Encoder.emit (level : Level) (input : Bytes) (e : Encoder) : Token → Encoder
  | .literal => ⟨e.ip + 1, e.out.literal (byteAt input e.ip)⟩
  | .match_ len distance => ⟨e.ip + (len + 2), e.out.match_ level len distance⟩

/-- `length < 4`: one literal run -/
def shortCopy (input : Bytes) : Out :=
  if input.length = 0 then Out.empty
  else (Out.empty.put (UInt8.ofNat (input.length - 1))).puts input

/-- the first two bytes are literals -/
def startEncoder (input : Bytes) : Encoder :=
  ⟨2, { (Out.empty.put (UInt8.ofNat (maxCopy - 1))).puts [byteAt input 0, byteAt input 1] with
    copy := 2 }⟩

/-- the marker of level 2 -/
def Out.mark (level : Level) (o : Out) : Out :=
  match level with
  | .one => o
  | .two => { o with mem := Function.update o.mem 0 ((o.mem 0).map (· ||| ((1 : UInt8) <<< 5))) }

/-- the bytes that are left are literals -/
def Encoder.finish (level : Level) (input : Bytes) (e : Encoder) : Out :=
  (((input.drop e.ip).foldl Out.literal e.out).closeRun).mark level

/-- what an encoder writes that splits its input into the first two bytes, `tokens`, and literals -/
def encode (level : Level) (input : Bytes) (tokens : List Token) : Out :=
  if input.length < 4 then shortCopy input
  else (tokens.foldl (Encoder.emit level input) (startEncoder input)).finish level input

/-! ## the search for matches -/

/-- `FASTLZ_READU16` -/
def readU16 (input : Bytes) (p : Nat) : Nat :=
  (byteAt input p).toNat ||| ((byteAt input (p + 1)).toNat <<< 8)

/-- `HASH_FUNCTION`, with `HASH_LOG` 13 -/
def hashFunction (input : Bytes) (p : Nat) : Nat :=
  let v := readU16 input p
  (v ^^^ (readU16 input (p + 1) ^^^ (v >>> (16 - 13)))) &&& (1 <<< 13) - 1

abbrev Htab := Nat → Nat

def Htab.enter (htab : Htab) (input : Bytes) (p : Nat) : Htab :=
  Function.update htab (hashFunction input p) p

/-- `n` times `if(*ref++ != *ip++) break;`: whether all were equal, and `ip` after it -/
def compareBytes (input : Bytes) : Nat → Nat → Nat → Bool × Nat
  | 0, _, ip => (true, ip)
  | n + 1, ref, ip =>
    if byteAt input ref ≠ byteAt input ip then (false, ip + 1)
    else compareBytes input n (ref + 1) (ip + 1)

/-- `n` times `if(*ref++ != x) break; else ip++;` -/
def runBytes (input : Bytes) (x : UInt8) : Nat → Nat → Nat → Nat
  | 0, _, ip => ip
  | n + 1, ref, ip =>
    if byteAt input ref ≠ x then ip else runBytes input x n (ref + 1) (ip + 1)

/-- `ip` at the end of a match that goes up to `ip_bound` at most, one too far -/
def matchEnd (input : Bytes) (ref ip distance : Nat) : Nat :=
  let ipBound := input.length - 2
  if distance = 0 then runBytes input (byteAt input (ip - 1)) (ipBound - ip) ref ip
  else
    match compareBytes input 8 ref ip with
    | (false, ip) => ip
    | (true, ip) => (compareBytes input (ipBound - ip) (ref + 8) ip).2

/-- from the label `match` to the encoding, `len` bytes being known to match -/
def foundMatch (input : Bytes) (anchor ref len distance : Nat) : Token :=
  let distance := distance - 1
  let ip := matchEnd input ref (anchor + len) distance - 3
  .match_ (ip - anchor) distance

/-- what is found at `anchor` -/
def search (level : Level) (input : Bytes) (htab : Htab) (anchor : Nat) : Token × Htab :=
  if level = .two ∧ byteAt input anchor = byteAt input (anchor - 1) ∧
      readU16 input (anchor - 1) = readU16 input (anchor + 1) then
    (foundMatch input anchor (anchor - 1 + 3) 3 1, htab)
  else
    let ref := htab (hashFunction input anchor)
    let distance := anchor - ref
    let htab := htab.enter input anchor
    if distance = 0 ∨ level.farthest ≤ distance ∨ (compareBytes input 3 ref anchor).1 = false then
      (.literal, htab)
    else if level = .two ∧ level.maxDistance ≤ distance then
      -- a far match needs 5 bytes
      if (compareBytes input 2 (ref + 3) (anchor + 3)).1 = false then (.literal, htab)
      else (foundMatch input anchor (ref + 5) 5 distance, htab)
    else (foundMatch input anchor (ref + 3) 3 distance, htab)

structure Compressor where
  encoder : Encoder
  htab : Htab

/-- one round of the main loop; after a match, two positions at its end are entered -/
def mainRound (level : Level) (input : Bytes) (c : Compressor) : Compressor :=
  match search level input c.htab c.encoder.ip with
  | (.literal, htab) => ⟨c.encoder.emit level input .literal, htab⟩
  | (.match_ len distance, htab) =>
    let ip := c.encoder.ip + len
    ⟨c.encoder.emit level input (.match_ len distance),
      (htab.enter input ip).enter input (ip + 1)⟩

/-- the main loop, up to 12 bytes before the end; `fuel` bounds its rounds -/
def mainLoop (level : Level) (input : Bytes) : Nat → Compressor → Compressor
  | 0, c => c
  | fuel + 1, c =>
    if c.encoder.ip + 12 < input.length then mainLoop level input fuel (mainRound level input c) else c

/-- `fastlz1_compress`, `fastlz2_compress` -/
def Level.compress (level : Level) (input : Bytes) : Out :=
  if input.length < 4 then shortCopy input
  else (mainLoop level input input.length ⟨startEncoder input, fun _ => 0⟩).encoder.finish level input

/-- the level `fastlz_compress` chooses -/
def levelOf (input : Bytes) : Level := if input.length < 65536 then .one else .two

/-- `fastlz_compress`, for a length that an `int` holds -/
def fastlzCompress (input : Bytes) : Out := (levelOf input).compress input

/-! ## what is written -/

section
variable {o : Out} {ip n len distance fuel : Nat} {level : Level} {input : Bytes}

theorem lengthBytes_length (fuel len : Nat) : (lengthBytes fuel len).length ≤ 1 + len / 255 := by
  induction fuel generalizing len with
  | zero => exact Nat.le_add_right 1 _
  | succ fuel ih =>
    unfold lengthBytes
    split
    · have h := ih (len - 255)
      rw [List.length_cons]
      omega
    · exact Nat.le_add_right 1 _

theorem lastBytes_length (hlen : 1 ≤ len) (distance : Nat) :
    (matchBytes1.lastBytes distance len).length ≤ len + 1 := by
  unfold matchBytes1.lastBytes
  split
  · show 2 ≤ len + 1
    omega
  · show 3 ≤ len + 1
    omega

theorem matchBytes1_length (distance fuel : Nat) {len : Nat} (hlen : 1 ≤ len) :
    (matchBytes1 distance fuel len).length ≤ len + 1 := by
  induction fuel generalizing len with
  | zero => exact lastBytes_length hlen distance
  | succ fuel ih =>
    unfold matchBytes1
    split
    · rename_i hlong
      have hrest : 1 ≤ len - maxLen := by omega
      have h := ih hrest
      have hmax : 3 ≤ maxLen := by decide
      show (matchBytes1 distance fuel (len - maxLen)).length + 3 ≤ len + 1
      omega
    · exact lastBytes_length hlen distance

theorem matchBytes2_length (hlen : 1 ≤ len)
    (hfar : Level.two.maxDistance ≤ distance → 3 ≤ len) :
    (matchBytes2 len distance).length ≤ len + 1 := by
  have hbytes := lengthBytes_length (len - 7) (len - 7)
  unfold matchBytes2
  split
  · split
    · show 2 ≤ len + 1
      omega
    · rw [List.length_cons, List.length_append, List.length_singleton]
      omega
  · rename_i hnear
    have h3 := hfar (Nat.le_of_not_lt hnear)
    dsimp only
    split
    · show 4 ≤ len + 1
      omega
    · rw [List.length_cons, List.length_append]
      show (lengthBytes (len - 7) (len - 7)).length + 3 + 1 ≤ len + 1
      omega

/-- the tokens an encoder may make of its input: a far match is of 5 bytes at least -/
def Level.Makes (level : Level) : Token → Prop
  | .literal => True
  | .match_ len distance =>
    1 ≤ len ∧ (level = .two → level.maxDistance ≤ distance → 3 ≤ len)

/-- a match takes no more bytes than it stands for, the control byte after it included -/
theorem matchBytes_length (h : level.Makes (.match_ len distance)) :
    (level.matchBytes len distance).length + 1 ≤ len + 2 := by
  obtain ⟨hlen, hfar⟩ := h
  refine Nat.succ_le_succ ?_
  cases level with
  | one => exact matchBytes1_length distance len hlen
  | two => exact matchBytes2_length hlen (hfar rfl)

/-- nothing is written behind the bytes counted -/
structure Out.Within (o : Out) : Prop where
  op : o.op ≤ o.written
  mem : ∀ i, o.written ≤ i → o.mem i = none

/-- the output when the input is encoded up to `ip`: the control byte of the last run is there, and of
the bytes written there is one for each byte of the input, one for each full run of literals, and the
first -/
structure Out.Ok (o : Out) (ip : Nat) : Prop extends Out.Within o where
  control : o.copy < o.op
  budget : 32 * o.written + o.copy ≤ 33 * ip + 32

theorem Out.Within.empty : Out.empty.Within := ⟨Nat.le_refl 0, fun _ _ => rfl⟩

theorem Out.Within.update (h : o.Within) (hi : n < o.written) (b : Option UInt8) :
    ∀ i, o.written ≤ i → Function.update o.mem n b i = none := fun i hle => by
  rw [Function.update_of_ne (by omega)]
  exact h.mem i hle

theorem Out.Within.put (h : o.Within) (b : UInt8) : (o.put b).Within := by
  refine ⟨Nat.succ_le_succ h.op, fun i hi => ?_⟩
  have hop := h.op
  have hi' : o.written + 1 ≤ i := hi
  show Function.update o.mem o.op (some b) i = none
  rw [Function.update_of_ne (by omega)]
  exact h.mem i (by omega)

theorem Out.Within.puts (h : o.Within) (bs : Bytes) : (o.puts bs).Within := by
  induction bs generalizing o with
  | nil => exact h
  | cons b bs ih => exact ih (h.put b)

theorem Out.puts_counts (o : Out) (bs : Bytes) : (o.puts bs).op = o.op + bs.length ∧
    (o.puts bs).written = o.written + bs.length ∧ (o.puts bs).copy = o.copy := by
  induction bs generalizing o with
  | nil => exact ⟨rfl, rfl, rfl⟩
  | cons b bs ih =>
    obtain ⟨hop, hwritten, hcopy⟩ := ih (o.put b)
    refine ⟨hop.trans ?_, hwritten.trans ?_, hcopy⟩
    · show o.op + 1 + bs.length = o.op + (bs.length + 1)
      omega
    · show o.written + 1 + bs.length = o.written + (bs.length + 1)
      omega

theorem Out.Within.openRun (h : o.Within) : o.openRun.Within :=
  have hput := h.put (UInt8.ofNat (maxCopy - 1))
  ⟨hput.op, hput.mem⟩

/-- a run that is closed: its control byte was written before -/
theorem Out.Within.closeRun (h : o.Within) (hcontrol : o.copy < o.op) : o.closeRun.Within := by
  have hop := h.op
  unfold Out.closeRun
  split
  · exact ⟨hop, h.update (by omega) _⟩
  · exact ⟨Nat.le_trans (Nat.sub_le _ _) hop, h.mem⟩

theorem Out.closeRun_written (o : Out) : o.closeRun.written = o.written := by
  unfold Out.closeRun
  split
  · rfl
  · rfl

theorem Out.Ok.literal (h : o.Ok ip) (b : UInt8) : (o.literal b).Ok (ip + 1) := by
  have hput := h.put b
  have hbudget := h.budget
  have hcontrol := h.control
  unfold Out.literal
  split
  · -- the control byte of the next run: 32 literals were written since the last
    rename_i hfull
    have hcopy : o.copy + 1 = 32 := hfull
    refine ⟨hput.openRun, Nat.succ_pos _, ?_⟩
    show 32 * (o.written + 1 + 1) + 0 ≤ 33 * (ip + 1) + 32
    omega
  · refine ⟨⟨hput.op, hput.mem⟩, Nat.succ_lt_succ hcontrol, ?_⟩
    show 32 * (o.written + 1) + (o.copy + 1) ≤ 33 * (ip + 1) + 32
    omega

theorem Out.Ok.match_ (h : o.Ok ip) (hmakes : level.Makes (.match_ len distance)) :
    (o.match_ level len distance).Ok (ip + (len + 2)) := by
  have hbytes := matchBytes_length hmakes
  have hclose := h.toWithin.closeRun h.control
  have hwritten := (o.closeRun.puts_counts (level.matchBytes len distance)).2.1
  rw [o.closeRun_written] at hwritten
  have hbudget := h.budget
  refine ⟨(hclose.puts _).openRun, Nat.succ_pos _, ?_⟩
  show 32 * ((o.closeRun.puts (level.matchBytes len distance)).written + 1) + 0 ≤
    33 * (ip + (len + 2)) + 32
  omega

theorem Out.Ok.literals (h : o.Ok ip) (bs : Bytes) :
    (bs.foldl Out.literal o).Ok (ip + bs.length) := by
  induction bs generalizing o ip with
  | nil => exact h
  | cons b bs ih =>
    have hrest := ih (h.literal b)
    rw [Nat.add_assoc, Nat.add_comm 1] at hrest
    exact hrest

theorem Out.Within.mark (h : o.Within) (hpos : 0 < o.written) (level : Level) :
    (o.mark level).Within := by
  cases level with
  | one => exact h
  | two => exact ⟨h.op, h.update hpos _⟩

theorem Out.mark_written (o : Out) (level : Level) : (o.mark level).written = o.written := by
  cases level <;> rfl

/-! ## the sequences an encoder may make -/

def Token.size : Token → Nat
  | .literal => 1
  | .match_ len _ => len + 2

/-- an encoder at `ip` may split the rest of `n` bytes into these tokens, and literals: tokens start
up to 12 bytes before the end, and no match reaches the end -/
inductive Splits (level : Level) (n : Nat) : Nat → List Token → Prop
  | done {ip : Nat} : n ≤ ip + 12 → ip ≤ n → Splits level n ip []
  | token {ip : Nat} {t : Token} {ts : List Token} : ip + 12 < n → level.Makes t → ip + t.size < n →
      Splits level n (ip + t.size) ts → Splits level n ip (t :: ts)

theorem Encoder.emit_ip (level : Level) (input : Bytes) (e : Encoder) (t : Token) :
    (e.emit level input t).ip = e.ip + t.size := by
  cases t <;> rfl

theorem Encoder.ok_emit {e : Encoder} (h : e.out.Ok e.ip) {t : Token} (hmakes : level.Makes t) :
    (e.emit level input t).out.Ok (e.emit level input t).ip := by
  cases t with
  | literal => exact h.literal _
  | match_ len distance => exact h.match_ hmakes

theorem Encoder.ok_foldl (input : Bytes) {tokens : List Token} {e : Encoder} (h : e.out.Ok e.ip)
    (hsplits : Splits level n e.ip tokens) :
    (tokens.foldl (Encoder.emit level input) e).out.Ok
        (tokens.foldl (Encoder.emit level input) e).ip ∧
      (tokens.foldl (Encoder.emit level input) e).ip ≤ n := by
  induction tokens generalizing e with
  | nil =>
    cases hsplits with
    | done _ hle => exact ⟨h, hle⟩
  | cons t ts ih =>
    cases hsplits with
    | token _ hmakes _ hrest =>
      refine ih (Encoder.ok_emit h hmakes) ?_
      rw [Encoder.emit_ip]
      exact hrest

theorem ok_startEncoder (input : Bytes) : (startEncoder input).out.Ok (startEncoder input).ip := by
  have hwithin : ((Out.empty.put (UInt8.ofNat (maxCopy - 1))).puts
      [byteAt input 0, byteAt input 1]).Within := (Out.Within.empty.put _).puts _
  refine ⟨⟨hwithin.op, hwithin.mem⟩, ?_, ?_⟩
  · show 2 < 3
    decide
  · show 32 * 3 + 2 ≤ 33 * 2 + 32
    decide

/-- what is written is written to a buffer of `size` bytes, and not more bytes than that -/
structure Out.Fits (o : Out) (size : Nat) : Prop where
  written : o.written ≤ size
  mem : ∀ i, size ≤ i → o.mem i = none

theorem Out.Within.fits (h : o.Within) {size : Nat} (hsize : o.written ≤ size) : o.Fits size :=
  ⟨hsize, fun i hi => h.mem i (Nat.le_trans hsize hi)⟩

theorem fits_shortCopy (input : Bytes) : (shortCopy input).Fits (bufferSize input) := by
  unfold shortCopy bufferSize
  split
  · exact Out.Within.empty.fits (Nat.zero_le _)
  · have hwritten := ((Out.empty.put (UInt8.ofNat (input.length - 1))).puts_counts input).2.1
    have hone : (Out.empty.put (UInt8.ofNat (input.length - 1))).written = 1 := rfl
    exact ((Out.Within.empty.put _).puts input).fits (by omega)

theorem Encoder.fits_finish {e : Encoder} (h : e.out.Ok e.ip) (hip : e.ip ≤ input.length)
    (level : Level) : (e.finish level input).Fits (bufferSize input) := by
  have hlast := h.literals (input.drop e.ip)
  rw [List.length_drop, Nat.add_sub_of_le hip] at hlast
  have hclose := hlast.toWithin.closeRun hlast.control
  have hwritten := Out.closeRun_written ((input.drop e.ip).foldl Out.literal e.out)
  have hpos : 0 < ((input.drop e.ip).foldl Out.literal e.out).closeRun.written := by
    rw [hwritten]
    exact Nat.lt_of_lt_of_le (Nat.zero_lt_of_lt hlast.control) hlast.op
  refine (hclose.mark hpos level).fits ?_
  have hbudget := hlast.budget
  rw [Out.mark_written, hwritten]
  unfold bufferSize
  omega

/-- the sequences into which an encoder may split its input: for less than 4 bytes there are none -/
def MaySplit (level : Level) (input : Bytes) (tokens : List Token) : Prop :=
  4 ≤ input.length → Splits level input.length 2 tokens

/-- **Whatever an encoder makes of its input, it fits in the buffer.** -/
theorem encode_fits {tokens : List Token} (h : MaySplit level input tokens) :
    (encode level input tokens).Fits (bufferSize input) := by
  unfold encode
  split
  · exact fits_shortCopy input
  · rename_i hlong
    have hsplits : Splits level input.length (startEncoder input).ip tokens := h (by omega)
    obtain ⟨hok, hle⟩ := Encoder.ok_foldl input (ok_startEncoder input) hsplits
    exact Encoder.fits_finish hok hle level

/-! ## what the search finds -/

variable {anchor ref : Nat} {htab : Htab} {x : UInt8}

theorem le_compareBytes (input : Bytes) (n ref ip : Nat) : ip ≤ (compareBytes input n ref ip).2 := by
  induction n generalizing ref ip with
  | zero => exact Nat.le_refl ip
  | succ n ih =>
    unfold compareBytes
    split
    · exact Nat.le_succ ip
    · exact Nat.le_of_succ_le (ih (ref + 1) (ip + 1))

/-- the byte that differs is passed over too -/
theorem lt_compareBytes (input : Bytes) (hn : 0 < n) (ref ip : Nat) :
    ip < (compareBytes input n ref ip).2 := by
  cases n with
  | zero => cases hn
  | succ n =>
    unfold compareBytes
    split
    · exact Nat.lt_succ_self ip
    · exact le_compareBytes input n (ref + 1) (ip + 1)

theorem compareBytes_le (input : Bytes) (n ref ip : Nat) :
    (compareBytes input n ref ip).2 ≤ ip + n := by
  induction n generalizing ref ip with
  | zero => exact Nat.le_refl ip
  | succ n ih =>
    unfold compareBytes
    split
    · exact Nat.add_le_add_left (Nat.le_add_left 1 n) ip
    · have h := ih (ref + 1) (ip + 1)
      omega

theorem le_runBytes (input : Bytes) (x : UInt8) (n ref ip : Nat) :
    ip ≤ runBytes input x n ref ip := by
  induction n generalizing ref ip with
  | zero => exact Nat.le_refl ip
  | succ n ih =>
    unfold runBytes
    split
    · exact Nat.le_refl ip
    · exact Nat.le_of_succ_le (ih (ref + 1) (ip + 1))

theorem runBytes_le (input : Bytes) (x : UInt8) (n ref ip : Nat) :
    runBytes input x n ref ip ≤ ip + n := by
  induction n generalizing ref ip with
  | zero => exact Nat.le_refl ip
  | succ n ih =>
    unfold runBytes
    split
    · exact Nat.le_add_right ip _
    · have h := ih (ref + 1) (ip + 1)
      omega

/-- a run starts with the byte it is a run of -/
theorem lt_runBytes (hn : 0 < n) (hx : byteAt input ref = x) : ip < runBytes input x n ref ip := by
  cases n with
  | zero => cases hn
  | succ n =>
    unfold runBytes
    rw [if_neg (fun hne => hne hx)]
    exact le_runBytes input x n (ref + 1) (ip + 1)

/-- a match goes on for a byte at least, with the one it goes too far, and not behind the input -/
theorem matchEnd_bounds (hlimit : ip + 8 ≤ input.length)
    (hrun : distance = 0 → ref = ip - 1) :
    ip < matchEnd input ref ip distance ∧ matchEnd input ref ip distance ≤ input.length := by
  unfold matchEnd
  dsimp only
  split
  · rename_i hzero
    have hle := runBytes_le input (byteAt input (ip - 1)) (input.length - 2 - ip) ref ip
    have hlt : ip < runBytes input (byteAt input (ip - 1)) (input.length - 2 - ip) ref ip :=
      lt_runBytes (by omega) (by rw [hrun hzero])
    exact ⟨hlt, by omega⟩
  · have hlt := lt_compareBytes input (n := 8) (by decide) ref ip
    have hle := compareBytes_le input 8 ref ip
    split
    · rename_i ip₁ heq
      rw [heq] at hlt hle
      exact ⟨hlt, Nat.le_trans hle hlimit⟩
    · rename_i ip₁ heq
      rw [heq] at hlt hle
      have hlt₁ := le_compareBytes input (input.length - 2 - ip₁) (ref + 8) ip₁
      have hle₁ := compareBytes_le input (input.length - 2 - ip₁) (ref + 8) ip₁
      dsimp only at hlt hle
      exact ⟨Nat.lt_of_lt_of_le hlt hlt₁, by omega⟩

/-- what an encoder may find at `anchor` -/
def Finds (level : Level) (input : Bytes) (anchor : Nat) (t : Token) : Prop :=
  level.Makes t ∧ anchor + t.size < input.length

theorem finds_foundMatch (hlimit : anchor + 12 < input.length) (h3 : 3 ≤ len) (h5 : len ≤ 5)
    (hrun : distance - 1 = 0 → ref = anchor + len - 1)
    (hfar : level = .two → level.maxDistance ≤ distance - 1 → len = 5) :
    Finds level input anchor (foundMatch input anchor ref len distance) := by
  obtain ⟨hlt, hle⟩ : anchor + len < matchEnd input ref (anchor + len) (distance - 1) ∧
      matchEnd input ref (anchor + len) (distance - 1) ≤ input.length :=
    matchEnd_bounds (by omega) hrun
  unfold foundMatch Finds Level.Makes Token.size
  dsimp only
  refine ⟨⟨by omega, fun hlevel hdistance => ?_⟩, by omega⟩
  have hlen := hfar hlevel hdistance
  omega

/-- **What the search finds at `anchor`, an encoder may find there.** -/
theorem finds_search (level : Level) (hlimit : anchor + 12 < input.length) (hpos : 0 < anchor)
    (htab : Htab) : Finds level input anchor (search level input htab anchor).1 := by
  have hliteral : Finds level input anchor .literal := ⟨trivial, by
    show anchor + 1 < input.length
    omega⟩
  unfold search
  dsimp only
  split
  · have hzero : ∀ level : Level, ¬ level.maxDistance ≤ 1 - 1 := fun level => by
      cases level <;> decide
    refine finds_foundMatch hlimit (by decide) (by decide) (fun _ => by omega) fun _ hd => ?_
    exact absurd hd (hzero level)
  · split
    · exact hliteral
    · split
      · rename_i hfar
        split
        · exact hliteral
        · have hmax : 2 ≤ level.maxDistance := by cases level <;> decide
          have hle := hfar.2
          exact finds_foundMatch hlimit (by decide) (by decide) (fun hzero => by omega)
            fun _ _ => rfl
      · rename_i hmatch hnear
        refine finds_foundMatch hlimit (by decide) (by decide) (fun hzero => ?_) fun hlevel hd => ?_
        · have hne : anchor - htab (hashFunction input anchor) ≠ 0 := fun h => hmatch (.inl h)
          omega
        · exact absurd ⟨hlevel, Nat.le_trans hd (Nat.sub_le _ 1)⟩ hnear

theorem round_encoder (level : Level) (input : Bytes) (c : Compressor) :
    (mainRound level input c).encoder =
      c.encoder.emit level input (search level input c.htab c.encoder.ip).1 := by
  unfold mainRound
  split
  · rename_i heq
    rw [heq]
  · rename_i heq
    rw [heq]

/-- **The main loop makes a sequence of tokens**, if it is given a round for each byte. -/
theorem mainLoop_splits {c : Compressor} (hpos : 0 < c.encoder.ip)
    (hle : c.encoder.ip ≤ input.length) (hfuel : input.length ≤ c.encoder.ip + 12 + fuel) :
    ∃ tokens, Splits level input.length c.encoder.ip tokens ∧
      (mainLoop level input fuel c).encoder =
        tokens.foldl (Encoder.emit level input) c.encoder := by
  induction fuel generalizing c with
  | zero => exact ⟨[], .done hfuel hle, rfl⟩
  | succ fuel ih =>
    unfold mainLoop
    split
    · rename_i hlimit
      obtain ⟨hmakes, hlt⟩ := finds_search level hlimit hpos c.htab
      have hsize : ∀ t : Token, 0 < t.size := fun t => by
        cases t with
        | literal => exact Nat.one_pos
        | match_ len distance => exact Nat.succ_pos _
      have hpos' := hsize (search level input c.htab c.encoder.ip).1
      have hround := round_encoder level input c
      have hip : (mainRound level input c).encoder.ip =
          c.encoder.ip + (search level input c.htab c.encoder.ip).1.size := by
        rw [hround, Encoder.emit_ip]
      obtain ⟨tokens, hsplits, henc⟩ := ih (c := mainRound level input c) (by omega) (by omega)
        (by omega)
      rw [hip] at hsplits
      refine ⟨_ :: tokens, .token hlimit hmakes hlt hsplits, ?_⟩
      rw [henc, hround]
      rfl
    · rename_i hlimit
      exact ⟨[], .done (Nat.le_of_not_lt hlimit) hle, rfl⟩

/-- **A compressor is an encoder of one of these sequences.** -/
theorem compress_eq_encode (level : Level) (input : Bytes) :
    ∃ tokens, MaySplit level input tokens ∧ level.compress input = encode level input tokens := by
  unfold Level.compress encode
  by_cases hshort : input.length < 4
  · refine ⟨[], fun hlong => absurd hshort (Nat.not_lt_of_le hlong), ?_⟩
    rw [if_pos hshort, if_pos hshort]
  · have hlong : 4 ≤ input.length := Nat.le_of_not_lt hshort
    have hle : (startEncoder input).ip ≤ input.length := Nat.le_trans (by decide : 2 ≤ 4) hlong
    let c : Compressor := ⟨startEncoder input, fun _ => 0⟩
    obtain ⟨tokens, hsplits, henc⟩ : ∃ tokens, Splits level input.length c.encoder.ip tokens ∧
        (mainLoop level input input.length c).encoder =
          tokens.foldl (Encoder.emit level input) c.encoder :=
      mainLoop_splits Nat.two_pos hle (Nat.le_add_left _ _)
    refine ⟨tokens, fun _ => hsplits, ?_⟩
    rw [if_neg hshort, if_neg hshort, henc]

/-- **FastLZ fits in the buffer of `s_compress_value`**: whatever literals and matches an encoder
splits its input into, those of `fastlz_compress` among them. -/
theorem fastlz_fits (input : Bytes) :
    (∀ level tokens, MaySplit level input tokens →
      (encode level input tokens).Fits (bufferSize input)) ∧
    (∃ tokens, MaySplit (levelOf input) input tokens ∧
      fastlzCompress input = encode (levelOf input) input tokens) ∧
    (fastlzCompress input).Fits (bufferSize input) := by
  obtain ⟨tokens, hsplit, heq⟩ : ∃ tokens, MaySplit (levelOf input) input tokens ∧
      fastlzCompress input = encode (levelOf input) input tokens :=
    compress_eq_encode (levelOf input) input
  exact ⟨fun _ _ h => encode_fits h, ⟨tokens, hsplit, heq⟩, heq ▸ encode_fits hsplit⟩

/-- 32 bytes in which there is no match leave no byte of the buffer -/
example : (fastlzCompress ((List.range 32).map UInt8.ofNat)).written =
    bufferSize ((List.range 32).map UInt8.ofNat) := by decide

end

end PhpMemcached
