import PhpMemcached.Client

/-!
# Item keys

* `memcCheckKey`     the test of `MEMC_CHECK_KEY`, by protocol and `OPT_VERIFY_KEY`;
* `checkKeyOr`       the macro itself: refuse with `BAD_KEY_PROVIDED`, or go on;
* `sHashToKeys`      the keys of an array that get a request of several keys.
-/

namespace PhpMemcached
open Ascii Requests

/-- `MEMC_OBJECT_KEY_MAX_LENGTH` -/
def memcObjectKeyMaxLength : Nat := 250

/-- libmemcached's `MEMCACHED_MAX_KEY`, which counts a terminator -/
def memcachedMaxKey : Nat := 251

/-- `s_memc_valid_key_binary` -/
def sMemcValidKeyBinary (key : Bytes) : Bool := !key.contains 10

/-- `s_memc_object_key_max_length` -/
def sMemcObjectKeyMaxLength (memc : Memc) : Nat :=
  match memc.prefixKey with
  | some p => memcObjectKeyMaxLength - p.bytes.length
  | none => memcObjectKeyMaxLength

/-- `s_memc_valid_key_ascii` -/
def sMemcValidKeyAscii (key : Bytes) (verifyKey : UInt64) : Bool :=
  if verifyKey ≠ 0 then key.all fun b => !(!isGraph b || isSpace b)
  else key.all fun b => !isSpace b

/-- the condition of `MEMC_CHECK_KEY` under which a key is let through -/
def memcCheckKey (memc : Memc) (key : Bytes) : Bool :=
  !(key.length = 0 ||
    key.length > sMemcObjectKeyMaxLength memc ||
    (if memcachedBehaviorGet memc .binaryProtocol ≠ 0 then !sMemcValidKeyBinary key
     else !sMemcValidKeyAscii key (memcachedBehaviorGet memc .verifyKey)))

/-- `MEMC_CHECK_KEY`: `RETURN_FALSE` on a key that fails, otherwise what follows -/
def checkKeyOr (key : Bytes) (next : MemcM Zval) : MemcM Zval := do
  let s ← Cmd.get
  if memcCheckKey s.memc key then next
  else do
    Cmd.modify fun s => { s with rescode := .badKeyProvided }
    pure (.bool false)

section
variable (zend : Zend)

/-- the keys of `s_hash_to_keys`: those of 1 to 250 bytes, as strings -/
def sHashToKeys (hashIn : HashTable) : List Bytes :=
  (hashIn.map fun e => zvalGetString zend e.2).filter fun key =>
    0 < key.length && key.length < memcachedMaxKey

/-- what `s_hash_to_keys` puts into the result array when the order is to be kept -/
def sHashToKeysNulls (hashIn : HashTable) : HashTable :=
  hashIn.foldl (fun a e => zendSymtableUpdate a (zvalGetString zend e.2) .null) []

end

/-- `s_key_to_keys` -/
def sKeyToKeys (zend : Zend) (key : Bytes) : List Bytes :=
  sHashToKeys zend (addNextIndexZval [] (.str key))

theorem mem_sHashToKeys (zend : Zend) (hashIn : HashTable) (key : Bytes) :
    key ∈ sHashToKeys zend hashIn ↔
      (∃ e ∈ hashIn, zvalGetString zend e.2 = key) ∧ 0 < key.length ∧ key.length ≤ 250 := by
  unfold sHashToKeys memcachedMaxKey
  rw [List.mem_filter, List.mem_map, Bool.and_eq_true, decide_eq_true_iff, decide_eq_true_iff,
    Nat.lt_succ_iff]

/-! ## what the test accepts -/

/-- what the test accepts -/
structure ValidKey (memc : Memc) (key : Bytes) : Prop where
  ne_nil : key ≠ []
  length_le : (memc.prefixKey.elim 0 fun p => p.bytes.length) + key.length ≤ 250
  binary : memc.behavior .binaryProtocol ≠ 0 → (10 : UInt8) ∉ key
  space : memc.behavior .binaryProtocol = 0 → ∀ b ∈ key, isSpace b = false
  graph : memc.behavior .binaryProtocol = 0 → memc.behavior .verifyKey ≠ 0 →
    ∀ b ∈ key, isGraph b = true

theorem length_le_keyMaxLength (memc : Memc) (key : Bytes) :
    key.length ≤ sMemcObjectKeyMaxLength memc ↔
      (memc.prefixKey.elim 0 fun p => p.bytes.length) + key.length ≤ 250 := by
  unfold sMemcObjectKeyMaxLength memcObjectKeyMaxLength
  cases h : memc.prefixKey with
  | none => simp
  | some p =>
    have := p.le
    simp only [Option.elim_some]
    omega

theorem sMemcValidKeyAscii_iff (key : Bytes) (verifyKey : UInt64) :
    sMemcValidKeyAscii key verifyKey = true ↔
      (∀ b ∈ key, isSpace b = false) ∧ (verifyKey ≠ 0 → ∀ b ∈ key, isGraph b = true) := by
  unfold sMemcValidKeyAscii
  split
  · rename_i h
    simp only [List.all_eq_true, Bool.not_eq_true', Bool.or_eq_false_iff, Bool.not_eq_false']
    constructor
    · exact fun hk => ⟨fun b hb => (hk b hb).2, fun _ b hb => (hk b hb).1⟩
    · exact fun hk b hb => ⟨hk.2 h b hb, hk.1 b hb⟩
  · rename_i h
    simp only [List.all_eq_true, Bool.not_eq_true']
    exact ⟨fun hk => ⟨hk, fun hv => absurd hv h⟩, fun hk => hk.1⟩

/-- **`MEMC_CHECK_KEY` lets through exactly the valid keys.** -/
theorem memcCheckKey_iff (memc : Memc) (key : Bytes) :
    memcCheckKey memc key = true ↔ ValidKey memc key := by
  have hl := length_le_keyMaxLength memc key
  unfold memcCheckKey memcachedBehaviorGet
  rw [Bool.not_eq_true', Bool.or_eq_false_iff, Bool.or_eq_false_iff, decide_eq_false_iff_not,
    decide_eq_false_iff_not, Nat.not_lt, hl, List.length_eq_zero_iff]
  by_cases hb : memc.behavior .binaryProtocol = 0
  · rw [if_neg (not_not_intro hb), Bool.not_eq_false', sMemcValidKeyAscii_iff]
    constructor
    · exact fun ⟨⟨h1, h2⟩, h3, h4⟩ =>
        ⟨h1, h2, fun h => absurd hb h, fun _ => h3, fun _ => h4⟩
    · exact fun h => ⟨⟨h.ne_nil, h.length_le⟩, h.space hb, h.graph hb⟩
  · rw [if_pos hb, Bool.not_eq_false', sMemcValidKeyBinary, Bool.not_eq_true']
    constructor
    · exact fun ⟨⟨h1, h2⟩, h3⟩ =>
        ⟨h1, h2, fun _ => by simpa using h3, fun h => absurd h hb, fun h => absurd h hb⟩
    · exact fun h => ⟨⟨h.ne_nil, h.length_le⟩, by simpa using h.binary hb⟩

/-- a key that passes is the one key of its request -/
theorem sKeyToKeys_of_valid (zend : Zend) {memc : Memc} {key : Bytes} (h : ValidKey memc key) :
    sKeyToKeys zend key = [key] := by
  have hpos : 0 < key.length := List.length_pos_iff.mpr h.ne_nil
  have hlt : key.length < memcachedMaxKey := by
    have := h.length_le
    unfold memcachedMaxKey
    omega
  show [key].filter (fun key => 0 < key.length && key.length < memcachedMaxKey) = [key]
  rw [List.filter_cons, decide_eq_true hpos, decide_eq_true hlt]
  rfl

end PhpMemcached
