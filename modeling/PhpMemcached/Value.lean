import PhpMemcached.Lib.Ascii

/-!
# PHP values

* `Dbl`, `Zval`, `ArrKey`     doubles (their bits), PHP values, array keys; an array is the list of
                              its entries in insertion order;
* `Zend`                      what the extension takes from the PHP runtime;
* `zvalGetString`, `zvalGetLong`, `zendIsTrue`   the conversions of the Zend API;
* `zendHandleNumeric`         the key a string stands for in a symbol table;
* `zendSymtableUpdate`        update in place, or append.

An update keeps the keys of an array distinct (`zendHashUpdate_nodup`).
-/

namespace PhpMemcached
open Ascii

/-- a PHP double, by its IEEE bits -/
structure Dbl where
  bits : BitVec 64
  deriving DecidableEq, Repr

namespace Dbl

/-- the magnitude, truncated to an integer; none for an infinity or a NaN -/
def truncNat (d : Dbl) : Option Nat :=
  let e := (d.bits.toNat / 2 ^ 52) % 2 ^ 11
  let f := d.bits.toNat % 2 ^ 52
  if e = 2047 then none
  else
    let m := if e = 0 then f else 2 ^ 52 + f
    if e ≥ 1075 then some (m * 2 ^ (e - 1075)) else some (m / 2 ^ (1075 - max e 1))

/-- `d < 0.0` -/
def isNeg (d : Dbl) : Bool :=
  d.bits.msb && d.bits.toNat % 2 ^ 63 ≠ 0 && d.bits.toNat % 2 ^ 63 ≤ 2047 * 2 ^ 52

end Dbl

inductive ArrKey where
  | int (n : Int64)
  | str (s : Bytes)
  deriving DecidableEq, Repr

/-- a PHP value; `obj` is any object or resource, by its handle -/
inductive Zval where
  | null
  | bool (b : Bool)
  | long (n : Int64)
  | double (d : Dbl)
  | str (s : Bytes)
  | arr (a : List (ArrKey × Zval))
  | obj (handle : Nat)
  deriving Repr

/-- the entries of a PHP array, in order -/
abbrev HashTable := List (ArrKey × Zval)

/-- the parts of the PHP runtime the extension calls -/
structure Zend where
  /-- `zend_dtoa` in mode 0: sign, digits, position of the decimal point -/
  dtoa : Dbl → Bool × Bytes × Int
  strtod : Bytes → Dbl
  /-- the cast of a double outside the range of `uint64_t` -/
  castOverflow : Dbl → UInt64
  /-- `zval_get_string` of doubles and objects -/
  text : Zval → Bytes
  /-- `zval_get_long` of doubles, strings, arrays and objects -/
  toLong : Zval → Int64
  /-- `zend_is_true` of doubles, strings, arrays and objects -/
  truth : Zval → Bool
  /-- the machine word `Z_LVAL` reads in a value that is not an integer -/
  lvalWord : Zval → Int64

section
variable (zend : Zend)

/-- `zval_get_string` -/
def zvalGetString : Zval → Bytes
  | .null => []
  | .bool b => if b then ascii ['1'] else []
  | .long n => intText n.toInt
  | .str s => s
  | .arr _ => ascii ['A', 'r', 'r', 'a', 'y']
  | v => zend.text v

/-- `zval_get_long` -/
def zvalGetLong : Zval → Int64
  | .null => 0
  | .bool b => if b then 1 else 0
  | .long n => n
  | v => zend.toLong v

/-- `zend_is_true` -/
def zendIsTrue : Zval → Bool
  | .null => false
  | .bool b => b
  | .long n => n != 0
  | v => zend.truth v

/-- `Z_LVAL_P`, which looks at no type -/
def zLvalP : Zval → Int64
  | .long n => n
  | v => zend.lvalWord v

end

/-- the C string these bytes begin with -/
def cString (b : Bytes) : Bytes := b.takeWhile (· ≠ 0)

/-- only the bytes before the first NUL are there -/
theorem cString_eq_self_iff {b : Bytes} : cString b = b ↔ 0 ∉ b := by
  rw [cString, List.takeWhile_eq_self_iff]
  constructor
  · intro hall hmem
    exact absurd (hall 0 hmem) (by decide)
  · intro hmem c hc
    exact decide_eq_true fun hc0 : c = 0 => hmem (hc0 ▸ hc)

theorem cString_cString (b : Bytes) : cString (cString b) = cString b :=
  cString_eq_self_iff.mpr fun hmem => absurd (List.mem_takeWhile_imp hmem) (by decide)

/-! ## arrays -/

/-- `ZEND_HANDLE_NUMERIC_STR`: a canonical decimal string in range is an integer key -/
def zendHandleNumeric (s : Bytes) : ArrKey :=
  let n := Int64.ofInt (strtoz s)
  if intText n.toInt = s then .int n else .str s

/-- `zend_hash_find` -/
def zendHashFind (a : HashTable) (k : ArrKey) : Option Zval := a.lookup k

/-- `zend_hash_update`: an existing key keeps its position -/
def zendHashUpdate (a : HashTable) (k : ArrKey) (v : Zval) : HashTable :=
  match a with
  | [] => [(k, v)]
  | (k', v') :: r => if k' = k then (k, v) :: r else (k', v') :: zendHashUpdate r k v

/-- `zend_symtable_update`, and the `add_assoc_*` family -/
def zendSymtableUpdate (a : HashTable) (s : Bytes) (v : Zval) : HashTable :=
  zendHashUpdate a (zendHandleNumeric s) v

/-- `add_next_index_zval` on an array that was built by it alone -/
def addNextIndexZval (a : HashTable) (v : Zval) : HashTable :=
  a ++ [(.int (Int64.ofNat a.length), v)]

theorem mem_keys_zendHashUpdate (a : HashTable) (k k' : ArrKey) (v : Zval) :
    k' ∈ (zendHashUpdate a k v).map Prod.fst ↔ k' = k ∨ k' ∈ a.map Prod.fst := by
  induction a with
  | nil => simp [zendHashUpdate]
  | cons e r ih =>
    obtain ⟨k₀, v₀⟩ := e
    rw [zendHashUpdate]
    split
    · rename_i h
      subst h
      simp
    · rw [List.map_cons, List.mem_cons, ih, List.map_cons, List.mem_cons]
      exact or_left_comm

theorem mem_zendHashUpdate {a : HashTable} {k : ArrKey} {v : Zval} {e : ArrKey × Zval}
    (he : e ∈ zendHashUpdate a k v) : e = (k, v) ∨ e ∈ a := by
  induction a with
  | nil => exact .inl (List.mem_singleton.mp he)
  | cons x r ih =>
    obtain ⟨k₀, v₀⟩ := x
    rw [zendHashUpdate] at he
    split at he
    · exact (List.mem_cons.mp he).imp_right (List.mem_cons_of_mem _)
    · rcases List.mem_cons.mp he with rfl | he
      · exact .inr List.mem_cons_self
      · exact (ih he).imp_right (List.mem_cons_of_mem _)

theorem zendHashUpdate_nodup {a : HashTable} (h : (a.map Prod.fst).Nodup) (k : ArrKey)
    (v : Zval) : ((zendHashUpdate a k v).map Prod.fst).Nodup := by
  induction a with
  | nil => simp [zendHashUpdate]
  | cons e r ih =>
    obtain ⟨k₀, v₀⟩ := e
    obtain ⟨h₀, hr⟩ := List.nodup_cons.mp h
    rw [zendHashUpdate]
    split
    · rename_i hk
      subst hk
      exact List.nodup_cons.mpr ⟨h₀, hr⟩
    · rename_i hk
      refine List.nodup_cons.mpr ⟨fun hm => ?_, ih hr⟩
      rcases (mem_keys_zendHashUpdate r k k₀ v).mp hm with hm | hm
      · exact hk hm
      · exact h₀ hm

/-- entries put into an array one after the other -/
def zendHashUpdateAll (a entries : HashTable) : HashTable :=
  entries.foldl (fun a e => zendHashUpdate a e.1 e.2) a

theorem zendHashUpdateAll_nodup {a : HashTable} (h : (a.map Prod.fst).Nodup) (entries : HashTable) :
    ((zendHashUpdateAll a entries).map Prod.fst).Nodup := by
  induction entries generalizing a with
  | nil => exact h
  | cons e entries ih => exact ih (zendHashUpdate_nodup h e.1 e.2)

theorem mem_zendHashUpdateAll {a entries : HashTable} {e : ArrKey × Zval}
    (he : e ∈ zendHashUpdateAll a entries) : e ∈ a ∨ e ∈ entries := by
  induction entries generalizing a with
  | nil => exact .inl he
  | cons x entries ih =>
    rcases ih he with he | he
    · rcases mem_zendHashUpdate he with rfl | he
      · exact .inr List.mem_cons_self
      · exact .inl he
    · exact .inr (List.mem_cons_of_mem _ he)

theorem mem_keys_zendHashUpdateAll (a entries : HashTable) (k : ArrKey) :
    k ∈ (zendHashUpdateAll a entries).map Prod.fst ↔
      k ∈ a.map Prod.fst ∨ k ∈ entries.map Prod.fst := by
  induction entries generalizing a with
  | nil => simp [zendHashUpdateAll]
  | cons e entries ih =>
    refine (ih (zendHashUpdate a e.1 e.2)).trans ?_
    rw [mem_keys_zendHashUpdate, List.map_cons, List.mem_cons, or_assoc]
    exact or_left_comm

theorem lookup_of_mem {a : HashTable} (ha : (a.map Prod.fst).Nodup) {e : ArrKey × Zval}
    (he : e ∈ a) : a.lookup e.1 = some e.2 := by
  induction a with
  | nil => cases he
  | cons x r ih =>
    obtain ⟨hx, hr⟩ := List.nodup_cons.mp ha
    rcases List.mem_cons.mp he with rfl | he
    · exact List.lookup_cons_self
    · have hne : (e.1 == x.1) = false :=
        beq_false_of_ne fun h => hx (List.mem_map.mpr ⟨e, he, h⟩)
      rw [List.lookup_cons, hne]
      exact ih hr he

theorem eraseDups_of_nodup {l : List ArrKey} (h : l.Nodup) : l.eraseDups = l := by
  induction l with
  | nil => rfl
  | cons k l ih =>
    obtain ⟨hk, hl⟩ := List.nodup_cons.mp h
    have hfilter : (l.filter fun k' => !k' == k) = l :=
      List.filter_eq_self.mpr fun k' hk' => by
        have hne : k' ≠ k := fun he => hk (he ▸ hk')
        simp [hne]
    rw [List.eraseDups_cons, hfilter, ih hl]

theorem nodup_eraseDups (l : List ArrKey) : l.eraseDups.Nodup := by
  match l with
  | [] => exact List.nodup_nil
  | k :: l =>
    rw [List.eraseDups_cons, List.nodup_cons]
    refine ⟨fun hk => ?_, nodup_eraseDups _⟩
    have hne := (List.mem_filter.mp (List.mem_eraseDups.mp hk)).2
    rw [beq_self_eq_true] at hne
    cases hne
termination_by l.length
decreasing_by exact Nat.lt_succ_of_le (List.length_filter_le _ _)

/-- a key that is there keeps its position, another one is appended -/
theorem keys_zendHashUpdate (a : HashTable) (k : ArrKey) (v : Zval) :
    (zendHashUpdate a k v).map Prod.fst =
      if k ∈ a.map Prod.fst then a.map Prod.fst else a.map Prod.fst ++ [k] := by
  induction a with
  | nil => rfl
  | cons e r ih =>
    obtain ⟨k₀, v₀⟩ := e
    rw [zendHashUpdate]
    by_cases hk : k₀ = k
    · subst hk
      rw [if_pos rfl, List.map_cons, List.map_cons, if_pos List.mem_cons_self]
    · rw [if_neg hk, List.map_cons, ih, List.map_cons]
      by_cases hr : k ∈ r.map Prod.fst
      · rw [if_pos hr, if_pos (List.mem_cons_of_mem _ hr)]
      · have hnot : k ∉ k₀ :: r.map Prod.fst := fun hm =>
          (List.mem_cons.mp hm).elim (fun he => hk he.symm) hr
        rw [if_neg hr, if_neg hnot]
        rfl

/-- **The keys stand in the order in which they came first.** -/
theorem keys_zendHashUpdateAll {a : HashTable} (ha : (a.map Prod.fst).Nodup) (entries : HashTable) :
    (zendHashUpdateAll a entries).map Prod.fst =
      (a.map Prod.fst ++ entries.map Prod.fst).eraseDups := by
  induction entries generalizing a with
  | nil =>
    rw [List.map_nil, List.append_nil]
    exact (eraseDups_of_nodup ha).symm
  | cons e entries ih =>
    refine (ih (zendHashUpdate_nodup ha e.1 e.2)).trans ?_
    rw [keys_zendHashUpdate, List.map_cons]
    by_cases hmem : e.1 ∈ a.map Prod.fst
    · rw [if_pos hmem, List.eraseDups_append, List.eraseDups_append]
      have hdrop : (e.1 :: entries.map Prod.fst).removeAll (a.map Prod.fst) =
          (entries.map Prod.fst).removeAll (a.map Prod.fst) :=
        List.filter_cons_of_neg (by simpa using List.mem_map.mp hmem)
      rw [hdrop]
    · rw [if_neg hmem, List.append_assoc]
      rfl

theorem lookup_zendHashUpdate (a : HashTable) (k k' : ArrKey) (v : Zval) :
    (zendHashUpdate a k v).lookup k' = if k' = k then some v else a.lookup k' := by
  induction a with
  | nil =>
    show List.lookup k' [(k, v)] = _
    rw [List.lookup_cons, beq_eq_decide]
    by_cases hk : k' = k
    · rw [decide_eq_true hk, if_pos hk]
    · rw [decide_eq_false hk, if_neg hk]
  | cons e r ih =>
    obtain ⟨k₀, v₀⟩ := e
    rw [zendHashUpdate]
    by_cases hk : k₀ = k
    · subst hk
      rw [if_pos rfl, List.lookup_cons, List.lookup_cons, beq_eq_decide]
      by_cases hk' : k' = k₀
      · rw [decide_eq_true hk', if_pos hk']
      · rw [decide_eq_false hk', if_neg hk']
    · rw [if_neg hk, List.lookup_cons, List.lookup_cons, beq_eq_decide]
      by_cases hk' : k' = k₀
      · have hne : k' ≠ k := fun he => hk (hk'.symm.trans he)
        rw [decide_eq_true hk', if_neg hne]
      · rw [decide_eq_false hk']
        exact ih

/-- the value that was entered last under a key -/
def lastValue (entries : HashTable) (k : ArrKey) : Option Zval := entries.reverse.lookup k

theorem lastValue_cons (e : ArrKey × Zval) (entries : HashTable) (k : ArrKey) :
    lastValue (e :: entries) k =
      (lastValue entries k).or (if k = e.1 then some e.2 else none) := by
  unfold lastValue
  rw [List.reverse_cons, List.lookup_append, List.lookup_cons, List.lookup_nil, beq_eq_decide]
  by_cases hk : k = e.1
  · rw [decide_eq_true hk, if_pos hk]
  · rw [decide_eq_false hk, if_neg hk]

/-- **A key has the value that was entered last.** -/
theorem lookup_zendHashUpdateAll (a entries : HashTable) (k : ArrKey) :
    zendHashFind (zendHashUpdateAll a entries) k = (lastValue entries k).or (zendHashFind a k) := by
  induction entries generalizing a with
  | nil => rfl
  | cons e entries ih =>
    refine (ih (zendHashUpdate a e.1 e.2)).trans ?_
    rw [lastValue_cons, Option.or_assoc]
    congr 1
    show (zendHashUpdate a e.1 e.2).lookup k = _
    rw [lookup_zendHashUpdate]
    by_cases hk : k = e.1
    · rw [if_pos hk, if_pos hk]
      rfl
    · rw [if_neg hk, if_neg hk]
      rfl

theorem lastValue_isSome_iff (entries : HashTable) (k : ArrKey) :
    (lastValue entries k).isSome ↔ k ∈ entries.map Prod.fst := by
  induction entries with
  | nil => exact ⟨nofun, nofun⟩
  | cons e entries ih =>
    rw [lastValue_cons, List.map_cons, List.mem_cons, Option.isSome_or, Bool.or_eq_true, ih]
    by_cases hk : k = e.1
    · rw [if_pos hk]
      exact ⟨fun _ => .inl hk, fun _ => .inr rfl⟩
    · rw [if_neg hk]
      exact ⟨fun h => .inr (h.resolve_right nofun), fun h => .inl (h.resolve_left hk)⟩

end PhpMemcached
