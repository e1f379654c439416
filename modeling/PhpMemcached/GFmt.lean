import PhpMemcached.Value

/-!
# The text of a double (`g_fmt.c`)

* `expWidth`, `expDigits`     the two loops that print the exponent;
* `gFmtPoint`                 the loop that copies the digits and sets the point;
* `phpMemcachedGFmt`          sign, digits, point or exponent.
-/

namespace PhpMemcached
open Ascii

/-- `for (j = 2, k = 10; 10*k <= decpt; j++, k *= 10);` -/
def expWidth (fuel j k decpt : Nat) : Nat × Nat :=
  match fuel with
  | 0 => (j, k)
  | fuel + 1 => if 10 * k ≤ decpt then expWidth fuel (j + 1) (k * 10) decpt else (j, k)

/-- the `j` digits of `decpt`, from the one of weight `k` on -/
def expDigits (j k decpt : Nat) : Bytes :=
  match j with
  | 0 => []
  | j + 1 =>
    let i := decpt / k
    UInt8.ofNat (i + 48) :: expDigits j k ((decpt - i * k) * 10)

/-- the digits of `s` with the point after `decpt` of them, padded with zeros -/
def gFmtPoint (s : Bytes) (decpt : Int) : Bytes :=
  match s with
  | [] => List.replicate decpt.toNat 48
  | c :: s =>
    if decpt - 1 = 0 ∧ s ≠ [] then c :: 46 :: gFmtPoint s (decpt - 1)
    else c :: gFmtPoint s (decpt - 1)

/-- scientific form: one digit, the others after a point, the exponent -/
def gFmtExp (s : Bytes) (decpt : Int) : Bytes :=
  let d := decpt - 1
  let (j, k) := expWidth d.natAbs 2 10 d.natAbs
  s.take 1 ++ (if s.drop 1 = [] then [] else 46 :: s.drop 1) ++
    [101, if d < 0 then 45 else 43] ++ expDigits j k d.natAbs

/-- `php_memcached_g_fmt` -/
def phpMemcachedGFmt (zend : Zend) (x : Dbl) : Bytes :=
  let (sign, s, decpt) := zend.dtoa x
  (if sign then [45] else []) ++
    if decpt = 9999 then s
    else if decpt ≤ -4 ∨ decpt > s.length + 5 then gFmtExp s decpt
    else if decpt ≤ 0 then 46 :: (List.replicate (-decpt).toNat 48 ++ s)
    else gFmtPoint s decpt

end PhpMemcached
