import PhpMemcached.Lib.Ascii

/-!
# The flags word of an item

A 32-bit word: the value type in bits 0..3, the compression bits in 4..15, the user flags in 16..31.

* `memcValSetType`, `memcValSetFlag`, `memcValSetUserFlags`   the setters (each only ORs bits in);
* `memcValGetType`, `memcValHasFlag`, `memcValGetUserFlags`   the getters.

Every setter leaves the two other fields alone.
-/

namespace PhpMemcached

abbrev Flags := BitVec 32

/-- `MEMC_CREATE_MASK` -/
def memcCreateMask (start nBits : Nat) : Flags := ((1#32 <<< nBits) - 1#32) <<< start

def memcMaskType : Flags := memcCreateMask 0 4
def memcMaskInternal : Flags := memcCreateMask 4 12
def memcMaskUser : Flags := memcCreateMask 16 16

/-! ## value types and compression bits -/

def memcValIsString : Flags := 0
def memcValIsLong : Flags := 1
def memcValIsDouble : Flags := 2
def memcValIsBool : Flags := 3
def memcValIsSerialized : Flags := 4
def memcValIsIgbinary : Flags := 5
def memcValIsJson : Flags := 6
def memcValIsMsgpack : Flags := 7

def memcValCompressed : Flags := 1#32 <<< 0
def memcValCompressionZlib : Flags := 1#32 <<< 1
def memcValCompressionFastlz : Flags := 1#32 <<< 2
def memcValCompressionZstd : Flags := 1#32 <<< 3

/-- `MEMC_VAL_USER_FLAGS_MAX` -/
def memcValUserFlagsMax : Int := 65535

/-! ## getters and setters -/

def memcValGetType (flags : Flags) : Flags := flags &&& memcMaskType
def memcValSetType (flags type : Flags) : Flags := flags ||| (type &&& memcMaskType)
def memcValGetFlags (flags : Flags) : Flags := (flags &&& memcMaskInternal) >>> 4
def memcValSetFlag (flags flag : Flags) : Flags := flags ||| ((flag <<< 4) &&& memcMaskInternal)
def memcValHasFlag (flags flag : Flags) : Bool := (memcValGetFlags flags &&& flag) == flag
def memcValGetUserFlags (flags : Flags) : Flags := (flags &&& memcMaskUser) >>> 16
def memcValSetUserFlags (flags udf : Flags) : Flags := flags ||| ((udf <<< 16) &&& memcMaskUser)

section
variable (flags : Flags)

/-- bits ORed in under a disjoint mask are invisible -/
theorem or_mask_and (x m m' : Flags) (h : m &&& m' = 0) :
    (flags ||| (x &&& m)) &&& m' = flags &&& m' := by
  have hx : m' &&& (x &&& m) = 0 := by
    rw [BitVec.and_comm, BitVec.and_assoc, h]
    exact BitVec.and_zero
  rw [BitVec.and_comm, BitVec.and_or_distrib_left, hx, BitVec.and_comm m' flags]
  exact BitVec.or_zero

@[simp] theorem getType_setFlag (f : Flags) :
    memcValGetType (memcValSetFlag flags f) = memcValGetType flags :=
  or_mask_and flags _ _ _ (by decide)
@[simp] theorem getType_setUserFlags (u : Flags) :
    memcValGetType (memcValSetUserFlags flags u) = memcValGetType flags :=
  or_mask_and flags _ _ _ (by decide)
@[simp] theorem getFlags_setType (t : Flags) :
    memcValGetFlags (memcValSetType flags t) = memcValGetFlags flags := by
  rw [memcValGetFlags, memcValSetType, or_mask_and flags _ memcMaskType memcMaskInternal (by decide),
    memcValGetFlags]
@[simp] theorem getFlags_setUserFlags (u : Flags) :
    memcValGetFlags (memcValSetUserFlags flags u) = memcValGetFlags flags := by
  rw [memcValGetFlags, memcValSetUserFlags, or_mask_and flags _ memcMaskUser memcMaskInternal (by decide),
    memcValGetFlags]
@[simp] theorem getUserFlags_setType (t : Flags) :
    memcValGetUserFlags (memcValSetType flags t) = memcValGetUserFlags flags := by
  rw [memcValGetUserFlags, memcValSetType, or_mask_and flags _ memcMaskType memcMaskUser (by decide),
    memcValGetUserFlags]
@[simp] theorem getUserFlags_setFlag (f : Flags) :
    memcValGetUserFlags (memcValSetFlag flags f) = memcValGetUserFlags flags := by
  rw [memcValGetUserFlags, memcValSetFlag, or_mask_and flags _ memcMaskInternal memcMaskUser (by decide),
    memcValGetUserFlags]

@[simp] theorem hasFlag_setType (t f : Flags) :
    memcValHasFlag (memcValSetType flags t) f = memcValHasFlag flags f := by
  simp [memcValHasFlag]
@[simp] theorem hasFlag_setUserFlags (u f : Flags) :
    memcValHasFlag (memcValSetUserFlags flags u) f = memcValHasFlag flags f := by
  simp [memcValHasFlag]

end

/-- bits ORed in under their own mask, on a word that had none -/
theorem or_mask_and_self {flags : Flags} (x m : Flags) (h : flags &&& m = 0) :
    (flags ||| (x &&& m)) &&& m = x &&& m := by
  rw [BitVec.and_comm, BitVec.and_or_distrib_left, BitVec.and_comm m flags, h,
    BitVec.and_comm m, BitVec.and_assoc, BitVec.and_self]
  exact BitVec.zero_or

/-- the compression bits of a word that had none -/
theorem getFlags_setFlag {flags : Flags} (f : Flags) (h : flags &&& memcMaskInternal = 0) :
    memcValGetFlags (memcValSetFlag flags f) = ((f <<< 4) &&& memcMaskInternal) >>> 4 := by
  rw [memcValGetFlags, memcValSetFlag, or_mask_and_self _ _ h]

/-- a user flags word of 16 bits is read back as it was set -/
theorem getUserFlags_setUserFlags {flags u : Flags} (h : memcValGetUserFlags flags = 0)
    (hu : u.toNat ≤ 65535) : memcValGetUserFlags (memcValSetUserFlags flags u) = u := by
  have h1 : (flags ||| ((u <<< 16) &&& memcMaskUser)) &&& memcMaskUser =
      (flags &&& memcMaskUser) ||| ((u <<< 16) &&& memcMaskUser) := by
    rw [BitVec.and_comm, BitVec.and_or_distrib_left, BitVec.and_comm memcMaskUser flags,
      BitVec.and_comm memcMaskUser, BitVec.and_assoc, BitVec.and_self]
  have h2 : ((u <<< 16) &&& memcMaskUser) >>> 16 = u := by
    apply BitVec.eq_of_getLsbD_eq
    intro i hi
    have hu' : ¬ i < 16 → u.getLsbD i = false := fun h16 => by
      rw [BitVec.getLsbD, Nat.testBit_lt_two_pow]
      exact lt_of_le_of_lt hu (Nat.lt_of_lt_of_le (by decide : 65535 < 2 ^ 16)
        (Nat.pow_le_pow_right (by decide) (by omega)))
    by_cases h16 : i < 16
    · have hm : ∀ j < 16, memcMaskUser.getLsbD (16 + j) = true := by decide
      rw [BitVec.getLsbD_ushiftRight, BitVec.getLsbD_and, hm i h16, BitVec.getLsbD_shiftLeft]
      simp
      omega
    · rw [BitVec.getLsbD_ushiftRight, BitVec.getLsbD_and, hu' h16,
        BitVec.getLsbD_of_ge (u <<< 16) _ (by omega)]
      rfl
  show ((flags ||| ((u <<< 16) &&& memcMaskUser)) &&& memcMaskUser) >>> 16 = u
  rw [h1, BitVec.ushiftRight_or_distrib, h2, show (flags &&& memcMaskUser) >>> 16 = 0 from h]
  exact BitVec.zero_or

end PhpMemcached
