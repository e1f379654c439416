import PhpMemcached.Ops
import PhpMemcached.Lib.Trace

/-!
# Virtual buckets

* `sZvalToUint32Array`      `s_zval_to_uint32_array`;
* `memcachedSetBucket`      `Memcached::setBucket`;
* `Refused`                 the maps that are refused before the request;
* `Fits`                    the numbers of a request keep their value in 32 bits;
* `setBucket_passesOn_iff`  what is passed on is what was given exactly if it is refused or fits.
-/

namespace PhpMemcached
open Ascii Requests

/-- the arguments of `memcached_bucket_set` -/
structure BucketSet where
  hostMap : List UInt32
  forwardMap : Option (List UInt32)
  buckets : UInt32
  replicas : UInt32
  deriving DecidableEq

inductive BucketCall where
  | bucketSet (memc : Memc) (args : BucketSet)

def BucketAns : BucketCall → Type
  | .bucketSet .. => Status

abbrev BucketM := Cmd (Call ⊕ BucketCall) (Sum.elim Ans BucketAns) Abort State

section
variable (zend : Zend)

/-- the loop of `s_zval_to_uint32_array` -/
def uint32Loop : HashTable → MemcM (Option (List UInt32))
  | [] => pure (some [])
  | (_, pzval) :: input => do
    let value := zvalGetLong zend pzval
    if value < 0 then do
      phpWarning "the map must contain positive integers"
      pure none
    else do
      let rest ← uint32Loop input
      pure (rest.map (value.toUInt64.toUInt32 :: ·))

/-- `s_zval_to_uint32_array`, NULL for an empty array -/
def sZvalToUint32Array (input : HashTable) : MemcM (Option (List UInt32)) :=
  if input.length = 0 then pure none else uint32Loop zend input

/-- a map that may be left out: whether the method goes on, and with which one -/
def forwardToUint32Array (forwardMap : Option HashTable) :
    MemcM (Option (Option (List UInt32))) :=
  match forwardMap with
  | none => pure (some none)
  | some input => do
    let forward ← sZvalToUint32Array zend input
    pure (forward.map some)

/-- `memcached_bucket_set`, and the code it leaves -/
def memcachedBucketSet (args : BucketSet) : BucketM Bool := do
  let s ← Cmd.get
  let rc : Status ← Cmd.req (ι := Call ⊕ BucketCall) (Sum.inr (.bucketSet s.memc args))
  Cmd.inl (sMemcStatusHandleResultCode rc)

/-- the two conversions of `setBucket`, and the request -/
def setBucketMaps (serverMap : HashTable) (forwardMap : Option HashTable) (replicas : Int64) :
    BucketM Bool := do
  match ← Cmd.inl (sZvalToUint32Array zend serverMap) with
  | none => pure false
  | some hostMap =>
    match ← Cmd.inl (forwardToUint32Array zend forwardMap) with
    | none => pure false
    | some forwardMap =>
      memcachedBucketSet
        ⟨hostMap, forwardMap, UInt32.ofNat serverMap.length, replicas.toUInt64.toUInt32⟩

/-- a warning, and FALSE -/
def refuseBuckets (text : String) : BucketM Bool := do
  Cmd.inl (phpWarning text)
  pure false

/-- `Memcached::setBucket` -/
def memcachedSetBucket (serverMap : HashTable) (forwardMap : Option HashTable)
    (replicas : Int64) : BucketM Bool :=
  if serverMap.length = 0 then refuseBuckets "server map cannot be empty"
  else if forwardMap.any (·.length ≠ serverMap.length) then
    refuseBuckets "forward_map length must match the server_map length"
  else if replicas < 0 then refuseBuckets "replicas must be larger than zero"
  else setBucketMaps zend serverMap forwardMap replicas

/-! ## what is passed on -/

/-- the requests to libmemcached that set buckets -/
def bucketSets : Entry (Call ⊕ BucketCall) (Sum.elim Ans BucketAns) → Option BucketSet
  | ⟨.inr (.bucketSet _ args), _⟩ => some args
  | ⟨.inl _, _⟩ => none

/-- the integers of an array, in array order -/
def integers (input : HashTable) : List Int64 := input.map fun e => zvalGetLong zend e.2

/-- an array of 32-bit numbers is that of these integers -/
def SameValues (l : List UInt32) (ns : List Int64) : Prop :=
  l.map (fun n => (n.toNat : Int)) = ns.map Int64.toInt

/-- the request has the values, the length and the number of replicas that were given -/
structure BucketSet.Faithful (args : BucketSet) (serverMap : HashTable)
    (forwardMap : Option HashTable) (replicas : Int64) : Prop where
  hosts : SameValues args.hostMap (integers zend serverMap)
  forwards : ∀ a, forwardMap = some a →
    ∃ l, args.forwardMap = some l ∧ SameValues l (integers zend a) ∧
      l.length = args.hostMap.length
  noForwards : forwardMap = none → args.forwardMap = none
  length : args.buckets.toNat = args.hostMap.length
  count : (args.replicas.toNat : Int) = replicas.toInt

/-- FALSE without a request, or one request that is faithful -/
def PassesOn (serverMap : HashTable) (forwardMap : Option HashTable) (replicas : Int64)
    (l : List BucketSet) (o : Outcome Abort State Bool) : Prop :=
  (l = [] ∧ ∃ s, o = .done false s) ∨
    ∃ args : BucketSet, l = [args] ∧ args.Faithful zend serverMap forwardMap replicas

/-- one of the integers is negative -/
def HasNegative (input : HashTable) : Prop := ∃ n ∈ integers zend input, n < 0

/-- refused before the request -/
def Refused (serverMap : HashTable) (forwardMap : Option HashTable) (replicas : Int64) : Prop :=
  serverMap = [] ∨ (∃ a, forwardMap = some a ∧ a.length ≠ serverMap.length) ∨ replicas < 0 ∨
    HasNegative zend serverMap ∨ ∃ a, forwardMap = some a ∧ HasNegative zend a

/-- every number of the request has a place in 32 bits -/
structure Fits (serverMap : HashTable) (forwardMap : Option HashTable) (replicas : Int64) :
    Prop where
  hosts : ∀ n ∈ integers zend serverMap, n.toInt < 2 ^ 32
  forwards : ∀ a, forwardMap = some a → ∀ n ∈ integers zend a, n.toInt < 2 ^ 32
  count : replicas.toInt < 2 ^ 32
  length : serverMap.length < 2 ^ 32

variable {zend} {s : State}

/-- a number that is not negative keeps its value in 32 bits exactly if it fits -/
theorem toNat_toUInt32_eq_iff {n : Int64} (h : 0 ≤ n.toInt) :
    (n.toUInt64.toUInt32.toNat : Int) = n.toInt ↔ n.toInt < 2 ^ 32 := by
  have hbits : n.toInt = n.toBitVec.toInt := rfl
  have hmod : n.toUInt64.toUInt32.toNat = n.toBitVec.toNat % 2 ^ 32 := UInt64.toNat_toUInt32 _
  have hlt := n.toBitVec.isLt
  rw [hbits, BitVec.toInt_eq_toNat_cond] at h ⊢
  rw [hmod]
  split at h <;> split <;> omega

theorem sameValues_map_iff {ns : List Int64} (h : ∀ n ∈ ns, 0 ≤ n.toInt) :
    SameValues (ns.map fun n => n.toUInt64.toUInt32) ns ↔ ∀ n ∈ ns, n.toInt < 2 ^ 32 := by
  unfold SameValues
  rw [List.map_map, List.map_inj_left]
  exact forall₂_congr fun n hn => toNat_toUInt32_eq_iff (h n hn)

/-- **The loop**: nothing for an array with a negative integer, else the integers, cut to 32 bits. -/
theorem traced_uint32Loop {γ : Type} (input : HashTable) (s : State) :
    Cmd.Traced (fun _ => (none : Option γ)) (fun l o => l = [] ∧
      ((HasNegative zend input ∧ ∃ s', o = .done none s') ∨
        (¬ HasNegative zend input ∧ ∃ s',
          o = .done (some ((integers zend input).map fun n => n.toUInt64.toUInt32)) s')))
      (uint32Loop zend input) s := by
  induction input generalizing s with
  | nil => exact ⟨rfl, .inr ⟨fun ⟨n, hn, _⟩ => (by cases hn), s, rfl⟩⟩
  | cons e input ih =>
    obtain ⟨k, pzval⟩ := e
    unfold uint32Loop
    dsimp only
    split
    · rename_i hneg
      exact fun _ => ⟨rfl, .inl ⟨⟨_, List.mem_cons_self, hneg⟩, _, rfl⟩⟩
    · rename_i hpos
      have hcons : HasNegative zend ((k, pzval) :: input) ↔ HasNegative zend input := by
        constructor
        · rintro ⟨n, hn, hlt⟩
          rcases List.mem_cons.mp hn with rfl | hn
          · exact absurd hlt hpos
          · exact ⟨n, hn, hlt⟩
        · rintro ⟨n, hn, hlt⟩
          exact ⟨n, List.mem_cons_of_mem _ hn, hlt⟩
      refine Cmd.Traced.bind ((ih s).mono ?_)
      rintro l o ⟨rfl, ⟨hneg, s', rfl⟩ | ⟨hnone, s', rfl⟩⟩
      · exact ⟨_, _, rfl, rfl, .inl ⟨hcons.mpr hneg, s', rfl⟩⟩
      · exact ⟨_, _, rfl, rfl, .inr ⟨hcons.not.mpr hnone, s', rfl⟩⟩

theorem hasNegative_nil : ¬ HasNegative zend [] := fun ⟨_, hn, _⟩ => by cases hn

/-- an array that is not empty: cut to 32 bits, or refused -/
theorem traced_sZvalToUint32Array {γ : Type} {input : HashTable} (hne : input ≠ []) (s : State) :
    Cmd.Traced (fun _ => (none : Option γ)) (fun l o => l = [] ∧
      ((HasNegative zend input ∧ ∃ s', o = .done none s') ∨
        (¬ HasNegative zend input ∧ ∃ s',
          o = .done (some ((integers zend input).map fun n => n.toUInt64.toUInt32)) s')))
      (sZvalToUint32Array zend input) s := by
  have hlen : input.length ≠ 0 := fun h => hne (List.length_eq_zero_iff.mp h)
  unfold sZvalToUint32Array
  rw [if_neg hlen]
  exact traced_uint32Loop input s

/-- the same for a map that may be left out -/
theorem traced_forwardToUint32Array {γ : Type} {forwardMap : Option HashTable}
    (hne : ∀ a, forwardMap = some a → a ≠ []) (s : State) :
    Cmd.Traced (fun _ => (none : Option γ)) (fun l o => l = [] ∧
      (((∃ a, forwardMap = some a ∧ HasNegative zend a) ∧ ∃ s', o = .done none s') ∨
        ((∀ a, forwardMap = some a → ¬ HasNegative zend a) ∧ ∃ s', o = .done (some
          (forwardMap.map fun a => (integers zend a).map fun n => n.toUInt64.toUInt32)) s')))
      (forwardToUint32Array zend forwardMap) s := by
  cases forwardMap with
  | none => exact ⟨rfl, .inr ⟨(fun _ h => by cases h), s, rfl⟩⟩
  | some input =>
    refine Cmd.Traced.bind ((traced_sZvalToUint32Array (hne input rfl) s).mono ?_)
    rintro l o ⟨rfl, ⟨hneg, s', rfl⟩ | ⟨hnone, s', rfl⟩⟩
    · exact ⟨_, _, rfl, rfl, .inl ⟨⟨input, rfl, hneg⟩, s', rfl⟩⟩
    · exact ⟨_, _, rfl, rfl, .inr ⟨(fun a h => by cases h; exact hnone), s', rfl⟩⟩

/-- the arguments `setBucket` passes on if it passes on any -/
def cutTo32Bits (zend : Zend) (serverMap : HashTable) (forwardMap : Option HashTable)
    (replicas : Int64) : BucketSet where
  hostMap := (integers zend serverMap).map fun n => n.toUInt64.toUInt32
  forwardMap := forwardMap.map fun a => (integers zend a).map fun n => n.toUInt64.toUInt32
  buckets := UInt32.ofNat serverMap.length
  replicas := replicas.toUInt64.toUInt32

theorem traced_memcachedBucketSet (args : BucketSet) (s : State) :
    Cmd.Traced bucketSets (fun l _ => l = [args]) (memcachedBucketSet args) s := by
  intro rc
  refine Cmd.Traced.inl ((Cmd.traced_unseen (sMemcStatusHandleResultCode rc) s).mono ?_)
  rintro l o rfl
  rfl

/-- a refusal leaves a text and FALSE -/
theorem traced_refuseBuckets (text : String) (s : State) :
    Cmd.Traced bucketSets (fun l o => l = [] ∧ ∃ s', o = .done false s') (refuseBuckets text) s :=
  fun _ => ⟨rfl, _, rfl⟩

/-- a method that is refused, or makes one request with the numbers cut to 32 bits -/
def RefusesOrCuts (zend : Zend) (serverMap : HashTable) (forwardMap : Option HashTable)
    (replicas : Int64) (l : List BucketSet) (o : Outcome Abort State Bool) : Prop :=
  (Refused zend serverMap forwardMap replicas ∧ l = [] ∧ ∃ s', o = .done false s') ∨
    (¬ Refused zend serverMap forwardMap replicas ∧
      l = [cutTo32Bits zend serverMap forwardMap replicas])

theorem traced_setBucketMaps {serverMap : HashTable} {forwardMap : Option HashTable}
    {replicas : Int64} (hne : serverMap ≠ [])
    (hlen : ∀ a, forwardMap = some a → a.length = serverMap.length) (hpos : ¬ replicas < 0)
    (s : State) :
    Cmd.Traced bucketSets (RefusesOrCuts zend serverMap forwardMap replicas)
      (setBucketMaps zend serverMap forwardMap replicas) s := by
  have hneForward (a : HashTable) (ha : forwardMap = some a) : a ≠ [] := by
    rintro rfl
    exact hne (List.length_eq_zero_iff.mp (hlen _ ha).symm)
  refine Cmd.Traced.bind ?_
  refine Cmd.Traced.inl ?_
  refine (traced_sZvalToUint32Array hne s).mono ?_
  rintro l o ⟨rfl, ⟨hneg, s₁, rfl⟩ | ⟨hnone, s₁, rfl⟩⟩
  · exact ⟨_, _, rfl, Or.inl ⟨.inr (.inr (.inr (.inl hneg))), rfl, _, rfl⟩⟩
  · refine ⟨_, _, rfl, ?_⟩
    refine Cmd.Traced.bind ?_
    refine Cmd.Traced.inl ?_
    refine (traced_forwardToUint32Array hneForward s₁).mono ?_
    rintro l o ⟨rfl, ⟨hneg, s₂, rfl⟩ | ⟨hnoneForward, s₂, rfl⟩⟩
    · exact ⟨_, _, rfl, Or.inl ⟨.inr (.inr (.inr (.inr hneg))), rfl, _, rfl⟩⟩
    · refine ⟨_, _, rfl, (traced_memcachedBucketSet _ s₂).mono fun l o hl => .inr ⟨?_, hl⟩⟩
      rintro (hnil | ⟨a, ha, hdiff⟩ | hlt | hneg | ⟨a, ha, hneg⟩)
      · exact hne hnil
      · exact hdiff (hlen a ha)
      · exact hpos hlt
      · exact hnone hneg
      · exact hnoneForward a ha hneg

/-- **`setBucket` returns FALSE without a request, or passes on what was given, cut to 32 bits.** -/
theorem traced_memcachedSetBucket (serverMap : HashTable) (forwardMap : Option HashTable)
    (replicas : Int64) (s : State) :
    Cmd.Traced bucketSets (RefusesOrCuts zend serverMap forwardMap replicas)
      (memcachedSetBucket zend serverMap forwardMap replicas) s := by
  have hrefuse (why : Refused zend serverMap forwardMap replicas) (text : String) :
      Cmd.Traced bucketSets (RefusesOrCuts zend serverMap forwardMap replicas)
        (refuseBuckets text) s :=
    (traced_refuseBuckets text s).mono fun l o h => .inl ⟨why, h⟩
  unfold memcachedSetBucket
  split
  · rename_i hzero
    exact hrefuse (.inl (List.length_eq_zero_iff.mp hzero)) _
  · rename_i hne
    split
    · rename_i hany
      cases forwardMap with
      | none => cases hany
      | some a => exact hrefuse (.inr (.inl ⟨a, rfl, of_decide_eq_true hany⟩)) _
    · rename_i hsame
      split
      · rename_i hneg
        exact hrefuse (.inr (.inr (.inl hneg))) _
      · rename_i hpos
        refine traced_setBucketMaps (fun h => hne (List.length_eq_zero_iff.mpr h)) ?_ hpos s
        rintro a rfl
        by_contra hdiff
        exact hsame (decide_eq_true hdiff)

/-! ## what was given -/

/-- what is cut to 32 bits is what was given exactly if it fits -/
theorem faithful_cutTo32Bits_iff {serverMap : HashTable} {forwardMap : Option HashTable}
    {replicas : Int64} (h : ¬ Refused zend serverMap forwardMap replicas) :
    (cutTo32Bits zend serverMap forwardMap replicas).Faithful zend serverMap forwardMap replicas ↔
      Fits zend serverMap forwardMap replicas := by
  have hnonneg {a : HashTable} (ha : ¬ HasNegative zend a) (n : Int64)
      (hn : n ∈ integers zend a) : 0 ≤ n.toInt := by
    by_contra hneg
    exact ha ⟨n, hn, Int64.lt_iff_toInt_lt.mpr (Int.not_le.mp hneg)⟩
  unfold Refused at h
  push Not at h
  obtain ⟨-, hlen, hreplicas, hhosts, hforwards⟩ := h
  have hcount : 0 ≤ replicas.toInt := Int64.le_iff_toInt_le.mp (Int64.not_lt.mp hreplicas)
  have hlength : ((integers zend serverMap).map fun n => n.toUInt64.toUInt32).length =
      serverMap.length := by
    rw [List.length_map, integers, List.length_map]
  constructor
  · intro hf
    refine ⟨(sameValues_map_iff (hnonneg hhosts)).mp hf.hosts, ?_,
      (toNat_toUInt32_eq_iff hcount).mp hf.count, ?_⟩
    · rintro a rfl
      obtain ⟨l, hl, hsame, -⟩ := hf.forwards a rfl
      cases hl
      exact (sameValues_map_iff (hnonneg (hforwards a rfl))).mp hsame
    · have hbuckets : (UInt32.ofNat serverMap.length).toNat = _ := hf.length
      have hlt := (UInt32.ofNat serverMap.length).toNat_lt
      rw [hbuckets] at hlt
      exact hlength ▸ hlt
  · intro hfits
    refine ⟨(sameValues_map_iff (hnonneg hhosts)).mpr hfits.hosts, ?_, ?_, ?_,
      (toNat_toUInt32_eq_iff hcount).mpr hfits.count⟩
    · rintro a rfl
      refine ⟨_, rfl, (sameValues_map_iff (hnonneg (hforwards a rfl))).mpr (hfits.forwards a rfl), ?_⟩
      show ((integers zend a).map fun n => n.toUInt64.toUInt32).length = _
      rw [List.length_map, integers, List.length_map, hlen a rfl]
      exact hlength.symm
    · rintro rfl
      rfl
    · show (UInt32.ofNat serverMap.length).toNat = _
      rw [UInt32.toNat_ofNat_of_lt' hfits.length]
      exact hlength.symm

/-- **`setBucket` passes on what it was given, or refuses it, exactly if it refuses it or every number
fits in 32 bits.** -/
theorem setBucket_passesOn_iff (zend : Zend) (serverMap : HashTable)
    (forwardMap : Option HashTable) (replicas : Int64) (s : State) {σ : Type}
    (h : Handler (Call ⊕ BucketCall) (Sum.elim Ans BucketAns) σ) (w : σ) :
    PassesOn zend serverMap forwardMap replicas
        ((Cmd.log h (memcachedSetBucket zend serverMap forwardMap replicas) s w).filterMap
          bucketSets)
        (Cmd.exec h (memcachedSetBucket zend serverMap forwardMap replicas) s w).1 ↔
      Refused zend serverMap forwardMap replicas ∨ Fits zend serverMap forwardMap replicas := by
  rcases (traced_memcachedSetBucket serverMap forwardMap replicas s).run h w with
    ⟨hrefused, hl, ho⟩ | ⟨hgoes, hl⟩
  · exact iff_of_true (.inl ⟨hl, ho⟩) (.inl hrefused)
  · rw [or_iff_right hgoes, ← faithful_cutTo32Bits_iff hgoes]
    constructor
    · rintro (⟨hnil, -⟩ | ⟨args, hargs, hfaithful⟩)
      · rw [hl] at hnil
        cases hnil
      · rw [hl] at hargs
        cases hargs
        exact hfaithful
    · exact fun hfaithful => .inr ⟨_, hl, hfaithful⟩

end

/-! ## a bucket number that is replaced -/

/-- a libmemcached that takes the buckets -/
def takesBuckets : Handler (Call ⊕ BucketCall) (Sum.elim Ans BucketAns) Unit
  | .inl c, w => noServers c w
  | .inr (.bucketSet ..), w => (.success, w)

/-- the map `[4294967296]` -/
def hugeMap : HashTable := [(.int 0, .long 4294967296)]

/-- bucket 4294967296 becomes bucket 0, and the method returns TRUE -/
theorem huge_bucket_replaced :
    (Cmd.log takesBuckets (memcachedSetBucket plainZend hugeMap none 0) (newObject iniDefaults 1)
      ()).filterMap bucketSets = [⟨[0], none, 1, 0⟩] ∧
    ¬ PassesOn plainZend hugeMap none 0
      ((Cmd.log takesBuckets (memcachedSetBucket plainZend hugeMap none 0)
        (newObject iniDefaults 1) ()).filterMap bucketSets)
      (Cmd.exec takesBuckets (memcachedSetBucket plainZend hugeMap none 0)
        (newObject iniDefaults 1) ()).1 := by
  have hlog : (Cmd.log takesBuckets (memcachedSetBucket plainZend hugeMap none 0)
      (newObject iniDefaults 1) ()).filterMap bucketSets = [⟨[0], none, 1, 0⟩] := rfl
  refine ⟨hlog, ?_⟩
  rw [hlog]
  rintro (⟨hnil, -⟩ | ⟨args, hargs, hfaithful⟩)
  · cases hnil
  · cases hargs
    have hhosts := hfaithful.hosts
    revert hhosts
    unfold SameValues
    decide

end PhpMemcached
