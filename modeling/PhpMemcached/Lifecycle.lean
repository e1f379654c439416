import PhpMemcached.Client
import PhpMemcached.Lib.Ledger
import PhpMemcached.Lib.Steps
import Mathlib.Data.List.AList

/-!
# The handles behind the objects

* `Heap`             the handles, the objects that refer to them, the persistent list, and the
                     constructor calls that wait for their `on_new` callback;
* `Heap.next`        what an action makes of it: a constructor call up to its callback, the end of
                     the callback, the release of an object, the end of the persistent list;
* `Careful`          the actions that leave no reference to a freed handle behind;
* `Heap.Ok`          the invariant of such runs.

The persistent list is asked before the callback is run and filled after it, so a callback may have
registered another handle under the same id.
-/

namespace PhpMemcached
open Ascii Requests Handles

/-- `php_memc_object_t`, as far as its handle is concerned -/
structure Object where
  memc : Option Handle
  isPristine : Bool

/-- an entry of the persistent list: of type `le_memc`, or of another -/
inductive Resource where
  | memc (ptr : Option Handle)
  | other

/-- a constructor call that waits for its callback; `made` is the handle whose user data it has -/
structure Frame where
  object : Nat
  plistKey : Option Bytes
  made : Handle

structure Heap where
  ledger : Ledger
  /-- the user data of a handle -/
  userData : Handle → UserData
  objects : Nat → Option Object
  persistentList : AList fun _ : Bytes => Resource
  frames : List Frame

/-- the arguments of a constructor call, and what it meets -/
structure Construct where
  persistentId : Option Bytes
  hasCallback : Bool
  ini : Ini
  /-- `memcached()` gave a handle -/
  allocated : Bool
  /-- what fresh memory holds -/
  uninit : Nat → UInt8

/-- `plist_key`: of an id with a NUL byte `snprintf` writes the part in front of it -/
def plistKey (persistentId : Bytes) (uninit : Nat → UInt8) : Bytes :=
  let name := ascii "memcached:id=".toList
  let text := name ++ persistentId.takeWhile (· ≠ 0) ++ [0]
  (text ++ (List.range persistentId.length).map uninit).take (name.length + persistentId.length)

/-- the key of a call: none for a handle that is not persistent -/
def Construct.key (c : Construct) : Option Bytes :=
  match c.persistentId with
  | some id => if id = [] then none else some (plistKey id c.uninit)
  | none => none

namespace Heap

def set (heap : Heap) (o : Nat) (object : Option Object) : Heap :=
  { heap with objects := Function.update heap.objects o object }

/-- `php_memc_destroy`; `memcached_free` takes NULL -/
def destroy (heap : Heap) : Option Handle → Heap
  | some h => { heap with ledger := heap.ledger.free h }
  | none => heap

/-- `php_memc_dtor` -/
def dtor (heap : Heap) : Resource → Heap
  | .memc ptr => heap.destroy ptr
  | .other => heap

/-- `intern->memc` -/
def memc (heap : Heap) (o : Nat) : Option Handle := (heap.objects o).bind (·.memc)

/-- the end of the constructor: an entry that is replaced is destroyed -/
def register (heap : Heap) (o : Nat) : Option Bytes → Heap
  | none => heap
  | some key =>
    let heap' := { heap with
      persistentList := heap.persistentList.insert key (.memc (heap.memc o)) }
    match heap.persistentList.lookup key with
    | some entry => heap'.dtor entry
    | none => heap'

/-- the part of the constructor that makes a handle -/
def create (heap : Heap) (o : Nat) (c : Construct) : Heap :=
  if c.allocated then
    let h := heap.ledger.next
    let heap' := { heap with
      ledger := heap.ledger.make
      userData := Function.update heap.userData h (newUserData c.ini c.key.isSome)
      objects := Function.update heap.objects o (some ⟨some h, true⟩) }
    if c.hasCallback then { heap' with frames := ⟨o, c.key, h⟩ :: heap.frames }
    else heap'.register o c.key
  else
    -- a fatal error, which ends the request
    { heap.set o (some ⟨none, true⟩) with frames := [] }

/-- `Memcached::__construct`, up to its callback -/
def construct (heap : Heap) (o : Nat) (c : Construct) : Heap :=
  match c.key.bind heap.persistentList.lookup with
  | some (.memc ptr) => heap.set o (some ⟨ptr, false⟩)
  | _ => heap.create o c

/-- the rest of the constructor, after a callback that returned or failed -/
def afterCallback (heap : Heap) (f : Frame) (ok : Bool) : Heap :=
  if ok then heap.register f.object f.plistKey
  else (heap.destroy (heap.memc f.object)).set f.object
    ((heap.objects f.object).map fun object => { object with memc := none })

/-- `php_memc_object_free_storage` -/
def freeStorage (heap : Heap) (o : Nat) : Heap :=
  match heap.memc o with
  | some h =>
    if (heap.userData h).isPersistent then heap.set o none else (heap.destroy (some h)).set o none
  | none => heap.set o none

/-- the end of the persistent list -/
def destroyList (heap : Heap) : Heap :=
  heap.persistentList.entries.foldl (fun heap e => heap.dtor e.2)
    { heap with persistentList := ∅ }

end Heap

inductive Action where
  | new (o : Nat)
  | construct (o : Nat) (c : Construct)
  /-- the innermost callback ends: it returned, or failed or threw -/
  | callback (ok : Bool)
  | release (o : Nat)
  | destroyList
  /-- a fatal error or `exit` -/
  | bailout

/-- an action, where it can happen: an object is released when nothing refers to it, so not while
its constructor runs -/
def Heap.next (heap : Heap) : Action → Option Heap
  | .new o =>
    match heap.objects o with
    | none => some (heap.set o (some ⟨none, false⟩))
    | some _ => none
  | .construct o c =>
    match heap.objects o with
    | some _ => some (heap.construct o c)
    | none => none
  | .callback ok =>
    match heap.frames with
    | f :: frames => some ({ heap with frames := frames }.afterCallback f ok)
    | [] => none
  | .release o =>
    match heap.objects o with
    | some _ => if o ∈ heap.frames.map Frame.object then none else some (heap.freeStorage o)
    | none => none
  | .destroyList => some heap.destroyList
  | .bailout => some { heap with frames := [] }

/-! ## the invariant -/

namespace Heap
variable {heap : Heap} {h : Handle} {o : Nat} {key : Bytes} {f : Frame} {frames : List Frame}

/-- the object `o` is there and refers to `h` -/
def Refers (heap : Heap) (o : Nat) (h : Handle) : Prop := heap.memc o = some h

/-- the persistent list has `h` under `key` -/
def Lists (heap : Heap) (key : Bytes) (h : Handle) : Prop :=
  heap.persistentList.lookup key = some (.memc (some h))

/-- a handle of the constructor calls that wait -/
def Waits (heap : Heap) (h : Handle) : Prop := ∃ f ∈ heap.frames, f.made = h

structure Ok (heap : Heap) : Prop where
  sound : heap.ledger.Sound
  referred : ∀ o h, heap.Refers o h → heap.ledger.Alive h
  listed : ∀ key h, heap.Lists key h → heap.ledger.Alive h ∧ (heap.userData h).isPersistent = true
  distinct : ∀ key key' h, heap.Lists key h → heap.Lists key' h → key = key'
  /-- a handle that is not persistent has one object -/
  owned : ∀ o o' h, heap.Refers o h → heap.Refers o' h → o ≠ o' →
    (heap.userData h).isPersistent = true
  waiting : ∀ f ∈ heap.frames, heap.ledger.Alive f.made ∧
    (∀ o, heap.Refers o f.made → o = f.object) ∧
    (f.plistKey.isSome = true → (heap.userData f.made).isPersistent = true)
  unlisted : ∀ key h, heap.Lists key h → ¬ heap.Waits h
  waitingNodup : (heap.frames.map Frame.made).Nodup

theorem refers_set (o' : Nat) (object : Option Object) :
    (heap.set o object).Refers o' h ↔
      (o' = o ∧ object.bind (·.memc) = some h) ∨ (o' ≠ o ∧ heap.Refers o' h) := by
  show (Function.update heap.objects o object o').bind (·.memc) = some h ↔ _
  by_cases ho : o' = o
  · subst ho
    rw [Function.update_self]
    simp only [true_and, ne_eq, not_true_eq_false, false_and, or_false]
  · rw [Function.update_of_ne ho]
    simp only [ho, false_and, ne_eq, not_false_eq_true, true_and, false_or]
    exact Iff.rfl

/-- an object may be given a handle that is alive, if it is persistent or the object's own -/
theorem Ok.set (hok : heap.Ok) (o : Nat) (object : Option Object)
    (hnew : ∀ h, object.bind (·.memc) = some h → heap.ledger.Alive h ∧
      ((heap.userData h).isPersistent = true ∨ ∀ o', heap.Refers o' h → o' = o) ∧
      ∀ f ∈ heap.frames, f.made = h → o = f.object) : (heap.set o object).Ok where
  sound := hok.sound
  referred o' h hr := by
    rcases (refers_set _ _).mp hr with ⟨-, hm⟩ | ⟨-, hr'⟩
    · exact (hnew h hm).1
    · exact hok.referred o' h hr'
  listed := hok.listed
  distinct := hok.distinct
  owned o₁ o₂ h h₁ h₂ hne := by
    rcases (refers_set _ _).mp h₁ with ⟨rfl, hm⟩ | ⟨hne₁, h₁'⟩
    · rcases (hnew h hm).2.1 with hp | hown
      · exact hp
      · rcases (refers_set _ _).mp h₂ with ⟨rfl, -⟩ | ⟨hne₂, h₂'⟩
        · exact absurd rfl hne
        · exact absurd (hown o₂ h₂') hne₂
    · rcases (refers_set _ _).mp h₂ with ⟨rfl, hm⟩ | ⟨-, h₂'⟩
      · rcases (hnew h hm).2.1 with hp | hown
        · exact hp
        · exact absurd (hown o₁ h₁') hne₁
      · exact hok.owned o₁ o₂ h h₁' h₂' hne
  waiting f hf := by
    obtain ⟨halive, hrefers, hkey⟩ := hok.waiting f hf
    refine ⟨halive, fun o' hr => ?_, hkey⟩
    rcases (refers_set _ _).mp hr with ⟨rfl, hm⟩ | ⟨-, hr'⟩
    · exact (hnew _ hm).2.2 f hf rfl
    · exact hrefers o' hr'
  unlisted := hok.unlisted
  waitingNodup := hok.waitingNodup

/-- an object that refers to nothing, or is gone -/
theorem Ok.clear (hok : heap.Ok) {object : Option Object}
    (hnone : object.bind (·.memc) = none) : (heap.set o object).Ok := by
  refine hok.set o object fun h hm => ?_
  rw [hnone] at hm
  cases hm

/-- a handle that nothing refers to is freed -/
theorem Ok.destroy (hok : heap.Ok) {ptr : Option Handle}
    (hfree : ∀ h, ptr = some h → heap.ledger.Alive h ∧ (∀ o, ¬ heap.Refers o h) ∧
      (∀ key, ¬ heap.Lists key h) ∧ ¬ heap.Waits h) : (heap.destroy ptr).Ok := by
  cases ptr with
  | none => exact hok
  | some h =>
    obtain ⟨halive, hrefers, hlists, hwaits⟩ := hfree h rfl
    exact {
      sound := hok.sound.free halive
      referred := fun o' h' hr =>
        (hok.referred o' h' hr).free fun he => hrefers o' (he ▸ hr)
      listed := fun key h' hl =>
        ⟨(hok.listed key h' hl).1.free fun he => hlists key (he ▸ hl), (hok.listed key h' hl).2⟩
      distinct := hok.distinct
      owned := hok.owned
      waiting := fun f hf =>
        ⟨(hok.waiting f hf).1.free fun he => hwaits ⟨f, hf, he⟩, (hok.waiting f hf).2⟩
      unlisted := hok.unlisted
      waitingNodup := hok.waitingNodup }

/-- the innermost call no longer waits -/
theorem Ok.pop (hok : heap.Ok) (hframes : heap.frames = f :: frames) :
    ({ heap with frames := frames } : Heap).Ok where
  sound := hok.sound
  referred := hok.referred
  listed := hok.listed
  distinct := hok.distinct
  owned := hok.owned
  waiting f' hf' := hok.waiting f' (hframes ▸ List.mem_cons_of_mem f hf')
  unlisted key h hl hw := by
    obtain ⟨f', hf', hm⟩ := hw
    exact hok.unlisted key h hl ⟨f', hframes ▸ List.mem_cons_of_mem f hf', hm⟩
  waitingNodup := by
    have hnodup := hok.waitingNodup
    rw [hframes] at hnodup
    exact (List.nodup_cons.mp hnodup).2

/-- no call waits any more -/
theorem Ok.bailout (hok : heap.Ok) : ({ heap with frames := [] } : Heap).Ok where
  sound := hok.sound
  referred := hok.referred
  listed := hok.listed
  distinct := hok.distinct
  owned := hok.owned
  waiting f hf := absurd hf List.not_mem_nil
  unlisted key h hl hw := by
    obtain ⟨f, hf, -⟩ := hw
    exact List.not_mem_nil hf
  waitingNodup := List.nodup_nil

/-! ## the constructor -/

/-- a call with a handle that nobody else knows begins to wait -/
theorem Ok.push (hok : heap.Ok) (halive : heap.ledger.Alive f.made)
    (hrefers : ∀ o, heap.Refers o f.made → o = f.object)
    (hkey : f.plistKey.isSome = true → (heap.userData f.made).isPersistent = true)
    (hlists : ∀ key, ¬ heap.Lists key f.made) (hwaits : ¬ heap.Waits f.made) :
    ({ heap with frames := f :: heap.frames } : Heap).Ok where
  sound := hok.sound
  referred := hok.referred
  listed := hok.listed
  distinct := hok.distinct
  owned := hok.owned
  waiting f' hf' := by
    rcases List.mem_cons.mp hf' with rfl | hf''
    · exact ⟨halive, hrefers, hkey⟩
    · exact hok.waiting f' hf''
  unlisted key h hl hw := by
    obtain ⟨f', hf', rfl⟩ := hw
    rcases List.mem_cons.mp hf' with rfl | hf''
    · exact hlists key hl
    · exact hok.unlisted key _ hl ⟨f', hf'', rfl⟩
  waitingNodup := by
    refine List.nodup_cons.mpr ⟨fun hm => ?_, hok.waitingNodup⟩
    obtain ⟨f', hf', he⟩ := List.mem_map.mp hm
    exact hwaits ⟨f', hf', he⟩

/-- a new handle, which nothing refers to yet -/
theorem Ok.make (hok : heap.Ok) (ud : UserData) :
    ({ heap with
      ledger := heap.ledger.make
      userData := Function.update heap.userData heap.ledger.next ud } : Heap).Ok := by
  have hold : ∀ h, heap.ledger.Alive h →
      Function.update heap.userData heap.ledger.next ud h = heap.userData h :=
    fun h ha => Function.update_of_ne ha.ne_next _ _
  exact {
    sound := hok.sound.make
    referred := fun o h hr => (hok.referred o h hr).make
    listed := fun key h hl => by
      obtain ⟨halive, hp⟩ := hok.listed key h hl
      exact ⟨halive.make, (congrArg UserData.isPersistent (hold h halive)).trans hp⟩
    distinct := hok.distinct
    owned := fun o o' h hr hr' hne =>
      (congrArg UserData.isPersistent (hold h (hok.referred o h hr))).trans
        (hok.owned o o' h hr hr' hne)
    waiting := fun f hf => by
      obtain ⟨halive, hrefers, hkey⟩ := hok.waiting f hf
      exact ⟨halive.make, hrefers, fun hs =>
        (congrArg UserData.isPersistent (hold _ halive)).trans (hkey hs)⟩
    unlisted := hok.unlisted
    waitingNodup := hok.waitingNodup }

theorem lists_insert (ptr : Option Handle) (key' : Bytes) :
    ({ heap with persistentList := heap.persistentList.insert key (.memc ptr) } : Heap).Lists key' h ↔
      (key' = key ∧ ptr = some h) ∨ (key' ≠ key ∧ heap.Lists key' h) := by
  show (heap.persistentList.insert key (.memc ptr)).lookup key' = _ ↔ _
  by_cases hk : key' = key
  · subst hk
    rw [AList.lookup_insert]
    simp only [Option.some.injEq, Resource.memc.injEq, true_and, ne_eq, not_true_eq_false, false_and,
      or_false]
  · rw [AList.lookup_insert_ne hk]
    simp only [hk, false_and, ne_eq, not_false_eq_true, true_and, false_or]
    exact Iff.rfl

/-- a persistent handle that is not in the list is put there -/
theorem Ok.insert (hok : heap.Ok) (key : Bytes) {ptr : Option Handle}
    (hptr : ∀ h, ptr = some h → heap.ledger.Alive h ∧ (heap.userData h).isPersistent = true ∧
      (∀ key, ¬ heap.Lists key h) ∧ ¬ heap.Waits h) :
    ({ heap with persistentList := heap.persistentList.insert key (.memc ptr) } : Heap).Ok where
  sound := hok.sound
  referred := hok.referred
  listed key' h hl := by
    rcases (lists_insert _ _).mp hl with ⟨-, hp⟩ | ⟨-, hl'⟩
    · exact ⟨(hptr h hp).1, (hptr h hp).2.1⟩
    · exact hok.listed key' h hl'
  distinct key₁ key₂ h h₁ h₂ := by
    rcases (lists_insert _ _).mp h₁ with ⟨rfl, hp⟩ | ⟨-, h₁'⟩
    · rcases (lists_insert _ _).mp h₂ with ⟨rfl, -⟩ | ⟨-, h₂'⟩
      · rfl
      · exact absurd h₂' ((hptr h hp).2.2.1 key₂)
    · rcases (lists_insert _ _).mp h₂ with ⟨rfl, hp⟩ | ⟨-, h₂'⟩
      · exact absurd h₁' ((hptr h hp).2.2.1 key₁)
      · exact hok.distinct key₁ key₂ h h₁' h₂'
  owned := hok.owned
  waiting := hok.waiting
  unlisted key' h hl := by
    rcases (lists_insert _ _).mp hl with ⟨-, hp⟩ | ⟨-, hl'⟩
    · exact (hptr h hp).2.2.2
    · exact hok.unlisted key' h hl'
  waitingNodup := hok.waitingNodup

/-- the end of the constructor: the handle is registered, and no object refers to the one it
replaces -/
theorem Ok.register (hok : heap.Ok) {plistKey : Option Bytes}
    (hmemc : ∀ h, heap.Refers o h → plistKey.isSome = true →
      heap.ledger.Alive h ∧ (heap.userData h).isPersistent = true ∧
      (∀ key, ¬ heap.Lists key h) ∧ ¬ heap.Waits h)
    (hold : ∀ key ∈ plistKey, ∀ h, heap.Lists key h → ∀ o, ¬ heap.Refers o h) :
    (heap.register o plistKey).Ok := by
  cases plistKey with
  | none => exact hok
  | some key =>
    have hinsert := hok.insert key fun h hp => hmemc h hp rfl
    unfold Heap.register
    dsimp only
    cases hentry : heap.persistentList.lookup key with
    | none => exact hinsert
    | some entry =>
      cases entry with
      | other => exact hinsert
      | memc ptr =>
        refine hinsert.destroy fun h hptr => ?_
        subst hptr
        have hlist : heap.Lists key h := hentry
        refine ⟨(hok.listed key h hlist).1, hold key rfl h hlist, fun key' hl => ?_,
          hok.unlisted key h hlist⟩
        rcases (lists_insert _ _).mp hl with ⟨-, hp⟩ | ⟨hne, hl'⟩
        · exact (hmemc h hp rfl).2.2.1 key hlist
        · exact hne (hok.distinct key' key h hl' hlist)

theorem Ok.create (hok : heap.Ok) (c : Construct)
    (hnew : ∀ key ∈ c.key, ∀ h, ¬ heap.Lists key h) : (heap.create o c).Ok := by
  unfold Heap.create
  cases c.allocated with
  | false => exact (hok.clear rfl).bailout
  | true =>
    -- the new handle is referred to by the object alone
    have hfresh : ∀ h, h = heap.ledger.next → (∀ o, ¬ heap.Refers o h) ∧
        (∀ key, ¬ heap.Lists key h) ∧ ¬ heap.Waits h := by
      rintro h rfl
      refine ⟨fun o hr => (hok.referred o _ hr).ne_next rfl,
        fun key hl => (hok.listed key _ hl).1.ne_next rfl, fun hw => ?_⟩
      obtain ⟨f, hf, hm⟩ := hw
      exact (hok.waiting f hf).1.ne_next hm
    obtain ⟨hrefers, hlists, hwaits⟩ := hfresh _ rfl
    have hud : Function.update heap.userData heap.ledger.next (newUserData c.ini c.key.isSome)
        heap.ledger.next = newUserData c.ini c.key.isSome := Function.update_self ..
    have hset := (hok.make (newUserData c.ini c.key.isSome)).set o
      (some ⟨some heap.ledger.next, true⟩) fun h hm => by
        cases hm
        exact ⟨hok.sound.alive_next, .inr fun o' hr => absurd hr (hrefers o'),
          fun f hf hm => absurd ⟨f, hf, hm⟩ hwaits⟩
    have hpers : c.key.isSome = true → (Function.update heap.userData heap.ledger.next
        (newUserData c.ini c.key.isSome) heap.ledger.next).isPersistent = true := by
      intro hs
      rw [hud]
      exact hs
    dsimp only
    rw [if_pos rfl]
    cases c.hasCallback with
    | true =>
      refine hset.push hok.sound.alive_next (fun o' hr => ?_) hpers hlists hwaits
      rcases (refers_set _ _).mp hr with ⟨ho, -⟩ | ⟨-, hr'⟩
      · exact ho
      · exact absurd hr' (hrefers o')
    | false =>
      refine hset.register (fun h hr hs => ?_) fun key hkey h hl => absurd hl (hnew key hkey h)
      rcases (refers_set _ _).mp hr with ⟨-, hm⟩ | ⟨hne, -⟩
      · cases hm
        exact ⟨hok.sound.alive_next, hpers hs, hlists, hwaits⟩
      · exact absurd rfl hne

theorem Ok.construct (hok : heap.Ok) (c : Construct) : (heap.construct o c).Ok := by
  unfold Heap.construct
  cases hentry : c.key.bind heap.persistentList.lookup with
  | none =>
    refine hok.create c fun key hkey h hl => ?_
    rw [Option.mem_def.mp hkey, Option.bind_some] at hentry
    exact absurd (hl.symm.trans hentry) (Option.some_ne_none _)
  | some entry =>
    obtain ⟨key, hkey, hlookup⟩ := Option.bind_eq_some_iff.mp hentry
    cases entry with
    | other =>
      refine hok.create c fun key' hkey' h hl => ?_
      cases hkey.symm.trans hkey'
      cases hl.symm.trans hlookup
    | memc ptr =>
      refine hok.set o _ fun h hm => ?_
      cases hm
      have hl : heap.Lists key h := hlookup
      obtain ⟨halive, hp⟩ := hok.listed key h hl
      exact ⟨halive, .inl hp, fun f hf hm => absurd ⟨f, hf, hm⟩ (hok.unlisted key h hl)⟩

/-! ## the ends -/

theorem destroy_set (ptr : Option Handle) (object : Option Object) :
    (heap.destroy ptr).set o object = (heap.set o object).destroy ptr := by
  cases ptr <;> rfl

/-- the rest of the constructor, of a call that waited -/
theorem Ok.afterCallback (hok : heap.Ok) (hframes : heap.frames = f :: frames) {ok : Bool}
    (hmade : (ok = false ∨ f.plistKey.isSome = true) →
      ∀ h, heap.Refers f.object h → h = f.made)
    (hold : ok = true → ∀ key ∈ f.plistKey, ∀ h, heap.Lists key h → ∀ o, ¬ heap.Refers o h) :
    ({ heap with frames := frames }.afterCallback f ok).Ok := by
  have hf : f ∈ heap.frames := hframes ▸ List.mem_cons_self
  obtain ⟨halive, hrefers, hkey⟩ := hok.waiting f hf
  have hlists : ∀ key, ¬ heap.Lists key f.made := fun key hl => hok.unlisted key _ hl ⟨f, hf, rfl⟩
  have hpop := hok.pop hframes
  have hwaits : ¬ ({ heap with frames := frames } : Heap).Waits f.made := by
    rintro ⟨f', hf', hm⟩
    have hnodup := hok.waitingNodup
    rw [hframes] at hnodup
    exact (List.nodup_cons.mp hnodup).1 (List.mem_map.mpr ⟨f', hf', hm⟩)
  unfold Heap.afterCallback
  cases ok with
  | true =>
    refine hpop.register (fun h hr hs => ?_) (hold rfl)
    obtain rfl := hmade (.inr hs) h hr
    exact ⟨halive, hkey hs, hlists, hwaits⟩
  | false =>
    have hnone : ((heap.objects f.object).map fun object =>
        ({ object with memc := none } : Object)).bind (·.memc) = none := by
      cases heap.objects f.object <;> rfl
    rw [if_neg Bool.false_ne_true, destroy_set]
    refine (hpop.clear hnone).destroy fun h hr => ?_
    obtain rfl := hmade (.inl rfl) h hr
    refine ⟨halive, fun o hr' => ?_, hlists, hwaits⟩
    rcases (refers_set _ _).mp hr' with ⟨-, hm⟩ | ⟨hne, hr''⟩
    · exact Option.some_ne_none _ (hm.symm.trans hnone)
    · exact hne (hrefers o hr'')

/-- an object is released: a handle that is not persistent is its own -/
theorem Ok.freeStorage (hok : heap.Ok) (hframes : o ∉ heap.frames.map Frame.object) :
    (heap.freeStorage o).Ok := by
  unfold Heap.freeStorage
  cases hmemc : heap.memc o with
  | none => exact hok.clear rfl
  | some h =>
    have hr : heap.Refers o h := hmemc
    dsimp only
    split
    · exact hok.clear rfl
    · rename_i hp
      rw [destroy_set]
      refine (hok.clear rfl).destroy fun h' he => ?_
      cases he
      refine ⟨hok.referred o h hr, fun o' hr' => ?_, fun key hl => hp (hok.listed key h hl).2,
        fun hw => ?_⟩
      · rcases (refers_set _ _).mp hr' with ⟨-, hm⟩ | ⟨hne, hr''⟩
        · cases hm
        · exact hp (hok.owned o' o h hr'' hr hne)
      · obtain ⟨f, hf, rfl⟩ := hw
        rw [(hok.waiting f hf).2.1 o hr] at hframes
        exact hframes (List.mem_map_of_mem hf)

/-- entries whose handles nothing refers to are destroyed one after the other -/
theorem Ok.foldl_dtor (es : List (Sigma fun _ : Bytes => Resource)) (hok : heap.Ok)
    (hes : ∀ e ∈ es, ∀ h, e.2 = .memc (some h) → heap.ledger.Alive h ∧
      (∀ o, ¬ heap.Refers o h) ∧ (∀ key, ¬ heap.Lists key h) ∧ ¬ heap.Waits h)
    (hdistinct : es.Pairwise fun e e' => ∀ h, e.2 = .memc (some h) → e'.2 ≠ .memc (some h)) :
    (es.foldl (fun heap e => heap.dtor e.2) heap).Ok := by
  induction es generalizing heap with
  | nil => exact hok
  | cons e es ih =>
    obtain ⟨hhead, htail⟩ := List.pairwise_cons.mp hdistinct
    have hes' : ∀ e' ∈ es, ∀ h, e'.2 = .memc (some h) → heap.ledger.Alive h ∧
        (∀ o, ¬ heap.Refers o h) ∧ (∀ key, ¬ heap.Lists key h) ∧ ¬ heap.Waits h :=
      fun e' he' => hes e' (List.mem_cons_of_mem e he')
    rw [List.foldl_cons]
    obtain ⟨key, entry⟩ := e
    cases entry with
    | other => exact ih hok hes' htail
    | memc ptr =>
      cases ptr with
      | none => exact ih hok hes' htail
      | some h =>
        have hdestroy := hok.destroy fun h' he => hes _ List.mem_cons_self h' (congrArg Resource.memc he)
        refine ih hdestroy (fun e' he' h' hm => ?_) htail
        obtain ⟨halive, hrest⟩ := hes' e' he' h' hm
        exact ⟨halive.free fun he => hhead e' he' h rfl (he ▸ hm), hrest⟩

theorem Ok.destroyList (hok : heap.Ok)
    (hrefers : ∀ key h, heap.Lists key h → ∀ o, ¬ heap.Refers o h) : heap.destroyList.Ok := by
  have hlists : ∀ key h, ¬ ({ heap with persistentList := ∅ } : Heap).Lists key h := by
    intro key h hl
    cases (AList.lookup_empty key).symm.trans hl
  have hempty : ({ heap with persistentList := ∅ } : Heap).Ok := {
    sound := hok.sound
    referred := hok.referred
    listed := fun key h hl => absurd hl (hlists key h)
    distinct := fun key key' h hl => absurd hl (hlists key h)
    owned := hok.owned
    waiting := hok.waiting
    unlisted := fun key h hl => absurd hl (hlists key h)
    waitingNodup := hok.waitingNodup }
  have hmem : ∀ e ∈ heap.persistentList.entries, ∀ h, e.2 = Resource.memc (some h) →
      heap.Lists e.1 h := by
    rintro ⟨key, entry⟩ he h rfl
    exact AList.mem_lookup_iff.mpr he
  refine hempty.foldl_dtor _ (fun e he h hm => ?_) ?_
  · have hl := hmem e he h hm
    exact ⟨(hok.listed _ h hl).1, hrefers _ h hl, fun key => hlists key h, hok.unlisted _ h hl⟩
  · refine List.Pairwise.imp_of_mem (fun {e e'} he he' hne h hm hm' => ?_)
      (List.nodupKeys_iff_pairwise.mp heap.persistentList.nodupKeys)
    exact hne (hok.distinct _ _ h (hmem e he h hm) (hmem e' he' h hm'))

/-! ## runs -/

/-- the actions that leave no reference to a freed handle behind: a callback ends when the object
still has the handle of its constructor and no object has one that was registered under the same id
meanwhile; the list ends when no object has a handle of it -/
def Careful (heap : Heap) : Action → Prop
  | .callback ok => ∀ f ∈ heap.frames.head?,
    ((ok = false ∨ f.plistKey.isSome = true) → ∀ h, heap.Refers f.object h → h = f.made) ∧
    (ok = true → ∀ key ∈ f.plistKey, ∀ h, heap.Lists key h → ∀ o, ¬ heap.Refers o h)
  | .destroyList => ∀ key h, heap.Lists key h → ∀ o, ¬ heap.Refers o h
  | _ => True

/-- **A careful action keeps the invariant.** -/
theorem Ok.next (hok : heap.Ok) {a : Action} {heap' : Heap} (hcareful : heap.Careful a)
    (hnext : heap.next a = some heap') : heap'.Ok := by
  cases a with
  | new o =>
    unfold Heap.next at hnext
    dsimp only at hnext
    split at hnext
    · cases hnext
      exact hok.clear rfl
    · cases hnext
  | construct o c =>
    unfold Heap.next at hnext
    dsimp only at hnext
    split at hnext
    · cases hnext
      exact hok.construct c
    · cases hnext
  | callback ok =>
    unfold Heap.next at hnext
    dsimp only at hnext
    cases hframes : heap.frames with
    | nil =>
      rw [hframes] at hnext
      cases hnext
    | cons f frames =>
      rw [hframes] at hnext
      cases hnext
      have hf : f ∈ heap.frames.head? := by
        rw [hframes]
        rfl
      exact hok.afterCallback hframes (hcareful f hf).1 (hcareful f hf).2
  | release o =>
    unfold Heap.next at hnext
    dsimp only at hnext
    split at hnext
    · split at hnext
      · cases hnext
      · rename_i hframes
        cases hnext
        exact hok.freeStorage hframes
    · cases hnext
  | destroyList =>
    cases hnext
    exact hok.destroyList hcareful
  | bailout =>
    cases hnext
    exact hok.bailout

/-- nothing has been made yet -/
structure Initial (heap : Heap) : Prop where
  ledger : heap.ledger = ⟨0, []⟩
  objects : ∀ o, heap.objects o = none
  list : ∀ key h, ¬ heap.Lists key h
  frames : heap.frames = []

theorem Initial.ok (h : heap.Initial) : heap.Ok := by
  have hrefers : ∀ o h', ¬ heap.Refers o h' := by
    intro o h' hr
    rw [Refers, memc, h.objects o] at hr
    cases hr
  have hwaits : ∀ f, f ∉ heap.frames := by
    intro f hf
    rw [h.frames] at hf
    exact List.not_mem_nil hf
  exact {
    sound := by
      rw [h.ledger]
      exact ⟨fun _ hf => absurd hf List.not_mem_nil, List.nodup_nil⟩
    referred := fun o h' hr => absurd hr (hrefers o h')
    listed := fun key h' hl => absurd hl (h.list key h')
    distinct := fun key _ h' hl => absurd hl (h.list key h')
    owned := fun o _ h' hr => absurd hr (hrefers o h')
    waiting := fun f hf => absurd hf (hwaits f)
    unlisted := fun key h' hl => absurd hl (h.list key h')
    waitingNodup := by
      rw [h.frames]
      exact List.nodup_nil }

/-- no object and no entry of the list refers to a freed handle, and none was freed twice -/
structure Safe (heap : Heap) : Prop where
  objects : ∀ o h, heap.Refers o h → h ∉ heap.ledger.freed
  list : ∀ key h, heap.Lists key h → h ∉ heap.ledger.freed
  once : heap.ledger.freed.Nodup

theorem Ok.safe (hok : heap.Ok) : heap.Safe where
  objects o h hr := (hok.referred o h hr).unfreed
  list key h hl := (hok.listed key h hl).1.unfreed
  once := hok.sound.nodup

/-- **The handles in a careful run.** However constructor calls nest, and in whatever order objects
are released: what objects and list refer to is not freed, and nothing is freed twice. -/
theorem handles_safe {start heap : Heap} (hstart : start.Initial)
    (hrun : Runs (fun heap a heap' => heap.next a = some heap') Careful start heap) : heap.Safe :=
  (Runs.invariant hrun hstart.ok fun _ _ _ hok hcareful hnext => hok.next hcareful hnext).safe

end Heap

/-! ## nested constructor calls -/

/-- nothing but the persistent list -/
def emptyHeap : Heap := ⟨⟨0, []⟩, fun _ => newUserData iniDefaults false, fun _ => none, ∅, []⟩

theorem emptyHeap_initial : emptyHeap.Initial where
  ledger := rfl
  objects _ := rfl
  list _ _ hl := by cases hl
  frames := rfl

/-- `new Memcached('a')`, with a callback or without -/
def constructA (hasCallback : Bool) : Construct :=
  ⟨some (ascii ['a']), hasCallback, iniDefaults, true, fun _ => 0⟩

/-- one object is there, its constructor waiting for its callback -/
def waitingHeap : Heap := (emptyHeap.set 0 (some ⟨none, false⟩)).construct 0 (constructA true)

theorem runs_waitingHeap (ok : Heap → Action → Prop) (hnew : ok emptyHeap (.new 0))
    (hconstruct : ok (emptyHeap.set 0 (some ⟨none, false⟩)) (.construct 0 (constructA true))) :
    Runs (fun heap a heap' => heap.next a = some heap') ok emptyHeap waitingHeap :=
  (Runs.snoc .refl hnew rfl).snoc hconstruct rfl

/-- the theorem on a call whose callback makes no other object -/
theorem handles_safe_one :
    ({ waitingHeap with frames := [] }.register 0 (constructA true).key).Safe :=
  Heap.handles_safe emptyHeap_initial ((runs_waitingHeap Heap.Careful trivial trivial).snoc
    (a := .callback true) (by
      intro f hf
      cases hf
      exact ⟨fun _ h hr => by cases hr; rfl, fun _ key hk h hl => by cases hk; cases hl⟩) rfl)

/-- the failing case: the callback makes an object of the same id, whose handle is freed when the
outer call registers its own -/
theorem nested_constructor_frees :
    ¬ ∀ start heap : Heap, start.Initial →
      Runs (fun heap a heap' => heap.next a = some heap') (fun _ _ => True) start heap →
      heap.Safe := by
  intro hclaim
  have hrun := (((runs_waitingHeap (fun _ _ => True) trivial trivial).snoc (a := .new 1) trivial
    rfl).snoc (a := .construct 1 (constructA false)) trivial rfl).snoc (a := .callback true) trivial
    rfl
  exact (hclaim _ _ emptyHeap_initial hrun).objects 1 1 rfl List.mem_cons_self

end PhpMemcached
