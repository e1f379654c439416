import PhpMemcached.Results

/-!
# The records the retrieval paths deliver

* `loopEnd`              the loop of `php_memc_result_apply` as a function of the results, under a
                         handler that lets warnings pass (`exec_resultApplyLoop_calm`);
* `records`              the results that decode, with their values;
* `Path`                 the four ways to get them: `getMulti`; `getDelayed` and then `fetchAll`,
                         `fetch` until the results are exhausted, or a value callback;
* `Path.delivered`       the keys and values the caller gets;
* `Path.Lossless`        the streams whose records all arrive.
-/

namespace PhpMemcached
open Ascii Requests

/-! ## the loop as a function -/

/-- how the loop ends: the status, what was collected, the results left, and the items a callback
was given -/
structure LoopEnd (α : Type) where
  status : Status
  acc : α
  left : List (Status × Result)
  items : List HashTable

section
variable {α : Type} (decode : Result → Option Zval) (f : α → Result → Zval → α × Bool)
  (g : Result → Zval → List HashTable) (fetchDelay : Bool) (last : Status)

/-- the loop over some results, collecting by `f` and giving a callback the items `g` -/
def loopEnd : List (Status × Result) → Status → α → LoopEnd α
  | [], status, acc => ⟨fetchStatus last status, acc, [], []⟩
  | (rc, r) :: pending, status, acc =>
    match decode r with
    | none => loopEnd pending .someErrors acc
    | some v =>
      if (f acc r v).2 then
        let e := loopEnd pending (fetchStatus rc status) (f acc r v).1
        ⟨e.status, e.acc, e.left, g r v ++ e.items⟩
      else ⟨fetchStatus rc status, (f acc r v).1, if fetchDelay then pending else [], g r v⟩

variable {decode} (rc : Status) {r : Result} {v : Zval} (pending : List (Status × Result))
  (status : Status) (acc : α)

theorem loopEnd_skip (hd : decode r = none) :
    loopEnd decode f g fetchDelay last ((rc, r) :: pending) status acc =
      loopEnd decode f g fetchDelay last pending .someErrors acc := by
  rw [loopEnd, hd]

theorem loopEnd_more (hd : decode r = some v) (hf : (f acc r v).2 = true) :
    loopEnd decode f g fetchDelay last ((rc, r) :: pending) status acc =
      let e := loopEnd decode f g fetchDelay last pending (fetchStatus rc status) (f acc r v).1
      ⟨e.status, e.acc, e.left, g r v ++ e.items⟩ := by
  rw [loopEnd, hd]
  dsimp only
  rw [if_pos hf]

theorem loopEnd_stop (hd : decode r = some v) (hf : (f acc r v).2 = false) :
    loopEnd decode f g fetchDelay last ((rc, r) :: pending) status acc =
      ⟨fetchStatus rc status, (f acc r v).1, if fetchDelay then pending else [], g r v⟩ := by
  rw [loopEnd, hd]
  dsimp only
  rw [hf]
  rfl

end

/-- the value of a result, read on a handle with this serializer -/
def decodeResult (env : Env) (serializer : SerializerType) (r : Result) : Option Zval :=
  (sMemcachedResultToZval env serializer r.value r.flags).result

theorem exec_resultToZval_of (env : Env) {σ : Type} (h : Handler Call Ans σ) {s : State} {r : Result}
    {z : Option Zval} (hd : decodeResult env s.memc.userData.serializer r = z) (w : σ) :
    ∃ e w', Cmd.exec h (resultToZval env r) s w = (.done z { s with exception := e }, w') := by
  subst hd
  exact exec_resultToZval env h r s w

/-- no decoder throws on these results -/
def NoThrow (env : Env) (serializer : SerializerType) (pending : List (Status × Result)) : Prop :=
  ∀ p ∈ pending, (sMemcachedResultToZval env serializer p.2.value p.2.flags).exception = false

/-- no error handler of the user throws -/
def Calm {σ : Type} (h : Handler Call Ans σ) : Prop := ∀ text w, (h (.warning text) w).1 = false

/-- the item a result callback is given -/
def callbackItem (e : Entry Call Ans) : Option HashTable :=
  match e.req with
  | .resultCallback _ item => some item
  | _ => none

section
variable (env : Env) {α σ : Type} {apply : ResultApplyFn α} {f : α → Result → Zval → α × Bool}
  {g : Result → Zval → List HashTable} (fetchDelay : Bool) {h : Handler Call Ans σ}

/-- decoding under a handler that lets warnings pass -/
theorem ran_resultToZval (hcalm : Calm h) {s : State} {result : Result}
    (hd : (sMemcachedResultToZval env s.memc.userData.serializer result.value
      result.flags).exception = false) (w : σ) :
    ∃ w', Cmd.Ran callbackItem h (resultToZval env result) s w
      (.done (decodeResult env s.memc.userData.serializer result) s) w' [] := by
  obtain ⟨w', hx⟩ := exec_resultToZval_calm env h hcalm hd w
  refine ⟨w', hx, ?_⟩
  unfold resultToZval raise
  rw [Cmd.log_get_bind, Cmd.log_modify_bind]
  cases (sMemcachedResultToZval env s.memc.userData.serializer result.value
    result.flags).warning with
  | none => rfl
  | some text => rfl

/-- an apply function that collects by `f`, gives a callback the items `g`, and leaves the object
as it is -/
def Collects (h : Handler Call Ans σ) (apply : ResultApplyFn α) (f : α → Result → Zval → α × Bool)
    (g : Result → Zval → List HashTable) : Prop :=
  ∀ acc r v s w, ∃ w', Cmd.Ran callbackItem h
    (apply acc r.key v (sUint64ToZval r.cas) r.flags) s w (.done (f acc r v) s) w' (g r v)

/-- **The loop ends as `loopEnd` says**, by induction on the results. -/
theorem exec_resultApplyLoop_calm (hcalm : Calm h) (happly : Collects h apply f g)
    (last : Status) (pending : List (Status × Result)) :
    ∀ (fuel : Nat) (status : Status) (acc : α) {s : State} (w : σ), pending.length < fuel →
      s.memc.stream = ⟨pending, last⟩ → s.exception = false →
      NoThrow env s.memc.userData.serializer pending →
      let e := loopEnd (decodeResult env s.memc.userData.serializer) f g fetchDelay last pending
        status acc
      ∃ w', Cmd.Ran callbackItem h (resultApplyLoop env apply fetchDelay fuel status acc) s w
        (.done (e.status, e.acc) (s.withStream ⟨e.left, last⟩)) w' e.items := by
  induction pending with
  | nil =>
    intro fuel status acc s w hfuel hs hexc hdec
    obtain ⟨fuel, rfl⟩ : ∃ n, fuel = n + 1 := ⟨fuel - 1, by omega⟩
    have hself : s.withStream ⟨[], last⟩ = s := by rw [← hs]; rfl
    obtain ⟨hfetch, hlog⟩ := exec_memcachedFetchResult_nil h (w := w) hs
    refine ⟨w, ?_, ?_⟩
    · rw [exec_resultApplyLoop_nil env apply fetchDelay h fuel status acc hs]
      show _ = (Outcome.done (fetchStatus last status, acc) (s.withStream ⟨[], last⟩), w)
      rw [hself]
    · rw [resultApplyLoop, Cmd.log_bind_done hfetch, hlog]
      rfl
  | cons p pending ih =>
    obtain ⟨rc, result⟩ := p
    intro fuel status acc s w hfuel hs hexc hdec
    obtain ⟨fuel, rfl⟩ : ∃ n, fuel = n + 1 := ⟨fuel - 1, by omega⟩
    have hfuel' : pending.length < fuel := by simpa using hfuel
    have hdec' : NoThrow env s.memc.userData.serializer pending :=
      fun p hp => hdec p (List.mem_cons_of_mem _ hp)
    let s₁ := s.withStream ⟨pending, last⟩
    obtain ⟨w₁, hz⟩ := ran_resultToZval env (s := s₁) hcalm
      (hdec (rc, result) List.mem_cons_self) w
    obtain ⟨hexec, hlog⟩ := exec_resultApplyLoop_cons env apply fetchDelay h fuel status acc hs
      hz.exec
    -- what is left of the round
    suffices hround : ∃ w', Cmd.Ran callbackItem h (resultRound env apply fetchDelay fuel rc result
        status acc (decodeResult env s.memc.userData.serializer result)) s₁ w₁ _ w' _ by
      obtain ⟨w', hx, hl⟩ := hround
      refine ⟨w', hexec.trans hx, ?_⟩
      rw [hlog, List.filterMap_append, hz.log, List.nil_append]
      exact hl
    cases hd : decodeResult env s.memc.userData.serializer result with
    | none =>
      rw [loopEnd_skip f g fetchDelay last rc pending status acc hd]
      have hnext : resultRound env apply fetchDelay fuel rc result status acc none s₁ =
          resultApplyLoop env apply fetchDelay fuel .someErrors acc s₁ := by
        show (if s₁.exception then _ else _ : MemcM (Status × α)) s₁ = _
        rw [show s₁.exception = false from hexc]
        rfl
      obtain ⟨w', hx, hl⟩ := ih fuel .someErrors acc (s := s₁) w₁ hfuel' rfl hexc hdec'
      refine ⟨w', ?_, ?_⟩
      · rw [Cmd.exec, hnext]
        exact hx
      · rw [Cmd.log, hnext]
        exact hl
    | some v =>
      obtain ⟨w₂, hx⟩ := happly acc result v s₁ w₁
      cases hgo : (f acc result v).2 with
      | true =>
        rw [loopEnd_more f g fetchDelay last rc pending status acc hd hgo]
        obtain ⟨w', hrest⟩ := ih fuel (fetchStatus rc status) (f acc result v).1
          (s := s₁) w₂ hfuel' rfl hexc hdec'
        refine ⟨w', hx.bind ?_⟩
        rw [if_pos hgo]
        exact hrest
      | false =>
        rw [loopEnd_stop f g fetchDelay last rc pending status acc hd hgo]
        refine ⟨w₂, ?_⟩
        rw [← List.append_nil (g result v)]
        refine hx.bind ?_
        rw [hgo]
        cases fetchDelay <;> exact ⟨rfl, rfl⟩

/-! ## a request and the loop over its results -/

/-- fetch requests are answered with `stream` -/
structure Fetches (h : Handler Call Ans σ) (stream : Stream) : Prop where
  mget : ∀ memc keys w, (h (.mget memc keys) w).1 = ((.success, stream) : Status × Stream)
  mgetByKey : ∀ memc serverKey keys w,
    (h (.mgetByKey memc serverKey keys) w).1 = ((.success, stream) : Status × Stream)

/-- besides, error handlers let warnings pass, and result callbacks run and leave the object as it
is -/
structure Serves (h : Handler Call Ans σ) (stream : Stream) : Prop extends Fetches h stream where
  calm : Calm h
  resultCallback : ∀ object item w,
    (h (.resultCallback object item) w).1 = (⟨true, 0, object⟩ : ResultCallbackAns)

/-- the part of the object that decoding depends on is kept -/
structure SameReader (s s' : State) : Prop where
  userData : s'.memc.userData = s.memc.userData
  exception : s'.exception = s.exception

theorem SameReader.trans {s s' s'' : State} (h : SameReader s s') (h' : SameReader s' s'') :
    SameReader s s'' := ⟨h'.userData.trans h.userData, h'.exception.trans h.exception⟩

theorem ran_switch (h : Handler Call Ans σ) (c : Bool) (data : UInt64) (s : State) (w : σ) :
    ∃ s' w', Cmd.Ran callbackItem h
        (Cmd.when c (memcachedBehaviorSet .supportCas data >>= fun _ => pure ())) s w
        (.done () s') w' [] ∧ SameReader s s' ∧ s'.memc.stream = s.memc.stream := by
  cases c with
  | true => exact ⟨_, _, ⟨rfl, rfl⟩, ⟨rfl, rfl⟩, rfl⟩
  | false => exact ⟨s, w, ⟨rfl, rfl⟩, ⟨rfl, rfl⟩, rfl⟩

theorem ran_handleResultCode (h : Handler Call Ans σ) (status : Status) (s : State) (w : σ) :
    ∃ s' w', Cmd.Ran callbackItem h (sMemcStatusHandleResultCode status) s w
        (.done (!sMemcachedReturnIsError status true) s') w' [] ∧
      SameReader s s' ∧ s'.memc.stream = s.memc.stream ∧ s'.rescode = status := by
  unfold sMemcStatusHandleResultCode sMemcSetStatus
  simp only [Cmd.ran_modify_bind]
  cases hst : sMemcachedReturnIsError status true with
  | true => exact ⟨_, _, ⟨rfl, rfl⟩, ⟨rfl, rfl⟩, rfl, rfl⟩
  | false => exact ⟨_, _, ⟨rfl, rfl⟩, ⟨rfl, rfl⟩, rfl, rfl⟩

theorem ran_memcachedMget {stream : Stream} (hfetches : Fetches h stream)
    (serverKey : Option Bytes) (keys : List Bytes) (s : State) (w : σ) :
    ∃ w', Cmd.Ran callbackItem h (memcachedMget serverKey keys) s w
      (.done .success (s.withStream stream)) w' [] := by
  cases serverKey with
  | none =>
    refine ⟨(h (.mget s.memc keys) w).2, ?_, rfl⟩
    show (Outcome.done (h (.mget s.memc keys) w).1.1 (s.withStream (h (.mget s.memc keys) w).1.2),
      _) = _
    rw [hfetches.mget]
  | some serverKey =>
    refine ⟨(h (.mgetByKey s.memc serverKey keys) w).2, ?_, rfl⟩
    show (Outcome.done (h (.mgetByKey s.memc serverKey keys) w).1.1
      (s.withStream (h (.mgetByKey s.memc serverKey keys) w).1.2), _) = _
    rw [hfetches.mgetByKey]

/-- what `php_memc_mget_apply` does once the request has succeeded -/
def mgetEnd (apply : Option (ResultApplyFn α)) (acc : α) : MemcM (Bool × α) :=
  match apply with
  | none => pure (true, acc)
  | some apply => do
    let r ← phpMemcResultApply env apply false acc
    let ok ← sMemcStatusHandleResultCode r.1
    pure (ok, r.2)

/-- a fetch request that is served, up to its results -/
theorem ran_phpMemcMgetApply {stream : Stream} (hfetches : Fetches h stream)
    (serverKey : Option Bytes) {keys : List Bytes} (hkeys : keys ≠ [])
    (apply : Option (ResultApplyFn α)) (withCas : Bool) (acc : α) (s : State) (w : σ) :
    ∃ s₁ w₁, SameReader s s₁ ∧ s₁.memc.stream = stream ∧
      ∀ {o w' l}, Cmd.Ran callbackItem h (mgetEnd env apply acc) s₁ w₁ o w' l →
        Cmd.Ran callbackItem h (phpMemcMgetApply env serverKey keys apply withCas acc) s w o w' l := by
  let s₀ : State := { s with rescode := .success, memcErrno := 0 }
  let switch := withCas && decide (memcachedBehaviorGet s.memc .supportCas = 0)
  obtain ⟨s₁, w₁, hon, hr₁, -⟩ := ran_switch h switch 1 s₀ w
  obtain ⟨w₂, hmget⟩ := ran_memcachedMget hfetches serverKey keys s₁ w₁
  obtain ⟨s₃, w₃, hcode, hr₃, hs₃, -⟩ := ran_handleResultCode h .success (s₁.withStream stream) w₂
  obtain ⟨s₄, w₄, hoff, hr₄, hs₄⟩ :=
    ran_switch h switch (memcachedBehaviorGet s.memc .supportCas) s₃ w₃
  have hr : SameReader s s₃ := ⟨hr₃.userData.trans hr₁.userData, hr₃.exception.trans hr₁.exception⟩
  refine ⟨s₄, w₄, hr.trans hr₄, hs₄.trans hs₃, fun {o w' l} hend => ?_⟩
  unfold phpMemcMgetApply sMemcSetStatus
  rw [Cmd.ran_modify_bind, if_neg hkeys, Cmd.ran_get_bind]
  refine hon.bind_unseen (hmget.bind_unseen (hcode.bind_unseen (hoff.bind_unseen ?_)))
  cases apply <;> exact hend

/-- the loop over all results of a handle -/
theorem ran_phpMemcResultApply (hcalm : Calm h) (happly : Collects h apply f g) (acc : α) {s : State}
    {pending : List (Status × Result)} {last : Status} (hs : s.memc.stream = ⟨pending, last⟩)
    (hexc : s.exception = false) (hdec : NoThrow env s.memc.userData.serializer pending) (w : σ) :
    let e := loopEnd (decodeResult env s.memc.userData.serializer) f g fetchDelay last pending
      .success acc
    ∃ w', Cmd.Ran callbackItem h (phpMemcResultApply env apply fetchDelay acc) s w
      (.done (e.status, e.acc) (s.withStream ⟨e.left, last⟩)) w' e.items := by
  have hloop := exec_resultApplyLoop_calm env fetchDelay hcalm happly last pending
    (pending.length + 1) .success acc w (Nat.lt_succ_self _) hs hexc hdec
  unfold phpMemcResultApply
  simp only [Cmd.ran_get_bind, hs]
  exact hloop

end

/-! ## records -/

/-- the results that decode, with their values -/
def records (decode : Result → Option Zval) (pending : List (Status × Result)) :
    List (Result × Zval) :=
  pending.filterMap fun p => (decode p.2).map fun v => (p.2, v)

/-- the results come without an error, and so does their end, unless there are none -/
structure Stream.Clean (stream : Stream) : Prop where
  codes : ∀ p ∈ stream.pending, sMemcachedReturnIsError p.1 false = false
  last : sMemcachedReturnIsError stream.last false = false ∨
    stream.pending = [] ∧ stream.last = .notfound

section
variable {α : Type} {decode : Result → Option Zval} {f : α → Result → Zval → α × Bool}
  {g : Result → Zval → List HashTable} (fetchDelay : Bool) (last : Status)

theorem records_cons_none {rc : Status} {r : Result} (pending : List (Status × Result))
    (hd : decode r = none) : records decode ((rc, r) :: pending) = records decode pending := by
  simp [records, hd]

theorem records_cons_some {rc : Status} {r : Result} {v : Zval} (pending : List (Status × Result))
    (hd : decode r = some v) :
    records decode ((rc, r) :: pending) = (r, v) :: records decode pending := by
  simp [records, hd]

theorem fetchStatus_of_not_error {rc : Status} (h : sMemcachedReturnIsError rc false = false)
    (status : Status) : fetchStatus rc status = status := by
  rw [fetchStatus, h]
  rfl

/-- a loop that never stops collects all records, and remembers whether it has passed over one -/
theorem loopEnd_collect (hgo : ∀ acc r v, (f acc r v).2 = true) (pending : List (Status × Result)) :
    ∀ (status : Status) (acc : α), (∀ p ∈ pending, sMemcachedReturnIsError p.1 false = false) →
      loopEnd decode f g fetchDelay last pending status acc =
        ⟨fetchStatus last (if pending.all fun p => (decode p.2).isSome then status
          else .someErrors),
          (records decode pending).foldl (fun acc x => (f acc x.1 x.2).1) acc, [],
          (records decode pending).flatMap fun x => g x.1 x.2⟩ := by
  induction pending with
  | nil => intro status acc _; rfl
  | cons p pending ih =>
    obtain ⟨rc, r⟩ := p
    intro status acc hcodes
    have hcodes' : ∀ p ∈ pending, sMemcachedReturnIsError p.1 false = false :=
      fun p hp => hcodes p (List.mem_cons_of_mem _ hp)
    cases hd : decode r with
    | none =>
      rw [loopEnd_skip f g fetchDelay last rc pending status acc hd, ih _ _ hcodes',
        records_cons_none pending hd, List.all_cons, hd, ite_self]
      rfl
    | some v =>
      rw [loopEnd_more f g fetchDelay last rc pending status acc hd (hgo acc r v),
        ih _ _ hcodes', records_cons_some pending hd, List.all_cons, hd,
        fetchStatus_of_not_error (hcodes (rc, r) List.mem_cons_self)]
      rfl

end
/-! ## the paths -/

/-- `fetch`, called until no result is left -/
def fetchToEnd (env : Env) : Nat → MemcM (List Zval)
  | 0 => pure []
  | n + 1 => do
    let s ← Cmd.get
    if s.memc.stream.pending = [] then pure []
    else
      let r ← memcachedFetch env
      let rs ← fetchToEnd env n
      pure (r :: rs)

/-- the ways to read the results of one request -/
inductive Path where
  | getMulti (preserveOrder extended : Bool)
  | fetchAll (withCas : Bool)
  | fetch (withCas : Bool)
  | callback (withCas : Bool)

/-- the calls of a path, with what they return -/
def Path.run (env : Env) (serverKey : Option Bytes) (keys : HashTable) : Path → MemcM (List Zval)
  | .getMulti preserveOrder extended => do
    let r ← phpMemcGetMultiImpl env serverKey keys preserveOrder extended
    pure [r]
  | .fetchAll withCas => do
    let _ ← phpMemcGetDelayedImpl env serverKey keys withCas false
    let r ← memcachedFetchAll env
    pure [r]
  | .fetch withCas => do
    let _ ← phpMemcGetDelayedImpl env serverKey keys withCas false
    let s ← Cmd.get
    fetchToEnd env s.memc.stream.pending.length
  | .callback withCas => do
    let r ← phpMemcGetDelayedImpl env serverKey keys withCas true
    pure [r]

/-- the nulls that keep the order of a `getMulti` -/
def placeholders (env : Env) (keys : HashTable) (preserveOrder : Bool) : HashTable :=
  if preserveOrder then sHashToKeysNulls env.zend keys else []

/-- the keys under which records are entered into an array -/
def foundKeys (found : List (Result × Zval)) : List ArrKey :=
  found.map fun x => zendHandleNumeric x.1.key

/-- the streams whose records all arrive: an array has one entry for a key, and the order of a
request that is to be kept is another order; `fetchAll` and `fetch` return no record at all when they
have passed over a result that does not decode -/
def Path.Lossless (env : Env) (keys : HashTable) (decode : Result → Option Zval)
    (pending : List (Status × Result)) : Path → Prop
  | .getMulti preserveOrder _ =>
    let nulls := (placeholders env keys preserveOrder).map Prod.fst
    let found := foundKeys (records decode pending)
    found.Nodup ∧ (nulls.filter (· ∈ found)) ++ (found.filter (· ∉ nulls)) = found
  | .fetchAll _ => (∀ p ∈ pending, (decode p.2).isSome) ∨ (∀ p ∈ pending, decode p.2 = none)
  | .fetch _ => pending.Pairwise fun p q => decode p.2 = none → decode q.2 = none
  | .callback _ => True

/-! ## the array of `getMulti` -/

theorem entryKey_handleNumeric (s : Bytes) : entryKey (zendHandleNumeric s) = s := by
  unfold zendHandleNumeric
  dsimp only
  by_cases h : intText (Int64.ofInt (strtoz s)).toInt = s
  · rw [if_pos h]
    exact h
  · rw [if_neg h]
    rfl

theorem handleNumeric_injective {s t : Bytes} (h : zendHandleNumeric s = zendHandleNumeric t) :
    s = t := by
  rw [← entryKey_handleNumeric s, h, entryKey_handleNumeric]

/-- the entry of a record in the array of `getMulti` -/
def multiEntry (extended : Bool) (x : Result × Zval) : ArrKey × Zval :=
  (zendHandleNumeric x.1.key,
    if extended then extendedZval x.2 (sUint64ToZval x.1.cas) x.1.flags else x.2)

/-- the placeholders are entered one after the other -/
theorem placeholders_eq (env : Env) (keys : HashTable) (preserveOrder : Bool) :
    placeholders env keys preserveOrder = zendHashUpdateAll []
      (((if preserveOrder then keys else []).map fun e => zvalGetString env.zend e.2).map
        fun t => (zendHandleNumeric t, .null)) := by
  cases preserveOrder with
  | false => rfl
  | true =>
    show sHashToKeysNulls env.zend keys = _
    unfold zendHashUpdateAll
    rw [List.map_map, List.foldl_map]
    rfl

section
variable {nulls : HashTable} (extended : Bool) (found : List (Result × Zval))

end

/-! ## the runs of the paths -/

section
variable (env : Env) {σ : Type} {h : Handler Call Ans σ} {s : State} {stream : Stream}

/-- an apply function that collects without asking for anything -/
theorem collects_of_pure (h : Handler Call Ans σ) {α : Type} (apply : ResultApplyFn α)
    (f : α → Result → Zval → α × Bool)
    (hf : ∀ acc r v, apply acc r.key v (sUint64ToZval r.cas) r.flags = pure (f acc r v)) :
    Collects h apply f fun _ _ => [] := by
  intro acc r v s w
  rw [hf]
  exact ⟨w, .pure _ _ _ _ _⟩

/-- the status after all results -/
def streamStatus (decode : Result → Option Zval) (stream : Stream) : Status :=
  fetchStatus stream.last
    (if stream.pending.all fun p => (decode p.2).isSome then .success else .someErrors)

/-- it is no error, unless a result did not decode or there was none -/
theorem streamStatus_of_clean (hclean : stream.Clean) (decode : Result → Option Zval) :
    (streamStatus decode stream = .success ∧ ∀ p ∈ stream.pending, (decode p.2).isSome) ∨
      (streamStatus decode stream = .someErrors ∧ ¬ ∀ p ∈ stream.pending, (decode p.2).isSome) ∨
      (streamStatus decode stream = .notfound ∧ stream.pending = []) := by
  unfold streamStatus
  rcases hclean.last with hlast | ⟨hnil, hlast⟩
  · rw [fetchStatus_of_not_error hlast, ← List.all_eq_true]
    cases stream.pending.all fun p => (decode p.2).isSome with
    | true => exact .inl ⟨rfl, rfl⟩
    | false => exact .inr (.inl ⟨rfl, Bool.false_ne_true⟩)
  · refine .inr (.inr ⟨?_, hnil⟩)
    rw [hlast]
    rfl

/-- the records a handle finds in a stream -/
abbrev State.found (env : Env) (s : State) (stream : Stream) : List (Result × Zval) :=
  records (decodeResult env s.memc.userData.serializer) stream.pending

/-- the loop of a request whose apply function collects all records, and its status -/
theorem ran_mgetEnd {α : Type} {apply : ResultApplyFn α} {f : α → Result → Zval → α × Bool}
    {g : Result → Zval → List HashTable} (hcalm : Calm h) (happly : Collects h apply f g)
    (hgo : ∀ acc r v, (f acc r v).2 = true) (hclean : stream.Clean) (hs : s.memc.stream = stream)
    (hexc : s.exception = false) (hdec : NoThrow env s.memc.userData.serializer stream.pending)
    (acc : α) (w : σ) :
    let status := streamStatus (decodeResult env s.memc.userData.serializer) stream
    ∃ s' w', Cmd.Ran callbackItem h (mgetEnd env (some apply) acc) s w
        (.done (!sMemcachedReturnIsError status true,
          (s.found env stream).foldl (fun acc x => (f acc x.1 x.2).1) acc) s') w'
        ((s.found env stream).flatMap fun x => g x.1 x.2) ∧
      s'.rescode = status ∧ s'.exception = false := by
  intro status
  obtain ⟨w₁, hloop⟩ := ran_phpMemcResultApply env false hcalm happly acc hs hexc hdec w
  rw [loopEnd_collect false stream.last hgo stream.pending _ _ hclean.codes] at hloop
  obtain ⟨s₂, w₂, hcode, hr, -, hrescode⟩ := ran_handleResultCode h status
    (s.withStream ⟨[], stream.last⟩) w₁
  refine ⟨s₂, w₂, ?_, hrescode, hr.exception.trans hexc⟩
  rw [← List.append_nil (List.flatMap _ _)]
  exact hloop.bind (hcode.map (fun ok => (ok, _)) rfl)

/-- `php_memc_getMulti_impl`, served -/
theorem ran_phpMemcGetMultiImpl (hserves : Serves h stream) (hclean : stream.Clean)
    (serverKey : Option Bytes) {keys : HashTable} (hkeys : sHashToKeys env.zend keys ≠ [])
    (preserveOrder extended : Bool) (hexc : s.exception = false)
    (hdec : NoThrow env s.memc.userData.serializer stream.pending) (w : σ) :
    ∃ s' w', Cmd.Ran callbackItem h
      (phpMemcGetMultiImpl env serverKey keys preserveOrder extended) s w
      (.done (.arr (zendHashUpdateAll (placeholders env keys preserveOrder)
        ((s.found env stream).map (multiEntry extended)))) s') w' [] ∧
      s'.rescode = streamStatus (decodeResult env s.memc.userData.serializer) stream := by
  have hne : keys ≠ [] := by
    rintro rfl
    exact hkeys rfl
  let f : HashTable → Result → Zval → HashTable × Bool := fun acc r v =>
    (zendHashUpdate acc (multiEntry extended (r, v)).1 (multiEntry extended (r, v)).2, true)
  obtain ⟨s₁, w₁, hr₁, hs₁, hreq⟩ := ran_phpMemcMgetApply env hserves.toFetches serverKey hkeys
    (some (sGetMultiApplyFn extended)) extended (placeholders env keys preserveOrder)
    { s with rescode := .success, memcErrno := 0 } w
  have hud : s₁.memc.userData = s.memc.userData := hr₁.userData
  obtain ⟨s₂, w₂, hend, hrescode, hexc₂⟩ := ran_mgetEnd env hserves.calm
    (collects_of_pure h (sGetMultiApplyFn extended) f fun _ _ _ => rfl) (fun _ _ _ => rfl) hclean
    hs₁ (hr₁.exception.trans hexc) (hud ▸ hdec) (placeholders env keys preserveOrder) w₁
  rw [hud] at hend hrescode
  have ha : (s.found env stream).foldl (fun acc x => (f acc x.1 x.2).1)
      (placeholders env keys preserveOrder) = zendHashUpdateAll
        (placeholders env keys preserveOrder) ((s.found env stream).map (multiEntry extended)) := by
    show _ = List.foldl _ _ (List.map _ _)
    rw [List.foldl_map]
  have hitems : (s.found env stream).flatMap (fun _ => ([] : List HashTable)) = [] := by simp
  rw [State.found, hud, ha, hitems] at hend
  refine ⟨s₂, w₂, ?_, hrescode⟩
  unfold phpMemcGetMultiImpl sMemcSetStatus
  rw [if_neg hne, Cmd.ran_modify_bind]
  refine (hreq hend).bind_unseen ?_
  rw [Cmd.ran_get_bind, hrescode, hexc₂]
  -- an error other than these two would have been returned as false
  rcases streamStatus_of_clean hclean (decodeResult env s.memc.userData.serializer) with
    ⟨hst, -⟩ | ⟨hst, -⟩ | ⟨hst, -⟩
  · rw [hst]
    exact .pure _ _ _ _ _
  · rw [hst]
    exact .pure _ _ _ _ _
  · rw [hst]
    exact .pure _ _ _ _ _

end

/-! ## streams with a bad record -/

/-- fetch requests are answered with `stream`, callbacks run; everything else as by `noServers` -/
def serving (stream : Stream) : Handler Call Ans Unit
  | .mget .., _ => ((.success, stream), ())
  | .mgetByKey .., _ => ((.success, stream), ())
  | .resultCallback object _, _ => (⟨true, 0, object⟩, ())
  | c, w => noServers c w

/-- a record that does not unserialize -/
def badRecord : Status × Result := (.success, ⟨ascii ['a'], .bytes (ascii ['x']), memcValIsSerialized, 1⟩)

/-- the integer 1 under `b` -/
def goodRecord : Status × Result := (.success, ⟨ascii ['b'], .bytes (ascii ['1']), memcValIsLong, 2⟩)

/-- the keys `a` and `b` -/
def twoKeys : HashTable := [(.int 0, .str (ascii ['a'])), (.int 1, .str (ascii ['b']))]

end PhpMemcached
