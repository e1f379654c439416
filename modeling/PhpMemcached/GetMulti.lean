import PhpMemcached.Delivery
import PhpMemcached.KeySafety

/-!
# The array of `getMulti`

* `fetchAnswers`        the answers to the fetch requests of a run;
* `answerEntries`       the results that decode, as entries of the array;
* `run_phpMemcGetMultiImpl`   what is returned: the answers entered over the placeholders, unless the
                        fetch request itself reported an error;
* `MapsAnswers`         the keys of the request (or of the answers) in the order in which they came
                        first, each with the value of its last answer;
* `getMulti_maps_iff`   when the array is that.
-/

namespace PhpMemcached
open Ascii Requests

/-! ## runs -/

def fetchAnswer : (c : Call) → Ans c → Option (Status × Stream)
  | .mget .., r => some r
  | .mgetByKey .., r => some r
  | _, _ => none

def fetchAnswers (l : List (Entry Call Ans)) : List (Status × Stream) :=
  l.filterMap fun e => fetchAnswer e.req e.ans

theorem fetchAnswers_append (l l' : List (Entry Call Ans)) :
    fetchAnswers (l ++ l') = fetchAnswers l ++ fetchAnswers l' := List.filterMap_append

/-- the requests that fetch nothing -/
def NoFetch (c : Call) : Prop := ∀ r, fetchAnswer c r = none

theorem passive_noFetch : Passive NoFetch :=
  ⟨fun _ _ => rfl, fun _ _ => rfl, fun _ _ => rfl, fun _ _ _ _ => rfl, fun _ _ _ _ _ => rfl,
    fun _ _ _ => rfl⟩

/-- the results and their end come without an error, and every result decodes -/
structure Decodes (env : Env) (serializer : SerializerType) (stream : Stream) : Prop where
  codes : ∀ p ∈ stream.pending, sMemcachedReturnIsError p.1 false = false
  last : sMemcachedReturnIsError stream.last false = false
  results : ∀ p ∈ stream.pending, (decodeResult env serializer p.2).isSome
  noThrow : NoThrow env serializer stream.pending

/-- a result as an entry of the array, if it decodes -/
def answerEntries (env : Env) (serializer : SerializerType) (extended : Bool)
    (pending : List (Status × Result)) : HashTable :=
  (records (decodeResult env serializer) pending).map (multiEntry extended)

section
variable (env : Env) {α σ : Type} {h : Handler Call Ans σ} {s s' : State} {w w' : σ}

theorem fetchAnswers_of_asks {m : MemcM α} (hm : Cmd.Asks NoFetch m s) (h : Handler Call Ans σ)
    (w : σ) : fetchAnswers (Cmd.log h m s w) = [] :=
  List.filterMap_eq_nil_iff.mpr fun e he => hm.log h w e he e.ans

theorem fetchAnswers_memcachedMget (serverKey : Option Bytes) (keys : List Bytes) (h : Handler Call Ans σ)
    (s : State) (w : σ) :
    ∃ status stream w', Cmd.exec h (memcachedMget serverKey keys) s w =
        (.done status (s.withStream stream), w') ∧
      fetchAnswers (Cmd.log h (memcachedMget serverKey keys) s w) = [(status, stream)] := by
  cases serverKey with
  | none => exact ⟨_, _, _, rfl, rfl⟩
  | some serverKey => exact ⟨_, _, _, rfl, rfl⟩

theorem answerEntries_cons (serializer : SerializerType) (extended : Bool) (rc : Status)
    (result : Result) (pending : List (Status × Result)) :
    answerEntries env serializer extended ((rc, result) :: pending) =
      (match decodeResult env serializer result with
        | some v => [multiEntry extended (result, v)]
        | none => []) ++ answerEntries env serializer extended pending := by
  unfold answerEntries records
  rw [List.filterMap_cons]
  cases decodeResult env serializer result with
  | none => rfl
  | some v => rfl

/-- the loop enters the results that decode one after the other, unless decoding throws -/
theorem run_resultApplyLoop_multi (extended : Bool) (fuel : Nat) :
    ∀ {status st : Status} {acc acc' : HashTable} {s s' : State} {w w' : σ},
      s.memc.stream.pending.length < fuel →
      Cmd.exec h (resultApplyLoop env (sGetMultiApplyFn extended) false fuel status acc) s w =
        (.done (st, acc') s', w') →
      acc' = zendHashUpdateAll acc
        (answerEntries env s.memc.userData.serializer extended s.memc.stream.pending) ∨
      st = .payloadFailure := by
  induction fuel with
  | zero => intro _ _ _ _ _ _ _ _ hfuel; cases hfuel
  | succ fuel ih =>
    intro status st acc acc' s s' w w' hfuel hx
    obtain ⟨pending, last, hs⟩ : ∃ pending last, s.memc.stream = ⟨pending, last⟩ := ⟨_, _, rfl⟩
    rw [hs] at hfuel ⊢
    cases pending with
    | nil =>
      rw [exec_resultApplyLoop_nil env _ false h fuel status acc hs] at hx
      cases hx
      exact .inl rfl
    | cons x pending =>
      obtain ⟨rc, result⟩ := x
      have hfuel' : pending.length < fuel := Nat.lt_of_succ_lt_succ hfuel
      obtain ⟨e, w₁, hz⟩ := exec_resultToZval env h result (s.withStream ⟨pending, last⟩) w
      rw [(exec_resultApplyLoop_cons env _ false h fuel status acc hs hz).1] at hx
      rw [answerEntries_cons]
      change Cmd.exec h (resultRound env (sGetMultiApplyFn extended) false fuel rc result status acc
        (decodeResult env s.memc.userData.serializer result))
        { s.withStream ⟨pending, last⟩ with exception := e } w₁ = _ at hx
      cases hd : decodeResult env s.memc.userData.serializer result with
      | none =>
        rw [hd] at hx
        cases e with
        | true =>
          -- the exception stops the loop
          cases hx
          exact .inr rfl
        | false => exact ih hfuel' hx
      | some v =>
        rw [hd] at hx
        exact ih hfuel' hx

/-- a value that is read comes without a warning -/
def Decoded.Silent (d : Decoded) : Prop := d.ok = true → d.warning = none

theorem silent_noSupport {d : Decoded} (hd : d.Silent) (have_ : Bool) (text : String) :
    (noSupport have_ text d).Silent := by
  cases have_ with
  | true => exact hd
  | false => exact nofun

theorem silent_sUnserializeValue (serializer : SerializerType) (type : Flags) (payload : Bytes) :
    (sUnserializeValue env serializer type payload).Silent := by
  have hout : ∀ (out : DecOut) (text : String),
      (if out.ok then (⟨true, out.value, out.exception, none⟩ : Decoded)
        else ⟨false, .bool false, out.exception, some text⟩).Silent := by
    intro out text
    split
    · exact fun _ => rfl
    · exact nofun
  unfold sUnserializeValue
  split
  · exact hout _ _
  · split
    · exact silent_noSupport (hout _ _) _ _
    · split
      · exact silent_noSupport (fun _ => rfl) _ _
      · split
        · exact silent_noSupport (fun _ => rfl) _ _
        · exact fun _ => rfl

theorem silent_decodeData (serializer : SerializerType) (type : Flags) (n : Nat) (data : ZStr) :
    (decodeData env serializer type n data).Silent := by
  unfold decodeData
  repeat' split
  all_goals first | exact fun _ => rfl | exact silent_sUnserializeValue env _ _ _ | exact nofun

theorem silent_sMemcachedResultToZval (serializer : SerializerType) (value : ResultValue)
    (flags : Flags) : (sMemcachedResultToZval env serializer value flags).Silent := by
  have hread : ∀ payload : Bytes, (sMemcachedResultToZval.read env serializer flags payload).Silent := by
    intro payload
    unfold sMemcachedResultToZval.read
    split
    · split
      · exact nofun
      · exact silent_decodeData env _ _ _ _
    · exact silent_decodeData env _ _ _ _
  cases value with
  | bytes payload => exact hread payload
  | missing n =>
    show (if n > 0 then .failed (some _) else sMemcachedResultToZval.read env serializer flags []
      : Decoded).Silent
    split
    · exact nofun
    · exact hread []

/-- decoding a result that decodes leaves everything as it is -/
theorem exec_resultToZval_decodes {result : Result} {v : Zval}
    (hd : decodeResult env s.memc.userData.serializer result = some v)
    (hthrow : (sMemcachedResultToZval env s.memc.userData.serializer result.value
      result.flags).exception = false) (w : σ) :
    Cmd.exec h (resultToZval env result) s w = (.done (some v) s, w) := by
  have hok : (sMemcachedResultToZval env s.memc.userData.serializer result.value
      result.flags).ok = true := by
    unfold decodeResult Decoded.result at hd
    split at hd
    · assumption
    · cases hd
  have hvalue : (if (sMemcachedResultToZval env s.memc.userData.serializer result.value
      result.flags).ok then some (sMemcachedResultToZval env s.memc.userData.serializer result.value
      result.flags).value else none) = some v := hd
  unfold resultToZval raise
  rw [Cmd.exec_get_bind, Cmd.exec_modify_bind, hthrow, Bool.or_false, hvalue,
    silent_sMemcachedResultToZval env _ _ _ hok]
  rfl

/-- the loop over results that all decode -/
theorem exec_resultApplyLoop_decodes (extended : Bool) (last : Status)
    (pending : List (Status × Result)) :
    ∀ (fuel : Nat) (status : Status) (acc : HashTable) {s : State} (w : σ), pending.length < fuel →
      s.memc.stream = ⟨pending, last⟩ →
      Decodes env s.memc.userData.serializer ⟨pending, last⟩ →
      Cmd.exec h (resultApplyLoop env (sGetMultiApplyFn extended) false fuel status acc) s w =
        (.done (status, zendHashUpdateAll acc
          (answerEntries env s.memc.userData.serializer extended pending))
          (s.withStream ⟨[], last⟩), w) := by
  induction pending with
  | nil =>
    intro fuel status acc s w hfuel hs hdec
    obtain ⟨fuel, rfl⟩ : ∃ n, fuel = n + 1 := ⟨fuel - 1, by omega⟩
    rw [exec_resultApplyLoop_nil env _ false h fuel status acc hs, fetchStatus_of_not_error hdec.last]
    have hself : s.withStream ⟨[], last⟩ = s := by
      rw [← hs]
      rfl
    rw [hself]
    rfl
  | cons x pending ih =>
    obtain ⟨rc, result⟩ := x
    intro fuel status acc s w hfuel hs hdec
    obtain ⟨fuel, rfl⟩ : ∃ n, fuel = n + 1 := ⟨fuel - 1, by omega⟩
    obtain ⟨v, hv⟩ := Option.isSome_iff_exists.mp (hdec.results (rc, result) List.mem_cons_self)
    have hz := exec_resultToZval_decodes env (h := h) (s := s.withStream ⟨pending, last⟩) hv
      (hdec.noThrow (rc, result) List.mem_cons_self) w
    rw [(exec_resultApplyLoop_cons env _ false h fuel status acc hs hz).1, answerEntries_cons]
    dsimp only at hv
    rw [hv]
    have hround : Cmd.exec h (resultRound env (sGetMultiApplyFn extended) false fuel rc result status
        acc (some v)) (s.withStream ⟨pending, last⟩) w =
        Cmd.exec h (resultApplyLoop env (sGetMultiApplyFn extended) false fuel
          (fetchStatus rc status) (zendHashUpdate acc (multiEntry extended (result, v)).1
            (multiEntry extended (result, v)).2)) (s.withStream ⟨pending, last⟩) w := rfl
    rw [hround, fetchStatus_of_not_error (hdec.codes (rc, result) List.mem_cons_self)]
    exact ih fuel status _ w (Nat.lt_of_succ_lt_succ hfuel) rfl
      ⟨fun p hp => hdec.codes p (List.mem_cons_of_mem _ hp), hdec.last,
        fun p hp => hdec.results p (List.mem_cons_of_mem _ hp),
        fun p hp => hdec.noThrow p (List.mem_cons_of_mem _ hp)⟩

theorem sat_switch_reader (c : Bool) (data : UInt64) (s : State) :
    Cmd.Sat NoFetch (fun _ s' => SameReader s s' ∧ s'.memc.stream = s.memc.stream ∧
        s'.rescode = s.rescode)
      (Cmd.when c (memcachedBehaviorSet .supportCas data >>= fun _ => pure ())) s := by
  cases c with
  | true => exact ⟨fun _ => rfl, fun _ => ⟨⟨rfl, rfl⟩, rfl, rfl⟩⟩
  | false => exact ⟨⟨rfl, rfl⟩, rfl, rfl⟩

theorem sat_handleResultCode_reader (status : Status) (s : State) :
    Cmd.Sat NoFetch (fun ok s' => (SameReader s s' ∧ s'.memc.stream = s.memc.stream) ∧
      s'.rescode = status ∧ ok = !sMemcachedReturnIsError status true)
      (sMemcStatusHandleResultCode status) s := by
  unfold sMemcStatusHandleResultCode sMemcSetStatus
  rw [Cmd.sat_modify_bind]
  cases sMemcachedReturnIsError status true with
  | true => exact ⟨fun _ => rfl, fun _ => ⟨⟨⟨rfl, rfl⟩, rfl⟩, rfl, rfl⟩⟩
  | false => exact ⟨⟨⟨rfl, rfl⟩, rfl⟩, rfl, rfl⟩

/-- a request of several keys whose answers are collected in an array -/
theorem run_phpMemcMgetApply_multi {serverKey : Option Bytes} {keys : List Bytes} (hkeys : keys ≠ [])
    {extended ok : Bool} {acc acc' : HashTable}
    (hx : Cmd.exec h (phpMemcMgetApply env serverKey keys (some (sGetMultiApplyFn extended))
      extended acc) s w = (.done (ok, acc') s', w')) :
    ∃ status stream,
      fetchAnswers (Cmd.log h (phpMemcMgetApply env serverKey keys
        (some (sGetMultiApplyFn extended)) extended acc) s w) = [(status, stream)] ∧
      ok = !sMemcStatusHasError s' ∧
      ((sMemcachedReturnIsError status true = true ∧ acc' = acc ∧ ok = false) ∨
        (sMemcachedReturnIsError status true = false ∧
          (acc' = zendHashUpdateAll acc
            (answerEntries env s.memc.userData.serializer extended stream.pending) ∨
            s'.rescode = .payloadFailure) ∧
          (Decodes env s.memc.userData.serializer stream →
            s'.rescode = .success ∧ s'.exception = s.exception))) := by
  have hquiet : ∀ {β : Type} {m : MemcM β} {Q : β → State → Prop} {s : State} (w : σ),
      Cmd.Sat NoFetch Q m s → fetchAnswers (Cmd.log h m s w) = [] := fun w hm =>
    fetchAnswers_of_asks (hm.mono (fun _ h => h) fun _ _ _ => trivial) h w
  unfold phpMemcMgetApply sMemcSetStatus at hx ⊢
  rw [Cmd.exec_modify_bind, if_neg hkeys, Cmd.exec_get_bind] at hx
  rw [Cmd.log_modify_bind, if_neg hkeys, Cmd.log_get_bind]
  obtain ⟨_, s₁, w₁, hon, hx, hlog₁⟩ := Cmd.run_bind_inv hx
  obtain ⟨status, s₂, w₂, hmget, hx, hlog₂⟩ := Cmd.run_bind_inv hx
  obtain ⟨okMget, s₃, w₃, hcode, hx, hlog₃⟩ := Cmd.run_bind_inv hx
  obtain ⟨_, s₄, w₄, hoff, hx, hlog₄⟩ := Cmd.run_bind_inv hx
  obtain ⟨status', stream, w', hmget', hanswer⟩ := fetchAnswers_memcachedMget serverKey keys h s₁ w₁
  cases hmget.symm.trans hmget'
  obtain ⟨hr₁, -⟩ := (sat_switch_reader _ _ _).exec hon
  obtain ⟨⟨hr₃, hs₃⟩, hrescode₃, hokMget⟩ := (sat_handleResultCode_reader _ _).exec hcode
  obtain ⟨hr₄, hs₄, hrescode₄⟩ := (sat_switch_reader _ _ _).exec hoff
  have hstream : s₄.memc.stream = stream := hs₄.trans hs₃
  have hserializer : s₄.memc.userData.serializer = s.memc.userData.serializer := by
    rw [hr₄.userData, hr₃.userData]
    exact congrArg UserData.serializer hr₁.userData
  rw [hlog₁, hlog₂, hlog₃, hlog₄, fetchAnswers_append, fetchAnswers_append, fetchAnswers_append,
    fetchAnswers_append, hquiet _ (sat_switch_reader _ _ _), hquiet _ (sat_switch_reader _ _ _),
    hquiet _ (sat_handleResultCode_reader _ _), hanswer]
  cases hstatus : sMemcachedReturnIsError status true with
  | true =>
    rw [hstatus] at hokMget
    subst hokMget
    cases hx
    refine ⟨status, stream, rfl, ?_, .inl ⟨hstatus, rfl, rfl⟩⟩
    rw [sMemcStatusHasError, hrescode₄, hrescode₃, hstatus]
    rfl
  | false =>
    rw [hstatus] at hokMget
    subst hokMget
    obtain ⟨⟨st, a⟩, s₅, w₅, hloop, hx, hlog₅⟩ := Cmd.run_bind_inv hx
    obtain ⟨ok', s₆, w₆, hend, hx, hlog₆⟩ := Cmd.run_bind_inv hx
    cases hx
    obtain ⟨⟨hr₆, -⟩, hrescode, hok⟩ := (sat_handleResultCode_reader _ _).exec hend
    have hquietLoop : fetchAnswers (Cmd.log h (phpMemcResultApply env (sGetMultiApplyFn extended)
        false acc) s₄ w₄) = [] := fetchAnswers_of_asks
      (asks_resultApplyLoop env passive_noFetch (passiveApply_sGetMultiApplyFn extended) _ _ _ _ _) h w₄
    refine ⟨status, stream, ?_, ?_, .inr ⟨hstatus, ?_, ?_⟩⟩
    · show [] ++ ([(status, stream)] ++ ([] ++ ([] ++ fetchAnswers (Cmd.log h
        (phpMemcResultApply env (sGetMultiApplyFn extended) false acc >>= _) s₄ w₄)))) = _
      rw [hlog₅, hlog₆, fetchAnswers_append, fetchAnswers_append, hquietLoop,
        hquiet _ (sat_handleResultCode_reader _ _)]
      rfl
    · rw [hok, sMemcStatusHasError, hrescode]
    · rw [← hserializer, ← hstream, hrescode]
      exact run_resultApplyLoop_multi env extended _ (Nat.lt_succ_self _) hloop
    · intro hdec
      rw [← hserializer] at hdec
      have hall := exec_resultApplyLoop_decodes env (h := h) extended stream.last stream.pending
        (s₄.memc.stream.pending.length + 1) .success acc w₄ (hstream ▸ Nat.lt_succ_self _) hstream hdec
      cases hloop.symm.trans hall
      have hexc : s₄.exception = s.exception := (hr₄.exception.trans hr₃.exception).trans hr₁.exception
      exact ⟨hrescode, hr₆.exception.trans hexc⟩

/-- **An array that `getMulti` returns**: the answers are entered over the placeholders, or the fetch
request itself reported an error and no answer is read. -/
theorem run_phpMemcGetMultiImpl {serverKey : Option Bytes} {keys a : HashTable} (hkeys : keys ≠ [])
    {preserveOrder extended : Bool}
    (hx : Cmd.exec h (phpMemcGetMultiImpl env serverKey keys preserveOrder extended) s w =
      (.done (.arr a) s', w')) :
    ∃ status stream,
      fetchAnswers (Cmd.log h (phpMemcGetMultiImpl env serverKey keys preserveOrder extended) s w) =
        [(status, stream)] ∧
      a = if sMemcachedReturnIsError status true then placeholders env keys preserveOrder
        else zendHashUpdateAll (placeholders env keys preserveOrder)
          (answerEntries env s.memc.userData.serializer extended stream.pending) := by
  unfold phpMemcGetMultiImpl sMemcSetStatus at hx ⊢
  rw [if_neg hkeys, Cmd.exec_modify_bind] at hx
  rw [if_neg hkeys, Cmd.log_modify_bind]
  obtain ⟨⟨ok, acc⟩, s₁, w₁, hmget, hend, hlog⟩ := Cmd.run_bind_inv hx
  rw [hlog]
  -- without a valid key `BAD_KEY_PROVIDED` is set, and false returned
  have hne : sHashToKeys env.zend keys ≠ [] := by
    intro hnil
    rw [hnil] at hmget
    cases hmget
    cases hend
  obtain ⟨status, stream, hanswers, hok, hacc⟩ := run_phpMemcMgetApply_multi env hne hmget
  have hreturned : (ok = false → s₁.rescode = .notfound ∨ s₁.rescode = .someErrors) ∧ acc = a ∧
      fetchAnswers (Cmd.log h (do
        let s ← Cmd.get
        if !ok && (s.rescode == .notfound || s.rescode == .someErrors) then pure (.arr acc)
        else if !ok || s.exception then pure (.bool false)
        else pure (.arr acc) : MemcM Zval) s₁ w₁) = [] := by
    change Cmd.exec h (if !ok && (s₁.rescode == .notfound || s₁.rescode == .someErrors) then
        pure (.arr acc) else if !ok || s₁.exception then pure (.bool false)
        else pure (.arr acc) : MemcM Zval) s₁ w₁ = _ at hend
    rw [Cmd.log_get_bind]
    split at hend
    · rename_i hexempt
      rw [if_pos hexempt]
      cases hend
      refine ⟨fun _ => ?_, rfl, rfl⟩
      have hcode := (Bool.and_eq_true_iff.mp hexempt).2
      rwa [Bool.or_eq_true, beq_iff_eq, beq_iff_eq] at hcode
    · rename_i hexempt
      rw [if_neg hexempt]
      split at hend
      · cases hend
      · rename_i hfine
        rw [if_neg hfine]
        cases hend
        refine ⟨fun hbad => absurd ?_ hfine, rfl, rfl⟩
        rw [hbad]
        rfl
  obtain ⟨hcode, rfl, hquiet⟩ := hreturned
  refine ⟨status, stream, ?_, ?_⟩
  · rw [fetchAnswers_append, hanswers]
    exact congrArg _ hquiet
  · rcases hacc with ⟨hstatus, hacc, -⟩ | ⟨hstatus, hacc | hpayload, -⟩
    · rw [hstatus]
      exact hacc
    · rw [hstatus]
      exact hacc
    · -- `PAYLOAD_FAILURE` is an error that is returned as false
      rw [sMemcStatusHasError, hpayload] at hok
      rcases hcode hok with hnot | hsome
      · cases hpayload.symm.trans hnot
      · cases hpayload.symm.trans hsome

/-- when every result decodes, an array is returned -/
theorem returns_array_of_decodes {serverKey : Option Bytes} {keys : HashTable} {ret : Zval}
    (hkeys : sHashToKeys env.zend keys ≠ []) {preserveOrder extended : Bool}
    (hexc : s.exception = false)
    (hx : Cmd.exec h (phpMemcGetMultiImpl env serverKey keys preserveOrder extended) s w =
      (.done ret s', w'))
    (hread : ∀ r ∈ fetchAnswers (Cmd.log h
        (phpMemcGetMultiImpl env serverKey keys preserveOrder extended) s w),
      sMemcachedReturnIsError r.1 true = false ∧ Decodes env s.memc.userData.serializer r.2) :
    ∃ a, ret = .arr a := by
  have hne : keys ≠ [] := by
    rintro rfl
    exact hkeys rfl
  unfold phpMemcGetMultiImpl sMemcSetStatus at hx hread
  rw [if_neg hne, Cmd.exec_modify_bind] at hx
  rw [if_neg hne, Cmd.log_modify_bind] at hread
  obtain ⟨⟨ok, acc⟩, s₁, w₁, hmget, hend, hlog⟩ := Cmd.run_bind_inv hx
  obtain ⟨status, stream, hanswers, hok, hacc⟩ := run_phpMemcMgetApply_multi env hkeys hmget
  have hmem : (status, stream) ∈ fetchAnswers (Cmd.log h (phpMemcMgetApply env serverKey
      (sHashToKeys env.zend keys) (some (sGetMultiApplyFn extended)) extended
      (placeholders env keys preserveOrder)) { s with rescode := .success, memcErrno := 0 } w) :=
    hanswers ▸ List.mem_singleton_self _
  rw [hlog, fetchAnswers_append] at hread
  obtain ⟨hstatus, hdec⟩ := hread (status, stream) (List.mem_append_left _ hmem)
  rcases hacc with ⟨herr, -, -⟩ | ⟨-, -, hfine⟩
  · exact nomatch hstatus.symm.trans herr
  · obtain ⟨hrescode, hexc₁⟩ := hfine hdec
    have htrue : ok = true := by
      rw [hok, sMemcStatusHasError, hrescode]
      rfl
    subst htrue
    change Cmd.exec h (if s₁.exception then pure (.bool false) else pure (.arr acc) : MemcM Zval)
      s₁ w₁ = _ at hend
    have hnone : s₁.exception = false := hexc₁.trans hexc
    rw [hnone] at hend
    cases hend
    exact ⟨acc, rfl⟩

end

/-! ## keys and values -/

/-- the keys of an array that maps the keys of a request, or else those of the answers -/
def mappedKeys (zend : Zend) (keys : HashTable) (preserveOrder : Bool) (answers : HashTable) :
    List ArrKey :=
  if preserveOrder then keys.map fun e => zendHandleNumeric (zvalGetString zend e.2)
  else answers.map Prod.fst

/-- every key once, in the order in which they came first, with the value of its last answer -/
structure MapsAnswers (zend : Zend) (keys : HashTable) (preserveOrder : Bool)
    (answers a : HashTable) : Prop where
  keys : a.map Prod.fst = (mappedKeys zend keys preserveOrder answers).eraseDups
  value : ∀ k ∈ a.map Prod.fst, zendHashFind a k = some ((lastValue answers k).getD .null)

section
variable (env : Env) {keys answers : HashTable} {preserveOrder : Bool}

theorem keys_placeholders (keys : HashTable) (preserveOrder : Bool) :
    (placeholders env keys preserveOrder).map Prod.fst = ((if preserveOrder then keys else []).map
      fun e => zendHandleNumeric (zvalGetString env.zend e.2)).eraseDups := by
  rw [placeholders_eq]
  refine (keys_zendHashUpdateAll (a := []) List.nodup_nil _).trans ?_
  rw [List.map_nil, List.nil_append, List.map_map, List.map_map]
  rfl

theorem nodup_placeholders (keys : HashTable) (preserveOrder : Bool) :
    ((placeholders env keys preserveOrder).map Prod.fst).Nodup := by
  rw [placeholders_eq]
  exact zendHashUpdateAll_nodup (a := []) List.nodup_nil _

/-- a placeholder is NULL -/
theorem find_placeholders {k : ArrKey}
    (hk : k ∈ (placeholders env keys preserveOrder).map Prod.fst) :
    zendHashFind (placeholders env keys preserveOrder) k = some .null := by
  obtain ⟨e, he, rfl⟩ := List.mem_map.mp hk
  have hfind := lookup_of_mem (nodup_placeholders env keys preserveOrder) he
  have hnull : e.2 = .null := by
    rw [placeholders_eq] at he
    obtain ⟨t, -, rfl⟩ := List.mem_map.mp ((mem_zendHashUpdateAll he).resolve_left List.not_mem_nil)
    rfl
  rw [hnull] at hfind
  exact hfind

/-- every answer has a placeholder -/
theorem mem_keys_placeholders
    (hrequested : ∀ e ∈ answers, ∃ x ∈ keys, e.1 = zendHandleNumeric (zvalGetString env.zend x.2))
    {k : ArrKey} (hk : k ∈ answers.map Prod.fst) : k ∈ (placeholders env keys true).map Prod.fst := by
  obtain ⟨e, he, rfl⟩ := List.mem_map.mp hk
  obtain ⟨x, hx, hkey⟩ := hrequested e he
  rw [keys_placeholders, List.mem_eraseDups, hkey]
  exact List.mem_map_of_mem hx

/-- answers entered over the placeholders -/
theorem mapsAnswers_updateAll
    (hrequested : preserveOrder = true → ∀ e ∈ answers, ∃ x ∈ keys,
      e.1 = zendHandleNumeric (zvalGetString env.zend x.2)) :
    MapsAnswers env.zend keys preserveOrder answers
      (zendHashUpdateAll (placeholders env keys preserveOrder) answers) where
  keys := by
    rw [keys_zendHashUpdateAll (nodup_placeholders env keys preserveOrder)]
    unfold mappedKeys
    cases preserveOrder with
    | false => rfl
    | true =>
      have hnone : (answers.map Prod.fst).removeAll ((placeholders env keys true).map Prod.fst) = [] :=
        List.filter_eq_nil_iff.mpr fun k hk => by
          have hmem := mem_keys_placeholders env (hrequested rfl) hk
          rw [List.elem_eq_mem, decide_eq_true hmem]
          exact Bool.false_ne_true
      rw [if_pos rfl, List.eraseDups_append, hnone, List.eraseDups_nil, List.append_nil,
        eraseDups_of_nodup (nodup_placeholders env keys true)]
      exact keys_placeholders env keys true
  value k hk := by
    rw [lookup_zendHashUpdateAll]
    cases hlast : lastValue answers k with
    | some v => rfl
    | none =>
      have hnot : k ∉ answers.map Prod.fst := by
        rw [← lastValue_isSome_iff, hlast]
        exact Bool.false_ne_true
      have hmem := (mem_keys_zendHashUpdateAll _ answers k).mp hk
      rw [find_placeholders env (hmem.resolve_right hnot)]
      rfl

/-- no answer entered -/
theorem mapsAnswers_placeholders_iff
    (hrequested : preserveOrder = true → ∀ e ∈ answers, ∃ x ∈ keys,
      e.1 = zendHandleNumeric (zvalGetString env.zend x.2)) :
    MapsAnswers env.zend keys preserveOrder answers (placeholders env keys preserveOrder) ↔
      if preserveOrder then ∀ k v, lastValue answers k = some v → v = .null else answers = [] := by
  cases preserveOrder with
  | false =>
    rw [if_neg Bool.false_ne_true]
    constructor
    · intro hmaps
      have hkeys : [] = (answers.map Prod.fst).eraseDups := hmaps.keys
      rcases answers with _ | ⟨e, answers⟩
      · rfl
      · rw [List.map_cons, List.eraseDups_cons] at hkeys
        cases hkeys
    · rintro rfl
      exact ⟨rfl, fun k hk => nomatch hk⟩
  | true =>
    rw [if_pos rfl]
    have hmem : ∀ {k v}, lastValue answers k = some v →
        k ∈ (placeholders env keys true).map Prod.fst := fun {k v} hlast =>
      mem_keys_placeholders env (hrequested rfl) ((lastValue_isSome_iff answers k).mp (hlast ▸ rfl))
    constructor
    · intro hmaps k v hlast
      have hvalue := hmaps.value k (hmem hlast)
      rw [find_placeholders env (hmem hlast), hlast] at hvalue
      exact (Option.some.inj hvalue).symm
    · intro hnull
      refine ⟨(keys_placeholders env keys true).trans rfl, fun k hk => ?_⟩
      rw [find_placeholders env hk]
      cases hlast : lastValue answers k with
      | none => rfl
      | some v =>
        rw [hnull k v hlast]
        rfl

/-- an entry stands under the key of its answer -/
theorem mem_answerEntries {serializer : SerializerType} {extended : Bool}
    {pending : List (Status × Result)} {e : ArrKey × Zval}
    (he : e ∈ answerEntries env serializer extended pending) :
    ∃ p ∈ pending, e.1 = zendHandleNumeric p.2.key := by
  obtain ⟨x, hx, rfl⟩ := List.mem_map.mp he
  obtain ⟨p, hp, hdecode⟩ := List.mem_filterMap.mp hx
  obtain ⟨v, -, rfl⟩ := Option.map_eq_some_iff.mp hdecode
  exact ⟨p, hp, rfl⟩

/-- **When the array that `getMulti` returns maps the keys of its request to the answers** (without
the flag: the keys of the answers). It does if and only if the fetch request itself reported no error,
or no answer came that would have to be entered. -/
theorem getMulti_maps_iff {σ : Type} {h : Handler Call Ans σ} {s s' : State} {w w' : σ}
    {serverKey : Option Bytes} {a : HashTable} (hkeys : keys ≠ []) (extended : Bool)
    (hx : Cmd.exec h (phpMemcGetMultiImpl env serverKey keys preserveOrder extended) s w =
      (.done (.arr a) s', w'))
    (hrequested : ∀ r ∈ fetchAnswers (Cmd.log h
        (phpMemcGetMultiImpl env serverKey keys preserveOrder extended) s w),
      ∀ p ∈ r.2.pending, p.2.key ∈ sHashToKeys env.zend keys) :
    ∃ status stream,
      fetchAnswers (Cmd.log h (phpMemcGetMultiImpl env serverKey keys preserveOrder extended) s w) =
        [(status, stream)] ∧
      (MapsAnswers env.zend keys preserveOrder
          (answerEntries env s.memc.userData.serializer extended stream.pending) a ↔
        sMemcachedReturnIsError status true = false ∨
          if preserveOrder then ∀ k v, lastValue (answerEntries env s.memc.userData.serializer extended
            stream.pending) k = some v → v = .null
          else answerEntries env s.memc.userData.serializer extended stream.pending = []) := by
  obtain ⟨status, stream, hanswers, ha⟩ := run_phpMemcGetMultiImpl env hkeys hx
  refine ⟨status, stream, hanswers, ?_⟩
  have hentries : ∀ e ∈ answerEntries env s.memc.userData.serializer extended stream.pending,
      ∃ x ∈ keys, e.1 = zendHandleNumeric (zvalGetString env.zend x.2) := by
    intro e he
    obtain ⟨p, hp, hkey⟩ := mem_answerEntries env he
    have hmem := hrequested (status, stream) (hanswers ▸ List.mem_singleton_self _) p hp
    obtain ⟨⟨x, hx, htext⟩, -⟩ := (mem_sHashToKeys env.zend keys p.2.key).mp hmem
    exact ⟨x, hx, by rw [hkey, htext]⟩
  cases hstatus : sMemcachedReturnIsError status true with
  | false =>
    rw [hstatus] at ha
    subst ha
    exact iff_of_true (mapsAnswers_updateAll env fun _ => hentries) (.inl rfl)
  | true =>
    rw [hstatus] at ha
    subst ha
    exact (mapsAnswers_placeholders_iff env fun _ => hentries).trans ⟨.inr, fun h => h.resolve_left nofun⟩

end

/-! ## an array of two servers -/

/-- fetch requests are answered with `r`, everything else as by `noServers` -/
def answering (r : Status × Stream) : Handler Call Ans Unit
  | .mget .., _ => (r, ())
  | .mgetByKey .., _ => (r, ())
  | c, w => noServers c w

/-- the answer to `b` comes, that to `a` does not -/
theorem getMulti_maps_one :
    ∃ status stream,
      fetchAnswers (Cmd.log (answering (.success, ⟨[goodRecord], .end_⟩))
        (phpMemcGetMultiImpl plainEnv none twoKeys true false) (newObject iniDefaults 2) ()) =
        [(status, stream)] ∧
      (MapsAnswers plainEnv.zend twoKeys true (answerEntries plainEnv .php false stream.pending)
          [(.str (ascii ['a']), .null), (.str (ascii ['b']), .long 1)] ↔
        sMemcachedReturnIsError status true = false ∨
          if true then ∀ k v, lastValue (answerEntries plainEnv .php false stream.pending) k = some v →
            v = .null
          else answerEntries plainEnv .php false stream.pending = []) := by
  refine getMulti_maps_iff plainEnv (h := answering (.success, ⟨[goodRecord], .end_⟩))
    (s := newObject iniDefaults 2) (by decide) false rfl ?_
  intro r hr p hp
  obtain rfl := List.mem_singleton.mp hr
  obtain rfl := List.mem_singleton.mp hp
  decide

/-- the failing case: one of two servers cannot be reached, and the answer of the other is not read -/
theorem getMulti_drops_answers :
    ¬ ∀ (env : Env) (h : Handler Call Ans Unit) (serverKey : Option Bytes) (keys a : HashTable)
      (preserveOrder extended : Bool) (s s' : State) (w w' : Unit), keys ≠ [] →
      Cmd.exec h (phpMemcGetMultiImpl env serverKey keys preserveOrder extended) s w =
        (.done (.arr a) s', w') →
      (∀ r ∈ fetchAnswers (Cmd.log h
          (phpMemcGetMultiImpl env serverKey keys preserveOrder extended) s w),
        ∀ p ∈ r.2.pending, p.2.key ∈ sHashToKeys env.zend keys) →
      ∃ status stream,
        fetchAnswers (Cmd.log h (phpMemcGetMultiImpl env serverKey keys preserveOrder extended) s w) =
          [(status, stream)] ∧
        MapsAnswers env.zend keys preserveOrder
          (answerEntries env s.memc.userData.serializer extended stream.pending) a := by
  intro hclaim
  obtain ⟨status, stream, hanswers, hmaps⟩ := hclaim plainEnv
    (answering (.someErrors, ⟨[goodRecord], .end_⟩)) none twoKeys
    [(.str (ascii ['a']), .null), (.str (ascii ['b']), .null)] true false
    (newObject iniDefaults 2) _ () () (by decide) rfl (by
      intro r hr p hp
      obtain rfl := List.mem_singleton.mp hr
      obtain rfl := List.mem_singleton.mp hp
      decide)
  cases hanswers
  have hvalue := hmaps.value (.str (ascii ['b'])) (by decide)
  cases hvalue

end PhpMemcached
