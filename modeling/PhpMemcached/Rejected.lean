import PhpMemcached.Delivery

/-!
# Payloads their decoder rejects

* `decoder`, `decoderInput`   the decoder of a value type, and the bytes it is given;
* `Rejects`                   it reports failure on them;
* `Unheeded`                  the types whose decoder's report is not looked at;
* `NeverReturned`             the result is no value, for `s_memcached_result_to_zval`, for every
                              function the results are applied to, for `get` and for `getMulti`.
-/

namespace PhpMemcached
open Ascii Requests

section
variable (env : Env) (serializer : SerializerType)

/-- the decoder of a value type, if it has one -/
def decoder (type : Flags) (data : Bytes) : Option DecOut :=
  if type = memcValIsSerialized then some (env.phpVarUnserialize data)
  else if type = memcValIsIgbinary then some (env.igbinaryUnserialize data)
  else if type = memcValIsJson then some (env.phpJsonDecode (serializer == .jsonArray) data)
  else if type = memcValIsMsgpack then some (env.msgpackUnserialize data)
  else none

/-- the bytes of a payload after decompression, if it is read so far -/
def inflated (payload : Bytes) (flags : Flags) : Option Bytes :=
  if memcValHasFlag flags memcValCompressed then
    match sDecompressValue env payload flags with
    | .ok data => some (data.bytes env.uninit)
    | .error _ => none
  else some payload

/-- the bytes the decoder of a result is given -/
def decoderInput (value : ResultValue) (flags : Flags) : Option Bytes :=
  match value with
  | .bytes payload => inflated env payload flags
  | .missing n => if n > 0 then none else inflated env [] flags

/-- the decoder of the result reports failure -/
def Rejects (r : Result) : Prop :=
  ∃ data out, decoderInput env r.value r.flags = some data ∧
    decoder env serializer (memcValGetType r.flags) data = some out ∧ out.ok = false

/-- the types whose decoder's report is not looked at -/
def Unheeded (flags : Flags) : Prop :=
  (memcValGetType flags = memcValIsJson ∧ env.build.haveJson = true) ∨
    (memcValGetType flags = memcValIsMsgpack ∧ env.build.haveMsgpack = true)

variable {env serializer}

theorem decoder_types {type : Flags} {data : Bytes} {out : DecOut}
    (h : decoder env serializer type data = some out) :
    (type = memcValIsSerialized ∧ out = env.phpVarUnserialize data) ∨
      (type = memcValIsIgbinary ∧ out = env.igbinaryUnserialize data) ∨
      (type = memcValIsJson ∧ out = env.phpJsonDecode (serializer == .jsonArray) data) ∨
      (type = memcValIsMsgpack ∧ out = env.msgpackUnserialize data) := by
  unfold decoder at h
  split at h
  · exact .inl ⟨‹_›, (Option.some.inj h).symm⟩
  · split at h
    · exact .inr (.inl ⟨‹_›, (Option.some.inj h).symm⟩)
    · split at h
      · exact .inr (.inr (.inl ⟨‹_›, (Option.some.inj h).symm⟩))
      · split at h
        · exact .inr (.inr (.inr ⟨‹_›, (Option.some.inj h).symm⟩))
        · cases h

/-- a value of such a type is what the decoder makes of its bytes -/
theorem decodeData_of_decoder {type : Flags} {out : DecOut} (len : Nat) (data : ZStr)
    (h : decoder env serializer type (data.bytes env.uninit) = some out) :
    decodeData env serializer type len data =
      sUnserializeValue env serializer type (data.bytes env.uninit) := by
  rcases decoder_types h with ⟨rfl, -⟩ | ⟨rfl, -⟩ | ⟨rfl, -⟩ | ⟨rfl, -⟩ <;> rfl

/-- a rejected value is read as one exactly if the report is not looked at -/
theorem sUnserializeValue_ok_iff {flags : Flags} {data : Bytes} {out : DecOut}
    (h : decoder env serializer (memcValGetType flags) data = some out) (hout : out.ok = false) :
    (sUnserializeValue env serializer (memcValGetType flags) data).ok = true ↔
      Unheeded env flags := by
  unfold Unheeded sUnserializeValue noSupport
  rcases decoder_types h with ⟨ht, rfl⟩ | ⟨ht, rfl⟩ | ⟨ht, rfl⟩ | ⟨ht, rfl⟩
  · rw [ht, if_pos rfl]
    dsimp only
    rw [hout]
    refine iff_of_false nofun ?_
    rintro (⟨h, -⟩ | ⟨h, -⟩)
    · exact absurd h (by decide)
    · exact absurd h (by decide)
  · rw [ht, if_neg (by decide), if_pos rfl]
    dsimp only
    rw [hout]
    refine iff_of_false ?_ ?_
    · cases env.build.haveIgbinary <;> exact nofun
    · rintro (⟨h, -⟩ | ⟨h, -⟩)
      · exact absurd h (by decide)
      · exact absurd h (by decide)
  · rw [ht, if_neg (by decide), if_neg (by decide), if_pos rfl]
    cases env.build.haveJson with
    | true => exact iff_of_true rfl (.inl ⟨rfl, rfl⟩)
    | false =>
      refine iff_of_false nofun ?_
      rintro (⟨-, h⟩ | ⟨h, -⟩)
      · cases h
      · exact absurd h (by decide)
  · rw [ht, if_neg (by decide), if_neg (by decide), if_neg (by decide), if_pos rfl]
    cases env.build.haveMsgpack with
    | true => exact iff_of_true rfl (.inr ⟨rfl, rfl⟩)
    | false =>
      refine iff_of_false nofun ?_
      rintro (⟨h, -⟩ | ⟨-, h⟩)
      · exact absurd h (by decide)
      · cases h

theorem sMemcachedResultToZval_ok_iff {r : Result} (h : Rejects env serializer r) :
    (sMemcachedResultToZval env serializer r.value r.flags).ok = true ↔ Unheeded env r.flags := by
  obtain ⟨data, out, hdata, hdec, hout⟩ := h
  have hread : ∀ payload, inflated env payload r.flags = some data →
      sMemcachedResultToZval.read env serializer r.flags payload =
        sUnserializeValue env serializer (memcValGetType r.flags) data := by
    intro payload hp
    unfold inflated at hp
    unfold sMemcachedResultToZval.read
    split at hp
    · rename_i hflag
      rw [if_pos hflag]
      cases hz : sDecompressValue env payload r.flags with
      | error warning => rw [hz] at hp; cases hp
      | ok z =>
        rw [hz] at hp
        cases hp
        exact decodeData_of_decoder _ z hdec
    · rename_i hflag
      have hbytes : (ZStr.ofBytes payload).bytes env.uninit = data := by
        rw [ZStr.bytes_ofBytes]
        exact Option.some.inj hp
      rw [if_neg hflag, decodeData_of_decoder _ _ (hbytes.symm ▸ hdec), hbytes]
  rw [← sUnserializeValue_ok_iff hdec hout]
  unfold decoderInput at hdata
  unfold sMemcachedResultToZval
  cases hv : r.value with
  | bytes payload =>
    rw [hv] at hdata
    dsimp only at hdata ⊢
    rw [hread payload hdata]
  | missing n =>
    rw [hv] at hdata
    dsimp only at hdata ⊢
    split at hdata
    · cases hdata
    · rename_i hn
      rw [if_neg hn, hread [] hdata]

/-- a result that is read as no value has none -/
theorem decodeResult_eq_none_iff (r : Result) :
    decodeResult env serializer r = none ↔
      (sMemcachedResultToZval env serializer r.value r.flags).ok = false := by
  unfold decodeResult Decoded.result
  cases (sMemcachedResultToZval env serializer r.value r.flags).ok <;> simp

end

/-! ## `get` -/

section
variable (env : Env) {σ : Type} (h : Handler Call Ans σ) {last : Status}

/-- the round of `get` for a result that does not decode, and what follows it: it ends with an
error, whatever error handlers do; by induction on the results -/
theorem exec_getLoop_skip (extended : Bool) (hlast : sMemcachedReturnIsError last false = false)
    (more : List (Status × Result)) :
    ∀ (rc status : Status) {r : Result} (fuel : Nat) {s : State} (acc : Zval) (w : σ),
      more.length < fuel → s.memc.stream = ⟨(rc, r) :: more, last⟩ →
      (∀ p ∈ more, sMemcachedReturnIsError p.1 false = false) →
      decodeResult env s.memc.userData.serializer r = none →
      ∃ st acc' s' w', Cmd.exec h (resultApplyLoop env (sGetApplyFn extended) false (fuel + 1) status
          acc) s w = (.done (st, acc') s', w') ∧ (st = .someErrors ∨ st = .payloadFailure) := by
  induction more with
  | nil =>
    intro rc status r fuel s acc w hfuel hs _ hd
    obtain ⟨fuel, rfl⟩ : ∃ n, fuel = n + 1 := ⟨fuel - 1, by simp only [List.length_nil] at hfuel; omega⟩
    obtain ⟨e, w₁, hz⟩ := exec_resultToZval_of env h (s := s.withStream ⟨[], last⟩) hd w
    rw [(exec_resultApplyLoop_cons env (sGetApplyFn extended) false h _ status acc hs hz).1]
    cases e with
    | true => exact ⟨_, _, _, _, rfl, .inr rfl⟩
    | false =>
      let s₁ : State := { s.withStream ⟨[], last⟩ with exception := false }
      have hs₁ : s₁.memc.stream = ⟨[], last⟩ := rfl
      refine ⟨_, _, _, _, exec_resultApplyLoop_nil env (sGetApplyFn extended) false h fuel
        .someErrors acc hs₁, .inl ?_⟩
      exact fetchStatus_of_not_error hlast _
  | cons p more ih =>
    obtain ⟨rc', r'⟩ := p
    intro rc status r fuel s acc w hfuel hs hcodes hd
    obtain ⟨fuel, rfl⟩ : ∃ n, fuel = n + 1 := ⟨fuel - 1, by rw [List.length_cons] at hfuel; omega⟩
    have hfuel' : more.length < fuel := by simpa using hfuel
    obtain ⟨e, w₁, hz⟩ := exec_resultToZval_of env h
      (s := s.withStream ⟨(rc', r') :: more, last⟩) hd w
    rw [(exec_resultApplyLoop_cons env (sGetApplyFn extended) false h _ status acc hs hz).1]
    cases e with
    | true => exact ⟨_, _, _, _, rfl, .inr rfl⟩
    | false =>
      let s₁ : State := { s.withStream ⟨(rc', r') :: more, last⟩ with exception := false }
      show ∃ st acc' s' w', Cmd.exec h (resultApplyLoop env (sGetApplyFn extended) false (fuel + 1)
        .someErrors acc) s₁ w₁ = _ ∧ _
      cases hd' : decodeResult env s.memc.userData.serializer r' with
      | none =>
        exact ih rc' .someErrors fuel (s := s₁) acc w₁ hfuel' rfl (fun p hp => hcodes p (List.mem_cons_of_mem _ hp)) hd'
      | some v =>
        -- the value is taken, but the status stays
        obtain ⟨e', w₂, hv⟩ := exec_resultToZval_of env h (s := s₁.withStream ⟨more, last⟩) hd' w₁
        rw [(exec_resultApplyLoop_cons env (sGetApplyFn extended) false h fuel .someErrors acc
          (s := s₁) rfl hv).1]
        refine ⟨_, _, _, _, rfl, .inl ?_⟩
        exact fetchStatus_of_not_error (hcodes _ List.mem_cons_self) _

/-- `get` of a key whose first result does not decode -/
theorem exec_phpMemcGetImpl_skip {rc : Status} {r : Result} {more : List (Status × Result)}
    (hclean : (⟨(rc, r) :: more, last⟩ : Stream).Clean) (hfetches : Fetches h ⟨(rc, r) :: more, last⟩)
    {s : State} (hd : decodeResult env s.memc.userData.serializer r = none) (w : σ)
    (serverKey : Option Bytes) (key : Bytes) (hasCallback extended : Bool) :
    ∃ s' w', Cmd.exec h (phpMemcGetImpl env serverKey key hasCallback extended) s w =
      (.done (.bool false) s', w') ∧ sMemcStatusHasError s' = true := by
  let s₀ : State := { s with rescode := .success, memcErrno := 0 }
  have hlast : sMemcachedReturnIsError last false = false := by
    rcases hclean.last with h | ⟨h, -⟩
    · exact h
    · cases h
  unfold phpMemcGetImpl sMemcSetStatus checkKeyOr
  rw [Cmd.exec_modify_bind, Cmd.exec_get_bind]
  by_cases hkey : memcCheckKey s₀.memc key = true
  · have hkeys : sKeyToKeys env.zend key ≠ [] := by
      rw [sKeyToKeys_of_valid env.zend ((memcCheckKey_iff _ _).mp hkey)]
      exact List.cons_ne_nil _ _
    obtain ⟨s₁, w₁, hr₁, hs₁, hreq⟩ := ran_phpMemcMgetApply env hfetches serverKey hkeys
      (some (sGetApplyFn extended)) extended .null s₀ w
    have hd₁ : decodeResult env s₁.memc.userData.serializer r = none := by
      rw [hr₁.userData]
      exact hd
    obtain ⟨st, v, s₂, w₂, hloop, hst⟩ := exec_getLoop_skip env h extended hlast more rc
      .success (more.length + 1) .null w₁ (Nat.lt_succ_self _) hs₁
      (fun p hp => hclean.codes p (List.mem_cons_of_mem _ hp)) hd₁
    obtain ⟨s₃, w₃, hcode, -, -, hrescode⟩ := ran_handleResultCode h st s₂ w₂
    have herr : sMemcachedReturnIsError st true = true := by
      rcases hst with rfl | rfl <;> rfl
    have happly : Cmd.exec h (phpMemcResultApply env (sGetApplyFn extended) false .null) s₁ w₁ =
        (.done (st, v) s₂, w₂) := by
      unfold phpMemcResultApply
      rw [Cmd.exec_get_bind, hs₁]
      exact hloop
    have hend : Cmd.exec h (mgetEnd env (some (sGetApplyFn extended)) .null) s₁ w₁ =
        (.done (false, v) s₃, w₃) := by
      unfold mgetEnd
      dsimp only
      rw [Cmd.exec_bind_done happly, Cmd.exec_bind_done hcode.exec, herr]
      rfl
    refine ⟨s₃, w₃, ?_, ?_⟩
    · rw [if_pos hkey, Cmd.exec_bind_done (hreq ⟨hend, rfl⟩).exec]
      show Cmd.exec h (if (!false && s₃.rescode == .notfound && hasCallback) = true then _
        else phpMemcGetImpl.endOfGet v : MemcM Zval) s₃ w₃ = _
      have hnot : (!false && s₃.rescode == .notfound && hasCallback) = false := by
        rw [hrescode]
        rcases hst with rfl | rfl <;> rfl
      rw [hnot]
      show (Outcome.done (if sMemcStatusHasError s₃ then Zval.bool false else v) s₃, w₃) = _
      rw [sMemcStatusHasError, hrescode, herr]
      rfl
    · rw [sMemcStatusHasError, hrescode, herr]
  · rw [if_neg hkey]
    exact ⟨_, w, rfl, rfl⟩

end
/-! ## every path -/

/-- no caller gets a value for the result `r`, on handles with this serializer -/
structure NeverReturned (env : Env) (serializer : SerializerType) (r : Result) : Prop where
  toZval : (sMemcachedResultToZval env serializer r.value r.flags).ok = false
  /-- it is not handed to a function the results are applied to -/
  handed : ∀ c : Handing, c.serializer = serializer → ¬ c.Of env r
  /-- a `get` answered with it returns `FALSE`, with an error -/
  get : ∀ {σ : Type} (h : Handler Call Ans σ) (rc : Status) (more : List (Status × Result))
    (last : Status), (⟨(rc, r) :: more, last⟩ : Stream).Clean → Fetches h ⟨(rc, r) :: more, last⟩ →
    ∀ (s : State) (w : σ), s.memc.userData.serializer = serializer →
    ∀ (serverKey : Option Bytes) (key : Bytes) (hasCallback extended : Bool),
    ∃ s' w', Cmd.exec h (phpMemcGetImpl env serverKey key hasCallback extended) s w =
      (.done (.bool false) s', w') ∧ sMemcStatusHasError s' = true
  /-- a `getMulti` answered with it and others returns those alone, with `SOME_ERRORS` -/
  getMulti : ∀ {σ : Type} (h : Handler Call Ans σ) (rc : Status) (stream : Stream), stream.Clean →
    Serves h stream → (rc, r) ∈ stream.pending →
    ∀ (s : State) (w : σ), s.memc.userData.serializer = serializer → s.exception = false →
    NoThrow env serializer stream.pending →
    ∀ (serverKey : Option Bytes) (keys : HashTable) (preserveOrder extended : Bool),
    sHashToKeys env.zend keys ≠ [] →
    ∃ s' w', Cmd.exec h (phpMemcGetMultiImpl env serverKey keys preserveOrder extended) s w =
        (.done (.arr (zendHashUpdateAll (placeholders env keys preserveOrder)
          ((s.found env stream).map (multiEntry extended)))) s', w') ∧
      s'.rescode = .someErrors ∧ ∀ v, (r, v) ∉ s.found env stream

/-- a result that is not read as a value is a value for no caller -/
theorem neverReturned_of_not_ok {env : Env} {serializer : SerializerType} {r : Result}
    (hr : (sMemcachedResultToZval env serializer r.value r.flags).ok = false) :
    NeverReturned env serializer r := by
  have hd : decodeResult env serializer r = none := (decodeResult_eq_none_iff r).mpr hr
  refine ⟨hr, ?_, ?_, ?_⟩
  · rintro c rfl hof
    have hvalue := hof.value
    rw [show Decoded.result _ = none from hd] at hvalue
    cases hvalue
  · rintro σ h rc more last hclean hfetches s w rfl serverKey key hasCallback extended
    exact exec_phpMemcGetImpl_skip env h hclean hfetches hd w serverKey key hasCallback extended
  · rintro σ h rc stream hclean hserves hmem s w rfl hexc hdec serverKey keys preserveOrder
      extended hkeys
    obtain ⟨s', w', hrun, hrescode⟩ := ran_phpMemcGetMultiImpl env hserves hclean serverKey hkeys
      preserveOrder extended hexc hdec w
    refine ⟨s', w', hrun.exec, ?_, fun v hv => ?_⟩
    · rcases streamStatus_of_clean hclean (decodeResult env s.memc.userData.serializer) with
        ⟨-, hall⟩ | ⟨hst, -⟩ | ⟨-, hnil⟩
      · have hsome := hall _ hmem
        rw [hd] at hsome
        cases hsome
      · rw [hrescode, hst]
      · rw [hnil] at hmem
        cases hmem
    · obtain ⟨p, -, hp⟩ := List.mem_filterMap.mp hv
      obtain ⟨v', hv', hpair⟩ := Option.map_eq_some_iff.mp hp
      cases hpair
      rw [hd] at hv'
      cases hv'

/-- **A payload its decoder rejects is returned as a value exactly if it is of a type whose decoder is
not asked how it ended.** -/
theorem neverReturned_iff {env : Env} {serializer : SerializerType} {r : Result}
    (h : Rejects env serializer r) : NeverReturned env serializer r ↔ ¬ Unheeded env r.flags := by
  rw [← sMemcachedResultToZval_ok_iff h]
  constructor
  · intro hnever hok
    rw [hnever.toZval] at hok
    cases hok
  · intro hok
    exact neverReturned_of_not_ok (Bool.not_eq_true _ ▸ hok)

/-- a payload the PHP decoder rejects -/
theorem neverReturned_iff_php : NeverReturned plainEnv .php badRecord.2 ↔
    ¬ Unheeded plainEnv badRecord.2.flags :=
  neverReturned_iff ⟨ascii ['x'], ⟨false, .null, false⟩, rfl, rfl, rfl⟩

/-- a build with JSON support, whose decoder knows `null` alone -/
def jsonEnv : Env := { plainEnv with build := { plainEnv.build with haveJson := true } }

/-- a record that is no JSON text -/
def badJson : Result := ⟨ascii ['a'], .bytes (ascii ['x']), memcValIsJson, 1⟩

/-- **`get` returns a JSON text that does not parse as `NULL`, with a success.** -/
theorem get_returns_bad_json : Rejects jsonEnv .php badJson ∧
    ∃ s', Cmd.exec (serving ⟨[(.success, badJson)], .end_⟩)
        (phpMemcGetImpl jsonEnv none (ascii ['a']) false false) (newObject iniDefaults 1) () =
        (.done .null s', ()) ∧ sMemcStatusHasError s' = false :=
  ⟨⟨ascii ['x'], ⟨false, .null, false⟩, rfl, rfl, rfl⟩, _, rfl, rfl⟩

end PhpMemcached
