import PhpMemcached.CasToken

/-!
# CAS tokens on their way through PHP

* `Call.Shows`           a callback request whose item is as it should be;
* `sat_resultApplyLoop`  what an apply function keeps for the records of a request, the loop over its
                         results keeps;
* `Reader`               the methods that show tokens, and the items they show;
* `SendsBack`            `cas` with the token sends that CAS value;
* `casToken_survives`    a token that was read is sent back as the CAS value of its record.
-/

namespace PhpMemcached
open Ascii Requests

/-- a token made from a CAS value is read as it -/
theorem sZvalToUint64_sUint64ToZval (env : Env) (c : UInt64) :
    sZvalToUint64 env (sUint64ToZval c) = some c := by
  unfold sUint64ToZval
  by_cases hbig : c.toNat ≥ 2 ^ 63 - 1
  · rw [if_pos hbig]
    show (if _ then none else some _ : Option UInt64) = _
    rw [strtoull_natText (by omega) c.toNat_lt, if_neg (by simp), UInt64.ofNat_toNat]
  · rw [if_neg hbig]
    show some c.toInt64.toUInt64 = some c
    rw [UInt64.toUInt64_toInt64]

/-! ## the records behind what the loop collects -/

/-- an item given to a result callback satisfies `Q` -/
def Call.Shows (Q : HashTable → Prop) : Call → Prop
  | .resultCallback _ item => Q item
  | _ => True

section
variable (env : Env) {α : Type} {P : α → Prop} {Q : HashTable → Prop} {records : List Result}
  {apply : ResultApplyFn α}

/-- the apply function keeps `P` for each of the records, and puts none on the stream -/
def KeepsFor (P : α → Prop) (Q : HashTable → Prop) (records : List Result)
    (apply : ResultApplyFn α) : Prop :=
  ∀ acc, P acc → ∀ r ∈ records, ∀ v s, Cmd.Sat (Call.Shows Q)
    (fun a s' => P a.1 ∧ s'.memc.stream.pending ⊆ s.memc.stream.pending)
    (apply acc r.key v (sUint64ToZval r.cas) r.flags) s

theorem keepsFor_of_pure (f : α → Bytes → Zval → Zval → Flags → α × Bool)
    (happly : apply = fun acc key value cas flags => pure (f acc key value cas flags))
    (hf : ∀ acc, P acc → ∀ r ∈ records, ∀ v, P (f acc r.key v (sUint64ToZval r.cas) r.flags).1) :
    KeepsFor P Q records apply := by
  subst happly
  intro acc hacc r hr v s
  exact ⟨hf acc hacc r hr v, fun _ h => h⟩

/-- a round takes its record off the stream -/
theorem sat_memcachedFetchResult {s : State} (hs : ∀ x ∈ s.memc.stream.pending, x.2 ∈ records) :
    Cmd.Sat (Call.Shows Q) (fun r s' => (∀ result, r.1 = some result → result ∈ records) ∧
      ∀ x ∈ s'.memc.stream.pending, x.2 ∈ records) memcachedFetchResult s := by
  unfold memcachedFetchResult
  rw [Cmd.sat_get_bind]
  cases hp : s.memc.stream.pending with
  | nil => exact ⟨nofun, hs⟩
  | cons x pending =>
    rw [hp] at hs
    have hrest : ∀ x ∈ pending, x.2 ∈ records := fun x hx => hs x (List.mem_cons_of_mem _ hx)
    exact ⟨fun result hr => Option.some.inj hr ▸ hs x List.mem_cons_self, hrest⟩

/-- decoding leaves the handle as it is -/
theorem sat_resultToZval (result : Result) (s : State) :
    Cmd.Sat (Call.Shows Q) (fun _ s' => s'.memc = s.memc) (resultToZval env result) s := by
  unfold resultToZval raise
  rw [Cmd.sat_get_bind, Cmd.sat_modify_bind]
  refine Cmd.Sat.bind (Q := fun _ (s' : State) => s'.memc = s.memc)
    (Cmd.Sat.when (fun _ => ⟨trivial, fun _ => rfl⟩) fun _ => rfl) fun _ s' h => ?_
  rw [Cmd.sat_pure]
  exact h

/-- by induction on the rounds: the loop keeps what its apply function keeps -/
theorem sat_resultApplyLoop (happly : KeepsFor P Q records apply) (fetchDelay : Bool) (fuel : Nat) :
    ∀ {acc : α} {s : State} (status : Status), (∀ x ∈ s.memc.stream.pending, x.2 ∈ records) →
      P acc → Cmd.Sat (Call.Shows Q) (fun r _ => P r.2)
        (resultApplyLoop env apply fetchDelay fuel status acc) s := by
  induction fuel with
  | zero => exact fun _ _ hacc => hacc
  | succ fuel ih =>
    intro acc s status hs hacc
    unfold resultApplyLoop
    refine (sat_memcachedFetchResult hs).bind ?_
    rintro ⟨_ | result, rc⟩ s₁ ⟨hresult, hs₁⟩
    · exact hacc
    · have hr : result ∈ records := hresult result rfl
      refine (sat_resultToZval env result s₁).bind fun z s₂ hmemc => ?_
      have hs₂ : ∀ x ∈ s₂.memc.stream.pending, x.2 ∈ records := hmemc ▸ hs₁
      cases z with
      | none =>
        rw [Cmd.sat_get_bind]
        cases s₂.exception with
        | true => exact ⟨trivial, fun _ => hacc⟩
        | false => exact ih .someErrors hs₂ hacc
      | some value =>
        refine (happly acc hacc result hr value s₂).bind ?_
        rintro ⟨acc', goOn⟩ s₃ ⟨hacc', hsub⟩
        cases goOn with
        | true => exact ih _ (fun x hx => hs₂ x (hsub hx)) hacc'
        | false => cases fetchDelay <;> exact hacc'

theorem sat_phpMemcResultApply (happly : KeepsFor P Q records apply) (fetchDelay : Bool) {acc : α}
    {s : State} (hs : ∀ x ∈ s.memc.stream.pending, x.2 ∈ records) (hacc : P acc) :
    Cmd.Sat (Call.Shows Q) (fun r _ => P r.2) (phpMemcResultApply env apply fetchDelay acc) s :=
  sat_resultApplyLoop env happly fetchDelay _ _ hs hacc

/-! ## the records of a request -/

omit env in
/-- the records in an answer -/
def recordsOf : (c : Call) → Ans c → List Result
  | .mget .., r => r.2.pending.map Prod.snd
  | .mgetByKey .., r => r.2.pending.map Prod.snd
  | _, _ => []

omit env in
/-- the records the servers have returned in a run -/
def answered (l : List (Entry Call Ans)) : List Result := l.flatMap fun e => recordsOf e.req e.ans

omit env in
theorem answered_append (l l' : List (Entry Call Ans)) :
    answered (l ++ l') = answered l ++ answered l' := List.flatMap_append

omit env in
theorem run_memcachedMget {σ : Type} (h : Handler Call Ans σ) (serverKey : Option Bytes)
    (keys : List Bytes) (s : State) (w : σ) :
    ∃ status stream w', Cmd.exec h (memcachedMget serverKey keys) s w =
        (.done status (s.withStream stream), w') ∧
      answered (Cmd.log h (memcachedMget serverKey keys) s w) = stream.pending.map Prod.snd ∧
      ∀ e ∈ Cmd.log h (memcachedMget serverKey keys) s w, e.req.Shows Q := by
  cases serverKey with
  | none =>
    refine ⟨_, _, _, rfl, List.append_nil _, fun e he => ?_⟩
    rw [List.mem_singleton.mp he]
    trivial
  | some serverKey =>
    refine ⟨_, _, _, rfl, List.append_nil _, fun e he => ?_⟩
    rw [List.mem_singleton.mp he]
    trivial

/-- a command that leaves the results alone and shows nothing -/
def KeepsStream {β : Type} (m : MemcM β) : Prop :=
  ∀ s, Cmd.Sat (Call.Shows fun _ => False) (fun _ s' => s'.memc.stream = s.memc.stream) m s

omit env in
theorem keepsStream_handleResultCode (status : Status) :
    KeepsStream (sMemcStatusHandleResultCode status) := by
  intro s
  unfold sMemcStatusHandleResultCode sMemcSetStatus
  rw [Cmd.sat_modify_bind]
  cases sMemcachedReturnIsError status true with
  | true => exact ⟨trivial, fun _ => rfl⟩
  | false => exact rfl

omit env in
theorem keepsStream_switch (switch : Bool) (data : UInt64) :
    KeepsStream (Cmd.when switch (memcachedBehaviorSet .supportCas data >>= fun _ => pure ())) := by
  intro s
  cases switch with
  | true => exact ⟨trivial, fun _ => rfl⟩
  | false => exact rfl

omit env in
theorem KeepsStream.run {β : Type} {m : MemcM β} (hm : KeepsStream m) {σ : Type}
    {h : Handler Call Ans σ} {s s' : State} {w w' : σ} {b : β}
    (hx : Cmd.exec h m s w = (.done b s', w')) :
    s'.memc.stream = s.memc.stream ∧ ∀ e ∈ Cmd.log h m s w, e.req.Shows Q := by
  refine ⟨(hm s).exec hx, fun e he => ?_⟩
  have hshows := (hm s).log h w e he
  cases e with
  | mk req ans =>
    cases req with
    | resultCallback object item => exact hshows.elim
    | _ => trivial

/-- **What a request of several keys collects**: what its apply function keeps for the records of
the answer holds at the end, and of every item shown on the way. -/
theorem run_phpMemcMgetApply {σ : Type} (h : Handler Call Ans σ) {serverKey : Option Bytes}
    {keys : List Bytes} {apply : Option (ResultApplyFn α)} {withCas ok : Bool} {acc acc' : α}
    {s s' : State} {w w' : σ}
    (hx : Cmd.exec h (phpMemcMgetApply env serverKey keys apply withCas acc) s w =
      (.done (ok, acc') s', w'))
    (happly : ∀ f ∈ apply, KeepsFor P Q
      (answered (Cmd.log h (phpMemcMgetApply env serverKey keys apply withCas acc) s w)) f)
    (hacc : P acc) :
    P acc' ∧ ∀ e ∈ Cmd.log h (phpMemcMgetApply env serverKey keys apply withCas acc) s w,
      e.req.Shows Q := by
  unfold phpMemcMgetApply sMemcSetStatus at hx happly ⊢
  rw [Cmd.exec_modify_bind] at hx
  rw [Cmd.log_modify_bind] at happly ⊢
  by_cases hkeys : keys = []
  · rw [if_pos hkeys] at hx ⊢
    cases hx
    exact ⟨hacc, fun _ he => by cases he⟩
  · rw [if_neg hkeys] at hx happly ⊢
    rw [Cmd.exec_get_bind] at hx
    rw [Cmd.log_get_bind] at happly ⊢
    obtain ⟨_, s₁, w₁, hswitch, hx, hlog₁⟩ := Cmd.run_bind_inv hx
    obtain ⟨status, s₂, w₂, hmget, hx, hlog₂⟩ := Cmd.run_bind_inv hx
    obtain ⟨okMget, s₃, w₃, hstatus, hx, hlog₃⟩ := Cmd.run_bind_inv hx
    obtain ⟨_, s₄, w₄, hback, hx, hlog₄⟩ := Cmd.run_bind_inv hx
    obtain ⟨_, hshows₁⟩ := (keepsStream_switch _ _).run (Q := Q) hswitch
    obtain ⟨status', stream, w', hmget', hanswer, hshows₂⟩ :=
      run_memcachedMget (Q := Q) h serverKey keys s₁ w₁
    obtain ⟨hstream₃, hshows₃⟩ := (keepsStream_handleResultCode _).run (Q := Q) hstatus
    obtain ⟨hstream₄, hshows₄⟩ := (keepsStream_switch _ _).run (Q := Q) hback
    cases hmget.symm.trans hmget'
    have hstream : s₄.memc.stream = stream := hstream₄.trans hstream₃
    rw [hlog₁, hlog₂, hlog₃, hlog₄] at happly ⊢
    simp only [List.mem_append, or_imp, forall_and]
    refine (fun hend : _ ∧ _ => ⟨hend.1, hshows₁, hshows₂, hshows₃, hshows₄, hend.2⟩) ?_
    cases okMget with
    | false =>
      cases hx
      exact ⟨hacc, fun _ he => by cases he⟩
    | true =>
      cases apply with
      | none =>
        cases hx
        exact ⟨hacc, fun _ he => by cases he⟩
      | some apply =>
        have hkeeps := happly apply rfl
        rw [answered_append, answered_append, hanswer] at hkeeps
        obtain ⟨⟨status₅, acc₅⟩, s₅, w₅, happlied, hx, hlog₅⟩ := Cmd.run_bind_inv hx
        have hsat : Cmd.Sat (Call.Shows Q) (fun r _ => P r.2)
            (phpMemcResultApply env apply false acc) s₄ :=
          sat_phpMemcResultApply env hkeeps false (fun x hx => List.mem_append_right _
            (List.mem_append_left _ (List.mem_map_of_mem (hstream ▸ hx)))) hacc
        obtain ⟨okEnd, s₆, w₆, hstatus₆, hx, hlog₆⟩ := Cmd.run_bind_inv hx
        obtain ⟨-, hshows₆⟩ := (keepsStream_handleResultCode _).run (Q := Q) hstatus₆
        cases hx
        refine ⟨hsat.exec happlied, fun e he => ?_⟩
        change e ∈ Cmd.log h (phpMemcResultApply env apply false acc >>= _) s₄ w₄ at he
        rw [hlog₅, List.mem_append] at he
        rcases he with he | he
        · exact hsat.log h w₄ e he
        · rw [hlog₆, List.mem_append] at he
          exact he.elim (hshows₆ e) fun hnil => by cases hnil

end

/-! ## tokens that are read and sent back -/

/-- the CAS token in an item -/
def tokenOf : Zval → Option Zval
  | .arr a => zendHashFind a casName
  | _ => none

/-- a cache callback is run -/
def Call.isFill : Call → Bool
  | .cacheCallback .. => true
  | _ => false

/-- the key in an item -/
def itemKey : Zval → Option Zval
  | .arr a => zendHashFind a keyName
  | _ => none

section
variable (env : Env)

/-- the token is accepted, and every `cas` with it sends `c`: one request if the key is valid and the
value can be sent, none otherwise -/
def SendsBack (token : Zval) (c : UInt64) : Prop :=
  (sZvalToUint64 env token).isSome = true ∧
    ∀ (serverKey : Option Bytes) (key : Bytes) (value : Zval) (expiration : Int64) (s : State)
      {σ : Type} (h : Handler Call Ans σ) (w : σ),
      casValues (Cmd.log h (phpMemcCasImpl env serverKey token key value expiration) s w) =
        match memcCheckKey s.memc key, writeOut env s (some value) with
        | true, .send _ _ => [c]
        | _, _ => []

/-- a token in the item comes from one of the records that the item may be of, and is sent back as
the CAS value of that record -/
def TokenFrom (records : List Result) (item : Zval) (isOf : Result → Prop) : Prop :=
  ∀ token, tokenOf item = some token →
    ∃ r ∈ records, isOf r ∧ token = sUint64ToZval r.cas ∧ SendsBack env token r.cas

/-- an item of `fetch`, `fetchAll` or a result callback: it names its key -/
abbrev ItemFrom (records : List Result) (item : Zval) : Prop :=
  TokenFrom env records item fun r => itemKey item = some (.str r.key)

theorem sendsBack (c : UInt64) : SendsBack env (sUint64ToZval c) c := by
  have htoken := sZvalToUint64_sUint64ToZval env c
  refine ⟨by rw [htoken]; rfl, fun serverKey key value expiration s σ h w => ?_⟩
  cases hkey : memcCheckKey s.memc key with
  | false =>
    rw [(ends_phpMemcCasImpl_badKey env hkey).log_silent h w]
    rfl
  | true =>
    cases hout : writeOut env s (some value) with
    | send p f => exact casValues_phpMemcCasImpl env hkey htoken hout h w
    | refuse status => exact casValues_unsent env hkey htoken (by rw [hout]; exact nofun) h w
    | crash => exact casValues_unsent env hkey htoken (by rw [hout]; exact nofun) h w

variable {env} {records : List Result}

theorem TokenFrom.of_none {item : Zval} {isOf : Result → Prop} (h : tokenOf item = none) :
    TokenFrom env records item isOf := fun _ ht => nomatch h.symm.trans ht

theorem TokenFrom.mono {records' : List Result} {item : Zval} {isOf : Result → Prop}
    (h : TokenFrom env records item isOf) (hsub : records ⊆ records') :
    TokenFrom env records' item isOf := fun token ht =>
  let ⟨r, hr, hof⟩ := h token ht
  ⟨r, hsub hr, hof⟩

theorem tokenFrom_extendedZval {r : Result} (hr : r ∈ records) (v : Zval) {isOf : Result → Prop}
    (hof : isOf r) :
    TokenFrom env records (extendedZval v (sUint64ToZval r.cas) r.flags) isOf := by
  intro token ht
  have hcas : tokenOf (extendedZval v (sUint64ToZval r.cas) r.flags) = some (sUint64ToZval r.cas) :=
    rfl
  obtain rfl := Option.some.inj (hcas.symm.trans ht)
  exact ⟨r, hr, hof, rfl, sendsBack env r.cas⟩

theorem itemFrom_sCreateResultArray {r : Result} (hr : r ∈ records) (v : Zval) :
    ItemFrom env records (.arr (sCreateResultArray env r.key v (sUint64ToZval r.cas) r.flags)) := by
  intro token ht
  unfold sCreateResultArray at ht ⊢
  by_cases hcas : zLvalP env.zend (sUint64ToZval r.cas) ≠ 0
  · rw [if_pos hcas] at ht ⊢
    obtain rfl := Option.some.inj (show some (sUint64ToZval r.cas) = some token from ht)
    exact ⟨r, hr, rfl, rfl, sendsBack env r.cas⟩
  · rw [if_neg hcas] at ht
    cases ht

/-! ## the apply functions -/

section
variable {Q : HashTable → Prop}

theorem keepsFor_sGetApplyFn :
    KeepsFor (fun z => TokenFrom env records z fun _ => True) Q records (sGetApplyFn true) :=
  keepsFor_of_pure _ rfl fun _ _ _ hr v => tokenFrom_extendedZval hr v trivial

/-- the entries put in to keep the order -/
theorem snd_of_mem_sHashToKeysNulls {zend : Zend} (hashIn : HashTable) {a : HashTable}
    (ha : ∀ e ∈ a, e.2 = .null) {e : ArrKey × Zval}
    (he : e ∈ hashIn.foldl (fun a e => zendSymtableUpdate a (zvalGetString zend e.2) .null) a) :
    e.2 = .null := by
  induction hashIn generalizing a with
  | nil => exact ha e he
  | cons x hashIn ih =>
    refine ih (fun e he => ?_) he
    rcases mem_zendHashUpdate he with rfl | he
    · rfl
    · exact ha e he

variable (env records) in
/-- every entry of an array of items by key -/
def EntriesFrom (a : HashTable) : Prop :=
  ∀ e ∈ a, TokenFrom env records e.2 fun r => e.1 = zendHandleNumeric r.key

theorem keepsFor_sGetMultiApplyFn :
    KeepsFor (EntriesFrom env records) Q records (sGetMultiApplyFn true) :=
  keepsFor_of_pure _ rfl fun acc hacc r hr v e he => by
    rcases mem_zendHashUpdate he with rfl | he
    · exact tokenFrom_extendedZval hr v rfl
    · exact hacc e he

theorem keepsFor_sFetchApply :
    KeepsFor (fun a => ItemFrom env records (.arr a)) Q records (sFetchApply env) :=
  keepsFor_of_pure _ rfl fun _ _ _ hr v => itemFrom_sCreateResultArray hr v

theorem keepsFor_sFetchAllApply :
    KeepsFor (fun a => ∀ e ∈ a, ItemFrom env records e.2) Q records (sFetchAllApply env) :=
  keepsFor_of_pure _ rfl fun acc hacc r hr v e he => by
    rcases List.mem_append.mp he with he | he
    · exact hacc e he
    · obtain rfl := List.mem_singleton.mp he
      exact itemFrom_sCreateResultArray hr v

theorem keepsFor_sResultCallbackApply :
    KeepsFor (fun _ => True) (fun item => ItemFrom env records (.arr item)) records
      (sResultCallbackApply env) := by
  intro acc _ r hr v s
  unfold sResultCallbackApply
  rw [Cmd.sat_get_bind, Cmd.sat_req_bind]
  refine ⟨itemFrom_sCreateResultArray hr v, fun ans => ?_⟩
  rw [Cmd.sat_modify_bind]
  have hsub : s.memc.stream.pending.drop ans.fetched ⊆ s.memc.stream.pending :=
    List.drop_subset _ _
  by_cases hran : ans.ran = true
  · rw [if_pos hran]
    exact ⟨trivial, hsub⟩
  · rw [if_neg hran]
    exact ⟨trivial, fun _ => ⟨trivial, hsub⟩⟩

end

/-! ## the methods -/

section
variable {σ : Type} {h : Handler Call Ans σ} {s s' : State} {w w' : σ} {z : Zval}

theorem exec_endOfGet {value : Zval}
    (hx : Cmd.exec h (phpMemcGetImpl.endOfGet value) s w = (.done z s', w')) :
    z = .bool false ∨ z = value := by
  unfold phpMemcGetImpl.endOfGet at hx
  rw [Cmd.exec_get_bind] at hx
  cases herror : sMemcStatusHasError s with
  | true =>
    rw [herror] at hx
    cases hx
    exact .inl rfl
  | false =>
    rw [herror] at hx
    cases hx
    exact .inr rfl

/-- a value that no cache callback has filled in -/
theorem tokenFrom_get {serverKey : Option Bytes} {key : Bytes} {hasCallback : Bool}
    (hx : Cmd.exec h (phpMemcGetImpl env serverKey key hasCallback true) s w = (.done z s', w'))
    (hfill : ∀ e ∈ Cmd.log h (phpMemcGetImpl env serverKey key hasCallback true) s w,
      e.req.isFill = false) :
    TokenFrom env
      (answered (Cmd.log h (phpMemcGetImpl env serverKey key hasCallback true) s w)) z
      fun _ => True := by
  unfold phpMemcGetImpl sMemcSetStatus checkKeyOr at hx hfill ⊢
  rw [Cmd.exec_modify_bind, Cmd.exec_get_bind] at hx
  rw [Cmd.log_modify_bind, Cmd.log_get_bind] at hfill ⊢
  generalize { s with rescode := .success, memcErrno := 0 } = s₀ at hx hfill ⊢
  by_cases hkey : memcCheckKey s₀.memc key = true
  · rw [if_pos hkey] at hx hfill ⊢
    obtain ⟨⟨ok, value⟩, s₁, w₁, hmget, hx, hlog⟩ := Cmd.run_bind_inv hx
    rw [hlog] at hfill ⊢
    have hvalue := (run_phpMemcMgetApply env h (P := fun z => TokenFrom env
        (answered (Cmd.log h (phpMemcMgetApply env serverKey (sKeyToKeys env.zend key)
          (some (sGetApplyFn true)) true .null) s₀ w)) z fun _ => True) (Q := fun _ => True) hmget
      (by rintro _ ⟨⟩; exact keepsFor_sGetApplyFn) (.of_none rfl)).1
    refine TokenFrom.mono ?_ (answered_append _ _ ▸ List.subset_append_left _ _)
    rw [Cmd.exec_get_bind] at hx
    rw [Cmd.log_get_bind] at hfill
    by_cases hc : (!ok && s₁.rescode == .notfound && hasCallback) = true
    · -- the first request would be the callback
      rw [if_pos hc] at hfill
      cases hfill _ (List.mem_append_right _ List.mem_cons_self)
    · rw [if_neg hc] at hx
      rcases exec_endOfGet hx with rfl | rfl
      · exact .of_none rfl
      · exact hvalue
  · rw [if_neg hkey] at hx
    cases hx
    exact .of_none rfl

theorem entriesFrom_getMulti {serverKey : Option Bytes} {keys : HashTable} {preserveOrder : Bool}
    {a : HashTable} (hx : Cmd.exec h (phpMemcGetMultiImpl env serverKey keys preserveOrder true) s w =
      (.done (.arr a) s', w')) :
    EntriesFrom env
      (answered (Cmd.log h (phpMemcGetMultiImpl env serverKey keys preserveOrder true) s w)) a := by
  unfold phpMemcGetMultiImpl sMemcSetStatus at hx ⊢
  by_cases hkeys : keys = []
  · rw [if_pos hkeys] at hx
    cases hx
    exact fun _ he => nomatch he
  · rw [if_neg hkeys] at hx ⊢
    rw [Cmd.exec_modify_bind] at hx
    rw [Cmd.log_modify_bind]
    obtain ⟨⟨ok, acc⟩, s₁, w₁, hmget, hx, hlog⟩ := Cmd.run_bind_inv hx
    rw [hlog, answered_append]
    have hnulls : ∀ records, EntriesFrom env records
        (if preserveOrder then sHashToKeysNulls env.zend keys else []) := by
      intro records e he
      cases preserveOrder with
      | false => cases he
      | true =>
        refine .of_none ?_
        rw [snd_of_mem_sHashToKeysNulls (a := []) keys (fun _ hn => nomatch hn) he]
        rfl
    have hacc := (run_phpMemcMgetApply env h (Q := fun _ => True) hmget
      (by rintro _ ⟨⟩; exact keepsFor_sGetMultiApplyFn) (hnulls _)).1
    have hresult : a = acc := by
      rw [Cmd.exec_get_bind] at hx
      split at hx
      · cases hx
        rfl
      · split at hx
        · cases hx
        · cases hx
          rfl
    rw [hresult]
    exact fun e he => (hacc e he).mono (List.subset_append_left _ _)

theorem itemFrom_getDelayed {serverKey : Option Bytes} {keys : HashTable}
    {withCas hasCallback : Bool}
    (hx : Cmd.exec h (phpMemcGetDelayedImpl env serverKey keys withCas hasCallback) s w =
      (.done z s', w')) :
    ∀ e ∈ Cmd.log h (phpMemcGetDelayedImpl env serverKey keys withCas hasCallback) s w,
      e.req.Shows fun item => ItemFrom env
        (answered (Cmd.log h (phpMemcGetDelayedImpl env serverKey keys withCas hasCallback) s w))
        (.arr item) := by
  unfold phpMemcGetDelayedImpl sMemcSetStatus at hx ⊢
  rw [Cmd.exec_modify_bind] at hx
  rw [Cmd.log_modify_bind]
  obtain ⟨⟨ok, acc⟩, s₁, w₁, hmget, hx, hlog⟩ := Cmd.run_bind_inv hx
  rw [hlog.trans (List.append_nil _)]
  refine (run_phpMemcMgetApply env h (P := fun _ => True) hmget ?_ trivial).2
  cases hasCallback with
  | false => exact fun _ hf => nomatch hf
  | true =>
    rintro _ ⟨⟩
    exact keepsFor_sResultCallbackApply

theorem itemFrom_fetch (hx : Cmd.exec h (memcachedFetch env) s w = (.done z s', w')) :
    ItemFrom env (s.memc.stream.pending.map Prod.snd) z := by
  unfold memcachedFetch sMemcSetStatus at hx
  rw [Cmd.exec_modify_bind] at hx
  obtain ⟨⟨status, item⟩, s₁, w₁, hfetch, hx⟩ := Cmd.exec_bind_inv hx
  have hitem : Cmd.Sat (Call.Shows fun _ => True)
      (fun r _ => ItemFrom env (s.memc.stream.pending.map Prod.snd) (.arr r.2))
      (phpMemcResultApply env (sFetchApply env) true [])
      { s with rescode := .success, memcErrno := 0 } :=
    sat_phpMemcResultApply env keepsFor_sFetchApply true (fun _ => List.mem_map_of_mem)
      (.of_none rfl)
  obtain ⟨ok, s₂, w₂, -, hx⟩ := Cmd.exec_bind_inv hx
  cases ok with
  | true => cases hx; exact hitem.exec hfetch
  | false => cases hx; exact .of_none rfl

theorem itemFrom_fetchAll {a : HashTable}
    (hx : Cmd.exec h (memcachedFetchAll env) s w = (.done (.arr a) s', w')) :
    ∀ e ∈ a, ItemFrom env (s.memc.stream.pending.map Prod.snd) e.2 := by
  unfold memcachedFetchAll sMemcSetStatus at hx
  rw [Cmd.exec_modify_bind] at hx
  obtain ⟨⟨status, items⟩, s₁, w₁, hfetch, hx⟩ := Cmd.exec_bind_inv hx
  have hitems : Cmd.Sat (Call.Shows fun _ => True)
      (fun r _ => ∀ e ∈ r.2, ItemFrom env (s.memc.stream.pending.map Prod.snd) e.2)
      (phpMemcResultApply env (sFetchAllApply env) false [])
      { s with rescode := .success, memcErrno := 0 } :=
    sat_phpMemcResultApply env keepsFor_sFetchAllApply false (fun _ => List.mem_map_of_mem) nofun
  obtain ⟨ok, s₂, w₂, -, hx⟩ := Cmd.exec_bind_inv hx
  cases ok with
  | true => cases hx; exact hitems.exec hfetch
  | false => cases hx

end
end

/-- what becomes of the tokens -/
structure TokensSurvive (env : Env) : Prop where
  /-- the conversions -/
  converted : ∀ c, sZvalToUint64 env (sUint64ToZval c) = some c
  /-- `get` with `GET_EXTENDED`, unless a cache callback has filled the value in -/
  get : ∀ {σ : Type} (h : Handler Call Ans σ) (serverKey : Option Bytes) (key : Bytes)
    (hasCallback : Bool) (s s' : State) (w w' : σ) (z : Zval),
    Cmd.exec h (phpMemcGetImpl env serverKey key hasCallback true) s w = (.done z s', w') →
    (∀ e ∈ Cmd.log h (phpMemcGetImpl env serverKey key hasCallback true) s w,
      e.req.isFill = false) →
    TokenFrom env
      (answered (Cmd.log h (phpMemcGetImpl env serverKey key hasCallback true) s w)) z fun _ => True
  getMulti : ∀ {σ : Type} (h : Handler Call Ans σ) (serverKey : Option Bytes) (keys : HashTable)
    (preserveOrder : Bool) (s s' : State) (w w' : σ) (a : HashTable),
    Cmd.exec h (phpMemcGetMultiImpl env serverKey keys preserveOrder true) s w =
      (.done (.arr a) s', w') →
    EntriesFrom env
      (answered (Cmd.log h (phpMemcGetMultiImpl env serverKey keys preserveOrder true) s w)) a
  /-- the items given to the callback of `getDelayed` -/
  getDelayed : ∀ {σ : Type} (h : Handler Call Ans σ) (serverKey : Option Bytes) (keys : HashTable)
    (withCas hasCallback : Bool) (s s' : State) (w w' : σ) (z : Zval),
    Cmd.exec h (phpMemcGetDelayedImpl env serverKey keys withCas hasCallback) s w =
      (.done z s', w') →
    ∀ e ∈ Cmd.log h (phpMemcGetDelayedImpl env serverKey keys withCas hasCallback) s w,
      e.req.Shows fun item => ItemFrom env
        (answered (Cmd.log h (phpMemcGetDelayedImpl env serverKey keys withCas hasCallback) s w))
        (.arr item)
  fetch : ∀ {σ : Type} (h : Handler Call Ans σ) (s s' : State) (w w' : σ) (z : Zval),
    Cmd.exec h (memcachedFetch env) s w = (.done z s', w') →
    ItemFrom env (s.memc.stream.pending.map Prod.snd) z
  fetchAll : ∀ {σ : Type} (h : Handler Call Ans σ) (s s' : State) (w w' : σ) (a : HashTable),
    Cmd.exec h (memcachedFetchAll env) s w = (.done (.arr a) s', w') →
    ∀ e ∈ a, ItemFrom env (s.memc.stream.pending.map Prod.snd) e.2

/-- **CAS tokens survive the trip through PHP.** -/
theorem casToken_survives (env : Env) : TokensSurvive env where
  converted := sZvalToUint64_sUint64ToZval env
  get _ _ _ _ _ _ _ _ _ hx hfill := tokenFrom_get hx hfill
  getMulti _ _ _ _ _ _ _ _ _ hx := entriesFrom_getMulti hx
  getDelayed _ _ _ _ _ _ _ _ _ _ hx := itemFrom_getDelayed hx
  fetch _ _ _ _ _ _ hx := itemFrom_fetch hx
  fetchAll _ _ _ _ _ _ hx := itemFrom_fetchAll hx

/-- a record with the largest CAS value -/
def topRecord : Result := ⟨ascii ['b'], .bytes (ascii ['1']), memcValIsLong, 18446744073709551615⟩

/-- `get` on it, and its token back to the server -/
theorem casToken_survives_get : ∃ token s',
    Cmd.exec (serving ⟨[(.success, topRecord)], .end_⟩)
        (phpMemcGetImpl plainEnv none (ascii ['b']) false true) (newObject iniDefaults 1) () =
      (.done (extendedZval (.long 1) token 0) s', ()) ∧
    SendsBack plainEnv token 18446744073709551615 := by
  let h := serving ⟨[(.success, topRecord)], .end_⟩
  let m := phpMemcGetImpl plainEnv none (ascii ['b']) false true
  let s := newObject iniDefaults 1
  obtain ⟨s', hx⟩ : ∃ s', Cmd.exec h m s () =
      (.done (extendedZval (.long 1) (sUint64ToZval topRecord.cas) 0) s', ()) := ⟨_, rfl⟩
  have hfill : (Cmd.log h m s ()).all (fun e => !e.req.isFill) = true := rfl
  have hrecords : answered (Cmd.log h m s ()) = [topRecord] := rfl
  have hget := (casToken_survives plainEnv).get h none (ascii ['b']) false s s' () () _ hx
    fun e he => by simpa using List.all_eq_true.mp hfill e he
  obtain ⟨r, hr, -, -, hback⟩ := hget (sUint64ToZval topRecord.cas) rfl
  change r ∈ answered (Cmd.log h m s ()) at hr
  rw [hrecords, List.mem_singleton] at hr
  subst hr
  exact ⟨_, s', hx, hback⟩

end PhpMemcached
