import PhpMemcached.PoolRead
import PhpMemcached.RoundTrip

/-!
# The read-through cache

* `supplied`       what a callback that returned true puts into the cache: value and expiration;
* `Filled`         the run of a `get` that missed, asked the callback and wrote what it supplied;
* `ReadsThrough`   the contract: the write went where the read looked, with the expiration the
                   callback gave, and the next such read is a hit with the value.

The fill is a plain write with an expiration of its own (`fillExpiration`), so the contract is kept
exactly when that is the server, and that the expiration, of the read.
-/

namespace PhpMemcached
open Ascii Requests

/-- what the callback supplies, if it returned true: in extended mode the element `value` of an
array, without an expiration -/
def supplied (env : Env) (extended : Bool) (r : CacheCallbackAns) : Option (Zval × Int64) :=
  if r.ran && r.isTrue then
    if extended then
      match r.value with
      | .arr a => (zendHashFind a valueName).map (·, 0)
      | _ => none
    else some (r.value, zvalGetLong env.zend r.expiration)
  else none

/-- the expiration of the write -/
def fillExpiration (env : Env) (extended : Bool) (r : CacheCallbackAns) : Int64 :=
  if extended then
    match r.value with
    | .arr a => casExpiration env a
    | _ => 0
  else zvalGetLong env.zend r.expiration

section
variable (env : Env) (pool : Pool) (rest : Handler Call Ans Net)

/-- a `get` that is not a hit: the callback is asked, answers `r`, and the write of what it
supplied succeeds, with the deliveries `ds` -/
structure Filled (serverKey : Option Bytes) (key : Bytes) (extended : Bool) (s : State)
    (net : Net) (r : CacheCallbackAns) (value : Zval) (expiration : Int64) (s' : State)
    (net' : Net) (ds : List Delivery) : Prop where
  valid : ValidKey s.memc key
  run : ∃ v s₁ net₁ net₂,
    -- the read misses
    Cmd.exec (pool.handler rest) (phpMemcMgetApply env serverKey (sKeyToKeys env.zend key)
      (some (sGetApplyFn extended)) extended .null) { s with rescode := .success, memcErrno := 0 }
      net = (.done (false, v) s₁, net₁) ∧ s₁.rescode = .notfound ∧
    -- the callback is asked
    pool.handler rest (.cacheCallback s₁ extended key v) net₁ = (r, net₂) ∧
    -- what it supplied is written
    Cmd.exec (pool.handler rest) (sMemcWriteZval env .set none key (some value)
      (fillExpiration env extended r)) r.object net₂ = (.done true s', net') ∧
    net'.trace = net₂.trace ++ ds
  supplied : supplied env extended r = some (value, expiration)

/-- the contract of a fill with `value` and `expiration`, made by an object that is left as `s'` -/
structure ReadsThrough (serverKey : Option Bytes) (key : Bytes) (extended : Bool) (value : Zval)
    (expiration : Int64) (s' : State) (net' : Net) (ds : List Delivery) : Prop where
  /-- the write was made where the read looks, with the expiration of the callback -/
  stored : ∃ d ∈ ds, d.applied = true ∧ d.loc = pool.loc s'.memc serverKey key ∧
    ∃ payload flags, net'.items d.loc = some ⟨payload, flags, expiration⟩
  /-- a later read of the same key, by the object or one with its prefix and serializer, with no
  write or expiry in between, is a hit with the value -/
  hit : ∀ (s₂ : State) (net₂ : Net) (hasCallback : Bool), ValidKey s₂.memc key →
    s₂.memc.prefixKey = s'.memc.prefixKey →
    s₂.memc.userData.serializer = s'.memc.userData.serializer →
    net₂.items = net'.items → pool.readFate net₂.reads = none →
    ∃ cas flags s₃ net₃, Cmd.exec (pool.handler rest)
      (phpMemcGetImpl env serverKey key hasCallback extended) s₂ net₂ =
        (.done (hitZval extended value cas flags) s₃, net₃) ∧ s₃.rescode = .success

variable {env pool rest} {serverKey : Option Bytes} {key : Bytes} {extended : Bool} {s s' : State}
  {net net' : Net} {r : CacheCallbackAns} {value : Zval} {expiration : Int64} {ds : List Delivery}

/-- the callback was run, its result is true, and value and expiration are in its arguments -/
theorem supplied_eq {env : Env} {extended : Bool} {r : CacheCallbackAns} {value : Zval}
    {expiration : Int64} (h : supplied env extended r = some (value, expiration)) :
    (r.ran = true ∧ r.isTrue = true) ∧
      ((extended = false ∧ value = r.value ∧ expiration = zvalGetLong env.zend r.expiration) ∨
        (extended = true ∧ expiration = 0 ∧ ∃ a, r.value = .arr a ∧
          zendHashFind a valueName = some value)) := by
  unfold supplied at h
  split at h
  · rename_i hran
    refine ⟨(Bool.and_eq_true _ _).mp hran, ?_⟩
    cases extended with
    | false =>
      cases h
      exact .inl ⟨rfl, rfl, rfl⟩
    | true =>
      rw [if_pos rfl] at h
      split at h
      · rename_i a ha
        obtain ⟨rv, hrv, hpair⟩ := Option.map_eq_some_iff.mp h
        cases hpair
        exact .inr ⟨rfl, rfl, a, ha, hrv⟩
      · cases h
  · cases h

/-- the fill, once the callback has answered -/
theorem exec_sInvokeCacheCallback {h : Handler Call Ans Net} {s₁ : State} {net₁ net₂ : Net}
    {v : Zval} (hask : h (.cacheCallback s₁ extended key v) net₁ = (r, net₂))
    (hsup : supplied env extended r = some (value, expiration))
    (hwrite : Cmd.exec h (sMemcWriteZval env .set none key (some value)
      (fillExpiration env extended r)) r.object net₂ = (.done true s', net')) :
    Cmd.exec h (sInvokeCacheCallback env extended key v) s₁ net₁ =
      (.done (true, r.value) s', net') := by
  obtain ⟨⟨hran, htrue⟩, hmode⟩ := supplied_eq hsup
  unfold sInvokeCacheCallback
  rw [Cmd.exec_get_bind, Cmd.exec_req_bind, hask]
  dsimp only
  rw [Cmd.exec_modify_bind, if_pos hran, if_pos htrue]
  unfold fillExpiration at hwrite
  rcases hmode with ⟨rfl, rfl, -⟩ | ⟨rfl, -, a, ha, hvalue⟩
  · rw [if_neg Bool.false_ne_true] at hwrite ⊢
    rw [Cmd.exec_bind_done hwrite]
    rfl
  · rw [if_pos rfl, ha] at hwrite
    dsimp only at hwrite
    rw [if_pos rfl, ha]
    dsimp only
    rw [hvalue]
    dsimp only
    rw [Cmd.exec_bind_done hwrite]
    rfl

/-- the whole `get` of such a run ends with the fill, and returns what the callback left -/
theorem Filled.exec_get
    (h : Filled env pool rest serverKey key extended s net r value expiration s' net' ds) :
    Cmd.exec (pool.handler rest) (phpMemcGetImpl env serverKey key true extended) s net =
      (.done r.value s', net') := by
  obtain ⟨hkey, ⟨v, s₁, net₁, net₂, hmiss, hcode, hask, hwrite, -⟩, hsup⟩ := h
  have hcheck : memcCheckKey s.memc key = true := (memcCheckKey_iff _ _).mpr hkey
  have hinvoke := exec_sInvokeCacheCallback hask hsup hwrite
  have hcond : (!false && s₁.rescode == .notfound && true) = true := by
    rw [hcode]
    rfl
  obtain ⟨payload, flags, ds', -, hwrote⟩ := wrote_of_sMemcWriteZval env rfl hwrite
  unfold phpMemcGetImpl sMemcSetStatus checkKeyOr
  rw [Cmd.exec_modify_bind, Cmd.exec_get_bind, if_pos hcheck, Cmd.exec_bind_done hmiss]
  show Cmd.exec (pool.handler rest) (if (!false && s₁.rescode == .notfound && true) = true then
    sInvokeCacheCallback env extended key v >>= fun r => if !r.1 then pure (.bool false)
      else phpMemcGetImpl.endOfGet r.2 else _ : MemcM Zval) s₁ net₁ = _
  rw [if_pos hcond, Cmd.exec_bind_done hinvoke]
  show (Outcome.done (if sMemcStatusHasError s' then Zval.bool false else r.value) s', net') = _
  rw [sMemcStatusHasError, show sMemcachedReturnIsError s'.rescode true = false from
    (Bool.not_eq_true' _).mp hwrote.ok.symm]
  rfl

theorem Filled.readsThrough_iff
    (h : Filled env pool rest serverKey key extended s net r value expiration s' net' ds)
    (hcodec : ReadsBack env env r.object r.object.memc.userData.serializer value) :
    ReadsThrough env pool rest serverKey key extended value expiration s' net' ds ↔
      (∀ k ∈ serverKey, pool.route k = pool.route key) ∧
        (extended = true → ∀ a cas, r.value = .arr a → zendHashFind a casName = some cas →
          zLvalP env.zend cas = 0) := by
  obtain ⟨hkey, ⟨v, s₁, net₁, net₂, -, -, -, hwrite, htrace⟩, hsup⟩ := h
  obtain ⟨payload, flags, ds', hout, hwrote⟩ := wrote_of_sMemcWriteZval env rfl hwrite
  obtain rfl : ds' = ds := List.append_cancel_left (hwrote.updates.trace.symm.trans htrace)
  -- some delivery was applied, so the item is there
  have htally := hwrote.tally
  rw [Tally, (Bool.not_eq_true' _).mp hwrote.ok.symm] at htally
  have hitem : net'.items (pool.loc r.object.memc none key) =
      some ⟨payload, flags, fillExpiration env extended r⟩ := by
    rw [hwrote.updates.items, Function.update_self, htally]
    exact iterate_set _ _ _ _ _
  have hserver : pool.loc s'.memc serverKey key = pool.loc r.object.memc none key ↔
      ∀ k ∈ serverKey, pool.route k = pool.route key := by
    rw [hwrote.memc, Pool.loc, Pool.loc, Loc.mk.injEq, and_iff_left rfl]
    cases serverKey with
    | none => exact iff_of_true rfl nofun
    | some k => exact ⟨fun h k' hk' => by cases hk'; exact h, fun h => h k rfl⟩
  have hexp : fillExpiration env extended r = expiration ↔
      (extended = true → ∀ a cas, r.value = .arr a → zendHashFind a casName = some cas →
        zLvalP env.zend cas = 0) := by
    rcases (supplied_eq hsup).2 with ⟨rfl, -, rfl⟩ | ⟨rfl, rfl, a, ha, -⟩
    · exact iff_of_true rfl fun h => absurd h Bool.false_ne_true
    · unfold fillExpiration
      rw [if_pos rfl, ha]
      dsimp only [casExpiration]
      cases hcas : zendHashFind a casName with
      | none =>
        refine iff_of_true rfl fun _ a' cas' ha' hcas' => ?_
        cases ha'
        rw [hcas] at hcas'
        cases hcas'
      | some cas =>
        refine ⟨fun h _ a' cas' ha' hcas' => ?_, fun h => h rfl a cas rfl hcas⟩
        cases ha'
        rw [hcas] at hcas'
        cases hcas'
        exact h
  rw [← hserver, ← hexp]
  constructor
  · intro h
    obtain ⟨d, hd, happlied, hloc, p, f, hstored⟩ := h.stored
    rw [hwrote.updates.loc d hd] at hloc hstored
    refine ⟨hloc.symm, ?_⟩
    rw [hitem] at hstored
    cases hstored
    rfl
  · rintro ⟨hloc, rfl⟩
    obtain ⟨d, hd, happlied⟩ := List.countP_pos_iff.mp
      (show 0 < ds'.countP (·.applied) by rw [htally]; exact Nat.succ_pos _)
    refine ⟨⟨d, hd, happlied, ?_, payload, flags, ?_⟩, ?_⟩
    · rw [hloc]
      exact hwrote.updates.loc d hd
    · rw [hwrote.updates.loc d hd]
      exact hitem
    · intro s₂ net₂ hasCallback hkey₂ hprefix hser hitems hread
      have hloc₂ : pool.loc s₂.memc serverKey key = pool.loc s'.memc serverKey key := by
        rw [Pool.loc, Pool.loc, Memc.fullKey, Memc.fullKey, hprefix]
      have hitem₂ : net₂.items (pool.loc s₂.memc serverKey key) =
          some ⟨payload, flags, fillExpiration env extended r⟩ := by
        rw [hloc₂, hloc, hitems, hitem]
      have hdec : sMemcachedResultToZval env s₂.memc.userData.serializer (.bytes payload) flags =
          .plain value := by
        rw [hser, hwrote.memc]
        exact hcodec payload flags hout
      obtain ⟨cas, s₃, net₃, hx, hcode, -⟩ :=
        exec_phpMemcGetImpl_hit env pool rest hasCallback extended hkey₂ hread hitem₂ hdec
      exact ⟨cas, flags, s₃, net₃, hx, hcode⟩

/-- **When a `get` reads through.** A call whose callback supplies a value that is written returns
what the callback left. It keeps the contract if and only if the key has the server the read asks,
and a `cas` element, which the write takes for an expiration, is 0. -/
theorem get_readsThrough_iff
    (h : Filled env pool rest serverKey key extended s net r value expiration s' net' ds)
    (hcodec : ReadsBack env env r.object r.object.memc.userData.serializer value) :
    Cmd.exec (pool.handler rest) (phpMemcGetImpl env serverKey key true extended) s net =
        (.done r.value s', net') ∧
      (ReadsThrough env pool rest serverKey key extended value expiration s' net' ds ↔
        (∀ k ∈ serverKey, pool.route k = pool.route key) ∧
          (extended = true → ∀ a cas, r.value = .arr a → zendHashFind a casName = some cas →
            zLvalP env.zend cas = 0)) :=
  ⟨h.exec_get, h.readsThrough_iff hcodec⟩

end

/-! ## two servers -/

/-- a pool of two servers: the server key `s` has one of its own -/
def twoServers : Pool where
  route k := if k = ascii ['s'] then 1 else 0
  count _ _ _ _ := .error .clientError
  fate _ := .served
  readFate _ := none
  cas _ _ := 0

/-- a callback that supplies the value `v` -/
def supplying (object : State) : CacheCallbackAns := ⟨true, true, .str (ascii ['v']), .null, object⟩

def supplyingV : Handler Call Ans Net
  | .cacheCallback object _ _ _, net => (supplying object, net)
  | c, net => calls c net

/-- the client after the read, and the pool after the fill -/
def missed : State := { newObject iniDefaults 2 with rescode := .notfound, memcErrno := 0 }

def filledNet : Net :=
  (twoServers.store (.store missed.memc .set (ascii ['k']) (ascii ['v']) 0 0)
    ⟨0, ascii ['k']⟩ .set (ascii ['v']) 0 0 { emptyNet with reads := 1 }).2

theorem readsBack_v : ReadsBack plainEnv plainEnv missed missed.memc.userData.serializer
    (.str (ascii ['v'])) := readsBack_of_storable plainEnv_lossless (.str _ (by decide))

theorem filled_v (serverKey : Option Bytes) :
    Filled plainEnv twoServers supplyingV serverKey (ascii ['k']) false (newObject iniDefaults 2)
      emptyNet (supplying missed) (.str (ascii ['v'])) 0
      { missed with rescode := .success } filledNet filledNet.trace where
  valid := (memcCheckKey_iff _ _).mp rfl
  run := by
    cases serverKey <;>
      exact ⟨.null, missed, { emptyNet with reads := 1 }, { emptyNet with reads := 1 }, rfl, rfl,
        rfl, rfl, rfl⟩
  supplied := rfl

/-- the theorem on a read without a server key -/
theorem get_readsThrough_plain :
    Cmd.exec (twoServers.handler supplyingV) (phpMemcGetImpl plainEnv none (ascii ['k']) true false)
        (newObject iniDefaults 2) emptyNet =
      (.done (supplying missed).value { missed with rescode := .success }, filledNet) ∧
    (ReadsThrough plainEnv twoServers supplyingV none (ascii ['k']) false (.str (ascii ['v'])) 0
        { missed with rescode := .success } filledNet filledNet.trace ↔
      (∀ k ∈ (none : Option Bytes), twoServers.route k = twoServers.route (ascii ['k'])) ∧
        (false = true → ∀ a cas, (supplying missed).value = .arr a →
          zendHashFind a casName = some cas → zLvalP plainEnv.zend cas = 0)) :=
  get_readsThrough_iff (filled_v none) readsBack_v

/-- the failing case: the fill of a read by server key goes to the server of the key -/
theorem getByKey_fills_elsewhere :
    ¬ ∀ (env : Env) (pool : Pool) (rest : Handler Call Ans Net) (serverKey : Option Bytes)
      (key : Bytes) (extended : Bool) (s s' : State) (net net' : Net) (r : CacheCallbackAns)
      (value : Zval) (expiration : Int64) (ds : List Delivery),
      Filled env pool rest serverKey key extended s net r value expiration s' net' ds →
      ReadsBack env env r.object r.object.memc.userData.serializer value →
      ReadsThrough env pool rest serverKey key extended value expiration s' net' ds := by
  intro hclaim
  have hfilled := filled_v (some (ascii ['s']))
  have hreads := hclaim _ _ _ _ _ _ _ _ _ _ _ _ _ _ hfilled readsBack_v
  have hroute := ((hfilled.readsThrough_iff readsBack_v).mp hreads).1 (ascii ['s']) rfl
  revert hroute
  decide

end PhpMemcached
