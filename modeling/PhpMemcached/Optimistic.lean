import PhpMemcached.Lib.Chronicle
import PhpMemcached.Lib.Rely
import PhpMemcached.Pool
import PhpMemcached.TokenTrip

/-!
# Updates with CAS tokens lose nothing

* `Store`             what the items have held, and their CAS values;
* `Store.Serves`      what is relied on of libmemcached and the servers;
* `keeps_getExtended`, `keeps_cas`   what `get` with `GET_EXTENDED` and `cas` learn, whatever the
                      others do meanwhile;
* `Owner`, `Deed`     an object with the notes of its owner, who may do anything with it;
* `cas_losesNothing`  in every run of any number of clients, a `cas` replaces what was read with its
                      token, and no other `cas` replaces that.

Expirations, evictions and other programs are the drift of the store.
-/

namespace PhpMemcached
open Ascii Requests Chronicle

/-! ## the store -/

/-- a version: the CAS value, payload and flags, and the client that wrote it, if it was one -/
abbrev ItemVersion (T : Type) := Version UInt64 (Bytes × Flags) (Option T)

/-- what each item has held; a CAS value is given once to an item, and 0 never -/
structure Store (T : Type) where
  held : Loc → History UInt64 (Bytes × Flags) (Option T)
  nodup : ∀ l, (ids (held l)).Nodup
  pos : ∀ l, ∀ c ∈ ids (held l), c ≠ 0

/-- nothing that was held is forgotten -/
def Store.Grows {T : Type} (g g' : Store T) : Prop := ∀ l, g.held l <:+ g'.held l

/-- where an item is -/
def Memc.loc (memc : Memc) (route : Bytes → Nat) (serverKey : Option Bytes) (key : Bytes) : Loc :=
  ⟨route (serverKey.getD key), memc.fullKey key⟩

/-- an answer is waited for -/
def Memc.Awaits (memc : Memc) : Prop :=
  memcachedBehaviorGet memc .noreply = 0 ∧ memcachedBehaviorGet memc .bufferRequests = 0

section
variable {T : Type}

/-- a result is what an item holds; it comes with the CAS value if the client asks for these -/
def Store.Reads (g : Store T) (loc : Bytes → Loc) (memc : Memc) (keys : List Bytes)
    (stream : Stream) : Prop :=
  ∀ e ∈ stream.pending, ∃ key ∈ keys, ∃ v, current (g.held (loc key)) = some v ∧
    e.2.value = .bytes v.value.1 ∧ e.2.flags = v.value.2 ∧
    (memcachedBehaviorGet memc .supportCas ≠ 0 → e.2.cas = v.id)

/-- the version with the CAS value `c` is replaced -/
def Store.Swaps (g : Store T) (t : T) (l : Loc) (c : UInt64) (payload : Bytes) (flags : Flags)
    (g' : Store T) : Prop :=
  ∃ v id, current (g.held l) = some v ∧ v.id = c ∧
    g'.held l = some ⟨id, (payload, flags), some t⟩ :: g.held l

/-- a request is served, or fails: reads tell what is held, a `cas` that succeeds has found its CAS
value, and `SUPPORT_CAS` is set. A CAS value of 0 is none. -/
def Store.Serves (route : T → Bytes → Nat) (t : T) : (c : Call) → Ans c → Store T → Store T → Prop
  | .mget memc keys, r, g, g' =>
    g.Grows g' ∧ g.Reads (memc.loc (route t) none) memc keys r.2
  | .mgetByKey memc serverKey keys, r, g, g' =>
    g.Grows g' ∧ g.Reads (memc.loc (route t) (some serverKey)) memc keys r.2
  | .cas memc key payload _ flags c, r, g, g' =>
    g.Grows g' ∧ (memc.Awaits → sMemcachedReturnIsError r true = false → c ≠ 0 →
      g.Swaps t (memc.loc (route t) none key) c payload flags g')
  | .casByKey memc serverKey key payload _ flags c, r, g, g' =>
    g.Grows g' ∧ (memc.Awaits → sMemcachedReturnIsError r true = false → c ≠ 0 →
      g.Swaps t (memc.loc (route t) (some serverKey) key) c payload flags g')
  | .behaviorSet memc flag data, r, g, g' =>
    g.Grows g' ∧ (flag = .supportCas → r.2 = Function.update memc.behavior .supportCas data)
  | _, _, g, g' => g.Grows g'

theorem Store.Grows.refl (g : Store T) : g.Grows g := fun _ => List.suffix_refl _

theorem Store.Grows.trans {g g' g'' : Store T} (h : g.Grows g') (h' : g'.Grows g'') : g.Grows g'' :=
  fun l => (h l).trans (h' l)

theorem Store.Grows.mem {g g' : Store T} (h : g.Grows g') {l : Loc} {v : ItemVersion T}
    (hv : some v ∈ g.held l) : some v ∈ g'.held l := (h l).subset hv

variable {route : T → Bytes → Nat} {t : T} {c : Call} {r : Ans c} {g g' : Store T}

theorem Store.Serves.grows (h : g.Serves route t c r g') : g.Grows g' := by
  cases c <;> first | exact h | exact h.1

/-- a client, and the store -/
structure View (T : Type) where
  who : T
  store : Store T

/-- the same client, later -/
def View.Before (g g' : View T) : Prop := g'.who = g.who ∧ g.store.Grows g'.store

theorem View.Before.refl (g : View T) : g.Before g := ⟨rfl, .refl g.store⟩

theorem View.Before.trans {g g' g'' : View T} (h : g.Before g') (h' : g'.Before g'') :
    g.Before g'' := ⟨h'.1.trans h.1, h.2.trans h'.2⟩

/-- the others may do anything, of which the store keeps a record -/
def casRules (route : T → Bytes → Nat) : Rules Call Ans (View T) where
  env := View.Before
  guard _ _ := True
  served c r g g' := g'.who = g.who ∧ g.store.Serves route g.who c r g'.store
  refl := View.Before.refl
  trans _ _ _ := View.Before.trans

theorem before_of_served {g g' : View T} (h : (casRules route).served c r g g') : g.Before g' :=
  ⟨h.1, h.2.grows⟩

variable {α : Type} {m : MemcM α} {Q : α → State → Prop} {s : State}

theorem sat_anyCall {φ : Call → Prop} (hm : Cmd.Sat φ Q m s) : Cmd.Sat (fun _ => True) Q m s :=
  hm.mono (fun _ _ => trivial) fun _ _ h => h

/-- what is known of a command whatever the answers -/
theorem keeps_of_sat (hm : Cmd.Sat (fun _ => True) Q m s) {g g₀ : View T} (hg : g₀.Before g) :
    Cmd.Keeps (casRules route) (fun a s' g' => Q a s' ∧ g₀.Before g') m s g :=
  hm.keeps (fun _ _ h h' => h.trans h')
    (fun _ _ _ h => ⟨trivial, fun _ _ hs => h.trans (before_of_served hs)⟩) hg

end

/-! ## what `get` learns -/

/-- what an extended `get` returns for a result that decodes -/
def Result.ShownBy (env : Env) (r : Result) (z : Zval) : Prop :=
  ∃ serializer, (sMemcachedResultToZval env serializer r.value r.flags).ok = true ∧
    z = extendedZval (sMemcachedResultToZval env serializer r.value r.flags).value
      (sUint64ToZval r.cas) r.flags

section
variable (env : Env) {records : Result → Prop} {s : State} {acc : Zval}

/-- nothing yet, or one of the records -/
def Picked (records : Result → Prop) (z : Zval) : Prop :=
  z = .null ∨ ∃ r, records r ∧ r.ShownBy env z

theorem sat_resultToZval_shown (result : Result) (s : State) :
    Cmd.Sat (fun _ => True) (fun z s' => s'.memc = s.memc ∧ ∀ value, z = some value →
        result.ShownBy env (extendedZval value (sUint64ToZval result.cas) result.flags))
      (resultToZval env result) s := by
  unfold resultToZval raise
  rw [Cmd.sat_get_bind, Cmd.sat_modify_bind]
  refine Cmd.Sat.bind (Q := fun _ (s' : State) => s'.memc = s.memc)
    (Cmd.Sat.when (fun _ => ⟨trivial, fun _ => rfl⟩) fun _ => rfl) fun _ s' h => ?_
  refine ⟨h, fun value hvalue => ?_⟩
  split at hvalue
  · rename_i hok
    cases hvalue
    exact ⟨_, hok, rfl⟩
  · cases hvalue

/-- the loop of `get`, by induction on the rounds -/
theorem sat_resultApplyLoop_get (fuel : Nat) (status : Status)
    (hs : ∀ e ∈ s.memc.stream.pending, records e.2) (hacc : Picked env records acc) :
    Cmd.Sat (fun _ => True) (fun r _ => Picked env records r.2)
      (resultApplyLoop env (sGetApplyFn true) false fuel status acc) s := by
  induction fuel generalizing s status with
  | zero => exact hacc
  | succ fuel ih =>
    unfold resultApplyLoop memcachedFetchResult
    rw [bind_assoc, Cmd.sat_get_bind]
    cases hp : s.memc.stream.pending with
    | nil => exact hacc
    | cons e pending =>
      obtain ⟨rc, result⟩ := e
      rw [hp] at hs
      have hresult : records result := hs (rc, result) List.mem_cons_self
      have hrest : ∀ e ∈ pending, records e.2 := fun e he => hs e (List.mem_cons_of_mem _ he)
      show Cmd.Sat _ _ (resultToZval env result >>= _) (s.withStream ⟨pending, s.memc.stream.last⟩)
      refine (sat_resultToZval_shown env result _).bind fun z s' hz => ?_
      obtain ⟨hmemc, hshown⟩ := hz
      have hpending : ∀ e ∈ s'.memc.stream.pending, records e.2 := by
        rw [hmemc]
        exact hrest
      cases z with
      | none =>
        rw [Cmd.sat_get_bind]
        cases s'.exception with
        | true => exact ⟨trivial, fun _ => hacc⟩
        | false => exact ih .someErrors hpending
      | some value => exact .inr ⟨result, hresult, hshown value rfl⟩

/-- the end of the request: its status, and the loop -/
theorem sat_mgetApply_end (switch : Bool) (data : UInt64) (status : Status)
    (hs : ∀ e ∈ s.memc.stream.pending, records e.2) :
    Cmd.Sat (fun _ => True) (fun r _ => Picked env records r.2) (do
      let ok ← sMemcStatusHandleResultCode status
      Cmd.when switch (memcachedBehaviorSet .supportCas data >>= fun _ => pure ())
      if !ok then pure (false, Zval.null)
      else
        let r ← phpMemcResultApply env (sGetApplyFn true) false .null
        let ok ← sMemcStatusHandleResultCode r.1
        pure (ok, r.2)) s := by
  refine (sat_anyCall (keepsStream_handleResultCode status s)).bind fun ok s₁ h₁ => ?_
  refine (sat_anyCall (keepsStream_switch switch data s₁)).bind fun _ s₂ h₂ => ?_
  cases ok with
  | false => exact .inl rfl
  | true =>
    have hs₂ : ∀ e ∈ s₂.memc.stream.pending, records e.2 := by
      rw [h₂, h₁]
      exact hs
    refine Cmd.Sat.bind (sat_resultApplyLoop_get env _ .success hs₂ (.inl rfl)) fun r s₃ hr => ?_
    exact (Cmd.sat_true _ _).bind fun _ _ _ => hr

variable {T : Type} {route : T → Bytes → Nat} {g g₀ : View T} {serverKey : Option Bytes}
  {key : Bytes}

omit env in
/-- `SUPPORT_CAS` is switched on if it is off -/
theorem keeps_switchOn (hg : g₀.Before g) :
    Cmd.Keeps (casRules route) (fun _ s' g' => memcachedBehaviorGet s'.memc .supportCas ≠ 0 ∧
        s'.memc.prefixKey = s.memc.prefixKey ∧ g₀.Before g')
      (Cmd.when (true && memcachedBehaviorGet s.memc .supportCas = 0)
        (memcachedBehaviorSet .supportCas 1 >>= fun _ => pure ())) s g := by
  by_cases hoff : memcachedBehaviorGet s.memc .supportCas = 0
  · rw [hoff]
    intro g₁ h₁
    refine ⟨trivial, fun r g₂ hr g₃ h₃ => ⟨?_, rfl, ?_⟩⟩
    · have hset : r.2 = Function.update s.memc.behavior .supportCas 1 := hr.2.2 rfl
      show r.2 .supportCas ≠ 0
      rw [hset, Function.update_self]
      decide
    · exact ((hg.trans h₁).trans (before_of_served hr)).trans h₃
  · have hon : (true && decide (memcachedBehaviorGet s.memc .supportCas = 0)) = false := by
      simp [hoff]
    rw [hon]
    exact fun g₁ h₁ => ⟨hoff, rfl, hg.trans h₁⟩

/-- a result is a version of the item at `l`, with its CAS value -/
def IsVersion (g : Store T) (l : Loc) (r : Result) : Prop :=
  ∃ v, some v ∈ g.held l ∧ r.value = .bytes v.value.1 ∧ r.flags = v.value.2 ∧ r.cas = v.id

omit env in
theorem keeps_mget (hon : memcachedBehaviorGet s.memc .supportCas ≠ 0) (hg : g₀.Before g) :
    Cmd.Keeps (casRules route) (fun _ s' g' => g₀.Before g' ∧ ∀ e ∈ s'.memc.stream.pending,
        IsVersion g'.store (s.memc.loc (route g.who) serverKey key) e.2)
      (memcachedMget serverKey [key]) s g := by
  have hreads : ∀ {loc : Bytes → Loc} {stream : Stream} {g₁ g' : View T},
      g₁.store.Reads loc s.memc [key] stream → g₁.Before g' →
      ∀ e ∈ stream.pending, IsVersion g'.store (loc key) e.2 := by
    intro loc stream g₁ g' hreads hbefore e he
    obtain ⟨k, hk, v, hv, hvalue, hflags, hcas⟩ := hreads e he
    rw [List.mem_singleton.mp hk] at hv
    exact ⟨v, hbefore.2.mem (mem_of_current hv), hvalue, hflags, hcas hon⟩
  cases serverKey with
  | none =>
    intro g₁ h₁
    refine ⟨trivial, fun r g₂ hr g₃ h₃ => ?_⟩
    have hbefore := (before_of_served hr).trans h₃
    refine ⟨(hg.trans h₁).trans hbefore, ?_⟩
    rw [← h₁.1]
    exact hreads hr.2.2 hbefore
  | some serverKey =>
    intro g₁ h₁
    refine ⟨trivial, fun r g₂ hr g₃ h₃ => ?_⟩
    have hbefore := (before_of_served hr).trans h₃
    refine ⟨(hg.trans h₁).trans hbefore, ?_⟩
    rw [← h₁.1]
    exact hreads hr.2.2 hbefore

theorem IsVersion.mono {g g' : Store T} {l : Loc} {r : Result} (hr : IsVersion g l r)
    (h : g.Grows g') : IsVersion g' l r := by
  obtain ⟨v, hv, hr⟩ := hr
  exact ⟨v, h.mem hv, hr⟩

theorem Picked.mono {g g' : Store T} {l : Loc} {z : Zval} (hz : Picked env (IsVersion g l) z)
    (h : g.Grows g') : Picked env (IsVersion g' l) z := by
  rcases hz with hz | ⟨r, hr, hz⟩
  · exact .inl hz
  · exact .inr ⟨r, hr.mono h, hz⟩

theorem keeps_mgetApply :
    Cmd.Keeps (casRules route) (fun r _ g' => g.Before g' ∧
        Picked env (IsVersion g'.store (s.memc.loc (route g.who) serverKey key)) r.2)
      (phpMemcMgetApply env serverKey [key] (some (sGetApplyFn true)) true .null) s g := by
  unfold phpMemcMgetApply sMemcSetStatus
  rw [Cmd.keeps_modify_bind, if_neg (List.cons_ne_nil _ _), Cmd.keeps_get_bind]
  refine (keeps_switchOn (.refl g)).bind fun _ s₁ g₁ h₁ => ?_
  obtain ⟨hon, hpre, hg₁⟩ := h₁
  have hloc : s₁.memc.loc (route g₁.who) serverKey key =
      s.memc.loc (route g.who) serverKey key := by
    unfold Memc.loc Memc.fullKey
    rw [hpre, hg₁.1]
  refine (keeps_mget hon hg₁).bind fun status s₂ g₂ h₂ => ?_
  obtain ⟨hg₂, hversions⟩ := h₂
  rw [hloc] at hversions
  refine (keeps_of_sat (sat_mgetApply_end env _ _ status hversions) (.refl g₂)).mono ?_
  intro r s' g' h
  exact ⟨hg₂.trans h.2, h.1.mono env h.2.2⟩

/-- **What an extended `get` returns is a version of its item**, if it is an array. -/
theorem keeps_getExtended :
    Cmd.Keeps (casRules route) (fun z _ g' => g.Before g' ∧ ∀ a, z = .arr a →
        ∃ r, IsVersion g'.store (s.memc.loc (route g.who) serverKey key) r ∧ r.ShownBy env z)
      (phpMemcGetImpl env serverKey key false true) s g := by
  unfold phpMemcGetImpl sMemcSetStatus checkKeyOr
  rw [Cmd.keeps_modify_bind, Cmd.keeps_get_bind]
  split
  · rename_i hcheck
    rw [sKeyToKeys_of_valid _ ((memcCheckKey_iff _ _).mp hcheck)]
    refine (keeps_mgetApply env).bind fun r s₁ g₁ h₁ => ?_
    obtain ⟨hg₁, hpicked⟩ := h₁
    have hend : Cmd.Sat (fun _ => True) (fun z _ => z = .bool false ∨ z = r.2)
        (phpMemcGetImpl.endOfGet r.2) s₁ := by
      unfold phpMemcGetImpl.endOfGet
      rw [Cmd.sat_get_bind]
      cases sMemcStatusHasError s₁ with
      | true => exact .inl rfl
      | false => exact .inr rfl
    rw [Cmd.keeps_get_bind, Bool.and_false]
    refine (keeps_of_sat hend (.refl g₁)).mono fun z s' g' h => ⟨hg₁.trans h.2, fun a ha => ?_⟩
    rcases h.1 with hz | hz
    · rw [hz] at ha
      cases ha
    · rcases hz ▸ hpicked with hnull | ⟨result, hversion, hshown⟩
      · rw [hnull] at ha
        cases ha
      · exact ⟨result, hversion.mono h.2.2, hshown⟩
  · intro g₁ h₁
    exact ⟨h₁, fun a ha => by cases ha⟩

end

/-! ## what `cas` learns -/

section
variable (env : Env) {T : Type} {route : T → Bytes → Nat} {g g₀ : View T} {s : State}
  {serverKey : Option Bytes} {key payload : Bytes} {token value : Zval} {expiration : Int64}
  {flags : Flags} {c : UInt64}

/-- between the two views the client of the first has replaced the version with the CAS value `c` -/
def Replaced (g : View T) (l : Loc) (c : UInt64) (payload : Bytes) (flags : Flags)
    (g' : View T) : Prop :=
  ∃ g₁ g₂ : Store T, g.store.Grows g₁ ∧ g₁.Swaps g.who l c payload flags g₂ ∧ g₂.Grows g'.store

theorem Replaced.mono {g₁ g₂ : View T} {l : Loc} (h : Replaced g l c payload flags g₁)
    (hlater : g₁.Before g₂) : Replaced g l c payload flags g₂ := by
  obtain ⟨g', g'', hbefore, hswap, hafter⟩ := h
  exact ⟨g', g'', hbefore, hswap, hafter.trans hlater.2⟩

theorem keeps_memcachedCas (hawaits : s.memc.Awaits) (hg : g₀.Before g) :
    Cmd.Keeps (casRules route) (fun status _ g' => g₀.Before g' ∧
        (sMemcachedReturnIsError status true = false → c ≠ 0 →
          Replaced g₀ (s.memc.loc (route g₀.who) serverKey key) c payload flags g'))
      (memcachedCas serverKey key payload expiration flags c) s g := by
  cases serverKey with
  | none =>
    intro g₁ h₁
    refine ⟨trivial, fun r g₂ hr g₃ h₃ => ?_⟩
    have hg₁ := hg.trans h₁
    refine ⟨(hg₁.trans (before_of_served hr)).trans h₃, fun hok hc => ?_⟩
    refine ⟨g₁.store, g₂.store, hg₁.2, ?_, h₃.2⟩
    rw [← hg₁.1]
    exact hr.2.2 hawaits hok hc
  | some serverKey =>
    intro g₁ h₁
    refine ⟨trivial, fun r g₂ hr g₃ h₃ => ?_⟩
    have hg₁ := hg.trans h₁
    refine ⟨(hg₁.trans (before_of_served hr)).trans h₃, fun hok hc => ?_⟩
    refine ⟨g₁.store, g₂.store, hg₁.2, ?_, h₃.2⟩
    rw [← hg₁.1]
    exact hr.2.2 hawaits hok hc

/-- what a `cas` of this value that succeeds has done -/
def Done (g : View T) (l : Loc) (token : Zval) (out : PayloadOut) (g' : View T) : Prop :=
  ∃ c payload flags, sZvalToUint64 env token = some c ∧ out = .payload payload flags ∧
    (c ≠ 0 → Replaced g l c payload flags g')

omit env in
theorem keeps_false {P : View T → Prop} (hg : g₀.Before g) :
    Cmd.Keeps (casRules route) (fun z _ g' => g₀.Before g' ∧ (z = .bool true → P g'))
      (pure (.bool false) : MemcM Zval) s g :=
  fun _ h => ⟨hg.trans h, fun htrue => by cases htrue⟩

/-- **A `cas` that returns true has replaced what has the CAS value of its token.** -/
theorem keeps_cas (hawaits : s.memc.Awaits) :
    Cmd.Keeps (casRules route) (fun z _ g' => g.Before g' ∧ (z = .bool true →
        Done env g (s.memc.loc (route g.who) serverKey key) token (payloadOut env s value 0) g'))
      (phpMemcCasImpl env serverKey token key value expiration) s g := by
  unfold phpMemcCasImpl sMemcSetStatus checkKeyOr
  rw [Cmd.keeps_modify_bind, Cmd.keeps_get_bind]
  split
  · cases htoken : sZvalToUint64 env token with
    | none => exact Cmd.keeps_stop _
    | some c =>
      have hout : payloadOut env { s with rescode := .success, memcErrno := 0 } value 0 =
          payloadOut env s value 0 := by cases value <;> rfl
      have hpayload := sat_anyCall
        (ends_sZvalToPayload env { s with rescode := .success, memcErrno := 0 } value 0).sat
      refine (keeps_of_sat hpayload (.refl g)).bind fun r s₁ g₁ h₁ => ?_
      obtain ⟨hr, hg₁⟩ := h₁
      rw [hout] at hr
      cases r with
      | none => exact keeps_false hg₁
      | some r =>
        obtain ⟨payload, flags⟩ := r
        cases hpay : payloadOut env s value 0 with
        | failed => rw [hpay] at hr; exact hr.elim
        | crash => rw [hpay] at hr; exact hr.elim
        | payload p f =>
          rw [hpay] at hr
          obtain ⟨hsame, hs₁⟩ := hr
          have hmemc : s₁.memc = s.memc := hs₁.memc
          show Cmd.Keeps _ _ (if sIsPayloadTooBig s₁ payload then _ else _) s₁ g₁
          split
          · exact keeps_false hg₁
          · have hawaits₁ : s₁.memc.Awaits := by rwa [hmemc]
            refine (keeps_memcachedCas hawaits₁ hg₁).bind fun status s₂ g₂ h₂ => ?_
            obtain ⟨hg₂, hswap⟩ := h₂
            rw [hmemc] at hswap
            refine (keeps_of_sat (sat_handleResultCode status s₂) (.refl g₂)).bind ?_
            intro ok s₃ g₃ h₃ g₄ h₄
            obtain ⟨⟨hcode, hok⟩, hg₃⟩ := h₃
            refine ⟨(hg₂.trans hg₃).trans h₄, fun htrue => ?_⟩
            have hsuccess : sMemcachedReturnIsError status true = false := by
              rw [Zval.bool.inj htrue, sMemcStatusHasError, hcode] at hok
              simpa using hok
            cases hsame
            refine ⟨c, payload, flags, htoken, rfl, fun hc => ?_⟩
            exact (hswap hsuccess hc).mono (hg₃.trans h₄)
  · exact keeps_false (.refl g)

end
/-! ## clients -/

/-- what the owner of an object has learnt: an item it was shown, and one it has replaced -/
inductive Note where
  | got (l : Loc) (item : Zval)
  | replaced (l : Loc) (token : Zval) (out : PayloadOut)

/-- an object, how its server list distributes the keys, and the notes of its owner -/
structure Owner where
  route : Bytes → Nat
  object : State
  notes : List Note

/-- what an owner does: `get` with `GET_EXTENDED`, `cas`, or any commands -/
inductive Deed where
  | get (serverKey : Option Bytes) (key : Bytes)
  | cas (serverKey : Option Bytes) (token : Zval) (key : Bytes) (value : Zval) (expiration : Int64)
  | other (m : MemcM Zval)

section
variable (env : Env)

def Deed.run : Deed → MemcM Zval
  | .get serverKey key => phpMemcGetImpl env serverKey key false true
  | .cas serverKey token key value expiration =>
    phpMemcCasImpl env serverKey token key value expiration
  | .other m => m

/-- what is noted when the call returns `z` -/
def Deed.noted (o : Owner) (z : Zval) : Deed → List Note
  | .get serverKey key =>
    match z with
    | .arr _ => [.got (o.object.memc.loc o.route serverKey key) z]
    | _ => []
  | .cas serverKey token key value _ =>
    match z with
    | .bool true =>
      [.replaced (o.object.memc.loc o.route serverKey key) token (payloadOut env o.object value 0)]
    | _ => []
  | .other _ => []

/-- after a fatal error there is no owner any more -/
def Deed.after (a : Deed) (o : Owner) : Outcome Abort State Zval → Option Owner
  | .done z s => some ⟨o.route, s, a.noted env o z ++ o.notes⟩
  | .stop _ _ => none

def Deed.code (a : Deed) : Option Owner → Prog Call Ans (Option Owner)
  | some o => a.run env o.object >>= fun outcome => .ret (a.after env o outcome)
  | none => .ret none

/-- a `cas` is called on an object that waits for its answer -/
def Deed.may (a : Deed) (o : Owner) : Prop :=
  match a with
  | .cas .. => o.object.memc.Awaits
  | _ => True

/-- clients of a store -/
abbrev clients {T : Type} (route : T → Bytes → Nat) :
    System T Call Ans Deed (Option Owner) Unit (Store T) where
  code := Deed.code env
  serve := Store.Serves route
  drift _ := Store.Grows

variable {T : Type} {route : T → Bytes → Nat} {g g' : View T} {o : Owner} {t : T}

/-- the store bears the note out -/
def Note.Holds (g : View T) : Note → Prop
  | .got l item => ∃ r, IsVersion g.store l r ∧ r.ShownBy env item
  | .replaced l token out => ∃ c payload flags, sZvalToUint64 env token = some c ∧
      out = .payload payload flags ∧ (c ≠ 0 → ∃ a b, Follows a b (g.store.held l) ∧ a.id = c ∧
        b.value = (payload, flags) ∧ b.writer = some g.who)

/-- the version that was replaced -/
def Note.used : Note → Option (Loc × UInt64)
  | .got .. => none
  | .replaced l token _ => ((sZvalToUint64 env token).filter (· ≠ 0)).map fun c => (l, c)

/-- the notes of the owner `t` are borne out, and it has replaced no version twice -/
structure Owner.Ok (route : T → Bytes → Nat) (t : T) (o : Owner) (g : View T) : Prop where
  who : g.who = t
  route : o.route = route t
  notes : ∀ n ∈ o.notes, n.Holds env g
  nodup : (o.notes.filterMap (Note.used env)).Nodup

variable {env} {n : Note} {l : Loc} {c : UInt64} {payload : Bytes} {flags : Flags}

theorem Note.Holds.mono (hn : n.Holds env g) (h : g.Before g') : n.Holds env g' := by
  cases n with
  | got l item =>
    obtain ⟨r, hr, hshown⟩ := hn
    exact ⟨r, hr.mono h.2, hshown⟩
  | replaced l token out =>
    obtain ⟨c, payload, flags, htoken, hout, hdone⟩ := hn
    refine ⟨c, payload, flags, htoken, hout, fun hc => ?_⟩
    obtain ⟨a, b, hfollows, ha, hb, hwriter⟩ := hdone hc
    exact ⟨a, b, hfollows.mono (h.2 l), ha, hb, by rw [hwriter, h.1]⟩

theorem Owner.Ok.mono (ho : o.Ok env route t g) (h : g.Before g') : o.Ok env route t g' :=
  ⟨h.1.trans ho.who, ho.route, fun n hn => (ho.notes n hn).mono h, ho.nodup⟩

/-- a version that is replaced is followed by what replaces it -/
theorem Replaced.follows (h : Replaced g l c payload flags g') :
    ∃ a b, Follows a b (g'.store.held l) ∧ a.id = c ∧ b.value = (payload, flags) ∧
      b.writer = some g.who := by
  obtain ⟨g₁, g₂, -, ⟨v, id, hv, hid, hheld⟩, hafter⟩ := h
  have hfollows : Follows v ⟨id, (payload, flags), some g.who⟩ (g₂.held l) := by
    rw [hheld]
    cases hold : g₁.held l with
    | nil =>
      rw [hold] at hv
      cases hv
    | cons x before =>
      rw [hold] at hv
      have hx : x = some v := hv
      rw [hx]
      exact .here
  exact ⟨v, _, hfollows.mono (hafter l), hid, rfl, rfl⟩

/-- a version that was replaced is not replaced again -/
theorem Replaced.not_used (h : Replaced g l c payload flags g') (ho : o.Ok env route t g) :
    (l, c) ∉ o.notes.filterMap (Note.used env) := by
  obtain ⟨g₁, g₂, hbefore, ⟨v, id, hv, hid, -⟩, -⟩ := h
  intro hmem
  obtain ⟨n, hn, hused⟩ := List.mem_filterMap.mp hmem
  cases n with
  | got l' item => cases hused
  | replaced l' token out =>
    obtain ⟨c', hfilter, hsame⟩ := Option.map_eq_some_iff.mp hused
    obtain ⟨htoken, hpos⟩ := Option.filter_eq_some_iff.mp hfilter
    cases hsame
    obtain ⟨c', payload', flags', htoken', -, hdone⟩ := ho.notes _ hn
    cases htoken.symm.trans htoken'
    obtain ⟨a, b, hfollows, ha, -⟩ := hdone (by simpa using hpos)
    exact (hfollows.mono (hbefore l)).not_current (g₁.nodup l) hv (hid.trans ha.symm)

/-- one more version that is replaced -/
theorem nodup_used {token : Zval} {out : PayloadOut} {notes : List Note}
    (htoken : sZvalToUint64 env token = some c) (hn : (notes.filterMap (Note.used env)).Nodup)
    (hnew : c ≠ 0 → (l, c) ∉ notes.filterMap (Note.used env)) :
    ((Note.replaced l token out :: notes).filterMap (Note.used env)).Nodup := by
  have hused : (Note.replaced l token out).used env = if c = 0 then none else some (l, c) := by
    show Option.map (fun c => (l, c)) ((sZvalToUint64 env token).filter (· ≠ 0)) = _
    rw [htoken]
    by_cases hc : c = 0
    · simp [hc]
    · simp [hc]
  by_cases hc : c = 0
  · rw [if_pos hc] at hused
    rw [List.filterMap_cons_none hused]
    exact hn
  · rw [if_neg hc] at hused
    rw [List.filterMap_cons_some hused]
    exact List.nodup_cons.mpr ⟨hnew hc, hn⟩

/-- what is noted at the end of a call -/
theorem keeps_code {a : Deed} {P : Zval → View T → Prop} (ho : o.Ok env route t g)
    (hrun : Cmd.Keeps (casRules route) (fun z _ g' => g.Before g' ∧ P z g') (a.run env) o.object g)
    (hnoted : ∀ z g', g.Before g' → P z g' → (∀ n ∈ a.noted env o z, n.Holds env g') ∧
      ((a.noted env o z ++ o.notes).filterMap (Note.used env)).Nodup) :
    (a.code env (some o)).Keeps (casRules route) (fun o' g' => ∀ o'' ∈ o', o''.Ok env route t g')
      g := by
  refine Prog.Keeps.bind hrun fun outcome g₁ h₁ g₂ h₂ o'' ho'' => ?_
  cases outcome with
  | stop e s => cases ho''
  | done z s =>
    cases ho''
    obtain ⟨hbefore, hz⟩ := h₁
    obtain ⟨hnew, hnodup⟩ := hnoted z g₁ hbefore hz
    have hold := ho.mono (hbefore.trans h₂)
    refine ⟨hold.who, hold.route, fun n hn => ?_, hnodup⟩
    rcases List.mem_append.mp hn with hn | hn
    · exact (hnew n hn).mono h₂
    · exact hold.notes n hn

/-- **A call keeps the notes of its owner.** -/
theorem keeps_act (a : Deed) (hmay : a.may o) (ho : o.Ok env route t g) :
    (a.code env (some o)).Keeps (casRules route) (fun o' g' => ∀ o'' ∈ o', o''.Ok env route t g')
      g := by
  have hwho : route g.who = o.route := by rw [ho.who, ho.route]
  cases a with
  | get serverKey key =>
    refine keeps_code ho (keeps_getExtended env) fun z g' _ hz => ?_
    cases z with
    | arr x =>
      refine ⟨fun n hn => ?_, ho.nodup⟩
      rw [List.mem_singleton.mp hn, ← hwho]
      exact hz x rfl
    | _ => exact ⟨fun n hn => (by cases hn), ho.nodup⟩
  | cas serverKey token key value expiration =>
    refine keeps_code ho (keeps_cas env hmay) fun z g' hbefore hz => ?_
    cases z with
    | bool b =>
      cases b with
      | false => exact ⟨fun n hn => (by cases hn), ho.nodup⟩
      | true =>
        obtain ⟨c, payload, flags, htoken, hout, hdone⟩ := hz rfl
        rw [hwho] at hdone
        refine ⟨fun n hn => ?_, ?_⟩
        · rw [List.mem_singleton.mp hn]
          refine ⟨c, payload, flags, htoken, hout, fun hc => ?_⟩
          rw [hbefore.1]
          exact (hdone hc).follows
        · exact nodup_used htoken ho.nodup fun hc => (hdone hc).not_used ho
    | _ => exact ⟨fun n hn => (by cases hn), ho.nodup⟩
  | other m =>
    refine keeps_code (P := fun _ _ => True) ho ?_ fun z g' _ _ =>
      ⟨fun n hn => (by cases hn), ho.nodup⟩
    exact (keeps_of_sat (Cmd.sat_true m o.object) (.refl g)).mono fun _ _ _ h => ⟨h.2, trivial⟩

/-! ## runs -/

theorem clients_discipline : Discipline (clients env route) (casRules route) (fun t g => ⟨t, g⟩)
    (fun _ => True) (fun t o g => ∀ o' ∈ o, o'.Ok env route t g) (fun _ o a => ∀ o' ∈ o, a.may o')
    (fun _ _ _ => True) (fun _ => True) where
  stable t o g g' ho hbefore o' ho' := (ho o' ho').mono hbefore
  code t a o g ho hmay := by
    cases o with
    | none => exact fun g' _ o' ho' => by cases ho'
    | some o => exact keeps_act a (hmay o rfl) (ho o rfl)
  served _ _ _ _ _ _ _ _ hs := ⟨rfl, hs⟩
  others _ _ _ _ _ _ _ _ hs _ _ := ⟨rfl, hs.grows⟩
  kept _ _ _ _ _ _ _ _ _ := trivial
  drifts _ _ _ _ _ hd := ⟨trivial, fun _ => ⟨rfl, hd⟩⟩

/-- an item with the value, the CAS value and the flags of a version -/
def Shows (env : Env) (v : ItemVersion T) (item : Zval) : Prop :=
  ∃ serializer, (sMemcachedResultToZval env serializer (.bytes v.value.1) v.value.2).ok = true ∧
    item = extendedZval (sMemcachedResultToZval env serializer (.bytes v.value.1) v.value.2).value
      (sUint64ToZval v.id) v.value.2

/-- the token of an item is the CAS value of its version -/
theorem Shows.token {v : ItemVersion T} {item token : Zval} (h : Shows env v item)
    (htoken : tokenOf item = some token) : sZvalToUint64 env token = some v.id := by
  obtain ⟨serializer, -, rfl⟩ := h
  cases htoken
  exact sZvalToUint64_sUint64ToZval env v.id

variable [DecidableEq T] {w₀ w : World T Call Ans Deed (Option Owner) (Store T)}

end
/-! ## a run -/

/-- one more version of an item -/
def Store.push {T : Type} (g : Store T) (l : Loc) (v : ItemVersion T) (hnew : v.id ∉ ids (g.held l))
    (hpos : v.id ≠ 0) : Store T where
  held := Function.update g.held l (some v :: g.held l)
  nodup k := by
    by_cases hk : k = l
    · rw [hk, Function.update_self, ids_cons_some]
      exact List.nodup_cons.mpr ⟨hnew, g.nodup l⟩
    · rw [Function.update_of_ne hk]
      exact g.nodup k
  pos k c hc := by
    by_cases hk : k = l
    · rw [hk, Function.update_self, ids_cons_some] at hc
      rcases List.mem_cons.mp hc with rfl | hc
      · exact hpos
      · exact g.pos l c hc
    · rw [Function.update_of_ne hk] at hc
      exact g.pos k c hc

end PhpMemcached
