import PhpMemcached.Ops

/-!
# What the methods ask for besides their items

* `Passive φ`           `φ` lets everything pass that names no item: warnings, error numbers,
                        behaviours, callbacks;
* `fetchCall`           the fetch request of some keys;
* `PassiveApply`        an apply function that asks for nothing but that.

The loop over the results and the end of a method ask for nothing but that either, so a read asks
for its fetch request alone (`asks_phpMemcMgetApply`).
-/

namespace PhpMemcached
open Ascii Requests

structure Passive (φ : Call → Prop) : Prop where
  warning : ∀ text, φ (.warning text)
  lastErrorErrno : ∀ memc, φ (.lastErrorErrno memc)
  quit : ∀ memc, φ (.quit memc)
  behaviorSet : ∀ memc flag data, φ (.behaviorSet memc flag data)
  cacheCallback : ∀ object withCas key value, φ (.cacheCallback object withCas key value)
  resultCallback : ∀ object item, φ (.resultCallback object item)

/-- the fetch request of `keys` on the handle `memc` -/
def fetchCall (serverKey : Option Bytes) (keys : List Bytes) (memc : Memc) : Call :=
  match serverKey with
  | some serverKey => .mgetByKey memc serverKey keys
  | none => .mget memc keys

section
variable (env : Env) {φ : Call → Prop} (hφ : Passive φ) {s : State} {α : Type}
include hφ

theorem asks_handleResultCode (status : Status) (s : State) :
    Cmd.Asks φ (sMemcStatusHandleResultCode status) s := by
  unfold sMemcStatusHandleResultCode sMemcSetStatus
  rw [Cmd.asks_modify_bind]
  split
  · exact ⟨hφ.lastErrorErrno _, fun _ => trivial⟩
  · trivial

/-- the end of most methods: a request, the status, a boolean -/
theorem asks_status {m : MemcM Status} (f : Bool → Zval) (hm : Cmd.Asks φ m s) :
    Cmd.Asks φ (m >>= fun status => sMemcStatusHandleResultCode status >>= fun ok =>
      pure (f ok)) s :=
  hm.bind fun status s' => (asks_handleResultCode hφ status s').bind fun _ _ => trivial

theorem asks_phpWarning (text : String) (s : State) : Cmd.Asks φ (phpWarning text) s :=
  ⟨hφ.warning text, fun _ => trivial⟩

theorem asks_resultToZval (result : Result) (s : State) :
    Cmd.Asks φ (resultToZval env result) s := by
  unfold resultToZval raise
  rw [Cmd.asks_get_bind, Cmd.asks_modify_bind]
  exact (Cmd.Asks.when (asks_phpWarning hφ _ _)).bind fun _ _ => trivial

omit hφ in
/-- an apply function that names no item -/
def PassiveApply (apply : ResultApplyFn α) : Prop :=
  ∀ φ, Passive φ → ∀ acc key value cas flags s, Cmd.Asks φ (apply acc key value cas flags) s

theorem asks_resultApplyLoop {apply : ResultApplyFn α} (happly : PassiveApply apply)
    (fetchDelay : Bool) (fuel : Nat) (status : Status) (acc : α) (s : State) :
    Cmd.Asks φ (resultApplyLoop env apply fetchDelay fuel status acc) s := by
  induction fuel generalizing status acc s with
  | zero => trivial
  | succ fuel ih =>
    have hfetch : Cmd.Asks φ memcachedFetchResult s := by
      unfold memcachedFetchResult
      rw [Cmd.asks_get_bind]
      split <;> trivial
    unfold resultApplyLoop
    refine hfetch.bind fun r s' => ?_
    obtain ⟨_ | result, rc⟩ := r
    · trivial
    · refine (asks_resultToZval env hφ result s').bind fun value s₁ => ?_
      cases value with
      | none =>
        rw [Cmd.asks_get_bind]
        split
        · exact ⟨hφ.quit _, fun _ => trivial⟩
        · exact ih _ _ _
      | some value =>
        refine (happly φ hφ acc _ value _ _ s₁).bind fun r s₂ => ?_
        obtain ⟨acc, retval⟩ := r
        cases retval with
        | true => exact ih _ acc s₂
        | false => cases fetchDelay <;> trivial

theorem asks_switch (c : Bool) (data : UInt64) (s : State) :
    Cmd.Asks φ (Cmd.when c (memcachedBehaviorSet .supportCas data >>= fun _ => pure ())) s :=
  Cmd.Asks.when ⟨hφ.behaviorSet _ _ _, fun _ => trivial⟩

omit hφ in
theorem asks_memcachedMget {serverKey : Option Bytes} {keys : List Bytes}
    (hfetch : ∀ memc, φ (fetchCall serverKey keys memc)) (s : State) :
    Cmd.Asks φ (memcachedMget serverKey keys) s := by
  cases serverKey <;> exact ⟨hfetch s.memc, fun _ => trivial⟩

theorem asks_phpMemcMgetApply {serverKey : Option Bytes} {keys : List Bytes}
    {apply : Option (ResultApplyFn α)} (withCas : Bool) (acc : α)
    (hfetch : ∀ memc, φ (fetchCall serverKey keys memc))
    (happly : ∀ a ∈ apply, PassiveApply a) (s : State) :
    Cmd.Asks φ (phpMemcMgetApply env serverKey keys apply withCas acc) s := by
  unfold phpMemcMgetApply sMemcSetStatus
  rw [Cmd.asks_modify_bind]
  split
  · trivial
  · rw [Cmd.asks_get_bind]
    refine (asks_switch hφ _ _ _).bind fun _ s₁ => ?_
    refine (asks_memcachedMget hfetch s₁).bind fun status s₂ => ?_
    refine (asks_handleResultCode hφ status s₂).bind fun ok s₃ => ?_
    refine (asks_switch hφ _ _ s₃).bind fun _ s₄ => ?_
    cases ok with
    | false => trivial
    | true =>
      cases apply with
      | none => trivial
      | some apply =>
        refine Cmd.Asks.bind (m := phpMemcResultApply env apply false acc)
          (asks_resultApplyLoop env hφ (happly apply rfl) _ _ _ _ _) fun r s₅ => ?_
        exact (asks_handleResultCode hφ r.1 s₅).bind fun _ _ => trivial

omit hφ

theorem passiveApply_sGetApplyFn (extended : Bool) : PassiveApply (sGetApplyFn extended) :=
  fun _ _ _ _ _ _ _ _ => trivial

theorem passiveApply_sGetMultiApplyFn (extended : Bool) :
    PassiveApply (sGetMultiApplyFn extended) := fun _ _ _ _ _ _ _ _ => trivial

theorem passiveApply_sResultCallbackApply : PassiveApply (sResultCallbackApply env) := by
  intro φ hφ acc key value cas flags s
  refine ⟨hφ.resultCallback _ _, fun r => ?_⟩
  show Cmd.Asks φ (if r.ran then pure ((), true) else _ : MemcM (Unit × Bool)) _
  split
  · trivial
  · exact (asks_phpWarning hφ _ _).bind fun _ _ => trivial

end
end PhpMemcached
