import PhpMemcached.Read
import PhpMemcached.Updates

/-!
# A read that finds its item

`get` of a key whose item the pool has: `exec_phpMemcGetImpl_hit`.
-/

namespace PhpMemcached
open Ascii Requests

section
variable (env : Env) (pool : Pool) (rest : Handler Call Ans Net)

/-- what a read of an item returns -/
def hitZval (extended : Bool) (value cas : Zval) (flags : Flags) : Zval :=
  if extended then extendedZval value cas flags else value

/-- the settings a read depends on, and the results not read yet, are kept -/
structure Kept (s s' : State) : Prop where
  userData : s'.memc.userData = s.memc.userData
  prefixKey : s'.memc.prefixKey = s.memc.prefixKey
  stream : s'.memc.stream = s.memc.stream

theorem Kept.trans {s s' s'' : State} (h : Kept s s') (h' : Kept s' s'') : Kept s s'' :=
  ⟨h'.userData.trans h.userData, h'.prefixKey.trans h.prefixKey, h'.stream.trans h.stream⟩

theorem Kept.of_memc {s s' : State} (h : s'.memc = s.memc) : Kept s s' :=
  ⟨by rw [h], by rw [h], by rw [h]⟩

/-- the switch of the CAS support sends nothing to the pool -/
theorem exec_switch (c : Bool) (data : UInt64) (s : State) (net : Net) :
    ∃ s', Cmd.exec (pool.handler rest)
        (Cmd.when c (memcachedBehaviorSet .supportCas data >>= fun _ => pure ())) s net =
      (.done () s', net) ∧ Kept s s' := by
  cases c with
  | true => exact ⟨_, rfl, rfl, rfl, rfl⟩
  | false => exact ⟨s, rfl, rfl, rfl, rfl⟩

/-- the results of a request for one key whose item is there -/
theorem results_one {memc : Memc} {serverKey : Option Bytes} {key : Bytes} {net : Net} {item : Item}
    (hitem : net.items (pool.loc memc serverKey key) = some item) :
    pool.results memc serverKey [key] net = [(.success, ⟨key, .bytes item.payload, item.flags,
      pool.cas net (pool.loc memc serverKey key)⟩)] := by
  unfold Pool.results
  rw [List.filterMap_cons, hitem]
  rfl

variable {s : State} {net : Net} {item : Item} {key : Bytes}
  {serverKey : Option Bytes} {v : Zval}

theorem exec_resultToZval_hit {result : Result}
    (hdec : sMemcachedResultToZval env s.memc.userData.serializer result.value result.flags =
      .plain v) :
    Cmd.exec (pool.handler rest) (resultToZval env result) s net = (.done (some v) s, net) := by
  unfold resultToZval raise
  rw [Cmd.exec_get_bind, hdec, Cmd.exec_modify_bind]
  show (Outcome.done (some v) { s with exception := s.exception || false }, net) = _
  rw [Bool.or_false]

/-- one result on the stream is read, and the stream is drained -/
theorem exec_resultApply_one {result : Result} {last : Status} (extended : Bool)
    (hstream : s.memc.stream = ⟨[(.success, result)], last⟩)
    (hdec : sMemcachedResultToZval env s.memc.userData.serializer result.value result.flags =
      .plain v) :
    Cmd.exec (pool.handler rest) (phpMemcResultApply env (sGetApplyFn extended) false .null) s
        net = (.done (.success, hitZval extended v (sUint64ToZval result.cas) result.flags)
      { s with memc := { s.memc with stream := ⟨[], last⟩ } }, net) := by
  have hfetch : Cmd.exec (pool.handler rest) memcachedFetchResult s net =
      (.done (some result, .success) { s with memc := { s.memc with stream := ⟨[], last⟩ } },
        net) := by
    unfold memcachedFetchResult
    rw [Cmd.exec_get_bind, hstream]
    dsimp only
    rw [Cmd.exec_modify_bind, hstream]
    rfl
  have hvalue : Cmd.exec (pool.handler rest) (resultToZval env result)
      { s with memc := { s.memc with stream := ⟨[], last⟩ } } net = (.done (some v) _, net) :=
    exec_resultToZval_hit env pool rest hdec
  unfold phpMemcResultApply
  rw [Cmd.exec_get_bind, hstream]
  show Cmd.exec _ (resultApplyLoop env (sGetApplyFn extended) false 2 .success .null) s net = _
  unfold resultApplyLoop
  rw [Cmd.exec_bind_done hfetch]
  dsimp only
  rw [Cmd.exec_bind_done hvalue]
  rfl

theorem exec_memcachedMget_hit (hread : pool.readFate net.reads = none)
    (hitem : net.items (pool.loc s.memc serverKey key) = some item) :
    ∃ result s' net', Cmd.exec (pool.handler rest) (memcachedMget serverKey [key]) s net =
        (.done .success s', net') ∧ s'.memc.stream = ⟨[(.success, result)], .end_⟩ ∧
      (result.value = .bytes item.payload ∧ result.flags = item.flags) ∧
      s'.memc.userData = s.memc.userData ∧ net'.items = net.items := by
  have hfetch : pool.fetch s.memc serverKey [key] net =
      ((.success, ⟨[(.success, ⟨key, .bytes item.payload, item.flags,
        pool.cas net (pool.loc s.memc serverKey key)⟩)], .end_⟩),
        { net with reads := net.reads + 1 }) := by
    unfold Pool.fetch
    rw [hread, results_one pool hitem]
    rfl
  have hx : Cmd.exec (pool.handler rest) (memcachedMget serverKey [key]) s net =
      (.done (pool.fetch s.memc serverKey [key] net).1.1 { s with memc := { s.memc with
        stream := (pool.fetch s.memc serverKey [key] net).1.2 } },
        (pool.fetch s.memc serverKey [key] net).2) := by
    cases serverKey <;> rfl
  rw [hfetch] at hx
  exact ⟨_, _, _, hx, rfl, ⟨rfl, rfl⟩, rfl, rfl⟩

/-- a request for one key whose item is there -/
theorem exec_mgetApply_hit (extended : Bool) (hread : pool.readFate net.reads = none)
    (hitem : net.items (pool.loc s.memc serverKey key) = some item)
    (hdec : sMemcachedResultToZval env s.memc.userData.serializer (.bytes item.payload)
      item.flags = .plain v) :
    ∃ cas s' net', Cmd.exec (pool.handler rest)
        (phpMemcMgetApply env serverKey [key] (some (sGetApplyFn extended)) extended .null) s net =
        (.done (true, hitZval extended v cas item.flags) s', net') ∧
      s'.rescode = .success ∧ net'.items = net.items := by
  let s₀ : State := { s with rescode := .success, memcErrno := 0 }
  let switch := extended && decide (memcachedBehaviorGet s.memc .supportCas = 0)
  obtain ⟨s₁, hswitch, hk₁⟩ := exec_switch pool rest switch 1 s₀ net
  have hloc : pool.loc s₁.memc serverKey key = pool.loc s.memc serverKey key := by
    unfold Pool.loc Memc.fullKey
    rw [hk₁.prefixKey]
  obtain ⟨result, s₂, net₂, hmget, hstream, hval, hud, hitems⟩ :=
    exec_memcachedMget_hit pool rest hread (hloc ▸ hitem)
  obtain ⟨s₃, hcode, hmemc₃, -, -⟩ := exec_handleResultCode pool rest .success s₂ net₂
  obtain ⟨s₄, hback, hk₄⟩ := exec_switch pool rest switch
    (memcachedBehaviorGet s.memc .supportCas) s₃ net₂
  have hstream₄ : s₄.memc.stream = ⟨[(.success, result)], .end_⟩ := by
    rw [hk₄.stream, hmemc₃, hstream]
  have hud₄ : s₄.memc.userData = s.memc.userData := by
    rw [hk₄.userData, hmemc₃, hud, hk₁.userData]
  have hdec₄ : sMemcachedResultToZval env s₄.memc.userData.serializer result.value result.flags =
      .plain v := by
    rw [hud₄, hval.1, hval.2]
    exact hdec
  have happly : Cmd.exec (pool.handler rest) (phpMemcResultApply env (sGetApplyFn extended) false
      .null) s₄ net₂ = _ := exec_resultApply_one env pool rest extended hstream₄ hdec₄
  obtain ⟨s₅, hend, -, hcode₅, -⟩ := exec_handleResultCode pool rest .success
    { s₄ with memc := { s₄.memc with stream := ⟨[], .end_⟩ } } net₂
  refine ⟨sUint64ToZval result.cas, s₅, net₂, ?_, hcode₅, hitems⟩
  unfold phpMemcMgetApply sMemcSetStatus
  rw [Cmd.exec_modify_bind, if_neg (List.cons_ne_nil _ _), Cmd.exec_get_bind]
  rw [Cmd.exec_bind_done hswitch, Cmd.exec_bind_done hmget, Cmd.exec_bind_done hcode,
    Cmd.exec_bind_done hback]
  show Cmd.exec _ (phpMemcResultApply env (sGetApplyFn extended) false .null >>= fun r =>
    sMemcStatusHandleResultCode r.1 >>= fun ok => pure (ok, r.2)) s₄ net₂ = _
  rw [Cmd.exec_bind_done happly, Cmd.exec_bind_done hend, hval.2]
  rfl

/-- **A read whose item is there returns its value**, whether it has a callback or not. -/
theorem exec_phpMemcGetImpl_hit (hasCallback extended : Bool) (hkey : ValidKey s.memc key)
    (hread : pool.readFate net.reads = none)
    (hitem : net.items (pool.loc s.memc serverKey key) = some item)
    (hdec : sMemcachedResultToZval env s.memc.userData.serializer (.bytes item.payload)
      item.flags = .plain v) :
    ∃ cas s' net', Cmd.exec (pool.handler rest)
        (phpMemcGetImpl env serverKey key hasCallback extended) s net =
        (.done (hitZval extended v cas item.flags) s', net') ∧
      s'.rescode = .success ∧ net'.items = net.items := by
  let s₀ : State := { s with rescode := .success, memcErrno := 0 }
  obtain ⟨cas, s', net', happly, hcode, hitems⟩ :=
    exec_mgetApply_hit env pool rest (s := s₀) extended hread hitem hdec
  refine ⟨cas, s', net', ?_, hcode, hitems⟩
  have hcheck : memcCheckKey s₀.memc key = true := (memcCheckKey_iff _ _).mpr hkey
  unfold phpMemcGetImpl sMemcSetStatus checkKeyOr
  rw [Cmd.exec_modify_bind, Cmd.exec_get_bind, if_pos hcheck, sKeyToKeys_of_valid _ hkey,
    Cmd.exec_bind_done happly]
  show (Outcome.done (if sMemcStatusHasError s' then Zval.bool false else _) s', net') = _
  rw [sMemcStatusHasError, hcode]
  rfl

end
end PhpMemcached
