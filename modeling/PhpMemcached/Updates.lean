import PhpMemcached.Ops
import PhpMemcached.Pool
import PhpMemcached.Routing

/-!
# What the retried attempts of a call do to an item

* `Delivery.lost`        an update that was made although an error was reported;
* `Updates f l net ds net'`   the deliveries `ds` take `net` to `net'`: they all go to `l`, and `f`
                         was made there once for each one applied;
* `Tally ds st`          of the deliveries the applied ones are those that were lost, and the last
                         if its code `st` is no error;
* `attempts_update`      a first attempt and its retries keep both;
* `exec_sMemcWriteZval`  the same for a whole write without a `server_key`.
-/

namespace PhpMemcached
open Ascii Requests

/-- the update was made, but an error was reported -/
def Delivery.lost (d : Delivery) : Bool := d.applied && sMemcachedReturnIsError d.status true

/-- what an update leaves of an item: a refused one leaves it alone -/
def updateItem (change : Option Item → Except ErrorCode Item) (item : Option Item) :
    Option Item :=
  match change item with
  | .ok item => some item
  | .error _ => item

/-- the items after deliveries `ds` of one update to the place `l` -/
structure Updates (f : Option Item → Option Item) (l : Loc) (net : Net) (ds : List Delivery)
    (net' : Net) : Prop where
  trace : net'.trace = net.trace ++ ds
  loc : ∀ d ∈ ds, d.loc = l
  items : net'.items = Function.update net.items l (f^[ds.countP (·.applied)] (net.items l))

theorem Updates.refl (f : Option Item → Option Item) (l : Loc) (net : Net) :
    Updates f l net [] net where
  trace := (List.append_nil _).symm
  loc _ h := absurd h List.not_mem_nil
  items := (Function.update_eq_self l net.items).symm

theorem Updates.trans {f : Option Item → Option Item} {l : Loc} {net₀ net₁ net₂ : Net}
    {ds ds' : List Delivery} (h : Updates f l net₀ ds net₁) (h' : Updates f l net₁ ds' net₂) :
    Updates f l net₀ (ds ++ ds') net₂ where
  trace := by rw [h'.trace, h.trace, List.append_assoc]
  loc d hd := by
    rcases List.mem_append.mp hd with hd | hd
    · exact h.loc d hd
    · exact h'.loc d hd
  items := by
    rw [h'.items, h.items, Function.update_idem, Function.update_self, List.countP_append,
      Nat.add_comm, Function.iterate_add_apply]

/-- the applied deliveries are the lost ones, and the last if its code is no error -/
def Tally (ds : List Delivery) (status : Status) : Prop :=
  ds.countP (·.applied) =
    ds.countP Delivery.lost + if sMemcachedReturnIsError status true then 0 else 1

/-- one delivery: it is counted, and reported as it ended -/
structure Delivered (d : Delivery) (status : Status) : Prop where
  code : d.status = status
  applied : sMemcachedReturnIsError status true = false → d.applied = true
  success : sMemcachedReturnIsError status true = false → status = .success

theorem Delivered.tally {d : Delivery} {status : Status} (h : Delivered d status) :
    Tally [d] status := by
  unfold Tally
  rw [List.countP_singleton, List.countP_singleton, Delivery.lost, h.code]
  cases herr : sMemcachedReturnIsError status true with
  | true => cases d.applied <;> rfl
  | false => rw [h.applied herr]; rfl

/-- after an error one more delivery keeps the tally -/
theorem Tally.snoc {ds : List Delivery} {status status' : Status} {d : Delivery}
    (h : Tally ds status) (herr : sMemcachedReturnIsError status true = true)
    (hd : Delivered d status') : Tally (ds ++ [d]) status' := by
  have hlast := hd.tally
  unfold Tally at h hlast ⊢
  rw [if_pos herr] at h
  rw [List.countP_append, List.countP_append, h, hlast]
  omega

/-! ## one attempt -/

section
variable (pool : Pool)

theorem deliver_updates (call : Call) (l : Loc) (change : Option Item → Except ErrorCode Item)
    (net : Net) :
    ∃ d, Delivered d (pool.deliver call l (change (net.items l)) net).1 ∧
      Updates (updateItem change) l net [d]
        (pool.deliver call l (change (net.items l)) net).2 := by
  have hput : ∀ item, change (net.items l) = .ok item → net.put l item =
      Function.update net.items l ((updateItem change)^[1] (net.items l)) := by
    intro item hitem
    rw [Function.iterate_one, updateItem, hitem, Net.put]
  have hkeep : net.items = Function.update net.items l
      ((updateItem change)^[0] (net.items l)) := (Function.update_eq_self l net.items).symm
  have hloc : ∀ applied status, ∀ d ∈ [(⟨call, l, applied, status⟩ : Delivery)], d.loc = l := by
    intro applied status d hd
    rw [List.mem_singleton.mp hd]
  have herror : ∀ (e : ErrorCode) (d : Delivery), d.status = e.status → Delivered d e.status :=
    fun e _ hd => ⟨hd, fun h => Bool.noConfusion (e.isError.symm.trans h),
      fun h => Bool.noConfusion (e.isError.symm.trans h)⟩
  unfold Pool.deliver
  cases pool.fate net.trace.length with
  | served =>
    cases hchange : change (net.items l) with
    | ok item => exact ⟨_, ⟨rfl, fun _ => rfl, fun _ => rfl⟩, rfl, hloc _ _, hput item hchange⟩
    | error e => exact ⟨_, herror e _ rfl, rfl, hloc _ _, hkeep⟩
  | refused e => exact ⟨_, herror e _ rfl, rfl, hloc _ _, hkeep⟩
  | lost e =>
    cases hchange : change (net.items l) with
    | ok item => exact ⟨_, herror e _ rfl, rfl, hloc _ _, hput item hchange⟩
    | error e' => exact ⟨_, herror e _ rfl, rfl, hloc _ _, hkeep⟩

theorem Delivered.endIsSuccess {d : Delivery} {status : Status} (h : Delivered d status) :
    endIsSuccess status = status := by
  unfold PhpMemcached.endIsSuccess
  split
  · rename_i hend
    subst hend
    exact (h.success rfl).symm
  · rfl

variable {pool} {rest : Handler Call Ans Net} {s : State} {l : Loc} {net net₀ : Net}
  {ds : List Delivery} {f : Option Item → Option Item} {α : Type}

/-- an attempt that leaves the object alone and makes one delivery of the update -/
def OneDelivery (rest : Handler Call Ans Net) (pool : Pool) (f : Option Item → Option Item)
    (l : Loc) (code : α → Status) (m : MemcM α) (s : State) : Prop :=
  ∀ net, ∃ a d net', Cmd.exec (pool.handler rest) m s net = (.done a s, net') ∧
    Delivered d (code a) ∧ Updates f l net [d] net'

/-- **The tally of a retried update.** -/
theorem retry_updates {more : State → α → Bool} {again : α → MemcM α} {code : α → Status}
    (hmore : ∀ a, more s a = true → sMemcachedReturnIsError (code a) true = true)
    (hagain : ∀ a, more s a = true → OneDelivery rest pool f l code (again a) s) (n : Nat) {a : α}
    (hup : Updates f l net₀ ds net) (ht : Tally ds (code a)) :
    ∃ a' ds' net', Cmd.exec (pool.handler rest) (Cmd.retry more again n a) s net =
        (.done a' s, net') ∧ Updates f l net₀ ds' net' ∧ Tally ds' (code a') := by
  induction n generalizing a ds net with
  | zero => exact ⟨a, ds, net, rfl, hup, ht⟩
  | succ n ih =>
    cases hm : more s a with
    | false =>
      refine ⟨a, ds, net, ?_, hup, ht⟩
      rw [Cmd.exec, Cmd.retry_of_not_more hm]
      rfl
    | true =>
      obtain ⟨a₁, d, net₁, hx, hd, hup₁⟩ := hagain a hm net
      obtain ⟨a₂, ds₂, net₂, hx₂, hup₂, ht₂⟩ :=
        ih (hup.trans hup₁) (ht.snoc (hmore a hm) hd)
      refine ⟨a₂, ds₂, net₂, ?_, hup₂, ht₂⟩
      rw [Cmd.exec, Cmd.retry_of_more hm]
      exact (Cmd.exec_bind_done hx).trans hx₂

/-- the first attempt and its retries -/
theorem attempts_update {more : State → α → Bool} {again : α → MemcM α} {code : α → Status}
    {first : MemcM α}
    (hmore : ∀ a, more s a = true → sMemcachedReturnIsError (code a) true = true)
    (hfirst : OneDelivery rest pool f l code first s)
    (hagain : ∀ a, more s a = true → OneDelivery rest pool f l code (again a) s) (n : Nat)
    (net : Net) :
    ∃ a ds net', Cmd.exec (pool.handler rest) (first >>= Cmd.retry more again n) s net =
        (.done a s, net') ∧ Updates f l net ds net' ∧ Tally ds (code a) := by
  obtain ⟨a₁, d, net₁, hx, hd, hup⟩ := hfirst net
  obtain ⟨a₂, ds, net₂, hx₂, hup₂, ht⟩ := retry_updates hmore hagain n hup hd.tally
  exact ⟨a₂, ds, net₂, (Cmd.exec_bind_done hx).trans hx₂, hup₂, ht⟩

/-! ## a write -/

/-- an attempt is one store request -/
theorem exec_writeAttempt (env : Env) (pool : Pool) (rest : Handler Call Ans Net) {op : WriteOp}
    {fn : StoreFn} (hop : op.storeFn = some fn) (key payload : Bytes) (expiration : Int64)
    (flags : Flags) (s : State) (net : Net) :
    Cmd.exec (pool.handler rest) (writeAttempt env op none key (some payload) expiration flags) s
        net =
      (.done (endIsSuccess (pool.store (.store s.memc fn key payload expiration flags)
          (pool.loc s.memc none key) fn payload expiration flags net).1) s,
        (pool.store (.store s.memc fn key payload expiration flags)
          (pool.loc s.memc none key) fn payload expiration flags net).2) := by
  cases op <;> cases hop <;> rfl

theorem oneDelivery_writeAttempt (env : Env) {op : WriteOp} {fn : StoreFn}
    (hop : op.storeFn = some fn) (key payload : Bytes) (expiration : Int64) (flags : Flags) :
    OneDelivery rest pool (updateItem (storeChange fn payload expiration flags))
      (pool.loc s.memc none key) id
      (writeAttempt env op none key (some payload) expiration flags) s := by
  intro net
  let c : Call := .store s.memc fn key payload expiration flags
  let r := pool.store c (pool.loc s.memc none key) fn payload expiration flags net
  obtain ⟨d, hd, hup⟩ := deliver_updates pool c (pool.loc s.memc none key)
    (storeChange fn payload expiration flags) net
  have hstore := exec_writeAttempt env pool rest hop key payload expiration flags s net
  rw [show endIsSuccess (pool.store _ _ _ _ _ _ _).1 = r.1 from hd.endIsSuccess] at hstore
  exact ⟨r.1, d, r.2, hstore, hd, hup⟩

theorem isError_of_shouldRetry {status : Status} (h : sShouldRetryWrite s status = true) :
    sMemcachedReturnIsError status true = true := ((sShouldRetryWrite_eq s status).mp h).2

/-- the end of a call: the code is kept, and success is reported for one that is no error -/
theorem exec_handleResultCode (pool : Pool) (rest : Handler Call Ans Net) (status : Status)
    (s : State) (net : Net) :
    ∃ s', Cmd.exec (pool.handler rest) (sMemcStatusHandleResultCode status) s net =
        (.done (!sMemcachedReturnIsError status true) s', net) ∧
      s'.memc = s.memc ∧ s'.rescode = status ∧ s'.exception = s.exception := by
  unfold sMemcStatusHandleResultCode sMemcSetStatus
  rw [Cmd.exec_modify_bind]
  cases sMemcachedReturnIsError status true with
  | true => exact ⟨_, rfl, rfl, rfl, rfl⟩
  | false => exact ⟨_, rfl, rfl, rfl, rfl⟩

/-- what a write without a `server_key` comes to when it has something to send -/
structure Wrote (env : Env) (pool : Pool) (fn : StoreFn) (key : Bytes) (payload : Bytes)
    (expiration : Int64) (flags : Flags) (s : State) (net : Net) (ok : Bool) (s' : State)
    (net' : Net) (ds : List Delivery) : Prop where
  updates : Updates (updateItem (storeChange fn payload expiration flags))
    (pool.loc s.memc none key) net ds net'
  tally : Tally ds s'.rescode
  ok : ok = !sMemcachedReturnIsError s'.rescode true
  memc : s'.memc = s.memc

/-- a write that has a payload comes down to its attempts -/
theorem exec_sMemcWriteZval_attempts (env : Env) (h : Handler Call Ans Net) (op : WriteOp)
    (key : Bytes) {value : Zval} (expiration : Int64) {s : State} (net : Net) {payload : Bytes}
    {flags : Flags} (hout : payloadOut env s value 0 = .payload payload flags)
    (hbig : sIsPayloadTooBig s payload = false) :
    ∃ s₁, SameButException s s₁ ∧
      Cmd.exec h (sMemcWriteZval env op none key (some value) expiration) s net =
        Cmd.exec h ((writeAttempt env op none key (some payload) expiration flags >>=
          Cmd.retry sShouldRetryWrite
            (fun _ => writeAttempt env op none key (some payload) expiration flags)
            s.memc.userData.storeRetryCount.toInt.toNat) >>= sMemcStatusHandleResultCode) s₁
          net := by
  have hsend : writeOut env s (some value) = .send (some payload) flags := by
    show (payloadOut env s value 0).toWrite s = _
    rw [hout, PayloadOut.toWrite, hbig, if_neg Bool.false_ne_true]
  rw [← writeAttempts_eq]
  exact exec_sMemcWriteZval_sent env hsend op none key expiration h net

/-- **A write that has a payload makes its update as the tally says.** -/
theorem exec_sMemcWriteZval (env : Env) (pool : Pool) (rest : Handler Call Ans Net)
    {op : WriteOp} {fn : StoreFn} (hop : op.storeFn = some fn) (key : Bytes) {value : Zval}
    (expiration : Int64) {s : State} (net : Net) {payload : Bytes}
    {flags : Flags} (hout : payloadOut env s value 0 = .payload payload flags)
    (hbig : sIsPayloadTooBig s payload = false) :
    ∃ ok s' net' ds, Cmd.exec (pool.handler rest)
        (sMemcWriteZval env op none key (some value) expiration) s net = (.done ok s', net') ∧
      Wrote env pool fn key payload expiration flags s net ok s' net' ds := by
  obtain ⟨s₁, hs₁, hx⟩ := exec_sMemcWriteZval_attempts env (pool.handler rest) op key
    expiration net hout hbig
  have hone : OneDelivery rest pool (updateItem (storeChange fn payload expiration flags))
      (pool.loc s₁.memc none key) id
      (writeAttempt env op none key (some payload) expiration flags) s₁ :=
    oneDelivery_writeAttempt env hop key payload expiration flags
  obtain ⟨st, ds, net₁, hattempts, hup, ht⟩ := attempts_update
    (fun _ h => isError_of_shouldRetry h) hone (fun _ _ => hone)
    s.memc.userData.storeRetryCount.toInt.toNat net
  obtain ⟨s₂, hend, hmemc, hcode, -⟩ := exec_handleResultCode pool rest st s₁ net₁
  rw [← hcode] at ht
  rw [hs₁.memc] at hup
  refine ⟨!sMemcachedReturnIsError st true, s₂, net₁, ds, ?_, hup, ht, ?_, hmemc.trans hs₁.memc⟩
  · rw [hx, Cmd.exec_bind_done hattempts]
    exact hend
  · rw [hcode]

/-- a `set` that was applied leaves its item, however often -/
theorem iterate_set (payload : Bytes) (e : Int64) (flags : Flags) (n : Nat) (item : Option Item) :
    (updateItem (storeChange .set payload e flags))^[n + 1] item = some ⟨payload, flags, e⟩ :=
  Function.iterate_succ_apply' _ n item

/-- a write that succeeds had a payload to send -/
theorem payload_of_sMemcWriteZval (env : Env) {op : WriteOp} {serverKey : Option Bytes}
    {key : Bytes} {value : Zval} {expiration : Int64} {s s' : State} {σ : Type}
    {h : Handler Call Ans σ} {w w' : σ}
    (hx : Cmd.exec h (sMemcWriteZval env op serverKey key (some value) expiration) s w =
      (.done true s', w')) :
    ∃ payload flags, payloadOut env s value 0 = .payload payload flags ∧
      sIsPayloadTooBig s payload = false := by
  unfold sMemcWriteZval at hx
  rw [Cmd.exec_get_bind] at hx
  obtain ⟨r, s₁, w₁, hpayload, hrest⟩ := Cmd.exec_bind_inv hx
  have hend := (ends_writePayload env s (some value)).exec h w
  rw [hpayload] at hend
  cases r with
  | error st => cases hrest
  | ok r =>
    change ((payloadOut env s value 0).toWrite s).Ends s (.done (.ok r) s₁) at hend
    cases hout : payloadOut env s value 0 with
    | failed => rw [hout] at hend; exact hend.elim
    | crash => rw [hout] at hend; exact hend.elim
    | payload p f =>
      refine ⟨p, f, rfl, ?_⟩
      rw [hout] at hend
      cases hbig : sIsPayloadTooBig s p with
      | false => rfl
      | true =>
        rw [PayloadOut.toWrite, hbig] at hend
        exact hend.elim

/-- a write that succeeds has made its update as the tally says -/
theorem wrote_of_sMemcWriteZval (env : Env) {op : WriteOp} {fn : StoreFn}
    (hop : op.storeFn = some fn) {key : Bytes} {value : Zval} {expiration : Int64} {s s' : State}
    {net net' : Net} (hx : Cmd.exec (pool.handler rest)
      (sMemcWriteZval env op none key (some value) expiration) s net = (.done true s', net')) :
    ∃ payload flags ds, payloadOut env s value 0 = .payload payload flags ∧
      Wrote env pool fn key payload expiration flags s net true s' net' ds := by
  obtain ⟨payload, flags, hout, hbig⟩ := payload_of_sMemcWriteZval env hx
  obtain ⟨ok, s₁, net₁, ds, hx₁, hwrote⟩ :=
    exec_sMemcWriteZval env pool rest hop key expiration net hout hbig
  rw [hx] at hx₁
  cases hx₁
  exact ⟨payload, flags, ds, hout, hwrote⟩

/-! ## the methods around a write -/

/-- what a call returns on success -/
def Zval.Succeeded : Zval → Prop
  | .bool true | .long _ => True
  | _ => False

/-- past the key test, on success -/
theorem exec_checkKeyOr {h : Handler Call Ans Net} {key : Bytes} {next : MemcM Zval} {ret : Zval}
    {s s' : State} {net net' : Net} (hret : ret.Succeeded)
    (hx : Cmd.exec h (checkKeyOr key next) s net = (.done ret s', net')) :
    memcCheckKey s.memc key = true ∧ Cmd.exec h next s net = (.done ret s', net') := by
  unfold checkKeyOr at hx
  rw [Cmd.exec_get_bind] at hx
  split at hx
  · rename_i hkey
    exact ⟨hkey, hx⟩
  · cases hx
    exact hret.elim

/-- a store call that succeeds is a write that succeeds, past the two tests -/
theorem exec_phpMemcStoreImpl {env : Env} {h : Handler Call Ans Net} {op : WriteOp} {key : Bytes}
    {value : Option Zval} {expiration : Int64} {ret : Zval} {s s' : State} {net net' : Net}
    (hret : ret.Succeeded)
    (hx : Cmd.exec h (phpMemcStoreImpl env op none key value expiration) s net =
      (.done ret s', net')) :
    memcCheckKey s.memc key = true ∧
      ((op == .append || op == .prepend) = true →
        s.memc.userData.compressionEnabled = false) ∧
      Cmd.exec h (sMemcWriteZval env op none key value expiration)
        { s with rescode := .success, memcErrno := 0 } net = (.done true s', net') := by
  unfold phpMemcStoreImpl sMemcSetStatus at hx
  rw [Cmd.exec_modify_bind] at hx
  obtain ⟨hkey, hx⟩ := exec_checkKeyOr hret hx
  rw [Cmd.exec_get_bind] at hx
  split at hx
  · obtain ⟨_, _, _, -, hend⟩ := Cmd.exec_bind_inv hx
    cases hend
    exact hret.elim
  · rename_i hcomp
    obtain ⟨ok, s₁, net₁, hwrite, hend⟩ := Cmd.exec_bind_inv hx
    cases hend
    cases ok with
    | false => exact hret.elim
    | true =>
      refine ⟨hkey, fun hop => ?_, hwrite⟩
      rw [hop, Bool.and_true, Bool.not_eq_true] at hcomp
      exact hcomp

end
end PhpMemcached
