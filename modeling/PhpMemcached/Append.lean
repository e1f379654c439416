import PhpMemcached.Lib.Steps
import PhpMemcached.Ops
import PhpMemcached.PoolRead
import PhpMemcached.RoundTrip

/-!
# Strings that are appended to

Any number of clients make calls on one pool.

* `Sys`, `Sys.next`   the objects of the clients, the pool, and the string each item holds;
* `Careful`           the calls that keep what is held: no piece is added to an item that is stored
                      compressed, or added twice, and no string too long for the header is
                      compressed;
* `Sys.Carried`       the invariant of such runs: an item carries the string it holds.

Before a piece is added the object is asked whether it compresses, not the item whether it is
compressed.
-/

namespace PhpMemcached
open Ascii Requests

/-- the calls that write -/
inductive StoreCall where
  | set (value : Zval) (expiration : Int64)
  | append (piece : Bytes)
  | prepend (piece : Bytes)

namespace StoreCall

def op : StoreCall → WriteOp
  | .set _ _ => .set
  | .append _ => .append
  | .prepend _ => .prepend

def value : StoreCall → Zval
  | .set value _ => value
  | .append piece | .prepend piece => .str piece

def expiration : StoreCall → Int64
  | .set _ expiration => expiration
  | _ => 0

/-- what a success makes of the string that is held -/
def holds : StoreCall → Option Bytes → Option Bytes
  | .set (.str b) _, _ => some b
  | .set _ _, _ => none
  | .append piece, held => held.map (· ++ piece)
  | .prepend piece, held => held.map (piece ++ ·)

end StoreCall

/-- a call of the client `i`; `setOption` leaves the object as it likes -/
inductive Act (ι : Type) where
  | store (i : ι) (key : Bytes) (c : StoreCall)
  | get (i : ι) (key : Bytes) (hasCallback extended : Bool)
  | setOption (i : ι) (object : State)

structure Sys (ι : Type) where
  objects : ι → State
  net : Net
  /-- the string an item was set to, and changed from by successful appends and prepends alone -/
  held : Loc → Option Bytes

/-- the method returned true -/
def returnedTrue : Outcome Abort State Zval → Bool
  | .done (.bool true) _ => true
  | _ => false

section
variable {ι : Type} [DecidableEq ι] (envs : ι → Env) (pool : Pool) (rest : Handler Call Ans Net)

namespace Sys

/-- the place of a key of the client `i` -/
def loc (sys : Sys ι) (i : ι) (key : Bytes) : Loc := pool.loc (sys.objects i).memc none key

/-- after a call of `i`: an item that was changed holds no string -/
def after (sys : Sys ι) (i : ι) (r : Outcome Abort State Zval × Net) : Sys ι where
  objects := Function.update sys.objects i r.1.state
  net := r.2
  held l := if r.2.items l = sys.net.items l then sys.held l else none

/-- the run of a call that writes -/
def store (sys : Sys ι) (i : ι) (key : Bytes) (c : StoreCall) : Outcome Abort State Zval × Net :=
  Cmd.exec (pool.handler rest)
    (phpMemcStoreImpl (envs i) c.op none key (some c.value) c.expiration) (sys.objects i) sys.net

/-- what a call leaves -/
def next (sys : Sys ι) : Act ι → Sys ι
  | .store i key c =>
    let r := sys.store envs pool rest i key c
    let sys' := sys.after i r
    let l := sys.loc pool i key
    if returnedTrue r.1 then { sys' with held := Function.update sys'.held l (c.holds (sys.held l)) }
    else sys'
  | .get i key hasCallback extended =>
    sys.after i (Cmd.exec (pool.handler rest)
      (phpMemcGetImpl (envs i) none key hasCallback extended) (sys.objects i) sys.net)
  | .setOption i object => { sys with objects := Function.update sys.objects i object }

end Sys

/-- of the attempts from the `k`-th update on, with `n` retries, the first one served is number
`i` -/
structure Pool.FirstServed (n k i : Nat) : Prop where
  le : i ≤ n
  served : pool.fate (k + i) = .served
  first : ∀ j < i, pool.fate (k + j) ≠ .served

/-- a request for the piece is made -/
def sendsPiece (s : State) (key piece : Bytes) : Bool :=
  memcCheckKey s.memc key && !s.memc.userData.compressionEnabled && !sIsPayloadTooBig s piece

/-- a piece that is added to an item holding a string: the item is not compressed, and the piece
is not added twice -/
def Sys.Addable (sys : Sys ι) (i : ι) (key piece : Bytes) : Prop :=
  sendsPiece (sys.objects i) key piece = true → sys.held (sys.loc pool i key) ≠ none →
    piece ≠ [] →
    ∀ n, pool.FirstServed (sys.objects i).memc.userData.storeRetryCount.toInt.toNat
        sys.net.trace.length n →
      (∀ item ∈ sys.net.items (sys.loc pool i key),
        memcValHasFlag item.flags memcValCompressed = false) ∧
      ∀ j < n, ∀ e, pool.fate (sys.net.trace.length + j) ≠ .lost e

/-- the calls of a careful run -/
def Careful (sys : Sys ι) : Act ι → Prop
  | .store i _ (.set (.str b) _) =>
    ∀ payload flags, payloadOut (envs i) (sys.objects i) (.str b) 0 = .payload payload flags →
      memcValHasFlag flags memcValCompressed = true → b.length < 2 ^ 32
  | .store i key (.append piece) => sys.Addable pool i key piece
  | .store i key (.prepend piece) => sys.Addable pool i key piece
  | _ => True

/-- the runs of the clients whose calls meet `ok` -/
abbrev Sys.Runs (ok : Sys ι → Act ι → Prop) : Sys ι → Sys ι → Prop :=
  Requests.Runs (fun sys a sys' => sys' = sys.next envs pool rest a) ok

/-- every client reads the item as the string `b` -/
structure HoldsString (b : Bytes) (item : Item) : Prop where
  carries : ∀ j, Carries (envs j) b item.payload item.flags
  type : memcValGetType item.flags = memcValIsString

/-- an item carries the string it holds -/
def Sys.Carried (sys : Sys ι) : Prop :=
  ∀ l b, sys.held l = some b → ∃ item, sys.net.items l = some item ∧ HoldsString envs b item

variable {envs pool rest} {sys : Sys ι} {i : ι} {key : Bytes} {c : StoreCall}

omit [DecidableEq ι] in
/-- the decoder of any client reads the string -/
theorem HoldsString.decode {b : Bytes} {item : Item} (h : HoldsString envs b item) (j : ι)
    (rser : SerializerType) :
    sMemcachedResultToZval (envs j) rser (.bytes item.payload) item.flags = .plain (.str b) := by
  rw [(h.carries j).read rser, h.type]
  unfold decodeData
  rw [ZStr.bytes_ofBytes]
  rfl

theorem Sys.Carried.after (h : sys.Carried envs) (r : Outcome Abort State Zval × Net) :
    (sys.after i r).Carried envs := by
  intro l b hl
  change (if r.2.items l = sys.net.items l then sys.held l else none) = some b at hl
  split at hl
  · rename_i hsame
    show ∃ item, r.2.items l = some item ∧ _
    rw [hsame]
    exact h l b hl
  · cases hl

/-! ## a string that is set -/

omit [DecidableEq ι] in
theorem HoldsString.of_payloadOut (hl : ∀ i j, Lossless (envs i) (envs j)) (i : ι) {s : State}
    {b payload : Bytes} {flags : Flags} (expiration : Int64)
    (hout : payloadOut (envs i) s (.str b) 0 = .payload payload flags)
    (hlen : memcValHasFlag flags memcValCompressed = true → b.length < 2 ^ 32) :
    HoldsString envs b ⟨payload, flags, expiration⟩ := by
  obtain ⟨hclear, huser⟩ := setType_zero_clear memcValIsString
  change finishOut (envs i) s s.memc.userData.compressionEnabled b _ = _ at hout
  -- a payload that is not compressed is one of a client that does not compress
  obtain ⟨compress, hshort, hfinish⟩ : ∃ compress : Bool, (compress = true → b.length < 2 ^ 32) ∧
      finishPayload (envs i) s.memc.userData compress b (memcValSetType 0 memcValIsString) =
        (payload, flags) := by
    cases hout
    cases hflag : memcValHasFlag (finishPayload (envs i) s.memc.userData
        s.memc.userData.compressionEnabled b (memcValSetType 0 memcValIsString)).2
        memcValCompressed with
    | true => exact ⟨_, fun _ => hlen hflag, rfl⟩
    | false =>
      exact ⟨false, fun h => absurd h Bool.false_ne_true,
        (finishPayload_of_not_compressed _ _ _ _ hclear hflag).symm⟩
  have hfin : ∀ j, Finished (envs j) s.memc.userData b (memcValSetType 0 memcValIsString)
      (payload, flags) := fun j =>
    hfinish ▸ finishPayload_finished (hl i j) s.memc.userData hshort hclear huser
  exact ⟨fun j => (hfin j).carries, (hfin i).type⟩

/-! ## a piece that is added -/

omit [DecidableEq ι] in
/-- an item that is not compressed takes the piece into the string it carries -/
theorem HoldsString.append {b : Bytes} {item : Item} (h : HoldsString envs b item)
    (piece : Bytes) (hplain : piece = [] ∨ memcValHasFlag item.flags memcValCompressed = false) :
    HoldsString envs (b ++ piece) { item with payload := item.payload ++ piece } := by
  rcases hplain with rfl | hplain
  · rw [List.append_nil, List.append_nil]
    exact h
  · refine ⟨fun j => .inl ⟨hplain, ?_⟩, h.type⟩
    rcases h.carries j with ⟨-, hp⟩ | ⟨hc, -⟩
    · rw [hp]
    · exact absurd (hplain.symm.trans hc) Bool.false_ne_true

omit [DecidableEq ι] in
theorem HoldsString.prepend {b : Bytes} {item : Item} (h : HoldsString envs b item)
    (piece : Bytes) (hplain : piece = [] ∨ memcValHasFlag item.flags memcValCompressed = false) :
    HoldsString envs (piece ++ b) { item with payload := piece ++ item.payload } := by
  rcases hplain with rfl | hplain
  · exact h
  · refine ⟨fun j => .inl ⟨hplain, ?_⟩, h.type⟩
    rcases h.carries j with ⟨-, hp⟩ | ⟨hc, -⟩
    · rw [hp]
    · exact absurd (hplain.symm.trans hc) Bool.false_ne_true

section
variable (env : Env) {op : WriteOp} {fn : StoreFn} (hop : op.storeFn = some fn)
  {payload : Bytes} {expiration : Int64} {flags : Flags} {grow : Item → Item} {s : State}
  {net : Net} {item : Item}
include hop

variable (rest) in
omit [DecidableEq ι] in
/-- one attempt on an item: it is served, or ends with an error -/
theorem exec_writeAttempt_grow
    (hgrow : ∀ item, storeChange fn payload expiration flags (some item) = .ok (grow item))
    (hitem : net.items (pool.loc s.memc none key) = some item) :
    ∃ status net₁ item₁, Cmd.exec (pool.handler rest)
        (writeAttempt env op none key (some payload) expiration flags) s net =
        (.done status s, net₁) ∧ net₁.trace.length = net.trace.length + 1 ∧
      net₁.items (pool.loc s.memc none key) = some item₁ ∧
      ((pool.fate net.trace.length = .served ∧ status = .success ∧ item₁ = grow item) ∨
        (pool.fate net.trace.length ≠ .served ∧ sMemcachedReturnIsError status true = true ∧
          ∃ m, item₁ = grow^[m] item ∧ ((∀ e, pool.fate net.trace.length ≠ .lost e) → m = 0))) := by
  have hlength : ∀ d : Delivery, (net.trace ++ [d]).length = net.trace.length + 1 :=
    fun d => List.length_append
  have herror : ∀ e : ErrorCode,
      sMemcachedReturnIsError (endIsSuccess e.status) true = true := fun e => by
    rw [isError_endIsSuccess]
    exact e.isError
  have hput : net.put (pool.loc s.memc none key) (grow item) (pool.loc s.memc none key) =
      some (grow item) := Function.update_self ..
  rw [exec_writeAttempt env pool rest hop, Pool.store, hitem, hgrow]
  unfold Pool.deliver
  cases hfate : pool.fate net.trace.length with
  | served => exact ⟨_, _, _, rfl, hlength _, hput, .inl ⟨rfl, rfl, rfl⟩⟩
  | refused e =>
    exact ⟨_, _, _, rfl, hlength _, hitem, .inr ⟨nofun, herror e, 0, rfl, fun _ => rfl⟩⟩
  | lost e =>
    exact ⟨_, _, _, rfl, hlength _, hput, .inr ⟨nofun, herror e, 1, rfl, fun h => absurd rfl (h e)⟩⟩

variable (rest) in
omit [DecidableEq ι] in
/-- the attempts on an item: they end with an error, or with the first one served; without an answer
that was lost this is the only one made -/
theorem exec_writeAttempts_grow
    (hgrow : ∀ item, storeChange fn payload expiration flags (some item) = .ok (grow item)) (n : Nat)
    (hitem : net.items (pool.loc s.memc none key) = some item) :
    ∃ status net', Cmd.exec (pool.handler rest)
        (writeAttempt env op none key (some payload) expiration flags >>=
          Cmd.retry sShouldRetryWrite
            (fun _ => writeAttempt env op none key (some payload) expiration flags) n) s net =
        (.done status s, net') ∧
      (sMemcachedReturnIsError status true = false →
        ∃ i m, pool.FirstServed n net.trace.length i ∧
          net'.items (pool.loc s.memc none key) = some (grow^[m + 1] item) ∧
          ((∀ j < i, ∀ e, pool.fate (net.trace.length + j) ≠ .lost e) → m = 0)) := by
  induction n generalizing net item with
  | zero =>
    obtain ⟨status, net₁, item₁, hx, -, hitem₁, hfate⟩ :=
      exec_writeAttempt_grow rest env hop hgrow hitem
    refine ⟨status, net₁, Cmd.exec_bind_done hx, fun hok => ?_⟩
    rcases hfate with ⟨hserved, -, rfl⟩ | ⟨-, herr, -⟩
    · exact ⟨0, 0, ⟨le_rfl, hserved, nofun⟩, hitem₁, fun _ => rfl⟩
    · exact absurd (hok.symm.trans herr) Bool.false_ne_true
  | succ n ih =>
    obtain ⟨status, net₁, item₁, hx, hlen, hitem₁, hfate⟩ :=
      exec_writeAttempt_grow rest env hop hgrow hitem
    rw [Cmd.exec_bind_done hx]
    cases hmore : sShouldRetryWrite s status with
    | false =>
      refine ⟨status, net₁, ?_, fun hok => ?_⟩
      · rw [Cmd.exec, Cmd.retry_of_not_more hmore]
        rfl
      · rcases hfate with ⟨hserved, -, rfl⟩ | ⟨-, herr, -⟩
        · exact ⟨0, 0, ⟨Nat.zero_le _, hserved, nofun⟩, hitem₁, fun _ => rfl⟩
        · exact absurd (hok.symm.trans herr) Bool.false_ne_true
    | true =>
      obtain ⟨status', net', hx', hend⟩ := ih hitem₁
      refine ⟨status', net', ?_, fun hok => ?_⟩
      · rw [Cmd.exec, Cmd.retry_of_more hmore]
        exact hx'
      · rcases hfate with ⟨-, rfl, -⟩ | ⟨hunserved, -, m₁, rfl, hkeep⟩
        · exact absurd (isError_of_shouldRetry hmore) (by decide)
        · obtain ⟨i, m, hfirst, hitems, hnone⟩ := hend hok
          rw [hlen] at hfirst hnone
          rw [← Function.iterate_add_apply] at hitems
          -- the further attempts are the first ones of the rest
          have hshift : ∀ j, net.trace.length + (j + 1) = net.trace.length + 1 + j := by
            intro j
            omega
          refine ⟨i + 1, m + m₁, ⟨Nat.succ_le_succ hfirst.le, ?_, fun j hj => ?_⟩, ?_, fun hlost => ?_⟩
          · rw [hshift]
            exact hfirst.served
          · cases j with
            | zero => exact hunserved
            | succ j =>
              rw [hshift]
              exact hfirst.first j (Nat.lt_of_succ_lt_succ hj)
          · rw [hitems, Nat.add_right_comm]
          · rw [hkeep (hlost 0 (Nat.succ_pos i))]
            refine hnone fun j hj e => ?_
            rw [← hshift]
            exact hlost (j + 1) (Nat.succ_lt_succ hj) e

omit [DecidableEq ι] in
/-- an `append` or `prepend` that succeeds on an item: the piece is sent, and is added once, or more
often if an answer was lost -/
theorem exec_add {piece : Bytes} {s' : State} {net' : Net}
    (hguard : (op == .append || op == .prepend) = true)
    (hx : Cmd.exec (pool.handler rest) (phpMemcStoreImpl env op none key (some (.str piece)) 0) s
      net = (.done (.bool true) s', net'))
    (hgrow : ∀ flags item, storeChange fn piece 0 flags (some item) = .ok (grow item))
    (hitem : net.items (pool.loc s.memc none key) = some item) :
    sendsPiece s key piece = true ∧
      ∃ i m, pool.FirstServed s.memc.userData.storeRetryCount.toInt.toNat net.trace.length i ∧
        net'.items (pool.loc s.memc none key) = some (grow^[m + 1] item) ∧
        ((∀ j < i, ∀ e, pool.fate (net.trace.length + j) ≠ .lost e) → m = 0) := by
  have htrue : (Zval.bool true).Succeeded := trivial
  obtain ⟨hkey, hcomp, hwrite⟩ := exec_phpMemcStoreImpl htrue hx
  replace hcomp := hcomp hguard
  obtain ⟨payload, flags, hout, hbig⟩ := payload_of_sMemcWriteZval env hwrite
  obtain ⟨s₁, hs₁, hattempts⟩ := exec_sMemcWriteZval_attempts env (pool.handler rest) op
    key 0 net hout hbig
  obtain rfl : payload = piece := by
    rw [payloadOut_str_plain (s := { s with rescode := .success, memcErrno := 0 }) env piece
      hcomp] at hout
    cases hout
    exact finishPayload_plain env s.memc.userData piece _
  have hloc : pool.loc s₁.memc none key = pool.loc s.memc none key := by
    rw [hs₁.memc]
  obtain ⟨status, net₁, hrun, hend⟩ := exec_writeAttempts_grow rest env hop
    (hgrow flags) s.memc.userData.storeRetryCount.toInt.toNat (hloc ▸ hitem)
  obtain ⟨s₂, hhandle, -, -, -⟩ := exec_handleResultCode pool rest status s₁ net₁
  rw [hwrite, Cmd.exec_bind_done hrun, hhandle] at hattempts
  rw [Prod.mk.injEq, Outcome.done.injEq] at hattempts
  obtain ⟨⟨hok, -⟩, rfl⟩ := hattempts
  rw [hloc] at hend
  refine ⟨?_, hend ((Bool.not_eq_true' _).mp hok.symm)⟩
  show (memcCheckKey s.memc key && !s.memc.userData.compressionEnabled && !_) = true
  rw [hkey, hcomp, show sIsPayloadTooBig s payload = false from hbig]
  rfl

end

/-! ## the invariant is kept -/

theorem returnedTrue_eq {r : Outcome Abort State Zval} (h : returnedTrue r = true) :
    ∃ s', r = .done (.bool true) s' := by
  unfold returnedTrue at h
  split at h
  · exact ⟨_, rfl⟩
  · cases h

/-- it is enough to look at the item of a call that succeeds -/
theorem Sys.Carried.store (h : sys.Carried envs)
    (hitem : ∀ s', (sys.store envs pool rest i key c).1 = .done (.bool true) s' →
      ∀ b, c.holds (sys.held (sys.loc pool i key)) = some b →
        ∃ item, (sys.store envs pool rest i key c).2.items (sys.loc pool i key) = some item ∧
          HoldsString envs b item) :
    (sys.next envs pool rest (.store i key c)).Carried envs := by
  have hafter := h.after (i := i) (sys.store envs pool rest i key c)
  unfold Sys.next
  dsimp only
  split
  · rename_i htrue
    obtain ⟨s', hs'⟩ := returnedTrue_eq htrue
    intro l b hb
    by_cases hl : l = sys.loc pool i key
    · subst hl
      change Function.update _ _ _ _ = _ at hb
      rw [Function.update_self] at hb
      exact hitem s' hs' b hb
    · change Function.update _ _ _ _ = _ at hb
      rw [Function.update_of_ne hl] at hb
      exact hafter l b hb
  · exact hafter

omit [DecidableEq ι] in
/-- a `set` that succeeds leaves the payload of its value -/
theorem exec_set {env : Env} {value : Zval} {expiration : Int64} {s s' : State} {net net' : Net}
    (hx : Cmd.exec (pool.handler rest) (phpMemcStoreImpl env .set none key (some value) expiration)
      s net = (.done (.bool true) s', net')) :
    ∃ payload flags, payloadOut env s value 0 = .payload payload flags ∧
      net'.items (pool.loc s.memc none key) = some ⟨payload, flags, expiration⟩ := by
  have htrue : (Zval.bool true).Succeeded := trivial
  obtain ⟨-, -, hwrite⟩ := exec_phpMemcStoreImpl htrue hx
  obtain ⟨payload, flags, ds, hout, hwrote⟩ := wrote_of_sMemcWriteZval env rfl hwrite
  have htally := hwrote.tally
  rw [Tally, (Bool.not_eq_true' _).mp hwrote.ok.symm] at htally
  refine ⟨payload, flags, hout, ?_⟩
  rw [hwrote.updates.items, htally]
  exact (Function.update_self ..).trans (iterate_set _ _ _ _ _)

omit [DecidableEq ι] in
/-- a piece that may be added makes the string longer -/
theorem Sys.Addable.holdsString (join : Bytes → Bytes) {op : WriteOp} {fn : StoreFn}
    {piece b : Bytes} {grow : Item → Item} {s' : State} {net' : Net}
    (hadd : sys.Addable pool i key piece) (hop : op.storeFn = some fn)
    (hguard : (op == .append || op == .prepend) = true)
    (hgrow : ∀ flags item, storeChange fn piece 0 flags (some item) = .ok (grow item))
    (hjoin : ∀ item, HoldsString envs b item →
      (piece = [] ∨ memcValHasFlag item.flags memcValCompressed = false) →
      HoldsString envs (join b) (grow item))
    (hnil : piece = [] → grow = id) (h : sys.Carried envs)
    (hheld : sys.held (sys.loc pool i key) = some b)
    (hx : Cmd.exec (pool.handler rest)
      (phpMemcStoreImpl (envs i) op none key (some (.str piece)) 0) (sys.objects i) sys.net =
        (.done (.bool true) s', net')) :
    ∃ item, net'.items (sys.loc pool i key) = some item ∧ HoldsString envs (join b) item := by
  obtain ⟨item, hitem, hb⟩ := h _ b hheld
  obtain ⟨hsends, n, m, hfirst, hnew, hnone⟩ := exec_add (envs i) hop hguard hx hgrow hitem
  by_cases hpiece : piece = []
  · refine ⟨item, ?_, ?_⟩
    · refine hnew.trans ?_
      rw [hnil hpiece, Function.iterate_id]
      rfl
    · have hjoined := hjoin item hb (.inl hpiece)
      rw [hnil hpiece] at hjoined
      exact hjoined
  · have hne : sys.held (sys.loc pool i key) ≠ none := by
      rw [hheld]
      exact Option.some_ne_none b
    obtain ⟨hplain, hlost⟩ := hadd hsends hne hpiece n hfirst
    rw [hnone hlost] at hnew
    exact ⟨grow item, hnew, hjoin item hb (.inr (hplain item hitem))⟩

/-- **A careful call keeps the invariant.** -/
theorem Sys.Carried.next (hl : ∀ i j, Lossless (envs i) (envs j)) (h : sys.Carried envs)
    {a : Act ι} (hok : Careful envs pool sys a) : (sys.next envs pool rest a).Carried envs := by
  cases a with
  | store i key c =>
    refine h.store fun s' hs' b hb => ?_
    have hx : sys.store envs pool rest i key c =
        (.done (.bool true) s', (sys.store envs pool rest i key c).2) := by
      rw [← hs']
    cases c with
    | set value expiration =>
      obtain ⟨payload, flags, hout, hitem⟩ := exec_set hx
      refine ⟨_, hitem, ?_⟩
      cases value <;> cases hb
      exact .of_payloadOut hl i expiration hout (hok payload flags hout)
    | append piece =>
      obtain ⟨b₀, hheld, rfl⟩ := Option.map_eq_some_iff.mp hb
      exact Sys.Addable.holdsString (· ++ piece) hok rfl rfl (fun _ _ => rfl)
        (fun item hitem hplain => hitem.append piece hplain)
        (fun hnil => by funext item; rw [hnil, List.append_nil]; rfl) h hheld hx
    | prepend piece =>
      obtain ⟨b₀, hheld, rfl⟩ := Option.map_eq_some_iff.mp hb
      exact Sys.Addable.holdsString (piece ++ ·) hok rfl rfl (fun _ _ => rfl)
        (fun item hitem hplain => hitem.prepend piece hplain)
        (fun hnil => by funext item; rw [hnil]; rfl) h hheld hx
  | get i key hasCallback extended => exact h.after _
  | setOption i object => exact h

end

/-! ## one client -/

/-- a pool of one server that serves every request -/
def oneServer : Pool where
  route _ := 0
  count _ _ _ _ := .error .clientError
  fate _ := .served
  readFate _ := none
  cas _ _ := 0

section
variable (env : Env) (object : State)

/-- a client on an empty pool -/
def oneClient : Sys Unit := ⟨fun _ => object, emptyNet, fun _ => none⟩

/-- it has set the key `k` -/
def afterSet (b : Bytes) : Sys Unit :=
  (oneClient object).next (fun _ => env) oneServer calls (.store () (ascii ['k']) (.set (.str b) 0))

end

/-- a string as long as the threshold -/
def longString : Bytes := List.replicate 2000 97

/-- `setOption(OPT_COMPRESSION, false)` -/
def uncompressing (s : State) : State :=
  { s with memc := { s.memc with userData :=
    { s.memc.userData with compressionEnabled := false } } }

def packed : Unit → Env := fun _ => packingEnv longString

/-- a client that set the long string with compression, and then turned it off -/
def turnedOff : Sys Unit :=
  (afterSet (packed ()) zlibObject longString).next packed oneServer calls
    (.setOption () (uncompressing zlibObject))

/-- and appended `c` -/
def appended : Sys Unit :=
  turnedOff.next packed oneServer calls (.store () (ascii ['k']) (.append (ascii ['c'])))

end PhpMemcached
