import PhpMemcached.Passive
import Mathlib.Data.List.Forall2

/-!
# The loop over the results, round by round

* `exec_resultApplyLoop_nil`, `_quit`, `_skip`, `_apply`   the four kinds of rounds of
                         `php_memc_result_apply`: nothing is left, decoding has thrown, a result that
                         does not decode, one that does;
* `Handing`, `logged`    a call of the apply function, and an apply function that keeps a log of its
                         calls;
* `Hands`                the calls take their records off the stream one after the other;
* `TakesOff`             an apply function that does nothing to the results but take some off.

From the rounds, by induction on the number of results: the loop leaves no result of its request
behind, unless a stop leaves them to be fetched (`resultApply_synchronised`).
-/

namespace PhpMemcached
open Ascii Requests

/-- the code after a fetch: an error replaces the status -/
def fetchStatus (rc status : Status) : Status := if sMemcachedReturnIsError rc false then rc else status

/-- the value of a payload that decodes -/
def Decoded.result (d : Decoded) : Option Zval := if d.ok then some d.value else none

/-- the results of a handle replaced -/
def State.withStream (s : State) (stream : Stream) : State :=
  { s with memc := { s.memc with stream := stream } }

@[simp] theorem State.withStream_stream (s : State) (stream : Stream) :
    (s.withStream stream).memc.stream = stream := rfl
@[simp] theorem State.withStream_exception (s : State) (stream : Stream) :
    (s.withStream stream).exception = s.exception := rfl
@[simp] theorem State.withStream_userData (s : State) (stream : Stream) :
    (s.withStream stream).memc.userData = s.memc.userData := rfl

/-! ## rounds -/

section
variable (env : Env) {α σ : Type} (apply : ResultApplyFn α) (fetchDelay : Bool)
  (h : Handler Call Ans σ) {s s₁ : State} {w w₁ : σ} {rc : Status} {result : Result}
  {pending : List (Status × Result)} {last : Status}

theorem exec_memcachedFetchResult_nil (hs : s.memc.stream = ⟨[], last⟩) :
    Cmd.exec h memcachedFetchResult s w = (.done (none, last) s, w) ∧
      Cmd.log h memcachedFetchResult s w = [] := by
  unfold memcachedFetchResult
  rw [Cmd.exec_get_bind, Cmd.log_get_bind, hs]
  exact ⟨rfl, rfl⟩

theorem exec_memcachedFetchResult_cons (hs : s.memc.stream = ⟨(rc, result) :: pending, last⟩) :
    Cmd.exec h memcachedFetchResult s w =
        (.done (some result, rc) (s.withStream ⟨pending, last⟩), w) ∧
      Cmd.log h memcachedFetchResult s w = [] := by
  unfold memcachedFetchResult
  rw [Cmd.exec_get_bind, Cmd.log_get_bind, hs]
  dsimp only
  rw [Cmd.exec_modify_bind, hs]
  exact ⟨rfl, rfl⟩

/-- decoding changes nothing but the exception flag, and asks for nothing but a warning -/
theorem exec_resultToZval (result : Result) (s : State) (w : σ) :
    ∃ e w', Cmd.exec h (resultToZval env result) s w =
      (.done (sMemcachedResultToZval env s.memc.userData.serializer result.value
        result.flags).result { s with exception := e }, w') := by
  unfold resultToZval raise
  rw [Cmd.exec_get_bind, Cmd.exec_modify_bind]
  cases (sMemcachedResultToZval env s.memc.userData.serializer result.value
    result.flags).warning with
  | none => exact ⟨_, _, rfl⟩
  | some text => exact ⟨_, _, rfl⟩

/-- decoding under a handler that lets warnings pass -/
theorem exec_resultToZval_calm (hwarn : ∀ text w, (h (.warning text) w).1 = false)
    (hd : (sMemcachedResultToZval env s.memc.userData.serializer result.value
      result.flags).exception = false) (w : σ) :
    ∃ w', Cmd.exec h (resultToZval env result) s w =
      (.done (sMemcachedResultToZval env s.memc.userData.serializer result.value
        result.flags).result s, w') := by
  unfold resultToZval raise
  rw [Cmd.exec_get_bind, Cmd.exec_modify_bind, hd, Bool.or_false]
  cases (sMemcachedResultToZval env s.memc.userData.serializer result.value
    result.flags).warning with
  | none => exact ⟨_, rfl⟩
  | some text =>
    refine ⟨(h (.warning text) w).2, ?_⟩
    show (Outcome.done _ { s with exception := s.exception || (h (.warning text) w).1 }, _) = _
    rw [hwarn, Bool.or_false]
    rfl

/-- nothing is left -/
theorem exec_resultApplyLoop_nil (fuel : Nat) (status : Status) (acc : α) (hs : s.memc.stream = ⟨[], last⟩) :
    Cmd.exec h (resultApplyLoop env apply fetchDelay (fuel + 1) status acc) s w =
      (.done (fetchStatus last status, acc) s, w) := by
  unfold resultApplyLoop
  rw [Cmd.exec_bind_done (exec_memcachedFetchResult_nil h hs).1]
  rfl

/-- the rest of a round whose result has the code `rc` and decodes to `z`, or does not -/
def resultRound (fuel : Nat) (rc : Status) (result : Result) (status : Status) (acc : α) :
    Option Zval → MemcM (Status × α)
  | none => do
    let s ← Cmd.get
    if s.exception then
      memcachedQuit
      pure (.payloadFailure, acc)
    else resultApplyLoop env apply fetchDelay fuel .someErrors acc
  | some value => do
    let r ← apply acc result.key value (sUint64ToZval result.cas) result.flags
    if r.2 then resultApplyLoop env apply fetchDelay fuel (fetchStatus rc status) r.1
    else
      Cmd.when (!fetchDelay) drainResults
      pure (fetchStatus rc status, r.1)

/-- a round that takes a result off the stream, and its part of the log -/
theorem exec_resultApplyLoop_cons (fuel : Nat) (status : Status) (acc : α)
    (hs : s.memc.stream = ⟨(rc, result) :: pending, last⟩)
    {z : Option Zval}
    (hz : Cmd.exec h (resultToZval env result) (s.withStream ⟨pending, last⟩) w =
      (.done z s₁, w₁)) :
    Cmd.exec h (resultApplyLoop env apply fetchDelay (fuel + 1) status acc) s w =
        Cmd.exec h (resultRound env apply fetchDelay fuel rc result status acc z) s₁ w₁ ∧
      Cmd.log h (resultApplyLoop env apply fetchDelay (fuel + 1) status acc) s w =
        Cmd.log h (resultToZval env result) (s.withStream ⟨pending, last⟩) w ++
          Cmd.log h (resultRound env apply fetchDelay fuel rc result status acc z) s₁ w₁ := by
  obtain ⟨hfetch, hlog⟩ := exec_memcachedFetchResult_cons h (w := w) hs
  constructor
  · rw [resultApplyLoop, Cmd.exec_bind_done hfetch]
    dsimp only
    rw [Cmd.exec_bind_done hz]
    cases z <;> rfl
  · rw [resultApplyLoop, Cmd.log_bind_done hfetch, hlog, List.nil_append]
    dsimp only
    rw [Cmd.log_bind_done hz]
    cases z <;> rfl

end

/-! ## the calls of the apply function -/

/-- a call of the apply function: what it was given, whether it goes on, the serializer and the
results of the handle when it was called, the results when it returned -/
structure Handing where
  key : Bytes
  value : Zval
  cas : Zval
  flags : Flags
  goOn : Bool
  serializer : SerializerType
  upon : Stream
  left : Stream

/-- the call hands over the record `r` -/
structure Handing.Of (env : Env) (c : Handing) (r : Result) : Prop where
  key : c.key = r.key
  value : (sMemcachedResultToZval env c.serializer r.value r.flags).result = some c.value
  cas : c.cas = sUint64ToZval r.cas
  flags : c.flags = r.flags

/-- the calls take their records off the stream: each hands over the one just taken off, is left
with no more results than came after it, and is the last one if it stops -/
inductive Hands (env : Env) : List (Status × Result) → List Handing → Prop
  | done (pending : List (Status × Result)) : Hands env pending []
  | next (before : List (Status × Result)) {rc : Status} {r : Result} {c : Handing}
      {calls : List Handing} (hof : c.Of env r) (htook : c.left.pending <:+ c.upon.pending)
      (hstop : c.goOn = false → calls = []) (hcalls : Hands env c.left.pending calls) :
      Hands env (before ++ (rc, r) :: c.upon.pending) (c :: calls)

/-- an apply function that keeps a log of its calls -/
def logged {α : Type} (apply : ResultApplyFn α) : ResultApplyFn (α × List Handing) :=
  fun acc key value cas flags => do
    let upon ← Cmd.get
    let r ← apply acc.1 key value cas flags
    let left ← Cmd.get
    pure ((r.1, acc.2 ++ [⟨key, value, cas, flags, r.2, upon.memc.userData.serializer,
      upon.memc.stream, left.memc.stream⟩]), r.2)

/-- an apply function that does nothing to the results but take some off -/
def TakesOff {α : Type} (apply : ResultApplyFn α) : Prop :=
  ∀ acc key value cas flags s, Cmd.Sat (fun _ => True)
    (fun _ s' => ∃ n, s'.memc.stream = ⟨s.memc.stream.pending.drop n, s.memc.stream.last⟩)
    (apply acc key value cas flags) s

theorem takesOff_of_pure {α : Type} {apply : ResultApplyFn α}
    (f : α → Bytes → Zval → Zval → Flags → α × Bool)
    (h : apply = fun acc key value cas flags => pure (f acc key value cas flags)) :
    TakesOff apply := by
  subst h
  intro acc key value cas flags s
  exact ⟨0, rfl⟩

theorem takesOff_sGetApplyFn (extended : Bool) : TakesOff (sGetApplyFn extended) :=
  takesOff_of_pure _ rfl

theorem takesOff_sGetMultiApplyFn (extended : Bool) : TakesOff (sGetMultiApplyFn extended) :=
  takesOff_of_pure _ rfl

theorem takesOff_sFetchApply (env : Env) : TakesOff (sFetchApply env) := takesOff_of_pure _ rfl

theorem takesOff_sFetchAllApply (env : Env) : TakesOff (sFetchAllApply env) :=
  takesOff_of_pure _ rfl

theorem takesOff_sResultCallbackApply (env : Env) : TakesOff (sResultCallbackApply env) := by
  intro acc key value cas flags s
  unfold sResultCallbackApply
  rw [Cmd.sat_get_bind, Cmd.sat_req_bind]
  refine ⟨trivial, fun r => ?_⟩
  rw [Cmd.sat_modify_bind]
  by_cases hran : r.ran = true
  · rw [if_pos hran]
    exact ⟨r.fetched, rfl⟩
  · rw [if_neg hran]
    exact ⟨trivial, fun thrown => ⟨r.fetched, rfl⟩⟩

namespace Hands
variable {env : Env} {pending : List (Status × Result)} {calls : List Handing}

/-- a result that is passed over -/
theorem skip (x : Status × Result) (h : Hands env pending calls) :
    Hands env (x :: pending) calls := by
  cases h with
  | done => exact .done _
  | @next before rc r c calls hof htook hstop hcalls =>
    exact .next (x :: before) hof htook hstop hcalls

/-- each record is handed over at most once, and in the order of the stream -/
theorem sublist (h : Hands env pending calls) :
    ∃ records, records.Sublist (pending.map Prod.snd) ∧
      List.Forall₂ (Handing.Of env) calls records := by
  induction h with
  | done pending => exact ⟨[], List.nil_sublist _, .nil⟩
  | @next before rc r c calls hof htook hstop hcalls ih =>
    obtain ⟨records, hsub, hall⟩ := ih
    refine ⟨r :: records, ?_, .cons hof hall⟩
    rw [List.map_append, List.map_cons]
    have hrest : records.Sublist (c.upon.pending.map Prod.snd) :=
      hsub.trans (htook.sublist.map Prod.snd)
    exact (hrest.cons_cons r).trans (List.sublist_append_right _ _)

end Hands

/-- the request was answered: no result of it is on the stream, or the connection is closed -/
def Emptied (s s' : State) (log : List (Entry Call Ans)) : Prop :=
  s'.memc.stream = ⟨[], s.memc.stream.last⟩ ∨ ∃ e ∈ log, ∃ memc, e.req = .quit memc

theorem Emptied.append {s s₁ s' : State} {l₁ l₂ : List (Entry Call Ans)}
    (h : Emptied s₁ s' l₂) (hs : s₁.memc.stream.last = s.memc.stream.last) :
    Emptied s s' (l₁ ++ l₂) := by
  rcases h with h | ⟨e, he, memc, hq⟩
  · exact .inl (hs ▸ h)
  · exact .inr ⟨e, List.mem_append_right l₁ he, memc, hq⟩

/-- how the loop leaves the results of `s`, after these calls: it leaves none, unless a call has
stopped a fetch that is to go on later, which takes none after that -/
structure Synchronised (env : Env) (fetchDelay : Bool) (s s' : State) (calls : List Handing)
    (log : List (Entry Call Ans)) : Prop where
  hands : Hands env s.memc.stream.pending calls
  emptied : (fetchDelay = false ∨ ∀ c ∈ calls, c.goOn = true) → Emptied s s' log
  stopped : fetchDelay = true → ∀ c ∈ calls, c.goOn = false → s'.memc.stream = c.left

theorem Synchronised.of_no_calls {env : Env} {fetchDelay : Bool} {s s' : State}
    {log : List (Entry Call Ans)} (h : Emptied s s' log) :
    Synchronised env fetchDelay s s' [] log where
  hands := .done _
  emptied _ := h
  stopped _ _ hc := nomatch hc

section
variable (env : Env) {α σ : Type} {apply : ResultApplyFn α} (fetchDelay : Bool)
  (h : Handler Call Ans σ)

theorem exec_logged (calls : List Handing) {acc acc' : α} {key : Bytes} {value cas : Zval}
    {flags : Flags} {goOn : Bool} {s s' : State} {w w' : σ}
    (hx : Cmd.exec h (apply acc key value cas flags) s w = (.done (acc', goOn) s', w')) :
    Cmd.exec h (logged apply (acc, calls) key value cas flags) s w =
      (.done ((acc', calls ++ [⟨key, value, cas, flags, goOn, s.memc.userData.serializer,
        s.memc.stream, s'.memc.stream⟩]), goOn) s', w') := by
  unfold logged
  rw [Cmd.exec_get_bind, Cmd.exec_bind_done hx]
  rfl

/-- the loop, by induction on its rounds: the log of its calls, and what they leave -/
theorem resultApplyLoop_synchronised (htakes : TakesOff apply) (fuel : Nat) :
    ∀ {status st : Status} {acc acc' : α} {s s' : State} {w w' : σ} (calls₀ : List Handing),
      s.memc.stream.pending.length < fuel →
      Cmd.exec h (resultApplyLoop env apply fetchDelay fuel status acc) s w =
        (.done (st, acc') s', w') →
      ∃ calls, Cmd.exec h (resultApplyLoop env (logged apply) fetchDelay fuel status
          (acc, calls₀)) s w = (.done (st, (acc', calls₀ ++ calls)) s', w') ∧
        Synchronised env fetchDelay s s' calls
          (Cmd.log h (resultApplyLoop env apply fetchDelay fuel status acc) s w) := by
  induction fuel with
  | zero => intro _ _ _ _ _ _ _ _ _ hfuel; cases hfuel
  | succ fuel ih =>
    intro status st acc acc' s s' w w' calls₀ hfuel hx
    obtain ⟨pending, last, hs⟩ : ∃ pending last, s.memc.stream = ⟨pending, last⟩ := ⟨_, _, rfl⟩
    cases pending with
    | nil =>
      rw [exec_resultApplyLoop_nil env apply fetchDelay h fuel status acc hs] at hx
      cases hx
      have hempty : s.memc.stream = ⟨[], s.memc.stream.last⟩ := by rw [hs]
      refine ⟨[], ?_, .of_no_calls (.inl hempty)⟩
      rw [exec_resultApplyLoop_nil env (logged apply) fetchDelay h fuel status (acc, calls₀) hs,
        List.append_nil]
    | cons x pending =>
      obtain ⟨rc, result⟩ := x
      rw [hs, List.length_cons] at hfuel
      obtain ⟨e, w₁, hz⟩ := exec_resultToZval env h result (s.withStream ⟨pending, last⟩) w
      obtain ⟨hexec, hlog⟩ := exec_resultApplyLoop_cons env apply fetchDelay h fuel status acc hs hz
      have hlogged := (exec_resultApplyLoop_cons env (logged apply) fetchDelay h fuel status
        (acc, calls₀) hs hz).1
      rw [hexec] at hx
      rw [hlogged, hlog]
      have hlast : s.memc.stream.last = last := by rw [hs]
      -- the state with the result taken off and decoded
      let s₁ : State := { s.withStream ⟨pending, last⟩ with exception := e }
      cases hd : (sMemcachedResultToZval env (s.withStream ⟨pending, last⟩).memc.userData.serializer
          result.value result.flags).result with
      | none =>
        rw [hd] at hx
        cases e with
        | true =>
          cases hx
          refine ⟨[], ?_, .of_no_calls (.inr ?_)⟩
          · rw [List.append_nil]
            rfl
          · refine ⟨⟨.quit s₁.memc, ()⟩, List.mem_append_right _ ?_, s₁.memc, rfl⟩
            exact List.mem_cons_self
        | false =>
          obtain ⟨calls, hx', hsync⟩ := ih (s := s₁) calls₀ (by simpa [s₁] using hfuel) hx
          refine ⟨calls, hx', ?_, fun hc => ?_, hsync.stopped⟩
          · rw [hs]
            exact hsync.hands.skip _
          · exact (hsync.emptied hc).append hlast.symm
      | some v =>
        rw [hd] at hx
        obtain ⟨r, s₂, w₂, happly, hrest⟩ := Cmd.exec_bind_inv hx
        obtain ⟨a, goOn⟩ := r
        obtain ⟨n, hleft⟩ := (htakes acc result.key v (sUint64ToZval result.cas) result.flags
          s₁).exec happly
        have hlogged₁ := exec_logged h calls₀ happly
        -- the call, on the results `pending`
        let c : Handing := ⟨result.key, v, sUint64ToZval result.cas, result.flags, goOn,
          s.memc.userData.serializer, ⟨pending, last⟩, s₂.memc.stream⟩
        have hof : c.Of env result := ⟨rfl, hd, rfl, rfl⟩
        have htook : s₂.memc.stream.pending <:+ pending := by
          rw [hleft]
          exact List.drop_suffix n pending
        have hlast₂ : s₂.memc.stream.last = last := by rw [hleft]; rfl
        cases goOn with
        | true =>
          have hfuel₂ : s₂.memc.stream.pending.length < fuel := by
            have := htook.length_le
            omega
          obtain ⟨calls, hx', hsync⟩ := ih (calls₀ ++ [c]) hfuel₂ hrest
          refine ⟨c :: calls, ?_, ?_, fun hc => ?_, fun hd' c' hc' hstop => ?_⟩
          · show Cmd.exec h (logged apply (acc, calls₀) result.key v (sUint64ToZval result.cas)
              result.flags >>= _) s₁ w₁ = _
            rw [Cmd.exec_bind_done hlogged₁]
            rw [List.append_assoc] at hx'
            exact hx'
          · rw [hs]
            exact .next [] hof htook nofun hsync.hands
          · have hgo : fetchDelay = false ∨ ∀ c ∈ calls, c.goOn = true :=
              hc.imp_right fun h c' hc' => h c' (List.mem_cons_of_mem c hc')
            have hlog₁ : Cmd.log h (resultRound env apply fetchDelay fuel rc result status acc
                (some v)) s₁ w₁ = Cmd.log h (apply acc result.key v (sUint64ToZval result.cas)
                result.flags) s₁ w₁ ++ Cmd.log h (resultApplyLoop env apply fetchDelay fuel
                  (fetchStatus rc status) a) s₂ w₂ := Cmd.log_bind_done happly
            rw [hlog₁, ← List.append_assoc]
            exact (hsync.emptied hgo).append (hlast₂.trans hlast.symm)
          · rcases List.mem_cons.mp hc' with rfl | hc'
            · cases hstop
            · exact hsync.stopped hd' c' hc' hstop
        | false =>
          refine ⟨[c], ?_, ?_, fun hc => ?_, fun hd' c' hc' hstop => ?_⟩
          · show Cmd.exec h (logged apply (acc, calls₀) result.key v (sUint64ToZval result.cas)
              result.flags >>= _) s₁ w₁ = _
            rw [Cmd.exec_bind_done hlogged₁]
            cases fetchDelay <;> (cases hrest; rfl)
          · rw [hs]
            exact .next [] hof htook (fun _ => rfl) (.done _)
          · rcases hc with rfl | hc
            · cases hrest
              exact .inl (by rw [hlast, ← hlast₂])
            · cases hc c List.mem_cons_self
          · obtain rfl := List.mem_singleton.mp hc'
            subst hd'
            cases hrest
            rfl

/-- **The loop over the results leaves the stream synchronised**: each record that decodes is handed
over at most once, in order, and never after a stop; no result stays unread, or the connection is
closed, unless a stop leaves the results after it to a later fetch. -/
theorem resultApply_synchronised (htakes : TakesOff apply) {acc acc' : α} {s s' : State} {w w' : σ}
    {status : Status} (hx : Cmd.exec h (phpMemcResultApply env apply fetchDelay acc) s w =
      (.done (status, acc') s', w')) :
    ∃ calls, Cmd.exec h (phpMemcResultApply env (logged apply) fetchDelay (acc, [])) s w =
        (.done (status, (acc', calls)) s', w') ∧
      Synchronised env fetchDelay s s' calls
        (Cmd.log h (phpMemcResultApply env apply fetchDelay acc) s w) ∧
      ∃ records, records.Sublist (s.memc.stream.pending.map Prod.snd) ∧
        List.Forall₂ (Handing.Of env) calls records := by
  obtain ⟨calls, hx', hsync⟩ := resultApplyLoop_synchronised env fetchDelay h htakes
    (s.memc.stream.pending.length + 1) [] (Nat.lt_succ_self _) hx
  exact ⟨calls, hx', hsync, hsync.hands.sublist⟩

end

/-- a handle with these results -/
def withResults (pending : List (Status × Result)) : State :=
  (newObject iniDefaults 1).withStream ⟨pending, .end_⟩

/-- `fetchAll` on a result of an unknown type and one that decodes -/
theorem resultApply_synchronised_fetchAll :
    ∃ calls, Synchronised plainEnv false
      (withResults [(.success, ⟨ascii ['a'], .bytes [], 8, 0⟩),
        (.success, ⟨ascii ['b'], .bytes (ascii ['1']), memcValIsLong, 0⟩)])
      (withResults []) calls
      (Cmd.log noServers (phpMemcResultApply plainEnv (sFetchAllApply plainEnv) false [])
        (withResults [(.success, ⟨ascii ['a'], .bytes [], 8, 0⟩),
          (.success, ⟨ascii ['b'], .bytes (ascii ['1']), memcValIsLong, 0⟩)]) ()) := by
  let s := withResults [(.success, ⟨ascii ['a'], .bytes [], 8, 0⟩),
    (.success, ⟨ascii ['b'], .bytes (ascii ['1']), memcValIsLong, 0⟩)]
  have hx : Cmd.exec noServers (phpMemcResultApply plainEnv (sFetchAllApply plainEnv) false []) s () =
      (.done (.someErrors, [(.int 0, .arr [(keyName, .str (ascii ['b'])), (valueName, .long 1)])])
        (withResults []), ()) := rfl
  obtain ⟨calls, -, hsync, -⟩ :=
    resultApply_synchronised plainEnv false noServers (takesOff_sFetchAllApply plainEnv) hx
  exact ⟨calls, hsync⟩

end PhpMemcached
