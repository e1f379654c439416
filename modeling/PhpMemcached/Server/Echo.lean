import PhpMemcached.Server.Model

/-!
# What the server gives back

An `ON_SET` callback that records what it is given, and an `ON_GET` callback that assigns it to its
reference parameters.

* `Recorder`               such callbacks;
* `GivesBack`              the response is sent with this data and these flags;
* `server_returns_iff`     it is if the flags are 0; a value left NULL is never "not found".
-/

namespace PhpMemcached
open Ascii Requests

section
variable (env : ServerEnv) (callbacks : Callbacks) {S σ : Type}
  (h : Handler ServerCall ServerAns σ)

/-- a callback that ran and returned `RESPONSE_SUCCESS` -/
structure InvokeAns.Succeeded (r : InvokeAns) : Prop where
  ran : r.ran = true
  retval : r.retval = some (.long 0)

/-- `ON_SET` records the value and the flags it gets under the key, `ON_GET` assigns what is
recorded -/
structure Recorder (recorded : σ → Bytes → Zval × Zval) : Prop where
  ran : ∀ params w, (h (.invoke (callbacks .set) params) w).1.ran = true
  set : ∀ cookie key data flags expiration cas w,
    recorded (h (.invoke (callbacks .set) (setReplaceParams cookie key data flags expiration cas)) w).2 key =
      ((param (setReplaceParams cookie key data flags expiration cas) 2).deref,
        (param (setReplaceParams cookie key data flags expiration cas) 3).deref)
  get : ∀ cookie key w,
    let r : InvokeAns := (h (.invoke (callbacks .get) (getParams cookie key)) w).1
    r.Succeeded ∧ r.assigned 2 = some (recorded w key).1 ∧ r.assigned 3 = some (recorded w key).2

/-- the `ON_GET` callback returns `RESPONSE_SUCCESS` with its value left NULL -/
structure LeavesNull (cookie : Nat) (key : Bytes) (w : σ) : Prop where
  succeeded : (h (.invoke (callbacks .get) (getParams cookie key)) w).1.Succeeded
  null : (h (.invoke (callbacks .get) (getParams cookie key)) w).1.assigned 2 = none ∨
    (h (.invoke (callbacks .get) (getParams cookie key)) w).1.assigned 2 = some .null

/-- what a client is sent -/
structure GetResponse where
  cookie : Nat
  key : Bytes
  data : Body
  flags : UInt32
  cas : UInt64

def responseOf : Entry ServerCall ServerAns → Option GetResponse
  | ⟨.getResponse cookie key data flags cas, _⟩ => some ⟨cookie, key, data, flags, cas⟩
  | _ => none

/-- the responses of a `get` -/
def getResponses (cookie : Nat) (key : Bytes) (s : S) (w : σ) : List GetResponse :=
  (Cmd.log h (sGetHandler env callbacks cookie key) s w).filterMap responseOf

/-- **The response handler is called with exactly this data and these flags.** -/
def GivesBack (cookie : Nat) (key : Bytes) (data : Body) (flags : UInt32) (s : S) (w : σ) : Prop :=
  ∃ cas, getResponses env callbacks h cookie key s w = [⟨cookie, key, data, flags, cas⟩]

/-- **The client gets `KEY_ENOENT`**, and nothing else. -/
def NotFound (cookie : Nat) (key : Bytes) (s : S) (w : σ) : Prop :=
  (Cmd.exec h (sGetHandler env callbacks cookie key) s w).1 = .done responseKeyEnoent s ∧
    getResponses env callbacks h cookie key s w = []

variable {callbacks} {h}

/-- a successful `ON_GET` is always answered: its value is a reference, which is no NULL, and its
flags are one, which is no integer -/
theorem getResponses_of_succeeded (hcb : memcHasCb callbacks .get = true) {cookie : Nat}
    {key : Bytes} {w : σ} {r : InvokeAns}
    (hr : (h (.invoke (callbacks .get) (getParams cookie key)) w).1 = r) (hok : r.Succeeded) (s : S) :
    ∃ cas, getResponses env callbacks h cookie key s w =
      [⟨cookie, key, Body.ofString (zvalGetString env.zend ((r.assigned 2).getD .null)), 0, cas⟩] := by
  subst hr
  obtain ⟨hexec, hlog⟩ := exec_sInvokePhpCallback env (callbacks .get) (getParams cookie key) hok.ran s
  have hstatus : responseStatus (callbackResult env
      (h (.invoke (callbacks .get) (getParams cookie key)) w).1) = responseSuccess := by
    unfold callbackResult
    rw [hok.retval]
    rfl
  unfold getResponses sGetHandler
  rw [withCallback_pos hcb, Cmd.log_bind_done hexec, hlog]
  unfold getAfter
  rw [if_pos hstatus]
  exact ⟨_, rfl⟩

theorem exec_sSetHandler_record (hcb : memcHasCb callbacks .set = true)
    {recorded : σ → Bytes → Zval × Zval} (hrec : Recorder callbacks h recorded) (cookie : Nat)
    (key : Bytes) (data : Body) (flags expiration : UInt32) (cas : UInt64) (s : S) (w : σ) :
    recorded (Cmd.exec h (sSetHandler env callbacks cookie key data flags expiration cas) s w).2 key =
      (.str data.bytes, .long flags.toUInt64.toInt64) := by
  obtain ⟨hexec, _⟩ := exec_sInvokePhpCallback env _ _ (hrec.ran _ w) s
  unfold sSetHandler sSetReplaceHandler
  rw [withCallback_pos hcb, Cmd.exec_bind_done hexec]
  exact hrec.set cookie key data flags expiration cas w

/-- **What the server returns of what it was given.** -/
theorem server_returns_iff (hset : memcHasCb callbacks .set = true)
    (hget : memcHasCb callbacks .get = true) (s : S) :
    (∀ recorded : σ → Bytes → Zval × Zval, Recorder callbacks h recorded →
      ∀ cookie key data flags expiration cas w cookie' w',
        recorded w' key = recorded (Cmd.exec h (sSetHandler env callbacks cookie key data flags
          expiration cas) s w).2 key →
        (GivesBack env callbacks h cookie' key data flags s w' ↔ flags = 0)) ∧
    ∀ cookie key w, LeavesNull callbacks h cookie key w →
      ¬ NotFound env callbacks h cookie key s w := by
  constructor
  · intro recorded hrec cookie key data flags expiration cas w cookie' w' hkept
    rw [exec_sSetHandler_record env hset hrec] at hkept
    obtain ⟨hok, hvalue, _⟩ := hrec.get cookie' key w'
    obtain ⟨cas', hsent⟩ := getResponses_of_succeeded env hget rfl hok s
    have hdata : Body.ofString (zvalGetString env.zend
        (((h (.invoke (callbacks .get) (getParams cookie' key)) w').1.assigned 2).getD .null)) =
        data := by
      rw [hvalue, hkept]
      exact Body.ofString_bytes data
    rw [hdata] at hsent
    unfold GivesBack
    rw [hsent]
    constructor
    · rintro ⟨cas'', heq⟩
      exact (GetResponse.mk.inj (List.cons.inj heq).1).2.2.2.1.symm
    · rintro rfl
      exact ⟨cas', rfl⟩
  · rintro cookie key w hnull ⟨_, hnone⟩
    obtain ⟨cas, hsent⟩ := getResponses_of_succeeded env hget rfl hnull.succeeded s
    exact nomatch hsent.symm.trans hnone

end

/-! ## examples -/

/-- callbacks that keep what was set last; every response is taken -/
def keeping : Handler ServerCall ServerAns (Zval × Zval)
  | .invoke _ params, w =>
    let isSet := params.length = 7
    (⟨true, some (.long 0), fun i =>
        if isSet then none else if i = 2 then some w.1 else if i = 3 then some w.2 else none⟩,
      if isSet then ((param params 2).deref, (param params 3).deref) else w)
  | .warning _, w => ((), w)
  | .getResponse .., w => (responseSuccess, w)
  | .statResponse .., w => (responseSuccess, w)
  | .versionResponse .., w => (responseSuccess, w)

theorem recorder_keeping : Recorder closures keeping fun w _ => w where
  ran _ _ := rfl
  set _ _ _ _ _ _ _ := rfl
  get _ _ _ := ⟨⟨rfl, rfl⟩, rfl, rfl⟩

/-- the data `ab` -/
def twoBytes : Body := ⟨ascii ['a', 'b'], by decide⟩

theorem server_returns_two_bytes :
    GivesBack plainServer closures keeping 2 (ascii ['k']) twoBytes 0 ()
      (.str twoBytes.bytes, .long 0) :=
  ((@server_returns_iff plainServer closures _ _ keeping rfl rfl ()).1 _
    recorder_keeping 1 (ascii ['k']) twoBytes 0 0 0 (.null, .null) 2
    (.str twoBytes.bytes, .long 0) rfl).mpr rfl

/-- the failing case: the flags of an integer -/
theorem server_loses_flags :
    ¬ ∀ (env : ServerEnv) (callbacks : Callbacks)
      (h : Handler ServerCall ServerAns (Zval × Zval))
      (recorded : Zval × Zval → Bytes → Zval × Zval),
      memcHasCb callbacks .set = true → memcHasCb callbacks .get = true →
      Recorder callbacks h recorded → ∀ cookie key data flags expiration cas w cookie' w',
        recorded w' key = recorded (Cmd.exec h (sSetHandler env callbacks cookie key data flags
          expiration cas) () w).2 key →
        GivesBack env callbacks h cookie' key data flags () w' := by
  intro hclaim
  obtain ⟨cas, hsent⟩ := hclaim plainServer closures keeping (fun w _ => w) rfl rfl recorder_keeping
    1 (ascii ['k']) twoBytes 1 0 0 (.null, .null) 2 (.str twoBytes.bytes, .long 1) rfl
  obtain ⟨cas', hzero⟩ := @getResponses_of_succeeded plainServer closures Unit _ keeping rfl 2
    (ascii ['k']) (.str twoBytes.bytes, .long 1) _ rfl ⟨rfl, rfl⟩ ()
  have hone := (GetResponse.mk.inj (List.cons.inj (hzero.symm.trans hsent)).1).2.2.2.1
  exact absurd hone (by decide)

end PhpMemcached
