import PhpMemcached.Server.Echo

/-!
# CAS values through PHP doubles

The server hands a CAS to its callbacks as a double, and takes the result CAS of a callback through
one.

* `CasCommand`          a command that carries a CAS;
* `CasCommand.Determined`   the CAS its callback receives determines the one sent;
* `Command.CasExact`    the CAS of the response is the integer assigned;
* `cas_preserved_iff`   when they hold.
-/

namespace PhpMemcached
open Ascii Requests

/-! ## the CAS a callback receives -/

/-- a command that carries a CAS, without it -/
inductive CasCommand where
  | set (key : Bytes) (data : Body) (flags expiration : UInt32)
  | replace (key : Bytes) (data : Body) (flags expiration : UInt32)
  | append (key : Bytes) (data : Body)
  | prepend (key : Bytes) (data : Body)
  | delete (key : Bytes)

def CasCommand.withCas (cas : UInt64) : CasCommand → Command
  | .set key data flags expiration => .set key data flags expiration cas
  | .replace key data flags expiration => .replace key data flags expiration cas
  | .append key data => .append key data cas
  | .prepend key data => .prepend key data cas
  | .delete key => .delete key cas

def CasCommand.event : CasCommand → ServerEvent
  | .set .. => .set
  | .replace .. => .replace
  | .append .. => .append
  | .prepend .. => .prepend
  | .delete _ => .delete

/-- the argument of its callback that is the CAS -/
def CasCommand.casParam : CasCommand → Nat
  | .set .. | .replace .. => 5
  | .append .. | .prepend .. => 3
  | .delete _ => 2

/-- an argument of a callback that is called -/
def argumentOf (i : Nat) : Entry ServerCall ServerAns → Option Zval
  | ⟨.invoke _ params, _⟩ => some (param params i).deref
  | _ => none

/-- where no callback is called there are no arguments -/
theorem argumentOf_eq_none {i : Nat} {e : Entry ServerCall ServerAns} (he : e.req.NoInvoke) :
    argumentOf i e = none := by
  obtain ⟨req, r⟩ := e
  cases req with
  | invoke => exact he.elim
  | _ => rfl

section
variable (env : ServerEnv) (callbacks : Callbacks) {S σ : Type}
  (h : Handler ServerCall ServerAns σ) (cookie : Nat) (s : S) (w : σ)

/-- the CAS the callback receives -/
def CasCommand.received (c : CasCommand) (cas : UInt64) : List Zval :=
  (Cmd.log h ((c.withCas cas).handle env callbacks cookie) s w).filterMap (argumentOf c.casParam)

/-- **Different CAS values are seen as different**: no other CAS is received as this one. -/
def CasCommand.Determined (c : CasCommand) (cas : UInt64) : Prop :=
  ∀ cas', c.received env callbacks h cookie s w cas' = c.received env callbacks h cookie s w cas →
    cas' = cas

/-- the integers below `2 ^ 64` that are rounded to by themselves alone -/
def CasAlone (cas : UInt64) : Prop :=
  cas.toNat < 2 ^ 53 ∨ (2 ^ 53 < cas.toNat ∧ cas.toNat < 2 ^ 54 ∧ cas.toNat % 4 = 2)

variable {callbacks}

theorem received_eq (c : CasCommand) (hcb : memcHasCb callbacks c.event = true) (cas : UInt64) :
    c.received env callbacks h cookie s w cas = [.double (Dbl.ofNat cas.toNat)] := by
  have hev : (c.withCas cas).event = c.event := by cases c <;> rfl
  obtain ⟨rest, hlog, hrest⟩ := log_handle env (hev.symm ▸ hcb) h cookie s w
  have hnone : rest.filterMap (argumentOf c.casParam) = [] :=
    List.filterMap_eq_nil_iff.mpr fun e he => argumentOf_eq_none (hrest e he)
  unfold CasCommand.received
  rw [hlog, List.filterMap_cons, hnone]
  cases c <;> rfl

theorem determined_iff (c : CasCommand) (hcb : memcHasCb callbacks c.event = true) (cas : UInt64) :
    c.Determined env callbacks h cookie s w cas ↔ CasAlone cas := by
  unfold CasCommand.Determined CasAlone
  rw [← Binary.alone_iff (p := 53) (k := 64) (by decide) (by decide) cas.toNat_lt]
  simp only [received_eq env h cookie s w c hcb]
  have hsame : ∀ cas' : UInt64,
      [Zval.double (Dbl.ofNat cas'.toNat)] = [Zval.double (Dbl.ofNat cas.toNat)] ↔
        Binary.round 53 cas'.toNat = Binary.round 53 cas.toNat := fun cas' => by
    rw [← Dbl.ofNat_inj cas'.toNat_lt cas.toNat_lt]
    exact ⟨fun heq => Zval.double.inj (List.cons.inj heq).1, fun heq => heq ▸ rfl⟩
  constructor
  · intro hdet m hm hround
    have heq := hdet (UInt64.ofNat m) ((hsame _).mpr (by rwa [UInt64.toNat_ofNat_of_lt' hm]))
    rw [← heq, UInt64.toNat_ofNat_of_lt' hm]
  · exact fun halone cas' heq => UInt64.toNat_inj.mp (halone _ cas'.toNat_lt ((hsame cas').mp heq))

/-! ## the CAS of a response -/

/-- the CAS of a response that is sent by the handler itself -/
def responseCas : Entry ServerCall ServerAns → Option UInt64
  | ⟨.getResponse _ _ _ _ cas, _⟩ => some cas
  | _ => none

variable (callbacks)

/-- the CAS put into the response: by a `get` through the response handler, by the others through
their result argument -/
def Command.answeredCas (c : Command) : Option UInt64 :=
  match c with
  | .get _ => ((Cmd.log h (c.handle env callbacks cookie) s w).filterMap responseCas).head?
  | c =>
    match (Cmd.exec h (c.handle env callbacks cookie) s w).1 with
    | .done r _ => r.2
    | .stop .. => none

/-- **The CAS put into the response is exactly this integer.** -/
def Command.CasExact (c : Command) (n : Int64) : Prop :=
  ∃ cas, c.answeredCas env callbacks h cookie s w = some cas ∧ (cas.toNat : Int) = n.toInt

/-- the callback assigns an integer to its result CAS, and returns `RESPONSE_SUCCESS` -/
structure Command.AssignsCas (c : Command) (i : Nat) (n : Int64) : Prop where
  succeeded : (h (.invoke (callbacks c.event) (c.params cookie)) w).1.Succeeded
  assigned : (h (.invoke (callbacks c.event) (c.params cookie)) w).1.assigned i = some (.long n)

end

/-- the integers a double holds, none of them negative -/
def HoldsExactly (n : Int64) : Prop :=
  0 ≤ n.toInt ∧ 2 ^ (n.toInt.toNat.log2 - 52) ∣ n.toInt.toNat

/-- an integer through a double and back -/
theorem toUInt64_ofInt_eq_iff (zend : Zend) (n : Int64) :
    (((Dbl.ofInt n.toInt).toUInt64 zend).toNat : Int) = n.toInt ↔ HoldsExactly n := by
  unfold HoldsExactly
  by_cases hneg : n.toInt < 0
  · refine iff_of_false (fun heq => ?_) fun hn => ?_
    · omega
    · omega
  · obtain ⟨m, hm⟩ := Int.eq_ofNat_of_zero_le (Int.not_lt.mp hneg)
    have hlt : m < 2 ^ 63 := by
      have := n.toInt_lt
      omega
    have hround : Binary.round 53 m ≤ 2 ^ 63 := Binary.round_le_two_pow (by decide) hlt
    have hulp : Binary.ulp 53 m = 2 ^ (m.log2 - 52) := by
      rw [Binary.ulp, show m.log2 + 1 - 53 = m.log2 - 52 by omega]
    rw [Dbl.ofInt, if_neg hneg, hm, Int.natAbs_natCast, Int.toNat_natCast,
      Dbl.toUInt64_ofNat zend (by omega) (by omega), ← hulp, ← Binary.round_eq_self_iff]
    omega

section
variable (env : ServerEnv) {callbacks : Callbacks} {S σ : Type}
  {h : Handler ServerCall ServerAns σ} {cookie : Nat} {w : σ} {c : Command} {i : Nat} {n : Int64}

/-- the result CAS as the callback leaves it: a reference -/
theorem param_of_assignsCas (hi : c.resultCas = some i)
    (ha : c.AssignsCas callbacks h cookie w i n) :
    param (argumentsAfter (h (.invoke (callbacks c.event) (c.params cookie)) w).1
      (c.params cookie)) i = .ref (.long n) := by
  have hassigned := ha.assigned
  generalize (h (.invoke (callbacks c.event) (c.params cookie)) w).1 = r at hassigned ⊢
  have href : param (argumentsAfter r (c.params cookie)) i =
      .ref ((r.assigned i).getD .null) := by
    cases c <;> cases hi <;> rfl
  rw [href, hassigned]
  rfl

theorem answeredCas_eq (hcb : memcHasCb callbacks c.event = true) (hi : c.resultCas = some i)
    (ha : c.AssignsCas callbacks h cookie w i n) (s : S) :
    c.answeredCas env callbacks h cookie s w =
      some ((Dbl.ofInt n.toInt).toUInt64 env.zend) := by
  have hcas : memcMakeResultCas env (param (argumentsAfter
      (h (.invoke (callbacks c.event) (c.params cookie)) w).1 (c.params cookie)) i) =
      (Dbl.ofInt n.toInt).toUInt64 env.zend := by
    rw [param_of_assignsCas hi ha]
    rfl
  obtain ⟨hexec, hlog⟩ := exec_sInvokePhpCallback env (callbacks c.event) (c.params cookie)
    ha.succeeded.ran s
  have hstatus : responseStatus (callbackResult env
      (h (.invoke (callbacks c.event) (c.params cookie)) w).1) = responseSuccess := by
    unfold callbackResult
    rw [ha.succeeded.retval]
    rfl
  have hrun : c.handle (S := S) env callbacks cookie =
      sInvokePhpCallback env (callbacks c.event) (c.params cookie) >>= c.finish env cookie :=
    (handle_eq env callbacks c cookie).trans (withCallback_pos hcb _ _)
  rw [← hcas]
  cases c with
  | get key =>
    cases hi
    dsimp only [Command.answeredCas]
    rw [hrun, Cmd.log_bind_done hexec, hlog]
    dsimp only [Command.finish, getAfter]
    rw [if_pos hstatus]
    rfl
  | delete | flush | noop | quit | stat | version => cases hi
  | _ =>
    cases hi
    dsimp only [Command.answeredCas]
    rw [hrun, Cmd.exec_bind_done hexec]
    rfl

/-- **What is preserved of a CAS.** -/
theorem cas_preserved_iff (callbacks : Callbacks) (h : Handler ServerCall ServerAns σ) (cookie : Nat)
    (s : S) (w : σ) :
    (∀ c : CasCommand, memcHasCb callbacks c.event = true → ∀ cas : UInt64,
      (c.Determined env callbacks h cookie s w cas ↔ CasAlone cas)) ∧
    ∀ (c : Command) (i : Nat), memcHasCb callbacks c.event = true → c.resultCas = some i →
      ∀ n : Int64, c.AssignsCas callbacks h cookie w i n →
        (c.CasExact env callbacks h cookie s w n ↔ HoldsExactly n) := by
  refine ⟨fun c hcb cas => determined_iff env h cookie s w c hcb cas, ?_⟩
  intro c i hcb hi n ha
  unfold Command.CasExact
  rw [answeredCas_eq env hcb hi ha s, ← toUInt64_ofInt_eq_iff env.zend]
  constructor
  · rintro ⟨cas, hcas, heq⟩
    exact Option.some.inj hcas ▸ heq
  · exact fun heq => ⟨_, rfl, heq⟩

end

/-! ## examples -/

/-- callbacks that assign an integer to every reference; every response is taken -/
def assigning (n : Int64) : Handler ServerCall ServerAns Unit
  | .invoke _ _, w => (⟨true, some (.long 0), fun _ => some (.long n)⟩, w)
  | .warning _, w => ((), w)
  | .getResponse .., w => (responseSuccess, w)
  | .statResponse .., w => (responseSuccess, w)
  | .versionResponse .., w => (responseSuccess, w)

/-- a CAS of 15 both ways -/
theorem cas_preserved_fifteen :
    (CasCommand.delete (ascii ['k'])).Determined plainServer closures (assigning 15) 1 () () 15 ∧
      (Command.get (ascii ['k'])).CasExact plainServer closures (assigning 15) 1 () () 15 := by
  have h := cas_preserved_iff plainServer closures (assigning 15) 1 () ()
  refine ⟨(h.1 (.delete (ascii ['k'])) rfl 15).mpr (.inl (by decide)), ?_⟩
  exact (h.2 (.get (ascii ['k'])) 4 rfl rfl 15 ⟨⟨rfl, rfl⟩, rfl⟩).mpr ⟨by decide, by decide⟩

/-- the failing case: `2 ^ 53 + 1` is received as `2 ^ 53` -/
theorem cas_not_determined :
    ¬ ∀ (env : ServerEnv) (callbacks : Callbacks) (h : Handler ServerCall ServerAns Unit)
      (cookie : Nat) (c : CasCommand), memcHasCb callbacks c.event = true →
      ∀ cas : UInt64, c.Determined env callbacks h cookie () () cas := by
  intro hclaim
  have hdet := hclaim plainServer closures (assigning 0) 1 (.delete (ascii ['k'])) rfl
    (UInt64.ofNat (2 ^ 53 + 1))
  have halone := (determined_iff plainServer (assigning 0) 1 () () (.delete (ascii ['k'])) rfl _).mp
    hdet
  unfold CasAlone at halone
  exact absurd halone (by decide)

end PhpMemcached
