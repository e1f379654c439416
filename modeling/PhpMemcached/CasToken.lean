import PhpMemcached.Delivery
import Mathlib.Data.FinEnum

/-!
# CAS tokens

* `denotes`              the unsigned 64-bit integer a PHP value stands for as a token;
* `CasToken.Exact`       the tokens that `s_zval_to_uint64` reads as what they denote;
* `Call.casValue`        the CAS value of a request;
* `CasSafe`              a call of `cas` sends what its token denotes, and nothing if it denotes
                         nothing;
* `casSafe_iff`          when it does;
* `casToken_survives`    a token that was read from the server is sent back as it came.
-/

namespace PhpMemcached
open Ascii Requests

/-! ## tokens -/

/-- a double that is an integer -/
def Dbl.exactNat (d : Dbl) : Option Nat :=
  let e := (d.bits.toNat / 2 ^ 52) % 2 ^ 11
  let f := d.bits.toNat % 2 ^ 52
  if e = 2047 then none
  else
    let m := if e = 0 then f else 2 ^ 52 + f
    if e ≥ 1075 then some (m * 2 ^ (e - 1075))
    else if m % 2 ^ (1075 - max e 1) = 0 then some (m / 2 ^ (1075 - max e 1)) else none

/-- the number of a numeric string: white space, a sign, decimal digits -/
def numericString (s : Bytes) : Option Int :=
  let digits := (signDigits s).2
  if digits ≠ [] ∧ ∀ b ∈ digits, isDigit b = true then
    some (if (signDigits s).1 then -natVal digits else natVal digits)
  else none

/-- the unsigned 64-bit integer a token denotes -/
def denotes : Zval → Option Nat
  | .long n => if 0 ≤ n.toInt then some n.toInt.toNat else none
  | .double d => if d.isNeg then none else d.exactNat.filter (· < 2 ^ 64)
  | .str s => ((numericString s).filter fun n => 0 ≤ n ∧ n < 2 ^ 64).map Int.toNat
  | _ => none

/-- the tokens that denote an integer and are read as such: among the strings, those without a
leading zero, which makes the digits octal, or with a number below 8 -/
def CasToken.Exact (token : Zval) : Prop :=
  (denotes token).isSome = true ∧ ∀ s, token = .str s →
    (signDigits s).2.head? ≠ some 48 ∨ natVal (signDigits s).2 < 8

/-- the tokens that raise no error: among the strings, those `strtoull` takes to the end and in
range -/
def CasToken.Accepted (token : Zval) : Prop :=
  ∀ s, token = .str s → (strtoull s).rest = [] ∧ (strtoull s).erange = false

theorem Dbl.truncNat_of_exactNat {d : Dbl} {n : Nat} (h : d.exactNat = some n) :
    d.truncNat = some n := by
  unfold Dbl.exactNat at h
  unfold Dbl.truncNat
  generalize (d.bits.toNat / 2 ^ 52) % 2 ^ 11 = e at h ⊢
  generalize d.bits.toNat % 2 ^ 52 = f at h ⊢
  dsimp only at h ⊢
  by_cases he : e = 2047
  · rw [if_pos he] at h
    cases h
  · rw [if_neg he] at h ⊢
    generalize (if e = 0 then f else 2 ^ 52 + f) = m at h ⊢
    by_cases hge : e ≥ 1075
    · rwa [if_pos hge] at h ⊢
    · rw [if_neg hge] at h ⊢
      by_cases hm : m % 2 ^ (1075 - max e 1) = 0
      · rwa [if_pos hm] at h
      · rw [if_neg hm] at h
        cases h

section
variable (env : Env)

/-- the conversion raises no error for the accepted tokens -/
theorem sZvalToUint64_isSome_iff (token : Zval) :
    (sZvalToUint64 env token).isSome = true ↔ CasToken.Accepted token := by
  have hall : (∀ s, token ≠ .str s) → CasToken.Accepted token := fun h s hs => absurd hs (h s)
  cases token with
  | str s =>
    have hiff : CasToken.Accepted (.str s) ↔ (strtoull s).rest = [] ∧ (strtoull s).erange = false :=
      ⟨fun h => h s rfl, fun h s' hs => by cases hs; exact h⟩
    rw [hiff]
    show (if _ then none else some _ : Option UInt64).isSome = true ↔ _
    split
    · rename_i h
      refine iff_of_false Bool.false_ne_true ?_
      rintro ⟨hrest, herange⟩
      rw [herange] at h
      rcases h with h | ⟨h, -⟩ | ⟨h, -⟩
      · exact h hrest
      · cases h
      · cases h
    · rename_i h
      simp only [not_or, not_and, Classical.not_not] at h
      refine iff_of_true rfl ⟨h.1, ?_⟩
      cases he : (strtoull s).erange with
      | false => rfl
      | true => exact absurd (strtoull_erange he) (h.2.1 he)
  | double d =>
    refine iff_of_true ?_ (hall nofun)
    show (if d.isNeg then some 0 else _ : Option UInt64).isSome = true
    split
    · rfl
    · cases d.truncNat <;> rfl
  | null => exact iff_of_true rfl (hall nofun)
  | bool b => exact iff_of_true rfl (hall nofun)
  | long n => exact iff_of_true rfl (hall nofun)
  | arr a => exact iff_of_true rfl (hall nofun)
  | obj n => exact iff_of_true rfl (hall nofun)

/-- what a string denotes -/
theorem denotes_str_iff (s : Bytes) (n : Nat) :
    denotes (.str s) = some n ↔ ((signDigits s).2 ≠ [] ∧ ∀ b ∈ (signDigits s).2, isDigit b = true) ∧
      natVal (signDigits s).2 = n ∧ n < 2 ^ 64 ∧ ((signDigits s).1 = true → n = 0) := by
  unfold denotes numericString
  dsimp only
  by_cases hdigits : (signDigits s).2 ≠ [] ∧ ∀ b ∈ (signDigits s).2, isDigit b = true
  · rw [if_pos hdigits, and_iff_right hdigits]
    generalize natVal (signDigits s).2 = v
    cases (signDigits s).1 with
    | true =>
      rw [if_pos rfl]
      simp only [Option.map_eq_some_iff, Option.filter_eq_some_iff, Option.some.injEq,
        decide_eq_true_eq]
      constructor
      · rintro ⟨k, ⟨rfl, hk⟩, rfl⟩
        exact ⟨by omega, by omega, fun _ => by omega⟩
      · rintro ⟨rfl, -, hzero⟩
        have hv : v = 0 := hzero trivial
        exact ⟨_, ⟨rfl, by omega⟩, by omega⟩
    | false =>
      rw [if_neg Bool.false_ne_true]
      simp only [Option.map_eq_some_iff, Option.filter_eq_some_iff, Option.some.injEq,
        decide_eq_true_eq]
      constructor
      · rintro ⟨k, ⟨rfl, hk⟩, rfl⟩
        exact ⟨by omega, by omega, nofun⟩
      · rintro ⟨rfl, hlt, -⟩
        exact ⟨_, ⟨rfl, by omega⟩, by omega⟩
  · rw [if_neg hdigits]
    exact iff_of_false nofun fun h => hdigits h.1

/-- a string that denotes an integer is read as it exactly if no leading zero makes it octal -/
theorem sZvalToUint64_str_iff {s : Bytes} {n : Nat} (h : denotes (.str s) = some n) :
    sZvalToUint64 env (.str s) = some (UInt64.ofNat n) ↔
      (signDigits s).2.head? ≠ some 48 ∨ natVal (signDigits s).2 < 8 := by
  obtain ⟨⟨hne, hds⟩, rfl, hlt, hneg⟩ := (denotes_str_iff s n).mp h
  -- a numeral that is taken to its end
  have hread : ∀ {v : UInt64}, strtoull s = ⟨v, [], false⟩ → sZvalToUint64 env (.str s) = some v := by
    intro v hv
    show (if _ then none else some _ : Option UInt64) = _
    rw [hv, if_neg (by simp)]
  have hsign : (if (signDigits s).1 then -UInt64.ofNat (natVal (signDigits s).2)
      else UInt64.ofNat (natVal (signDigits s).2)) = UInt64.ofNat (natVal (signDigits s).2) := by
    cases hs : (signDigits s).1 with
    | false => rfl
    | true =>
      rw [hneg hs]
      rfl
  by_cases hzero : (signDigits s).2.head? = some 48
  · by_cases hsmall : natVal (signDigits s).2 < 8
    · refine iff_of_true (hread ?_) (.inr hsmall)
      rw [strtoull_octal_small hds hzero hsmall, hsign]
    · refine iff_of_false ?_ (by rintro (h | h); exacts [h hzero, hsmall h])
      intro hsome
      have hrest : (strtoull s).rest = [] := by
        have hacc := (sZvalToUint64_isSome_iff env (.str s)).mp (by rw [hsome]; rfl)
        exact (hacc s rfl).1
      have hval : (strtoull s).val = UInt64.ofNat (natVal (signDigits s).2) := by
        change (if _ then none else some _ : Option UInt64) = _ at hsome
        split at hsome
        · cases hsome
        · exact Option.some.inj hsome
      obtain ⟨m, hm, hoct⟩ := strtoull_octal_large hds hzero (by omega) hlt hrest
      have hpos : (signDigits s).1 = false := by
        cases hs : (signDigits s).1 with
        | false => rfl
        | true => exact absurd (hneg hs) (by omega)
      rw [hval, hpos] at hoct
      have := congrArg UInt64.toNat hoct
      simp only [Bool.false_eq_true, if_false, UInt64.toNat_ofNat'] at this
      omega
  · refine iff_of_true (hread ?_) (.inl hzero)
    rw [strtoull_digits hds hne hzero hlt, hsign]

/-- **The tokens that are read as what they denote.** -/
theorem exact_iff (token : Zval) : CasToken.Exact token ↔
    ∃ c, sZvalToUint64 env token = some c ∧ denotes token = some c.toNat := by
  have hnone : denotes token = none → (CasToken.Exact token ↔
      ∃ c, sZvalToUint64 env token = some c ∧ denotes token = some c.toNat) := by
    intro h
    refine iff_of_false (fun hexact => ?_) ?_
    · have := hexact.1
      rw [h] at this
      cases this
    · rintro ⟨c, -, hc⟩
      rw [h] at hc
      cases hc
  cases token with
  | null => exact hnone rfl
  | bool b => exact hnone rfl
  | arr a => exact hnone rfl
  | obj k => exact hnone rfl
  | long n =>
    by_cases hn : 0 ≤ n.toInt
    · refine iff_of_true ⟨?_, nofun⟩ ⟨n.toUInt64, rfl, ?_⟩
      · rw [denotes, if_pos hn]
        rfl
      · have hle : (0 : Int64) ≤ n := Int64.le_iff_toInt_le.mpr hn
        rw [denotes, if_pos hn, Int64.toNat_toUInt64_of_le hle]
        rfl
    · refine hnone ?_
      rw [denotes, if_neg hn]
  | double d =>
    cases hd : denotes (.double d) with
    | none => rw [← hd]; exact hnone hd
    | some n =>
      have hn := hd
      rw [denotes] at hn
      split at hn
      · cases hn
      · rename_i hpos
        obtain ⟨hexact, hlt⟩ := Option.filter_eq_some_iff.mp hn
        have hlt : n < 2 ^ 64 := of_decide_eq_true hlt
        refine iff_of_true ⟨by rw [hd]; rfl, nofun⟩ ⟨UInt64.ofNat n, ?_, ?_⟩
        · show (if d.isNeg then some 0 else _ : Option UInt64) = _
          rw [if_neg hpos, Dbl.truncNat_of_exactNat hexact]
          dsimp only
          rw [if_pos hlt]
        · rw [UInt64.toNat_ofNat', Nat.mod_eq_of_lt hlt]
  | str s =>
    cases hs : denotes (.str s) with
    | none => rw [← hs]; exact hnone hs
    | some n =>
      have hlt : n < 2 ^ 64 := ((denotes_str_iff s n).mp hs).2.2.1
      have hexact : CasToken.Exact (.str s) ↔
          (signDigits s).2.head? ≠ some 48 ∨ natVal (signDigits s).2 < 8 :=
        ⟨fun h => h.2 s rfl, fun h => ⟨by rw [hs]; rfl, fun s' hs' => by cases hs'; exact h⟩⟩
      rw [hexact, ← sZvalToUint64_str_iff env hs]
      constructor
      · intro h
        refine ⟨_, h, ?_⟩
        rw [UInt64.toNat_ofNat', Nat.mod_eq_of_lt hlt]
      · rintro ⟨c, hc, hn⟩
        rw [hc, Option.some.inj hn, UInt64.ofNat_toNat]

/-! ## the call -/

/-- what a value comes to does not depend on the status -/
theorem writeOut_setStatus (s : State) (status : Status) (errno : Int) (value : Option Zval) :
    writeOut env { s with rescode := status, memcErrno := errno } value = writeOut env s value :=
  writeOut_congr env rfl rfl value

variable {serverKey : Option Bytes} {token : Zval} {c : UInt64} {key : Bytes} {value : Zval}
  {expiration : Int64} {s : State}

/-- a key that is not valid ends the call -/
theorem ends_phpMemcCasImpl_badKey (hkey : memcCheckKey s.memc key = false) :
    Cmd.Ends (fun _ => False) (fun o => ∃ s', o = .done (.bool false) s')
      (phpMemcCasImpl env serverKey token key value expiration) s := by
  unfold phpMemcCasImpl sMemcSetStatus checkKeyOr
  rw [Cmd.ends_modify_bind, Cmd.ends_get_bind, if_neg (by rw [hkey]; exact Bool.false_ne_true)]
  exact ⟨_, rfl⟩

/-- a token that raises an error ends it for good -/
theorem ends_phpMemcCasImpl_fatal (hkey : memcCheckKey s.memc key = true)
    (htoken : sZvalToUint64 env token = none) :
    Cmd.Ends (fun _ => False) (fun o => ∃ text s', o = .stop (.fatal text) s')
      (phpMemcCasImpl env serverKey token key value expiration) s := by
  unfold phpMemcCasImpl sMemcSetStatus checkKeyOr
  rw [Cmd.ends_modify_bind, Cmd.ends_get_bind, if_pos hkey, htoken]
  exact ⟨_, _, rfl⟩

/-- a value that cannot be sent leads to no request: a refused one is reported -/
theorem ends_phpMemcCasImpl_unsent (hkey : memcCheckKey s.memc key = true)
    (htoken : sZvalToUint64 env token = some c)
    (hout : ∀ p f, writeOut env s (some value) ≠ .send p f) :
    Cmd.Ends Call.IsWarning (fun
        | .done ret s' => ret = .bool false ∧ writeOut env s (some value) = .refuse s'.rescode
        | .stop e _ => e = .nullDeref ∧ writeOut env s (some value) = .crash)
      (phpMemcCasImpl env serverKey token key value expiration) s := by
  unfold phpMemcCasImpl sMemcSetStatus checkKeyOr
  rw [Cmd.ends_modify_bind, Cmd.ends_get_bind, if_pos hkey, htoken]
  rw [← writeOut_setStatus env s .success 0] at hout ⊢
  generalize { s with rescode := .success, memcErrno := 0 } = s₀ at hout ⊢
  change ∀ p f, (payloadOut env s₀ value 0).toWrite s₀ ≠ .send p f at hout
  have hpayload := (ends_sZvalToPayload env s₀ value 0).mono (fun _ h => h.1) fun _ h => h
  refine hpayload.bind (fun r s₁ hr => ?_) (fun e s₁ hr => ?_)
  · cases hp : payloadOut env s₀ value 0 with
    | payload p f =>
      rw [hp] at hr hout
      cases r with
      | none => exact hr.elim
      | some r =>
        obtain ⟨rfl, hs⟩ := hr
        have hbig₀ : sIsPayloadTooBig s₀ p = true := by
          by_contra hsmall
          exact hout p f (if_neg hsmall)
        have hbig : sIsPayloadTooBig s₁ p = true := by
          rw [sIsPayloadTooBig, hs.memc]
          exact hbig₀
        dsimp only
        rw [Cmd.ends_get_bind, if_pos hbig]
        refine ⟨rfl, ?_⟩
        show (payloadOut env s₀ value 0).toWrite s₀ = .refuse .e2big
        rw [hp, PayloadOut.toWrite, if_pos hbig₀]
    | failed =>
      rw [hp] at hr
      cases r with
      | none =>
        refine ⟨rfl, ?_⟩
        show (payloadOut env s₀ value 0).toWrite s₀ = .refuse .payloadFailure
        rw [hp]
        rfl
      | some r => exact hr.elim
    | crash => rw [hp] at hr; cases r <;> exact hr.elim
  · show e = .nullDeref ∧ (payloadOut env s₀ value 0).toWrite s₀ = .crash
    cases hp : payloadOut env s₀ value 0 with
    | crash =>
      rw [hp] at hr
      cases e with
      | nullDeref => exact ⟨rfl, rfl⟩
      | fatal text => exact hr.elim
    | payload p f => rw [hp] at hr; exact hr.elim
    | failed => rw [hp] at hr; exact hr.elim

omit env in
/-- the CAS value of a request -/
def Call.casValue : Call → Option UInt64
  | .cas _ _ _ _ _ c => some c
  | .casByKey _ _ _ _ _ _ c => some c
  | _ => none

omit env in
theorem Call.IsWarning.casValue {call : Call} (h : call.IsWarning) : call.casValue = none := by
  cases call <;> first | rfl | exact h.elim

omit env in
/-- the CAS values sent in a run -/
def casValues (l : List (Entry Call Ans)) : List UInt64 := l.filterMap fun e => e.req.casValue

omit env in
theorem exists_casValue {l : List (Entry Call Ans)} (h : casValues l = [c]) :
    ∃ e ∈ l, e.req.casValue = some c := by
  have hmem : c ∈ casValues l := by
    rw [h]
    exact List.mem_singleton_self c
  exact List.mem_filterMap.mp hmem

omit env in
theorem casValues_status {σ : Type} (h : Handler Call Ans σ) (status : Status) (s : State) (w : σ) :
    casValues (Cmd.log h (sMemcStatusHandleResultCode status >>= fun ok => pure (Zval.bool ok)) s w)
      = [] := by
  unfold sMemcStatusHandleResultCode sMemcSetStatus
  rw [bind_assoc, Cmd.log_modify_bind]
  cases sMemcachedReturnIsError status true <;> rfl

omit env in
theorem run_memcachedCas {σ : Type} (h : Handler Call Ans σ) (serverKey : Option Bytes)
    (key payload : Bytes) (expiration : Int64) (flags : Flags) (c : UInt64) (s : State) (w : σ) :
    ∃ status w', Cmd.exec h (memcachedCas serverKey key payload expiration flags c) s w =
        (.done status s, w') ∧
      casValues (Cmd.log h (memcachedCas serverKey key payload expiration flags c) s w) = [c] := by
  cases serverKey <;> exact ⟨_, _, rfl, rfl⟩

/-- **A valid key, a token read as `c` and a value that can be sent: one request, with `c`.** -/
theorem casValues_phpMemcCasImpl (hkey : memcCheckKey s.memc key = true)
    (htoken : sZvalToUint64 env token = some c) {p : Option Bytes} {f : Flags}
    (hout : writeOut env s (some value) = .send p f) {σ : Type} (h : Handler Call Ans σ) (w : σ) :
    casValues (Cmd.log h (phpMemcCasImpl env serverKey token key value expiration) s w) = [c] := by
  unfold phpMemcCasImpl sMemcSetStatus checkKeyOr
  rw [Cmd.log_modify_bind, Cmd.log_get_bind, if_pos hkey, htoken]
  rw [← writeOut_setStatus env s .success 0] at hout
  generalize { s with rescode := .success, memcErrno := 0 } = s₀ at hout ⊢
  change (payloadOut env s₀ value 0).toWrite s₀ = .send p f at hout
  cases hp : payloadOut env s₀ value 0 with
  | failed => rw [hp] at hout; cases hout
  | crash => rw [hp] at hout; cases hout
  | payload payload flags =>
    rw [hp] at hout
    have hsmall : sIsPayloadTooBig s₀ payload = false := by
      by_contra hbig
      rw [PayloadOut.toWrite, if_pos (Bool.eq_true_of_not_eq_false hbig)] at hout
      cases hout
    obtain ⟨s₁, hexec, hs⟩ := exec_of_payloadOut env hp h w
    have hlog : Cmd.log h (sZvalToPayload env value 0) s₀ w = [] :=
      Cmd.Ends.log_silent ((ends_sZvalToPayload env s₀ value 0).mono
        (fun _ hc => by rw [hp] at hc; cases hc.2) fun _ ho => ho) h w
    dsimp only
    rw [Cmd.log_bind_done hexec, hlog, List.nil_append]
    dsimp only
    rw [Cmd.log_get_bind, sIsPayloadTooBig, hs.memc]
    change casValues (Cmd.log h (if sIsPayloadTooBig s₀ payload = true then _ else _) s₁ w) = _
    rw [hsmall, if_neg Bool.false_ne_true]
    obtain ⟨status, w', hreq, hvalues⟩ := run_memcachedCas h serverKey key payload expiration flags c
      s₁ w
    rw [Cmd.log_bind_done hreq, casValues, List.filterMap_append]
    change casValues _ ++ casValues _ = _
    rw [hvalues, casValues_status]
    rfl

/-- a value that cannot be sent: no CAS value is -/
theorem casValues_unsent (hkey : memcCheckKey s.memc key = true)
    (htoken : sZvalToUint64 env token = some c)
    (hout : ∀ p f, writeOut env s (some value) ≠ .send p f) {σ : Type} (h : Handler Call Ans σ)
    (w : σ) :
    casValues (Cmd.log h (phpMemcCasImpl env serverKey token key value expiration) s w) = [] :=
  List.filterMap_eq_nil_iff.mpr fun e he =>
    ((ends_phpMemcCasImpl_unsent env hkey htoken hout).log h w e he).casValue

/-- with a token read as `c`, no other CAS value is sent -/
theorem casValue_eq (hkey : memcCheckKey s.memc key = true)
    (htoken : sZvalToUint64 env token = some c) {p : Option Bytes} {f : Flags}
    (hout : writeOut env s (some value) = .send p f) :
    Cmd.Asks (fun call => ∀ c' ∈ call.casValue, c' = c)
      (phpMemcCasImpl env serverKey token key value expiration) s := by
  refine Cmd.sat_of_log fun σ h w e he c' hc' => ?_
  have hmem : c' ∈ casValues (Cmd.log h
      (phpMemcCasImpl env serverKey token key value expiration) s w) :=
    List.mem_filterMap.mpr ⟨e, he, hc'⟩
  rw [casValues_phpMemcCasImpl env hkey htoken hout] at hmem
  exact List.mem_singleton.mp hmem

/-! ## invalid tokens -/

variable (serverKey token key value expiration s) in
/-- a CAS value is only sent for a token that denotes it; for a token that denotes none the call
returns false and sends nothing -/
def CasSafe : Prop :=
  Cmd.Ends
    (fun call => (∀ c ∈ call.casValue, denotes token = some c.toNat) ∧
      (denotes token = none → call.IsWarning))
    (fun o => denotes token = none → ∃ s', o = .done (.bool false) s')
    (phpMemcCasImpl env serverKey token key value expiration) s

/-- an error is right for the tokens that denote an integer alone -/
theorem casSafe_fatal_iff (hkey : memcCheckKey s.memc key = true)
    (htoken : sZvalToUint64 env token = none) :
    CasSafe env serverKey token key value expiration s ↔ (denotes token).isSome = true := by
  have hfatal : Cmd.Ends _ (fun o => ∃ text s', o = .stop (.fatal text) s')
      (phpMemcCasImpl env serverKey token key value expiration) s :=
    ends_phpMemcCasImpl_fatal env hkey htoken
  cases hden : denotes token with
  | none =>
    refine iff_of_false (fun hsafe => ?_) Bool.false_ne_true
    obtain ⟨s', hdone⟩ := hsafe.exec noServers () hden
    obtain ⟨text, s₁, hstop⟩ := hfatal.exec noServers ()
    rw [hdone] at hstop
    cases hstop
  | some n =>
    refine iff_of_true ?_ rfl
    exact hfatal.mono (fun _ h => h.elim) fun _ _ h => nomatch hden.symm.trans h

/-- a request is right for the token that denotes its CAS value -/
theorem casSafe_sent_iff (hkey : memcCheckKey s.memc key = true)
    (htoken : sZvalToUint64 env token = some c) {p : Option Bytes} {f : Flags}
    (hout : writeOut env s (some value) = .send p f) :
    CasSafe env serverKey token key value expiration s ↔ denotes token = some c.toNat := by
  constructor
  · intro hsafe
    have hvalues : casValues (Cmd.log noServers
        (phpMemcCasImpl env serverKey token key value expiration) s ()) = [c] :=
      casValues_phpMemcCasImpl env hkey htoken hout noServers ()
    obtain ⟨e, he, hc⟩ := exists_casValue hvalues
    exact (hsafe.log noServers () e he).1 c hc
  · intro hden
    refine Cmd.Ends.mono (casValue_eq env hkey htoken hout) (fun call hcall => ?_)
      fun _ _ h => nomatch hden.symm.trans h
    exact ⟨fun c' hc' => hcall c' hc' ▸ hden, fun h => nomatch hden.symm.trans h⟩

/-- to send nothing is right unless a crash keeps the call from returning false -/
theorem casSafe_unsent_iff (hkey : memcCheckKey s.memc key = true)
    (htoken : sZvalToUint64 env token = some c)
    (hout : ∀ p f, writeOut env s (some value) ≠ .send p f) :
    CasSafe env serverKey token key value expiration s ↔
      (denotes token = none → writeOut env s (some value) ≠ .crash) := by
  have hunsent : Cmd.Ends Call.IsWarning _
      (phpMemcCasImpl env serverKey token key value expiration) s :=
    ends_phpMemcCasImpl_unsent env hkey htoken hout
  constructor
  · intro hsafe hden
    obtain ⟨s', hdone⟩ := hsafe.exec noServers () hden
    have hend := hunsent.exec noServers ()
    rw [hdone] at hend
    rw [hend.2]
    exact nofun
  · intro hcrash
    refine hunsent.mono (fun call hcall => ?_) fun o ho hden => ?_
    · rw [hcall.casValue]
      exact ⟨nofun, fun _ => hcall⟩
    · cases o with
      | done ret s' => exact ⟨s', by rw [ho.1]⟩
      | stop e s' => exact absurd ho.2 (hcrash hden)

/-- **When `cas` sends what its token denotes, and nothing if it denotes nothing.** -/
theorem casSafe_iff : CasSafe env serverKey token key value expiration s ↔
    (memcCheckKey s.memc key = true →
      if (denotes token).isSome then
        CasToken.Accepted token → (∃ p f, writeOut env s (some value) = .send p f) →
          CasToken.Exact token
      else
        CasToken.Accepted token ∧ ∃ status, writeOut env s (some value) = .refuse status) := by
  cases hkey : memcCheckKey s.memc key with
  | false =>
    refine iff_of_true ?_ nofun
    exact (ends_phpMemcCasImpl_badKey env hkey).mono (fun _ h => h.elim) fun _ h _ => h
  | true =>
    rw [forall_prop_of_true rfl, ← sZvalToUint64_isSome_iff env, exact_iff env]
    cases htoken : sZvalToUint64 env token with
    | none =>
      rw [casSafe_fatal_iff env hkey htoken]
      cases denotes token with
      | none => exact iff_of_false Bool.false_ne_true fun h => nomatch h.1
      | some n => exact iff_of_true rfl nofun
    | some c =>
      cases hout : writeOut env s (some value) with
      | send p f =>
        rw [casSafe_sent_iff env hkey htoken hout]
        cases denotes token with
        | none => exact iff_of_false nofun (by rintro ⟨-, status, h⟩; cases h)
        | some n =>
          constructor
          · exact fun hden _ _ => ⟨c, rfl, hden⟩
          · intro h
            obtain ⟨c', hc', hden⟩ := h rfl ⟨p, f, rfl⟩
            cases hc'
            exact hden
      | refuse status =>
        rw [casSafe_unsent_iff env hkey htoken (by rw [hout]; exact nofun), hout]
        refine iff_of_true nofun ?_
        split
        · rintro - ⟨p, f, hsend⟩
          cases hsend
        · exact ⟨rfl, status, rfl⟩
      | crash =>
        rw [casSafe_unsent_iff env hkey htoken (by rw [hout]; exact nofun), hout]
        cases denotes token with
        | none => exact iff_of_false (fun h => h rfl rfl) (by rintro ⟨-, status, h⟩; cases h)
        | some n => exact iff_of_true nofun (by rintro - ⟨p, f, h⟩; cases h)

end

/-- **`null` as a token is sent as CAS 0**, which a server does not compare. -/
theorem cas_null_sends_zero :
    ¬ CasSafe plainEnv none .null (ascii ['k']) (.str (ascii ['v'])) 0 (newObject iniDefaults 1) := by
  intro hsafe
  obtain ⟨e, he, hc⟩ := exists_casValue (show casValues (Cmd.log noServers (phpMemcCasImpl plainEnv
    none .null (ascii ['k']) (.str (ascii ['v'])) 0) (newObject iniDefaults 1) ()) = [0] from rfl)
  cases (hsafe.log noServers () e he).1 0 hc

end PhpMemcached
