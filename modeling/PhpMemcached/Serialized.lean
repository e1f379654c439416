import PhpMemcached.SetMulti
import PhpMemcached.KeySafety
import PhpMemcached.CasToken
import PhpMemcached.RoundTrip

/-!
# Failed serializations

* `SerOut.Succeeds`      the serializer succeeded, by the convention of each of them;
* `SerOut.Judged`        its outcome is not taken for a success if it is none;
* `SerializeSound`       `s_serialize_value` returns 1 for successes alone, and reads no absent buffer;
* `NothingSent`          a call sends nothing and reports `RES_PAYLOAD_FAILURE`;
* `ValueWrite`           the calls of `set`, `add`, `replace` and `cas`, for any value;
* `QuietWrites`          what the failed serializations of a `setMulti` come to;
* `failedNeverStored_iff`   when a failed serialization is never stored.
-/

namespace PhpMemcached
open Ascii Requests

/-- what the serializer of a case leaves -/
def serializerOut (env : Env) : SerializerType → Zval → SerOut
  | .igbinary => env.igbinarySerialize
  | .json | .jsonArray => env.phpJsonEncode
  | .msgpack => env.msgpackSerialize
  | .php => env.phpVarSerialize

/-- igbinary and JSON report a failure by their return value, the others by an absent buffer or an
exception -/
def SerOut.Succeeds (out : SerOut) : SerializerType → Prop
  | .igbinary => out.ok = true
  | .json | .jsonArray => out.ok = true ∧ out.buf.isSome = true
  | .msgpack | .php => out.buf.isSome = true ∧ out.exception = false

/-- `pending`: an exception was pending before -/
def SerOut.Judged (out : SerOut) (pending : Bool) : SerializerType → Prop
  | .igbinary => True
  | .json | .jsonArray => (out.ok = true ∧ out.buf.isSome = true) ∨
      ((pending || out.exception) = true ∧ ∃ b, out.buf = some b ∧ b ≠ [])
  | .msgpack | .php => out.exception = true → out.buf ≠ some []

/-- with an exception pending, no more outcomes are taken for successes -/
theorem SerOut.Judged.mono {out : SerOut} {p p' : Bool} {case : SerializerType}
    (h : out.Judged p case) (hp : p = true → p' = true) : out.Judged p' case := by
  have hor : (p || out.exception) = true → (p' || out.exception) = true := by
    rw [Bool.or_eq_true, Bool.or_eq_true]
    exact fun h => h.imp_left hp
  cases case with
  | igbinary => trivial
  | json => exact Or.imp_right (fun h => ⟨hor h.1, h.2⟩) h
  | jsonArray => exact Or.imp_right (fun h => ⟨hor h.1, h.2⟩) h
  | msgpack => exact h
  | php => exact h

theorem SerOut.Succeeds.judged {out : SerOut} {case : SerializerType} (h : out.Succeeds case)
    (p : Bool) : out.Judged p case := by
  cases case with
  | igbinary => trivial
  | json => exact .inl h
  | jsonArray => exact .inl h
  | msgpack => exact fun he => nomatch h.2.symm.trans he
  | php => exact fun he => nomatch h.2.symm.trans he

section
variable (env : Env) (s : State) (value : Zval)

/-- the value serializes -/
def Serializes : Prop :=
  let case := serializerCase env s.memc.userData.serializer
  (serializerOut env case value).Succeeds case

/-- its outcome is judged as what it is -/
def Judged : Prop :=
  let case := serializerCase env s.memc.userData.serializer
  (serializerOut env case value).Judged s.exception case

/-- `s_serialize_value` returns 1 only if the serializer succeeded and left a buffer, and reads no
absent one -/
def SerializeSound (flags : Flags) : Prop :=
  Cmd.Ends (fun _ => True) (fun
    | .done none _ => True
    | .done (some r) _ => Serializes env s value ∧ r.1.isSome = true
    | .stop _ _ => False) (sSerializeValue env s.memc.userData.serializer value flags) s

/-- the buffer is turned down -/
def BufferRefused (pending : Bool) : SerBranch × Bool → Prop
  | (.error _, _) => True
  | (.ok (none, _), _) => False
  | (.ok (some b, _), thrown) => (pending || thrown) = true ∧ b ≠ []

/-- the buffer of a success is there -/
def BufferLeft : SerBranch × Bool → Prop
  | (.ok (some _, _), _) => True
  | _ => False

theorem judged_iff : Judged env s value ↔
    BufferRefused s.exception (serializeBuffer env s.memc.userData.serializer value) ∨
      (Serializes env s value ∧
        BufferLeft (serializeBuffer env s.memc.userData.serializer value)) := by
  unfold Judged Serializes serializeBuffer
  dsimp only
  cases serializerCase env s.memc.userData.serializer with
  | igbinary =>
    refine iff_of_true trivial ?_
    dsimp only [serializerOut, SerOut.Succeeds]
    cases (env.igbinarySerialize value).ok with
    | true => exact .inr ⟨rfl, trivial⟩
    | false => exact .inl trivial
  | json =>
    dsimp only [serializerOut, SerOut.Succeeds, SerOut.Judged]
    cases (env.phpJsonEncode value).buf with
    | none => simp [BufferRefused, BufferLeft]
    | some b => simp [BufferRefused, BufferLeft, or_comm]
  | jsonArray =>
    dsimp only [serializerOut, SerOut.Succeeds, SerOut.Judged]
    cases (env.phpJsonEncode value).buf with
    | none => simp [BufferRefused, BufferLeft]
    | some b => simp [BufferRefused, BufferLeft, or_comm]
  | msgpack =>
    dsimp only [serializerOut, SerOut.Succeeds, SerOut.Judged]
    cases (env.msgpackSerialize value).buf with
    | none => simp [BufferRefused]
    | some b => cases (env.msgpackSerialize value).exception <;> simp [BufferRefused, BufferLeft]
  | php =>
    dsimp only [serializerOut, SerOut.Succeeds, SerOut.Judged]
    cases (env.phpVarSerialize value).buf with
    | none => simp [BufferRefused]
    | some b => cases (env.phpVarSerialize value).exception <;> simp [BufferRefused, BufferLeft]

theorem serializeSound_iff (flags : Flags) :
    SerializeSound env s value flags ↔ Judged env s value := by
  rw [judged_iff]
  unfold SerializeSound sSerializeValue raise phpWarning
  dsimp only
  rcases serializeBuffer env s.memc.userData.serializer value with ⟨_ | ⟨_ | b, type⟩, thrown⟩
  · exact iff_of_true ⟨trivial, fun _ => trivial⟩ (.inl trivial)
  · refine iff_of_false ?_ (by rintro (h | ⟨-, h⟩) <;> exact h)
    rw [Cmd.ends_modify_bind]
    dsimp only
    rw [Cmd.ends_get_bind]
    cases s.exception || thrown with
    | true => exact id
    | false => exact fun h => nomatch h.2
  · rw [Cmd.ends_modify_bind]
    dsimp only
    rw [Cmd.ends_get_bind]
    show Cmd.Ends _ _ (if (s.exception || thrown) = true then _ else _) _ ↔
      ((s.exception || thrown) = true ∧ b ≠ []) ∨ (Serializes env s value ∧ True)
    have hkept (h : ¬((s.exception || thrown) = true ∧ b ≠ [])) :
        (Serializes env s value ∧ true = true) ↔
          ((s.exception || thrown) = true ∧ b ≠ []) ∨ (Serializes env s value ∧ True) :=
      ⟨fun hs => .inr ⟨hs.1, trivial⟩, fun hs => ⟨(hs.resolve_left h).1, rfl⟩⟩
    by_cases hexc : (s.exception || thrown) = true
    · rw [if_pos hexc]
      by_cases hb : b = []
      · rw [if_neg (by simpa using hb)]
        exact hkept fun h => h.2 hb
      · rw [if_pos (by simpa using hb)]
        exact iff_of_true trivial (.inl ⟨hexc, hb⟩)
    · rw [if_neg hexc]
      exact hkept fun h => hexc h.1

variable {value} in
/-- a value that is left to the serializer is refused exactly if its buffer is turned down -/
theorem writeOut_refused_iff (hv : value.IsSerialized) :
    writeOut env s (some value) = .refuse .payloadFailure ↔
      BufferRefused s.exception (serializeBuffer env s.memc.userData.serializer value) := by
  show (payloadOut env s value 0).toWrite s = _ ↔ _
  rw [payloadOut_serialized hv, serializedOut]
  rcases serializeBuffer env s.memc.userData.serializer value with ⟨_ | ⟨_ | b, type⟩, thrown⟩
  · exact iff_of_true rfl trivial
  · exact iff_of_false (fun h => by cases h) id
  · dsimp only [BufferRefused]
    by_cases h : (s.exception || thrown) = true ∧ b.length ≠ 0
    · rw [if_pos h]
      exact iff_of_true rfl ⟨h.1, fun hb => h.2 (by rw [hb]; rfl)⟩
    · rw [if_neg h]
      refine iff_of_false ?_ fun hb => h ⟨hb.1, fun hl => hb.2 (List.length_eq_zero_iff.mp hl)⟩
      unfold finishOut PayloadOut.toWrite
      dsimp only
      split <;> exact fun h => by cases h

variable {value} in
/-- a failed serialization is refused exactly if it is judged as one -/
theorem writeOut_refused_iff_judged (hv : value.IsSerialized) (hfail : ¬ Serializes env s value) :
    writeOut env s (some value) = .refuse .payloadFailure ↔ Judged env s value := by
  rw [judged_iff, writeOut_refused_iff env s hv]
  exact ⟨.inl, fun h => h.resolve_right fun h => hfail h.1⟩

/-! ## the calls -/

/-- the call sends nothing and reports a payload failure -/
def NothingSent (m : MemcM Zval) (s : State) : Prop :=
  Cmd.Ends Call.IsWarning (fun o => ∃ s', o = .done (.bool false) s' ∧ s'.rescode = .payloadFailure)
    m s

/-- a call that writes one value -/
inductive ValueWrite where
  | set (serverKey : Option Bytes) (key : Bytes) (expiration : Int64)
  | add (serverKey : Option Bytes) (key : Bytes) (expiration : Int64)
  | replace (serverKey : Option Bytes) (key : Bytes) (expiration : Int64)
  | cas (serverKey : Option Bytes) (token : Zval) (key : Bytes) (expiration : Int64)

def ValueWrite.run (value : Zval) : ValueWrite → MemcM Zval
  | .set serverKey key expiration => phpMemcStoreImpl env .set serverKey key (some value) expiration
  | .add serverKey key expiration => phpMemcStoreImpl env .add serverKey key (some value) expiration
  | .replace serverKey key expiration =>
    phpMemcStoreImpl env .replace serverKey key (some value) expiration
  | .cas serverKey token key expiration => phpMemcCasImpl env serverKey token key value expiration

/-- the call comes to its value: the key is valid, and a token raises no error -/
def ValueWrite.Admitted (s : State) : ValueWrite → Prop
  | .set _ key _ | .add _ key _ | .replace _ key _ => memcCheckKey s.memc key = true
  | .cas _ token key _ => memcCheckKey s.memc key = true ∧ CasToken.Accepted token

variable {env s value} {op : WriteOp} {serverKey : Option Bytes} {key : Bytes} {expiration : Int64}

/-- a write that is not sent: a refused one is reported -/
theorem ends_sMemcWriteZval_unsent (hout : ∀ p f, writeOut env s (some value) ≠ .send p f) :
    Cmd.Ends Call.IsWarning (fun
        | .done ok s' => ok = false ∧ writeOut env s (some value) = .refuse s'.rescode
        | .stop e _ => e = .nullDeref ∧ writeOut env s (some value) = .crash)
      (sMemcWriteZval env op serverKey key (some value) expiration) s := by
  unfold sMemcWriteZval
  rw [Cmd.ends_get_bind]
  refine (ends_writePayload env s (some value)).bind (fun r s₁ hr => ?_) fun e s₁ hr => ?_
  · cases hw : writeOut env s (some value) with
    | send p f => exact absurd hw (hout p f)
    | refuse st =>
      rw [hw] at hr
      cases r with
      | ok r => exact hr.elim
      | error st' =>
        obtain ⟨rfl, -⟩ := hr
        exact ⟨rfl, rfl⟩
    | crash => rw [hw] at hr; cases r <;> exact hr.elim
  · cases hw : writeOut env s (some value) with
    | send p f => exact absurd hw (hout p f)
    | refuse st => rw [hw] at hr; exact hr.elim
    | crash =>
      rw [hw] at hr
      cases e with
      | nullDeref => exact ⟨rfl, rfl⟩
      | fatal text => exact hr.elim

/-- a write that is sent -/
theorem not_asks_warnings (hop : op ≠ .touch) {p : Option Bytes} {f : Flags}
    (hout : writeOut env s (some value) = .send p f) :
    ¬ Cmd.Asks Call.IsWarning (sMemcWriteZval env op serverKey key (some value) expiration) s := by
  intro hasks
  obtain ⟨payload, rfl⟩ := isSome_of_writeOut_send env hout
  obtain ⟨c, hc⟩ : ∃ c, writeRequest s.memc op serverKey key (some payload) expiration f =
      some c := by
    cases op with
    | touch => exact absurd rfl hop
    | _ => cases serverKey <;> exact ⟨_, rfl⟩
  obtain ⟨c', hc'⟩ := writeRequest_plain hc
  obtain ⟨k, as, hlog, -⟩ := writeLog_of_send (fun _ => .success) noServers () hout hc hc'
  have hnone : attempts (Cmd.log storesAll
      (sMemcWriteZval env op serverKey key (some value) expiration) s (0, ())) = [] :=
    attempts_of_noAttempt fun e he => (hasks.log storesAll (0, ()) e he).noAttempt
  cases hnone.symm.trans hlog

/-- the store methods, with the test of append and prepend out of the way -/
theorem phpMemcStoreImpl_apply (hop : op ≠ .append ∧ op ≠ .prepend)
    (hkey : memcCheckKey s.memc key = true) :
    phpMemcStoreImpl env op serverKey key (some value) expiration s =
      (sMemcWriteZval env op serverKey key (some value) expiration >>= fun ok => pure (.bool ok))
        { s with rescode := .success, memcErrno := 0 } := by
  have happend : (s.memc.userData.compressionEnabled && (op == .append || op == .prepend)) =
      false := by
    rw [beq_false_of_ne hop.1, beq_false_of_ne hop.2, Bool.or_self, Bool.and_false]
  unfold phpMemcStoreImpl checkKeyOr
  show (if memcCheckKey s.memc key = true then _ else _ : MemcM Zval) _ = _
  rw [if_pos hkey]
  show (if (s.memc.userData.compressionEnabled && (op == .append || op == .prepend)) = true
    then _ else _ : MemcM Zval) _ = _
  rw [happend, if_neg Bool.false_ne_true]

/-- a store method, on a value refused or not -/
theorem nothingSent_phpMemcStoreImpl_iff (hop : op ≠ .touch ∧ op ≠ .append ∧ op ≠ .prepend)
    (hkey : memcCheckKey s.memc key = true) :
    NothingSent (phpMemcStoreImpl env op serverKey key (some value) expiration) s ↔
      writeOut env s (some value) = .refuse .payloadFailure := by
  unfold NothingSent Cmd.Ends
  rw [phpMemcStoreImpl_apply hop.2 hkey, ← writeOut_setStatus env s .success 0]
  generalize { s with rescode := .success, memcErrno := 0 } = s₀
  change Cmd.Ends _ _ _ s₀ ↔ _
  constructor
  · intro hnone
    have hasks : Cmd.Asks Call.IsWarning
        (sMemcWriteZval env op serverKey key (some value) expiration) s₀ :=
      ((Cmd.sat_bind _ _).mp hnone.sat).mono (fun _ h => h) fun _ _ _ => trivial
    have hout : ∀ p f, writeOut env s₀ (some value) ≠ .send p f :=
      fun p f hout => not_asks_warnings hop.1 hout hasks
    have hunsent : Cmd.Ends _ _ (sMemcWriteZval env op serverKey key (some value) expiration) s₀ :=
      ends_sMemcWriteZval_unsent hout
    have hend := hunsent.exec noServers ()
    obtain ⟨s', hdone, hcode⟩ := hnone.exec noServers ()
    cases hx : Cmd.exec noServers (sMemcWriteZval env op serverKey key (some value) expiration)
        s₀ () with
    | mk o w' =>
      rw [hx] at hend
      cases o with
      | done ok s₁ =>
        rw [Cmd.exec_bind_done hx] at hdone
        cases hdone
        rw [← hcode]
        exact hend.2
      | stop e s₁ =>
        rw [Cmd.exec_bind_stop hx] at hdone
        cases hdone
  · intro hout
    have hunsent : Cmd.Ends _ _ (sMemcWriteZval env op serverKey key (some value) expiration) s₀ :=
      ends_sMemcWriteZval_unsent (by rw [hout]; exact nofun)
    refine hunsent.bind (fun ok s₁ hok => ?_) fun e s₁ he => ?_
    · obtain ⟨rfl, hcode⟩ := hok
      rw [hout] at hcode
      exact ⟨s₁, rfl, (WriteOut.refuse.inj hcode).symm⟩
    · rw [hout] at he
      cases he.2

/-- `cas`, on a value refused or not -/
theorem nothingSent_phpMemcCasImpl_iff {token : Zval} (hkey : memcCheckKey s.memc key = true)
    (htoken : CasToken.Accepted token) :
    NothingSent (phpMemcCasImpl env serverKey token key value expiration) s ↔
      writeOut env s (some value) = .refuse .payloadFailure := by
  obtain ⟨c, hc⟩ := Option.isSome_iff_exists.mp ((sZvalToUint64_isSome_iff env token).mpr htoken)
  constructor
  · intro hnone
    have hout : ∀ p f, writeOut env s (some value) ≠ .send p f := by
      intro p f hout
      have hvalues : casValues (Cmd.log noServers
          (phpMemcCasImpl env serverKey token key value expiration) s ()) = [c] :=
        casValues_phpMemcCasImpl env hkey hc hout noServers ()
      obtain ⟨e, he, hcas⟩ := exists_casValue hvalues
      cases (hnone.log noServers () e he).casValue.symm.trans hcas
    have hunsent : Cmd.Ends _ _ (phpMemcCasImpl env serverKey token key value expiration) s :=
      ends_phpMemcCasImpl_unsent env hkey hc hout
    have hend := hunsent.exec noServers ()
    obtain ⟨s', hdone, hcode⟩ := hnone.exec noServers ()
    rw [hdone] at hend
    rw [← hcode]
    exact hend.2
  · intro hout
    refine (ends_phpMemcCasImpl_unsent env hkey hc (by rw [hout]; exact nofun)).mono
      (fun _ h => h) fun o ho => ?_
    rw [hout] at ho
    cases o with
    | done ret s' => exact ⟨s', by rw [ho.1], (WriteOut.refuse.inj ho.2).symm⟩
    | stop e s' => cases ho.2

/-- **A call with a failed serialization sends nothing exactly if the failure is judged as one.** -/
theorem nothingSent_iff (hv : value.IsSerialized) (hfail : ¬ Serializes env s value)
    {call : ValueWrite} (hcall : call.Admitted s) :
    NothingSent (call.run env value) s ↔ Judged env s value := by
  rw [← writeOut_refused_iff_judged env s hv hfail]
  cases call with
  | set serverKey key expiration => exact nothingSent_phpMemcStoreImpl_iff (by decide) hcall
  | add serverKey key expiration => exact nothingSent_phpMemcStoreImpl_iff (by decide) hcall
  | replace serverKey key expiration => exact nothingSent_phpMemcStoreImpl_iff (by decide) hcall
  | cas serverKey token key expiration => exact nothingSent_phpMemcCasImpl_iff hcall.1 hcall.2

/-! ## `setMulti` -/

/-- a value that does not serialize -/
def Fails (env : Env) (s : State) (value : Zval) : Prop :=
  value.IsSerialized ∧ ¬ Serializes env s value

/-- this run of a write sends nothing and reports a payload failure -/
def RunRefused {σ : Type} (h : Handler Call Ans σ) (m : MemcM Bool) (s : State) (w : σ) : Prop :=
  (∃ s' w', Cmd.exec h m s w = (.done false s', w') ∧ s'.rescode = .payloadFailure) ∧
    ∀ e ∈ Cmd.log h m s w, e.req.IsWarning

/-- in this run of the writes of `setMulti`, those of values that do not serialize are refused -/
def QuietWrites (env : Env) {σ : Type} (h : Handler Call Ans σ) (serverKey : Option Bytes)
    (expiration : Int64) : HashTable → State → σ → Prop
  | [], _, _ => True
  | (k, value) :: entries, s, w =>
    let write := sMemcWriteZval env .set serverKey (entryKey k) (some value) expiration
    (Fails env s value → RunRefused h write s w) ∧
      ∀ ok s' w', Cmd.exec h write s w = (.done ok s', w') →
        QuietWrites env h serverKey expiration entries s' w'

variable (env s) in
/-- `setMulti` sends nothing for a value that does not serialize; with such a value it reports a
payload failure -/
def SetMultiNeverStores (serverKey : Option Bytes) (entries : HashTable) (expiration : Int64) :
    Prop :=
  ∀ {σ : Type} (h : Handler Call Ans σ) (w : σ),
    QuietWrites env h serverKey expiration entries
        { s with rescode := .success, memcErrno := 0 } w ∧
      ((∃ e ∈ entries, Fails env s e.2) → ∃ s' w',
        Cmd.exec h (phpMemcSetMultiImpl env serverKey entries expiration) s w =
          (.done (.bool false) s', w') ∧ s'.rescode = .payloadFailure)

variable (env) in
/-- every outcome is judged as what it is, the exceptions of the values before pending -/
def EntriesJudged (s : State) : HashTable → Prop
  | [] => True
  | (_, value) :: entries => (value.IsSerialized → Judged env s value) ∧
    EntriesJudged { s with exception := s.exception || serializerThrows env s value } entries

variable (env) in
/-- what the last value comes to -/
def lastOut (s : State) : HashTable → Option WriteOut
  | [] => none
  | [(_, value)] => some (writeOut env s (some value))
  | (_, value) :: entries =>
    lastOut { s with exception := s.exception || serializerThrows env s value } entries

variable (env) in
theorem lastOut_cons (s : State) (e : ArrKey × Zval) (entries : HashTable) :
    ∃ o, lastOut env s (e :: entries) = some o := by
  induction entries generalizing s e with
  | nil => exact ⟨_, rfl⟩
  | cons e' entries ih => exact ih _ e'

theorem Serializes.congr {s s' : State} (hmemc : s'.memc = s.memc) :
    Serializes env s' value ↔ Serializes env s value := by
  unfold Serializes
  rw [hmemc]

/-- with more exceptions pending, an outcome that was judged right still is -/
theorem Judged.thrown {s' : State} (h : Judged env s value) (hs : Thrown s false s') :
    Judged env s' value := by
  unfold Judged at h ⊢
  rw [hs.memc]
  refine SerOut.Judged.mono h fun hexc => hs.exception ?_
  rw [hexc]
  rfl

/-- a value that is judged right does not crash -/
theorem writeOut_ne_crash (h : value.IsSerialized → Judged env s value) :
    writeOut env s (some value) ≠ .crash := by
  have hser : value.IsSerialized → writeOut env s (some value) ≠ .crash := by
    intro hv hcrash
    have hbuf := (judged_iff env s value).mp (h hv)
    change (payloadOut env s value 0).toWrite s = .crash at hcrash
    rw [payloadOut_serialized hv, serializedOut] at hcrash
    rcases hr : serializeBuffer env s.memc.userData.serializer value with ⟨_ | ⟨_ | b, type⟩, thrown⟩
    · rw [hr] at hcrash
      cases hcrash
    · rw [hr] at hbuf
      rcases hbuf with hbuf | ⟨-, hbuf⟩ <;> exact hbuf
    · rw [hr] at hcrash
      dsimp only at hcrash
      split at hcrash
      · cases hcrash
      · unfold finishOut PayloadOut.toWrite at hcrash
        dsimp only at hcrash
        split at hcrash <;> cases hcrash
  have hplain : ∀ p f, (PayloadOut.payload p f).toWrite s ≠ .crash := by
    intro p f
    rw [PayloadOut.toWrite]
    split <;> exact fun h => by cases h
  cases value with
  | str b => exact hplain _ _
  | long n => exact hplain _ _
  | double d => exact hplain _ _
  | bool b => cases b <;> exact hplain _ _
  | null => exact hser trivial
  | arr a => exact hser trivial
  | obj n => exact hser trivial

theorem total_writeAttempt (payload : Option Bytes) (flags : Flags) (s : State) :
    Cmd.Total (writeAttempt env op serverKey key payload expiration flags) s := by
  have hstore : ∀ fn, Cmd.Total (memcWriteUsingFn fn key payload expiration flags) s := by
    intro fn
    cases payload with
    | none => exact ⟨_, s, rfl⟩
    | some payload => exact ⟨trivial, fun status => ⟨status, s, rfl⟩⟩
  have hstoreByKey : ∀ fn serverKey,
      Cmd.Total (memcWriteUsingFnByKey fn serverKey key payload expiration flags) s := by
    intro fn serverKey
    cases payload with
    | none => exact ⟨_, s, rfl⟩
    | some payload => exact ⟨trivial, fun status => ⟨status, s, rfl⟩⟩
  have hwarning : Cmd.Total (touchWarning env s.memc) s := by
    unfold touchWarning
    split
    · exact ⟨trivial, fun _ => ⟨_, _, rfl⟩⟩
    · exact ⟨_, _, rfl⟩
  cases serverKey with
  | none =>
    refine Cmd.Total.map _ ?_
    cases op with
    | touch => exact hwarning.bind fun _ s' => ⟨trivial, fun status => ⟨status, s', rfl⟩⟩
    | _ => exact hstore _
  | some serverKey =>
    refine Cmd.Total.map _ ?_
    cases op with
    | touch => exact hwarning.bind fun _ s' => ⟨trivial, fun status => ⟨status, s', rfl⟩⟩
    | _ => exact hstoreByKey _ serverKey

theorem total_handleResultCode (status : Status) (s : State) :
    Cmd.Total (sMemcStatusHandleResultCode status) s := by
  unfold sMemcStatusHandleResultCode sMemcSetStatus Cmd.Total
  rw [Cmd.ends_modify_bind]
  cases sMemcachedReturnIsError status true with
  | true => exact ⟨trivial, fun _ => ⟨_, _, rfl⟩⟩
  | false => exact ⟨_, _, rfl⟩

/-- a write that does not crash comes to an end -/
theorem total_sMemcWriteZval (hout : writeOut env s (some value) ≠ .crash) :
    Cmd.Total (sMemcWriteZval env op serverKey key (some value) expiration) s := by
  by_cases hsend : ∀ p f, writeOut env s (some value) ≠ .send p f
  · refine (ends_sMemcWriteZval_unsent hsend).mono (fun _ _ => trivial) fun o ho => ?_
    cases o with
    | done ok s' => exact ⟨ok, s', rfl⟩
    | stop e s' => exact absurd ho.2 hout
  · simp only [not_forall, Classical.not_not] at hsend
    obtain ⟨p, f, hsend⟩ := hsend
    unfold sMemcWriteZval
    rw [Cmd.Total, Cmd.ends_get_bind]
    refine ((ends_writePayload env s (some value)).mono (fun _ _ => trivial) fun _ h => h).bind
      (fun r s₁ hr => ?_) fun e s₁ he => ?_
    · cases r with
      | error st => exact ⟨_, _, rfl⟩
      | ok r =>
        show Cmd.Total (writeAttempts env op serverKey key r.1 expiration r.2
          s.memc.userData.storeRetryCount >>= sMemcStatusHandleResultCode) s₁
        rw [writeAttempts_eq]
        exact ((total_writeAttempt _ _ _).bind fun st s₂ =>
          Cmd.Total.retry (fun _ s₃ => total_writeAttempt _ _ s₃) _ st s₂).bind total_handleResultCode
    · rw [hsend] at he
      exact he.elim

/-- the writes of values that are judged right -/
theorem quietWrites_of_judged {σ : Type} (h : Handler Call Ans σ) {entries : HashTable} :
    ∀ {s s' : State} (w : σ), Thrown s false s' → EntriesJudged env s entries →
      QuietWrites env h serverKey expiration entries s' w := by
  induction entries with
  | nil => exact fun _ _ _ => trivial
  | cons e entries ih =>
    obtain ⟨k, value⟩ := e
    rintro s s' w hs ⟨hjudged, hrest⟩
    refine ⟨fun hfail => ?_, fun ok s₁ w₁ hx => ?_⟩
    · have hout : writeOut env s' (some value) = .refuse .payloadFailure :=
        (writeOut_refused_iff_judged env s' hfail.1 hfail.2).mpr ((hjudged hfail.1).thrown hs)
      have hunsent : Cmd.Ends _ _
          (sMemcWriteZval env .set serverKey (entryKey k) (some value) expiration) s' :=
        ends_sMemcWriteZval_unsent (by rw [hout]; exact nofun)
      refine ⟨?_, hunsent.log h w⟩
      have hend := hunsent.exec h w
      rw [hout] at hend
      cases hx : Cmd.exec h (sMemcWriteZval env .set serverKey (entryKey k) (some value)
          expiration) s' w with
      | mk o w' =>
        rw [hx] at hend
        cases o with
        | done ok s₁ =>
          obtain ⟨rfl, hcode⟩ := hend
          exact ⟨s₁, w', rfl, (WriteOut.refuse.inj hcode).symm⟩
        | stop e s₁ => cases hend.2
    · have hset : Cmd.Sat (KeysAre fun _ => True) _
          (sMemcWriteZval env .set serverKey (entryKey k) (some value) expiration) s' :=
        sat_sMemcWriteZval_set env fun _ _ _ => trivial
      exact ih w₁ (hs.next env (hset.exec hx).1) hrest

/-- the loop of `setMulti` over values that are judged right ends, and reports the last one refused -/
theorem run_setMultiLoop {σ : Type} (h : Handler Call Ans σ) {entries : HashTable} :
    ∀ {s s' : State} (w : σ), Thrown s false s' → EntriesJudged env s entries →
      ∃ s'' w', Cmd.exec h (setMultiLoop env serverKey expiration entries) s' w =
          (.done () s'', w') ∧
        (lastOut env s entries = some (.refuse .payloadFailure) → s''.rescode = .payloadFailure) := by
  induction entries with
  | nil => exact fun w _ _ => ⟨_, w, rfl, nofun⟩
  | cons e entries ih =>
    obtain ⟨k, value⟩ := e
    rintro s s' w hs ⟨hjudged, hrest⟩
    have hcrash : writeOut env s' (some value) ≠ .crash :=
      writeOut_ne_crash fun hv => (hjudged hv).thrown hs
    have htotal : Cmd.Total
        (sMemcWriteZval env .set serverKey (entryKey k) (some value) expiration) s' :=
      total_sMemcWriteZval hcrash
    obtain ⟨ok, s₁, w₁, hx⟩ := htotal.exec h w
    have hset : Cmd.Sat (KeysAre fun _ => True) _
        (sMemcWriteZval env .set serverKey (entryKey k) (some value) expiration) s' :=
      sat_sMemcWriteZval_set env fun _ _ _ => trivial
    obtain ⟨s₂, w₂, hloop, hlast⟩ := ih w₁ (hs.next env (hset.exec hx).1) hrest
    refine ⟨s₂, w₂, (Cmd.exec_bind_done hx).trans hloop, fun hout => ?_⟩
    cases entries with
    | cons e entries => exact hlast hout
    | nil =>
      cases hloop
      have hout : writeOut env s (some value) = .refuse .payloadFailure := Option.some.inj hout
      have hout' : writeOut env s' (some value) = .refuse .payloadFailure :=
        (writeOut_thrown env hs value).elim (fun h => h.trans hout) fun h => h.1
      have hunsent : Cmd.Ends _ _
          (sMemcWriteZval env .set serverKey (entryKey k) (some value) expiration) s' :=
        ends_sMemcWriteZval_unsent (by rw [hout']; exact nofun)
      have hend := hunsent.exec h w
      rw [hx, hout'] at hend
      exact (WriteOut.refuse.inj hend.2).symm

/-! ## `setMulti` against a libmemcached that stores everything, again -/

/-- the code a write leaves there -/
def WriteOut.code : WriteOut → Status
  | .send _ _ => .success
  | .refuse status => status
  | .crash => .success

theorem exec_set_storesAll (serverKey : Option Bytes) (key : Bytes) (expiration : Int64)
    (hout : writeOut env s (some value) ≠ .crash) (w : Nat × Unit) :
    ∃ ok s' w', Cmd.exec storesAll (sMemcWriteZval env .set serverKey key (some value) expiration)
        s w = (.done ok s', w') ∧
      s'.memc = s.memc ∧ s'.exception = (s.exception || serializerThrows env s value) ∧
      s'.rescode = (writeOut env s (some value)).code := by
  obtain ⟨ok, s', w', hx, hmemc, hexc⟩ :=
    exec_sMemcWriteZval_storesAll env serverKey key expiration hout w
  refine ⟨ok, s', w', hx, hmemc, hexc, ?_⟩
  by_cases hsend : ∀ p f, writeOut env s (some value) ≠ .send p f
  · have hunsent : Cmd.Ends _ _ (sMemcWriteZval env .set serverKey key (some value) expiration) s :=
      ends_sMemcWriteZval_unsent hsend
    have hend := hunsent.exec storesAll w
    rw [hx] at hend
    rw [hend.2]
    rfl
  · simp only [not_forall, Classical.not_not] at hsend
    obtain ⟨p, f, hsend⟩ := hsend
    obtain ⟨payload, rfl⟩ := isSome_of_writeOut_send env hsend
    obtain ⟨s₁, -, hattempts⟩ := exec_sMemcWriteZval_sent env hsend .set serverKey key expiration
      storesAll w
    rw [Cmd.exec_bind_done (exec_writeAttempts_storesAll env serverKey key payload expiration f _ s₁ w)]
      at hattempts
    cases hx.symm.trans hattempts
    rw [hsend]
    rfl

theorem WriteOut.eq_of_code {o : WriteOut} (h : o.code = .payloadFailure) :
    o = .refuse .payloadFailure := by
  cases o with
  | send p f => cases h
  | refuse st => exact congrArg WriteOut.refuse h
  | crash => cases h

theorem Judged.congr {s' : State} (hmemc : s'.memc = s.memc) (hexc : s'.exception = s.exception) :
    Judged env s' value ↔ Judged env s value := by
  unfold Judged
  rw [hmemc, hexc]

/-- what is kept quiet there was judged right -/
theorem judged_of_quietWrites {entries : HashTable} : ∀ {s s' : State} (w : Nat × Unit),
    s'.memc = s.memc → s'.exception = s.exception →
    QuietWrites env storesAll serverKey expiration entries s' w → EntriesJudged env s entries := by
  induction entries with
  | nil => exact fun _ _ _ _ => trivial
  | cons e entries ih =>
    obtain ⟨k, value⟩ := e
    rintro s s' w hmemc hexc ⟨hrefused, hrest⟩
    have hjudged : value.IsSerialized → Judged env s value := by
      intro hv
      by_cases hserializes : Serializes env s value
      · exact SerOut.Succeeds.judged hserializes _
      · have hfail : Fails env s' value := ⟨hv, fun h => hserializes ((Serializes.congr hmemc).mp h)⟩
        obtain ⟨⟨s₁, w₁, hx, hcode⟩, -⟩ := hrefused hfail
        rw [← Judged.congr hmemc hexc, ← writeOut_refused_iff_judged env s' hv hfail.2]
        by_cases hcrash : writeOut env s' (some value) = .crash
        · have hunsent : Cmd.Ends _ _
              (sMemcWriteZval env .set serverKey (entryKey k) (some value) expiration) s' :=
            ends_sMemcWriteZval_unsent (by rw [hcrash]; exact nofun)
          have hend := hunsent.exec storesAll w
          rw [hx, hcrash] at hend
          cases hend.2
        · obtain ⟨ok, s₂, w₂, hx₂, -, -, hcode₂⟩ :=
            exec_set_storesAll serverKey (entryKey k) expiration hcrash w
          cases hx.symm.trans hx₂
          exact WriteOut.eq_of_code (hcode₂.symm.trans hcode)
    refine ⟨hjudged, ?_⟩
    have hcrash : writeOut env s' (some value) ≠ .crash :=
      writeOut_ne_crash fun hv => (Judged.congr hmemc hexc).mpr (hjudged hv)
    obtain ⟨ok, s₁, w₁, hx, hmemc₁, hexc₁, -⟩ :=
      exec_set_storesAll serverKey (entryKey k) expiration hcrash w
    refine ih w₁ (hmemc₁.trans hmemc) ?_ (hrest ok s₁ w₁ hx)
    rw [hexc₁, hexc, serializerThrows_congr env hmemc]

/-- the code that is left there is that of the last value -/
theorem code_setMultiLoop {entries : HashTable} : ∀ {s s' s'' : State} {w w' : Nat × Unit},
    s'.memc = s.memc → s'.exception = s.exception → EntriesJudged env s entries →
    Cmd.exec storesAll (setMultiLoop env serverKey expiration entries) s' w = (.done () s'', w') →
    s''.rescode = ((lastOut env s entries).map WriteOut.code).getD s'.rescode := by
  induction entries with
  | nil =>
    intro s s' s'' w w' _ _ _ hx
    cases hx
    rfl
  | cons e entries ih =>
    obtain ⟨k, value⟩ := e
    rintro s s' s'' w w' hmemc hexc ⟨hjudged, hrest⟩ hx
    have hcrash : writeOut env s' (some value) ≠ .crash :=
      writeOut_ne_crash fun hv => (Judged.congr hmemc hexc).mpr (hjudged hv)
    obtain ⟨ok, s₁, w₁, hx₁, hmemc₁, hexc₁, hcode⟩ :=
      exec_set_storesAll serverKey (entryKey k) expiration hcrash w
    have hloop : Cmd.exec storesAll (setMultiLoop env serverKey expiration entries) s₁ w₁ =
        (.done () s'', w') := (Cmd.exec_bind_done hx₁).symm.trans hx
    cases entries with
    | nil =>
      cases hloop
      rw [hcode, writeOut_congr env hmemc hexc]
      rfl
    | cons e entries =>
      have hlast := ih (s := { s with exception := s.exception || serializerThrows env s value })
        (hmemc₁.trans hmemc)
        (by rw [hexc₁, hexc, serializerThrows_congr env hmemc]) hrest hloop
      obtain ⟨o, ho⟩ := lastOut_cons env
        { s with exception := s.exception || serializerThrows env s value } e entries
      change _ = ((lastOut env { s with exception := s.exception || serializerThrows env s value }
        (e :: entries)).map WriteOut.code).getD s'.rescode
      rw [hlast, ho]
      rfl

/-- **When `setMulti` never stores a failed serialization and reports it.** -/
theorem setMultiNeverStores_iff (serverKey : Option Bytes) (entries : HashTable)
    (expiration : Int64) : SetMultiNeverStores env s serverKey entries expiration ↔
      EntriesJudged env s entries ∧ ((∃ e ∈ entries, Fails env s e.2) →
        lastOut env s entries = some (.refuse .payloadFailure)) := by
  let s₀ : State := { s with rescode := .success, memcErrno := 0 }
  have hmemc : s₀.memc = s.memc := rfl
  have hexc : s₀.exception = s.exception := rfl
  constructor
  · intro hnever
    obtain ⟨hquiet, hreport⟩ := hnever storesAll (0, ())
    have hjudged : EntriesJudged env s entries :=
      judged_of_quietWrites (0, ()) hmemc hexc hquiet
    refine ⟨hjudged, fun hfail => ?_⟩
    obtain ⟨s', w', hx, hcode⟩ := hreport hfail
    unfold phpMemcSetMultiImpl sMemcSetStatus at hx
    rw [Cmd.exec_modify_bind] at hx
    obtain ⟨_, s₁, w₁, hloop, hend⟩ := Cmd.exec_bind_inv hx
    have hlast : s₁.rescode = ((lastOut env s entries).map WriteOut.code).getD .success :=
      code_setMultiLoop hmemc hexc hjudged hloop
    cases entries with
    | nil =>
      obtain ⟨e, he, -⟩ := hfail
      cases he
    | cons e entries =>
      obtain ⟨o, ho⟩ := lastOut_cons env s e entries
      have hs₁ : s₁ = s' := (Outcome.done.inj (Prod.mk.inj hend).1).2
      rw [ho, hs₁, hcode] at hlast
      rw [ho, WriteOut.eq_of_code hlast.symm]
  · rintro ⟨hjudged, hlast⟩ σ h w
    have hs₀ : Thrown s false s₀ := ⟨rfl, fun hexc => by simpa using hexc⟩
    refine ⟨quietWrites_of_judged h w hs₀ hjudged, fun hfail => ?_⟩
    obtain ⟨s', w', hx, hcode⟩ := run_setMultiLoop h w hs₀ hjudged
    have hcode := hcode (hlast hfail)
    refine ⟨s', w', ?_, hcode⟩
    unfold phpMemcSetMultiImpl sMemcSetStatus
    rw [Cmd.exec_modify_bind, Cmd.exec_bind_done hx]
    show (Outcome.done (Zval.bool !sMemcachedReturnIsError s'.rescode true) s', w') = _
    rw [hcode]
    rfl

end

/-- the outcomes of serializers are judged as what they are, and so a failed serialization is never
stored -/
structure FailedNeverStored (env : Env) (s : State) : Prop where
  /-- `s_serialize_value`, and `set`, `add`, `replace` and `cas` with any value -/
  value : ∀ (value : Zval) (flags : Flags), value.IsSerialized →
    ((SerializeSound env s value flags ∧ (¬ Serializes env s value →
        ∀ call : ValueWrite, call.Admitted s → NothingSent (call.run env value) s)) ↔
      Judged env s value)
  /-- each of these calls by itself -/
  call : ∀ (value : Zval) (call : ValueWrite), value.IsSerialized → ¬ Serializes env s value →
    call.Admitted s → (NothingSent (call.run env value) s ↔ Judged env s value)
  /-- `setMulti` with any array -/
  setMulti : ∀ (serverKey : Option Bytes) (entries : HashTable) (expiration : Int64),
    SetMultiNeverStores env s serverKey entries expiration ↔
      EntriesJudged env s entries ∧ ((∃ e ∈ entries, Fails env s e.2) →
        lastOut env s entries = some (.refuse .payloadFailure))

/-- **When a failed serialization is never stored.** -/
theorem failedNeverStored (env : Env) (s : State) : FailedNeverStored env s where
  value value flags hv := by
    rw [serializeSound_iff]
    exact ⟨fun h => h.1, fun h => ⟨h, fun hfail call hcall =>
      (nothingSent_iff hv hfail hcall).mpr h⟩⟩
  call _ _ hv hfail hcall := nothingSent_iff hv hfail hcall
  setMulti := setMultiNeverStores_iff

/-- a client that encodes in JSON -/
def jsonObject : State := newObject { iniDefaults with serializerType := .json } 1

/-- a JSON encoder that fails, with the start of its output in the buffer -/
def failingJsonEnv : Env :=
  { plainEnv with
    build := { plainEnv.build with haveJson := true }
    phpJsonEncode := fun _ => ⟨false, some (ascii ['[']), false⟩ }

/-- **`set` stores what a failed JSON encoding has left.** -/
theorem set_stores_failed_json :
    ¬ Serializes failingJsonEnv jsonObject (.arr []) ∧
      ¬ NothingSent ((ValueWrite.set none (ascii ['k']) 0).run failingJsonEnv (.arr []))
        jsonObject := by
  have hfail : ¬ Serializes failingJsonEnv jsonObject (.arr []) := fun h => Bool.false_ne_true h.1
  refine ⟨hfail, fun hnone => ?_⟩
  have hv : (Zval.arr []).IsSerialized := trivial
  have hcall : (ValueWrite.set none (ascii ['k']) 0).Admitted jsonObject := rfl
  have hjudged : Judged failingJsonEnv jsonObject (.arr []) :=
    (nothingSent_iff hv hfail hcall).mp hnone
  rcases hjudged with ⟨hok, -⟩ | ⟨hexc, -⟩
  · exact Bool.false_ne_true hok
  · exact Bool.false_ne_true hexc

end PhpMemcached
