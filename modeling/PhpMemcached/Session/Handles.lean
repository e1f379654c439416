import PhpMemcached.Session.Server

/-!
# What `PS_OPEN` does to the handles

* `checked`, `applied`     the settings after `check_set_behavior`, and after several;
* `Ini.wanted`             the behaviours INI values ask for, SASL included;
* `Configures`             what `s_configure_from_ini_values` makes of a handle;
* `Opens`                  the outcomes of `PS_OPEN` (`sat_psOpen`).

Nothing here makes a request about an item: see `Off`.
-/

namespace PhpMemcached.Session
open Ascii Requests

section
variable {L : Library}

/-- the settings after `check_set_behavior` -/
def checked (s : L.Settings) (x : Behavior × UInt64) : L.Settings :=
  if x.2 ≠ L.get s x.1 then L.set x.1 x.2 s else s

def applied (s : L.Settings) (l : List (Behavior × UInt64)) : L.Settings := l.foldl checked s

end

/-- the behaviours the INI values ask for, those for SASL included -/
def Ini.wanted (ini : Ini) : List (Behavior × UInt64) :=
  ini.behaviors ++ if ini.sasl then [(.binaryProtocol, 1)] else []

section
variable (L : Library)

/-- the namespace of a handle that is configured -/
def namespaceAfter (ini : Ini) (old : Option Bytes) : Option Bytes :=
  if ini.sessPrefix ≠ [] ∧ L.takesNamespace ini.sessPrefix = true then some ini.sessPrefix else old

end

/-- the requests that are not about items -/
def Off (c : Call) : Prop := c.isItem = false

section
variable {L : Library} {α β : Type} {h : Nat} {memc memc' : Memc L} {p p' : Proc L} {silent : Bool}

@[simp] theorem store_memory_self (p : Proc L) (h : Nat) (m : Option (Memc L)) :
    (p.store h m).memory h = m := Function.update_self _ _ _
theorem store_memory_of_ne (p : Proc L) {h h' : Nat} (m : Option (Memc L)) (hne : h' ≠ h) :
    (p.store h m).memory h' = p.memory h' := Function.update_of_ne hne _ _
@[simp] theorem store_ini (p : Proc L) (h : Nat) (m : Option (Memc L)) :
    (p.store h m).ini = p.ini := rfl

@[simp] theorem store_store (p : Proc L) (h : Nat) (m m' : Option (Memc L)) :
    (p.store h m).store h m' = p.store h m' := by
  unfold Proc.store
  rw [Function.update_idem]

theorem store_eq_self (hm : p.memory h = some memc) : p.store h (some memc) = p := by
  unfold Proc.store
  rw [← hm, Function.update_eq_self]

/-! ## looking things up -/

theorem deref_of_some (hm : p.memory h = some memc) : deref h p = .ret (.done memc p) := by
  unfold deref
  rw [Cmd.get_bind_apply]
  simp only [hm]
  rfl

theorem deref_of_none (hm : p.memory h = none) : deref h p = .ret (.stop .useAfterFree p) := by
  unfold deref
  rw [Cmd.get_bind_apply]
  simp only [hm]
  rfl

theorem deref_bind_of_some (hm : p.memory h = some memc) (f : Memc L → SessM L β) :
    (deref h >>= f) p = f memc p := by
  rw [Cmd.bind_apply, deref_of_some hm]
  rfl

theorem deref_bind_of_none (hm : p.memory h = none) (f : Memc L → SessM L β) :
    (deref h >>= f) p = .ret (.stop .useAfterFree p) := by
  rw [Cmd.bind_apply, deref_of_none hm]
  rfl

theorem withModData_of_some (hm : p.modData = some h) (next : Nat → SessM L Ret) :
    withModData next p = next h p := by
  unfold withModData
  rw [Cmd.get_bind_apply]
  simp only [hm]

theorem withModData_of_none (hm : p.modData = none) (next : Nat → SessM L Ret) :
    withModData next p = (warn "Session is not allocated, check session.save_path value" .nothing >>=
      fun _ => pure .failure : SessM L Ret) p := by
  unfold withModData
  rw [Cmd.get_bind_apply]
  simp only [hm]

theorem psCreateSid_of_some (hm : p.modData = some h) : psCreateSid p = createSidLoop 3 p := by
  unfold psCreateSid
  rw [Cmd.get_bind_apply]
  simp only [hm]

theorem psCreateSid_of_none (hm : p.modData = none) :
    psCreateSid p = (ask .createId >>= fun sid => pure (.sid (some sid)) : SessM L Ret) p := by
  unfold psCreateSid
  rw [Cmd.get_bind_apply]
  simp only [hm]

theorem sat_deref_bind {φ : Call → Prop} {R : β → Proc L → Prop} (f : Memc L → SessM L β) :
    Cmd.Sat φ R (deref h >>= f) p ↔
      ∀ memc, p.memory h = some memc → Cmd.Sat φ R (f memc) p := by
  cases hm : p.memory h with
  | some memc =>
    have hiff : Cmd.Sat φ R (deref h >>= f) p ↔ Cmd.Sat φ R (f memc) p :=
      Iff.of_eq (congrArg (Prog.Sat φ _) (deref_bind_of_some hm f))
    rw [hiff]
    exact ⟨fun hs m' hm' => Option.some.inj hm' ▸ hs, fun hs => hs memc rfl⟩
  | none =>
    have hiff : Cmd.Sat φ R (deref h >>= f) p ↔ True :=
      Iff.of_eq (congrArg (Prog.Sat φ _) (deref_bind_of_none hm f))
    rw [hiff]
    exact ⟨fun _ m' hm' => (nomatch hm'), fun _ => trivial⟩

theorem sat_warn {Q : Unit → Proc L → Prop} (hQ : Q () p) (text : String) (detail : Detail) :
    Cmd.Sat Off Q (warn text detail) p := by
  have hreq : Cmd.Sat Off Q (ask (L := L) (.warning text detail)) p := ⟨rfl, fun _ => hQ⟩
  exact hreq

/-! ## configuration -/

theorem sat_checkSetBehavior (hm : p.memory h = some memc) (flag : Behavior) (data : UInt64) :
    Cmd.Sat Off (fun ok p' => if ok then
        p' = p.store h (some { memc with settings := checked memc.settings (flag, data) })
      else p' = p) (checkSetBehavior h silent flag data) p := by
  unfold checkSetBehavior
  refine (sat_deref_bind _).mpr fun memc' hm' => ?_
  obtain rfl : memc = memc' := Option.some.inj (hm.symm.trans hm')
  by_cases hd : data ≠ L.get memc.settings flag
  · rw [if_pos hd]
    have hchecked : checked memc.settings (flag, data) = L.set flag data memc.settings := if_pos hd
    refine ⟨rfl, fun rc => ?_⟩
    by_cases hrc : (rc : Status) = .success
    · show Cmd.Sat _ _ (if (rc : Status) = .success then _ else _) p
      rw [if_pos hrc, hchecked]
      exact rfl
    · show Cmd.Sat _ _ (if (rc : Status) = .success then _ else _) p
      rw [if_neg hrc]
      exact Cmd.Sat.bind (Q := fun _ p' => p' = p)
        (Cmd.Sat.when (fun _ => sat_warn rfl _ _) fun _ => rfl)
        fun _ p' hp' => hp'
  · rw [if_neg hd]
    have hchecked : checked memc.settings (flag, data) = memc.settings := if_neg hd
    rw [hchecked]
    exact (store_eq_self hm).symm

/-- the settings after all of them, or somewhere on the way -/
theorem sat_checkSetBehaviors (l : List (Behavior × UInt64)) (hm : p.memory h = some memc) :
    Cmd.Sat Off (fun ok p' => if ok then
        p' = p.store h (some { memc with settings := applied memc.settings l })
      else ∃ settings, p' = p.store h (some { memc with settings := settings }))
      (checkSetBehaviors h silent l) p := by
  induction l generalizing p memc with
  | nil => exact (store_eq_self hm).symm
  | cons x l ih =>
    obtain ⟨flag, data⟩ := x
    refine Cmd.Sat.bind (sat_checkSetBehavior hm flag data) fun ok p₁ hp₁ => ?_
    cases ok with
    | false =>
      obtain rfl : p₁ = p := hp₁
      exact ⟨memc.settings, (store_eq_self hm).symm⟩
    | true =>
      obtain rfl : p₁ = _ := hp₁
      refine (ih (store_memory_self p h _)).mono (fun _ hc => hc) fun ok p₂ hp₂ => ?_
      cases ok with
      | false =>
        obtain ⟨settings, rfl⟩ := hp₂
        exact ⟨settings, store_store p h _ _⟩
      | true =>
        obtain rfl : p₂ = _ := hp₂
        exact store_store p h _ _

/-- the namespace of a handle, and nothing else -/
theorem sat_setNamespace (hm : p.memory h = some memc) (ini : Ini) :
    Cmd.Sat Off (fun _ p' => p' = p.store h
        (some { memc with itemNamespace := namespaceAfter L ini memc.itemNamespace }))
      (Cmd.when (ini.sessPrefix ≠ []) (setNamespace h ini.sessPrefix)) p := by
  by_cases hne : ini.sessPrefix = []
  · have hafter : namespaceAfter L ini memc.itemNamespace = memc.itemNamespace :=
      if_neg fun hc => hc.1 hne
    rw [hafter]
    refine Cmd.Sat.when (fun hc => absurd hne (of_decide_eq_true hc)) fun _ => ?_
    exact (store_eq_self hm).symm
  · refine Cmd.Sat.when (fun _ => ?_) fun hc => absurd (decide_eq_true hne) (by rw [hc]; decide)
    refine (sat_deref_bind _).mpr fun memc' hm' => ?_
    obtain rfl : memc = memc' := Option.some.inj (hm.symm.trans hm')
    cases ht : L.takesNamespace ini.sessPrefix with
    | true =>
      have hafter : namespaceAfter L ini memc.itemNamespace = some ini.sessPrefix :=
        if_pos ⟨hne, ht⟩
      rw [hafter]
      exact rfl
    | false =>
      have hafter : namespaceAfter L ini memc.itemNamespace = memc.itemNamespace :=
        if_neg fun hc => absurd hc.2 (by rw [ht]; decide)
      rw [hafter]
      exact (store_eq_self hm).symm

end

/-- `memc'` is `memc` configured: its settings and its namespace are those the INI values give, the
rest of its user data is that of `memc` -/
structure Configures {L : Library} (ini : Ini) (memc memc' : Memc L) : Prop where
  settings : memc'.settings = applied memc.settings ini.wanted
  itemNamespace : memc'.itemNamespace = namespaceAfter L ini memc.itemNamespace
  isPersistent : memc'.userData.isPersistent = memc.userData.isPersistent
  isLocked : memc'.userData.isLocked = memc.userData.isLocked
  lockKey : memc'.userData.lockKey = memc.userData.lockKey

section
variable {L : Library} {h : Nat} {memc : Memc L} {p : Proc L} {silent : Bool}

/-- SASL is one more behaviour, and a flag -/
theorem sat_configureSasl (hm : p.memory h = some memc) (ini : Ini) :
    Cmd.Sat Off (fun ok p' => if ok then p' = p.store h (some { memc with
          settings := applied memc.settings [(.binaryProtocol, 1)]
          userData := { memc.userData with hasSaslData := true } })
      else ∃ memc', p' = p.store h (some memc')) (configureSasl h silent ini) p := by
  have hleft : ∃ memc', p = p.store h (some memc') := ⟨memc, (store_eq_self hm).symm⟩
  refine ⟨rfl, fun ready => ?_⟩
  cases (ready : Bool) with
  | false => exact hleft
  | true =>
    refine Cmd.Sat.bind (sat_checkSetBehaviors _ hm) fun ok p₁ hp₁ => ?_
    cases ok with
    | false =>
      obtain ⟨settings, rfl⟩ := hp₁
      exact ⟨_, rfl⟩
    | true =>
      obtain rfl : p₁ = _ := hp₁
      refine ⟨rfl, fun rc => ?_⟩
      by_cases hrc : (rc : Status) = .failure
      · show Cmd.Sat _ _ (if (rc : Status) = .failure then _ else _) _
        rw [if_pos hrc]
        exact Cmd.Sat.bind (sat_warn (Q := fun _ p' => ∃ memc', p' = p.store h (some memc'))
          ⟨_, rfl⟩ _ _) fun _ p' hp' => hp'
      · show Cmd.Sat _ _ (if (rc : Status) = .failure then _ else _) _
        rw [if_neg hrc]
        refine (sat_deref_bind _).mpr fun memc' hm' => ?_
        rw [store_memory_self] at hm'
        obtain rfl := Option.some.inj hm'
        exact store_store p h _ _

/-- **`s_configure_from_ini_values`**: a handle that takes the INI values is configured, and nothing
but the handle is touched -/
theorem sat_sConfigureFromIniValues (hm : p.memory h = some memc) :
    Cmd.Sat Off (fun ok p' => ∃ memc', p' = p.store h (some memc') ∧
      (ok = true → Configures p.ini memc memc')) (sConfigureFromIniValues h silent) p := by
  show Cmd.Sat Off _ (checkSetBehaviors h silent p.ini.behaviors >>= _) p
  refine Cmd.Sat.bind (sat_checkSetBehaviors p.ini.behaviors hm) fun ok p₁ hp₁ => ?_
  cases ok with
  | false =>
    obtain ⟨settings, rfl⟩ := hp₁
    exact ⟨_, rfl, nofun⟩
  | true =>
    obtain rfl : p₁ = _ := hp₁
    refine Cmd.Sat.bind (sat_setNamespace (store_memory_self p h _) p.ini) fun _ p₂ hp₂ => ?_
    rw [store_store] at hp₂
    subst hp₂
    cases hsasl : p.ini.sasl with
    | false =>
      refine ⟨_, rfl, fun _ => ?_⟩
      have hwanted : p.ini.wanted = p.ini.behaviors := by
        unfold Ini.wanted
        rw [hsasl]
        exact List.append_nil _
      exact ⟨by rw [hwanted], rfl, rfl, rfl, rfl⟩
    | true =>
      refine (sat_configureSasl (store_memory_self p h _) p.ini).mono (fun _ hc => hc)
        fun ok p₃ hp₃ => ?_
      cases ok with
      | false =>
        obtain ⟨memc', rfl⟩ := hp₃
        exact ⟨memc', store_store p h _ _, nofun⟩
      | true =>
        obtain rfl : p₃ = _ := hp₃
        refine ⟨_, store_store p h _ _, fun _ => ?_⟩
        have hwanted : p.ini.wanted = p.ini.behaviors ++ [(.binaryProtocol, 1)] := by
          unfold Ini.wanted
          rw [hsasl]
          rfl
        refine ⟨?_, rfl, rfl, rfl, rfl⟩
        rw [hwanted]
        exact List.foldl_append.symm

end

/-! ## `PS_OPEN` -/

/-- `plist_key` -/
def plistKeyOf (savePath : Bytes) : Bytes :=
  ascii "memc-session:".toList ++ savePath.takeWhile (· ≠ 0)

section
variable {L : Library} {h : Nat} {memc : Memc L} {p p₁ : Proc L} {persistent : Bool}
  {key savePath : Bytes}

/-- a handle `memc` more -/
def Proc.create (p : Proc L) (memc : Option (Memc L)) : Proc L :=
  { p.store p.made memc with made := p.made + 1 }

/-- the entry `key` of the handle `h` is gone, and the handle with it -/
def Proc.dropEntry (p : Proc L) (key : Bytes) (h : Nat) : Proc L :=
  (p.withEntry key none).store h none

/-- the outcomes of `PS_OPEN` from the creation of a handle on -/
inductive OpensNew (persistent : Bool) (key : Bytes) (p : Proc L) : Ret → Proc L → Prop
  | opened {verifyKey memc} : Configures p.ini (newMemc persistent verifyKey) memc →
      OpensNew persistent key p .success
        { (if persistent then (p.create (some memc)).withEntry key (some (.memc p.made))
            else p.create (some memc)) with modData := some p.made }
  | failed : OpensNew persistent key p .failure { p.create none with modData := none }

/-- the outcomes of `PS_OPEN`: the save path is refused; a handle of the persistent list is used
again; a handle is made, after one that did not take the INI values was removed -/
inductive Opens (savePath : Bytes) (p : Proc L) : Ret → Proc L → Prop
  | refused : Opens savePath p .failure { p with modData := none }
  | reused {h memc memc'} : p.ini.persistentEnabled = true →
      p.persistentList (plistKeyOf savePath) = some (.memc h) → p.memory h = some memc →
      Configures p.ini memc memc' →
      Opens savePath p .success { p.store h (some memc') with modData := some h }
  | new {p₁ ret p'} : (p₁ = p ∨ ∃ h, p.ini.persistentEnabled = true ∧
        p.persistentList (plistKeyOf savePath) = some (.memc h) ∧
        p₁ = p.dropEntry (plistKeyOf savePath) h) →
      OpensNew p.ini.persistentEnabled (plistKeyOf savePath) p₁ ret p' → Opens savePath p ret p'

theorem sat_sDestroyModData :
    Cmd.Sat Off (fun _ p' => p' = p.store h none) (sDestroyModData h) p :=
  (sat_deref_bind _).mpr fun _ _ => rfl

theorem sat_sInitModData : Cmd.Sat Off (fun h p' => h = p.made ∧ ∃ verifyKey,
    p' = p.create (some (newMemc persistent verifyKey))) (sInitModData persistent) p := by
  refine ⟨rfl, fun created => ?_⟩
  cases (created : Bool) with
  | false => trivial
  | true => exact ⟨rfl, fun rc => ⟨rfl, decide ((rc : Status) = .success), rfl⟩⟩

/-- an entry that is not a handle is replaced -/
theorem sat_register (hkey : ∀ h', p.persistentList key ≠ some (.memc h')) :
    Cmd.Sat Off (fun _ p' => p' = p.withEntry key (some (.memc h))) (register key h) p := by
  show Cmd.Sat Off _ (sessDtor (p.persistentList key) >>= _) p
  unfold sessDtor
  cases he : p.persistentList key with
  | none => exact rfl
  | some old =>
    cases old with
    | memc h' => exact absurd he (hkey h')
    | other => exact rfl

theorem sat_openNew (hkey : persistent = true → ∀ h', p.persistentList key ≠ some (.memc h')) :
    Cmd.Sat Off (fun ret p' => OpensNew persistent key p ret p') (openNew persistent key) p := by
  refine Cmd.Sat.bind sat_sInitModData fun h p₁ hp₁ => ?_
  obtain ⟨rfl, verifyKey, rfl⟩ := hp₁
  have hm : (p.create (some (newMemc persistent verifyKey))).memory p.made =
      some (newMemc persistent verifyKey) := store_memory_self p _ _
  refine Cmd.Sat.bind (sat_sConfigureFromIniValues hm) fun ok p₂ hp₂ => ?_
  obtain ⟨memc', rfl, hconf⟩ := hp₂
  have hstore : ∀ m, (p.create (some (newMemc persistent verifyKey))).store p.made m = p.create m :=
    fun m => by
      unfold Proc.create Proc.store
      rw [Function.update_idem]
  rw [hstore]
  cases ok with
  | false =>
    refine Cmd.Sat.bind sat_sDestroyModData fun _ p₃ hp₃ => ?_
    have hgone : p₃ = p.create none := by
      rw [hp₃]
      unfold Proc.create Proc.store
      rw [Function.update_idem]
    subst hgone
    exact .failed
  | true =>
    cases persistent with
    | false => exact OpensNew.opened (hconf rfl)
    | true =>
      refine Cmd.Sat.bind (sat_register (hkey rfl)) fun _ p₃ hp₃ => ?_
      subst hp₃
      exact OpensNew.opened (hconf rfl)

/-- the lookup in the persistent list: a handle that is configured, or none, and then no handle is
listed -/
theorem sat_reuse (hlive : ∀ h, p.persistentList key = some (.memc h) → ∃ m, p.memory h = some m) :
    Cmd.Sat Off (fun reused p' => match reused with
      | some h => ∃ memc memc', p.persistentList key = some (.memc h) ∧ p.memory h = some memc ∧
          Configures p.ini memc memc' ∧ p' = p.store h (some memc')
      | none => (∀ h', p'.persistentList key ≠ some (.memc h')) ∧
          (p' = p ∨ ∃ h, p.persistentList key = some (.memc h) ∧ p' = p.dropEntry key h))
      (reuse key) p := by
  unfold reuse Cmd.Sat Cmd.Ends
  rw [Cmd.get_bind_apply]
  cases he : p.persistentList key with
  | none =>
    refine ⟨fun h' hh => ?_, .inl rfl⟩
    rw [he] at hh
    cases hh
  | some entry =>
    cases entry with
    | other =>
      refine ⟨fun h' hh => ?_, .inl rfl⟩
      rw [he] at hh
      cases hh
    | memc h =>
      obtain ⟨memc, hm⟩ := hlive h he
      refine Cmd.Sat.bind (sat_sConfigureFromIniValues hm) fun ok p₁ hp₁ => ?_
      obtain ⟨memc', rfl, hconf⟩ := hp₁
      cases ok with
      | true => exact ⟨memc, memc', rfl, hm, hconf rfl, rfl⟩
      | false =>
        let p₁ : Proc L := (p.store h (some memc')).withEntry key none
        show Cmd.Sat Off _ (sDestroyModData h >>= _) p₁
        refine Cmd.Sat.bind sat_sDestroyModData fun _ p₂ hp₂ => ?_
        subst hp₂
        refine ⟨fun h' hh => ?_, .inr ⟨h, rfl, ?_⟩⟩
        · have hnone : Function.update p.persistentList key none key = some (.memc h') := hh
          rw [Function.update_self] at hnone
          cases hnone
        · show Proc.store p₁ h none = _
          unfold p₁ Proc.dropEntry Proc.withEntry Proc.store
          rw [Function.update_idem]

/-- **`PS_OPEN`**, when the handles that are listed are not freed -/
theorem sat_psOpen (hlive : ∀ key h, p.persistentList key = some (.memc h) →
    ∃ m, p.memory h = some m) :
    Cmd.Sat Off (fun ret p' => Opens savePath p ret p') (psOpen savePath) p := by
  unfold psOpen
  dsimp only
  by_cases hold : ascii "PERSISTENT=".toList <:+: savePath.takeWhile (· ≠ 0)
  · rw [if_pos hold]
    refine Cmd.Sat.bind (sat_warn (Q := fun _ p' => p' = p) rfl _ _) fun _ p₁ hp₁ => ?_
    subst hp₁
    exact .refused
  · rw [if_neg hold]
    refine ⟨rfl, fun servers => ?_⟩
    cases (servers : Bool) with
    | false =>
      refine Cmd.Sat.bind (sat_warn (Q := fun _ p' => p' = p) rfl _ _) fun _ p₁ hp₁ => ?_
      subst hp₁
      exact .refused
    | true =>
      show Cmd.Sat Off _ (if p.ini.persistentEnabled = true then
        reuse (plistKeyOf savePath) >>= _ else pure none >>= _) p
      by_cases hper : p.ini.persistentEnabled = true
      · rw [if_pos hper]
        refine Cmd.Sat.bind (sat_reuse (hlive _)) fun reused p₁ hp₁ => ?_
        cases reused with
        | some h =>
          obtain ⟨memc, memc', he, hm, hconf, rfl⟩ := hp₁
          exact .reused hper he hm hconf
        | none =>
          obtain ⟨hkey, hp₁⟩ := hp₁
          refine (sat_openNew fun _ => hkey).mono (fun _ hc => hc) fun ret p' ho => ?_
          have hfrom : p₁ = p ∨ ∃ h, p.ini.persistentEnabled = true ∧
              p.persistentList (plistKeyOf savePath) = some (.memc h) ∧
              p₁ = p.dropEntry (plistKeyOf savePath) h :=
            hp₁.imp_right fun ⟨h, he, hp₁⟩ => ⟨h, hper, he, hp₁⟩
          exact .new hfrom (hper ▸ ho)
      · rw [if_neg hper]
        have hopen : Cmd.Sat Off (fun ret p' => Opens savePath p ret p')
            (openNew p.ini.persistentEnabled (plistKeyOf savePath)) p :=
          (sat_openNew fun hc => absurd hc hper).mono (fun _ hc => hc) fun _ _ ho =>
            .new (.inl rfl) ho
        exact hopen

end

/-! ## the other callbacks -/

section
variable {L : Library} {h : Nat} {memc : Memc L} {p p' p'' : Proc L}

/-- the handle `h` may have been locked or unlocked -/
def Relocks (h : Nat) (p p' : Proc L) : Prop :=
  p' = p ∨ ∃ memc isLocked lockKey, p.memory h = some memc ∧
    p' = p.store h (some (memc.withUserData
      { memc.userData with isLocked := isLocked, lockKey := lockKey }))

theorem Relocks.trans (h₁ : Relocks h p p') (h₂ : Relocks h p' p'') : Relocks h p p'' := by
  rcases h₁ with rfl | ⟨memc, isLocked, lockKey, hm, rfl⟩
  · exact h₂
  · rcases h₂ with rfl | ⟨memc', isLocked', lockKey', hm', rfl⟩
    · exact .inr ⟨memc, isLocked, lockKey, hm, rfl⟩
    · rw [store_memory_self] at hm'
      obtain rfl := Option.some.inj hm'
      exact .inr ⟨memc, isLocked', lockKey', hm, store_store p h _ _⟩

/-- any request -/
abbrev Any : Call → Prop := fun _ => True

theorem sat_any {α : Type} {m : SessM L α} {φ : Call → Prop} {Q : α → Proc L → Prop}
    (hm : Cmd.Sat φ Q m p) : Cmd.Sat Any Q m p := hm.mono (fun _ _ => trivial) fun _ _ h => h

theorem sat_lockAttempt (lockKey : Bytes) (expiration : Int64) (more : Bool) (waitTime : Int64) :
    Cmd.Sat Any (fun _ p' => Relocks h p p')
      (lockAttempt h lockKey expiration more waitTime) p := by
  refine ⟨trivial, fun rc => ?_⟩
  show Cmd.Sat Any _ (lockOutcome h lockKey more waitTime rc) p
  unfold lockOutcome
  split
  · exact (sat_deref_bind _).mpr fun memc hm => .inr ⟨memc, true, lockKey, hm, rfl⟩
  · cases more with
    | false => exact .inl rfl
    | true => exact ⟨trivial, fun _ => .inl rfl⟩
  · cases more with
    | false => exact .inl rfl
    | true => exact ⟨trivial, fun _ => .inl rfl⟩
  · exact ⟨trivial, fun _ => .inl rfl⟩

theorem sat_lockLoop (lockKey : Bytes) (expiration : Int64) (retries : Nat) (waitTime : Int64) :
    Cmd.Sat Any (fun _ p' => Relocks h p p')
      (lockLoop h lockKey expiration retries waitTime) p := by
  induction retries generalizing p waitTime with
  | zero =>
    refine Cmd.Sat.bind (sat_lockAttempt lockKey expiration false waitTime) fun _ p₁ h₁ => ?_
    exact (sat_deref_bind _).mpr fun _ _ => h₁
  | succ retries ih =>
    refine Cmd.Sat.bind (sat_lockAttempt lockKey expiration true waitTime) fun wait p₁ h₁ => ?_
    refine (sat_deref_bind _).mpr fun memc _ => ?_
    cases hl : memc.userData.isLocked with
    | true => exact h₁
    | false => exact (ih wait).mono (fun _ hc => hc) fun _ _ h₂ => h₁.trans h₂

theorem sat_sAdjustExpiration (expiration : Int64) :
    Cmd.Sat Off (fun _ p' => p' = p) (sAdjustExpiration expiration) p := by
  unfold sAdjustExpiration
  split
  · exact rfl
  · exact ⟨rfl, fun _ => rfl⟩

theorem sat_iniValues_bind {φ : Call → Prop} {β : Type} {R : β → Proc L → Prop}
    (f : Ini → SessM L β) : Cmd.Sat φ R (iniValues >>= f) p ↔ Cmd.Sat φ R (f p.ini) p := Iff.rfl

theorem sat_sLockExpiration : Cmd.Sat Off (fun _ p' => p' = p) sLockExpiration p := by
  unfold sLockExpiration
  rw [sat_iniValues_bind]
  split
  · exact sat_sAdjustExpiration _
  · split
    · exact sat_sAdjustExpiration _
    · exact rfl

theorem sat_sLockSession (sid : Bytes) :
    Cmd.Sat Any (fun _ p' => Relocks h p p') (sLockSession h sid) p := by
  unfold sLockSession
  refine Cmd.Sat.bind (sat_any sat_sLockExpiration) fun expiration p₁ hp₁ => ?_
  rw [hp₁, sat_iniValues_bind]
  exact sat_lockLoop _ _ _ _

theorem sat_sUnlockSession : Cmd.Sat Any (fun _ p' => Relocks h p p') (sUnlockSession h) p := by
  refine (sat_deref_bind _).mpr fun memc hm => ?_
  cases hl : memc.userData.isLocked with
  | false => exact .inl rfl
  | true => exact ⟨trivial, fun _ => .inr ⟨memc, false, memc.userData.lockKey, hm, rfl⟩⟩

theorem sat_readItem (sid : Bytes) : Cmd.Sat Any (fun _ p' => p' = p) (readItem sid) p := by
  refine ⟨trivial, fun r => ?_⟩
  obtain ⟨status, payload⟩ := (r : Status × Bytes)
  by_cases hs : status = .success
  · subst hs
    exact rfl
  · by_cases hn : status = .notfound
    · subst hn
      exact rfl
    · cases status <;> first | exact absurd rfl hs | exact absurd rfl hn |
        exact ⟨trivial, fun _ => rfl⟩

end

/-! ## the callbacks that leave the process alone -/

/-- the callbacks that change nothing of the process -/
def Callback.Passive : Callback → Prop
  | .open_ _ | .close | .read _ | .destroy _ => False
  | .write .. | .gc | .createSid | .validateSid _ | .updateTimestamp .. => True

/-- their requests about items -/
def Callback.Asks : Callback → Call → Prop
  | .write sid val _, c => ∃ expiration, c = .set sid val expiration
  | .createSid, c => ∃ sid expiration, c = .add sid [] expiration
  | .validateSid sid, c => c = .exist sid ∨ c = .get sid
  | .updateTimestamp sid _ _, c => ∃ expiration, c = .touch sid expiration
  | _, _ => False

section
variable {L : Library} {p : Proc L} {φ : Call → Prop} {sid val : Bytes} {expiration : Int64}

/-- a command that leaves the process alone and asks for nothing about items -/
theorem sat_off {α : Type} {m : SessM L α} (hm : Cmd.Sat Off (fun _ p' => p' = p) m p)
    (hφ : ∀ c, Off c → φ c) : Cmd.Sat φ (fun _ p' => p' = p) m p := hm.mono hφ fun _ _ h => h

theorem sat_saveItem (hφ : ∀ c, Off c → φ c) (hset : φ (.set sid val expiration)) :
    Cmd.Sat φ (fun _ p' => p' = p) (saveItem sid val expiration) p := by
  refine ⟨hset, fun rc => ?_⟩
  show Cmd.Sat φ _ (if (rc : Status) = .success then _ else _) p
  split
  · exact rfl
  · exact ⟨hφ _ rfl, fun _ => rfl⟩

theorem sat_writeLoop (hφ : ∀ c, Off c → φ c) (hset : φ (.set sid val expiration)) (retries : Nat) :
    Cmd.Sat φ (fun _ p' => p' = p) (writeLoop sid val expiration retries) p := by
  induction retries with
  | zero =>
    refine Cmd.Sat.bind (sat_saveItem hφ hset) fun saved p₁ hp₁ => ?_
    exact hp₁
  | succ retries ih =>
    refine Cmd.Sat.bind (sat_saveItem hφ hset) fun saved p₁ hp₁ => ?_
    subst hp₁
    cases saved with
    | true => exact rfl
    | false => exact ih

theorem sat_createSidLoop (hφ : ∀ c, Off c → φ c)
    (hadd : ∀ sid expiration, φ (.add sid [] expiration)) (retries : Nat) :
    Cmd.Sat φ (fun _ p' => p' = p) (createSidLoop retries) p := by
  induction retries with
  | zero => exact rfl
  | succ retries ih =>
    refine ⟨hφ _ rfl, fun sid => ?_⟩
    refine Cmd.Sat.bind (sat_off sat_sLockExpiration hφ) fun expiration p₁ hp₁ => ?_
    subst hp₁
    refine ⟨hadd sid expiration, fun rc => ?_⟩
    show Cmd.Sat φ _ (if (rc : Status) = .success then _ else _) _
    split
    · exact rfl
    · exact ih

theorem sat_sSessionExpiration (maxlifetime : Int64) :
    Cmd.Sat Off (fun _ p' => p' = p) (sSessionExpiration maxlifetime) p := by
  unfold sSessionExpiration
  split
  · exact sat_sAdjustExpiration _
  · exact rfl

theorem sat_phpMemcachedTouch (hφ : ∀ c, Off c → φ c) (htouch : φ (.touch sid expiration)) :
    Cmd.Sat φ (fun _ p' => p' = p) (phpMemcachedTouch sid expiration) p := by
  have hlast : Cmd.Sat φ (fun _ p' => p' = p) (ask (L := L) (.touch sid expiration)) p :=
    ⟨htouch, fun _ => rfl⟩
  unfold phpMemcachedTouch Cmd.Sat Cmd.Ends
  rw [Cmd.get_bind_apply]
  cases p.modData with
  | none => exact ⟨hφ _ rfl, fun _ => rfl⟩
  | some h =>
    refine Cmd.Sat.bind (Q := fun _ p' => p' = p) (Cmd.Sat.when (fun _ => ?_) fun _ => rfl)
      fun _ p₁ hp₁ => hp₁ ▸ hlast
    refine (sat_deref_bind _).mpr fun memc _ => ?_
    exact Cmd.Sat.when (fun _ => ⟨hφ _ rfl, fun _ => rfl⟩) fun _ => rfl

theorem sat_phpMemcachedExist (hφ : ∀ c, Off c → φ c) (hexist : φ (.exist sid))
    (hget : φ (.get sid)) :
    Cmd.Sat φ (fun _ p' => p' = p) (phpMemcachedExist sid) p := by
  unfold phpMemcachedExist Cmd.Sat Cmd.Ends
  rw [Cmd.get_bind_apply]
  cases p.modData with
  | none => exact ⟨hφ _ rfl, fun _ => rfl⟩
  | some h =>
    cases L.haveExist with
    | true => exact ⟨hexist, fun _ => rfl⟩
    | false => exact ⟨hget, fun _ => rfl⟩

/-- a callback that needs module data: it goes on with the handle, or changes nothing -/
theorem sat_withModData {next : Nat → SessM L Ret} {Q : Ret → Proc L → Prop}
    (hφ : ∀ c, Off c → φ c) (hnone : p.modData = none → Q .failure p)
    (hnext : ∀ h, p.modData = some h → Cmd.Sat φ Q (next h) p) :
    Cmd.Sat φ Q (withModData next) p := by
  unfold Cmd.Sat Cmd.Ends
  cases hm : p.modData with
  | some h =>
    rw [withModData_of_some hm]
    exact hnext h hm
  | none =>
    rw [withModData_of_none hm]
    exact ⟨hφ _ rfl, fun _ => hnone hm⟩

/-- **They leave the process alone**, and these are their requests. -/
theorem sat_passive (cb : Callback) (hcb : cb.Passive) :
    Cmd.Sat (fun c => Off c ∨ cb.Asks c) (fun _ p' => p' = p) (callback cb) p := by
  have hoff : ∀ c, Off c → Off c ∨ cb.Asks c := fun _ => .inl
  cases cb with
  | open_ _ => exact hcb.elim
  | close => exact hcb.elim
  | read _ => exact hcb.elim
  | destroy _ => exact hcb.elim
  | gc => exact rfl
  | write sid val maxlifetime =>
    refine Cmd.Sat.bind (sat_off (sat_sSessionExpiration maxlifetime) hoff)
      fun expiration p₁ hp₁ => ?_
    subst hp₁
    refine sat_withModData hoff (fun _ => rfl) fun h _ => ?_
    rw [sat_iniValues_bind]
    refine (sat_deref_bind _).mpr fun memc _ => ?_
    exact sat_writeLoop hoff (.inr ⟨expiration, rfl⟩) _
  | createSid =>
    unfold callback Cmd.Sat Cmd.Ends
    dsimp only
    cases hm : p.modData with
    | some h =>
      rw [psCreateSid_of_some hm]
      exact sat_createSidLoop hoff (fun sid e => .inr ⟨sid, e, rfl⟩) 3
    | none =>
      rw [psCreateSid_of_none hm]
      exact ⟨.inl rfl, fun _ => rfl⟩
  | validateSid sid =>
    refine Cmd.Sat.bind (sat_phpMemcachedExist hoff (.inr (.inl rfl)) (.inr (.inr rfl)))
      fun rc p₁ hp₁ => ?_
    exact hp₁
  | updateTimestamp sid val maxlifetime =>
    refine Cmd.Sat.bind (sat_off (sat_sSessionExpiration maxlifetime) hoff)
      fun expiration p₁ hp₁ => ?_
    subst hp₁
    refine Cmd.Sat.bind (sat_phpMemcachedTouch hoff (.inr ⟨expiration, rfl⟩)) fun rc p₂ hp₂ => ?_
    exact hp₂

end

/-! ## all callbacks -/

/-- the outcomes of `PS_CLOSE`: there is no session; the handle is unlocked, and destroyed if it is not
persistent -/
inductive Closes {L : Library} (p : Proc L) : Ret → Proc L → Prop
  | unopened : p.modData = none → Closes p .failure p
  | closed {h p₁ memc} : p.modData = some h → Relocks h p p₁ → p₁.memory h = some memc →
      Closes p .success { (if memc.userData.isPersistent then p₁ else p₁.store h none) with
        modData := none }

/-- what a callback does to the process -/
inductive Effect {L : Library} (p : Proc L) : Callback → Ret → Proc L → Prop
  | open_ {savePath ret p'} : Opens savePath p ret p' → Effect p (.open_ savePath) ret p'
  /-- the handle is unlocked, and destroyed if it is not persistent -/
  | close {h p₁ memc} : p.modData = some h → Relocks h p p₁ → p₁.memory h = some memc →
      Effect p .close .success { (if memc.userData.isPersistent then p₁ else p₁.store h none) with
        modData := none }
  | relock {cb ret h p'} : p.modData = some h → Relocks h p p' → Effect p cb ret p'
  | none {cb ret} : Effect p cb ret p

section
variable {L : Library} {p p' : Proc L} {cb : Callback} {ret : Ret} {h : Nat} {memc : Memc L}

theorem sat_psClose : Cmd.Sat Any (Closes p) psClose p := by
  refine sat_withModData (fun _ _ => trivial) (fun hmod => .unopened hmod) fun h hmod => ?_
  refine Cmd.Sat.bind sat_sUnlockSession fun _ p₁ h₁ => ?_
  refine (sat_deref_bind _).mpr fun memc hm => ?_
  have hcloses := Closes.closed hmod h₁ hm
  cases hper : memc.userData.isPersistent with
  | true =>
    rw [hper] at hcloses
    exact hcloses
  | false =>
    refine Cmd.Sat.bind (sat_sDestroyModData.mono (fun _ _ => trivial) fun _ _ h => h)
      fun _ p₂ hp₂ => ?_
    rw [hper] at hcloses
    subst hp₂
    exact hcloses

theorem Closes.effect (h : Closes p ret p') : Effect p .close ret p' := by
  cases h with
  | unopened => exact .none
  | closed hmod hr hm => exact .close hmod hr hm

theorem sat_psRead (sid : Bytes) : Cmd.Sat Any (Effect p (.read sid)) (psRead sid) p := by
  refine sat_withModData (fun _ _ => trivial) (fun _ => .none) fun h hmod => ?_
  rw [sat_iniValues_bind]
  have hread : ∀ p₁, Relocks h p p₁ → Cmd.Sat Any (Effect p (.read sid)) (readItem sid) p₁ :=
    fun p₁ h₁ => (sat_readItem sid).mono (fun _ h => h) fun _ _ hp => hp ▸ .relock hmod h₁
  cases p.ini.lockEnabled with
  | false => exact hread p (.inl rfl)
  | true =>
    refine Cmd.Sat.bind (sat_sLockSession sid) fun locked p₁ h₁ => ?_
    cases locked with
    | true => exact hread p₁ h₁
    | false => exact ⟨trivial, fun _ => .relock hmod h₁⟩

/-- **What the callbacks do to the process**, when the handles that are listed are not freed. -/
theorem sat_callback (hlive : ∀ key h, p.persistentList key = some (.memc h) →
    ∃ m, p.memory h = some m) (cb : Callback) : Cmd.Sat Any (Effect p cb) (callback cb) p := by
  have hpassive : cb.Passive → Cmd.Sat Any (Effect p cb) (callback cb) p := fun hcb =>
    (sat_passive cb hcb).mono (fun _ _ => trivial) fun _ _ hp => hp ▸ .none
  cases cb with
  | open_ savePath =>
    exact (sat_psOpen hlive).mono (fun _ _ => trivial) fun _ _ h => .open_ h
  | close => exact sat_psClose.mono (fun _ h => h) fun _ _ h => h.effect
  | read sid => exact sat_psRead sid
  | destroy sid =>
    refine sat_withModData (fun _ _ => trivial) (fun _ => .none) fun h hmod => ?_
    refine ⟨trivial, fun _ => ?_⟩
    refine Cmd.Sat.bind sat_sUnlockSession fun _ p₁ h₁ => ?_
    exact .relock hmod h₁
  | write sid val maxlifetime => exact hpassive trivial
  | gc => exact hpassive trivial
  | createSid => exact hpassive trivial
  | validateSid sid => exact hpassive trivial
  | updateTimestamp sid val maxlifetime => exact hpassive trivial

end

end PhpMemcached.Session
