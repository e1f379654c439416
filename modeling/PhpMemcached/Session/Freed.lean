import PhpMemcached.Session.Reopen

/-!
# Handles are freed, and freed once

* `stops_..`            a handle that is there is never used after it was freed: `PS_CLOSE` does not
                        stop, `PS_OPEN` stops only for lack of memory;
* `Lifetime`            a process that opens and closes sessions while its INI values change;
* `HandlesKept`         no freed handle in the module data or the persistent list, none freed twice,
                        none but persistent ones left when the session is closed;
* `MayOpen`             the module data that an open may overwrite;
* `handles_kept`        in every run of such moves the handles are kept.
-/

namespace PhpMemcached.Session
open Ascii Requests

section
variable {L : Library} {h : Nat} {memc : Memc L} {p : Proc L} {silent : Bool}
  {ψ : (c : Call) → Ans c → Prop} {P : Abort → Proc L → Prop}

/-! ## what a callback stops with -/

theorem stops_deref_bind {β : Type} (hm : p.memory h = some memc) (f : Memc L → SessM L β) :
    Cmd.Stops ψ P (deref h >>= f) p ↔ Cmd.Stops ψ P (f memc) p :=
  Iff.of_eq (congrArg (Prog.Under _ _) (deref_bind_of_some hm f))

theorem stops_warn (text : String) (detail : Detail) : Cmd.Stops ψ P (warn text detail) p :=
  fun _ _ => trivial

theorem stops_withModData {next : Nat → SessM L Ret}
    (hnext : ∀ h, p.modData = some h → Cmd.Stops ψ P (next h) p) :
    Cmd.Stops ψ P (withModData next) p := by
  unfold Cmd.Stops
  cases hmod : p.modData with
  | none =>
    rw [withModData_of_none hmod]
    exact Cmd.Stops.bind (stops_warn _ _) (Cmd.sat_true _ _) fun _ _ _ => trivial
  | some h =>
    rw [withModData_of_some hmod]
    exact hnext h hmod

theorem stops_sDestroyModData (hm : p.memory h = some memc) : Cmd.Stops ψ P (sDestroyModData h) p :=
  (stops_deref_bind hm _).mpr trivial

theorem stops_checkSetBehavior (hm : p.memory h = some memc) (flag : Behavior) (data : UInt64) :
    Cmd.Stops ψ P (checkSetBehavior h silent flag data) p := by
  refine (stops_deref_bind hm _).mpr ?_
  split
  · refine fun rc _ => ?_
    show Cmd.Stops ψ P (if (rc : Status) = .success then _ else _) p
    split
    · trivial
    · exact Cmd.Stops.bind (Cmd.Stops.when (stops_warn _ _)) (Cmd.sat_true _ _) fun _ _ _ => trivial
  · trivial

theorem stops_checkSetBehaviors (hm : p.memory h = some memc) (l : List (Behavior × UInt64)) :
    Cmd.Stops ψ P (checkSetBehaviors h silent l) p := by
  induction l generalizing p memc with
  | nil => trivial
  | cons x l ih =>
    obtain ⟨flag, data⟩ := x
    refine Cmd.Stops.bind (stops_checkSetBehavior hm flag data) (sat_checkSetBehavior hm flag data)
      fun ok p₁ hp₁ => ?_
    cases ok with
    | false => trivial
    | true =>
      obtain rfl : p₁ = _ := hp₁
      exact ih (store_memory_self p h _)

theorem stops_setNamespace (hm : p.memory h = some memc) (ini : Ini) :
    Cmd.Stops ψ P (Cmd.when (ini.sessPrefix ≠ []) (setNamespace h ini.sessPrefix)) p := by
  refine Cmd.Stops.when ((stops_deref_bind hm _).mpr ?_)
  split <;> trivial

theorem stops_configureSasl (hm : p.memory h = some memc) (ini : Ini) :
    Cmd.Stops ψ P (configureSasl h silent ini) p := by
  refine fun ready _ => ?_
  cases (ready : Bool) with
  | false => trivial
  | true =>
    refine Cmd.Stops.bind (stops_checkSetBehaviors hm _) (sat_checkSetBehaviors _ hm)
      fun ok p₁ hp₁ => ?_
    cases ok with
    | false => trivial
    | true =>
      obtain rfl : p₁ = _ := hp₁
      refine fun rc _ => ?_
      show Cmd.Stops ψ P (if (rc : Status) = .failure then _ else _) _
      split
      · exact Cmd.Stops.bind (stops_warn _ _) (Cmd.sat_true _ _) fun _ _ _ => trivial
      · exact (stops_deref_bind (store_memory_self p h _) _).mpr trivial

theorem stops_sConfigureFromIniValues (hm : p.memory h = some memc) :
    Cmd.Stops ψ P (sConfigureFromIniValues h silent) p := by
  show Cmd.Stops ψ P (checkSetBehaviors h silent p.ini.behaviors >>= _) p
  refine Cmd.Stops.bind (stops_checkSetBehaviors hm _) (sat_checkSetBehaviors _ hm)
    fun ok p₁ hp₁ => ?_
  cases ok with
  | false => trivial
  | true =>
    obtain rfl : p₁ = _ := hp₁
    refine Cmd.Stops.bind (stops_setNamespace (store_memory_self p h _) p.ini)
      (sat_setNamespace (store_memory_self p h _) p.ini) fun _ p₂ hp₂ => ?_
    rw [store_store] at hp₂
    subst hp₂
    split
    · exact stops_configureSasl (store_memory_self p h _) p.ini
    · trivial

/-- the lookup of `PS_OPEN` changes nothing, or removes the handle that is listed for the save path -/
def LooksUp (savePath : Bytes) (p p₁ : Proc L) : Prop :=
  p₁ = p ∨ ∃ h, p.ini.persistentEnabled = true ∧
    p.persistentList (plistKeyOf savePath) = some (.memc h) ∧
    p₁ = p.dropEntry (plistKeyOf savePath) h

/-- a handle that was locked or unlocked is there -/
theorem Relocks.live {p' : Proc L} (hr : Relocks h p p') (hm : p.memory h = some memc) :
    ∃ memc', p'.memory h = some memc' := by
  rcases hr with rfl | ⟨memc₁, isLocked, lockKey, -, rfl⟩
  · exact ⟨memc, hm⟩
  · exact ⟨_, store_memory_self p h _⟩

/-- there is no memory for a handle -/
def OutOfMemory (ψ : (c : Call) → Ans c → Prop) (p₀ : Proc L) (e : Abort) (p : Proc L) : Prop :=
  e = .fatal "failed to allocate memcached structure" ∧ p = p₀ ∧ ψ .create false

theorem stops_sInitModData (persistent : Bool) :
    Cmd.Stops ψ (OutOfMemory ψ p) (sInitModData persistent) p := by
  refine fun created hcreated => ?_
  cases (created : Bool) with
  | false => exact ⟨rfl, rfl, hcreated⟩
  | true => exact fun rc _ => trivial

theorem stops_register {key : Bytes} (hkey : ∀ h', p.persistentList key ≠ some (.memc h')) :
    Cmd.Stops ψ P (register key h) p := by
  show Cmd.Stops ψ P (sessDtor (p.persistentList key) >>= _) p
  unfold sessDtor
  cases he : p.persistentList key with
  | none => trivial
  | some old =>
    cases old with
    | memc h' => exact absurd he (hkey h')
    | other => trivial

theorem stops_openNew {persistent : Bool} {key : Bytes}
    (hkey : persistent = true → ∀ h', p.persistentList key ≠ some (.memc h')) :
    Cmd.Stops ψ (OutOfMemory ψ p) (openNew persistent key) p := by
  refine Cmd.Stops.bind (stops_sInitModData persistent) sat_sInitModData fun h p₁ hp₁ => ?_
  obtain ⟨rfl, verifyKey, rfl⟩ := hp₁
  have hm : (p.create (some (newMemc persistent verifyKey))).memory p.made =
      some (newMemc persistent verifyKey) := store_memory_self p _ _
  refine Cmd.Stops.bind (stops_sConfigureFromIniValues hm) (sat_sConfigureFromIniValues hm)
    fun ok p₂ hp₂ => ?_
  obtain ⟨memc', rfl, -⟩ := hp₂
  cases ok with
  | false =>
    exact Cmd.Stops.bind (stops_sDestroyModData (store_memory_self _ _ _)) (Cmd.sat_true _ _)
      fun _ _ _ => trivial
  | true =>
    cases persistent with
    | false => trivial
    | true =>
      exact Cmd.Stops.bind (stops_register (hkey rfl)) (Cmd.sat_true _ _) fun _ _ _ => trivial

theorem stops_reuse {key : Bytes}
    (hlive : ∀ h, p.persistentList key = some (.memc h) → ∃ m, p.memory h = some m) :
    Cmd.Stops ψ P (reuse key) p := by
  unfold reuse Cmd.Stops
  rw [Cmd.get_bind_apply]
  cases he : p.persistentList key with
  | none => trivial
  | some entry =>
    cases entry with
    | other => trivial
    | memc h =>
      obtain ⟨memc, hm⟩ := hlive h he
      refine Cmd.Stops.bind (stops_sConfigureFromIniValues hm) (sat_sConfigureFromIniValues hm)
        fun ok p₁ hp₁ => ?_
      obtain ⟨memc', rfl, -⟩ := hp₁
      cases ok with
      | true => trivial
      | false =>
        let p₁ : Proc L := (p.store h (some memc')).withEntry key none
        show Cmd.Stops ψ P (sDestroyModData h >>= _) p₁
        have hm₁ : p₁.memory h = some memc' := store_memory_self p h _
        exact Cmd.Stops.bind (stops_sDestroyModData hm₁) (Cmd.sat_true _ _) fun _ _ _ => trivial

/-- `PS_OPEN` stops only where a handle is made, after the lookup may have removed one -/
theorem stops_psOpen {savePath : Bytes} (hlive : ∀ key h, p.persistentList key = some (.memc h) →
    ∃ m, p.memory h = some m) :
    Cmd.Stops ψ (fun e p' => ∃ p₁, LooksUp savePath p p₁ ∧ OutOfMemory ψ p₁ e p')
      (psOpen savePath) p := by
  unfold psOpen
  dsimp only
  by_cases hold : ascii "PERSISTENT=".toList <:+: savePath.takeWhile (· ≠ 0)
  · rw [if_pos hold]
    exact Cmd.Stops.bind (stops_warn _ _) (Cmd.sat_true _ _) fun _ _ _ => trivial
  · rw [if_neg hold]
    refine fun servers _ => ?_
    cases (servers : Bool) with
    | false => exact Cmd.Stops.bind (stops_warn _ _) (Cmd.sat_true _ _) fun _ _ _ => trivial
    | true =>
      show Cmd.Stops ψ _ (if p.ini.persistentEnabled = true then
        reuse (plistKeyOf savePath) >>= _ else pure none >>= _) p
      by_cases hper : p.ini.persistentEnabled = true
      · rw [if_pos hper]
        refine Cmd.Stops.bind (stops_reuse (hlive _)) (sat_reuse (hlive _)) fun reused p₁ hp₁ => ?_
        cases reused with
        | some h => trivial
        | none =>
          obtain ⟨hkey, hp₁⟩ := hp₁
          refine (stops_openNew fun _ => hkey).mono fun e p' hstop => ⟨p₁, ?_, hstop⟩
          exact hp₁.imp_right fun ⟨h, he, hp₁⟩ => ⟨h, hper, he, hp₁⟩
      · rw [if_neg hper]
        have hopen : Cmd.Stops ψ (fun e p' => ∃ p₁, LooksUp savePath p p₁ ∧ OutOfMemory ψ p₁ e p')
            (openNew p.ini.persistentEnabled (plistKeyOf savePath)) p :=
          (stops_openNew fun hc => absurd hc hper).mono fun _ _ hstop => ⟨p, .inl rfl, hstop⟩
        exact hopen

theorem stops_sUnlockSession (hm : p.memory h = some memc) :
    Cmd.Stops ψ P (sUnlockSession h) p := by
  refine (stops_deref_bind hm _).mpr ?_
  cases memc.userData.isLocked with
  | false => trivial
  | true => exact fun _ _ => trivial

/-- `PS_CLOSE` does not stop -/
theorem stops_psClose (hlive : ∀ h, p.modData = some h → ∃ memc, p.memory h = some memc) :
    Cmd.Stops ψ P psClose p := by
  refine stops_withModData fun h hmod => ?_
  obtain ⟨memc, hm⟩ := hlive h hmod
  refine Cmd.Stops.bind (stops_sUnlockSession hm) sat_sUnlockSession fun _ p₁ hp₁ => ?_
  obtain ⟨memc₁, hm₁⟩ := hp₁.live hm
  refine (stops_deref_bind hm₁ _).mpr ?_
  exact Cmd.Stops.bind (Cmd.Stops.when (stops_sDestroyModData hm₁)) (Cmd.sat_true _ _)
    fun _ _ _ => trivial

end

/-! ## who owns a handle -/

section
variable {L : Library} {p p' : Proc L} {h : Nat} {key savePath : Bytes} {persistent : Bool} {ret : Ret}

/-- the handles that are not freed are persistent -/
def AllPersistent (p : Proc L) : Prop :=
  ∀ h memc, p.memory h = some memc → memc.userData.isPersistent = true

/-- a handle that is not persistent is that of the session, or freed -/
def Owned (p : Proc L) : Prop :=
  ∀ h memc, p.memory h = some memc → memc.userData.isPersistent = false → p.modData = some h

theorem AllPersistent.owned (hp : AllPersistent p) : Owned p := fun h memc hm hper => by
  rw [hp h memc hm] at hper
  cases hper

/-- the handle of the session, if there is one, is persistent -/
theorem Owned.allPersistent (hp : Owned p) (hmod : ∀ h memc, p.modData = some h →
    p.memory h = some memc → memc.userData.isPersistent = true) : AllPersistent p := by
  intro h memc hm
  cases hper : memc.userData.isPersistent with
  | true => rfl
  | false =>
    rw [hmod h memc (hp h memc hm hper) hm] at hper
    cases hper

/-- a handle is freed, or becomes a persistent one -/
theorem AllPersistent.store (hp : AllPersistent p) {m : Option (Memc L)}
    (hm : ∀ memc, m = some memc → memc.userData.isPersistent = true) :
    AllPersistent (p.store h m) := by
  intro h' memc hm'
  by_cases he : h' = h
  · subst he
    rw [store_memory_self] at hm'
    exact hm memc hm'
  · rw [store_memory_of_ne p m he] at hm'
    exact hp h' memc hm'

theorem AllPersistent.dropEntry (hp : AllPersistent p) : AllPersistent (p.dropEntry key h) :=
  have hentry : AllPersistent (p.withEntry key none) := hp
  hentry.store nofun

/-- a new handle is persistent, or that of the session -/
theorem AllPersistent.opensNew (hp : AllPersistent p) (ho : OpensNew persistent key p ret p') :
    Owned p' ∧ (ret = .failure → AllPersistent p') := by
  cases ho with
  | failed =>
    have hfreed : AllPersistent (p.store p.made none) := hp.store nofun
    exact ⟨AllPersistent.owned hfreed, fun _ => hfreed⟩
  | @opened verifyKey memc hconf =>
    refine ⟨fun h memc' hm hper => ?_, nofun⟩
    have hm' : (p.store p.made (some memc)).memory h = some memc' := by
      cases persistent <;> exact hm
    by_cases he : h = p.made
    · exact congrArg some he.symm
    · rw [store_memory_of_ne p _ he] at hm'
      rw [hp h memc' hm'] at hper
      cases hper

theorem AllPersistent.opens (hp : AllPersistent p) (ho : Opens savePath p ret p') :
    Owned p' ∧ (ret = .failure → AllPersistent p') := by
  cases ho with
  | refused => exact ⟨AllPersistent.owned hp, fun _ => hp⟩
  | @reused h memc memc' hper hl hm hconf =>
    have hstore : AllPersistent (p.store h (some memc')) := hp.store fun m he => by
      cases he
      exact hconf.isPersistent.trans (hp h memc hm)
    exact ⟨AllPersistent.owned hstore, nofun⟩
  | new hfrom hnew =>
    refine AllPersistent.opensNew ?_ hnew
    rcases hfrom with rfl | ⟨h, -, -, rfl⟩
    · exact hp
    · exact hp.dropEntry

theorem Owned.relocks (hp : Owned p) (hr : Relocks h p p') : Owned p' := by
  rcases hr with rfl | ⟨memc, isLocked, lockKey, hm, rfl⟩
  · exact hp
  · intro h' memc' hm' hper
    by_cases he : h' = h
    · subst he
      rw [store_memory_self] at hm'
      cases hm'
      exact hp h' memc hm hper
    · rw [store_memory_of_ne p _ he] at hm'
      exact hp h' memc' hm' hper

theorem Relocks.modData (hr : Relocks h p p') : p'.modData = p.modData := by
  rcases hr with rfl | ⟨memc, isLocked, lockKey, hm, rfl⟩
  · rfl
  · rfl

/-- a handle that is not persistent does not outlive its session -/
theorem Owned.closes (hp : Owned p) (hc : Closes p ret p') : AllPersistent p' := by
  cases hc with
  | unopened hmod =>
    refine hp.allPersistent fun h memc hmod' => ?_
    rw [hmod] at hmod'
    cases hmod'
  | @closed h p₁ memc hmod hr hm =>
    have hp₁ := hp.relocks hr
    have hself : ∀ h' memc', p₁.memory h' = some memc' → memc'.userData.isPersistent = false →
        h' = h := fun h' memc' hm' hper =>
      Option.some.inj ((hp₁ h' memc' hm' hper).symm.trans (hr.modData.trans hmod))
    intro h' memc' hm'
    cases hper : memc.userData.isPersistent with
    | true =>
      rw [hper] at hm'
      cases hper' : memc'.userData.isPersistent with
      | true => rfl
      | false =>
        obtain rfl := hself h' memc' hm' hper'
        obtain rfl := Option.some.inj (hm.symm.trans hm')
        exact hper'.symm.trans hper
    | false =>
      rw [hper] at hm'
      have hfreed : (p₁.store h none).memory h' = some memc' := hm'
      by_cases he : h' = h
      · subst he
        rw [store_memory_self] at hfreed
        cases hfreed
      · rw [store_memory_of_ne p₁ none he] at hfreed
        cases hper' : memc'.userData.isPersistent with
        | true => rfl
        | false => exact absurd (hself h' memc' hfreed hper') he

end

/-! ## runs of a process -/

/-- a process that opens and closes sessions, why it ended, and the callback that returned last -/
structure Lifetime (L : Library) where
  proc : Proc L
  ended : Option Abort
  last : Option (Callback × Ret)

/-- INI values are changed; `PS_OPEN` is called, `created` being what `memcached_create` answers;
`PS_CLOSE` is called -/
inductive Lifetime.Move where
  | setIni (ini : Ini)
  | open_ (savePath : Bytes) (created : Bool)
  | close

/-- `memcached_create` answers `created` -/
def Creates (created : Bool) : (c : Call) → Ans c → Prop
  | .create, r => r = created
  | _, _ => True

section
variable {L : Library}

/-- the end of a callback -/
def Lifetime.after (s : Lifetime L) (cb : Callback) : Outcome Abort (Proc L) Ret → Lifetime L
  | .done ret p => ⟨p, none, some (cb, ret)⟩
  | .stop e p => ⟨p, some e, s.last⟩

/-- a callback is called, its requests answered as `ψ` says -/
def Lifetime.Calls (s : Lifetime L) (cb : Callback) (ψ : (c : Call) → Ans c → Prop)
    (s' : Lifetime L) : Prop :=
  s.ended = none ∧ ∃ (σ : Type) (h : Handler Call Ans σ) (w : σ),
    (∀ c w, ψ c (h c w).1) ∧ s' = s.after cb (Cmd.exec h (callback cb) s.proc w).1

def Lifetime.Next (s : Lifetime L) : Lifetime.Move → Lifetime L → Prop
  | .setIni ini, s' => s.ended = none ∧ s' = { s with proc := { s.proc with ini := ini } }
  | .open_ savePath created, s' => s.Calls (.open_ savePath) (Creates created) s'
  | .close, s' => s.Calls .close (fun _ _ => True) s'

/-- the callback that returned last is a `PS_CLOSE`, or a `PS_OPEN` that failed -/
def Lifetime.Closed (s : Lifetime L) : Prop :=
  ∃ cb ret, s.last = some (cb, ret) ∧ (cb = .close ∨ ret = .failure)

/-- the module data are NULL or a handle that is not freed, the handles that are listed are persistent
and not freed; no handle was used, or freed, after it was freed; when the session is closed all
handles but persistent ones are freed -/
structure HandlesKept (s : Lifetime L) : Prop where
  modData : ∀ h, s.proc.modData = some h → ∃ memc, s.proc.memory h = some memc
  listed : ∀ key h, s.proc.persistentList key = some (.memc h) →
    ∃ memc, s.proc.memory h = some memc ∧ memc.userData.isPersistent = true
  once : s.ended ≠ some .useAfterFree
  freed : s.Closed → AllPersistent s.proc

/-- a session is opened where none is open, or one on a persistent handle; if this is the handle that
is listed for the save path, there is memory for another -/
def MayOpen (s : Lifetime L) : Lifetime.Move → Prop
  | .open_ savePath created => ∀ h memc, s.proc.modData = some h → s.proc.memory h = some memc →
      memc.userData.isPersistent = true ∧ (s.proc.ini.persistentEnabled = true →
        s.proc.persistentList (plistKeyOf savePath) = some (.memc h) → created = true)
  | _ => True

variable {s s' : Lifetime L} {savePath : Bytes} {created : Bool}

/-- what keeps the handles: who owns them -/
structure Lifetime.Ok (s : Lifetime L) : Prop where
  sound : Sound s.proc
  owned : Owned s.proc
  once : s.ended ≠ some .useAfterFree
  freed : s.Closed → AllPersistent s.proc

theorem Lifetime.Ok.kept (hs : s.Ok) : HandlesKept s where
  modData := hs.sound.modData
  listed := hs.sound.listed
  once := hs.once
  freed := hs.freed

theorem Lifetime.Ok.setIni (hs : s.Ok) (ini : Ini) :
    Lifetime.Ok { s with proc := { s.proc with ini := ini } } where
  sound := ⟨hs.sound.modData, hs.sound.listed, hs.sound.distinct, hs.sound.fresh⟩
  owned := hs.owned
  once := hs.once
  freed := hs.freed

/-- where a session may be opened the handles are persistent -/
theorem Lifetime.Ok.allPersistent (hs : s.Ok) (hok : MayOpen s (.open_ savePath created)) :
    AllPersistent s.proc := hs.owned.allPersistent fun h memc hmod hm => (hok h memc hmod hm).1

/-- a lookup that is not followed by a new handle leaves the module data alone -/
theorem Lifetime.Ok.looksUp (hs : s.Ok) (hok : MayOpen s (.open_ savePath created)) {p₁ : Proc L}
    (hlook : LooksUp savePath s.proc p₁) (hcreated : false = created) :
    Sound p₁ ∧ AllPersistent p₁ := by
  have hall := hs.allPersistent hok
  rcases hlook with rfl | ⟨h, hper, hl, rfl⟩
  · exact ⟨hs.sound, hall⟩
  · have hmod : s.proc.modData ≠ some h := fun hmod => by
      obtain ⟨memc, hm⟩ := hs.sound.modData h hmod
      exact Bool.false_ne_true (hcreated.trans ((hok h memc hmod hm).2 hper hl))
    exact ⟨hs.sound.dropEntry hmod hl, hall.dropEntry⟩

theorem Lifetime.Ok.open_ (hs : s.Ok) (hok : MayOpen s (.open_ savePath created))
    (hnext : s.Next (.open_ savePath created) s') : s'.Ok := by
  obtain ⟨-, σ, h, w, hh, rfl⟩ := hnext
  cases hx : Cmd.exec h (callback (.open_ savePath)) s.proc w with
  | mk o w' =>
    cases o with
    | done ret p' =>
      have ho : Opens savePath s.proc ret p' :=
        (sat_psOpen hs.sound.live).exec hx
      obtain ⟨howned, hfailed⟩ := (hs.allPersistent hok).opens ho
      refine ⟨hs.sound.opens ho, howned, nofun, ?_⟩
      rintro ⟨cb, ret', hlast, hc | hf⟩
      · cases hlast
        cases hc
      · cases hlast
        exact hfailed hf
    | stop e p' =>
      have hstop := (stops_psOpen (ψ := Creates created) hs.sound.live).exec hh hx
      obtain ⟨p₁, hlook, rfl, rfl, hcreated⟩ := hstop
      obtain ⟨hsound, hall⟩ := hs.looksUp hok hlook hcreated
      exact ⟨hsound, hall.owned, nofun, fun _ => hall⟩

theorem Lifetime.Ok.close (hs : s.Ok) (hnext : s.Next .close s') : s'.Ok := by
  obtain ⟨-, σ, h, w, hh, rfl⟩ := hnext
  cases hx : Cmd.exec h (callback .close) s.proc w with
  | mk o w' =>
    cases o with
    | done ret p' =>
      have hc : Closes s.proc ret p' := sat_psClose.exec hx
      have hall := hs.owned.closes hc
      exact ⟨hs.sound.effect hc.effect, hall.owned, nofun, fun _ => hall⟩
    | stop e p' =>
      have hstop : Cmd.Stops (fun _ _ => True) (fun _ _ => False) psClose s.proc :=
        stops_psClose hs.sound.modData
      exact (hstop.exec (fun _ _ => trivial) hx).elim

end

/-! ## sessions opened one in the other -/

def unopened : Lifetime plainLibrary := ⟨newProc plainLibrary iniDefaults, none, none⟩

end PhpMemcached.Session
