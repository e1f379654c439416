import PhpMemcached.Session.Sound

/-!
# Rules for the lock

For any rules `R` (see `Lib/Rely`) that do not mind requests that are not about items (`Neutral`):

* `keeps_sLockSession`     what each `add` of the lock keeps, `s_lock_session` keeps, and it returns the
                           flag of the handle;
* `keeps_sUnlockSession`   what the one `delete` leads to, `s_unlock_session` leads to;
* `keeps_psRead`, ..       the callbacks, in terms of their requests about items.
-/

namespace PhpMemcached.Session
open Ascii Requests

section
variable {L : Library} {G α β : Type} {R : Rules Call Ans G} {p p' : Proc L} {g g' : G} {h : Nat}
  {memc : Memc L}

def Memc.locked (memc : Memc L) (lockKey : Bytes) : Memc L :=
  memc.withUserData { memc.userData with lockKey := lockKey, isLocked := true }

def Memc.unlocked (memc : Memc L) : Memc L :=
  memc.withUserData { memc.userData with isLocked := false }

/-- requests that are not about items are always allowed, and leave the view to the others -/
structure Neutral (R : Rules Call Ans G) : Prop where
  guard : ∀ c g, Off c → R.guard c g
  served : ∀ c r g g', Off c → R.served c r g g' → R.env g g'

theorem Neutral.keeps (hR : Neutral R) {Q : α → Proc L → Prop} {m : SessM L α}
    (hm : Cmd.Sat Off Q m p) (g : G) :
    Cmd.Keeps R (fun a p' g' => Q a p' ∧ R.env g g') m p g :=
  hm.keeps (fun _ _ h h' => R.trans _ _ _ h h') (fun c g₁ hc h => ⟨hR.guard c g₁ hc,
    fun r g₂ hs => R.trans _ _ _ h (hR.served c r g₁ g₂ hc hs)⟩) (R.refl g)

theorem keeps_deref_bind {P : β → Proc L → G → Prop} {f : Memc L → SessM L β}
    (hf : ∀ memc, p.memory h = some memc → Cmd.Keeps R P (f memc) p g) :
    Cmd.Keeps R P (deref h >>= f) p g := by
  unfold Cmd.Keeps
  cases hm : p.memory h with
  | some memc =>
    rw [deref_bind_of_some hm]
    exact hf memc hm
  | none =>
    rw [deref_bind_of_none hm]
    exact fun _ _ => trivial

theorem keeps_iniValues_bind {P : β → Proc L → G → Prop} (f : Ini → SessM L β) :
    Cmd.Keeps R P (iniValues >>= f) p g ↔ Cmd.Keeps R P (f p.ini) p g := Iff.rfl

/-- a request that is not about items, and what follows -/
theorem Neutral.keeps_bind (hR : Neutral R) {c : Call} (hc : Off c) {P : β → Proc L → G → Prop}
    {f : Ans c → SessM L β} (hf : ∀ r g', R.env g g' → Cmd.Keeps R P (f r) p g') :
    Cmd.Keeps R P (ask c >>= f) p g := by
  refine (Cmd.keeps_req_bind c f).mpr fun g₁ h₁ => ⟨hR.guard c g₁ hc, fun r g₂ hs => ?_⟩
  exact hf r g₂ (R.trans _ _ _ h₁ (hR.served c r g₁ g₂ hc hs))

/-! ## locking -/

/-- `J` is kept by an `add` of the lock, and what the handle notes of it -/
structure AddKeeps (R : Rules Call Ans G) (J : Proc L → G → Prop) (h : Nat) (lockKey : Bytes) :
    Prop where
  stable : ∀ p g g', J p g → R.env g g' → J p g'
  guard : ∀ p g expiration, J p g → R.guard (.add lockKey lockValue expiration) g
  added : ∀ p g g' expiration memc, J p g → p.memory h = some memc →
    R.served (.add lockKey lockValue expiration) Status.success g g' →
    J (p.store h (some (memc.locked lockKey))) g'
  refused : ∀ p g g' expiration (rc : Status), J p g → rc ≠ .success →
    R.served (.add lockKey lockValue expiration) rc g g' → J p g'

variable {J : Proc L → G → Prop} {lockKey : Bytes}

theorem keeps_lockOutcome (hR : Neutral R) (hJ : AddKeeps R J h lockKey) {rc : Status}
    (hrc : rc ≠ .success) (hp : J p g) (more : Bool) (waitTime : Int64) :
    Cmd.Keeps R (fun _ p' g' => J p' g') (lockOutcome h lockKey more waitTime rc) p g := by
  have hstay : ∀ {g'}, R.env g g' → ∀ wait, Cmd.Keeps R (fun _ p' g' => J p' g')
      (pure wait : SessM L Int64) p g' := fun he wait =>
    (Cmd.keeps_pure wait).mpr fun g'' he' => hJ.stable p g g'' hp (R.trans _ _ _ he he')
  unfold lockOutcome
  split
  · exact absurd rfl hrc
  · cases more with
    | false => exact hstay (R.refl g) _
    | true =>
      refine hR.keeps_bind (c := .usleep _) rfl fun _ g' he => ?_
      rw [keeps_iniValues_bind]
      exact hstay he _
  · cases more with
    | false => exact hstay (R.refl g) _
    | true =>
      refine hR.keeps_bind (c := .usleep _) rfl fun _ g' he => ?_
      rw [keeps_iniValues_bind]
      exact hstay he _
  · exact hR.keeps_bind (c := .warning _ _) rfl fun _ g' he => hstay he _

theorem keeps_lockAttempt (hR : Neutral R) (hJ : AddKeeps R J h lockKey) (hp : J p g)
    (expiration : Int64) (more : Bool) (waitTime : Int64) :
    Cmd.Keeps R (fun _ p' g' => J p' g') (lockAttempt h lockKey expiration more waitTime) p g := by
  intro g₁ h₁
  have hp₁ := hJ.stable p g g₁ hp h₁
  refine ⟨hJ.guard p g₁ expiration hp₁, fun rc g₂ hs => ?_⟩
  show Cmd.Keeps R _ (lockOutcome h lockKey more waitTime rc) p g₂
  by_cases hrc : (rc : Status) = .success
  · subst hrc
    refine keeps_deref_bind fun memc hm => ?_
    have hlocked := hJ.added p g₁ g₂ expiration memc hp₁ hm hs
    exact fun g₃ h₃ => hJ.stable _ _ _ hlocked h₃
  · exact keeps_lockOutcome hR hJ hrc (hJ.refused p g₁ g₂ expiration rc hp₁ hrc hs) more waitTime

/-- what is kept at the end, with the flag of the handle -/
def Flagged (J : Proc L → G → Prop) (h : Nat) (locked : Bool) (p : Proc L) (g : G) : Prop :=
  J p g ∧ ∃ memc, p.memory h = some memc ∧ memc.userData.isLocked = locked

/-- the loop, by induction on its rounds -/
theorem keeps_lockLoop (hR : Neutral R) (hJ : AddKeeps R J h lockKey) (expiration : Int64)
    (retries : Nat) (hp : J p g) (waitTime : Int64) :
    Cmd.Keeps R (Flagged J h) (lockLoop h lockKey expiration retries waitTime) p g := by
  induction retries generalizing p g waitTime with
  | zero =>
    refine (keeps_lockAttempt hR hJ hp expiration false waitTime).bind fun _ p₁ g₁ hp₁ => ?_
    refine keeps_deref_bind fun memc hm => ?_
    exact fun g₂ h₂ => ⟨hJ.stable _ _ _ hp₁ h₂, memc, hm, rfl⟩
  | succ retries ih =>
    refine (keeps_lockAttempt hR hJ hp expiration true waitTime).bind fun wait p₁ g₁ hp₁ => ?_
    refine keeps_deref_bind fun memc hm => ?_
    cases hl : memc.userData.isLocked with
    | true => exact fun g₂ h₂ => ⟨hJ.stable _ _ _ hp₁ h₂, memc, hm, hl⟩
    | false => exact ih hp₁ wait

/-- **`s_lock_session`** keeps what each `add` of the lock keeps, and returns the flag. -/
theorem keeps_sLockSession (hR : Neutral R) {sid : Bytes} (hJ : AddKeeps R J h (lockKeyOf sid))
    (hp : J p g) : Cmd.Keeps R (Flagged J h) (sLockSession h sid) p g := by
  unfold sLockSession
  refine (hR.keeps sat_sLockExpiration g).bind fun expiration p₁ g₁ h₁ => ?_
  obtain ⟨rfl, henv⟩ := h₁
  rw [keeps_iniValues_bind]
  exact keeps_lockLoop hR hJ expiration _ (hJ.stable _ _ _ hp henv) _

/-! ## unlocking -/

/-- **`s_unlock_session`**: the one `delete`, if the handle is locked -/
theorem keeps_sUnlockSession {K : Proc L → G → Prop}
    (hfree : ∀ memc g', p.memory h = some memc → memc.userData.isLocked = false → R.env g g' →
      K p g')
    (hguard : ∀ memc g', p.memory h = some memc → memc.userData.isLocked = true → R.env g g' →
      R.guard (.delete .unlock memc.userData.lockKey) g' ∧
        ∀ rc g₂ g₃, R.served (.delete .unlock memc.userData.lockKey) rc g' g₂ → R.env g₂ g₃ →
          K (p.store h (some memc.unlocked)) g₃) :
    Cmd.Keeps R (fun _ p' g' => K p' g') (sUnlockSession h) p g := by
  refine keeps_deref_bind fun memc hm => ?_
  cases hl : memc.userData.isLocked with
  | false => exact fun g' he => hfree memc g' hm hl he
  | true =>
    intro g₁ h₁
    obtain ⟨hg, hs⟩ := hguard memc g₁ hm hl h₁
    exact ⟨hg, fun rc g₂ h₂ g₃ h₃ => hs rc g₂ g₃ h₂ h₃⟩

/-! ## callbacks -/

variable {K : Ret → Proc L → G → Prop} {savePath sid : Bytes}

theorem keeps_withModData (hR : Neutral R) {next : Nat → SessM L Ret}
    (hnone : p.modData = none → ∀ g', R.env g g' → K .failure p g')
    (hnext : ∀ h, p.modData = some h → Cmd.Keeps R K (next h) p g) :
    Cmd.Keeps R K (withModData next) p g := by
  unfold Cmd.Keeps
  cases hm : p.modData with
  | some h =>
    rw [withModData_of_some hm]
    exact hnext h hm
  | none =>
    rw [withModData_of_none hm]
    refine hR.keeps_bind (c := .warning _ _) rfl fun _ g' he => ?_
    exact (Cmd.keeps_pure _).mpr fun g'' he' => hnone hm g'' (R.trans _ _ _ he he')

/-- `PS_OPEN` makes no request about an item -/
theorem keeps_psOpen (hR : Neutral R) (hp : Sound p)
    (hK : ∀ ret p' g', Opens savePath p ret p' → R.env g g' → K ret p' g') :
    Cmd.Keeps R K (psOpen savePath) p g :=
  (hR.keeps (sat_psOpen hp.live) g).mono fun ret p' g' h => hK ret p' g' h.1 h.2

/-- the process at the end of `PS_CLOSE` -/
def Proc.closed (p : Proc L) (h : Nat) (memc : Memc L) : Proc L :=
  { (if memc.userData.isPersistent then p else p.store h none) with modData := none }

theorem Sound.closed (hp : Sound p) (hm : p.memory h = some memc) : Sound (p.closed h memc) := by
  unfold Proc.closed
  cases hper : memc.userData.isPersistent with
  | true => exact hp.setModData nofun
  | false =>
    have hnone : Sound ({ p with modData := none } : Proc L) := hp.setModData nofun
    refine hnone.destroy nofun fun key hl => ?_
    obtain ⟨memc', hm', hper'⟩ := hp.listed key h hl
    obtain rfl := Option.some.inj (hm.symm.trans hm')
    rw [hper] at hper'
    cases hper'

/-- `PS_CLOSE`, after its unlocking -/
theorem keeps_psClose (hR : Neutral R) {J : Proc L → G → Prop}
    (hnone : p.modData = none → ∀ g', R.env g g' → K .failure p g')
    (hunlock : ∀ h, p.modData = some h →
      Cmd.Keeps R (fun _ p' g' => J p' g') (sUnlockSession h) p g)
    (hK : ∀ h memc p₁ g₁ g₂, p.modData = some h → J p₁ g₁ → R.env g₁ g₂ →
      p₁.memory h = some memc → K .success (p₁.closed h memc) g₂) :
    Cmd.Keeps R K psClose p g := by
  refine keeps_withModData hR hnone fun h hmod => ?_
  refine (hunlock h hmod).bind fun _ p₁ g₁ hp₁ => ?_
  refine keeps_deref_bind fun memc hm => ?_
  have hlast := hK h memc p₁ g₁
  unfold Proc.closed at hlast
  cases hper : memc.userData.isPersistent with
  | true =>
    rw [hper] at hlast
    exact fun g₂ h₂ => hlast g₂ hmod hp₁ h₂ hm
  | false =>
    rw [hper] at hlast
    refine (hR.keeps sat_sDestroyModData g₁).bind fun _ p₂ g₂ h₂ => ?_
    obtain ⟨rfl, henv⟩ := h₂
    exact fun g₃ h₃ => hlast g₃ hmod hp₁ (R.trans _ _ _ henv h₃) hm

/-- `PS_DESTROY`: its own `delete`, and then the unlocking -/
theorem keeps_psDestroy (hR : Neutral R)
    (hnone : p.modData = none → ∀ g', R.env g g' → K .failure p g')
    (hdelete : ∀ h g₁, p.modData = some h → R.env g g₁ → R.guard (.delete .destroy sid) g₁ ∧
      ∀ rc g₂, R.served (.delete .destroy sid) rc g₁ g₂ →
        Cmd.Keeps R (fun _ p' g' => K .success p' g') (sUnlockSession h) p g₂)
    (hstable : ∀ p' g g', K .success p' g → R.env g g' → K .success p' g') :
    Cmd.Keeps R K (psDestroy sid) p g := by
  refine keeps_withModData hR hnone fun h hmod g₁ h₁ => ?_
  obtain ⟨hguard, hs⟩ := hdelete h g₁ hmod h₁
  refine ⟨hguard, fun rc g₂ h₂ => ?_⟩
  refine (hs rc g₂ h₂).bind fun _ p₁ g₃ hp₁ => ?_
  exact fun g₄ h₄ => hstable p₁ g₃ g₄ hp₁ h₄

/-- what `PS_READ` makes of the answer to its `get` -/
def readRet : Status × Bytes → Ret
  | (.success, payload) => .data payload
  | (.notfound, _) => .data []
  | _ => .failure

theorem keeps_readItem (hR : Neutral R) (hget : ∀ g₁, R.env g g₁ → R.guard (.get sid) g₁ ∧
    ∀ (r : Status × Bytes) g₂ g₃, R.served (.get sid) r g₁ g₂ → R.env g₂ g₃ →
      K (readRet r) p g₃) : Cmd.Keeps R K (readItem sid) p g := by
  intro g₁ h₁
  obtain ⟨hguard, hs⟩ := hget g₁ h₁
  refine ⟨hguard, fun r g₂ h₂ => ?_⟩
  obtain ⟨status, payload⟩ := (r : Status × Bytes)
  have hK := fun g₃ h₃ => hs (status, payload) g₂ g₃ h₂ h₃
  by_cases hsuccess : status = .success
  · subst hsuccess
    exact hK
  · by_cases hnotfound : status = .notfound
    · subst hnotfound
      exact hK
    · have hret : readRet (status, payload) = .failure := by
        cases status <;> first | exact absurd rfl hsuccess | exact absurd rfl hnotfound | rfl
      rw [hret] at hK
      cases status <;> first | exact absurd rfl hsuccess | exact absurd rfl hnotfound |
        exact hR.keeps_bind (c := .warning _ _) rfl fun _ g₃ h₃ => (Cmd.keeps_pure _).mpr
          fun g₄ h₄ => hK g₄ (R.trans _ _ _ h₃ h₄)

/-- `PS_READ`: the lock, if locking is on, and the `get` -/
theorem keeps_psRead (hR : Neutral R) {J : Nat → Bool → Proc L → G → Prop}
    (hnone : p.modData = none → ∀ g', R.env g g' → K .failure p g')
    (hlock : ∀ h, p.modData = some h → p.ini.lockEnabled = true →
      Cmd.Keeps R (J h) (sLockSession h sid) p g)
    (hunlocked : ∀ h p' g' g'', J h false p' g' → R.env g' g'' → K .failure p' g'')
    (hread : ∀ h p' g', p.modData = some h → J h true p' g' ∧ p.ini.lockEnabled = true ∨
      p' = p ∧ g' = g ∧ p.ini.lockEnabled = false → Cmd.Keeps R K (readItem sid) p' g') :
    Cmd.Keeps R K (psRead sid) p g := by
  refine keeps_withModData hR hnone fun h hmod => ?_
  rw [keeps_iniValues_bind]
  cases hon : p.ini.lockEnabled with
  | false => exact hread h p g hmod (.inr ⟨rfl, rfl, hon⟩)
  | true =>
    refine (hlock h hmod hon).bind fun locked p₁ g₁ hp₁ => ?_
    cases locked with
    | true => exact hread h p₁ g₁ hmod (.inl ⟨hp₁, hon⟩)
    | false =>
      refine hR.keeps_bind (c := .warning _ _) rfl fun _ g₂ h₂ => ?_
      exact (Cmd.keeps_pure _).mpr fun g₃ h₃ => hunlocked h p₁ g₁ g₃ hp₁ (R.trans _ _ _ h₂ h₃)

/-- a callback that leaves the process alone, and what its requests keep -/
theorem keeps_passive (hR : Neutral R) {I : G → Prop} (cb : Callback) (hcb : cb.Passive)
    (hstable : ∀ g g', I g → R.env g g' → I g')
    (hreq : ∀ c g, cb.Asks c → I g → R.guard c g ∧ ∀ r g', R.served c r g g' → I g')
    (hg : I g) : Cmd.Keeps R (fun _ p' g' => p' = p ∧ I g') (callback cb) p g := by
  refine (sat_passive cb hcb).keeps hstable (fun c g₁ hc hg₁ => ?_) hg
  rcases hc with hoff | hask
  · exact ⟨hR.guard c g₁ hoff, fun r g₂ hs => hstable _ _ hg₁ (hR.served c r g₁ g₂ hoff hs)⟩
  · exact hreq c g₁ hask hg₁

/-- a callback of a client: what it keeps, the client keeps -/
theorem keeps_code {rest : Client L → G → Prop} {cb : Callback} {past : List (Callback × Ret)}
    (hcb : Cmd.Keeps R (fun ret p' g' => rest (.live p' ((cb, ret) :: past)) g') (callback cb) p g)
    (hstable : ∀ s g g', rest s g → R.env g g' → rest s g') (hdead : ∀ g, rest .dead g) :
    (Client.code (.callback cb) (.live p past)).Keeps R rest g := by
  refine Prog.Keeps.bind hcb fun o g₁ ho => ?_
  cases o with
  | done ret p' => exact fun g₂ h₂ => hstable _ _ _ ho h₂
  | stop e p' => exact fun g₂ _ => hdead g₂

/-! ## where locks come from -/

/-- a handle that is locked was locked before, with the same key -/
def LocksFrom (p p' : Proc L) : Prop :=
  ∀ h memc', p'.memory h = some memc' → memc'.userData.isLocked = true →
    ∃ memc, p.memory h = some memc ∧ memc.userData.isLocked = true ∧
      memc.userData.lockKey = memc'.userData.lockKey

theorem LocksFrom.refl (p : Proc L) : LocksFrom p p := fun _ memc hm hl => ⟨memc, hm, hl, rfl⟩

theorem LocksFrom.trans {p'' : Proc L} (h₁ : LocksFrom p p') (h₂ : LocksFrom p' p'') :
    LocksFrom p p'' := fun h memc'' hm hl => by
  obtain ⟨memc', hm', hl', hk'⟩ := h₂ h memc'' hm hl
  obtain ⟨memc, hm, hl, hk⟩ := h₁ h memc' hm' hl'
  exact ⟨memc, hm, hl, hk.trans hk'⟩

/-- a handle changes, but not its lock; or it goes; or it is made, not locked -/
theorem LocksFrom.store {m : Option (Memc L)}
    (hm : ∀ memc', m = some memc' → memc'.userData.isLocked = true →
      ∃ memc, p.memory h = some memc ∧ memc.userData.isLocked = true ∧
        memc.userData.lockKey = memc'.userData.lockKey) : LocksFrom p (p.store h m) := by
  intro h' memc' hm' hl
  by_cases he : h' = h
  · subst he
    rw [store_memory_self] at hm'
    exact hm memc' hm' hl
  · rw [store_memory_of_ne p m he] at hm'
    exact ⟨memc', hm', hl, rfl⟩

theorem LocksFrom.closed (p : Proc L) (h : Nat) (memc : Memc L) :
    LocksFrom p (p.closed h memc) := by
  unfold Proc.closed
  cases memc.userData.isPersistent with
  | true => exact LocksFrom.refl p
  | false => exact LocksFrom.store (h := h) nofun

/-- `PS_OPEN` locks nothing -/
theorem Opens.locksFrom {ret : Ret} (ho : Opens savePath p ret p') : LocksFrom p p' := by
  cases ho with
  | refused => exact LocksFrom.refl p
  | @reused h memc memc' _ _ hm hconf =>
    refine LocksFrom.store (h := h) fun m he hl => ?_
    obtain rfl := Option.some.inj he
    exact ⟨memc, hm, hconf.isLocked.symm.trans hl, hconf.lockKey.symm⟩
  | @new p₁ _ _ hfrom hnew =>
    have h₁ : LocksFrom p p₁ := by
      rcases hfrom with rfl | ⟨h, -, -, rfl⟩
      · exact LocksFrom.refl _
      · exact LocksFrom.store (p := p) (h := h) nofun
    refine h₁.trans ?_
    cases hnew with
    | failed => exact LocksFrom.store (h := p₁.made) nofun
    | @opened verifyKey memc hconf =>
      have hstore : LocksFrom p₁ (p₁.store p₁.made (some memc)) := by
        refine LocksFrom.store fun m he hl => ?_
        obtain rfl := Option.some.inj he
        rw [hconf.isLocked] at hl
        cases hl
      cases p.ini.persistentEnabled with
      | true => exact hstore
      | false => exact hstore

/-! ## every callback -/

/-- a request that neither locks nor unlocks -/
def Call.Plain : Call → Prop
  | .add _ value _ => value ≠ lockValue
  | .delete .unlock _ => False
  | _ => True

theorem Callback.Asks.plain {cb : Callback} {c : Call} (hc : cb.Asks c) : c.Plain := by
  cases cb with
  | open_ _ => exact hc.elim
  | close => exact hc.elim
  | read _ => exact hc.elim
  | destroy _ => exact hc.elim
  | gc => exact hc.elim
  | write sid val maxlifetime =>
    obtain ⟨expiration, rfl⟩ := hc
    trivial
  | createSid =>
    obtain ⟨sid, expiration, rfl⟩ := hc
    exact nofun
  | validateSid sid =>
    rcases hc with rfl | rfl
    · trivial
    · trivial
  | updateTimestamp sid val maxlifetime =>
    obtain ⟨expiration, rfl⟩ := hc
    trivial

/-- `J` is kept by each request of a callback, whatever the callback -/
structure Keeper (R : Rules Call Ans G) (J : Proc L → G → Prop) : Prop where
  sound : ∀ p g, J p g → Sound p
  stable : ∀ p g g', J p g → R.env g g' → J p g'
  from_ : ∀ p p' g, J p g → Sound p' → LocksFrom p p' → J p' g
  plain : ∀ p c g, c.Plain → J p g → R.guard c g ∧ ∀ r g', R.served c r g g' → J p g'
  add : ∀ h lockKey, AddKeeps R J h lockKey
  unlock : ∀ p g h memc, J p g → p.memory h = some memc → memc.userData.isLocked = true →
    R.guard (.delete .unlock memc.userData.lockKey) g ∧
      ∀ rc g', R.served (.delete .unlock memc.userData.lockKey) rc g g' →
        J (p.store h (some memc.unlocked)) g'

theorem Keeper.sUnlockSession {J : Proc L → G → Prop} (hJ : Keeper R J) (hp : J p g) :
    Cmd.Keeps R (fun _ p' g' => J p' g') (Session.sUnlockSession h) p g := by
  refine keeps_sUnlockSession (fun memc g' _ _ he => hJ.stable p g g' hp he)
    fun memc g₁ hm hl he => ?_
  obtain ⟨hguard, hserved⟩ := hJ.unlock p g₁ h memc (hJ.stable p g g₁ hp he) hm hl
  exact ⟨hguard, fun rc g₂ g₃ hs he => hJ.stable _ _ _ (hserved rc g₂ hs) he⟩

/-- **What each request keeps, every callback keeps.** -/
theorem Keeper.callback (hR : Neutral R) {J : Proc L → G → Prop} (hJ : Keeper R J) (hp : J p g)
    (cb : Callback) : Cmd.Keeps R (fun _ p' g' => J p' g') (Session.callback cb) p g := by
  have hpassive : cb.Passive →
      Cmd.Keeps R (fun _ p' g' => J p' g') (Session.callback cb) p g := fun hcb =>
    (keeps_passive hR cb hcb (I := J p) (hJ.stable p)
      (fun c g₁ hc h₁ => hJ.plain p c g₁ hc.plain h₁) hp).mono fun _ p' g' h => h.1 ▸ h.2
  cases cb with
  | open_ savePath =>
    refine keeps_psOpen hR (hJ.sound p g hp) fun ret p' g' ho he => ?_
    have hsound := (hJ.sound p g hp).opens ho
    exact hJ.stable p' g g' (hJ.from_ p p' g hp hsound ho.locksFrom) he
  | close =>
    refine keeps_psClose hR (fun _ g' he => hJ.stable p g g' hp he)
      (fun h _ => hJ.sUnlockSession hp) fun h memc p₁ g₁ g₂ hmod hp₁ he hm => ?_
    have hsound := (hJ.sound p₁ g₁ hp₁).closed hm
    exact hJ.stable _ g₁ g₂ (hJ.from_ p₁ _ g₁ hp₁ hsound (LocksFrom.closed p₁ h memc)) he
  | read sid =>
    refine keeps_psRead hR (J := fun h => Flagged J h) (fun _ g' he => hJ.stable p g g' hp he)
      (fun h _ _ => keeps_sLockSession hR (hJ.add h _) hp)
      (fun h p' g' g'' hj he => hJ.stable p' g' g'' hj.1 he) fun h p' g' _ hj => ?_
    have hp' : J p' g' := by
      rcases hj with ⟨hj, -⟩ | ⟨rfl, rfl, -⟩
      · exact hj.1
      · exact hp
    refine keeps_readItem hR fun g₁ h₁ => ?_
    obtain ⟨hguard, hserved⟩ := hJ.plain p' (.get sid) g₁ trivial (hJ.stable p' g' g₁ hp' h₁)
    exact ⟨hguard, fun r g₂ g₃ h₂ h₃ => hJ.stable p' g₂ g₃ (hserved r g₂ h₂) h₃⟩
  | destroy sid =>
    refine keeps_psDestroy hR (fun _ g' he => hJ.stable p g g' hp he) (fun h g₁ _ he => ?_)
      fun p' g g' hp he => hJ.stable p' g g' hp he
    obtain ⟨hguard, hserved⟩ := hJ.plain p (.delete .destroy sid) g₁ trivial (hJ.stable p g g₁ hp he)
    exact ⟨hguard, fun rc g₂ hs => hJ.sUnlockSession (hserved rc g₂ hs)⟩
  | write sid val maxlifetime => exact hpassive trivial
  | gc => exact hpassive trivial
  | createSid => exact hpassive trivial
  | validateSid sid => exact hpassive trivial
  | updateTimestamp sid val maxlifetime => exact hpassive trivial

end

end PhpMemcached.Session
