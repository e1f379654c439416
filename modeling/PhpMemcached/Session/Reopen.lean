import PhpMemcached.Keys
import PhpMemcached.Session.Sound

/-!
# Session handles that are used again

* `Documented`             what is relied on of `memcached_behavior_set` and `memcached_behavior_get`;
* `LikeNew`                settings that the INI values turn into those of a new handle
                           (`applied_likeNew_iff`);
* `Process`, `Turn`        the runs of a process: INI values change, callbacks are called;
* `reopened_like_new`      in a run in which every handle that is used again is `LikeNew`, a session
                           that is opened has the settings and the namespace of a new handle.
-/

namespace PhpMemcached.Session
open Ascii Requests

/-! ## settings -/

/-- the two behaviours that select the hash -/
def IsHash (flag : Behavior) : Prop := flag = .ketama ∨ flag = .ketamaWeighted

instance : DecidablePred IsHash := fun flag =>
  inferInstanceAs (Decidable (flag = .ketama ∨ flag = .ketamaWeighted))

/-- the behaviours `s_configure_from_ini_values` sets -/
def configured : List Behavior :=
  [.binaryProtocol, .tcpNodelay, .ketama, .ketamaWeighted, .serverFailureLimit, .numberOfReplicas,
    .randomizeReplicaRead, .removeFailedServers, .connectTimeout]

/-- the behaviours of `l` that select the hash -/
def hashOf (l : List (Behavior × UInt64)) : List (Behavior × UInt64) :=
  l.filter fun x => IsHash x.1

/-- what is relied on: a behaviour that is set has a value that does not depend on the one before;
to set the value it has changes nothing of it; a behaviour leaves the others alone, except for the
two that select the hash, which go together -/
structure Documented (L : Library) : Prop where
  overwrites : ∀ s s' flag data, L.get (L.set flag data s) flag = L.get (L.set flag data s') flag
  keeps : ∀ s flag, L.get (L.set flag (L.get s flag) s) flag = L.get s flag
  frame : ∀ s flag data flag', flag' ≠ flag → ¬ (IsHash flag ∧ IsHash flag') →
    flag' ∈ configured → L.get (L.set flag data s) flag' = L.get s flag'
  hash : ∀ s s' flag data, IsHash flag → (∀ b, IsHash b → L.get s b = L.get s' b) →
    ∀ b, IsHash b → L.get (L.set flag data s) b = L.get (L.set flag data s') b

section
variable {L : Library} {s s' : L.Settings} {x : Behavior × UInt64} {b : Behavior}
  {l : List (Behavior × UInt64)}

/-- the value of a behaviour that has been set does not depend on the one before -/
theorem get_checked_self (hL : Documented L) (s s' : L.Settings) (x : Behavior × UInt64) :
    L.get (checked s x) x.1 = L.get (checked s' x) x.1 := by
  unfold checked
  by_cases h : x.2 ≠ L.get s x.1
  · rw [if_pos h]
    by_cases h' : x.2 ≠ L.get s' x.1
    · rw [if_pos h']
      exact hL.overwrites s s' x.1 x.2
    · rw [if_neg h', hL.overwrites s s' x.1 x.2, not_not.mp h']
      exact hL.keeps s' x.1
  · rw [if_neg h]
    by_cases h' : x.2 ≠ L.get s' x.1
    · rw [if_pos h', hL.overwrites s' s x.1 x.2, not_not.mp h]
      exact (hL.keeps s x.1).symm
    · rw [if_neg h', ← not_not.mp h, ← not_not.mp h']

theorem get_checked_of_ne (hL : Documented L) (s : L.Settings) (hne : b ≠ x.1)
    (hhash : ¬ (IsHash x.1 ∧ IsHash b)) (hb : b ∈ configured) :
    L.get (checked s x) b = L.get s b := by
  unfold checked
  split
  · exact hL.frame s x.1 x.2 b hne hhash hb
  · rfl

/-- a behaviour that does not select the hash agrees after the INI values are applied if they set
it, or it agreed before -/
theorem get_applied_iff (hL : Documented L) (hb : b ∈ configured) (hhash : ¬ IsHash b)
    (l : List (Behavior × UInt64)) (s s' : L.Settings) :
    L.get (applied s l) b = L.get (applied s' l) b ↔ b ∈ l.map Prod.fst ∨ L.get s b = L.get s' b := by
  induction l generalizing s s' with
  | nil => exact ⟨.inr, fun h => h.resolve_left List.not_mem_nil⟩
  | cons x l ih =>
    show L.get (applied (checked s x) l) b = L.get (applied (checked s' x) l) b ↔ _
    rw [ih, List.map_cons, List.mem_cons]
    by_cases hx : b = x.1
    · subst hx
      simp only [true_or, get_checked_self hL s s' x, or_true]
    · rw [get_checked_of_ne hL s hx (fun h => hhash h.2) hb,
        get_checked_of_ne hL s' hx (fun h => hhash h.2) hb]
      simp only [hx, false_or]

theorem mem_configured_of_isHash (hb : IsHash b) : b ∈ configured := by
  rcases hb with rfl | rfl <;> decide

/-- the hash after a check depends on the hash before it -/
theorem hash_checked (hL : Documented L) (h : ∀ b, IsHash b → L.get s b = L.get s' b)
    (x : Behavior × UInt64) : ∀ b, IsHash b → L.get (checked s x) b = L.get (checked s' x) b := by
  intro b hb
  by_cases hx : IsHash x.1
  · unfold checked
    rw [h x.1 hx]
    split
    · exact hL.hash s s' x.1 x.2 hx h b hb
    · exact h b hb
  · have hne : b ≠ x.1 := fun he => hx (he ▸ hb)
    rw [get_checked_of_ne hL s hne (fun hc => hx hc.1) (mem_configured_of_isHash hb),
      get_checked_of_ne hL s' hne (fun hc => hx hc.1) (mem_configured_of_isHash hb)]
    exact h b hb

theorem hash_applied (hL : Documented L) (l : List (Behavior × UInt64))
    (h : ∀ b, IsHash b → L.get s b = L.get s' b) :
    ∀ b, IsHash b → L.get (applied s l) b = L.get (applied s' l) b := by
  induction l generalizing s s' with
  | nil => exact h
  | cons x l ih => exact ih (hash_checked hL h x)

/-- the hash is a matter of the behaviours that select it -/
theorem hash_applied_filter (hL : Documented L) (l : List (Behavior × UInt64))
    (h : ∀ b, IsHash b → L.get s b = L.get s' b) : ∀ b, IsHash b →
      L.get (applied s l) b = L.get (applied s' (hashOf l)) b := by
  unfold hashOf
  induction l generalizing s s' with
  | nil => exact h
  | cons x l ih =>
    by_cases hx : IsHash x.1
    · rw [List.filter_cons, if_pos (decide_eq_true hx)]
      exact ih (hash_checked hL h x)
    · rw [List.filter_cons, if_neg (fun hc => hx (of_decide_eq_true hc))]
      refine ih fun b hb => ?_
      have hne : b ≠ x.1 := fun he => hx (he ▸ hb)
      rw [get_checked_of_ne hL s hne (fun hc => hx hc.1) (mem_configured_of_isHash hb)]
      exact h b hb

end

theorem get_hashOf {L : Library} (hL : Documented L) (s : L.Settings)
    (l : List (Behavior × UInt64)) {b : Behavior} (hb : IsHash b) :
    L.get (applied s l) b = L.get (applied s (hashOf l)) b :=
  hash_applied_filter hL l (fun _ _ => rfl) b hb

/-- settings that the INI values turn into those of a new handle: each behaviour they leave alone is
as in a new handle, and the hash they select is selected as in one -/
structure LikeNew (L : Library) (ini : Ini) (s : L.Settings) : Prop where
  others : ∀ b ∈ configured, ¬ IsHash b → b ∉ ini.wanted.map Prod.fst →
    L.get s b = L.get L.initial b
  hash : ∀ b, IsHash b →
    L.get (applied s (hashOf ini.wanted)) b = L.get (applied L.initial (hashOf ini.wanted)) b

/-- **Settings become those of a new handle exactly if they are `LikeNew`.** -/
theorem applied_likeNew_iff {L : Library} (hL : Documented L) (ini : Ini) (s : L.Settings) :
    (∀ b ∈ configured,
        L.get (applied s ini.wanted) b = L.get (applied L.initial ini.wanted) b) ↔
      LikeNew L ini s := by
  constructor
  · intro h
    constructor
    · intro b hb hhash hnot
      exact ((get_applied_iff hL hb hhash _ _ _).mp (h b hb)).resolve_left hnot
    · intro b hhash
      rw [← get_hashOf hL s ini.wanted hhash, ← get_hashOf hL L.initial ini.wanted hhash]
      exact h b (mem_configured_of_isHash hhash)
  · intro h b hb
    by_cases hhash : IsHash b
    · rw [get_hashOf hL s ini.wanted hhash, get_hashOf hL L.initial ini.wanted hhash]
      exact h.hash b hhash
    · refine (get_applied_iff hL hb hhash _ _ _).mpr ?_
      by_cases hw : b ∈ ini.wanted.map Prod.fst
      · exact .inl hw
      · exact .inr (h.others b hb hhash hw)

/-! ## runs of a process -/

/-- `OnUpdateSessionPrefixString`: the prefixes that are accepted -/
def onUpdateSessionPrefixString (newValue : Bytes) : Bool :=
  newValue.length = 0 || (newValue.length ≤ memcachedMaxKey && sMemcValidKeyAscii newValue 1)

/-- a process, and the callback that returned last, with the INI values it found -/
structure Process (L : Library) where
  proc : Proc L
  last : Option (Ini × Callback × Ret)

inductive Turn where
  | setIni (ini : Ini)
  | callback (cb : Callback)

section
variable {L : Library}

/-- INI values are changed, or a callback is called, whatever its requests are answered -/
def Process.Next (s : Process L) : Turn → Process L → Prop
  | .setIni ini, s' => onUpdateSessionPrefixString ini.sessPrefix = true ∧
      s' = { s with proc := { s.proc with ini := ini } }
  | .callback cb, s' => ∃ (σ : Type) (h : Handler Call Ans σ) (w : σ) (ret : Ret) (p' : Proc L),
      (Cmd.exec h (Session.callback cb) s.proc w).1 = .done ret p' ∧
        s' = ⟨p', some (s.proc.ini, cb, ret)⟩

/-- the handle of the module data is configured as a new handle is from `ini`: its settings, and the
prefix as its namespace -/
def LikeNewHandle (ini : Ini) (p : Proc L) : Prop :=
  ∃ h memc, p.modData = some h ∧ p.memory h = some memc ∧
    (∀ b ∈ configured,
      L.get memc.settings b = L.get (applied L.initial ini.wanted) b) ∧
    memc.itemNamespace = if ini.sessPrefix = [] then none else some ini.sessPrefix

/-- a handle that is used again for a session is one the INI values turn into a new one; they have a
prefix that libmemcached takes, or none, and then the handle has no namespace -/
def ReopensLikeNew (s : Process L) : Turn → Prop
  | .callback (.open_ savePath) => s.proc.ini.persistentEnabled = true →
      (s.proc.ini.sessPrefix ≠ [] → L.takesNamespace s.proc.ini.sessPrefix = true) ∧
      ∀ h memc, s.proc.persistentList (plistKeyOf savePath) = some (.memc h) →
        s.proc.memory h = some memc → LikeNew L s.proc.ini memc.settings ∧
          (s.proc.ini.sessPrefix = [] → memc.itemNamespace = none)
  | _ => True

variable {p p' : Proc L} {ini : Ini} {memc memc' : Memc L} {h : Nat} {savePath : Bytes}

/-- the settings of a handle that was just made -/
theorem likeNew_newMemc (hL : Documented L) (ini : Ini) (persistent verifyKey : Bool) :
    LikeNew L ini (newMemc (L := L) persistent verifyKey).settings := by
  have hget : ∀ b ∈ configured,
      L.get (newMemc (L := L) persistent verifyKey).settings b = L.get L.initial b := by
    intro b hb
    cases verifyKey with
    | false => rfl
    | true =>
      have hne : b ≠ .verifyKey := fun he => absurd hb (by rw [he]; decide)
      exact hL.frame L.initial .verifyKey 1 b hne (fun hc => absurd hc.1 (by decide)) hb
  constructor
  · exact fun b hb _ _ => hget b hb
  · exact hash_applied hL _ fun b hb => hget b (mem_configured_of_isHash hb)

/-- a handle whose settings are `LikeNew` is configured like a new one -/
theorem Configures.likeNew (hL : Documented L) (hconf : Configures ini memc memc')
    (hlike : LikeNew L ini memc.settings)
    (htakes : ini.sessPrefix ≠ [] → L.takesNamespace ini.sessPrefix = true)
    (hnone : ini.sessPrefix = [] → memc.itemNamespace = none) (hmod : p.modData = some h)
    (hm : p.memory h = some memc') : LikeNewHandle ini p := by
  refine ⟨h, memc', hmod, hm, ?_, ?_⟩
  · rw [hconf.settings]
    exact (applied_likeNew_iff hL ini memc.settings).mpr hlike
  · rw [hconf.itemNamespace]
    unfold namespaceAfter
    by_cases hp : ini.sessPrefix = []
    · rw [if_neg (fun hc => hc.1 hp), if_pos hp, hnone hp]
    · rw [if_pos ⟨hp, htakes hp⟩, if_neg hp]

/-- a session that is opened: the step -/
theorem Opens.likeNew (hL : Documented L) {s : Process L} {ret : Ret}
    (hok : ReopensLikeNew s (.callback (.open_ savePath)))
    (ho : Opens savePath s.proc ret p') (hret : ret = .success)
    (hper : s.proc.ini.persistentEnabled = true) : LikeNewHandle s.proc.ini p' := by
  obtain ⟨htakes, hreused⟩ := hok hper
  cases ho with
  | refused => cases hret
  | @reused h memc memc' _ hl hm hconf =>
    obtain ⟨hlike, hnone⟩ := hreused h memc hl hm
    exact hconf.likeNew hL hlike htakes hnone rfl (store_memory_self _ _ _)
  | @new p₁ _ _ hfrom hnew =>
    have hini : p₁.ini = s.proc.ini := by
      rcases hfrom with rfl | ⟨h, -, -, rfl⟩
      · rfl
      · rfl
    cases hnew with
    | failed => cases hret
    | @opened verifyKey memc hconf =>
      rw [hini] at hconf
      have hlike := likeNew_newMemc hL s.proc.ini s.proc.ini.persistentEnabled verifyKey
      refine hconf.likeNew (h := p₁.made) hL hlike htakes (fun _ => rfl) rfl ?_
      rw [hper]
      exact store_memory_self _ _ _

/-- the handles are sound, and a session that was opened last on a persistent handle has the settings
of a new one -/
structure Process.Ok (s : Process L) : Prop where
  sound : Sound s.proc
  opened : ∀ ini savePath, s.last = some (ini, .open_ savePath, .success) →
    ini.persistentEnabled = true → LikeNewHandle ini s.proc

theorem Process.Ok.next (hL : Documented L) {s s' : Process L} {turn : Turn} (hs : s.Ok)
    (hok : ReopensLikeNew s turn) (hnext : s.Next turn s') : s'.Ok := by
  cases turn with
  | setIni ini =>
    obtain ⟨-, rfl⟩ := hnext
    exact ⟨⟨hs.sound.modData, hs.sound.listed, hs.sound.distinct, hs.sound.fresh⟩, hs.opened⟩
  | callback cb =>
    obtain ⟨σ, h, w, ret, p', hx, rfl⟩ := hnext
    have heff : Effect s.proc cb ret p' :=
      (sat_callback hs.sound.live cb).exec (Prod.ext hx rfl)
    refine ⟨hs.sound.effect heff, fun ini savePath hlast hper => ?_⟩
    cases hlast
    have ho : Opens savePath s.proc .success p' :=
      (sat_psOpen hs.sound.live).exec (Prod.ext hx rfl)
    exact ho.likeNew hL hok rfl hper

/-- **A session handle that is used again is configured like a new one**, in every run in which the
handles that are used again are ones the INI values turn into new ones. -/
theorem reopened_like_new (hL : Documented L) (ini₀ : Ini) {s : Process L}
    (hrun : Runs Process.Next ReopensLikeNew ⟨newProc L ini₀, none⟩ s) (ini : Ini)
    (savePath : Bytes) (hlast : s.last = some (ini, .open_ savePath, .success))
    (hper : ini.persistentEnabled = true) : LikeNewHandle ini s.proc := by
  have hs : s.Ok := hrun.invariant ⟨sound_newProc L ini₀, nofun⟩
    fun _ _ _ hs hok hnext => hs.next hL hok hnext
  exact hs.opened ini savePath hlast hper

end

/-! ## a prefix that is taken away -/

theorem get_set_plain (s : Behavior → UInt64) (flag : Behavior) (data : UInt64) (b : Behavior) :
    plainLibrary.get (plainLibrary.set flag data s) b = if b = flag then data else s b :=
  Function.update_apply s flag data b

theorem documented_plainLibrary : Documented plainLibrary where
  overwrites s s' flag data := by
    have h := get_set_plain s flag data flag
    have h' := get_set_plain s' flag data flag
    rw [if_pos rfl] at h h'
    exact h.trans h'.symm
  keeps s flag := by
    have h := get_set_plain s flag (plainLibrary.get s flag) flag
    rw [if_pos rfl] at h
    exact h
  frame s flag data b hne _ _ := by
    have h := get_set_plain s flag data b
    rw [if_neg hne] at h
    exact h
  hash s s' flag data _ h b hb := by
    have h₁ := get_set_plain s flag data b
    have h₂ := get_set_plain s' flag data b
    have hb' : (if b = flag then data else s b) = if b = flag then data else s' b := by
      split
      · rfl
      · exact h b hb
    exact h₁.trans (hb'.trans h₂.symm)

/-- answers that let everything succeed -/
def obliging : Handler Call Ans Unit := fun c w => (goodAns c, w)

def iniPersistent : Ini := { iniDefaults with persistentEnabled := true }

/-- the process after `PS_OPEN("h")` -/
def reopened (p : Proc plainLibrary) : Process plainLibrary :=
  ⟨(Cmd.exec obliging (callback (.open_ (ascii ['h']))) p ()).1.state,
    some (p.ini, .open_ (ascii ['h']), .success)⟩

theorem next_reopened {s : Process plainLibrary}
    (hx : Cmd.exec obliging (callback (.open_ (ascii ['h']))) s.proc () =
      (.done .success (reopened s.proc).proc, ())) :
    s.Next (.callback (.open_ (ascii ['h']))) (reopened s.proc) :=
  ⟨Unit, obliging, (), .success, _, congrArg Prod.fst hx, rfl⟩

def openedOnce : Process plainLibrary := reopened (newProc plainLibrary iniPersistent)

/-- the prefix is set to the empty string -/
def unprefixed : Process plainLibrary :=
  { openedOnce with proc := { openedOnce.proc with ini := { iniPersistent with sessPrefix := [] } } }

/-- the handle keeps the prefix that is gone from the INI values -/
theorem reopened_keeps_prefix :
    ∃ s : Process plainLibrary, Runs Process.Next (fun _ _ => True)
        ⟨newProc plainLibrary iniPersistent, none⟩ s ∧
      s.last = some ({ iniPersistent with sessPrefix := [] }, .open_ (ascii ['h']), .success) ∧
      s.proc.ini = { iniPersistent with sessPrefix := [] } ∧
      ¬ LikeNewHandle { iniPersistent with sessPrefix := [] } s.proc := by
  have h₁ : Process.Next ⟨newProc plainLibrary iniPersistent, none⟩ _ openedOnce :=
    next_reopened rfl
  have h₂ : openedOnce.Next (.setIni { iniPersistent with sessPrefix := [] }) unprefixed :=
    ⟨rfl, rfl⟩
  have h₃ : unprefixed.Next _ (reopened unprefixed.proc) := next_reopened rfl
  refine ⟨reopened unprefixed.proc, ?_, rfl, rfl, ?_⟩
  · exact ((Runs.snoc .refl trivial h₁).snoc trivial h₂).snoc trivial h₃
  · rintro ⟨h, memc, hmod, hm, -, hnamespace⟩
    cases hmod
    have hkept : some (some (ascii "memc.sess.key.".toList)) = some memc.itemNamespace :=
      congrArg (Option.map Memc.itemNamespace) hm
    rw [hnamespace] at hkept
    cases hkept

/-- a handle that is opened again with the same INI values -/
theorem reopened_like_new_again : LikeNewHandle iniPersistent (reopened openedOnce.proc).proc := by
  have h₁ : Process.Next ⟨newProc plainLibrary iniPersistent, none⟩ _ openedOnce :=
    next_reopened rfl
  have h₂ : openedOnce.Next _ (reopened openedOnce.proc) := next_reopened rfl
  have hok₁ : ReopensLikeNew (⟨newProc plainLibrary iniPersistent, none⟩ : Process plainLibrary)
      (.callback (.open_ (ascii ['h']))) := fun _ => ⟨fun _ => rfl, nofun⟩
  have hok₂ : ReopensLikeNew openedOnce (.callback (.open_ (ascii ['h']))) := by
    refine fun _ => ⟨fun _ => rfl, fun h memc hl hm => ⟨?_, nofun⟩⟩
    cases hl
    cases hm
    constructor
    · decide
    · rintro b (rfl | rfl)
      · rfl
      · rfl
  exact reopened_like_new documented_plainLibrary iniPersistent
    ((Runs.snoc .refl hok₁ h₁).snoc hok₂ h₂) iniPersistent (ascii ['h']) rfl rfl

end PhpMemcached.Session
