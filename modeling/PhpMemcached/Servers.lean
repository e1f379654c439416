import PhpMemcached.Ops

/-!
# The servers of a client

* `Host`, `HostsCall`, `HostsM`   servers as they are given to libmemcached, and its requests;
* `memcachedAddServer`, `memcachedAddServers`, `memcachedGetServerList`, `memcachedGetServerByKey`,
  `memcachedResetServerList`;
* `hostOf`                  the server an entry of an array names;
* `ran_memcachedAddServers` what `addServers` takes: the entries after the last one that
                            libmemcached refused;
* `PoolOf`                  a libmemcached that keeps a list of servers;
* `serverList_of_calls`     after any calls `getServerList` gives the servers that were taken.
-/

namespace PhpMemcached
open Ascii Requests

/-! ## requests -/

/-- the arguments of libmemcached: a C string, an `in_port_t`, an `uint32_t` -/
structure Host where
  host : Bytes
  port : UInt16
  weight : UInt32
  deriving DecidableEq

def Host.of (host : Bytes) (port weight : Int64) : Host :=
  ⟨cString host, port.toUInt64.toUInt16, weight.toUInt64.toUInt32⟩

/-- a `memcached_server_instance_st` that the callbacks of the list are called on -/
structure Listed where
  name : Bytes
  port : UInt16
  type : Bytes
  deriving DecidableEq

/-- `memcached_server_list_append_with_weight` and its like; NULL is the empty list -/
inductive HostsCall where
  | serverAdd (memc : Memc) (host : Host)
  | listAppend (list : List Host) (host : Host)
  | serverPush (memc : Memc) (list : List Host)
  | serverCursor (memc : Memc)
  | serverByKey (memc : Memc) (serverKey : Bytes)
  | serversReset (memc : Memc)

/-- what libmemcached returns, with the number of servers the client then has -/
def HostsAns : HostsCall → Type
  | .serverAdd .. => Status × Nat
  | .listAppend .. => Status × List Host
  | .serverPush .. => Status × Nat
  | .serverCursor _ => List Listed
  | .serverByKey .. => Except Status Listed
  | .serversReset _ => Nat

abbrev HostsM := Cmd (Call ⊕ HostsCall) (Sum.elim Ans HostsAns) Abort State

abbrev askServers (c : HostsCall) : HostsM (HostsAns c) :=
  Cmd.req (ι := Call ⊕ HostsCall) (Sum.inr c)

def setServerCount (n : Nat) : HostsM Unit :=
  Cmd.modify fun s => { s with memc := { s.memc with serverCount := n } }

/-! ## the methods -/

/-- `Memcached::addServer` -/
def memcachedAddServer (host : Bytes) (port weight : Int64) : HostsM Zval := do
  Cmd.inl (sMemcSetStatus .success 0)
  let s ← Cmd.get
  let r : Status × Nat ← askServers (.serverAdd s.memc (.of host port weight))
  setServerCount r.2
  let ok ← Cmd.inl (sMemcStatusHandleResultCode r.1)
  pure (.bool ok)

section
variable (zend : Zend)

/-- the end of an entry that is not taken: `i` is counted up already -/
def couldNotAdd (i : Nat) : HostsM Unit :=
  Cmd.inl (phpWarning ("could not add entry #" ++ toString (i + 1 + 1) ++ " to the server list"))

/-- the weight of an entry; `z_weight` is left from an earlier one where there is none to move to -/
def weightOf (i : Nat) (zWeight : Option Zval) (entry : HashTable) :
    HostsM (Int64 × Option Zval) :=
  if entry.length > 2 then do
    let zWeight ← match entry[2]? with
      | some e => pure (some e.2)
      | none => do
        Cmd.inl (phpWarning ("could not get server weight for entry #" ++ toString (i + 1)))
        pure zWeight
    match zWeight with
    | some w => pure (zvalGetLong zend w, zWeight)
    | none => Cmd.stop .nullDeref
  else pure (0, zWeight)

/-- one entry: the list and `z_weight` after it -/
def addServersEntry (i : Nat) (list : List Host) (zWeight : Option Zval) :
    Zval → HostsM (List Host × Option Zval)
  | .arr entry =>
    if entry.length > 1 then
      match entry[0]? with
      | none => do
        Cmd.inl (phpWarning ("could not get server host for entry #" ++ toString (i + 1)))
        pure (list, zWeight)
      | some zHost =>
        match entry[1]? with
        | none => do
          Cmd.inl (phpWarning ("could not get server port for entry #" ++ toString (i + 1)))
          pure (list, zWeight)
        | some zPort => do
          let weight ← weightOf zend i zWeight entry
          let r : Status × List Host ← askServers (.listAppend list
            (.of (zvalGetString zend zHost.2) (zvalGetLong zend zPort.2) weight.1))
          let ok ← Cmd.inl (sMemcStatusHandleResultCode r.1)
          Cmd.when (!ok) (couldNotAdd i)
          pure (r.2, weight.2)
    else do
      couldNotAdd i
      pure (list, zWeight)
  | _ => do
    Cmd.inl (phpWarning ("server list entry #" ++ toString (i + 1) ++ " is not an array"))
    pure (list, zWeight)

/-- the loop of `addServers` -/
def addServersLoop : List Zval → Nat → List Host → Option Zval → HostsM (List Host)
  | [], _, list, _ => pure list
  | entry :: servers, i, list, zWeight => do
    let r ← addServersEntry zend i list zWeight entry
    addServersLoop servers (i + 1) r.1 r.2

/-- `Memcached::addServers` -/
def memcachedAddServers (servers : HashTable) : HostsM Zval := do
  Cmd.inl (sMemcSetStatus .success 0)
  let list ← addServersLoop zend (servers.map Prod.snd) 0 [] none
  let s ← Cmd.get
  let r : Status × Nat ← askServers (.serverPush s.memc list)
  setServerCount r.2
  let ok ← Cmd.inl (sMemcStatusHandleResultCode r.1)
  pure (.bool ok)

end

/-- `s_server_cursor_list_servers_cb` -/
def sServerCursorListServersCb (ret : HashTable) (instance_ : Listed) : HashTable :=
  addNextIndexZval ret (.arr [(.str (ascii ['h', 'o', 's', 't']), .str instance_.name),
    (.str (ascii ['p', 'o', 'r', 't']), .long (Int64.ofNat instance_.port.toNat)),
    (.str (ascii ['t', 'y', 'p', 'e']), .str instance_.type)])

/-- `Memcached::getServerList` -/
def memcachedGetServerList : HostsM Zval := do
  let s ← Cmd.get
  let r : List Listed ← askServers (.serverCursor s.memc)
  pure (.arr (r.foldl sServerCursorListServersCb []))

/-- the end of `getServerByKey`: the server, or the code of the error -/
def serverByKeyEnd : Except Status Listed → HostsM Zval
  | .ok server => pure (.arr [(.str (ascii ['h', 'o', 's', 't']), .str server.name),
      (.str (ascii ['p', 'o', 'r', 't']), .long (Int64.ofNat server.port.toNat)),
      (.str (ascii ['w', 'e', 'i', 'g', 'h', 't']), .long 0)])
  | .error error => do
    let _ ← Cmd.inl (sMemcStatusHandleResultCode error)
    pure (.bool false)

/-- `Memcached::getServerByKey` -/
def memcachedGetServerByKey (serverKey : Bytes) : HostsM Zval := do
  Cmd.inl (sMemcSetStatus .success 0)
  let s ← Cmd.get
  let r : Except Status Listed ← askServers (.serverByKey s.memc serverKey)
  serverByKeyEnd r

/-- `Memcached::resetServerList` -/
def memcachedResetServerList : HostsM Zval := do
  let s ← Cmd.get
  let n : Nat ← askServers (.serversReset s.memc)
  setServerCount n
  pure (.bool true)

/-! ## what is seen of a call -/

/-- a request of interest, and whether it was refused -/
inductive Seen where
  | added (host : Host) (ok : Bool)
  | appended (host : Host) (ok : Bool)
  | pushed (ok : Bool)
  | warned (text : String)
  deriving DecidableEq

/-- no error -/
def Status.good (status : Status) : Bool := !sMemcachedReturnIsError status true

def seen : Entry (Call ⊕ HostsCall) (Sum.elim Ans HostsAns) → Option Seen
  | ⟨.inl (.warning text), _⟩ => some (.warned text)
  | ⟨.inr (.serverAdd _ host), r⟩ => some (.added host (Status.good (Prod.fst (β := Nat) r)))
  | ⟨.inr (.listAppend _ host), r⟩ =>
    some (.appended host (Status.good (Prod.fst (β := List Host) r)))
  | ⟨.inr (.serverPush ..), r⟩ => some (.pushed (Status.good (Prod.fst (β := Nat) r)))
  | _ => none

section
variable (zend : Zend)

/-- the server that an entry names -/
def hostOf : Zval → Option Host
  | .arr (zHost :: zPort :: rest) => some (.of (zvalGetString zend zHost.2)
      (zvalGetLong zend zPort.2) ((rest.head?.map fun e => zvalGetLong zend e.2).getD 0))
  | _ => none

/-- the warning for an entry that is not taken; of an array the number is that of the next entry -/
def entryWarning (i : Nat) : Zval → String
  | .arr _ => "could not add entry #" ++ toString (i + 1 + 1) ++ " to the server list"
  | _ => "server list entry #" ++ toString (i + 1) ++ " is not an array"

/-- an entry, if it names a server with what came of that -/
def entrySeen (i : Nat) (entry : Zval) (ok : Bool) : List Seen :=
  match hostOf zend entry with
  | some host => .appended host ok :: if ok then [] else [.warned (entryWarning i entry)]
  | none => [.warned (entryWarning i entry)]

def entriesSeen : Nat → List Zval → List Bool → List Seen
  | i, entry :: entries, ok :: oks =>
    entrySeen zend i entry ok ++ entriesSeen (i + 1) entries oks
  | _, _, _ => []

/-- the servers named, and what came of them -/
def named (entries : List Zval) (oks : List Bool) : List (Host × Bool) :=
  (entries.zip oks).filterMap fun e => (hostOf zend e.1).map (·, e.2)

end

/-- those after the last one that was refused -/
def sinceRefused : List (Host × Bool) → List Host
  | [] => []
  | (host, ok) :: hosts =>
    if ok && hosts.all Prod.snd then host :: sinceRefused hosts else sinceRefused hosts

/-- the list that the loop makes of them -/
def buildList (kept : Host → Host) (list : List Host) (hosts : List (Host × Bool)) : List Host :=
  hosts.foldl (fun list h => if h.2 then list ++ [kept h.1] else []) list

theorem buildList_eq (kept : Host → Host) (list : List Host) (hosts : List (Host × Bool)) :
    buildList kept list hosts =
      (if hosts.all Prod.snd then list else []) ++ (sinceRefused hosts).map kept := by
  induction hosts generalizing list with
  | nil => simp [buildList, sinceRefused]
  | cons h hosts ih =>
    obtain ⟨host, ok⟩ := h
    show buildList kept (if ok then list ++ [kept host] else []) hosts = _
    rw [ih]
    cases ok with
    | false => simp [sinceRefused]
    | true =>
      by_cases hall : hosts.all Prod.snd = true
      · simp [sinceRefused, hall]
      · simp [sinceRefused, hall]

/-! ## a libmemcached with a list of servers -/

/-- an update that is refused leaves the servers, another one adds what it was given, as
libmemcached keeps it; a list that could not be appended to is gone, NULL is returned -/
structure PoolOf {σ : Type} (kept : Host → Host) (listed : Host → Listed) (pool : σ → List Host)
    (h : Handler (Call ⊕ HostsCall) (Sum.elim Ans HostsAns) σ) : Prop where
  inl : ∀ c w, pool (h (.inl c) w).2 = pool w
  add : ∀ memc host w, let r : (Status × Nat) × σ := h (.inr (.serverAdd memc host)) w
    pool r.2 = pool w ++ if r.1.1.good then [kept host] else []
  append : ∀ list host w, let r : (Status × List Host) × σ := h (.inr (.listAppend list host)) w
    pool r.2 = pool w ∧ r.1.2 = if r.1.1.good then list ++ [kept host] else []
  push : ∀ memc list w, let r : (Status × Nat) × σ := h (.inr (.serverPush memc list)) w
    pool r.2 = pool w ++ if r.1.1.good then list else []
  cursor : ∀ memc w, let r : List Listed × σ := h (.inr (.serverCursor memc)) w
    pool r.2 = pool w ∧ r.1 = (pool w).map listed
  byKey : ∀ memc serverKey w, pool (h (.inr (.serverByKey memc serverKey)) w).2 = pool w
  reset : ∀ memc w, pool (h (.inr (.serversReset memc)) w).2 = []

section
variable {zend : Zend} {σ : Type} {kept : Host → Host} {listed : Host → Listed}
  {pool : σ → List Host} {h : Handler (Call ⊕ HostsCall) (Sum.elim Ans HostsAns) σ}

/-- the code of a request -/
theorem ran_statusHandle (hp : PoolOf kept listed pool h) (status : Status) (s : State) (w : σ) :
    ∃ s' w', Cmd.Ran seen h (Cmd.inl (sMemcStatusHandleResultCode status)) s w
      (.done status.good s') w' [] ∧ pool w' = pool w := by
  unfold sMemcStatusHandleResultCode Status.good
  cases sMemcachedReturnIsError status true with
  | true => exact ⟨_, _, ⟨rfl, rfl⟩, hp.inl _ w⟩
  | false => exact ⟨_, _, ⟨rfl, rfl⟩, rfl⟩

theorem ran_warning (hp : PoolOf kept listed pool h) (text : String) (s : State) (w : σ) :
    ∃ s' w', Cmd.Ran seen h (Cmd.inl (phpWarning text)) s w (.done () s') w' [.warned text] ∧
      pool w' = pool w := ⟨_, _, ⟨rfl, rfl⟩, hp.inl _ w⟩

variable (zend h) in
/-- a third value is there where there are more than two -/
theorem ran_weightOf (i : Nat) (zWeight : Option Zval) (zHost zPort : ArrKey × Zval)
    (rest : HashTable) (s : State) (w : σ) :
    ∃ zWeight', Cmd.Ran seen h (weightOf zend i zWeight (zHost :: zPort :: rest)) s w
      (.done ((rest.head?.map fun e => zvalGetLong zend e.2).getD 0, zWeight') s) w [] := by
  cases rest with
  | nil => exact ⟨zWeight, rfl, rfl⟩
  | cons e rest =>
    have hlen : (zHost :: zPort :: e :: rest).length > 2 := by simp
    refine ⟨some e.2, ?_⟩
    unfold weightOf
    rw [if_pos hlen]
    exact ⟨rfl, rfl⟩

/-- an entry that names no server leaves the list -/
theorem ran_entryWarning (hp : PoolOf kept listed pool h) {entry : Zval}
    (hnone : hostOf zend entry = none) (i : Nat) (list : List Host) (zWeight : Option Zval)
    (s : State) (w : σ) :
    ∃ s' w', Cmd.Ran seen h (Cmd.inl (phpWarning (entryWarning i entry)) >>= fun _ =>
        pure (list, zWeight)) s w
        (.done (buildList kept list (named zend [entry] [true]), zWeight) s') w'
        (entrySeen zend i entry true) ∧ pool w' = pool w := by
  obtain ⟨s', w', hrun, hpool⟩ := ran_warning hp (entryWarning i entry) s w
  have hseen : entrySeen zend i entry true = [.warned (entryWarning i entry)] := by
    unfold entrySeen
    rw [hnone]
  have hlist : buildList kept list (named zend [entry] [true]) = list := by
    simp [buildList, named, hnone]
  rw [hseen, hlist]
  exact ⟨s', w', hrun.map (fun _ => (list, zWeight)) rfl, hpool⟩

variable (zend) in
/-- what is no array names no server -/
theorem addServersEntry_noArray {entry : Zval} (hnot : ∀ e, entry ≠ .arr e) (i : Nat)
    (list : List Host) (zWeight : Option Zval) : hostOf zend entry = none ∧
      addServersEntry zend i list zWeight entry =
        (Cmd.inl (phpWarning (entryWarning i entry)) >>= fun _ => pure (list, zWeight)) := by
  cases entry with
  | arr e => exact absurd rfl (hnot e)
  | _ => exact ⟨rfl, rfl⟩

/-- one entry, whatever libmemcached says -/
theorem ran_addServersEntry (hp : PoolOf kept listed pool h) (i : Nat) (list : List Host)
    (zWeight : Option Zval) (entry : Zval) (s : State) (w : σ) :
    ∃ ok zWeight' s' w', Cmd.Ran seen h (addServersEntry zend i list zWeight entry) s w
        (.done (buildList kept list (named zend [entry] [ok]), zWeight') s') w'
        (entrySeen zend i entry ok) ∧ pool w' = pool w := by
  by_cases harr : ∃ e, entry = .arr e
  · obtain ⟨entry, rfl⟩ := harr
    cases entry with
    | nil =>
      have hnone : hostOf zend (.arr []) = none := rfl
      obtain ⟨s', w', hrun⟩ := ran_entryWarning hp hnone i list zWeight s w
      exact ⟨true, zWeight, s', w', hrun⟩
    | cons zHost entry =>
      cases entry with
      | nil =>
        have hnone : hostOf zend (.arr [zHost]) = none := rfl
        obtain ⟨s', w', hrun⟩ := ran_entryWarning hp hnone i list zWeight s w
        exact ⟨true, zWeight, s', w', hrun⟩
      | cons zPort rest =>
        let host : Host := .of (zvalGetString zend zHost.2) (zvalGetLong zend zPort.2)
          ((rest.head?.map fun e => zvalGetLong zend e.2).getD 0)
        obtain ⟨zWeight', hweight⟩ := ran_weightOf zend h i zWeight zHost zPort rest s w
        let r : (Status × List Host) × σ := h (.inr (.listAppend list host)) w
        obtain ⟨hpool, hlist⟩ := hp.append list host w
        obtain ⟨s₁, w₁, hcode, hpool₁⟩ := ran_statusHandle hp r.1.1 s r.2
        have happend : Cmd.Ran seen h (askServers (.listAppend list host)) s w (.done r.1 s) r.2
          [.appended host r.1.1.good] := ⟨rfl, rfl⟩
        have hend : ∃ s₂ w₂, Cmd.Ran seen h (Cmd.when (!r.1.1.good) (couldNotAdd i)) s₁ w₁
            (.done () s₂) w₂ (if r.1.1.good then []
              else [.warned (entryWarning i (.arr (zHost :: zPort :: rest)))]) ∧
            pool w₂ = pool w₁ := by
          cases r.1.1.good with
          | true => exact ⟨s₁, w₁, ⟨rfl, rfl⟩, rfl⟩
          | false => exact ran_warning hp _ s₁ w₁
        obtain ⟨s₂, w₂, hwarned, hpool₂⟩ := hend
        refine ⟨r.1.1.good, zWeight', s₂, w₂, ?_, hpool₂.trans (hpool₁.trans hpool)⟩
        have hlen : (zHost :: zPort :: rest).length > 1 := by simp
        have hkept : buildList kept list (named zend [.arr (zHost :: zPort :: rest)] [r.1.1.good]) =
            r.1.2 := by
          rw [hlist]
          rfl
        unfold addServersEntry
        dsimp only
        rw [if_pos hlen, hkept]
        refine hweight.bind_unseen (happend.bind (hcode.bind_unseen ?_))
        exact hwarned.map (fun _ => (r.1.2, zWeight')) rfl
  · obtain ⟨hnone, hentry⟩ := addServersEntry_noArray zend
      (fun e he => harr ⟨e, he⟩) i list zWeight
    rw [hentry]
    exact ⟨true, zWeight, ran_entryWarning hp hnone i list zWeight s w⟩

variable (zend) in
/-- the loop: by induction on the entries -/
theorem ran_addServersLoop (hp : PoolOf kept listed pool h) (entries : List Zval) (i : Nat)
    (list : List Host) (zWeight : Option Zval) (s : State) (w : σ) :
    ∃ oks s' w', oks.length = entries.length ∧
      Cmd.Ran seen h (addServersLoop zend entries i list zWeight) s w
        (.done (buildList kept list (named zend entries oks)) s') w'
        (entriesSeen zend i entries oks) ∧ pool w' = pool w := by
  induction entries generalizing i list zWeight s w with
  | nil => exact ⟨[], s, w, rfl, ⟨rfl, rfl⟩, rfl⟩
  | cons entry entries ih =>
    obtain ⟨ok, zWeight', s₁, w₁, hentry, hpool⟩ :=
      ran_addServersEntry hp i list zWeight entry s w
    obtain ⟨oks, s₂, w₂, hlen, hloop, hpool'⟩ :=
      ih (i + 1) (buildList kept list (named zend [entry] [ok])) zWeight' s₁ w₁
    refine ⟨ok :: oks, s₂, w₂, congrArg (· + 1) hlen, ?_, hpool'.trans hpool⟩
    have hlist : buildList kept list (named zend (entry :: entries) (ok :: oks)) =
        buildList kept (buildList kept list (named zend [entry] [ok]))
          (named zend entries oks) := by
      have hnamed : named zend (entry :: entries) (ok :: oks) =
          named zend [entry] [ok] ++ named zend entries oks := by
        cases hhost : hostOf zend entry <;> simp [named, hhost]
      rw [hnamed]
      exact List.foldl_append
    rw [hlist]
    exact hentry.bind hloop

variable (zend) in
/-- **What `addServers` takes.** TRUE says that the list was passed on; it has the entries after the
last one that libmemcached refused. -/
theorem ran_memcachedAddServers (hp : PoolOf kept listed pool h) (servers : HashTable) (s : State)
    (w : σ) : ∃ oks ok s' w', oks.length = servers.length ∧
      Cmd.Ran seen h (memcachedAddServers zend servers) s w (.done (.bool ok) s') w'
        (entriesSeen zend 0 (servers.map Prod.snd) oks ++ [.pushed ok]) ∧
      pool w' = pool w ++ if ok then
        (sinceRefused (named zend (servers.map Prod.snd) oks)).map kept else [] := by
  obtain ⟨oks, s₁, w₁, hlen, hloop, hpool₁⟩ := ran_addServersLoop zend hp
    (servers.map Prod.snd) 0 [] none { s with rescode := .success, memcErrno := 0 } w
  have hlist := buildList_eq kept [] (named zend (servers.map Prod.snd) oks)
  rw [ite_self, List.nil_append] at hlist
  rw [hlist] at hloop
  let list := (sinceRefused (named zend (servers.map Prod.snd) oks)).map kept
  let r : (Status × Nat) × σ := h (.inr (.serverPush s₁.memc list)) w₁
  have hpush : Cmd.Ran seen h (askServers (.serverPush s₁.memc list)) s₁ w₁ (.done r.1 s₁) r.2
    [.pushed r.1.1.good] := ⟨rfl, rfl⟩
  obtain ⟨s₂, w₂, hcode, hpool₂⟩ := ran_statusHandle hp r.1.1
    { s₁ with memc := { s₁.memc with serverCount := r.1.2 } } r.2
  refine ⟨oks, r.1.1.good, s₂, w₂, hlen.trans (List.length_map _), ?_, ?_⟩
  · have hend := hcode.map (fun ok => Zval.bool ok) rfl
    unfold memcachedAddServers
    refine Cmd.Ran.bind_unseen (a := ()) ⟨rfl, rfl⟩ (hloop.bind ?_)
    rw [Cmd.ran_get_bind]
    exact hpush.bind_last (Cmd.Ran.bind_unseen (a := ()) ⟨rfl, rfl⟩ hend)
  · have hadd := hp.push s₁.memc list w₁
    rw [hpool₂, hadd, hpool₁]

end

/-! ## calls -/

inductive PoolCall where
  | addServer (host : Bytes) (port weight : Int64)
  | addServers (servers : HashTable)
  | getServerList
  | getServerByKey (serverKey : Bytes)
  | resetServerList

def PoolCall.run (zend : Zend) : PoolCall → HostsM Zval
  | .addServer host port weight => memcachedAddServer host port weight
  | .addServers servers => memcachedAddServers zend servers
  | .getServerList => memcachedGetServerList
  | .getServerByKey serverKey => memcachedGetServerByKey serverKey
  | .resetServerList => memcachedResetServerList

/-- a call, how it ended and what was seen of it -/
structure CallRun where
  call : PoolCall
  after : Outcome Abort State Zval
  seen : List Seen

def Seen.added? : Seen → Option Host
  | .added host true => some host
  | _ => none

def Seen.appended? : Seen → Option (Host × Bool)
  | .appended host ok => some (host, ok)
  | _ => none

/-- the servers after the call -/
def CallRun.effect (kept : Host → Host) (hosts : List Host) (r : CallRun) : List Host :=
  match r.call with
  | .addServer .. => hosts ++ (r.seen.filterMap Seen.added?).map kept
  | .addServers _ => hosts ++ if .pushed true ∈ r.seen then
      (sinceRefused (r.seen.filterMap Seen.appended?)).map kept else []
  | .resetServerList => []
  | _ => hosts

/-- TRUE if and only if the servers were passed on; one warning for each entry that was not taken -/
def CallRun.Reports (zend : Zend) (r : CallRun) : Prop :=
  match r.call with
  | .addServer host port weight => ∃ ok s, r.after = .done (.bool ok) s ∧
      r.seen = [.added (.of host port weight) ok]
  | .addServers servers => ∃ oks ok s, oks.length = servers.length ∧ r.after = .done (.bool ok) s ∧
      r.seen = entriesSeen zend 0 (servers.map Prod.snd) oks ++ [.pushed ok]
  | _ => True

/-- nothing was refused -/
def Seen.Good : Seen → Prop
  | .added _ ok => ok = true
  | .appended _ ok => ok = true
  | .pushed ok => ok = true
  | .warned _ => True

/-- the servers that a call names -/
def PoolCall.asked (zend : Zend) (kept : Host → Host) (hosts : List Host) : PoolCall → List Host
  | .addServer host port weight => hosts ++ [kept (.of host port weight)]
  | .addServers servers => hosts ++ ((servers.map Prod.snd).filterMap (hostOf zend)).map kept
  | .resetServerList => []
  | _ => hosts

section
variable (zend : Zend) {σ : Type} (h : Handler (Call ⊕ HostsCall) (Sum.elim Ans HostsAns) σ)

/-- calls one after another, with the state and the world they leave -/
def callRuns : List PoolCall → State → σ → List CallRun × State × σ
  | [], s, w => ([], s, w)
  | call :: calls, s, w =>
    let r := Cmd.exec h (call.run zend) s w
    let rest := callRuns calls r.1.state r.2
    (⟨call, r.1, (Cmd.log h (call.run zend) s w).filterMap seen⟩ :: rest.1, rest.2)

end

section
variable {zend : Zend} {σ : Type} {kept : Host → Host} {listed : Host → Listed}
  {pool : σ → List Host} {h : Handler (Call ⊕ HostsCall) (Sum.elim Ans HostsAns) σ}

theorem filterMap_entriesSeen (i : Nat) (entries : List Zval) (oks : List Bool) :
    (entriesSeen zend i entries oks).filterMap Seen.appended? = named zend entries oks := by
  induction entries generalizing i oks with
  | nil => cases oks <;> rfl
  | cons entry entries ih =>
    cases oks with
    | nil => rfl
    | cons ok oks =>
      rw [entriesSeen, List.filterMap_append, ih]
      cases hhost : hostOf zend entry <;> cases ok <;>
        simp [entrySeen, named, hhost, Seen.appended?]

theorem pushed_mem_iff (i : Nat) (entries : List Zval) (oks : List Bool) (ok : Bool) :
    .pushed true ∈ entriesSeen zend i entries oks ++ [.pushed ok] ↔ ok = true := by
  have hnot : Seen.pushed true ∉ entriesSeen zend i entries oks := by
    induction entries generalizing i oks with
    | nil => cases oks <;> exact List.not_mem_nil
    | cons entry entries ih =>
      cases oks with
      | nil => exact List.not_mem_nil
      | cons ok oks =>
        intro hmem
        rcases List.mem_append.mp hmem with hmem | hmem
        · cases hhost : hostOf zend entry <;> cases ok <;> simp [entrySeen, hhost] at hmem
        · exact ih (i + 1) oks hmem
  rw [List.mem_append, or_iff_right hnot]
  simp [eq_comm]

theorem ran_memcachedAddServer (hp : PoolOf kept listed pool h) (host : Bytes) (port weight : Int64)
    (s : State) (w : σ) : ∃ ok s' w', Cmd.Ran seen h (memcachedAddServer host port weight) s w
        (.done (.bool ok) s') w' [.added (.of host port weight) ok] ∧
      pool w' = pool w ++ if ok then [kept (.of host port weight)] else [] := by
  let s₁ : State := { s with rescode := .success, memcErrno := 0 }
  let r : (Status × Nat) × σ := h (.inr (.serverAdd s₁.memc (.of host port weight))) w
  have hadd : Cmd.Ran seen h (askServers (.serverAdd s₁.memc (.of host port weight))) s₁ w
    (.done r.1 s₁) r.2 [.added (.of host port weight) r.1.1.good] := ⟨rfl, rfl⟩
  obtain ⟨s₂, w₂, hcode, hpool⟩ := ran_statusHandle hp r.1.1
    { s₁ with memc := { s₁.memc with serverCount := r.1.2 } } r.2
  refine ⟨r.1.1.good, s₂, w₂, ?_, hpool.trans (hp.add s₁.memc (.of host port weight) w)⟩
  unfold memcachedAddServer
  refine Cmd.Ran.bind_unseen (a := ()) ⟨rfl, rfl⟩ ?_
  rw [Cmd.ran_get_bind]
  refine hadd.bind_last (Cmd.Ran.bind_unseen (a := ()) ⟨rfl, rfl⟩ ?_)
  exact hcode.map (fun ok => Zval.bool ok) rfl

theorem pool_serverByKeyEnd (hp : PoolOf kept listed pool h) (answer : Except Status Listed)
    (s : State) (w : σ) : pool (Cmd.exec h (serverByKeyEnd answer) s w).2 = pool w := by
  cases answer with
  | ok server => rfl
  | error error =>
    obtain ⟨s', w', hrun, hpool⟩ := ran_statusHandle hp error s w
    show pool (Cmd.exec h (Cmd.inl (sMemcStatusHandleResultCode error) >>= _) s w).2 = pool w
    rw [Cmd.exec_bind_done hrun.exec]
    exact hpool

variable (zend) in
/-- one call: it reports what it did, and the servers are those it has taken -/
theorem exec_poolCall (hp : PoolOf kept listed pool h) (call : PoolCall) (s : State) (w : σ) :
    let after := Cmd.exec h (call.run zend) s w
    let r : CallRun := ⟨call, after.1, (Cmd.log h (call.run zend) s w).filterMap seen⟩
    pool after.2 = r.effect kept (pool w) ∧ r.Reports zend := by
  cases call with
  | addServer host port weight =>
    obtain ⟨ok, s', w', hrun, hpool⟩ := ran_memcachedAddServer hp host port weight s w
    have hexec : Cmd.exec h (PoolCall.run zend (.addServer host port weight)) s w = _ := hrun.exec
    have hlog : (Cmd.log h (PoolCall.run zend (.addServer host port weight)) s w).filterMap seen =
      _ := hrun.log
    dsimp only
    rw [hexec, hlog]
    refine ⟨hpool.trans ?_, ok, s', rfl, rfl⟩
    cases ok <;> rfl
  | addServers servers =>
    obtain ⟨oks, ok, s', w', hlen, hrun, hpool⟩ :=
      ran_memcachedAddServers zend hp servers s w
    have hexec : Cmd.exec h (PoolCall.run zend (.addServers servers)) s w = _ := hrun.exec
    have hlog : (Cmd.log h (PoolCall.run zend (.addServers servers)) s w).filterMap seen = _ :=
      hrun.log
    dsimp only
    rw [hexec, hlog]
    refine ⟨hpool.trans ?_, oks, ok, s', hlen, rfl, rfl⟩
    unfold CallRun.effect
    dsimp only
    rw [List.filterMap_append, filterMap_entriesSeen]
    simp only [pushed_mem_iff]
    exact congrArg (fun l => pool w ++ if ok then (sinceRefused l).map kept else [])
      (List.append_nil _).symm
  | getServerList => exact ⟨(hp.cursor s.memc w).1, trivial⟩
  | getServerByKey serverKey =>
    let s₁ : State := { s with rescode := .success, memcErrno := 0 }
    let r : Except Status Listed × σ := h (.inr (.serverByKey s.memc serverKey)) w
    have hexec : Cmd.exec h (memcachedGetServerByKey serverKey) s w =
        Cmd.exec h (serverByKeyEnd r.1) s₁ r.2 := rfl
    refine ⟨?_, trivial⟩
    show pool (Cmd.exec h (memcachedGetServerByKey serverKey) s w).2 = pool w
    rw [hexec, pool_serverByKeyEnd hp]
    exact hp.byKey s.memc serverKey w
  | resetServerList => exact ⟨hp.reset s.memc w, trivial⟩

variable (zend) in
/-- by induction on the calls -/
theorem pool_callRuns (hp : PoolOf kept listed pool h) (calls : List PoolCall) (s : State) (w : σ) :
    let r := callRuns zend h calls s w
    pool r.2.2 = r.1.foldl (CallRun.effect kept) (pool w) ∧ ∀ run ∈ r.1, run.Reports zend := by
  induction calls generalizing s w with
  | nil => exact ⟨rfl, fun run hrun => by cases hrun⟩
  | cons call calls ih =>
    obtain ⟨hpool, hreports⟩ := exec_poolCall zend hp call s w
    obtain ⟨hrest, hall⟩ := ih (Cmd.exec h (call.run zend) s w).1.state
      (Cmd.exec h (call.run zend) s w).2
    refine ⟨hrest.trans ?_, fun run hrun => ?_⟩
    · rw [hpool]
      rfl
    · rcases List.mem_cons.mp hrun with rfl | hrun
      · exact hreports
      · exact hall run hrun

/-! ### where nothing is refused -/

theorem sinceRefused_of_all {hosts : List (Host × Bool)} (h : hosts.all Prod.snd = true) :
    sinceRefused hosts = hosts.map Prod.fst := by
  induction hosts with
  | nil => rfl
  | cons a hosts ih =>
    obtain ⟨hfst, hrest⟩ := Bool.and_eq_true_iff.mp h
    simp [sinceRefused, hfst, hrest, ih hrest]

theorem map_fst_named (entries : List Zval) (oks : List Bool) (hlen : oks.length = entries.length) :
    (named zend entries oks).map Prod.fst = entries.filterMap (hostOf zend) := by
  induction entries generalizing oks with
  | nil => rfl
  | cons entry entries ih =>
    cases oks with
    | nil => cases hlen
    | cons ok oks =>
      have hrest := ih oks (Nat.succ.inj hlen)
      unfold named at hrest ⊢
      cases hhost : hostOf zend entry with
      | none => simpa [hhost] using hrest
      | some host => simpa [hhost] using hrest

theorem effect_of_good {r : CallRun} (hreports : r.Reports zend) (hgood : ∀ e ∈ r.seen, e.Good)
    (hosts : List Host) : r.effect kept hosts = r.call.asked zend kept hosts := by
  obtain ⟨call, after, l⟩ := r
  cases call with
  | addServer host port weight =>
    obtain ⟨ok, s, -, hseen⟩ := hreports
    change l = _ at hseen
    subst hseen
    have hok : ok = true := hgood _ List.mem_cons_self
    subst hok
    rfl
  | addServers servers =>
    obtain ⟨oks, ok, s, hlen, -, hseen⟩ := hreports
    change l = _ at hseen
    subst hseen
    have hok : ok = true := hgood (.pushed ok) (List.mem_append_right _ List.mem_cons_self)
    have hall : (named zend (servers.map Prod.snd) oks).all Prod.snd = true := by
      refine List.all_eq_true.mpr fun a ha => ?_
      rw [← filterMap_entriesSeen 0] at ha
      obtain ⟨e, he, hsome⟩ := List.mem_filterMap.mp ha
      have hgood' := hgood e (List.mem_append_left _ he)
      cases e with
      | appended host ok =>
        cases hsome
        exact hgood'
      | _ => cases hsome
    have hlen' : oks.length = (servers.map Prod.snd).length := hlen.trans (List.length_map _).symm
    unfold CallRun.effect PoolCall.asked
    dsimp only
    rw [if_pos ((pushed_mem_iff ..).mpr hok), List.filterMap_append, filterMap_entriesSeen]
    have hnone : List.filterMap Seen.appended? [.pushed ok] = [] := rfl
    rw [hnone, List.append_nil, sinceRefused_of_all hall, map_fst_named _ _ hlen']
  | _ => rfl

theorem foldl_effect_of_good (rs : List CallRun) (hreports : ∀ r ∈ rs, r.Reports zend)
    (hgood : ∀ r ∈ rs, ∀ e ∈ r.seen, e.Good) (hosts : List Host) :
    rs.foldl (CallRun.effect kept) hosts =
      (rs.map CallRun.call).foldl (PoolCall.asked zend kept) hosts := by
  induction rs generalizing hosts with
  | nil => rfl
  | cons r rs ih =>
    rw [List.foldl_cons, List.map_cons, List.foldl_cons,
      effect_of_good (hreports r List.mem_cons_self) (hgood r List.mem_cons_self)]
    exact ih (fun r' hr' => hreports r' (List.mem_cons_of_mem _ hr'))
      (fun r' hr' => hgood r' (List.mem_cons_of_mem _ hr')) _

theorem call_callRuns (calls : List PoolCall) (s : State) (w : σ) :
    (callRuns zend h calls s w).1.map CallRun.call = calls := by
  induction calls generalizing s w with
  | nil => rfl
  | cons call calls ih => exact congrArg (call :: ·) (ih _ _)

/-! ### the list -/

/-- one row of `getServerList` -/
def listRow (server : Listed) : Zval :=
  .arr [(.str (ascii ['h', 'o', 's', 't']), .str server.name),
    (.str (ascii ['p', 'o', 'r', 't']), .long (Int64.ofNat server.port.toNat)),
    (.str (ascii ['t', 'y', 'p', 'e']), .str server.type)]

/-- values under the numbers from 0 on -/
def arrayOf (values : List Zval) : HashTable := values.foldl addNextIndexZval []

/-- **The server list.** After any calls `getServerList` gives the servers that were taken since the
last reset, in order; each call reports what it took; and where libmemcached has refused nothing,
these are the servers that the calls named. -/
theorem serverList_of_calls (hp : PoolOf kept listed pool h) (calls : List PoolCall) (s : State)
    (w : σ) :
    let r := callRuns zend h calls s w
    let hosts := r.1.foldl (CallRun.effect kept) (pool w)
    (∀ run ∈ r.1, run.Reports zend) ∧
      (∃ w', Cmd.exec h memcachedGetServerList r.2.1 r.2.2 =
        (.done (.arr (arrayOf ((hosts.map listed).map listRow))) r.2.1, w')) ∧
      ((∀ run ∈ r.1, ∀ e ∈ run.seen, e.Good) →
        hosts = calls.foldl (PoolCall.asked zend kept) (pool w)) := by
  obtain ⟨hpool, hreports⟩ := pool_callRuns zend hp calls s w
  refine ⟨hreports, ?_, fun hgood => ?_⟩
  · let r := callRuns zend h calls s w
    let answer : List Listed × σ := h (.inr (.serverCursor r.2.1.memc)) r.2.2
    have hanswer : answer.1 = (r.1.foldl (CallRun.effect kept) (pool w)).map listed := by
      rw [← hpool]
      exact (hp.cursor r.2.1.memc r.2.2).2
    have hexec : Cmd.exec h memcachedGetServerList r.2.1 r.2.2 =
        (.done (.arr (answer.1.foldl sServerCursorListServersCb [])) r.2.1, answer.2) := rfl
    refine ⟨answer.2, ?_⟩
    rw [hexec, hanswer, arrayOf, List.foldl_map (f := listRow)]
    rfl
  · rw [foldl_effect_of_good _ hreports hgood, call_callRuns]

end

/-! ## two servers and a third one -/

/-- libmemcached refuses an empty name, and has 11211 for the port 0 -/
def keepPort (host : Host) : Host := if host.port = 0 then { host with port := 11211 } else host

def listedTcp (host : Host) : Listed := ⟨host.host, host.port, ascii ['T', 'C', 'P']⟩

def hostPool : Handler (Call ⊕ HostsCall) (Sum.elim Ans HostsAns) (List Host)
  | .inl c, w => ((noServers c ()).1, w)
  | .inr (.serverAdd memc host), w =>
    let r : Status × Nat :=
      if host.host = [] then (.hostLookupFailure, memc.serverCount)
      else (.success, memc.serverCount + 1)
    (r, if r.1.good then w ++ [keepPort host] else w)
  | .inr (.listAppend list host), w =>
    let r : Status × List Host :=
      if host.host = [] then (.hostLookupFailure, []) else (.success, list ++ [keepPort host])
    (r, w)
  | .inr (.serverPush memc list), w =>
    (((.success, memc.serverCount + list.length) : Status × Nat), w ++ list)
  | .inr (.serverCursor _), w => (w.map listedTcp, w)
  | .inr (.serverByKey ..), w =>
    let r : Except Status Listed :=
      match w with
      | [] => .error .noServers
      | host :: _ => .ok (listedTcp host)
    (r, w)
  | .inr (.serversReset _), _ => ((0 : Nat), [])

theorem hostPool_poolOf : PoolOf keepPort listedTcp id hostPool where
  inl _ _ := rfl
  add memc host w := by
    by_cases hempty : host.host = []
    · simp [hostPool, hempty, Status.good, sMemcachedReturnIsError]
    · simp [hostPool, hempty, Status.good, sMemcachedReturnIsError]
  append list host w := by
    by_cases hempty : host.host = []
    · simp [hostPool, hempty, Status.good, sMemcachedReturnIsError]
    · simp [hostPool, hempty, Status.good, sMemcachedReturnIsError]
  push _ _ _ := rfl
  cursor _ _ := ⟨rfl, rfl⟩
  byKey _ _ _ := rfl
  reset _ _ := rfl

/-- an array with two servers, something that is no array, and one server more -/
def threeServers : List PoolCall :=
  [.addServers [(.int 0, .arr [(.int 0, .str (ascii ['a'])), (.int 1, .long 0)]),
      (.int 1, .str (ascii ['b'])),
      (.int 2, .arr [(.int 0, .str (ascii ['c'])), (.int 1, .long 65537), (.int 2, .long 3)])],
    .addServer (ascii ['d']) 11212 0]

theorem serverList_of_three :
    let r := callRuns plainZend hostPool threeServers (newObject iniDefaults 0) []
    let hosts := r.1.foldl (CallRun.effect keepPort) []
    (∀ run ∈ r.1, run.Reports plainZend) ∧
      (∃ w', Cmd.exec hostPool memcachedGetServerList r.2.1 r.2.2 =
        (.done (.arr (arrayOf ((hosts.map listedTcp).map listRow))) r.2.1, w')) ∧
      ((∀ run ∈ r.1, ∀ e ∈ run.seen, e.Good) →
        hosts = threeServers.foldl (PoolCall.asked plainZend keepPort) []) :=
  serverList_of_calls hostPool_poolOf threeServers (newObject iniDefaults 0) []

/-- a port is a number of 16 bits -/
example : threeServers.foldl (PoolCall.asked plainZend keepPort) [] =
    [⟨ascii ['a'], 11211, 0⟩, ⟨ascii ['c'], 1, 3⟩, ⟨ascii ['d'], 11212, 0⟩] := by decide

end PhpMemcached
