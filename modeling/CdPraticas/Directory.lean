import CdPraticas.Groups

/-!
# The directory of the configuration service

The configuration service keeps a table of the servers in the group and
changes it by the one member that each membership message names. The table is
the set of servers of the view exactly as long as every view differs from the
one before it by that member, and every server that joins has a configured
port.
-/

namespace CdPraticas.Directory
open Groups

/-- `rpcsconfigurationtubs.Server`. -/
structure Server where
  name : String
  ip : List Char
  port : Int
  deriving DecidableEq

/-- The repeated field `servers`, up to the order of the map it is built from. -/
abbrev ListServers := Multiset Server
/-- The identity under which a client is registered. -/
structure UUID where
  bits : BitVec 128
  deriving DecidableEq

structure ClientManager where
  serverPorts : AList (fun _ : List Char => Int)
  groupIps : AList (fun _ : List Char => List Char)
  clientsObservers : Finset UUID
  updateClientsMessages : List ListServers
  spreadServers : AList (fun _ : String => Server)

namespace ClientManager

/-- `new ClientManager(knownServers, knownGroups)`. -/
def new (knownServers : AList (fun _ : List Char => Int)) (knownGroups : AList (fun _ : List Char => List Char)) :
    ClientManager := ⟨knownServers,knownGroups,∅,[],∅⟩

def getAvailableServers (manager : ClientManager) : ListServers :=
  manager.spreadServers.entries.map fun entry => entry.2

/-- `push` puts the new list in front, where `pop` takes it. -/
def updateClients (manager : ClientManager) : ClientManager :=
  { manager with updateClientsMessages := manager.getAvailableServers :: manager.updateClientsMessages }

/-- What is built for a server that joins; `none` where a piece of the name is
    missing or the port of an unknown name is unboxed. -/
def serverToBeAdded (manager : ClientManager) (server : SpreadGroup) : Option Server :=
  match getServerName server, getServerIp server with
  | some serverName, some serverIp =>
    match manager.serverPorts.lookup serverName with
    | some port => some ⟨server.toString,(manager.groupIps.lookup serverIp).getD "localhost".toList,port⟩
    | none => none
  | _, _ => none

/-- `addSpreadServer` up to the call of `updateClients`, which is made when the
    table was changed; `none` where it throws. -/
def putServer (manager : ClientManager) (server : SpreadGroup) : Option (ClientManager × Bool) :=
  match getServerName server with
  | none => none
  | some name =>
    if name = "Service".toList then some (manager,false)
    else
      match manager.serverToBeAdded server with
      | none => none
      | some added =>
        some ({ manager with spreadServers := manager.spreadServers.insert server.toString added },true)

def addSpreadServer (manager : ClientManager) (server : SpreadGroup) : Option ClientManager :=
  match manager.putServer server with
  | some (changed,true) => some changed.updateClients
  | some (same,false) => some same
  | none => none

/-- `removeSpreadServer` up to the call of `updateClients`. -/
def dropServer (manager : ClientManager) (server : SpreadGroup) : ClientManager :=
  { manager with spreadServers := manager.spreadServers.erase server.toString }

def removeSpreadServer (manager : ClientManager) (server : SpreadGroup) : ClientManager :=
  (manager.dropServer server).updateClients

end ClientManager

inductive MembershipInfo
  | regular (view : View)
  | transition
  | selfLeave (left : SpreadGroup)
  deriving DecidableEq

/-- `none` where `System.exit` is reached. -/
def messageReceived (manager : ClientManager) : MembershipInfo → Option ClientManager
  | .regular view =>
    match view.change with
    | .join joined => manager.addSpreadServer joined
    | .leave left => some (manager.removeSpreadServer left)
    | .disconnect disconnected => some (manager.removeSpreadServer disconnected)
    | .network => some manager
  | .transition => some manager
  | .selfLeave left => some (manager.removeSpreadServer left)

/-- Regular messages one after the other, to the end or to `System.exit`. -/
def messagesReceived (manager : ClientManager) (views : List View) : Option ClientManager :=
  views.foldlM (fun manager view => messageReceived manager (.regular view)) manager

/-- The members of a view other than the one named Service, by their private groups. -/
def servers (members : List SpreadGroup) : Finset String :=
  ((members.filter fun member => !isService member).map SpreadGroup.toString).toFinset

/-- The key set of the table. -/
def directory (manager : ClientManager) : Finset String := manager.spreadServers.keys.toFinset

/-- After each message the process is alive and its table is the view. -/
def Follows (manager : ClientManager) (views : List View) : Prop :=
  ∀ seen view later, views = seen ++ view :: later →
    ∃ now, messagesReceived manager (seen ++ [view]) = some now ∧ directory now = servers view.members

/-- The view differs from the servers `before` it by the member it names, and a
    server that joins has a configured port. -/
def Delta (manager : ClientManager) (before : Finset String) (view : View) : Prop :=
  match view.change with
  | .join joined =>
    if isService joined then servers view.members = before
    else (manager.serverToBeAdded joined).isSome ∧ servers view.members = insert joined.toString before
  | .leave gone | .disconnect gone => servers view.members = before.erase gone.toString
  | .network => servers view.members = before

/-- Every view differs so from the one before it, the first from `before`. -/
def Deltas (manager : ClientManager) : Finset String → List View → Prop
  | _, [] => True
  | before, view :: later => Delta manager before view ∧ Deltas manager (servers view.members) later

theorem mem_directory (manager : ClientManager) (name : String) :
    name ∈ directory manager ↔ name ∈ manager.spreadServers := by
  simp [directory,AList.mem_keys]

@[simp] theorem directory_updateClients (manager : ClientManager) :
    directory manager.updateClients = directory manager := rfl

theorem directory_put (manager : ClientManager) (name : String) (added : Server) :
    directory { manager with spreadServers := manager.spreadServers.insert name added } =
      insert name (directory manager) := by
  ext other
  simp [mem_directory]

theorem directory_removeSpreadServer (manager : ClientManager) (server : SpreadGroup) :
    directory (manager.removeSpreadServer server) = (directory manager).erase server.toString := by
  ext other
  simp [ClientManager.removeSpreadServer,ClientManager.dropServer,mem_directory,AList.mem_erase]

/-- The parts of the configuration that are fixed. -/
def SameConfig (one two : ClientManager) : Prop :=
  one.serverPorts = two.serverPorts ∧ one.groupIps = two.groupIps

theorem SameConfig.serverToBeAdded {one two : ClientManager} (same : SameConfig one two) (server : SpreadGroup) :
    one.serverToBeAdded server = two.serverToBeAdded server := by
  simp [ClientManager.serverToBeAdded,same.1,same.2]

/-- What adding a server does, in its three cases. -/
theorem addSpreadServer_cases (manager : ClientManager) (server : SpreadGroup) :
    (isService server ∧ manager.addSpreadServer server = some manager) ∨
    (¬ isService server ∧ manager.serverToBeAdded server = none ∧ manager.addSpreadServer server = none) ∨
    (¬ isService server ∧ (manager.serverToBeAdded server).isSome ∧
      ∃ now, manager.addSpreadServer server = some now ∧ SameConfig now manager ∧
        directory now = insert server.toString (directory manager)) := by
  cases named : getServerName server with
  | none =>
    refine .inr (.inl ⟨by simp [isService,named],by simp [ClientManager.serverToBeAdded,named],?_⟩)
    simp [ClientManager.addSpreadServer,ClientManager.putServer,named]
  | some name =>
    by_cases service : name = "Service".toList
    · refine .inl ⟨by simp [isService,named,service],?_⟩
      simp [ClientManager.addSpreadServer,ClientManager.putServer,named,service]
    · have other : ¬ isService server := by simpa [isService,named] using service
      cases built : manager.serverToBeAdded server with
      | none =>
        refine .inr (.inl ⟨other,rfl,?_⟩)
        simp only [ClientManager.addSpreadServer,ClientManager.putServer,named,if_neg service,built]
      | some added =>
        let changed := { manager with spreadServers := manager.spreadServers.insert server.toString added }
        have keys : directory changed = insert server.toString (directory manager) :=
          directory_put manager server.toString added
        refine .inr (.inr ⟨other,rfl,changed.updateClients,?_,⟨rfl,rfl⟩,keys⟩)
        simp only [ClientManager.addSpreadServer,ClientManager.putServer,named,if_neg service,built,changed]

/-- One message: the process lives on with the table of the view exactly when
    the view differs by the member named. -/
theorem messageReceived_follows (manager : ClientManager) (view : View) :
    (∃ now, messageReceived manager (.regular view) = some now ∧ directory now = servers view.members) ↔
      Delta manager (directory manager) view := by
  obtain ⟨change,members⟩ := view
  cases change with
  | join joined =>
    simp only [messageReceived,Delta]
    obtain ⟨service,same⟩ | ⟨other,unknown,stopped⟩ | ⟨other,known,now,added,_,keys⟩ :=
      addSpreadServer_cases manager joined
    · simp [service,same,eq_comm]
    · simp [other,unknown,stopped]
    · simp [other,known,added,keys,eq_comm]
  | leave gone | disconnect gone =>
    simp [messageReceived,Delta,directory_removeSpreadServer,eq_comm]
  | network => simp [messageReceived,Delta,eq_comm]

theorem messageReceived_config {manager now : ClientManager} {info : MembershipInfo}
    (alive : messageReceived manager info = some now) : SameConfig now manager := by
  cases info with
  | transition | selfLeave =>
    cases alive
    exact ⟨rfl,rfl⟩
  | regular view =>
    obtain ⟨change,members⟩ := view
    cases change with
    | join joined =>
      simp only [messageReceived] at alive
      obtain ⟨_,same⟩ | ⟨_,_,stopped⟩ | ⟨_,_,after,added,config,_⟩ := addSpreadServer_cases manager joined
      · cases same.symm.trans alive
        exact ⟨rfl,rfl⟩
      · cases stopped.symm.trans alive
      · cases added.symm.trans alive
        exact config
    | leave | disconnect | network =>
      cases alive
      exact ⟨rfl,rfl⟩

theorem SameConfig.delta {one two : ClientManager} (same : SameConfig one two) (before : Finset String) (view : View) :
    Delta one before view ↔ Delta two before view := by
  simp only [Delta,same.serverToBeAdded]

theorem SameConfig.deltas {one two : ClientManager} (same : SameConfig one two) (before : Finset String)
    (views : List View) : Deltas one before views ↔ Deltas two before views := by
  induction views generalizing before with
  | nil => rfl
  | cons view later ih => simp only [Deltas,same.delta,ih]

/-- The first message splits off. -/
theorem follows_cons (manager : ClientManager) (view : View) (later : List View) :
    Follows manager (view :: later) ↔ ∃ now, messageReceived manager (.regular view) = some now ∧
      directory now = servers view.members ∧ Follows now later := by
  constructor
  · intro follows
    obtain ⟨now,alive,keys⟩ := follows [] view later rfl
    have first : messageReceived manager (.regular view) = some now := by simpa [messagesReceived] using alive
    refine ⟨now,first,keys,?_⟩
    rintro seen next rest rfl
    obtain ⟨after,reached,same⟩ := follows (view :: seen) next rest rfl
    exact ⟨after,by simpa [messagesReceived,first] using reached,same⟩
  · rintro ⟨now,first,keys,follows⟩ seen next rest split
    cases seen with
    | nil =>
      cases split
      exact ⟨now,by simpa [messagesReceived] using first,keys⟩
    | cons head seen =>
      obtain ⟨rfl,rfl⟩ := List.cons.inj split
      obtain ⟨after,reached,same⟩ := follows seen next rest rfl
      exact ⟨after,by simpa [messagesReceived,first] using reached,same⟩

/-- The table follows the views from any table on, exactly when each view
    differs from what the table holds by the member named. -/
theorem follows_deltas (manager : ClientManager) (views : List View) :
    Follows manager views ↔ Deltas manager (directory manager) views := by
  induction views generalizing manager with
  | nil => simp [Follows,Deltas]
  | cons view later ih =>
    rw [follows_cons,Deltas,← messageReceived_follows]
    constructor
    · rintro ⟨now,alive,keys,follows⟩
      refine ⟨⟨now,alive,keys⟩,?_⟩
      rw [← (messageReceived_config alive).deltas,← keys]
      exact (ih now).mp follows
    · rintro ⟨⟨now,alive,keys⟩,deltas⟩
      refine ⟨now,alive,keys,(ih now).mpr ?_⟩
      rw [(messageReceived_config alive).deltas,keys]
      exact deltas

/-- From its own start, the service survives every message with the servers of
    the view in its table exactly when every view differs from the one before
    it, the first from the empty one, by the member its message names, and
    every server that joins has a configured port. -/
theorem directory_follows (knownServers : AList (fun _ : List Char => Int))
    (knownGroups : AList (fun _ : List Char => List Char)) (views : List View) :
    Follows (.new knownServers knownGroups) views ↔ Deltas (.new knownServers knownGroups) ∅ views :=
  follows_deltas (.new knownServers knownGroups) views

/-- A server that was in the group first is never added. -/
theorem directory_behind :
    ¬ Follows (.new (AList.singleton "Server1".toList 9000) ∅)
      [⟨.join ⟨"#Service#host1"⟩,[⟨"#Server1#host1"⟩,⟨"#Service#host1"⟩]⟩] := by
  intro follows
  obtain ⟨now,alive,keys⟩ := follows [] _ [] rfl
  cases alive
  revert keys
  decide

end CdPraticas.Directory
