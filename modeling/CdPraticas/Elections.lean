import CdPraticas.ReplicaGroup

/-!
# Who leads the group

What the servers take for their leader is a system of its own: the view, the
beliefs, the announcements and questions in flight. Every step of the group is
a step of this system or does not touch it.
-/

namespace CdPraticas.Elections
open Groups Replicas Transactions ReplicaGroup Runs

/-- The part of the group that elections are about. `leader` is what each server
    takes for the leader, by name. -/
structure Election where
  started : Nat
  members : List Nat
  view : View
  unhandled : List Nat
  group : Nat → SpreadGroup
  name : Nat → List Char
  leader : Nat → List Char
  network : Multiset Packet

/-- The messages about the leader. -/
def elective : Message → Bool
  | .newLeader _ | .whoIsLeader => true
  | .appendData _ _ | .consensusVoting _ _ _ => false

def election (s : State) : Election where
  started := s.started
  members := s.members
  view := s.view
  unhandled := s.unhandled
  group server := (s.managers server).group
  name server := (s.managers server).myServerName
  leader server := (s.managers server).leaderServerName
  network := s.network.filter fun packet => elective packet.message = true

namespace Election
variable (e : Election)

def groups (members : List Nat) : List SpreadGroup := members.map e.group

def send (server : Nat) (message : Message) : Election :=
  if server ∈ e.members then { e with network := e.network + packets e.members [message] } else e

def believe (server : Nat) (name : List Char) : Election := { e with leader := Function.update e.leader server name }

/-- A server that takes itself for the leader says so. -/
def announce (server : Nat) : Election :=
  if e.leader server = e.name server then e.send server (.newLeader (e.name server)) else e

def done (server : Nat) : Election := { e with unhandled := e.unhandled.erase server }

def received (packet : Packet) : Election := { e with network := e.network.erase packet }

/-- The member whose leave or disconnect made the view. -/
def gone? : Option SpreadGroup :=
  match e.view.change with
  | .leave left => some left
  | .disconnect disconnected => some disconnected
  | _ => none

end Election

/-- The steps of an election. -/
inductive ElectionStep : Election → Action → Election → Prop
  | elsewhere {e a} (action : ∀ name host, a ≠ .join name host) : ElectionStep e a e
  | join {e name host} (idle : e.unhandled = []) :
      ElectionStep e (.join name host)
        { e with started := e.started + 1
                 members := e.members ++ [e.started]
                 view := ⟨.join (privateGroup name host),
                   (e.members ++ [e.started]).map (Function.update e.group e.started (privateGroup name host))⟩
                 unhandled := e.members ++ [e.started]
                 group := Function.update e.group e.started (privateGroup name host)
                 name := Function.update e.name e.started name
                 leader := Function.update e.leader e.started [] }
  | depart {e server left} (idle : e.unhandled = []) (member : server ∈ e.members) :
      ElectionStep e (.depart server left)
        { e with members := e.members.erase server
                 view := ⟨if left then .leave (e.group server) else .disconnect (e.group server),
                   e.groups (e.members.erase server)⟩
                 unhandled := e.members.erase server
                 network := e.network.filter fun packet => packet.receiver ≠ server }
  /-- the first member takes the server that joined, itself, for the leader -/
  | first {e server joined name} (due : server ∈ e.unhandled) (view : e.view.change = .join joined)
      (alone : e.view.members.length = 1) (named : getServerName joined = some name) :
      ElectionStep e (.handle server) ((e.believe server name).done server)
  | asks {e server joined} (due : server ∈ e.unhandled) (view : e.view.change = .join joined)
      (more : e.view.members.length ≠ 1) (none : e.leader server = []) :
      ElectionStep e (.handle server) ((e.send server .whoIsLeader).done server)
  /-- nothing is to be done about this view -/
  | ignores {e server} (due : server ∈ e.unhandled)
      (other : e.gone? = none ∨ ∃ gone, e.gone? = some gone ∧ (getServerName gone = none ∨
        getServerName gone = some (e.leader server) ∧ maxCardinality e.view.members 0 = none))
      (knows : ∀ joined, e.view.change = .join joined →
        e.view.members.length = 1 ∧ getServerName joined = none ∨ e.view.members.length ≠ 1 ∧ e.leader server ≠ []) :
      ElectionStep e (.handle server) (e.done server)
  | elects {e server gone max} (due : server ∈ e.unhandled) (view : e.gone? = some gone)
      (leader : getServerName gone = some (e.leader server)) (highest : maxCardinality e.view.members 0 = some max) :
      ElectionStep e (.handle server) (((e.believe server (serverName max)).announce server).done server)
  | keeps {e server gone name} (due : server ∈ e.unhandled) (view : e.gone? = some gone)
      (named : getServerName gone = some name) (other : name ≠ e.leader server) :
      ElectionStep e (.handle server) ((e.announce server).done server)
  | told {e server name} (flying : ⟨server,.newLeader name⟩ ∈ e.network) (other : name ≠ e.name server) :
      ElectionStep e (.deliver ⟨server,.newLeader name⟩) ((e.received ⟨server,.newLeader name⟩).believe server name)
  | toldOwn {e server} (flying : ⟨server,.newLeader (e.name server)⟩ ∈ e.network) :
      ElectionStep e (.deliver ⟨server,.newLeader (e.name server)⟩)
        (e.received ⟨server,.newLeader (e.name server)⟩)
  | asked {e server} (flying : ⟨server,.whoIsLeader⟩ ∈ e.network) :
      ElectionStep e (.deliver ⟨server,.whoIsLeader⟩) ((e.received ⟨server,.whoIsLeader⟩).announce server)

/-! ### Every step of the group is one of them -/

section
variable {s : State}

theorem election_setManager {server : Nat} {manager : LeaderManager}
    (group : manager.group = (s.managers server).group) (name : manager.myServerName = (s.managers server).myServerName) :
    election (s.setManager server manager) = (election s).believe server manager.leaderServerName := by
  simp only [election,State.setManager,Election.believe,Election.mk.injEq,true_and,and_true]
  refine ⟨?_,?_,?_⟩
  · funext other
    by_cases same : other = server
    · subst same; simp [group]
    · simp [Function.update_of_ne same]
  · funext other
    by_cases same : other = server
    · subst same; simp [name]
    · simp [Function.update_of_ne same]
  · funext other
    by_cases same : other = server
    · subst same; simp
    · simp [Function.update_of_ne same]

theorem believe_same (e : Election) (server : Nat) : e.believe server (e.leader server) = e := by
  simp [Election.believe]

/-- What does not touch the names or the leader is not seen. -/
theorem election_setManager_same {server : Nat} {manager : LeaderManager}
    (group : manager.group = (s.managers server).group) (name : manager.myServerName = (s.managers server).myServerName)
    (leader : manager.leaderServerName = (s.managers server).leaderServerName) :
    election (s.setManager server manager) = election s := by
  rw [election_setManager group name,leader]
  exact believe_same (election s) server

@[simp] theorem election_setCall (i : Nat) (call : Call) : election (s.setCall i call) = election s := rfl
@[simp] theorem election_setVote (server : Nat) (vote : Option VoteCall) : election (s.setVote server vote) = election s := rfl

theorem packets_one (members : List Nat) (message : Message) :
    packets members [message] = (members.map fun member => ⟨member,message⟩ : List Packet) := by
  simp [packets]

theorem filter_packets (members : List Nat) (message : Message) :
    (packets members [message]).filter (fun packet => elective packet.message = true) =
      if elective message = true then packets members [message] else 0 := by
  rw [packets_one,Multiset.filter_coe]
  split
  next seen => simp [List.filter_eq_self.mpr,seen]
  next unseen => simp [unseen]

theorem election_multicast (server : Nat) (message : Message) :
    election (s.multicast server [message]) =
      if elective message = true then (election s).send server message else election s := by
  unfold State.multicast Election.send
  by_cases member : server ∈ s.members
  · have inside : server ∈ (election s).members := member
    rw [if_pos member,if_pos inside]
    by_cases seen : elective message = true
    · simp [election,filter_packets,seen]
    · simp [election,filter_packets,seen]
  · have outside : server ∉ (election s).members := member
    rw [if_neg member,if_neg outside]
    split <;> rfl

theorem multicast_nil (server : Nat) : s.multicast server [] = s := by
  simp [State.multicast,packets]

theorem election_handled (reach : Nat → Option Nat) (server : Nat) (outcome : Outcome) :
    election (s.handled reach server outcome) =
      election ((s.setManager server outcome.manager).multicast server outcome.sends) := by
  unfold State.handled
  dsimp only
  split <;> rfl

theorem election_stepVote (server : Nat) (call : VoteCall) : election (stepVote s server call) = election s := by
  unfold stepVote
  cases call.pc with
  | put owner last =>
    dsimp only
    rw [election_setVote]
    exact election_setManager_same rfl rfl rfl
  | _ =>
    dsimp only
    repeat' split
    all_goals rfl

theorem election_stepCall {reach : Nat → Option Nat} {t : State} {i fresh : Nat} {call : Call}
    (moved : stepCall reach s i fresh call = some t) : election t = election s := by
  cases stepCall_turn moved with
  | put | submitVote | remove =>
    rw [election_setCall]
    exact election_setManager_same rfl rfl rfl
  | sendAppend | sendVoting =>
    rw [election_setCall,election_multicast]
    rfl
  | _ => rfl

/-- The new value of a server that is notified of its own leadership. -/
theorem election_notifyIfLeader (server : Nat) (manager : LeaderManager)
    (group : manager.group = (s.managers server).group) (name : manager.myServerName = (s.managers server).myServerName) :
    election ((s.setManager server (notifyIfLeader manager).manager).multicast server (notifyIfLeader manager).sends) =
      ((election s).believe server manager.leaderServerName).announce server := by
  have believed := election_setManager group name
  have known : ((election s).believe server manager.leaderServerName).leader server = manager.leaderServerName := by
    simp [Election.believe]
  have named : ((election s).believe server manager.leaderServerName).name server = manager.myServerName := name.symm
  unfold notifyIfLeader Election.announce
  rw [known,named]
  by_cases leads : manager.leaderServerName = manager.myServerName
  · have : manager.amILeader = true := by simp [LeaderManager.amILeader,leads]
    rw [if_pos this,if_pos leads]
    simp only [sendIAmLeaderMessage]
    rw [election_multicast,believed,leads]
    rfl
  · have : manager.amILeader = false := by simp [LeaderManager.amILeader,leads]
    simp only [this,Bool.false_eq_true,if_false,if_neg leads]
    rw [multicast_nil,believed]

theorem election_unhandled (server : Nat) (manager : LeaderManager) (sends : List Message) :
    (election ((s.setManager server manager).multicast server sends)).unhandled = s.unhandled := by
  unfold State.multicast
  split <;> rfl

/-- What the listener makes of a view, as far as elections are about it. -/
def viewed (s : State) (server : Nat) : Election :=
  let outcome := membershipReceived (s.managers server) s.view
  election ((s.setManager server outcome.manager).multicast server outcome.sends)

theorem viewed_silent {server : Nat} {manager : LeaderManager}
    (outcome : membershipReceived (s.managers server) s.view = ⟨manager,[],none⟩)
    (group : manager.group = (s.managers server).group) (name : manager.myServerName = (s.managers server).myServerName) :
    viewed s server = (election s).believe server manager.leaderServerName := by
  simp only [viewed,outcome]
  rw [multicast_nil,election_setManager group name]

/-- A server left. -/
theorem viewed_leave {server : Nat} (gone : SpreadGroup) (due : server ∈ s.unhandled)
    (gone? : (election s).gone? = some gone) (other : ∀ joined, s.view.change ≠ .join joined)
    (outcome : membershipReceived (s.managers server) s.view =
      notifyServerLeave (updateMembersSize (s.managers server) s.view.members.length) gone s.view.members) :
    ElectionStep (election s) (.handle server) ((viewed s server).done server) := by
  unfold notifyServerLeave at outcome
  cases named : getServerName gone with
  | none =>
    simp only [named] at outcome
    rw [viewed_silent outcome rfl rfl]
    have same : (election s).believe server (s.managers server).leaderServerName = election s := believe_same (election s) server
    have seen : (updateMembersSize (s.managers server) s.view.members.length).leaderServerName =
        (s.managers server).leaderServerName := rfl
    rw [seen,same]
    exact .ignores due (.inr ⟨gone,gone?,.inl named⟩) fun joined joins => absurd joins (other joined)
  | some name =>
    simp only [named] at outcome
    by_cases leader : name = (s.managers server).leaderServerName
    · have condition : name = (updateMembersSize (s.managers server) s.view.members.length).leaderServerName := leader
      rw [if_pos condition] at outcome
      cases highest : maxCardinality s.view.members 0 with
      | none =>
        simp only [highest] at outcome
        rw [viewed_silent outcome rfl rfl]
        have same : (election s).believe server (s.managers server).leaderServerName = election s :=
          believe_same (election s) server
        have seen : (updateMembersSize (s.managers server) s.view.members.length).leaderServerName =
            (s.managers server).leaderServerName := rfl
        rw [seen,same]
        exact .ignores due (.inr ⟨gone,gone?,.inr ⟨by rw [named,leader]; rfl,highest⟩⟩)
          fun joined joins => absurd joins (other joined)
      | some max =>
        simp only [highest] at outcome
        have step := election_notifyIfLeader (s := s) server
          { updateMembersSize (s.managers server) s.view.members.length with leaderServerName := serverName max } rfl rfl
        rw [viewed,outcome,step]
        exact .elects due gone? (by rw [named,leader]; rfl) highest
    · have condition : name ≠ (updateMembersSize (s.managers server) s.view.members.length).leaderServerName := leader
      rw [if_neg condition] at outcome
      have step := election_notifyIfLeader (s := s) server
        (updateMembersSize (s.managers server) s.view.members.length) rfl rfl
      have same : (election s).believe server
          (updateMembersSize (s.managers server) s.view.members.length).leaderServerName = election s :=
        believe_same (election s) server
      rw [viewed,outcome,step,same]
      exact .keeps due gone? named leader

/-- The effect of a view on the elections. -/
theorem viewed_step {server : Nat} (due : server ∈ s.unhandled) :
    ElectionStep (election s) (.handle server) ((viewed s server).done server) := by
  have same : (election s).believe server
      (updateMembersSize (s.managers server) s.view.members.length).leaderServerName = election s :=
    believe_same (election s) server
  cases change : s.view.change with
  | network =>
    have outcome : membershipReceived (s.managers server) s.view =
        ⟨updateMembersSize (s.managers server) s.view.members.length,[],none⟩ := by
      simp [membershipReceived,change]
    rw [viewed_silent outcome rfl rfl,same]
    refine .ignores due (.inl ?_) fun joined joins => absurd (change.symm.trans joins) (by simp)
    simp [Election.gone?,election,change]
  | leave gone =>
    refine viewed_leave gone due ?_ (by simp [change]) ?_
    · simp [Election.gone?,election,change]
    · simp [membershipReceived,change]
  | disconnect gone =>
    refine viewed_leave gone due ?_ (by simp [change]) ?_
    · simp [Election.gone?,election,change]
    · simp [membershipReceived,change]
  | join joined =>
    have gone? : (election s).gone? = none := by simp [Election.gone?,election,change]
    by_cases alone : s.view.members.length = 1
    · have outcome : membershipReceived (s.managers server) s.view =
          ⟨assignFirstLeader (updateMembersSize (s.managers server) s.view.members.length) joined,[],none⟩ := by
        simp [membershipReceived,change,alone]
      unfold assignFirstLeader at outcome
      cases named : getServerName joined with
      | none =>
        simp only [named] at outcome
        rw [viewed_silent outcome rfl rfl,same]
        refine .ignores due (.inl gone?) fun other joins => .inl ?_
        cases change.symm.trans joins
        exact ⟨alone,named⟩
      | some name =>
        simp only [named] at outcome
        rw [viewed_silent outcome rfl rfl]
        exact .first due change alone named
    · cases knows : (updateMembersSize (s.managers server) s.view.members.length).doIHaveLeader with
      | true =>
        have outcome : membershipReceived (s.managers server) s.view =
            ⟨updateMembersSize (s.managers server) s.view.members.length,[],none⟩ := by
          simp [membershipReceived,change,alone,knows]
        rw [viewed_silent outcome rfl rfl,same]
        refine .ignores due (.inl gone?) fun other joins => .inr ⟨alone,?_⟩
        simpa [LeaderManager.doIHaveLeader,updateMembersSize,election] using knows
      | false =>
        have none : (election s).leader server = [] := by
          simpa [LeaderManager.doIHaveLeader,updateMembersSize,election] using knows
        have asked : viewed s server = (election s).send server .whoIsLeader := by
          simp only [viewed,membershipReceived,change,alone,if_false,knows,Bool.false_eq_true]
          rw [election_multicast,election_setManager (by rfl) (by rfl),same]
          rfl
        rw [asked]
        exact .asks due change alone none

theorem step_handle {reach : Nat → Option Nat} {t : State} {server : Nat} (move : step reach (.handle server) s = some t) :
    ElectionStep (election s) (.handle server) (election t) := by
  cases stepped move with
  | handle due _ =>
    have seen := viewed_step due
    have kept : (viewed s server).unhandled = s.unhandled := election_unhandled server _ _
    have done : (viewed s server).done server = { viewed s server with unhandled := s.unhandled.erase server } := by
      rw [Election.done,kept]
    rw [done] at seen
    have projected : ∀ u : State, election { u with unhandled := s.unhandled.erase server } =
        { election u with unhandled := s.unhandled.erase server } := fun _ => rfl
    rw [projected,election_handled]
    exact seen

/-- The effect of a regular message. -/
theorem step_deliver {reach : Nat → Option Nat} {t : State} {packet : Packet}
    (move : step reach (.deliver packet) s = some t) : ElectionStep (election s) (.deliver packet) (election t) := by
  cases stepped move with
  | deliver flying _ =>
    obtain ⟨server,message⟩ := packet
    rw [election_handled]
    let rest : State := { s with network := s.network.erase ⟨server,message⟩ }
    have network : (election rest).network =
        if elective message = true then (election s).network.erase ⟨server,message⟩ else (election s).network :=
      filter_erase flying
    have received (seen : elective message = true) : ⟨server,message⟩ ∈ (election s).network ∧
        election rest = (election s).received ⟨server,message⟩ := by
      rw [if_pos seen] at network
      refine ⟨Multiset.mem_filter.mpr ⟨flying,seen⟩,?_⟩
      rw [Election.received,← network]
      rfl
    have unseen (hidden : elective message = false) : election rest = election s := by
      rw [if_neg (by simp [hidden])] at network
      have : election rest = { election s with network := (election rest).network } := rfl
      rw [this,network]
    cases message with
    | newLeader name =>
      obtain ⟨flies,taken⟩ := received rfl
      simp only [messageReceived]
      rw [multicast_nil]
      unfold assignNewLeader
      by_cases own : name = (s.managers server).myServerName
      · subst own
        rw [if_neg (not_not.mpr rfl),election_setManager_same (s := rest) rfl rfl rfl,taken]
        exact .toldOwn flies
      · rw [if_pos own,election_setManager (s := rest) (by rfl) (by rfl),taken]
        exact .told flies own
    | whoIsLeader =>
      obtain ⟨flies,taken⟩ := received rfl
      have step := election_notifyIfLeader (s := rest) server (s.managers server) rfl rfl
      have same : (election rest).believe server (s.managers server).leaderServerName = election rest :=
        believe_same (election rest) server
      simp only [messageReceived,whoIsLeaderRequestedNotifyParticipantsWhoIsLeader]
      rw [step,same,taken]
      exact .asked flies
    | appendData key data =>
      simp only [messageReceived]
      rw [multicast_nil]
      have same : election (rest.setManager server (appendDataReceived (s.managers server) key data)) = election rest := by
        unfold appendDataReceived
        split
        · exact election_setManager_same (s := rest) rfl rfl rfl
        · exact election_setManager_same (s := rest) rfl rfl rfl
      rw [same,unseen rfl]
      exact .elsewhere fun _ _ => by simp
    | consensusVoting transactionId key data =>
      simp only [messageReceived]
      have same : election ((rest.setManager server (handleVoteRequest (s.managers server) transactionId key data).manager
          ).multicast server (handleVoteRequest (s.managers server) transactionId key data).sends) = election rest := by
        unfold handleVoteRequest
        repeat' split
        all_goals
          rw [multicast_nil]
          exact election_setManager_same (s := rest) rfl rfl rfl
      rw [same,unseen rfl]
      exact .elsewhere fun _ _ => by simp

/-- Every step of the group is a step of its elections. -/
theorem election_step {reach : Nat → Option Nat} {t : State} {a : Action} (move : step reach a s = some t) :
    ElectionStep (election s) a (election t) := by
  cases stepped move with
  | handle => exact step_handle move
  | deliver => exact step_deliver move
  | vote =>
    rw [election_stepVote]
    exact .elsewhere fun _ _ => by simp
  | call => exact .elsewhere fun _ _ => by simp
  | thread _ moved =>
    rw [election_stepCall moved]
    exact .elsewhere fun _ _ => by simp
  | @join name host idle =>
    let managers := Function.update s.managers s.started (.new name host)
    have group : Function.update (election s).group (election s).started (privateGroup name host) =
        fun server => (managers server).group := Eq.symm <| funext <|
      Function.apply_update (fun _ => LeaderManager.group) s.managers s.started (.new name host)
    have names : Function.update (election s).name (election s).started name =
        fun server => (managers server).myServerName := Eq.symm <| funext <|
      Function.apply_update (fun _ => LeaderManager.myServerName) s.managers s.started (.new name host)
    have leader : Function.update (election s).leader (election s).started [] =
        fun server => (managers server).leaderServerName := Eq.symm <| funext <|
      Function.apply_update (fun _ => LeaderManager.leaderServerName) s.managers s.started (.new name host)
    have joined : ElectionStep (election s) (.join name host) _ := .join idle
    rw [group,names,leader] at joined
    exact joined
  | @depart server left idle member =>
    have departed : ElectionStep (election s) (.depart server left) _ := .depart idle member
    have network : (s.network.filter fun packet => packet.receiver ≠ server).filter
        (fun packet => elective packet.message = true) =
        (election s).network.filter fun packet => packet.receiver ≠ server := by
      simp only [election,Multiset.filter_filter,and_comm]
    simp only [election] at departed network ⊢
    rw [network]
    exact departed

/-! ### While nothing is elected -/

/-- Nobody joins or departs. -/
def Stays : Action → Prop
  | .join _ _ | .depart _ _ => False
  | _ => True

instance : DecidablePred Stays
  | .join _ _ | .depart _ _ => isFalse id
  | .handle _ | .deliver _ | .vote _ | .call _ _ _ | .thread _ _ => isTrue trivial

/-- Without a change of the group and with no message about the leader in flight
    nothing changes what anybody takes for the leader. -/
theorem election_still {reach : Nat → Option Nat} {t : State} {a : Action} (handled : s.unhandled = [])
    (calm : (election s).network = 0) (stays : Stays a) (move : step reach a s = some t) : election t = election s := by
  have nobody (server : Nat) : server ∉ (election s).unhandled := by simp [election,handled]
  have nothing (packet : Packet) : packet ∉ (election s).network := by simp [calm]
  generalize after : election t = e
  have step := election_step move
  rw [after] at step
  cases step with
  | elsewhere => rfl
  | join | depart => exact stays.elim
  | first due | asks due | ignores due | elects due | keeps due => exact absurd due (nobody _)
  | told flying | toldOwn flying | asked flying => exact absurd flying (nothing _)

theorem amILeader_of_election {t : State} {server : Nat} (same : election t = election s) :
    (t.managers server).amILeader = (s.managers server).amILeader := by
  have leader : (t.managers server).leaderServerName = (s.managers server).leaderServerName :=
    congrFun (congrArg Election.leader same) server
  have name : (t.managers server).myServerName = (s.managers server).myServerName :=
    congrFun (congrArg Election.name same) server
  rw [LeaderManager.amILeader,leader,name,LeaderManager.amILeader]

end

end CdPraticas.Elections
