import CdPraticas.Keys

/-!
# The group size a server counts with

`writeData` and `wantToWriteResponse` take `numberOfParticipants - 2` for the
number of the other servers. A server knows the size of the last view delivered
to it, so this is right exactly as long as the configuration service is in
that view.
-/

namespace CdPraticas.Participants
open Runs Groups Messages Handlers Calls Cluster Keys

/-- What an action tells `server` about the group: the members of a view that is
    delivered to it, or nothing any more once its process starts again. -/
def viewAt (server : SpreadGroup) : Action → Option (List SpreadGroup)
  | .deliver packet _ =>
    match packet.body with
    | .membership info =>
      if packet.receiver = server ∧ info.isRegularMembership = true then some info.members else none
    | .regular _ => none
  | .boot started => if started = server then some [] else none
  | _ => none

/-- The members of the last view delivered to `server`; none before the first. -/
def lastView (server : SpreadGroup) (acts : List Action) : List SpreadGroup := (lastOf (viewAt server) acts).getD []

/-- The servers of a view other than `server`. -/
def others (server : SpreadGroup) (members : List SpreadGroup) : List SpreadGroup :=
  members.filter fun member => !isService member && member ≠ server

/-- The configuration service is not in the view and `count` other servers are. -/
def Unserved (server : SpreadGroup) (members : List SpreadGroup) (count : Nat) : Prop :=
  (∀ member ∈ members, isService member = false) ∧ (others server members).length = count

/-- The call is about to decide in `writeData` whether to ask the others. -/
def Decides (call : Call) : Prop := call.pc = .writeData ∧ ∃ dataDto, call.request = .write dataDto

/-- The next step of the call takes the branch that saves without asking. -/
def SavesAlone (settings : Settings) (s : State) (call : Call) : Prop :=
  ∃ choice effect, next settings (s.servers call.server).numberOfParticipants
    ((s.servers call.server).database.findById call.request.key) call choice = some (effect,.saveAlone)

/-- Whenever handling `body` invokes `allResponsesReceived`, the responses counted
    for the round with this one are at least `count`. -/
def Complete (settings : Settings) (self : LeaderManager) (me sender : SpreadGroup) (body : Body) (count : Nat) : Prop :=
  ∀ callback, .allResponsesReceived callback ∈ (messageReceived settings self me sender body).callbacks →
    ∃ key data, body = .regular (.wantToWriteResponse key) ∧ self.wantToWriteData key = some data ∧
      count ≤ data.receivedResponses + 1

/-- `server` has seen no view, and none is on its way to it. -/
def Fresh (server : SpreadGroup) (s : State) : Prop :=
  (s.servers server).numberOfParticipants = -1 ∧
    ∀ packet ∈ s.network, packet.receiver = server → ∀ info, packet.body ≠ .membership info

/-- Spread lists every member of a view once. -/
def Listed (_ : State) : Action → Prop
  | .view info => info.members.Nodup
  | _ => True

/-- What `server` knows is the size of its last view, and the views on their way
    to it list it. -/
structure Knows (server : SpreadGroup) (acts : List Action) (s : State) : Prop where
  size : (s.servers server).numberOfParticipants = -1 ∧ lastView server acts = [] ∨
    (s.servers server).numberOfParticipants = (lastView server acts).length ∧
      server ∈ lastView server acts ∧ (lastView server acts).Nodup
  flying : ∀ packet ∈ s.network, packet.receiver = server → ∀ info, packet.body = .membership info →
    server ∈ info.members ∧ info.members.Nodup

theorem lastView_snoc (server : SpreadGroup) (acts : List Action) (a : Action) :
    lastView server (acts ++ [a]) = (viewAt server a).getD (lastView server acts) := by
  unfold lastView
  rw [lastOf_snoc]
  cases viewAt server a <;> rfl

section
variable (settings : Settings) (self : LeaderManager) (me sender : SpreadGroup)

theorem checkStartup_participants (members : List SpreadGroup) :
    (checkStartup settings self me members).manager.numberOfParticipants = self.numberOfParticipants := by
  unfold checkStartup
  repeat' split
  all_goals rfl

/-- Only a view changes what a server knows of the group. -/
theorem messageReceived_size (body : Body) :
    (messageReceived settings self me sender body).manager.numberOfParticipants =
      match body with
      | .membership info => if info.isRegularMembership then info.members.length else self.numberOfParticipants
      | .regular _ => self.numberOfParticipants := by
  cases body with
  | membership info =>
    simp only [messageReceived]
    repeat' split
    · rw [checkStartup_participants]
      rfl
    · rfl
    · rfl
  | regular message =>
    cases about : message.key? with
    | some key => exact (messageReceived_participants settings self me sender about).1
    | none =>
      cases message with
      | startupRequestUpdate _ | startupResponseUpdate _ => rfl
      | _ => cases about

/-- No handler sends a membership message. -/
theorem packets_regular (members : List SpreadGroup) (call : Option Nat) (sends : List Send) :
    ∀ packet ∈ packets members me call sends, ∃ message, packet.body = .regular message := by
  intro packet member
  obtain ⟨_,send,_,body⟩ := packets_carry member
  exact ⟨_,body⟩
end

/-- Where a call decides, and by what. -/
theorem savesAlone_iff {settings : Settings} {s : State} {call : Call} :
    SavesAlone settings s call ↔ Decides call ∧ (s.servers call.server).numberOfParticipants = 2 := by
  constructor
  · rintro ⟨choice,effect,moved⟩
    cases next_move moved with
    | isAlone write here two => exact ⟨⟨here,_,write⟩,two⟩
  · rintro ⟨⟨here,dataDto,write⟩,two⟩
    exact ⟨.go,.skip,by simp [next,write,here,two]⟩

/-- Only a counted response invokes the callback. -/
theorem complete_iff {settings : Settings} {self : LeaderManager} {me sender : SpreadGroup} {body : Body} {count : Nat} :
    Complete settings self me sender body count ↔
      ∀ key data, body = .regular (.wantToWriteResponse key) → self.wantToWriteData key = some data →
        ((data.receivedResponses + 1 : Nat) : Int) ≥ self.numberOfParticipants - 2 → count ≤ data.receivedResponses + 1 := by
  constructor
  · intro complete key data response registered enough
    subst response
    obtain ⟨key',data',same,found,counted⟩ := complete data.callback (by
      simp only [messageReceived,wantToWriteResponse,registered]
      rw [if_pos enough]
      exact List.mem_singleton.mpr rfl)
    cases same
    cases registered.symm.trans found
    exact counted
  · intro enough callback invoked
    cases body with
    | membership info =>
      simp only [messageReceived,checkStartup] at invoked
      repeat' split at invoked
      all_goals cases invoked
    | regular message =>
      cases message with
      | wantToWriteResponse key =>
        simp only [messageReceived,wantToWriteResponse] at invoked
        split at invoked
        next data registered =>
          refine ⟨key,data,rfl,registered,enough key data rfl registered ?_⟩
          by_contra few
          rw [if_neg few] at invoked
          cases invoked
        next => cases invoked
      | _ =>
        simp only [messageReceived,askData,askDataResponse,startupData,startupDataResponse,wantToWriteReceived,
          conflictReceived,dataWritten,revalidateData,Outcome.unchanged] at invoked
        repeat' split at invoked
        all_goals simp at invoked

theorem length_others {server : SpreadGroup} {members : List SpreadGroup} (isServer : isService server = false)
    (member : server ∈ members) (distinct : members.Nodup) :
    members.length = (members.filter isService).length + 1 + (others server members).length := by
  have services := List.length_eq_length_filter_add (l := members) isService
  have split := List.length_eq_length_filter_add (l := members.filter fun other => !isService other)
    (fun other => decide (other ≠ server))
  have same : (members.filter fun other => !isService other).filter (fun other => decide (other ≠ server)) =
      others server members := by
    rw [List.filter_filter]
    exact List.filter_congr fun other _ => Bool.and_comm _ _
  have own : (members.filter fun other => !isService other).filter (fun other => !decide (other ≠ server)) = [server] := by
    have inside : server ∈ members.filter fun other => !isService other := by simp [member,isServer]
    have plain : (fun other : SpreadGroup => !decide (other ≠ server)) = fun other => other == server := by
      funext other
      by_cases same : other = server <;> simp [same]
    rw [plain,List.filter_beq,List.count_eq_one_of_mem (distinct.filter _) inside]
    rfl
  rw [same,own] at split
  simp only [List.length_singleton] at split
  omega

section
variable {settings : Settings} {server : SpreadGroup} {s t : State} {acts : List Action}

theorem Fresh.knows (fresh : Fresh server s) : Knows server [] s where
  size := .inl ⟨fresh.1,rfl⟩
  flying packet flying mine info membership := absurd membership (fresh.2 packet flying mine info)

/-- A step that tells `server` nothing and puts no view in flight. -/
theorem Knows.frame {a : Action} (knows : Knows server acts s) (silent : viewAt server a = none)
    (same : (t.servers server).numberOfParticipants = (s.servers server).numberOfParticipants)
    (network : ∀ packet ∈ t.network, packet ∈ s.network ∨ ∃ message, packet.body = .regular message) :
    Knows server (acts ++ [a]) t where
  size := by
    rw [lastView_snoc,silent,same]
    exact knows.size
  flying packet flying mine info membership := by
    rcases network packet flying with before | ⟨message,regular⟩
    · exact knows.flying packet before mine info membership
    · cases regular.symm.trans membership

theorem viewAt_elsewhere {packet : Packet} {sent : Bool} (other : packet.receiver ≠ server) :
    viewAt server (.deliver packet sent) = none := by
  simp only [viewAt]
  split
  · simp [other]
  · rfl

theorem Knows.deliver {packet : Packet} {sent : Bool} (knows : Knows server acts s) (isServer : isService server = false)
    (move : step settings (.deliver packet sent) s = some t) : Knows server (acts ++ [.deliver packet sent]) t := by
  cases service : isService packet.receiver with
  | true =>
    obtain ⟨_,rfl⟩ := step_service service move
    have other : packet.receiver ≠ server := by
      rintro rfl
      simp [service] at isServer
    exact knows.frame (viewAt_elsewhere other) rfl fun _ member => .inl (Multiset.mem_of_mem_erase member)
  | false =>
    obtain ⟨flying,outcome,rfl,move⟩ := step_handled service move
    have network : ∀ other ∈ t.network, other ∈ s.network ∨ ∃ message, other.body = .regular message := by
      intro other member
      rw [move] at member
      rcases Multiset.mem_add.mp member with before | new
      · exact .inl (Multiset.mem_of_mem_erase before)
      · split_ifs at new
        · exact .inr (packets_regular _ _ _ _ other new)
        · simp at new
    by_cases mine : packet.receiver = server
    · have size := messageReceived_size settings (s.servers server) server packet.sender packet.body
      have here : t.servers server = (messageReceived settings (s.servers server) server packet.sender packet.body).manager := by
        simp [move,← mine]
      rw [← here] at size
      cases body : packet.body with
      | regular message =>
        rw [body] at size
        exact knows.frame (by simp [viewAt,body]) size network
      | membership info =>
        rw [body] at size
        by_cases regular : info.isRegularMembership
        · have told : viewAt server (.deliver packet sent) = some info.members := by simp [viewAt,body,mine,regular]
          refine ⟨?_,fun other flies ours seen membership => ?_⟩
          · rw [lastView_snoc,told]
            exact .inr ⟨by simpa [regular] using size,knows.flying packet flying mine info body⟩
          · rcases network other flies with before | ⟨message,isRegular⟩
            · exact knows.flying other before ours seen membership
            · cases isRegular.symm.trans membership
        · exact knows.frame (by simp [viewAt,body,regular]) (by simpa [regular] using size) network
    · refine knows.frame (viewAt_elsewhere mine) ?_ network
      simp [move,Function.update_of_ne (Ne.symm mine)]

theorem Knows.step {a : Action} (knows : Knows server acts s) (isServer : isService server = false) (listed : Listed s a)
    (move : step settings a s = some t) : Knows server (acts ++ [a]) t := by
  cases a with
  | call i other request =>
    obtain ⟨_,_,rfl⟩ := step_started move
    exact knows.frame rfl rfl fun _ member => .inl member
  | thread i choice =>
    obtain ⟨call,effect,pc,_,_,rfl⟩ := step_moved move
    refine knows.frame rfl ?_ fun packet member => ?_
    · by_cases mine : call.server = server
      · subst mine
        simp [apply_participants]
      · simp [Function.update_of_ne (Ne.symm mine)]
    · rcases Multiset.mem_add.mp member with before | new
      · exact .inl before
      · exact .inr (packets_regular _ _ _ _ packet new)
  | deliver packet sent => exact knows.deliver isServer move
  | view info =>
    cases move
    refine ⟨?_,fun packet member mine other membership => ?_⟩
    · rw [lastView_snoc]
      exact knows.size
    · rcases Multiset.mem_add.mp member with before | new
      · exact knows.flying packet before mine other membership
      · obtain ⟨receiver,inside,rfl⟩ := List.mem_map.mp (Multiset.mem_coe.mp new)
        cases membership
        exact ⟨mine ▸ inside,listed⟩
  | boot started =>
    cases move
    by_cases mine : started = server
    · subst mine
      refine ⟨.inl ⟨?_,?_⟩,knows.flying⟩
      · simp [LeaderManager.initial]
      · simp [lastView_snoc,viewAt]
    · exact knows.frame (by simp [viewAt,mine]) (by simp [Function.update_of_ne (Ne.symm mine)]) fun _ member => .inl member

theorem knows_run {start : State} (fresh : Fresh server start) (isServer : isService server = false)
    (run : Run (Restrict Listed (Steps (Cluster.step settings))) start acts s) : Knows server acts s :=
  run.invariant fresh.knows fun _ _ _ _ _ knows move => knows.step isServer move.1 move.2

end

/-- In every run and whatever happened to the group: a write asks nobody only when
    no other server is in the last view, and a round is complete only with as
    many responses as there are other servers in it, exactly as long as it is
    not so that the configuration service is missing there and the other
    servers are as many as one such count takes for none left. -/
theorem participants_mean_others (settings : Settings) (server : SpreadGroup) (start s : State) (acts : List Action)
    (fresh : Fresh server start) (isServer : isService server = false)
    (run : Run (Restrict Listed (Steps (step settings))) start acts s) :
    (∀ i call, s.calls i = some call → call.server = server →
      ((SavesAlone settings s call → others server (lastView server acts) = []) ↔
        (Decides call → ¬ Unserved server (lastView server acts) 1))) ∧
    (∀ sender body,
      (Complete settings (s.servers server) server sender body (others server (lastView server acts)).length ↔
        ∀ key data, body = .regular (.wantToWriteResponse key) → (s.servers server).wantToWriteData key = some data →
          ¬ Unserved server (lastView server acts) (data.receivedResponses + 2))) := by
  have knows := knows_run fresh isServer run
  have unserved : ∀ count, Unserved server (lastView server acts) count ↔
      ((lastView server acts).filter isService).length = 0 ∧ (others server (lastView server acts)).length = count := by
    intro count
    simp [Unserved]
  have sizes : (s.servers server).numberOfParticipants = -1 ∧ (others server (lastView server acts)).length = 0 ∨
      (s.servers server).numberOfParticipants = ((lastView server acts).filter isService).length + 1 +
        (others server (lastView server acts)).length := by
    rcases knows.size with ⟨unknown,none⟩ | ⟨size,member,distinct⟩
    · exact .inl ⟨unknown,by simp [none,others]⟩
    · have counted := length_others isServer member distinct
      exact .inr (by omega)
  constructor
  · intro i call _ mine
    rw [savesAlone_iff,mine,unserved,← List.length_eq_zero_iff]
    constructor
    · rintro alone decides ⟨noService,one⟩
      have := alone ⟨decides,by omega⟩
      omega
    · rintro served ⟨decides,two⟩
      have := served decides
      omega
  · intro sender body
    rw [complete_iff]
    refine forall₄_congr fun key data _ _ => ?_
    rw [unserved]
    omega

/-- Everything just started, and nobody in the group yet. -/
def startUp : State := ⟨[],fun _ => .initial ∅,fun _ => none,0⟩

/-- A view of the group, and its delivery to Server1. -/
def seen (cause : Cause) (members : List SpreadGroup) : List Action :=
  [.view ⟨true,cause,members⟩,.deliver ⟨server1,server1,.membership ⟨true,cause,members⟩,none⟩ true]

instance (s : State) : DecidablePred (Listed s)
  | .view info => inferInstanceAs (Decidable info.members.Nodup)
  | .call _ _ _ | .thread _ _ | .deliver _ _ | .boot _ => isTrue trivial

/-- A client writes at Server1 while all three are in the group. -/
def served : List Action :=
  List.flatten [seen .join [service,server1],seen .join [service,server1,server2],[.call 0 server1 (.write ⟨"k","a"⟩)]]

theorem participants_mean_others_pair :
    ∃ s call, Run (Restrict Listed (Steps (step .properties))) startUp served s ∧ s.calls 0 = some call ∧
      Decides call ∧ ((SavesAlone .properties s call → others server1 (lastView server1 served) = []) ↔
        (Decides call → ¬ Unserved server1 (lastView server1 served) 1)) := by
  obtain ⟨s,run,here⟩ := exists_run_of_exec (step .properties) Listed
    (fun s => s.calls 0 = some (Call.start true server1 (.write ⟨"k","a"⟩))) startUp served (by decide)
  have mean := participants_mean_others .properties server1 startUp s served ⟨rfl,fun _ none => by cases none⟩ (by decide) run
  exact ⟨s,_,run,here,⟨rfl,_,rfl⟩,mean.1 0 _ here rfl⟩

/-- The configuration service leaves before the client writes at Server1. -/
def abandoned : List Action :=
  List.flatten [seen .join [service,server1,server2],seen .disconnect [server1,server2],
    [.call 0 server1 (.write ⟨"k","a"⟩)]]

/-- Server1 saves without asking although Server2 is in the group. -/
theorem participants_miss_one :
    ¬ ∀ (settings : Settings) (server : SpreadGroup) (start s : State) (acts : List Action), Fresh server start →
      isService server = false → Run (Restrict Listed (Steps (step settings))) start acts s →
      (∀ i call, s.calls i = some call → call.server = server → SavesAlone settings s call →
        others server (lastView server acts) = []) ∧
      ∀ sender body, Complete settings (s.servers server) server sender body
        (others server (lastView server acts)).length := by
  intro mean
  obtain ⟨s,run,here,size⟩ := exists_run_of_exec (step .properties) Listed
    (fun s => s.calls 0 = some (Call.start true server1 (.write ⟨"k","a"⟩)) ∧
      (s.servers server1).numberOfParticipants = 2) startUp abandoned (by decide)
  have alone := (mean .properties server1 startUp s abandoned ⟨rfl,fun _ none => by cases none⟩ (by decide) run).1 0 _ here
    rfl (savesAlone_iff.mpr ⟨⟨rfl,_,rfl⟩,size⟩)
  revert alone
  decide

end CdPraticas.Participants
