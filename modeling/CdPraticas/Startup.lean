import CdPraticas.Participants

/-!
# Servers that start up

A server that joins has another one, elected among the members, refresh its
data, and starts no client call before that. The first server has nobody to
ask: it goes on waiting until a second one joins.
-/

namespace CdPraticas.Startup
open Runs Groups Messages Handlers Calls Cluster Keys Participants

/-- The views and the messages of a startup. -/
def startsUp : Body → Bool
  | .membership _ => true
  | .regular (.startupRequestUpdate _) | .regular (.startupResponseUpdate _) => true
  | .regular _ => false

/-- The configuration service and servers that can be told apart. -/
structure Roster (settings : Settings) (members : List SpreadGroup) : Prop where
  nodup : members.Nodup
  service : (members.filter isService).length = 1
  cardinality : ∀ server ∈ members, isService server = false →
    ∃ cardinality, 0 < cardinality ∧ getServerNameCardinality settings.isLocal server = some cardinality
  distinct : ∀ server ∈ members, ∀ other ∈ members, isService server = false → isService other = false →
    getServerNameCardinality settings.isLocal server = getServerNameCardinality settings.isLocal other → server = other

/-- Servers join one after another, each with a positive cardinality that no
    other has, and no send of a handler fails. A process starts before it joins. -/
def Joins (settings : Settings) (s : State) : Action → Prop
  | .view info =>
    info.isRegularMembership = true ∧ info.cause = .join ∧
      ∃ server, server ∉ s.members ∧ info.members.Perm (server :: s.members) ∧ isService server = false ∧
        ∃ cardinality, 0 < cardinality ∧ getServerNameCardinality settings.isLocal server = some cardinality ∧
          ∀ member ∈ s.members, isService member = false →
            getServerNameCardinality settings.isLocal member ≠ some cardinality
  | .boot server => server ∉ s.members
  | .deliver _ sent => sent = true
  | _ => True

/-- The configuration service is alone in the group, and every server has just started. -/
structure Vacant (s : State) : Prop where
  members : ∃ service, isService service = true ∧ s.members = [service]
  starting : ∀ server, (s.servers server).waitStartupDataUpdate = true
  silent : ∀ packet ∈ s.network, startsUp packet.body = false

/-- What will end the startup of `server` is on its way. -/
inductive Helped (s : State) (server : SpreadGroup) : Prop
  | view {sender : SpreadGroup} {info : MembershipInfo} {call : Option Nat}
      (flies : ⟨server,sender,.membership info,call⟩ ∈ s.network) (more : 2 < info.members.length)
  | request {helper : SpreadGroup} {dataDtoList : List Store.DataDto} {call : Option Nat}
      (flies : ⟨helper,server,.regular (.startupRequestUpdate dataDtoList),call⟩ ∈ s.network)
      (answers : isService helper = false)
  | response {sender : SpreadGroup} {dataDtoList : List Store.DataDto} {call : Option Nat}
      (flies : ⟨server,sender,.regular (.startupResponseUpdate dataDtoList),call⟩ ∈ s.network)

/-- What holds while servers join. -/
structure Starting (settings : Settings) (s : State) : Prop where
  roster : Roster settings s.members
  views : ∀ packet ∈ s.network, ∀ info, packet.body = .membership info → info.isRegularMembership = true ∧
    info.cause = .join ∧ Roster settings info.members ∧ packet.receiver ∈ info.members ∧
    info.members.length ≤ s.members.length
  waiting : ∀ server ∈ s.members, isService server = false → (s.servers server).waitStartupDataUpdate = true →
    s.members.length ≤ 2 ∨ Helped s server
  alone : s.members.length ≤ 2 → (∀ server, (s.servers server).waitStartupDataUpdate = true) ∧
    ∀ packet ∈ s.network, ∀ message, packet.body = .regular message → startsUp packet.body = false

/-! ### The election of the coordinator -/

section
variable {settings : Settings} {me : SpreadGroup}

theorem elect_service {member : SpreadGroup} (service : isService member = true) (rest : List SpreadGroup)
    (index max leaderIndex : Nat) : electCoordinator settings me (member :: rest) index max leaderIndex =
      electCoordinator settings me rest (index + 1) max leaderIndex := by
  have name : getServerName member = some "Service".toList := by simpa [isService] using service
  simp [electCoordinator,name]

/-- The step of the loop at a server: it is taken when it is higher than what was
    found before and not this server. -/
theorem elect_server {member : SpreadGroup} {own cardinality : Nat} (server : isService member = false)
    (mine : getServerNameCardinality settings.isLocal me = some own)
    (known : getServerNameCardinality settings.isLocal member = some cardinality) (rest : List SpreadGroup)
    (index max leaderIndex : Nat) : electCoordinator settings me (member :: rest) index max leaderIndex =
      if max < cardinality ∧ cardinality ≠ own then electCoordinator settings me rest (index + 1) cardinality index
      else electCoordinator settings me rest (index + 1) max leaderIndex := by
  obtain ⟨name,named⟩ : ∃ name, getServerName member = some name := by
    unfold getServerNameCardinality at known
    split at known
    next named _ => exact ⟨_,named⟩
    next => cases known
  have notService : name ≠ "Service".toList := by
    rintro rfl
    simp [isService,named] at server
  rw [electCoordinator,named]
  dsimp only
  rw [if_neg notService,known,mine]
  dsimp only
  by_cases higher : max < cardinality
  · by_cases other : cardinality ≠ own
    · rw [if_pos higher,if_pos other,if_pos ⟨higher,other⟩]
    · rw [if_pos higher,if_neg other,if_neg (fun both => other both.2)]
  · rw [if_neg higher,if_neg (fun both => higher both.1)]

/-- The loop ends with a server of the list that is higher than what was found before
    and not this server, or there was none. -/
theorem elect_spec {own : Nat} (mine : getServerNameCardinality settings.isLocal me = some own) (members : List SpreadGroup)
    (known : ∀ server ∈ members, isService server = false → ∃ cardinality,
      getServerNameCardinality settings.isLocal server = some cardinality) (index max leaderIndex : Nat) :
    ∃ elected, electCoordinator settings me members index max leaderIndex = some elected ∧
      (elected = leaderIndex ∧ (∀ server ∈ members, isService server = false → ∀ cardinality,
          getServerNameCardinality settings.isLocal server = some cardinality → cardinality ≤ max ∨ cardinality = own) ∨
        ∃ offset leader cardinality, elected = index + offset ∧ members[offset]? = some leader ∧ isService leader = false ∧
          getServerNameCardinality settings.isLocal leader = some cardinality ∧ max < cardinality ∧ cardinality ≠ own) := by
  induction members generalizing index max leaderIndex with
  | nil => exact ⟨leaderIndex,rfl,.inl ⟨rfl,by simp⟩⟩
  | cons member rest ih =>
    have known' : ∀ server ∈ rest, isService server = false → _ := fun server inside => known server (List.mem_cons_of_mem _ inside)
    have later : ∀ {elected leader : _} {offset : Nat}, elected = index + 1 + offset → rest[offset]? = some leader →
        elected = index + (offset + 1) ∧ (member :: rest)[offset + 1]? = some leader := by
      rintro elected leader offset rfl here
      exact ⟨by omega,by simpa using here⟩
    cases service : isService member with
    | true =>
      obtain ⟨elected,loop,last⟩ := ih known' (index + 1) max leaderIndex
      refine ⟨elected,(elect_service service ..).trans loop,?_⟩
      rcases last with ⟨same,low⟩ | ⟨offset,leader,cardinality,place,here,server,found⟩
      · refine .inl ⟨same,?_⟩
        rintro server (_ | ⟨_,inside⟩) plain
        · simp [service] at plain
        · exact low server inside plain
      · exact .inr ⟨offset + 1,leader,cardinality,(later place here).1,(later place here).2,server,found⟩
    | false =>
      obtain ⟨cardinality,has⟩ := known member (by simp) service
      rw [elect_server service mine has]
      split
      case isTrue taken =>
        obtain ⟨elected,loop,last⟩ := ih known' (index + 1) cardinality index
        refine ⟨elected,loop,.inr ?_⟩
        rcases last with ⟨same,-⟩ | ⟨offset,leader,higher,place,here,server,has',more,other⟩
        · exact ⟨0,member,cardinality,same,rfl,service,has,taken⟩
        · exact ⟨offset + 1,leader,higher,(later place here).1,(later place here).2,server,has',by omega,other⟩
      case isFalse left =>
        obtain ⟨elected,loop,last⟩ := ih known' (index + 1) max leaderIndex
        refine ⟨elected,loop,?_⟩
        rcases last with ⟨same,low⟩ | ⟨offset,leader,higher,place,here,server,found⟩
        · refine .inl ⟨same,?_⟩
          rintro server (_ | ⟨_,inside⟩) plain cardinality' has'
          · cases has.symm.trans has'
            by_contra neither
            exact left ⟨by omega,by omega⟩
          · exact low server inside plain cardinality' has'
        · exact .inr ⟨offset + 1,leader,higher,(later place here).1,(later place here).2,server,found⟩

/-- A third member can be elected. -/
theorem Roster.another {members : List SpreadGroup} (roster : Roster settings members) (inside : me ∈ members)
    (server : isService me = false) (more : 2 < members.length) :
    ∃ other ∈ members, isService other = false ∧ other ≠ me := by
  have counted := length_others server inside roster.nodup
  have some : 0 < (others me members).length := by
    have := roster.service
    omega
  obtain ⟨other,found⟩ := List.exists_mem_of_length_pos some
  simp only [others,List.mem_filter,Bool.and_eq_true,Bool.not_eq_true',decide_eq_true_eq] at found
  exact ⟨other,found.1,found.2.1,found.2.2⟩

theorem Roster.elects {members : List SpreadGroup} (roster : Roster settings members) (inside : me ∈ members)
    (server : isService me = false) (more : 2 < members.length) :
    ∃ leader, (electCoordinator settings me members 0 0 0).bind (members[·]?) = some leader ∧ isService leader = false := by
  obtain ⟨own,_,mine⟩ := roster.cardinality me inside server
  have known (server : SpreadGroup) (inside : server ∈ members) (plain : isService server = false) :
      ∃ cardinality, getServerNameCardinality settings.isLocal server = some cardinality :=
    (roster.cardinality server inside plain).imp fun _ => And.right
  obtain ⟨elected,found,last⟩ := elect_spec mine members known 0 0 0
  rcases last with ⟨-,low⟩ | ⟨offset,leader,_,place,here,plain,_⟩
  · obtain ⟨other,also,plain,different⟩ := roster.another inside server more
    obtain ⟨cardinality,positive,has⟩ := roster.cardinality other also plain
    rcases low other also plain cardinality has with low | same
    · omega
    · exact absurd (roster.distinct other also me inside plain server (by rw [has,mine,same])) different
  · exact ⟨leader,by rw [found,place]; simpa using here,plain⟩

end

/-! ### The handlers -/

section
variable {settings : Settings} {self : LeaderManager} {me sender : SpreadGroup}

/-- Only a startup response ends a startup. -/
theorem messageReceived_waits (settings : Settings) (self : LeaderManager) (me sender : SpreadGroup) (body : Body) :
    (messageReceived settings self me sender body).manager.waitStartupDataUpdate =
    match body with
    | .regular (.startupResponseUpdate _) => false
    | _ => self.waitStartupDataUpdate := by
  cases body with
  | membership info =>
    simp only [messageReceived,checkStartup]
    repeat' split
    all_goals rfl
  | regular message =>
    cases about : message.key? with
    | some key =>
      rw [(messageReceived_participants settings self me sender about).2]
      cases message with
      | startupRequestUpdate _ | startupResponseUpdate _ => cases about
      | _ => rfl
    | none =>
      cases message with
      | startupRequestUpdate _ | startupResponseUpdate _ => rfl
      | _ => cases about

/-- The messages of a startup are sent for a larger view and for a request. -/
theorem startup_sent {body : Body} {send : Send} (sent : send ∈ (messageReceived settings self me sender body).sends)
    (startup : startsUp (.regular send.message) = true) :
    (∃ dataDtoList, body = .regular (.startupRequestUpdate dataDtoList)) ∨
      ∃ info, body = .membership info ∧ 2 < info.members.length := by
  cases body with
  | membership info =>
    refine .inr ⟨info,rfl,?_⟩
    simp only [messageReceived,checkStartup] at sent
    repeat' split at sent
    case h_1 => omega
    all_goals simp [Outcome.unchanged] at sent
  | regular message =>
    cases message with
    | startupRequestUpdate dataDtoList => exact .inl ⟨dataDtoList,rfl⟩
    | _ =>
      simp only [messageReceived,askData,askDataResponse,startupDataResponse,wantToWriteReceived,wantToWriteResponse,
        conflictReceived,dataWritten,revalidateData,Outcome.unchanged] at sent
      repeat' split at sent
      all_goals simp at sent
      all_goals subst sent; cases startup

/-- A client call sends none of them. -/
theorem thread_sends {participants : Int} {stored : Option Store.DataEntity} {call : Call} {choice : Choice} {effect : Effect}
    {pc : Pc} (moved : next settings participants stored call choice = some (effect,pc)) {send : Send}
    (sent : send ∈ effect.sends) : startsUp (.regular send.message) = false := by
  cases next_move moved with
  | sendWantToWrite | sendDataWritten | sendRevalidate | sendAskData =>
    rw [List.mem_singleton.mp sent]
    rfl
  | _ => cases sent

/-- A server that is starting up asks for help when it sees a larger view. -/
theorem asks_for_help (sender : SpreadGroup) {info : MembershipInfo} (starting : self.waitStartupDataUpdate = true)
    (regular : info.isRegularMembership = true) (join : info.cause = .join) (roster : Roster settings info.members)
    (inside : me ∈ info.members) (server : isService me = false) (more : 2 < info.members.length) :
    ∃ helper dataDtoList, isService helper = false ∧ (messageReceived settings self me sender (.membership info)).sends =
      [.unicast (.startupRequestUpdate dataDtoList) helper] := by
  obtain ⟨helper,elected,plain⟩ := roster.elects inside server more
  refine ⟨helper,self.database.findAll.map Store.DataEntity.toDto,plain,?_⟩
  have started : (updateNumberOfParticipants self info.members.length).waitStartupDataUpdate = true := starting
  simp only [messageReceived]
  rw [if_pos regular,if_pos ⟨join,more.le⟩,checkStartup,if_pos started,if_neg (by omega),elected]
  rfl

end

/-! ### Every step keeps it -/

section
variable {settings : Settings} {s t : State} {a : Action}

theorem Vacant.starting_up (vacant : Vacant s) : Starting settings s := by
  obtain ⟨service,isService',members⟩ := vacant.members
  refine ⟨?_,?_,?_,?_⟩
  · rw [members]
    refine ⟨by simp,by simp [isService'],?_,?_⟩
    · intro server inside plain
      rw [List.mem_singleton.mp inside,isService'] at plain
      cases plain
    · intro server inside other also _ _ _
      rw [List.mem_singleton.mp inside,List.mem_singleton.mp also]
  · intro packet flying info body
    have silent := vacant.silent packet flying
    rw [body] at silent
    cases silent
  · intro _ _ _ _
    exact .inl (by simp [members])
  · exact fun _ => ⟨vacant.starting,fun packet flying _ _ => vacant.silent packet flying⟩

/-- A step that starts nobody up and takes no view or message of a startup away. -/
theorem Starting.frame (starting : Starting settings s) (members : t.members = s.members)
    (flags : ∀ server, (t.servers server).waitStartupDataUpdate = (s.servers server).waitStartupDataUpdate ∨
      server ∉ s.members ∧ (t.servers server).waitStartupDataUpdate = true)
    (kept : ∀ packet ∈ s.network, startsUp packet.body = true → packet ∈ t.network)
    (network : ∀ packet ∈ t.network, packet ∈ s.network ∨ startsUp packet.body = false) : Starting settings t := by
  refine ⟨members ▸ starting.roster,?_,?_,?_⟩
  · intro packet flying info body
    rw [members]
    rcases network packet flying with before | plain
    · exact starting.views packet before info body
    · rw [body] at plain
      cases plain
  · intro server inside plain waits
    rw [members] at inside ⊢
    have waited : (s.servers server).waitStartupDataUpdate = true := by
      rcases flags server with same | ⟨outside,_⟩
      · rw [← same,waits]
      · exact absurd inside outside
    refine (starting.waiting server inside plain waited).imp_right fun helped => ?_
    cases helped with
    | view flies more => exact .view (kept _ flies rfl) more
    | request flies answers => exact .request (kept _ flies rfl) answers
    | response flies => exact .response (kept _ flies rfl)
  · intro few
    rw [members] at few
    obtain ⟨waits,silent⟩ := starting.alone few
    refine ⟨fun server => ?_,fun packet flying message body => ?_⟩
    · rcases flags server with same | ⟨_,waits'⟩
      · rw [same,waits]
      · exact waits'
    · rcases network packet flying with before | plain
      · exact silent packet before message body
      · exact plain

theorem Starting.view {info : MembershipInfo} (starting : Starting settings s) (joins : Joins settings s (.view info))
    (move : step settings (.view info) s = some t) : Starting settings t := by
  obtain ⟨regular,join,server,outside,same,plain,cardinality,positive,has,new⟩ := joins
  cases move
  have longer : info.members.length = s.members.length + 1 := by rw [same.length_eq,List.length_cons]
  have roster : Roster settings info.members := by
    refine ⟨same.nodup_iff.mpr (List.nodup_cons.mpr ⟨outside,starting.roster.nodup⟩),?_,?_,?_⟩
    · rw [(same.filter _).length_eq,List.filter_cons_of_neg (by simp [plain])]
      exact starting.roster.service
    · intro other inside isServer
      rcases List.mem_cons.mp (same.mem_iff.mp inside) with rfl | old
      · exact ⟨cardinality,positive,has⟩
      · exact starting.roster.cardinality other old isServer
    · intro one inside two also isOne isTwo equal
      rcases List.mem_cons.mp (same.mem_iff.mp inside) with rfl | old <;>
        rcases List.mem_cons.mp (same.mem_iff.mp also) with rfl | old'
      · rfl
      · exact absurd (equal.symm.trans has) (new two old' isTwo)
      · exact absurd (equal.trans has) (new one old isOne)
      · exact starting.roster.distinct one old two old' isOne isTwo equal
  refine ⟨roster,?_,?_,?_⟩
  · intro packet flying other body
    rcases Multiset.mem_add.mp flying with before | told
    · obtain ⟨isRegular,isJoin,others,inside,short⟩ := starting.views packet before other body
      exact ⟨isRegular,isJoin,others,inside,by dsimp only; omega⟩
    · obtain ⟨receiver,inside,rfl⟩ := List.mem_map.mp (Multiset.mem_coe.mp told)
      cases body
      exact ⟨regular,join,roster,inside,le_rfl⟩
  · intro other inside _ _
    rcases Nat.lt_or_ge 2 info.members.length with more | few
    · have told : (⟨other,other,.membership info,none⟩ : Packet) ∈
          info.members.map fun member => (⟨member,member,.membership info,none⟩ : Packet) :=
        List.mem_map.mpr ⟨other,inside,rfl⟩
      exact .inr (.view (Multiset.mem_add.mpr (.inr (Multiset.mem_coe.mpr told))) more)
    · exact .inl few
  · intro few
    dsimp only at few
    obtain ⟨waits,silent⟩ := starting.alone (by omega)
    refine ⟨waits,fun packet flying message body => ?_⟩
    rcases Multiset.mem_add.mp flying with before | told
    · exact silent packet before message body
    · obtain ⟨receiver,_,rfl⟩ := List.mem_map.mp (Multiset.mem_coe.mp told)
      cases body

theorem Starting.handled {packet : Packet} {outcome : Outcome} (starting : Starting settings s)
    (delivered : Delivered settings packet outcome s t) : Starting settings t := by
  obtain ⟨flying,handles,members,here,elsewhere,_,network⟩ := delivered
  have waits_here := messageReceived_waits settings (s.servers packet.receiver) packet.receiver packet.sender packet.body
  rw [handles,← here] at waits_here
  refine ⟨members ▸ starting.roster,?_,?_,?_⟩
  · intro other flies info body
    rw [network] at flies
    rw [members]
    rcases Multiset.mem_add.mp flies with before | new
    · exact starting.views other (Multiset.mem_of_mem_erase before) info body
    · obtain ⟨message,regular⟩ := packets_regular _ _ _ _ other new
      cases regular.symm.trans body
  · intro server inside plain waits
    rw [members] at inside ⊢
    have stays {other : Packet} (flies : other ∈ s.network) (different : other ≠ packet) : other ∈ t.network := by
      rw [network]
      exact Multiset.mem_add.mpr (.inl ((Multiset.mem_erase_of_ne different).mpr flies))
    have waited : (s.servers server).waitStartupDataUpdate = true := by
      by_cases same : server = packet.receiver
      · subst same
        rw [waits_here] at waits
        split at waits
        · cases waits
        · exact waits
      · rwa [elsewhere server same] at waits
    refine (starting.waiting server inside plain waited).imp_right fun helped => ?_
    cases helped with
    | @view sender info call flies more =>
      by_cases same : (⟨server,sender,.membership info,call⟩ : Packet) = packet
      · subst same
        obtain ⟨regular,join,roster,also,_⟩ := starting.views _ flies info rfl
        obtain ⟨helper,dataDtoList,answers,asks⟩ := asks_for_help sender waited regular join roster also plain more
        rw [handles] at asks
        have asked : (⟨helper,server,.regular (.startupRequestUpdate dataDtoList),call⟩ : Packet) ∈ t.network := by
          rw [network,asks]
          exact Multiset.mem_add.mpr (.inr (by simp))
        exact .request asked answers
      · exact .view (stays flies same) more
    | @request helper dataDtoList call flies answers =>
      by_cases same : (⟨helper,server,.regular (.startupRequestUpdate dataDtoList),call⟩ : Packet) = packet
      · subst same
        obtain ⟨response,responds⟩ : ∃ response, outcome.sends = [.unicast (.startupResponseUpdate response) server] := by
          rw [← handles]
          exact ⟨_,rfl⟩
        have told : (⟨server,helper,.regular (.startupResponseUpdate response),call⟩ : Packet) ∈ t.network := by
          rw [network,responds]
          exact Multiset.mem_add.mpr (.inr (by simp))
        exact .response told
      · exact .request (stays flies same) answers
    | @response sender dataDtoList call flies =>
      by_cases same : (⟨server,sender,.regular (.startupResponseUpdate dataDtoList),call⟩ : Packet) = packet
      · subst same
        exact absurd (waits_here.symm.trans waits) (by simp)
      · exact .response (stays flies same)
  · intro few
    rw [members] at few
    obtain ⟨waits,silent⟩ := starting.alone few
    refine ⟨fun server => ?_,fun other flies message body => ?_⟩
    · by_cases same : server = packet.receiver
      · subst same
        rw [waits_here]
        split
        next dataDtoList response =>
          have plain := silent packet flying _ response
          rw [response] at plain
          cases plain
        next => exact waits _
      · rw [elsewhere server same]
        exact waits server
    · rw [network] at flies
      rcases Multiset.mem_add.mp flies with before | new
      · exact silent other (Multiset.mem_of_mem_erase before) message body
      · obtain ⟨-,send,sends,carried⟩ := packets_carry new
        rw [carried]
        rw [← handles] at sends
        by_contra startup
        rcases startup_sent sends (by simpa using startup) with ⟨dataDtoList,request⟩ | ⟨info,view,more⟩
        · have plain := silent packet flying _ request
          rw [request] at plain
          cases plain
        · have short := (starting.views packet flying info view).2.2.2.2
          omega

theorem Starting.deliver {packet : Packet} (starting : Starting settings s)
    (move : step settings (.deliver packet true) s = some t) : Starting settings t := by
  cases service : isService packet.receiver with
  | false =>
    obtain ⟨outcome,delivered⟩ := step_delivered service move
    exact starting.handled delivered
  | true =>
    obtain ⟨_,rfl⟩ := step_service service move
    -- The configuration service is asked for nothing and starts up nothing.
    refine ⟨starting.roster,fun other flies => starting.views other (Multiset.mem_of_mem_erase flies),?_,?_⟩
    · intro server inside plain waits
      have stays {other : Packet} (flies : other ∈ s.network) (isServer : isService other.receiver = false) :
          other ∈ s.network.erase packet :=
        (Multiset.mem_erase_of_ne (by rintro rfl; simp [service] at isServer)).mpr flies
      refine (starting.waiting server inside plain waits).imp_right fun helped => ?_
      cases helped with
      | view flies more => exact .view (stays flies plain) more
      | request flies answers => exact .request (stays flies answers) answers
      | response flies => exact .response (stays flies plain)
    · exact fun few => ⟨(starting.alone few).1,fun other flies => (starting.alone few).2 other (Multiset.mem_of_mem_erase flies)⟩

theorem Starting.step (starting : Starting settings s) (joins : Joins settings s a) (move : step settings a s = some t) :
    Starting settings t := by
  cases a with
  | view info => exact starting.view joins move
  | deliver packet sent =>
    obtain rfl : sent = true := joins
    exact starting.deliver move
  | call i server request =>
    obtain ⟨_,_,rfl⟩ := step_started move
    exact starting.frame rfl (fun _ => .inl rfl) (fun _ flying _ => flying) fun _ flying => .inl flying
  | boot server =>
    cases move
    refine starting.frame rfl (fun other => ?_) (fun _ flying _ => flying) fun _ flying => .inl flying
    by_cases same : other = server
    · subst same
      exact .inr ⟨joins,by simp [LeaderManager.initial]⟩
    · exact .inl (by simp [Function.update_of_ne same])
  | thread i choice =>
    obtain ⟨call,effect,pc,_,moved,rfl⟩ := step_moved move
    refine starting.frame rfl (fun other => .inl ?_) (fun _ flying _ => Multiset.mem_add.mpr (.inl flying)) ?_
    · by_cases same : other = call.server
      · subst same
        simp [apply_participants]
      · simp [Function.update_of_ne same]
    · intro packet flying
      rcases Multiset.mem_add.mp flying with before | new
      · exact .inl before
      · obtain ⟨-,send,sent,body⟩ := packets_carry new
        rw [body]
        exact .inr (thread_sends moved sent)

end

/-- In every run in which servers join the group of the configuration service:
    when all views and all messages of startups have been delivered, no server is
    starting up any more, exactly as long as there is not exactly one. -/
theorem startup_finishes (settings : Settings) (start s : State) (acts : List Action) (vacant : Vacant start)
    (run : Run (Restrict (Joins settings) (Steps (step settings))) start acts s)
    (delivered : ∀ packet ∈ s.network, startsUp packet.body = false) :
    (∀ server ∈ s.members, isService server = false → (s.servers server).waitStartupDataUpdate = false) ↔
      (s.members.filter fun member => !isService member).length ≠ 1 := by
  have starting : Starting settings s :=
    run.always vacant.starting_up fun _ _ _ starting move => starting.step move.1 move.2
  have services := List.length_eq_length_filter_add (l := s.members) isService
  have one := starting.roster.service
  constructor
  · intro finished single
    obtain ⟨server,inside⟩ := List.exists_mem_of_length_pos (single ▸ Nat.one_pos)
    obtain ⟨member,plain⟩ := List.mem_filter.mp inside
    have ended := finished server member (by simpa using plain)
    rw [(starting.alone (by omega)).1 server] at ended
    cases ended
  · intro several server inside plain
    by_contra waits
    rcases starting.waiting server inside plain (by simpa using waits) with few | helped
    · have here : server ∈ s.members.filter fun member => !isService member :=
        List.mem_filter.mpr ⟨inside,by simp [plain]⟩
      have positive := List.length_pos_of_mem here
      omega
    · cases helped with
      | view flies => cases delivered _ flies
      | request flies => cases delivered _ flies
      | response flies => cases delivered _ flies

/-- Only the configuration service is there. -/
def vacant : State := ⟨[service],fun _ => .initial ∅,fun _ => none,0⟩

theorem vacant_vacant : Vacant vacant := ⟨⟨service,by decide,rfl⟩,fun _ => rfl,by simp [vacant]⟩

/-- A stronger condition that can be computed: a server that joins is listed last. -/
def JoinsLast (settings : Settings) (s : State) : Action → Prop
  | .view info =>
    info.isRegularMembership = true ∧ info.cause = .join ∧ ∃ server ∈ info.members, server ∉ s.members ∧
      info.members = s.members ++ [server] ∧ isService server = false ∧
        ∃ cardinality ∈ (getServerNameCardinality settings.isLocal server).toList, 0 < cardinality ∧
          ∀ member ∈ s.members, isService member = false →
            getServerNameCardinality settings.isLocal member ≠ some cardinality
  | .deliver _ sent => sent = true
  | .boot _ => False
  | _ => True

instance (settings : Settings) (s : State) : DecidablePred (JoinsLast settings s)
  | .view _ => inferInstanceAs (Decidable (_ ∧ _))
  | .deliver _ sent => inferInstanceAs (Decidable (sent = true))
  | .boot _ => isFalse id
  | .call _ _ _ | .thread _ _ => isTrue trivial

theorem JoinsLast.joins {settings : Settings} {s : State} {a : Action} (last : JoinsLast settings s a) : Joins settings s a := by
  cases a with
  | view info =>
    obtain ⟨regular,join,server,_,outside,members,plain,cardinality,has,positive,new⟩ := last
    refine ⟨regular,join,server,outside,?_,plain,cardinality,positive,by simpa using has,new⟩
    rw [members]
    exact List.perm_append_singleton ..
  | deliver packet sent => exact last
  | boot => exact last.elim
  | call | thread => trivial

/-- A view that tells of one more member, and its delivery to everybody. -/
def joined (members : List SpreadGroup) : List Action :=
  .view ⟨true,.join,members⟩ :: members.map fun member => .deliver ⟨member,member,.membership ⟨true,.join,members⟩,none⟩ true

/-- Server1 and Server2 join and help each other. -/
def helpedEachOther : List Action :=
  joined [service,server1] ++ joined [service,server1,server2] ++
    [.deliver ⟨server2,server1,.regular (.startupRequestUpdate []),none⟩ true,
     .deliver ⟨server1,server2,.regular (.startupRequestUpdate []),none⟩ true,
     .deliver ⟨server1,server2,.regular (.startupResponseUpdate []),none⟩ true,
     .deliver ⟨server2,server1,.regular (.startupResponseUpdate []),none⟩ true]

theorem startup_finishes_two :
    ∃ s, Run (Restrict (Joins .properties) (Steps (step .properties))) vacant helpedEachOther s ∧
      s.members = [service,server1,server2] ∧
      ((∀ server ∈ s.members, isService server = false → (s.servers server).waitStartupDataUpdate = false) ↔
        (s.members.filter fun member => !isService member).length ≠ 1) := by
  obtain ⟨s,run,members,quiet⟩ := exists_run_of_exec (step .properties) (JoinsLast .properties)
    (fun s => s.members = [service,server1,server2] ∧ s.network = 0) vacant helpedEachOther (by decide)
  have joining := run.mono fun s a t (move : Restrict _ _ s a t) => (⟨move.1.joins,move.2⟩ : Restrict (Joins _) _ s a t)
  exact ⟨s,joining,members,startup_finishes .properties vacant s helpedEachOther vacant_vacant joining (by simp [quiet])⟩

/-- Server1 joins and nobody else. -/
theorem startup_hangs :
    ¬ ∀ (settings : Settings) (start s : State) (acts : List Action), Vacant start →
      Run (Restrict (Joins settings) (Steps (step settings))) start acts s →
      (∀ packet ∈ s.network, startsUp packet.body = false) →
      ∀ server ∈ s.members, isService server = false → (s.servers server).waitStartupDataUpdate = false := by
  intro finishes
  obtain ⟨s,run,members,quiet,waits⟩ := exists_run_of_exec (step .properties) (JoinsLast .properties)
    (fun s => s.members = [service,server1] ∧ s.network = 0 ∧ (s.servers server1).waitStartupDataUpdate = true) vacant
    (joined [service,server1]) (by decide)
  have joining := run.mono fun s a t (move : Restrict _ _ s a t) => (⟨move.1.joins,move.2⟩ : Restrict (Joins _) _ s a t)
  have ended := finishes .properties vacant s _ vacant_vacant joining (by simp [quiet]) server1 (by simp [members]) (by decide)
  cases waits.symm.trans ended

end CdPraticas.Startup
