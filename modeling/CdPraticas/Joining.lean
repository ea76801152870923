import CdPraticas.Startup

/-!
# A server joins a running cluster

Who asks whom when the join view arrives, what an answer can carry, and with
what each entry ends once every view, request and response of the join has
been delivered.
-/

namespace CdPraticas.Joining
open Runs Groups Store Messages Handlers Cluster Keys Startup

/-- The row of `key` at `server`. -/
def row (s : State) (server : SpreadGroup) (key : String) : Option DataEntity :=
  (s.servers server).database.findById key

/-- Everything of startups has been delivered. -/
def Settled (s : State) : Prop := ∀ packet ∈ s.network, startsUp packet.body = false

/-- Only views and messages of startups are delivered, and no send of a handler fails. -/
def Handles (_ : State) : Action → Prop
  | .deliver packet sent => startsUp packet.body = true ∧ sent = true
  | _ => False

/-- One more server joins the running ones, with all earlier startups delivered. -/
structure Entering (s : State) (info : MembershipInfo) (joiner : SpreadGroup) : Prop where
  regular : info.isRegularMembership = true
  join : info.cause = .join
  members : info.members.Perm (joiner :: s.members)
  outside : joiner ∉ s.members
  server : isService joiner = false
  service : ∃ service ∈ s.members, isService service = true
  running : ∃ server ∈ s.members, isService server = false
  silent : Settled s

/-- What the join may do: the value of a valid entry of a running server never
    changes and the entry ends valid, and a valid entry of the joiner ends with a
    value that a running server has. -/
def Harmless (settings : Settings) (s joined : State) (joiner : SpreadGroup) : Prop :=
  ∀ acts t, Run (Restrict Handles (Steps (step settings))) joined acts t →
    (∀ server ∈ s.members, isService server = false → ∀ key entity, row s server key = some entity → entity.Valid →
      ∃ now, row t server key = some now ∧ now.data = entity.data ∧ (Settled t → now.Valid)) ∧
    (Settled t → ∀ key entity, row t joiner key = some entity → entity.Valid →
      ∃ server ∈ s.members, isService server = false ∧
        ∃ now, row t server key = some now ∧ now.Valid ∧ now.data = entity.data)

section
variable (settings : Settings) (s : State) (info : MembershipInfo)

/-- Whom `server` asks when it sees the view; nobody when it has started up. -/
def asks (server : SpreadGroup) : Option SpreadGroup :=
  if (s.servers server).waitStartupDataUpdate then
    (electCoordinator settings server info.members 0 0 0).bind (info.members[·]?)
  else none

/-- `server` has a row of `key` with the value. -/
def Owns (key : String) (server : SpreadGroup) (value : String) : Prop :=
  ∃ entity, row s server key = some entity ∧ entity.data = value

/-- An answer of `server` about `key` can carry `value`: its own one, or one that it
    has been refreshed with before it answers. -/
inductive Carries (key : String) : SpreadGroup → String → Prop
  | own {server : SpreadGroup} {entity : DataEntity} (has : row s server key = some entity) : Carries key server entity.data
  | passed {server helper : SpreadGroup} {entity : DataEntity} {value : String} (has : row s server key = some entity)
      (asking : asks settings s info server = some helper) (plain : isService helper = false)
      (carries : Carries key helper value) : Carries key server value

/-- With what the entry of `key` at `server` ends valid, when `answers` is what the
    answers about it carry. Nobody asks, then it stays; else it has to be in an
    answer, which the configuration service does not give. -/
def Ending (answers : SpreadGroup → String → Prop) (key : String) (server : SpreadGroup) (value : String) : Prop :=
  match asks settings s info server with
  | none => ∃ entity, row s server key = some entity ∧ entity.Valid ∧ entity.data = value
  | some helper => isService helper = false ∧ (row s server key).isSome = true ∧ answers helper value

/-- In some order the entry ends valid with the value. -/
def CanEnd (key : String) (server : SpreadGroup) (value : String) : Prop :=
  Ending settings s info (Carries settings s info key) key server value

/-- In every order it does. -/
structure EndsWith (key : String) (server : SpreadGroup) (value : String) : Prop where
  can : CanEnd settings s info key server value
  only : ∀ other, CanEnd settings s info key server other → other = value

/-- Whoever starts up asks somebody who can tell it nothing new: a running server
    gets back what it has, and the joiner gets what a running server has. -/
structure Matched (joiner : SpreadGroup) : Prop where
  kept : ∀ server ∈ s.members, isService server = false → ∀ key entity, row s server key = some entity → entity.Valid →
    EndsWith settings s info key server entity.data
  taken : ∀ key value, CanEnd settings s info key joiner value →
    ∃ server ∈ s.members, isService server = false ∧ EndsWith settings s info key server value

/-- A running server that is still starting up is the only one. -/
def Finished : Prop :=
  ∀ server ∈ s.members, isService server = false → (s.servers server).waitStartupDataUpdate = true →
    ∀ other ∈ s.members, isService other = false → other = server

end

/-! ### The refresh -/

theorem findById_refresh (database : Database) (dataDto : DataDto) (key : String) :
    (refresh database dataDto).findById key =
      if key = dataDto.key then (database.findById key).map fun entity => ⟨entity.key,some false,dataDto.data⟩
      else database.findById key := by
  unfold refresh
  split
  next entity found =>
    have own : entity.key = dataDto.key := Database.findById_key found
    rw [Database.findById_save]
    dsimp only
    rw [own]
    by_cases here : key = dataDto.key
    · rw [if_pos here,if_pos here,here,found,← own]
      rfl
    · rw [if_neg here,if_neg here]
  next absent =>
    by_cases here : key = dataDto.key
    · rw [if_pos here,here,absent]
      rfl
    · rw [if_neg here]

/-- The loop of `startupDataResponse`, where the list tells one value of the key. -/
theorem findById_refreshed {key : String} (value : String) (dataDtoList : List DataDto)
    (told : ∀ dataDto ∈ dataDtoList, dataDto.key = key → dataDto.data = value) (database : Database) :
    (dataDtoList.foldl refresh database).findById key =
      if key ∈ dataDtoList.map DataDto.key then
        (database.findById key).map fun entity => ⟨entity.key,some false,value⟩
      else database.findById key := by
  induction dataDtoList generalizing database with
  | nil => simp
  | cons dataDto rest ih =>
    rw [List.foldl_cons,ih (fun other inside => told other (List.mem_cons_of_mem _ inside)),findById_refresh]
    by_cases here : key = dataDto.key
    · have same : dataDto.data = value := told dataDto List.mem_cons_self here.symm
      have listed : key ∈ (dataDto :: rest).map DataDto.key := by simp [here]
      rw [if_pos here,if_pos listed,same]
      split
      · simp [Option.map_map,Function.comp_def]
      · rfl
    · rw [if_neg here]
      simp [here]

/-- A key is in the request exactly when the server has a row of it. -/
theorem mem_findAll_keys (database : Database) (key : String) :
    key ∈ (database.findAll.map DataEntity.toDto).map DataDto.key ↔ (database.findById key).isSome = true := by
  rw [List.map_map,List.mem_map]
  constructor
  · rintro ⟨entity,inside,rfl⟩
    have found := (Database.mem_findAll ..).mp inside
    simp [found]
  · intro stored
    obtain ⟨entity,found⟩ := Option.isSome_iff_exists.mp stored
    have own : entity.key = key := Database.findById_key found
    exact ⟨entity,(Database.mem_findAll ..).mpr (own ▸ found),own⟩

/-! ### How far each server is -/

/-- What a server has done for the join. -/
inductive Phase
  | before
  | asked (helper : SpreadGroup)
  | refreshed (helper : SpreadGroup)

section
variable (settings : Settings) (s : State) (info : MembershipInfo) (answers : String → SpreadGroup → String → Prop)

/-- The row of a refreshed server: it is as the answer tells, and stays invalidated
    where the helper has none. -/
def Renewed (carries : String → Prop) (key : String) : Option DataEntity → Option DataEntity → Option DataEntity → Prop
  | none, _, now => now = none
  | some entity, none, now => now = some (entity.setInvalidate true)
  | some _, some _, now => ∃ value, carries value ∧ now = some ⟨key,some false,value⟩

/-- The rows of `server` in each phase. -/
def Rows (server : SpreadGroup) : Phase → LeaderManager → Prop
  | .before, self => self.waitStartupDataUpdate = (s.servers server).waitStartupDataUpdate ∧
      ∀ key, self.database.findById key = row s server key
  | .asked helper, self => asks settings s info server = some helper ∧ self.waitStartupDataUpdate = true ∧
      ∀ key, self.database.findById key = (row s server key).map fun entity => entity.setInvalidate true
  | .refreshed helper, self => asks settings s info server = some helper ∧ isService helper = false ∧
      self.waitStartupDataUpdate = false ∧
        ∀ key, Renewed (answers key helper) key (row s server key) (row s helper key) (self.database.findById key)

/-- What is on its way to take `server` to its next phase. -/
def Awaits (network : Multiset Packet) (server : SpreadGroup) : Phase → Prop
  | .before => asks settings s info server = none ∨ ∃ sender call, ⟨server,sender,.membership info,call⟩ ∈ network
  | .asked helper => isService helper = true ∨
      (∃ dataDtoList call, ⟨helper,server,.regular (.startupRequestUpdate dataDtoList),call⟩ ∈ network) ∨
        ∃ dataDtoList call, ⟨server,helper,.regular (.startupResponseUpdate dataDtoList),call⟩ ∈ network
  | .refreshed _ => True

/-- The views, requests and responses of the join. -/
inductive Flight (phase : SpreadGroup → Phase) : Packet → Prop
  | view {server sender : SpreadGroup} {call : Option Nat} (inside : server ∈ info.members) :
      Flight phase ⟨server,sender,.membership info,call⟩
  | request {server helper : SpreadGroup} {dataDtoList : List DataDto} {call : Option Nat} (inside : server ∈ info.members)
      (plain : isService server = false) (asking : asks settings s info server = some helper)
      (begun : phase server ≠ .before)
      (lists : ∀ key, key ∈ dataDtoList.map DataDto.key ↔ (row s server key).isSome = true) :
      Flight phase ⟨helper,server,.regular (.startupRequestUpdate dataDtoList),call⟩
  | response {server helper : SpreadGroup} {dataDtoList : List DataDto} {call : Option Nat} (inside : server ∈ info.members)
      (asking : asks settings s info server = some helper) (helps : isService helper = false) (begun : phase server ≠ .before)
      (value : String → String)
      (told : ∀ dataDto ∈ dataDtoList, dataDto.data = value dataDto.key ∧ answers dataDto.key helper dataDto.data ∧
        (row s helper dataDto.key).isSome = true)
      (all : ∀ key, (row s server key).isSome = true → (row s helper key).isSome = true → key ∈ dataDtoList.map DataDto.key) :
      Flight phase ⟨server,helper,.regular (.startupResponseUpdate dataDtoList),call⟩

/-- What holds while the join is handled. -/
structure Progress (phase : SpreadGroup → Phase) (t : State) : Prop where
  rows : ∀ server ∈ info.members, isService server = false →
    Rows settings s info answers server (phase server) (t.servers server)
  awaits : ∀ server ∈ info.members, isService server = false → Awaits settings s info t.network server (phase server)
  flights : ∀ packet ∈ t.network, startsUp packet.body = true → Flight settings s info answers phase packet

end

/-- The server whose startup a packet is about. -/
def owner (packet : Packet) : SpreadGroup :=
  match packet.body with
  | .regular (.startupRequestUpdate _) => packet.sender
  | _ => packet.receiver

section
variable {settings : Settings} {s t u : State} {info : MembershipInfo} {answers : String → SpreadGroup → String → Prop}
  {phase : SpreadGroup → Phase} {server : SpreadGroup}

theorem asks_mem {helper : SpreadGroup} (asking : asks settings s info server = some helper) : helper ∈ info.members := by
  unfold asks at asking
  split at asking
  · obtain ⟨index,_,found⟩ := Option.bind_eq_some_iff.mp asking
    exact List.mem_of_getElem? found
  · cases asking

/-- A phase tells of every row whether there is one. -/
theorem Rows.isSome {phase : Phase} {self : LeaderManager} (rows : Rows settings s info answers server phase self) (key : String) :
    (self.database.findById key).isSome = (row s server key).isSome := by
  cases phase with
  | before => rw [rows.2 key]
  | asked helper => rw [rows.2.2 key,Option.isSome_map]
  | refreshed helper =>
    have renewed := rows.2.2.2 key
    cases mine : row s server key with
    | none =>
      rw [mine] at renewed
      rw [show self.database.findById key = none from renewed]
    | some entity =>
      rw [mine] at renewed
      cases theirs : row s helper key with
      | none =>
        rw [theirs] at renewed
        rw [show self.database.findById key = some _ from renewed]
        rfl
      | some source =>
        rw [theirs] at renewed
        obtain ⟨value,_,now⟩ := renewed
        rw [now]
        rfl

/-- What `server` waits for is still on its way when something else is delivered. -/
theorem Awaits.stays {network more : Multiset Packet} {packet : Packet} {phase : Phase}
    (awaits : Awaits settings s info network server phase) (other : server ≠ owner packet) :
    Awaits settings s info (network.erase packet + more) server phase := by
  have stays {waited : Packet} (flies : waited ∈ network) (mine : owner waited = server) : waited ∈ network.erase packet + more :=
    Multiset.mem_add.mpr (.inl ((Multiset.mem_erase_of_ne (fun same => other (by rw [← same,mine]))).mpr flies))
  cases phase with
  | before =>
    refine awaits.imp_right ?_
    rintro ⟨sender,call,flies⟩
    exact ⟨sender,call,stays flies rfl⟩
  | asked helper =>
    refine awaits.imp_right (Or.imp ?_ ?_)
    · rintro ⟨dataDtoList,call,flies⟩
      exact ⟨dataDtoList,call,stays flies rfl⟩
    · rintro ⟨dataDtoList,call,flies⟩
      exact ⟨dataDtoList,call,stays flies rfl⟩
  | refreshed helper => trivial

/-- A delivery at a server, seen from the phases that it changes. -/
theorem Progress.handled {phase' : SpreadGroup → Phase} {packet : Packet} {outcome : Outcome}
    (progress : Progress settings s info answers phase t) (delivered : Delivered settings packet outcome t u)
    (same : ∀ server, server ≠ packet.receiver ∨ server ≠ owner packet → phase' server = phase server)
    (begun : ∀ server, phase server ≠ .before → phase' server ≠ .before)
    (here : Rows settings s info answers packet.receiver (phase' packet.receiver) outcome.manager)
    (own : Awaits settings s info u.network (owner packet) (phase' (owner packet)))
    (sent : ∀ new ∈ packets t.members packet.receiver packet.call outcome.sends,
      Flight settings s info answers phase' new) : Progress settings s info answers phase' u := by
  refine ⟨fun server inside plain => ?_,fun server inside plain => ?_,fun new flies startup => ?_⟩
  · by_cases receives : server = packet.receiver
    · subst receives
      rw [delivered.here]
      exact here
    · rw [delivered.elsewhere server receives,same server (.inl receives)]
      exact progress.rows server inside plain
  · by_cases owns : server = owner packet
    · exact owns ▸ own
    · rw [delivered.network,same server (.inr owns)]
      exact (progress.awaits server inside plain).stays owns
  · rw [delivered.network] at flies
    rcases Multiset.mem_add.mp flies with before | fresh
    · cases progress.flights new (Multiset.mem_of_mem_erase before) startup with
      | view inside => exact .view inside
      | request inside plain asking started lists => exact .request inside plain asking (begun _ started) lists
      | response inside asking helps started value told all =>
        exact .response inside asking helps (begun _ started) value told all
    · exact sent new fresh

/-- What the join view makes of a server that is starting up. -/
theorem view_asks {self : LeaderManager} {me sender helper : SpreadGroup} (regular : info.isRegularMembership = true)
    (join : info.cause = .join) (larger : 2 < info.members.length) (waits : self.waitStartupDataUpdate = true)
    (elects : (electCoordinator settings me info.members 0 0 0).bind (info.members[·]?) = some helper) :
    messageReceived settings self me sender (.membership info) =
      ⟨{ self with database := invalidateAll self.database, numberOfParticipants := info.members.length },
        [.unicast (.startupRequestUpdate (self.database.findAll.map DataEntity.toDto)) helper],[]⟩ := by
  have started : (updateNumberOfParticipants self info.members.length).waitStartupDataUpdate = true := waits
  simp only [messageReceived]
  rw [if_pos regular,if_pos ⟨join,larger.le⟩,checkStartup,if_pos started,if_neg (by omega),elects]
  rfl

/-- It makes nothing of one that has started up or elects nobody. -/
theorem view_ignored {self : LeaderManager} {me sender : SpreadGroup} (regular : info.isRegularMembership = true)
    (join : info.cause = .join) (larger : 2 < info.members.length) (nobody : self.waitStartupDataUpdate = false ∨
      (electCoordinator settings me info.members 0 0 0).bind (info.members[·]?) = none) :
    messageReceived settings self me sender (.membership info) =
      .unchanged (updateNumberOfParticipants self info.members.length) := by
  simp only [messageReceived]
  rw [if_pos regular,if_pos ⟨join,larger.le⟩,checkStartup]
  cases waits : self.waitStartupDataUpdate with
  | false =>
    have ended : (updateNumberOfParticipants self info.members.length).waitStartupDataUpdate = false := waits
    rw [if_neg (by simp [ended])]
  | true =>
    have started : (updateNumberOfParticipants self info.members.length).waitStartupDataUpdate = true := waits
    rcases nobody with ended | none
    · cases waits.symm.trans ended
    · rw [if_pos started,if_neg (by omega),none]

/-- No server is refreshed yet. -/
def Unrefreshed (phase : SpreadGroup → Phase) : Prop := ∀ server helper, phase server ≠ .refreshed helper

/-- Whom a server asks that is starting up. -/
theorem elects_of_asks {helper : SpreadGroup} (asking : asks settings s info server = some helper) :
    (electCoordinator settings server info.members 0 0 0).bind (info.members[·]?) = some helper := by
  unfold asks at asking
  split at asking
  · exact asking
  · cases asking

/-- In every phase: the server starts up and asks, or it does not start up or elects nobody. -/
theorem Rows.starts {phase : Phase} {self : LeaderManager} (rows : Rows settings s info answers server phase self) :
    (∃ helper, asks settings s info server = some helper ∧ self.waitStartupDataUpdate = true) ∨
      (phase = .before → asks settings s info server = none) ∧ (∀ helper, phase ≠ .asked helper) ∧
        (self.waitStartupDataUpdate = false ∨
          (electCoordinator settings server info.members 0 0 0).bind (info.members[·]?) = none) := by
  cases phase with
  | before =>
    cases asking : asks settings s info server with
    | some helper =>
      refine .inl ⟨helper,rfl,?_⟩
      unfold asks at asking
      split at asking
      next waits => exact rows.1.trans waits
      next => cases asking
    | none =>
      refine .inr ⟨fun _ => rfl,by simp,?_⟩
      unfold asks at asking
      split at asking
      next => exact .inr asking
      next waits => exact .inl (rows.1.trans (by simpa using waits))
  | asked helper => exact .inl ⟨helper,rows.1,rows.2.1⟩
  | refreshed helper => exact .inr ⟨by simp,by simp,.inl rows.2.2.1⟩

/-- The view arrives at a server that starts up: its rows are invalidated, and it asks. -/
theorem Progress.invalidated {sender helper : SpreadGroup} {call : Option Nat} {outcome : Outcome}
    (progress : Progress settings s info answers phase t) (regular : info.isRegularMembership = true) (join : info.cause = .join)
    (larger : 2 < info.members.length) (inside : server ∈ info.members) (plain : isService server = false)
    (asking : asks settings s info server = some helper) (waits : (t.servers server).waitStartupDataUpdate = true)
    (delivered : Delivered settings ⟨server,sender,.membership info,call⟩ outcome t u) :
    Progress settings s info answers (Function.update phase server (.asked helper)) u := by
  have rows := progress.rows server inside plain
  have handles := delivered.handles
  rw [view_asks regular join larger waits (elects_of_asks asking)] at handles
  subst handles
  have others {other : SpreadGroup} (different : other ≠ server) :
      Function.update phase server (.asked helper) other = phase other := Function.update_of_ne different ..
  refine progress.handled delivered (fun other different => others (different.elim id id)) ?_ ?_ ?_ ?_
  · intro other started
    by_cases same : other = server
    · subst same
      simp
    · rwa [others same]
  · rw [Function.update_self]
    refine ⟨asking,waits,fun key => ?_⟩
    rw [findById_invalidateAll]
    cases here : phase server with
    | before =>
      rw [here] at rows
      rw [rows.2 key]
    | asked other =>
      rw [here] at rows
      rw [rows.2.2 key,Option.map_map]
      rfl
    | refreshed other =>
      rw [here] at rows
      cases waits.symm.trans rows.2.2.1
  · change Awaits settings s info u.network server (Function.update phase server (.asked helper) server)
    rw [Function.update_self,delivered.network,packets_unicast]
    exact .inr (.inl ⟨_,call,Multiset.mem_add.mpr (.inr (Multiset.mem_singleton_self _))⟩)
  · intro new fresh
    rw [packets_unicast,Multiset.mem_singleton] at fresh
    subst fresh
    refine .request inside plain asking (by simp) fun key => ?_
    rw [mem_findAll_keys,rows.isSome]

/-- The view arrives at another server. -/
theorem Progress.ignored {sender : SpreadGroup} {call : Option Nat} {outcome : Outcome}
    (progress : Progress settings s info answers phase t) (regular : info.isRegularMembership = true) (join : info.cause = .join)
    (larger : 2 < info.members.length) (inside : server ∈ info.members) (plain : isService server = false)
    (before : phase server = .before → asks settings s info server = none) (unasked : ∀ helper, phase server ≠ .asked helper)
    (nobody : (t.servers server).waitStartupDataUpdate = false ∨
      (electCoordinator settings server info.members 0 0 0).bind (info.members[·]?) = none)
    (delivered : Delivered settings ⟨server,sender,.membership info,call⟩ outcome t u) :
    Progress settings s info answers phase u := by
  have rows := progress.rows server inside plain
  have handles := delivered.handles
  rw [view_ignored regular join larger nobody] at handles
  subst handles
  refine progress.handled delivered (fun _ _ => rfl) (fun _ started => started) ?_ ?_ (by simp [Outcome.unchanged])
  · cases here : phase server with
    | before | asked | refreshed =>
      rw [here] at rows
      exact rows
  · change Awaits settings s info u.network server (phase server)
    cases here : phase server with
    | before => exact .inl (before here)
    | asked helper => exact absurd here (unasked helper)
    | refreshed helper => trivial

/-- The request arrives: the helper answers with the rows it has. -/
theorem Progress.requested {helper : SpreadGroup} {dataDtoList : List DataDto} {call : Option Nat} {outcome : Outcome}
    (progress : Progress settings s info answers phase t) (helps : isService helper = false)
    (can : ∀ key entity, (t.servers helper).database.findById key = some entity → answers key helper entity.data)
    (delivered : Delivered settings ⟨helper,server,.regular (.startupRequestUpdate dataDtoList),call⟩ outcome t u) :
    Progress settings s info answers phase u := by
  have handles := delivered.handles
  cases progress.flights _ delivered.flying rfl with
  | request inside plain asking begun lists =>
  have rows := progress.rows helper (asks_mem asking) helps
  simp only [messageReceived,startupData] at handles
  subst handles
  refine progress.handled delivered (fun _ _ => rfl) (fun _ started => started) rows ?_ ?_
  · change Awaits settings s info u.network server (phase server)
    have awaits := progress.awaits server inside plain
    have rows := progress.rows server inside plain
    cases here : phase server with
    | before => exact absurd here begun
    | asked other =>
      rw [here] at rows
      cases rows.1.symm.trans asking
      rw [delivered.network,packets_unicast]
      exact .inr (.inr ⟨_,call,Multiset.mem_add.mpr (.inr (Multiset.mem_singleton_self _))⟩)
    | refreshed other => trivial
  · intro new fresh
    rw [packets_unicast,Multiset.mem_singleton] at fresh
    subst fresh
    refine .response inside asking helps begun
      (fun key => (((t.servers helper).database.findById key).map DataEntity.data).getD "") ?_ ?_
    · intro dataDto answered
      obtain ⟨asked,_,found⟩ := List.mem_filterMap.mp answered
      obtain ⟨entity,stored,rfl⟩ := Option.map_eq_some_iff.mp found
      have own : entity.key = asked.key := Database.findById_key stored
      rw [← own] at stored
      refine ⟨?_,can _ entity stored,?_⟩
      · simp [stored]
      · have known := rows.isSome entity.key
        rw [stored] at known
        exact known.symm
    · intro key mine theirs
      obtain ⟨asked,listed,rfl⟩ := List.mem_map.mp ((lists key).mpr mine)
      obtain ⟨entity,stored⟩ := Option.isSome_iff_exists.mp ((rows.isSome asked.key).trans theirs)
      have own : entity.key = asked.key := Database.findById_key stored
      exact List.mem_map.mpr ⟨entity.toDto,List.mem_filterMap.mpr ⟨asked,listed,by rw [stored]; rfl⟩,own⟩

/-- The answer arrives: each row that the helper has becomes what it told. -/
theorem Progress.responded {helper : SpreadGroup} {dataDtoList : List DataDto} {call : Option Nat} {outcome : Outcome}
    (progress : Progress settings s info answers phase t) (plain : isService server = false)
    (delivered : Delivered settings ⟨server,helper,.regular (.startupResponseUpdate dataDtoList),call⟩ outcome t u) :
    Progress settings s info answers (Function.update phase server (.refreshed helper)) u := by
  have handles := delivered.handles
  cases progress.flights _ delivered.flying rfl with
  | response inside asking helps begun value told all =>
  have rows := progress.rows server inside plain
  simp only [messageReceived,startupDataResponse] at handles
  subst handles
  have others {other : SpreadGroup} (different : other ≠ server) :
      Function.update phase server (.refreshed helper) other = phase other := Function.update_of_ne different ..
  refine progress.handled delivered (fun other different => others (different.elim id id)) ?_ ?_ ?_ (by simp)
  · intro other started
    by_cases same : other = server
    · subst same
      simp
    · rwa [others same]
  · rw [Function.update_self]
    refine ⟨asking,helps,rfl,fun key => ?_⟩
    rw [findById_refreshed (value key) dataDtoList (by rintro dataDto listed rfl; exact (told dataDto listed).1)]
    have known := rows.isSome key
    cases mine : row s server key with
    | none =>
      rw [mine,Option.isSome_none,Option.isSome_eq_false_iff,Option.isNone_iff_eq_none] at known
      rw [known]
      simp [Renewed]
    | some entity =>
      cases theirs : row s helper key with
      | none =>
        have unlisted : key ∉ dataDtoList.map DataDto.key := by
          intro listed
          obtain ⟨dataDto,inside,rfl⟩ := List.mem_map.mp listed
          have has := (told dataDto inside).2.2
          rw [theirs] at has
          cases has
        rw [if_neg unlisted]
        cases here : phase server with
        | before => exact absurd here begun
        | asked other =>
          rw [here] at rows
          rw [rows.2.2 key,mine]
          rfl
        | refreshed other =>
          rw [here] at rows
          cases rows.1.symm.trans asking
          have renewed := rows.2.2.2 key
          rwa [mine,theirs] at renewed
      | some source =>
        have listed := all key (by rw [mine]; rfl) (by rw [theirs]; rfl)
        rw [mine] at known
        obtain ⟨now,stored⟩ := Option.isSome_iff_exists.mp known
        have own : now.key = key := Database.findById_key stored
        obtain ⟨dataDto,inside,same⟩ := List.mem_map.mp listed
        obtain ⟨data,can,_⟩ := told dataDto inside
        rw [same] at data can
        rw [if_pos listed,stored]
        exact ⟨value key,data ▸ can,by rw [Option.map_some,own]⟩
  · change Awaits settings s info u.network server (Function.update phase server (.refreshed helper) server)
    rw [Function.update_self]
    trivial

/-- The configuration service lets everything pass. -/
theorem Progress.dropped {packet : Packet} (progress : Progress settings s info answers phase t)
    (service : isService packet.receiver = true) (startup : startsUp packet.body = true) (flying : packet ∈ t.network) :
    Progress settings s info answers phase { t with network := t.network.erase packet } := by
  have flight := progress.flights packet flying startup
  refine ⟨progress.rows,fun server inside plain => ?_,fun other flies => progress.flights other (Multiset.mem_of_mem_erase flies)⟩
  have awaits := progress.awaits server inside plain
  by_cases own : server = owner packet
  · -- Only a request that the configuration service gets is about a server.
    cases flight with
    | view | response =>
      rw [own] at plain
      cases service.symm.trans plain
    | request here _ asking begun =>
      subst own
      have rows := progress.rows server inside plain
      cases phased : phase server with
      | before => exact absurd phased begun
      | asked other =>
        rw [phased] at rows
        cases rows.1.symm.trans asking
        exact .inl service
      | refreshed other => trivial
  · have stays : Awaits settings s info (t.network.erase packet + 0) server (phase server) := awaits.stays own
    rwa [add_zero] at stays

/-! ### The whole join -/

variable {joiner : SpreadGroup}

theorem Entering.larger (entering : Entering s info joiner) : 2 < info.members.length := by
  obtain ⟨service,one,isService'⟩ := entering.service
  obtain ⟨server,two,plain⟩ := entering.running
  have different : service ≠ server := by
    rintro rfl
    cases isService'.symm.trans plain
  have several : 1 < s.members.length := by
    by_contra few
    obtain ⟨member,alone⟩ | none : (∃ member, s.members = [member]) ∨ s.members = [] := by
      rcases members : s.members with _ | ⟨member,_ | _⟩
      · exact .inr rfl
      · exact .inl ⟨member,rfl⟩
      · rw [members] at few
        simp at few
    · rw [alone,List.mem_singleton] at one two
      exact different (one.trans two.symm)
    · rw [none] at one
      cases one
  rw [entering.members.length_eq,List.length_cons]
  omega

theorem Entering.mem (entering : Entering s info joiner) : server ∈ info.members ↔ server = joiner ∨ server ∈ s.members := by
  rw [entering.members.mem_iff,List.mem_cons]

theorem Entering.progress {joined : State} (entering : Entering s info joiner) (viewed : step settings (.view info) s = some joined) :
    Progress settings s info answers (fun _ => .before) joined := by
  cases viewed
  refine ⟨fun _ _ _ => ⟨rfl,fun _ => rfl⟩,fun server inside _ => .inr ⟨server,none,?_⟩,fun packet flies startup => ?_⟩
  · exact Multiset.mem_add.mpr (.inr (Multiset.mem_coe.mpr (List.mem_map.mpr ⟨server,inside,rfl⟩)))
  · rcases Multiset.mem_add.mp flies with before | told
    · cases (entering.silent packet before).symm.trans startup
    · obtain ⟨receiver,inside,rfl⟩ := List.mem_map.mp (Multiset.mem_coe.mp told)
      exact .view inside

/-- One delivery, with what the helpers can answer at that moment. -/
theorem Progress.deliver {packet : Packet} (progress : Progress settings s info answers phase t)
    (entering : Entering s info joiner) (startup : startsUp packet.body = true)
    (can : isService packet.receiver = false → packet.receiver ∈ info.members →
      (∃ dataDtoList, packet.body = .regular (.startupRequestUpdate dataDtoList)) →
        ∀ key entity, row t packet.receiver key = some entity → answers key packet.receiver entity.data)
    (move : step settings (.deliver packet true) t = some u) :
    ∃ phase', Progress settings s info answers phase' u ∧
      ((∀ dataDtoList, packet.body ≠ .regular (.startupResponseUpdate dataDtoList)) → Unrefreshed phase → Unrefreshed phase') := by
  cases service : isService packet.receiver with
  | true =>
    obtain ⟨flying,rfl⟩ := step_service service move
    exact ⟨phase,progress.dropped service startup flying,fun _ unrefreshed => unrefreshed⟩
  | false =>
    obtain ⟨outcome,delivered⟩ := step_delivered service move
    cases progress.flights packet delivered.flying startup with
    | @view server sender call inside =>
      rcases (progress.rows server inside service).starts with ⟨helper,asking,waits⟩ | ⟨before,unasked,nobody⟩
      · refine ⟨_,progress.invalidated entering.regular entering.join entering.larger inside service asking waits delivered,?_⟩
        intro _ unrefreshed other leader
        by_cases same : other = server
        · subst same
          simp
        · rw [Function.update_of_ne same]
          exact unrefreshed other leader
      · exact ⟨phase,progress.ignored entering.regular entering.join entering.larger inside service before unasked nobody delivered,
          fun _ unrefreshed => unrefreshed⟩
    | @request server helper dataDtoList call inside plain asking =>
      exact ⟨phase,progress.requested service (can service (asks_mem asking) ⟨dataDtoList,rfl⟩) delivered,
        fun _ unrefreshed => unrefreshed⟩
    | response => exact ⟨_,progress.responded service delivered,fun none => absurd rfl (none _)⟩

/-- What a server has in its rows while the join is handled, it can carry on. -/
theorem Rows.carries {phase : Phase} {self : LeaderManager}
    (rows : Rows settings s info (Carries settings s info) server phase self) {key : String} {entity : DataEntity}
    (stored : self.database.findById key = some entity) : Carries settings s info key server entity.data := by
  cases phase with
  | before => exact .own ((rows.2 key).symm.trans stored)
  | asked helper =>
    obtain ⟨before,has,rfl⟩ := Option.map_eq_some_iff.mp ((rows.2.2 key).symm.trans stored)
    rw [setInvalidate_data]
    exact .own has
  | refreshed helper =>
    obtain ⟨asking,plain,_,renewed⟩ := rows
    have renewed := renewed key
    rw [stored] at renewed
    cases mine : row s server key with
    | none =>
      rw [mine] at renewed
      cases renewed
    | some before =>
      cases theirs : row s helper key with
      | none =>
        rw [mine,theirs] at renewed
        cases renewed
        rw [setInvalidate_data]
        exact .own mine
      | some source =>
        rw [mine,theirs] at renewed
        obtain ⟨value,carries,now⟩ := renewed
        cases now
        exact .passed mine asking plain carries

/-- A valid row of a running server keeps its value as long as nothing else can be told of it. -/
theorem Rows.value {phase : Phase} {self : LeaderManager} (rows : Rows settings s info answers server phase self)
    {key : String} {entity : DataEntity} (has : row s server key = some entity)
    (only : ∀ value, Ending settings s info (answers key) key server value → value = entity.data) :
    ∃ now, self.database.findById key = some now ∧ now.data = entity.data := by
  cases phase with
  | before => exact ⟨entity,(rows.2 key).trans has,rfl⟩
  | asked helper => exact ⟨entity.setInvalidate true,by rw [rows.2.2 key,has]; rfl,rfl⟩
  | refreshed helper =>
    obtain ⟨asking,plain,_,renewed⟩ := rows
    have renewed := renewed key
    rw [has] at renewed
    cases theirs : row s helper key with
    | none =>
      rw [theirs] at renewed
      exact ⟨_,renewed,rfl⟩
    | some source =>
      rw [theirs] at renewed
      obtain ⟨value,can,now⟩ := renewed
      refine ⟨_,now,only value ?_⟩
      simp only [Ending,asking]
      exact ⟨plain,by rw [has]; rfl,can⟩

/-- Once everything is delivered, a row is valid exactly when it can end so. -/
theorem Progress.ends (progress : Progress settings s info answers phase t) (settled : Settled t)
    (known : ∀ key server value, answers key server value → (row s server key).isSome = true)
    (inside : server ∈ info.members) (plain : isService server = false) (key : String) :
    (∀ entity, row t server key = some entity → entity.Valid → Ending settings s info (answers key) key server entity.data) ∧
      ∀ value, Ending settings s info (answers key) key server value → ∃ entity, row t server key = some entity ∧ entity.Valid := by
  have rows := progress.rows server inside plain
  have awaits := progress.awaits server inside plain
  unfold Ending
  cases here : phase server with
  | before =>
    rw [here] at rows awaits
    rcases awaits with nobody | ⟨sender,call,flies⟩
    · have same : row t server key = row s server key := rows.2 key
      rw [nobody,same]
      exact ⟨fun entity has valid => ⟨entity,has,valid,rfl⟩,fun value ⟨entity,has,valid,_⟩ => ⟨entity,has,valid⟩⟩
    · cases settled _ flies
  | asked helper =>
    rw [here] at rows awaits
    rcases awaits with service | ⟨_,_,flies⟩ | ⟨_,_,flies⟩
    · have invalid : row t server key = _ := rows.2.2 key
      rw [rows.1,invalid]
      refine ⟨fun entity has valid => ?_,fun value ending => ?_⟩
      · obtain ⟨before,_,rfl⟩ := Option.map_eq_some_iff.mp has
        simp at valid
      · cases service.symm.trans ending.1
    · cases settled _ flies
    · cases settled _ flies
  | refreshed helper =>
    rw [here] at rows
    obtain ⟨asking,helps,_,renewed⟩ := rows
    have renewed : Renewed (answers key helper) key (row s server key) (row s helper key) (row t server key) := renewed key
    rw [asking]
    cases mine : row s server key with
    | none =>
      rw [mine] at renewed
      rw [show row t server key = none from renewed]
      exact ⟨fun entity has => (by cases has),fun value ending => (by cases ending.2.1)⟩
    | some before =>
      cases theirs : row s helper key with
      | none =>
        rw [mine,theirs] at renewed
        rw [show row t server key = some _ from renewed]
        refine ⟨fun entity has valid => ?_,fun value ending => ?_⟩
        · cases has
          simp at valid
        · have has := known key helper value ending.2.2
          rw [theirs] at has
          cases has
      | some source =>
        rw [mine,theirs] at renewed
        obtain ⟨value,can,now⟩ := renewed
        rw [now]
        refine ⟨fun entity has _ => ?_,fun _ _ => ⟨_,rfl,by simp [DataEntity.Valid]⟩⟩
        cases has
        exact ⟨helps,rfl,can⟩

theorem Carries.known {key value : String} (carries : Carries settings s info key server value) :
    (row s server key).isSome = true := by
  cases carries with
  | own has | passed has => rw [has]; rfl

theorem Owns.known {key value : String} (owns : Owns s key server value) : (row s server key).isSome = true := by
  obtain ⟨entity,has,_⟩ := owns
  rw [has]
  rfl

/-- Every order of the deliveries ends each entry with something it can end with. -/
theorem Entering.runs {joined : State} {acts : List Action} (entering : Entering s info joiner)
    (viewed : step settings (.view info) s = some joined) (run : Run (Restrict Handles (Steps (step settings))) joined acts t) :
    ∃ phase, Progress settings s info (Carries settings s info) phase t := by
  refine run.always (P := fun t => ∃ phase, Progress settings s info (Carries settings s info) phase t)
    ⟨_,entering.progress viewed⟩ ?_
  rintro s' a t' ⟨phase,progress⟩ ⟨handles,move⟩
  cases a with
  | deliver packet sent =>
    obtain ⟨startup,rfl⟩ := handles
    obtain ⟨phase',progress',_⟩ := progress.deliver entering startup
      (fun plain inside _ _ _ stored => (progress.rows _ inside plain).carries stored) move
    exact ⟨phase',progress'⟩
  | call | thread | view | boot => exact handles.elim

theorem Matched.harmless {joined : State} (entering : Entering s info joiner)
    (viewed : step settings (.view info) s = some joined) (agrees : Matched settings s info joiner) :
    Harmless settings s joined joiner := by
  intro acts t run
  obtain ⟨phase,progress⟩ := entering.runs viewed run
  have inside {server : SpreadGroup} (running : server ∈ s.members) : server ∈ info.members := entering.mem.mpr (.inr running)
  have ends (settled : Settled t) {server : SpreadGroup} (inside : server ∈ info.members) :=
    progress.ends settled (fun _ _ _ carries => carries.known) inside
  refine ⟨fun server running plain key entity has valid => ?_,fun settled key entity has valid => ?_⟩
  · have ending := agrees.kept server running plain key entity has valid
    obtain ⟨now,stored,same⟩ := (progress.rows server (inside running) plain).value has ending.only
    refine ⟨now,stored,same,fun settled => ?_⟩
    obtain ⟨last,found,still⟩ := (ends settled (inside running) plain key).2 _ ending.can
    cases found.symm.trans stored
    exact still
  · have can := (ends settled (entering.mem.mpr (.inl rfl)) entering.server key).1 entity has valid
    obtain ⟨server,running,plain,ending⟩ := agrees.taken key _ can
    obtain ⟨now,stored,still⟩ := (ends settled (inside running) plain key).2 _ ending.can
    exact ⟨server,running,plain,now,stored,still,ending.only _ ((ends settled (inside running) plain key).1 now stored still)⟩

end

/-! ### An order in which every answer is given before any arrives -/

/-- How many deliveries a packet can still lead to. -/
def weight : Body → Nat
  | .membership _ => 3
  | .regular (.startupRequestUpdate _) => 2
  | .regular (.startupResponseUpdate _) => 1
  | .regular _ => 0

def load (network : Multiset Packet) : Nat := (network.map fun packet => weight packet.body).sum

section
variable {settings : Settings} {s t u : State} {info : MembershipInfo} {joiner : SpreadGroup}

theorem sends_lighter (settings : Settings) (self : LeaderManager) (me sender : SpreadGroup) (members : List SpreadGroup)
    (call : Option Nat) {body : Body} (startup : startsUp body = true) :
    load (packets members me call (messageReceived settings self me sender body).sends) < weight body := by
  cases body with
  | membership info =>
    simp only [messageReceived,checkStartup]
    repeat' split
    all_goals simp [Outcome.unchanged,load,weight]
  | regular message =>
    cases message with
    | startupRequestUpdate dataDtoList => simp [messageReceived,startupData,load,weight]
    | startupResponseUpdate dataDtoList => simp [messageReceived,startupDataResponse,load,weight]
    | _ => cases startup

theorem load_erase {network : Multiset Packet} {packet : Packet} (flying : packet ∈ network) :
    load (network.erase packet) + weight packet.body = load network := by
  obtain ⟨rest,rfl⟩ := Multiset.exists_cons_of_mem flying
  rw [Multiset.erase_cons_head,load,load,Multiset.map_cons,Multiset.sum_cons,Nat.add_comm]

theorem deliver_lighter {packet : Packet} (startup : startsUp packet.body = true)
    (move : step settings (.deliver packet true) t = some u) : load u.network < load t.network := by
  cases service : isService packet.receiver with
  | true =>
    obtain ⟨flying,rfl⟩ := step_service service move
    have positive : 0 < weight packet.body := by
      have := sends_lighter settings (t.servers packet.receiver) packet.receiver packet.sender [] none startup
      omega
    have := load_erase flying
    dsimp only
    omega
  | false =>
    obtain ⟨outcome,delivered⟩ := step_delivered service move
    have less := sends_lighter settings (t.servers packet.receiver) packet.receiver packet.sender t.members packet.call startup
    rw [delivered.handles] at less
    have whole := load_erase delivered.flying
    rw [delivered.network]
    unfold load at *
    rw [Multiset.map_add,Multiset.sum_add]
    omega

theorem deliver_moves (settings : Settings) {packet : Packet} (flying : packet ∈ t.network) : ∃ u, step settings (.deliver packet true) t = some u := by
  simp only [step]
  rw [if_pos flying]
  split
  · exact ⟨_,rfl⟩
  · exact ⟨_,rfl⟩

/-- Only responses are on their way. -/
def Answered (t : State) : Prop :=
  ∀ packet ∈ t.network, startsUp packet.body = true → ∃ dataDtoList, packet.body = .regular (.startupResponseUpdate dataDtoList)

/-- Each answer carries what its sender had before the join: as long as a request is
    on its way no server is refreshed. -/
def RequestsFirst (settings : Settings) (s : State) (info : MembershipInfo) (t : State) : Prop :=
  ∃ phase, Progress settings s info (Owns s) phase t ∧ (Unrefreshed phase ∨ Answered t)

/-- While nobody is refreshed the rows have their values. -/
theorem Rows.owns {phase : Phase} {self : LeaderManager} {answers : String → SpreadGroup → String → Prop} {server : SpreadGroup}
    (rows : Rows settings s info answers server phase self) (unrefreshed : ∀ helper, phase ≠ .refreshed helper) {key : String}
    {entity : DataEntity} (stored : self.database.findById key = some entity) : Owns s key server entity.data := by
  cases phase with
  | before => exact ⟨entity,(rows.2 key).symm.trans stored,rfl⟩
  | asked helper =>
    obtain ⟨before,has,rfl⟩ := Option.map_eq_some_iff.mp ((rows.2.2 key).symm.trans stored)
    exact ⟨before,has,rfl⟩
  | refreshed helper => exact absurd rfl (unrefreshed helper)

/-- Where only responses are left, one of them arrives and nothing is sent. -/
theorem Answered.deliver {packet : Packet} (answered : Answered t) (flying : packet ∈ t.network)
    (startup : startsUp packet.body = true) (move : step settings (.deliver packet true) t = some u) : Answered u := by
  intro other flies
  refine answered other ?_
  cases service : isService packet.receiver with
  | true =>
    obtain ⟨_,rfl⟩ := step_service service move
    exact Multiset.mem_of_mem_erase flies
  | false =>
    obtain ⟨outcome,delivered⟩ := step_delivered service move
    obtain ⟨dataDtoList,response⟩ := answered packet flying startup
    have handles := delivered.handles
    rw [response] at handles
    subst handles
    rw [delivered.network] at flies
    exact (Multiset.mem_add.mp flies).elim Multiset.mem_of_mem_erase fun sent => absurd sent (Multiset.notMem_zero _)

theorem RequestsFirst.advance (entering : Entering s info joiner) (first : RequestsFirst settings s info t)
    (unsettled : ¬ Settled t) : ∃ a u, Restrict Handles (Steps (step settings)) t a u ∧ RequestsFirst settings s info u ∧
      load u.network < load t.network := by
  obtain ⟨phase,progress,ordered⟩ := first
  by_cases answered : Answered t
  · obtain ⟨packet,flying,startup⟩ : ∃ packet ∈ t.network, startsUp packet.body = true := by
      simpa [Settled] using unsettled
    obtain ⟨dataDtoList,response⟩ := answered packet flying startup
    obtain ⟨u,move⟩ := deliver_moves settings flying
    obtain ⟨phase',progress',_⟩ := progress.deliver entering startup
      (fun _ _ ⟨_,request⟩ => (by cases response.symm.trans request)) move
    exact ⟨.deliver packet true,u,⟨⟨startup,rfl⟩,move⟩,⟨phase',progress',.inr (answered.deliver flying startup move)⟩,deliver_lighter startup move⟩
  · obtain ⟨packet,flying,startup,unanswered⟩ : ∃ packet ∈ t.network, startsUp packet.body = true ∧
        ∀ dataDtoList, packet.body ≠ .regular (.startupResponseUpdate dataDtoList) := by
      simpa [Answered] using answered
    have unrefreshed := ordered.resolve_right answered
    obtain ⟨u,move⟩ := deliver_moves settings flying
    obtain ⟨phase',progress',still⟩ := progress.deliver entering startup
      (fun plain inside _ _ _ stored => (progress.rows _ inside plain).owns (unrefreshed _) stored) move
    exact ⟨.deliver packet true,u,⟨⟨startup,rfl⟩,move⟩,⟨phase',progress',.inl (still unanswered unrefreshed)⟩,deliver_lighter startup move⟩

theorem Entering.finishes {joined : State} (entering : Entering s info joiner)
    (viewed : step settings (.view info) s = some joined) :
    ∃ acts t, Run (Restrict Handles (Steps (step settings))) joined acts t ∧ RequestsFirst settings s info t ∧ Settled t :=
  Run.reach (fun t => load t.network) (fun _ first unsettled => first.advance entering unsettled)
    ⟨_,entering.progress viewed,.inl fun _ _ never => (by cases never)⟩

/-! ### What such an order asks of the rows -/

theorem asks_waits {server helper : SpreadGroup} (asking : asks settings s info server = some helper) :
    (s.servers server).waitStartupDataUpdate = true := by
  unfold asks at asking
  split at asking
  next waits => exact waits
  next => cases asking

/-- Answers stay among servers that ask each other and have one value. -/
theorem Carries.within {P : SpreadGroup → Prop} {key value other : String} {server : SpreadGroup}
    (carries : Carries settings s info key server other) (inside : P server)
    (data : ∀ server entity, P server → row s server key = some entity → entity.data = value)
    (closed : ∀ server helper, P server → asks settings s info server = some helper → isService helper = false → P helper) :
    other = value := by
  induction carries with
  | own has => exact data _ _ inside has
  | passed has asking plain _ ih => exact ih (closed _ _ inside asking plain)

/-- An entry that ends with a value when only own rows are answered, and can be told
    nothing else. -/
theorem EndsWith.of_owns {key value : String} {server : SpreadGroup} (ending : Ending settings s info (Owns s key) key server value)
    (only : ∀ helper, asks settings s info server = some helper → ∀ other, Carries settings s info key helper other → other = value) :
    EndsWith settings s info key server value := by
  cases asking : asks settings s info server with
  | none =>
    have can : CanEnd settings s info key server value := by
      simpa only [CanEnd,Ending,asking] using ending
    refine ⟨can,fun other ending' => ?_⟩
    simp only [CanEnd,Ending,asking] at can ending'
    obtain ⟨entity,has,_,rfl⟩ := can
    obtain ⟨entity',has',_,rfl⟩ := ending'
    cases has.symm.trans has'
    rfl
  | some helper =>
    simp only [Ending,asking] at ending
    obtain ⟨plain,known,source,theirs,rfl⟩ := ending
    refine ⟨?_,fun other ending' => ?_⟩
    · simp only [CanEnd,Ending,asking]
      exact ⟨plain,known,.own theirs⟩
    · simp only [CanEnd,Ending,asking] at ending'
      exact only helper asking other ending'.2.2

theorem Ending.owns {key value : String} {server helper : SpreadGroup}
    (ending : Ending settings s info (Owns s key) key server value) (asking : asks settings s info server = some helper) :
    isService helper = false ∧ Owns s key helper value := by
  simp only [Ending,asking] at ending
  exact ⟨ending.1,ending.2.2⟩

theorem Owns.unique {key value : String} {server : SpreadGroup} {entity : DataEntity} (owns : Owns s key server value)
    (has : row s server key = some entity) : entity.data = value := by
  obtain ⟨source,found,rfl⟩ := owns
  cases has.symm.trans found
  rfl

theorem Ending.unique {key value other : String} {server : SpreadGroup}
    (ending : Ending settings s info (Owns s key) key server value)
    (ending' : Ending settings s info (Owns s key) key server other) : other = value := by
  cases asking : asks settings s info server with
  | none =>
    simp only [Ending,asking] at ending ending'
    obtain ⟨entity,has,_,same⟩ := ending
    obtain ⟨entity',has',_,rfl⟩ := ending'
    exact Owns.unique ⟨entity,has,same⟩ has'
  | some helper =>
    obtain ⟨_,source,theirs,same⟩ := ending.owns asking
    obtain ⟨_,source',theirs',rfl⟩ := ending'.owns asking
    exact Owns.unique ⟨source,theirs,same⟩ theirs'

/-- A join that does no harm is one between rows that agree, where a running server
    that is still starting up is the only one. -/
theorem Harmless.matched {joined : State} (entering : Entering s info joiner)
    (viewed : step settings (.view info) s = some joined) (finished : Finished s)
    (harmless : Harmless settings s joined joiner) : Matched settings s info joiner := by
  obtain ⟨acts,t,run,⟨phase,progress,_⟩,settled⟩ := entering.finishes viewed
  obtain ⟨kept,taken⟩ := harmless acts t run
  have ends {server : SpreadGroup} (inside : server ∈ info.members) :=
    progress.ends settled (fun _ _ _ owns => owns.known) inside
  have only {server other helper : SpreadGroup} (running : server ∈ s.members) (plain : isService server = false)
      (asking : asks settings s info server = some helper) (also : other ∈ s.members) (plain' : isService other = false) :
      other = server := finished server running plain (asks_waits asking) other also plain'
  constructor
  · intro server running plain key entity has valid
    obtain ⟨now,stored,same,still⟩ := kept server running plain key entity has valid
    have ending := (ends (entering.mem.mpr (.inr running)) plain key).1 now stored (still settled)
    rw [same] at ending
    refine .of_owns ending fun helper asking other carries => ?_
    have helps := ending.owns asking
    -- The server and its helper have the value, and ask only each other.
    refine carries.within (P := fun member => member = server ∨ member = helper) (.inr rfl) ?_ ?_
    · rintro member entity' (rfl | rfl) has'
      · exact Owns.unique ⟨entity,has,rfl⟩ has'
      · exact helps.2.unique has'
    · rintro member next (rfl | rfl) asking' plain'
      · exact .inr (Option.some.inj (asking'.symm.trans asking))
      · rcases entering.mem.mp (asks_mem asking') with rfl | running'
        · rcases entering.mem.mp (asks_mem asking) with rfl | helping
          · exact .inr rfl
          · obtain rfl := only running plain asking helping helps.1
            exact .inr (Option.some.inj (asking'.symm.trans asking))
        · exact .inl (only running plain asking running' plain')
  · intro key value can
    obtain ⟨own,ending⟩ : ∃ own, Ending settings s info (Owns s key) key joiner own := by
      cases asking : asks settings s info joiner with
      | none => exact ⟨value,by simpa only [CanEnd,Ending,asking] using can⟩
      | some leader =>
        simp only [CanEnd,Ending,asking] at can
        obtain ⟨helps,known,carries⟩ := can
        obtain ⟨source,theirs⟩ := Option.isSome_iff_exists.mp carries.known
        refine ⟨source.data,?_⟩
        simp only [Ending,asking]
        exact ⟨helps,known,source,theirs,rfl⟩
    have ends_joiner := ends (entering.mem.mpr (.inl rfl)) entering.server key
    obtain ⟨now,stored,valid⟩ := ends_joiner.2 own ending
    have same := ending.unique (ends_joiner.1 now stored valid)
    obtain ⟨server,running,plain,now',stored',valid',same'⟩ := taken settled key now stored valid
    have ending' := (ends (entering.mem.mpr (.inr running)) plain key).1 now' stored' valid'
    rw [same',same] at ending'
    -- Whom the joiner and that server ask have the value, and ask nobody else.
    have within {helper : SpreadGroup} {other : String} (carries : Carries settings s info key helper other)
        (asked : asks settings s info joiner = some helper ∨ asks settings s info server = some helper) : other = own := by
      refine carries.within (P := fun member => asks settings s info joiner = some member ∨ asks settings s info server = some member)
        asked ?_ ?_
      · rintro member entity (asking | asking) has
        · exact (ending.owns asking).2.unique has
        · exact (ending'.owns asking).2.unique has
      · intro member next asked asking _
        have member_plain : isService member = false := asked.elim (fun asks => (ending.owns asks).1) fun asks => (ending'.owns asks).1
        rcases entering.mem.mp (asked.elim asks_mem asks_mem) with rfl | running'
        · exact .inl asking
        · obtain rfl := only running' member_plain asking running plain
          exact .inr asking
    have same_value : value = own := by
      cases asking : asks settings s info joiner with
      | none =>
        have owned : Ending settings s info (Owns s key) key joiner value := by simpa only [CanEnd,Ending,asking] using can
        exact ending.unique owned
      | some leader =>
        simp only [CanEnd,Ending,asking] at can
        exact within can.2.2 (.inl asking)
    rw [same_value]
    exact ⟨server,running,plain,.of_owns ending' fun helper asking other carries => within carries (.inr asking)⟩

/-- So it is where servers have joined one after another and all startups are over. -/
theorem finished_of_joins {start : State} {acts : List Action} (vacant : Vacant start)
    (run : Run (Restrict (Joins settings) (Steps (step settings))) start acts s) (settled : Settled s) : Finished s := by
  have starting : Starting settings s := run.always vacant.starting_up fun _ _ _ starting move => starting.step move.1 move.2
  intro server running plain waits other also plain'
  rcases starting.waiting server running plain waits with few | helped
  · have services := List.length_eq_length_filter_add (l := s.members) isService
    have one := starting.roster.service
    have inside {member : SpreadGroup} (running : member ∈ s.members) (plain : isService member = false) :
        member ∈ s.members.filter fun member => !isService member := List.mem_filter.mpr ⟨running,by simp [plain]⟩
    have positive := List.length_pos_of_mem (inside running plain)
    obtain ⟨member,single⟩ := List.length_eq_one_iff.mp (show (s.members.filter fun member => !isService member).length = 1 by omega)
    have here := inside running plain
    have there := inside also plain'
    rw [single,List.mem_singleton] at here there
    exact there.trans here.symm
  · cases helped with
    | view flies => cases settled _ flies
    | request flies => cases settled _ flies
    | response flies => cases settled _ flies

end

/-- In every state, for every order in which a join view and what it causes are
    handled: rows that agree are enough for the join to do no harm. They have to
    agree where a running server that is still starting up is the only one. -/
theorem join_harmless_iff (settings : Settings) (s joined : State) (info : MembershipInfo) (joiner : SpreadGroup)
    (entering : Entering s info joiner) (viewed : step settings (.view info) s = some joined) :
    (Matched settings s info joiner → Harmless settings s joined joiner) ∧
      (Finished s → Harmless settings s joined joiner → Matched settings s info joiner) :=
  ⟨fun agrees => agrees.harmless entering viewed,fun finished harmless => harmless.matched entering viewed finished⟩

/-- The entries of a server that asks nobody stay. -/
theorem EndsWith.of_silent {settings : Settings} {s : State} {info : MembershipInfo} {server : SpreadGroup} {key : String}
    {entity : DataEntity} (silent : asks settings s info server = none) (has : row s server key = some entity)
    (valid : entity.Valid) : EndsWith settings s info key server entity.data := by
  refine ⟨?_,fun other ending => ?_⟩
  · simp only [CanEnd,Ending,silent]
    exact ⟨entity,has,valid,rfl⟩
  · simp only [CanEnd,Ending,silent] at ending
    obtain ⟨entity',has',_,rfl⟩ := ending
    cases has.symm.trans has'
    rfl

/-- A database with a valid row of k. -/
def holding (value : String) : Database := Database.save ∅ ⟨"k",some false,value⟩

theorem findById_holding {value key : String} {entity : DataEntity} (found : (holding value).findById key = some entity) :
    entity = ⟨"k",some false,value⟩ := by
  rw [holding,Database.findById_save] at found
  split at found
  · exact (Option.some.inj found).symm
  · simp at found

/-- Server1 and Server2 run and agree on k, and Server3 comes with an older value. -/
def twoRunning : State where
  members := [service,server1,server2]
  servers server := if server = server3 then .initial (holding "old")
    else { LeaderManager.initial (holding "new") with waitStartupDataUpdate := false }
  calls _ := none
  network := 0

def thirdView : MembershipInfo := ⟨true,.join,[service,server1,server2,server3]⟩

theorem twoRunning_matched : Matched .properties twoRunning thirdView server3 := by
  have quiet {server : SpreadGroup} (other : server ≠ server3) : asks .properties twoRunning thirdView server = none := by
    simp [asks,twoRunning,other]
  have stored {server : SpreadGroup} (other : server ≠ server3) {key : String} {entity : DataEntity}
      (has : row twoRunning server key = some entity) : entity.Valid := by
    have found : (holding "new").findById key = some entity := by simpa [row,twoRunning,other,LeaderManager.initial] using has
    rw [findById_holding found]
    decide
  have different : ∀ server ∈ twoRunning.members, server ≠ server3 := by decide
  constructor
  · intro server running _ key entity has valid
    exact .of_silent (quiet (different server running)) has valid
  · intro key value can
    have asking : asks .properties twoRunning thirdView server3 = some server2 := by decide
    simp only [CanEnd,Ending,asking] at can
    cases can.2.2 with
    | own has => exact ⟨server2,by decide,by decide,.of_silent (quiet (by decide)) has (stored (by decide) has)⟩
    | passed _ asking => cases (quiet (by decide)).symm.trans asking

theorem join_harmless_iff_third :
    ∃ joined, step .properties (.view thirdView) twoRunning = some joined ∧ Harmless .properties twoRunning joined server3 ∧
      (Finished twoRunning → Matched .properties twoRunning thirdView server3) := by
  have entering : Entering twoRunning thirdView server3 :=
    ⟨rfl,rfl,by decide,by decide,by decide,⟨service,by decide,by decide⟩,⟨server1,by decide,by decide⟩,by simp [Settled,twoRunning]⟩
  have iff := join_harmless_iff .properties twoRunning _ thirdView server3 entering rfl
  exact ⟨_,rfl,iff.1 twoRunning_matched,fun finished => iff.2 finished (iff.1 twoRunning_matched)⟩

/-- Valid entries of one key agree at all running servers. -/
def Agree (s : State) : Prop :=
  ∀ one ∈ s.members, ∀ two ∈ s.members, isService one = false → isService two = false → ∀ key entity other,
    row s one key = some entity → row s two key = some other → entity.Valid → other.Valid → entity.data = other.data

instance (s : State) : DecidablePred (Handles s)
  | .deliver packet sent => inferInstanceAs (Decidable (startsUp packet.body = true ∧ sent = true))
  | .call _ _ _ | .thread _ _ | .view _ | .boot _ => isFalse id

/-- Nobody has joined yet, and the server that will join second has an older value. -/
def outdated : State :=
  ⟨[service],fun server => .initial (holding (if server = server2 then "old" else "new")),fun _ => none,0⟩

/-- Server1 joins, alone with the configuration service. -/
def served : State := endOf (step .properties) outdated (Startup.joined [service,server1])

def secondView : MembershipInfo := ⟨true,.join,[service,server1,server2]⟩

def secondJoined : State := endOf (step .properties) served [.view secondView]

/-- Server1 is still starting up when Server2 joins: each takes the value of the other. -/
def swapped : List Action :=
  ((secondView.members.map fun member => (⟨member,member,.membership secondView,none⟩ : Packet)) ++
    [⟨server2,server1,.regular (.startupRequestUpdate [⟨"k","new"⟩]),none⟩,
     ⟨server1,server2,.regular (.startupRequestUpdate [⟨"k","old"⟩]),none⟩,
     ⟨server1,server2,.regular (.startupResponseUpdate [⟨"k","old"⟩]),none⟩,
     ⟨server2,server1,.regular (.startupResponseUpdate [⟨"k","new"⟩]),none⟩] : List Packet).map fun packet => .deliver packet true

/-- Server2 joins with an older value, and Server1 takes it. -/
theorem join_damages :
    ¬ ∀ (settings : Settings) (start s joined : State) (acts : List Action) (info : MembershipInfo) (joiner : SpreadGroup),
      Vacant start → Run (Restrict (Joins settings) (Steps (step settings))) start acts s → Agree s →
      Entering s info joiner → step settings (.view info) s = some joined → Harmless settings s joined joiner := by
  intro harmless
  obtain ⟨s,run,facts⟩ := exists_run_of_exec (step .properties) (JoinsLast .properties)
    (fun s => s.members = [service,server1] ∧ s.network = 0 ∧ row s server1 "k" = some ⟨"k",some false,"new"⟩)
    outdated (Startup.joined [service,server1]) (by decide)
  have joining := run.mono fun s a t (move : Restrict _ _ s a t) => (⟨move.1.joins,move.2⟩ : Restrict (Joins _) _ s a t)
  obtain rfl : served = s := run.unrestrict.endOf_eq
  obtain ⟨members,quiet,has⟩ := facts
  have vacant : Vacant outdated := ⟨⟨service,by decide,rfl⟩,fun _ => rfl,by simp [outdated]⟩
  have agree : Agree served := by
    intro one inside two also plain plain' key entity other has has' _ _
    have only : ∀ member ∈ served.members, isService member = false → member = server1 := by rw [members]; decide
    rw [only one inside plain] at has
    rw [only two also plain'] at has'
    cases has.symm.trans has'
    rfl
  have entering : Entering served secondView server2 :=
    ⟨rfl,rfl,by rw [members]; decide,by rw [members]; decide,by decide,⟨service,by rw [members]; decide,by decide⟩,
      ⟨server1,by rw [members]; decide,by decide⟩,by simp [Settled,quiet]⟩
  have safe := harmless .properties outdated served secondJoined _ secondView server2 vacant joining agree entering rfl
  obtain ⟨t,run',taken⟩ := exists_run_of_exec (step .properties) Handles
    (fun t => row t server1 "k" = some ⟨"k",some false,"old"⟩) secondJoined swapped (by decide)
  obtain ⟨now,stored,same,_⟩ := (safe swapped t run').1 server1 (by rw [members]; decide) (by decide) "k" _ has (by decide)
  cases taken.symm.trans stored
  exact absurd same (by decide)

end CdPraticas.Joining
