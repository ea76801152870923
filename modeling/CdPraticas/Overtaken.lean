import CdPraticas.Joining
import CdPraticas.Listeners

/-!
# Startup data and newer data

A server in startup answers its clients at once and serves them all the same, and
`startupDataResponse` does not look at what has been stored since the request.
Here every message in flight or in the hands of a listener thread carries the moment
its startup request was sent, and every key the moment at which its server last saved
a value of it for a client.
-/

namespace CdPraticas.Overtaken
open Runs Groups Store Messages Calls Programs Listeners
open Handlers (Settings LeaderManager Outcome)
open Cluster (State)
open Startup (startsUp thread_sends Vacant)
open Joining (holding secondView)
open Keys (service server1 server2)

/-- The cluster with its clock. The moment of a message is the step at which it was
    sent, and for an answer to a startup request that of the request. -/
structure Stamped where
  threads : Threads
  now : Nat
  flights : Multiset (Packet × Nat)
  /-- the moment of the message that a listener thread is handling -/
  handling : SpreadGroup → Nat
  savedAt : SpreadGroup → String → Option Nat

/-- Nothing has been saved yet, and what is in flight has been sent before. -/
def Stamped.start (s : Threads) : Stamped :=
  ⟨s,0,s.cluster.network.map fun packet => (packet,0),fun _ => 0,fun _ _ => none⟩

/-- The value that a step saves for a client: at which server and of which key. The row
    that a write invalidates at first keeps its value. -/
def saved (settings : Settings) (s : State) : Event → Option (SpreadGroup × String)
  | .thread i choice =>
    (s.calls i).bind fun call =>
      let stored := (s.servers call.server).database.findById call.request.key
      match call.pc, next settings (s.servers call.server).numberOfParticipants stored call choice with
      | .saveInvalidate _, _ => none
      | _, some (.save dataEntity,_) => some (call.server,dataEntity.key)
      | _, _ => none
  | _ => none

/-- The moments of the last saves after a step. -/
def Stamped.noted (settings : Settings) (s : Stamped) (event : Event) : SpreadGroup → String → Option Nat :=
  match saved settings s.threads.cluster event with
  | some (server,key) => Function.update s.savedAt server (Function.update (s.savedAt server) key (some s.now))
  | none => s.savedAt

/-- The moment of what is sent in a step. -/
def Stamped.moment (s : Stamped) : Event → Nat
  | .listen server _ =>
    match s.threads.listening server with
    | some ⟨⟨_,_,.regular (.startupRequestUpdate _),_⟩,_⟩ => s.handling server
    | _ => s.now
  | _ => s.now

/-- A step of the cluster. Where a message is taken, the step names its moment. -/
def Stamped.step (settings : Settings) : Event × Nat → Stamped → Option Stamped
  | (.receive packet,moment), s =>
    if (packet,moment) ∈ s.flights then
      (Listeners.step settings (.receive packet) s.threads).map fun t =>
        { s with
          threads := t
          now := s.now + 1
          flights := s.flights.erase (packet,moment)
          handling := Function.update s.handling packet.receiver moment }
    else none
  | (event,_), s =>
    (Listeners.step settings event s.threads).map fun t =>
      { s with
        threads := t
        now := s.now + 1
        flights := s.flights + (t.cluster.network - s.threads.cluster.network).map fun new => (new,s.moment event)
        savedAt := s.noted settings event }

/-- The value that a server has for a key. -/
def value (s : Threads) (server : SpreadGroup) (key : String) : Option String :=
  ((s.cluster.servers server).database.findById key).map DataEntity.data

/-- The handler of an answer to a startup request leaves the values that the server has
    saved for clients since it sent the request. -/
def Keeps (settings : Settings) (s : Stamped) : Event → Prop
  | .listen server sent => ∀ busy ∈ s.threads.listening server, ∀ dataDtoList,
      busy.packet.body = .regular (.startupResponseUpdate dataDtoList) →
        ∀ t, Listeners.step settings (.listen server sent) s.threads = some t →
          ∀ key saved, s.savedAt server key = some saved → s.handling server ≤ saved → value t server key = value s.threads server key
  | _ => True

/-- A startup of the server is under way that can tell it of the key. -/
def Mentions (server : SpreadGroup) (key : String) (packet : Packet) : Prop :=
  match packet.body with
  | .regular (.startupRequestUpdate dataDtoList) => packet.sender = server ∧ key ∈ dataDtoList.map DataDto.key
  | .regular (.startupResponseUpdate dataDtoList) => packet.receiver = server ∧ key ∈ dataDtoList.map DataDto.key
  | _ => False

/-- A server saves values for clients only while no startup of it that is about the key
    is under way, in flight or in the hands of a listener thread. -/
def SavesWhenQuiet (settings : Settings) (s : Stamped) (event : Event) : Prop :=
  ∀ entry ∈ saved settings s.threads.cluster event,
    (∀ packet ∈ s.threads.cluster.network, ¬ Mentions entry.1 entry.2 packet) ∧
      ∀ other, ∀ busy ∈ s.threads.listening other, ¬ Mentions entry.1 entry.2 busy.packet

/-! ### What the handlers of a startup do -/

/-- The handler of a startup message saves rows of the keys it tells of, and answers with
    such rows. -/
def about (sender : SpreadGroup) (keys : List String) : Rely Access Unit where
  later _ _ := True
  refl _ := trivial
  trans _ _ := trivial
  requires _ _ access :=
    match access with
    | .save dataEntity => dataEntity.key ∈ keys
    | .deleteById _ => False
    | .multicast send => ∃ dataDtoList, send = .unicast (.startupResponseUpdate dataDtoList) sender ∧
        ∀ dataDto ∈ dataDtoList, dataDto.key ∈ keys
    | _ => True
  returns _ _ access returned :=
    match access, returned with
    | .findById key, found => ∀ entity ∈ found, entity.key = key
    | _, _ => True
  stays _ needs := needs

section
variable {sender : SpreadGroup} {keys : List String} {dataDtoList : List DataDto}

theorem findStored_about (listed : ∀ dataDto ∈ dataDtoList, dataDto.key ∈ keys) : (findStored dataDtoList).Safe (about sender keys) ()
    fun _ response => ∀ dataDto ∈ response, dataDto.key ∈ keys := by
  induction dataDtoList with
  | nil => exact fun _ member => absurd member List.not_mem_nil
  | cons dataDto rest ih =>
    refine ⟨trivial,fun _ _ found own => (ih fun other member => listed other (List.mem_cons_of_mem _ member)).bind ?_⟩
    intro _ _ response all other member
    rcases List.mem_append.mp member with member | member
    · cases found with
      | none => simp at member
      | some entity =>
        obtain rfl : other = entity.toDto := by simpa using member
        have same : entity.key = dataDto.key := own entity rfl
        rw [toDto_key,same]
        exact listed dataDto List.mem_cons_self
    · exact all other member

theorem startupData_about (listed : ∀ dataDto ∈ dataDtoList, dataDto.key ∈ keys) :
    (startupData sender dataDtoList).Safe (about sender keys) () fun _ _ => True :=
  (findStored_about listed).bind fun _ _ response all => .single ⟨response,rfl,all⟩ fun _ _ _ _ => trivial

theorem refreshRows_about (listed : ∀ dataDto ∈ dataDtoList, dataDto.key ∈ keys) :
    (refreshRows dataDtoList).Safe (about sender keys) () fun _ _ => True := by
  induction dataDtoList with
  | nil => trivial
  | cons dataDto rest ih =>
    have more := ih fun other member => listed other (List.mem_cons_of_mem _ member)
    refine ⟨trivial,fun _ _ found own => ?_⟩
    cases found with
    | none => exact more
    | some entity =>
      have same : entity.key = dataDto.key := own entity rfl
      refine ⟨?_,fun _ _ _ _ => more⟩
      change entity.key ∈ keys
      rw [same]
      exact listed dataDto List.mem_cons_self

theorem startupDataResponse_about (listed : ∀ dataDto ∈ dataDtoList, dataDto.key ∈ keys) :
    (startupDataResponse dataDtoList).Safe (about sender keys) () fun _ _ => True :=
  (refreshRows_about listed).bind fun _ _ _ _ => .single trivial fun _ _ _ _ => trivial

variable {α : Type} {access : Access α} {self : LeaderManager}

theorem perform_returns : (about sender keys).returns () access (perform access (.unchanged self)).2 := by
  cases access with
  | findById key => exact fun entity found => Database.findById_key found
  | _ => trivial

/-- Rows of other keys stay as they are, -/
theorem perform_row (needs : (about sender keys).requires () access) {key : String} (other : key ∉ keys) :
    (perform access (.unchanged self)).1.manager.database.findById key = self.database.findById key := by
  cases access with
  | save dataEntity =>
    have listed : dataEntity.key ∈ keys := needs
    have different : key ≠ dataEntity.key := by
      rintro rfl
      exact other listed
    exact (Database.findById_save ..).trans (if_neg different)
  | deleteById _ => exact needs.elim
  | increment key found =>
    simp only [perform]
    split_ifs <;> rfl
  | _ => rfl

/-- and nothing else is sent. -/
theorem perform_sends (needs : (about sender keys).requires () access) {send : Send}
    (sent : send ∈ (perform access (.unchanged self)).1.sends) :
    ∃ dataDtoList, send = .unicast (.startupResponseUpdate dataDtoList) sender ∧ ∀ dataDto ∈ dataDtoList, dataDto.key ∈ keys := by
  cases access with
  | multicast other =>
    obtain rfl : send = other := by simpa [perform,Outcome.unchanged] using sent
    exact needs
  | increment key found =>
    simp only [perform] at sent
    split_ifs at sent <;> simp [Outcome.unchanged] at sent
  | _ => simp [perform,Outcome.unchanged] at sent

end

/-- The keys that a startup message tells of. -/
def keysOf : Body → Option (List String)
  | .regular (.startupRequestUpdate dataDtoList) | .regular (.startupResponseUpdate dataDtoList) =>
    some (dataDtoList.map DataDto.key)
  | _ => none

/-- What is left of the handler of a startup message is about its keys. -/
def Within (busy : Listening) : Prop :=
  ∀ keys ∈ keysOf busy.packet.body, busy.handler.Safe (about busy.packet.sender keys) () fun _ _ => True

section
variable {settings : Settings} {packet : Packet} {α : Type} {access : Access α} {rest : α → Handler Unit} {self : LeaderManager}
  {server : SpreadGroup} {key : String}

theorem received_within : Within ⟨packet,messageReceived settings packet.receiver packet.sender packet.body⟩ := by
  obtain ⟨receiver,sender,body,call⟩ := packet
  intro keys told
  cases body with
  | regular message =>
    cases message with
    | startupRequestUpdate dataDtoList =>
      cases told
      exact startupData_about fun _ member => List.mem_map_of_mem member
    | startupResponseUpdate dataDtoList =>
      cases told
      exact startupDataResponse_about fun _ member => List.mem_map_of_mem member
    | _ => cases told
  | membership info => cases told

theorem within_goes (within : Within ⟨packet,.make access rest⟩) :
    Within ⟨packet,rest (perform access (.unchanged self)).2⟩ :=
  fun keys told => (within keys told).2 () trivial _ perform_returns

/-- An answer is about keys of the request. -/
theorem mentions_answered (within : Within ⟨packet,.make access rest⟩) {dataDtoList : List DataDto}
    (request : packet.body = .regular (.startupRequestUpdate dataDtoList)) {members : List SpreadGroup} {new : Packet}
    (sent : new ∈ packets members server packet.call (perform access (.unchanged self)).1.sends)
    {other : SpreadGroup} (mentions : Mentions other key new) : Mentions other key packet := by
  obtain ⟨send,inside,goes⟩ := mem_packets.mp sent
  have told : (dataDtoList.map DataDto.key) ∈ keysOf packet.body := by rw [request]; rfl
  obtain ⟨answered,rfl,listed⟩ := perform_sends (within _ told).1 inside
  obtain rfl := Multiset.mem_singleton.mp goes
  obtain ⟨rfl,member⟩ := mentions
  obtain ⟨dataDto,inside,rfl⟩ := List.mem_map.mp member
  unfold Mentions
  rw [request]
  exact ⟨rfl,listed dataDto inside⟩

end

/-! ### Every run has its moments -/

section
variable {settings : Settings} {s t : Threads} {event : Event}

/-- A step takes nothing out of the network but the message that is taken. -/
theorem network_le (takes : ∀ packet, event ≠ .receive packet) (move : Listeners.step settings event s = some t) :
    s.cluster.network ≤ t.cluster.network := by
  cases event with
  | call i server request =>
    obtain ⟨_,rfl⟩ := step_call move
    exact le_rfl
  | thread i choice =>
    obtain ⟨_,_,_,_,_,rfl⟩ := step_thread move
    exact Multiset.le_add_right ..
  | view info =>
    obtain rfl := step_view move
    exact Multiset.le_add_right ..
  | boot server =>
    obtain rfl := step_boot move
    exact le_rfl
  | receive packet => exact absurd rfl (takes packet)
  | listen server sent =>
    rcases step_listen move with ⟨_,_,_,rfl⟩ | ⟨_,_,_,_,_,rfl⟩
    · exact le_rfl
    · exact Multiset.le_add_right ..

theorem receive_cases {packet : Packet} (move : Listeners.step settings (.receive packet) s = some t) :
    packet ∈ s.cluster.network ∧ s.listening packet.receiver = none ∧
      t.cluster = { s.cluster with network := s.cluster.network.erase packet } ∧
      (t.listening = s.listening ∨ t.listening = Function.update s.listening packet.receiver
        (some ⟨packet,messageReceived settings packet.receiver packet.sender packet.body⟩)) := by
  simp only [Listeners.step] at move
  split_ifs at move with takes service <;> cases move
  · exact ⟨takes.1,takes.2,rfl,.inl rfl⟩
  · exact ⟨takes.1,takes.2,rfl,.inr rfl⟩

end

section
variable {settings : Settings} {s t : Stamped} {event : Event} {moment : Nat} {packet : Packet}

/-- A step that takes no message, without the moment it does not read. -/
theorem step_other (takes : ∀ packet, event ≠ .receive packet) : Stamped.step settings (event,moment) s =
    (Listeners.step settings event s.threads).map fun after =>
      ⟨after,s.now + 1,s.flights + (after.cluster.network - s.threads.cluster.network).map fun new => (new,s.moment event),
        s.handling,s.noted settings event⟩ := by
  cases event with
  | receive packet => exact absurd rfl (takes packet)
  | _ => rfl

theorem other_cases (takes : ∀ packet, event ≠ .receive packet) (move : Stamped.step settings (event,moment) s = some t) :
    ∃ after, Listeners.step settings event s.threads = some after ∧
      t = ⟨after,s.now + 1,s.flights + (after.cluster.network - s.threads.cluster.network).map fun new => (new,s.moment event),
        s.handling,s.noted settings event⟩ := by
  rw [step_other takes] at move
  obtain ⟨after,moved,same⟩ := Option.map_eq_some_iff.mp move
  exact ⟨after,moved,same.symm⟩
theorem taken_cases (move : Stamped.step settings (.receive packet,moment) s = some t) : (packet,moment) ∈ s.flights ∧
    ∃ after, Listeners.step settings (.receive packet) s.threads = some after ∧
      t = ⟨after,s.now + 1,s.flights.erase (packet,moment),Function.update s.handling packet.receiver moment,s.savedAt⟩ := by
  simp only [Stamped.step] at move
  split_ifs at move with flying
  obtain ⟨after,moved,same⟩ := Option.map_eq_some_iff.mp move
  exact ⟨flying,after,moved,same.symm⟩

/-- The messages in flight are those of the cluster. -/
theorem flights_step (flights : s.flights.map Prod.fst = s.threads.cluster.network)
    (move : Stamped.step settings (event,moment) s = some t) : t.flights.map Prod.fst = t.threads.cluster.network := by
  by_cases takes : ∀ packet, event ≠ .receive packet
  · obtain ⟨after,moved,rfl⟩ := other_cases takes move
    dsimp only
    rw [Multiset.map_add,Multiset.map_map,flights]
    simp only [Function.comp_def,Multiset.map_id']
    exact add_tsub_cancel_of_le (network_le takes moved)
  · push Not at takes
    obtain ⟨packet,rfl⟩ := takes
    obtain ⟨flying,after,moved,rfl⟩ := taken_cases move
    obtain ⟨_,_,cluster,_⟩ := receive_cases moved
    dsimp only
    rw [Multiset.map_erase_of_mem _ _ flying,flights,cluster]

/-- Every step of the cluster can be stamped. -/
theorem stamped_step {after : Threads} (flights : s.flights.map Prod.fst = s.threads.cluster.network)
    (move : Listeners.step settings event s.threads = some after) :
    ∃ moment t, Stamped.step settings (event,moment) s = some t ∧ t.threads = after := by
  by_cases takes : ∀ packet, event ≠ .receive packet
  · exact ⟨0,_,by rw [step_other takes,move,Option.map_some],rfl⟩
  · push Not at takes
    obtain ⟨packet,rfl⟩ := takes
    have flying : packet ∈ s.flights.map Prod.fst := by
      rw [flights]
      exact (receive_cases move).1
    obtain ⟨⟨_,moment⟩,inside,rfl⟩ := Multiset.mem_map.mp flying
    exact ⟨moment,_,by rw [Stamped.step,if_pos inside,move,Option.map_some],rfl⟩

end

/-- So every run of the cluster is one with moments. -/
theorem stamped_run {settings : Settings} {start t : Threads} {events : List Event}
    (run : Run (Steps (Listeners.step settings)) start events t) :
    ∃ stamped s, stamped.map Prod.fst = events ∧ Run (Steps (Stamped.step settings)) (.start start) stamped s ∧ s.threads = t := by
  suffices whole : ∃ stamped s, stamped.map Prod.fst = events ∧ Run (Steps (Stamped.step settings)) (.start start) stamped s ∧
      s.threads = t ∧ s.flights.map Prod.fst = s.threads.cluster.network by
    obtain ⟨stamped,s,same,run,reached,_⟩ := whole
    exact ⟨stamped,s,same,run,reached⟩
  induction run with
  | start => exact ⟨[],_,rfl,.start,rfl,by simp [Stamped.start]⟩
  | @next events _ t event _ move ih =>
    obtain ⟨stamped,s,rfl,run,rfl,flights⟩ := ih
    obtain ⟨moment,u,moved,reached⟩ := stamped_step flights move
    exact ⟨stamped ++ [(event,moment)],u,by simp,run.next moved,reached,flights_step flights moved⟩

/-! ### Runs in which clients are served between startups -/

/-- What is under way of a startup is younger than what has been saved. -/
structure Timely (s : Stamped) : Prop where
  flights : s.flights.map Prod.fst = s.threads.cluster.network
  younger : ∀ packet moment, (packet,moment) ∈ s.flights → ∀ server key saved, Mentions server key packet →
    s.savedAt server key = some saved → saved < moment
  handled : ∀ other busy, s.threads.listening other = some busy → ∀ server key saved, Mentions server key busy.packet →
    s.savedAt server key = some saved → saved < s.handling other
  past : ∀ server key saved, s.savedAt server key = some saved → saved < s.now
  located : ∀ other busy, s.threads.listening other = some busy → busy.packet.receiver = other
  within : ∀ other busy, s.threads.listening other = some busy → Within busy

section
variable {settings : Settings} {s t : Stamped} {event : Event} {moment : Nat} {packet : Packet} {server : SpreadGroup}
  {key : String} {sent : Bool}

theorem timely_start {start : Threads} (idle : ∀ server, start.listening server = none) : Timely (.start start) := by
  have nobody : ∀ {other busy}, start.listening other ≠ some busy := fun busy => by rw [idle] at busy; cases busy
  exact ⟨by simp [Stamped.start],fun _ _ _ _ _ _ _ none => (by cases none),fun _ _ busy => absurd busy nobody,
    fun _ _ _ none => (by cases none),fun _ _ busy => absurd busy nobody,fun _ _ busy => absurd busy nobody⟩

theorem Timely.taken (timely : Timely s) (move : Stamped.step settings (.receive packet,moment) s = some t) : Timely t := by
  have flights := flights_step timely.flights move
  obtain ⟨flying,after,moved,rfl⟩ := taken_cases move
  obtain ⟨_,idle,_,listening⟩ := receive_cases moved
  -- who is busy was so before, or has just taken the message
  have busyBefore : ∀ {other busy}, after.listening other = some busy → other ≠ packet.receiver ∧
      s.threads.listening other = some busy ∨ other = packet.receiver ∧
        busy = ⟨packet,messageReceived settings packet.receiver packet.sender packet.body⟩ := by
    intro other busy now
    rcases listening with same | takes
    · rw [same] at now
      refine .inl ⟨?_,now⟩
      rintro rfl
      rw [idle] at now
      cases now
    · rw [takes] at now
      by_cases here : other = packet.receiver
      · subst here
        rw [Function.update_self] at now
        exact .inr ⟨rfl,(Option.some.inj now).symm⟩
      · rw [Function.update_of_ne here] at now
        exact .inl ⟨here,now⟩
  refine ⟨flights,?_,?_,?_,?_,?_⟩
  · intro other stamp inside
    exact timely.younger other stamp (Multiset.mem_of_mem_erase inside)
  · intro other busy now server key saved mentions savedAt
    rcases busyBefore now with ⟨different,was⟩ | ⟨rfl,rfl⟩
    · dsimp only
      rw [Function.update_of_ne different]
      exact timely.handled other busy was server key saved mentions savedAt
    · dsimp only
      rw [Function.update_self]
      exact timely.younger packet moment flying server key saved mentions savedAt
  · exact fun server key saved savedAt => Nat.lt_succ_of_lt (timely.past server key saved savedAt)
  · intro other busy now
    rcases busyBefore now with ⟨_,was⟩ | ⟨rfl,rfl⟩
    · exact timely.located other busy was
    · rfl
  · intro other busy now
    rcases busyBefore now with ⟨_,was⟩ | ⟨rfl,rfl⟩
    · exact timely.within other busy was
    · exact received_within

/-- An answer to a startup request is as old as the request. -/
theorem moment_listen (sent : Bool) {busy : Listening} (there : s.threads.listening server = some busy) :
    s.moment (.listen server sent) = s.now ∨
      s.moment (.listen server sent) = s.handling server ∧ ∃ dataDtoList, busy.packet.body = .regular (.startupRequestUpdate dataDtoList) := by
  obtain ⟨⟨receiver,sender,body,call⟩,handler⟩ := busy
  simp only [Stamped.moment,there]
  split
  · next same =>
    cases same
    exact .inr ⟨rfl,_,rfl⟩
  · exact .inl rfl

theorem Timely.listened (timely : Timely s) (move : Stamped.step settings (.listen server sent,moment) s = some t) : Timely t := by
  have flights := flights_step timely.flights move
  obtain ⟨after,moved,rfl⟩ := other_cases (by simp) move
  have past : ∀ server key saved, s.savedAt server key = some saved → saved < s.now + 1 :=
    fun server key saved savedAt => Nat.lt_succ_of_lt (timely.past server key saved savedAt)
  rcases step_listen moved with ⟨packet,result,_,rfl⟩ | ⟨packet,α,access,rest,there,rfl⟩
  · have busyBefore : ∀ {other busy}, Function.update s.threads.listening server none other = some busy →
        s.threads.listening other = some busy := by
      intro other busy now
      by_cases here : other = server
      · subst here
        rw [Function.update_self] at now
        cases now
      · rwa [Function.update_of_ne here] at now
    exact ⟨flights,fun other stamp inside => timely.younger other stamp (by simpa using inside),
      fun other busy now => timely.handled other busy (busyBefore now),past,
      fun other busy now => timely.located other busy (busyBefore now),fun other busy now => timely.within other busy (busyBefore now)⟩
  · have within := timely.within server _ there
    have busyBefore : ∀ {other busy}, Function.update s.threads.listening server
        (some ⟨packet,rest (perform access (.unchanged (s.threads.cluster.servers server))).2⟩) other = some busy →
        s.threads.listening other = some busy ∨ other = server ∧
          busy = ⟨packet,rest (perform access (.unchanged (s.threads.cluster.servers server))).2⟩ := by
      intro other busy now
      by_cases here : other = server
      · subst here
        rw [Function.update_self] at now
        exact .inr ⟨rfl,(Option.some.inj now).symm⟩
      · rw [Function.update_of_ne here] at now
        exact .inl now
    refine ⟨flights,?_,?_,past,?_,?_⟩
    · intro new stamp inside server' key saved mentions savedAt
      rcases Multiset.mem_add.mp inside with old | fresh
      · exact timely.younger new stamp old server' key saved mentions savedAt
      · obtain ⟨_,answered,same⟩ := Multiset.mem_map.mp fresh
        cases same
        -- an answer is as young as its request, and anything else as the step
        rcases moment_listen sent there with now | ⟨asked,dataDtoList,request⟩
        · rw [now]
          exact timely.past server' key saved savedAt
        · rw [asked]
          rw [listened_network,add_tsub_cancel_left] at answered
          split_ifs at answered
          · have listed := mentions_answered within request answered mentions
            exact timely.handled server _ there server' key saved listed savedAt
          · simp at answered
    · intro other busy now server' key saved mentions savedAt
      rcases busyBefore now with was | ⟨rfl,rfl⟩
      · exact timely.handled other busy was server' key saved mentions savedAt
      · exact timely.handled other _ there server' key saved mentions savedAt
    · intro other busy now
      rcases busyBefore now with was | ⟨rfl,rfl⟩
      · exact timely.located other busy was
      · have here := timely.located other _ there
        exact here
    · intro other busy now
      rcases busyBefore now with was | ⟨rfl,rfl⟩
      · exact timely.within other busy was
      · exact within_goes within

theorem noted_cases {saves : Nat} (noted : s.noted settings event server key = some saves) :
    saved settings s.threads.cluster event = some (server,key) ∧ saves = s.now ∨ s.savedAt server key = some saves := by
  cases saves : saved settings s.threads.cluster event with
  | none =>
    simp only [Stamped.noted,saves] at noted
    exact .inr noted
  | some entry =>
    obtain ⟨here,there⟩ := entry
    simp only [Stamped.noted,saves] at noted
    by_cases same : server = here
    · subst same
      rw [Function.update_self] at noted
      by_cases same : key = there
      · subst same
        rw [Function.update_self] at noted
        exact .inl ⟨rfl,(Option.some.inj noted).symm⟩
      · rw [Function.update_of_ne same] at noted
        exact .inr noted
    · rw [Function.update_of_ne same] at noted
      exact .inr noted

theorem mentions_startsUp (mentions : Mentions server key packet) : startsUp packet.body = true := by
  unfold Mentions at mentions
  split at mentions
  · next body => rw [body]; rfl
  · next body => rw [body]; rfl
  · cases mentions

/-- Nothing else that is sent is about a startup, and no listener thread gets something to do. -/
theorem others_silent {s t : Threads} (takes : ∀ packet, event ≠ .receive packet)
    (listens : ∀ server sent, event ≠ .listen server sent) (move : Listeners.step settings event s = some t) :
    (∀ new ∈ t.cluster.network - s.cluster.network, ∀ server key, ¬ Mentions server key new) ∧
      ∀ other busy, t.listening other = some busy → s.listening other = some busy := by
  cases event with
  | call i server request =>
    obtain ⟨_,rfl⟩ := step_call move
    exact ⟨fun new sent => by simp at sent,fun _ _ busy => busy⟩
  | thread i choice =>
    obtain ⟨_,_,_,_,moved,rfl⟩ := step_thread move
    refine ⟨fun new sent server key mentions => ?_,fun _ _ busy => busy⟩
    rw [add_tsub_cancel_left] at sent
    have startup := mentions_startsUp mentions
    obtain ⟨_,send,inside,body⟩ := packets_carry sent
    rw [body,thread_sends moved inside] at startup
    cases startup
  | view info =>
    obtain rfl := step_view move
    refine ⟨fun new sent server key mentions => ?_,fun _ _ busy => busy⟩
    rw [add_tsub_cancel_left] at sent
    obtain ⟨member,_,rfl⟩ := List.mem_map.mp (Multiset.mem_coe.mp sent)
    cases mentions
  | boot booted =>
    obtain rfl := step_boot move
    refine ⟨fun new sent => by simp at sent,fun other busy now => ?_⟩
    change Function.update s.listening booted none other = some busy at now
    by_cases here : other = booted
    · subst here
      rw [Function.update_self] at now
      cases now
    · rwa [Function.update_of_ne here] at now
  | receive packet => exact absurd rfl (takes packet)
  | listen server sent => exact absurd rfl (listens server sent)

theorem Timely.other (timely : Timely s) (takes : ∀ packet, event ≠ .receive packet)
    (listens : ∀ server sent, event ≠ .listen server sent) (quiet : SavesWhenQuiet settings s event)
    (move : Stamped.step settings (event,moment) s = some t) : Timely t := by
  have flights := flights_step timely.flights move
  obtain ⟨after,moved,rfl⟩ := other_cases takes move
  obtain ⟨silent,busyBefore⟩ := others_silent takes listens moved
  refine ⟨flights,?_,?_,?_,fun other busy now => timely.located other busy (busyBefore other busy now),
    fun other busy now => timely.within other busy (busyBefore other busy now)⟩
  · intro new stamp inside server key saves mentions noted
    rcases Multiset.mem_add.mp inside with old | fresh
    · rcases noted_cases noted with ⟨saving,_⟩ | earlier
      · have flying : new ∈ s.threads.cluster.network := by
          rw [← timely.flights]
          exact Multiset.mem_map_of_mem Prod.fst old
        exact absurd mentions ((quiet _ saving).1 new flying)
      · exact timely.younger new stamp old server key saves mentions earlier
    · obtain ⟨_,sent,same⟩ := Multiset.mem_map.mp fresh
      cases same
      exact absurd mentions (silent _ sent server key)
  · intro other busy now server key saves mentions noted
    rcases noted_cases noted with ⟨saving,_⟩ | earlier
    · exact absurd mentions ((quiet _ saving).2 other busy (busyBefore other busy now))
    · exact timely.handled other busy (busyBefore other busy now) server key saves mentions earlier
  · intro server key saves noted
    rcases noted_cases noted with ⟨_,rfl⟩ | earlier
    · exact Nat.lt_succ_self _
    · exact Nat.lt_succ_of_lt (timely.past server key saves earlier)

theorem Timely.step (timely : Timely s) (quiet : SavesWhenQuiet settings s event)
    (move : Stamped.step settings (event,moment) s = some t) : Timely t := by
  cases event with
  | receive packet => exact timely.taken move
  | listen server sent => exact timely.listened move
  | _ => exact timely.other (by simp) (by simp) quiet move

/-- Then the handler of an answer saves no row that has been saved for a client since. -/
theorem Timely.keeps (timely : Timely s) : Keeps settings s event := by
  cases event with
  | listen server sent =>
    intro busy there dataDtoList response t move key saves savedAt since
    rcases step_listen move with ⟨_,_,_,rfl⟩ | ⟨packet,α,access,rest,there',rfl⟩
    · rfl
    · rw [there] at there'
      cases there'
      have told : dataDtoList.map DataDto.key ∈ keysOf packet.body := by
        have body : packet.body = .regular (.startupResponseUpdate dataDtoList) := response
        rw [body]
        rfl
      have other : key ∉ dataDtoList.map DataDto.key := by
        intro listed
        have mentions : Mentions server key packet := by
          have here : packet.receiver = server := timely.located server _ there
          have body : packet.body = .regular (.startupResponseUpdate dataDtoList) := response
          unfold Mentions
          rw [body]
          exact ⟨here,listed⟩
        have before := timely.handled server _ there server key saves mentions savedAt
        omega
      unfold value
      rw [listened_servers,Function.update_self]
      exact congrArg _ (perform_row (timely.within server _ there _ told).1 other)
  | _ => trivial

end

/-- In every run in which servers save values for clients only while no startup of
    theirs is under way that is about the key, the handlers of the answers leave them. -/
theorem newer_kept {settings : Settings} {start : Threads} (idle : ∀ server, start.listening server = none)
    {events : List (Event × Nat)} {s : Stamped}
    (run : Run (Restrict (fun s a => SavesWhenQuiet settings s a.1) (Steps (Stamped.step settings))) (.start start) events s) :
    Run (Restrict (fun s a => Keeps settings s a.1) (Steps (Stamped.step settings))) (.start start) events s := by
  refine (run.simulate id (timely_start idle) ?_ ?_).1
  · exact fun s a t timely move => timely.step move.1 move.2
  · exact fun s a t timely move => ⟨timely.keeps,move.2⟩

/-! ### Two servers -/

/-- The configuration service is alone, and Server2 has another value than Server1. -/
def disagreeing : Threads :=
  ⟨⟨[service],fun server => .initial (holding (if server = server1 then "old" else "other")),fun _ => none,0⟩,fun _ => none⟩

/-- A server takes a message of some moment, makes so many accesses and ends. -/
def handles (packet : Packet) (moment accesses : Nat) : List (Event × Nat) :=
  (.receive packet,moment) :: List.replicate (accesses + 1) (.listen packet.receiver true,0)

/-- Server1 joins and takes a write while it is alone. Server2 joins, and Server1 asks it
    before it saves. -/
def servedEarly (dataDto : DataDto) : List (Event × Nat) := List.flatten
  [[(.view ⟨true,.join,[service,server1]⟩,0)],
   handles ⟨server1,server1,.membership ⟨true,.join,[service,server1]⟩,none⟩ 0 2,
   [(.call 0 server1 (.write dataDto),0),(.thread 0 .go,0),(.view secondView,0)],
   handles ⟨server1,server1,.membership secondView,none⟩ 7 5,[(.thread 0 .go,0)],
   handles ⟨server2,server1,.regular (.startupRequestUpdate [⟨"k","old"⟩]),none⟩ 13 2]

/-- Server1 takes the answer of Server2. -/
def answered : List (Event × Nat) :=
  handles ⟨server1,server2,.regular (.startupResponseUpdate [⟨"k","other"⟩]),none⟩ 13 3

def ToTwo : Event → Prop
  | .receive packet => packet.receiver = server1 ∨ packet.receiver = server2
  | _ => True

/-- `SavesWhenQuiet`, where only Server1 and Server2 handle messages. -/
def QuietOfTwo (settings : Settings) (s : Stamped) (a : Event × Nat) : Prop :=
  ToTwo a.1 ∧ ∀ entry ∈ saved settings s.threads.cluster a.1,
    (∀ packet ∈ s.threads.cluster.network, ¬ Mentions entry.1 entry.2 packet) ∧
      ∀ other ∈ [server1,server2], ∀ busy ∈ s.threads.listening other, ¬ Mentions entry.1 entry.2 busy.packet

instance (server : SpreadGroup) (key : String) : DecidablePred (Mentions server key) := fun packet => by
  rcases packet with ⟨_,_,⟨body⟩ | _,_⟩
  · cases body <;> simp only [Mentions] <;> infer_instance
  · exact .isFalse id

instance : DecidablePred ToTwo
  | .receive packet => inferInstanceAs (Decidable (packet.receiver = server1 ∨ packet.receiver = server2))
  | .call _ _ _ | .thread _ _ | .view _ | .boot _ | .listen _ _ => isTrue trivial

instance (settings : Settings) (s : Stamped) : DecidablePred (QuietOfTwo settings s) := fun a =>
  inferInstanceAs (Decidable (_ ∧ ∀ entry ∈ saved settings s.threads.cluster a.1, _ ∧
    ∀ other ∈ [server1,server2], ∀ busy ∈ s.threads.listening other, _))

/-- Where the others take no messages they stay idle. -/
theorem idle_step {settings : Settings} {s t : Stamped} {a : Event × Nat} (quiet : QuietOfTwo settings s a)
    (idle : ∀ other, other ≠ server1 → other ≠ server2 → s.threads.listening other = none)
    (move : Stamped.step settings a s = some t) :
    ∀ other, other ≠ server1 → other ≠ server2 → t.threads.listening other = none := by
  obtain ⟨event,moment⟩ := a
  intro other first second
  have none := idle other first second
  cases event with
  | receive packet =>
    obtain ⟨_,after,moved,rfl⟩ := taken_cases move
    obtain ⟨_,_,_,same | takes⟩ := receive_cases moved
    · rw [same]
      exact none
    · have apart : other ≠ packet.receiver := by
        rintro rfl
        exact quiet.1.elim first second
      rw [takes,Function.update_of_ne apart]
      exact none
  | listen server sent =>
    obtain ⟨after,moved,rfl⟩ := other_cases (by simp) move
    have apart : ∀ {busy}, s.threads.listening server = some busy → other ≠ server := by
      rintro busy there rfl
      rw [none] at there
      cases there
    rcases step_listen moved with ⟨_,_,there,rfl⟩ | ⟨_,_,_,_,there,rfl⟩
    · exact (Function.update_of_ne (apart there) ..).trans none
    · exact (Function.update_of_ne (apart there) ..).trans none
  | _ =>
    obtain ⟨after,moved,rfl⟩ := other_cases (by simp) move
    by_contra busy
    obtain ⟨busy,there⟩ := Option.ne_none_iff_exists'.mp busy
    rw [(others_silent (by simp) (by simp) moved).2 other busy there] at none
    cases none

/-- Server1 saves another key while its startup is under way. -/
theorem newer_kept_pair : ∃ s, Run (Restrict (fun s a => Keeps .properties s a.1) (Steps (Stamped.step .properties)))
      (.start disagreeing) (servedEarly ⟨"j","new"⟩ ++ answered) s ∧
    s.savedAt server1 "j" = some 15 ∧ s.handling server1 = 13 ∧ value s.threads server1 "j" = some "new" ∧
    value s.threads server1 "k" = some "other" := by
  obtain ⟨s,executed,facts⟩ := exists_run_of_exec (Stamped.step .properties) (QuietOfTwo .properties)
    (fun s => s.savedAt server1 "j" = some 15 ∧ s.handling server1 = 13 ∧ value s.threads server1 "j" = some "new" ∧
      value s.threads server1 "k" = some "other") (.start disagreeing) (servedEarly ⟨"j","new"⟩ ++ answered) (by decide +kernel)
  refine ⟨s,newer_kept (fun _ => rfl) ?_,facts⟩
  refine (executed.simulate id ?_ (fun s a t (idle : ∀ other, other ≠ server1 → other ≠ server2 →
    s.threads.listening other = none) move => idle_step move.1 idle move.2) ?_).1
  · exact fun _ _ _ => rfl
  rintro s a t idle ⟨⟨_,quiet⟩,move⟩
  refine ⟨fun entry saves => ⟨(quiet entry saves).1,fun other busy there => ?_⟩,move⟩
  by_cases first : other = server1
  · exact (quiet entry saves).2 other (by simp [first]) busy there
  · by_cases second : other = server2
    · exact (quiet entry saves).2 other (by simp [second]) busy there
    · have none : s.threads.listening other = none := idle other first second
      have busy : s.threads.listening other = some busy := there
      rw [none] at busy
      cases busy

/-- The handler of the answer to the startup request replaces the value just written. -/
theorem written_overtaken :
    ¬ ∀ (settings : Settings) (start : Threads) (events : List (Event × Nat)) (a : Event × Nat) (s t : Stamped),
      Vacant start.cluster → (∀ server, start.listening server = none) →
      Run (Steps (Stamped.step settings)) (.start start) events s → Stamped.step settings a s = some t → Keeps settings s a.1 := by
  intro keeps
  let next : Event := .listen server1 true
  obtain ⟨s,run,savedAt,handling,body,before,after⟩ := exists_run_of_exec (Stamped.step .properties) (fun _ _ => True)
    (fun s => s.savedAt server1 "k" = some 15 ∧ s.handling server1 = 13 ∧
      (s.threads.listening server1).map (fun busy => busy.packet.body) =
        some (.regular (.startupResponseUpdate [⟨"k","other"⟩])) ∧
      value s.threads server1 "k" = some "new" ∧
      (Listeners.step .properties next s.threads).any (fun t => value t server1 "k" = some "other") = true)
    (.start disagreeing) (servedEarly ⟨"k","new"⟩ ++ answered.take 2) (by decide +kernel)
  obtain ⟨busy,there,body⟩ := Option.map_eq_some_iff.mp body
  obtain ⟨t,moved,other⟩ := (Option.any_eq_true ..).mp after
  have vacant : Vacant disagreeing.cluster := ⟨⟨service,by decide,rfl⟩,fun _ => rfl,by simp [disagreeing]⟩
  obtain ⟨u,stamped⟩ : ∃ u, Stamped.step .properties (next,0) s = some u :=
    ⟨_,by rw [step_other (by simp [next]),moved,Option.map_some]⟩
  have kept := keeps .properties disagreeing _ (next,0) s u vacant (fun _ => rfl) run.unrestrict stamped
  have same := kept busy there _ body t moved "k" 15 savedAt (by omega)
  rw [before,of_decide_eq_true other] at same
  exact absurd same (by decide)

end CdPraticas.Overtaken
