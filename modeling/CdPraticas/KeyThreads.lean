import CdPraticas.Stages

/-!
# One key at a time, with listener threads

In a fixed group with listener threads, too, what happens to one key is a system
of its own: what each server holds for it, the calls on it, the messages about it,
and where the handlers of these messages stand.
-/

namespace CdPraticas.KeyThreads
open Groups Store Messages Handlers Calls Cluster Keys Rounds Runs Programs Stages
open Listeners (Threads Event Listening perform)

/-! ### The system of one key -/

/-- All there is about one key. A message that has been neither answered nor counted
    by its handler is still in the network. -/
structure ThreadView where
  shared : KeyView
  listening : SpreadGroup → Option (Packet × Stage)

/-- The entry of a handler that stands at a stage. -/
def entry (packet : Packet) : Stage → Option (Packet × Stage)
  | .done => none
  | stage => some (packet,stage)

theorem entry_running {packet : Packet} {stage : Stage} (running : stage ≠ .done) : entry packet stage = some (packet,stage) := by
  cases stage <;> first | rfl | exact absurd rfl running

/-- An idle listener thread takes a message. -/
def ThreadView.received (w : ThreadView) (packet : Packet) (stage : Stage) : ThreadView :=
  { w with listening := Function.update w.listening packet.receiver (some (packet,stage)) }

/-- What stays in the network when a handler goes on. -/
def kept (network : Multiset Packet) (packet : Packet) (stage next : Stage) : Multiset Packet :=
  if stage.Pending ∧ ¬ next.Pending then network.erase packet else network

theorem kept_le (network : Multiset Packet) (packet : Packet) (stage next : Stage) : kept network packet stage next ≤ network := by
  unfold kept
  split_ifs
  · exact Multiset.erase_le ..
  · exact le_rfl

/-- The handler of a message goes on, from one stage to the next. -/
def ThreadView.listened (w : ThreadView) (group : Group) (packet : Packet) (stage : Stage) (sent : Bool) (held : Fields)
    (sends : List Send) (callbacks : List Callback) (next : Stage) : ThreadView where
  shared :=
    { held := Function.update w.shared.held packet.receiver held
      calls := fun i => (w.shared.calls i).map (notify sends callbacks packet sent i)
      network := kept w.shared.network packet stage next +
        (if sent then packets group.members packet.receiver packet.call sends else 0) }
  listening := Function.update w.listening packet.receiver (entry packet next)

section
variable (w : ThreadView) (group : Group) (packet : Packet) (stage next : Stage) (sent : Bool) (held : Fields)
  (sends : List Send) (callbacks : List Callback)

@[simp] theorem received_shared : (w.received packet stage).shared = w.shared := rfl
@[simp] theorem received_self : (w.received packet stage).listening packet.receiver = some (packet,stage) :=
  Function.update_self ..
@[simp] theorem listened_held_self :
    (w.listened group packet stage sent held sends callbacks next).shared.held packet.receiver = held := Function.update_self ..
@[simp] theorem listened_calls (j : Nat) : (w.listened group packet stage sent held sends callbacks next).shared.calls j =
    (w.shared.calls j).map (notify sends callbacks packet sent j) := rfl
@[simp] theorem listened_network : (w.listened group packet stage sent held sends callbacks next).shared.network =
    kept w.shared.network packet stage next +
      (if sent then packets group.members packet.receiver packet.call sends else 0) := rfl
@[simp] theorem listened_listening_self :
    (w.listened group packet stage sent held sends callbacks next).listening packet.receiver = entry packet next :=
  Function.update_self ..

variable {w packet}
theorem received_ne {server : SpreadGroup} (different : server ≠ packet.receiver) :
    (w.received packet stage).listening server = w.listening server := Function.update_of_ne different ..
theorem listened_held_ne {server : SpreadGroup} (different : server ≠ packet.receiver) :
    (w.listened group packet stage sent held sends callbacks next).shared.held server = w.shared.held server :=
  Function.update_of_ne different ..
theorem listened_listening_ne {server : SpreadGroup} (different : server ≠ packet.receiver) :
    (w.listened group packet stage sent held sends callbacks next).listening server = w.listening server :=
  Function.update_of_ne different ..
theorem listened_cases {j : Nat} {found : Call}
    (was : (w.listened group packet stage sent held sends callbacks next).shared.calls j = some found) :
    ∃ before, w.shared.calls j = some before ∧ found = notify sends callbacks packet sent j before := by
  obtain ⟨before,found',rfl⟩ := Option.map_eq_some_iff.mp was
  exact ⟨before,found',rfl⟩
end

/-- The events that do not touch the key. -/
def ThreadView.Elsewhere (key : String) (w : ThreadView) : Event → Prop
  | .call _ _ request => request.key ≠ key
  | .thread i _ => w.shared.calls i = none
  | .receive packet => packet.body.key? ≠ some key
  | .listen server _ => w.listening server = none
  | .view _ | .boot _ => False

inductive ThreadStep (settings : Settings) (group : Group) (key : String) : ThreadView → Event → ThreadView → Prop
  | elsewhere {w : ThreadView} {event : Event} (away : w.Elsewhere key event) : ThreadStep settings group key w event w
  | call {w : ThreadView} {i : Nat} {server : SpreadGroup} {request : Request} (fresh : w.shared.calls i = none)
      (member : server ∈ group.servers) (about : request.key = key) :
      ThreadStep settings group key w (.call i server request)
        { w with shared := w.shared.started i (.start (group.startingUp server) server request) }
  | thread {w : ThreadView} {i : Nat} {choice : Choice} {call : Call} {effect : Effect} {pc : Pc}
      (found : w.shared.calls i = some call)
      (move : Move settings group.members.length (w.shared.held call.server).row call choice effect pc) :
      ThreadStep settings group key w (.thread i choice) { w with shared := w.shared.moved group i call effect pc }
  /-- the configuration service, or the sender itself, takes a message -/
  | ignored {w : ThreadView} {packet : Packet} (idle : w.listening packet.receiver = none)
      (flying : packet ∈ w.shared.network) :
      ThreadStep settings group key w (.receive packet) { w with shared := w.shared.dropped packet }
  | receive {w : ThreadView} {packet : Packet} {message : Message} (idle : w.listening packet.receiver = none)
      (flying : packet ∈ w.shared.network) (server : isService packet.receiver = false) (body : packet.body = .regular message)
      (running : Stage.start packet.receiver packet.sender message ≠ .done) :
      ThreadStep settings group key w (.receive packet)
        (w.received packet (Stage.start packet.receiver packet.sender message))
  | listen {w : ThreadView} {packet : Packet} {stage next : Stage} {sent : Bool} {held : Fields} {sends : List Send}
      {callbacks : List Callback} (busy : w.listening packet.receiver = some (packet,stage))
      (turn : Turn settings group.members.length key packet.receiver packet.sender (w.shared.held packet.receiver) stage held
        sends callbacks next) :
      ThreadStep settings group key w (.listen packet.receiver sent)
        (w.listened group packet stage sent held sends callbacks next)

theorem ThreadStep.of_elsewhere {settings : Settings} {group : Group} {key : String} {w w' : ThreadView} {event : Event}
    (away : w.Elsewhere key event) (same : w' = w) : ThreadStep settings group key w event w' := by
  subst same
  exact .elsewhere away

/-! ### What every state satisfies -/

/-- Call `i` is a read of the key at `server`, -/
def Reader (key : String) (v : KeyView) (server : SpreadGroup) (i : Nat) : Prop :=
  ∃ call, v.calls i = some call ∧ call.server = server ∧ call.request = .read key
/-- or a write. -/
def Writer (key : String) (v : KeyView) (server : SpreadGroup) (i : Nat) : Prop :=
  ∃ call, v.calls i = some call ∧ call.server = server ∧ ∃ data, call.request = .write ⟨key,data⟩

/-- What is known of a handler at work. -/
structure Handling (group : Group) (key : String) (v : KeyView) (server : SpreadGroup) (packet : Packet) (stage : Stage) :
    Prop where
  here : packet.receiver = server
  member : server ∈ group.servers
  running : stage ≠ .done
  keyed : stage.Keyed key
  fits : ∃ message, packet.body = .regular message ∧ message.key? = some key ∧ stage.Fits server packet.sender message
  marked : stage.Marked
  pending : stage.Pending → packet ∈ v.network
  calls : stage.Calls (Reader key v server) (Writer key v server)

/-- What every state of a fixed group satisfies for each key. -/
structure Threaded (group : Group) (key : String) (w : ThreadView) : Prop where
  sound : Sound group key w.shared
  handling : ∀ server packet stage, w.listening server = some (packet,stage) →
    Handling group key w.shared server packet stage

section
variable {settings : Settings} {group : Group} {key : String} {v v' : KeyView} {w w' : ThreadView} {server : SpreadGroup}
  {packet : Packet} {stage next : Stage} {event : Event}

theorem calls_mono {readers readers' writers writers' : Nat → Prop} (holds : stage.Calls readers writers)
    (reads : ∀ i, readers i → readers' i) (writes : ∀ i, writers i → writers' i) : stage.Calls readers' writers' := by
  cases stage <;> first | exact reads _ holds | exact writes _ holds | trivial

/-- The calls that were there are still there. -/
def Persist (v v' : KeyView) : Prop :=
  ∀ i call, v.calls i = some call → ∃ after, v'.calls i = some after ∧ after.server = call.server ∧ after.request = call.request

theorem Handling.persist (handling : Handling group key v server packet stage) (persist : Persist v v')
    (flying : stage.Pending → packet ∈ v.network → packet ∈ v'.network) : Handling group key v' server packet stage := by
  refine { handling with pending := fun pending => flying pending (handling.pending pending), calls := ?_ }
  refine calls_mono handling.calls ?_ ?_
  · rintro i ⟨call,found,here,read⟩
    obtain ⟨after,now,sameServer,sameRequest⟩ := persist i call found
    exact ⟨after,now,sameServer.trans here,sameRequest.trans read⟩
  · rintro i ⟨call,found,here,data,write⟩
    obtain ⟨after,now,sameServer,sameRequest⟩ := persist i call found
    exact ⟨after,now,sameServer.trans here,data,sameRequest.trans write⟩

theorem persist_started {i : Nat} {call : Call} (fresh : v.calls i = none) : Persist v (v.started i call) := by
  intro j other found
  have different : j ≠ i := by
    rintro rfl
    rw [fresh] at found
    cases found
  exact ⟨other,by rw [started_ne different]; exact found,rfl,rfl⟩

theorem persist_moved {i : Nat} {call : Call} {effect : Effect} {pc : Pc} (found : v.calls i = some call) :
    Persist v (v.moved group i call effect pc) := by
  intro j other was
  by_cases same : j = i
  · subst same
    rw [found] at was
    cases was
    exact ⟨_,moved_self ..,rfl,rfl⟩
  · exact ⟨other,by rw [moved_ne _ _ _ same]; exact was,rfl,rfl⟩

theorem persist_listened {sent : Bool} {held : Fields} {sends : List Send} {callbacks : List Callback} :
    Persist w.shared (w.listened group packet stage sent held sends callbacks next).shared := by
  intro j other was
  exact ⟨_,by rw [listened_calls,was]; rfl,by simp,by simp⟩

theorem mem_kept {other : Packet} {network : Multiset Packet} (flying : other ∈ network) (different : other ≠ packet) :
    other ∈ kept network packet stage next := by
  unfold kept
  split_ifs
  · exact (Multiset.mem_erase_of_ne different).mpr flying
  · exact flying

/-! ### A handler goes on -/

/-- Nothing is sent once the message has been answered or counted. -/
theorem silent_after {participants : Int} {me sender : SpreadGroup} {held held' : Fields} {sends : List Send}
    {callbacks : List Callback} (turn : Turn settings participants key me sender held stage held' sends callbacks next)
    (settled : ¬ stage.Pending) : sends = [] := by
  cases turn with
  | looks _ _ quiet _ => exact quiet
  | acts acts => cases acts <;> first | rfl | exact absurd trivial settled

theorem Threaded.sound_listened (threaded : Threaded group key w) {sent : Bool} {held : Fields} {sends : List Send}
    {callbacks : List Callback} (busy : w.listening packet.receiver = some (packet,stage))
    (turn : Turn settings group.members.length key packet.receiver packet.sender (w.shared.held packet.receiver) stage held
      sends callbacks next) : Sound group key (w.listened group packet stage sent held sends callbacks next).shared := by
  have sound := threaded.sound
  have handling := threaded.handling _ _ _ busy
  have persist : Persist w.shared (w.listened group packet stage sent held sends callbacks next).shared := persist_listened
  refine ⟨?_,?_,?_,?_,?_,?_,?_,?_⟩
  · intro j other now
    obtain ⟨before,was,rfl⟩ := listened_cases _ _ _ _ _ _ _ now
    simpa using sound.located j before was
  · intro j other now
    obtain ⟨before,was,rfl⟩ := listened_cases _ _ _ _ _ _ _ now
    simpa using sound.about j before was
  · intro j other now
    obtain ⟨before,was,rfl⟩ := listened_cases _ _ _ _ _ _ _ now
    refine ⟨fun entity here => ?_,fun dataDto response => ?_⟩
    · simpa using (sound.keyed j before was).saving entity (by simpa using here)
    · rw [notify_request]
      rcases turn.response response with response | rfl
      · exact (sound.keyed j before was).response dataDto response
      · rw [sound.about j before was]
        have keyed : dataDto.key = key := handling.keyed
        exact keyed
  · intro j other now
    obtain ⟨before,was,rfl⟩ := listened_cases _ _ _ _ _ _ _ now
    simpa using sound.fits j before was
  · intro g entity row
    by_cases same : g = packet.receiver
    · subst same
      rw [listened_held_self] at row
      rcases turn.row with kept | ⟨saved,now,saves⟩ | ⟨none,_⟩
      · rw [kept] at row
        exact sound.row _ entity row
      · rw [now] at row
        cases row
        have keyed := handling.keyed
        rcases saves with rfl | rfl <;> exact keyed
      · rw [none] at row
        cases row
    · rw [listened_held_ne _ _ _ _ _ _ _ same] at row
      exact sound.row g entity row
  · intro g j waiting
    have before : (w.shared.held g).waiting = some j := by
      by_cases same : g = packet.receiver
      · subst same
        rw [listened_held_self] at waiting
        exact turn.waiting waiting
      · rwa [listened_held_ne _ _ _ _ _ _ _ same] at waiting
    obtain ⟨other,was,sameServer,request⟩ := sound.waiting g j before
    obtain ⟨after,now,nowServer,nowRequest⟩ := persist j other was
    exact ⟨after,now,nowServer.trans sameServer,nowRequest.trans request⟩
  · intro g wanted writing
    have before : ∃ was, (w.shared.held g).slot = some was ∧ was.callback = wanted.callback := by
      by_cases same : g = packet.receiver
      · subst same
        rw [listened_held_self] at writing
        have registered := turn.registered
        rw [writing] at registered
        obtain ⟨was,slot,callback⟩ := Option.map_eq_some_iff.mp registered.symm
        exact ⟨was,slot,callback⟩
      · rw [listened_held_ne _ _ _ _ _ _ _ same] at writing
        exact ⟨wanted,writing,rfl⟩
    obtain ⟨was,slot,callback⟩ := before
    obtain ⟨other,found,sameServer,data,request⟩ := sound.wanting g was slot
    obtain ⟨after,now,nowServer,nowRequest⟩ := persist _ other found
    rw [callback] at now
    exact ⟨after,now,nowServer.trans sameServer,data,nowRequest.trans request⟩
  · intro other flying
    rcases Multiset.mem_add.mp flying with old | new
    · obtain ⟨receiver,sender,body,j,call,tag,found⟩ := sound.flying other (Multiset.mem_of_le (kept_le ..) old)
      obtain ⟨after,now,_⟩ := persist j call found
      exact ⟨receiver,sender,body,j,after,tag,now⟩
    · split_ifs at new
      · by_cases pending : stage.Pending
        · obtain ⟨receiver,sender,_,j,call,tag,found⟩ := sound.flying packet (handling.pending pending)
          obtain ⟨after,now,_⟩ := persist j call found
          obtain ⟨newSender,newTag,newReceiver,body⟩ := turn.packets_about handling.keyed other new
          refine ⟨?_,newSender ▸ handling.member,body,j,after,newTag.trans tag,now⟩
          rcases newReceiver with inside | back
          · exact inside
          · exact back ▸ (Group.mem_servers.mp sender).1
        · rw [silent_after turn pending] at new
          simp at new
      · simp at new

theorem Threaded.of_listened (threaded : Threaded group key w) {sent : Bool} {held : Fields} {sends : List Send}
    {callbacks : List Callback} (busy : w.listening packet.receiver = some (packet,stage))
    (turn : Turn settings group.members.length key packet.receiver packet.sender (w.shared.held packet.receiver) stage held
      sends callbacks next) : Threaded group key (w.listened group packet stage sent held sends callbacks next) := by
  refine ⟨threaded.sound_listened busy turn,fun server other there now => ?_⟩
  have handling := threaded.handling _ _ _ busy
  by_cases same : server = packet.receiver
  · subst same
    rw [listened_listening_self] at now
    by_cases ends : next = .done
    · subst ends
      cases now
    · rw [entry_running ends] at now
      cases now
      obtain ⟨message,body,about,fits⟩ := handling.fits
      have onward : Handling group key w.shared packet.receiver packet next :=
        ⟨rfl,handling.member,ends,turn.keyed handling.keyed (threaded.sound.row _),⟨message,body,about,turn.fits fits⟩,
          turn.marked,fun pending => handling.pending (turn.pending pending),
          turn.calls handling.calls (threaded.sound.waiting _) (threaded.sound.wanting _)⟩
      refine onward.persist persist_listened fun pending flying => Multiset.mem_add.mpr (.inl ?_)
      rw [kept,if_neg (fun settled => settled.2 pending)]
      exact flying
  · rw [listened_listening_ne _ _ _ _ _ _ _ same] at now
    have was := threaded.handling _ _ _ now
    refine was.persist persist_listened fun _ flying => Multiset.mem_add.mpr (.inl (mem_kept flying ?_))
    rintro rfl
    exact same was.here.symm

theorem Threaded.step (threaded : Threaded group key w) (step : ThreadStep settings group key w event w') :
    Threaded group key w' := by
  have sound := threaded.sound
  cases step with
  | elsewhere _ => exact threaded
  | call fresh member about =>
    exact ⟨sound.of_started _ fresh member about,fun server packet stage now =>
      (threaded.handling server packet stage now).persist (persist_started fresh) fun _ flying => flying⟩
  | thread found move =>
    exact ⟨sound.of_moved found move,fun server packet stage now =>
      (threaded.handling server packet stage now).persist (persist_moved found) fun _ flying =>
        Multiset.mem_add.mpr (.inl flying)⟩
  | ignored idle flying =>
    refine ⟨sound.of_dropped _,fun server other stage now => ?_⟩
    have was := threaded.handling server other stage now
    refine was.persist (fun i call found => ⟨call,found,rfl,rfl⟩) fun _ inside => (Multiset.mem_erase_of_ne ?_).mpr inside
    rintro rfl
    rw [was.here] at idle
    rw [idle] at now
    cases now
  | @receive packet message idle flying server body running =>
    refine ⟨sound,fun other there stage now => ?_⟩
    by_cases same : other = packet.receiver
    · subst same
      rw [received_self] at now
      cases now
      obtain ⟨receiver,_,⟨message',body',about⟩,_⟩ := sound.flying packet flying
      rw [body] at body'
      cases body'
      exact ⟨rfl,Group.mem_servers.mpr ⟨receiver,server⟩,running,start_keyed about,⟨message,body,about,start_fits⟩,
        start_marked,fun _ => flying,start_calls _ _⟩
    · rw [received_ne _ same] at now
      exact threaded.handling other there stage now
  | listen busy turn => exact threaded.of_listened busy turn

end

/-! ### The view of the cluster -/

/-- Where the listener threads stand: the key of the message, the message and the stage. -/
abbrev Staging := SpreadGroup → Option (String × Packet × Stage)

def staged (key : String) (staging : Staging) (server : SpreadGroup) : Option (Packet × Stage) :=
  match staging server with
  | some (about,packet,stage) => if about = key then entry packet stage else none
  | none => none

/-- A message that is being handled, as long as it has been neither answered nor counted. -/
def pending : Option (Packet × Stage) → Multiset Packet
  | some (packet,stage) => if stage.Pending then {packet} else 0
  | none => 0

/-- The messages in the hands of the listener threads. -/
def beingHandled (group : Group) (listening : SpreadGroup → Option (Packet × Stage)) : Multiset Packet :=
  ∑ server ∈ group.servers.toFinset, pending (listening server)

def withThreads (group : Group) (v : KeyView) (listening : SpreadGroup → Option (Packet × Stage)) : ThreadView where
  shared := { v with network := v.network + beingHandled group listening }
  listening := listening

def threadView (group : Group) (key : String) (s : Threads) (staging : Staging) : ThreadView :=
  withThreads group (view key s.cluster) (staged key staging)

/-- The listener threads are where the staging says. -/
def StandsAt (settings : Settings) (s : Threads) (staging : Staging) : Prop :=
  ∀ server, s.listening server = (staging server).map fun (about,packet,stage) =>
    ⟨packet,stage.program settings about server packet.sender⟩

/-- The group and what its servers know of it. -/
structure Steady (group : Group) (s : State) : Prop where
  members : s.members = group.members
  participants : ∀ server ∈ group.servers, (s.servers server).numberOfParticipants = group.members.length
  startingUp : ∀ server ∈ group.servers, (s.servers server).waitStartupDataUpdate = group.startingUp server
  plain : ∀ packet ∈ s.network, ∃ key, packet.body.key? = some key

/-- What holds in every state of a fixed group with listener threads. -/
structure FixedThreads (settings : Settings) (group : Group) (s : Threads) (staging : Staging) : Prop where
  steady : Steady group s.cluster
  stands : StandsAt settings s staging
  threaded : ∀ key, Threaded group key (threadView group key s staging)

/-- The events of a fixed group. -/
def Permitted (group : Group) : Event → Prop
  | .call _ server _ => server ∈ group.servers
  | .thread _ _ | .receive _ | .listen _ _ => True
  | .view _ | .boot _ => False

instance (group : Group) : DecidablePred (Permitted group) := fun event => by
  cases event <;> simp only [Permitted] <;> infer_instance

section
variable {settings : Settings} {group : Group} {key : String} {s t : Threads} {staging : Staging} {event : Event}

theorem ThreadView.eq_of {w w' : ThreadView} (held : ∀ server, w.shared.held server = w'.shared.held server)
    (calls : ∀ i, w.shared.calls i = w'.shared.calls i) (network : w.shared.network = w'.shared.network)
    (listening : ∀ server, w.listening server = w'.listening server) : w = w' := by
  obtain ⟨shared,listeningW⟩ := w
  obtain ⟨shared',listeningW'⟩ := w'
  obtain rfl : shared = shared' := KeyView.eq_of held calls network
  obtain rfl : listeningW = listeningW' := funext listening
  rfl

theorem beingHandled_update (listening : SpreadGroup → Option (Packet × Stage)) {server : SpreadGroup}
    (member : server ∈ group.servers) (now : Option (Packet × Stage)) :
    beingHandled group (Function.update listening server now) + pending (listening server) =
      beingHandled group listening + pending now := by
  have inside : server ∈ group.servers.toFinset := List.mem_toFinset.mpr member
  unfold beingHandled
  rw [← Finset.add_sum_erase _ _ inside,← Finset.add_sum_erase _ (fun g => pending (listening g)) inside,Function.update_self]
  have others : ∑ g ∈ group.servers.toFinset.erase server, pending (Function.update listening server now g) =
      ∑ g ∈ group.servers.toFinset.erase server, pending (listening g) :=
    Finset.sum_congr rfl fun g other => by rw [Function.update_of_ne (Finset.ne_of_mem_erase other)]
  rw [others]
  abel

/-- An idle listener thread gets something to do. -/
theorem beingHandled_taken {listening : SpreadGroup → Option (Packet × Stage)} {server : SpreadGroup}
    (member : server ∈ group.servers) (idle : listening server = none) (now : Option (Packet × Stage)) :
    beingHandled group (Function.update listening server now) = beingHandled group listening + pending now := by
  have updated := beingHandled_update listening member now
  rwa [idle,pending,add_zero] at updated

/-- and one that goes on keeps its message until it is answered or counted. -/
theorem beingHandled_kept {listening : SpreadGroup → Option (Packet × Stage)} {packet : Packet} {stage next : Stage}
    (member : packet.receiver ∈ group.servers) (busy : listening packet.receiver = some (packet,stage))
    (forward : next.Pending → stage.Pending) (network : Multiset Packet) :
    network + beingHandled group (Function.update listening packet.receiver (entry packet next)) =
      kept (network + beingHandled group listening) packet stage next := by
  have updated := beingHandled_update listening member (entry packet next)
  have entered : pending (entry packet next) = if next.Pending then {packet} else 0 := by cases next <;> rfl
  rw [busy,entered,pending] at updated
  unfold kept
  by_cases more : next.Pending
  · rw [if_pos (forward more),if_pos more] at updated
    rw [if_neg (fun settled => settled.2 more),add_right_cancel updated]
  · rw [if_neg more,add_zero] at updated
    by_cases before : stage.Pending
    · rw [if_pos before] at updated
      rw [if_pos ⟨before,more⟩,← updated,← add_assoc,add_comm _ ({packet} : Multiset Packet),Multiset.singleton_add,
        Multiset.erase_cons_head]
    · rw [if_neg before,add_zero] at updated
      rw [if_neg (fun settled => before settled.1),updated]

theorem staged_update (server : SpreadGroup) (about : String) (packet : Packet) (stage : Stage) :
    staged key (Function.update staging server (some (about,packet,stage))) =
      Function.update (staged key staging) server (if about = key then entry packet stage else none) := by
  funext other
  by_cases same : other = server
  · subst same
    simp [staged]
  · simp [staged,same]

theorem staged_ended (server : SpreadGroup) :
    staged key (Function.update staging server none) = Function.update (staged key staging) server none := by
  funext other
  by_cases same : other = server
  · subst same
    simp [staged]
  · simp [staged,same]

/-- With fewer messages in flight a view is still sound. -/
theorem sound_fewer {v : KeyView} {network : Multiset Packet} (sound : Sound group key v) (fewer : network ≤ v.network) :
    Sound group key { v with network := network } :=
  { sound with flying := fun packet flying => sound.flying packet (Multiset.mem_of_le fewer flying) }

theorem FixedThreads.fixed (fixed : FixedThreads settings group s staging) : Fixed group s.cluster :=
  ⟨fixed.steady.members,fixed.steady.participants,fixed.steady.startingUp,fixed.steady.plain,fun key =>
    sound_fewer (fixed.threaded key).sound (Multiset.le_add_right ..)⟩

/-- An idle listener thread handles nothing about any key. -/
theorem idle_staged (stands : StandsAt settings s staging) {server : SpreadGroup} (idle : s.listening server = none) :
    staging server = none := by
  have nothing := stands server
  rw [idle] at nothing
  exact Option.map_eq_none_iff.mp nothing.symm

/-- What a listener thread is doing about a key. -/
theorem busy_of_staged (stands : StandsAt settings s staging) {server : SpreadGroup} {packet : Packet} {stage : Stage}
    (handling : staged key staging server = some (packet,stage)) :
    s.listening server = some ⟨packet,stage.program settings key server packet.sender⟩ := by
  have there := stands server
  unfold staged at handling
  cases entered : staging server with
  | none => simp [entered] at handling
  | some standing =>
    obtain ⟨about,packet',stage'⟩ := standing
    simp only [entered] at handling
    split_ifs at handling with same
    subst same
    rw [entered] at there
    by_cases ended : stage' = .done
    · subst ended
      cases handling
    · rw [entry_running ended] at handling
      cases handling
      exact there

theorem thread_step_call {i : Nat} {server : SpreadGroup} {request : Request} (fixed : FixedThreads settings group s staging)
    (member : server ∈ group.servers) (move : Listeners.step settings (.call i server request) s = some t) :
    ThreadStep settings group key (threadView group key s staging) (.call i server request) (threadView group key t staging) := by
  obtain ⟨cluster,taken,rfl⟩ := Option.map_eq_some_iff.mp move
  have seen : KeyStep settings group key (view key s.cluster) _ (view key cluster) := view_step_call fixed.fixed member taken
  simp only [threadView]
  generalize view key cluster = v' at seen
  cases seen with
  | elsewhere away => exact .elsewhere away
  | call fresh member about => exact .call fresh member about

theorem thread_step_thread {i : Nat} {choice : Choice} (fixed : FixedThreads settings group s staging)
    (move : Listeners.step settings (.thread i choice) s = some t) :
    ThreadStep settings group key (threadView group key s staging) (.thread i choice) (threadView group key t staging) := by
  obtain ⟨cluster,taken,rfl⟩ := Option.map_eq_some_iff.mp move
  have seen : KeyStep settings group key (view key s.cluster) _ (view key cluster) := view_step_thread fixed.fixed taken
  simp only [threadView]
  generalize view key cluster = v' at seen
  cases seen with
  | elsewhere away => exact .elsewhere away
  | @thread _ _ call effect pc found moves =>
    convert ThreadStep.thread (w := withThreads group (view key s.cluster) (staged key staging)) found moves using 1
    exact ThreadView.eq_of (fun _ => rfl) (fun _ => rfl) (add_right_comm ..) (fun _ => rfl)

/-- A message leaves the network. -/
theorem filter_taken {network : Multiset Packet} {packet : Packet} (flying : packet ∈ network) (rest : Multiset Packet) :
    (network.erase packet).filter (Packet.About key) + rest =
      if packet.About key then (network.filter (Packet.About key) + rest).erase packet else network.filter (Packet.About key) + rest := by
  rw [filter_erase flying]
  split_ifs with about
  · rw [Multiset.erase_add_left_pos _ (Multiset.mem_filter.mpr ⟨flying,about⟩)]
  · rfl

theorem thread_step_receive {packet : Packet} (fixed : FixedThreads settings group s staging)
    (move : Listeners.step settings (.receive packet) s = some t) :
    ∃ staging', Steady group t.cluster ∧ StandsAt settings t staging' ∧ ∀ key,
      ThreadStep settings group key (threadView group key s staging) (.receive packet) (threadView group key t staging') := by
  simp only [Listeners.step] at move
  split at move
  case isFalse => cases move
  case isTrue takes =>
  obtain ⟨flying,idle⟩ := takes
  have unstaged := idle_staged fixed.stands idle
  have steady : Steady group { s.cluster with network := s.cluster.network.erase packet } :=
    { fixed.steady with plain := fun other inside => fixed.steady.plain other (Multiset.mem_of_mem_erase inside) }
  have idleView : ∀ key, staged key staging packet.receiver = none := fun key => by simp [staged,unstaged]
  have inView : ∀ {key}, packet.About key → packet ∈ (threadView group key s staging).shared.network := fun about =>
    Multiset.mem_add.mpr (.inl (Multiset.mem_filter.mpr ⟨flying,about⟩))
  split at move
  case isTrue service =>
    cases move
    refine ⟨staging,steady,fixed.stands,fun key => ?_⟩
    by_cases about : packet.About key
    · convert ThreadStep.ignored (idleView key) (inView about) using 1
      refine ThreadView.eq_of (fun _ => rfl) (fun _ => rfl) ?_ (fun _ => rfl)
      simp only [threadView,withThreads,view,dropped_network]
      rw [filter_taken flying,if_pos about]
    · refine .of_elsewhere about ?_
      refine ThreadView.eq_of (fun _ => rfl) (fun _ => rfl) ?_ (fun _ => rfl)
      simp only [threadView,withThreads,view]
      rw [filter_taken flying,if_neg about]
  case isFalse server =>
    cases move
    have server : isService packet.receiver = false := by simpa using server
    obtain ⟨about,aboutPacket⟩ := fixed.steady.plain packet flying
    have aboutPacket : packet.About about := aboutPacket
    obtain ⟨receiver,_,⟨message,body,aboutMessage⟩,_⟩ := (fixed.threaded about).sound.flying packet (inView aboutPacket)
    have member : packet.receiver ∈ group.servers := Group.mem_servers.mpr ⟨receiver,server⟩
    let start := Stage.start packet.receiver packet.sender message
    refine ⟨Function.update staging packet.receiver (some (about,packet,start)),steady,fun other => ?_,fun key => ?_⟩
    · by_cases same : other = packet.receiver
      · subst same
        simp only [Function.update_self,Option.map_some]
        rw [body,start_program settings about packet.receiver packet.sender aboutMessage]
      · simp only [Function.update_of_ne same]
        exact fixed.stands other
    · by_cases here : about = key
      · subst here
        have taken := beingHandled_taken member (idleView about) (entry packet start)
        by_cases running : start = .done
        · convert ThreadStep.ignored (idleView about) (inView aboutPacket) using 1
          have same : staged about (Function.update staging packet.receiver (some (about,packet,start))) = staged about staging := by
            rw [staged_update,if_pos rfl,running]
            exact Function.update_eq_self_iff.mpr (idleView about).symm
          refine ThreadView.eq_of (fun _ => rfl) (fun _ => rfl) ?_ (fun server => congrFun same server)
          simp only [threadView,withThreads,view,dropped_network]
          rw [same,filter_taken flying,if_pos aboutPacket]
        · have starts : entry packet start = some (packet,start) := entry_running running
          convert ThreadStep.receive (idleView about) (inView aboutPacket) server body running using 1
          have now : staged about (Function.update staging packet.receiver (some (about,packet,start))) =
              Function.update (staged about staging) packet.receiver (some (packet,start)) := by
            rw [staged_update,if_pos rfl,starts]
          refine ThreadView.eq_of (fun _ => rfl) (fun _ => rfl) ?_ (fun server => congrFun now server)
          simp only [threadView,withThreads,view,received_shared]
          rw [now,← starts,taken,starts,pending,if_pos (start_pending running),← add_assoc,filter_taken flying,if_pos aboutPacket,
            add_comm,Multiset.singleton_add]
          exact Multiset.cons_erase (inView aboutPacket)
      · have notAbout : ¬ packet.About key := fun other => here (Option.some.inj (aboutPacket.symm.trans other))
        refine .of_elsewhere notAbout ?_
        have same : staged key (Function.update staging packet.receiver (some (about,packet,start))) = staged key staging := by
          rw [staged_update,if_neg here]
          exact Function.update_eq_self_iff.mpr (idleView key).symm
        refine ThreadView.eq_of (fun _ => rfl) (fun _ => rfl) ?_ (fun server => congrFun same server)
        simp only [threadView,withThreads,view]
        rw [same,filter_taken flying,if_neg notAbout]

/-- A handler of a message about another key tells a call nothing. -/
theorem notify_elsewhere {w : ThreadView} {packet : Packet} {stage next : Stage} {participants : Int} {held held' : Fields}
    {sends : List Send} {callbacks : List Callback} {sent : Bool} {j : Nat} {call : Call} (threaded : Threaded group key w)
    (busy : w.listening packet.receiver = some (packet,stage))
    (turn : Turn settings participants key packet.receiver packet.sender held stage held' sends callbacks next)
    (away : w.shared.calls j = none) : notify sends callbacks packet sent j call = call := by
  have handling := threaded.handling _ _ _ busy
  refine turn.notify_other (calls_mono handling.calls ?_ ?_) fun pending tag => ?_
  · rintro i ⟨_,found,_⟩ rfl
    rw [away] at found
    cases found
  · rintro i ⟨_,found,_⟩ rfl
    rw [away] at found
    cases found
  · obtain ⟨_,_,_,i,_,tag',found⟩ := threaded.sound.flying packet (handling.pending pending)
    rw [tag] at tag'
    cases tag'
    rw [away] at found
    cases found

theorem thread_step_listen {server : SpreadGroup} {sent : Bool} (fixed : FixedThreads settings group s staging)
    (move : Listeners.step settings (.listen server sent) s = some t) :
    ∃ staging', Steady group t.cluster ∧ StandsAt settings t staging' ∧ ∀ key,
      ThreadStep settings group key (threadView group key s staging) (.listen server sent) (threadView group key t staging') := by
  have stands := fixed.stands server
  rcases Listeners.step_listen move with ⟨packet,value,busy,rfl⟩ | ⟨packet,α,access,rest,busy,rfl⟩
  · -- the handler has ended, and so it stands at no stage of any key
    rw [busy] at stands
    obtain ⟨⟨about,packet',stage⟩,here,same⟩ := Option.map_eq_some_iff.mp stands.symm
    obtain ⟨rfl,ended⟩ := Listening.mk.inj same
    have ends : stage = .done := by
      by_contra running
      have entered : staged about staging server = some (packet',stage) := by simp [staged,here,entry_running running]
      obtain ⟨_,access,rest,goes,_⟩ := stage_made settings about server packet'.sender (s.cluster.servers server) stage
        ((fixed.threaded about).handling _ _ _ entered).keyed running
      rw [goes] at ended
      cases ended
    subst ends
    have nothing : ∀ key, staged key staging server = none := fun key => by simp [staged,here,entry]
    refine ⟨Function.update staging server none,fixed.steady,fun other => ?_,fun key => ?_⟩
    · by_cases same : other = server
      · subst same
        simp
      · simp only [Function.update_of_ne same]
        exact fixed.stands other
    · have same : staged key (Function.update staging server none) = staged key staging := by
        rw [staged_ended]
        exact Function.update_eq_self_iff.mpr (nothing key).symm
      refine .of_elsewhere (nothing key) ?_
      simp only [threadView,same]
  · -- it makes an access
    rw [busy] at stands
    obtain ⟨⟨about,packet',stage⟩,here,same⟩ := Option.map_eq_some_iff.mp stands.symm
    obtain ⟨rfl,goes⟩ := Listening.mk.inj same
    have running : stage ≠ .done := by
      rintro rfl
      cases goes
    have entered : staged about staging server = some (packet',stage) := by simp [staged,here,entry_running running]
    have handling := (fixed.threaded about).handling _ _ _ entered
    obtain ⟨β,access',rest',goes',made⟩ := stage_made settings about server packet'.sender (s.cluster.servers server) stage
      handling.keyed running
    rw [goes'] at goes
    cases goes
    obtain ⟨⟨next,onward,turn⟩,elsewhere,participants,startingUp⟩ := made
    rw [fixed.steady.participants server handling.member] at turn
    obtain rfl := handling.here
    have sendsAbout : ∀ new ∈ packets s.cluster.members packet'.receiver packet'.call
        (perform access (.unchanged (s.cluster.servers packet'.receiver))).1.sends, new.About about := by
      intro new member
      obtain ⟨_,_,_,message,body,aboutMessage⟩ := turn.packets_about handling.keyed new member
      simp [Packet.About,body,Body.key?,aboutMessage]
    refine ⟨Function.update staging packet'.receiver (some (about,packet',next)),
      ⟨fixed.steady.members,fun other member => ?_,fun other member => ?_,fun new inside => ?_⟩,fun other => ?_,fun key => ?_⟩
    · by_cases same : other = packet'.receiver
      · subst same
        simpa [participants] using fixed.steady.participants _ member
      · simpa [same] using fixed.steady.participants other member
    · by_cases same : other = packet'.receiver
      · subst same
        simpa [startingUp] using fixed.steady.startingUp _ member
      · simpa [same] using fixed.steady.startingUp other member
    · rw [Listeners.listened_network] at inside
      rcases Multiset.mem_add.mp inside with old | new'
      · exact fixed.steady.plain new old
      · split_ifs at new'
        · exact ⟨about,sendsAbout new new'⟩
        · simp at new'
    · by_cases same : other = packet'.receiver
      · subst same
        simp [onward]
      · simp only [Listeners.listened_listening,Function.update_of_ne same]
        exact fixed.stands other
    · by_cases on : about = key
      · subst on
        have now : staged about (Function.update staging packet'.receiver (some (about,packet',next))) =
            Function.update (staged about staging) packet'.receiver (entry packet' next) := by
          rw [staged_update,if_pos rfl]
        convert ThreadStep.listen (w := threadView group about s staging) entered turn using 1
        refine ThreadView.eq_of (fun g => ?_) (fun j => ?_) ?_ (fun server => congrFun now server)
        · by_cases same : g = packet'.receiver
          · subst same
            rw [listened_held_self]
            simp [threadView,withThreads,view]
          · rw [listened_held_ne _ _ _ _ _ _ _ same]
            simp [threadView,withThreads,view,same]
        · cases found : s.cluster.calls j with
          | none => simp [threadView,withThreads,view,found]
          | some call => by_cases here : call.request.key = about <;> simp [threadView,withThreads,view,found,here,Option.filter]
        · have forward : next.Pending → stage.Pending := turn.pending
          rw [listened_network]
          simp only [threadView,withThreads]
          rw [now,← beingHandled_kept handling.member entered forward]
          simp only [view,Listeners.listened_network,Multiset.filter_add]
          rw [add_right_comm]
          congr 1
          split_ifs
          · rw [filter_about sendsAbout,if_pos rfl,fixed.steady.members]
          · rfl
      · have nothing : staged key staging packet'.receiver = none := by simp [staged,here,on]
        refine .of_elsewhere nothing ?_
        have same : staged key (Function.update staging packet'.receiver (some (about,packet',next))) = staged key staging := by
          rw [staged_update,if_neg on]
          exact Function.update_eq_self_iff.mpr nothing.symm
        refine ThreadView.eq_of (fun g => ?_) (fun j => ?_) ?_ (fun server => congrFun same server)
        · by_cases same : g = packet'.receiver
          · subst same
            simpa [threadView,withThreads,view] using elsewhere key (Ne.symm on)
          · simp [threadView,withThreads,view,same]
        · cases found : s.cluster.calls j with
          | none => simp [threadView,withThreads,view,found]
          | some call =>
            by_cases here : call.request.key = key
            · have away : (threadView group about s staging).shared.calls j = none := by
                simp [threadView,withThreads,view,found,Option.filter,here,Ne.symm on]
              simp [threadView,withThreads,view,found,notify_elsewhere (fixed.threaded about) entered turn away]
            · simp [threadView,withThreads,view,found,here,Option.filter]
        · simp only [threadView,withThreads,view,Listeners.listened_network,Multiset.filter_add]
          rw [same]
          congr 1
          split_ifs
          · rw [filter_about sendsAbout,if_neg on,add_zero]
          · simp

/-- Seen from one key, an event in a fixed group is a step of the key's system. -/
theorem FixedThreads.step (fixed : FixedThreads settings group s staging) (permitted : Permitted group event)
    (move : Listeners.step settings event s = some t) :
    ∃ staging', FixedThreads settings group t staging' ∧ ∀ key,
      ThreadStep settings group key (threadView group key s staging) event (threadView group key t staging') := by
  have reached : ∃ staging', Steady group t.cluster ∧ StandsAt settings t staging' ∧ ∀ key,
      ThreadStep settings group key (threadView group key s staging) event (threadView group key t staging') := by
    cases event with
    | call i server request =>
      refine ⟨staging,?_,?_,fun key => thread_step_call fixed permitted move⟩
      · obtain ⟨_,rfl⟩ := Listeners.step_call move
        exact ⟨fixed.steady.members,fixed.steady.participants,fixed.steady.startingUp,fixed.steady.plain⟩
      · obtain ⟨_,rfl⟩ := Listeners.step_call move
        exact fixed.stands
    | thread i choice =>
      refine ⟨staging,?_,?_,fun key => thread_step_thread fixed move⟩
      · obtain ⟨cluster,taken,rfl⟩ := Option.map_eq_some_iff.mp move
        have permits : group.Permits (.thread i choice) := trivial
        have after := fixed.fixed.step permits taken
        exact ⟨after.members,after.participants,after.startingUp,after.plain⟩
      · obtain ⟨cluster,taken,rfl⟩ := Option.map_eq_some_iff.mp move
        exact fixed.stands
    | receive packet => exact thread_step_receive fixed move
    | listen server sent => exact thread_step_listen fixed move
    | view _ | boot _ => cases permitted
  obtain ⟨staging',steady,stands,steps⟩ := reached
  exact ⟨staging',⟨steady,stands,fun key => (fixed.threaded key).step (steps key)⟩,steps⟩

/-! ### Runs -/

/-- The steps of a fixed group with listener threads that are allowed. -/
def GroupSteps (settings : Settings) (group : Group) (allowed : Threads → Event → Prop) : Threads → Event → Threads → Prop :=
  Restrict (fun s event => Permitted group event ∧ allowed s event) (Steps (Listeners.step settings))

/-- A quiet start, and every listener thread idle. -/
structure Idle (group : Group) (s : Threads) : Prop where
  quiet : Quiet group s.cluster
  idle : ∀ server, s.listening server = none

theorem idle_view : threadView group key s (fun _ => none) = ⟨view key s.cluster,fun _ => none⟩ := by
  refine ThreadView.eq_of (fun _ => rfl) (fun _ => rfl) ?_ (fun _ => rfl)
  simp [threadView,withThreads,beingHandled,staged,pending]

theorem Idle.fixed (idle : Idle group s) : FixedThreads settings group s (fun _ => none) := by
  have fixed := idle.quiet.fixed
  refine ⟨⟨fixed.members,fixed.participants,fixed.startingUp,fixed.plain⟩,fun server => idle.idle server,fun key => ?_⟩
  rw [idle_view]
  exact ⟨fixed.sound key,fun server packet stage now => by cases now⟩

/-- What holds of the view of a key at the start, and is kept by every step that is
    allowed, holds of it after every run. -/
theorem run_view {allowed : Threads → Event → Prop} {events : List Event} {P : ThreadView → Prop} (idle : Idle group s)
    (init : P ⟨view key s.cluster,fun _ => none⟩)
    (keep : ∀ s event staging w', FixedThreads settings group s staging → allowed s event → P (threadView group key s staging) →
      ThreadStep settings group key (threadView group key s staging) event w' → P w')
    (run : Run (GroupSteps settings group allowed) s events t) :
    ∃ staging, FixedThreads settings group t staging ∧ P (threadView group key t staging) := by
  refine run.always (P := fun t => ∃ staging, FixedThreads settings group t staging ∧ P (threadView group key t staging))
    ⟨_,idle.fixed,by rw [idle_view]; exact init⟩ ?_
  rintro u event u' ⟨staging,fixed,inv⟩ ⟨⟨permitted,allows⟩,move⟩
  obtain ⟨staging',fixed',steps⟩ := fixed.step permitted move
  exact ⟨staging',fixed',keep u event staging _ fixed allows inv (steps key)⟩

/-! ### Runs that are executed -/

/-- A new call has a number below `bound`. -/
def EventNumbered (bound : Nat) : Event → Prop
  | .call i _ _ => i < bound
  | _ => True

instance (bound : Nat) : DecidablePred (EventNumbered bound) := fun event => by
  cases event <;> simp only [EventNumbered] <;> infer_instance

theorem below_event {bound : Nat} (below : Below bound s.cluster.calls) (numbered : EventNumbered bound event)
    (move : Listeners.step settings event s = some t) : Below bound t.cluster.calls := by
  cases event with
  | call i server request =>
    obtain ⟨cluster,taken,rfl⟩ := Option.map_eq_some_iff.mp move
    have small : Numbered bound (.call i server request) := numbered
    exact below_step below small taken
  | thread i choice =>
    obtain ⟨cluster,taken,rfl⟩ := Option.map_eq_some_iff.mp move
    have small : Numbered bound (.thread i choice) := trivial
    exact below_step below small taken
  | view info =>
    obtain rfl := Listeners.step_view move
    exact below
  | boot server =>
    obtain rfl := Listeners.step_boot move
    intro i large
    simp [below i large]
  | receive packet =>
    simp only [Listeners.step] at move
    split_ifs at move <;> cases move <;> exact below
  | listen server sent =>
    rcases Listeners.step_listen move with ⟨_,_,_,rfl⟩ | ⟨_,_,_,_,_,rfl⟩
    · exact below
    · intro i large
      simp [below i large]

/-- A run that was executed, each event checked where it happens, and its end. -/
theorem run_of_events (settings : Settings) (group : Group) (bound : Nat) (allowed checked : Threads → Event → Prop)
    [∀ s, DecidablePred (checked s)] (enough : ∀ s event, Below bound s.cluster.calls → checked s event → allowed s event)
    (s : Threads) (none : Below bound s.cluster.calls) (events : List Event) (P : Threads → Prop) [DecidablePred P]
    (done : (exec (Listeners.step settings) (fun s event => decide (Permitted group event ∧ EventNumbered bound event ∧ checked s event))
      s events).any (fun t => decide (P t)) = true) :
    ∃ t, Run (GroupSteps settings group allowed) s events t ∧ P t := by
  obtain ⟨t,executed,reached⟩ := (Option.any_eq_true ..).mp done
  have run := run_of_exec events s t executed
  refine ⟨t,?_,of_decide_eq_true reached⟩
  refine (run.simulate id none (fun s event t (below : Below bound s.cluster.calls) move => ?_) ?_).1
  · exact below_event below (of_decide_eq_true move.1).2.1 move.2
  · intro s event t below move
    obtain ⟨permitted,_,passed⟩ := of_decide_eq_true move.1
    exact ⟨⟨permitted,enough s event below passed⟩,move.2⟩

end

/-! ### Small groups -/

/-- The group with the given databases, every listener thread idle. -/
def idleThreads (group : Group) (databases : SpreadGroup → Database) : Threads := ⟨group.initial databases,fun _ => none⟩

theorem idleThreads_idle (group : Group) (databases : SpreadGroup → Database) : Idle group (idleThreads group databases) :=
  ⟨initial_quiet group databases,fun _ => rfl⟩

/-- Call `i` goes on for some steps. -/
def goes (i steps : Nat) : List Event := List.replicate steps (.thread i .go)

/-- A server takes a message, makes so many accesses and ends. -/
def handles (packet : Packet) (accesses : Nat) : List Event :=
  .receive packet :: List.replicate (accesses + 1) (.listen packet.receiver true)

end CdPraticas.KeyThreads
