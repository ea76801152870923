import CdPraticas.Callbacks
import CdPraticas.Participants

/-!
# The threshold of an open round

A write waits for `numberOfParticipants - 2` responses. The number moves with
every membership message, and is compared with the responses only when one more
arrives: a group that has shrunk in between is not noticed.
-/

namespace CdPraticas.Thresholds
open Runs Groups Store Messages Handlers Calls Cluster Keys Callbacks

/-- The call has been told that it has all its responses. -/
def Told (s : State) (i : Nat) : Prop := ∃ call, s.calls i = some call ∧ call.responseReceived = true

/-- Every open round at the server that has responses enough for a group of that
    size has been told so. -/
def Enough (s : State) (server : SpreadGroup) (participants : Int) : Prop :=
  ∀ key wanted, (s.servers server).wantToWriteData key = some wanted →
    (wanted.receivedResponses : Int) ≥ participants - 2 → Told s wanted.callback

/-- So it is for the group as the server knows it. -/
def Noticed (s : State) (server : SpreadGroup) : Prop := Enough s server (s.servers server).numberOfParticipants

/-- No view leaves an open round with responses enough that has not been told so, and a
    round is opened only while it needs some. -/
def Notices (server : SpreadGroup) (s : State) : Action → Prop
  | .deliver packet _ => packet.receiver = server → ∀ info, packet.body = .membership info →
      info.isRegularMembership = true → Enough s server info.members.length
  | .thread i _ => ∀ call, s.calls i = some call → call.server = server → call.pc = .putWantToWrite →
      2 < (s.servers server).numberOfParticipants
  | _ => True

section
variable {settings : Settings} {s t : State} {server : SpreadGroup} {a : Action}

/-- Rounds that were open before, with their calls as far as they are told, are
    told as they were. -/
theorem Enough.congr {participants : Int} (rounds : (t.servers server).wantToWriteData = (s.servers server).wantToWriteData)
    (told : ∀ key wanted, (s.servers server).wantToWriteData key = some wanted →
      (Told t wanted.callback ↔ Told s wanted.callback)) : Enough t server participants ↔ Enough s server participants := by
  unfold Enough
  rw [rounds]
  exact forall_congr' fun key => forall_congr' fun wanted => forall_congr' fun open_ =>
    imp_congr_right fun _ => told key wanted open_

theorem noticed_view {info : MembershipInfo} (move : step settings (.view info) s = some t) :
    Noticed t server ↔ Noticed s server := by
  cases move
  rfl

theorem noticed_call {i : Nat} {other : SpreadGroup} {request : Request} (belonging : Belonging s)
    (move : step settings (.call i other request) s = some t) : Noticed t server ↔ Noticed s server := by
  obtain ⟨new,_,rfl⟩ := step_started move
  refine Enough.congr rfl fun key wanted writing => ?_
  obtain ⟨call,found,_⟩ := belonging.registered server key wanted.callback (.inr ⟨wanted,writing,rfl⟩)
  have different : wanted.callback ≠ i := by
    intro same
    rw [same,new] at found
    cases found
  simp [Told,different]

/-- A server that starts again has no rounds, and the calls of the others go on. -/
theorem noticed_boot {other : SpreadGroup} (belonging : Belonging s) (noticed : Noticed s server)
    (move : step settings (.boot other) s = some t) : Noticed t server := by
  cases move
  by_cases same : server = other
  · subst same
    intro key wanted writing
    simp only [Function.update_self] at writing
    cases writing
  · intro key wanted writing enough
    simp only [Function.update_of_ne same] at writing enough
    obtain ⟨call,found,told⟩ := noticed key wanted writing enough
    obtain ⟨call',found',located,_⟩ := belonging.registered server key wanted.callback (.inr ⟨wanted,writing,rfl⟩)
    cases found.symm.trans found'
    refine ⟨call,?_,told⟩
    simp [found,located,same]

/-- A delivery tells calls, and takes nothing back. -/
theorem told_deliver {packet : Packet} {sent : Bool} {i : Nat} (told : Told s i)
    (move : step settings (.deliver packet sent) s = some t) : Told t i := by
  obtain ⟨call,found,told⟩ := told
  cases service : isService packet.receiver with
  | true =>
    obtain ⟨_,rfl⟩ := step_service service move
    exact ⟨call,found,told⟩
  | false =>
    obtain ⟨_,outcome,_,rfl⟩ := step_handled service move
    exact ⟨_,congrArg (Option.map _) found,notify_flag _ _ _ _ _ _ told⟩

/-- What an access leaves open was open before, or is the round of the call. -/
theorem apply_round {i : Nat} {self : LeaderManager} {effect : Effect} {key : String} {wanted : WantToWriteData}
    (writing : (effect.apply i self).wantToWriteData key = some wanted) :
    self.wantToWriteData key = some wanted ∨ wanted = ⟨0,i⟩ ∧ effect = .putWantToWrite key := by
  cases effect with
  | putWantToWrite put =>
    simp only [Effect.apply,Function.update_apply] at writing
    split_ifs at writing with same
    · cases writing
      exact .inr ⟨rfl,congrArg _ same.symm⟩
    · exact .inl writing
  | removeWantToWrite gone =>
    simp only [Effect.apply,Function.update_apply] at writing
    split_ifs at writing
    exact .inl writing
  | _ => exact .inl writing

theorem noticed_thread {i : Nat} {choice : Choice} (belonging : Belonging s) (noticed : Noticed s server)
    (move : step settings (.thread i choice) s = some t) : Noticed t server ↔ Notices server s (.thread i choice) := by
  obtain ⟨call,effect,pc,found,moved,rfl⟩ := step_moved move
  have moves := next_move moved
  have flag (j : Nat) : (∃ after, Function.update s.calls i (some (call.goto pc)) j = some after ∧
      after.responseReceived = true) ↔ Told s j := by
    by_cases same : j = i
    · subst same
      simp [Told,found,Call.goto]
    · simp [Told,same]
  by_cases other : server = call.server
  · subst other
    have participants := (@apply_participants effect i (s.servers call.server)).1
    simp only [Noticed,Enough,Told,Function.update_self,participants,flag]
    constructor
    · intro told call' found' _ here
      cases found.symm.trans found'
      -- The round it opens has no response yet, and the call has heard of none.
      by_contra few
      cases moves with
      | @putWantToWrite dataDto _ _ =>
        obtain ⟨call',found',flagged⟩ := told dataDto.key ⟨0,i⟩ (Function.update_self ..) (by simpa using few)
        cases found.symm.trans found'
        have unheard := belonging.unheard i call found (by rw [here]; trivial)
        rw [unheard] at flagged
        cases flagged
      | _ => simp_all
    · intro notices key wanted writing enough
      rcases apply_round writing with earlier | ⟨rfl,rfl⟩
      · exact noticed key wanted earlier enough
      · have here : call.pc = .putWantToWrite := by cases moves with | putWantToWrite _ here => exact here
        have many := notices call found rfl here
        simp only [Nat.cast_zero] at enough
        omega
  · have elsewhere : Notices server s (.thread i choice) := by
      intro call' found' located _
      cases found.symm.trans found'
      exact absurd located.symm other
    refine iff_of_true (fun key wanted writing enough => ?_) elsewhere
    simp only [Function.update_of_ne other] at writing enough
    exact (flag _).mpr (noticed key wanted writing enough)

/-- The handler that counts a response compares. -/
theorem Handled.round {participants : Int} {me sender : SpreadGroup} {held held' : Fields} {message : Message}
    {sends : List Send} {callbacks : List Callback}
    (handled : Handled settings participants me sender held message held' sends callbacks) {wanted : WantToWriteData}
    (writing : held'.slot = some wanted) :
    held.slot = some wanted ∨ (∃ before, held.slot = some before ∧ before.callback = wanted.callback) ∧
      ((wanted.receivedResponses : Int) ≥ participants - 2 → callbacks = [.allResponsesReceived wanted.callback]) := by
  cases handled with
  | counted open_ =>
    cases writing
    exact .inr ⟨⟨_,open_,rfl⟩,fun enough => if_pos enough⟩
  | _ => exact .inl writing

/-- A response more is compared with the threshold, -/
theorem noticed_regular {packet : Packet} {sent : Bool} {message : Message} (noticed : Noticed s packet.receiver)
    (belonging : Belonging s) (plain : isService packet.receiver = false) (body : packet.body = .regular message)
    (move : step settings (.deliver packet sent) s = some t) : Noticed t packet.receiver := by
  have kept {i : Nat} (told : Told s i) : Told t i := told_deliver told move
  obtain ⟨_,outcome,handles,rfl⟩ := step_handled plain move
  rw [body] at handles
  subst handles
  intro key wanted writing enough
  simp only [Function.update_self,Participants.messageReceived_size] at writing enough
  cases about : message.key? with
  | none =>
    obtain ⟨_,_,writers⟩ := keyless_handler settings (s.servers packet.receiver) packet.receiver packet.sender
      (show (Body.regular message).key? = none from about)
    rw [writers] at writing
    exact kept (noticed key wanted writing enough)
  | some own =>
    by_cases same : key = own
    · subst same
      have handled := messageReceived_handled settings (s.servers packet.receiver) packet.receiver packet.sender about
      rcases Handled.round handled writing with earlier | ⟨⟨before,open_,same⟩,tells⟩
      · exact kept (noticed key wanted earlier enough)
      · obtain ⟨call,found,_⟩ := belonging.registered packet.receiver key wanted.callback (.inr ⟨before,open_,same⟩)
        refine ⟨_,congrArg (Option.map _) found,?_⟩
        rw [(notify_references ..).1,tells enough]
        simp [invoke]
    · have elsewhere := congrArg Fields.slot (messageReceived_elsewhere settings (s.servers packet.receiver) packet.receiver
        packet.sender about same)
      exact kept (noticed key wanted (elsewhere.symm.trans writing) enough)

/-- and a view changes the threshold without a look at the rounds. -/
theorem noticed_membership {packet : Packet} {sent : Bool} {info : MembershipInfo} (noticed : Noticed s packet.receiver)
    (plain : isService packet.receiver = false) (body : packet.body = .membership info)
    (move : step settings (.deliver packet sent) s = some t) :
    Noticed t packet.receiver ↔ (info.isRegularMembership = true → Enough s packet.receiver info.members.length) := by
  obtain ⟨_,outcome,handles,rfl⟩ := step_handled plain move
  rw [body] at handles
  subst handles
  obtain ⟨silent,_,writers⟩ := keyless_handler settings (s.servers packet.receiver) packet.receiver packet.sender
    (show (Body.membership info).key? = none from rfl)
  have told (i : Nat) : (∃ call, (s.calls i).map (notify (messageReceived settings (s.servers packet.receiver) packet.receiver
      packet.sender (.membership info)).sends [] packet sent i) = some call ∧ call.responseReceived = true) ↔ Told s i := by
    cases found : s.calls i with
    | none => simp [Told,found]
    | some call => simp [Told,found,notify_uncalled]
  have size := Participants.messageReceived_size settings (s.servers packet.receiver) packet.receiver packet.sender
    (.membership info)
  simp only [Noticed,Enough,Told,Function.update_self,silent,writers,told,size]
  split_ifs with regular
  · exact ⟨fun enough _ => enough,fun enough => enough regular⟩
  · exact iff_of_true noticed fun contrary => absurd contrary regular

theorem noticed_deliver {packet : Packet} {sent : Bool} (belonging : Belonging s) (noticed : Noticed s server)
    (plain : isService server = false) (move : step settings (.deliver packet sent) s = some t) :
    Noticed t server ↔ Notices server s (.deliver packet sent) := by
  by_cases here : packet.receiver = server
  · subst here
    cases body : packet.body with
    | regular message =>
      refine iff_of_true (noticed_regular noticed belonging plain body move) fun _ info view => ?_
      rw [body] at view
      cases view
    | membership info =>
      rw [noticed_membership noticed plain body move]
      simp [Notices,body]
  · refine iff_of_true ?_ fun same => absurd same here
    intro key wanted writing enough
    rw [deliver_elsewhere (Ne.symm here) move] at writing enough
    exact told_deliver (noticed key wanted writing enough) move

/-- What a step does to the rounds of a server. -/
theorem noticed_step (belonging : Belonging s) (noticed : Noticed s server) (plain : isService server = false)
    (move : step settings a s = some t) : Noticed t server ↔ Notices server s a := by
  cases a with
  | call => exact ((noticed_call belonging move).trans (iff_true_intro noticed)).trans (iff_true_intro trivial).symm
  | thread => exact noticed_thread belonging noticed move
  | deliver => exact noticed_deliver belonging noticed plain move
  | view => exact ((noticed_view move).trans (iff_true_intro noticed)).trans (iff_true_intro trivial).symm
  | boot => exact iff_of_true (noticed_boot belonging noticed move) trivial

end

/-- In every run, at every server: no open round is overlooked in any state exactly
    when no view shrinks the group below what an open round has and no round is opened
    in a group of two or less. -/
theorem noticed_iff (settings : Settings) (server : SpreadGroup) (plain : isService server = false) (start : State)
    (idle : Idle start) (acts : List Action) (t : State) (run : Run (Steps (step settings)) start acts t) :
    (∀ front back u, acts = front ++ back → Run (Steps (step settings)) start front u → Noticed u server) ↔
      Run (Restrict (Notices server) (Steps (step settings))) start acts t := by
  constructor
  · intro noticed
    induction run with
    | start => exact .start
    | @next acts s t a before move ih =>
      have earlier := ih fun front back u whole => noticed front (back ++ [a]) u (by rw [whole,List.append_assoc])
      have here := noticed acts [a] s rfl before
      have there := noticed (acts ++ [a]) [] t (by simp) (before.next move)
      exact earlier.next ⟨(noticed_step (.run idle before) here plain move).mp there,move⟩
  · rintro kept front back u rfl run'
    obtain ⟨u',first,_⟩ := kept.split
    obtain rfl := first.unrestrict.unique run'
    refine (first.always (P := fun s => Belonging s ∧ Noticed s server) ⟨idle.belonging,?_⟩ ?_).2
    · intro key wanted writing
      cases (idle.writers server key).symm.trans writing
    · rintro s a t ⟨belonging,noticed⟩ move
      exact ⟨belonging.step move.2,(noticed_step belonging noticed plain move.2).mpr move.1⟩

/-- The group of three servers, where a write at Server1 asks, Server2 answers and
    Server3 leaves. -/
def shrinking : List Action :=
  .call 0 server1 (.write ⟨"k","v"⟩) :: goOn 0 4 ++
    [.deliver ⟨server2,server1,.regular (.wantToWrite ⟨"k","v"⟩),some 0⟩ true,
     .deliver ⟨server1,server2,.regular (.wantToWriteResponse "k"),some 0⟩ true,
     .view ⟨true,.leave,[service,server1,server2]⟩,
     .deliver ⟨server1,server1,.membership ⟨true,.leave,[service,server1,server2]⟩,none⟩ true]

def started : State := trio.initial fun _ => ∅

theorem started_idle : Idle started := ⟨fun _ => rfl,fun _ _ => rfl,fun _ _ => rfl⟩

/-- The one response is all that the group of two can give, and the write waits on. -/
theorem shrinking_overlooked : ∃ t, Run (Steps (step .properties)) started shrinking t ∧ ¬ Noticed t server1 := by
  obtain ⟨t,run,⟨open_,size⟩,deaf⟩ := exists_run_of_exec (step .properties) (fun _ _ => True)
    (fun t => ((t.servers server1).wantToWriteData "k" = some ⟨1,0⟩ ∧ (t.servers server1).numberOfParticipants = 3) ∧
      ∀ call ∈ t.calls 0, call.responseReceived = false) started shrinking (by decide)
  refine ⟨t,run.unrestrict,fun noticed => ?_⟩
  obtain ⟨call,found,told⟩ := noticed "k" ⟨1,0⟩ open_ (by rw [size]; decide)
  rw [deaf call found] at told
  cases told

theorem noticed_iff_shrinking :
    ∃ t, Run (Steps (step .properties)) started shrinking t ∧
      ¬ Run (Restrict (Notices server1) (Steps (step .properties))) started shrinking t := by
  obtain ⟨t,run,overlooked⟩ := shrinking_overlooked
  refine ⟨t,run,fun kept => overlooked ?_⟩
  exact (noticed_iff .properties server1 (by decide) started started_idle shrinking t run).mpr kept shrinking [] t (by simp) run

/-- Server3 leaves before it answers, and nobody looks at the round again. -/
theorem leave_overlooked :
    ¬ ∀ (settings : Settings) (server : SpreadGroup) (start t : State) (acts : List Action), isService server = false →
      Idle start → 3 ≤ (start.servers server).numberOfParticipants → Run (Steps (step settings)) start acts t →
      Noticed t server := by
  intro noticed
  obtain ⟨t,run,overlooked⟩ := shrinking_overlooked
  exact overlooked (noticed .properties server1 started t shrinking (by decide) started_idle (by decide) run)

end CdPraticas.Thresholds
