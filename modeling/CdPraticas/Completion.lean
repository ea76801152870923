import CdPraticas.Reading
import CdPraticas.Writing

/-!
# An operation can always finish

However far an operation has come, there are steps that lead its call to its
end and deliver what is in flight.
-/

namespace CdPraticas.Completion
open Groups Store Messages Handlers Calls Cluster Keys Runs Rounds Serial Operations

/-! ### How much is left to do -/

/-- How far a call is from its end. A loop is left with the flag set, or by the
    clock. -/
def remaining (flag : Bool) : Pc → Nat
  | .writeData => 12
  | .putWantToWrite => 11
  | .findInvalidate => 10
  | .saveInvalidate _ => 9
  | .sendWantToWrite | .findLocal => 8
  | .testResponse => if flag then 4 else 7
  | .sendAskData => 7
  | .sleepWrite | .putWaiting => 6
  | .testConflict => 5
  | .testData => if flag then 3 else 5
  | .sleepRead | .handleConflict => 4
  | .saveData _ | .findDelete => 3
  | .sendDataWritten _ | .sendRevalidate | .deleteById | .saveCopy => 2
  | .saveAlone | .removeWantToWrite _ | .removeWaiting _ => 1
  | .wrote _ | .answered _ => 0

/-- A message counts for more than what its handler sends. -/
def weight (group : Group) (packet : Packet) : Nat :=
  match packet.body with
  | .regular (.wantToWrite _) => group.members.length + 1
  | .regular (.askData _) => 2
  | _ => 1

/-- More than one multicast weighs. -/
def unit (group : Group) : Nat := group.members.length * (group.members.length + 1) + 1

def effort (group : Group) (i : Nat) (v : KeyView) : Nat :=
  ((v.calls i).map fun call => unit group * remaining call.responseReceived call.pc).getD 0 +
    (v.network.map (weight group)).sum

section
variable {settings : Settings} {group : Group} {key : String} {v v' : KeyView} {i : Nat}

theorem remaining_flag (flag : Bool) (pc : Pc) : remaining true pc ≤ remaining flag pc := by
  cases flag <;> cases pc <;> simp [remaining]

/-- A step brings a call nearer to its end, unless it goes round in its loop. -/
theorem move_remaining {participants : Int} {stored : Option DataEntity} {call : Call} {choice : Choice} {effect : Effect}
    {pc : Pc} (move : Move settings participants stored call choice effect pc)
    (waiting : call.pc = .testConflict ∨ call.pc = .sleepRead ∧ choice = .go → call.responseReceived = true) :
    remaining call.responseReceived pc < remaining call.responseReceived call.pc := by
  cases move with
  | sendWantToWrite _ here | putWaiting _ here =>
    rw [here]
    simp only [remaining]
    split_ifs <;> omega
  | _ => simp_all [remaining]

theorem weight_pos (packet : Packet) : 0 < weight group packet := by
  unfold weight
  split <;> omega

theorem weight_le (packet : Packet) : weight group packet ≤ group.members.length + 1 := by
  have some := group.servers_length
  unfold weight
  split <;> omega

/-- What a step of a call sends weighs less than the step. -/
theorem effect_weight (effect : Effect) (sender : SpreadGroup) (call : Option Nat) :
    ((packets group.members sender call effect.sends).map (weight group)).sum < unit group := by
  unfold unit
  cases effect with
  | multicast message =>
    rw [Effect.sends,packets_multicast,Multiset.map_coe,Multiset.sum_coe]
    have bounded := List.sum_le_card_nsmul
      ((group.members.map fun member => (⟨member,sender,.regular message,call⟩ : Packet)).map (weight group))
      (group.members.length + 1) (by simp [weight_le])
    simp only [List.length_map,smul_eq_mul] at bounded
    omega
  | _ => simp [Effect.sends]

/-- What a handler sends weighs less than its message. -/
theorem handled_weight {participants : Int} {packet : Packet} {held held' : Fields} {message : Message}
    {sends : List Send} {callbacks : List Callback}
    (handled : Handled settings participants packet.receiver packet.sender held message held' sends callbacks)
    (body : packet.body = .regular message) :
    ((packets group.members packet.receiver packet.call sends).map (weight group)).sum < weight group packet := by
  have some := group.servers_length
  cases handled with
  | answered _ _ _ => simp [weight,body]
  | granted _ _ =>
    split_ifs
    · simp [weight_pos]
    · simp only [packets_unicast,Multiset.map_singleton,Multiset.sum_singleton,weight,body]
      omega
  | refused _ _ => simp [weight,body,Multiset.map_coe,Multiset.sum_coe,Function.comp_def]
  | _ => simp [weight_pos]

/-- A delivery makes the effort smaller, -/
theorem deliver_effort {packet : Packet} {sent : Bool} (flying : packet ∈ v.network) (sound : Sound group key v)
    (step : KeyStep settings group key v (.deliver packet sent) v') : effort group i v' < effort group i v := by
  have taken := Multiset.sum_map_erase flying (f := weight group)
  have some : 0 < weight group packet := weight_pos packet
  cases step with
  | elsewhere away =>
    obtain ⟨_,_,⟨message,body,about⟩,_⟩ := sound.flying packet flying
    exact absurd (by rw [body]; exact about) away
  | service _ _ =>
    simp only [effort,dropped_calls,dropped_network]
    omega
  | @deliver _ _ message held sends callbacks _ _ body handled =>
    have less : ((packets group.members packet.receiver packet.call sends).map (weight group)).sum < weight group packet :=
      handled_weight handled body
    have replies : ((if sent then packets group.members packet.receiver packet.call sends else 0).map (weight group)).sum <
        weight group packet := by
      split_ifs
      · exact less
      · exact some
    have calls : (((v.calls i).map (notify sends callbacks packet sent i)).map fun call =>
          unit group * remaining call.responseReceived call.pc).getD 0 ≤
        ((v.calls i).map fun call => unit group * remaining call.responseReceived call.pc).getD 0 := by
      cases v.calls i with
      | none => exact le_rfl
      | some call =>
        refine Nat.mul_le_mul_left _ ?_
        rw [notify_pc]
        cases flag : call.responseReceived with
        | true => rw [notify_flag sends callbacks packet sent i call flag]
        | false =>
          cases (notify sends callbacks packet sent i call).responseReceived
          · exact le_rfl
          · exact remaining_flag _ _
    simp only [effort,handled_calls,handled_network,Multiset.map_add,Multiset.sum_add]
    omega

/-- and so does a step of the call that does not go round in its loop. -/
theorem thread_effort {choice : Choice} {call : Call} (found : v.calls i = some call)
    (waiting : call.pc = .testConflict ∨ call.pc = .sleepRead ∧ choice = .go → call.responseReceived = true)
    (step : KeyStep settings group key v (.thread i choice) v') : effort group i v' < effort group i v := by
  cases step with
  | elsewhere away =>
    rw [show v.calls i = none from away] at found
    cases found
  | @thread _ _ _ effect pc was move =>
    rw [found] at was
    cases was
    have nearer := Nat.mul_le_mul_left (unit group) (Nat.succ_le_of_lt (move_remaining move waiting))
    have sent : ((packets group.members call.server (some i) effect.sends).map (weight group)).sum < unit group :=
      effect_weight effect call.server (some i)
    rw [Nat.mul_succ] at nearer
    simp only [effort,moved_self,moved_network,found,Option.map_some,Option.getD_some,goto_responseReceived,goto_pc,
      Multiset.map_add,Multiset.sum_add]
    omega

/-! ### The answers that a write still waits for -/

/-- The waiting loop of a write. -/
def Waits : Pc → Prop
  | .testResponse | .sleepWrite | .testConflict => True
  | _ => False

/-- Another server that is still to be asked, or its answer. -/
def Outstanding (group : Group) (i : Nat) (server : SpreadGroup) (packet : Packet) : Prop :=
  (packet.receiver ∈ group.others server ∧ Asking i packet.receiver packet) ∨ Answering i packet

instance (server : SpreadGroup) : DecidablePred (Outstanding group i server) := fun _ =>
  inferInstanceAs (Decidable ((_ ∧ _) ∨ _))

/-- While a write waits, every other server's answer is counted or outstanding,
    and not all are counted. -/
structure Hopeful (group : Group) (i : Nat) (v : KeyView) : Prop where
  enough : ∀ call, v.calls i = some call → Waits call.pc → call.responseReceived = false →
    (group.others call.server).length ≤
      v.network.countP (Outstanding group i call.server) + counted (v.held call.server) i
  few : ∀ call, v.calls i = some call → Waits call.pc → call.responseReceived = false →
    counted (v.held call.server) i < (group.others call.server).length

theorem move_waits {participants : Int} {stored : Option DataEntity} {call : Call} {choice : Choice} {effect : Effect}
    {pc : Pc} (move : Move settings participants stored call choice effect pc) (waits : Waits pc) :
    Waits call.pc ∧ effect = .skip ∨
    call.pc = .sendWantToWrite ∧ ∃ dataDto, effect = .multicast (.wantToWrite dataDto) := by
  cases move <;> simp_all [Waits]

/-- A WANT_TO_WRITE that goes out asks every other server. -/
theorem asked_everybody {server : SpreadGroup} (dataDto : DataDto) : (group.others server).length ≤
    (packets group.members server (some i) (Effect.multicast (.wantToWrite dataDto)).sends).countP
      (Outstanding group i server) := by
  rw [Effect.sends,packets_multicast,Multiset.coe_countP,List.countP_map]
  have outstanding : ∀ member, member ∈ group.others server →
      Outstanding group i server ⟨member,server,.regular (.wantToWrite dataDto),some i⟩ :=
    fun member other => .inl ⟨other,rfl,rfl,trivial⟩
  have sub : (group.others server).Sublist group.members := List.filter_sublist.trans List.filter_sublist
  calc (group.others server).length
      = (group.others server).countP ((fun packet => decide (Outstanding group i server packet)) ∘
          fun member => ⟨member,server,.regular (.wantToWrite dataDto),some i⟩) := by
        symm
        rw [List.countP_eq_length]
        intro member other
        simpa using outstanding member other
    _ ≤ _ := sub.countP_le

theorem Hopeful.of_moved {data : String} {server : SpreadGroup}
    (hopeful : Hopeful group i v) (alone : Writing.Alone group key data server i v) (more : 3 ≤ group.members.length)
    (sound : Sound group key v) {j : Nat} {choice : Choice} {call : Call} {effect : Effect} {pc : Pc}
    (found : v.calls j = some call)
    (move : Move settings group.members.length (v.held call.server).row call choice effect pc) :
    Hopeful group i (v.moved group j call effect pc) := by
  obtain ⟨rfl,_⟩ := alone.only j call found
  have size := Group.others_length (sound.located j call found)
  refine ⟨fun other was waits flag => ?_,fun other was waits flag => ?_⟩
  all_goals
    rw [moved_self] at was
    cases was
    rw [goto_server,moved_held_self]
    rcases move_waits move waits with ⟨before,rfl⟩ | ⟨here,dataDto,rfl⟩
  · have enough := hopeful.enough call found before flag
    simp only [moved_network,Effect.sends,packets_nil,add_zero]
    exact enough
  · have asked : (group.others call.server).length ≤
        (packets group.members call.server (some j) (Effect.multicast (.wantToWrite dataDto)).sends).countP
          (Outstanding group j call.server) := asked_everybody dataDto
    rw [moved_network,Multiset.countP_add]
    omega
  · exact hopeful.few call found before flag
  · have nobody : call.acknowledged = [] := by
      refine List.eq_nil_iff_forall_not_mem.mpr fun g member => ?_
      have asked := (alone.inRound.formed.answering j call found g member).2
      rw [here] at asked
      exact asked
    have tally := alone.inRound.tallied.tally j call found
    rw [nobody,List.length_nil] at tally
    change counted (v.held call.server) j < _
    omega

/-- The network after a delivery holds what was outstanding, one more for an
    answer that is sent and one less for an outstanding message. -/
theorem countP_handled {P : Packet → Prop} [DecidablePred P] {packet : Packet} {sent : Bool} {held : Fields}
    {sends : List Send} {callbacks : List Callback} (flying : packet ∈ v.network) :
    (v.handled group packet sent held sends callbacks).network.countP P + (if P packet then 1 else 0) =
      v.network.countP P + (if sent then packets group.members packet.receiver packet.call sends else 0).countP P := by
  have taken := countP_taken (P := P) flying
  rw [handled_network,Multiset.countP_add]
  omega

/-- A delivery leaves as many answers counted or outstanding as there were. -/
theorem handled_outstanding {data : String} {server : SpreadGroup} (alone : Writing.Alone group key data server i v)
    (sound : Sound group key v) (untested : ∀ server ∈ group.servers, settings.testConflict server = false)
    {packet : Packet} {message : Message} {held : Fields} {sends : List Send} {callbacks : List Callback} {call : Call}
    (found : v.calls i = some call) (waits : Waits call.pc) (flying : packet ∈ v.network)
    (plain : isService packet.receiver = false) (body : packet.body = .regular message)
    (handled : Handled settings group.members.length packet.receiver packet.sender (v.held packet.receiver) message held
      sends callbacks) :
    v.network.countP (Outstanding group i call.server) + counted (v.held call.server) i ≤
      (v.handled group packet true held sends callbacks).network.countP (Outstanding group i call.server) +
        counted ((v.handled group packet true held sends callbacks).held call.server) i := by
  have delivery := alone.orderly.delivery sound alone.inRound.formed flying plain body handled
  have serving := alone.orderly.serving packet flying message body
  have count : (v.handled group packet true held sends callbacks).network.countP (Outstanding group i call.server) + _ = _ :=
    countP_handled flying
  obtain ⟨receiverIn,_,_,j,origin,tag,originFound⟩ := sound.flying packet flying
  obtain ⟨rfl,_⟩ := alone.only j origin originFound
  rw [found] at originFound
  cases originFound
  have owned := alone.inRound.formed.owned packet flying message j call body tag found
  have elsewhere : packet.receiver ≠ call.server →
      (v.handled group packet true held sends callbacks).held call.server = v.held call.server :=
    fun different => handled_held_ne _ _ _ _ _ (Ne.symm different)
  have here : packet.receiver = call.server →
      (v.handled group packet true held sends callbacks).held call.server = held := by
    intro same
    rw [← same,handled_held_self]
  have kept : held.slot = (v.held packet.receiver).slot →
      counted ((v.handled group packet true held sends callbacks).held call.server) j = counted (v.held call.server) j := by
    intro slot
    by_cases same : packet.receiver = call.server
    · rw [here same,counted,slot,same]
      rfl
    · rw [elsewhere same]
  cases handled with
  | ignored why =>
    have settled : ¬ Outstanding group j call.server packet := by
      rintro (⟨other,_,_,asking⟩ | ⟨_,answering⟩)
      all_goals
        rw [body] at *
        cases message <;> try contradiction
      · exact (Group.mem_others.mp other).2 ((show packet.sender = packet.receiver from why).symm.trans owned.2.1)
      · have registered : call.pc.Registered := by
          cases pc : call.pc <;> simp_all [Waits,Pc.Registered]
        have noSlot : (v.held packet.receiver).slot = none := why
        rw [owned.2.1] at noSlot
        exact alone.orderly.registered j call found registered noSlot
    rw [kept rfl]
    simp only [packets_nil,ite_self,Multiset.countP_zero,if_neg settled] at count
    omega
  | @granted dataDto foreign free =>
    have different : packet.receiver ≠ call.server := fun here => foreign (owned.2.1.trans here.symm)
    have member : packet.receiver ∈ group.servers := Group.mem_servers.mpr ⟨receiverIn,plain⟩
    have answer : Outstanding group j call.server
        ⟨packet.sender,packet.receiver,.regular (.wantToWriteResponse dataDto.key),packet.call⟩ := .inr ⟨tag,trivial⟩
    have sent : (packets group.members packet.receiver packet.call
        (if settings.testConflict packet.receiver then [] else [.unicast (.wantToWriteResponse dataDto.key) packet.sender])).countP
          (Outstanding group j call.server) = 1 := by
      rw [untested _ member]
      simp only [Bool.false_eq_true,if_false,packets_unicast]
      exact (Multiset.countP_cons_of_pos _ answer).trans (by simp)
    have one : (if Outstanding group j call.server packet then 1 else 0) ≤ 1 := by split_ifs <;> omega
    rw [if_pos rfl,sent] at count
    rw [elsewhere different]
    omega
  | @counted _ wanted writing =>
    obtain ⟨owner,ownerFound,_⟩ := sound.wanting _ wanted writing
    have own : wanted.callback = j := (alone.only _ owner ownerFound).1
    have atServer : packet.receiver = call.server := owned.2.1
    have answering : Outstanding group j call.server packet := .inr ⟨tag,by rw [body]; trivial⟩
    have before : counted (v.held call.server) j = wanted.receivedResponses := by
      simp [counted,← atServer,writing,own]
    have after : counted { v.held packet.receiver with slot := some ⟨wanted.receivedResponses + 1,wanted.callback⟩ } j =
        wanted.receivedResponses + 1 := by
      simp [counted,own]
    rw [packets_nil,ite_self,Multiset.countP_zero,if_pos answering] at count
    rw [here atServer,before,after]
    omega
  | deleted _ _ _ =>
    have settled : ¬ Outstanding group j call.server packet := by
      rintro (⟨_,_,_,asking⟩ | ⟨_,answering⟩)
      · rw [body] at asking
        exact asking
      · rw [body] at answering
        exact answering
    rw [kept rfl]
    simp only [packets_nil,ite_self,Multiset.countP_zero,if_neg settled] at count
    omega
  | @refused dataDto _ _ _ =>
    have sent : ⟨group.service,packet.receiver,.regular (.writeConflict dataDto),packet.call⟩ ∈
        packets group.members packet.receiver packet.call [.multicast (.writeConflict dataDto)] := by
      rw [packets_multicast]
      exact Multiset.mem_coe.mpr (List.mem_map.mpr ⟨_,group.isMember,rfl⟩)
    obtain ⟨_,_,_,reply⟩ := delivery.replies sent
    cases reply
  | answered _ _ _ | received _ | disturbed _ _ | revalidated _ _ => exact serving.elim

/-- A delivery that does not set the flag of a write leaves an answer to be counted. -/
theorem handled_few {participants : Int} {packet : Packet} {sent : Bool} {held held' : Fields} {message : Message}
    {sends : List Send} {callbacks : List Callback} {call : Call}
    (handled : Handled settings participants packet.receiver packet.sender held message held' sends callbacks)
    (flag : (notify sends callbacks packet sent i call).responseReceived = false) :
    counted held' i ≤ counted held i ∨ (counted held' i : Int) < participants - 2 := by
  cases handled with
  | @counted _ wanted writing =>
    by_cases own : wanted.callback = i
    · right
      rw [(notify_references ..).1] at flag
      simp only [Rounds.counted,if_pos own]
      by_contra many
      rw [if_pos (by omega)] at flag
      simp [invoke,own] at flag
    · left
      simp [Rounds.counted,own]
  | _ => exact .inl le_rfl

theorem Hopeful.of_handled {data : String} {server : SpreadGroup} (hopeful : Hopeful group i v)
    (alone : Writing.Alone group key data server i v) (sound : Sound group key v)
    (untested : ∀ server ∈ group.servers, settings.testConflict server = false) {packet : Packet} {message : Message}
    {held : Fields} {sends : List Send} {callbacks : List Callback} (flying : packet ∈ v.network)
    (plain : isService packet.receiver = false) (body : packet.body = .regular message)
    (handled : Handled settings group.members.length packet.receiver packet.sender (v.held packet.receiver) message held
      sends callbacks) : Hopeful group i (v.handled group packet true held sends callbacks) := by
  refine ⟨fun call was waits flag => ?_,fun call was waits flag => ?_⟩
  all_goals
    obtain ⟨before,found,rfl⟩ := handled_cases was
    rw [notify_pc] at waits
    rw [notify_server]
    have unset : before.responseReceived = false := by
      by_contra set
      rw [notify_flag sends callbacks packet true i before (by simpa using set)] at flag
      cases flag
  · have enough := hopeful.enough before found waits unset
    have kept := handled_outstanding alone sound untested found waits flying plain body handled
    omega
  · have few := hopeful.few before found waits unset
    have size := Group.others_length (sound.located i before found)
    by_cases here : before.server = packet.receiver
    · rw [here,handled_held_self]
      rw [here] at few size
      rcases handled_few handled flag with fewer | less <;> omega
    · rw [handled_held_ne _ _ _ _ _ here]
      exact few

theorem Hopeful.of_dropped {data : String} {server : SpreadGroup} (hopeful : Hopeful group i v)
    (alone : Writing.Alone group key data server i v) (sound : Sound group key v) {packet : Packet}
    (flying : packet ∈ v.network) (service : isService packet.receiver = true) : Hopeful group i (v.dropped packet) := by
  refine ⟨fun call found waits flag => ?_,hopeful.few⟩
  have enough := hopeful.enough call found waits flag
  have settled : ¬ Outstanding group i call.server packet := by
    rintro (⟨other,_⟩ | answering)
    · rw [(Group.mem_servers.mp (Group.mem_others.mp other).1).2] at service
      cases service
    · obtain ⟨_,_,⟨message,body,_⟩,_⟩ := sound.flying packet flying
      have owned := alone.inRound.formed.owned packet flying message i call body answering.1 found
      have answer := answering.2
      rw [body] at answer
      cases message <;> try contradiction
      rw [owned.2.1,(Group.mem_servers.mp (sound.located i call found)).2] at service
      cases service
  have taken := countP_taken (P := Outstanding group i call.server) flying
  rw [if_neg settled] at taken
  rw [dropped_network,dropped_held]
  omega

theorem Hopeful.step {data : String} {server : SpreadGroup} {a : Action} (hopeful : Hopeful group i v)
    (alone : Writing.Alone group key data server i v) (sound : Sound group key v) (more : 3 ≤ group.members.length)
    (untested : ∀ server ∈ group.servers, settings.testConflict server = false) (attended : Attended i v a)
    (step : KeyStep settings group key v a v') : Hopeful group i v' := by
  cases step with
  | elsewhere _ => exact hopeful
  | call _ _ _ => exact attended.elim
  | thread found move => exact hopeful.of_moved alone more sound found move
  | service flying ignoring => exact hopeful.of_dropped alone sound flying ignoring
  | deliver flying plain body handled =>
    obtain ⟨rfl,_⟩ := attended
    exact hopeful.of_handled alone sound untested flying plain body handled

/-- A write that waits while nothing is in flight has been answered by everybody. -/
theorem Hopeful.flag (hopeful : Hopeful group i v) {call : Call} (found : v.calls i = some call) (waits : Waits call.pc)
    (silent : v.network = 0) : call.responseReceived = true := by
  by_contra unset
  have enough := hopeful.enough call found waits (by simpa using unset)
  have few := hopeful.few call found waits (by simpa using unset)
  rw [silent,Multiset.countP_zero] at enough
  omega

/-! ### Operations finish -/

variable {s t : State} {server : SpreadGroup} {request : Request}

theorem write_hopeful {data : String} (quiet : Quiet group s) (more : 3 ≤ group.members.length)
    (untested : ∀ server ∈ group.servers, settings.testConflict server = false)
    (underway : Underway settings group s i server (.write ⟨key,data⟩) t) : Hopeful group i (view key t) := by
  obtain ⟨⟨acts,run⟩,_⟩ := underway_view quiet underway (show (Request.write ⟨key,data⟩).key = key from rfl)
  have blank := quiet_blank quiet key
  have all := run.always (P := fun v => Writing.Alone group key data server i v ∧ Hopeful group i v)
    ⟨.of_started blank (quiet.fixed.sound key) _ (quiet_orderly quiet) ⟨quiet_formed quiet,quiet_tallied quiet⟩,
      ⟨fun call found waits => ?_,fun call found waits => ?_⟩⟩ ?_
  · exact all.2
  · rw [started_self] at found
    cases found
    exact waits.elim
  · rw [started_self] at found
    cases found
    exact waits.elim
  · rintro v a v' ⟨alone,hopeful⟩ ⟨sound,attended,step⟩
    exact ⟨alone.step sound more attended step,hopeful.step alone sound more untested attended step⟩

/-- Before it looks for a conflict with nothing in flight, a write has its answers. -/
theorem conflict_flag (quiet : Quiet group s)
    (untested : ∀ server ∈ group.servers, settings.testConflict server = false)
    (underway : Underway settings group s i server request t) {call : Call}
    (found : (view request.key t).calls i = some call) (same : call.request = request) (fits : call.pc.Fits call.request)
    (here : call.pc = .testConflict) (silent : t.network = 0) : call.responseReceived = true := by
  rw [here,same] at fits
  cases request with
  | read _ => exact fits.elim
  | write dataDto =>
    have member : server ∈ group.servers := underway.1
    have size := Group.others_length member
    by_cases more : 3 ≤ group.members.length
    · refine (write_hopeful quiet more untested underway).flag found (by rw [here]; trivial) ?_
      simp [view,Request.key,silent]
    · obtain ⟨solo,_⟩ := Writing.solo_underway quiet (by omega) underway
      rcases solo.here call found with other | other | ⟨other,_⟩ <;> rw [here] at other <;> cases other

/-- Until an operation has finished there is a step that brings it nearer to its end. -/
theorem underway_progress (settled : Settled group s)
    (untested : ∀ server ∈ group.servers, settings.testConflict server = false)
    (underway : Underway settings group s i server request t)
    (unfinished : ¬ (t.network = 0 ∧ ∃ call, t.calls i = some call ∧ call.pc.Done)) :
    ∃ a u, group.Steps settings request.key (Attended i) t a u ∧
      effort group i (view request.key (forget s.calls u)) < effort group i (view request.key (forget s.calls t)) := by
  obtain ⟨forgotten,returned,new⟩ := underway.forget settled
  have quiet := settled.quiet
  obtain ⟨_,fixed,call,inView,same⟩ := underway_view quiet forgotten rfl
  have sound := fixed.sound request.key
  have fits := sound.fits i call inView
  have found : t.calls i = some call := (forget_same new).symm.trans (view_calls.mp inView).1
  have seen : (view request.key t).calls i = some call := view_calls.mpr ⟨found,congrArg Request.key same⟩
  have steps : ∀ {a u}, group.Permits a → step settings a t = some u → KeyStep settings group request.key
      (view request.key (forget s.calls t)) a (view request.key (forget s.calls u)) :=
    fun permitted move => view_step fixed permitted (forget_step returned permitted move).1
  by_cases calling : call.pc = .putWaiting ∨ t.network = 0
  · have running : ¬ call.pc.Done := by
      rcases calling with here | silent
      · rw [here]
        exact id
      · exact fun done => unfinished ⟨silent,call,found,done⟩
    have takes : ∀ choice, Attended i (view request.key t) (.thread i choice) →
        (∃ moved, next settings (t.servers call.server).numberOfParticipants
          ((t.servers call.server).database.findById call.request.key) call choice = some moved) →
        (call.pc = .testConflict ∨ call.pc = .sleepRead ∧ choice = .go → call.responseReceived = true) →
        ∃ a u, group.Steps settings request.key (Attended i) t a u ∧
          effort group i (view request.key (forget s.calls u)) < effort group i (view request.key (forget s.calls t)) := by
      rintro choice attended ⟨moved,nexts⟩ waiting
      obtain ⟨u,move⟩ : ∃ u, step settings (.thread i choice) t = some u := by
        simp only [step,found,nexts]
        exact ⟨_,rfl⟩
      have permitted : group.Permits (.thread i choice) := trivial
      exact ⟨_,u,⟨⟨permitted,attended⟩,move⟩,thread_effort inView waiting (steps permitted move)⟩
    have answered : call.pc = .testConflict → call.responseReceived = true := by
      intro here
      have silent : t.network = 0 := calling.resolve_left (by rw [here]; exact Pc.noConfusion)
      exact conflict_flag quiet untested forgotten inView same fits here silent
    by_cases idle : call.pc = .sleepRead ∧ call.responseReceived = false
    · obtain ⟨here,unset⟩ := idle
      have silent : t.network = 0 := calling.resolve_left (by rw [here]; exact Pc.noConfusion)
      obtain ⟨key,read⟩ : ∃ key, call.request = .read key := by
        rw [here] at fits
        cases request : call.request with
        | read key => exact ⟨key,rfl⟩
        | write _ =>
          rw [request] at fits
          exact fits.elim
      refine takes .expires ⟨rfl,.inr ⟨rfl,call,seen,by rw [read]; rfl,unset,?_⟩⟩ ?_ ?_
      · simp [view,silent]
      · simp only [next,read,here]
        exact ⟨_,rfl⟩
      · rintro (asked | ⟨_,go⟩)
        · exact answered asked
        · cases go
    · refine takes .go ⟨rfl,.inl rfl⟩ (next_go fits running) ?_
      rintro (asked | ⟨sleeping,_⟩)
      · exact answered asked
      · simpa [sleeping] using idle
  · obtain ⟨waiting,flying⟩ := not_or.mp calling
    obtain ⟨packet,flying⟩ := Multiset.exists_mem_of_ne_zero flying
    obtain ⟨u,move⟩ : ∃ u, step settings (.deliver packet true) t = some u := by
      simp only [step,if_pos flying]
      split_ifs <;> exact ⟨_,rfl⟩
    have attended : Attended i (view request.key t) (.deliver packet true) := by
      refine ⟨rfl,fun _ other otherFound => ?_⟩
      rw [Option.mem_def,seen] at otherFound
      cases otherFound
      exact waiting
    have permitted : group.Permits (.deliver packet true) := trivial
    refine ⟨_,u,⟨⟨permitted,attended⟩,move⟩,deliver_effort ?_ sound (steps permitted move)⟩
    obtain ⟨key,about⟩ := fixed.plain packet flying
    by_cases here : key = request.key
    · exact Multiset.mem_filter.mpr ⟨flying,here ▸ about⟩
    · -- Nothing else is going on.
      have elsewhere := congrArg KeyView.network (underway_elsewhere quiet forgotten here)
      rw [(quiet_blank quiet key).network] at elsewhere
      have other : packet ∈ (view key (forget s.calls t)).network := Multiset.mem_filter.mpr ⟨flying,about⟩
      rw [elsewhere] at other
      simp at other

/-- However far an operation has come, it can be run to quiescence. -/
theorem underway_finishes (settled : Settled group s)
    (untested : ∀ server ∈ group.servers, settings.testConflict server = false)
    (underway : Underway settings group s i server request t) :
    ∃ acts u, Run (group.Steps settings request.key (Attended i)) t acts u ∧ Performed settings group s i server request u := by
  let finished := fun u : State => u.network = 0 ∧ ∃ call, u.calls i = some call ∧ call.pc.Done
  have progress : ∀ u, Underway settings group s i server request u → ¬ finished u → ∃ a w,
      group.Steps settings request.key (Attended i) u a w ∧ Underway settings group s i server request w ∧
        effort group i (view request.key (forget s.calls w)) < effort group i (view request.key (forget s.calls u)) := by
    intro u underway unfinished
    obtain ⟨a,w,move,less⟩ := underway_progress settled untested underway unfinished
    exact ⟨a,w,move,underway.next move,less⟩
  obtain ⟨acts,u,run,now,silent,returned⟩ := Run.reach _ progress underway
  exact ⟨acts,u,run,now,silent,returned⟩

end

end CdPraticas.Completion
