import CdPraticas.Operations

/-!
# A write on its own

A write that runs alone succeeds and leaves one copy, of its value, at its server.
-/

namespace CdPraticas.Writing
open Groups Store Messages Handlers Calls Cluster Keys Runs Rounds Serial Operations

/-- DATA_WRITTEN has gone out. -/
def Informed : Pc → Prop
  | .removeWantToWrite _ | .wrote _ => True
  | _ => False

section
variable {settings : Settings} {group : Group} {key data : String} {server : SpreadGroup} {i : Nat} {v v' : KeyView}
  {previous last : Option (SpreadGroup × String)}

/-- The write is the only call. -/
def Only (key data : String) (server : SpreadGroup) (i : Nat) (v : KeyView) : Prop :=
  ∀ j call, v.calls j = some call → j = i ∧ call.server = server ∧ call.request = .write ⟨key,data⟩

theorem Only.started (blank : Blank v) (startingUp : Bool) :
    Only key data server i (v.started i (.start startingUp server (.write ⟨key,data⟩))) := by
  intro j call found
  rcases started_cases found with ⟨same,rfl⟩ | ⟨_,found⟩
  · exact ⟨same,rfl,rfl⟩
  · rw [blank.calls] at found
    cases found

theorem Only.step {a : Action} (only : Only key data server i v) (attended : Attended i v a)
    (step : KeyStep settings group key v a v') : Only key data server i v' := by
  intro j call found
  cases step with
  | elsewhere _ => exact only j call found
  | call _ _ _ => exact attended.elim
  | thread was _ =>
    rcases moved_cases found with ⟨rfl,rfl⟩ | ⟨_,found⟩
    · obtain ⟨same,here,write⟩ := only _ _ was
      exact ⟨same,here,write⟩
    · exact only j call found
  | service _ _ => exact only j call found
  | deliver _ _ _ _ =>
    obtain ⟨before,was,rfl⟩ := handled_cases found
    rw [notify_server,notify_request]
    exact only j before was

/-- A write that is attended to runs without failure and without its wait expiring. -/
theorem Only.go (only : Only key data server i v) {j : Nat} {choice : Choice} (attended : Attended i v (.thread j choice)) :
    choice = .go := by
  rcases attended.2 with go | ⟨_,caller,callerFound,read,_⟩
  · exact go
  · obtain rfl := attended.1
    rw [(only j caller callerFound).2.2] at read
    cases read

/-! ### Two servers or more -/

/-- Once DATA_WRITTEN has gone out, the other servers have no copy or are about to
    hear of it. -/
def Cleared (group : Group) (key : String) (v : KeyView) : Prop :=
  ∀ i call, v.calls i = some call → Informed call.pc → ∀ other ∈ group.others call.server,
    (v.held other).row = none ∨ ∃ packet ∈ v.network, packet.body = .regular (.dataWritten key) ∧ packet.receiver = other

theorem move_informed {participants : Int} {stored : Option DataEntity} {call : Call} {effect : Effect} {pc : Pc}
    (move : Move settings participants stored call .go effect pc) (ordinary : Ordinary call.pc)
    (write : call.request = .write ⟨key,data⟩) (calm : call.conflict = none) (more : participants ≠ 2)
    (informed : Informed pc) : Informed call.pc ∨ effect = .multicast (.dataWritten key) := by
  cases move <;> simp_all [Informed,Ordinary]

theorem informed_saved {pc : Pc} (ordinary : Ordinary pc) (informed : Informed pc) : pc.Saved := by
  cases pc <;> simp_all [Informed,Ordinary,Pc.Saved,Exit.success]

theorem Cleared.of_moved (cleared : Cleared group key v) (orderly : Orderly group key previous last v)
    (only : Only key data server i v) (more : (group.members.length : Int) ≠ 2) {j : Nat} {call : Call} {effect : Effect} {pc : Pc}
    (found : v.calls j = some call)
    (move : Move settings group.members.length (v.held call.server).row call .go effect pc) :
    Cleared group key (v.moved group j call effect pc) := by
  intro k caller was informed other member
  rcases moved_cases was with ⟨rfl,rfl⟩ | ⟨different,was⟩
  · obtain ⟨otherIn,elsewhere⟩ := Group.mem_others.mp member
    rw [goto_server] at elsewhere
    rw [moved_held_ne _ _ _ elsewhere]
    obtain ⟨ordinary,calm⟩ := orderly.ordinary k call found
    rcases move_informed move ordinary (only k call found).2.2 calm more informed with before | rfl
    · refine (cleared k call found before other member).imp_right ?_
      rintro ⟨packet,flying,told⟩
      exact ⟨packet,Multiset.mem_add.mpr (.inl flying),told⟩
    · refine .inr ⟨⟨other,call.server,.regular (.dataWritten key),some k⟩,?_,rfl,rfl⟩
      rw [moved_network,Effect.sends,packets_multicast]
      refine Multiset.mem_add.mpr (.inr (Multiset.mem_coe.mpr (List.mem_map.mpr ⟨other,?_,rfl⟩)))
      exact (Group.mem_servers.mp otherIn).1
  · exact absurd ((only k caller was).1.trans (only j call found).1.symm) different

theorem delivery_none {me sender : SpreadGroup} {held held' : Fields} {message : Message} {sends : List Send}
    {callbacks : List Callback} (delivery : Delivery settings me sender held message held' sends callbacks)
    (noRow : held.row = none) : held'.row = none := by
  cases delivery with
  | granted _ _ => simp [noRow]
  | deleted _ _ => rfl
  | _ => exact noRow

theorem Cleared.of_handled (cleared : Cleared group key v)
    (orderly : Orderly group key previous (some (server,data)) v)
    (only : Only key data server i v) (sound : Sound group key v) (formed : Formed group v) {packet : Packet} {sent : Bool}
    {message : Message} {held : Fields} {sends : List Send} {callbacks : List Callback} (flying : packet ∈ v.network)
    (plain : isService packet.receiver = false) (body : packet.body = .regular message)
    (handled : Handled settings group.members.length packet.receiver packet.sender (v.held packet.receiver) message held
      sends callbacks) : Cleared group key (v.handled group packet sent held sends callbacks) := by
  have delivery := orderly.delivery sound formed flying plain body handled
  intro j caller was informed other member
  obtain ⟨before,found,rfl⟩ := handled_cases was
  rw [notify_pc] at informed
  rw [notify_server] at member
  rcases cleared j before found informed other member with none | ⟨told,inside,toldBody,receiver⟩
  · refine .inl ?_
    by_cases here : other = packet.receiver
    · subst here
      rw [handled_held_self]
      exact delivery_none delivery none
    · rw [handled_held_ne _ _ _ _ _ here]
      exact none
  · by_cases same : told = packet
    · subst same
      subst receiver
      rw [body] at toldBody
      cases toldBody
      refine .inl ?_
      rw [handled_held_self]
      cases handled with
      | deleted _ _ _ => rfl
      | ignored why =>
        -- The writer is elsewhere, and no other server has a valid copy.
        obtain ⟨_,_,_,k,writer,tag,writerFound⟩ := sound.flying told flying
        obtain ⟨sender,_⟩ := formed.owned told flying _ k writer body tag writerFound
        obtain ⟨rfl,rfl,_⟩ := only k writer writerFound
        obtain ⟨rfl,here,_⟩ := only j before found
        rw [here] at member
        have saved : ∀ l caller, v.calls l = some caller → caller.pc.Done ∨ caller.pc.Saved := by
          intro l caller callerFound
          obtain rfl := (only l caller callerFound).1
          rw [found] at callerFound
          cases callerFound
          exact .inr (informed_saved (orderly.ordinary _ before found).1 informed)
        have copy := orderly.copy _ data rfl saved
        rcases why with own | valid
        · exact absurd (own.symm.trans sender) (Group.mem_others.mp member).2
        · by_contra some
          obtain ⟨entity,stored⟩ := Option.ne_none_iff_exists'.mp some
          exact copy.others _ member entity stored (valid entity stored)
    · exact .inr ⟨told,Multiset.mem_add.mpr (.inl ((Multiset.mem_erase_of_ne same).mpr inside)),toldBody,receiver⟩

theorem Cleared.of_dropped (cleared : Cleared group key v) {packet : Packet} (service : isService packet.receiver = true) :
    Cleared group key (v.dropped packet) := by
  intro j call found informed other member
  refine (cleared j call found informed other member).imp_right ?_
  rintro ⟨told,inside,body,receiver⟩
  refine ⟨told,(Multiset.mem_erase_of_ne ?_).mpr inside,body,receiver⟩
  rintro rfl
  rw [receiver,(Group.mem_servers.mp (Group.mem_others.mp member).1).2] at service
  cases service

/-- All that holds while the write is alone in a group of two servers or more. -/
structure Alone (group : Group) (key data : String) (server : SpreadGroup) (i : Nat) (v : KeyView) : Prop where
  only : Only key data server i v
  orderly : Orderly group key none (some (server,data)) v
  inRound : InRound group v
  cleared : Cleared group key v

theorem Alone.step {a : Action} (alone : Alone group key data server i v) (sound : Sound group key v)
    (more : 3 ≤ group.members.length) (attended : Attended i v a) (step : KeyStep settings group key v a v') :
    Alone group key data server i v' := by
  have serially : Serially key v a := by
    cases a with
    | call _ _ _ => exact attended.elim
    | thread _ _ => exact fun _ => alone.only.go attended
    | _ => trivial
  have noWrite : writeOf key a = none := by
    cases a with
    | call _ _ _ => exact attended.elim
    | _ => rfl
  obtain ⟨orderly,inRound⟩ := alone.orderly.step sound alone.inRound more serially step
  rw [noWrite] at orderly
  refine ⟨alone.only.step attended step,orderly,inRound,?_⟩
  cases step with
  | elsewhere _ => exact alone.cleared
  | call _ _ _ => exact attended.elim
  | thread found move =>
    have go := alone.only.go attended
    subst go
    exact alone.cleared.of_moved alone.orderly alone.only (by omega) found move
  | service _ ignoring => exact alone.cleared.of_dropped ignoring
  | deliver flying plain body handled =>
    exact alone.cleared.of_handled alone.orderly alone.only sound alone.inRound.formed flying plain body handled

theorem Alone.of_started (blank : Blank v) (sound : Sound group key v) (startingUp : Bool)
    (orderly : Orderly group key none none v) (inRound : InRound group v) :
    Alone group key data server i (v.started i (.start startingUp server (.write ⟨key,data⟩))) := by
  refine ⟨.started blank _,orderly.of_started sound _ (blank.calls i) ?_,
    ⟨inRound.formed.of_started sound _ (blank.calls i),inRound.tallied.of_started sound _ (blank.calls i)⟩,?_⟩
  · intro j call found
    rw [blank.calls] at found
    cases found
  · intro j call found informed
    rcases started_cases found with ⟨_,rfl⟩ | ⟨_,found⟩
    · exact informed.elim
    · rw [blank.calls] at found
      cases found

/-! ### A single server -/

/-- All that holds while the write is alone at the only server. -/
structure Solo (key data : String) (server : SpreadGroup) (i : Nat) (v : KeyView) : Prop where
  only : Only key data server i v
  silent : v.network = 0
  slot : ∀ g, (v.held g).slot = none
  here : ∀ call, v.calls i = some call → call.pc = .writeData ∨ call.pc = .saveAlone ∨
    call.pc = .wrote .alone ∧ (v.held server).row = some (.ofDto ⟨key,data⟩)

theorem Solo.step {a : Action} (solo : Solo key data server i v) (two : group.members.length = 2)
    (attended : Attended i v a) (step : KeyStep settings group key v a v') : Solo key data server i v' := by
  have only := solo.only.step attended step
  cases step with
  | elsewhere _ => exact solo
  | call _ _ _ => exact attended.elim
  | @thread j _ call effect pc found move =>
    have go := solo.only.go attended
    subst go
    obtain rfl := attended.1
    obtain ⟨_,rfl,write⟩ := solo.only j call found
    have now : ∀ {other}, (v.moved group j call effect pc).calls j = some other → other = call.goto pc := by
      intro other was
      rw [moved_self] at was
      exact (Option.some.inj was).symm
    have quiet : effect.sends = [] ∧ ∀ g, ((v.moved group j call effect pc).held g).slot = none := by
      have own : effect.sends = [] ∧ (access j (v.held call.server) effect).slot = (v.held call.server).slot := by
        rcases solo.here call found with here | here | ⟨here,_⟩ <;> cases move <;> simp_all [Effect.sends,access]
      refine ⟨own.1,fun g => ?_⟩
      by_cases same : g = call.server
      · subst same
        rw [moved_held_self,own.2]
        exact solo.slot _
      · rw [moved_held_ne _ _ _ same]
        exact solo.slot g
    refine ⟨only,?_,quiet.2,fun other was => ?_⟩
    · rw [moved_network,quiet.1,solo.silent]
      rfl
    · rw [now was,goto_pc,moved_held_self]
      rcases solo.here call found with here | here | ⟨here,_⟩
      · cases move <;> simp_all
      · cases move <;> simp_all [access]
      · exact absurd (by rw [here]; trivial) move.not_done
  | service flying _ | deliver flying _ _ _ =>
    rw [solo.silent] at flying
    simp at flying

/-! ### What a write leaves -/

/-- What holds while a write runs on its own, with other servers in the group -/
theorem write_underway {s t : State} (quiet : Quiet group s) (more : 3 ≤ group.members.length)
    (underway : Underway settings group s i server (.write ⟨key,data⟩) t) :
    Alone group key data server i (view key t) ∧ Answered group (view key t) := by
  obtain ⟨⟨acts,run⟩,_⟩ := underway_view quiet underway (show (Request.write ⟨key,data⟩).key = key from rfl)
  have blank := quiet_blank quiet key
  refine run.always (P := fun v => Alone group key data server i v ∧ Answered group v)
    ⟨.of_started blank (quiet.fixed.sound key) _ (quiet_orderly quiet) ⟨quiet_formed quiet,quiet_tallied quiet⟩,
      .of_started blank⟩ ?_
  rintro v a v' ⟨alone,answered⟩ ⟨sound,attended,step⟩
  exact ⟨alone.step sound more attended step,answered.step step⟩

/-- and without. -/
theorem solo_underway {s t : State} (quiet : Quiet group s) (two : group.members.length = 2)
    (underway : Underway settings group s i server (.write ⟨key,data⟩) t) :
    Solo key data server i (view key t) ∧ Answered group (view key t) := by
  obtain ⟨⟨acts,run⟩,_⟩ := underway_view quiet underway (show (Request.write ⟨key,data⟩).key = key from rfl)
  have blank := quiet_blank quiet key
  refine run.always (P := fun v => Solo key data server i v ∧ Answered group v)
    ⟨⟨.started blank _,blank.network,blank.slot,fun other was => ?_⟩,.of_started blank⟩ ?_
  · rw [started_self] at was
    cases was
    exact .inl rfl
  · rintro v a v' ⟨solo,answered⟩ ⟨_,attended,step⟩
    exact ⟨solo.step two attended step,answered.step step⟩

/-- A write that has run alone succeeds, and the databases hold its value. -/
theorem write_leaves {s t : State} (quiet : Quiet group s)
    (startedUp : ∀ server ∈ group.servers, group.startingUp server = false)
    (performed : Performed settings group s i server (.write ⟨key,data⟩) t) :
    Leaves group (view key t) i .void (some data) := by
  have member : server ∈ group.servers := performed.underway.1
  obtain ⟨_,_,fixed,noMessages,call,found,done⟩ :=
    performed_view quiet performed (show (Request.write ⟨key,data⟩).key = key from rfl)
  have size := Group.others_length member
  have returned : Only key data server i (view key t) → ∀ j other, (view key t).calls j = some other → j = i ∧ other.pc.Done := by
    intro only j other was
    obtain ⟨rfl,_⟩ := only j other was
    rw [found] at was
    cases was
    exact ⟨rfl,done⟩
  have noReader : Only key data server i (view key t) → ∀ g, ((view key t).held g).waiting = none := by
    intro only g
    by_contra some
    obtain ⟨j,waiting⟩ := Option.ne_none_iff_exists'.mp some
    obtain ⟨reader,readerFound,_,read⟩ := (fixed.sound key).waiting g j waiting
    rw [(only j reader readerFound).2.2] at read
    cases read
  by_cases more : 3 ≤ group.members.length
  · obtain ⟨alone,final⟩ := write_underway quiet more performed.underway
    obtain ⟨_,here,write⟩ := alone.only i call found
    obtain ⟨ordinary,_⟩ := alone.orderly.ordinary i call found
    have fits := (fixed.sound key).fits i call found
    have pc : call.pc = .wrote .allResponses := by
      rw [write] at fits
      cases pc : call.pc <;> simp_all [Pc.Done,Ordinary,Pc.Fits]
    have copy := alone.orderly.copy server data rfl fun j other was => by
      obtain rfl := (alone.only j other was).1
      rw [found] at was
      cases was
      exact .inl done
    refine ⟨⟨call,found,?_⟩,returned alone.only,⟨fun g gIn entity row => ?_,fun value same => ?_⟩,noReader alone.only,fun g => ?_⟩
    · rw [final i call found (startedUp _ (here ▸ member)),pc]
      rfl
    · by_cases same : g = server
      · subst same
        rw [copy.row] at row
        cases row
        exact ⟨valid_ofDto _,rfl⟩
      · have other := Group.mem_others.mpr ⟨gIn,same⟩
        rcases alone.cleared i call found (by rw [pc]; trivial) g (here ▸ other) with gone | ⟨packet,flying,_⟩
        · rw [gone] at row
          cases row
        · rw [noMessages] at flying
          simp at flying
    · cases same
      exact ⟨server,member,_,copy.row⟩
    · by_contra some
      obtain ⟨wanted,slot⟩ := Option.ne_none_iff_exists'.mp some
      obtain ⟨writer,writerFound,_⟩ := (fixed.sound key).wanting g wanted slot
      have registered := alone.orderly.slot g wanted writer slot writerFound
      obtain ⟨same,_⟩ := alone.only _ writer writerFound
      rw [same,found] at writerFound
      cases writerFound
      exact registered_not_done registered done
  · have two : group.members.length = 2 := by omega
    obtain ⟨solo,final⟩ := solo_underway quiet two performed.underway
    obtain ⟨_,here,_⟩ := solo.only i call found
    obtain ⟨pc,row⟩ : call.pc = .wrote .alone ∧ ((view key t).held server).row = some (.ofDto ⟨key,data⟩) := by
      rcases solo.here call found with pc | pc | saved
      · rw [pc] at done
        exact done.elim
      · rw [pc] at done
        exact done.elim
      · exact saved
    have alone : ∀ g ∈ group.servers, g = server := by
      intro g gIn
      by_contra different
      have other := Group.mem_others.mpr ⟨gIn,different⟩
      have some := List.length_pos_of_mem other
      omega
    refine ⟨⟨call,found,?_⟩,returned solo.only,⟨fun g gIn entity stored => ?_,fun value same => ?_⟩,noReader solo.only,solo.slot⟩
    · rw [final i call found (startedUp _ (here ▸ member)),pc]
      rfl
    · rw [alone g gIn,row] at stored
      cases stored
      exact ⟨valid_ofDto _,rfl⟩
    · cases same
      exact ⟨server,member,_,row⟩

end

end CdPraticas.Writing
