import CdPraticas.Serial

/-!
# Writes that are given up

What a write whose wait expires leaves of a key, when no other operation on the
key runs.
-/

namespace CdPraticas.Aborts
open Groups Store Messages Handlers Calls Cluster Keys Runs Rounds Serial

/-- What is stored: the value, and whether it is valid. -/
def copy (row : Option DataEntity) : Option (String × Bool) := row.map fun entity => (entity.data,decide entity.Valid)

/-- Nothing runs on the key and no message about it is on its way. -/
def Resting (v : KeyView) : Prop := Idle v ∧ v.network = 0

/-- No other call on the key comes in. -/
def Unaccompanied (key : String) (_ : KeyView) : Action → Prop
  | .call _ _ request => request.key ≠ key
  | _ => True

instance (key : String) (v : KeyView) : DecidablePred (Unaccompanied key v)
  | .call _ _ request => inferInstanceAs (Decidable (request.key ≠ key))
  | .thread _ _ | .deliver _ _ | .view _ | .boot _ => isTrue trivial

/-- How a delivery at `server` flags its copy: REVALIDATE_DATA makes it valid, and
    WANT_TO_WRITE invalid unless the server has a round of its own registered. -/
def flagged (key : String) (server : SpreadGroup) (registered : Bool) : Action → Option Bool
  | .deliver packet _ =>
    if packet.receiver = server then
      match packet.body with
      | .regular (.wantToWrite data) => if data.key = key ∧ registered = false then some true else none
      | .regular (.revalidateData about) => if about = key then some false else none
      | _ => none
    else none
  | _ => none

/-- The flag that `server` set last, from the state before the write on. -/
def lastFlag (key : String) (v : KeyView) (server : SpreadGroup) (acts : List Action) : Option Bool :=
  lastOf (flagged key server (v.held server).slot.isSome) acts

def flagAs (last : Option Bool) (entity : DataEntity) : DataEntity :=
  match last with
  | some flag => entity.setInvalidate flag
  | none => entity

/-- The write undoes what it did: the copy at its own server was invalid before it,
    and every other server that holds a copy set its flag last to what it was. -/
def Undone (group : Group) (key : String) (v : KeyView) (server : SpreadGroup) (acts : List Action) : Prop :=
  (∀ entity, (v.held server).row = some entity → ¬ entity.Valid) ∧
    ∀ other ∈ group.others server, ∀ entity, (v.held other).row = some entity →
      ∀ flag, lastFlag key v other acts = some flag → (entity.Valid ↔ flag = false)

/-! ### On the way to an expired wait -/

/-- Where a write stands whose wait can still expire or has expired. -/
def Expiring : Pc → Prop
  | .writeData | .putWantToWrite | .findInvalidate | .saveInvalidate _ | .sendWantToWrite | .testResponse | .sleepWrite
  | .testConflict | .sendRevalidate => True
  | .removeWantToWrite exit | .wrote exit => exit = .timeout
  | _ => False

/-- What the server of such a write holds where it held `row` before. -/
def ownRow (row : Option DataEntity) : Pc → Option DataEntity
  | .writeData | .putWantToWrite | .findInvalidate | .saveInvalidate _ => row
  | _ => row.map (DataEntity.setInvalidate · true)

/-- The messages of such a write. -/
def Told (server : SpreadGroup) (packet : Packet) : Message → Prop
  | .wantToWrite _ | .revalidateData _ => packet.sender = server
  | .wantToWriteResponse _ | .writeConflict _ => True
  | _ => False

/-- Since `v₀` nothing else has happened to the key than what such a write does. -/
structure Waits (group : Group) (key data : String) (server : SpreadGroup) (v₀ : KeyView) (acts : List Action) (v : KeyView)
    (call : Call) : Prop where
  here : call.server = server
  write : call.request = .write ⟨key,data⟩
  own : (v.held server).row = ownRow (v₀.held server).row call.pc
  saving : ∀ entity, call.pc = .saveInvalidate entity → (v₀.held server).row.map (DataEntity.setInvalidate · true) = some entity
  slots : ∀ other ∈ group.others server, (v.held other).slot.isSome = (v₀.held other).slot.isSome
  rows : ∀ other ∈ group.others server,
    (v.held other).row = (v₀.held other).row.map (flagAs (lastFlag key v₀ other acts))
  told : ∀ packet ∈ v.network, ∀ message, packet.body = .regular message → Told server packet message

/-- Call `i` is the only one that runs, and as long as its wait can expire it has
    done nothing else. -/
structure Trying (group : Group) (key data : String) (server : SpreadGroup) (i : Nat) (v₀ : KeyView) (acts : List Action)
    (v : KeyView) : Prop where
  only : ∀ j call, v.calls j = some call → ¬ call.pc.Done → j = i
  waits : ∀ call, v.calls i = some call → Expiring call.pc → Waits group key data server v₀ acts v call

section
variable {settings : Settings} {group : Group} {key data : String} {server : SpreadGroup} {i : Nat} {v₀ v v' : KeyView}
  {acts : List Action}

theorem lastFlag_snoc (key : String) (v : KeyView) (other : SpreadGroup) (acts : List Action) (a : Action) :
    lastFlag key v other (acts ++ [a]) =
      (flagged key other (v.held other).slot.isSome a).or (lastFlag key v other acts) := lastOf_snoc _ _ _

theorem flagAs_flagAs (entity : DataEntity) (first second : Option Bool) :
    flagAs second (flagAs first entity) = flagAs (second.or first) entity := by
  cases second <;> cases first <;> rfl

theorem Resting.trying (resting : Resting v) (startingUp : Bool) :
    Trying group key data server i v [] (v.started i (.start startingUp server (.write ⟨key,data⟩))) := by
  refine ⟨?_,?_⟩
  · intro j call found running
    rcases started_cases found with ⟨same,_⟩ | ⟨_,found⟩
    · exact same
    · exact absurd (resting.1 j call found) running
  · intro call found _
    rw [started_self] at found
    cases found
    refine ⟨rfl,rfl,rfl,fun _ here => (by cases here),fun _ _ => rfl,fun other _ => ?_,?_⟩
    · have unflagged : flagAs (lastFlag key v other []) = id := rfl
      rw [unflagged,Option.map_id]
      rfl
    · intro packet flying
      rw [started_network,resting.2] at flying
      exact absurd flying (Multiset.notMem_zero packet)

/-- Only from such a place does a step lead to one. -/
theorem move_expiring {participants : Int} {stored : Option DataEntity} {call : Call} {choice : Choice} {effect : Effect}
    {pc : Pc} (move : Move settings participants stored call choice effect pc) (write : call.request = .write ⟨key,data⟩)
    (fits : call.pc.Fits call.request) (expiring : Expiring pc) : Expiring call.pc := by
  cases move with
  | sendDataWritten _ here | dataWrittenFails _ here =>
    rw [here,write] at fits
    rcases fits with rfl | rfl <;> cases expiring
  | _ => simp_all [Expiring]

/-- The server's own row under such a step. -/
theorem move_ownRow {participants : Int} {held : Fields} {row : Option DataEntity} {call : Call} {choice : Choice}
    {effect : Effect} {pc : Pc} (move : Move settings participants held.row call choice effect pc)
    (before : Expiring call.pc) (after : Expiring pc)
    (own : held.row = ownRow row call.pc)
    (saving : ∀ entity, call.pc = .saveInvalidate entity → row.map (DataEntity.setInvalidate · true) = some entity) :
    (access i held effect).row = ownRow row pc ∧
    ∀ entity, pc = .saveInvalidate entity → row.map (DataEntity.setInvalidate · true) = some entity := by
  cases move with
  | foundRow _ here found =>
    rw [here] at own
    refine ⟨own,fun entity leads => ?_⟩
    cases leads
    have stored : row = some _ := own.symm.trans found
    rw [stored]
    rfl
  | noRow _ here none =>
    rw [here] at own
    have nothing : row = .none := own.symm.trans none
    refine ⟨?_,fun _ leads => (by cases leads)⟩
    rw [nothing]
    exact none
  | saveInvalidate _ here => exact ⟨(saving _ here).symm,fun _ leads => (by cases leads)⟩
  | _ =>
    refine ⟨?_,fun _ leads => (by cases leads)⟩
    first
      | exact after.elim
      | simp_all [access,ownRow,Expiring]

/-- What such a step sends. -/
theorem move_told {participants : Int} {stored : Option DataEntity} {call : Call} {choice : Choice} {effect : Effect}
    {pc : Pc} (move : Move settings participants stored call choice effect pc) (before : Expiring call.pc) {packet : Packet}
    (sent : packet ∈ packets group.members call.server (some i) effect.sends) {message : Message}
    (body : packet.body = .regular message) : Told call.server packet message := by
  obtain ⟨sender,send,inside,same⟩ := packets_carry sent
  rw [body] at same
  cases move with
  | sendWantToWrite _ _ | sendRevalidate _ _ =>
    rw [List.mem_singleton.mp inside] at same
    cases same
    exact sender
  | sendDataWritten _ here | sendAskData _ here =>
    rw [here] at before
    exact before.elim
  | _ => cases inside

theorem Trying.of_moved (trying : Trying group key data server i v₀ acts v) (sound : Sound group key v) {j : Nat}
    {choice : Choice} {call : Call} {effect : Effect} {pc : Pc} (found : v.calls j = some call)
    (move : Move settings group.members.length (v.held call.server).row call choice effect pc) :
    Trying group key data server i v₀ (acts ++ [.thread j choice]) (v.moved group j call effect pc) := by
  obtain rfl := trying.only j call found move.not_done
  refine ⟨?_,?_⟩
  · intro k other was running
    rcases moved_cases was with ⟨same,_⟩ | ⟨_,was⟩
    · exact same
    · exact trying.only k other was running
  · intro after now expiring
    rw [moved_self] at now
    cases now
    rw [goto_pc] at expiring
    have data' : ∃ dataDto, call.request = .write dataDto := by
      have fits := (sound.of_moved found move).fits j _ (moved_self ..)
      rw [goto_pc,goto_request] at fits
      cases request : call.request with
      | write dataDto => exact ⟨dataDto,rfl⟩
      | read about =>
        rw [request] at fits
        cases pc <;> first | exact fits.elim | exact expiring.elim
    obtain ⟨dataDto,write⟩ := data'
    have before : Expiring call.pc := move_expiring move write (sound.fits j call found) expiring
    have waits := trying.waits call found before
    obtain rfl := waits.here
    have own := move_ownRow (i := j) move before expiring waits.own waits.saving
    refine ⟨rfl,waits.write,?_,own.2,?_,?_,?_⟩
    · rw [moved_held_self]
      exact own.1
    · intro other member
      rw [moved_held_ne _ _ _ (Group.mem_others.mp member).2]
      exact waits.slots other member
    · intro other member
      rw [moved_held_ne _ _ _ (Group.mem_others.mp member).2,lastFlag_snoc]
      exact waits.rows other member
    · intro packet flying message body
      rcases Multiset.mem_add.mp flying with flying | sent
      · exact waits.told packet flying message body
      · exact move_told move before sent body

/-- A message of such a write leaves the copy at its own server alone, -/
theorem handled_own {participants : Int} {packet : Packet} {held held' : Fields} {message : Message} {sends : List Send}
    {callbacks : List Callback} (told : Told packet.receiver packet message)
    (handled : Handled settings participants packet.receiver packet.sender held message held' sends callbacks) :
    held'.row = held.row := by
  cases handled with
  | granted foreign _ | revalidated foreign _ => exact absurd told foreign
  | deleted _ _ _ => exact told.elim
  | _ => rfl

/-- and flags it elsewhere. -/
theorem handled_flagged {participants : Int} {packet : Packet} {held held' : Fields} {message : Message} {sends : List Send}
    {callbacks : List Callback} (sent : Bool) (told : Told server packet message) (away : packet.receiver ≠ server)
    (body : packet.body = .regular message) (about : message.key? = some key)
    (handled : Handled settings participants packet.receiver packet.sender held message held' sends callbacks) :
    held'.row = held.row.map (flagAs (flagged key packet.receiver held.slot.isSome (.deliver packet sent))) ∧
    held'.slot.isSome = held.slot.isSome := by
  cases handled with
  | @ignored message why =>
    refine ⟨?_,rfl⟩
    cases message with
    | wantToWrite data => exact absurd (why.symm.trans told) away
    | revalidateData about =>
      rcases why with own | none
      · exact absurd (own.symm.trans told) away
      · rw [none]
        rfl
    | wantToWriteResponse _ | writeConflict _ =>
      rw [flagged,body,if_pos rfl]
      exact (congrFun Option.map_id held.row).symm
    | _ => exact told.elim
  | granted _ free =>
    cases about
    rw [flagged,body,if_pos rfl,free]
    simp only [Option.isSome_none,and_self,↓reduceIte]
    exact ⟨rfl,trivial⟩
  | refused _ writing =>
    rw [flagged,body,if_pos rfl,writing]
    simp only [Option.isSome_some,Bool.true_eq_false,and_false,↓reduceIte]
    exact ⟨(congrFun Option.map_id held.row).symm,trivial⟩
  | counted writing =>
    rw [flagged,body,if_pos rfl,writing]
    exact ⟨(congrFun Option.map_id held.row).symm,rfl⟩
  | disturbed _ _ =>
    rw [flagged,body,if_pos rfl]
    exact ⟨(congrFun Option.map_id held.row).symm,rfl⟩
  | revalidated _ stored =>
    cases about
    rw [flagged,body,if_pos rfl,stored]
    simp only [↓reduceIte]
    exact ⟨rfl,trivial⟩
  | _ => exact told.elim

theorem handled_told {participants : Int} {packet new : Packet} {held held' : Fields} {message reply : Message}
    {sends : List Send} {callbacks : List Callback}
    (handled : Handled settings participants packet.receiver packet.sender held message held' sends callbacks)
    (told : Told server packet message) (sent : new ∈ packets group.members packet.receiver packet.call sends)
    (body : new.body = .regular reply) : Told server new reply := by
  obtain ⟨_,send,inside,same⟩ := packets_carry sent
  rw [body] at same
  cases handled with
  | answered _ _ _ => exact told.elim
  | granted _ _ =>
    split_ifs at inside
    · cases inside
    · rw [List.mem_singleton.mp inside] at same
      cases same
      trivial
  | refused _ _ =>
    rw [List.mem_singleton.mp inside] at same
    cases same
    trivial
  | _ => cases inside

theorem Trying.of_handled (trying : Trying group key data server i v₀ acts v) (sound : Sound group key v) {packet : Packet}
    {sent : Bool} {message : Message} {held : Fields} {sends : List Send} {callbacks : List Callback}
    (flying : packet ∈ v.network) (body : packet.body = .regular message)
    (handled : Handled settings group.members.length packet.receiver packet.sender (v.held packet.receiver) message held
      sends callbacks) :
    Trying group key data server i v₀ (acts ++ [.deliver packet sent])
      (v.handled group packet sent held sends callbacks) := by
  refine ⟨?_,?_⟩
  · intro j other now running
    obtain ⟨before,was,rfl⟩ := handled_cases now
    exact trying.only j before was (by simpa using running)
  · intro after now expiring
    obtain ⟨call,found,rfl⟩ := handled_cases now
    rw [notify_pc] at expiring
    have waits := trying.waits call found expiring
    have told := waits.told packet flying message body
    obtain ⟨_,_,⟨message',body',about⟩,_⟩ := sound.flying packet flying
    rw [body] at body'
    cases body'
    refine ⟨by simpa using waits.here,by simpa using waits.write,?_,by simpa using waits.saving,?_,?_,?_⟩
    · rw [notify_pc,← waits.own]
      by_cases here : server = packet.receiver
      · subst here
        rw [handled_held_self]
        exact handled_own told handled
      · rw [handled_held_ne _ _ _ _ _ here]
    · intro other member
      by_cases here : other = packet.receiver
      · subst here
        have left := handled_flagged sent told (Group.mem_others.mp member).2 body about handled
        rw [handled_held_self,left.2]
        exact waits.slots _ member
      · rw [handled_held_ne _ _ _ _ _ here]
        exact waits.slots other member
    · intro other member
      rw [lastFlag_snoc]
      by_cases here : other = packet.receiver
      · subst here
        have left := handled_flagged sent told (Group.mem_others.mp member).2 body about handled
        rw [handled_held_self,left.1,waits.rows _ member,waits.slots _ member,Option.map_map]
        congr 1
        funext entity
        exact flagAs_flagAs ..
      · have unflagged : flagged key other (v₀.held other).slot.isSome (.deliver packet sent) = none := if_neg (Ne.symm here)
        rw [handled_held_ne _ _ _ _ _ here,unflagged]
        exact waits.rows other member
    · intro new flying' reply newBody
      rcases Multiset.mem_add.mp flying' with old | new'
      · exact waits.told new (Multiset.mem_of_mem_erase old) reply newBody
      · split_ifs at new'
        · exact handled_told handled told new' newBody
        · exact absurd new' (Multiset.notMem_zero new)

/-- An action that flags nothing and leaves the key as it is. -/
theorem Trying.same (trying : Trying group key data server i v₀ acts v) {a : Action}
    (unflagged : ∀ other ∈ group.others server, ∀ registered, flagged key other registered a = none) :
    Trying group key data server i v₀ (acts ++ [a]) v := by
  refine ⟨trying.only,fun call found expiring => ?_⟩
  have waits := trying.waits call found expiring
  refine ⟨waits.here,waits.write,waits.own,waits.saving,waits.slots,fun other member => ?_,waits.told⟩
  rw [lastFlag_snoc,unflagged other member]
  exact waits.rows other member

theorem flagged_elsewhere {other : SpreadGroup} {registered : Bool} {a : Action} (away : v.Elsewhere key a) :
    flagged key other registered a = none := by
  cases a with
  | deliver packet sent =>
    have away : packet.body.key? ≠ some key := away
    simp only [flagged]
    split
    · split
      next data body =>
        have different : data.key ≠ key := fun same => away (by rw [body]; exact congrArg some same)
        rw [if_neg (fun both => different both.1)]
      next about body =>
        have different : about ≠ key := fun same => away (by rw [body]; exact congrArg some same)
        rw [if_neg different]
      next => rfl
    · rfl
  | _ => rfl

theorem Trying.step {a : Action} (trying : Trying group key data server i v₀ acts v) (sound : Sound group key v)
    (unaccompanied : Unaccompanied key v a) (move : KeyStep settings group key v a v') :
    Trying group key data server i v₀ (acts ++ [a]) v' := by
  cases move with
  | elsewhere away => exact trying.same fun _ _ _ => flagged_elsewhere away
  | call _ _ about => exact absurd about unaccompanied
  | thread found move => exact trying.of_moved sound found move
  | @service packet sent flying ignoring =>
    have unflagged : ∀ other ∈ group.others server, ∀ registered, flagged key other registered (.deliver packet sent) = none := by
      intro other member registered
      have plain := (Group.mem_servers.mp (Group.mem_others.mp member).1).2
      refine if_neg ?_
      rintro rfl
      rw [ignoring] at plain
      cases plain
    have same := trying.same unflagged
    refine ⟨same.only,fun call found expiring => ?_⟩
    have waits := same.waits call found expiring
    exact ⟨waits.here,waits.write,waits.own,waits.saving,waits.slots,waits.rows,
      fun other flying' => waits.told other (Multiset.mem_of_mem_erase flying')⟩
  | deliver flying _ body handled => exact trying.of_handled sound flying body handled

/-! ### What is left at the end -/

theorem copy_setInvalidate (row : Option DataEntity) (flag : Bool) :
    copy (row.map (DataEntity.setInvalidate · flag)) = copy row ↔
      ∀ entity, row = some entity → (entity.Valid ↔ flag = false) := by
  cases row with
  | none => simp [copy]
  | some entity =>
    simp only [copy,Option.map_some,Option.some.injEq,Prod.mk.injEq,setInvalidate_data,true_and,decide_eq_decide,
      valid_setInvalidate,forall_eq']
    exact Iff.comm

theorem copy_flag (row : Option DataEntity) (last : Option Bool) :
    copy (row.map (flagAs last)) = copy row ↔
      ∀ entity, row = some entity → ∀ flag, last = some flag → (entity.Valid ↔ flag = false) := by
  cases last with
  | none =>
    have same : row.map (flagAs none) = row := congrFun Option.map_id row
    simp [same]
  | some flag =>
    have unfolded : row.map (flagAs (some flag)) = row.map (DataEntity.setInvalidate · flag) := rfl
    rw [unfolded,copy_setInvalidate]
    simp

theorem Waits.undone_iff {call : Call} (waits : Waits group key data server v₀ acts v call)
    (expired : call.pc = .wrote .timeout) (member : server ∈ group.servers) :
    (∀ other ∈ group.servers, copy (v.held other).row = copy (v₀.held other).row) ↔ Undone group key v₀ server acts := by
  have own : copy (v.held server).row = copy (v₀.held server).row ↔
      ∀ entity, (v₀.held server).row = some entity → ¬ entity.Valid := by
    have held : ownRow (v₀.held server).row (.wrote .timeout) = (v₀.held server).row.map (DataEntity.setInvalidate · true) := rfl
    rw [waits.own,expired,held,copy_setInvalidate]
    simp
  have others : ∀ other ∈ group.others server, copy (v.held other).row = copy (v₀.held other).row ↔
      ∀ entity, (v₀.held other).row = some entity → ∀ flag, lastFlag key v₀ other acts = some flag →
        (entity.Valid ↔ flag = false) := by
    intro other inside
    rw [waits.rows other inside]
    exact copy_flag _ _
  constructor
  · intro same
    refine ⟨own.mp (same server member),fun other inside => ?_⟩
    exact (others other inside).mp (same other (Group.mem_others.mp inside).1)
  · rintro ⟨invalid,restored⟩ other inside
    by_cases here : other = server
    · subst here
      exact own.mpr invalid
    · have elsewhere := Group.mem_others.mpr ⟨inside,here⟩
      exact (others other elsewhere).mpr (restored other elsewhere)

variable {s u t : State}

/-- A write of a key that gives up, with no other operation on the key and none before
    it still under way, leaves every server with what it had stored exactly when the
    write is undone. -/
theorem aborted_write_restores_iff {call : Call} (fixed : Fixed group s) (resting : Resting (view key s))
    (member : server ∈ group.servers) (begins : Cluster.step settings (.call i server (.write ⟨key,data⟩)) s = some u)
    (run : Run (group.Steps settings key (Unaccompanied key)) u acts t) (found : t.calls i = some call)
    (expired : call.pc = .wrote .timeout) :
    (∀ other ∈ group.servers, copy ((t.servers other).database.findById key) = copy ((s.servers other).database.findById key)) ↔
      Undone group key (view key s) server acts := by
  have started : view key u = (view key s).started i (.start (group.startingUp server) server (.write ⟨key,data⟩)) := by
    have first : KeyStep settings group key (view key s) (.call i server (.write ⟨key,data⟩)) (view key u) :=
      view_step_call fixed member begins
    generalize view key u = after at first
    cases first with
    | elsewhere away => exact absurd rfl away
    | call _ _ _ => rfl
  obtain ⟨seen,fixed'⟩ := view_run (fixed.step (a := .call i server (.write ⟨key,data⟩)) member begins) run
  have trying : Trying group key data server i (view key s) acts (view key t) := by
    refine seen.invariant ?_ fun acts v a v' _ trying move => trying.step move.1 move.2.1 move.2.2
    rw [started]
    exact resting.trying (group.startingUp server)
  by_cases about : call.request.key = key
  · have waits := trying.waits call (view_calls.mpr ⟨found,about⟩) (by rw [expired]; rfl)
    exact waits.undone_iff expired member
  · have kept : ∃ caller, (view key t).calls i = some caller := by
      have begun : ∃ caller, (view key u).calls i = some caller := ⟨_,by rw [started]; exact started_self ..⟩
      refine seen.always (P := fun v => ∃ caller, v.calls i = some caller) begun fun v a v' there move => ?_
      obtain ⟨caller,was⟩ := there
      obtain ⟨after,now,_⟩ := step_later move.1 move.2.2 was
      exact ⟨after,now⟩
    obtain ⟨caller,there⟩ := kept
    obtain ⟨same,own⟩ := view_calls.mp there
    rw [found] at same
    cases same
    exact absurd own about
end

/-- Call 0 at server 1 gives up after some steps; what it has sent is delivered in order. -/
def givesUp (steps : Nat) : List Action := List.flatten
  [goOn 0 steps,[.thread 0 .expires],goOn 0 2,
   [.deliver ⟨service,server1,.regular (.wantToWrite ⟨"k","new"⟩),some 0⟩ true,
    .deliver ⟨server1,server1,.regular (.wantToWrite ⟨"k","new"⟩),some 0⟩ true,
    .deliver ⟨server2,server1,.regular (.wantToWrite ⟨"k","new"⟩),some 0⟩ true,
    .deliver ⟨server1,server2,.regular (.wantToWriteResponse "k"),some 0⟩ true,
    .deliver ⟨service,server1,.regular (.revalidateData "k"),some 0⟩ true,
    .deliver ⟨server1,server1,.regular (.revalidateData "k"),some 0⟩ true,
    .deliver ⟨server2,server1,.regular (.revalidateData "k"),some 0⟩ true]]

/-- The pair with the given databases, and a write that has come in at server 1. -/
def pairWriting (databases : SpreadGroup → Database) : State :=
  { pair.initial databases with
    calls := Function.update (fun _ => none) 0 (some (.start false server1 (.write ⟨"k","new"⟩))) }

/-- Server 2 alone holds a copy: it gets it back. -/
theorem aborted_write_restores_pair : ∃ t call, Run (pair.Steps .properties "k" (Unaccompanied "k")) (pairWriting oldValue)
      (givesUp 5) t ∧ t.calls 0 = some call ∧ call.pc = .wrote .timeout ∧
    ∀ other ∈ pair.servers, copy ((t.servers other).database.findById "k") = copy ((oldValue other).findById "k") := by
  obtain ⟨t,run,expired⟩ := run_of_checked .properties pair "k" 1 (Unaccompanied "k") (Unaccompanied "k")
    (fun _ _ _ allowed => allowed) (pairWriting oldValue) (fun i large => by simp [pairWriting,Nat.ne_of_gt large]) (givesUp 5)
    (fun t => (t.calls 0).map Call.pc = some (.wrote .timeout)) (by decide)
  obtain ⟨call,found,expired⟩ := Option.map_eq_some_iff.mp expired
  have fixed := (initial_quiet pair oldValue).fixed
  have resting : Resting (view "k" (pair.initial oldValue)) := ⟨fun _ _ found => (by cases found),rfl⟩
  have begins : step .properties (.call 0 server1 (.write ⟨"k","new"⟩)) (pair.initial oldValue) = some (pairWriting oldValue) := rfl
  have undone : Undone pair "k" (view "k" (pair.initial oldValue)) server1 (givesUp 5) := by
    refine ⟨fun _ row => (by cases row),fun other member entity row flag last => ?_⟩
    obtain rfl : other = server2 := by simpa using (show other ∈ [server2] from member)
    cases row
    cases last
    decide
  exact ⟨t,call,run,found,expired,(aborted_write_restores_iff fixed resting (by decide) begins run found expired).mpr undone⟩

/-- Server 1 alone holds a copy: it stays invalid. -/
theorem aborted_write_leaves_trace : ¬ ∀ (s u t : State) (acts : List Action) (call : Call), Quiet pair s →
    Coherent pair (view "k" s) → step .properties (.call 0 server1 (.write ⟨"k","new"⟩)) s = some u →
    Run (pair.Steps .properties "k" (Unaccompanied "k")) u acts t → t.calls 0 = some call → call.pc = .wrote .timeout →
    (view "k" t).network = 0 →
    ∀ other ∈ pair.servers, copy ((t.servers other).database.findById "k") = copy ((s.servers other).database.findById "k") := by
  intro restored
  let databases : SpreadGroup → Database := fun server => if server = server1 then (∅ : Database).save ⟨"k",none,"old"⟩ else ∅
  obtain ⟨t,run,expired,delivered,kept⟩ := run_of_checked .properties pair "k" 1 (Unaccompanied "k") (Unaccompanied "k")
    (fun _ _ _ allowed => allowed) (pairWriting databases) (fun i large => by simp [pairWriting,Nat.ne_of_gt large]) (givesUp 6)
    (fun t => (t.calls 0).map Call.pc = some (.wrote .timeout) ∧ (view "k" t).network = 0 ∧
      copy ((t.servers server1).database.findById "k") = some ("old",false)) (by decide)
  obtain ⟨call,found,expired⟩ := Option.map_eq_some_iff.mp expired
  have coherent : Coherent pair (view "k" (pair.initial databases)) := by
    refine coherent_of_value "old" fun server entity row => ?_
    by_cases same : server = server1
    · subst same
      cases row
      rfl
    · simp [view,fields,Group.initial,databases,same] at row
  have same := restored _ _ t _ call (initial_quiet pair databases) coherent rfl run found expired delivered server1 (by decide)
  rw [kept] at same
  exact absurd same (by decide)

end CdPraticas.Aborts
