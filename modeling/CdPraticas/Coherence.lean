import CdPraticas.Exclusion
import CdPraticas.Serial

/-!
# Coherent copies

Any two valid copies of a key have the same value, as long as whatever makes a copy
valid outside a round that everybody has answered does so with a value that no write
has overwritten in the meantime, and where no open round has been answered.
-/

namespace CdPraticas.Coherence
open Groups Store Messages Handlers Calls Cluster Keys Runs Rounds Stages KeyThreads OneWriter Tallies Exclusion
open Listeners (Threads Event Listening Access Handler)

/-! ### What has been overwritten -/

/-- What the saves of writes of the key have overwritten in the run so far. -/
structure History where
  /-- a write has saved since the call sent its ASK_DATA -/
  overwritten : Nat → Bool
  /-- a write has saved since the ASK_DATA was sent whose answer the call has received -/
  stale : Nat → Bool
  /-- a write at another server has saved since the server last saved a value for a client -/
  outdated : SpreadGroup → Bool

/-- A write at `server` saves. -/
def History.saved (server : SpreadGroup) : History := ⟨fun _ => true,fun _ => true,fun other => decide (other ≠ server)⟩

/-- Call `i` takes a step. -/
def History.moved (h : History) (i : Nat) (call : Call) (choice : Choice) : History :=
  match call.pc, choice with
  | .saveData _, .go => .saved call.server
  | .sendAskData, .go => { h with overwritten := Function.update h.overwritten i false }
  | .saveCopy, .go => if call.response.isSome then { h with outdated := Function.update h.outdated call.server false } else h
  | _, _ => h

/-- A reader receives the answer to an ASK_DATA of call `asked?`. -/
def History.handed (h : History) (reader : Nat) : Option Nat → History
  | some asked => { h with stale := Function.update h.stale reader (h.overwritten asked) }
  | none => h

/-- The answer that an access hands to a reader. -/
def hands {α : Type} : Access α → Option (Nat × DataDto)
  | .invoke (.dataReceived reader dataDto) => some (reader,dataDto)
  | _ => none
def handsNext : Handler Unit → Option (Nat × DataDto)
  | .make access _ => hands access
  | .result _ => none

/-- What an event adds to the history of the key. -/
def History.after (key : String) (s : Threads) (h : History) : Event → History
  | .thread i choice =>
    match (view key s.cluster).calls i with
    | some call => h.moved i call choice
    | none => h
  | .listen server _ =>
    match s.listening server with
    | some busy =>
      match handsNext busy.handler with
      | some (reader,dataDto) => if dataDto.key = key then h.handed reader busy.packet.call else h
      | none => h
    | none => h
  | _ => h

/-- A state and the history of the key. -/
structure Watched where
  threads : Threads
  history : History

def watch (settings : Settings) (key : String) (event : Event) (s : Watched) : Option Watched :=
  (Listeners.step settings event s.threads).map fun t => ⟨t,s.history.after key s.threads event⟩

/-- Nothing has been overwritten. -/
def Watched.start (s : Threads) : Watched := ⟨s,fun _ => false,fun _ => false,fun _ => false⟩

/-! ### The condition -/

/-- The next access of a handler finds, saves or answers. -/
def grants {α : Type} : Access α → Bool
  | .findById _ | .save _ | .multicast (.unicast _ _) => true
  | _ => false
def grantsNext : Handler Unit → Bool
  | .make access _ => grants access
  | .result _ => false

/-- The handler of a WANT_TO_WRITE about the key has found no write registered and is
    going to answer. -/
def GrantsKey (key : String) (server : SpreadGroup) (busy : Listening) : Prop :=
  grantsNext busy.handler = true ∧ busy.packet.sender ≠ server ∧
    match busy.packet.body with
    | .regular (.wantToWrite data) => data.key = key
    | _ => False

/-- No write of the key is registered at the server, and none is being granted there. -/
def Free (key : String) (s : Threads) (server : SpreadGroup) : Prop :=
  NoneRegistered (view key s.cluster) server ∧ ∀ busy ∈ s.listening server, ¬ GrantsKey key server busy

/-- Registered, with its own invalidation done and its value not saved, at `server`. -/
def Rival (v : KeyView) (server : SpreadGroup) : Prop := ∃ j, ∃ rival ∈ v.calls j, rival.server = server ∧ Cleared rival.pc

/-- A write is registered where no other is and none is being granted. The winner of a
    conflict saves where no open round has been answered, and every other server has
    answered it or has invalidated its copy for a write of its own. A read saves a value
    that has not been overwritten since it was asked for, where its server is free and has
    answered no open round. A REVALIDATE_DATA changes a copy that is as it was found and
    not outdated, where no write is registered and no open round has been answered.
    Responses are counted for their own round. -/
def Careful (group : Group) (key : String) (s : Watched) : Event → Prop
  | .thread i .go => ∀ call ∈ (view key s.threads.cluster).calls i,
      (call.pc = .putWantToWrite → Free key s.threads call.server) ∧
      (call.pc = .saveData .conflictWon → ¬ Awaited (view key s.threads.cluster) call.server ∧
        ∀ other ∈ group.others call.server, other ∈ call.acknowledged ∨ Rival (view key s.threads.cluster) other) ∧
      (call.pc = .saveCopy → s.history.stale i = false ∧ Free key s.threads call.server ∧
        ¬ Awaited (view key s.threads.cluster) call.server)
  | .listen server _ => ∀ busy ∈ s.threads.listening server,
      (∀ found ∈ incrementsNext busy.handler, found.1 = key → busy.packet.call = some found.2.callback) ∧
      (busy.packet.body = .regular (.revalidateData key) → ∀ entity ∈ savesNext busy.handler,
        ((view key s.threads.cluster).held server).row ≠ some entity →
          (∃ row ∈ ((view key s.threads.cluster).held server).row, row.data = entity.data) ∧ s.history.outdated server = false ∧
            NoneRegistered (view key s.threads.cluster) server ∧ ¬ Awaited (view key s.threads.cluster) server)
  | _ => True

/-- The steps of a fixed group that are careful. -/
def CarefulSteps (settings : Settings) (group : Group) (key : String) : Watched → Event → Watched → Prop :=
  Restrict (fun s event => Permitted group event ∧ Careful group key s event) (Steps (watch settings key))

/-! ### The value that is current -/

/-- Every valid copy has `value`, and so has whatever has not been overwritten: the rows,
    the answers on their way and in the hands of handlers and calls, and the rows that are
    about to be invalidated. -/
structure Current (group : Group) (h : History) (w : ThreadView) (value : String) : Prop where
  valid : ∀ server ∈ group.servers, ∀ entity, (w.shared.held server).row = some entity → entity.Valid → entity.data = value
  row : ∀ server ∈ group.servers, h.outdated server = false → ∀ entity, (w.shared.held server).row = some entity →
    entity.data = value
  invalidating : ∀ i call entity, w.shared.calls i = some call → call.pc = .saveInvalidate entity →
    h.outdated call.server = false → entity.data = value
  granting : ∀ server packet entity, w.listening server = some (packet,.saveInvalidate entity) → h.outdated server = false →
    entity.data = value
  response : ∀ i call dataDto, w.shared.calls i = some call → call.response = some dataDto → h.stale i = false →
    dataDto.data = value
  answers : ∀ packet ∈ w.shared.network, ∀ dataDto i, packet.body = .regular (.askDataResponse dataDto) →
    packet.call = some i → h.overwritten i = false → dataDto.data = value
  answering : ∀ server packet dataDto i, w.listening server = some (packet,.answer dataDto) → packet.call = some i →
    h.overwritten i = false → dataDto.data = value
  asked : ∀ packet ∈ w.shared.network, ∀ i call, packet.call = some i → w.shared.calls i = some call →
    call.pc ≠ .findLocal ∧ call.pc ≠ .sendAskData

section
variable {settings : Settings} {group : Group} {key : String} {h h' : History} {w w' : ThreadView} {value value' : String}
  {packet : Packet} {stage next : Stage} {event : Event} {sent : Bool} {held : Fields} {sends : List Send}
  {callbacks : List Callback} {i : Nat} {choice : Choice} {call : Call} {effect : Effect} {pc : Pc} {server : SpreadGroup}

/-! ### Steps of calls -/

/-- What a call sends hands nobody a value. -/
theorem move_answers_nothing {participants : Int} {stored : Option DataEntity} {members : List SpreadGroup} {new : Packet}
    (move : Move settings participants stored call choice effect pc)
    (inside : new ∈ packets members call.server (some i) effect.sends) (dataDto : DataDto) :
    new.body ≠ .regular (.askDataResponse dataDto) := by
  obtain ⟨_,send,among,body⟩ := packets_carry inside
  rw [body]
  cases move with
  | sendWantToWrite _ _ | sendDataWritten _ _ | sendAskData _ _ | sendRevalidate _ _ =>
    rw [List.mem_singleton.mp among]
    intro same
    cases same
  | _ => cases among

/-- Nobody goes back before the question. -/
theorem move_asked {participants : Int} {stored : Option DataEntity}
    (move : Move settings participants stored call choice effect pc) :
    pc ≠ .findLocal ∧ (pc = .sendAskData → call.pc = .findLocal ∧ effect.sends = []) := by
  cases move with
  | noCopy _ here _ => exact ⟨by simp,fun _ => ⟨here,rfl⟩⟩
  | _ => exact ⟨by simp,fun back => by cases back⟩

/-- The answers and responses after a step of a call. -/
theorem Current.moved_answers (current : Current group h w value) (threaded : Threaded group key w)
    (found : w.shared.calls i = some call)
    (move : Move settings group.members.length (w.shared.held call.server).row call choice effect pc)
    (stale : ∀ j, h'.stale j = false → h.stale j = false ∧ value' = value)
    (overwritten : ∀ j, h'.overwritten j = false → (h.overwritten j = false ∨ j = i ∧ call.pc = .sendAskData) ∧ value' = value)
    (rows : ∀ server ∈ group.servers, ∀ entity, ((w.shared.moved group i call effect pc).held server).row = some entity →
      entity.Valid ∨ h'.outdated server = false → entity.data = value')
    (invalidating : ∀ j after entity, (w.shared.moved group i call effect pc).calls j = some after →
      after.pc = .saveInvalidate entity → h'.outdated after.server = false → entity.data = value')
    (granting : ∀ server packet entity, w.listening server = some (packet,.saveInvalidate entity) →
      h'.outdated server = false → entity.data = value') :
    Current group h' { w with shared := w.shared.moved group i call effect pc } value' := by
  have unasked : ∀ packet ∈ w.shared.network, packet.call = some i → call.pc ≠ .sendAskData :=
    fun packet flying tag => (current.asked packet flying i call tag found).2
  refine ⟨fun server member entity row valid => rows server member entity row (.inl valid),
    fun server member fresh entity row => rows server member entity row (.inr fresh),invalidating,granting,?_,?_,?_,?_⟩
  · intro j after dataDto now response fresh
    obtain ⟨before,rfl⟩ := stale j fresh
    rcases moved_cases now with ⟨rfl,rfl⟩ | ⟨_,was⟩
    · exact current.response j call dataDto found response before
    · exact current.response j after dataDto was response before
  · intro packet flying dataDto j body tag fresh
    obtain ⟨before,rfl⟩ := overwritten j fresh
    rcases Multiset.mem_add.mp flying with old | new
    · rcases before with before | ⟨rfl,asks⟩
      · exact current.answers packet old dataDto j body tag before
      · exact absurd asks (unasked packet old tag)
    · exact absurd body (move_answers_nothing move new dataDto)
  · intro server packet dataDto j busy tag fresh
    obtain ⟨before,rfl⟩ := overwritten j fresh
    rcases before with before | ⟨rfl,asks⟩
    · exact current.answering server packet dataDto j busy tag before
    · exact absurd asks (unasked packet ((threaded.handling _ _ _ busy).pending trivial) tag)
  · intro packet flying j after tag now
    obtain ⟨forward,back⟩ := move_asked move
    rcases Multiset.mem_add.mp flying with old | new
    · rcases moved_cases now with ⟨rfl,rfl⟩ | ⟨_,was⟩
      · exact ⟨forward,fun asks => (current.asked packet old j call tag found).1 (back asks).1⟩
      · exact current.asked packet old j after tag was
    · obtain ⟨_,newTag,_,_⟩ := sends_about (move.key (threaded.sound.keyed i call found)) packet new
      rw [newTag] at tag
      cases tag
      rw [moved_self] at now
      cases now
      refine ⟨forward,fun asks => ?_⟩
      rw [(back asks).2] at new
      simp at new

/-- What is not overwritten, stale or outdated after a step that is no save of a write. -/
theorem History.moved_fresh (h : History) (i : Nat) (choice : Choice) (saves : ∀ exit, call.pc ≠ .saveData exit) :
    (h.moved i call choice).stale = h.stale ∧
    (∀ j, (h.moved i call choice).overwritten j = false → h.overwritten j = false ∨ j = i ∧ call.pc = .sendAskData) ∧
    ∀ server, (h.moved i call choice).outdated server = false →
      h.outdated server = false ∨ server = call.server ∧ choice = .go ∧ call.pc = .saveCopy ∧ call.response.isSome := by
  unfold History.moved
  split
  · exact absurd ‹_› (saves _)
  · refine ⟨rfl,fun j fresh => ?_,fun _ fresh => .inl fresh⟩
    by_cases same : j = i
    · exact .inr ⟨same,‹_›⟩
    · exact .inl (by simpa [same] using fresh)
  · split_ifs with response
    · refine ⟨rfl,fun _ fresh => .inl fresh,fun server fresh => ?_⟩
      by_cases same : server = call.server
      · exact .inr ⟨same,rfl,‹_›,response⟩
      · exact .inl (by simpa [same] using fresh)
    · exact ⟨rfl,fun _ fresh => .inl fresh,fun _ fresh => .inl fresh⟩
  · exact ⟨rfl,fun _ fresh => .inl fresh,fun _ fresh => .inl fresh⟩

/-- The row of a server after a step of a call there that is no save of a write. -/
theorem Current.moved_row (current : Current group h w value) (single : SingleWrites w.shared)
    (sound : Sound group key w.shared) (found : w.shared.calls i = some call) (saves : ∀ exit, call.pc ≠ .saveData exit)
    (copies : call.pc = .saveCopy → choice = .go → h.stale i = false)
    (move : Move settings group.members.length (w.shared.held call.server).row call choice effect pc) {entity : DataEntity}
    (row : (access i (w.shared.held call.server) effect).row = some entity)
    (fresh : entity.Valid ∨ h.outdated call.server = false ∨ call.pc = .saveCopy ∧ call.response.isSome) :
    entity.data = value := by
  have member := sound.located i call found
  have kept : (w.shared.held call.server).row = some entity → ¬ (call.pc = .saveCopy ∧ call.response.isSome) →
      entity.data = value := by
    intro stored other
    rcases fresh with valid | fresh | copy
    · exact current.valid _ member entity stored valid
    · exact current.row _ member fresh entity stored
    · exact absurd copy other
  cases move with
  | saveAlone _ here => exact absurd here (single.together i call found)
  | saveData _ here => exact absurd here (saves _)
  | saveInvalidate _ here =>
    cases row
    rcases fresh with valid | fresh | ⟨other,_⟩
    · exact absurd valid (single.marked i call _ found here)
    · exact current.invalidating i call _ found here fresh
    · rw [here] at other
      cases other
  | deleteById _ _ _ => cases row
  | saveCopy _ here response =>
    cases row
    exact current.response i call _ found response (copies here rfl)
  | nothingToSave _ _ response => exact kept row (by simp [response])
  | _ => exact kept row (by simp_all)

/-- A step that is no save of a write leaves the value. -/
theorem Current.of_moved (current : Current group h w value) (threaded : Threaded group key w) (single : SingleWrites w.shared)
    (found : w.shared.calls i = some call) (saves : ∀ exit, call.pc ≠ .saveData exit)
    (copies : call.pc = .saveCopy → choice = .go →
      h.stale i = false ∧ NoneRegistered w.shared call.server ∧ ¬ GrantingAt w call.server)
    (move : Move settings group.members.length (w.shared.held call.server).row call choice effect pc) :
    Current group (h.moved i call choice) { w with shared := w.shared.moved group i call effect pc } value := by
  have sound := threaded.sound
  obtain ⟨stale,overwritten,outdated⟩ := History.moved_fresh h i choice saves
  refine current.moved_answers threaded found move (fun j fresh => ⟨by rwa [stale] at fresh,rfl⟩)
    (fun j fresh => ⟨overwritten j fresh,rfl⟩) ?_ ?_ ?_
  · intro server member entity row fresh
    by_cases here : server = call.server
    · subst here
      rw [moved_held_self] at row
      refine current.moved_row single sound found saves (fun copy goes => (copies copy goes).1) move row ?_
      rcases fresh with valid | fresh
      · exact .inl valid
      · rcases outdated _ fresh with before | ⟨_,_,copy⟩
        · exact .inr (.inl before)
        · exact .inr (.inr copy)
    · rw [moved_held_ne _ _ _ here] at row
      rcases fresh with valid | fresh
      · exact current.valid server member entity row valid
      · rcases outdated _ fresh with before | ⟨same,_⟩
        · exact current.row server member before entity row
        · exact absurd same here
  · intro j after entity now here fresh
    rcases moved_cases now with ⟨rfl,rfl⟩ | ⟨_,was⟩
    · rw [goto_pc] at here
      subst here
      cases move with
      | foundRow _ at_ row =>
        rcases outdated _ fresh with before | ⟨_,_,copy,_⟩
        · have same := current.row _ (sound.located j call found) before _ row
          exact same
        · rw [at_] at copy
          cases copy
    · rcases outdated _ fresh with before | ⟨same,goes,copy,_⟩
      · exact current.invalidating j after entity was here before
      · exact absurd (by rw [here]; trivial) ((copies copy goes).2.1 j after was same)
  · intro server packet entity busy fresh
    rcases outdated _ fresh with before | ⟨rfl,goes,copy,_⟩
    · exact current.granting server packet entity busy before
    · exact absurd ⟨packet,_,busy,trivial⟩ (copies copy goes).2.2

/-- A write that saves makes its value current: no other server has a valid copy. -/
theorem Current.of_saved (current : Current group h w value) (threaded : Threaded group key w) (counting : Counting group w)
    (exclusive : Exclusive w) (found : w.shared.calls i = some call) {exit : Exit} {dataDto : DataDto}
    (here : call.pc = .saveData exit) (write : call.request = .write dataDto)
    (move : Move settings group.members.length (w.shared.held call.server).row call .go (.save (.ofDto dataDto))
      (.sendDataWritten exit))
    (wins : exit = .conflictWon → ∀ other ∈ group.others call.server, other ∈ call.acknowledged ∨ Rival w.shared other) :
    Current group (h.moved i call .go)
      { w with shared := w.shared.moved group i call (.save (.ofDto dataDto)) (.sendDataWritten exit) } dataDto.data := by
  have sound := threaded.sound
  have registered : call.pc.Registered := by rw [here]; trivial
  have undecided : Undecided call.pc := by rw [here]; trivial
  have saved : h.moved i call .go = .saved call.server := by simp only [History.moved,here]
  rw [saved]
  -- the other servers have answered the round, or have invalidated their copy for their own
  have others : ∀ other ∈ group.servers, other ≠ call.server → ∀ entity, (w.shared.held other).row = some entity →
      ¬ entity.Valid := by
    intro other member different
    have among : other ∈ group.others call.server := Group.mem_others.mpr ⟨member,different⟩
    have answered : other ∈ call.acknowledged ∨ Rival w.shared other := by
      have fits := sound.fits i call found
      rw [here,write] at fits
      rcases fits with rfl | rfl
      · exact .inl ((counting.tallied.left i call found (by rw [here]; rfl)).acknowledged among)
      · exact wins rfl other among
    rcases answered with answered | ⟨j,rival,was,rfl,cleared⟩
    · exact exclusive.awaited other ⟨i,call,found,undecided,answered⟩
    · exact exclusive.single.cleared j rival was cleared
  have mine : ∀ {server}, (History.saved call.server).outdated server = false → server = call.server := by
    intro server fresh
    simpa [History.saved] using fresh
  refine current.moved_answers threaded found move (fun j fresh => by cases fresh)
    (fun j fresh => by cases fresh) ?_ ?_ ?_
  · intro server member entity row fresh
    by_cases same : server = call.server
    · subst same
      rw [moved_held_self] at row
      cases row
      rfl
    · rw [moved_held_ne _ _ _ same] at row
      rcases fresh with valid | fresh
      · exact absurd valid (others server member same entity row)
      · exact absurd (mine fresh) same
  · intro j after entity now at_ fresh
    rcases moved_cases now with ⟨rfl,rfl⟩ | ⟨different,was⟩
    · cases at_
    · exact absurd (exclusive.single.same_call was found (by rw [at_]; trivial) registered (mine fresh)) different
  · intro server packet entity busy fresh
    obtain rfl := mine fresh
    exact absurd registered (exclusive.granting_free ⟨packet,_,busy,trivial⟩ i call found rfl)

/-! ### Steps of handlers -/

/-- What the handler of a message at a stage adds to the history. -/
def History.listened (h : History) (packet : Packet) : Stage → History
  | .dataReceived reader _ => h.handed reader packet.call
  | _ => h

theorem History.listened_fresh (h : History) (packet : Packet) (stage : Stage) :
    (h.listened packet stage).overwritten = h.overwritten ∧ (h.listened packet stage).outdated = h.outdated ∧
    ∀ j, (h.listened packet stage).stale j = false → h.stale j = false ∨
      ∃ dataDto, stage = .dataReceived j dataDto ∧ packet.call.isSome := by
  unfold History.listened
  split
  · rename_i reader dataDto
    cases tag : packet.call with
    | none => exact ⟨rfl,rfl,fun _ fresh => .inl fresh⟩
    | some asked =>
      refine ⟨rfl,rfl,fun j fresh => ?_⟩
      by_cases same : j = reader
      · exact .inr ⟨dataDto,by rw [same],rfl⟩
      · exact .inl (by simpa [History.handed,same] using fresh)
  · exact ⟨rfl,rfl,fun _ fresh => .inl fresh⟩

/-- The row of a server after an access of its handler. -/
theorem Current.listened_row (current : Current group h w value) (threaded : Threaded group key w)
    (renews : ∀ entity, stage = .saveRevalidated entity → (w.shared.held packet.receiver).row ≠ some entity →
      (∃ row ∈ (w.shared.held packet.receiver).row, row.data = entity.data) ∧ h.outdated packet.receiver = false)
    (busy : w.listening packet.receiver = some (packet,stage))
    (turn : Turn settings group.members.length key packet.receiver packet.sender (w.shared.held packet.receiver) stage held
      sends callbacks next) {entity : DataEntity} (row : held.row = some entity)
    (fresh : entity.Valid ∨ h.outdated packet.receiver = false) : entity.data = value := by
  have handling := threaded.handling _ _ _ busy
  have kept : (w.shared.held packet.receiver).row = some entity → entity.data = value := by
    intro stored
    rcases fresh with valid | fresh
    · exact current.valid _ handling.member entity stored valid
    · exact current.row _ handling.member fresh entity stored
  rcases turn.row with same | ⟨saved,now,rfl | rfl⟩ | ⟨none,_⟩
  · exact kept (same ▸ row)
  · rw [now] at row
    cases row
    rcases fresh with valid | fresh
    · exact absurd valid handling.marked
    · exact current.granting _ packet _ busy fresh
  · rw [now] at row
    cases row
    by_cases same : (w.shared.held packet.receiver).row = some entity
    · exact kept same
    · obtain ⟨⟨before,stored,data⟩,known⟩ := renews entity rfl same
      rw [← data]
      exact current.row _ handling.member known before stored
  · rw [none] at row
    cases row

/-- A handler is about to invalidate the row that it has found, -/
theorem turn_saves {participants : Int} {me sender : SpreadGroup} {held held' : Fields} {entity : DataEntity}
    (turn : Turn settings participants key me sender held stage held' sends callbacks (.saveInvalidate entity)) :
    ∃ row, held.row = some row ∧ entity.data = row.data := by
  generalize goes : Stage.saveInvalidate entity = next at turn
  cases turn with
  | looks looks _ _ _ =>
    cases looks with
    | row stored =>
      cases goes
      exact ⟨_,stored,rfl⟩
    | noRow _ ready =>
      rw [ready] at goes
      split_ifs at goes
    | _ => cases goes
  | acts acts =>
    cases acts with
    | invalidates ready =>
      rw [ready] at goes
      split_ifs at goes
    | _ => cases goes

/-- and to answer with a copy that it has found valid. -/
theorem turn_answer {participants : Int} {me sender : SpreadGroup} {held held' : Fields} {dataDto : DataDto}
    (turn : Turn settings participants key me sender held stage held' sends callbacks (.answer dataDto)) :
    ∃ row, held.row = some row ∧ row.Valid ∧ dataDto.data = row.data := by
  generalize goes : Stage.answer dataDto = next at turn
  cases turn with
  | looks looks _ _ _ =>
    cases looks with
    | validCopy stored valid =>
      cases goes
      exact ⟨_,stored,valid,rfl⟩
    | noRow _ ready =>
      rw [ready] at goes
      split_ifs at goes
    | _ => cases goes
  | acts acts =>
    cases acts with
    | invalidates ready =>
      rw [ready] at goes
      split_ifs at goes
    | _ => cases goes

/-- Only an answer tells a value. -/
theorem turn_tells {members : List SpreadGroup} {dataDto : DataDto} {new : Packet} {held held' : Fields}
    (turn : Turn settings group.members.length key packet.receiver packet.sender held stage held' sends callbacks next)
    (inside : new ∈ packets members packet.receiver packet.call sends)
    (body : new.body = .regular (.askDataResponse dataDto)) : stage = .answer dataDto ∧ new.call = packet.call := by
  obtain ⟨tag,send,among,carried⟩ := packets_carry inside
  cases turn with
  | looks _ _ quiet _ => simp [quiet] at among
  | acts acts =>
    cases acts with
    | answers =>
      rw [List.mem_singleton.mp among] at carried
      rw [body] at carried
      cases carried
      exact ⟨rfl,by rw [packets_unicast,Multiset.mem_singleton] at inside; rw [inside]⟩
    | grants | refuses =>
      rw [List.mem_singleton.mp among] at carried
      rw [body] at carried
      cases carried
    | _ => simp at among

/-- The reader gets what the handler has in its hands. -/
theorem turn_hands {participants : Int} {me sender : SpreadGroup} {held held' : Fields} {reader : Nat} {dataDto : DataDto}
    (turn : Turn settings participants key me sender held (.dataReceived reader dataDto) held' sends callbacks next) :
    (notify sends callbacks packet sent reader call).response = some dataDto := by
  rw [(notify_references ..).2.1]
  generalize here : Stage.dataReceived reader dataDto = stage at turn
  cases turn with
  | looks looks _ _ _ =>
    cases looks with
    | stillWriting there _ => rcases there with rfl | rfl <;> cases here
    | notWriting there _ =>
      subst here
      simp at there
    | _ => cases here
  | acts acts =>
    cases acts with
    | hands =>
      cases here
      simp [invoke]
    | _ => cases here

/-- What a call is given has not been overwritten since the question that it answers. -/
theorem Current.listened_response (current : Current group h w value) (threaded : Threaded group key w)
    (busy : w.listening packet.receiver = some (packet,stage))
    (turn : Turn settings group.members.length key packet.receiver packet.sender (w.shared.held packet.receiver) stage held
      sends callbacks next) {before : Call} (was : w.shared.calls i = some before) {dataDto : DataDto}
    (response : (notify sends callbacks packet sent i before).response = some dataDto)
    (fresh : (h.listened packet stage).stale i = false) : dataDto.data = value := by
  have handling := threaded.handling _ _ _ busy
  by_cases own : ∃ given, stage = .dataReceived i given
  · obtain ⟨given,rfl⟩ := own
    rw [turn_hands turn] at response
    cases response
    have flying := handling.pending trivial
    obtain ⟨message,body,_,fits⟩ := handling.fits
    obtain ⟨_,_,_,asked,_,tag,_⟩ := threaded.sound.flying packet flying
    have known : h.overwritten asked = false := by simpa [History.listened,tag,History.handed] using fresh
    cases message with
    | askDataResponse received =>
      obtain rfl : dataDto = received := fits
      exact current.answers packet flying dataDto asked body tag known
    | _ => exact fits.elim
  · have known : h.stale i = false := by
      rcases (History.listened_fresh h packet stage).2.2 i fresh with known | ⟨given,rfl,_⟩
      · exact known
      · exact absurd ⟨given,rfl⟩ own
    rcases turn.response response with old | here
    · exact current.response i before dataDto was old known
    · exact absurd ⟨dataDto,here⟩ own

/-- A handler leaves the value. -/
theorem Current.of_listened (current : Current group h w value) (threaded : Threaded group key w)
    (renews : ∀ entity, stage = .saveRevalidated entity → (w.shared.held packet.receiver).row ≠ some entity →
      (∃ row ∈ (w.shared.held packet.receiver).row, row.data = entity.data) ∧ h.outdated packet.receiver = false)
    (busy : w.listening packet.receiver = some (packet,stage))
    (turn : Turn settings group.members.length key packet.receiver packet.sender (w.shared.held packet.receiver) stage held
      sends callbacks next) :
    Current group (h.listened packet stage) (w.listened group packet stage sent held sends callbacks next) value := by
  have handling := threaded.handling _ _ _ busy
  obtain ⟨overwritten,outdated,stale⟩ := History.listened_fresh h packet stage
  have rows : ∀ server ∈ group.servers, ∀ entity,
      ((w.listened group packet stage sent held sends callbacks next).shared.held server).row = some entity →
      entity.Valid ∨ h.outdated server = false → entity.data = value := by
    intro server member entity row fresh
    by_cases here : server = packet.receiver
    · subst here
      rw [listened_held_self] at row
      exact current.listened_row threaded renews busy turn row fresh
    · rw [listened_held_ne _ _ _ _ _ _ _ here] at row
      rcases fresh with valid | fresh
      · exact current.valid server member entity row valid
      · exact current.row server member fresh entity row
  -- a handler stands at its next stage, or where it stood
  have stands : ∀ {server other there}, (w.listened group packet stage sent held sends callbacks next).listening server =
      some (other,there) → server = packet.receiver ∧ other = packet ∧ there = next ∨ w.listening server = some (other,there) := by
    intro server other there now
    by_cases here : server = packet.receiver
    · subst here
      rw [listened_listening_self] at now
      by_cases ends : next = .done
      · subst ends
        cases now
      · rw [entry_running ends] at now
        cases now
        exact .inl ⟨rfl,rfl,rfl⟩
    · rw [listened_listening_ne _ _ _ _ _ _ _ here] at now
      exact .inr now
  refine ⟨fun server member entity row valid => rows server member entity row (.inl valid),?_,?_,?_,?_,?_,?_,?_⟩
  · intro server member fresh entity row
    rw [outdated] at fresh
    exact rows server member entity row (.inr fresh)
  · intro j after entity now here fresh
    obtain ⟨before,was,rfl⟩ := listened_cases _ _ _ _ _ _ _ now
    rw [notify_pc] at here
    rw [notify_server,outdated] at fresh
    exact current.invalidating j before entity was here fresh
  · intro server other entity now fresh
    rw [outdated] at fresh
    rcases stands now with ⟨rfl,rfl,rfl⟩ | was
    · obtain ⟨row,stored,data⟩ := turn_saves turn
      rw [data]
      exact current.row _ handling.member fresh row stored
    · exact current.granting server other entity was fresh
  · intro j after dataDto now response fresh
    obtain ⟨before,was,rfl⟩ := listened_cases _ _ _ _ _ _ _ now
    exact current.listened_response threaded busy turn was response fresh
  · intro other flying dataDto j body tag fresh
    rw [overwritten] at fresh
    rw [listened_network] at flying
    rcases Multiset.mem_add.mp flying with old | new
    · exact current.answers other (Multiset.mem_of_le (kept_le ..) old) dataDto j body tag fresh
    · split_ifs at new
      · obtain ⟨rfl,same⟩ := turn_tells turn new body
        exact current.answering _ packet dataDto j busy (same ▸ tag) fresh
      · simp at new
  · intro server other dataDto j now tag fresh
    rw [overwritten] at fresh
    rcases stands now with ⟨rfl,rfl,rfl⟩ | was
    · obtain ⟨row,stored,valid,data⟩ := turn_answer turn
      rw [data]
      exact current.valid _ handling.member row stored valid
    · exact current.answering server other dataDto j was tag fresh
  · intro other flying j after tag now
    obtain ⟨before,was,rfl⟩ := listened_cases _ _ _ _ _ _ _ now
    rw [notify_pc]
    rw [listened_network] at flying
    rcases Multiset.mem_add.mp flying with old | new
    · exact current.asked other (Multiset.mem_of_le (kept_le ..) old) j before tag was
    · split_ifs at new
      · by_cases pending : stage.Pending
        · obtain ⟨_,same,_,_⟩ := turn.packets_about handling.keyed other new
          exact current.asked packet (handling.pending pending) j before (same ▸ tag) was
        · rw [silent_after turn pending] at new
          simp at new
      · simp at new

/-! ### Calls and handlers that start -/

theorem Current.of_started (current : Current group h w value) (sound : Sound group key w.shared) {request : Request}
    (fresh : w.shared.calls i = none) (startingUp : Bool) :
    Current group h { w with shared := w.shared.started i (.start startingUp server request) } value := by
  have start : ((Call.start startingUp server request).pc = .findLocal ∨ (Call.start startingUp server request).pc = .writeData) ∧
      (Call.start startingUp server request).response = none := by
    cases request
    · exact ⟨.inl rfl,rfl⟩
    · exact ⟨.inr rfl,rfl⟩
  refine { current with invalidating := ?_,response := ?_,asked := ?_ }
  · intro j after entity now here known
    rcases started_cases now with ⟨_,rfl⟩ | ⟨_,was⟩
    · rcases start.1 with starts | starts <;> simp [starts] at here
    · exact current.invalidating j after entity was here known
  · intro j after dataDto now response known
    rcases started_cases now with ⟨_,rfl⟩ | ⟨_,was⟩
    · rw [start.2] at response
      cases response
    · exact current.response j after dataDto was response known
  · intro packet flying j after tag now
    rcases started_cases now with ⟨rfl,_⟩ | ⟨_,was⟩
    · obtain ⟨_,_,_,k,other,tag',found⟩ := sound.flying packet flying
      rw [tag] at tag'
      cases tag'
      rw [fresh] at found
      cases found
    · exact current.asked packet flying j after tag was

/-- A handler has neither found a row to invalidate nor one to answer with when it starts. -/
theorem start_empty {me sender : SpreadGroup} {message : Message} :
    (∀ entity, Stage.start me sender message ≠ .saveInvalidate entity) ∧
      ∀ dataDto, Stage.start me sender message ≠ .answer dataDto := by
  cases message <;> simp only [Stage.start]
  all_goals try split_ifs
  all_goals simp

theorem Current.of_received (current : Current group h w value) {message : Message} :
    Current group h (w.received packet (Stage.start packet.receiver packet.sender message)) value := by
  have stands : ∀ {server other there}, (w.received packet (Stage.start packet.receiver packet.sender message)).listening server =
      some (other,there) → there = Stage.start packet.receiver packet.sender message ∨ w.listening server = some (other,there) := by
    intro server other there now
    by_cases here : server = packet.receiver
    · subst here
      rw [received_self] at now
      cases now
      exact .inl rfl
    · rw [received_ne _ here] at now
      exact .inr now
  refine { current with granting := ?_,answering := ?_ }
  · intro server other entity now
    rcases stands now with starts | was
    · exact absurd starts.symm (start_empty.1 entity)
    · exact current.granting server other entity was
  · intro server other dataDto j now
    rcases stands now with starts | was
    · exact absurd starts.symm (start_empty.2 dataDto)
    · exact current.answering server other dataDto j was

end

/-! ### Every step -/

section
variable {settings : Settings} {group : Group} {key : String} {s t : Threads} {staging : Staging} {h : History}
  {w' : ThreadView} {value : String} {event : Event} {server : SpreadGroup} {packet : Packet} {stage : Stage} {sent : Bool}

theorem Free.granting (fixed : FixedThreads settings group s staging) (free : Free key s server) :
    ¬ GrantingAt (threadView group key s staging) server := by
  rintro ⟨packet,stage,busy,grants⟩
  obtain ⟨message,body,about,fits⟩ := ((fixed.threaded key).handling _ _ _ busy).fits
  refine free.2 _ (busy_of_staged fixed.stands busy) ?_
  cases message with
  | wantToWrite data =>
    have same : data.key = key := Option.some.inj about
    cases stage with
    | findInvalidate | saveInvalidate _ | grant => exact ⟨rfl,fits,by simpa [body] using same⟩
    | _ => exact grants.elim
  | _ =>
    cases stage with
    | findInvalidate | saveInvalidate _ | grant => exact fits.elim
    | _ => exact grants.elim

/-- A careful step keeps the rounds apart. -/
theorem separate_of_careful (fixed : FixedThreads settings group s staging) (careful : Careful group key ⟨s,h⟩ event) :
    Separate (threadView group key s staging) event := by
  cases event with
  | thread i choice =>
    cases choice with
    | go =>
      intro call found
      obtain ⟨registers,wins,copies⟩ := careful call found
      refine ⟨fun here => ?_,fun here => (wins here).1,fun here => ?_⟩
      · exact ⟨(registers here).1,(registers here).granting fixed⟩
      · obtain ⟨_,free,closed⟩ := copies here
        exact ⟨free.1,free.granting fixed,closed⟩
    | _ => trivial
  | listen server sent =>
    intro packet stage busy
    obtain ⟨own,renews⟩ := careful _ (busy_of_staged fixed.stands busy)
    refine ⟨?_,?_⟩
    · rintro data rfl
      exact own (key,data) rfl rfl
    · rintro entity rfl changes
      obtain ⟨message,body,about,fits⟩ := ((fixed.threaded key).handling _ _ _ busy).fits
      cases message with
      | revalidateData other =>
        obtain rfl : other = key := Option.some.inj about
        exact (renews body entity rfl changes).2.2
      | _ => exact fits.elim
  | _ => trivial

theorem counts_of_separate {w : ThreadView} (separate : Separate w event) : CountsOwnNext w event := by
  cases event with
  | listen server sent => exact fun packet data busy => (separate packet _ busy).1 data rfl
  | _ => trivial

theorem program_hands (settings : Settings) (key : String) (me sender : SpreadGroup) (stage : Stage) :
    handsNext (stage.program settings key me sender) =
      match stage with
      | .dataReceived reader dataDto => some (reader,dataDto)
      | _ => none := by
  cases stage <;> rfl

theorem after_listen (fixed : FixedThreads settings group s staging) (busy : staged key staging server = some (packet,stage)) :
    h.after key s (.listen server sent) = h.listened packet stage := by
  have keyed := ((fixed.threaded key).handling _ _ _ busy).keyed
  simp only [History.after,busy_of_staged fixed.stands busy,program_hands]
  cases stage with
  | dataReceived reader dataDto => exact if_pos keyed
  | _ => rfl

/-- A handler of a message about another key adds nothing. -/
theorem after_away (fixed : FixedThreads settings group s staging) (away : staged key staging server = none) :
    h.after key s (.listen server sent) = h := by
  have stands := fixed.stands server
  cases here : staging server with
  | none =>
    rw [here] at stands
    simp only [History.after,stands,Option.map_none]
  | some standing =>
    obtain ⟨about,packet,stage⟩ := standing
    rw [here] at stands
    simp only [History.after,stands,Option.map_some,program_hands]
    cases stage with
    | dataReceived reader dataDto =>
      have busy : staged about staging server = some (packet,.dataReceived reader dataDto) := by simp [staged,here,entry]
      have keyed : dataDto.key = about := ((fixed.threaded about).handling _ _ _ busy).keyed
      refine if_neg fun same => ?_
      rw [keyed.symm.trans same] at busy
      rw [away] at busy
      cases busy
    | _ => rfl

theorem Current.step (current : Current group h (threadView group key s staging) value)
    (fixed : FixedThreads settings group s staging) (counting : Counting group (threadView group key s staging))
    (exclusive : Exclusive (threadView group key s staging)) (careful : Careful group key ⟨s,h⟩ event)
    (step : ThreadStep settings group key (threadView group key s staging) event w') :
    ∃ value', Current group (h.after key s event) w' value' := by
  have threaded := fixed.threaded key
  have separate := separate_of_careful fixed careful
  cases step with
  | elsewhere away =>
    refine ⟨value,?_⟩
    cases event with
    | thread i choice =>
      have none : (view key s.cluster).calls i = none := away
      simpa only [History.after,none] using current
    | listen server sent => rwa [after_away fixed away]
    | _ => exact current
  | call fresh _ _ => exact ⟨value,current.of_started threaded.sound fresh _⟩
  | @thread i choice call effect pc found move =>
    have seen : (view key s.cluster).calls i = some call := found
    have goes : h.after key s (.thread i choice) = h.moved i call choice := by simp only [History.after,seen]
    rw [goes]
    by_cases saves : ∃ exit, call.pc = .saveData exit
    · obtain ⟨exit,here⟩ := saves
      cases move with
      | @saveData dataDto exit' write here' =>
        have saving : Move settings group.members.length ((threadView group key s staging).shared.held call.server).row call .go
          (.save (.ofDto dataDto)) (.sendDataWritten exit') := .saveData write here'
        refine ⟨dataDto.data,current.of_saved threaded counting exclusive found here' write saving ?_⟩
        rintro rfl
        exact ((careful call found).2.1 here').2
      | _ => simp_all
    · refine ⟨value,current.of_moved threaded exclusive.single found (fun exit here => saves ⟨exit,here⟩) ?_ move⟩
      rintro here rfl
      obtain ⟨fresh,free,_⟩ := (careful call found).2.2 here
      exact ⟨fresh,free.1,free.granting fixed⟩
  | ignored _ _ =>
    exact ⟨value,{ current with
      answers := fun packet flying => current.answers packet (Multiset.mem_of_mem_erase flying)
      asked := fun packet flying => current.asked packet (Multiset.mem_of_mem_erase flying) }⟩
  | receive _ _ _ _ _ => exact ⟨value,current.of_received⟩
  | @listen packet stage next sent held sends callbacks busy turn =>
    have entered : staged key staging packet.receiver = some (packet,stage) := busy
    rw [after_listen fixed entered]
    refine ⟨value,current.of_listened threaded ?_ busy turn⟩
    rintro entity rfl changes
    obtain ⟨message,body,about,fits⟩ := (threaded.handling _ _ _ busy).fits
    cases message with
    | revalidateData other =>
      obtain rfl : other = key := Option.some.inj about
      obtain ⟨same,known,_⟩ := (careful _ (busy_of_staged fixed.stands busy)).2 body entity rfl changes
      exact ⟨same,known⟩
    | _ => exact fits.elim

/-! ### Every run -/

theorem Current.start {s : State} (quiet : Quiet group s)
    (same : ∀ server ∈ group.servers, ∀ entity, ((view key s).held server).row = some entity → entity.data = value) :
    Current group h ⟨view key s,fun _ => none⟩ value := by
  have nobody : ∀ i call, (view key s).calls i ≠ some call := fun i call found => by simp [view,quiet.noCalls] at found
  have nothing : ∀ packet, packet ∉ (view key s).network := fun packet flying => by simp [view,quiet.noMessages] at flying
  exact ⟨fun server member entity row _ => same server member entity row,
    fun server member _ entity row => same server member entity row,
    fun i call _ found => absurd found (nobody i call),fun _ _ _ busy => (by cases busy),
    fun i call _ found => absurd found (nobody i call),fun packet flying => absurd flying (nothing packet),
    fun _ _ _ _ busy => (by cases busy),fun packet flying => absurd flying (nothing packet)⟩

variable {events : List Event} {u : Watched}

/-- Every run of the listener threads has a history. -/
theorem watched_run (run : Run (Steps (Listeners.step settings)) s events t) :
    ∃ history, Run (Steps (watch settings key)) (.start s) events ⟨t,history⟩ := by
  induction run with
  | start => exact ⟨_,.start⟩
  | @next _ u t event _ move ih =>
    obtain ⟨history,run⟩ := ih
    have move : Listeners.step settings event u = some t := move
    refine ⟨history.after key u event,run.next ?_⟩
    simp only [Steps,watch,move,Option.map_some]

/-- In a careful run from a start where all copies have one value, valid copies have the
    same value in every state. -/
theorem copies_coherent (idle : Idle group s) (several : 2 ≤ group.servers.length)
    (start : ∃ value, ∀ server ∈ group.servers, ∀ entity, ((view key s.cluster).held server).row = some entity →
      entity.Valid ∧ entity.data = value)
    (run : Run (CarefulSteps settings group key) (.start s) events u) : Coherent group (view key u.threads.cluster) := by
  have more : group.members.length ≠ 2 := by
    have size := group.servers_length
    omega
  obtain ⟨value,same⟩ := start
  have kept : ∃ staging value, FixedThreads settings group u.threads staging ∧
      Counting group (threadView group key u.threads staging) ∧ Exclusive (threadView group key u.threads staging) ∧
      Current group u.history (threadView group key u.threads staging) value := by
    refine run.always (P := fun u => ∃ staging value, FixedThreads settings group u.threads staging ∧
      Counting group (threadView group key u.threads staging) ∧ Exclusive (threadView group key u.threads staging) ∧
      Current group u.history (threadView group key u.threads staging) value) ?_ ?_
    · refine ⟨_,value,idle.fixed,?_,?_,?_⟩ <;> rw [Watched.start,idle_view]
      · exact .start idle.quiet
      · exact .start idle.quiet
      · exact .start idle.quiet fun server member entity row => (same server member entity row).2
    · rintro u event u' ⟨staging,value,fixed,counting,exclusive,current⟩ ⟨⟨permitted,careful⟩,move⟩
      obtain ⟨t,taken,rfl⟩ := Option.map_eq_some_iff.mp move
      obtain ⟨staging',fixed',steps⟩ := fixed.step permitted taken
      have separate := separate_of_careful fixed careful
      have counts := counts_of_separate separate
      obtain ⟨value',current'⟩ := current.step fixed counting exclusive careful (steps key)
      exact ⟨staging',value',fixed',counting.step (fixed.threaded key) counts (steps key),
        exclusive.step (fixed.threaded key) counting more separate (steps key),current'⟩
  obtain ⟨staging,value,_,_,_,current⟩ := kept
  intro one memberOne two memberTwo first second rowOne validOne rowTwo validTwo
  rw [current.valid one memberOne first rowOne validOne,current.valid two memberTwo second rowTwo validTwo]

end

/-! ### Two servers -/

/-- `NoneRegistered`, `Awaited` and `Rival`, as far as the calls below `bound` show, -/
def NoneBelow (bound : Nat) (v : KeyView) (server : SpreadGroup) : Prop :=
  ∀ j ∈ List.range bound, ∀ other ∈ v.calls j, other.server = server → ¬ other.pc.Registered
def AwaitedBelow (bound : Nat) (v : KeyView) (server : SpreadGroup) : Prop :=
  ∃ j ∈ List.range bound, ∃ call ∈ v.calls j, Undecided call.pc ∧ server ∈ call.acknowledged
def RivalBelow (bound : Nat) (v : KeyView) (server : SpreadGroup) : Prop :=
  ∃ j ∈ List.range bound, ∃ rival ∈ v.calls j, rival.server = server ∧ Cleared rival.pc

instance (bound : Nat) (v : KeyView) (server : SpreadGroup) : Decidable (NoneBelow bound v server) :=
  inferInstanceAs (Decidable (∀ j ∈ List.range bound, ∀ other ∈ v.calls j, other.server = server → ¬ other.pc.Registered))
instance (bound : Nat) (v : KeyView) (server : SpreadGroup) : Decidable (AwaitedBelow bound v server) :=
  inferInstanceAs (Decidable (∃ j ∈ List.range bound, ∃ call ∈ v.calls j, _ ∧ _))
instance (bound : Nat) (v : KeyView) (server : SpreadGroup) : Decidable (RivalBelow bound v server) :=
  inferInstanceAs (Decidable (∃ j ∈ List.range bound, ∃ rival ∈ v.calls j, _ ∧ _))

instance (key : String) (server : SpreadGroup) (busy : Listening) : Decidable (GrantsKey key server busy) := by
  unfold GrantsKey
  have about : Decidable (match busy.packet.body with
      | .regular (.wantToWrite data) => data.key = key
      | _ => False) := by
    split <;> infer_instance
  infer_instance

/-- and `Careful`. -/
def CarefulBelow (bound : Nat) (group : Group) (key : String) (s : Watched) : Event → Prop
  | .thread i .go => ∀ call ∈ (view key s.threads.cluster).calls i,
      (call.pc = .putWantToWrite → NoneBelow bound (view key s.threads.cluster) call.server ∧
        ∀ busy ∈ s.threads.listening call.server, ¬ GrantsKey key call.server busy) ∧
      (call.pc = .saveData .conflictWon → ¬ AwaitedBelow bound (view key s.threads.cluster) call.server ∧
        ∀ other ∈ group.others call.server, other ∈ call.acknowledged ∨ RivalBelow bound (view key s.threads.cluster) other) ∧
      (call.pc = .saveCopy → s.history.stale i = false ∧ (NoneBelow bound (view key s.threads.cluster) call.server ∧
        ∀ busy ∈ s.threads.listening call.server, ¬ GrantsKey key call.server busy) ∧
        ¬ AwaitedBelow bound (view key s.threads.cluster) call.server)
  | .listen server _ => ∀ busy ∈ s.threads.listening server,
      (∀ found ∈ incrementsNext busy.handler, found.1 = key → busy.packet.call = some found.2.callback) ∧
      (busy.packet.body = .regular (.revalidateData key) → ∀ entity ∈ savesNext busy.handler,
        ((view key s.threads.cluster).held server).row ≠ some entity →
          (∃ row ∈ ((view key s.threads.cluster).held server).row, row.data = entity.data) ∧ s.history.outdated server = false ∧
            NoneBelow bound (view key s.threads.cluster) server ∧ ¬ AwaitedBelow bound (view key s.threads.cluster) server)
  | _ => True

instance (bound : Nat) (group : Group) (key : String) (s : Watched) : DecidablePred (CarefulBelow bound group key s)
  | .thread i .go => inferInstanceAs (Decidable (∀ call ∈ (view key s.threads.cluster).calls i, _ ∧ _ ∧ _))
  | .listen server _ => inferInstanceAs (Decidable (∀ busy ∈ s.threads.listening server, _ ∧ (_ → ∀ entity ∈ savesNext busy.handler, _)))
  | .thread _ .fails | .thread _ .expires | .call _ _ _ | .view _ | .boot _ | .receive _ => isTrue trivial

section
variable {bound : Nat} {group : Group} {key : String} {v : KeyView} {server : SpreadGroup} {s : Watched} {event : Event}

theorem small_of_below (below : Below bound v.calls) {j : Nat} {call : Call} (found : v.calls j = some call) :
    j ∈ List.range bound := by
  rw [List.mem_range]
  by_contra large
  rw [below j (not_lt.mp large)] at found
  cases found

theorem none_of_below (below : Below bound v.calls) (none : NoneBelow bound v server) : NoneRegistered v server :=
  fun j other found => none j (small_of_below below found) other found

theorem not_awaited_of_below (below : Below bound v.calls) (closed : ¬ AwaitedBelow bound v server) : ¬ Awaited v server :=
  fun ⟨j,call,found,open_⟩ => closed ⟨j,small_of_below below found,call,found,open_⟩

theorem rival_of_below (rival : RivalBelow bound v server) : Rival v server :=
  let ⟨j,_,rest⟩ := rival
  ⟨j,rest⟩

theorem below_view {calls : Nat → Option Call} {s : State} (same : s.calls = calls) (below : Below bound calls) :
    Below bound (view key s).calls := by
  intro j large
  subst same
  simp [view,below j large]

theorem careful_of_below (below : Below bound s.threads.cluster.calls) (checked : CarefulBelow bound group key s event) :
    Careful group key s event := by
  have small : Below bound (view key s.threads.cluster).calls := below_view rfl below
  cases event with
  | thread i choice =>
    cases choice with
    | go =>
      intro call found
      obtain ⟨registers,wins,copies⟩ := checked call found
      refine ⟨fun here => ?_,fun here => ?_,fun here => ?_⟩
      · obtain ⟨none,granting⟩ := registers here
        exact ⟨none_of_below small none,granting⟩
      · obtain ⟨closed,others⟩ := wins here
        exact ⟨not_awaited_of_below small closed,fun other member => (others other member).imp_right rival_of_below⟩
      · obtain ⟨fresh,⟨none,granting⟩,closed⟩ := copies here
        exact ⟨fresh,⟨none_of_below small none,granting⟩,not_awaited_of_below small closed⟩
    | _ => trivial
  | listen server sent =>
    intro busy there
    obtain ⟨own,renews⟩ := checked busy there
    refine ⟨own,fun body entity saves changes => ?_⟩
    obtain ⟨same,known,none,closed⟩ := renews body entity saves changes
    exact ⟨same,known,none_of_below small none,not_awaited_of_below small closed⟩
  | _ => trivial

end

/-- A write at server 1 expires after server 2 has invalidated its copy, and revalidates it. -/
def firstExpires : List Event := List.flatten
  [[.call 0 server1 (.write ⟨"k","one"⟩)],goes 0 5,handles ⟨server2,server1,.regular (.wantToWrite ⟨"k","one"⟩),some 0⟩ 4,
   [.thread 0 .expires],goes 0 2,handles ⟨server2,server1,.regular (.revalidateData "k"),some 0⟩ 2]

/-- Both servers write; server 1 refuses server 2, which wins on that. -/
def secondWins : List Event := List.flatten
  [[.call 1 server2 (.write ⟨"k","new"⟩),.call 2 server1 (.write ⟨"k","other"⟩)],goes 1 5,goes 2 4,
   handles ⟨server1,server2,.regular (.wantToWrite ⟨"k","new"⟩),some 1⟩ 4,
   handles ⟨server2,server1,.regular (.writeConflict ⟨"k","new"⟩),some 1⟩ 3,goes 1 7,goes 2 6]

/-- Server 1 reads what server 2 has written. -/
def firstReads : List Event := List.flatten
  [[.call 3 server1 (.read "k")],goes 3 3,handles ⟨server2,server1,.regular (.askData "k"),some 3⟩ 2,
   handles ⟨server1,server2,.regular (.askDataResponse ⟨"k","new"⟩),some 3⟩ 3,goes 3 3]

theorem oldValue_copies : ∀ server ∈ pair.servers, ∀ entity,
    ((view "k" (idleThreads pair Serial.oldValue).cluster).held server).row = some entity → entity.Valid ∧ entity.data = "old" := by
  intro server _ entity row
  by_cases same : server = server2
  · subst same
    cases row
    exact ⟨by decide,rfl⟩
  · simp [view,fields,idleThreads,Group.initial,Serial.oldValue,same] at row

theorem copies_coherent_pair : ∃ u : Watched,
    (u.threads.cluster.servers server1).database.findById "k" = some (.ofDto ⟨"k","new"⟩) ∧
    (u.threads.cluster.servers server2).database.findById "k" = some (.ofDto ⟨"k","new"⟩) ∧
    Coherent pair (view "k" u.threads.cluster) := by
  obtain ⟨u,executed,first,second⟩ := exists_run_of_exec (watch .properties "k")
    (fun s event => Permitted pair event ∧ EventNumbered 4 event ∧ CarefulBelow 4 pair "k" s event)
    (fun u => (u.threads.cluster.servers server1).database.findById "k" = some (.ofDto ⟨"k","new"⟩) ∧
      (u.threads.cluster.servers server2).database.findById "k" = some (.ofDto ⟨"k","new"⟩))
    (.start (idleThreads pair Serial.oldValue)) (firstExpires ++ secondWins ++ firstReads) (by decide +kernel)
  have run : Run (CarefulSteps .properties pair "k") (.start (idleThreads pair Serial.oldValue))
      (firstExpires ++ secondWins ++ firstReads) u := by
    refine (executed.simulate id ?_ (fun s event t (below : Below 4 s.threads.cluster.calls) move => ?_) ?_).1
    · exact fun _ _ => rfl
    · obtain ⟨⟨_,numbered,_⟩,move⟩ := move
      obtain ⟨_,taken,rfl⟩ := Option.map_eq_some_iff.mp move
      exact below_event below numbered taken
    · rintro s event t below ⟨⟨permitted,_,checked⟩,move⟩
      exact ⟨⟨permitted,careful_of_below below checked⟩,move⟩
  exact ⟨u,first,second,copies_coherent (idleThreads_idle pair _) (by decide) ⟨"old",oldValue_copies⟩ run⟩

/-- Server 1 asks for the value; before the answer arrives server 2, which gave it,
    has written another. -/
def staleAnswer : List Event := List.flatten
  [[.call 0 server1 (.read "k")],goes 0 3,handles ⟨server2,server1,.regular (.askData "k"),some 0⟩ 2,
   [.call 1 server2 (.write ⟨"k","new"⟩)],goes 1 5,
   handles ⟨server1,server2,.regular (.wantToWrite ⟨"k","new"⟩),some 1⟩ 3,
   handles ⟨server2,server1,.regular (.wantToWriteResponse "k"),some 1⟩ 5,goes 1 4,
   handles ⟨server1,server2,.regular (.askDataResponse ⟨"k","old"⟩),some 0⟩ 3,goes 0 2]

/-- A read keeps a copy of a value that has been overwritten since. -/
theorem copies_differ : ¬ ∀ (s t : Threads) (events : List Event), Idle pair s →
    (∃ value, ∀ server ∈ pair.servers, ∀ entity, ((view "k" s.cluster).held server).row = some entity →
      entity.Valid ∧ entity.data = value) →
    Run (GroupSteps .properties pair fun _ _ => True) s events t → Coherent pair (view "k" t.cluster) := by
  intro coherent
  obtain ⟨t,run,old,new⟩ := run_of_events .properties pair 2 (fun _ _ => True) (fun _ _ => True) (fun _ _ _ _ => trivial)
    (idleThreads pair Serial.oldValue) (fun _ _ => rfl) staleAnswer
    (fun t => (t.cluster.servers server1).database.findById "k" = some (.ofDto ⟨"k","old"⟩) ∧
      (t.cluster.servers server2).database.findById "k" = some (.ofDto ⟨"k","new"⟩)) (by decide +kernel)
  have same := coherent _ t _ (idleThreads_idle pair _) ⟨"old",oldValue_copies⟩ run server1 (by decide) server2 (by decide) _ _
    old (valid_ofDto _) new (valid_ofDto _)
  exact absurd same (by decide)

end CdPraticas.Coherence
