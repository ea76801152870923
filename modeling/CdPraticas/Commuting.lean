import CdPraticas.Callbacks

/-!
# Messages about different keys commute

A handler of a message about a key reads and changes what the server holds for
that key, and nothing else. So two messages about different keys can be handled
in either order.
-/

namespace CdPraticas.Commuting
open Runs Groups Store Messages Handlers Calls Cluster Keys Callbacks

section
variable (settings : Settings) (self : LeaderManager) (me : SpreadGroup)

/-- Two messages, each with its sender, handled one after the other. -/
def receiveBoth (first second : SpreadGroup × Message) : Outcome :=
  let one := messageReceived settings self me first.1 (.regular first.2)
  let two := messageReceived settings one.manager me second.1 (.regular second.2)
  ⟨two.manager,one.sends ++ two.sends,one.callbacks ++ two.callbacks⟩

end

/-- Outcomes that differ at most in the order of what is sent and invoked. -/
structure Same (one two : Outcome) : Prop where
  database : ∀ key, one.manager.database.findById key = two.manager.database.findById key
  waitingData : one.manager.waitingData = two.manager.waitingData
  wantToWriteData : one.manager.wantToWriteData = two.manager.wantToWriteData
  numberOfParticipants : one.manager.numberOfParticipants = two.manager.numberOfParticipants
  waitStartupDataUpdate : one.manager.waitStartupDataUpdate = two.manager.waitStartupDataUpdate
  sends : one.sends.Perm two.sends
  callbacks : one.callbacks.Perm two.callbacks

/-- A message leaves the entries of the other keys untouched. -/
def Untouched (self after : LeaderManager) (key : String) : Prop := ∀ other, other ≠ key → fields after other = fields self other

/-- No call has callbacks registered under both keys. -/
def Separate (self : LeaderManager) (key key' : String) : Prop :=
  ∀ i, Registered (fields self key) i → ¬ Registered (fields self key') i

section
variable {settings : Settings} {participants : Int} {me sender : SpreadGroup} {held one two : Fields} {message : Message}
  {sends sends' : List Send} {callbacks callbacks' : List Callback}

/-- What a handler does to the key is decided by what is held for it. -/
theorem Handled.unique (first : Handled settings participants me sender held message one sends callbacks)
    (second : Handled settings participants me sender held message two sends' callbacks') :
    one = two ∧ sends = sends' ∧ callbacks = callbacks' := by
  cases first <;> cases second <;> simp_all [Ignores]

end

section
variable {settings : Settings} {self : LeaderManager} {me : SpreadGroup}
  {one two : SpreadGroup × Message} {key key' : String}

/-- The second message finds its key as it was, and is handled as if it came first. -/
theorem handled_second (settings : Settings) (self : LeaderManager) (me : SpreadGroup)
    (about : one.2.key? = some key) (about' : two.2.key? = some key')
    (different : key ≠ key') :
    fields (receiveBoth settings self me one two).manager key' =
        fields (messageReceived settings self me two.1 (.regular two.2)).manager key' ∧
      (messageReceived settings (messageReceived settings self me one.1 (.regular one.2)).manager
          me two.1 (.regular two.2)).sends =
        (messageReceived settings self me two.1 (.regular two.2)).sends ∧
      (messageReceived settings (messageReceived settings self me one.1 (.regular one.2)).manager
          me two.1 (.regular two.2)).callbacks =
        (messageReceived settings self me two.1 (.regular two.2)).callbacks := by
  have later := messageReceived_handled settings (messageReceived settings self me one.1 (.regular one.2)).manager me two.1 about'
  rw [messageReceived_elsewhere settings self me one.1 about different.symm,
    (messageReceived_participants settings self me one.1 about).1] at later
  exact Handled.unique later (messageReceived_handled settings self me two.1 about')

/-- The first one is not touched by it. -/
theorem fields_both (about : one.2.key? = some key) (about' : two.2.key? = some key') (different : key ≠ key') (other : String) :
    fields (receiveBoth settings self me one two).manager other =
      if other = key then fields (messageReceived settings self me one.1 (.regular one.2)).manager key
      else if other = key' then fields (messageReceived settings self me two.1 (.regular two.2)).manager key'
      else fields self other := by
  split_ifs with first second
  · subst first
    exact messageReceived_elsewhere settings _ me two.1 about' different
  · subst second
    exact (handled_second settings self me about about' different).1
  · exact (messageReceived_elsewhere settings _ me two.1 about' second).trans
      (messageReceived_elsewhere settings self me one.1 about first)

theorem receive_same (about : one.2.key? = some key) (about' : two.2.key? = some key') (different : key ≠ key') :
    Same (receiveBoth settings self me one two) (receiveBoth settings self me two one) := by
  have held (other : String) : fields (receiveBoth settings self me one two).manager other =
      fields (receiveBoth settings self me two one).manager other := by
    rw [fields_both about about' different,fields_both about' about different.symm]
    split_ifs with first second
    · exact absurd (first.symm.trans second) different
    all_goals rfl
  obtain ⟨_,sends,callbacks⟩ := handled_second settings self me about about' different
  obtain ⟨_,sends',callbacks'⟩ := handled_second settings self me about' about different.symm
  constructor
  · exact fun other => congrArg Fields.row (held other)
  · exact funext fun other => congrArg Fields.waiting (held other)
  · exact funext fun other => congrArg Fields.slot (held other)
  · simp only [receiveBoth,(messageReceived_participants settings _ me _ about).1,(messageReceived_participants settings _ me _ about').1]
  · simp only [receiveBoth,(messageReceived_participants settings _ me _ about).2,(messageReceived_participants settings _ me _ about').2]
  · simp only [receiveBoth,sends,sends']
    exact List.perm_append_comm
  · simp only [receiveBoth,callbacks,callbacks']
    exact List.perm_append_comm

/-- Each call is left with the same, when it waits for one key only. -/
theorem receive_effects (about : one.2.key? = some key) (about' : two.2.key? = some key') (different : key ≠ key')
    (separate : Separate self key key') (i : Nat) (call : Call) :
    (receiveBoth settings self me one two).callbacks.foldl (invoke i) call =
      (receiveBoth settings self me two one).callbacks.foldl (invoke i) call := by
  obtain ⟨_,_,callbacks⟩ := handled_second settings self me about about' different
  obtain ⟨_,_,callbacks'⟩ := handled_second settings self me about' about different.symm
  have invokes := Handled.invokes settings me one.1 (messageReceived_handled settings self me one.1 about)
  have invokes' := Handled.invokes settings me two.1 (messageReceived_handled settings self me two.1 about')
  simp only [receiveBoth,callbacks,callbacks',List.foldl_append]
  by_cases registered : Registered (fields self key) i
  · have others : ∀ callback ∈ (messageReceived settings self me two.1 (.regular two.2)).callbacks, Callback.call callback ≠ i := by
      rintro callback inside rfl
      exact separate _ registered (invokes' callback inside)
    rw [invoked_uncalled others,invoked_uncalled others]
  · have others : ∀ callback ∈ (messageReceived settings self me one.1 (.regular one.2)).callbacks, Callback.call callback ≠ i := by
      rintro callback inside rfl
      exact registered (invokes callback inside)
    rw [invoked_uncalled others,invoked_uncalled others]

end

/-- A call registers its callback under its own key only. -/
theorem Belonging.separate {s : State} (belonging : Belonging s) (server : SpreadGroup) {key key' : String} (different : key ≠ key') :
    Separate (s.servers server) key key' := by
  intro i one two
  obtain ⟨call,found,_,about,_⟩ := belonging.registered server key i one
  obtain ⟨call',found',_,about',_⟩ := belonging.registered server key' i two
  cases found.symm.trans found'
  exact different (about.symm.trans about')

/-- At every server, two messages about different keys come to the same in either
    order and leave each other's keys alone. Every call is left with the same, where
    no call waits for both keys, as in every state of a run. -/
theorem receive_comm (settings : Settings) (self : LeaderManager) (me : SpreadGroup) (one two : SpreadGroup × Message)
    (key key' : String) (about : one.2.key? = some key) (about' : two.2.key? = some key') (different : key ≠ key') :
    Same (receiveBoth settings self me one two) (receiveBoth settings self me two one) ∧
      Untouched self (messageReceived settings self me one.1 (.regular one.2)).manager key ∧
      Untouched self (messageReceived settings self me two.1 (.regular two.2)).manager key' ∧
      (Separate self key key' → ∀ i call, (receiveBoth settings self me one two).callbacks.foldl (invoke i) call =
        (receiveBoth settings self me two one).callbacks.foldl (invoke i) call) ∧
      ∀ start acts s server, Idle start → Run (Steps (step settings)) start acts s → Separate (s.servers server) key key' := by
  refine ⟨receive_same about about' different,?_,?_,?_,?_⟩
  · exact fun other outside => messageReceived_elsewhere settings self me one.1 about outside
  · exact fun other outside => messageReceived_elsewhere settings self me two.1 about' outside
  · exact fun separate => receive_effects about about' different separate
  · exact fun start acts s server idle run => Belonging.separate (.run idle run) server different

/-- A server with two rows, of which one is being written elsewhere. -/
def twoRows : LeaderManager := .initial (Database.save (Database.save ∅ ⟨"a",none,"1"⟩) ⟨"b",some true,"2"⟩)

theorem receive_comm_twoRows :
    Same (receiveBoth .properties twoRows server1 (server2,.wantToWrite ⟨"a","3"⟩) (server3,.dataWritten "b"))
      (receiveBoth .properties twoRows server1 (server3,.dataWritten "b") (server2,.wantToWrite ⟨"a","3"⟩)) :=
  (receive_comm .properties twoRows server1 (server2,.wantToWrite ⟨"a","3"⟩) (server3,.dataWritten "b") "a" "b" rfl rfl
    (by decide)).1

end CdPraticas.Commuting
