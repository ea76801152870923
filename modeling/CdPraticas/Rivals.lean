import CdPraticas.Rounds

/-!
# Writes that fight for a key

Several servers have registered a write of one key before any of them has been
asked. Which of these writes can succeed.
-/

namespace CdPraticas.Rivals
open Groups Store Messages Handlers Calls Cluster Keys Runs Rounds

/-- The write has registered itself, whatever became of it since. -/
def Entered (pc : Pc) : Prop := pc.Registered ∨ ∃ exit, pc = .wrote exit ∧ exit ≠ .alone

/-- The calls `rivals` at the servers `server`, all of which have registered a write
    of the key before the WANT_TO_WRITE of one of them was delivered. -/
structure Contest (isLocal : Bool) (key : String) (rivals : Finset Nat) (server : Nat → SpreadGroup) (acts : List Action)
    (s : State) : Prop where
  entered : ∀ i ∈ rivals, ∃ call, s.calls i = some call ∧ call.server = server i ∧ call.request.key = key ∧ Entered call.pc
  undelivered : ∀ i ∈ rivals, ∀ other, ¬ HasHandled acts i other
  ranked : ∀ i ∈ rivals, ∃ cardinality, getServerNameCardinality isLocal (server i) = some cardinality
  different : ∀ i ∈ rivals, ∀ j ∈ rivals, i ≠ j →
    getServerNameCardinality isLocal (server i) ≠ getServerNameCardinality isLocal (server j)

/-- `other` wins a conflict against `server`. -/
def Outranks (isLocal : Bool) (other server : SpreadGroup) : Prop := electLeader isLocal other server = some true

instance (isLocal : Bool) (other server : SpreadGroup) : Decidable (Outranks isLocal other server) :=
  inferInstanceAs (Decidable (_ = _))

theorem Outranks.trans {isLocal : Bool} {high middle low : SpreadGroup} (one : Outranks isLocal high middle)
    (two : Outranks isLocal middle low) : Outranks isLocal high low := by
  unfold Outranks electLeader at *
  cases first : getServerNameCardinality isLocal high <;> cases second : getServerNameCardinality isLocal middle <;>
    cases third : getServerNameCardinality isLocal low <;> simp_all
  omega

theorem Outranks.irrefl {isLocal : Bool} {server : SpreadGroup} (own : Outranks isLocal server server) : False := by
  unfold Outranks electLeader at own
  cases rank : getServerNameCardinality isLocal server <;> simp [rank] at own

/-- Call `i` can no longer succeed. -/
def HasFailed (v : KeyView) (i : Nat) : Prop := ∃ call ∈ v.calls i, call.pc.Failed

instance (v : KeyView) (i : Nat) : Decidable (HasFailed v i) := inferInstanceAs (Decidable (∃ call ∈ v.calls i, _))

/-- The call decides its conflict in its own favour. -/
def Winning (isLocal : Bool) (call : Call) : Prop :=
  call.pc = .handleConflict ∧ call.conflict.bind (electLeader isLocal call.server) = some true

instance (isLocal : Bool) : DecidablePred (Winning isLocal) := fun _ => inferInstanceAs (Decidable (_ ∧ _))

/-- Against the rivals that outrank it a write does not win: it decides a conflict in
    its favour only after they have failed, and none of their servers grants it its
    round, with no round registered, before one of the two writes has failed. -/
def Respects (isLocal : Bool) (rivals : Finset Nat) (server : Nat → SpreadGroup) (v : KeyView) : Action → Prop
  | .thread i .go => i ∈ rivals → (∃ call ∈ v.calls i, Winning isLocal call) →
      ∀ j ∈ rivals, Outranks isLocal (server j) (server i) → HasFailed v j
  | .deliver packet _ => ∀ i ∈ rivals, ∀ j ∈ rivals, Outranks isLocal (server j) (server i) → Asking i (server j) packet →
      (v.held (server j)).slot = none → HasFailed v j ∨ HasFailed v i
  | _ => True

instance (isLocal : Bool) (rivals : Finset Nat) (server : Nat → SpreadGroup) (v : KeyView) :
    DecidablePred (Respects isLocal rivals server v)
  | .thread _ .go => inferInstanceAs (Decidable (_ → _))
  | .deliver packet _ => inferInstanceAs (Decidable (∀ i ∈ rivals, ∀ j ∈ rivals, Outranks isLocal (server j) (server i) →
      Asking i (server j) packet → (v.held (server j)).slot = none → _))
  | .thread _ .fails | .thread _ .expires | .call _ _ _ | .view _ | .boot _ => isTrue trivial

/-- The same, while every response is counted for its own round. -/
def Fair (isLocal : Bool) (key : String) (rivals : Finset Nat) (server : Nat → SpreadGroup) (v : KeyView) (a : Action) : Prop :=
  CountsOwn key v a ∧ Respects isLocal rivals server v a

instance (isLocal : Bool) (key : String) (rivals : Finset Nat) (server : Nat → SpreadGroup) (v : KeyView) :
    DecidablePred (Fair isLocal key rivals server v) := fun _ => inferInstanceAs (Decidable (_ ∧ _))

/-- The write returned success. -/
def Succeeded (s : State) (i : Nat) : Prop :=
  ∃ call exit, s.calls i = some call ∧ call.pc = .wrote exit ∧ exit.success = some true

/-- What a winner leaves to its rivals. -/
structure Decided (isLocal : Bool) (rivals : Finset Nat) (server : Nat → SpreadGroup) (v : KeyView) : Prop where
  granted : ∀ i ∈ rivals, ∀ j ∈ rivals, Outranks isLocal (server j) (server i) → ∀ call, v.calls i = some call →
    server j ∈ call.acknowledged → HasFailed v j ∨ HasFailed v i
  won : ∀ i ∈ rivals, ∀ j ∈ rivals, Outranks isLocal (server j) (server i) → ∀ call, v.calls i = some call →
    call.pc.exit? = some .conflictWon → HasFailed v j

section
variable {settings : Settings} {group : Group} {key : String} {v v' : KeyView} {a : Action} {rivals : Finset Nat}
  {server : Nat → SpreadGroup}

/-! ### One step -/

theorem HasFailed.step {i : Nat} (failed : HasFailed v i) (sound : Sound group key v)
    (step : KeyStep settings group key v a v') : HasFailed v' i := by
  obtain ⟨call,found,failed⟩ := failed
  obtain ⟨after,now,later⟩ := step_later sound step found
  exact ⟨after,now,later.failed failed⟩

theorem move_entered {participants : Int} {stored : Option DataEntity} {call : Call} {choice : Choice} {effect : Effect}
    {pc : Pc} (move : Move settings participants stored call choice effect pc) (fits : call.pc.Fits call.request)
    (entered : Entered call.pc) : Entered pc := by
  cases move with
  | wantToWriteFails _ _ => exact .inr ⟨_,rfl,fun same => (by cases same)⟩
  | removeWantToWrite write here =>
    rw [here,write] at fits
    exact .inr ⟨_,rfl,fits.1⟩
  | _ => simp_all [Entered,Pc.Registered]

/-- The flag of a conflict won comes from a decision in favour of the call. -/
theorem move_won {participants : Int} {stored : Option DataEntity} {call : Call} {choice : Choice} {effect : Effect}
    {pc : Pc} (move : Move settings participants stored call choice effect pc) (won : pc.exit? = some .conflictWon) :
    call.pc.exit? = some .conflictWon ∨ choice = .go ∧ Winning settings.isLocal call := by
  cases move with
  | wins _ here noted elected => exact .inr ⟨rfl,here,by rw [noted]; exact elected⟩
  | _ => simp_all [Pc.exit?]

theorem Entered.step {i : Nat} {call : Call} (entered : Entered call.pc) (sound : Sound group key v)
    (found : v.calls i = some call) (step : KeyStep settings group key v a v') :
    ∃ after, v'.calls i = some after ∧ after.server = call.server ∧ Entered after.pc := by
  obtain ⟨after,now,later⟩ := step_later sound step found
  refine ⟨after,now,later.server,?_⟩
  cases step with
  | elsewhere _ | service _ _ =>
    have same : call = after := Option.some.inj (found.symm.trans now)
    rwa [← same]
  | call fresh _ _ =>
    rcases started_cases now with ⟨rfl,_⟩ | ⟨_,was⟩
    · rw [fresh] at found
      cases found
    · rw [found] at was
      cases was
      exact entered
  | thread running move =>
    rcases moved_cases now with ⟨rfl,rfl⟩ | ⟨_,was⟩
    · rw [found] at running
      cases running
      exact move_entered move (sound.fits _ _ found) entered
    · rw [found] at was
      cases was
      exact entered
  | deliver _ _ _ _ =>
    obtain ⟨before,was,rfl⟩ := handled_cases now
    rw [found] at was
    cases was
    rwa [notify_pc]

theorem Decided.granted_step (decided : Decided settings.isLocal rivals server v) (sound : Sound group key v)
    (step : KeyStep settings group key v a v') (respects : Respects settings.isLocal rivals server v a) {i j : Nat}
    (rival : i ∈ rivals) (other : j ∈ rivals) (outranks : Outranks settings.isLocal (server j) (server i)) {call : Call}
    (found : v'.calls i = some call) (acknowledged : server j ∈ call.acknowledged) : HasFailed v' j ∨ HasFailed v' i := by
  have grown : ∀ {before}, v.calls i = some before → server j ∈ before.acknowledged → HasFailed v' j ∨ HasFailed v' i := by
    intro before was member
    have failed := decided.granted i rival j other outranks before was member
    exact failed.imp (fun failed => failed.step sound step) fun failed => failed.step sound step
  cases step with
  | elsewhere _ | service _ _ => exact grown found acknowledged
  | call _ _ _ =>
    rcases started_cases found with ⟨_,rfl⟩ | ⟨_,was⟩
    · rw [start_acknowledged] at acknowledged
      cases acknowledged
    · exact grown was acknowledged
  | thread running _ =>
    rcases moved_cases found with ⟨rfl,rfl⟩ | ⟨_,was⟩
    · exact grown running acknowledged
    · exact grown was acknowledged
  | @deliver packet sent message held sends callbacks flying plain body handled =>
    obtain ⟨before,was,rfl⟩ := handled_cases found
    rw [notify_acknowledged] at acknowledged
    split_ifs at acknowledged with granting
    · rcases List.mem_cons.mp acknowledged with here | member
      · obtain ⟨tag,_,grants⟩ := granting
        obtain ⟨data,rfl,_,free⟩ := handled_acknowledges handled grants
        have asking : Asking i (server j) packet := ⟨tag,here.symm,by rw [body]; trivial⟩
        rw [← here] at free
        have failed := respects i rival j other outranks asking free
        have step : KeyStep settings group key v (.deliver packet sent) (v.handled group packet sent held sends callbacks) :=
          .deliver flying plain body handled
        exact failed.imp (fun failed => failed.step sound step) fun failed => failed.step sound step
      · exact grown was member
    · exact grown was acknowledged

theorem Decided.won_step (decided : Decided settings.isLocal rivals server v) (sound : Sound group key v)
    (step : KeyStep settings group key v a v') (respects : Respects settings.isLocal rivals server v a) {i j : Nat}
    (rival : i ∈ rivals) (other : j ∈ rivals) (outranks : Outranks settings.isLocal (server j) (server i)) {call : Call}
    (found : v'.calls i = some call) (won : call.pc.exit? = some .conflictWon) : HasFailed v' j := by
  suffices failed : HasFailed v j from failed.step sound step
  cases step with
  | elsewhere _ | service _ _ => exact decided.won i rival j other outranks call found won
  | @call _ _ request _ _ _ =>
    rcases started_cases found with ⟨_,rfl⟩ | ⟨_,was⟩
    · cases request <;> cases won
    · exact decided.won i rival j other outranks call was won
  | thread running move =>
    rcases moved_cases found with ⟨rfl,rfl⟩ | ⟨_,was⟩
    · rcases move_won move won with before | ⟨rfl,winning⟩
      · exact decided.won i rival j other outranks _ running before
      · exact respects rival ⟨_,running,winning⟩ j other outranks
    · exact decided.won i rival j other outranks call was won
  | deliver _ _ _ _ =>
    obtain ⟨before,was,rfl⟩ := handled_cases found
    rw [notify_pc] at won
    exact decided.won i rival j other outranks before was won

theorem Decided.step (decided : Decided settings.isLocal rivals server v) (sound : Sound group key v)
    (step : KeyStep settings group key v a v') (respects : Respects settings.isLocal rivals server v a) :
    Decided settings.isLocal rivals server v' :=
  ⟨fun _ rival _ other outranks _ found => decided.granted_step sound step respects rival other outranks found,
    fun _ rival _ other outranks _ found => decided.won_step sound step respects rival other outranks found⟩

/-! ### A whole run -/

variable {s m t : State} {acts more : List Action}

theorem Decided.start (quiet : Quiet group s) : Decided settings.isLocal rivals server (view key s) := by
  have none : ∀ i, (view key s).calls i = none := fun i => by simp [view,quiet.noCalls]
  refine ⟨fun i _ _ _ _ call found => ?_,fun i _ _ _ _ call found => ?_⟩
  · rw [none i] at found
    cases found
  · rw [none i] at found
    cases found

theorem run_entered {allowed : KeyView → Action → Prop} {i : Nat} {call : Call}
    (run : Run (KeySteps settings group key allowed) v acts v') (found : v.calls i = some call) (entered : Entered call.pc) :
    ∃ after, v'.calls i = some after ∧ after.server = call.server ∧ Entered after.pc := by
  refine run.always (P := fun v => ∃ after, v.calls i = some after ∧ after.server = call.server ∧ Entered after.pc)
    ⟨call,found,rfl,entered⟩ fun v a v' there move => ?_
  obtain ⟨before,was,same,entered⟩ := there
  obtain ⟨after,now,kept,still⟩ := entered.step move.1 was move.2.2
  exact ⟨after,now,kept.trans same,still⟩

/-- A write that has succeeded has not failed. -/
theorem not_failed {i : Nat} {call : Call} {exit : Exit} (found : v.calls i = some call) (returned : call.pc = .wrote exit)
    (success : exit.success = some true) : ¬ HasFailed v i := by
  rintro ⟨other,was,failed⟩
  rw [Option.mem_def,found] at was
  cases was
  rw [returned] at failed
  exact failed success

/-- Of two winners the one that is outranked did not win. -/
theorem Decided.beats (decided : Decided settings.isLocal rivals server v) (inRound : InRound group v)
    (sound : Sound group key v) {i j : Nat} (rival : i ∈ rivals) (other : j ∈ rivals)
    (outranks : Outranks settings.isLocal (server j) (server i)) {loser winner : Call} (lost : v.calls i = some loser)
    (won : v.calls j = some winner) (here : loser.server = server i) (there : winner.server = server j)
    (entered : Entered loser.pc) {exit : Exit} (returned : loser.pc = .wrote exit) (success : exit.success = some true) :
    HasFailed v j := by
  have standing : ¬ HasFailed v i := not_failed lost returned success
  have left : loser.pc.exit? = some exit := by rw [returned]; rfl
  cases exit with
  | alone =>
    rw [returned] at entered
    rcases entered with registered | ⟨_,same,notAlone⟩
    · exact registered.elim
    · cases same
      exact absurd rfl notAlone
  | allResponses =>
    have elsewhere : server j ≠ server i := by
      intro same
      rw [same] at outranks
      exact outranks.irrefl
    have member : server j ∈ group.others loser.server := by
      rw [here]
      exact Group.mem_others.mpr ⟨there ▸ sound.located j winner won,elsewhere⟩
    have acknowledged := (inRound.tallied.left i loser lost left).acknowledged member
    exact (decided.granted i rival j other outranks loser lost acknowledged).resolve_right standing
  | conflictWon => exact decided.won i rival j other outranks loser lost left
  | _ => cases success

/-- In every fair run at most one of the rivals returns success. -/
theorem at_most_one_winner (quiet : Quiet group s)
    (first : Run (group.Steps settings key (Fair settings.isLocal key rivals server)) s acts m)
    (contest : Contest settings.isLocal key rivals server acts m)
    (later : Run (group.Steps settings key (Fair settings.isLocal key rivals server)) m more t) :
    ∀ i ∈ rivals, ∀ j ∈ rivals, Succeeded t i → Succeeded t j → i = j := by
  obtain ⟨firstSeen,fixed⟩ := view_run quiet.fixed first
  obtain ⟨laterSeen,fixed'⟩ := view_run fixed later
  have whole := firstSeen.append laterSeen
  have inRound := run_in_round (fun _ _ fair => fair.1) ⟨quiet_formed quiet,quiet_tallied quiet⟩ whole
  have decided := whole.always (Decided.start quiet) fun _ _ _ decided move => decided.step move.1 move.2.2 move.2.1.2
  have known : ∀ i ∈ rivals, ∀ call, t.calls i = some call →
      (view key t).calls i = some call ∧ call.server = server i ∧ Entered call.pc := by
    intro i rival call found
    obtain ⟨before,was,here,about,entered⟩ := contest.entered i rival
    obtain ⟨after,now,same,still⟩ := run_entered laterSeen (view_calls.mpr ⟨was,about⟩) entered
    have there := (view_calls.mp now).1
    rw [found] at there
    cases there
    exact ⟨now,same.trans here,still⟩
  have beaten : ∀ i ∈ rivals, ∀ j ∈ rivals, Outranks settings.isLocal (server j) (server i) → Succeeded t i →
      ¬ Succeeded t j := by
    rintro i rival j other outranks ⟨loser,exit,lost,returned,success⟩ ⟨winner,exit',won,returned',success'⟩
    obtain ⟨lostSeen,here,entered⟩ := known i rival loser lost
    obtain ⟨wonSeen,there,_⟩ := known j other winner won
    have failed := decided.beats inRound (fixed'.sound key) rival other outranks lostSeen wonSeen here there entered returned
      success
    exact not_failed wonSeen returned' success' failed
  intro i rival j other one two
  by_contra distinct
  obtain ⟨mine,mineIs⟩ := contest.ranked i rival
  obtain ⟨its,itsIs⟩ := contest.ranked j other
  have apart : mine ≠ its := by
    rintro rfl
    exact contest.different i rival j other distinct (mineIs.trans itsIs.symm)
  rcases Nat.lt_or_gt_of_ne apart with less | more
  · exact beaten i rival j other (by simp [Outranks,electLeader,mineIs,itsIs,less]) one two
  · exact beaten j other i rival (by simp [Outranks,electLeader,mineIs,itsIs,more]) two one

end

/-! ### Two and three rivals -/

/-- Call `i` is made at server `i + 1`. -/
def inOrder (i : Nat) : SpreadGroup := if i = 0 then server1 else if i = 1 then server2 else server3

/-- The first `n` servers write, each up to its first sleep. -/
def allWrite (n : Nat) : List Action :=
  (List.range n).flatMap fun i => .call i (inOrder i) (.write ⟨"k","new"⟩) :: goOn i 5

/-- Server 1's WANT_TO_WRITE reaches the server of call `i`, which finds the conflict. -/
def meets (i steps : Nat) : List Action :=
  .deliver ⟨inOrder i,server1,.regular (.wantToWrite ⟨"k","new"⟩),some 0⟩ true :: goOn i steps

theorem unhandled {acts : List Action} (none : ∀ a ∈ acts, ¬ Delivers (fun _ => True) a) (i : Nat) (other : SpreadGroup) :
    ¬ HasHandled acts i other := by
  rintro ⟨a,inside,delivers⟩
  refine none a inside ?_
  cases a with
  | deliver _ _ => trivial
  | _ => exact delivers

/-- The first `n` servers contend once they all write. -/
theorem contest_inOrder {n : Nat} {s m : State} (run : Run (Steps (step .properties)) s (allWrite n) m)
    (entered : ∀ i ∈ Finset.range n, ((endOf (step .properties) s (allWrite n)).calls i).map
      (fun call => (call.server,call.request.key,call.pc)) = some (inOrder i,"k",.sleepWrite))
    (ranked : ∀ i ∈ Finset.range n, getServerNameCardinality true (inOrder i) = some (i + 1))
    (none : ∀ a ∈ allWrite n, ¬ Delivers (fun _ => True) a) : Contest true "k" (Finset.range n) inOrder (allWrite n) m := by
  refine ⟨fun i rival => ?_,fun i _ => unhandled none i,fun i rival => ⟨_,ranked i rival⟩,fun i rival j other distinct => ?_⟩
  · obtain ⟨call,found,same⟩ := Option.map_eq_some_iff.mp (entered i rival)
    rw [run.endOf_eq] at found
    simp only [Prod.mk.injEq] at same
    obtain ⟨here,about,at_⟩ := same
    exact ⟨call,found,here,about,.inl (by rw [at_]; trivial)⟩
  · rw [ranked i rival,ranked j other]
    simpa using distinct

/-- Server 2 meets server 1 and wins, and its conflict message makes server 1 yield. -/
def oneWinner : List Action := List.flatten
  [meets 1 6,[.deliver ⟨server1,server2,.regular (.writeConflict ⟨"k","new"⟩),some 0⟩ true],goOn 0 5]

theorem at_most_one_winner_pair : ∃ m t, Contest true "k" (Finset.range 2) inOrder (allWrite 2) m ∧
    Run (pair.Steps .properties "k" (Fair true "k" (Finset.range 2) inOrder)) m oneWinner t ∧ Succeeded t 1 ∧
    ∀ i ∈ Finset.range 2, ∀ j ∈ Finset.range 2, Succeeded t i → Succeeded t j → i = j := by
  obtain ⟨t,run,call,found,won⟩ := run_of_checked .properties pair "k" 2 (Fair true "k" (Finset.range 2) inOrder)
    (Fair true "k" (Finset.range 2) inOrder) (fun _ _ _ fair => fair) (pair.initial fun _ => ∅) (fun _ _ => rfl)
    (allWrite 2 ++ oneWinner) (fun t => ∃ call ∈ t.calls 1, call.pc = .wrote .conflictWon) (by decide +kernel)
  obtain ⟨m,first,later⟩ := run.split
  have contest := contest_inOrder (n := 2) first.unrestrict (by decide) (by decide) (by decide)
  exact ⟨m,t,contest,later,⟨call,_,found,won,rfl⟩,at_most_one_winner (initial_quiet pair _) first contest later⟩

/-- Servers 2 and 3 both meet server 1, note it as their last conflict sender and win. -/
theorem two_winners : ¬ ∀ (s m t : State) (acts more : List Action) (rivals : Finset Nat) (server : Nat → SpreadGroup),
    Quiet trio s → Run (trio.Steps .properties "k" Anything) s acts m → Contest true "k" rivals server acts m →
    Run (trio.Steps .properties "k" Anything) m more t →
    ∀ i ∈ rivals, ∀ j ∈ rivals, Succeeded t i → Succeeded t j → i = j := by
  intro one
  obtain ⟨t,run,⟨second,found,won⟩,third,found',won'⟩ := run_of_checked .properties trio "k" 3 Anything Anything
    (fun _ _ _ any => any) (trio.initial fun _ => ∅) (fun _ _ => rfl) (allWrite 3 ++ (meets 1 6 ++ meets 2 6))
    (fun t => (∃ call ∈ t.calls 1, call.pc = .wrote .conflictWon) ∧ ∃ call ∈ t.calls 2, call.pc = .wrote .conflictWon)
    (by decide +kernel)
  obtain ⟨m,first,later⟩ := run.split
  have contest := contest_inOrder (n := 3) first.unrestrict (by decide) (by decide) (by decide)
  have same := one _ m t _ _ _ _ (initial_quiet trio _) first contest later 1 (by decide) 2 (by decide)
    ⟨second,_,found,won,rfl⟩ ⟨third,_,found',won',rfl⟩
  exact absurd same (by decide)

end CdPraticas.Rivals
