import CdPraticas.Convergence

/-!
# An acknowledged write after its leader

The leader answers a write before it multicasts its value. When it departs, the
value is at the next leader if it had been sent there, was taken over there and
nothing older came after it.
-/

namespace CdPraticas.Survival
open Groups Replicas Transactions ReplicaGroup Agreement Copies Runs

/-- Where a write stands whose value is stored at its server and not sent yet. -/
def unsent : List Pc := [.answerWrite,.testAppend,.sendAppend]

/-- No write of `key` puts its value into a database. -/
def NoPut (key : String) (s : State) : Action → Prop
  | .thread i _ => ∀ call data, s.calls i = some call → call.pc = .put → call.request ≠ .write key data
  | _ => True

/-- The next leader has the value, or it is on its way there. -/
def Arriving (heir : Nat) (key data : String) (s : State) : Prop :=
  heir < s.started ∧ (s.managers heir).database key = some data ∨ ⟨heir,.appendData key data⟩ ∈ s.network

/-- The leader has still to send it. -/
def Outgoing (leader : Nat) (key data : String) (s : State) : Prop :=
  leader ∈ s.members ∧ Underway unsent leader (.write key data) s

/-- The ways in which the value gets lost, each where the value is neither there
    nor on its way there: a server that takes itself for the leader lets an
    APPEND_DATA pass, and another server takes over what an earlier write sent;
    the leader departs before it has sent the value, no longer takes itself for
    the leader then, or sends it when the next leader is not a member yet. -/
def Kept (leader heir : Nat) (key data : String) (s : State) : Action → Prop
  | .deliver packet =>
    ∀ brought, packet = ⟨heir,.appendData key brought⟩ →
      (if (s.managers heir).amILeader then (s.managers heir).database key = some data else brought = data) ∨
      ⟨heir,.appendData key data⟩ ∈ s.network.erase packet ∨ Outgoing leader key data s
  | .depart server _ => server = leader → Arriving heir key data s
  | .thread i _ =>
    ∀ call, s.calls i = some call → call.server = leader → call.request = .write key data →
      (call.pc = .testAppend → (s.managers leader).amILeader = true ∨ Arriving heir key data s) ∧
      (call.pc = .sendAppend → heir ∈ s.members ∨ Arriving heir key data s)
  | _ => True

/-- A write of `data` under `key` is answered by `leader`, no other is stored
    after it, the leader goes, and `heir` leads what is left of the group when
    every change is handled and every message is delivered. `allowed` restricts
    the steps after the answer. -/
inductive Succession (reach : Nat → Option Nat) (allowed : State → Action → Prop) (leader heir : Nat) (key data : String)
    (s : State) : Prop
  | intro {before after : List Action} {s₀ s₁ : State} {i fresh : Nat} {call : Call}
      (reached : Run (Steps (step reach)) initial before s₀)
      (called : s₀.calls i = some call) (server : call.server = leader) (write : call.request = .write key data)
      (here : call.pc = .answerWrite) (member : leader ∈ s₀.members) (leads : (s₀.managers leader).amILeader = true)
      (answers : step reach (.thread i fresh) s₀ = some s₁)
      (run : Run (Restrict (fun s a => NoPut key s a ∧ allowed s a) (Steps (step reach))) s₁ after s)
      (gone : leader ∉ s.members) (elected : heir ∈ s.members) (takesOver : (s.managers heir).amILeader = true)
      (remains : ∃ member ∈ s.members, member ∈ s₀.members) (handled : s.unhandled = []) (quiet : s.network = 0) :
      Succession reach allowed leader heir key data s

theorem Succession.mono {reach : Nat → Option Nat} {allowed allowed' : State → Action → Prop} {leader heir : Nat}
    {key data : String} {s : State} (succession : Succession reach allowed leader heir key data s)
    (weaker : ∀ s a, allowed s a → allowed' s a) : Succession reach allowed' leader heir key data s := by
  obtain ⟨reached,called,server,write,here,member,leads,answers,run,gone,elected,takesOver,remains,handled,quiet⟩ := succession
  refine .intro reached called server write here member leads answers (run.mono fun s a _ move => ?_) gone elected takesOver
    remains handled quiet
  exact ⟨⟨move.1.1,weaker s a move.1.2⟩,move.2⟩

/-- Where the value is until the next leader has it for good. -/
structure Safe (leader heir : Nat) (key data : String) (s : State) : Prop where
  numbered : Numbered s
  known : Gone heir s ∨ Arriving heir key data s ∨ Outgoing leader key data s

section
variable {s t : State} {reach : Nat → Option Nat} {leader heir : Nat} {key data : String} {a : Action}

/-- The write goes on until it is sent, while its server stays. -/
theorem Outgoing.step (outgoing : Outgoing leader key data s) (heir : Nat) (stays : ∀ left, a ≠ .depart leader left)
    (kept : Kept leader heir key data s a) (move : step reach a s = some t) :
    Outgoing leader key data t ∨ ⟨heir,.appendData key data⟩ ∈ t.network ∨
      (∃ i fresh, a = .thread i fresh) ∧ Arriving heir key data s := by
  obtain ⟨member,underway⟩ := outgoing
  have member' : leader ∈ t.members := by
    rw [(step_roll move).1]
    cases a with
    | join => exact List.mem_append_left _ member
    | depart other left =>
      refine (List.mem_erase_of_ne ?_).mpr member
      rintro rfl
      exact stays left rfl
    | _ => exact member
  rcases underway_step move underway with later | ⟨i,fresh,call,rfl,called,server,write,stage,turn⟩
  · exact .inl ⟨member',later⟩
  obtain ⟨tests,sends⟩ := kept call called server write
  have goes {call' : Call} (now : t.calls i = some call') (at_server : call'.server = call.server)
      (request : call'.request = call.request) (next : call'.pc ∈ unsent) : Outgoing leader key data t :=
    ⟨member',i,call',now,at_server.trans server,request.trans write,next⟩
  cases turn with
  | answerWrite | stillLeads => exact .inl (goes (Function.update_self ..) rfl rfl (by simp [Call.goto,unsent]))
  | noLongerLeads _ here follows =>
    refine .inr (.inr ⟨⟨i,fresh,rfl⟩,(tests here).resolve_left ?_⟩)
    rw [← server,follows]
    simp
  | sendAppend write' here =>
    cases write.symm.trans write'
    rcases sends here with inside | arriving
    · exact .inr (.inl (append_sent (server ▸ member) inside))
    · exact .inr (.inr ⟨⟨i,fresh,rfl⟩,arriving⟩)
  | leadsWrite _ here | put _ here | refers here | forward here | nowhere here | passesOn here => simp [here,unsent] at stage
  | leadsRead read | get read | absent read | mayVote read | mayNotVote read | submitVote read | sendVoting read
  | spin read | isResult read | noResult read | remove read | answerRead read => cases write.symm.trans read

/-- A value that has arrived, or will, is not lost but by a delivery to the next leader. -/
theorem Arriving.step (arriving : Arriving heir key data s) (numbered : Numbered s) (noPut : NoPut key s a)
    (other : ∀ brought, a ≠ .deliver ⟨heir,.appendData key brought⟩) (move : step reach a s = some t) :
    Gone heir t ∨ Arriving heir key data t := by
  rcases arriving with ⟨joined,holds⟩ | flies
  · refine .inr (.inl ⟨joined.trans_le (started_le move),?_⟩)
    rw [step_database move fun _ _ _ => joined.ne]
    rcases stores : stored s a with _ | entry
    · exact holds
    have aside : ¬ (entry.server = heir ∧ entry.key = key) := by
      rintro ⟨rfl,rfl⟩
      rcases stored_cases stores with ⟨rfl,-⟩ | ⟨i,fresh,call,rfl,called,-,write,put⟩
      · exact other _ rfl
      · exact noPut call entry.data called put write
    rw [after,if_neg aside]
    exact holds
  · by_cases departs : ∃ left, a = .depart heir left
    · obtain ⟨left,rfl⟩ := departs
      refine .inl ⟨(numbered.addressed _ flies).trans_le (started_le move),?_⟩
      rw [(step_roll move).1]
      exact numbered.nodup.not_mem_erase
    · refine .inr (.inr (Multiset.mem_of_le (step_network move) ?_))
      cases a with
      | deliver packet =>
        refine (Multiset.mem_erase_of_ne ?_).mpr flies
        rintro rfl
        exact other data rfl
      | depart server left =>
        refine Multiset.mem_filter.mpr ⟨flies,?_⟩
        rintro rfl
        exact departs ⟨left,rfl⟩
      | _ => exact flies

/-- A write that has just been answered is still to be sent. -/
theorem outgoing_answered {i fresh : Nat} {call : Call} (called : s.calls i = some call) (server : call.server = leader)
    (write : call.request = .write key data) (here : call.pc = .answerWrite) (member : leader ∈ s.members)
    (answers : ReplicaGroup.step reach (.thread i fresh) s = some t) : Outgoing leader key data t := by
  have moved : stepCall reach s i fresh call = some t := by simpa [ReplicaGroup.step,called] using answers
  simp only [stepCall,here,write,Option.some.injEq] at moved
  subst moved
  exact ⟨member,i,_,Function.update_self ..,server,rfl,by simp [unsent]⟩

/-- What a delivery to the next leader leaves. -/
theorem Safe.delivered {brought : String} (numbered : Numbered s)
    (kept : Kept leader heir key data s (.deliver ⟨heir,.appendData key brought⟩))
    (move : step reach (.deliver ⟨heir,.appendData key brought⟩) s = some t) :
    Arriving heir key data t ∨ Outgoing leader key data t := by
  rcases kept brought rfl with here | flies | outgoing
  · have flying : (⟨heir,.appendData key brought⟩ : Packet) ∈ s.network := by
      cases stepped move with
      | deliver flying _ => exact flying
    have joined : heir < s.started := numbered.addressed _ flying
    refine .inl (.inl ⟨joined.trans_le (started_le move),?_⟩)
    rw [step_database move fun _ _ _ => joined.ne]
    cases leads : (s.managers heir).amILeader with
    | true =>
      rw [leads,if_pos rfl] at here
      simpa [stored,leads] using here
    | false =>
      rw [leads,if_neg (by simp)] at here
      simp [stored,leads,after,here]
  · exact .inl (.inr (Multiset.mem_of_le (step_network move) flies))
  · rcases outgoing.step heir (by simp) kept move with later | flies | ⟨⟨i,fresh,thread⟩,-⟩
    · exact .inr later
    · exact .inl (.inr flies)
    · cases thread

theorem Safe.step (safe : Safe leader heir key data s) (noPut : NoPut key s a) (kept : Kept leader heir key data s a)
    (move : step reach a s = some t) : Safe leader heir key data t := by
  refine ⟨safe.numbered.step move,?_⟩
  by_cases delivered : ∃ brought, a = .deliver ⟨heir,.appendData key brought⟩
  · obtain ⟨brought,rfl⟩ := delivered
    exact .inr (Safe.delivered safe.numbered kept move)
  have stays (here : Arriving heir key data s) : Gone heir t ∨ Arriving heir key data t ∨ Outgoing leader key data t :=
    (here.step safe.numbered noPut (fun brought same => delivered ⟨brought,same⟩) move).imp_right .inl
  rcases safe.known with gone | arriving | outgoing
  · exact .inl (gone.step move)
  · exact stays arriving
  · by_cases departs : ∃ left, a = .depart leader left
    · obtain ⟨left,rfl⟩ := departs
      exact stays (kept rfl)
    · rcases outgoing.step heir (fun left same => departs ⟨left,same⟩) kept move with later | flies | ⟨-,arriving⟩
      · exact .inr (.inr later)
      · exact .inr (.inl (.inr flies))
      · exact stays arriving

end

/-- In every run in which each step after the answer meets the condition, the
    next leader has the value. -/
theorem acknowledged_write_survives (reach : Nat → Option Nat) (leader heir : Nat) (key data : String) (s : State)
    (succession : Succession reach (Kept leader heir key data) leader heir key data s) :
    (s.managers heir).database key = some data := by
  obtain ⟨reached,called,server,write,here,member,_,answers,run,gone,elected,_,_,_,quiet⟩ := succession
  have numbered : Numbered _ := reached.always numbered_initial fun _ _ _ numbered move => numbered.step move
  have safe : Safe leader heir key data s := by
    refine run.always ⟨numbered.step answers,.inr (.inr ?_)⟩ fun _ _ _ safe move => safe.step move.1.1 move.1.2 move.2
    exact outgoing_answered called server write here member answers
  rcases safe.known with left | (⟨-,holds⟩ | flies) | outgoing
  · exact absurd elected left.2
  · exact holds
  · simp [quiet] at flies
  · exact absurd outgoing.1 gone

/-- Stronger conditions that can be computed: no call is about to store anything, -/
def StoresNothing (s : State) : Action → Prop
  | .thread i _ => (s.calls i).all (fun call => decide (call.pc ≠ .put)) = true
  | _ => True

/-- and the write is sent while its leader leads, to the next leader, too. -/
def Prompt (leader heir : Nat) (key data : String) (s : State) : Action → Prop
  | .deliver ⟨server,.appendData _ brought⟩ => server = heir → (s.managers heir).amILeader = false ∧ brought = data
  | .depart _ _ => heir < s.started ∧ (s.managers heir).database key = some data
  | .thread _ _ => (s.managers leader).amILeader = true ∧ heir ∈ s.members
  | _ => True

instance (s : State) : DecidablePred (StoresNothing s)
  | .thread _ _ => inferInstanceAs (Decidable (_ = true))
  | .join _ _ | .depart _ _ | .handle _ | .deliver _ | .vote _ | .call _ _ _ => isTrue trivial

instance (leader heir : Nat) (key data : String) (s : State) : DecidablePred (Prompt leader heir key data s)
  | .deliver ⟨_,.appendData _ _⟩ => inferInstanceAs (Decidable (_ → _ ∧ _))
  | .depart _ _ | .thread _ _ => inferInstanceAs (Decidable (_ ∧ _))
  | .deliver ⟨_,.newLeader _⟩ | .deliver ⟨_,.whoIsLeader⟩ | .deliver ⟨_,.consensusVoting _ _ _⟩ => isTrue trivial
  | .join _ _ | .handle _ | .vote _ | .call _ _ _ => isTrue trivial

theorem StoresNothing.noPut {s : State} {a : Action} (nothing : StoresNothing s a) (key : String) : NoPut key s a := by
  cases a with
  | thread i fresh =>
    intro call data called put
    simp [StoresNothing,called,put] at nothing
  | _ => trivial

theorem Prompt.kept {leader heir : Nat} {key data : String} {s : State} {a : Action} (prompt : Prompt leader heir key data s a) :
    Kept leader heir key data s a := by
  cases a with
  | deliver packet =>
    rintro brought rfl
    obtain ⟨follows,same⟩ := prompt rfl
    exact .inl (by simp [follows,same])
  | depart server left => exact fun _ => .inl prompt
  | thread i fresh => exact fun _ _ _ _ => ⟨fun _ => .inl prompt.1,fun _ => .inl prompt.2⟩
  | _ => trivial

/-- Server1 has stored a write and is about to answer it. -/
def aboutToAnswer : List Action := introduced ++ [.call 0 0 (.write "k" "a"),.thread 0 0,.thread 0 0]

/-- The value is sent and taken over before Server1 disconnects. -/
def handedOn : List Action :=
  [.thread 0 0,.thread 0 0,.deliver ⟨0,.appendData "k" "a"⟩,.deliver ⟨1,.appendData "k" "a"⟩,.depart 0 false,.handle 1,
   .deliver ⟨1,.newLeader (serverName 9)⟩]

/-- Server1 disconnects first. -/
def notHandedOn : List Action := [.depart 0 false,.handle 1,.deliver ⟨1,.newLeader (serverName 9)⟩]

/-- The succession of Server9 in a run that can be computed. -/
theorem succession_of_exec (allowed : State → Action → Prop) [∀ s, DecidablePred (allowed s)] (P : State → Prop)
    [DecidablePred P] (acts : List Action)
    (done : (exec (step fun _ => none) (fun s a => decide (StoresNothing s a ∧ allowed s a))
      (endOf (step fun _ => none) initial (aboutToAnswer ++ [.thread 0 0])) acts).any (fun t => decide
        ((0 ∉ t.members ∧ t.members = [1] ∧ (t.managers 1).amILeader = true ∧ t.unhandled = [] ∧ t.network = 0) ∧ P t)) = true) :
    ∃ t, Succession (fun _ => none) allowed 0 1 "k" "a" t ∧ P t := by
  obtain ⟨t,run,⟨gone,members,leads,handled,quiet⟩,holds⟩ := exists_run_of_exec _ _ _ _ _ done
  have before : Run (Steps (step fun _ => none)) initial aboutToAnswer _ := run_endOf _ _ _ (by decide)
  have whole : Run (Steps (step fun _ => none)) initial (aboutToAnswer ++ [.thread 0 0]) _ := run_endOf _ _ _ (by decide)
  obtain ⟨s₀,first,answers⟩ := whole.snoc
  cases first.unique before
  have called : (endOf (step fun _ => none) initial aboutToAnswer).calls 0 =
      some ⟨0,.write "k" "a",.answerWrite,none,none,false⟩ := by decide
  refine ⟨t,.intro before called rfl rfl rfl (by decide)
    (by decide) answers (run.mono fun _ _ _ move => ⟨⟨move.1.1.noPut _,move.1.2⟩,move.2⟩) gone (by simp [members]) leads
    ⟨1,by simp [members],by decide⟩ handled quiet,holds⟩

theorem acknowledged_write_survives_handover :
    ∃ s, Succession (fun _ => none) (Kept 0 1 "k" "a") 0 1 "k" "a" s ∧ (s.managers 1).database "k" = some "a" := by
  obtain ⟨s,succession,-⟩ := succession_of_exec (Prompt 0 1 "k" "a") (fun _ => True) handedOn (by decide)
  have kept : Succession (fun _ => none) (Kept 0 1 "k" "a") 0 1 "k" "a" s := succession.mono fun _ _ prompt => prompt.kept
  exact ⟨s,kept,acknowledged_write_survives _ 0 1 "k" "a" s kept⟩

/-- Server1 answers and disconnects: Server9 leads without the value. -/
theorem acknowledged_write_lost :
    ¬ ∀ (reach : Nat → Option Nat) (leader heir : Nat) (key data : String) (s : State),
      Succession reach (fun _ _ => True) leader heir key data s → (s.managers heir).database key = some data := by
  intro survives
  obtain ⟨s,succession,lost⟩ := succession_of_exec (fun _ _ => True) (fun s => (s.managers 1).database "k" = none) notHandedOn
    (by decide)
  cases lost.symm.trans (survives _ 0 1 "k" "a" s succession)

end CdPraticas.Survival
