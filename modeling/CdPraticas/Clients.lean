import CdPraticas.Directory
import CdPraticas.Runs

/-!
# What the clients are told about the servers

Three kinds of threads of the configuration service interleave: the listener
changes the table and queues a snapshot of it, the loop of `ClientManager`
takes one snapshot from the front of the queue at a time and sends it to every
client, and a registration sends its client a snapshot of its own. The queue
is a stack, so of several snapshots that wait the oldest is sent last.
-/

namespace CdPraticas.Clients
open Runs Groups Directory

/-- How far a call of `servers` got, client by client. -/
inductive Registration
  | absent
  | registered
  | took (servers : ListServers)
  | done
  deriving DecidableEq

/-- A pass of the loop: the list it took and the clients of `forEach`. Every
    client there at the start is visited; one that comes later may be. -/
structure Iteration where
  spreadServers : ListServers
  due : Finset UUID
  visited : Finset UUID

structure State where
  manager : ClientManager
  /-- The listener has changed the table and not yet called `updateClients`. -/
  updating : Bool
  registrations : UUID → Registration
  iteration : Option Iteration
  lastSent : UUID → Option ListServers

def initial (manager : ClientManager) : State :=
  ⟨{ manager with clientsObservers := ∅, updateClientsMessages := [] },false,fun _ => .absent,none,fun _ => none⟩

inductive Action
  | addSpreadServer (server : SpreadGroup)
  | removeSpreadServer (server : SpreadGroup)
  | updateClients
  | registerClient (client : UUID)
  | getAvailableServers (client : UUID)
  | onNext (client : UUID)
  | pop
  | visit (client : UUID)
  | finish

def State.available (s : State) : ListServers := s.manager.getAvailableServers

def State.sendTo (s : State) (client : UUID) (servers : ListServers) : State :=
  { s with lastSent := Function.update s.lastSent client (some servers) }

def State.register (s : State) (client : UUID) (registration : Registration) : State :=
  { s with registrations := Function.update s.registrations client registration }

/-- One step of one thread. The listener handles one message at a time, and
    only it changes the table, so that the snapshot it queues is the table. -/
def step : Action → State → Option State
  | .addSpreadServer server, s =>
    if s.updating then none
    else (s.manager.putServer server).map fun put => { s with manager := put.1, updating := put.2 }
  | .removeSpreadServer server, s =>
    if s.updating then none else some { s with manager := s.manager.dropServer server, updating := true }
  | .updateClients, s =>
    if s.updating then some { s with manager := s.manager.updateClients, updating := false } else none
  | .registerClient client, s =>
    if client ∈ s.manager.clientsObservers then none
    else
      let observers := insert client s.manager.clientsObservers
      some ({ s with manager := { s.manager with clientsObservers := observers } }.register client .registered)
  | .getAvailableServers client, s =>
    match s.registrations client with
    | .registered => some (s.register client (.took s.available))
    | _ => none
  | .onNext client, s =>
    match s.registrations client with
    | .took servers => some ((s.sendTo client servers).register client .done)
    | _ => none
  | .pop, s =>
    match s.iteration, s.manager.updateClientsMessages with
    | none, spreadServers :: rest =>
      some { s with manager := { s.manager with updateClientsMessages := rest }
                    iteration := some ⟨spreadServers,s.manager.clientsObservers,∅⟩ }
    | _, _ => none
  | .visit client, s =>
    match s.iteration with
    | some pass =>
      if client ∈ s.manager.clientsObservers ∧ client ∉ pass.visited then
        some { s.sendTo client pass.spreadServers with
          iteration := some ⟨pass.spreadServers,pass.due.erase client,insert client pass.visited⟩ }
      else none
    | none => none
  | .finish, s =>
    match s.iteration with
    | some pass => if pass.due = ∅ then some { s with iteration := none } else none
    | none => none

/-- The queue is empty and no call or pass is half-done. -/
def AtRest (s : State) : Prop :=
  s.manager.updateClientsMessages = [] ∧ s.updating = false ∧ s.iteration = none ∧
    ∀ client ∈ s.manager.clientsObservers, s.registrations client = .done

/-- Every registered client was last sent the current list. -/
def Told (s : State) : Prop := ∀ client ∈ s.manager.clientsObservers, s.lastSent client = some s.available

/-- A newer list is still to be sent to all clients. -/
def State.Behind (s : State) : Prop := s.updating = true ∨ s.manager.updateClientsMessages ≠ []

/-- The clients that the pass under way has still to visit. -/
def State.due (s : State) : Finset UUID :=
  match s.iteration with
  | some pass => pass.due
  | none => ∅

/-- Where the queue runs empty the list taken is the current one, and so is the
    list that a registration sends, unless a newer list is still on its way to
    the client. -/
def Recent (s : State) : Action → Prop
  | .pop =>
    match s.manager.updateClientsMessages with
    | [last] => s.updating = true ∨ last = s.available
    | _ => True
  | .onNext client =>
    match s.registrations client with
    | .took servers => servers = s.available ∨ s.Behind ∨ client ∈ s.due
    | _ => True
  | _ => True

instance (s : State) : Decidable s.Behind := inferInstanceAs (Decidable (_ ∨ _))

instance (s : State) : DecidablePred (Recent s)
  | .pop =>
    match queue : s.manager.updateClientsMessages with
    | [last] => decidable_of_iff (s.updating = true ∨ last = s.available) (by simp [Recent,queue])
    | [] | _ :: _ :: _ => isTrue (by simp [Recent,queue])
  | .onNext client =>
    match phase : s.registrations client with
    | .took servers => decidable_of_iff (servers = s.available ∨ s.Behind ∨ client ∈ s.due) (by simp [Recent,phase])
    | .absent | .registered | .done => isTrue (by simp [Recent,phase])
  | .addSpreadServer _ | .removeSpreadServer _ | .updateClients | .registerClient _ | .getAvailableServers _
  | .visit _ | .finish => isTrue trivial

instance (s : State) : Decidable (AtRest s) := inferInstanceAs (Decidable (_ ∧ _))
instance (s : State) : Decidable (Told s) := inferInstanceAs (Decidable (∀ _ ∈ _, _))

/-- A client that was not last sent the current list is sent it by its
    registration or by the pass under way. -/
structure Converging (s : State) : Prop where
  pass : ¬ s.Behind → ∀ pass, s.iteration = some pass → pass.spreadServers = s.available
  clients : ¬ s.Behind → ∀ client ∈ s.manager.clientsObservers, s.lastSent client = some s.available ∨
    s.registrations client = .registered ∨ (∃ servers, s.registrations client = .took servers) ∨ client ∈ s.due

theorem Converging.told {s : State} (converging : Converging s) (rest : AtRest s) : Told s := by
  obtain ⟨empty,updated,none,done⟩ := rest
  intro client registered
  have current : ¬ s.Behind := by simp [State.Behind,empty,updated]
  have finished := done client registered
  simpa [finished,none,State.due] using converging.clients current client registered

theorem converging_initial (manager : ClientManager) : Converging (initial manager) where
  pass := by simp [initial]
  clients := by simp [initial]

/-- As long as a newer list is on its way nothing is to be shown. -/
theorem Converging.behind {s : State} (behind : s.Behind) : Converging s :=
  ⟨fun current => absurd behind current,fun current => absurd behind current⟩

/-- Without a change of the table the listener goes back to waiting. -/
theorem putServer_unchanged {manager : ClientManager} {server : SpreadGroup} {put : ClientManager × Bool}
    (done : manager.putServer server = some put) (same : put.2 = false) : put.1 = manager := by
  unfold ClientManager.putServer at done
  split at done
  · cases done
  split at done
  · cases done
    rfl
  split at done
  · cases done
  · cases done
    cases same

theorem Converging.step {s t : State} {a : Action} (converging : Converging s) (recent : Recent s a)
    (move : step a s = some t) : Converging t := by
  obtain ⟨pass,clients⟩ := converging
  cases a with
  | addSpreadServer server =>
    simp only [Clients.step] at move
    split at move
    next => cases move
    next idle =>
      obtain ⟨put,done,rfl⟩ := Option.map_eq_some_iff.mp move
      cases changed : put.2 with
      | true => exact .behind (.inl rfl)
      | false =>
        have same := putServer_unchanged done changed
        have : s.updating = false := by simpa using idle
        rw [same,← this]
        exact ⟨pass,clients⟩
  | removeSpreadServer server =>
    simp only [Clients.step] at move
    split at move
    next => cases move
    next =>
      cases move
      exact .behind (.inl rfl)
  | updateClients =>
    simp only [Clients.step] at move
    split at move
    next =>
      cases move
      exact .behind (.inr (List.cons_ne_nil _ _))
    next => cases move
  | registerClient client =>
    simp only [Clients.step] at move
    split at move
    next => cases move
    next new =>
      cases move
      refine ⟨pass,fun current other member => ?_⟩
      by_cases same : other = client
      · exact .inr (.inl (by simp [State.register,same]))
      · have before : other ∈ s.manager.clientsObservers := (Finset.mem_insert.mp member).resolve_left same
        simpa [State.register,State.available,ClientManager.getAvailableServers,State.due,same] using clients current other before
  | getAvailableServers client =>
    simp only [Clients.step] at move
    split at move
    next =>
      cases move
      refine ⟨pass,fun current other member => ?_⟩
      by_cases same : other = client
      · exact .inr (.inr (.inl ⟨s.available,by simp [State.register,same]⟩))
      · simpa [State.register,State.available,State.due,same] using clients current other member
    next => cases move
  | onNext client =>
    simp only [Clients.step] at move
    split at move
    next servers took =>
      cases move
      refine ⟨pass,fun current other member => ?_⟩
      by_cases same : other = client
      · subst same
        simp only [Recent,took] at recent
        obtain rfl | behind | due := recent
        · exact .inl (by simp [State.register,State.sendTo,State.available])
        · exact absurd behind current
        · exact .inr (.inr (.inr due))
      · simpa [State.register,State.sendTo,State.available,State.due,same] using clients current other member
    next => cases move
  | pop =>
    simp only [Clients.step] at move
    split at move
    next spreadServers rest none queue =>
      cases move
      refine ⟨fun current other taken => ?_,fun current other member => ?_⟩
      · cases taken
        have alone : rest = [] := by_contra fun more => current (.inr more)
        subst alone
        simp only [Recent,queue] at recent
        exact recent.resolve_left fun updating => current (.inl updating)
      · exact .inr (.inr (.inr member))
    next => cases move
  | visit client =>
    simp only [Clients.step] at move
    split at move
    next now under =>
      split at move
      next =>
        cases move
        have newest := fun current => pass current now under
        refine ⟨fun current other taken => ?_,fun current other member => ?_⟩
        · cases taken
          exact newest current
        · by_cases same : other = client
          · exact .inl (by simp [State.sendTo,same,newest current,State.available])
          · simpa [State.sendTo,State.available,State.due,same,under] using clients current other member
      next => cases move
    next => cases move
  | finish =>
    simp only [Clients.step] at move
    split at move
    next now under =>
      split at move
      next empty =>
        cases move
        refine ⟨fun _ _ taken => (by cases taken),fun current other member => ?_⟩
        simpa [State.available,State.due,under,empty] using clients current other member
      next => cases move
    next => cases move

/-- In every run that meets the condition, whenever nothing waits and nothing is
    half-done, every registered client was last sent the current list. -/
theorem clients_converge (manager : ClientManager) (acts : List Action) (s : State)
    (run : Run (Restrict Recent (Steps step)) (initial manager) acts s) (rest : AtRest s) : Told s :=
  have converging : Converging s := run.always (converging_initial manager) fun _ _ _ held move => held.step move.1 move.2
  converging.told rest

/-- The ports of two servers, and the two servers. -/
def twoPorts : AList (fun _ : List Char => Int) := (AList.singleton "Server1".toList 9000).insert "Server2".toList 9000
def server1 : SpreadGroup := ⟨"#Server1#host1"⟩
def server2 : SpreadGroup := ⟨"#Server2#host1"⟩
def client : UUID := ⟨1⟩

/-- Every change of the table reaches the client before the next one. -/
theorem clients_converge_two :
    ∃ acts s, Run (Restrict Recent (Steps step)) (initial (.new twoPorts ∅)) acts s ∧
      s.manager.clientsObservers = {client} ∧ s.available.card = 2 ∧ AtRest s ∧ Told s := by
  obtain ⟨s,run,clients,listed,rest⟩ := exists_run_of_exec step Recent
    (fun s => s.manager.clientsObservers = {client} ∧ s.available.card = 2 ∧ AtRest s) (initial (.new twoPorts ∅))
    ([.registerClient client,.getAvailableServers client,.onNext client,
      .addSpreadServer server1,.updateClients,.pop,.visit client,.finish,
      .addSpreadServer server2,.updateClients,.pop,.visit client,.finish]) (by decide)
  exact ⟨_,s,run,clients,listed,rest,clients_converge _ _ s run rest⟩

/-- Two servers join between two passes: the list of the first is sent last. -/
theorem clients_outdated :
    ¬ ∀ (manager : ClientManager) (acts : List Action) (s : State), Run (Steps step) (initial manager) acts s →
      AtRest s → Told s := by
  intro always
  obtain ⟨s,run,rest,wrong⟩ := exists_run_of_exec step (fun _ _ => True)
    (fun s => AtRest s ∧ ¬ Told s) (initial (.new twoPorts ∅))
    ([.registerClient client,.getAvailableServers client,.onNext client,
      .addSpreadServer server1,.updateClients,.addSpreadServer server2,.updateClients,
      .pop,.visit client,.finish,.pop,.visit client,.finish]) (by decide)
  exact wrong (always _ _ s run.unrestrict rest)

end CdPraticas.Clients
