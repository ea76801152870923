import CdPraticas.Completion

/-!
# Operations in sequence

Operations that run one after the other, each to quiescence, make the cluster
behave as one map, and each of them can be run to quiescence.
-/

namespace CdPraticas.Sequential
open Groups Store Messages Handlers Calls Cluster Keys Runs Rounds Operations

/-- Operations one after the other, with the servers they are sent to and the answers. -/
inductive Sequence (settings : Settings) (group : Group) (s : State) :
    List (SpreadGroup × Request) → List Answer → State → Prop
  | nothing : Sequence settings group s [] [] s
  | next {operations : List (SpreadGroup × Request)} {answers : List Answer} {t u : State} {i : Nat}
      {server : SpreadGroup} {request : Request} {call : Call} {answer : Answer}
      (before : Sequence settings group s operations answers t) (performed : Performed settings group t i server request u)
      (found : u.calls i = some call) (answered : call.answer = some answer) :
      Sequence settings group s (operations ++ [(server,request)]) (answers ++ [answer]) u

section
variable {settings : Settings} {group : Group} {contents : Contents} {s t : State} {i : Nat} {server : SpreadGroup}
  {request : Request}

/-- Seen from its key, an operation leaves what the map prescribes. -/
theorem performed_leaves (represents : Represents group contents s)
    (performed : Performed settings group (forget s.calls s) i server request t) :
    Leaves group (view request.key t) i (contents.perform request).1 ((contents.perform request).2 request.key) := by
  have quiet := represents.settled.quiet
  have startedUp := fun server member => (represents.settled.startedUp server member).1
  cases request with
  | read key => exact Reading.read_leaves quiet startedUp (represents.holds key) performed
  | write dataDto =>
    have leaves := Writing.write_leaves quiet startedUp performed
    simpa [Contents.perform,Request.key] using leaves

theorem perform_elsewhere {other : String} (different : other ≠ request.key) :
    (contents.perform request).2 other = contents other := by
  cases request with
  | read _ => rfl
  | write dataDto => exact Function.update_of_ne different ..

/-- An operation on a cluster that holds a map is the operation on the map. -/
theorem perform_represents (represents : Represents group contents s)
    (performed : Performed settings group s i server request t) :
    (∃ call, t.calls i = some call ∧ call.answer = some (contents.perform request).1) ∧
      Represents group (contents.perform request).2 t := by
  obtain ⟨forgotten,returned⟩ := performed.forget represents.settled
  have quiet := represents.settled.quiet
  have leaves := performed_leaves represents forgotten
  have elsewhere := fun other (different : other ≠ request.key) => underway_elsewhere quiet forgotten.underway different
  obtain ⟨_,_,fixed,noMessages,_⟩ := performed_view quiet forgotten rfl
  have fields : ∀ g key, Keys.fields (t.servers g) key = (view key (forget s.calls t)).held g := fun _ _ => rfl
  refine ⟨?_,⟨?_,?_,?_,?_,?_,?_,?_⟩,?_⟩
  · obtain ⟨call,found,answered⟩ := leaves.answered
    have here := (view_calls.mp found).1
    refine ⟨call,?_,answered⟩
    simp only [forget] at here
    split_ifs at here
    exact here
  · exact fixed.members
  · exact fixed.participants
  · intro g member
    have known := (represents.settled.startedUp g member).1
    exact ⟨known,(fixed.startingUp g member).trans known⟩
  · intro j call found
    by_cases isOld : (s.calls j).isSome = true
    · obtain ⟨old,oldFound,done⟩ := returned j isOld
      rw [found] at oldFound
      cases oldFound
      exact done
    · have still : (forget s.calls t).calls j = some call := by simp [forget,isOld,found]
      by_cases about : call.request.key = request.key
      · exact (leaves.returned j call (view_calls.mpr ⟨still,about⟩)).2
      · have inView := view_calls.mpr ⟨still,rfl⟩
        rw [elsewhere _ about,(quiet_blank quiet _).calls] at inView
        cases inView
  · exact performed.delivered
  · intro g key
    by_cases about : key = request.key
    · subst about
      exact leaves.waiting g
    · have blank := (quiet_blank quiet key).waiting g
      rw [← elsewhere key about] at blank
      exact blank
  · intro g key
    by_cases about : key = request.key
    · subst about
      exact leaves.slot g
    · have blank := (quiet_blank quiet key).slot g
      rw [← elsewhere key about] at blank
      exact blank
  · intro key
    by_cases about : key = request.key
    · subst about
      exact leaves.holds
    · rw [perform_elsewhere about]
      have same : ∀ g, (t.servers g).database.findById key = (s.servers g).database.findById key := by
        intro g
        exact congrArg (fun v : KeyView => (v.held g).row) (elsewhere key about)
      simpa [same] using represents.holds key

/-- Operations in sequence answer as the map does, and the cluster holds the map after them. -/
theorem sequence_represents {operations : List (SpreadGroup × Request)} {answers : List Answer}
    (represents : Represents group contents s) (sequence : Sequence settings group s operations answers t) :
    answers = (contents.performAll (operations.map Prod.snd)).1 ∧
      Represents group (contents.performAll (operations.map Prod.snd)).2 t := by
  induction sequence with
  | nothing => exact ⟨rfl,represents⟩
  | next _ performed found answered ih =>
    obtain ⟨same,before⟩ := ih
    obtain ⟨⟨call,callFound,callAnswered⟩,after⟩ := perform_represents before performed
    rw [found] at callFound
    cases callFound
    rw [answered] at callAnswered
    rw [List.map_append,performAll_append,same]
    refine ⟨?_,after⟩
    cases callAnswered
    rfl

theorem call_starts (member : server ∈ group.servers) (fresh : s.calls i = none) :
    ∃ t, Underway settings group s i server request t := by
  have called : ∃ t, step settings (.call i server request) s = some t := by
    simp only [step,fresh,(Group.mem_servers.mp member).2]
    exact ⟨_,rfl⟩
  obtain ⟨t,called⟩ := called
  exact ⟨t,member,t,[],called,.start⟩

/-- The cluster is one map to clients that come one after the other. Whatever
    the operations, their servers and the order of deliveries, the answers are
    those of the map and the cluster holds the map afterwards. No operation gets
    stuck: it can begin at any server, and however far it has come it can be run
    to quiescence, unless a server is set to keep its answers back. -/
theorem sequential_refinement (represents : Represents group contents s) :
    (∀ operations answers t, Sequence settings group s operations answers t →
      answers = (contents.performAll (operations.map Prod.snd)).1 ∧
        Represents group (contents.performAll (operations.map Prod.snd)).2 t) ∧
    ((∀ server ∈ group.servers, settings.testConflict server = false) →
      ∀ operations answers t, Sequence settings group s operations answers t →
        ∀ i server request, server ∈ group.servers → t.calls i = none →
          (∃ u, Underway settings group t i server request u) ∧
          ∀ u, Underway settings group t i server request u →
            ∃ acts w, Run (group.Steps settings request.key (Attended i)) u acts w ∧
              Performed settings group t i server request w) := by
  refine ⟨fun _ _ _ sequence => sequence_represents represents sequence,?_⟩
  intro untested operations answers t sequence i server request member fresh
  have settled := (sequence_represents represents sequence).2.settled
  exact ⟨call_starts member fresh,fun u underway => Completion.underway_finishes settled untested underway⟩

end

/-- The map that the databases `oldValue` hold. -/
def oldContents : Contents := fun key => if key = "k" then some "old" else none

theorem oldValue_represents : Represents pair oldContents (pair.initial Serial.oldValue) := by
  refine ⟨⟨rfl,fun _ _ => rfl,fun _ _ => ⟨rfl,rfl⟩,fun _ _ found => ?_,rfl,fun _ _ => rfl,fun _ _ => rfl⟩,fun key => ⟨?_,?_⟩⟩
  · cases found
  · intro server _ entity stored
    simp only [Group.initial,Serial.oldValue] at stored
    split_ifs at stored
    · rw [Database.findById_save] at stored
      split_ifs at stored with here
      · cases stored
        exact ⟨by decide,by simp [oldContents,here]⟩
      · simp at stored
    · simp at stored
  · intro data value
    simp only [oldContents] at value
    split_ifs at value with here
    subst here
    exact ⟨server2,by decide,⟨"k",none,"old"⟩,by decide⟩

/-- A read at server 1 asks server 2, ends and answers with its value. -/
theorem sequential_refinement_pair : ∃ t, Sequence .properties pair (pair.initial Serial.oldValue)
    [(server1,.read "k")] [.data "k" "old"] t := by
  obtain ⟨_,finishes⟩ := @sequential_refinement .properties pair oldContents _ oldValue_represents
  obtain ⟨⟨u,begun⟩,ends⟩ := finishes (fun _ _ => rfl) [] [] _ .nothing 0 server1 (.read "k") (by decide) rfl
  obtain ⟨_,t,_,performed⟩ := ends u begun
  obtain ⟨⟨call,found,answered⟩,_⟩ := perform_represents oldValue_represents performed
  have sequence := Sequence.nothing.next performed found answered
  exact ⟨t,sequence⟩

end CdPraticas.Sequential
