import CdPraticas.Elections

/-!
# At most one leader

Servers named Server0 to Server9 join and leave one group. Whoever takes itself
for the leader was elected as the highest of all members or was the only one,
so every higher member came later; and what a member that came later believes
it was told by that leader.
-/

namespace CdPraticas.Leadership
open Groups Replicas ReplicaGroup Elections Runs

/-- A server joins under one of the ten names, one that no member has. -/
def Admits (e : Election) : Action → Prop
  | .join name _ => name ∈ (List.range 10).map serverName ∧ ∀ member ∈ e.members, e.name member ≠ name
  | _ => True

instance (e : Election) : DecidablePred (Admits e)
  | .join _ _ => inferInstanceAs (Decidable (_ ∧ _))
  | .depart _ _ | .handle _ | .deliver _ | .vote _ | .call _ _ _ | .thread _ _ => isTrue trivial

/-! ### The ten names -/

theorem lastDigit_serverName {d : Nat} (small : d < 10) : lastDigit (serverName d) = some d := by
  revert d
  decide

theorem serverName_ne_nil (d : Nat) : serverName d ≠ [] := by
  rw [serverName_eq]
  exact List.append_ne_nil_of_left_ne_nil (by decide +kernel) _

theorem serverName_clean {d : Nat} (small : d < 10) : '#' ∉ serverName d := by
  revert d
  decide

section
variable {e e' : Election} {a : Action}

/-- The digit of a server's name. -/
def cardinality (e : Election) (server : Nat) : Nat := (lastDigit (e.name server)).getD 0

/-- The members and what is on its way to them, at any point of a run. -/
structure Standing (e : Election) : Prop where
  distinct : e.members.Nodup
  known : ∀ member ∈ e.members, member < e.started
  due : ∀ member ∈ e.unhandled, member ∈ e.members
  named : ∀ member ∈ e.members, ∃ d < 10, e.name member = serverName d
  group : ∀ member ∈ e.members, getServerName (e.group member) = some (e.name member)
  names : ∀ member ∈ e.members, ∀ other ∈ e.members, e.name member = e.name other → member = other
  view : e.unhandled ≠ [] → e.view.members = e.groups e.members
  joined : ∀ joined, e.unhandled ≠ [] → e.view.change = .join joined → ∃ member ∈ e.members, e.group member = joined
  gone : ∀ gone, e.unhandled ≠ [] → e.gone? = some gone →
    ∃ name, getServerName gone = some name ∧ name ≠ [] ∧ ∀ member ∈ e.members, e.name member ≠ name
  flying : ∀ packet ∈ e.network, packet.receiver ∈ e.members

/-- A member that takes itself for the leader. -/
def Leads (e : Election) (server : Nat) : Prop := server ∈ e.members ∧ e.leader server = e.name server

/-- What a member higher than the leader believes it was told by it. -/
def Later (e : Election) : Prop :=
  ∀ leader member, Leads e leader → member ∈ e.members → cardinality e leader < cardinality e member →
    (e.leader member = [] ∨ e.leader member = e.name leader) ∧
      ∀ name, ⟨member,.newLeader name⟩ ∈ e.network → name = e.name leader

theorem Standing.name_eq (standing : Standing e) {member : Nat} (inside : member ∈ e.members) :
    e.name member = serverName (cardinality e member) ∧ cardinality e member < 10 := by
  obtain ⟨d,small,name⟩ := standing.named member inside
  have digit : cardinality e member = d := by simp [cardinality,name,lastDigit_serverName small]
  exact ⟨by rw [digit,name],by omega⟩

theorem Standing.name_ne_nil (standing : Standing e) {member : Nat} (inside : member ∈ e.members) :
    e.name member ≠ [] := by
  rw [(standing.name_eq inside).1]
  exact serverName_ne_nil _

theorem Standing.eq_of_cardinality (standing : Standing e) {member other : Nat} (inside : member ∈ e.members)
    (also : other ∈ e.members) (same : cardinality e member = cardinality e other) : member = other :=
  standing.names member inside other also (by
    rw [(standing.name_eq inside).1,(standing.name_eq also).1,same])

/-- Two leaders would be two servers of different cardinality. -/
theorem Later.unique (later : Later e) (standing : Standing e) {one two : Nat} (first : Leads e one) (second : Leads e two) :
    one = two := by
  have below : ∀ {low high : Nat}, Leads e low → Leads e high → ¬ cardinality e low < cardinality e high := by
    intro low high leads leadsToo less
    rcases (later low high leads leadsToo.1 less).1 with none | other
    · exact standing.name_ne_nil leadsToo.1 (leadsToo.2 ▸ none)
    · have same := standing.names high leadsToo.1 low leads.1 (leadsToo.2 ▸ other)
      rw [same] at less
      exact lt_irrefl _ less
  have one_two := below first second
  have two_one := below second first
  exact standing.eq_of_cardinality first.1 second.1 (by omega)

/-! ### The highest cardinality -/

/-- The loop of the election finds the highest cardinality. -/
theorem maxCardinality_spec {members : List Nat} (named : ∀ member ∈ members, ∃ d < 10, e.name member = serverName d)
    (group : ∀ member ∈ members, getServerName (e.group member) = some (e.name member)) (start : Nat) :
    ∃ max, maxCardinality (members.map e.group) start = some max ∧ start ≤ max ∧
      (∀ member ∈ members, cardinality e member ≤ max) ∧
      (max = start ∨ ∃ member ∈ members, cardinality e member = max) := by
  induction members generalizing start with
  | nil => exact ⟨start,rfl,le_rfl,by simp,.inl rfl⟩
  | cons member rest ih =>
    obtain ⟨d,small,name⟩ := named member List.mem_cons_self
    have digit : cardinality e member = d := by simp [cardinality,name,lastDigit_serverName small]
    have read : (getServerName (e.group member)).bind lastDigit = some d := by
      rw [group member List.mem_cons_self,name]
      exact lastDigit_serverName small
    obtain ⟨max,found,above,highest,reached⟩ := ih (fun other inside => named other (List.mem_cons_of_mem _ inside))
      (fun other inside => group other (List.mem_cons_of_mem _ inside)) (if d > start then d else start)
    have bounds : start ≤ max ∧ d ≤ max := by
      split_ifs at above <;> omega
    refine ⟨max,?_,bounds.1,?_,?_⟩
    · simp only [List.map_cons,maxCardinality,read]
      exact found
    · intro other inside
      rcases List.mem_cons.mp inside with rfl | later
      · rw [digit]; exact bounds.2
      · exact highest other later
    · rcases reached with same | ⟨other,inside,same⟩
      · split_ifs at same
        · exact .inr ⟨member,List.mem_cons_self,digit.trans same.symm⟩
        · exact .inl same
      · exact .inr ⟨other,List.mem_cons_of_mem _ inside,same⟩

/-- The server that an election in the current view is for. -/
theorem Standing.highest (standing : Standing e) {server max : Nat} (due : server ∈ e.unhandled)
    (found : maxCardinality e.view.members 0 = some max) :
    (∀ member ∈ e.members, cardinality e member ≤ max) ∧
      ∃ member ∈ e.members, cardinality e member = max ∧ e.name member = serverName max := by
  obtain ⟨max',found',_,highest,reached⟩ := maxCardinality_spec standing.named standing.group 0
  rw [standing.view (List.ne_nil_of_mem due)] at found
  obtain rfl := Option.some.inj (found.symm.trans found')
  refine ⟨highest,?_⟩
  rcases reached with zero | ⟨member,inside,same⟩
  · have inside := standing.due server due
    have least := highest server inside
    have same : cardinality e server = max := by omega
    exact ⟨server,inside,same,same ▸ (standing.name_eq inside).1⟩
  · exact ⟨member,inside,same,same ▸ (standing.name_eq inside).1⟩

/-! ### What the parts of a step keep -/

@[simp] theorem believe_members (server : Nat) (name : List Char) : (e.believe server name).members = e.members := rfl
@[simp] theorem believe_name (server : Nat) (name : List Char) : (e.believe server name).name = e.name := rfl
@[simp] theorem believe_network (server : Nat) (name : List Char) : (e.believe server name).network = e.network := rfl
@[simp] theorem received_name (packet : Packet) : (e.received packet).name = e.name := rfl
@[simp] theorem believe_self (server : Nat) (name : List Char) : (e.believe server name).leader server = name := by
  simp [Election.believe]
theorem believe_other {server other : Nat} (name : List Char) (different : other ≠ server) :
    (e.believe server name).leader other = e.leader other := by
  simp [Election.believe,Function.update_of_ne different]

theorem Standing.believe (standing : Standing e) (server : Nat) (name : List Char) : Standing (e.believe server name) :=
  ⟨standing.distinct,standing.known,standing.due,standing.named,standing.group,standing.names,standing.view,
    standing.joined,standing.gone,standing.flying⟩

theorem Standing.done (standing : Standing e) (server : Nat) : Standing (e.done server) := by
  have some (left : e.unhandled.erase server ≠ []) : e.unhandled ≠ [] := by
    rintro none
    simp [none] at left
  exact ⟨standing.distinct,standing.known,fun member due => standing.due member (List.mem_of_mem_erase due),
    standing.named,standing.group,standing.names,fun left => standing.view (some left),
    fun joined left => standing.joined joined (some left),fun gone left => standing.gone gone (some left),
    standing.flying⟩

theorem Standing.received (standing : Standing e) (packet : Packet) : Standing (e.received packet) :=
  ⟨standing.distinct,standing.known,standing.due,standing.named,standing.group,standing.names,standing.view,
    standing.joined,standing.gone,fun other flying => standing.flying other (Multiset.mem_of_mem_erase flying)⟩

theorem Standing.send (standing : Standing e) (server : Nat) (message : Message) : Standing (e.send server message) := by
  unfold Election.send
  split
  case isFalse => exact standing
  case isTrue =>
    refine ⟨standing.distinct,standing.known,standing.due,standing.named,standing.group,standing.names,standing.view,
      standing.joined,standing.gone,fun packet flying => ?_⟩
    rcases Multiset.mem_add.mp flying with before | new
    · exact standing.flying packet before
    · rw [packets_one] at new
      obtain ⟨member,inside,rfl⟩ := List.mem_map.mp (Multiset.mem_coe.mp new)
      exact inside

theorem Standing.announce (standing : Standing e) (server : Nat) : Standing (e.announce server) := by
  unfold Election.announce
  split
  · exact standing.send server _
  · exact standing

theorem Standing.join (standing : Standing e) {name host : List Char} (admitted : Admits e (.join name host))
    (step : ElectionStep e (.join name host) e') : Standing e' := by
  obtain ⟨tenth,new⟩ := admitted
  obtain ⟨d,small,rfl⟩ := List.mem_map.mp tenth
  have small := List.mem_range.mp small
  cases step with
  | elsewhere action => exact absurd rfl (action _ _)
  | join idle =>
    have fresh : ∀ member ∈ e.members, member ≠ e.started := fun member inside => (standing.known member inside).ne
    have parsed := getServerName_privateGroup host (serverName_clean small) (serverName_ne_nil d)
    refine ⟨?_,?_,fun member due => due,?_,?_,?_,?_,?_,?_,?_⟩
    · exact standing.distinct.append (List.nodup_singleton _) fun member inside one =>
        fresh member inside (List.mem_singleton.mp one)
    · intro member inside
      rcases List.mem_append.mp inside with old | one
      · exact (standing.known member old).trans (Nat.lt_succ_self _)
      · rw [List.mem_singleton.mp one]
        exact Nat.lt_succ_self _
    · intro member inside
      rcases List.mem_append.mp inside with old | one
      · simpa [Function.update_of_ne (fresh member old)] using standing.named member old
      · exact ⟨d,small,by simp [List.mem_singleton.mp one]⟩
    · intro member inside
      rcases List.mem_append.mp inside with old | one
      · simpa [Function.update_of_ne (fresh member old)] using standing.group member old
      · simpa [List.mem_singleton.mp one] using parsed
    · intro member inside other also same
      rcases List.mem_append.mp inside with old | one <;> rcases List.mem_append.mp also with oldToo | oneToo
      · simp only [Function.update_of_ne (fresh _ old),Function.update_of_ne (fresh _ oldToo)] at same
        exact standing.names member old other oldToo same
      · rw [List.mem_singleton.mp oneToo] at same
        simp only [Function.update_of_ne (fresh _ old),Function.update_self] at same
        exact absurd same (new member old)
      · rw [List.mem_singleton.mp one] at same
        simp only [Function.update_of_ne (fresh _ oldToo),Function.update_self] at same
        exact absurd same.symm (new other oldToo)
      · rw [List.mem_singleton.mp one,List.mem_singleton.mp oneToo]
    · intro _
      rfl
    · intro joined _ change
      cases change
      exact ⟨e.started,by simp,by simp⟩
    · intro gone _ change
      simp [Election.gone?] at change
    · intro packet flying
      exact List.mem_append_left _ (standing.flying packet flying)

theorem Standing.depart (standing : Standing e) {server : Nat} {left : Bool}
    (step : ElectionStep e (.depart server left) e') : Standing e' := by
  cases step with
  | elsewhere => exact standing
  | depart idle member =>
    have kept : ∀ {other}, other ∈ e.members.erase server → other ∈ e.members ∧ other ≠ server := fun inside =>
      ⟨List.mem_of_mem_erase inside,(standing.distinct.mem_erase_iff.mp inside).1⟩
    refine ⟨standing.distinct.erase _,fun other inside => standing.known other (kept inside).1,fun other due => due,
      fun other inside => standing.named other (kept inside).1,fun other inside => standing.group other (kept inside).1,
      fun other inside third also => standing.names other (kept inside).1 third (kept also).1,fun _ => rfl,?_,?_,?_⟩
    · intro joined _ change
      cases left <;> cases change
    · intro gone _ change
      have same : gone = e.group server := by
        cases left <;> simpa [Election.gone?,eq_comm] using change
      subst same
      refine ⟨_,standing.group server member,standing.name_ne_nil member,fun other inside same => ?_⟩
      exact (kept inside).2 (standing.names other (kept inside).1 server member same)
    · intro packet flying
      obtain ⟨before,other⟩ := Multiset.mem_filter.mp flying
      exact (List.mem_erase_of_ne other).mpr (standing.flying packet before)

theorem Standing.step (standing : Standing e) (admitted : Admits e a) (step : ElectionStep e a e') : Standing e' := by
  cases a with
  | join name host => exact standing.join admitted step
  | depart server left => exact standing.depart step
  | handle server =>
    cases step with
    | elsewhere => exact standing
    | first => exact (standing.believe ..).done server
    | asks => exact (standing.send ..).done server
    | ignores => exact standing.done server
    | elects => exact ((standing.believe ..).announce _).done server
    | keeps => exact (standing.announce _).done server
  | deliver packet =>
    cases step with
    | elsewhere => exact standing
    | told => exact (standing.received _).believe _ _
    | toldOwn => exact standing.received _
    | asked => exact (standing.received _).announce _
  | vote | call | thread =>
    cases step
    exact standing

/-! ### The leader stays the only one -/

theorem leads_believe_other {server leader : Nat} {name : List Char} (different : leader ≠ server)
    (leads : Leads (e.believe server name) leader) : Leads e leader :=
  ⟨leads.1,believe_other name different ▸ leads.2⟩

theorem Later.received (later : Later e) (packet : Packet) : Later (e.received packet) :=
  fun leader member leads inside less =>
    have told := later leader member leads inside less
    ⟨told.1,fun name flying => told.2 name (Multiset.mem_of_mem_erase flying)⟩

theorem Later.done (later : Later e) (server : Nat) : Later (e.done server) := later

/-- A message other than an announcement tells nobody anything. -/
theorem Later.send (later : Later e) (server : Nat) : Later (e.send server .whoIsLeader) := by
  unfold Election.send
  split
  case isFalse => exact later
  case isTrue =>
    intro leader member leads inside less
    have told := later leader member leads inside less
    refine ⟨told.1,fun name flying => ?_⟩
    rcases Multiset.mem_add.mp flying with before | new
    · exact told.2 name before
    · simp [packets_one] at new

/-- What the leader announces is itself. -/
theorem Later.announce (later : Later e) (standing : Standing e) (server : Nat) : Later (e.announce server) := by
  unfold Election.announce Election.send
  split
  case isFalse => exact later
  case isTrue own =>
    split
    case isFalse => exact later
    case isTrue member =>
      intro leader other leads inside less
      have told := later leader other leads inside less
      refine ⟨told.1,fun name flying => ?_⟩
      rcases Multiset.mem_add.mp flying with before | new
      · exact told.2 name before
      · have same : server = leader := later.unique standing ⟨member,own⟩ leads
        have said : e.name server = name := by
          simpa [packets_one,inside] using new
        exact said.symm.trans (congrArg e.name same)

/-- Whoever is told of a leader is told of the one there is, if it is the higher. -/
theorem Later.told (later : Later e) {server : Nat} {name : List Char} (flying : ⟨server,.newLeader name⟩ ∈ e.network)
    (other : name ≠ e.name server) : Later ((e.received ⟨server,.newLeader name⟩).believe server name) := by
  intro leader member leads inside less
  have different : leader ≠ server := by
    rintro rfl
    exact other ((believe_self ..).symm.trans leads.2)
  have before : Leads e leader := leads_believe_other different leads
  have known := later leader member before inside less
  refine ⟨?_,fun name' flies => known.2 name' (Multiset.mem_of_mem_erase flies)⟩
  by_cases same : member = server
  · subst same
    exact .inr ((believe_self ..).trans (known.2 name flying))
  · rw [believe_other name same]
    exact known.1

/-- An election is won by the highest member, and only by one that believed the
    server that left. -/
theorem Later.elects (later : Later e) (standing : Standing e) {server max : Nat} {gone : SpreadGroup}
    (due : server ∈ e.unhandled) (view : e.gone? = some gone) (leader : getServerName gone = some (e.leader server))
    (found : maxCardinality e.view.members 0 = some max) : Later (e.believe server (serverName max)) := by
  obtain ⟨highest,winner,isMember,reached,winnerName⟩ := standing.highest due found
  obtain ⟨name,named,notNil,absent⟩ := standing.gone gone (List.ne_nil_of_mem due) view
  obtain rfl : e.leader server = name := Option.some.inj (leader.symm.trans named)
  intro boss member leads inside less
  by_cases own : boss = server
  · subst own
    have same : boss = winner := standing.names boss leads.1 winner isMember (by
      rw [winnerName]
      simpa using leads.2.symm)
    have above := highest member inside
    rw [← reached,← same] at above
    exact absurd (show cardinality e boss < cardinality e member from less) (by omega)
  · have before : Leads e boss := leads_believe_other own leads
    have known := later boss member before inside less
    refine ⟨?_,known.2⟩
    by_cases same : member = server
    · subst same
      rcases known.1 with none | told
      · exact absurd none notNil
      · exact absurd told.symm (absent boss before.1)
    · rw [believe_other _ same]
      exact known.1

theorem later_first (standing : Standing e) {server : Nat} (name : List Char) (due : server ∈ e.unhandled)
    (alone : e.view.members.length = 1) : Later (e.believe server name) := by
  intro leader member leads inside less
  rw [standing.view (List.ne_nil_of_mem due)] at alone
  obtain ⟨only,members⟩ := List.length_eq_one_iff.mp ((List.length_map _).symm.trans alone)
  have isLeader : leader = only := by simpa [members] using leads.1
  have isMember : member = only := by simpa [members] using inside
  rw [isLeader,isMember] at less
  exact absurd less (lt_irrefl _)

theorem Later.join (later : Later e) (standing : Standing e) {name host : List Char}
    (tenth : name ∈ (List.range 10).map serverName) (step : ElectionStep e (.join name host) e') : Later e' := by
  cases step with
  | elsewhere => exact later
  | join idle =>
    obtain ⟨d,_,rfl⟩ := List.mem_map.mp tenth
    have fresh : ∀ member ∈ e.members, member ≠ e.started := fun member inside => (standing.known member inside).ne
    intro leader member leads inside less
    have old : leader ∈ e.members := by
      refine (List.mem_append.mp leads.1).resolve_right fun one => ?_
      have none := leads.2
      rw [List.mem_singleton.mp one] at none
      simp only [Function.update_self] at none
      exact serverName_ne_nil d none.symm
    have before : Leads e leader := ⟨old,by simpa [Function.update_of_ne (fresh leader old)] using leads.2⟩
    have sameName : Function.update e.name e.started (serverName d) leader = e.name leader :=
      Function.update_of_ne (fresh leader old) _ _
    rcases List.mem_append.mp inside with oldToo | one
    · have different := fresh member oldToo
      have known := later leader member before oldToo (by
        simpa [cardinality,Function.update_of_ne different,Function.update_of_ne (fresh leader old)] using less)
      simp only [Function.update_of_ne different]
      rw [sameName]
      exact known
    · rw [List.mem_singleton.mp one]
      refine ⟨.inl (by simp),fun other flying => ?_⟩
      exact absurd rfl (fresh _ (standing.flying _ flying))

theorem Later.depart (later : Later e) {server : Nat} {left : Bool} (step : ElectionStep e (.depart server left) e') :
    Later e' := by
  cases step with
  | elsewhere => exact later
  | depart idle member =>
    intro leader other leads inside less
    have known := later leader other ⟨List.mem_of_mem_erase leads.1,leads.2⟩ (List.mem_of_mem_erase inside) less
    exact ⟨known.1,fun name flying => known.2 name (Multiset.mem_of_mem_filter flying)⟩

theorem Later.step (later : Later e) (standing : Standing e) (admitted : Admits e a) (step : ElectionStep e a e') :
    Later e' := by
  cases a with
  | join name host => exact later.join standing admitted.1 step
  | depart server left => exact later.depart step
  | handle server =>
    cases step with
    | elsewhere => exact later
    | first due view alone named => exact (later_first standing _ due alone).done server
    | asks => exact (later.send _).done server
    | ignores => exact later.done server
    | elects due view leader highest =>
      exact ((later.elects standing due view leader highest).announce (standing.believe ..) _).done server
    | keeps => exact (later.announce standing _).done server
  | deliver packet =>
    cases step with
    | elsewhere => exact later
    | told flying other => exact later.told flying other
    | toldOwn => exact later.received _
    | asked => exact (later.received _).announce (standing.received _) _
  | vote | call | thread =>
    cases step
    exact later

/-- In every run the members stand as they should and one leads at most. -/
theorem standing_run {reach : Nat → Option Nat} {s : State} {acts : List Action}
    (run : Run (Restrict (fun s => Admits (election s)) (Steps (step reach))) initial acts s) :
    Standing (election s) ∧ Later (election s) := by
  refine run.always (P := fun s => Standing (election s) ∧ Later (election s)) ⟨?_,?_⟩ ?_
  · constructor <;> simp [initial,election]
  · intro leader member leads
    simp [initial,election,Leads] at leads
  · rintro s a t ⟨standing,later⟩ ⟨admitted,move⟩
    have move := election_step move
    exact ⟨standing.step admitted move,later.step standing admitted move⟩

end

/-- Whatever joins, leaves and disconnects there are and however late a message
    comes, at most one member takes itself for the leader. -/
theorem one_leader (reach : Nat → Option Nat) (acts : List Action) (s : State)
    (run : Run (Restrict (fun s => Admits (election s)) (Steps (step reach))) initial acts s) (one two : Nat)
    (first : one ∈ s.members ∧ (s.managers one).amILeader = true)
    (second : two ∈ s.members ∧ (s.managers two).amILeader = true) : one = two := by
  obtain ⟨standing,later⟩ := standing_run run
  have leads : ∀ {server}, server ∈ s.members ∧ (s.managers server).amILeader = true → Leads (election s) server :=
    fun holds => ⟨holds.1,by simpa [LeaderManager.amILeader,election] using holds.2⟩
  exact later.unique standing (leads first) (leads second)

/-- Server1 leads, Server9 learns of it, Server1 disconnects and Server9 is elected. -/
def succession : List Action :=
  [.join (serverName 1) ['h'],.handle 0,.join (serverName 9) ['h'],.handle 1,.handle 0,.deliver ⟨0,.whoIsLeader⟩,
   .deliver ⟨1,.newLeader (serverName 1)⟩,.depart 0 false,.handle 1]

theorem one_leader_elected :
    ∃ s, Run (Restrict (fun s => Admits (election s)) (Steps (step fun _ => none))) initial succession s ∧
      (1 ∈ s.members ∧ (s.managers 1).amILeader = true) ∧
      ∀ other, other ∈ s.members ∧ (s.managers other).amILeader = true → other = 1 := by
  obtain ⟨s,run,leads⟩ := exists_run_of_exec (step fun _ => none) (fun s => Admits (election s))
    (fun s => 1 ∈ s.members ∧ (s.managers 1).amILeader = true) initial succession (by decide)
  exact ⟨s,run,leads,fun other also => one_leader _ _ s run other 1 also leads⟩

end CdPraticas.Leadership
