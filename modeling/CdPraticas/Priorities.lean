import CdPraticas.Rivals
import CdPraticas.Startup

/-!
# Priorities that are read off names

A server takes its priority from the last digit of its name, and without `local`
also from that of its host. Distinct servers can have the same one, and a server
can have none to speak of: then a conflict has two losers, and the coordinator
of a startup is whoever is listed first.
-/

namespace CdPraticas.Priorities
open Groups Store Messages Handlers Calls Startup Rivals

def EndsInDigit (text : List Char) : Prop := ∃ c ∈ text.getLast?, c.isDigit = true

/-- A private group `#name#host` whose name and host end in a digit. -/
structure NamedBy (server : SpreadGroup) (name host : List Char) : Prop where
  group : server = privateGroup name host
  name_clean : '#' ∉ name
  host_clean : '#' ∉ host
  name_digit : EndsInDigit name
  host_digit : EndsInDigit host

def Named (server : SpreadGroup) : Prop := ∃ name host, NamedBy server name host

theorem EndsInDigit.ne_nil {text : List Char} (digit : EndsInDigit text) : text ≠ [] := by
  rintro rfl
  obtain ⟨c,last,_⟩ := digit
  cases last

theorem EndsInDigit.lastDigit {text : List Char} (digit : EndsInDigit text) : ∃ value, lastDigit text = some value := by
  obtain ⟨c,last,isDigit⟩ := digit
  have last : text.getLast? = some c := last
  exact ⟨_,by rw [Groups.lastDigit,last]; exact if_pos isDigit⟩

theorem pieces_privateGroup {name host : List Char} (name_clean : '#' ∉ name) (host_clean : '#' ∉ host) (hosted : host ≠ []) :
    pieces (privateGroup name host) = [[],name,host] := by
  have split : ('#' :: name ++ '#' :: host).splitOn '#' = [[],name,host] := by
    have first : (([] : List Char) ++ '#' :: (name ++ '#' :: host)).splitOn '#' = _ :=
      List.splitOn_append_cons_self_of_not_mem (by simp) _
    rw [List.splitOn_append_cons_self_of_not_mem name_clean,List.splitOn_eq_singleton host_clean] at first
    exact first
  have stays : host.isEmpty = false := by simpa using hosted
  rw [pieces,privateGroup,String.toList_ofList,split]
  exact rdropWhile_after (p := fun piece => piece.isEmpty) [[],name] [] stays

/-- Such a name has a priority under both settings. -/
theorem Named.cardinality {server : SpreadGroup} (named : Named server) (isLocal : Bool) :
    ∃ cardinality, getServerNameCardinality isLocal server = some cardinality := by
  obtain ⟨name,host,rfl,name_clean,host_clean,name_digit,host_digit⟩ := named
  obtain ⟨first,name_digit⟩ := name_digit.lastDigit
  obtain ⟨second,digit⟩ := host_digit.lastDigit
  have split := pieces_privateGroup name_clean host_clean host_digit.ne_nil
  simp only [getServerNameCardinality,getServerName,getServerIp,split]
  cases isLocal with
  | true => exact ⟨first,name_digit⟩
  | false => exact ⟨first + second,by simp [name_digit,digit]⟩

/-! ### The coordinator of a startup -/

/-- A server other than `me`. -/
def OtherServer (me member : SpreadGroup) : Prop := member ≠ me ∧ isService member = false

instance (me member : SpreadGroup) : Decidable (OtherServer me member) := inferInstanceAs (Decidable (_ ∧ _))

/-- `checkStartup` at `me` takes `leader` for the coordinator: it is asked for data. -/
def Chooses (settings : Settings) (self : LeaderManager) (me : SpreadGroup) (members : List SpreadGroup) (leader : SpreadGroup) :
    Prop :=
  ∃ dataDtoList, (checkStartup settings self me members).sends = [.unicast (.startupRequestUpdate dataDtoList) leader]

/-- The loop takes the member for higher than nobody and for somebody else. -/
def Eligible (isLocal : Bool) (me member : SpreadGroup) : Prop :=
  isService member = false ∧ ∃ cardinality, getServerNameCardinality isLocal member = some cardinality ∧ 0 < cardinality ∧
    getServerNameCardinality isLocal me ≠ some cardinality

section
variable {settings : Settings} {self : LeaderManager} {me : SpreadGroup} {members : List SpreadGroup}

theorem three_members (inside : me ∈ members) (server : isService me = false) (service : ∃ service ∈ members, isService service = true)
    (other : ∃ other ∈ members, OtherServer me other) : 2 < members.length := by
  obtain ⟨service,one,isService'⟩ := service
  obtain ⟨other,two,different,plain⟩ := other
  have distinct : [service,me,other].Nodup := by
    have first : service ≠ me := by
      rintro rfl
      cases server.symm.trans isService'
    have second : service ≠ other := by
      rintro rfl
      cases plain.symm.trans isService'
    simp [first,second,different.symm]
  have listed : [service,me,other] ⊆ members := by simp [one,inside,two]
  exact (distinct.subperm listed).length_le

theorem chooses_iff (starting : self.waitStartupDataUpdate = true) (more : 2 < members.length) (leader : SpreadGroup) :
    Chooses settings self me members leader ↔ (electCoordinator settings me members 0 0 0).bind (members[·]?) = some leader := by
  unfold Chooses checkStartup
  rw [if_pos starting,if_neg (by omega)]
  split
  next chosen elected =>
    rw [elected]
    constructor
    · rintro ⟨_,sends⟩
      simp only [List.cons.injEq,Send.unicast.injEq] at sends
      rw [sends.1.2]
    · intro same
      cases same
      exact ⟨_,rfl⟩
  next none =>
    rw [none]
    exact ⟨fun ⟨_,sends⟩ => (by cases sends),fun same => (by cases same)⟩

end

/-- For every list of members: the coordinator is another server exactly as long as one
    has a priority above zero that is not this server's own, or one is listed first. -/
theorem coordinator_other_iff (settings : Settings) (self : LeaderManager) (me : SpreadGroup) (members : List SpreadGroup)
    (starting : self.waitStartupDataUpdate = true) (inside : me ∈ members) (server : isService me = false)
    (service : ∃ service ∈ members, isService service = true) (other : ∃ other ∈ members, OtherServer me other)
    (named : ∀ member ∈ members, isService member = false → Named member) :
    (∃ leader ∈ members, OtherServer me leader ∧ Chooses settings self me members leader) ↔
      (∃ member ∈ members, Eligible settings.isLocal me member) ∨ ∃ first ∈ members.head?, OtherServer me first := by
  have more := three_members inside server service other
  have known (member : SpreadGroup) (listed : member ∈ members) (plain : isService member = false) :=
    (named member listed plain).cardinality settings.isLocal
  obtain ⟨own,mine⟩ := known me inside server
  obtain ⟨elected,loop,last⟩ := elect_spec mine members known 0 0 0
  simp only [chooses_iff starting more,loop,Option.bind_some]
  rcases last with ⟨rfl,low⟩ | ⟨offset,leader,cardinality,rfl,here,plain,has,positive,different⟩
  · -- Nobody was taken: it is whoever is listed first.
    have nobody : ¬ ∃ member ∈ members, Eligible settings.isLocal me member := by
      rintro ⟨member,listed,plain,cardinality,has,positive,different⟩
      rcases low member listed plain cardinality has with small | same
      · omega
      · exact different (same ▸ mine)
    rw [List.head?_eq_getElem?]
    constructor
    · rintro ⟨leader,_,isOther,first⟩
      exact .inr ⟨leader,first,isOther⟩
    · rintro (somebody | ⟨first,listed,isOther⟩)
      · exact absurd somebody nobody
      · exact ⟨first,List.mem_of_getElem? listed,isOther,listed⟩
  · rw [Nat.zero_add]
    have isOther : OtherServer me leader := by
      refine ⟨?_,plain⟩
      rintro rfl
      exact different (Option.some.inj (has.symm.trans mine))
    have eligible : Eligible settings.isLocal me leader := by
      refine ⟨plain,cardinality,has,positive,?_⟩
      rw [mine]
      exact fun same => different (Option.some.inj same).symm
    exact ⟨fun _ => .inl ⟨leader,List.mem_of_getElem? here,eligible⟩,fun _ => ⟨leader,List.mem_of_getElem? here,isOther,here⟩⟩

def configurationService : SpreadGroup := privateGroup "Service".toList "host0".toList
def first : SpreadGroup := privateGroup "Server1".toList "host1".toList
def second : SpreadGroup := privateGroup "Server2".toList "host2".toList
/-- It has the name of the first on another host. -/
def namesake : SpreadGroup := privateGroup "Server1".toList "host2".toList

theorem first_named : Named first := ⟨_,_,rfl,by decide,by decide,⟨'1',rfl,rfl⟩,⟨'1',rfl,rfl⟩⟩
theorem second_named : Named second := ⟨_,_,rfl,by decide,by decide,⟨'2',rfl,rfl⟩,⟨'2',rfl,rfl⟩⟩
theorem namesake_named : Named namesake := ⟨_,_,rfl,by decide,by decide,⟨'1',rfl,rfl⟩,⟨'2',rfl,rfl⟩⟩

theorem listed_named {other : SpreadGroup} (named : Named other) :
    ∀ member ∈ [configurationService,first,other], isService member = false → Named member := by
  intro server listed plain
  simp only [List.mem_cons,List.not_mem_nil,or_false] at listed
  rcases listed with rfl | rfl | rfl
  · cases (show isService configurationService = true by decide).symm.trans plain
  · exact first_named
  · exact named

theorem coordinator_other_iff_two : ∃ leader ∈ [configurationService,first,second],
    OtherServer first leader ∧ Chooses .properties (.initial ∅) first [configurationService,first,second] leader :=
  (coordinator_other_iff .properties (.initial ∅) first _ rfl (by decide) (by decide) (by decide) (by decide)
    (listed_named second_named)).mpr (.inl ⟨second,by decide,by decide,2,by decide,by decide,by decide⟩)

/-- Two servers with one name on two hosts: the configuration service is asked. -/
theorem coordinator_is_service :
    ¬ ∀ (settings : Settings) (self : LeaderManager) (me : SpreadGroup) (members : List SpreadGroup),
      self.waitStartupDataUpdate = true → me ∈ members → isService me = false →
      (∃ service ∈ members, isService service = true) → (∃ other ∈ members, OtherServer me other) →
      (∀ member ∈ members, isService member = false → Named member) →
      ∃ leader ∈ members, OtherServer me leader ∧ Chooses settings self me members leader := by
  intro always
  obtain ⟨leader,_,isOther,chosen⟩ := always .properties (.initial ∅) first [configurationService,first,namesake] rfl (by decide)
    (by decide) (by decide) (by decide) (listed_named namesake_named)
  have elected := (chooses_iff rfl (by decide) leader).mp chosen
  have service : (electCoordinator .properties first [configurationService,first,namesake] 0 0 0).bind
      ([configurationService,first,namesake][·]?) = some configurationService := by decide
  cases elected.symm.trans service
  exact absurd isOther (by decide)

/-! ### The order of the conflicts -/

/-- The server gives way in a conflict with `other`. -/
def Yields (isLocal : Bool) (server other : SpreadGroup) : Prop := electLeader isLocal server other = some false

/-- The servers are strictly ordered by who wins, so that every set of rivals has one winner. -/
structure StrictlyOrdered (isLocal : Bool) (servers : Finset SpreadGroup) : Prop where
  irreflexive : ∀ server ∈ servers, ¬ Outranks isLocal server server
  transitive : ∀ high ∈ servers, ∀ middle ∈ servers, ∀ low ∈ servers, Outranks isLocal high middle →
    Outranks isLocal middle low → Outranks isLocal high low
  total : ∀ one ∈ servers, ∀ two ∈ servers, one ≠ two → Outranks isLocal one two ∨ Outranks isLocal two one
  yields : ∀ one ∈ servers, ∀ two ∈ servers, one ≠ two → Xor (Yields isLocal one two) (Yields isLocal two one)
  winner : ∀ rivals ⊆ servers, rivals.Nonempty → ∃! winner, winner ∈ rivals ∧
    ∀ other ∈ rivals, other ≠ winner → Outranks isLocal winner other

section
variable {isLocal : Bool} {one two : SpreadGroup} {first second : Nat}

theorem outranks_iff (mine : getServerNameCardinality isLocal one = some first)
    (theirs : getServerNameCardinality isLocal two = some second) : Outranks isLocal one two ↔ second < first := by
  simp [Outranks,electLeader,mine,theirs]

theorem yields_iff (mine : getServerNameCardinality isLocal one = some first)
    (theirs : getServerNameCardinality isLocal two = some second) : Yields isLocal one two ↔ first ≤ second := by
  simp [Yields,electLeader,mine,theirs]

end

/-- For every set of servers whose names and hosts end in a digit, with both settings:
    conflicts order them strictly exactly as long as no two have the same priority. -/
theorem priority_order_iff (isLocal : Bool) (servers : Finset SpreadGroup) (named : ∀ server ∈ servers, Named server) :
    StrictlyOrdered isLocal servers ↔
      ∀ one ∈ servers, ∀ two ∈ servers, getServerNameCardinality isLocal one = getServerNameCardinality isLocal two → one = two := by
  have known (server : SpreadGroup) (inside : server ∈ servers) := (named server inside).cardinality isLocal
  constructor
  · intro ordered one here two there same
    by_contra different
    obtain ⟨cardinality,mine⟩ := known one here
    rcases ordered.total one here two there different with wins | wins
    · exact absurd ((outranks_iff mine (same.symm.trans mine)).mp wins) (lt_irrefl _)
    · exact absurd ((outranks_iff (same.symm.trans mine) mine).mp wins) (lt_irrefl _)
  · intro distinct
    have compare (one : SpreadGroup) (here : one ∈ servers) (two : SpreadGroup) (there : two ∈ servers) (different : one ≠ two) :
        Outranks isLocal one two ∧ Yields isLocal two one ∧ ¬ Yields isLocal one two ∨
          Outranks isLocal two one ∧ Yields isLocal one two ∧ ¬ Yields isLocal two one := by
      obtain ⟨first,mine⟩ := known one here
      obtain ⟨second,theirs⟩ := known two there
      rw [outranks_iff mine theirs,outranks_iff theirs mine,yields_iff mine theirs,yields_iff theirs mine]
      have apart : first ≠ second := by
        rintro rfl
        exact different (distinct one here two there (mine.trans theirs.symm))
      omega
    have total (one : SpreadGroup) (here : one ∈ servers) (two : SpreadGroup) (there : two ∈ servers) (different : one ≠ two) :
        Outranks isLocal one two ∨ Outranks isLocal two one :=
      (compare one here two there different).imp And.left And.left
    refine ⟨fun _ _ => Outranks.irrefl,fun _ _ _ _ _ _ => Outranks.trans,total,fun one here two there different => ?_,?_⟩
    · exact (compare one here two there different).symm.imp And.right And.right
    · intro rivals inside some
      -- The rival with the highest priority wins.
      obtain ⟨winner,here,highest⟩ := rivals.exists_max_image (fun server => (getServerNameCardinality isLocal server).getD 0) some
      have wins (other : SpreadGroup) (there : other ∈ rivals) (different : other ≠ winner) : Outranks isLocal winner other := by
        refine (total winner (inside here) other (inside there) different.symm).resolve_right fun loses => ?_
        obtain ⟨first,mine⟩ := known winner (inside here)
        obtain ⟨second,theirs⟩ := known other (inside there)
        have lower := highest other there
        have above := (outranks_iff theirs mine).mp loses
        simp only [mine,theirs,Option.getD_some] at lower
        omega
      refine ⟨winner,⟨here,wins⟩,fun other ⟨there,beats⟩ => ?_⟩
      by_contra different
      exact ((beats winner here (Ne.symm different)).trans (wins other there different)).irrefl

theorem priority_order_iff_two : StrictlyOrdered true {first,second} := by
  refine (priority_order_iff true _ ?_).mpr (by decide)
  intro server inside
  simp only [Finset.mem_insert,Finset.mem_singleton] at inside
  rcases inside with rfl | rfl
  · exact first_named
  · exact second_named

/-- One name on two hosts, and neither wins. -/
theorem priorities_tie : ¬ ∀ (isLocal : Bool) (servers : Finset SpreadGroup), (∀ server ∈ servers, Named server) →
    StrictlyOrdered isLocal servers := by
  intro ordered
  have strict := ordered true {first,namesake} (by
    intro server inside
    simp only [Finset.mem_insert,Finset.mem_singleton] at inside
    rcases inside with rfl | rfl
    · exact first_named
    · exact namesake_named)
  rcases strict.total first (by simp) namesake (by simp) (by decide) with wins | wins
  · exact absurd wins (by decide)
  · exact absurd wins (by decide)

end CdPraticas.Priorities
