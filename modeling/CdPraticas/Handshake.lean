import CdPraticas.Joining

/-!
# The startup handshake

What one exchange with the elected coordinator makes of the database of a server
that has just joined: the request of `checkStartup`, the answer of `startupData`
and what `startupDataResponse` stores of it.
-/

namespace CdPraticas.Handshake
open Groups Store Messages Handlers Keys Joining

/-- Whom `checkStartup` elects. It does not look among two members: those are the
    configuration service and the server itself. -/
def coordinator (settings : Settings) (me : SpreadGroup) (members : List SpreadGroup) : Option SpreadGroup :=
  if members.length = 2 then none else (electCoordinator settings me members 0 0 0).bind (members[·]?)

/-- What the joiner ends with: the value of the coordinator, or its own one invalidated. -/
def refreshed (own source : Option DataEntity) : Option DataEntity :=
  own.map fun entity =>
    match source with
    | some known => ⟨entity.key,some false,known.data⟩
    | none => entity.setInvalidate true

section
variable (settings : Settings) (joiner leader : LeaderManager) (me other : SpreadGroup) (members : List SpreadGroup)

/-- The request lists the rows of the joiner. -/
def request : List DataDto := joiner.database.findAll.map DataEntity.toDto

/-- The answer lists those of them that the coordinator has. -/
def response : List DataDto :=
  (request joiner).filterMap fun dataDto => (leader.database.findById dataDto.key).map DataEntity.toDto

variable {settings joiner leader me other members}

theorem checkStartup_asks (waits : joiner.waitStartupDataUpdate = true) (elected : coordinator settings me members = some other) :
    checkStartup settings joiner me members =
      ⟨{ joiner with database := invalidateAll joiner.database },[.unicast (.startupRequestUpdate (request joiner)) other],[]⟩ := by
  unfold coordinator at elected
  split_ifs at elected with few
  simp only [checkStartup,waits,few,elected,if_true,if_false]
  rfl

/-- The answer tells of a key what the coordinator has of it. -/
theorem response_told {key : String} {source : DataEntity} (known : leader.database.findById key = some source) :
    ∀ dataDto ∈ response joiner leader, dataDto.key = key → dataDto.data = source.data := by
  rintro dataDto told rfl
  obtain ⟨asked,_,answers⟩ := List.mem_filterMap.mp told
  obtain ⟨entity,found,rfl⟩ := Option.map_eq_some_iff.mp answers
  have own : entity.key = asked.key := Database.findById_key found
  rw [toDto_key,own,found] at known
  cases known
  rfl

/-- It has the keys that both have. -/
theorem mem_response_keys (key : String) : key ∈ (response joiner leader).map DataDto.key ↔
    (joiner.database.findById key).isSome = true ∧ (leader.database.findById key).isSome = true := by
  rw [← mem_findAll_keys joiner.database]
  constructor
  · intro listed
    obtain ⟨dataDto,told,rfl⟩ := List.mem_map.mp listed
    obtain ⟨asked,inside,answers⟩ := List.mem_filterMap.mp told
    obtain ⟨entity,found,rfl⟩ := Option.map_eq_some_iff.mp answers
    have own : entity.key = asked.key := Database.findById_key found
    rw [toDto_key,own]
    exact ⟨List.mem_map_of_mem inside,by rw [found]; rfl⟩
  · rintro ⟨listed,known⟩
    obtain ⟨asked,inside,rfl⟩ := List.mem_map.mp listed
    obtain ⟨entity,found⟩ := Option.isSome_iff_exists.mp known
    have own : entity.key = asked.key := Database.findById_key found
    refine List.mem_map.mpr ⟨entity.toDto,List.mem_filterMap.mpr ⟨asked,inside,?_⟩,own⟩
    rw [found]
    rfl

/-- The loop of `startupDataResponse` over the answer, on the invalidated rows. -/
theorem findById_handshake (key : String) :
    ((response joiner leader).foldl refresh (invalidateAll joiner.database)).findById key =
      refreshed (joiner.database.findById key) (leader.database.findById key) := by
  cases known : leader.database.findById key with
  | none =>
    have silent : key ∉ (response joiner leader).map DataDto.key := by
      rw [mem_response_keys,known]
      simp
    rw [findById_refreshed "" _ (fun dataDto told same => absurd (List.mem_map.mpr ⟨dataDto,told,same⟩) silent),if_neg silent,
      findById_invalidateAll]
    rfl
  | some source =>
    rw [findById_refreshed source.data _ (response_told known),findById_invalidateAll]
    cases mine : joiner.database.findById key with
    | none => simp [refreshed]
    | some entity =>
      rw [if_pos ((mem_response_keys key).mpr ⟨by rw [mine]; rfl,by rw [known]; rfl⟩)]
      rfl

end

/-- For every two databases: the joiner asks the coordinator and nobody else, the
    coordinator answers it and stays as it is, and the joiner ends with its own keys,
    each with the value of the coordinator where it has one, and invalidated where not. -/
theorem handshake (settings : Settings) (joiner leader : LeaderManager) (me other : SpreadGroup) (members : List SpreadGroup)
    (waits : joiner.waitStartupDataUpdate = true) (elected : coordinator settings me members = some other) :
    ∃ request response,
      (checkStartup settings joiner me members).sends = [.unicast (.startupRequestUpdate request) other] ∧
      (startupData leader me request).sends = [.unicast (.startupResponseUpdate response) me] ∧
      (startupData leader me request).manager = leader ∧
      (startupDataResponse (checkStartup settings joiner me members).manager response).sends = [] ∧
      (startupDataResponse (checkStartup settings joiner me members).manager response).manager.waitStartupDataUpdate = false ∧
      ∀ key, (startupDataResponse (checkStartup settings joiner me members).manager response).manager.database.findById key =
        refreshed (joiner.database.findById key) (leader.database.findById key) := by
  rw [checkStartup_asks waits elected]
  exact ⟨request joiner,response joiner leader,rfl,rfl,rfl,rfl,rfl,findById_handshake⟩

/-- Server1 comes with a row that Server2 has too and one that Server2 has not. -/
def comeBack : LeaderManager := .initial ((holding "old").save ⟨"own",none,"mine"⟩)

theorem handshake_comeBack :
    ∃ response, (startupDataResponse (checkStartup .properties comeBack server1 [service,server1,server2]).manager
        response).manager.database.findById "k" = some ⟨"k",some false,"new"⟩ ∧
      (startupDataResponse (checkStartup .properties comeBack server1 [service,server1,server2]).manager
        response).manager.database.findById "own" = some ⟨"own",some true,"mine"⟩ := by
  obtain ⟨_,response,_,_,_,_,_,rows⟩ := handshake .properties comeBack (.initial (holding "new")) server1 server2
    [service,server1,server2] rfl (by decide)
  exact ⟨response,rows "k",rows "own"⟩

end CdPraticas.Handshake
