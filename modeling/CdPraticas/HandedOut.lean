import CdPraticas.Joining

/-!
# What servers hand out

A server answers ASK_DATA and a startup request with values of its own for another
server to store. The value travels without its validity: the two answers have to
look at it, and one does.
-/

namespace CdPraticas.HandedOut
open Runs Groups Store Messages Handlers Cluster Keys Startup Joining

/-- The values in a message that its receiver stores. -/
def supplies : Message → List DataDto
  | .askDataResponse dataDto => [dataDto]
  | .startupResponseUpdate dataDtoList => dataDtoList
  | _ => []

/-- The server has a valid row of the key with the value. -/
def Vouches (s : State) (server : SpreadGroup) (dataDto : DataDto) : Prop :=
  ∃ entity, row s server dataDto.key = some entity ∧ entity.Valid ∧ entity.data = dataDto.data

/-- What a handler hands out, its server has at that moment. -/
def HandsOutValid (settings : Settings) (s : State) : Action → Prop
  | .deliver packet _ => isService packet.receiver = false →
      ∀ send ∈ (messageReceived settings (s.servers packet.receiver) packet.receiver packet.sender packet.body).sends,
        ∀ dataDto ∈ supplies send.message, Vouches s packet.receiver dataDto
  | _ => True

/-- A startup request lists no key of which the server that handles it has an
    invalidated row. -/
def AsksForValid (s : State) : Action → Prop
  | .deliver packet _ => isService packet.receiver = false →
      ∀ dataDtoList, packet.body = .regular (.startupRequestUpdate dataDtoList) →
        ∀ dataDto ∈ dataDtoList, ∀ entity, row s packet.receiver dataDto.key = some entity → entity.Valid
  | _ => True

section
variable {settings : Settings} {self : LeaderManager} {me sender : SpreadGroup} {s : State}

/-- A handler of a message about a key hands out valid rows only, -/
theorem keyed_supplies {message : Message} {key : String} (about : message.key? = some key) :
    ∀ send ∈ (messageReceived settings self me sender (.regular message)).sends, ∀ dataDto ∈ supplies send.message,
      ∃ entity, self.database.findById dataDto.key = some entity ∧ entity.Valid ∧ entity.data = dataDto.data := by
  have handled := messageReceived_handled settings self me sender about
  generalize (messageReceived settings self me sender (.regular message)).sends = sends at handled ⊢
  generalize (messageReceived settings self me sender (.regular message)).callbacks = callbacks at handled
  generalize fields (messageReceived settings self me sender (.regular message)).manager key = after at handled
  intro send sent dataDto told
  cases handled with
  | @answered _ entity _ stored valid =>
    obtain rfl := List.mem_singleton.mp sent
    obtain rfl := List.mem_singleton.mp told
    have found : self.database.findById key = some entity := stored
    have own : entity.key = key := Database.findById_key found
    exact ⟨entity,by rw [toDto_key,own]; exact found,valid,rfl⟩
  | granted =>
    split_ifs at sent
    · cases sent
    · obtain rfl := List.mem_singleton.mp sent
      cases told
  | refused =>
    obtain rfl := List.mem_singleton.mp sent
    cases told
  | _ => cases sent

/-- a view and the end of a startup nothing, -/
theorem membership_supplies {info : MembershipInfo} :
    ∀ send ∈ (messageReceived settings self me sender (.membership info)).sends, supplies send.message = [] := by
  intro send sent
  simp only [messageReceived,checkStartup] at sent
  repeat' split at sent
  case h_1 =>
    obtain rfl := List.mem_singleton.mp sent
    rfl
  all_goals cases sent

/-- and a startup request is answered with every row there is. -/
theorem startupData_supplies {dataDtoList : List DataDto} {dataDto : DataDto} :
    (∃ send ∈ (startupData self sender dataDtoList).sends, dataDto ∈ supplies send.message) ↔
      (∃ asked ∈ dataDtoList, asked.key = dataDto.key) ∧
        ∃ entity, self.database.findById dataDto.key = some entity ∧ entity.data = dataDto.data := by
  constructor
  · rintro ⟨send,sent,told⟩
    obtain rfl := List.mem_singleton.mp sent
    obtain ⟨asked,inside,answers⟩ := List.mem_filterMap.mp told
    obtain ⟨entity,found,rfl⟩ := Option.map_eq_some_iff.mp answers
    have own : entity.key = asked.key := Database.findById_key found
    exact ⟨⟨asked,inside,own.symm⟩,entity,by rw [toDto_key,own]; exact found,rfl⟩
  · rintro ⟨⟨asked,inside,same⟩,entity,found,value⟩
    refine ⟨_,List.mem_singleton_self _,List.mem_filterMap.mpr ⟨asked,inside,?_⟩⟩
    have whole : entity.toDto = dataDto := by rw [DataEntity.toDto,Database.findById_key found,value]
    rw [same,found,← whole]
    rfl

/-- So a handler can hand out an invalidated row for a startup request only. -/
theorem handsOut_iff {a : Action} : HandsOutValid settings s a ↔ AsksForValid s a := by
  cases a with
  | deliver packet sent =>
    refine imp_congr_right fun plain => ?_
    cases body : packet.body with
    | membership info =>
      refine iff_of_true (fun send sent dataDto told => ?_) fun _ contrary => by cases contrary
      rw [membership_supplies send sent] at told
      cases told
    | regular message =>
      cases about : message.key? with
      | some key =>
        refine iff_of_true (keyed_supplies about) fun _ contrary => ?_
        cases contrary
        cases about
      | none =>
        cases message with
        | startupRequestUpdate dataDtoList =>
          constructor
          · intro vouches _ same dataDto inside entity has
            cases same
            have own : entity.key = dataDto.key := Database.findById_key has
            have answered : (s.servers packet.receiver).database.findById entity.toDto.key = some entity := by
              rw [toDto_key,own]
              exact has
            obtain ⟨send,sent,told⟩ := startupData_supplies.mpr ⟨⟨dataDto,inside,own.symm⟩,entity,answered,rfl⟩
            obtain ⟨entity',has',valid,_⟩ := vouches send sent _ told
            cases answered.symm.trans has'
            exact valid
          · intro asks send sent dataDto told
            obtain ⟨⟨asked,inside,same⟩,entity,found,value⟩ := startupData_supplies.mp ⟨send,sent,told⟩
            exact ⟨entity,found,asks dataDtoList rfl asked inside entity (by rw [same]; exact found),value⟩
        | startupResponseUpdate dataDtoList => exact iff_of_true (fun _ sent => by cases sent) fun _ contrary => by cases contrary
        | _ => cases about
  | _ => rfl

end

/-- In every run, every step of which hands out only valid values exactly when no
    startup request asks for an invalidated one. -/
theorem handed_out_iff (settings : Settings) (start t : State) (acts : List Action) (run : Run (Steps (step settings)) start acts t) :
    (∀ front a back u, acts = front ++ a :: back → Run (Steps (step settings)) start front u → HandsOutValid settings u a) ↔
      Run (Restrict AsksForValid (Steps (step settings))) start acts t := by
  rw [run.restrict_iff]
  simp only [handsOut_iff]

/-- Server1 joins, and then Server2 with an older value. Both see the second view, and
    both ask. -/
def crossing : List Action :=
  Startup.joined [service,server1] ++ .view secondView ::
    secondView.members.map fun member => .deliver ⟨member,member,.membership secondView,none⟩ true

/-- What Server1 asks Server2, which has invalidated its own rows by then. -/
def crossed : Action := .deliver ⟨server2,server1,.regular (.startupRequestUpdate [⟨"k","new"⟩]),none⟩ true

theorem crossing_hands_out :
    ∃ s t, Run (Restrict (Joins .properties) (Steps (step .properties))) outdated crossing s ∧
      step .properties crossed s = some t ∧ ¬ HandsOutValid .properties s crossed := by
  obtain ⟨s,run,asked,invalidated⟩ := exists_run_of_exec (step .properties) (JoinsLast .properties)
    (fun s => (step .properties crossed s).isSome = true ∧ row s server2 "k" = some ⟨"k",some true,"old"⟩)
    outdated crossing (by decide)
  obtain ⟨t,move⟩ := Option.isSome_iff_exists.mp asked
  refine ⟨s,t,run.mono fun _ _ _ move => ⟨move.1.joins,move.2⟩,move,fun handsOut => ?_⟩
  exact absurd rfl (handsOut_iff.mp handsOut (by decide) _ rfl ⟨"k","new"⟩ List.mem_cons_self _ invalidated)

theorem handed_out_iff_crossing :
    ∃ t, Run (Steps (step .properties)) outdated (crossing ++ [crossed]) t ∧
      ¬ Run (Restrict AsksForValid (Steps (step .properties))) outdated (crossing ++ [crossed]) t := by
  obtain ⟨s,t,run,move,handsOut⟩ := crossing_hands_out
  refine ⟨t,run.unrestrict.next move,fun asks => handsOut ?_⟩
  exact (handed_out_iff .properties outdated t _ (run.unrestrict.next move)).mpr asks crossing crossed [] s rfl run.unrestrict

/-- Two servers that start up at a time answer each other with rows that they have
    just invalidated. -/
theorem invalidated_handed_out :
    ¬ ∀ (settings : Settings) (start s t : State) (acts : List Action) (a : Action), Vacant start →
      Run (Restrict (Joins settings) (Steps (step settings))) start acts s → step settings a s = some t →
      HandsOutValid settings s a := by
  intro valid
  obtain ⟨s,t,run,move,handsOut⟩ := crossing_hands_out
  exact handsOut (valid .properties outdated s t crossing crossed ⟨⟨service,by decide,rfl⟩,fun _ => rfl,by simp [outdated]⟩ run move)

end CdPraticas.HandedOut
