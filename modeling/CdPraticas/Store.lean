import Mathlib

/-!
# The local database of a server

The rows of `server_data` and the repository operations the server uses. A
row never changes its key, so the table is a finite map from keys.
-/

namespace CdPraticas.Store

/-- The value of one key as it travels between servers. It carries no validity. -/
structure DataDto where
  key : String
  data : String
  deriving DecidableEq

/-- A stored row. `invalidate` is a nullable column. -/
structure DataEntity where
  key : String
  invalidate : Option Bool
  data : String
  deriving DecidableEq

/-- `new DataEntity(dataDto)`: the column `invalidate` stays null. -/
def DataEntity.ofDto (create : DataDto) : DataEntity := ⟨create.key,none,create.data⟩
/-- `new DataDto(dataEntity)`. -/
def DataEntity.toDto (entity : DataEntity) : DataDto := ⟨entity.key,entity.data⟩
def DataEntity.setInvalidate (entity : DataEntity) (flag : Bool) : DataEntity := { entity with invalidate := some flag }

/-- Null counts as not invalidated, in every place that tests the column. -/
def DataEntity.Valid (entity : DataEntity) : Prop := entity.invalidate ≠ some true

instance (entity : DataEntity) : Decidable entity.Valid := inferInstanceAs (Decidable (_ ≠ _))

@[simp] theorem valid_ofDto (create : DataDto) : (DataEntity.ofDto create).Valid := by
  simp [DataEntity.Valid,DataEntity.ofDto]
@[simp] theorem valid_setInvalidate (entity : DataEntity) (flag : Bool) :
    (entity.setInvalidate flag).Valid ↔ flag = false := by
  cases flag <;> simp [DataEntity.Valid,DataEntity.setInvalidate]
@[simp] theorem ofDto_data (create : DataDto) : (DataEntity.ofDto create).data = create.data := rfl
@[simp] theorem ofDto_key (create : DataDto) : (DataEntity.ofDto create).key = create.key := rfl
@[simp] theorem toDto_data (entity : DataEntity) : entity.toDto.data = entity.data := rfl
@[simp] theorem toDto_key (entity : DataEntity) : entity.toDto.key = entity.key := rfl
@[simp] theorem setInvalidate_data (entity : DataEntity) (flag : Bool) : (entity.setInvalidate flag).data = entity.data := rfl
@[simp] theorem setInvalidate_key (entity : DataEntity) (flag : Bool) : (entity.setInvalidate flag).key = entity.key := rfl

abbrev Database := AList (fun _ : String => Option Bool × String)

namespace Database

def findById (database : Database) (key : String) : Option DataEntity :=
  (database.lookup key).map fun row => ⟨key,row.1,row.2⟩
/-- `save` writes the whole row, whether or not one was stored. -/
def save (database : Database) (entity : DataEntity) : Database :=
  database.insert entity.key (entity.invalidate,entity.data)
def deleteById (database : Database) (key : String) : Database := database.erase key
def findAll (database : Database) : List DataEntity :=
  database.entries.map fun row => ⟨row.1,row.2.1,row.2.2⟩

theorem findById_key {database : Database} {key : String} {entity : DataEntity}
    (found : database.findById key = some entity) : entity.key = key := by
  obtain ⟨row,_,rfl⟩ := Option.map_eq_some_iff.mp found
  rfl

@[simp] theorem findById_empty (key : String) : findById ∅ key = none := by simp [findById]

theorem findById_save (database : Database) (entity : DataEntity) (key : String) :
    (database.save entity).findById key = if key = entity.key then some entity else database.findById key := by
  unfold findById save
  by_cases same : key = entity.key
  · subst same; simp
  · simp [AList.lookup_insert_ne same,same]

theorem findById_deleteById (database : Database) (gone key : String) :
    (database.deleteById gone).findById key = if key = gone then none else database.findById key := by
  unfold findById deleteById
  by_cases same : key = gone
  · subst same; simp
  · simp [AList.lookup_erase_ne same,same]

theorem mem_findAll (database : Database) (entity : DataEntity) :
    entity ∈ database.findAll ↔ database.findById entity.key = some entity := by
  simp only [findAll,findById,List.mem_map,Option.map_eq_some_iff]
  constructor
  · rintro ⟨⟨key,row⟩,member,rfl⟩
    exact ⟨row,AList.mem_lookup_iff.mpr member,rfl⟩
  · rintro ⟨row,found,same⟩
    exact ⟨⟨entity.key,row⟩,AList.mem_lookup_iff.mp found,same⟩

end Database

end CdPraticas.Store
