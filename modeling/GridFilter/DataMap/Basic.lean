import GridFilter.Table
import GridFilter.Value.Basic

/-! The records that placeholders are resolved against: for each entity a list of records, of which the first one
    answers. -/

namespace GridFilter

/-- The values of a record by attribute, in order. -/
abbrev Record := Table Value

/-- The records of each entity, in the order in which the entities were first mentioned. -/
structure DataMap where
  entities : Table (List Record)

namespace DataMap

/-- The map without an entity. -/
def empty : DataMap := ⟨[]⟩

/-- The records of an entity. -/
def entity? (data : DataMap) (entity : String) : Option (List Record) := data.entities.get? entity

/-- The record that answers for an entity. -/
def record? (data : DataMap) (entity : String) : Option Record := (data.entity? entity).bind List.head?

/-- Adds an entity with its records, or replaces the records of a known one. -/
def insert (data : DataMap) (entity : String) (records : List Record) : DataMap :=
  ⟨data.entities.insert entity records⟩

/-- Records in which the first one has a value under an attribute; where there is none, one is made. -/
def setFirst (property : String) (value : Value) : List Record → List Record
  | [] => [Table.insert [] property value]
  | first :: others => Table.insert first property value :: others

/-- Sets an attribute in the first record of an entity, making both where they are missing. -/
def set (data : DataMap) (entity property : String) (value : Value) : DataMap :=
  data.insert entity (setFirst property value ((data.entity? entity).getD []))

end DataMap

end GridFilter
