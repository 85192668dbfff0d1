import GridFilter.DataMap.Basic
import GridFilter.Json.Reader
import GridFilter.Text.Blank
import GridFilter.Value.Json

/-! Reading a data map from JSON. An entity is written as a result with its rows under `Data`, as a list of rows or
    as one record; a key with a dot in it names an attribute of an entity. -/

namespace GridFilter.DataMap

/-! ### Faults -/

/-- What is wrong with the data of an entity. -/
inductive Fault where
  | notAnObject (found : String)
  | notRecords (found : String)
  | rowNotAnObject
deriving DecidableEq, Repr

/-- The message about a fault. -/
def Fault.message : Fault → String
  | .notAnObject found => "expected an object, found " ++ found
  | .notRecords found => "expected an object or a list of records, found " ++ found
  | .rowNotAnObject => "every row must be an object"

/-- Data that has no place in a data map, and the entity it was given for. -/
structure InvalidData where
  entity : String
  fault : Fault
deriving DecidableEq, Repr

/-- The message about data that has no place in a data map. -/
def InvalidData.message (e : InvalidData) : String :=
  "Invalid data for entity '" ++ e.entity ++ "': " ++ e.fault.message

/-- The name that stands for the whole document in a message. -/
def rootName : String := "<root>"

/-! ### Records -/

/-- The record that the entries of an object give. -/
def recordOf (entries : List (String × Json)) : Record := Table.mapValues Value.ofJson entries

/-- The record of a row; a row may keep its attributes in an object under `value`. -/
def rowRecord (entity : String) : Json → Except InvalidData Record
  | .object entries =>
    match entries.lookup "value" with
    | some (.object inner) => .ok (recordOf inner)
    | _ => .ok (recordOf entries)
  | _ => .error ⟨entity, .rowNotAnObject⟩

/-- The records of a list of rows. -/
def rowRecords (entity : String) : List Json → Except InvalidData (List Record)
  | [] => .ok []
  | row :: rest => do
    let first ← rowRecord entity row
    let others ← rowRecords entity rest
    return first :: others

/-- The records of an entity. -/
def entityRecords (entity : String) (json : Json) : Except InvalidData (List Record) :=
  match json with
  | .object entries =>
    match entries.lookup "Data" with
    | some (.array rows) => rowRecords entity rows
    | some .null => .ok []
    | _ => .ok [recordOf entries]
  | .array rows => rowRecords entity rows
  | .null => .ok []
  | other => .error ⟨entity, .notRecords other.kindName⟩

/-! ### Documents -/

/-- The two sides of the first dot of a name. -/
def splitName? (name : String) : Option (String × String) :=
  (Text.cut? '.' name.toList).map fun (entity, property) => (.ofList entity, .ofList property)

/-- A data map with one more entry of a document. -/
def addEntry (data : DataMap) (key : String) (json : Json) : Except InvalidData DataMap :=
  match splitName? key with
  | some (entity, property) => .ok (data.set entity property (.ofJson json))
  | none => (entityRecords key json).map (data.insert key)

/-- A data map with the entries of a document in order. -/
def addEntries (data : DataMap) : List (String × Json) → Except InvalidData DataMap
  | [] => .ok data
  | (key, json) :: rest => do
    let data ← data.addEntry key json
    data.addEntries rest

/-- The data map of a document. -/
def ofJson : Json → Except InvalidData DataMap
  | .object entries => empty.addEntries entries
  | other => .error ⟨rootName, .notAnObject other.kindName⟩

end GridFilter.DataMap
