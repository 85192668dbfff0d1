import GridFilter.DataMap.Load
import GridFilter.Proofs.DataMap.Writes
import Mathlib.Data.List.Forall2

/-! The shapes of a document. An entity is written as a result with its rows, as one record or with dotted keys; each
    shape is a run of writes, and in each the record of the entity is the same. -/

namespace GridFilter.DataMap

/-! ### Shapes -/

/-- An entity with one record as documents write it. Its name has no dot, its attributes are distinct, and none of
    them is taken for a list of rows. -/
structure Entity where
  name : String
  entries : List (String × Json)
  name_undotted : '.' ∉ name.toList
  nodup : (Table.names entries).Nodup
  data_ne_array : ∀ rows, entries.lookup "Data" ≠ some (.array rows)
  data_ne_null : entries.lookup "Data" ≠ some .null

namespace Entity

/-- The record of an entity. -/
def record (entity : Entity) : Record := recordOf entity.entries

/-- An entity as one record. -/
def plain (entity : Entity) : String × Json := (entity.name, .object entity.entries)

/-- An entity as dotted keys, one for each attribute. -/
def dotted (entity : Entity) : List (String × Json) :=
  entity.entries.map fun (property, json) => (entity.name ++ "." ++ property, json)

/-- An entity as a result: an object with rows under `Data`, of which the first has the record under `value`. Other
    entries may stand next to both, and other rows behind the first. -/
inductive IsResult (entity : Entity) : String × Json → Prop
  | intro {fields row : List (String × Json)} {others : List (List (String × Json))}
      (rows : fields.lookup "Data" = some (.array (.object row :: others.map .object)))
      (record : row.lookup "value" = some (.object entity.entries)) : IsResult entity (entity.name, .object fields)

end Entity

/-- The dotted keys of some entities in one object, those of each entity in order. -/
structure Interleaved (entities : List Entity) (keys : List (String × Json)) : Prop where
  perm : keys.Perm (entities.flatMap Entity.dotted)
  order : ∀ entity ∈ entities, entity.dotted.Sublist keys

/-- The record that answers for each of some entities is its own, and no other entity has one. -/
structure Holds (data : DataMap) (entities : List Entity) : Prop where
  known : ∀ entity ∈ entities, data.frontRecord entity.name = entity.record
  unknown : ∀ name, name ∉ entities.map Entity.name → data.frontRecord name = []

variable {data other : DataMap} {entities : List Entity} {entity : Entity} {policy : MissingAttribute}
  {name key property : String} {json : Json} {entries keys results : List (String × Json)} {writes : List Write}

/-- Placeholders resolve alike where the same records answer. -/
theorem resolve_congr (h : ∀ name, data.frontRecord name = other.frontRecord name) :
    data.resolve policy name = other.resolve policy name := by
  rcases hsplit : splitName? name with - | ⟨entity, property⟩
  · rw [resolve_of_undivided hsplit, resolve_of_undivided hsplit, h]
  · rw [resolve_of_split hsplit, resolve_of_split hsplit, h]

theorem Holds.resolve_eq (h : data.Holds entities) (hother : other.Holds entities) :
    data.resolve policy name = other.resolve policy name := by
  refine resolve_congr fun name => ?_
  by_cases hname : name ∈ entities.map Entity.name
  · obtain ⟨entity, hentity, rfl⟩ := List.mem_map.mp hname
    rw [h.known entity hentity, hother.known entity hentity]
  · rw [h.unknown name hname, hother.unknown name hname]

/-! ### Documents as runs of writes -/

/-- The write that an entry of a document stands for. -/
def entryWrite (key : String) (json : Json) : Except InvalidData Write :=
  match splitName? key with
  | some (entity, property) => .ok (.set entity property (.ofJson json))
  | none => (entityRecords key json).map (.insert key)

/-- An entry of a document stands for a write. -/
def Stands (entry : String × Json) (write : Write) : Prop := entryWrite entry.1 entry.2 = .ok write

theorem addEntry_eq : data.addEntry key json = (entryWrite key json).map data.after := by
  unfold addEntry entryWrite
  rcases splitName? key with - | ⟨entity, property⟩
  · rcases entityRecords key json with e | given <;> rfl
  · rfl

theorem addEntry_of_stands {write : Write} (h : Stands (key, json) write) :
    data.addEntry key json = .ok (data.after write) := by
  rw [addEntry_eq, h]
  rfl

theorem addEntries_of_stands (h : List.Forall₂ Stands entries writes) :
    data.addEntries entries = .ok (writes.foldl after data) := by
  induction h generalizing data with
  | nil => rfl
  | @cons entry write entries writes hfirst _ ih =>
    obtain ⟨key, json⟩ := entry
    rw [addEntries, addEntry_of_stands hfirst]
    exact ih

/-- A document whose entries stand for writes gives the data map of these writes. -/
theorem ofJson_of_stands (h : List.Forall₂ Stands entries writes) : ofJson (.object entries) = .ok (ofWrites writes) :=
  addEntries_of_stands h

/-! ### Results and records -/

theorem rowRecords_objects (name : String) (rows : List (List (String × Json))) :
    ∃ records, rowRecords name (rows.map .object) = .ok records := by
  induction rows with
  | nil => exact ⟨[], rfl⟩
  | cons row rest ih =>
    obtain ⟨records, hrecords⟩ := ih
    have hrow : ∃ record, rowRecord name (.object row) = .ok record := by
      rcases hvalue : row.lookup "value" with - | json
      · exact ⟨recordOf row, by rw [rowRecord, hvalue]⟩
      · cases json with
        | object inner => exact ⟨recordOf inner, by rw [rowRecord, hvalue]⟩
        | _ => exact ⟨recordOf row, by rw [rowRecord, hvalue]⟩
    obtain ⟨record, hrecord⟩ := hrow
    refine ⟨record :: records, ?_⟩
    rw [List.map_cons, rowRecords, hrecord, hrecords]
    rfl

/-- A write inserts records for an entity, the first of which is its own. -/
def Inserts (entity : Entity) (write : Write) : Prop := ∃ others, write = .insert entity.name (entity.record :: others)

theorem Entity.IsResult.stands {entry : String × Json} (h : entity.IsResult entry) :
    ∃ write, Stands entry write ∧ Inserts entity write := by
  obtain ⟨hrows, hrecord⟩ := h
  rename_i fields row others
  obtain ⟨records, hrecords⟩ := rowRecords_objects entity.name others
  have hrow : rowRecord entity.name (.object row) = .ok entity.record := by rw [rowRecord, hrecord]; rfl
  have hentity : entityRecords entity.name (.object fields) = .ok (entity.record :: records) := by
    rw [entityRecords, hrows]
    show rowRecords entity.name (.object row :: others.map .object) = _
    rw [rowRecords, hrow, hrecords]
    rfl
  refine ⟨_, ?_, records, rfl⟩
  rw [Stands, entryWrite, splitName?_of_not_mem entity.name_undotted, hentity]
  rfl

theorem Entity.stands_plain : Stands entity.plain (.insert entity.name [entity.record]) := by
  have hentity : entityRecords entity.name (.object entity.entries) = .ok [entity.record] := by
    rcases hdata : entity.entries.lookup "Data" with - | json
    · rw [entityRecords, hdata]
      rfl
    · cases json with
      | array rows => exact absurd hdata (entity.data_ne_array rows)
      | null => exact absurd hdata entity.data_ne_null
      | _ =>
        rw [entityRecords, hdata]
        rfl
  rw [Stands, Entity.plain, entryWrite, splitName?_of_not_mem entity.name_undotted, hentity]
  rfl

theorem entity_of_inserts {write : Write} (h : Inserts entity write) : write.entity = entity.name := by
  obtain ⟨others, rfl⟩ := h
  rfl

theorem entities_of_inserts (h : List.Forall₂ Inserts entities writes) :
    writes.map Write.entity = entities.map Entity.name := by
  induction h with
  | nil => rfl
  | cons hfirst _ ih => rw [List.map_cons, List.map_cons, entity_of_inserts hfirst, ih]

theorem exists_last_insert (hnames : (entities.map Entity.name).Nodup) (h : List.Forall₂ Inserts entities writes)
    (hentity : entity ∈ entities) : ∃ before write behind, writes = before ++ [write] ++ behind ∧
      Inserts entity write ∧ ∀ later ∈ behind, later.entity ≠ entity.name := by
  induction h with
  | nil => cases hentity
  | @cons first write others writes hfirst hothers ih =>
    rw [List.map_cons, List.nodup_cons] at hnames
    rcases List.mem_cons.mp hentity with rfl | hentity
    · -- A later insertion for the same entity would repeat its name.
      refine ⟨[], write, writes, rfl, hfirst, fun later hlater heq => hnames.1 ?_⟩
      rw [← heq, ← entities_of_inserts hothers]
      exact List.mem_map_of_mem hlater
    · obtain ⟨before, last, behind, rfl, hlast, hbehind⟩ := ih hnames.2 hentity
      exact ⟨write :: before, last, behind, rfl, hlast, hbehind⟩

/-- Behind insertions for distinct entities each entity has its own record. -/
theorem holds_of_inserts (hnames : (entities.map Entity.name).Nodup) (h : List.Forall₂ Inserts entities writes) :
    (ofWrites writes).Holds entities := by
  refine ⟨fun entity hentity => ?_, fun name hname => ?_⟩
  · obtain ⟨before, write, behind, rfl, ⟨others, rfl⟩, hbehind⟩ := exists_last_insert hnames h hentity
    rw [frontRecord, records, entity?_ofWrites_append hbehind, ofWrites_concat, after, entity?_insert, if_pos rfl]
    rfl
  · have hnone : ∀ write ∈ writes, write.entity ≠ name := by
      intro write hwrite heq
      rw [← entities_of_inserts h, ← heq] at hname
      exact hname (List.mem_map_of_mem hwrite)
    rw [frontRecord, records, ← List.nil_append writes, entity?_ofWrites_append hnone]
    rfl

/-! ### Dotted keys -/

/-- The attribute of an entity that a dotted key gives a value. -/
def attribute? (name : String) (entry : String × Json) : Option (String × Value) :=
  match splitName? entry.1 with
  | some (entity, property) => if entity = name then some (property, .ofJson entry.2) else none
  | none => none

theorem filterMap_dotted (entity : Entity) :
    entity.dotted.filterMap (attribute? name) = if entity.name = name then entity.record else [] := by
  have hkey (item : String × Json) : attribute? name (entity.name ++ "." ++ item.1, item.2) =
      if entity.name = name then some (item.1, .ofJson item.2) else none := by
    rw [attribute?, splitName?_append entity.name_undotted]
  rw [Entity.dotted, List.filterMap_map]
  by_cases h : entity.name = name
  · rw [if_pos h, Entity.record, recordOf, Table.mapValues, ← List.filterMap_eq_map]
    refine List.filterMap_congr fun item _ => ?_
    rw [Function.comp_apply, hkey, if_pos h]
    rfl
  · rw [if_neg h, List.filterMap_eq_nil_iff]
    intro item _
    rw [Function.comp_apply, hkey, if_neg h]

theorem filterMap_flatMap_of_not_mem (h : name ∉ entities.map Entity.name) :
    (entities.flatMap Entity.dotted).filterMap (attribute? name) = [] := by
  rw [List.filterMap_flatMap, List.flatMap_eq_nil_iff]
  intro entity hentity
  rw [filterMap_dotted, if_neg]
  rintro rfl
  exact h (List.mem_map_of_mem hentity)

theorem filterMap_flatMap_of_mem (hnames : (entities.map Entity.name).Nodup) (h : entity ∈ entities) :
    (entities.flatMap Entity.dotted).filterMap (attribute? entity.name) = entity.record := by
  obtain ⟨before, behind, rfl⟩ := List.append_of_mem h
  rw [List.map_append, List.map_cons, List.nodup_append, List.nodup_cons] at hnames
  obtain ⟨-, ⟨hbehind, -⟩, hbefore⟩ := hnames
  have hbefore : entity.name ∉ before.map Entity.name := fun hmem => hbefore _ hmem _ List.mem_cons_self rfl
  rw [List.flatMap_append, List.flatMap_cons, List.filterMap_append, List.filterMap_append,
    filterMap_flatMap_of_not_mem hbefore, filterMap_flatMap_of_not_mem hbehind, filterMap_dotted, if_pos rfl]
  simp

/-- However the keys of distinct entities are mixed, those of one entity give its record. -/
theorem Interleaved.filterMap_eq (h : Interleaved entities keys) (hnames : (entities.map Entity.name).Nodup)
    (hentity : entity ∈ entities) : keys.filterMap (attribute? entity.name) = entity.record := by
  -- The attributes of the entity stand in order among the keys, and the permutation adds none to them.
  have hsublist := (h.order entity hentity).filterMap (attribute? entity.name)
  rw [filterMap_dotted, if_pos rfl] at hsublist
  have hperm := h.perm.filterMap (attribute? entity.name)
  rw [filterMap_flatMap_of_mem hnames hentity] at hperm
  exact (hsublist.eq_of_length hperm.length_eq.symm).symm

theorem Interleaved.filterMap_eq_nil (h : Interleaved entities keys) (hname : name ∉ entities.map Entity.name) :
    keys.filterMap (attribute? name) = [] := by
  have hperm := h.perm.filterMap (attribute? name)
  rw [filterMap_flatMap_of_not_mem hname] at hperm
  exact hperm.eq_nil

theorem Entity.stands_dotted {entry : String × Json} (h : entry ∈ entity.dotted) :
    ∃ property, Stands entry (.set entity.name property (.ofJson entry.2)) ∧
      ∀ name, attribute? name entry = (Write.set entity.name property (.ofJson entry.2)).assigned? name := by
  obtain ⟨⟨property, json⟩, -, rfl⟩ := List.mem_map.mp h
  refine ⟨property, ?_, fun name => ?_⟩
  · rw [Stands, entryWrite, splitName?_append entity.name_undotted]
  · rw [attribute?, splitName?_append entity.name_undotted]
    rfl

/-- Dotted keys stand for sets. -/
theorem exists_sets (h : ∀ entry ∈ keys, ∃ entity : Entity, entry ∈ entity.dotted) :
    ∃ writes, List.Forall₂ Stands keys writes ∧
      ∀ name, lastInserted writes name = [] ∧ setsSince writes name = keys.filterMap (attribute? name) := by
  induction keys using List.reverseRecOn with
  | nil => exact ⟨[], .nil, fun name => ⟨rfl, rfl⟩⟩
  | append_singleton keys entry ih =>
    obtain ⟨writes, hstands, hwrites⟩ := ih fun entry hentry => h entry (List.mem_append_left _ hentry)
    obtain ⟨entity, hentity⟩ := h entry (by simp)
    obtain ⟨property, hstands', hassigned⟩ := entity.stands_dotted hentity
    refine ⟨writes ++ [.set entity.name property (.ofJson entry.2)], List.rel_append hstands (.cons hstands' .nil),
      fun name => ⟨?_, ?_⟩⟩
    · rw [lastInserted_concat]
      exact (hwrites name).1
    · rw [setsSince_concat, ← hassigned, (hwrites name).2, List.filterMap_append]
      rcases hentry : attribute? name entry with - | item <;> simp [Write.inserted?, hentry]

theorem holds_of_sets (hnames : (entities.map Entity.name).Nodup) (h : Interleaved entities keys)
    (hinserted : ∀ name, lastInserted writes name = [])
    (hsets : ∀ name, setsSince writes name = keys.filterMap (attribute? name)) : (ofWrites writes).Holds entities := by
  have hfront (name : String) :
      (ofWrites writes).frontRecord name = Table.insertAll [] (keys.filterMap (attribute? name)) := by
    rw [frontRecord_ofWrites, baseRecord, hinserted, hsets]
    rfl
  refine ⟨fun entity hentity => ?_, fun name hname => ?_⟩
  · have hnodup : (Table.names entity.record).Nodup := by
      have hrecord : Table.names entity.record = Table.names entity.entries := by
        simp [Table.names, Entity.record, recordOf, Table.mapValues]
      exact hrecord ▸ entity.nodup
    rw [hfront, h.filterMap_eq hnames hentity]
    exact Table.insertAll_of_nodup hnodup
  · rw [hfront, h.filterMap_eq_nil hname]
    rfl

/-! ### The shapes agree -/

theorem holds_results (hnames : (entities.map Entity.name).Nodup)
    (h : List.Forall₂ Entity.IsResult entities results) : ∃ data, ofJson (.object results) = .ok data ∧ data.Holds entities := by
  have hwrites : ∃ writes, List.Forall₂ Stands results writes ∧ List.Forall₂ Inserts entities writes := by
    clear hnames
    induction h with
    | nil => exact ⟨[], .nil, .nil⟩
    | cons hfirst _ ih =>
      obtain ⟨write, hstands, hinserts⟩ := hfirst.stands
      obtain ⟨writes, hstands', hinserts'⟩ := ih
      exact ⟨write :: writes, .cons hstands hstands', .cons hinserts hinserts'⟩
  obtain ⟨writes, hstands, hinserts⟩ := hwrites
  exact ⟨_, ofJson_of_stands hstands, holds_of_inserts hnames hinserts⟩

theorem holds_records (hnames : (entities.map Entity.name).Nodup) :
    ∃ data, ofJson (.object (entities.map Entity.plain)) = .ok data ∧ data.Holds entities := by
  let insertOf (entity : Entity) : Write := .insert entity.name [entity.record]
  have hstands : List.Forall₂ Stands (entities.map Entity.plain) (entities.map insertOf) := by
    rw [List.forall₂_map_left_iff, List.forall₂_map_right_iff, List.forall₂_same]
    exact fun entity _ => entity.stands_plain
  have hinserts : List.Forall₂ Inserts entities (entities.map insertOf) := by
    rw [List.forall₂_map_right_iff, List.forall₂_same]
    exact fun entity _ => ⟨[], rfl⟩
  exact ⟨_, ofJson_of_stands hstands, holds_of_inserts hnames hinserts⟩

theorem holds_keys (hnames : (entities.map Entity.name).Nodup) (h : Interleaved entities keys) :
    ∃ data, ofJson (.object keys) = .ok data ∧ data.Holds entities := by
  have hdotted : ∀ entry ∈ keys, ∃ entity : Entity, entry ∈ entity.dotted := by
    intro entry hentry
    obtain ⟨entity, -, hentity⟩ := List.mem_flatMap.mp (h.perm.mem_iff.mp hentry)
    exact ⟨entity, hentity⟩
  obtain ⟨writes, hstands, hwrites⟩ := exists_sets hdotted
  exact ⟨_, ofJson_of_stands hstands,
    holds_of_sets hnames h (fun name => (hwrites name).1) fun name => (hwrites name).2⟩

/-- Every placeholder resolves alike in two data maps, whatever the policy. -/
def Agrees (data other : DataMap) : Prop := ∀ policy name, data.resolve policy name = other.resolve policy name

/-- The three shapes of a document are interchangeable. Written as results, as records or with dotted keys in any order
    that keeps that of each entity, distinct entities give data maps in which every placeholder resolves alike. -/
theorem resolve_shapes (hnames : (entities.map Entity.name).Nodup)
    (hresults : List.Forall₂ Entity.IsResult entities results) (hkeys : Interleaved entities keys) :
    ∃ ofResults ofRecords ofKeys, ofJson (.object results) = .ok ofResults ∧
      ofJson (.object (entities.map Entity.plain)) = .ok ofRecords ∧ ofJson (.object keys) = .ok ofKeys ∧
      Agrees ofResults ofRecords ∧ Agrees ofKeys ofRecords ∧ ofRecords.Holds entities := by
  obtain ⟨ofResults, hofResults, hheldResults⟩ := holds_results hnames hresults
  obtain ⟨ofRecords, hofRecords, hheld⟩ := holds_records hnames
  obtain ⟨ofKeys, hofKeys, hheldKeys⟩ := holds_keys hnames hkeys
  exact ⟨ofResults, ofRecords, ofKeys, hofResults, hofRecords, hofKeys, fun _ _ => hheldResults.resolve_eq hheld,
    fun _ _ => hheldKeys.resolve_eq hheld, hheld⟩

/-- An order; one of its attributes has a dot in its name. -/
def order : Entity where
  name := "Order"
  entries := [("Total", .integer 1), ("Ship.To", .string "x")]
  name_undotted := by decide
  nodup := by decide
  data_ne_array := by simp [List.lookup_cons]
  data_ne_null := by simp [List.lookup_cons]

/-- A branch whose attributes have the names that results use. -/
def branch : Entity where
  name := "Branch"
  entries := [("value", .object [("ID", .integer 2)]), ("Data", .bool true)]
  name_undotted := by decide
  nodup := by decide
  data_ne_array := by simp [List.lookup_cons]
  data_ne_null := by simp [List.lookup_cons]

/-- The order and the branch as results, with other entries. -/
def mixedResults : List (String × Json) := [
  ("Order", .object [("Total", .integer 2), ("Data", .array [.object [("key", .string "7"),
    ("value", .object order.entries)], .object [("ID", .integer 8)]])]),
  ("Branch", .object [("Data", .array [.object [("value", .object branch.entries)]])])]

/-- The dotted keys of the order and the branch, mixed. -/
def mixedKeys : List (String × Json) := [
  ("Order.Total", .integer 1), ("Branch.value", .object [("ID", .integer 2)]), ("Branch.Data", .bool true),
  ("Order.Ship.To", .string "x")]

theorem resolve_shapes_mixed : ([order, branch].map Entity.name).Nodup ∧
    List.Forall₂ Entity.IsResult [order, branch] mixedResults ∧ Interleaved [order, branch] mixedKeys ∧
    ∃ ofResults ofRecords ofKeys, ofJson (.object mixedResults) = .ok ofResults ∧
      ofJson (.object ([order, branch].map Entity.plain)) = .ok ofRecords ∧
      ofJson (.object mixedKeys) = .ok ofKeys ∧ Agrees ofResults ofRecords ∧ Agrees ofKeys ofRecords ∧
      ofRecords.Holds [order, branch] := by
  have hnames : ([order, branch].map Entity.name).Nodup := by decide
  have hresults : List.Forall₂ Entity.IsResult [order, branch] mixedResults :=
    .cons (@Entity.IsResult.intro order _ _ [[("ID", .integer 8)]] rfl rfl)
      (.cons (@Entity.IsResult.intro branch _ _ [] rfl rfl) .nil)
  have hkeys : Interleaved [order, branch] mixedKeys := by
    refine ⟨.cons _ (@List.perm_append_comm _ [_, _] [_]), ?_⟩
    intro entity hentity
    rcases List.mem_cons.mp hentity with rfl | hentity
    · exact .cons_cons _ (.cons _ (.cons _ (.cons_cons _ .slnil)))
    · obtain rfl := List.mem_singleton.mp hentity
      exact .cons _ (.cons_cons _ (.cons_cons _ (.cons _ .slnil)))
  exact ⟨hnames, hresults, hkeys, resolve_shapes hnames hresults hkeys⟩

end GridFilter.DataMap
