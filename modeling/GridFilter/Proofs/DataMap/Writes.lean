import GridFilter.Proofs.Table
import GridFilter.Resolution

/-! Data maps under runs of writes. The records of an entity are those inserted last, with the attributes set since
    then written to the first of them; what a placeholder resolves to is read off that. -/

namespace GridFilter

/-! ### Names -/

theorem Text.cut?_append {separator : Char} {front behind : List Char} (h : separator ∉ front) :
    Text.cut? separator (front ++ separator :: behind) = some (front, behind) := by
  induction front with
  | nil => simp [cut?]
  | cons c front ih =>
    rw [List.mem_cons, not_or] at h
    rw [List.cons_append, cut?, if_neg (Ne.symm h.1), ih h.2]
    rfl

theorem Text.cut?_of_not_mem {separator : Char} {text : List Char} (h : separator ∉ text) :
    Text.cut? separator text = none := by
  induction text with
  | nil => rfl
  | cons c text ih =>
    rw [List.mem_cons, not_or] at h
    rw [cut?, if_neg (Ne.symm h.1), ih h.2]
    rfl

namespace DataMap

/-! ### Runs -/

/-- A write to a data map. -/
inductive Write where
  | set (entity property : String) (value : Value)
  | insert (entity : String) (records : List Record)

namespace Write

/-- The entity that a write is about. -/
def entity : Write → String
  | .set entity _ _ | .insert entity _ => entity

/-- The records that a write inserts for an entity. -/
def inserted? (entity : String) : Write → Option (List Record)
  | .set _ _ _ => none
  | .insert known records => if known = entity then some records else none

/-- The attribute of an entity that a write sets, with its value. -/
def assigned? (entity : String) : Write → Option (String × Value)
  | .set known property value => if known = entity then some (property, value) else none
  | .insert _ _ => none

end Write

/-- A data map behind a write. -/
def after (data : DataMap) : Write → DataMap
  | .set entity property value => data.set entity property value
  | .insert entity records => data.insert entity records

/-- The data map that writes give in order. -/
def ofWrites (writes : List Write) : DataMap := writes.foldl after empty

/-- The records that were inserted last for an entity. -/
def lastInserted (writes : List Write) (entity : String) : List Record :=
  (writes.reverse.findSome? (Write.inserted? entity)).getD []

/-- The attributes of an entity that were set since its records were inserted last, in order. -/
def setsSince (writes : List Write) (entity : String) : List (String × Value) :=
  (writes.reverse.takeWhile fun write => (write.inserted? entity).isNone).reverse.filterMap (Write.assigned? entity)

/-- The first of the records that were inserted last for an entity, empty where there is none. -/
def baseRecord (writes : List Write) (entity : String) : Record := (lastInserted writes entity).head?.getD []

/-- The last value that was given to an attribute: that of the last set, or else the one it was inserted with. -/
def lastValue? (writes : List Write) (entity property : String) : Option Value :=
  ((setsSince writes entity).reverse.lookup property).or ((baseRecord writes entity).lookup property)

/-- The attribute of an entity that came first: of those inserted, or else of those set. -/
def firstAttribute? (writes : List Write) (entity : String) : Option String :=
  ((baseRecord writes entity).names ++ (setsSince writes entity).map Prod.fst).head?

variable {data : DataMap} {policy : MissingAttribute} {name entity other property : String} {value : Value}
  {given : List Record} {sets : List (String × Value)} {writes more : List Write} {write : Write}

/-! ### Records -/

/-- The records of an entity, none for one that is not known. -/
def records (data : DataMap) (entity : String) : List Record := (data.entity? entity).getD []

/-- The record that answers for an entity, empty where there is none. -/
def frontRecord (data : DataMap) (entity : String) : Record := (data.records entity).head?.getD []

theorem record?_eq_head? : data.record? entity = (data.records entity).head? := by
  unfold record? records
  cases data.entity? entity <;> rfl

theorem entity?_insert : (data.insert entity given).entity? other =
    if other = entity then some given else data.entity? other := Table.lookup_insert

theorem entity?_set : (data.set entity property value).entity? other =
    if other = entity then some (setFirst property value (data.records entity)) else data.entity? other :=
  Table.lookup_insert

/-- Records in whose first one some attributes have been set in order. -/
def setAll (sets : List (String × Value)) (given : List Record) : List Record :=
  sets.foldl (fun records (property, value) => setFirst property value records) given

theorem setAll_concat : setAll (sets ++ [(property, value)]) given = setFirst property value (setAll sets given) := by
  simp [setAll]

theorem tail_setFirst : (setFirst property value given).tail = given.tail := by cases given <;> rfl

theorem head?_setFirst :
    (setFirst property value given).head? = some ((given.head?.getD []).insert property value) := by
  cases given <;> rfl

theorem tail_setAll : (setAll sets given).tail = given.tail := by
  induction sets using List.reverseRecOn with
  | nil => rfl
  | append_singleton sets last ih =>
    obtain ⟨property, value⟩ := last
    rw [setAll_concat, tail_setFirst, ih]

/-- The first record behind a run of sets is the one before it with the attributes written to it. -/
theorem head?_setAll : (setAll sets given).head?.getD [] = (given.head?.getD []).insertAll sets := by
  induction sets using List.reverseRecOn with
  | nil => rfl
  | append_singleton sets last ih =>
    obtain ⟨property, value⟩ := last
    rw [setAll_concat, head?_setFirst, Option.getD_some, ih, Table.insertAll_concat]

/-! ### What a write leaves -/

theorem Write.inserted?_of_ne (h : write.entity ≠ other) : write.inserted? other = none := by
  cases write with
  | set => rfl
  | insert known given => exact if_neg h

theorem Write.assigned?_of_ne (h : write.entity ≠ other) : write.assigned? other = none := by
  cases write with
  | set known property value => exact if_neg h
  | insert => rfl

theorem entity?_after_of_ne (h : write.entity ≠ entity) : (data.after write).entity? entity = data.entity? entity := by
  cases write with
  | set known property value => exact entity?_set.trans (if_neg (Ne.symm h))
  | insert known given => exact entity?_insert.trans (if_neg (Ne.symm h))

theorem names_after : (data.after write).entities.names =
    if write.entity ∈ data.entities.names then data.entities.names else data.entities.names ++ [write.entity] := by
  cases write <;> exact Table.names_insert

/-- A write inserts records for an entity, or it sets an attribute in those that are there. -/
theorem records_after : (data.after write).records entity =
    ((write.inserted? entity).getD (setAll (write.assigned? entity).toList (data.records entity))) := by
  by_cases hentity : write.entity = entity
  · subst hentity
    cases write with
    | set known property value =>
      have hset : (data.set known property value).entity? known = some (setFirst property value (data.records known)) :=
        entity?_set.trans (if_pos rfl)
      simp [records, after, hset, Write.entity, Write.inserted?, Write.assigned?, setAll]
    | insert known given =>
      have hinsert : (data.insert known given).entity? known = some given := entity?_insert.trans (if_pos rfl)
      simp [records, after, hinsert, Write.entity, Write.inserted?]
  · rw [Write.inserted?_of_ne hentity, Write.assigned?_of_ne hentity, records, entity?_after_of_ne hentity]
    rfl

/-! ### What a run leaves -/

theorem ofWrites_concat : ofWrites (writes ++ [write]) = (ofWrites writes).after write := by simp [ofWrites]

theorem lastInserted_concat :
    lastInserted (writes ++ [write]) entity = (write.inserted? entity).getD (lastInserted writes entity) := by
  rw [lastInserted, List.reverse_concat, List.findSome?_cons]
  rcases write.inserted? entity with - | given <;> rfl

theorem setsSince_concat : setsSince (writes ++ [write]) entity =
    if (write.inserted? entity).isSome then [] else setsSince writes entity ++ (write.assigned? entity).toList := by
  rw [setsSince, List.reverse_concat, List.takeWhile_cons]
  rcases hwrite : write.inserted? entity with - | given
  · rcases hassigned : write.assigned? entity with - | assigned <;> simp [setsSince, hassigned]
  · rfl

/-- The records of an entity behind a run: those inserted last, with what was set since then. -/
theorem records_ofWrites :
    (ofWrites writes).records entity = setAll (setsSince writes entity) (lastInserted writes entity) := by
  induction writes using List.reverseRecOn with
  | nil => rfl
  | append_singleton writes write ih =>
    rw [ofWrites_concat, records_after, lastInserted_concat, setsSince_concat, ih]
    rcases write.inserted? entity with - | given
    · simp [setAll]
    · rfl

theorem entity?_ofWrites_append (h : ∀ write ∈ more, write.entity ≠ entity) :
    (ofWrites (writes ++ more)).entity? entity = (ofWrites writes).entity? entity := by
  induction more using List.reverseRecOn with
  | nil => rw [List.append_nil]
  | append_singleton more write ih =>
    rw [← List.append_assoc, ofWrites_concat, entity?_after_of_ne (h write (by simp)),
      ih fun write hwrite => h write (List.mem_append_left _ hwrite)]

/-- The entities stand in the order in which they were first mentioned, each once. -/
theorem names_ofWrites : (ofWrites writes).entities.names = (writes.map Write.entity).eraseDups := by
  induction writes using List.reverseRecOn with
  | nil => rfl
  | append_singleton writes write ih =>
    rw [ofWrites_concat, names_after, ih, List.map_append, List.map_singleton, Table.eraseDups_concat]

/-! ### What a placeholder resolves to -/

theorem splitName?_append (h : '.' ∉ entity.toList) :
    splitName? (entity ++ "." ++ property) = some (entity, property) := by
  have hchars : (entity ++ "." ++ property).toList = entity.toList ++ '.' :: property.toList := by simp
  rw [splitName?, hchars, Text.cut?_append h]
  simp

theorem splitName?_of_not_mem (h : '.' ∉ entity.toList) : splitName? entity = none := by
  rw [splitName?, Text.cut?_of_not_mem h]
  rfl

/-- An empty record answers as none does. -/
theorem resolve_of_split (h : splitName? name = some (entity, property)) : data.resolve policy name =
    ((data.frontRecord entity).lookup property).or (missing policy (data.frontRecord entity)) := by
  simp only [resolve, h, record?_eq_head?, frontRecord]
  rcases (data.records entity).head? with - | record
  · cases policy <;> rfl
  · rw [Option.getD_some]
    rcases hfound : record.lookup property with - | found <;> simp [hfound]

theorem resolve_of_undivided (h : splitName? name = none) :
    data.resolve policy name = missing policy (data.frontRecord name) := by
  simp only [resolve, h, record?_eq_head?, frontRecord]
  rcases (data.records name).head? with - | record
  · cases policy <;> rfl
  · rfl

/-- The record that answers for an entity behind a run. -/
theorem frontRecord_ofWrites :
    (ofWrites writes).frontRecord entity = (baseRecord writes entity).insertAll (setsSince writes entity) := by
  rw [frontRecord, records_ofWrites, head?_setAll]
  rfl

theorem lookup_frontRecord :
    ((ofWrites writes).frontRecord entity).lookup property = lastValue? writes entity property := by
  rw [frontRecord_ofWrites, Table.lookup_insertAll]
  rfl

theorem missing_frontRecord : missing policy ((ofWrites writes).frontRecord entity) =
    match policy with
    | .firstProperty => (firstAttribute? writes entity).bind (lastValue? writes entity)
    | .unresolved => none := by
  cases policy with
  | unresolved => rfl
  | firstProperty =>
    rw [missing, Table.value_head?]
    simp only [lookup_frontRecord]
    rw [frontRecord_ofWrites, Table.head?_names_insertAll]
    rfl

/-- A data map answers with the last write. An attribute resolves to its last value, and one that has none to the last
    value of the attribute that came first, where the policy says so. No set changes a record behind the first, no
    write changes another entity, and the entities stand in the order in which they were first mentioned. -/
theorem resolve_ofWrites (writes : List Write) :
    (∀ entity property policy, '.' ∉ entity.toList → (ofWrites writes).resolve policy (entity ++ "." ++ property) =
      (lastValue? writes entity property).or
        (match policy with
          | .firstProperty => (firstAttribute? writes entity).bind (lastValue? writes entity)
          | .unresolved => none)) ∧
    (∀ entity, ((ofWrites writes).records entity).tail = (lastInserted writes entity).tail) ∧
    (∀ entity more, (∀ write ∈ more, write.entity ≠ entity) →
      (ofWrites (writes ++ more)).entity? entity = (ofWrites writes).entity? entity) ∧
    (ofWrites writes).entities.names = (writes.map Write.entity).eraseDups := by
  refine ⟨fun entity property policy hentity => ?_, fun entity => ?_, fun entity more => entity?_ofWrites_append,
    names_ofWrites⟩
  · rw [resolve_of_split (splitName?_append hentity), lookup_frontRecord, missing_frontRecord]
  · rw [records_ofWrites, tail_setAll]

/-- Writes to two entities, one of which is set up, replaced and changed. -/
def restocking : List Write := [
  .set "Order" "Status" (.string "new"),
  .insert "Order" [[("ID", .int 7), ("Total", .int 1)], [("ID", .int 8)]],
  .set "Order" "Total" (.int 2),
  .set "Branch" "ID" (.int 3),
  .set "Order" "ID" (.int 9)]

theorem resolve_ofWrites_restocking : '.' ∉ "Order".toList ∧
    (ofWrites restocking).resolve .firstProperty ("Order" ++ "." ++ "Status") = some (.int 9) :=
  ⟨by decide, ((resolve_ofWrites restocking).1 "Order" "Status" .firstProperty (by decide)).trans (by rfl)⟩

end DataMap

end GridFilter
