import GridFilter.Proofs.DataMap.Shapes

/-! Dotted keys of a document. A dotted key sets an attribute of its entity and leaves the others as they are; a key
    without a dot puts new records in the place of those that its entity had, whatever keys had set in them. -/

namespace GridFilter

theorem Text.eq_of_cut? {separator : Char} {text front behind : List Char}
    (h : Text.cut? separator text = some (front, behind)) :
    text = front ++ separator :: behind ∧ separator ∉ front := by
  induction text generalizing front behind with
  | nil => cases h
  | cons c text ih =>
    rw [cut?] at h
    split at h
    · next hc =>
      cases h
      exact ⟨by rw [hc, List.nil_append], by simp⟩
    · next hc =>
      obtain ⟨⟨front', behind'⟩, hcut, heq⟩ := Option.map_eq_some_iff.mp h
      cases heq
      obtain ⟨rfl, hfront⟩ := ih hcut
      exact ⟨rfl, by simp [Ne.symm hc, hfront]⟩

namespace DataMap

variable {data other : DataMap} {policy : MissingAttribute} {entity property key name : String} {value : Value}
  {json : Json} {entries front behind : List (String × Json)} {write : Write} {writes : List Write}

/-- A name with a dot is divided at the first one. -/
theorem splitName?_eq_some :
    splitName? name = some (entity, property) ↔ name = entity ++ "." ++ property ∧ '.' ∉ entity.toList := by
  constructor
  · intro h
    obtain ⟨⟨before, after⟩, hcut, heq⟩ := Option.map_eq_some_iff.mp h
    cases heq
    obtain ⟨hname, hbefore⟩ := Text.eq_of_cut? hcut
    refine ⟨?_, by rwa [String.toList_ofList]⟩
    rw [← String.toList_inj, hname]
    simp
  · rintro ⟨rfl, h⟩
    exact splitName?_append h

/-! ### What writes keep -/

/-- A data map behind a run of writes. -/
def afterAll (data : DataMap) (writes : List Write) : DataMap := writes.foldl after data

/-- The records of an entity behind a run depend on those that it had before. -/
theorem records_afterAll_congr (h : data.records entity = other.records entity) :
    (data.afterAll writes).records entity = (other.afterAll writes).records entity := by
  induction writes generalizing data other with
  | nil => exact h
  | cons write writes ih =>
    refine ih ?_
    rw [records_after, records_after, h]

/-- Behind a run that inserts records for an entity nothing is left of those that it had before. -/
theorem records_afterAll_of_inserted (h : ∃ write ∈ writes, (write.inserted? entity).isSome = true) :
    (data.afterAll writes).records entity = (other.afterAll writes).records entity := by
  induction writes generalizing data other with
  | nil => simp at h
  | cons write writes ih =>
    obtain ⟨inserting, hmem, hinserted⟩ := h
    rcases List.mem_cons.mp hmem with rfl | hmem
    · obtain ⟨given, hgiven⟩ := Option.isSome_iff_exists.mp hinserted
      refine @records_afterAll_congr (data.after inserting) (other.after inserting) entity writes ?_
      rw [records_after, records_after, hgiven, Option.getD_some, Option.getD_some]
    · exact ih ⟨inserting, hmem, hinserted⟩

/-- A write neither inserts records for an entity nor sets this attribute of it. -/
structure Write.Spares (write : Write) (entity property : String) : Prop where
  inserted : write.inserted? entity = none
  assigned : ∀ value, write.assigned? entity ≠ some (property, value)

theorem lookup_frontRecord_after (h : write.Spares entity property) :
    ((data.after write).frontRecord entity).lookup property = (data.frontRecord entity).lookup property := by
  rw [frontRecord, records_after, h.inserted, Option.getD_none, head?_setAll, Table.lookup_insertAll]
  have hunset : (write.assigned? entity).toList.reverse.lookup property = none := by
    rcases hassigned : write.assigned? entity with - | ⟨known, value⟩
    · rfl
    · have hne : property ≠ known := by
        rintro rfl
        exact h.assigned value hassigned
      simp [List.lookup_cons, beq_false_of_ne hne]
  rw [hunset, Option.none_or]
  rfl

/-- An attribute keeps its value through writes that spare it. -/
theorem lookup_frontRecord_afterAll (h : ∀ write ∈ writes, write.Spares entity property) :
    ((data.afterAll writes).frontRecord entity).lookup property = (data.frontRecord entity).lookup property := by
  induction writes generalizing data with
  | nil => rfl
  | cons write writes ih =>
    obtain ⟨hwrite, hwrites⟩ := List.forall_mem_cons.mp h
    exact (ih hwrites).trans (lookup_frontRecord_after hwrite)

theorem lookup_frontRecord_set :
    ((data.set entity property value).frontRecord entity).lookup property = some value := by
  rw [frontRecord, records, entity?_set, if_pos rfl, Option.getD_some, head?_setFirst, Option.getD_some,
    Table.lookup_insert, if_pos rfl]

/-! ### What the entries of a document write -/

/-- An entry writes one attribute if its key has a dot, and all records of an entity if it has none. -/
theorem Stands.cases (h : Stands (key, json) write) :
    (∃ entity property, splitName? key = some (entity, property) ∧ write = .set entity property (.ofJson json)) ∨
      splitName? key = none ∧ ∃ given, entityRecords key json = .ok given ∧ write = .insert key given := by
  unfold Stands entryWrite at h
  rcases hsplit : splitName? key with - | ⟨entity, property⟩
  · rcases hrecords : entityRecords key json with e | given
    · rw [hsplit, hrecords] at h
      cases h
    · rw [hsplit, hrecords] at h
      cases h
      exact .inr ⟨rfl, given, rfl, rfl⟩
  · rw [hsplit] at h
    cases h
    exact .inl ⟨entity, property, rfl, rfl⟩

/-- An entry inserts records for the entity that its key names. -/
theorem Stands.inserted_iff (h : Stands (key, json) write) (hentity : '.' ∉ entity.toList) :
    (write.inserted? entity).isSome = true ↔ key = entity := by
  rcases h.cases with ⟨known, property, hsplit, rfl⟩ | ⟨-, given, -, rfl⟩
  · have hkey : key ≠ entity := by
      rintro rfl
      rw [splitName?_of_not_mem hentity] at hsplit
      cases hsplit
    simp [Write.inserted?, hkey]
  · by_cases hkey : key = entity <;> simp [Write.inserted?, hkey]

theorem Stands.key_eq (h : Stands (key, json) write) (hassigned : write.assigned? entity = some (property, value)) :
    key = entity ++ "." ++ property := by
  rcases h.cases with ⟨known, other, hsplit, rfl⟩ | ⟨-, given, -, rfl⟩
  · simp only [Write.assigned?] at hassigned
    split at hassigned
    · next hknown =>
      cases hassigned
      rw [hknown] at hsplit
      exact (splitName?_eq_some.mp hsplit).1
    · cases hassigned
  · cases hassigned

theorem exists_stands_of_addEntry (h : data.addEntry key json = .ok other) :
    ∃ write, Stands (key, json) write ∧ other = data.after write := by
  rw [addEntry_eq] at h
  rcases hwrite : entryWrite key json with e | write
  · rw [hwrite] at h
    cases h
  · rw [hwrite] at h
    exact ⟨write, hwrite, (Except.ok.inj h).symm⟩

/-- A document that is loaded has been taken apart at any place of it. -/
theorem addEntries_append_eq_ok : data.addEntries (front ++ behind) = .ok other ↔
    ∃ middle, data.addEntries front = .ok middle ∧ middle.addEntries behind = .ok other := by
  induction front generalizing data with
  | nil => simp [addEntries]
  | cons entry front ih =>
    obtain ⟨key, json⟩ := entry
    rw [List.cons_append, addEntries, addEntries]
    rcases data.addEntry key json with e | next
    · simp [bind, Except.bind]
    · exact ih

/-- The entries that are loaded stand for writes. -/
theorem exists_stands (h : data.addEntries entries = .ok other) :
    ∃ writes, List.Forall₂ Stands entries writes ∧ other = data.afterAll writes := by
  induction entries generalizing data with
  | nil =>
    cases h
    exact ⟨[], .nil, rfl⟩
  | cons entry entries ih =>
    obtain ⟨key, json⟩ := entry
    rw [addEntries] at h
    rcases hadded : data.addEntry key json with e | next
    · rw [hadded] at h
      cases h
    · rw [hadded] at h
      obtain ⟨write, hwrite, rfl⟩ := exists_stands_of_addEntry hadded
      obtain ⟨writes, hwrites, rfl⟩ := ih h
      exact ⟨write :: writes, .cons hwrite hwrites, rfl⟩

/-- Entries none of which has the dotted key, or the name of its entity for a key, spare the attribute. -/
theorem spares_of_stands (h : List.Forall₂ Stands entries writes) (hentity : '.' ∉ entity.toList)
    (habsent : entity ∉ Table.names entries) (hkey : entity ++ "." ++ property ∉ Table.names entries) :
    ∀ write ∈ writes, write.Spares entity property := by
  induction h with
  | nil => simp
  | @cons entry write entries writes hwrite _ ih =>
    simp only [Table.names, List.map_cons, List.mem_cons, not_or] at habsent hkey ih
    refine List.forall_mem_cons.mpr ⟨⟨?_, fun value hassigned => ?_⟩, ih habsent.2 hkey.2⟩
    · rw [← Option.not_isSome_iff_eq_none, Stands.inserted_iff hwrite hentity]
      exact Ne.symm habsent.1
    · exact hkey.1 (Stands.key_eq hwrite hassigned).symm

theorem exists_inserted_of_stands (h : List.Forall₂ Stands entries writes) (hentity : '.' ∉ entity.toList)
    (hpresent : entity ∈ Table.names entries) : ∃ write ∈ writes, (write.inserted? entity).isSome = true := by
  induction h with
  | nil => simp [Table.names] at hpresent
  | @cons entry write entries writes hwrite _ ih =>
    rcases List.mem_cons.mp hpresent with hfirst | hrest
    · exact ⟨write, List.mem_cons_self, (Stands.inserted_iff hwrite hentity).mpr hfirst.symm⟩
    · obtain ⟨inserting, hmem, hinserted⟩ := ih hrest
      exact ⟨inserting, List.mem_cons_of_mem _ hmem, hinserted⟩

/-! ### Dotted keys -/

/-- What a dotted key of a document comes to. If its entity has no key of its own behind it, the dotted key resolves to
    its value, under either policy and whatever the other keys are. If it has one, the document is the same without the
    dotted key: it is loaded all the same, and every placeholder resolves alike. -/
theorem resolve_dottedKey (hentity : '.' ∉ entity.toList)
    (hnames : (Table.names (front ++ (entity ++ "." ++ property, json) :: behind)).Nodup)
    (hloaded : ofJson (.object (front ++ (entity ++ "." ++ property, json) :: behind)) = .ok data) :
    (entity ∉ Table.names behind → ∀ policy, data.resolve policy (entity ++ "." ++ property) = some (.ofJson json)) ∧
      (entity ∈ Table.names behind →
        ∃ other, ofJson (.object (front ++ behind)) = .ok other ∧ Agrees data other) := by
  have hsplit := @splitName?_append entity property hentity
  obtain ⟨middle, hmiddle, hrest⟩ := addEntries_append_eq_ok.mp hloaded
  rw [addEntries, addEntry, hsplit] at hrest
  obtain ⟨writes, hstands, rfl⟩ := exists_stands hrest
  refine ⟨fun habsent policy => ?_, fun hpresent => ?_⟩
  · have hkey : entity ++ "." ++ property ∉ Table.names behind := by
      rw [Table.names, List.map_append, List.map_cons] at hnames
      exact (List.nodup_cons.mp (List.nodup_append.mp hnames).2.1).1
    rw [resolve_of_split hsplit, lookup_frontRecord_afterAll (spares_of_stands hstands hentity habsent hkey),
      lookup_frontRecord_set, Option.some_or]
  · refine ⟨middle.afterAll writes, ?_, fun policy name => resolve_congr fun name => ?_⟩
    · exact addEntries_append_eq_ok.mpr ⟨middle, hmiddle, addEntries_of_stands hstands⟩
    · rw [frontRecord, frontRecord]
      by_cases hname : name = entity
      · subst hname
        rw [records_afterAll_of_inserted (exists_inserted_of_stands hstands hentity hpresent)]
      · have hset : (middle.set entity property (.ofJson json)).records name = middle.records name := by
          rw [records, entity?_set, if_neg hname, records]
        rw [records_afterAll_congr hset]

/-- An order with a dotted key behind its own, and a branch with one in front of it. -/
def mixedDocument : List (String × Json) := [
  ("Order", .object [("Status", .string "new")]), ("Order.Total", .integer 1), ("Branch.ID", .integer 3),
  ("Branch", .object [("Name", .string "North")])]

/-- The data map of that document: the branch has lost its number. -/
def mixedData : DataMap :=
  ⟨[("Order", [[("Status", .string "new"), ("Total", .int 1)]]), ("Branch", [[("Name", .string "North")]])]⟩

theorem resolve_dottedKey_mixed : '.' ∉ "Order".toList ∧ '.' ∉ "Branch".toList ∧ (Table.names mixedDocument).Nodup ∧
    ofJson (.object mixedDocument) = .ok mixedData ∧
    ("Order" ∉ Table.names (mixedDocument.drop 2) ∧ ∀ policy, mixedData.resolve policy "Order.Total" = some (.int 1)) ∧
    "Branch" ∈ Table.names (mixedDocument.drop 3) ∧
      ∃ other, ofJson (.object (mixedDocument.eraseIdx 2)) = .ok other ∧ Agrees mixedData other := by
  have hnames : (Table.names mixedDocument).Nodup := by decide
  have hloaded : ofJson (.object mixedDocument) = .ok mixedData := by rfl
  have habsent : "Order" ∉ Table.names (mixedDocument.drop 2) := by decide
  have hpresent : "Branch" ∈ Table.names (mixedDocument.drop 3) := by decide
  have horder := @resolve_dottedKey _ "Order" "Total" _ (mixedDocument.take 1) _ (by decide) hnames hloaded
  have hbranch := @resolve_dottedKey _ "Branch" "ID" _ (mixedDocument.take 2) _ (by decide) hnames hloaded
  exact ⟨by decide, by decide, hnames, hloaded, ⟨habsent, horder.1 habsent⟩, hpresent, hbranch.2 hpresent⟩

/-- The branch has the number 3 in the document, and its placeholder is given the name of the branch instead, or no
    value. -/
theorem resolve_dottedKey_lost : (Table.names mixedDocument).Nodup ∧ ("Branch.ID", .integer 3) ∈ mixedDocument ∧
    ofJson (.object mixedDocument) = .ok mixedData ∧
    mixedData.resolve .firstProperty "Branch.ID" = some (.string "North") ∧
    mixedData.resolve .unresolved "Branch.ID" = none := by
  refine ⟨by decide, by simp [mixedDocument], by rfl, by rfl, by rfl⟩

end DataMap
end GridFilter
