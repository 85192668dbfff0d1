import GridFilter.Table
import Mathlib.Data.List.Induction

/-! Tables under writes: a write is seen under its own name only, and the names stay in the order in which they were
    first mentioned. -/

namespace GridFilter.Table

variable {α β : Type} {table : Table α} {name other : String} {value : α} {writes : List (String × α)}

/-! ### Names in order of first mention -/

theorem eraseDups_concat {names : List String} : (names ++ [name]).eraseDups =
    if name ∈ names.eraseDups then names.eraseDups else names.eraseDups ++ [name] := by
  rw [List.eraseDups_append]
  by_cases h : name ∈ names
  · rw [if_pos (List.mem_eraseDups.mpr h), List.removeAll, List.filter_cons_of_neg (by simpa using h)]
    exact List.append_nil _
  · rw [if_neg (mt List.mem_eraseDups.mp h), List.removeAll, List.filter_cons_of_pos (by simpa using h)]
    rfl

/-! ### One write -/

theorem lookup_insert :
    (table.insert name value).lookup other = if other = name then some value else table.lookup other := by
  induction table with
  | nil =>
    by_cases h : other = name
    · simp [insert, h]
    · simp [insert, List.lookup_cons, h, beq_false_of_ne h]
  | cons entry rest ih =>
    obtain ⟨known, old⟩ := entry
    by_cases hknown : known = name
    · subst hknown
      by_cases h : other = known
      · simp [insert, h]
      · simp [insert, List.lookup_cons, h, beq_false_of_ne h]
    · rw [insert, if_neg hknown, List.lookup_cons, List.lookup_cons, ih]
      by_cases h : other = known
      · simp [h, hknown]
      · rw [beq_false_of_ne h]

theorem names_insert :
    (table.insert name value).names = if name ∈ table.names then table.names else table.names ++ [name] := by
  induction table with
  | nil => rfl
  | cons entry rest ih =>
    obtain ⟨known, old⟩ := entry
    by_cases hknown : known = name
    · simp [insert, names, hknown]
    · have hrest : names ((known, old) :: rest) = known :: names rest := rfl
      have hmem : name ∈ known :: names rest ↔ name ∈ names rest := by simp [Ne.symm hknown]
      rw [insert, if_neg hknown, hrest, if_congr hmem rfl rfl]
      show known :: names (insert rest name value) = _
      rw [ih]
      split
      · rfl
      · rfl

theorem insert_of_not_mem (h : name ∉ table.names) : table.insert name value = table ++ [(name, value)] := by
  induction table with
  | nil => rfl
  | cons entry rest ih =>
    obtain ⟨known, old⟩ := entry
    simp only [names, List.map_cons, List.mem_cons, not_or] at h
    rw [insert, if_neg (Ne.symm h.1), ih h.2, List.cons_append]

/-- The first value of a table is the one under its first name. -/
theorem value_head? : table.head?.map Prod.snd = table.names.head?.bind fun name => table.lookup name := by
  cases table with
  | nil => rfl
  | cons entry rest =>
    obtain ⟨known, old⟩ := entry
    simp [names]

/-! ### Runs of writes -/

/-- A table with some values written to it in order. -/
def insertAll (table : Table α) (writes : List (String × α)) : Table α :=
  writes.foldl (fun table (name, value) => table.insert name value) table

theorem insertAll_concat : table.insertAll (writes ++ [(name, value)]) = (table.insertAll writes).insert name value := by
  simp [insertAll]

/-- Behind a run of writes a name has the value of the last write to it, or the one it had before. -/
theorem lookup_insertAll :
    (table.insertAll writes).lookup name = (writes.reverse.lookup name).or (table.lookup name) := by
  induction writes using List.reverseRecOn with
  | nil => rfl
  | append_singleton writes write ih =>
    obtain ⟨written, value⟩ := write
    rw [insertAll_concat, lookup_insert, ih, List.reverse_concat, List.lookup_cons]
    by_cases h : name = written
    · simp [h]
    · simp [h, beq_false_of_ne h]

theorem head?_names_insertAll :
    (table.insertAll writes).names.head? = (table.names ++ writes.map Prod.fst).head? := by
  induction writes using List.reverseRecOn with
  | nil => rw [List.map_nil, List.append_nil]; rfl
  | append_singleton writes write ih =>
    obtain ⟨name, value⟩ := write
    rw [insertAll_concat, names_insert, List.map_append, ← List.append_assoc, List.head?_append, ← ih]
    split
    · next hmem =>
      obtain ⟨first, others, hnames⟩ := List.exists_cons_of_ne_nil (List.ne_nil_of_mem hmem)
      rw [hnames]
      rfl
    · rw [List.head?_append]
      rfl

theorem insertAll_of_nodup (h : (names (table ++ writes)).Nodup) : table.insertAll writes = table ++ writes := by
  induction writes generalizing table with
  | nil => exact (List.append_nil table).symm
  | cons write rest ih =>
    obtain ⟨name, value⟩ := write
    have hfresh : name ∉ table.names := by
      intro hmem
      rw [names, List.map_append] at h
      exact (List.nodup_append.mp h).2.2 name hmem name (by simp) rfl
    have hstep : table.insertAll ((name, value) :: rest) = insertAll (table ++ [(name, value)]) rest := by
      rw [← insert_of_not_mem hfresh]
      rfl
    rw [hstep, ih (by simpa using h), List.append_assoc]
    rfl

end GridFilter.Table
