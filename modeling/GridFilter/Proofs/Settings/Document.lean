import GridFilter.Proofs.Number.Digits
import GridFilter.Settings.Document

/-! Settings that a file spells in full. Where a format reads back what it writes of tables and of single values, it
    reads back all settings, whatever they are. -/

namespace GridFilter.Settings

/-- The layer that spells every key. -/
def spelledOut (settings : Settings) : Layer where
  shortCircuit := some settings.shortCircuit
  expandIn := some settings.expandIn
  missingAttribute := some settings.missingAttribute
  maxDepth := some settings.maxDepth
  pretty := some settings.pretty
  verbosity := some settings.verbosity

theorem ofLayers_spelledOut (settings : Settings) : ofLayers [settings.spelledOut] = settings := rfl

/-! ### Plain sections -/

/-- The characters of the words in a settings file. -/
def isWordChar (c : Char) : Bool := c.isAlphanum || c == '_' || c == '-'

/-- A word, which needs no escapes. It starts with a letter or a digit. -/
structure IsWord (text : String) : Prop where
  head : text.toList.head?.any Char.isAlphanum = true
  chars : ∀ c ∈ text.toList, isWordChar c = true

instance (text : String) : Decidable (IsWord text) :=
  decidable_of_iff (text.toList.head?.any Char.isAlphanum = true ∧ text.toList.all isWordChar = true)
    ⟨fun h => ⟨h.1, List.all_eq_true.mp h.2⟩, fun h => ⟨h.head, List.all_eq_true.mpr h.chars⟩⟩

/-- A name is a word that is not too long for a key. -/
structure IsName (text : String) : Prop extends IsWord text where
  short : text.toList.length ≤ 1024

instance (text : String) : Decidable (IsName text) :=
  decidable_of_iff (IsWord text ∧ text.toList.length ≤ 1024) ⟨fun h => ⟨h.1, h.2⟩, fun h => ⟨h.toIsWord, h.short⟩⟩

theorem IsWord.exists_cons {text : String} (h : IsWord text) :
    ∃ c rest, text.toList = c :: rest ∧ c.isAlphanum = true := by
  obtain ⟨c, hc, halnum⟩ := (Option.any_eq_true _ _).mp h.head
  obtain ⟨rest, hrest⟩ := List.head?_eq_some_iff.mp hc
  exact ⟨c, rest, hrest, halnum⟩

theorem toNat_of_isWordChar {c : Char} (h : isWordChar c = true) : (48 ≤ c.toNat ∧ c.toNat ≤ 57) ∨
    (65 ≤ c.toNat ∧ c.toNat ≤ 90) ∨ (97 ≤ c.toNat ∧ c.toNat ≤ 122) ∨ c.toNat = 95 ∨ c.toNat = 45 := by
  rw [isWordChar, Char.isAlphanum] at h
  delta Char.isAlpha Char.isUpper Char.isLower Char.isDigit at h
  simp [UInt32.le_iff_toNat_le, ← Char.toNat_inj] at h
  omega

theorem ne_of_holds {p : Char → Bool} {c d : Char} (h : p c = true) (hd : p d = false) : c ≠ d := by
  rintro rfl
  rw [h] at hd
  cases hd

theorem isWordChar_of_isDigit {c : Char} (h : c.isDigit = true) : isWordChar c = true := by
  simp [isWordChar, Char.isAlphanum, h]

/-- Numbers are words. -/
theorem isWord_natural (n : Nat) : IsWord (toString n) := by
  have htext : (toString n).toList = Nat.toDigits 10 n := Nat.toList_repr
  have hdigits := @Decimal.isDigit_of_toDigits n
  have hne : Nat.toDigits 10 n ≠ [] := Nat.toDigits_ne_nil
  refine ⟨?_, fun c hc => isWordChar_of_isDigit (hdigits c (htext ▸ hc))⟩
  obtain ⟨c, rest, hchars⟩ := List.exists_cons_of_ne_nil hne
  have hc : c.isDigit = true := hdigits c (by simp [hchars])
  simp [hchars, Char.isAlphanum, hc]

/-- Truth values are words. -/
theorem isWord_flag (b : Bool) : IsWord (if b then "true" else "false") := by
  cases b <;> decide

/-- The text of a scalar is a word. -/
def Scalar.IsPlain : Scalar → Prop
  | .word s => IsWord s
  | _ => True

/-- Entries of a section with words for values, each under a name of its own. -/
structure Scalar.ArePlain (entries : Table Scalar) : Prop where
  nonempty : entries ≠ []
  distinct : entries.names.Nodup
  keys : ∀ entry ∈ entries, IsName entry.1
  values : ∀ entry ∈ entries, entry.2.IsPlain

/-- Sections with plain entries, each under a name of its own. -/
structure ArePlain (sections : Table (Table Scalar)) : Prop where
  distinct : sections.names.Nodup
  names : ∀ entry ∈ sections, IsName entry.1
  entries : ∀ entry ∈ sections, Scalar.ArePlain entry.2

theorem isWord_name (policy : MissingAttribute) : IsWord policy.name := by
  cases policy <;> decide

theorem arePlain_sections (settings : Settings) : ArePlain (sections settings) := by
  have hconversion : Scalar.ArePlain [("short_circuit", .flag settings.shortCircuit), ("expand_in", .flag settings.expandIn),
      ("missing_attribute", .word settings.missingAttribute.name)] :=
    ⟨by simp, (by decide : ["short_circuit", "expand_in", "missing_attribute"].Nodup),
      by simp; decide, by simp [Scalar.IsPlain, isWord_name]⟩
  have hsingle {key : String} {scalar : Scalar} (hkey : IsName key) (hscalar : scalar.IsPlain) :
      Scalar.ArePlain [(key, scalar)] := ⟨by simp, by simp [Table.names], by simpa using hkey, by simpa using hscalar⟩
  refine ⟨(by decide : layout.names.Nodup), ?_, ?_⟩
  · simp only [sections, List.forall_mem_cons]
    decide
  · simp only [sections, List.forall_mem_cons]
    exact ⟨hconversion, hsingle (by decide) trivial, hsingle (by decide) trivial, hsingle (by decide) trivial, by simp⟩

namespace Format
variable {α : Type} {format : Format α} {value : Scalar → α} {table : Table α → α} {settings : Settings}

/-- Tables of tables of values. -/
def rootOf (value : Scalar → α) (table : Table α → α) (sections : Table (Table Scalar)) : α :=
  table (sections.mapValues fun entries => table (entries.mapValues value))

/-- A format reads tables and values back as they were written. -/
structure Undoes (format : Format α) (value : Scalar → α) (table : Table α → α) : Prop where
  sections (names : List String) (sections : Table (Table Scalar)) : format.entries? names (rootOf value table sections) =
    some (sections.mapValues fun entries => table (entries.mapValues value))
  entries (names : List String) (entries : Table Scalar) :
    format.entries? names (table (entries.mapValues value)) = some (entries.mapValues value)
  flag (b : Bool) : format.isPresent? (value (.flag b)) = some true ∧ format.flag? (value (.flag b)) = some b
  natural (n : Nat) : format.isPresent? (value (.natural n)) = some true ∧ format.natural? (value (.natural n)) = some n
  policy (policy : MissingAttribute) : format.isPresent? (value (.word policy.name)) = some true ∧
    format.choice? (value (.word policy.name)) = some policy.name

theorem known?_eq {names : List String} {root : α} {entries : Table α} (hentries : format.entries? names root = some entries)
    (hnames : Table.names entries = names) (hnodup : names.Nodup) : format.known? names root = some entries := by
  have hknown : ∀ entry ∈ entries, names.contains entry.1 = true := fun entry hentry => by
    rw [List.contains_iff_mem, ← hnames]
    exact List.mem_map_of_mem hentry
  have hothers : ∀ entry ∈ entries, ¬ (!names.contains entry.1) = true := fun entry hentry => by
    rw [hknown entry hentry]
    decide
  rw [known?, hentries, Option.bind_eq_bind, Option.bind_some, List.partition_eq_filter_filter]
  simp only [List.filter_eq_self.mpr hknown, Function.comp_def, List.filter_eq_nil_iff.mpr hothers, hnames, hnodup,
    List.all_nil, and_self, if_true]

theorem get?_mapValues {β γ : Type} (f : β → γ) (entries : Table β) (name : String) :
    (entries.mapValues f).get? name = (entries.get? name).map f := by
  induction entries with
  | nil => rfl
  | cons entry rest ih =>
    obtain ⟨known, old⟩ := entry
    rw [Table.mapValues, List.map_cons, Table.get?, Table.get?, List.lookup_cons, List.lookup_cons]
    cases name == known
    · exact ih
    · rfl

theorem names_mapValues {β γ : Type} (f : β → γ) (entries : Table β) :
    Table.names (entries.mapValues f) = Table.names entries := by
  rw [Table.names, Table.mapValues, List.map_map, Table.names]
  rfl

theorem layout_eq (settings : Settings) : layout = (sections settings).mapValues Table.names := rfl

/-- The entries of a section of a file are those that were written. -/
theorem section?_rootOf (h : format.Undoes value table) {name : String} {entries : Table Scalar}
    (hsection : (sections settings).get? name = some entries) :
    format.section? ((sections settings).mapValues fun entries => table (entries.mapValues value)) name =
      some (entries.mapValues value) := by
  have hmem : (name, entries) ∈ sections settings := by
    obtain ⟨before, behind, heq, -⟩ := List.lookup_eq_some_iff.mp hsection
    simp [heq]
  have hplain := (arePlain_sections settings).entries (name, entries) hmem
  rw [section?, get?_mapValues, hsection, layout_eq settings, get?_mapValues, hsection]
  exact known?_eq (h.entries _ entries) (names_mapValues value entries) hplain.distinct

theorem key?_mapValues {β : Type} {read : α → Option β} {entries : Table Scalar} {name : String} {scalar : Scalar} {b : β}
    (hentry : entries.get? name = some scalar) (hpresent : format.isPresent? (value scalar) = some true)
    (hread : read (value scalar) = some b) : format.key? (entries.mapValues value) name read = some (some b) := by
  rw [key?, get?_mapValues, hentry, Option.map_some]
  simp only [hpresent, hread, Option.bind_eq_bind, Option.bind_some, if_true]
  rfl

theorem ofName?_name (policy : MissingAttribute) : MissingAttribute.ofName? policy.name = some policy := by
  cases policy <;> rfl

/-- All settings are read back where numbers stay below their bounds. -/
theorem layer?_rootOf (h : format.Undoes value table) (hdepth : settings.maxDepth < UInt64.size)
    (hverbosity : settings.verbosity < 256) :
    format.layer? (rootOf value table (sections settings)) = some settings.spelledOut := by
  have hbelow (bound n : Nat) (hn : n < bound) : format.below? bound (value (.natural n)) = some n := by
    rw [below?, (h.natural n).2, Option.filter_some_pos (by simpa using hn)]
  have hpolicy : (format.choice? (value (.word settings.missingAttribute.name))).bind MissingAttribute.ofName? =
      some settings.missingAttribute := by
    rw [(h.policy _).2, Option.bind_some, ofName?_name]
  have hfile : format.known? layout.names (rootOf value table (sections settings)) =
      some ((sections settings).mapValues fun entries => table (entries.mapValues value)) :=
    known?_eq (h.sections _ _) (names_mapValues _ _) (arePlain_sections settings).distinct
  -- What each section and each key holds is plain from `sections`; the rest is that the reading finds it there.
  have hconversion := @section?_rootOf _ _ _ _ settings h "conversion" _ rfl
  have hparser := @section?_rootOf _ _ _ _ settings h "parser" _ rfl
  have houtput := @section?_rootOf _ _ _ _ settings h "output" _ rfl
  have hdebug := @section?_rootOf _ _ _ _ settings h "debug" _ rfl
  rw [layer?]
  simp only [hfile, hconversion, hparser, houtput, hdebug, Option.bind_eq_bind, Option.bind_some]
  rw [key?_mapValues rfl (h.flag _).1 (h.flag _).2, key?_mapValues rfl (h.flag _).1 (h.flag _).2,
    key?_mapValues rfl (h.policy _).1 hpolicy, key?_mapValues rfl (h.natural _).1 (hbelow _ _ hdepth),
    key?_mapValues rfl (h.flag _).1 (h.flag _).2, key?_mapValues rfl (h.natural _).1 (hbelow _ _ hverbosity)]
  rfl

end Format

end GridFilter.Settings
