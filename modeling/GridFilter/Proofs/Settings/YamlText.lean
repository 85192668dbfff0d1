import GridFilter.Proofs.Number.Digits
import GridFilter.Proofs.Yaml.Lexing
import GridFilter.Proofs.Yaml.Reading
import GridFilter.Settings.Yaml
import Mathlib.Data.List.Basic

/-! Settings written as YAML. Each line of the text gives its tokens, the indentation opens and closes the blocks, and
    the tokens are those of the maps that were written. -/

namespace GridFilter.Settings.Yaml
open GridFilter.Yaml Lexer TokenReader

variable {cursor : Cursor} {text : List Char} {front : List Yaml.Token} {blocks : List Nat} {entry : String × Scalar}

/-! ### Lines -/

/-- The line of an entry behind its indentation. -/
def lineOf (entry : String × Scalar) : List Char :=
  entry.1.toList ++ ':' :: ' ' :: ((scalarText entry.2).toList ++ ['\n'])

/-- The lines of a section. -/
def linesOf (entry : String × Table Scalar) : List Char :=
  entry.1.toList ++ ':' :: '\n' :: entry.2.flatMap fun entry => ' ' :: ' ' :: lineOf entry

/-- The tokens of an entry. -/
def tokensOf (entry : String × Scalar) : List Yaml.Token :=
  [.key, .scalar .plain entry.1, .value, .scalar .plain (scalarText entry.2)]

/-- The tokens of a section. -/
def blockOf (entry : String × Table Scalar) : List Yaml.Token :=
  .key :: .scalar .plain entry.1 :: .value :: .entriesStart :: (entry.2.flatMap tokensOf ++ [.blockEnd])

theorem scalarText_natural (n : Nat) : (scalarText (.natural n)).toList = Nat.toDigits 10 n := Nat.toList_repr

theorem isWord_scalarText {value : Scalar} (h : value.IsPlain) : IsWord (scalarText value) := by
  cases value with
  | flag b => exact isWord_flag b
  | natural n => exact isWord_natural n
  | word s => exact h

/-- The line of an entry, and the indentation of the next one. -/
theorem runs_line {count : Nat} (hkey : IsName entry.1) (hvalue : entry.2.IsPlain)
    (hrest : cursor.rest = lineOf entry ++ (List.replicate count ' ' ++ text)) (htext : IsSolid text)
    (hwithin : ∀ block ∈ blocks.head?, block ≤ cursor.column) (hend : count ≤ cursor.column) :
    ∃ next, next.rest = text ∧ next.column = count ∧ Runs (outside cursor front blocks true)
      (outside next (front ++ (opened cursor.column blocks).1 ++ tokensOf entry) (opened cursor.column blocks).2 true) := by
  have hline : cursor.rest = entry.1.toList ++ ':' :: (' ' :: ((scalarText entry.2).toList ++
      '\n' :: (List.replicate count ' ' ++ text))) := by
    simp [hrest, lineOf]
  obtain ⟨middle, hmiddle, hcolumn, hfirst⟩ := @Lexer.Runs.key _ _ _ front blocks hkey hline (by rfl) hwithin
  obtain ⟨next, hnext, hcount, hsecond⟩ := @Lexer.Runs.value middle text _
    (front ++ (opened cursor.column blocks).1 ++ [.key, .scalar .plain entry.1, .value]) (opened cursor.column blocks).2
    count (isWord_scalarText hvalue) hmiddle htext
    (opened_within (Nat.le_succ_of_le hcolumn)) (.inr ⟨_, head?_opened .., hend⟩)
  refine ⟨next, hnext, hcount, hfirst.trans ?_⟩
  simpa [tokensOf] using hsecond

/-- The lines of a block, up to a text that starts no line of it. -/
theorem runs_lines {first : String × Scalar} {others : Table Scalar} (hkeys : ∀ entry ∈ first :: others, IsName entry.1)
    (hvalues : ∀ entry ∈ first :: others, entry.2.IsPlain)
    (hrest : cursor.rest = lineOf first ++ ((others.flatMap fun entry => ' ' :: ' ' :: lineOf entry) ++ text))
    (htext : IsSolid text) (hcolumn : cursor.column = 2) (hwithin : ∀ block ∈ blocks.head?, block ≤ 2) :
    ∃ next, next.rest = text ∧ next.column = 0 ∧ Runs (outside cursor front blocks true)
      (outside next (front ++ (opened 2 blocks).1 ++ (first :: others).flatMap tokensOf) (opened 2 blocks).2 true) := by
  induction others generalizing first cursor front blocks with
  | nil =>
    obtain ⟨hkey, -⟩ := List.forall_mem_cons.mp hkeys
    obtain ⟨hvalue, -⟩ := List.forall_mem_cons.mp hvalues
    have hline := @runs_line cursor text front blocks first 0 hkey hvalue hrest htext (hcolumn ▸ hwithin) (Nat.zero_le _)
    simpa [hcolumn] using hline
  | cons second others ih =>
    obtain ⟨hkey, hkeys⟩ := List.forall_mem_cons.mp hkeys
    obtain ⟨hvalue, hvalues⟩ := List.forall_mem_cons.mp hvalues
    have hsolid : IsSolid (lineOf second ++ ((others.flatMap fun entry => ' ' :: ' ' :: lineOf entry) ++ text)) := by
      rw [lineOf, List.append_assoc]
      exact isSolid_word (hkeys second (List.mem_cons_self ..)).toIsWord _
    obtain ⟨middle, hmiddle, htwo, hfirst⟩ := @runs_line cursor _ front blocks first 2 hkey hvalue
      (by simp [hrest, List.replicate_succ]) hsolid (hcolumn ▸ hwithin) (by omega)
    rw [hcolumn] at hfirst
    obtain ⟨next, hnext, hzero, hothers⟩ := @ih middle (front ++ (opened 2 blocks).1 ++ tokensOf first) (opened 2 blocks).2
      second hkeys hvalues hmiddle htwo (opened_within (Nat.le_refl _))
    -- The first line opened the block, so the other lines open none.
    rw [opened_of_head? (head?_opened ..)] at hothers
    refine ⟨next, hnext, hzero, hfirst.trans ?_⟩
    simpa using hothers

/-- The lines of a section: its block starts behind its name and ends in front of the next one. -/
theorem runs_section {entry : String × Table Scalar} (hname : IsName entry.1) (hplain : Scalar.ArePlain entry.2)
    (hrest : cursor.rest = linesOf entry ++ text) (htext : IsSolid text) (hcolumn : cursor.column = 0)
    (hwithin : ∀ block ∈ blocks.head?, block ≤ 0) :
    ∃ next, next.rest = text ∧ next.column = 0 ∧ Runs (outside cursor front blocks true)
      (outside next (front ++ (opened 0 blocks).1 ++ blockOf entry) (opened 0 blocks).2 true) := by
  obtain ⟨name, entries⟩ := entry
  obtain ⟨first, others, rfl⟩ := List.exists_cons_of_ne_nil hplain.nonempty
  have hsolid : IsSolid (lineOf first ++ ((others.flatMap fun entry => ' ' :: ' ' :: lineOf entry) ++ text)) := by
    rw [lineOf, List.append_assoc]
    exact isSolid_word (hplain.keys first (List.mem_cons_self ..)).toIsWord _
  have hlines : cursor.rest = name.toList ++ ':' :: ('\n' :: (List.replicate 2 ' ' ++
      (lineOf first ++ ((others.flatMap fun entry => ' ' :: ' ' :: lineOf entry) ++ text)))) := by
    simp [hrest, linesOf, List.replicate_succ]
  have hhead := head?_opened 0 blocks
  obtain ⟨behind, hbehind, -, hkey⟩ := @Runs.key _ _ _ front blocks hname hlines (by rfl) (hcolumn ▸ hwithin)
  rw [hcolumn] at hkey
  obtain ⟨inner, hinner, htwo, hline⟩ := @Runs.newline behind _
    (front ++ (opened 0 blocks).1 ++ [.key, .scalar .plain name, .value]) (opened 0 blocks).2 false 2 hbehind hsolid
  obtain ⟨next, hnext, hzero, hblock⟩ := @runs_lines inner text
    (front ++ (opened 0 blocks).1 ++ [.key, .scalar .plain name, .value]) (opened 0 blocks).2 first others hplain.keys
    hplain.values hinner htext htwo (opened_within (Nat.zero_le _))
  have hopen : opened 2 (opened 0 blocks).2 = ([.entriesStart], 2 :: (opened 0 blocks).2) :=
    opened_of_lt (by rw [hhead]; rintro block ⟨⟩; decide)
  rw [hopen] at hblock
  have hend := @Runs.blockEnd next (front ++ (opened 0 blocks).1 ++ [.key, .scalar .plain name, .value] ++
    [.entriesStart] ++ (first :: others).flatMap tokensOf) (opened 0 blocks).2 true 2 (hnext.symm ▸ htext)
    (by omega) (opened_within (Nat.zero_le _))
  refine ⟨next, hnext, hzero, (hkey.trans hline).trans (hblock.trans ?_)⟩
  simpa [blockOf] using hend

theorem isSolid_linesOf {sections : Table (Table Scalar)} (hnames : ∀ entry ∈ sections, IsName entry.1) :
    IsSolid (sections.flatMap linesOf) := by
  rcases sections with - | ⟨entry, sections⟩
  · rintro c ⟨⟩
  · rw [List.flatMap_cons, linesOf, List.append_assoc]
    exact isSolid_word (hnames entry (List.mem_cons_self ..)).toIsWord _

theorem runs_sections {sections : Table (Table Scalar)} (hnames : ∀ entry ∈ sections, IsName entry.1)
    (hplain : ∀ entry ∈ sections, Scalar.ArePlain entry.2) (hrest : cursor.rest = sections.flatMap linesOf)
    (hcolumn : cursor.column = 0) (hblocks : blocks.head? = some 0) :
    ∃ next, next.rest = [] ∧ Runs (outside cursor front blocks true)
      (outside next (front ++ sections.flatMap blockOf) blocks true) := by
  induction sections generalizing cursor front with
  | nil => exact ⟨cursor, hrest, 0, by simp, fun bound => by simp⟩
  | cons entry sections ih =>
    obtain ⟨hname, hnames⟩ := List.forall_mem_cons.mp hnames
    obtain ⟨hfirst, hplain⟩ := List.forall_mem_cons.mp hplain
    obtain ⟨middle, hmiddle, hzero, hsection⟩ := @runs_section cursor _ front blocks entry hname hfirst hrest
      (isSolid_linesOf hnames) hcolumn (by rw [hblocks]; rintro block ⟨⟩; exact Nat.le_refl _)
    rw [opened_of_head? hblocks] at hsection
    obtain ⟨next, hnext, hothers⟩ := @ih middle (front ++ blockOf entry) hnames hplain hmiddle hzero
    refine ⟨next, hnext, hsection.trans ?_⟩
    simpa using hothers

/-! ### Texts -/

/-- The sections as a file. -/
def document (sections : Table (Table Scalar)) : String :=
  String.join (sections.map fun entry => blockText entry.1 entry.2)

theorem toList_blockText (name : String) (entries : Table Scalar) :
    (blockText name entries).toList = linesOf (name, entries) := by
  have hline (entry : String × Scalar) :
      ("  " ++ entry.1 ++ ": " ++ scalarText entry.2 ++ "\n").toList = ' ' :: ' ' :: lineOf entry := by
    simp [lineOf, String.toList_append]
  have hname : (name ++ ":\n").toList = name.toList ++ [':', '\n'] := by
    rw [String.toList_append]
    rfl
  rw [blockText, String.toList_append, hname, String.toList_join, List.flatMap_map, List.append_assoc]
  exact congrArg (name.toList ++ ':' :: '\n' :: ·) (List.flatMap_congr fun entry _ => hline entry)

theorem toList_document (sections : Table (Table Scalar)) : (document sections).toList = sections.flatMap linesOf := by
  rw [document, String.toList_join, List.flatMap_map]
  exact List.flatMap_congr fun entry _ => toList_blockText entry.1 entry.2

theorem isPrintable_word {word : String} (h : IsWord word) : word.toList.all isPrintable = true := by
  rw [List.all_eq_true]
  intro c hc
  have hn := toNat_of_isWordChar (h.chars c hc)
  simp [isPrintable]
  omega

theorem isPrintable_document {sections : Table (Table Scalar)} (h : ArePlain sections) :
    (document sections).toList.all isPrintable = true := by
  rw [toList_document, List.all_flatMap, List.all_eq_true]
  intro entry hentry
  have hplain := h.entries entry hentry
  have hlines : (entry.2.flatMap fun entry => ' ' :: ' ' :: lineOf entry).all isPrintable = true := by
    rw [List.all_flatMap, List.all_eq_true]
    intro line hline
    simp only [lineOf, List.all_cons, List.all_append, isPrintable_word (hplain.keys line hline).toIsWord,
      isPrintable_word (isWord_scalarText (hplain.values line hline))]
    decide
  simp only [linesOf, List.all_append, List.all_cons, hlines, isPrintable_word (h.names entry hentry).toIsWord]
  decide

/-- The tokens of a file are those of its blocks. -/
theorem tokens?_document {sections : Table (Table Scalar)} (h : ArePlain sections) (hne : sections ≠ []) :
    tokens? (document sections) = some (.entriesStart :: (sections.flatMap blockOf ++ [.blockEnd])) := by
  obtain ⟨first, others, rfl⟩ := List.exists_cons_of_ne_nil hne
  obtain ⟨hname, hnames⟩ := List.forall_mem_cons.mp h.names
  obtain ⟨hfirst, hplain⟩ := List.forall_mem_cons.mp h.entries
  have hchars := toList_document (first :: others)
  obtain ⟨middle, hmiddle, hzero, hsection⟩ := @runs_section ⟨(document (first :: others)).toList, 0, 0, 0⟩ _ [] [] first
    hname hfirst hchars (isSolid_linesOf hnames) rfl (by simp)
  obtain ⟨last, hlast, hothers⟩ := @runs_sections middle ([.entriesStart] ++ blockOf first) [0] others hnames hplain
    hmiddle hzero rfl
  obtain ⟨count, hcount, htokens⟩ := hsection.trans hothers
  -- No more tokens were read than there are characters, so the bound was large enough.
  have hbound : (document (first :: others)).toList.length + 1 =
      (document (first :: others)).toList.length - count + 1 + count := by
    have hle : count ≤ (document (first :: others)).toList.length := Nat.le_trans (Nat.le_add_right ..) hcount
    omega
  rw [tokens?]
  simp only [isPrintable_document h, if_true]
  rw [hbound]
  refine (htokens _).trans ((tokensUpTo_end hlast).trans ?_)
  simp

/-! ### Nodes -/

/-- The node that is written for a scalar. -/
def nodeOf (value : Scalar) : Yaml.Node := .scalar {} .plain (scalarText value)

/-- The node that is written for entries. -/
def mapOf (entries : Table Yaml.Node) : Yaml.Node :=
  .map {} (entries.map fun entry => (.scalar {} .plain entry.1, entry.2))

theorem mapOf_mapValues {α : Type} (write : α → Yaml.Node) (entries : Table α) : mapOf (entries.mapValues write) =
    .map {} (entries.map fun entry => (.scalar {} .plain entry.1, write entry.2)) := by
  rw [mapOf, Table.mapValues, List.map_map]
  rfl

variable {handles : List (String × String)} {levels : Nat}

theorem entriesTake_tokensOf (entries : Table Scalar) : EntriesTake (node handles (levels + 1)) (entries.flatMap tokensOf)
    (entries.map fun entry => (.scalar {} .plain entry.1, nodeOf entry.2)) := by
  induction entries with
  | nil => exact .nil
  | cons entry entries ih =>
    exact .cons ((takes_scalar entry.1).nodeUnless rfl) ((takes_scalar (scalarText entry.2)).nodeUnless rfl) ih

theorem entriesTake_blockOf (sections : Table (Table Scalar)) :
    EntriesTake (node handles (levels + 2)) (sections.flatMap blockOf)
      (sections.map fun entry => (.scalar {} .plain entry.1, mapOf (entry.2.mapValues nodeOf))) := by
  induction sections with
  | nil => exact .nil
  | cons entry sections ih =>
    have hblock : Takes (node handles (levels + 2) .entry) (.entriesStart :: (entry.2.flatMap tokensOf ++ [.blockEnd]))
        (mapOf (entry.2.mapValues nodeOf)) := by
      rw [mapOf_mapValues]
      exact takes_map (by decide) (entriesTake_tokensOf entry.2)
    have hcons := EntriesTake.cons ((takes_scalar entry.1).nodeUnless rfl) (hblock.nodeUnless rfl) ih
    simpa [blockOf] using hcons

/-- Plain sections that were written are read back. -/
theorem parse?_document {sections : Table (Table Scalar)} (h : ArePlain sections) (hne : sections ≠ []) :
    Yaml.parse? (document sections) = some (some (Format.rootOf nodeOf mapOf sections)) := by
  -- The nesting is bounded by the number of tokens; three levels are enough for maps of maps.
  have hlevels : 3 ≤ (Token.entriesStart :: (sections.flatMap blockOf ++ [.blockEnd])).length := by
    obtain ⟨first, others, rfl⟩ := List.exists_cons_of_ne_nil hne
    simp [blockOf]
  obtain ⟨levels, hlevels⟩ := Nat.exists_eq_add_of_le' hlevels
  have hroot : Takes (node usualHandles (levels + 3) .block) (.entriesStart :: (sections.flatMap blockOf ++ [.blockEnd]))
      (Format.rootOf nodeOf mapOf sections) := by
    rw [Format.rootOf, mapOf_mapValues]
    exact takes_map (by decide) (entriesTake_blockOf sections)
  have hdocument : TokenReader.document.run { tokens := .entriesStart :: (sections.flatMap blockOf ++ [.blockEnd]) } =
      some (Format.rootOf nodeOf mapOf sections, { tokens := [] }) := by
    have hread := hroot [] []
    rw [← hlevels, List.append_nil] at hread
    exact hread
  rw [Yaml.parse?, tokens?_document h hne]
  simp only [Option.bind_eq_bind, Option.bind_some]
  rw [hdocument]
  rfl

/-! ### Settings -/

theorem entries?_mapOf {resolve : Yaml.Node → Yaml.Node} {entries : Table Yaml.Node}
    (hname : ∀ name, resolve (.scalar {} .plain name) = .scalar {} .plain name)
    (hentries : ∀ entry ∈ entries, resolve entry.2 = entry.2) : entries? resolve (mapOf entries) = some entries := by
  rw [mapOf, entries?]
  induction entries with
  | nil => rfl
  | cons entry entries ih =>
    obtain ⟨hentry, hentries⟩ := List.forall_mem_cons.mp hentries
    rw [List.map_cons, List.mapM_cons, ih hentries]
    dsimp only
    rw [hname, hentry]
    rfl

theorem natural_ne {n : Nat} {word : String} (hword : word.toList ≠ [] → word.toList.all Char.isDigit = false) :
    scalarText (.natural n) ≠ word := by
  rintro rfl
  rw [scalarText_natural] at hword
  have hall : (Nat.toDigits 10 n).all Char.isDigit = true := List.all_eq_true.mpr Decimal.isDigit_of_toDigits
  rw [hword Nat.toDigits_ne_nil] at hall
  cases hall

theorem isPresent?_natural (n : Nat) : isPresent? (nodeOf (.natural n)) = some true := by
  have hnull : isNull (scalarText (.natural n)) = false := by
    have hwords : ∀ word ∈ ["null", "Null", "NULL", "~"], word.toList ≠ [] → word.toList.all Char.isDigit = false := by
      decide
    rw [isNull, List.contains_eq_mem, decide_eq_false_iff_not]
    exact fun hmem => natural_ne (hwords _ hmem) rfl
  have hempty : (scalarText (.natural n) != "") = true := bne_iff_ne.mpr (natural_ne (by decide))
  show some (scalarText (.natural n) != "" && !isNull (scalarText (.natural n))) = some true
  rw [hnull, hempty]
  rfl

theorem decimal?_toDigits (n : Nat) : decimal? (Nat.toDigits 10 n) = some n := by
  have hall : (Nat.toDigits 10 n).all Char.isDigit = true := List.all_eq_true.mpr Decimal.isDigit_of_toDigits
  have hzero : ((Nat.toDigits 10 n).length = 1 || (Nat.toDigits 10 n).head? ≠ some '0') = true := by
    rcases Nat.eq_zero_or_pos n with rfl | hn
    · decide
    · simp [Decimal.head?_toDigits hn]
  rw [decimal?, hall, hzero, Bool.and_true, if_pos rfl, Decimal.ofDigits?_ten Nat.toDigits_ne_nil Decimal.isDigit_of_toDigits,
    Decimal.ofDigits_toDigits]

theorem nat?_toDigits (n : Nat) : nat? (Nat.toDigits 10 n) = some n := by
  have hread := decimal?_toDigits n
  have hdigits := @Decimal.isDigit_of_toDigits n
  generalize Nat.toDigits 10 n = digits at hdigits hread
  -- Neither a plus nor the letter of a base stands in digits, so the base is ten.
  have hother (front : List Char) (c : Char) (rest : List Char) (hc : c.isDigit = false) : digits = front ++ c :: rest → False := by
    rintro rfl
    rw [hdigits c (by simp)] at hc
    cases hc
  rw [nat?]
  · exact hread
  · exact fun rest => hother [] '+' rest rfl
  · exact fun rest => hother ['0'] 'x' rest rfl
  · exact fun rest => hother ['0'] 'o' rest rfl
  · exact fun rest => hother ['0'] 'b' rest rfl

theorem undoes (root : Yaml.Node) : (format root).Undoes nodeOf mapOf where
  sections names sections := by
    refine entries?_mapOf (fun _ => rfl) fun entry hentry => ?_
    obtain ⟨section', -, rfl⟩ := List.mem_map.mp hentry
    rfl
  entries names entries := by
    refine entries?_mapOf (fun _ => rfl) fun entry hentry => ?_
    obtain ⟨entry', -, rfl⟩ := List.mem_map.mp hentry
    rfl
  flag b := by
    have hflag : ∀ b, isPresent? (nodeOf (.flag b)) = some true ∧
      (typedText? "bool" (nodeOf (.flag b))).bind bool? = some b := by decide
    exact hflag b
  natural n := by
    refine ⟨isPresent?_natural n, ?_⟩
    show nat? (scalarText (.natural n)).toList = some n
    rw [scalarText_natural, nat?_toDigits]
  policy policy := by cases policy <;> exact ⟨rfl, rfl⟩

/-- All settings that are written are read back. -/
theorem read?_write {settings : Settings} (hdepth : settings.maxDepth < UInt64.size) (hverbosity : settings.verbosity < 256) :
    read? (write settings) = some settings.spelledOut := by
  have hwrite : write settings = document (sections settings) := rfl
  rw [read?, hwrite, parse?_document (arePlain_sections settings) (by simp [sections])]
  exact Format.layer?_rootOf (undoes _) hdepth hverbosity

end GridFilter.Settings.Yaml
