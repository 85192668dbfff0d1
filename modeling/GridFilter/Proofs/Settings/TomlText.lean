import GridFilter.Proofs.Toml.Words
import GridFilter.Settings.Toml
import Mathlib.Data.List.Basic

/-! Settings written as TOML. Each line of the text is one statement to the reader, and after the last one the tables
    that were written stand in the draft. -/

namespace GridFilter.Settings.Toml
open GridFilter.Toml

variable {text rest : List Char} {word : String} {progress next result : GridFilter.Toml.Progress}

/-! ### Scalars -/

/-- The value that is written for a scalar. -/
def valueOf : Scalar → GridFilter.Toml
  | .flag b => .boolean b
  | .natural n => .integer n
  | .word s => .string s

theorem quote_word (h : IsWord word) : (Json.quote word).toList = '"' :: (word.toList ++ ['"']) := by
  have hescape : ∀ c ∈ word.toList, Json.escape c = [c] := by
    intro c hc
    have hn := toNat_of_isWordChar (h.chars c hc)
    have hother (d : Char) (hd : isWordChar d = false) : c ≠ d := ne_of_holds (h.chars c hc) hd
    rw [Json.escape, if_neg (hother _ rfl), if_neg (hother _ rfl), if_neg (hother _ rfl),
      if_neg (hother _ rfl), if_neg (hother _ rfl), if_neg (hother _ rfl),
      if_neg (hother _ rfl), if_neg (by omega)]
  have hsame : ∀ chars : List Char, (∀ c ∈ chars, Json.escape c = [c]) → chars.flatMap Json.escape = chars := by
    intro chars hchars
    induction chars with
    | nil => rfl
    | cons c chars ih =>
      obtain ⟨hc, hchars⟩ := List.forall_mem_cons.mp hchars
      rw [List.flatMap_cons, hc, ih hchars, List.singleton_append]
  rw [Json.quote, String.toList_ofList, hsame _ hescape]

theorem scalar_word {x : GridFilter.Toml} (hword : IsWord word) (hdate : date? word.toList = none)
    (hx : ofWord? word.toList = some x) (hrest : ∀ c ∈ rest.head?, endsWord c = true) :
    scalar (word.toList ++ rest) = some (x, rest) := by
  obtain ⟨c, chars, hchars, hc⟩ := hword.exists_cons
  rw [scalar.eq_def]
  split
  · rename_i htext
    rw [hchars] at htext
    exact absurd (List.cons.inj htext).1 (ne_of_holds hc rfl)
  · rename_i htext
    rw [hchars] at htext
    exact absurd (List.cons.inj htext).1 (ne_of_holds hc rfl)
  · rw [wordOf_append (fun c hc => not_endsWord (hword.chars c hc)) hdate hrest]
    simp [hx]

theorem scalar_scalarText {value : Scalar} (h : value.IsPlain) (hrest : ∀ c ∈ rest.head?, endsWord c = true) :
    scalar ((scalarText value).toList ++ rest) = some (valueOf value, rest) := by
  cases value with
  | flag b => exact scalar_word (isWord_flag b) (by cases b <;> rfl) (by cases b <;> rfl) hrest
  | natural n =>
    have htext : (toString n).toList = Nat.toDigits 10 n := Nat.toList_repr
    have hdate : date? (toString n).toList = none := by rw [htext, date?_digits Decimal.isDigit_of_toDigits]
    have hread : ofWord? (toString n).toList = some (.integer n) := by rw [htext, ofWord?_toDigits]
    exact scalar_word (isWord_natural n) hdate hread hrest
  | word s =>
    have hquoted : (scalarText (.word s)).toList ++ rest = '"' :: (s.toList ++ '"' :: rest) := by
      rw [scalarText, quote_word h]
      simp
    rw [hquoted, scalar, quoted_word h]
    rfl

theorem scalarText_cons {value : Scalar} (h : value.IsPlain) :
    ∃ c chars, (scalarText value).toList = c :: chars ∧ (c.isAlphanum = true ∨ c = '"') := by
  cases value with
  | flag b =>
    obtain ⟨c, chars, hchars, hc⟩ := (isWord_flag b).exists_cons
    exact ⟨c, chars, hchars, .inl hc⟩
  | natural n =>
    obtain ⟨c, chars, hchars, hc⟩ := (isWord_natural n).exists_cons
    exact ⟨c, chars, hchars, .inl hc⟩
  | word s => exact ⟨'"', _, quote_word h, .inr rfl⟩

/-- The value behind an equals sign is the one that was written. -/
theorem value_scalarText {value : Scalar} (h : value.IsPlain) :
    GridFilter.Toml.value maxNesting (skipBlanks (' ' :: ((scalarText value).toList ++ '\n' :: text))) =
      some (valueOf value, '\n' :: text) := by
  obtain ⟨c, chars, hchars, hc⟩ := scalarText_cons h
  have hother (d : Char) (hd : d.isAlphanum = false) (hquote : '"' ≠ d) : c ≠ d := by
    rcases hc with hc | rfl
    · exact ne_of_holds hc hd
    · exact hquote
  have hskip : skipBlanks (' ' :: ((scalarText value).toList ++ '\n' :: text)) = (scalarText value).toList ++ '\n' :: text := by
    have hblank : isBlank c = false := by simp [isBlank, hother ' ' rfl (by decide), hother '\t' rfl (by decide)]
    rw [hchars, skipBlanks, List.dropWhile_cons_of_pos (by decide), List.cons_append,
      List.dropWhile_cons_of_neg (by simp [hblank])]
  rw [hskip, value_eq_scalar, scalar_scalarText h (by simp [endsWord, isControl])]
  · simpa [hchars] using hother '[' rfl (by decide)
  · simpa [hchars] using hother '\x7b' rfl (by decide)

/-! ### Lines -/

/-- The line of an entry. -/
def lineOf (entry : String × Scalar) : List Char :=
  entry.1.toList ++ ' ' :: '=' :: ' ' :: ((scalarText entry.2).toList ++ ['\n'])

/-- The line of a header. -/
def headerOf (name : String) : List Char := '[' :: (name.toList ++ [']', '\n'])

/-- The entries as they stand in the draft. -/
def draftsOf (entries : Table Scalar) : Drafts := entries.map fun entry => (entry.1, .closed (valueOf entry.2))

/-- What the text holds is read, after some progress, with a result. -/
def Reads (progress : GridFilter.Toml.Progress) (text : List Char) (result : GridFilter.Toml.Progress) : Prop :=
  ∀ bound, text.length < bound → statements bound progress text = some result

theorem Reads.nil : Reads progress [] progress := fun bound _ => by cases bound <;> rfl

theorem Reads.line (hstatement : statement progress text = some (next, rest)) (hend : lineEnd? rest = some after)
    (hshorter : after.length < text.length) (h : Reads next after result) : Reads progress text result := by
  intro bound hbound
  obtain ⟨bound, rfl⟩ := Nat.exists_eq_succ_of_ne_zero (by omega : bound ≠ 0)
  rcases text with - | ⟨c, chars⟩
  · simp at hshorter
  · rw [statements, hstatement]
    · simp only [Option.bind_eq_bind, Option.bind_some, hend]
      exact h bound (by omega)
    · simp

theorem Reads.blankLine (h : Reads progress text result) : Reads progress ('\n' :: text) result := by
  have hstatement : statement progress ('\n' :: text) = some (progress, '\n' :: text) := by
    simp [statement, skipBlanks, isBlank, isControl]
  exact h.line hstatement rfl (by simp)

theorem openTable_new {name : String} {drafts : Drafts} (hnew : drafts.lookup name = none) :
    drafts.openTable ⟨[], name⟩ = some (drafts ++ [(name, .table .header [])]) := by
  simp [Drafts.openTable, Drafts.change, hnew]

/-- A header opens a table of a new name. -/
theorem statement_header {name : String} {drafts : Drafts} {path : List String} (hname : IsWord name)
    (hnew : drafts.lookup name = none) : statement ⟨drafts, path⟩ (headerOf name ++ text) =
      some (⟨drafts ++ [(name, .table .header [])], [name]⟩, '\n' :: text) := by
  obtain ⟨c, chars, hchars, -⟩ := hname.exists_cons
  have hc : isWordChar c = true := hname.chars c (by simp [hchars])
  have hkey : key (name.toList ++ ']' :: '\n' :: text) = some (⟨[], name⟩, ']' :: '\n' :: text) :=
    key_word hname (by simp [isWordChar]) (by simp [skipBlanks, isBlank])
  have hstart : skipBlanks (name.toList ++ ']' :: '\n' :: text) = name.toList ++ ']' :: '\n' :: text := by
    rw [hchars]
    exact skipBlanks_word hc
  have hbracket : skipBlanks (headerOf name ++ text) = '[' :: (name.toList ++ ']' :: '\n' :: text) := by
    simp [headerOf, skipBlanks, isBlank]
  have hheader : statement ⟨drafts, path⟩ (headerOf name ++ text) =
      GridFilter.Toml.header ⟨drafts, path⟩ (name.toList ++ ']' :: '\n' :: text) := by
    rw [statement, hbracket]
    rfl
  rw [hheader, GridFilter.Toml.header.eq_def]
  split
  · rename_i htext
    rw [hchars] at htext
    exact absurd (List.cons.inj htext).1 (ne_of_holds hc rfl)
  · rw [hstart, hkey]
    simp [openTable_new hnew]

theorem Reads.header {name : String} {drafts : Drafts} {path : List String} (hname : IsWord name)
    (hnew : drafts.lookup name = none)
    (h : Reads ⟨drafts ++ [(name, .table .header [])], [name]⟩ text result) :
    Reads ⟨drafts, path⟩ (headerOf name ++ text) result := by
  have hshorter : text.length < (headerOf name ++ text).length := by
    simp [headerOf]
    omega
  exact h.line (statement_header hname hnew) rfl hshorter

theorem lookup_append_new {entries : Drafts} {name : String} {draft : Draft} (hnew : entries.lookup name = none) :
    (entries ++ [(name, draft)]).lookup name = some draft := by
  simp [List.lookup_append, hnew]

theorem replace_last {name : String} {done : Drafts} {old draft : Draft} (hname : done.lookup name = none) :
    Drafts.replace name draft (done ++ [(name, old)]) = done ++ [(name, draft)] := by
  have hdone : ∀ entry ∈ done, (if entry.1 = name then (entry.1, draft) else entry) = entry := by
    intro entry hentry
    have hne : (name != entry.1) = true := by simpa using List.lookup_eq_none_iff.mp hname entry hentry
    exact if_neg (Ne.symm (bne_iff_ne.mp hne))
  rw [Drafts.replace, List.map_append, List.map_congr_left hdone]
  simp

theorem addBelow_last {name key : String} {done inner : Drafts} {x : GridFilter.Toml} (hname : done.lookup name = none)
    (hkey : inner.lookup key = none) : Drafts.addBelow [name] ⟨[], key⟩ x (done ++ [(name, .table .header inner)]) =
      some (done ++ [(name, .table .header (inner ++ [(key, .closed x)]))]) := by
  rw [Drafts.addBelow, Drafts.change, lookup_append_new hname]
  simp [Drafts.change, Drafts.add, hkey, replace_last hname]

theorem entry_lineOf {entry : String × Scalar} (hword : IsWord entry.1) (hplain : entry.2.IsPlain) :
    GridFilter.Toml.entry (value maxNesting) (lineOf entry ++ text) =
      some ((⟨[], entry.1⟩, valueOf entry.2), '\n' :: text) := by
  have hline : lineOf entry ++ text = entry.1.toList ++ ' ' :: '=' :: ' ' :: ((scalarText entry.2).toList ++ '\n' :: text) := by
    simp [lineOf]
  have hequals : skipBlanks (' ' :: '=' :: ' ' :: ((scalarText entry.2).toList ++ '\n' :: text)) =
      '=' :: ' ' :: ((scalarText entry.2).toList ++ '\n' :: text) := by
    simp [skipBlanks, isBlank]
  rw [GridFilter.Toml.entry, hline, key_word hword (by simp [isWordChar]) (by rw [hequals]; simp), hequals]
  simp only [Option.bind_eq_bind, Option.bind_some]
  rw [value_scalarText hplain]
  rfl

/-- The line of an entry adds it to the table that was opened last. -/
theorem statement_lineOf {name : String} {entry : String × Scalar} {done inner : Drafts} (hname : done.lookup name = none)
    (hword : IsWord entry.1) (hplain : entry.2.IsPlain) (hkey : inner.lookup entry.1 = none) :
    statement ⟨done ++ [(name, .table .header inner)], [name]⟩ (lineOf entry ++ text) =
      some (⟨done ++ [(name, .table .header (inner ++ draftsOf [entry]))], [name]⟩, '\n' :: text) := by
  obtain ⟨c, chars, hchars, -⟩ := hword.exists_cons
  have hc : isWordChar c = true := hword.chars c (by simp [hchars])
  have hstart : lineOf entry ++ text = c :: (chars ++ (' ' :: '=' :: ' ' :: ((scalarText entry.2).toList ++ '\n' :: text))) := by
    simp [lineOf, hchars]
  have hentry := @entry_lineOf text entry hword hplain
  have hother : ¬ (c = '#' ∨ isControl c = true) := by
    simp [ne_of_holds hc (by decide : isWordChar '#' = false), not_isControl hc]
  rw [hstart] at hentry ⊢
  rw [statement.eq_def, skipBlanks_word hc]
  split
  · rename_i htext
    exact absurd (List.cons.inj htext).1 (ne_of_holds hc rfl)
  · rename_i htext
    cases htext
  · rename_i htext
    cases htext
    rw [if_neg hother, hentry]
    simp only [Option.bind_eq_bind, Option.bind_some, addBelow_last hname hkey]
    rfl

theorem Reads.entry {name : String} {entry : String × Scalar} {done inner : Drafts} (hname : done.lookup name = none)
    (hword : IsWord entry.1) (hplain : entry.2.IsPlain) (hkey : inner.lookup entry.1 = none)
    (h : Reads ⟨done ++ [(name, .table .header (inner ++ draftsOf [entry]))], [name]⟩ text result) :
    Reads ⟨done ++ [(name, .table .header inner)], [name]⟩ (lineOf entry ++ text) result := by
  have hshorter : text.length < (lineOf entry ++ text).length := by
    simp [lineOf]
    omega
  exact h.line (statement_lineOf hname hword hplain hkey) rfl hshorter

/-- A name that stands once behind some drafts stands in none of them. -/
theorem lookup_of_nodup {drafts : Drafts} {name : String} {names : List String}
    (h : (Table.names drafts ++ name :: names).Nodup) : drafts.lookup name = none := by
  rw [List.lookup_eq_none_iff]
  intro entry hentry
  refine bne_iff_ne.mpr fun heq => ?_
  exact (List.nodup_append.mp h).2.2 _ (List.mem_map_of_mem hentry) name (List.mem_cons_self ..) heq.symm

/-- All entries of a section are read behind those that are there. -/
theorem Reads.entries {name : String} {entries : Table Scalar} {done inner : Drafts} (hname : done.lookup name = none)
    (hwords : ∀ entry ∈ entries, IsName entry.1) (hplain : ∀ entry ∈ entries, entry.2.IsPlain)
    (hdistinct : (Table.names inner ++ entries.names).Nodup)
    (h : Reads ⟨done ++ [(name, .table .header (inner ++ draftsOf entries))], [name]⟩ text result) :
    Reads ⟨done ++ [(name, .table .header inner)], [name]⟩ (entries.flatMap lineOf ++ text) result := by
  induction entries generalizing inner with
  | nil =>
    rw [draftsOf, List.map_nil, List.append_nil] at h
    exact h
  | cons entry entries ih =>
    rw [List.forall_mem_cons] at hwords hplain
    rw [List.flatMap_cons, List.append_assoc]
    refine .entry hname hwords.1.toIsWord hplain.1 (lookup_of_nodup hdistinct) (ih hwords.2 hplain.2 ?_ ?_)
    · simpa [Table.names, draftsOf] using hdistinct
    · rwa [List.append_assoc]

/-! ### Texts -/

/-- The lines of a section. -/
def linesOf (entry : String × Table Scalar) : List Char := headerOf entry.1 ++ entry.2.flatMap lineOf

/-- A section as it stands in the draft. -/
def draftOf (entry : String × Table Scalar) : String × Draft := (entry.1, .table .header (draftsOf entry.2))

theorem Reads.table {entry : String × Table Scalar} {done : Drafts} {path : List String} (hname : IsName entry.1)
    (hnew : done.lookup entry.1 = none) (hplain : Scalar.ArePlain entry.2)
    (h : Reads ⟨done ++ [draftOf entry], [entry.1]⟩ text result) : Reads ⟨done, path⟩ (linesOf entry ++ text) result := by
  rw [linesOf, List.append_assoc]
  exact .header hname.toIsWord hnew (.entries hnew hplain.keys hplain.values hplain.distinct h)

/-- All sections are read, with empty lines between them. -/
theorem Reads.sections {sections : Table (Table Scalar)} {done : Drafts} {path : List String}
    (hdistinct : (Table.names done ++ sections.names).Nodup) (hnames : ∀ entry ∈ sections, IsName entry.1)
    (hplain : ∀ entry ∈ sections, Scalar.ArePlain entry.2) :
    ∃ last, Reads ⟨done, path⟩ (['\n'].intercalate (sections.map linesOf)) ⟨done ++ sections.map draftOf, last⟩ := by
  induction sections generalizing done path with
  | nil => exact ⟨path, by simpa using Reads.nil⟩
  | cons entry rest ih =>
    rw [List.forall_mem_cons] at hnames hplain
    have hmore : (Table.names (done ++ [draftOf entry]) ++ Table.names rest).Nodup := by
      simpa [Table.names, draftOf] using hdistinct
    obtain ⟨last, hrest⟩ := @ih _ [entry.1] hmore hnames.2 hplain.2
    rw [List.append_assoc, List.singleton_append] at hrest
    refine ⟨last, ?_⟩
    have hfirst {text : List Char} {result : GridFilter.Toml.Progress}
        (h : Reads ⟨done ++ [draftOf entry], [entry.1]⟩ text result) : Reads ⟨done, path⟩ (linesOf entry ++ text) result :=
      .table hnames.1 (lookup_of_nodup hdistinct) hplain.1 h
    -- Behind the last section there is no empty line.
    rcases rest with - | ⟨second, others⟩
    · simpa using hfirst hrest
    · simpa using hfirst hrest.blankLine

/-- The sections as a file. -/
def document (sections : Table (Table Scalar)) : String :=
  "\n".intercalate (sections.map fun entry => tableText entry.1 entry.2)

theorem toList_tableText (name : String) (entries : Table Scalar) :
    (tableText name entries).toList = linesOf (name, entries) := by
  have hline (entry : String × Scalar) :
      (entry.1 ++ " = " ++ scalarText entry.2 ++ "\n").toList = lineOf entry := by
    simp [lineOf, String.toList_append]
  have hheader : ("[" ++ name ++ "]\n").toList = headerOf name := by
    simp [headerOf, String.toList_append]
  rw [tableText, String.toList_append, hheader, String.toList_join, List.flatMap_map]
  exact congrArg _ (List.flatMap_congr fun entry _ => hline entry)

theorem toList_document (sections : Table (Table Scalar)) :
    (document sections).toList = ['\n'].intercalate (sections.map linesOf) := by
  rw [document, String.toList_intercalate, List.map_map]
  exact congrArg _ (List.map_congr_left fun entry _ => toList_tableText entry.1 entry.2)

theorem closeEntries_eq (drafts : Drafts) : closeEntries drafts = drafts.map fun entry => (entry.1, entry.2.close) := by
  induction drafts with
  | nil => rfl
  | cons entry drafts ih =>
    obtain ⟨name, draft⟩ := entry
    rw [closeEntries, ih, List.map_cons]

theorem closeEntries_draftsOf (entries : Table Scalar) : closeEntries (draftsOf entries) = entries.mapValues valueOf := by
  rw [closeEntries_eq, draftsOf, List.map_map, Table.mapValues]
  exact List.map_congr_left fun entry _ => by rw [Function.comp_apply, Draft.close]

theorem closeEntries_drafts (sections : Table (Table Scalar)) : closeEntries (sections.map draftOf) =
    sections.mapValues fun entries => .table (entries.mapValues valueOf) := by
  rw [closeEntries_eq, List.map_map, Table.mapValues]
  exact List.map_congr_left fun entry _ => by rw [Function.comp_apply, draftOf, Draft.close, closeEntries_draftsOf]

/-- Plain sections that were written are read back. -/
theorem parse?_document {sections : Table (Table Scalar)} (h : ArePlain sections) :
    GridFilter.Toml.parse? (document sections) = some (Format.rootOf valueOf .table sections) := by
  obtain ⟨last, hreads⟩ := @Reads.sections sections [] [] h.distinct h.names h.entries
  rw [← toList_document] at hreads
  -- The text starts with a bracket, if at all, so no mark is taken off.
  have hmark : withoutMark (document sections).toList = (document sections).toList := by
    rw [toList_document, withoutMark.eq_def]
    split
    · rename_i htext
      rcases sections with - | ⟨first, - | ⟨second, rest⟩⟩ <;> simp [linesOf, headerOf] at htext
    · rfl
  rw [GridFilter.Toml.parse?, hmark, hreads _ (Nat.lt_succ_self _)]
  simp only [Option.bind_eq_bind, Option.bind_some, List.nil_append, closeEntries_drafts]
  rfl

theorem undoes : Toml.format.Undoes valueOf .table where
  sections names sections := rfl
  entries names entries := rfl
  flag b := ⟨rfl, rfl⟩
  natural n := by
    refine ⟨rfl, ?_⟩
    show (if 0 ≤ (n : Int) then some (n : Int).toNat else none) = some n
    rw [if_pos (Int.natCast_nonneg n), Int.toNat_natCast]
  policy policy := ⟨rfl, rfl⟩

/-- All settings that are written are read back. -/
theorem read?_write {settings : Settings} (hdepth : settings.maxDepth < UInt64.size) (hverbosity : settings.verbosity < 256) :
    read? (write settings) = some settings.spelledOut := by
  have hwrite : write settings = document (sections settings) := rfl
  rw [read?, hwrite, parse?_document (arePlain_sections settings), Option.bind_some]
  exact Format.layer?_rootOf undoes hdepth hverbosity

end GridFilter.Settings.Toml
