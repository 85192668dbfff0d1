import GridFilter.Proofs.Dialect.Sections
import GridFilter.Proofs.Parser.Names
import GridFilter.Proofs.Text.Rewritten

/-! Names in sections behind a filter. The sections count as one list of names: where it is cut into sections, and which
    blanks stand around the names, has no say. The filter in front of them is written anew, with the names in the places
    of their numbers. -/

namespace GridFilter.Dialect
open Text Lexeme

variable {text front rest body span digits written name part main sections : List Char}
  {names parts : List (List Char)} {groups : List (List (List Char))} {c : Char}

/-! ### Sections in a text -/

/-- The characters of a section with the text in its brackets: a bar, blanks, and the brackets. -/
def IsSection (body span : List Char) : Prop :=
  ∃ gap, (∀ c ∈ gap, isBlank c = true) ∧ ']' ∉ body ∧ span = '|' :: (gap ++ '[' :: (body ++ [']']))

theorem recognizes_section : Recognizes section? IsSection where
  ne_nil := by
    rintro body _ ⟨gap, -, -, rfl⟩
    exact List.cons_ne_nil _ _
  eq_some := by
    intro text body size
    rw [section?_eq_some]
    constructor
    · rintro ⟨gap, behind, rfl, hgap, hbody, rfl⟩
      exact ⟨'|' :: (gap ++ '[' :: (body ++ [']'])), behind, by simp, ⟨gap, hgap, hbody, rfl⟩, by simp; omega⟩
    · rintro ⟨_, behind, rfl, ⟨gap, hgap, hbody, rfl⟩, rfl⟩
      exact ⟨gap, behind, by simp, hgap, hbody, by simp; omega⟩

/-- Without a bar there is no section. -/
theorem segments_of_bar_not_mem (h : '|' ∉ front) :
    segments section? (front ++ rest) = front.map .plain ++ segments section? rest := by
  refine segments_of_not_mem (fun d rest hd => ?_) h
  unfold section?
  split
  · next heq => exact absurd (List.cons.inj heq).1 hd
  · rfl

/-! ### Sections written out -/

/-- A name that can be bound: it can stand between commas and in brackets, and blanks around it are none of its own. A
    name may be empty. -/
structure Bindable (name : List Char) : Prop where
  comma : ',' ∉ name
  bracket : ']' ∉ name
  trimmed : trim name = name

instance (name : List Char) : Decidable (Bindable name) :=
  decidable_of_iff (',' ∉ name ∧ ']' ∉ name ∧ trim name = name)
    ⟨fun h => ⟨h.1, h.2.1, h.2.2⟩, fun h => ⟨h.comma, h.bracket, h.trimmed⟩⟩

/-- A name with any blanks around it. -/
def Padded (name part : List Char) : Prop :=
  ∃ before behind, (∀ c ∈ before, isBlank c = true) ∧ (∀ c ∈ behind, isBlank c = true) ∧
    part = before ++ (name ++ behind)

/-- Groups of names written as sections, one for each group, with any blanks around the names, in front of the bars and
    behind them. -/
inductive Sections : List (List (List Char)) → List Char → Prop where
  | nil : Sections [] []
  | cons {names parts : List (List Char)} {groups : List (List (List Char))} {before gap rest : List Char} :
      (∀ c ∈ before, isBlank c = true) → (∀ c ∈ gap, isBlank c = true) → List.Forall₂ Padded names parts →
      Sections groups rest →
      Sections (names :: groups) (before ++ ('|' :: (gap ++ '[' :: ([','].intercalate parts ++ [']'])) ++ rest))

/-- A list cut into groups that follow one another, none of them empty. -/
structure Cut (names : List (List Char)) (groups : List (List (List Char))) : Prop where
  flatten : groups.flatten = names
  ne_nil : ∀ group ∈ groups, group ≠ []

instance (names : List (List Char)) (groups : List (List (List Char))) : Decidable (Cut names groups) :=
  decidable_of_iff (groups.flatten = names ∧ ∀ group ∈ groups, group ≠ [])
    ⟨fun h => ⟨h.1, h.2⟩, fun h => ⟨h.flatten, h.ne_nil⟩⟩

theorem padded_self (name : List Char) : Padded name name :=
  ⟨[], [], List.forall_mem_nil _, List.forall_mem_nil _, (List.append_nil _).symm⟩

theorem Padded.not_mem (h : Padded name part) (hname : c ∉ name) (hc : isBlank c = false) : c ∉ part := by
  obtain ⟨before, behind, hbefore, hbehind, rfl⟩ := h
  simp [not_mem_blanks hc hbefore, hname, not_mem_blanks hc hbehind]

theorem Padded.trim_eq (h : Padded name part) (hname : Bindable name) : trim part = name := by
  obtain ⟨before, behind, hbefore, hbehind, rfl⟩ := h
  rw [trim_between hbefore hbehind, hname.trimmed]

theorem not_mem_of_padded (h : List.Forall₂ Padded names parts) (hnames : ∀ name ∈ names, c ∉ name)
    (hc : isBlank c = false) : ∀ part ∈ parts, c ∉ part := by
  induction h with
  | nil => simp
  | cons hpart _ ih =>
    obtain ⟨hname, hrest⟩ := List.forall_mem_cons.mp hnames
    exact List.forall_mem_cons.mpr ⟨hpart.not_mem hname hc, ih hrest⟩

theorem map_trim_of_padded (h : List.Forall₂ Padded names parts) (hnames : ∀ name ∈ names, Bindable name) :
    parts.map trim = names := by
  induction h with
  | nil => rfl
  | cons hpart _ ih =>
    obtain ⟨hname, hrest⟩ := List.forall_mem_cons.mp hnames
    rw [List.map_cons, hpart.trim_eq hname, ih hrest]

theorem not_mem_intercalate {d : Char} (hd : c ≠ d) (h : ∀ part ∈ parts, c ∉ part) : c ∉ [d].intercalate parts := by
  induction parts with
  | nil => simp
  | cons first rest ih =>
    obtain ⟨hfirst, hrest⟩ := List.forall_mem_cons.mp h
    cases rest with
    | nil => rwa [List.intercalate_singleton]
    | cons second others =>
      rw [List.intercalate_cons_cons]
      simp [hfirst, hd, ih hrest]

theorem commaPieces_intercalate (hne : parts ≠ []) (h : ∀ part ∈ parts, ',' ∉ part) :
    commaPieces ([','].intercalate parts) = parts := by
  refine pieces_intercalate hne (by rfl) fun part hpart d hd => beq_eq_false_iff_ne.mpr ?_
  rintro rfl
  exact h part hpart hd

/-- The names of a section are those that it is written from. -/
theorem sectionNames_intercalate (h : List.Forall₂ Padded names parts) (hne : names ≠ [])
    (hnames : ∀ name ∈ names, Bindable name) : sectionNames ([','].intercalate parts) = names := by
  have hparts : parts ≠ [] := by
    rintro rfl
    cases h
    exact hne rfl
  have hcomma : ∀ part ∈ parts, ',' ∉ part :=
    not_mem_of_padded h (fun name hname => (hnames name hname).comma) (by decide)
  rw [sectionNames, commaPieces_intercalate hparts hcomma, map_trim_of_padded h hnames]

theorem isSection_intercalate {gap : List Char} (h : List.Forall₂ Padded names parts)
    (hnames : ∀ name ∈ names, Bindable name) (hgap : ∀ c ∈ gap, isBlank c = true) :
    IsSection ([','].intercalate parts) ('|' :: (gap ++ '[' :: ([','].intercalate parts ++ [']']))) := by
  have hbracket : ∀ part ∈ parts, ']' ∉ part :=
    not_mem_of_padded h (fun name hname => (hnames name hname).bracket) (by decide)
  exact ⟨gap, hgap, not_mem_intercalate (by decide) hbracket, rfl⟩

/-- In sections written out, the names are found group by group, and nothing but blanks stands in front of them. -/
theorem Sections.found (h : Sections groups sections) (hne : ∀ group ∈ groups, group ≠ [])
    (hnames : ∀ group ∈ groups, ∀ name ∈ group, Bindable name) :
    (foundIn (segments section? sections)).map sectionNames = groups ∧
      ∀ c ∈ beforeFound (segments section? sections), isBlank c = true := by
  induction h with
  | nil => exact ⟨rfl, by simp [segments, segmentsFrom, beforeFound]⟩
  | @cons names parts groups before gap rest hbefore hgap hparts _ ih =>
    obtain ⟨hfirst, hothers⟩ := List.forall_mem_cons.mp hne
    obtain ⟨hbindable, hrest⟩ := List.forall_mem_cons.mp hnames
    rw [segments_of_bar_not_mem (not_mem_blanks (by decide) hbefore),
      recognizes_section.segments_found (isSection_intercalate hparts hbindable hgap), foundIn_plains,
      beforeFound_plains]
    refine ⟨?_, ?_⟩
    · rw [foundIn, List.map_cons, sectionNames_intercalate hparts hfirst hbindable, (ih hothers hrest).1]
    · rwa [beforeFound_found, List.append_nil]

/-! ### Numbers and names -/

/-- What stands for a number in braces: the name that the number counts, if ASCII digits spell it and the name is not
    empty, and otherwise a name made up from the digits. -/
inductive Named (names : List (List Char)) (digits : List Char) : List Char → Prop where
  | bound {name : List Char} : (∀ c ∈ digits, c.isDigit = true) → names[Decimal.ofDigits digits]? = some name →
      name ≠ [] → Named names digits (inBraces name)
  | unbound : (∀ name, (∀ c ∈ digits, c.isDigit = true) → names[Decimal.ofDigits digits]? = some name → name = []) →
      Named names digits (inBraces ("placeholder".toList ++ digits))

theorem counted_eq_some : (index? digits).bind (names[·]?) = some name ↔
    (∀ c ∈ digits, c.isDigit = true) ∧ names[Decimal.ofDigits digits]? = some name := by
  unfold index?
  split
  · next hdigits => exact (and_iff_right (List.all_eq_true.mp hdigits)).symm
  · next hdigits =>
    rw [List.all_eq_true] at hdigits
    simp [hdigits]

theorem namedFor_of_bound (h : (index? digits).bind (names[·]?) = some name) (hne : name ≠ []) :
    namedFor names digits = inBraces name := by
  obtain ⟨first, rest, rfl⟩ := List.exists_cons_of_ne_nil hne
  rw [namedFor, h]

theorem namedFor_of_unbound (h : ∀ name, (index? digits).bind (names[·]?) = some name → name = []) :
    namedFor names digits = inBraces ("placeholder".toList ++ digits) := by
  unfold namedFor
  split
  · next hname => cases h _ hname
  · rfl

theorem named_iff : Named names digits written ↔ namedFor names digits = written := by
  constructor
  · intro h
    cases h with
    | bound hdigits hname hne => exact namedFor_of_bound (counted_eq_some.mpr ⟨hdigits, hname⟩) hne
    | unbound hnone =>
      refine namedFor_of_unbound fun name hname => ?_
      obtain ⟨hdigits, hname⟩ := counted_eq_some.mp hname
      exact hnone name hdigits hname
  · rintro rfl
    by_cases hbound : ∃ name, (index? digits).bind (names[·]?) = some name ∧ name ≠ []
    · obtain ⟨name, hname, hne⟩ := hbound
      obtain ⟨hdigits, hcounted⟩ := counted_eq_some.mp hname
      rw [namedFor_of_bound hname hne]
      exact .bound hdigits hcounted hne
    · have hnone : ∀ name, (index? digits).bind (names[·]?) = some name → name = [] := by
        intro name hname
        exact Decidable.byContradiction fun hne => hbound ⟨name, hname, hne⟩
      rw [namedFor_of_unbound hnone]
      exact .unbound fun name hdigits hname => hnone name (counted_eq_some.mpr ⟨hdigits, hname⟩)

/-- Behind a text without a bar, sections are as good as the list of their names. -/
theorem canonicalize_append (hmain : '|' ∉ main) (hnames : ∀ name ∈ names, Bindable name) (hne : names ≠ [])
    (hcut : Cut names groups) (h : Sections groups sections) :
    canonicalize (.ofList (main ++ sections)) = ⟨.ofList (nameNumbered names (trim main)), namesOf names⟩ := by
  obtain ⟨hflatten, hgroups⟩ := hcut
  obtain ⟨hfound, hbefore⟩ := h.found hgroups fun group hgroup name hname =>
    hnames name (hflatten ▸ List.mem_flatten_of_mem hgroup hname)
  have hsegments : segments section? (String.ofList (main ++ sections)).toList =
      main.map .plain ++ segments section? sections := by
    rw [String.toList_ofList, segments_of_bar_not_mem hmain]
  have hbound : boundNames (String.ofList (main ++ sections)).toList = names := by
    rw [boundNames, hsegments, foundIn_plains, List.flatMap_def, hfound, hflatten]
  have htrim : trim (main ++ beforeFound (segments section? sections)) = trim main :=
    @trim_between main [] _ (by simp) hbefore
  rw [canonicalize_of_found, hbound, hsegments, beforeFound_plains, htrim]
  rw [hsegments, foundIn_plains]
  intro hnil
  rw [hnil] at hfound
  rw [← hfound] at hflatten
  exact hne hflatten.symm

/-- Sections only form one long list of names. Behind a text without a bar, however the list is cut into sections, the
    filter in the inline dialect is the same: it has the names that are not empty, each at its first place, and is the
    text without blanks on either side, in which each number in braces is written anew as the name that it counts. -/
theorem canonicalize_sections (hmain : '|' ∉ main) (hnames : ∀ name ∈ names, Bindable name) (hne : names ≠ [])
    (hcut : Cut names groups) (h : Sections groups sections) :
    (∀ otherGroups other, Cut names otherGroups → Sections otherGroups other →
      canonicalize (.ofList (main ++ other)) = canonicalize (.ofList (main ++ sections))) ∧
    (canonicalize (.ofList (main ++ sections))).names = ((names.filter (· ≠ [])).map String.ofList).eraseDups ∧
    Rewritten (Braced isDecimal) (fun _ digits written _ => Named names digits written) () (trim main)
      (canonicalize (.ofList (main ++ sections))).normalized.toList := by
  have hcanonical := canonicalize_append hmain hnames hne hcut h
  refine ⟨fun otherGroups other hotherCut hother => ?_, ?_, ?_⟩
  · rw [hcanonical, canonicalize_append hmain hnames hne hotherCut hother]
  · rw [hcanonical, namesOf, distinct_eq_eraseDups]
  · have hrecognizes : Recognizes (braces isDecimal) (Braced isDecimal) := recognizes_braces (by decide)
    rw [hcanonical, String.toList_ofList, nameNumbered, fill_eq_rewrite]
    refine (rewritten_iff hrecognizes fun state digits written next => ?_).mpr rfl
    rw [named_iff, Prod.mk.injEq]
    exact (and_iff_left rfl).symm

/-- Three names, of which one is empty and one has a bar and a bracket in it. -/
def threeNames : List (List Char) := ["Doc.ID".toList, [], "x | [y".toList]

/-- A text with numbers in braces of all sorts: zeros in front, the number of the empty name, a brace too many, a digit
    that is not of ASCII, and a number that counts far too high. -/
def numbered : List Char :=
  " B IN (\x7b00\x7d, \x7b1\x7d, \x7b\x7b2\x7d, \x7b٢\x7d, \x7b18446744073709551616\x7d) ".toList

/-- The names in two sections. -/
def cutInTwo : List Char := " | [ Doc.ID ,] |\t[x | [y\u00A0]".toList

/-- The names in one section. -/
def inOne : List Char := "|[Doc.ID,\n,x | [y]".toList

theorem sections_cutInTwo : Sections [["Doc.ID".toList, []], ["x | [y".toList]] cutInTwo := by
  have hblank (c : Char) (hc : isBlank c = true) : ∀ d ∈ [c], isBlank d = true := List.forall_mem_singleton.mpr hc
  have hfirst : List.Forall₂ Padded ["Doc.ID".toList, []] [" Doc.ID ".toList, []] :=
    .cons ⟨[' '], [' '], hblank ' ' (by decide), hblank ' ' (by decide), rfl⟩ (.cons (padded_self []) .nil)
  have hsecond : List.Forall₂ Padded ["x | [y".toList] ["x | [y\u00A0".toList] :=
    .cons ⟨[], ['\u00A0'], List.forall_mem_nil _, hblank '\u00A0' (by decide), rfl⟩ .nil
  exact @Sections.cons _ _ _ [' '] [' '] _ (hblank ' ' (by decide)) (hblank ' ' (by decide)) hfirst
    (@Sections.cons _ _ _ [' '] ['\t'] _ (hblank ' ' (by decide)) (hblank '\t' (by decide)) hsecond .nil)

theorem sections_inOne : Sections [threeNames] inOne := by
  have hnames : List.Forall₂ Padded threeNames ["Doc.ID".toList, ['\n'], "x | [y".toList] :=
    .cons (padded_self _) (.cons ⟨['\n'], [], List.forall_mem_singleton.mpr (by decide), List.forall_mem_nil _, rfl⟩
      (.cons (padded_self _) .nil))
  exact @Sections.cons _ _ _ [] [] _ (List.forall_mem_nil _) (List.forall_mem_nil _) hnames .nil

theorem canonicalize_sections_threeNames : '|' ∉ numbered ∧ (∀ name ∈ threeNames, Bindable name) ∧ threeNames ≠ [] ∧
    Cut threeNames [["Doc.ID".toList, []], ["x | [y".toList]] ∧ Cut threeNames [threeNames] ∧
    (canonicalize (.ofList (numbered ++ cutInTwo))).normalized =
      "B IN (\x7bDoc.ID\x7d, \x7bplaceholder1\x7d, \x7b\x7bx | [y\x7d, \x7bplaceholder٢\x7d, " ++
        "\x7bplaceholder18446744073709551616\x7d)" ∧
    canonicalize (.ofList (numbered ++ inOne)) = canonicalize (.ofList (numbered ++ cutInTwo)) ∧
    (canonicalize (.ofList (numbered ++ cutInTwo))).names =
      ((threeNames.filter (· ≠ [])).map String.ofList).eraseDups ∧
    Rewritten (Braced isDecimal) (fun _ digits written _ => Named threeNames digits written) () (trim numbered)
      (canonicalize (.ofList (numbered ++ cutInTwo))).normalized.toList := by
  have hmain : '|' ∉ numbered := by decide +kernel
  have hnames : ∀ name ∈ threeNames, Bindable name := by decide +kernel
  have hcut : Cut threeNames [["Doc.ID".toList, []], ["x | [y".toList]] := by decide
  have hwhole : Cut threeNames [threeNames] := by decide
  obtain ⟨hother, hvariables, hrewritten⟩ := canonicalize_sections hmain hnames (by decide) hcut sections_cutInTwo
  exact ⟨hmain, hnames, by decide, hcut, hwhole, by decide +kernel, hother _ _ hwhole sections_inOne, hvariables,
    hrewritten⟩

end GridFilter.Dialect
