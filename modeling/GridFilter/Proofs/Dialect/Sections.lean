import GridFilter.Dialect
import GridFilter.Proofs.Text.Segments
import GridFilter.Proofs.Token.Lexemes

/-! A text in the inline dialect has no binding section. The part in front of the first section has none, and none comes
    about when its numbered placeholders are named, since no name has a bar or a closing bracket in it. -/

namespace GridFilter.Dialect
open Text Lexeme

variable {text body digits : List Char} {bound : List (List Char)} {size : Nat} {c : Char}

/-! ### Sections -/

/-- Somewhere in a text there is a bar with an opening bracket behind it, blanks between them left out, and further
    behind a closing bracket. -/
def HasSection (text : List Char) : Prop :=
  ∃ before gap behind, text = before ++ '|' :: (gap ++ '[' :: behind) ∧ (∀ c ∈ gap, isBlank c = true) ∧ ']' ∈ behind

/-- A section at the front of a text goes to the first closing bracket. -/
theorem section?_eq_some : section? text = some (body, size) ↔
    ∃ gap behind, text = '|' :: (gap ++ '[' :: (body ++ ']' :: behind)) ∧ (∀ c ∈ gap, isBlank c = true) ∧
      ']' ∉ body ∧ size = gap.length + body.length + 3 := by
  constructor
  · intro h
    unfold section? at h
    split at h
    · next rest =>
      split at h
      · next inner hinner =>
        split at h
        · next behind hbehind =>
          cases h
          refine ⟨rest.takeWhile isBlank, behind, ?_, fun c => mem_takeWhile, fun hmem => ?_, rfl⟩
          · rw [← hbehind, List.takeWhile_append_dropWhile, ← hinner, List.takeWhile_append_dropWhile]
          · exact absurd (mem_takeWhile hmem) (by decide)
        · cases h
      · cases h
    · cases h
  · rintro ⟨gap, behind, rfl, hgap, hbody, rfl⟩
    have hblank : ∀ d ∈ ('[' :: (body ++ ']' :: behind)).head?, isBlank d = false := by
      rintro _ ⟨⟩
      decide
    have hopen : ∀ d ∈ body, (d != ']') = true := by
      intro d hd
      rw [bne_iff_ne]
      rintro rfl
      exact hbody hd
    have hclose : ∀ d ∈ (']' :: behind).head?, (d != ']') = false := by simp
    simp only [section?, takeWhile_append_stop hgap hblank, dropWhile_append_stop hgap hblank,
      takeWhile_append_stop hopen hclose, dropWhile_append_stop hopen hclose]

theorem closing_not_mem_section (h : section? text = some (body, size)) : ']' ∉ body := by
  obtain ⟨gap, behind, -, -, hbody, -⟩ := section?_eq_some.mp h
  exact hbody

/-- A text has a section where a section stands at the front of one of its ends. -/
theorem hasSection_iff : HasSection text ↔ ∃ rest, rest <:+ text ∧ section? rest ≠ none := by
  constructor
  · rintro ⟨before, gap, behind, rfl, hgap, hmem⟩
    obtain ⟨body, after, rfl, hbody⟩ := List.eq_append_cons_of_mem hmem
    refine ⟨_, List.suffix_append before _, ?_⟩
    rw [section?_eq_some.mpr ⟨gap, after, rfl, hgap, hbody, rfl⟩]
    exact Option.some_ne_none _
  · rintro ⟨rest, ⟨before, rfl⟩, hne⟩
    obtain ⟨⟨body, size⟩, hfound⟩ := Option.ne_none_iff_exists'.mp hne
    obtain ⟨gap, behind, rfl, hgap, -, -⟩ := section?_eq_some.mp hfound
    exact ⟨before, gap, body ++ ']' :: behind, rfl, hgap, by simp⟩

theorem HasSection.within (h : HasSection text) (before behind : List Char) :
    HasSection (before ++ (text ++ behind)) := by
  obtain ⟨front, gap, rest, rfl, hgap, hmem⟩ := h
  exact ⟨before ++ front, gap, rest ++ behind, by simp, hgap, List.mem_append_left behind hmem⟩

/-- No section is in front of the first one. -/
theorem not_hasSection_beforeFound (text : List Char) : ¬ HasSection (beforeFound (segments section? text)) := by
  obtain ⟨behind, -, -, hnone⟩ := beforeFound_spec section? text
  intro h
  obtain ⟨rest, hrest, hne⟩ := hasSection_iff.mp h
  obtain ⟨⟨body, size⟩, hfound⟩ := Option.ne_none_iff_exists'.mp hne
  obtain ⟨gap, after, rfl, hgap, hbody, rfl⟩ := section?_eq_some.mp hfound
  -- What stands behind the part in front has no say in a section that ends in it.
  have hstill := hnone _ (List.cons_ne_nil _ _) hrest
  rw [section?_eq_some.mpr ⟨gap, after ++ behind, by simp, hgap, hbody, rfl⟩] at hstill
  cases hstill

/-- The sections of a text are found wherever there is one. -/
theorem foundIn_eq_nil : foundIn (segments section? text) = [] ↔ ¬ HasSection text := by
  constructor
  · intro hnone
    obtain ⟨behind, htext, hwhole, -⟩ := beforeFound_spec section? text
    rw [hwhole hnone, List.append_nil] at htext
    rw [htext]
    exact not_hasSection_beforeFound text
  · intro h
    refine Decidable.byContradiction fun hne => h ?_
    obtain ⟨body, hbody⟩ := List.exists_mem_of_ne_nil _ hne
    obtain ⟨rest, size, hrest, hfound⟩ := exists_of_found hbody
    exact hasSection_iff.mpr ⟨rest, hrest, by rw [hfound]; exact Option.some_ne_none _⟩

theorem not_hasSection_trim (h : ¬ HasSection text) : ¬ HasSection (trim text) := by
  obtain ⟨before, behind, htext, -, -⟩ := exists_trim text
  intro htrim
  rw [htext] at h
  exact h (htrim.within before behind)

/-! ### Names -/

/-- No name that a section binds has a closing bracket in it. -/
theorem closing_not_mem_boundNames {name : List Char} (h : name ∈ boundNames text) : ']' ∉ name := by
  obtain ⟨body, hbody, hname⟩ := List.mem_flatMap.mp h
  obtain ⟨rest, size, -, hfound⟩ := exists_of_found hbody
  obtain ⟨piece, hpiece, rfl⟩ := List.mem_map.mp hname
  exact fun hmem => closing_not_mem_section hfound (mem_of_mem_pieces hpiece (mem_of_mem_trim hmem))

/-- What stands for a number is in braces: a name that is bound, or the number behind a word. -/
theorem namedFor_spec (bound : List (List Char)) (digits : List Char) :
    ∃ name, namedFor bound digits = inBraces name ∧ (name ∈ bound ∨ name = "placeholder".toList ++ digits) := by
  unfold namedFor
  split
  · next first name hname =>
    obtain ⟨index, -, hindex⟩ := Option.bind_eq_some_iff.mp hname
    exact ⟨_, rfl, .inl (List.mem_of_getElem? hindex)⟩
  · exact ⟨_, rfl, .inr rfl⟩

/-! ### Numbered placeholders -/

/-- A text in braces at the front of a text is taken with its braces. -/
theorem braces_spec {allowed : Char → Bool} (h : braces allowed text = some (body, size)) :
    size = (inBraces body).length ∧ inBraces body <+: text ∧ ∀ c ∈ body, allowed c = true := by
  obtain ⟨⟨inner, after⟩, hbraced, heq⟩ := Option.map_eq_some_iff.mp h
  cases heq
  obtain ⟨rfl, -, hallowed⟩ := braced?_spec hbraced
  exact ⟨by simp [inBraces], List.prefix_append .., hallowed⟩

/-- A text with its numbers put back in their braces is that text. -/
theorem fill_inBraces (allowed : Char → Bool) (text : List Char) :
    fill inBraces (segments (braces allowed) text) = text := by
  refine fill_segments (fun text body size h => ?_) text
  obtain ⟨hsize, htext, -⟩ := braces_spec h
  exact ⟨hsize, List.cons_ne_nil _ _, htext⟩

/-- A section of a text that is filled in stands in its plain characters, if what is filled in has no bar and no closing
    bracket and begins with a brace. -/
theorem hasSection_of_fill {segs : List (Segment (List Char))} {f g : List Char → List Char}
    (hfound : ∀ body, .found body ∈ segs → ∃ name, f body = inBraces name ∧ '|' ∉ name ∧ ']' ∉ name)
    (h : HasSection (fill f segs)) : HasSection (fill g segs) := by
  obtain ⟨before, gap, behind, htext, hgap, hmem⟩ := h
  have hbar : ∀ body, .found body ∈ segs → '|' ∉ f body := by
    intro body hbody
    obtain ⟨name, hname, hbar, -⟩ := hfound body hbody
    simp [hname, inBraces, hbar]
  obtain ⟨front, back, rfl, -, hback⟩ := fill_eq_append_cons hbar htext
  have hback' : fill f back = (gap ++ ['[']) ++ behind := by rw [hback]; simp
  -- Neither a blank nor the opening bracket begins anything that is filled in.
  have hlead : ∀ body, .found body ∈ back → ∃ d taken, f body = d :: taken ∧ d ∉ gap ++ ['['] := by
    intro body hbody
    obtain ⟨name, hname, -⟩ := hfound body (by simp [hbody])
    refine ⟨'\x7b', name ++ ['\x7d'], hname, fun hmem => ?_⟩
    rcases List.mem_append.mp hmem with hmem | hmem
    · exact absurd (hgap _ hmem) (by decide)
    · simp at hmem
  obtain ⟨last, rfl, hlast⟩ := fill_eq_append hlead hback'
  have hplain : .plain ']' ∈ last := by
    rw [← hlast] at hmem
    obtain ⟨segment, hsegment, hclose⟩ := List.mem_flatMap.mp hmem
    cases segment with
    | plain c => rwa [List.mem_singleton.mp hclose]
    | found body =>
      obtain ⟨name, hname, -, hclosing⟩ := hfound body (by simp [hsegment])
      simp [hname, inBraces, hclosing] at hclose
  have hgapText (gap : List Char) (rest : List (Segment (List Char))) :
      fill g (gap.map .plain ++ rest) = gap ++ fill g rest := by
    induction gap with
    | nil => rfl
    | cons d gap ih => exact congrArg (d :: ·) ih
  refine ⟨fill g front, gap, fill g last, ?_, hgap, mem_fill_of_plain hplain⟩
  rw [fill_append, fill_plain, hgapText, List.append_assoc, List.singleton_append]

/-- No section comes about when the numbers are named. -/
theorem not_hasSection_nameNumbered (hbound : ∀ name ∈ bound, '|' ∉ name ∧ ']' ∉ name) (h : ¬ HasSection text) :
    ¬ HasSection (nameNumbered bound text) := by
  intro hnamed
  refine h ?_
  rw [← fill_inBraces isDecimal text]
  refine hasSection_of_fill (fun digits hdigits => ?_) hnamed
  obtain ⟨rest, size, -, hfound⟩ := exists_of_found_from hdigits
  obtain ⟨-, -, hdecimal⟩ := braces_spec hfound
  have hnot {c : Char} (hc : isDecimal c = false) : c ∉ digits :=
    fun hmem => by simp [hdecimal c hmem] at hc
  have hmade : '|' ∉ "placeholder".toList ∧ ']' ∉ "placeholder".toList := by decide
  obtain ⟨name, hname, hmem | rfl⟩ := namedFor_spec bound digits
  · exact ⟨name, hname, hbound name hmem⟩
  · refine ⟨_, hname, ?_, ?_⟩
    · exact List.not_mem_append hmade.1 (hnot (by decide))
    · exact List.not_mem_append hmade.2 (hnot (by decide))

/-! ### The inline dialect -/

theorem canonicalize_of_not_hasSection {text : String} (h : ¬ HasSection text.toList) :
    canonicalize text = ⟨text, namesOf (inlineNames text.toList)⟩ := by
  simp only [canonicalize, foundIn_eq_nil.mpr h]

theorem canonicalize_of_found {text : String} (h : foundIn (segments section? text.toList) ≠ []) :
    canonicalize text = ⟨.ofList (nameNumbered (boundNames text.toList)
      (trim (beforeFound (segments section? text.toList)))), namesOf (boundNames text.toList)⟩ := by
  unfold canonicalize
  dsimp only
  split
  · next hnone => exact absurd hnone h
  · rfl

theorem canonicalize_of_hasSection {text : String} (h : HasSection text.toList) :
    (canonicalize text).normalized = .ofList
      (nameNumbered (boundNames text.toList) (trim (beforeFound (segments section? text.toList)))) := by
  rw [canonicalize_of_found fun hnone => foundIn_eq_nil.mp hnone h]

/-- A text that has been brought into the inline dialect has no section, if no name that it binds has a bar in it. -/
theorem not_hasSection_canonicalize {text : String} (h : ∀ name ∈ boundNames text.toList, '|' ∉ name) :
    ¬ HasSection (canonicalize text).normalized.toList := by
  by_cases hsection : HasSection text.toList
  · rw [canonicalize_of_hasSection hsection, String.toList_ofList]
    exact not_hasSection_nameNumbered (fun name hname => ⟨h name hname, closing_not_mem_boundNames hname⟩)
      (not_hasSection_trim (not_hasSection_beforeFound _))
  · rwa [canonicalize_of_not_hasSection hsection]

end GridFilter.Dialect
