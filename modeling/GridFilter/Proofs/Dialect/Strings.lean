import GridFilter.Proofs.Dialect.Sections
import GridFilter.Proofs.Token.Quoted
import GridFilter.Proofs.Token.Tiling

/-! Sections that stand inside strings. The sections of a text are looked for without regard to quotes, so that a string
    that holds one is cut off at its bar. Where all sections of a text stand inside strings, bringing it into the inline
    dialect leaves it as it is exactly if no string holds a section by itself. -/

namespace GridFilter.Dialect
open Text Lexeme

variable {text rest before behind body span : List Char} {tokens : List Token} {position size : Nat} {c : Char}

/-! ### Sections and quotes -/

theorem hasSection_cons (h : c ≠ '|') : HasSection (c :: text) ↔ HasSection text := by
  constructor
  · rintro ⟨before, gap, behind, htext, hgap, hmem⟩
    cases before with
    | nil => exact absurd (List.cons.inj htext).1 h
    | cons d before => exact ⟨before, gap, behind, (List.cons.inj htext).2, hgap, hmem⟩
  · intro hsection
    have hwithin := hsection.within [c] []
    rwa [List.append_nil] at hwithin

theorem hasSection_concat (h : c ≠ ']') : HasSection (text ++ [c]) ↔ HasSection text := by
  constructor
  · rintro ⟨before, gap, behind, htext, hgap, hmem⟩
    rcases List.eq_nil_or_concat behind with rfl | ⟨init, d, rfl⟩
    · cases hmem
    rw [List.concat_eq_append] at htext hmem
    have hsplit : text ++ [c] = before ++ '|' :: (gap ++ '[' :: init) ++ [d] := by rw [htext]; simp
    obtain ⟨rfl, hlast⟩ := List.append_inj' hsplit rfl
    obtain rfl : c = d := by simpa using hlast
    refine ⟨before, gap, init, rfl, hgap, ?_⟩
    rcases List.mem_append.mp hmem with hmem | hmem
    · exact hmem
    · exact absurd (List.mem_singleton.mp hmem).symm h
  · intro hsection
    have hwithin := hsection.within [] [c]
    rwa [List.nil_append] at hwithin

/-- A character that is no quote stands in a text with doubled quotes where it stands in the text. -/
theorem doubleQuotes_eq_append_cons (hc : c ≠ '\'') (h : Value.doubleQuotes text = before ++ c :: behind) :
    ∃ front back, text = front ++ c :: back ∧ before = Value.doubleQuotes front ∧ behind = Value.doubleQuotes back := by
  induction text generalizing before with
  | nil => simp [Value.doubleQuotes] at h
  | cons d text ih =>
    rw [doubleQuotes_cons] at h
    by_cases hd : d = '\''
    · subst hd
      have hdoubled : '\'' :: '\'' :: Value.doubleQuotes text = before ++ c :: behind := h
      rcases before with - | ⟨_, - | ⟨_, before⟩⟩
      · exact absurd (List.cons.inj hdoubled).1.symm hc
      · exact absurd (List.cons.inj (List.cons.inj hdoubled).2).1.symm hc
      · obtain ⟨rfl, hsecond⟩ := List.cons.inj hdoubled
        obtain ⟨rfl, htail⟩ := List.cons.inj hsecond
        obtain ⟨front, back, rfl, rfl, rfl⟩ := ih htail
        exact ⟨'\'' :: front, back, rfl, rfl, rfl⟩
    · rw [if_neg hd] at h
      cases before with
      | nil =>
        obtain ⟨rfl, rfl⟩ := List.cons.inj h
        exact ⟨[], text, rfl, rfl, rfl⟩
      | cons e before =>
        obtain ⟨rfl, htail⟩ := List.cons.inj h
        obtain ⟨front, back, rfl, rfl, rfl⟩ := ih htail
        exact ⟨d :: front, back, rfl, by rw [doubleQuotes_cons, if_neg hd]; rfl, rfl⟩

theorem hasSection_doubleQuotes : HasSection (Value.doubleQuotes text) ↔ HasSection text := by
  constructor
  · rintro ⟨before, gap, behind, htext, hgap, hmem⟩
    obtain ⟨front, back, rfl, -, hback⟩ := doubleQuotes_eq_append_cons (by decide) htext
    obtain ⟨gap, behind, rfl, rfl, rfl⟩ := doubleQuotes_eq_append_cons (by decide) hback.symm
    exact ⟨front, gap, behind, rfl, fun c hc => hgap c (mem_doubleQuotes.mpr hc), mem_doubleQuotes.mp hmem⟩
  · rintro ⟨before, gap, behind, rfl, hgap, hmem⟩
    refine ⟨Value.doubleQuotes before, Value.doubleQuotes gap, Value.doubleQuotes behind, ?_,
      fun c hc => hgap c (mem_doubleQuotes.mp hc), mem_doubleQuotes.mpr hmem⟩
    rw [doubleQuotes_append, doubleQuotes_cons, doubleQuotes_append, doubleQuotes_cons]
    rfl

/-- A string in quotes has a section where it has one by itself. -/
theorem hasSection_quotes : HasSection (quotes text) ↔ HasSection text := by
  rw [quotes, hasSection_cons (by decide), hasSection_concat (by decide), hasSection_doubleQuotes]

/-! ### The places of sections -/

/-- Where the sections of a text start and stop, as byte offsets. The first `skip` characters belong to a section already
    taken. -/
def sectionPlaces : (position skip : Nat) → List Char → List (Nat × Nat)
  | _, _, [] => []
  | position, skip + 1, c :: rest => sectionPlaces (position + c.utf8Size) skip rest
  | position, 0, c :: rest =>
    match section? (c :: rest) with
    | some (_, size) => (position, position + byteSize ((c :: rest).take size)) ::
        sectionPlaces (position + c.utf8Size) (size - 1) rest
    | none => sectionPlaces (position + c.utf8Size) 0 rest

/-- A place lies inside a string, from its first quote to its last. -/
def InString (tokens : List Token) (place : Nat × Nat) : Prop :=
  ∃ token ∈ tokens, token.kind = .string ∧ token.position ≤ place.1 ∧
    place.2 ≤ token.position + byteSize (quotes token.text.toList)

instance (tokens : List Token) (place : Nat × Nat) : Decidable (InString tokens place) := by
  unfold InString
  infer_instance

/-- The first section of a text stands behind the part in front of it. -/
theorem exists_first_section (h : foundIn (segments section? text) ≠ []) : ∃ body size behind,
    text = beforeFound (segments section? text) ++ behind ∧ section? behind = some (body, size) ∧
      (position + byteSize (beforeFound (segments section? text)),
        position + byteSize (beforeFound (segments section? text)) + byteSize (behind.take size)) ∈
          sectionPlaces position 0 text := by
  induction text generalizing position with
  | nil => exact absurd rfl h
  | cons c text ih =>
    rw [segments, segmentsFrom] at h ⊢
    rw [sectionPlaces]
    cases hfound : section? (c :: text) with
    | some found =>
      obtain ⟨body, size⟩ := found
      exact ⟨body, size, c :: text, rfl, hfound, List.mem_cons_self⟩
    | none =>
      rw [hfound] at h
      obtain ⟨body, size, behind, htext, hsection, hplace⟩ := @ih (position + c.utf8Size) h
      refine ⟨body, size, behind, congrArg (c :: ·) htext, hsection, ?_⟩
      rw [Nat.add_assoc] at hplace
      exact hplace

/-- The characters of a section are a text that has a section. -/
theorem hasSection_of_section? (h : section? text = some (body, size)) :
    ∃ taken after, text = '|' :: taken ++ after ∧ text.take size = '|' :: taken ∧ HasSection ('|' :: taken) := by
  obtain ⟨gap, after, rfl, hgap, -, rfl⟩ := section?_eq_some.mp h
  have hlength : ('|' :: (gap ++ '[' :: (body ++ [']']))).length = gap.length + body.length + 3 := by simp; omega
  have htext : '|' :: (gap ++ '[' :: (body ++ ']' :: after)) = '|' :: (gap ++ '[' :: (body ++ [']'])) ++ after := by simp
  refine ⟨gap ++ '[' :: (body ++ [']']), after, htext, ?_, [], gap, body ++ [']'], rfl, hgap, by simp⟩
  rw [htext, ← hlength, List.take_left]

/-! ### Texts that stay as they are -/

theorem count_fill_le {segs : List (Segment (List Char))} {f g : List Char → List Char}
    (h : ∀ body, .found body ∈ segs → c ∉ f body) : (fill f segs).count c ≤ (fill g segs).count c := by
  induction segs with
  | nil => exact Nat.le_refl _
  | cons segment segs ih =>
    have hsegs := ih fun body hbody => h body (List.mem_cons_of_mem _ hbody)
    cases segment with
    | plain d => simpa [List.count_cons] using hsegs
    | found body =>
      have hnone : (f body).count c = 0 := List.count_eq_zero.mpr (h body List.mem_cons_self)
      rw [fill_found, fill_found, List.count_append, List.count_append, hnone]
      omega

/-- Naming the numbers of a text adds no closing bracket. -/
theorem count_nameNumbered_le {bound : List (List Char)} (hbound : ∀ name ∈ bound, ']' ∉ name) (text : List Char) :
    (nameNumbered bound text).count ']' ≤ text.count ']' := by
  have hfilled := fill_inBraces isDecimal text
  rw [← congrArg (List.count ']') hfilled]
  refine count_fill_le fun digits hdigits => ?_
  obtain ⟨rest, size, -, hfound⟩ := exists_of_found_from hdigits
  obtain ⟨-, -, hdecimal⟩ := braces_spec hfound
  have hclosing : ']' ∉ digits := fun hmem => absurd (hdecimal _ hmem) (by decide)
  obtain ⟨name, hname, hmem | rfl⟩ := namedFor_spec bound digits
  · simp [hname, inBraces, hbound name hmem]
  · simp [hname, inBraces, hclosing]

/-- Bringing a text into the inline dialect leaves it as it is exactly if it has no section: with the first section a
    closing bracket is lost, and none is added. -/
theorem normalized_eq_self {text : String} : (canonicalize text).normalized = text ↔ ¬HasSection text.toList := by
  refine ⟨fun hself hsection => ?_, fun h => by rw [canonicalize_of_not_hasSection h]⟩
  rw [canonicalize_of_hasSection hsection] at hself
  have hfound : foundIn (segments section? text.toList) ≠ [] := fun hnil => foundIn_eq_nil.mp hnil hsection
  obtain ⟨body, size, behind, htext, hbehind, -⟩ := @exists_first_section _ 0 hfound
  obtain ⟨gap, after, rfl, -⟩ := section?_eq_some.mp hbehind
  generalize beforeFound (segments section? text.toList) = kept at hself htext
  obtain ⟨lead, tail, hkept, -, -⟩ := exists_trim kept
  have htotal := congrArg (List.count ']') htext
  have hbound : ∀ name ∈ boundNames text.toList, ']' ∉ name := fun name => closing_not_mem_boundNames
  have hnamed := count_nameNumbered_le hbound (trim kept)
  have hsame := congrArg (fun text => text.toList.count ']') hself
  have hparts := congrArg (List.count ']') hkept
  have hpos : 0 < ('|' :: (gap ++ '[' :: (body ++ ']' :: after))).count ']' := List.count_pos_iff.mpr (by simp)
  simp only [String.toList_ofList] at hsame
  rw [List.count_append] at htotal
  rw [List.count_append, List.count_append] at hparts
  omega

/-! ### Sections inside strings -/

theorem append_of_byteSize_le {front : List Char} (h : before ++ behind = front ++ rest)
    (hle : byteSize before ≤ byteSize front) : ∃ middle, front = before ++ middle ∧ behind = middle ++ rest := by
  rcases List.append_eq_append_iff.mp h with ⟨middle, hfront, hbehind⟩ | ⟨middle, rfl, hrest⟩
  · exact ⟨middle, hfront, hbehind⟩
  · rw [Token.byteSize_append] at hle
    cases middle with
    | nil => exact ⟨[], by simp, by simpa using hrest.symm⟩
    | cons c middle =>
      have hpos := Token.byteSize_pos (List.cons_ne_nil c middle)
      omega

theorem exists_string_span (h : Token.Lexes 0 text tokens) : ∀ token ∈ tokens, token.kind = .string →
    ∃ front rest, text = front ++ (quotes token.text.toList ++ rest) ∧ token.position = byteSize front := by
  intro token htoken hstring
  obtain ⟨front, span, rest, rfl, hposition, halone⟩ := h.exists_span token htoken
  obtain rfl : span = quotes token.text.toList := halone.span_eq_quotes hstring
  exact ⟨front, rest, rfl, hposition.trans (Nat.zero_add _)⟩

/-- A section whose place lies inside a string is a section of that string. -/
theorem hasSection_of_inString {taken after : List Char} (h : Token.Lexes 0 text tokens)
    (htext : text = before ++ (taken ++ after)) (htaken : HasSection taken)
    (hinside : InString tokens (byteSize before, byteSize before + byteSize taken)) :
    ∃ token ∈ tokens, token.kind = .string ∧ HasSection token.text.toList := by
  obtain ⟨token, htoken, hstring, hstart, hstop⟩ := hinside
  obtain ⟨front, rest, hfront, hposition⟩ := exists_string_span h token htoken hstring
  dsimp only at hstart hstop
  rw [hposition] at hstart hstop
  obtain ⟨lead, rfl, hlead⟩ := append_of_byteSize_le (hfront.symm.trans htext) hstart
  rw [Token.byteSize_append] at hstop
  have hinner : byteSize (lead ++ taken) ≤ byteSize (quotes token.text.toList) := by
    rw [Token.byteSize_append]
    omega
  rw [← List.append_assoc] at hlead
  obtain ⟨tail, hspan, -⟩ := append_of_byteSize_le hlead.symm hinner
  have hwithin := htaken.within lead tail
  rw [← List.append_assoc, ← hspan] at hwithin
  exact ⟨token, htoken, hstring, hasSection_quotes.mp hwithin⟩

/-- A text with tokens, whose sections all lie inside strings, stays as it is when it is brought into the inline dialect,
    exactly if no string has a section by itself. What else is left of it ends at a bar inside a string. -/
theorem normalized_of_inString {text : String} {tokens : List Token} (htokens : Token.ofText text = .ok tokens)
    (hinside : ∀ place ∈ sectionPlaces 0 0 text.toList, InString tokens place) :
    ((canonicalize text).normalized = text ↔
      ∀ token ∈ tokens, token.kind = .string → ¬HasSection token.text.toList) ∧
    ((canonicalize text).normalized ≠ text → ∃ before behind, text.toList = before ++ '|' :: behind ∧
      InString tokens (byteSize before, byteSize before + 1) ∧
      (canonicalize text).normalized = .ofList (nameNumbered (boundNames text.toList) (trim before))) := by
  have hlexes := Token.ofChars_eq_ok.mp htokens
  have hfirst (hsection : HasSection text.toList) : ∃ taken after,
      text.toList = beforeFound (segments section? text.toList) ++ ('|' :: taken ++ after) ∧ HasSection ('|' :: taken) ∧
        InString tokens (byteSize (beforeFound (segments section? text.toList)),
          byteSize (beforeFound (segments section? text.toList)) + byteSize ('|' :: taken)) := by
    obtain ⟨body, size, behind, htext, hfound, hplace⟩ :=
      @exists_first_section _ 0 fun hnil => foundIn_eq_nil.mp hnil hsection
    obtain ⟨taken, after, rfl, htake, htaken⟩ := hasSection_of_section? hfound
    rw [htake, Nat.zero_add] at hplace
    exact ⟨taken, after, htext, htaken, hinside _ hplace⟩
  refine ⟨normalized_eq_self.trans ⟨fun hnone token htoken hstring hsection => ?_, fun hnone hsection => ?_⟩,
    fun hchanged => ?_⟩
  · obtain ⟨front, rest, htext, -⟩ := exists_string_span hlexes token htoken hstring
    rw [htext] at hnone
    exact hnone ((hasSection_quotes.mpr hsection).within front rest)
  · obtain ⟨taken, after, htext, htaken, hplace⟩ := hfirst hsection
    obtain ⟨token, htoken, hstring, hown⟩ := hasSection_of_inString hlexes htext htaken hplace
    exact hnone token htoken hstring hown
  · have hsection : HasSection text.toList := not_not.mp (mt normalized_eq_self.mpr hchanged)
    obtain ⟨taken, after, htext, -, token, htoken, hstring, hstart, hstop⟩ := hfirst hsection
    refine ⟨_, taken ++ after, htext, ⟨token, htoken, hstring, hstart, Nat.le_trans ?_ hstop⟩,
      canonicalize_of_hasSection hsection⟩
    rw [byteSize, ← Nat.add_assoc]
    exact Nat.le_add_right _ _

/-- A text with a numbered placeholder, a string that holds a section, and a string that is a bar. -/
def barred : String := "A = \x7b0\x7d AND B = 'É''s | [x, y]' OR C = '|'"

/-- Its tokens. -/
def barredTokens : List Token := [⟨.identifier, "A", 0⟩, ⟨.operator, "=", 2⟩, ⟨.placeholder, "0", 4⟩,
  ⟨.operator, "AND", 8⟩, ⟨.identifier, "B", 12⟩, ⟨.operator, "=", 14⟩, ⟨.string, "É's | [x, y]", 16⟩,
  ⟨.operator, "OR", 33⟩, ⟨.identifier, "C", 36⟩, ⟨.operator, "=", 38⟩, ⟨.string, "|", 40⟩]

theorem normalized_of_inString_barred : Token.ofText barred = .ok barredTokens ∧
    (∀ place ∈ sectionPlaces 0 0 barred.toList, InString barredTokens place) ∧
    (canonicalize barred).normalized = "A = \x7bx\x7d AND B = 'É''s" ∧
    ∃ before behind, barred.toList = before ++ '|' :: behind ∧
      InString barredTokens (byteSize before, byteSize before + 1) ∧
      (canonicalize barred).normalized = .ofList (nameNumbered (boundNames barred.toList) (trim before)) := by
  have htokens : Token.ofText barred = .ok barredTokens := by rfl
  have hinside : ∀ place ∈ sectionPlaces 0 0 barred.toList, InString barredTokens place := by decide +kernel
  have hnormalized : (canonicalize barred).normalized = "A = \x7bx\x7d AND B = 'É''s" := by decide +kernel
  have hchanged : (canonicalize barred).normalized ≠ barred := by
    rw [hnormalized]
    decide
  exact ⟨htokens, hinside, hnormalized, (normalized_of_inString htokens hinside).2 hchanged⟩

/-- The filter `Name = 'a | [b]'` is cut off inside its string. -/
theorem normalized_cut_in_string :
    Token.ofText "Name = 'a | [b]'" = .ok [⟨.identifier, "Name", 0⟩, ⟨.operator, "=", 5⟩, ⟨.string, "a | [b]", 7⟩] ∧
      (∀ place ∈ sectionPlaces 0 0 "Name = 'a | [b]'".toList,
        InString [⟨.identifier, "Name", 0⟩, ⟨.operator, "=", 5⟩, ⟨.string, "a | [b]", 7⟩] place) ∧
      (canonicalize "Name = 'a | [b]'").normalized = "Name = 'a" ∧
      (canonicalize "Name = 'a | [b]'").normalized ≠ "Name = 'a | [b]'" := by
  have hnormalized : (canonicalize "Name = 'a | [b]'").normalized = "Name = 'a" := by decide +kernel
  refine ⟨by rfl, by decide +kernel, hnormalized, ?_⟩
  rw [hnormalized]
  decide

end GridFilter.Dialect
