import GridFilter.Proofs.Token.Words
import Mathlib.Data.List.TakeWhile

/-! Trimmed texts, and the pieces of a text between separators. A text that is written out of pieces with a separator
    between every two of them has these pieces again; so a list of items with commas between them has these items,
    whatever blanks stand around them. -/

namespace GridFilter.Text
open Lexeme

variable {text rest before behind : List Char} {c : Char} {separates : Char → Bool}

/-! ### Trimming -/

/-- A text is its trimmed text with blanks on either side. -/
theorem exists_trim (text : List Char) : ∃ before behind, text = before ++ (trim text ++ behind) ∧
    (∀ c ∈ before, isBlank c = true) ∧ ∀ c ∈ behind, isBlank c = true := by
  refine ⟨text.takeWhile isBlank, ((trimStart text).reverse.takeWhile isBlank).reverse, ?_,
    fun c => mem_takeWhile, fun c hc => mem_takeWhile (List.mem_reverse.mp hc)⟩
  rw [trim, trimEnd, ← List.reverse_append, List.takeWhile_append_dropWhile, List.reverse_reverse,
    trimStart, List.takeWhile_append_dropWhile]

theorem mem_of_mem_trim {c : Char} (h : c ∈ trim text) : c ∈ text := by
  obtain ⟨before, behind, htext, -, -⟩ := exists_trim text
  rw [htext]
  exact List.mem_append_right _ (List.mem_append_left _ h)

theorem not_mem_blanks {blanks : List Char} (hc : isBlank c = false) (h : ∀ d ∈ blanks, isBlank d = true) :
    c ∉ blanks := by
  intro hmem
  rw [h c hmem] at hc
  cases hc

/-- A character that is not blank stands in a trimmed text as often as in the text. -/
theorem count_trim (hc : isBlank c = false) (text : List Char) : (trim text).count c = text.count c := by
  obtain ⟨before, behind, htext, hbefore, hbehind⟩ := exists_trim text
  have hcount := congrArg (List.count c) htext
  rw [List.count_append, List.count_append, List.count_eq_zero.mpr (not_mem_blanks hc hbefore),
    List.count_eq_zero.mpr (not_mem_blanks hc hbehind)] at hcount
  omega

theorem trimStart_of_head {c : Char} (h : c ∈ (trimStart text).head?) : isBlank c = false :=
  head?_dropWhile h

theorem trimStart_eq_self (h : ∀ c ∈ text.head?, isBlank c = false) : trimStart text = text := by
  cases text with
  | nil => rfl
  | cons c text => exact List.dropWhile_cons_of_neg (by simp [h c rfl])

theorem trimEnd_trimEnd : trimEnd (trimEnd text) = trimEnd text := by
  have hend : trimStart (trimStart text.reverse) = trimStart text.reverse :=
    trimStart_eq_self fun _ hc => trimStart_of_head hc
  unfold trimEnd
  rw [List.reverse_reverse]
  exact congrArg List.reverse hend

/-- No blanks come to stand in front where blanks behind are left out. -/
theorem head_trimEnd (h : ∀ c ∈ text.head?, isBlank c = false) : ∀ c ∈ (trimEnd text).head?, isBlank c = false := by
  cases text with
  | nil => simp [trimEnd]
  | cons d text =>
    have hd : isBlank d = false := h d rfl
    unfold trimEnd
    rw [List.reverse_cons, List.dropWhile_append]
    split
    · simp [hd]
    · simp [hd]

theorem trim_trim : trim (trim text) = trim text := by
  have hhead : ∀ c ∈ (trim text).head?, isBlank c = false := head_trimEnd fun _ hc => trimStart_of_head hc
  have hstart : trimStart (trim text) = trim text := trimStart_eq_self hhead
  rw [trim, hstart]
  exact trimEnd_trimEnd

theorem trimEnd_append (h : ∀ c ∈ behind, isBlank c = true) : trimEnd (text ++ behind) = trimEnd text := by
  unfold trimEnd
  rw [List.reverse_append, List.dropWhile_append_of_pos fun c hc => h c (List.mem_reverse.mp hc)]

/-- Blanks on either side are left out. -/
theorem trim_between (hbefore : ∀ c ∈ before, isBlank c = true) (hbehind : ∀ c ∈ behind, isBlank c = true) :
    trim (before ++ (text ++ behind)) = trim text := by
  have hstart : trimStart (before ++ (text ++ behind)) = trimStart (text ++ behind) :=
    List.dropWhile_append_of_pos hbefore
  rw [trim, hstart, trimStart, List.dropWhile_append]
  split
  · next hnil =>
    have hdropped : behind.dropWhile isBlank = [] := List.dropWhile_eq_nil_iff.mpr hbehind
    rw [hdropped, trim, trimStart, List.isEmpty_iff.mp hnil]
  · exact trimEnd_append hbehind

/-! ### Pieces -/

theorem pieces_ne_nil (separates : Char → Bool) (text : List Char) : pieces separates text ≠ [] := by
  cases text with
  | nil => simp [pieces]
  | cons c text =>
    rw [pieces]
    split
    · simp
    · split <;> simp

theorem pieces_separated (h : separates c = true) (text rest : List Char) :
    pieces separates (text ++ c :: rest) = pieces separates text ++ pieces separates rest := by
  induction text with
  | nil => simp [pieces, h]
  | cons d text ih =>
    simp only [List.cons_append, pieces, ih]
    split
    · rfl
    · obtain ⟨first, others, hpieces⟩ := List.exists_cons_of_ne_nil (pieces_ne_nil separates text)
      rw [hpieces]
      rfl

theorem pieces_of_none (h : ∀ c ∈ text, separates c = false) :
    pieces separates text = [text] := by
  induction text with
  | nil => rfl
  | cons c text ih =>
    rw [List.forall_mem_cons] at h
    simp [pieces, h.1, ih h.2]

theorem mem_of_mem_pieces {piece : List Char} (h : piece ∈ pieces separates text)
    (hc : c ∈ piece) : c ∈ text := by
  induction text generalizing piece with
  | nil => simp_all [pieces]
  | cons d text ih =>
    rw [pieces] at h
    split at h
    · rcases List.mem_cons.mp h with rfl | h
      · cases hc
      · exact List.mem_cons_of_mem d (ih h hc)
    · split at h
      · simp_all
      · next first others hpieces =>
        rcases List.mem_cons.mp h with rfl | h
        · rcases List.mem_cons.mp hc with rfl | hc
          · exact List.mem_cons_self
          · exact List.mem_cons_of_mem d (ih (by simp [hpieces]) hc)
        · exact List.mem_cons_of_mem d (ih (by simp [hpieces, h]) hc)

/-- Pieces without separators in them, with a separator between every two, are the pieces of the whole. -/
theorem pieces_intercalate {parts : List (List Char)} (hne : parts ≠ []) (hc : separates c = true)
    (hparts : ∀ part ∈ parts, ∀ d ∈ part, separates d = false) : pieces separates ([c].intercalate parts) = parts := by
  induction parts with
  | nil => exact absurd rfl hne
  | cons first rest ih =>
    obtain ⟨hfirst, hrest⟩ := List.forall_mem_cons.mp hparts
    cases rest with
    | nil => rw [List.intercalate_singleton, pieces_of_none hfirst]
    | cons second others =>
      rw [List.intercalate_cons_cons, List.append_assoc, List.singleton_append, pieces_separated hc,
        pieces_of_none hfirst, ih (List.cons_ne_nil _ _) hrest]
      rfl

theorem separates_of_mem_pieces {piece : List Char} (h : piece ∈ pieces separates text) (hc : c ∈ piece) :
    separates c = false := by
  induction text generalizing piece with
  | nil =>
    rw [pieces, List.mem_singleton] at h
    subst h
    cases hc
  | cons d text ih =>
    rw [pieces] at h
    split at h
    · rcases List.mem_cons.mp h with rfl | h
      · cases hc
      · exact ih h hc
    · next hd =>
      obtain ⟨first, others, hpieces⟩ := List.exists_cons_of_ne_nil (pieces_ne_nil separates text)
      rw [hpieces] at h ih
      rcases List.mem_cons.mp h with rfl | h
      · rcases List.mem_cons.mp hc with rfl | hc
        · exact Bool.eq_false_iff.mpr hd
        · exact ih List.mem_cons_self hc
      · exact ih (List.mem_cons_of_mem _ h) hc

/-- The pieces of a text, with a separator between every two, make up the text. -/
theorem intercalate_pieces (c : Char) (text : List Char) : [c].intercalate (pieces (· == c) text) = text := by
  induction text with
  | nil => rfl
  | cons d text ih =>
    obtain ⟨first, others, hpieces⟩ := List.exists_cons_of_ne_nil (pieces_ne_nil (· == c) text)
    rw [hpieces] at ih
    rw [pieces, hpieces]
    split
    · next hd =>
      rw [List.intercalate_cons_cons, ih, eq_of_beq hd]
      rfl
    · cases others with
      | nil => rw [← ih, List.intercalate_singleton, List.intercalate_singleton]
      | cons second others =>
        rw [← ih, List.intercalate_cons_cons, List.intercalate_cons_cons]
        rfl

/-! ### Items of a list -/

/-- An item that can stand between commas. -/
structure IsItem (item : String) : Prop where
  ne_nil : item ≠ ""
  trimmed : trimmed item = item
  comma : ',' ∉ item.toList

/-- The pieces of a list of items: the items in their order, each with any blanks around it, and pieces of blanks alone
    in any places. -/
inductive Lists : List String → List (List Char) → Prop where
  | nil : Lists [] []
  | blank {items : List String} {piece : List Char} {parts : List (List Char)} : (∀ c ∈ piece, isBlank c = true) →
      Lists items parts → Lists items (piece :: parts)
  | item {items : List String} {item : String} {before behind : List Char} {parts : List (List Char)} :
      (∀ c ∈ before, isBlank c = true) → (∀ c ∈ behind, isBlank c = true) → Lists items parts →
      Lists (item :: items) ((before ++ (item.toList ++ behind)) :: parts)

theorem Lists.length_le {items : List String} {parts : List (List Char)} (h : Lists items parts) :
    items.length ≤ parts.length := by
  induction h with
  | nil => exact Nat.le_refl 0
  | blank _ _ ih => exact Nat.le_succ_of_le ih
  | item _ _ _ ih => exact Nat.succ_le_succ ih

theorem comma_not_mem_blanks (h : ∀ c ∈ text, isBlank c = true) : ∀ c ∈ text, (c == ',') = false := by
  intro c hc
  refine beq_eq_false_iff_ne.mpr ?_
  rintro rfl
  exact not_mem_blanks (by decide) h hc

/-- No piece has a comma in it. -/
theorem Lists.comma {items : List String} {parts : List (List Char)} (h : Lists items parts)
    (hitems : ∀ item ∈ items, IsItem item) : ∀ part ∈ parts, ∀ c ∈ part, (c == ',') = false := by
  induction h with
  | nil => simp
  | blank hpiece _ ih => exact List.forall_mem_cons.mpr ⟨comma_not_mem_blanks hpiece, ih hitems⟩
  | item hbefore hbehind _ ih =>
    obtain ⟨hitem, hrest⟩ := List.forall_mem_cons.mp hitems
    refine List.forall_mem_cons.mpr ⟨fun c hc => ?_, ih hrest⟩
    rcases List.mem_append.mp hc with hc | hc
    · exact comma_not_mem_blanks hbefore c hc
    rcases List.mem_append.mp hc with hc | hc
    · exact beq_eq_false_iff_ne.mpr fun heq => hitem.comma (heq ▸ hc)
    · exact comma_not_mem_blanks hbehind c hc

/-- Trimmed, and without those that are blank, the pieces are the items. -/
theorem Lists.trimmed {items : List String} {parts : List (List Char)} (h : Lists items parts)
    (hitems : ∀ item ∈ items, IsItem item) : ((parts.map trim).filter (· ≠ [])).map String.ofList = items := by
  induction h with
  | nil => rfl
  | @blank items piece parts hpiece _ ih =>
    have htrim : trim piece = trim [] := by simpa using @trim_between [] piece [] hpiece (by simp)
    rw [List.map_cons, htrim]
    exact ih hitems
  | @item items item before behind parts hbefore hbehind _ ih =>
    obtain ⟨hitem, hrest⟩ := List.forall_mem_cons.mp hitems
    have htrim : trim item.toList = item.toList := by
      have htrimmed := congrArg String.toList hitem.trimmed
      rwa [Text.trimmed, String.toList_ofList] at htrimmed
    have hne : item.toList ≠ [] := fun hnil => hitem.ne_nil (String.toList_eq_nil_iff.mp hnil)
    rw [List.map_cons, trim_between hbefore hbehind, htrim, List.filter_cons_of_pos (by simpa using hne), List.map_cons,
      String.ofList_toList, ih hrest]

/-- A text that lists items has these items. -/
theorem commaItems_intercalate {items : List String} {parts : List (List Char)} (h : Lists items parts)
    (hne : parts ≠ []) (hitems : ∀ item ∈ items, IsItem item) :
    commaItems (.ofList ([','].intercalate parts)) = items := by
  rw [commaItems, String.toList_ofList, commaPieces, pieces_intercalate hne (by rfl) (h.comma hitems)]
  exact h.trimmed hitems

end GridFilter.Text
