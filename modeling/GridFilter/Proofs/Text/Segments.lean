import GridFilter.Text.Pattern

/-! The segments of a text. What a match found stands in the text where the match begins; in front of the first match no
    match begins. Matches that take what they show can be put back, and a text filled in anew keeps its plain
    characters. -/

namespace GridFilter.Text

variable {α : Type} {pattern : Pattern α} {f g : α → List Char} {segs : List (Segment α)} {c : Char}
  {text before after : List Char}

/-! ### Matches -/

theorem mem_foundIn {a : α} : a ∈ foundIn segs ↔ .found a ∈ segs := by
  induction segs with
  | nil => simp [foundIn]
  | cons segment rest ih => cases segment <;> simp [foundIn, ih]

theorem foundIn_plains (front : List Char) (segs : List (Segment α)) :
    foundIn (front.map .plain ++ segs) = foundIn segs := by
  induction front with
  | nil => rfl
  | cons c front ih => exact ih

theorem beforeFound_plains (front : List Char) (segs : List (Segment α)) :
    beforeFound (front.map .plain ++ segs) = front ++ beforeFound segs := by
  induction front with
  | nil => rfl
  | cons c front ih => exact congrArg (c :: ·) ih

theorem beforeFound_found (a : α) (segs : List (Segment α)) : beforeFound (.found a :: segs) = [] := rfl

theorem exists_of_found_from {skip : Nat} {a : α} (h : .found a ∈ segmentsFrom pattern skip text) :
    ∃ rest size, rest <:+ text ∧ pattern rest = some (a, size) := by
  induction text generalizing skip with
  | nil => cases h
  | cons c text ih =>
    have hlater {skip : Nat} (h : .found a ∈ segmentsFrom pattern skip text) :
        ∃ rest size, rest <:+ c :: text ∧ pattern rest = some (a, size) := by
      obtain ⟨rest, size, hrest, hfound⟩ := ih h
      exact ⟨rest, size, hrest.trans (List.suffix_cons c text), hfound⟩
    cases skip with
    | succ skip => exact hlater h
    | zero =>
      rw [segmentsFrom] at h
      split at h
      · next first size hfirst =>
        rcases List.mem_cons.mp h with heq | h
        · cases heq
          exact ⟨_, size, List.suffix_rfl, hfirst⟩
        · exact hlater h
      · rcases List.mem_cons.mp h with heq | h
        · cases heq
        · exact hlater h

/-- What is found in a text, the pattern finds at some place of it. -/
theorem exists_of_found {a : α} (h : a ∈ foundIn (segments pattern text)) :
    ∃ rest size, rest <:+ text ∧ pattern rest = some (a, size) :=
  exists_of_found_from (mem_foundIn.mp h)

/-- No match begins in front of the first one, and without a match that is the whole text. -/
theorem beforeFound_spec (pattern : Pattern α) (text : List Char) :
    ∃ behind, text = beforeFound (segments pattern text) ++ behind ∧
      (foundIn (segments pattern text) = [] → behind = []) ∧
      ∀ back, back ≠ [] → back <:+ beforeFound (segments pattern text) → pattern (back ++ behind) = none := by
  induction text with
  | nil => exact ⟨[], rfl, fun _ => rfl, fun back hne hback => absurd (List.suffix_nil.mp hback) hne⟩
  | cons c text ih =>
    rw [segments, segmentsFrom]
    split
    · exact ⟨c :: text, rfl, nofun, fun back hne hback => absurd (List.suffix_nil.mp hback) hne⟩
    · next hnone =>
      obtain ⟨behind, htext, hwhole, hbefore⟩ := ih
      refine ⟨behind, congrArg (c :: ·) htext, hwhole, fun back hne hback => ?_⟩
      rcases List.suffix_cons_iff.mp hback with rfl | hback
      · exact (congrArg (fun text => pattern (c :: text)) htext.symm).trans hnone
      · exact hbefore back hne hback

/-! ### Filling in -/

@[simp] theorem fill_nil : fill f [] = [] := rfl

@[simp] theorem fill_plain : fill f (.plain c :: segs) = c :: fill f segs := rfl

@[simp] theorem fill_found {a : α} : fill f (.found a :: segs) = f a ++ fill f segs := rfl

theorem fill_append (segs others : List (Segment α)) : fill f (segs ++ others) = fill f segs ++ fill f others :=
  List.flatMap_append

theorem mem_fill_of_plain (h : .plain c ∈ segs) : c ∈ fill f segs :=
  List.mem_flatMap.mpr ⟨_, h, List.mem_singleton_self c⟩

/-- A text is filled in again with what its matches took. -/
theorem fill_segmentsFrom
    (h : ∀ text a size, pattern text = some (a, size) → size = (f a).length ∧ f a ≠ [] ∧ f a <+: text) (skip : Nat)
    (text : List Char) : fill f (segmentsFrom pattern skip text) = text.drop skip := by
  induction text generalizing skip with
  | nil => cases skip <;> rfl
  | cons c text ih =>
    cases skip with
    | succ skip => exact ih skip
    | zero =>
      rw [segmentsFrom]
      split
      · next a size hfound =>
        obtain ⟨rfl, hne, after, htext⟩ := h _ _ _ hfound
        obtain ⟨d, taken, ha⟩ := List.exists_cons_of_ne_nil hne
        rw [ha] at htext ⊢
        cases htext
        rw [fill_found, ih, ha]
        simp
      · rw [fill_plain, ih]
        rfl

theorem fill_segments
    (h : ∀ text a size, pattern text = some (a, size) → size = (f a).length ∧ f a ≠ [] ∧ f a <+: text)
    (text : List Char) : fill f (segments pattern text) = text :=
  fill_segmentsFrom h 0 text

/-- A character that is nowhere filled in is a plain one. -/
theorem fill_eq_append_cons (hfound : ∀ a, .found a ∈ segs → c ∉ f a) (h : fill f segs = before ++ c :: after) :
    ∃ front back, segs = front ++ .plain c :: back ∧ fill f front = before ∧ fill f back = after := by
  induction segs generalizing before with
  | nil => simp at h
  | cons segment segs ih =>
    have hfound' : ∀ a, .found a ∈ segs → c ∉ f a := fun a ha => hfound a (List.mem_cons_of_mem _ ha)
    cases segment with
    | plain d =>
      rw [fill_plain] at h
      cases before with
      | nil =>
        obtain ⟨rfl, htail⟩ := List.cons.inj h
        exact ⟨[], segs, rfl, rfl, htail⟩
      | cons e before =>
        obtain ⟨rfl, htail⟩ := List.cons.inj h
        obtain ⟨front, back, rfl, hfront, hback⟩ := ih hfound' htail
        exact ⟨.plain d :: front, back, rfl, congrArg (d :: ·) hfront, hback⟩
    | found a =>
      rw [fill_found] at h
      rcases List.append_eq_append_iff.mp h with ⟨more, hbefore, htail⟩ | ⟨more, ha, htail⟩
      · obtain ⟨front, back, rfl, hfront, hback⟩ := ih hfound' htail
        exact ⟨.found a :: front, back, rfl, by rw [fill_found, hfront, hbefore], hback⟩
      · cases more with
        | nil =>
          obtain ⟨front, back, rfl, hfront, hback⟩ := @ih [] hfound' htail.symm
          rw [List.append_nil] at ha
          exact ⟨.found a :: front, back, rfl, by rw [fill_found, hfront, List.append_nil, ha], hback⟩
        -- The character would be one that is filled in.
        | cons d more =>
          obtain ⟨rfl, -⟩ := List.cons.inj htail
          exact absurd (by rw [ha]; simp) (hfound a List.mem_cons_self)

/-- The front of a text is plain as far as nothing that is filled in begins with its characters. -/
theorem fill_eq_append (hfound : ∀ a, .found a ∈ segs → ∃ d taken, f a = d :: taken ∧ d ∉ before)
    (h : fill f segs = before ++ after) : ∃ back, segs = before.map .plain ++ back ∧ fill f back = after := by
  induction before generalizing segs with
  | nil => exact ⟨segs, rfl, h⟩
  | cons c before ih =>
    cases segs with
    | nil => cases h
    | cons segment segs =>
      cases segment with
      | plain d =>
        obtain ⟨rfl, htail⟩ := List.cons.inj h
        have hfound' : ∀ a, .found a ∈ segs → ∃ e taken, f a = e :: taken ∧ e ∉ before := by
          intro a ha
          obtain ⟨e, taken, hfa, he⟩ := hfound a (List.mem_cons_of_mem _ ha)
          exact ⟨e, taken, hfa, fun hmem => he (List.mem_cons_of_mem _ hmem)⟩
        obtain ⟨back, rfl, hback⟩ := ih hfound' htail
        exact ⟨back, rfl, hback⟩
      | found a =>
        obtain ⟨d, taken, ha, hd⟩ := hfound a List.mem_cons_self
        rw [fill_found, ha] at h
        obtain ⟨rfl, -⟩ := List.cons.inj h
        exact absurd List.mem_cons_self hd

end GridFilter.Text
