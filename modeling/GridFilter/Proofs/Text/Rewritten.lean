import GridFilter.Proofs.Text.Segments
import GridFilter.Proofs.Token.Lexemes

/-! Texts written anew. A text is gone through from left to right: where a shape stands, something else is written in its
    place, and the text goes on behind the shape, so that nothing that has been written is looked at again; every other
    character is kept. A pattern that recognizes the shape leads to just this text (`rewritten_iff`). -/

namespace GridFilter.Text

variable {α σ : Type} {pattern : Pattern α} {Shows : α → List Char → Prop} {a : α} {c : Char} {size skip : Nat}
  {text span rest front out : List Char}

/-! ### Shapes and patterns -/

/-- A pattern matches just where a shape stands at the front of a text, and takes it whole. -/
structure Recognizes (pattern : Pattern α) (Shows : α → List Char → Prop) : Prop where
  eq_some : ∀ {text : List Char} {a : α} {size : Nat}, pattern text = some (a, size) ↔
    ∃ span rest, text = span ++ rest ∧ Shows a span ∧ size = span.length
  ne_nil : ∀ {a : α} {span : List Char}, Shows a span → span ≠ []

theorem Recognizes.eq_none (h : Recognizes pattern Shows) :
    pattern text = none ↔ ∀ a span, Shows a span → ¬span <+: text := by
  constructor
  · rintro hnone a span hspan ⟨rest, rfl⟩
    rw [h.eq_some.mpr ⟨span, rest, rfl, hspan, rfl⟩] at hnone
    cases hnone
  · refine fun hnot => Option.eq_none_iff_forall_not_mem.mpr fun (a, size) hfound => ?_
    obtain ⟨span, rest, rfl, hspan, -⟩ := h.eq_some.mp hfound
    exact hnot a span hspan (List.prefix_append span rest)

theorem segmentsFrom_eq (pattern : Pattern α) (skip : Nat) (text : List Char) :
    segmentsFrom pattern skip text = segments pattern (text.drop skip) := by
  induction text generalizing skip with
  | nil => cases skip <;> rfl
  | cons c text ih =>
    cases skip with
    | zero => rfl
    | succ skip => exact ih skip

theorem segments_plain (h : pattern (c :: rest) = none) :
    segments pattern (c :: rest) = .plain c :: segments pattern rest := by
  rw [segments, segmentsFrom, h]
  rfl

theorem segments_plains (h : ∀ back, back ≠ [] → back <:+ front → pattern (back ++ rest) = none) :
    segments pattern (front ++ rest) = front.map .plain ++ segments pattern rest := by
  induction front with
  | nil => rfl
  | cons c front ih =>
    have hnone : pattern (c :: (front ++ rest)) = none := h (c :: front) (List.cons_ne_nil _ _) List.suffix_rfl
    have hfront := ih fun back hne hback => h back hne (hback.trans (List.suffix_cons c front))
    rw [List.cons_append, segments_plain hnone, hfront]
    rfl

/-- No match begins in a text without the character that every match begins with. -/
theorem segments_of_not_mem (hfirst : ∀ d rest, d ≠ c → pattern (d :: rest) = none) (h : c ∉ front) :
    segments pattern (front ++ rest) = front.map .plain ++ segments pattern rest := by
  refine segments_plains fun back hne hback => ?_
  obtain ⟨d, tail, rfl⟩ := List.exists_cons_of_ne_nil hne
  refine hfirst d (tail ++ rest) ?_
  rintro rfl
  exact h (hback.subset List.mem_cons_self)

theorem Recognizes.segments_found (h : Recognizes pattern Shows) (hspan : Shows a span) (rest : List Char) :
    segments pattern (span ++ rest) = .found a :: segments pattern rest := by
  have hfound : pattern (span ++ rest) = some (a, span.length) := h.eq_some.mpr ⟨span, rest, rfl, hspan, rfl⟩
  obtain ⟨c, tail, rfl⟩ := List.exists_cons_of_ne_nil (h.ne_nil hspan)
  rw [List.cons_append] at hfound ⊢
  rw [segments, segmentsFrom, hfound]
  dsimp only
  rw [segmentsFrom_eq, List.length_cons, Nat.add_sub_cancel, List.drop_left]

/-! ### Writing anew -/

/-- A text is written anew. `Turns state a written next` says what is written for a shape that shows `a`, and how the
    state in which that is decided goes on. -/
inductive Rewritten (Shows : α → List Char → Prop) (Turns : σ → α → List Char → σ → Prop) :
    σ → List Char → List Char → Prop where
  | nil {state : σ} : Rewritten Shows Turns state [] []
  | found {state next : σ} {a : α} {span written rest out : List Char} : Shows a span → Turns state a written next →
      Rewritten Shows Turns next rest out → Rewritten Shows Turns state (span ++ rest) (written ++ out)
  | plain {state : σ} {c : Char} {rest out : List Char} : (∀ a span, Shows a span → ¬span <+: c :: rest) →
      Rewritten Shows Turns state rest out → Rewritten Shows Turns state (c :: rest) (c :: out)

/-- Segments written anew, where a function says what is written and how the state goes on. -/
def rewrite (write : σ → α → List Char × σ) : σ → List (Segment α) → List Char
  | _, [] => []
  | state, .plain c :: rest => c :: rewrite write state rest
  | state, .found a :: rest => (write state a).1 ++ rewrite write (write state a).2 rest

variable {Turns : σ → α → List Char → σ → Prop} {write : σ → α → List Char × σ} {state : σ}

theorem fill_eq_rewrite (f : α → List Char) (segs : List (Segment α)) :
    fill f segs = rewrite (fun state a => (f a, state)) () segs := by
  induction segs with
  | nil => rfl
  | cons segment segs ih => cases segment with
    | plain c => rw [fill_plain, rewrite, ih]
    | found a => rw [fill_found, rewrite, ih]

theorem rewritten_rewrite (h : Recognizes pattern Shows) (hturns : ∀ state a, Turns state a (write state a).1 (write state a).2)
    (state : σ) (text : List Char) : Rewritten Shows Turns state text (rewrite write state (segments pattern text)) := by
  induction hlength : text.length using Nat.strongRecOn generalizing text state with
  | ind length ih =>
    subst hlength
    cases text with
    | nil => exact .nil
    | cons c text =>
      cases hfound : pattern (c :: text) with
      | none =>
        rw [segments_plain hfound]
        exact .plain (h.eq_none.mp hfound) (ih text.length (Nat.lt_succ_self _) state text rfl)
      | some found =>
        obtain ⟨a, size⟩ := found
        obtain ⟨span, rest, htext, hspan, -⟩ := h.eq_some.mp hfound
        rw [htext, h.segments_found hspan]
        have hlt : rest.length < (c :: text).length := by
          have hpos := List.length_pos_iff.mpr (h.ne_nil hspan)
          rw [htext, List.length_append]
          omega
        exact .found hspan (hturns state a) (ih rest.length hlt _ rest rfl)

/-- What a text becomes when it is written anew is what its segments become. -/
theorem rewritten_iff (h : Recognizes pattern Shows)
    (hturns : ∀ state a written next, Turns state a written next ↔ write state a = (written, next)) :
    Rewritten Shows Turns state text out ↔ out = rewrite write state (segments pattern text) := by
  constructor
  · intro hout
    induction hout with
    | nil => rfl
    | found hspan hturn _ ih =>
      rw [h.segments_found hspan, rewrite, (hturns _ _ _ _).mp hturn, ih]
    | plain hnone _ ih => rw [segments_plain (h.eq_none.mpr hnone), rewrite, ih]
  · rintro rfl
    exact rewritten_rewrite h (fun state a => (hturns _ _ _ _).mpr rfl) state text

/-! ### Texts in braces -/

/-- A text that is not empty, in braces, and each of its characters allowed there. -/
structure Braced (allowed : Char → Bool) (body span : List Char) : Prop where
  span_eq : span = inBraces body
  ne_nil : body ≠ []
  allowed : ∀ c ∈ body, allowed c = true

theorem recognizes_braces {allowed : Char → Bool} (h : allowed '\x7d' = false) :
    Recognizes (braces allowed) (Braced allowed) where
  ne_nil hspan := by
    rw [hspan.span_eq]
    exact List.cons_ne_nil _ _
  eq_some := by
    intro text body size
    constructor
    · intro hfound
      obtain ⟨⟨inner, after⟩, hbraced, heq⟩ := Option.map_eq_some_iff.mp hfound
      cases heq
      obtain ⟨rfl, hne, hallowed⟩ := Lexeme.braced?_spec hbraced
      exact ⟨inBraces body, after, rfl, ⟨rfl, hne, hallowed⟩, by simp [inBraces]⟩
    · rintro ⟨_, rest, rfl, ⟨rfl, hne, hallowed⟩, rfl⟩
      have hstop : ∀ c ∈ ('\x7d' :: rest).head?, allowed c = false := by
        rintro _ ⟨⟩
        exact h
      have htext : inBraces body ++ rest = '\x7b' :: (body ++ '\x7d' :: rest) := by simp [inBraces]
      obtain ⟨b, bs, rfl⟩ := List.exists_cons_of_ne_nil hne
      rw [htext]
      simp only [braces, braced?, Lexeme.takeWhile_append_stop hallowed hstop,
        Lexeme.dropWhile_append_stop hallowed hstop]
      simp [inBraces]

end GridFilter.Text
