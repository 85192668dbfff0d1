import GridFilter.Proofs.Dialect.Bound

/-! Values dealt out to the names in sections. Words in braces are filled in first; then each section is written anew, and
    the number of the next value is the state that goes on from one section to the next, so that the sections share the
    values in their order and none is used twice. -/

namespace GridFilter.Dialect
open Text

variable {body word written out : List Char} {names : List (List Char)} {fixed : Table String} {values : List String}
  {number next : Nat}

/-! ### Words in braces -/

/-- What is written for a word in braces: its entry, or the word in its braces again where there is none. -/
inductive Filled (fixed : Table String) (word : List Char) : List Char → Prop where
  | entry {value : String} : fixed.get? (.ofList word) = some value → Filled fixed word value.toList
  | kept : fixed.get? (.ofList word) = none → Filled fixed word (inBraces word)

theorem filled_iff : Filled fixed word written ↔
    (match fixed.get? (.ofList word) with
      | some value => value.toList
      | none => inBraces word) = written := by
  constructor
  · intro h
    cases h with
    | entry hvalue => rw [hvalue]
    | kept hnone => rw [hnone]
  · rintro rfl
    split
    · next value hvalue => exact .entry hvalue
    · next hnone => exact .kept hnone

theorem rewritten_fillFixed (fixed : Table String) (text : List Char) :
    Rewritten (Braced isWord) (fun _ word written _ => Filled fixed word written) () text out ↔
      out = fillFixed fixed text := by
  have hrecognizes : Recognizes (braces isWord) (Braced isWord) := recognizes_braces (by decide)
  rw [fillFixed, fill_eq_rewrite]
  refine rewritten_iff hrecognizes fun state word written next => ?_
  rw [filled_iff, Prod.mk.injEq]
  exact (and_iff_left rfl).symm

/-! ### Names in a section -/

/-- The names that stand in a section with commas between them: one at least, which may be empty. -/
structure HasNames (body : List Char) (names : List (List Char)) : Prop where
  ne_nil : names ≠ []
  comma : ∀ name ∈ names, ',' ∉ name
  body_eq : body = [','].intercalate names

theorem hasNames_iff : HasNames body names ↔ commaPieces body = names := by
  constructor
  · rintro ⟨hne, hcomma, rfl⟩
    exact commaPieces_intercalate hne hcomma
  · rintro rfl
    refine ⟨pieces_ne_nil _ _, fun name hname hcomma => ?_, (intercalate_pieces ',' body).symm⟩
    exact absurd (separates_of_mem_pieces hname hcomma) (by decide)

/-- What is written for a name: the value of its number, or the name in braces where there is none. -/
def valueOf (values : List String) (number : Nat) (name : List Char) : List Char :=
  match values[number]? with
  | some value => value.toList
  | none => inBraces (trim name)

/-- What is written for a section whose first name has a number: what is written for its names, which are numbered from
    there on, with a comma and a blank between every two. The number goes on behind the last of them. -/
def Dealt (values : List String) (number : Nat) (body written : List Char) (next : Nat) : Prop :=
  ∃ names, HasNames body names ∧
    written = [',', ' '].intercalate (names.mapIdx fun i name => valueOf values (number + i) name) ∧
    next = number + names.length

theorem deal_cons (name : List Char) (names : List (List Char)) (values : List String) :
    deal (name :: names) values = valueOf values 0 name :: deal names values.tail := by
  cases values <;> rfl

theorem valueOf_drop (values : List String) (number : Nat) (name : List Char) :
    valueOf (values.drop number) 0 name = valueOf values number name := by
  rw [valueOf, List.getElem?_drop, Nat.add_zero, valueOf]

/-- The names take the values from their number on. -/
theorem deal_drop (values : List String) (number : Nat) (names : List (List Char)) :
    deal names (values.drop number) = names.mapIdx fun i name => valueOf values (number + i) name := by
  induction names generalizing number with
  | nil => rw [deal]; rfl
  | cons name names ih =>
    rw [deal_cons, valueOf_drop, List.tail_drop, ih, List.mapIdx_cons]
    simp only [Nat.add_zero, Nat.add_assoc, Nat.add_comm 1]

/-- A section with its values, and the number behind them. -/
def dealFrom (values : List String) (number : Nat) (body : List Char) : List Char × Nat :=
  (commaJoined (deal (commaPieces body) (values.drop number)), number + (commaPieces body).length)

theorem dealt_iff : Dealt values number body written next ↔ dealFrom values number body = (written, next) := by
  rw [dealFrom, deal_drop, Prod.mk.injEq]
  constructor
  · rintro ⟨names, hnames, rfl, rfl⟩
    obtain rfl := hasNames_iff.mp hnames
    exact ⟨rfl, rfl⟩
  · rintro ⟨rfl, rfl⟩
    exact ⟨_, hasNames_iff.mpr rfl, rfl, rfl⟩

/-- The values that are left are those behind a number, from the first section to the last. -/
theorem dealOut_eq_rewrite (values : List String) (number : Nat) (segs : List (Segment (List Char))) :
    dealOut segs (values.drop number) = rewrite (dealFrom values) number segs := by
  induction segs generalizing number with
  | nil => rfl
  | cons segment segs ih =>
    cases segment with
    | plain c => rw [dealOut, rewrite, ih]
    | found body =>
      rw [dealOut, rewrite, List.drop_drop, ih]
      rfl

/-! ### Both ways of filling in -/

/-- What comes of a text whose words in braces have entries and whose sections take values: the text is written anew with
    the entries, and what comes of that is written anew with the values, which are numbered across all sections. -/
theorem replacePlaceholders_iff (text : String) (fixed : Table String) (values : List String) (out : List Char) :
    (replacePlaceholders text fixed values).toList = out ↔ ∃ mid,
      Rewritten (Braced isWord) (fun _ word written _ => Filled fixed word written) () text.toList mid ∧
        Rewritten IsSection (Dealt values) 0 mid out := by
  have hdealt (mid : List Char) : Rewritten IsSection (Dealt values) 0 mid out ↔
      out = rewrite (dealFrom values) 0 (segments section? mid) :=
    rewritten_iff recognizes_section fun _ _ _ _ => dealt_iff
  simp only [rewritten_fillFixed, hdealt, exists_eq_left]
  rw [replacePlaceholders, String.toList_ofList, ← dealOut_eq_rewrite, List.drop_zero]
  exact eq_comm

-- The entry brings a section of its own, which takes the value; none is left for the other one.
example : replacePlaceholders "A = \x7bk\x7d AND B IN | [x, y ]" [("k", "1 | [p,q]")] ["u"] =
    "A = 1 u, \x7bq\x7d AND B IN \x7bx\x7d, \x7by\x7d" := by decide +kernel

end GridFilter.Dialect
