import GridFilter.Proofs.Conversion.Folded
import GridFilter.Proofs.Conversion.Names
import Mathlib.Data.List.Forall2

/-! What of a converted filter stays when its source of values comes to know more. A placeholder without a value is
    converted as a text, its name in braces. No number is read from that text, so that it decides no comparison, and
    what is settled beside it stays. -/

namespace GridFilter

/-! ### Placeholders without a value -/

/-- No number is read from a name in braces. -/
theorem Value.reading?_unresolvedText (name : String) : (Value.string (unresolvedText name)).reading? = none := by
  have hend : Text.trimEnd (Text.inBraces name.toList) = Text.inBraces name.toList := by
    have hlast : Text.isBlank '\x7d' = false := rfl
    simp [Text.trimEnd, Text.inBraces, hlast]
  have htext : Text.trim (unresolvedText name).toList = Text.inBraces name.toList := by
    rw [unresolvedText, String.toList_ofList]
    exact hend
  have hdouble : Decimal.double? (Text.inBraces name.toList) = none := rfl
  simp only [reading?, isNull, number?, spelledNumber?, htext, hdouble]
  rfl

/-- Values are decided only where both can be read. -/
theorem Value.reading?_of_decide? {l r : Value} {operator : Comparison} {b : Bool}
    (h : l.decide? operator r = some b) : l.reading? ≠ none ∧ r.reading? ≠ none := by
  unfold decide? at h
  cases hl : l.reading? <;> cases hr : r.reading? <;> simp_all

namespace Conversion
open Grid

/-- The spelling of a placeholder, one of these names, that has no value. -/
def Unresolved (resolve : Resolver) (names : List String) (grid : Grid) : Prop :=
  ∃ name ∈ names, resolve name = none ∧ grid = .value (.string (unresolvedText name))

/-- A truth value or a value. -/
def isSettled : Grid → Bool
  | .bool _ | .value _ => true
  | _ => false

/-- A value that a comparison can be decided by. -/
def IsReadable (grid : Grid) : Prop := ∃ v, grid = .value v ∧ v.reading? ≠ none

/-- What is settled stays as it is, unless it is the spelling of a placeholder without a value. -/
def Stays (resolve : Resolver) (names : List String) (before after : Grid) : Prop :=
  isSettled before = true → after = before ∨ Unresolved resolve names before

variable {setting : Setting} {more : Resolver} {names others : List String} {before after left right : Grid}

theorem Unresolved.mono (h : Unresolved setting.resolve names before) (hnames : names ⊆ others) :
    Unresolved setting.resolve others before := by
  obtain ⟨name, hname, hresolve⟩ := h
  exact ⟨name, hnames hname, hresolve⟩

theorem Stays.mono (h : Stays setting.resolve names before after) (hnames : names ⊆ others) :
    Stays setting.resolve others before after := fun hsettled => (h hsettled).imp_right (·.mono hnames)

theorem Unresolved.not_readable (h : Unresolved setting.resolve names before) : ¬ IsReadable before := by
  obtain ⟨name, -, -, rfl⟩ := h
  rintro ⟨v, hv, hreading⟩
  cases hv
  exact hreading (Value.reading?_unresolvedText name)

theorem stays_rfl : Stays setting.resolve names before before := fun _ => .inl rfl

theorem stays_of_not (h : isSettled before = false) : Stays setting.resolve names before after := by simp [Stays, h]

/-- A value that can be read stays. -/
theorem Stays.readable (h : Stays setting.resolve names before after) (hreadable : IsReadable before) :
    after = before := by
  have hsettled : isSettled before = true := by
    obtain ⟨v, rfl, -⟩ := hreadable
    rfl
  exact (h hsettled).resolve_right fun hunresolved => hunresolved.not_readable hreadable

theorem not_unresolved_bool {b : Bool} : ¬ Unresolved setting.resolve names (.bool b) := by
  rintro ⟨name, -, -, hgrid⟩
  cases hgrid

theorem Stays.bool {b : Bool} (h : Stays setting.resolve names (.bool b) after) : after = .bool b :=
  (h rfl).resolve_right not_unresolved_bool

theorem exists_of_mem {R : Grid → Grid → Prop} {operands laters : List Grid} (h : List.Forall₂ R operands laters)
    (hmem : before ∈ operands) : ∃ later ∈ laters, R before later := by
  induction h with
  | nil => cases hmem
  | @cons first later rest others hfirst hrest ih =>
    rcases List.mem_cons.mp hmem with rfl | hmem
    · exact ⟨later, by simp, hfirst⟩
    · obtain ⟨found, hfound, hrelated⟩ := ih hmem
      exact ⟨found, List.mem_cons_of_mem _ hfound, hrelated⟩

theorem eq_of_related {R : Grid → Grid → Prop} {operands laters : List Grid} (h : List.Forall₂ R operands laters)
    (heq : ∀ operand ∈ operands, ∀ later, R operand later → later = operand) : laters = operands := by
  induction h with
  | nil => rfl
  | cons hfirst hrest ih =>
    obtain ⟨hone, hothers⟩ := List.forall_mem_cons.mp heq
    rw [hone _ hfirst, ih hothers]

/-! ### Joining -/

section
variable {connective : Connective} {operands laters : List Grid}

theorem combine_of_mem (h : .bool connective.absorbing ∈ operands) :
    combine true connective operands = .bool connective.absorbing := by
  have hany : operands.any (·.bool? == some connective.absorbing) = true :=
    List.any_eq_true.mpr ⟨_, h, by simp [bool?]⟩
  simp [combine, hany]

/-- Splicing one folded operand leaves a single one only where it is that operand. -/
theorem eq_of_spliced {operand part : Grid} (hfolded : Folded true operand)
    (h : (spliced connective operand).length ≤ 1) (hpart : part ∈ spliced connective operand) : part = operand := by
  unfold spliced at h hpart
  split at hpart
  · split at hpart
    · next hinner =>
      have htwo := (folded_group.mp hfolded).1.two_le
      simp only [hinner, if_true] at h
      omega
    · exact List.mem_singleton.mp hpart
  · exact List.mem_singleton.mp hpart

/-- Joined operands are settled by one that absorbs the others, or all of them are settled, and each is a truth value or
    the whole. -/
theorem combine_cases (hfolded : ∀ operand ∈ operands, Folded true operand)
    (h : isSettled (combine true connective operands) = true) :
    .bool connective.absorbing ∈ operands ∨ ∀ operand ∈ operands, isSettled operand = true ∧
      ((∃ b, operand = .bool b) ∨ operand = combine true connective operands) := by
  by_cases habsorbing : .bool connective.absorbing ∈ operands
  · exact .inl habsorbing
  refine .inr fun operand hmem => ?_
  cases hbool : operand.bool? with
  | some b => exact ⟨bool?_eq_some hbool ▸ rfl, .inl ⟨b, bool?_eq_some hbool⟩⟩
  | none =>
    suffices hwhole : operand = combine true connective operands from ⟨hwhole ▸ h, .inr hwhole⟩
    have hundecided : operand ∈ undecided true operands := List.mem_filter.mpr ⟨hmem, by simp [hbool]⟩
    have hkept : (spliced connective operand).Sublist ((undecided true operands).flatMap (spliced connective)) :=
      List.flatMap_def ▸ List.sublist_flatten_of_mem (List.mem_map_of_mem hundecided)
    obtain ⟨part, hpart⟩ := List.exists_mem_of_ne_nil _ (@spliced_ne_nil true connective _ (hfolded operand hmem))
    have hany : operands.any (·.bool? == some connective.absorbing) = false := by
      refine List.any_eq_false.mpr fun other hother hb => habsorbing ?_
      exact bool?_eq_some (eq_of_beq hb) ▸ hother
    simp only [combine, hany, Bool.and_false, Bool.false_eq_true, if_false] at h ⊢
    match (undecided true operands).flatMap (spliced connective), hkept, h with
    | [], hkept, _ => simp [List.sublist_nil.mp hkept] at hpart
    | [one], hkept, _ =>
      have hpartOne : part = one := List.mem_singleton.mp (hkept.subset hpart)
      rw [← hpartOne, eq_of_spliced (hfolded operand hmem) hkept.length_le hpart]

/-- Joined operands are settled for good once they are settled. -/
theorem stays_combine (hfolded : ∀ operand ∈ operands, Folded true operand)
    (h : List.Forall₂ (Stays setting.resolve names) operands laters) :
    Stays setting.resolve names (combine true connective operands) (combine true connective laters) := by
  intro hsettled
  rcases combine_cases hfolded hsettled with habsorbing | hall
  · obtain ⟨later, hlater, hstays⟩ := exists_of_mem h habsorbing
    left
    rw [combine_of_mem habsorbing, combine_of_mem (hstays.bool ▸ hlater)]
  · by_cases hunresolved : ∃ operand ∈ operands, Unresolved setting.resolve names operand
    · obtain ⟨operand, hmem, hspelled⟩ := hunresolved
      right
      rcases (hall operand hmem).2 with ⟨b, rfl⟩ | hwhole
      · exact absurd hspelled not_unresolved_bool
      · exact hwhole ▸ hspelled
    · left
      rw [eq_of_related h]
      intro operand hmem later hstays
      exact (hstays (hall operand hmem).1).resolve_right fun hspelled => hunresolved ⟨operand, hmem, hspelled⟩

end

/-! ### Comparisons -/

theorem isSettled_coalescedCondition (name : String) (default right : Grid) (operator : Comparison) :
    isSettled (coalescedCondition setting name default operator right) = false := by
  rw [coalescedCondition_eq]
  split <;> rfl

theorem stays_foldCondition {left' right' : Grid} {operator : Comparison}
    (hleft : Stays setting.resolve names left left') (hright : Stays setting.resolve names right right') :
    Stays setting.resolve names (foldCondition setting left operator right)
      (foldCondition (setting.against more) left' operator right') := by
  rcases foldCondition_cases setting left operator right with h | ⟨-, l, r, b, rfl, rfl, hdecided, -⟩
  · exact stays_of_not (by rw [h]; rfl)
  · obtain ⟨hl, hr⟩ := Value.reading?_of_decide? hdecided
    rw [hleft.readable ⟨l, rfl, hl⟩, hright.readable ⟨r, rfl, hr⟩]
    exact stays_rfl

/-- A comparison is settled only between values that can be read. -/
theorem readable_of_isSettled {operator : Comparison}
    (h : isSettled (foldCondition setting left operator right) = true) : IsReadable left ∧ IsReadable right := by
  rcases foldCondition_cases setting left operator right with hfold | ⟨-, l, r, b, rfl, rfl, hdecided, -⟩
  · rw [hfold] at h
    cases h
  · obtain ⟨hl, hr⟩ := Value.reading?_of_decide? hdecided
    exact ⟨⟨l, rfl, hl⟩, ⟨r, rfl, hr⟩⟩

/-! ### Lists -/

section
variable {items laters : List Grid}

theorem expandedItems_of_not_comma (h : ∀ text, items = [.value (.string text)] → ',' ∉ text.toList) :
    expandedItems items = items.flatMap flattened := by
  unfold expandedItems
  split
  · next text => simp [h text rfl, flattened]
  · rfl

/-- An item that does not stay is taken for one item, and decides nothing. -/
theorem Stays.eq_or_single (h : Stays setting.resolve names before after) :
    after = before ∨ flattened before = [before] ∧ ¬ IsReadable before := by
  have hother (hvalue : ∀ v, before ≠ .value v) : flattened before = [before] ∧ ¬ IsReadable before := by
    refine ⟨?_, fun ⟨v, hv, _⟩ => hvalue v hv⟩
    unfold flattened
    split
    · next values => exact absurd rfl (hvalue _)
    · rfl
  cases before with
  | value v =>
    rcases h rfl with hafter | hunresolved
    · exact .inl hafter
    · obtain ⟨name, -, -, hgrid⟩ := id hunresolved
      exact .inr ⟨by rw [hgrid]; rfl, hunresolved.not_readable⟩
  | _ => exact .inr (hother nofun)

/-- Of the items that a list is expanded into, those that decide a comparison stay; where the list changes at all, one
    of them decides nothing. -/
theorem expandedItems_stays (h : List.Forall₂ (Stays setting.resolve names) items laters)
    (hcomma : items.length = 1 → ∀ name ∈ names, setting.resolve name = none → ',' ∉ name.toList) :
    laters = items ∨ (∃ item ∈ expandedItems items, ¬ IsReadable item) ∧
      ∀ item ∈ expandedItems items, IsReadable item → item ∈ expandedItems laters := by
  by_cases heq : laters = items
  · exact .inl heq
  right
  -- A lone text with commas stays: it is no placeholder, since those have no commas in their names.
  have hlone : ∀ text, items = [.value (.string text)] → ',' ∉ text.toList := by
    rintro text rfl hmem
    obtain ⟨later, rest, hstays, hnil, rfl⟩ := List.forall₂_cons_left_iff.mp h
    obtain rfl := List.forall₂_nil_left_iff.mp hnil
    rcases hstays rfl with rfl | ⟨name, hname, hresolve, hgrid⟩
    · exact heq rfl
    · cases hgrid
      refine hcomma rfl name hname hresolve ?_
      simpa [unresolvedText, Text.inBraces] using hmem
  rw [expandedItems_of_not_comma hlone]
  constructor
  · by_contra hreadable
    push Not at hreadable
    refine heq (eq_of_related h fun item hitem later hstays => hstays.eq_or_single.resolve_right ?_)
    rintro ⟨hsingle, hnot⟩
    exact hnot (hreadable item (List.mem_flatMap.mpr ⟨item, hitem, by simp [hsingle]⟩))
  · intro item hitem hreadable
    obtain ⟨whole, hwhole, hitem⟩ := List.mem_flatMap.mp hitem
    obtain ⟨later, hlater, hstays⟩ := exists_of_mem h hwhole
    rcases hstays.eq_or_single with rfl | ⟨hsingle, hnot⟩
    · rw [expandedItems_of_not_comma]
      · exact List.mem_flatMap.mpr ⟨later, hlater, hitem⟩
      -- A list of one item that stays has not changed.
      · rintro text rfl
        obtain rfl := List.mem_singleton.mp hlater
        obtain ⟨one, rest, -, hnil, rfl⟩ := List.forall₂_cons_right_iff.mp h
        obtain rfl := List.forall₂_nil_right_iff.mp hnil
        exact absurd (congrArg (fun grid => [grid]) (List.mem_singleton.mp hwhole)) heq
    · rw [hsingle] at hitem
      exact absurd (List.mem_singleton.mp hitem ▸ hreadable) hnot

theorem eachItem_of_ne_nil {connective : Connective} {operator : Comparison} (h : items ≠ []) :
    eachItem setting left operator connective items =
      combine setting.shortCircuit connective (items.map (foldCondition setting left operator)) := by
  cases items with
  | nil => exact absurd rfl h
  | cons => rfl

theorem stays_eachItem (hshort : setting.shortCircuit = true) {connective : Connective} {operator : Comparison}
    {left' : Grid} (hleft : Stays setting.resolve names left left') (hfolded : Folded true left)
    (hitems : ∀ item ∈ items, Folded true item)
    (h : laters = items ∨ (∃ item ∈ items, ¬ IsReadable item) ∧ ∀ item ∈ items, IsReadable item → item ∈ laters) :
    Stays setting.resolve others (eachItem setting left operator connective items)
      (eachItem (setting.against more) left' operator connective laters) := by
  intro hsettled
  rcases List.eq_nil_or_concat items with rfl | hsome
  · cases hsettled
  have hne : items ≠ [] := by
    rintro rfl
    simp at hsome
  have hconditions : ∀ condition ∈ items.map (foldCondition setting left operator), Folded true condition := by
    rw [← hshort] at hfolded hitems ⊢
    exact folded_conditions hfolded hitems
  left
  rw [eachItem_of_ne_nil hne, hshort] at hsettled ⊢
  rcases combine_cases hconditions hsettled with habsorbing | hall
  · obtain ⟨item, hitem, hfold⟩ := List.mem_map.mp habsorbing
    obtain ⟨hreadable, hitemReadable⟩ := @readable_of_isSettled setting left item operator (by rw [hfold]; rfl)
    have hlater : item ∈ laters := by
      rcases h with rfl | ⟨-, hkept⟩
      · exact hitem
      · exact hkept item hitem hitemReadable
    rw [hleft.readable hreadable, eachItem_of_ne_nil (List.ne_nil_of_mem hlater)]
    have hagain : .bool connective.absorbing ∈ laters.map (foldCondition (setting.against more) left operator) :=
      List.mem_map.mpr ⟨item, hlater, hfold⟩
    rw [combine_of_mem habsorbing]
    exact hshort ▸ combine_of_mem hagain
  · have hreadable : ∀ item ∈ items, IsReadable left ∧ IsReadable item := fun item hitem =>
      readable_of_isSettled (hall _ (List.mem_map_of_mem hitem)).1
    obtain ⟨item, hitem⟩ := List.exists_mem_of_ne_nil _ hne
    rcases h with rfl | ⟨⟨other, hother, hnot⟩, -⟩
    · rw [hleft.readable (hreadable item hitem).1, ← hshort, ← eachItem_of_ne_nil hne]
      rfl
    · exact absurd (hreadable other hother).2 hnot

theorem stays_membership (hshort : setting.shortCircuit = true) {left' : Grid} (negated : Bool)
    (hleft : Stays setting.resolve names left left') (hfolded : Folded true left)
    (hitems : ∀ item ∈ items, Folded true item) (h : List.Forall₂ (Stays setting.resolve others) items laters)
    (hcomma : items.length = 1 → ∀ name ∈ others, setting.resolve name = none → ',' ∉ name.toList) :
    Stays setting.resolve (names ++ others) (membership setting left negated items)
      (membership (setting.against more) left' negated laters) := by
  have hexpanded := (expandedItems_stays h hcomma).imp_left (congrArg expandedItems)
  have heach (operator : Comparison) (connective : Connective) :
      Stays setting.resolve (names ++ others) (eachItem setting left operator connective (expandedItems items))
        (eachItem (setting.against more) left' operator connective (expandedItems laters)) :=
    stays_eachItem hshort hleft hfolded (folded_expandedItems hitems) hexpanded
  have hexpand : (setting.against more).expandIn = setting.expandIn := rfl
  unfold membership
  rw [hexpand]
  split
  · exact heach .ne .and
  · split
    · exact heach .eq .or
    · exact stays_of_not rfl

end

end Conversion

end GridFilter
