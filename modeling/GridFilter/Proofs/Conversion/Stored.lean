import GridFilter.Conversion
import GridFilter.Proofs.Text.Pieces

/-! A list of texts after `IN` or `NOT IN` is converted alike however it is stored: item by item in the filter, as one
    value that is a list, or as one text with commas between the items. -/

namespace GridFilter

/-! ### Right sides -/

namespace Operand

/-- Texts written out as a list. -/
def ofTexts (items : List String) : Operand := .list (items.map fun item => .literal (.string item))

/-- A right side that is one node, by itself or as the only item of a list. -/
inductive IsOnly (node : Node) : Operand → Prop where
  | single : IsOnly node (.single node)
  | list : IsOnly node (.list [node])

end Operand

namespace Conversion

variable {setting : Setting} {operand : Operand} {items : List String}

/-- Texts as the items of a list. -/
def texts (items : List String) : List Grid := items.map fun item => .value (.string item)

theorem items_ofTexts (items : List String) : (side setting (.ofTexts items)).items setting = texts items := by
  rw [Operand.ofTexts, side, Side.items, texts]
  induction items with
  | nil => rfl
  | cons item rest ih => rw [List.map_cons, parts, List.map_cons, ih]; rfl

theorem items_isOnly {name : String} {value : Value} (h : operand.IsOnly (.placeholder name))
    (hvalue : setting.resolve name = some value) : (side setting operand).items setting = [.value value] := by
  have hgrid : (Part.placeholder name).grid setting = .value value := by
    rw [Part.grid, Resolver.valueOf, hvalue, Option.getD_some]
  cases h with
  | single => exact congrArg (fun grid => [grid]) hgrid
  | list => exact congrArg (fun grid => [grid]) hgrid

/-! ### Items taken apart -/

/-- A single text may be taken apart, but not one of several. -/
theorem expandedItems_texts (h : 2 ≤ items.length) : expandedItems (texts items) = texts items := by
  have hflat : (texts items).flatMap flattened = texts items := by
    rw [texts, List.flatMap_map]
    exact List.map_eq_flatMap.symm
  rcases items with - | ⟨first, - | ⟨second, rest⟩⟩
  · cases h
  · exact absurd h (by simp)
  · exact hflat

theorem expandedItems_array (items : List String) :
    expandedItems [.value (.array (items.map .string))] = texts items := by
  simp [expandedItems, flattened, texts]

/-- A single text that lists items is taken apart into them. -/
theorem expandedItems_list {pieces : List (List Char)} (h : Text.Lists items pieces) (htwo : 2 ≤ items.length)
    (hitems : ∀ item ∈ items, Text.IsItem item) :
    expandedItems [.value (.string (.ofList ([','].intercalate pieces)))] = texts items := by
  have hlength : 2 ≤ pieces.length := Nat.le_trans htwo h.length_le
  have hcomma : ',' ∈ [','].intercalate pieces := by
    rcases pieces with - | ⟨first, - | ⟨second, rest⟩⟩
    · cases hlength
    · exact absurd hlength (by simp)
    · simp [List.intercalate_cons_cons]
  have hne : pieces ≠ [] := List.ne_nil_of_length_pos (Nat.lt_of_lt_of_le Nat.two_pos hlength)
  rw [expandedItems, String.toList_ofList, if_pos hcomma, Text.commaItems_intercalate h hne hitems]
  rfl

/-- What a filter is converted with, as its parts see it. -/
def settingOf (options : ConvertOptions) (resolve : Resolver) : Setting :=
  ⟨options.shortCircuit, options.expandIn, resolve⟩

/-- The items that a right side is taken apart into. -/
def expandedOf (setting : Setting) (operand : Operand) : List Grid :=
  expandedItems ((side setting operand).items setting)

/-- A comparison with a list looks at the subject and at the items that the list is taken apart into, and at nothing
    else. -/
theorem convertWith_membership {subject : Node} {operator : Comparison} {options : ConvertOptions}
    {resolve resolve' : Resolver} {operand operand' : Operand} (hoperator : operator ∈ [.isIn, .notIn])
    (hsubject : subject.convertWith options resolve = subject.convertWith options resolve')
    (hitems : expandedOf (settingOf options resolve) operand = expandedOf (settingOf options resolve') operand') :
    (Node.comparison subject operator operand).convertWith options resolve =
      (Node.comparison subject operator operand').convertWith options resolve' := by
  have hmembership (negated : Bool) : membership (settingOf options resolve) (subject.convertWith options resolve) negated
        ((side (settingOf options resolve) operand).items (settingOf options resolve)) =
      membership (settingOf options resolve') (subject.convertWith options resolve') negated
        ((side (settingOf options resolve') operand').items (settingOf options resolve')) := by
    simp only [expandedOf] at hitems
    simp only [membership, hsubject, hitems]
    rfl
  rcases List.mem_cons.mp hoperator with rfl | hoperator
  · exact hmembership false
  · obtain rfl := List.mem_singleton.mp hoperator
    exact hmembership true

end Conversion

open Conversion in
/-- A list of at least two texts that are not blank, neither start nor end with a blank and have no comma in them is
    converted alike after `IN` and `NOT IN` in three forms: written out in the filter; as a placeholder for a text in
    which they stand with commas between them, with any blanks around them and any blank pieces among them; and as a
    placeholder for the list of them. What the values are looked up in may differ, as long as the subject is converted
    alike. -/
theorem Node.convertWith_stored {items : List String} {pieces : List (List Char)} (htwo : 2 ≤ items.length)
    (hitems : ∀ item ∈ items, Text.IsItem item) (hpieces : Text.Lists items pieces) {subject : Node}
    {operator : Comparison} (hoperator : operator ∈ [.isIn, .notIn]) (options : ConvertOptions)
    {resolve inText inList : Resolver}
    (hsubject : ∀ other ∈ [inText, inList], subject.convertWith options other = subject.convertWith options resolve)
    {textName listName : String} (htext : inText textName = some (.string (.ofList ([','].intercalate pieces))))
    (hlist : inList listName = some (.array (items.map .string))) {text list : Operand}
    (htextOnly : text.IsOnly (.placeholder textName)) (hlistOnly : list.IsOnly (.placeholder listName)) :
    (comparison subject operator text).convertWith options inText =
        (comparison subject operator (.ofTexts items)).convertWith options resolve ∧
      (comparison subject operator list).convertWith options inList =
        (comparison subject operator (.ofTexts items)).convertWith options resolve := by
  have hwritten : expandedOf (settingOf options resolve) (.ofTexts items) = texts items := by
    rw [expandedOf, items_ofTexts, expandedItems_texts htwo]
  obtain ⟨hsubjectText, hsubjectList⟩ := List.forall_mem_cons.mp hsubject
  constructor
  · refine convertWith_membership hoperator hsubjectText ?_
    rw [hwritten, expandedOf, items_isOnly htextOnly htext, expandedItems_list hpieces htwo hitems]
  · refine convertWith_membership hoperator (hsubjectList inList List.mem_cons_self) ?_
    rw [hwritten, expandedOf, items_isOnly hlistOnly hlist, expandedItems_array]

/-- Two items in four pieces: one of the items has a blank inside, and a no-break space in front of it. -/
theorem Node.convertWith_stored_padded :
    let items : List String := ["a b", "c"]
    let pieces : List (List Char) := [[' '], ['\u00a0', 'a', ' ', 'b'], [], ['c', '\t']]
    let inText : Resolver := fun _ => some (.string " ,\u00a0a b,,c\t")
    let inList : Resolver := fun _ => some (.array [.string "a b", .string "c"])
    let written := (comparison (.field "Code") .notIn (.ofTexts items)).convertWith {} fun _ => none
    (2 ≤ items.length ∧ (∀ item ∈ items, Text.IsItem item) ∧ Text.Lists items pieces) ∧
      (inText "Set.Text" = some (.string (.ofList ([','].intercalate pieces))) ∧
        inList "Set.List" = some (.array (items.map .string))) ∧
      (comparison (.field "Code") .notIn (.list [.placeholder "Set.Text"])).convertWith {} inText = written ∧
      (comparison (.field "Code") .notIn (.single (.placeholder "Set.List"))).convertWith {} inList = written := by
  intro items pieces inText inList written
  have hitems : ∀ item ∈ items, Text.IsItem item := by
    intro item hitem
    simp only [items, List.mem_cons, List.not_mem_nil, or_false] at hitem
    rcases hitem with rfl | rfl
    · exact ⟨by decide, by decide, by decide⟩
    · exact ⟨by decide, by decide, by decide⟩
  have hblank (c : Char) (hc : Text.isBlank c = true) : ∀ d ∈ [c], Text.isBlank d = true :=
    List.forall_mem_singleton.mpr hc
  have hpieces : Text.Lists items pieces :=
    .blank (hblank ' ' rfl) (@Text.Lists.item ["c"] "a b" ['\u00a0'] [] _ (hblank '\u00a0' rfl) nofun
      (.blank nofun (@Text.Lists.item [] "c" [] ['\t'] [] nofun (hblank '\t' rfl) .nil)))
  have htext : inText "Set.Text" = some (.string (.ofList ([','].intercalate pieces))) := rfl
  have hlist : inList "Set.List" = some (.array (items.map .string)) := rfl
  have htwo : 2 ≤ items.length := Nat.le_refl 2
  exact ⟨⟨htwo, hitems, hpieces⟩, ⟨htext, hlist⟩,
    Node.convertWith_stored htwo hitems hpieces (by decide) {} (fun _ _ => rfl) htext hlist .list .single⟩

end GridFilter
