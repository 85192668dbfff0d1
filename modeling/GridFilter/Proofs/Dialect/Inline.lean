import GridFilter.Filter
import GridFilter.Proofs.Dialect.Sections
import GridFilter.Proofs.Parser.Cursor

/-! A filter in the positional dialect means what its text in the inline dialect means. The reader knows other names
    beforehand then, but these have no say in the tree and in the error, and the text stays as it is when it is brought
    into the inline dialect again. -/

namespace GridFilter

/-! ### Names known beforehand -/

namespace ParsedFilter

theorem map_ast_ofTokens (maxDepth : Nat) (known other : List String) (tokens : List Token) :
    (ofTokens maxDepth known tokens).map ast = (ofTokens maxDepth other tokens).map ast := by
  rw [ofTokens_eq, ofTokens_eq maxDepth other]
  cases tokens.getLast? with
  | none => rfl
  | some last =>
    dsimp only
    cases Parser.expression ⟨last.stop, maxDepth⟩ maxDepth 0 tokens with
    | error e => rfl
    | ok read =>
      obtain ⟨node, rest⟩ := read
      cases rest <;> rfl

/-- The names known beforehand do not change the tree of a text, nor the error that it fails with. -/
theorem map_ast_ofText (maxDepth : Nat) (known other : List String) (text : String) :
    (ofText maxDepth known text).map (Option.map ast) = (ofText maxDepth other text).map (Option.map ast) := by
  unfold ofText
  split
  · rfl
  · cases Token.ofText text with
    | error e => rfl
    | ok tokens =>
      have htokens := map_ast_ofTokens maxDepth known other tokens
      dsimp only
      cases hknown : ofTokens maxDepth known tokens <;> cases hother : ofTokens maxDepth other tokens <;>
        simp_all [Except.map]

end ParsedFilter

/-! ### Filters that are read alike -/

namespace CompiledFilter

/-- Two readings end alike: with the same error, or with filters that have the same tree, or none, and are converted to
    the same grid against every source of values. -/
inductive Alike : Except ParseError CompiledFilter → Except ParseError CompiledFilter → Prop where
  | error (e : ParseError) : Alike (.error e) (.error e)
  | ok {filter other : CompiledFilter} (ast : filter.ast = other.ast)
      (convertWith : ∀ resolve : Resolver, filter.convertWith resolve = other.convertWith resolve)
      (convert : ∀ data : DataMap, filter.convert data = other.convert data) : Alike (.ok filter) (.ok other)

theorem Alike.of_eq {filter other : CompiledFilter} (hast : filter.ast = other.ast)
    (hoptions : filter.options = other.options) : Alike (.ok filter) (.ok other) := by
  have hwith (resolve : Resolver) : filter.convertWith resolve = other.convertWith resolve := by
    simp only [convertWith, hast, hoptions]
  exact .ok hast hwith fun data => by simp only [convert, hwith, hoptions]

/-- Texts that are not blank are read alike where they are the same in the inline dialect. -/
theorem alike_of_normalized {text other : String} (htext : Text.isBlankText text = false)
    (hother : Text.isBlankText other = false)
    (h : (Dialect.canonicalize text).normalized = (Dialect.canonicalize other).normalized) (options : FilterOptions) :
    Alike (ofText text options) (ofText other options) := by
  simp only [ofText, htext, hother, Bool.false_eq_true, if_false, h]
  have hread := ParsedFilter.map_ast_ofText (options.maxDepth.getD ParsedFilter.defaultMaxDepth)
    (Dialect.canonicalize text).names (Dialect.canonicalize other).names (Dialect.canonicalize other).normalized
  generalize ParsedFilter.ofText _ (Dialect.canonicalize text).names _ = first at hread ⊢
  generalize ParsedFilter.ofText _ (Dialect.canonicalize other).names _ = second at hread ⊢
  match first, second with
  | .error e, .error e' =>
    cases hread
    exact .error e
  | .ok none, .ok none => exact .of_eq rfl rfl
  | .ok (some parsed), .ok (some parsed') =>
    have hast : parsed.ast = parsed'.ast := by simpa [Except.map] using hread
    exact .of_eq (congrArg some hast) rfl
  | .ok none, .ok (some _) | .ok (some _), .ok none | .error _, .ok _ | .ok _, .error _ => cases hread

/-! ### The two dialects -/

/-- A text with binding sections, of which no name has a bar in it, and its text in the inline dialect are the same
    filter. The latter has no section and stays as it is when it is brought into that dialect again, and the two are
    read alike. -/
theorem ofText_canonicalize {text : String} (hsection : Dialect.HasSection text.toList)
    (hbound : ∀ name ∈ Dialect.boundNames text.toList, '|' ∉ name)
    (hblank : Text.isBlankText (Dialect.canonicalize text).normalized = false) :
    ¬Dialect.HasSection (Dialect.canonicalize text).normalized.toList ∧
      (Dialect.canonicalize (Dialect.canonicalize text).normalized).normalized =
        (Dialect.canonicalize text).normalized ∧
      ∀ options : FilterOptions,
        Alike (ofText text options) (ofText (Dialect.canonicalize text).normalized options) := by
  have hnone := Dialect.not_hasSection_canonicalize hbound
  have hagain : (Dialect.canonicalize (Dialect.canonicalize text).normalized).normalized =
      (Dialect.canonicalize text).normalized := by
    rw [Dialect.canonicalize_of_not_hasSection hnone]
  have htext : Text.isBlankText text = false := by
    obtain ⟨before, gap, behind, htext, -⟩ := hsection
    rw [Text.isBlankText, htext, List.all_eq_false]
    exact ⟨'|', by simp, by decide⟩
  exact ⟨hnone, hagain, alike_of_normalized htext hblank hagain.symm⟩

/-- A filter with two sections, whose names are beside an operator and in a list; one number has no name. -/
def twoSections : String := "A = {1} AND B IN ({0}, {7}) | [Doc.ID] | [Branch.ID]"

theorem ofText_canonicalize_twoSections :
    Dialect.HasSection twoSections.toList ∧ (∀ name ∈ Dialect.boundNames twoSections.toList, '|' ∉ name) ∧
      (Dialect.canonicalize twoSections).normalized = "A = {Branch.ID} AND B IN ({Doc.ID}, {placeholder7})" ∧
      ∀ options : FilterOptions, Alike (ofText twoSections options)
        (ofText "A = {Branch.ID} AND B IN ({Doc.ID}, {placeholder7})" options) := by
  have hsection : Dialect.HasSection twoSections.toList :=
    ⟨"A = {1} AND B IN ({0}, {7}) ".toList, [' '], "Doc.ID] | [Branch.ID]".toList, by decide +kernel,
      List.forall_mem_singleton.mpr (by decide), by decide +kernel⟩
  have hbound : ∀ name ∈ Dialect.boundNames twoSections.toList, '|' ∉ name := by decide +kernel
  have hnormalized : (Dialect.canonicalize twoSections).normalized =
      "A = {Branch.ID} AND B IN ({Doc.ID}, {placeholder7})" := by decide +kernel
  have hboth := ofText_canonicalize hsection hbound (by rw [hnormalized]; decide +kernel)
  rw [hnormalized] at hboth
  exact ⟨hsection, hbound, hnormalized, hboth.2.2⟩

end CompiledFilter

end GridFilter
