import GridFilter.Yaml.Node.Parser

/-! Reading block maps from their tokens: what a reader takes for a value, it takes whatever follows. -/

namespace GridFilter.Yaml.TokenReader

variable {α : Type} {read : Place → TokenReader Node} {place : Place} {tokens rest : List Token} {token : Token} {node : Node}
  {entries : List (Node × Node)} {anchors : List (String × Nat)} {handles : List (String × String)} {levels : Nat}

/-- A reader takes some tokens for a value. -/
def Takes (reader : TokenReader α) (tokens : List Token) (a : α) : Prop :=
  ∀ rest anchors, reader.run ⟨tokens ++ rest, anchors⟩ = some (a, ⟨rest, anchors⟩)

theorem takes_scalar (text : String) :
    Takes (TokenReader.node handles (levels + 1) place) [.scalar .plain text] (.scalar {} .plain text) := by
  intro rest anchors
  rfl

theorem run_sees {p : Token → Bool} {progress : Progress} :
    (sees p).run progress = some (progress.tokens.head?.any p, progress) := rfl

/-- Reading goes on where a reader stopped. -/
theorem run_bind {β : Type} {reader : TokenReader α} {next : α → TokenReader β} {before after : Progress} {a : α}
    (h : reader.run before = some (a, after)) : (reader >>= next).run before = (next a).run after := by
  rw [StateT.run_bind, h]
  rfl

theorem run_accept : (accept token).run ⟨token :: rest, anchors⟩ = some (true, ⟨rest, anchors⟩) := by
  rw [accept, run_bind run_sees]
  simp only [List.head?_cons, Option.any_some, beq_self_eq_true]
  rfl

theorem run_skip : skip.run ⟨token :: rest, anchors⟩ = some ((), ⟨rest, anchors⟩) := rfl

theorem run_expect : (expect token).run ⟨token :: rest, anchors⟩ = some ((), ⟨rest, anchors⟩) := by
  rw [expect, run_bind run_sees]
  simp only [List.head?_cons, Option.any_some, beq_self_eq_true]
  rfl

theorem Takes.nodeUnless {stops : List Token} (h : Takes (read place) (token :: tokens) node)
    (hstops : stops.contains token = false) : Takes (nodeUnless read place stops) (token :: tokens) node := by
  intro rest anchors
  rw [TokenReader.nodeUnless, run_bind run_sees]
  simp only [List.cons_append, List.head?_cons, Option.any_some, hstops]
  exact h rest anchors

/-- The tokens of the entries of a block, each a key and a value behind their marks. -/
inductive EntriesTake (read : Place → TokenReader Node) : List Token → List (Node × Node) → Prop
  | nil : EntriesTake read [] []
  | cons {ofKey ofValue others : List Token} {key value : Node} {entries : List (Node × Node)}
      (hkey : Takes (nodeUnless read .entry [.key, .value, .blockEnd]) ofKey key)
      (hvalue : Takes (nodeUnless read .entry [.key, .value, .blockEnd]) ofValue value)
      (h : EntriesTake read others entries) :
      EntriesTake read (.key :: (ofKey ++ .value :: (ofValue ++ others))) ((key, value) :: entries)

theorem EntriesTake.run {bound : Nat} (h : EntriesTake read tokens entries) (hbound : entries.length < bound) :
    (blockEntries read bound).run ⟨tokens ++ .blockEnd :: rest, anchors⟩ =
      some (entries, ⟨.blockEnd :: rest, anchors⟩) := by
  induction h generalizing bound with
  | nil =>
    obtain ⟨bound, rfl⟩ := Nat.exists_eq_succ_of_ne_zero (Nat.ne_of_gt hbound)
    rfl
  | @cons ofKey ofValue others key value entries hkey hvalue h ih =>
    obtain ⟨bound, rfl⟩ := Nat.exists_eq_succ_of_ne_zero (Nat.ne_of_gt (Nat.zero_lt_of_lt hbound))
    have hothers : entries.length < bound := Nat.lt_of_succ_lt_succ hbound
    rw [blockEntries, List.cons_append, run_bind run_accept, if_pos rfl, List.append_assoc, run_bind (hkey _ _),
      List.cons_append, run_bind run_accept, if_pos rfl, List.append_assoc, run_bind (hvalue _ _), run_bind (ih hothers)]
    rfl

theorem EntriesTake.length_le (h : EntriesTake read tokens entries) : entries.length ≤ tokens.length := by
  induction h with
  | nil => exact Nat.le_refl _
  | cons hkey hvalue h ih =>
    simp
    omega

theorem takes_map (hplace : place ≠ .flow) (h : EntriesTake (TokenReader.node handles levels) tokens entries) :
    Takes (TokenReader.node handles (levels + 1) place) (.entriesStart :: (tokens ++ [.blockEnd])) (.map {} entries) := by
  intro rest anchors
  have hbound : entries.length < (Token.entriesStart :: (tokens ++ Token.blockEnd :: rest)).length := by
    have hlength := h.length_le
    simp
    omega
  have hfront : (TokenReader.node handles (levels + 1) place).run
      ⟨.entriesStart :: (tokens ++ .blockEnd :: rest), anchors⟩ =
        (content (TokenReader.node handles levels) place {}).run
          ⟨.entriesStart :: (tokens ++ .blockEnd :: rest), anchors⟩ := rfl
  rw [List.cons_append, List.append_assoc, List.singleton_append, hfront, content, run_bind rfl]
  simp only [hplace, if_false]
  rw [run_bind run_skip, run_bind (h.run hbound), run_bind run_expect]
  rfl

end GridFilter.Yaml.TokenReader
