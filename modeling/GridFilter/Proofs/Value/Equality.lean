import GridFilter.Decision

/-! Equality of values does not depend on which of the two comes first, and neither does a decision: a comparison
    and its inverse with the sides exchanged are decided alike. -/

namespace GridFilter

/-! ### Numbers -/

namespace Binary64

theorem related_comm {r q : Int → Int → Bool} (h : ∀ x y, r x y = q y x) (a b : Binary64) :
    related r a b = related q b a := by
  unfold related
  cases a.line <;> cases b.line <;> simp [h]

theorem same_comm (a b : Binary64) : a.same b = b.same a := related_comm (fun _ _ => Bool.beq_comm) a b

end Binary64

namespace Value

/-! ### Objects -/

/-- The entry that counts under each name the list has, and `known` does not, has an equal one in the other list. -/
theorem sameEntries_iff {known : List String} {listed entries : List (String × Value)} :
    sameEntries known listed entries = true ↔
      ∀ name a, listed.lookup name = some a → name ∉ known → ∃ b, entries.lookup name = some b ∧ a.same b = true := by
  induction listed generalizing known with
  | nil => simp [sameEntries]
  | cons entry rest ih =>
    obtain ⟨first, a⟩ := entry
    simp only [sameEntries, Bool.and_eq_true, Bool.or_eq_true, decide_eq_true_eq, ih]
    constructor
    · rintro ⟨hfirst, hrest⟩ name b hb hknown
      by_cases hname : name = first
      · subst hname
        obtain rfl : a = b := by simpa using hb
        rcases hfirst with hmem | hsame
        · exact absurd hmem hknown
        · cases hc : entries.lookup name with
          | none => simp [hc] at hsame
          | some c => exact ⟨c, rfl, by simpa [hc] using hsame⟩
      · have hb' : rest.lookup name = some b := by simpa [List.lookup_cons, beq_false_of_ne hname] using hb
        exact hrest name b hb' (by simp [hname, hknown])
    · intro h
      refine ⟨?_, fun name b hb hknown => ?_⟩
      · by_cases hknown : first ∈ known
        · exact Or.inl hknown
        · obtain ⟨c, hc, hsame⟩ := h first a (by simp) hknown
          exact Or.inr (by simpa [hc] using hsame)
      · simp only [List.mem_cons, not_or] at hknown
        exact h name b (by simpa [List.lookup_cons, beq_false_of_ne hknown.1] using hb) hknown.2

theorem all_lookup_isSome_iff {as bs : List (String × Value)} :
    (bs.all fun (name, _) => (as.lookup name).isSome) = true ↔
      ∀ name b, bs.lookup name = some b → ∃ a, as.lookup name = some a := by
  simp only [List.all_eq_true, Option.isSome_iff_exists]
  constructor
  · intro h name b hb
    obtain ⟨_, _, hsplit, _⟩ := List.lookup_eq_some_iff.mp hb
    exact h (name, b) (by simp [hsplit])
  · rintro h ⟨name, b⟩ hmem
    have : (bs.lookup name).isSome := List.lookup_isSome_iff.mpr ⟨(name, b), hmem, by simp⟩
    obtain ⟨c, hc⟩ := Option.isSome_iff_exists.mp this
    exact h name c hc

/-- Equal objects have the same names, and equal values under each of them. -/
theorem same_object_iff {as bs : List (String × Value)} : (Value.object as).same (.object bs) = true ↔
    (∀ name a, as.lookup name = some a → ∃ b, bs.lookup name = some b ∧ a.same b = true) ∧
      ∀ name b, bs.lookup name = some b → ∃ a, as.lookup name = some a := by
  rw [same, Bool.and_eq_true, sameEntries_iff, all_lookup_isSome_iff]
  simp

/-! ### Symmetry -/

theorem same_object_comm {as bs : List (String × Value)}
    (h : ∀ name a b, as.lookup name = some a → a.same b = b.same a) :
    (Value.object as).same (.object bs) = (Value.object bs).same (.object as) := by
  rw [Bool.eq_iff_iff, same_object_iff, same_object_iff]
  constructor
  · rintro ⟨hab, hba⟩
    refine ⟨fun name b hb => ?_, fun name a ha => ?_⟩
    · obtain ⟨a, ha⟩ := hba name b hb
      obtain ⟨b', hb', hsame⟩ := hab name a ha
      obtain rfl : b' = b := by simpa [hb'] using hb
      exact ⟨a, ha, h name a b' ha ▸ hsame⟩
    · obtain ⟨b, hb, -⟩ := hab name a ha
      exact ⟨b, hb⟩
  · rintro ⟨hba, hab⟩
    refine ⟨fun name a ha => ?_, fun name b hb => ?_⟩
    · obtain ⟨b, hb⟩ := hab name a ha
      obtain ⟨a', ha', hsame⟩ := hba name b hb
      obtain rfl : a' = a := by simpa [ha'] using ha
      exact ⟨b, hb, (h name a' b ha).symm ▸ hsame⟩
    · obtain ⟨a, ha, -⟩ := hba name b hb
      exact ⟨a, ha⟩

-- Entries are compared by name, not in their order, so each pair of them is found in the list on the left.
mutual

/-- Equality does not depend on which value comes first. -/
theorem same_comm : ∀ a b : Value, a.same b = b.same a
  | .object as, .object bs => same_object_comm fun name a b ha => same_comm_of_lookup as name a ha b
  | .array as, .array bs => by simp only [same, sameItems_comm as bs]
  | .float a, .float b => by simp only [same, Binary64.same_comm a b]
  | .int a, .float b => by simp only [same, Binary64.same_comm b]
  | .float a, .int b => by simp only [same, Binary64.same_comm a]
  | .null, b => by cases b <;> rfl
  | .bool a, b => by cases b <;> simp [same, Bool.beq_comm]
  | .string a, b => by cases b <;> simp [same, Bool.beq_comm]
  | .int a, .int b => by simp only [same, Bool.beq_comm]
  | .int _, .null | .int _, .bool _ | .int _, .string _ | .int _, .array _ | .int _, .object _ => rfl
  | .float _, .null | .float _, .bool _ | .float _, .string _ | .float _, .array _ | .float _, .object _ => rfl
  | .array _, .null | .array _, .bool _ | .array _, .int _ | .array _, .float _ | .array _, .string _
  | .array _, .object _ => rfl
  | .object _, .null | .object _, .bool _ | .object _, .int _ | .object _, .float _ | .object _, .string _
  | .object _, .array _ => rfl

theorem sameItems_comm : ∀ as bs : List Value, sameItems as bs = sameItems bs as
  | [], [] => rfl
  | [], _ :: _ => rfl
  | _ :: _, [] => rfl
  | a :: as, b :: bs => by simp only [sameItems, same_comm a b, sameItems_comm as bs]

theorem same_comm_of_lookup : ∀ (as : List (String × Value)) (name : String) (a : Value),
    as.lookup name = some a → ∀ b, a.same b = b.same a
  | (first, a) :: rest, name, c, h, b => by
    rw [List.lookup_cons] at h
    split at h
    · obtain rfl : a = c := by simpa using h
      exact same_comm a b
    · exact same_comm_of_lookup rest name c h b

end

/-! ### Decisions -/

theorem isRelational_inverse {comparison : Comparison} :
    comparison.inverse.isRelational = comparison.isRelational := by
  cases comparison <;> rfl

theorem decide?_inverse (left : Value) (comparison : Comparison) (right : Value) :
    left.decide? comparison right = right.decide? comparison.inverse left := by
  unfold decide?
  rw [same_comm right left]
  rcases left.reading? with - | - | x <;> rcases right.reading? with - | - | y <;> cases comparison <;> rfl

/-- Exchanging the sides of a comparison and inverting its operator changes no decision. -/
theorem decideStrictly?_inverse (left : Value) (comparison : Comparison) (right : Value) :
    left.decideStrictly? comparison right = right.decideStrictly? comparison.inverse left := by
  unfold decideStrictly?
  rw [decide?_inverse left comparison right, same_comm right left]
  cases right.decide? comparison.inverse left with
  | some b => rfl
  | none => cases comparison <;> rfl

/-- A comparison that is decided is decided alike when equality is decided of all values. -/
theorem decideStrictly?_of_decide? {left right : Value} {comparison : Comparison} {b : Bool}
    (h : left.decide? comparison right = some b) : left.decideStrictly? comparison right = some b := by
  simp only [decideStrictly?, h]

end Value

end GridFilter
