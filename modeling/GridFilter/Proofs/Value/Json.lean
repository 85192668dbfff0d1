import GridFilter.Value.Json

/-! Values and their JSON forms. A value has a JSON form exactly if every number in it is finite, and it is read back from
    that form as it was: whole numbers stay whole, lists and objects keep their order. JSON whose whole numbers have 64
    bits and whose other numbers are finite is the form of what is read from it. -/

namespace GridFilter

/-! ### Parts -/

namespace Json

/-- A JSON value stands in another one: it is that one itself, or stands in an item of a list or under a name of an
    object. -/
inductive Within : Json → Json → Prop where
  | self (json : Json) : Within json json
  | item {part json : Json} {items : List Json} : json ∈ items → Within part json → Within part (.array items)
  | entry {part json : Json} {name : String} {entries : List (String × Json)} : (name, json) ∈ entries →
      Within part json → Within part (.object entries)

/-- The numbers in a JSON value are what they can be among values: a whole number has 64 bits, another one is finite. -/
structure Exact (json : Json) : Prop where
  integer : ∀ n, Within (.integer n) json → Int64.minValue.toInt ≤ n ∧ n ≤ Int64.maxValue.toInt
  double : ∀ x, Within (.double x) json → x.isFinite = true

variable {items : List Json} {entries : List (String × Json)}

theorem exact_integer {n : Int} : (Json.integer n).Exact ↔ Int64.minValue.toInt ≤ n ∧ n ≤ Int64.maxValue.toInt := by
  refine ⟨fun h => h.integer n (.self _), fun h => ⟨?_, nofun⟩⟩
  rintro _ ⟨⟩
  exact h

theorem exact_double {x : Binary64} : (Json.double x).Exact ↔ x.isFinite = true := by
  refine ⟨fun h => h.double x (.self _), fun h => ⟨nofun, ?_⟩⟩
  rintro _ ⟨⟩
  exact h

theorem exact_array : (Json.array items).Exact ↔ ∀ json ∈ items, json.Exact := by
  constructor
  · exact fun h json hitem => ⟨fun n hn => h.integer n (.item hitem hn), fun x hx => h.double x (.item hitem hx)⟩
  · refine fun h => ⟨fun n hn => ?_, fun x hx => ?_⟩
    · cases hn with
      | item hitem hn => exact (h _ hitem).integer n hn
    · cases hx with
      | item hitem hx => exact (h _ hitem).double x hx

theorem exact_object : (Json.object entries).Exact ↔ ∀ entry ∈ entries, entry.2.Exact := by
  constructor
  · exact fun h entry hentry => ⟨fun n hn => h.integer n (.entry hentry hn), fun x hx => h.double x (.entry hentry hx)⟩
  · refine fun h => ⟨fun n hn => ?_, fun x hx => ?_⟩
    · cases hn with
      | entry hentry hn => exact (h _ hentry).integer n hn
    · cases hx with
      | entry hentry hx => exact (h _ hentry).double x hx

end Json

namespace Value

/-- A value stands in another one: it is that one itself, or stands in an item of a list or under a name of an object. -/
inductive Within : Value → Value → Prop where
  | self (value : Value) : Within value value
  | item {part value : Value} {items : List Value} : value ∈ items → Within part value → Within part (.array items)
  | entry {part value : Value} {name : String} {entries : List (String × Value)} : (name, value) ∈ entries →
      Within part value → Within part (.object entries)

/-- A number that is not whole stands in a value. -/
def HasFloat (value : Value) (x : Binary64) : Prop := Within (.float x) value

variable {x : Binary64} {items : List Value} {entries : List (String × Value)}

theorem hasFloat_float {y : Binary64} : HasFloat (.float y) x ↔ x = y := by
  constructor
  · intro h
    cases h
    rfl
  · rintro rfl
    exact .self _

theorem hasFloat_array : HasFloat (.array items) x ↔ ∃ value ∈ items, HasFloat value x := by
  constructor
  · intro h
    cases h with
    | item hitem h => exact ⟨_, hitem, h⟩
  · rintro ⟨value, hitem, h⟩
    exact .item hitem h

theorem hasFloat_object : HasFloat (.object entries) x ↔ ∃ entry ∈ entries, HasFloat entry.2 x := by
  constructor
  · intro h
    cases h with
    | entry hentry h => exact ⟨_, hentry, h⟩
  · rintro ⟨⟨name, value⟩, hentry, h⟩
    exact .entry hentry h

/-! ### From a value to JSON -/

/-- What becomes of something that has numbers in it: all of them are finite and the outcome is as it should be, or the
    outcome is one of the numbers, which is not finite. -/
inductive Judged {α : Type} (numbers : Binary64 → Prop) (fits : α → Prop) : Except Binary64 α → Prop where
  | ok {a : α} : fits a → (∀ x, numbers x → x.isFinite = true) → Judged numbers fits (.ok a)
  | error {x : Binary64} : numbers x → x.isFinite = false → Judged numbers fits (.error x)

section
variable {α β γ : Type} {numbers first rest : Binary64 → Prop} {fits : α → Prop} {firstFits : β → Prop}
  {restFits : γ → Prop}

theorem Judged.map {f : β → α} {outcome : Except Binary64 β} (h : Judged first firstFits outcome)
    (hnumbers : ∀ x, numbers x ↔ first x) (hfits : ∀ b, firstFits b → fits (f b)) :
    Judged numbers fits (outcome.map f) := by
  cases h with
  | ok hb hfinite => exact .ok (hfits _ hb) fun x hx => hfinite x ((hnumbers x).mp hx)
  | error hx hfinite => exact .error ((hnumbers _).mpr hx) hfinite

/-- Of two outcomes one after the other, a number that is not finite in the first one is the outcome of both. -/
theorem Judged.both {f : β → γ → α} {outcome : Except Binary64 β} {others : Except Binary64 γ}
    (hfirst : Judged first firstFits outcome) (hrest : Judged rest restFits others)
    (hnumbers : ∀ x, numbers x ↔ first x ∨ rest x) (hfits : ∀ b c, firstFits b → restFits c → fits (f b c)) :
    Judged numbers fits (do let b ← outcome; let c ← others; return f b c) := by
  cases hfirst with
  | error hx hfinite => exact .error ((hnumbers _).mpr (.inl hx)) hfinite
  | ok hb hfirst =>
    cases hrest with
    | error hx hfinite => exact .error ((hnumbers _).mpr (.inr hx)) hfinite
    | ok hc hrest => exact .ok (hfits _ _ hb hc) fun x hx => ((hnumbers x).mp hx).elim (hfirst x) (hrest x)

end

theorem ofInteger_toInt (n : Int64) : ofInteger n.toInt = .int n := by
  rw [ofInteger, if_pos ⟨n.minValue_le_toInt, n.toInt_le⟩, Int64.ofInt_toInt]

mutual

theorem judged_toJson? : ∀ value : Value, Judged value.HasFloat (ofJson · = value) value.toJson?
  | .null | .bool _ | .string _ => .ok rfl fun _ h => nomatch h
  | .int n => .ok (ofInteger_toInt n) fun _ h => nomatch h
  | .float y => by
    rw [toJson?]
    split
    · next hfinite =>
      refine .ok rfl fun x hx => ?_
      rwa [hasFloat_float.mp hx]
    · next hfinite => exact .error (.self _) (Bool.eq_false_iff.mpr hfinite)
  | .array items => (judged_toJsonItems? items).map (fun _ => hasFloat_array) fun _ => congrArg Value.array
  | .object entries => (judged_toJsonEntries? entries).map (fun _ => hasFloat_object) fun _ => congrArg Value.object

theorem judged_toJsonItems? : ∀ items : List Value,
    Judged (fun x => ∃ value ∈ items, HasFloat value x) (ofJsonItems · = items) (toJsonItems? items)
  | [] => .ok rfl (by simp)
  | item :: rest => by
    refine (judged_toJson? item).both (judged_toJsonItems? rest) (by simp) fun json others hjson hothers => ?_
    rw [ofJsonItems, hjson, hothers]

theorem judged_toJsonEntries? : ∀ entries : List (String × Value),
    Judged (fun x => ∃ entry ∈ entries, HasFloat entry.2 x) (ofJsonEntries · = entries) (toJsonEntries? entries)
  | [] => .ok rfl (by simp)
  | (name, value) :: rest => by
    refine (judged_toJson? value).both (judged_toJsonEntries? rest) (by simp) fun json others hjson hothers => ?_
    rw [ofJsonEntries, hjson, hothers]

end

/-! ### From JSON to a value -/

theorem exists_ofInteger_eq {n : Int} (h : Int64.minValue.toInt ≤ n ∧ n ≤ Int64.maxValue.toInt) :
    ∃ m : Int64, ofInteger n = .int m ∧ m.toInt = n := by
  have hmin : Int64.minValue.toInt = -2 ^ 63 := rfl
  have hmax : Int64.maxValue.toInt = 2 ^ 63 - 1 := rfl
  exact ⟨.ofInt n, if_pos ⟨by omega, by omega⟩, Int64.toInt_ofInt_of_le (by omega) (by omega)⟩

mutual

theorem toJson?_ofJson : ∀ {json : Json}, json.Exact → (ofJson json).toJson? = .ok json
  | .null, _ | .bool _, _ | .string _, _ => rfl
  | .integer n, h => by
    obtain ⟨m, hm, rfl⟩ := exists_ofInteger_eq (Json.exact_integer.mp h)
    rw [ofJson, hm, toJson?]
  | .double x, h => by rw [ofJson, toJson?, if_pos (Json.exact_double.mp h)]
  | .array items, h => by
    rw [ofJson, toJson?, toJsonItems?_ofJsonItems (Json.exact_array.mp h)]
    rfl
  | .object entries, h => by
    rw [ofJson, toJson?, toJsonEntries?_ofJsonEntries (Json.exact_object.mp h)]
    rfl

theorem toJsonItems?_ofJsonItems : ∀ {items : List Json}, (∀ json ∈ items, json.Exact) →
    toJsonItems? (ofJsonItems items) = .ok items
  | [], _ => rfl
  | item :: rest, h => by
    obtain ⟨hitem, hrest⟩ := List.forall_mem_cons.mp h
    rw [ofJsonItems, toJsonItems?, toJson?_ofJson hitem, toJsonItems?_ofJsonItems hrest]
    rfl

theorem toJsonEntries?_ofJsonEntries : ∀ {entries : List (String × Json)}, (∀ entry ∈ entries, entry.2.Exact) →
    toJsonEntries? (ofJsonEntries entries) = .ok entries
  | [], _ => rfl
  | (name, json) :: rest, h => by
    obtain ⟨hjson, hrest⟩ := List.forall_mem_cons.mp h
    rw [ofJsonEntries, toJsonEntries?, toJson?_ofJson hjson, toJsonEntries?_ofJsonEntries hrest]
    rfl

end

/-! ### Both ways -/

/-- A value has no JSON form exactly if a number that is not finite stands somewhere in it, and what is read from the form
    that it has is the value itself, kinds of numbers and order included. What is read from JSON, where all whole numbers
    have 64 bits and all other numbers are finite, has that JSON for its form. -/
theorem toJson?_inverse_ofJson :
    (∀ value : Value, ((∃ x, value.toJson? = .error x) ↔ ∃ x, Within (.float x) value ∧ x.isFinite = false) ∧
      ∀ json, value.toJson? = .ok json → ofJson json = value) ∧
    ∀ json : Json, (∀ n, Json.Within (.integer n) json → Int64.minValue.toInt ≤ n ∧ n ≤ Int64.maxValue.toInt) →
      (∀ x, Json.Within (.double x) json → x.isFinite = true) → (ofJson json).toJson? = .ok json := by
  refine ⟨fun value => ?_, fun json hinteger hdouble => toJson?_ofJson ⟨hinteger, hdouble⟩⟩
  have hjudged := judged_toJson? value
  generalize value.toJson? = outcome at hjudged ⊢
  cases hjudged with
  | ok hback hfinite =>
    refine ⟨⟨nofun, ?_⟩, ?_⟩
    · rintro ⟨x, hx, hnot⟩
      rw [hfinite x hx] at hnot
      cases hnot
    · rintro json ⟨⟩
      exact hback
  | error hx hnot => exact ⟨⟨fun _ => ⟨_, hx, hnot⟩, fun _ => ⟨_, rfl⟩⟩, nofun⟩

/-- A value with the least whole number, minus zero, and zero both as a whole number and in double precision. -/
def nestedValue : Value := .object [("z", .array [.int Int64.minValue, .float (.zero true)]),
  ("É", .object [("", .float (.zero false)), ("0", .int 0)])]

/-- Its JSON form. -/
def nestedJson : Json := .object [("z", .array [.integer Int64.minValue.toInt, .double (.zero true)]),
  ("É", .object [("", .double (.zero false)), ("0", .integer 0)])]

theorem toJson?_inverse_ofJson_nested :
    nestedValue.toJson? = .ok nestedJson ∧ ofJson nestedJson = nestedValue ∧
      (∀ n, Json.Within (.integer n) nestedJson → Int64.minValue.toInt ≤ n ∧ n ≤ Int64.maxValue.toInt) ∧
      (∀ x, Json.Within (.double x) nestedJson → x.isFinite = true) ∧ (ofJson nestedJson).toJson? = .ok nestedJson ∧
      ∃ x, (Value.array [nestedValue, .object [("n", .float .nan)]]).toJson? = .error x := by
  have hform : nestedValue.toJson? = .ok nestedJson := by rfl
  have hzero (negative : Bool) : (Binary64.zero negative).isFinite = true := by rfl
  have hexact : nestedJson.Exact := by
    have hmax : Int64.maxValue.toInt = 9223372036854775807 := rfl
    simp [nestedJson, Json.exact_object, Json.exact_array, Json.exact_integer, Json.exact_double, hzero, hmax]
  have hnan : Within (.float .nan) (.array [nestedValue, .object [("n", .float .nan)]]) :=
    .item (.tail _ (.head _)) (.entry (.head _) (.self _))
  exact ⟨hform, (toJson?_inverse_ofJson.1 nestedValue).2 _ hform, hexact.integer, hexact.double,
    toJson?_inverse_ofJson.2 nestedJson hexact.integer hexact.double,
    (toJson?_inverse_ofJson.1 _).1.mpr ⟨.nan, hnan, rfl⟩⟩

end Value

end GridFilter
