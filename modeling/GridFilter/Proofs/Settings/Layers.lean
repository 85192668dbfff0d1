import GridFilter.Cli.Program
import GridFilter.Proofs.Token.Words
import Mathlib.Data.List.Forall2
import Mathlib.Data.List.Induction

/-! Settings in layers. Each key has the value of the last layer that spells it, whatever the other keys are; the layers
    are the file found, the environment, the file named and the command line, and each of them says what it spells. -/

namespace GridFilter

namespace Settings

/-! ### Keys -/

/-- The keys of the settings, by the type of their values. -/
inductive Key : Type → Type
  | shortCircuit : Key Bool
  | expandIn : Key Bool
  | missingAttribute : Key MissingAttribute
  | maxDepth : Key Nat
  | pretty : Key Bool
  | verbosity : Key Nat

namespace Key
variable {α : Type}

/-- The value of a key. -/
def value : Key α → Settings → α
  | .shortCircuit, settings => settings.shortCircuit
  | .expandIn, settings => settings.expandIn
  | .missingAttribute, settings => settings.missingAttribute
  | .maxDepth, settings => settings.maxDepth
  | .pretty, settings => settings.pretty
  | .verbosity, settings => settings.verbosity

/-- The value that a layer spells for a key. -/
def spelled? : Key α → Layer → Option α
  | .shortCircuit, layer => layer.shortCircuit
  | .expandIn, layer => layer.expandIn
  | .missingAttribute, layer => layer.missingAttribute
  | .maxDepth, layer => layer.maxDepth
  | .pretty, layer => layer.pretty
  | .verbosity, layer => layer.verbosity

/-- The value that the last of the layers that spell a key spells for it. -/
def lastSpelled? (key : Key α) (layers : List Layer) : Option α := layers.reverse.findSome? key.spelled?

theorem value_under (key : Key α) (settings : Settings) (layer : Layer) :
    key.value (settings.under layer) = (key.spelled? layer).getD (key.value settings) := by
  cases key <;> rfl

/-- A key has the value of the last layer that spells it, or its default. -/
theorem value_ofLayers (key : Key α) (layers : List Layer) :
    key.value (ofLayers layers) = (key.lastSpelled? layers).getD (key.value {}) := by
  induction layers using List.reverseRecOn with
  | nil => rfl
  | append_singleton layers layer ih =>
    have hlast : ofLayers (layers ++ [layer]) = (ofLayers layers).under layer := by simp [ofLayers]
    rw [hlast, value_under, ih, lastSpelled?, lastSpelled?, List.reverse_concat, List.findSome?_cons]
    rcases key.spelled? layer with - | spelled <;> rfl

end Key

/-! ### Files -/

/-- What a settings file spells. -/
def FileSpells (formats : Formats) (tree : Tree) (path : String) (layer : Layer) : Prop :=
  ∃ text, tree.read path = .ok text ∧ layerOfText path text formats = .ok layer

/-- Nothing can be read at a path. -/
def Absent (tree : Tree) (path : String) : Prop := ∀ text, tree.read path ≠ .ok text

/-- The first of some paths at which there is a file, if there is one: in front of it nothing can be read. -/
inductive FirstFile (tree : Tree) (paths : List String) : Option String → Prop
  | missing (h : ∀ path ∈ paths, Absent tree path) : FirstFile tree paths none
  | file {before behind : List String} {path : String} (hpaths : paths = before ++ path :: behind)
      (hbefore : ∀ other ∈ before, Absent tree other) : FirstFile tree paths (some path)

/-- The layer of the first settings file at some places, which spells nothing where there is none. -/
inductive FoundIn (formats : Formats) (tree : Tree) (places : List String) : Layer → Prop
  | missing (h : FirstFile tree places none) : FoundIn formats tree places {}
  | file {path : String} {layer : Layer} (h : FirstFile tree places (some path))
      (hspells : FileSpells formats tree path layer) : FoundIn formats tree places layer

/-- The layer of the file that is named, which spells nothing where none is. -/
inductive NamedIn (formats : Formats) (tree : Tree) : Option String → Layer → Prop
  | missing : NamedIn formats tree none {}
  | file {path : String} {layer : Layer} (hspells : FileSpells formats tree path layer) :
      NamedIn formats tree (some path) layer

/-- The places in which settings files are looked for. -/
def places (directories : List String) : List String :=
  directories.flatMap fun directory => fileNames.map (Path.below directory)

variable {formats : Formats} {tree : Tree} {input path : String} {directories : List String} {layer : Layer}

theorem run_read : ((Tree.host input).read path).run tree = (tree.read path, tree) := rfl

theorem run_readLayer : (readLayer (Tree.host input) path formats).run tree =
    ((match tree.read path with
      | .error fault => .error (.unreadable path fault)
      | .ok text => layerOfText path text formats), tree) := by
  rw [readLayer, StateT.run_bind, run_read]
  rcases tree.read path with fault | text <;> rfl

theorem run_isFile : ((Tree.host input).isFile path).run tree =
    ((match tree.read path with
      | .ok _ | .error (.other _) => true
      | .error _ => false), tree) := by
  rw [Host.isFile, StateT.run_bind, run_read]
  rcases tree.read path with fault | text
  · cases fault <;> rfl
  · rfl

theorem FirstFile.cons {rest : List String} {found : Option String} (hpath : Absent tree path)
    (h : FirstFile tree rest found) : FirstFile tree (path :: rest) found := by
  cases h with
  | missing h => exact .missing (List.forall_mem_cons.mpr ⟨hpath, h⟩)
  | file hrest hbefore =>
    exact .file (by rw [hrest, List.cons_append]) (List.forall_mem_cons.mpr ⟨hpath, hbefore⟩)

theorem run_firstFile? (paths : List String) :
    ∃ found, ((Tree.host input).firstFile? paths).run tree = (found, tree) ∧ FirstFile tree paths found := by
  induction paths with
  | nil => exact ⟨none, rfl, .missing (by simp)⟩
  | cons path rest ih =>
    obtain ⟨found, hrun, hfound⟩ := ih
    have hhere : FirstFile tree (path :: rest) (some path) := @FirstFile.file _ _ [] rest _ rfl (by simp)
    rw [Host.firstFile?, StateT.run_bind, run_isFile]
    rcases hread : tree.read path with fault | text
    · have habsent : Absent tree path := fun text htext => by simp [hread] at htext
      -- A file that is there but cannot be read counts as found, as reading it then fails.
      cases fault with
      | other message => exact ⟨some path, rfl, hhere⟩
      | _ => exact ⟨found, hrun, hfound.cons habsent⟩
    · exact ⟨some path, rfl, hhere⟩

/-- Reading a file leaves the tree alone, and gives what the file spells. -/
theorem readLayer_spells {after : Tree} (h : (readLayer (Tree.host input) path formats).run tree = (.ok layer, after)) :
    after = tree ∧ FileSpells formats tree path layer := by
  rw [run_readLayer] at h
  obtain ⟨hlayer, rfl⟩ := Prod.mk.inj h
  rcases hread : tree.read path with fault | text
  · simp [hread] at hlayer
  · simp only [hread] at hlayer
    exact ⟨rfl, text, hread, hlayer⟩

theorem foundLayer_found {after : Tree}
    (h : (foundLayer (Tree.host input) directories formats).run tree = (.ok layer, after)) :
    after = tree ∧ FoundIn formats tree (places directories) layer := by
  obtain ⟨found, hrun, hfound⟩ := @run_firstFile? tree input (places directories)
  rw [foundLayer, StateT.run_bind] at h
  rw [places] at hrun
  rw [hrun] at h
  rcases found with - | path
  · obtain ⟨hlayer, rfl⟩ := Prod.mk.inj h
    cases hlayer
    exact ⟨rfl, .missing hfound⟩
  · obtain ⟨rfl, hspells⟩ := readLayer_spells h
    exact ⟨rfl, .file hfound hspells⟩

/-! ### The environment -/

/-- The texts that spell false for a flag: 0, and the word false in any case of its letters. -/
def SpellsFalse (text : String) : Prop :=
  text = "0" ∨ List.Forall₂ (fun c letter => c = letter ∨ c = letter.toUpper) text.toList "false".toList

/-- The text spells a number below a bound in digits, which may follow a plus. -/
def SpellsNumber (bound : Nat) (text : String) (n : Nat) : Prop :=
  ∃ digits, (text.toList = digits ∨ text.toList = '+' :: digits) ∧ digits ≠ [] ∧ (∀ c ∈ digits, c.isDigit = true) ∧
    Decimal.ofDigits digits = n ∧ n < bound

/-- What a variable says about a flag. -/
inductive FlagSpells : Option String → Option Bool → Prop
  | unset : FlagSpells none none
  | off {text : String} (h : SpellsFalse text) : FlagSpells (some text) (some false)
  | on {text : String} (h : ¬ SpellsFalse text) : FlagSpells (some text) (some true)

/-- What a variable says about the policy. A text that names none is not settled for. -/
inductive PolicySpells : Option String → Option MissingAttribute → Prop
  | unset : PolicySpells none none
  | named {text : String} {policy : MissingAttribute} (h : MissingAttribute.read? text = some policy) :
      PolicySpells (some text) (some policy)

/-- What a variable says about a number below a bound, with what a text that is none stands for. -/
inductive NumberSpells (bound : Nat) (unreadable : Option Nat) : Option String → Option Nat → Prop
  | unset : NumberSpells bound unreadable none none
  | number {text : String} {n : Nat} (h : SpellsNumber bound text n) : NumberSpells bound unreadable (some text) (some n)
  | unreadable {text : String} (h : ∀ n, ¬ SpellsNumber bound text n) : NumberSpells bound unreadable (some text) unreadable

/-- What the variables of the environment spell. -/
structure EnvironmentSpells (bindings : Table String) (layer : Layer) : Prop where
  shortCircuit : FlagSpells (bindings.get? "DXQ_SHORT_CIRCUIT") layer.shortCircuit
  expandIn : FlagSpells (bindings.get? "DXQ_EXPAND_IN") layer.expandIn
  missingAttribute : PolicySpells (bindings.get? "DXQ_MISSING_ATTRIBUTE") layer.missingAttribute
  maxDepth : NumberSpells UInt64.size (some 256) (bindings.get? "DXQ_MAX_DEPTH") layer.maxDepth
  pretty : layer.pretty = none
  verbosity : NumberSpells 256 none (bindings.get? "DXQ_VERBOSITY") layer.verbosity

theorem toNat_toLower {c : Char} (h : c.val ≥ 'A'.val ∧ c.val ≤ 'Z'.val) : c.toLower.toNat = c.toNat + 32 := by
  have hbounds : 65 ≤ c.val.toNat ∧ c.val.toNat ≤ 90 := by simpa [UInt32.le_iff_toNat_le] using h
  have hlower : c.toLower.val = c.val + ('a'.val - 'A'.val) := by
    delta Char.toLower
    rw [dif_pos h]
  have hshift : ('a'.val - 'A'.val).toNat = 32 := rfl
  rw [Char.toNat, hlower, UInt32.toNat_add, hshift, Char.toNat]
  omega

/-- A letter in lower case is that of itself and of its capital only. -/
theorem toLower_eq_iff {c letter : Char} (hletter : letter.isLower = true) :
    c.toLower = letter ↔ c = letter ∨ c = letter.toUpper := by
  have hsmall : letter.val ≥ 'a'.val ∧ letter.val ≤ 'z'.val := by
    delta Char.isLower at hletter
    simpa using hletter
  have hbounds : 97 ≤ letter.toNat ∧ letter.toNat ≤ 122 := by
    simpa [UInt32.le_iff_toNat_le] using hsmall
  have hself : letter.toLower = letter := by
    refine dif_neg ?_
    simp only [ge_iff_le, UInt32.le_iff_toNat_le]
    simp
    omega
  constructor
  · intro h
    by_cases hc : c.val ≥ 'A'.val ∧ c.val ≤ 'Z'.val
    · have hshift := toNat_toLower hc
      have hcapital : letter.toUpper.toNat = letter.toNat - 32 := Lexeme.toNat_toUpper hsmall
      rw [h] at hshift
      exact .inr (Char.toNat_inj.mp (by omega))
    · have hc' : c.toLower = c := dif_neg hc
      exact .inl (hc'.symm.trans h)
  · rintro (rfl | rfl)
    · exact hself
    · rw [Lexeme.toLower_toUpper, hself]

theorem map_toLower_eq_iff {chars word : List Char} (hword : ∀ letter ∈ word, letter.isLower = true) :
    chars.map Char.toLower = word ↔ List.Forall₂ (fun c letter => c = letter ∨ c = letter.toUpper) chars word := by
  induction word generalizing chars with
  | nil => simp
  | cons letter word ih =>
    obtain ⟨hletter, hword⟩ := List.forall_mem_cons.mp hword
    rcases chars with - | ⟨c, chars⟩
    · simp
    · rw [List.map_cons, List.cons.injEq, List.forall₂_cons, toLower_eq_iff hletter, ih hword]

theorem isSet_eq_false {text : String} : isSet text = false ↔ SpellsFalse text := by
  have hword : Text.sameLetters text "false" = true ↔ text.toList.map Char.toLower = "false".toList := by
    rw [Text.sameLetters, beq_iff_eq, Text.lower, Text.lower, String.ofList_inj]
    rfl
  rw [isSet, SpellsFalse, ← map_toLower_eq_iff (List.all_eq_true.mp rfl), ← hword]
  simp only [Bool.and_eq_false_iff, bne_eq_false_iff_eq, Bool.not_eq_false']

theorem nat?_eq_some {text : List Char} {n : Nat} : Decimal.nat? text = some n ↔
    ∃ digits, (text = digits ∨ text = '+' :: digits) ∧ digits ≠ [] ∧ (∀ c ∈ digits, c.isDigit = true) ∧
      Decimal.ofDigits digits = n := by
  have hread (digits : List Char) : (if digits ≠ [] && digits.all Char.isDigit then some (Decimal.ofDigits digits)
      else none) = some n ↔ digits ≠ [] ∧ (∀ c ∈ digits, c.isDigit = true) ∧ Decimal.ofDigits digits = n := by
    simp [and_assoc]
  have hplain (h : text.head? ≠ some '+') : Decimal.nat? text =
      if text ≠ [] && text.all Char.isDigit then some (Decimal.ofDigits text) else none := by
    rw [Decimal.nat?.eq_def]
    split
    · simp at h
    · rfl
  constructor
  · intro h
    by_cases hplus : text.head? = some '+'
    · obtain ⟨digits, rfl⟩ := List.head?_eq_some_iff.mp hplus
      exact ⟨digits, .inr rfl, (hread digits).mp h⟩
    · rw [hplain hplus] at h
      exact ⟨text, .inl rfl, (hread text).mp h⟩
  · rintro ⟨digits, rfl | rfl, hdigits⟩
    · have hplus : text.head? ≠ some '+' := fun h => by
        cases hdigits.2.1 '+' (List.mem_of_mem_head? h)
      rw [hplain hplus]
      exact (hread text).mpr hdigits
    · exact (hread digits).mpr hdigits

theorem numberBelow_eq_some {bound n : Nat} {text : String} :
    (Decimal.nat? text.toList).filter (· < bound) = some n ↔ SpellsNumber bound text n := by
  rw [Option.filter_eq_some_iff, nat?_eq_some, SpellsNumber, decide_eq_true_eq]
  constructor
  · rintro ⟨⟨digits, htext, hne, hdigits, hn⟩, hbound⟩
    exact ⟨digits, htext, hne, hdigits, hn, hbound⟩
  · rintro ⟨digits, htext, hne, hdigits, hn, hbound⟩
    exact ⟨⟨digits, htext, hne, hdigits, hn⟩, hbound⟩

theorem flagSpells (value : Option String) : FlagSpells value (value.map isSet) := by
  rcases value with - | text
  · exact .unset
  · rcases h : isSet text with - | -
    · rw [Option.map_some, h]
      exact .off (isSet_eq_false.mp h)
    · rw [Option.map_some, h]
      refine .on fun hfalse => ?_
      rw [isSet_eq_false.mpr hfalse] at h
      cases h

/-- What is read of a number below a bound, with what a text that is none stands for. -/
theorem numberSpells {bound : Nat} {otherwise : Option Nat} (value : Option String) :
    NumberSpells bound otherwise value
      (value.bind fun text => ((Decimal.nat? text.toList).filter (· < bound)).or otherwise) := by
  rcases value with - | text
  · exact .unset
  · rcases h : (Decimal.nat? text.toList).filter (· < bound) with - | n
    · rw [Option.bind_some, h]
      refine .unreadable fun n hn => ?_
      rw [numberBelow_eq_some.mpr hn] at h
      cases h
    · rw [Option.bind_some, h]
      exact .number (numberBelow_eq_some.mp h)

theorem some_depthOf (text : String) :
    some (depthOf text) = ((Decimal.nat? text.toList).filter (· < UInt64.size)).or (some 256) := by
  rw [depthOf]
  rcases Decimal.nat? text.toList with - | n
  · rfl
  · by_cases hn : n < UInt64.size
    · simp only [hn, if_true]
      rw [Option.filter_some_pos (by simpa using hn)]
      rfl
    · simp only [hn, if_false]
      rw [Option.filter_some_neg (by simpa using hn)]
      rfl

theorem environmentLayer_spells {bindings : Table String} (h : environmentLayer bindings = .ok layer) :
    EnvironmentSpells bindings layer := by
  have hdepth : (bindings.get? "DXQ_MAX_DEPTH").map depthOf =
      (bindings.get? "DXQ_MAX_DEPTH").bind fun text =>
        ((Decimal.nat? text.toList).filter (· < UInt64.size)).or (some 256) := by
    rw [Option.map_eq_bind]
    exact Option.bind_congr fun text _ => some_depthOf text
  have hlayer (policy : Option MissingAttribute) (hpolicy : PolicySpells (bindings.get? policyVariable) policy) :
      EnvironmentSpells bindings
        { shortCircuit := (bindings.get? "DXQ_SHORT_CIRCUIT").map isSet
          expandIn := (bindings.get? "DXQ_EXPAND_IN").map isSet
          missingAttribute := policy
          maxDepth := (bindings.get? "DXQ_MAX_DEPTH").map depthOf
          verbosity := (bindings.get? "DXQ_VERBOSITY").bind verbosityOf? } :=
    { shortCircuit := flagSpells _
      expandIn := flagSpells _
      missingAttribute := hpolicy
      maxDepth := hdepth ▸ numberSpells _
      pretty := rfl
      verbosity := by
        have h := @numberSpells 256 none (bindings.get? "DXQ_VERBOSITY")
        simp only [Option.or_none] at h
        exact h }
  rw [environmentLayer] at h
  rcases hvariable : bindings.get? policyVariable with - | text
  · rw [hvariable] at h
    cases h
    exact hlayer none (hvariable ▸ .unset)
  · rw [hvariable] at h
    rcases hread : MissingAttribute.read? text with - | policy
    · simp only [hread] at h
      cases h
    · simp only [hread] at h
      cases h
      exact hlayer (some policy) (hvariable ▸ .named hread)

theorem validate_eq_ok {settings valid : Settings} (h : settings.validate = .ok valid) :
    1 ≤ settings.maxDepth ∧ settings = valid := by
  rw [validate] at h
  split at h
  · cases h
  · cases h
    exact ⟨by omega, rfl⟩

end Settings

/-! ### The command line -/

namespace Cli

/-- What the command line spells. -/
structure LineSpells (overrides : Overrides) (layer : Settings.Layer) : Prop where
  shortCircuit : layer.shortCircuit = overrides.shortCircuit
  expandIn : layer.expandIn = overrides.expandIn
  missingAttribute : layer.missingAttribute = overrides.missingAttribute
  maxDepth : layer.maxDepth = overrides.maxDepth
  pretty : layer.pretty = if overrides.compact then some false else none
  verbosity : layer.verbosity = if overrides.verbose = 0 then none else some overrides.verbose

theorem lineSpells {overrides : Overrides} {layer : Settings.Layer} (h : overrides.layer = .ok layer) :
    LineSpells overrides layer := by
  rw [Overrides.layer] at h
  split at h
  · cases h
  · cases h
    exact ⟨rfl, rfl, rfl, rfl, rfl, rfl⟩

variable {formats : Settings.Formats} {tree after : Tree} {input : String} {α β : Type}

theorem run_bind_ok {step : Run (StateM Tree) α} {next : α → Run (StateM Tree) β} {b : β}
    (h : (step >>= next).run.run tree = (.ok b, after)) :
    ∃ a between, step.run.run tree = (.ok a, between) ∧ (next a).run.run between = (.ok b, after) := by
  rw [ExceptT.run_bind, StateT.run_bind] at h
  rcases hstep : step.run.run tree with ⟨failure | a, between⟩
  · rw [hstep] at h
    cases h
  · rw [hstep] at h
    exact ⟨a, between, rfl, h⟩

theorem run_attempt_ok {ε : Type} {reason : ε → Failure} {step : StateM Tree (Except ε α)} {a : α}
    (h : (attempt reason step).run.run tree = (.ok a, after)) : step.run tree = (.ok a, after) := by
  rw [attempt, ExceptT.run_mk, StateT.run_bind] at h
  rcases hstep : step.run tree with ⟨fault | result, between⟩
  · rw [hstep] at h
    cases h
  · rw [hstep] at h
    cases h
    rfl

theorem run_given_ok {ε : Type} {reason : ε → Failure} {result : Except ε α} {a : α}
    (h : (given reason result : Run (StateM Tree) α).run.run tree = (.ok a, after)) : result = .ok a ∧ after = tree := by
  rcases result with fault | a
  · cases h
  · cases h
    exact ⟨rfl, rfl⟩

theorem namedLayer_named {named : Option String} {layer : Settings.Layer}
    (h : (namedLayer (Tree.host input) formats named).run.run tree = (.ok layer, after)) :
    after = tree ∧ Settings.NamedIn formats tree named layer := by
  rcases named with - | path
  · cases h
    exact ⟨rfl, .missing⟩
  · obtain ⟨rfl, hspells⟩ := Settings.readLayer_spells (run_attempt_ok h)
    exact ⟨rfl, .file hspells⟩

/-- The settings of a run are layered key by key, whatever the formats of the files: the file found, the environment,
    the file that is named and the command line, over the defaults. -/
theorem gatherSettings_layered {environment : Settings.Environment} {overrides : Overrides} {settings : Settings}
    (h : ((gatherSettings (Tree.host input) environment overrides formats).run.run tree).1 = .ok settings) :
    ∃ found fromEnvironment named fromLine : Settings.Layer,
      Settings.FoundIn formats tree (Settings.places environment.directories) found ∧
      Settings.EnvironmentSpells environment.bindings fromEnvironment ∧
      Settings.NamedIn formats tree overrides.settingsFile named ∧
      LineSpells overrides fromLine ∧
      (∀ {α : Type} (key : Settings.Key α), key.value settings =
        (key.lastSpelled? [found, fromEnvironment, named, fromLine]).getD (key.value {})) ∧
      1 ≤ settings.maxDepth := by
  rw [gatherSettings] at h
  obtain ⟨found, afterFound, hfind, h⟩ := run_bind_ok (Prod.ext h rfl)
  obtain ⟨fromEnvironment, afterEnvironment, hlook, h⟩ := run_bind_ok h
  obtain ⟨named, afterNamed, hread, h⟩ := run_bind_ok h
  obtain ⟨fromLine, afterLine, hparse, hcheck⟩ := run_bind_ok h
  -- No step writes, so all of them look at the tree of the start.
  obtain ⟨rfl, hfound⟩ := Settings.foundLayer_found (run_attempt_ok hfind)
  obtain ⟨henvironment, rfl⟩ := run_given_ok hlook
  obtain ⟨rfl, hnamed⟩ := namedLayer_named hread
  obtain ⟨hline, -⟩ := run_given_ok hparse
  obtain ⟨hvalid, -⟩ := run_given_ok hcheck
  obtain ⟨hdepth, rfl⟩ := Settings.validate_eq_ok hvalid
  exact ⟨found, fromEnvironment, named, fromLine, hfound, Settings.environmentLayer_spells henvironment, hnamed,
    lineSpells hline, fun key => key.value_ofLayers _, hdepth⟩

/-- A settings file in the current directory, and another one beside it. -/
def home : Tree where
  files := [([['h'], "dxq.toml".toList], "[conversion]\nexpand_in = false\n[parser]\nmax_depth = 7\n"),
    ([['h'], "run.yml".toList], "conversion:\n  short_circuit: true\n")]
  directories := []
  current := [['h']]

/-- Variables of which one spells a flag, one a depth limit that cannot be read, and one a verbosity that is too large. -/
def surroundings : Settings.Environment where
  bindings := [("DXQ_SHORT_CIRCUIT", "FALSE"), ("DXQ_MAX_DEPTH", "lots"), ("DXQ_VERBOSITY", "300")]
  directories := [""]

/-- Of the file found only the list expansion is left: the file named takes the flag of the environment back. -/
theorem gatherSettings_layered_home :
    ((gatherSettings (Tree.host "") surroundings { compact := true, settingsFile := some "run.yml" }).run.run home).1 =
        .ok { expandIn := false, pretty := false } ∧
      ∃ found fromEnvironment named fromLine : Settings.Layer,
        Settings.FoundIn .builtIn home (Settings.places [""]) found ∧
        Settings.EnvironmentSpells surroundings.bindings fromEnvironment ∧
        Settings.NamedIn .builtIn home (some "run.yml") named ∧
        LineSpells { compact := true, settingsFile := some "run.yml" } fromLine ∧
        (∀ {α : Type} (key : Settings.Key α), key.value { expandIn := false, pretty := false } =
          (key.lastSpelled? [found, fromEnvironment, named, fromLine]).getD (key.value {})) ∧
        1 ≤ ParsedFilter.defaultMaxDepth := by
  have hsettings : ((gatherSettings (Tree.host "") surroundings
      { compact := true, settingsFile := some "run.yml" }).run.run home).1 =
        .ok { expandIn := false, pretty := false } := by decide +kernel
  exact ⟨hsettings, gatherSettings_layered hsettings⟩

end Cli

end GridFilter
