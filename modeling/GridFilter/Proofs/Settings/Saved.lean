import GridFilter.Proofs.Files
import GridFilter.Proofs.Settings.Layers
import GridFilter.Proofs.Settings.TomlText
import GridFilter.Proofs.Settings.YamlText

/-! Settings that were saved to a file. Where the path has an extension, reading the file gives the same settings again;
    a path without one is written in a format that the reading does not take it for. -/

namespace GridFilter.Settings

variable {formats : Formats} {settings : Settings} {tree saved : Tree} {input path : String}

/-! ### Round trips -/

namespace Formats

/-- Of what a format writes for some settings it reads every key back. -/
def RoundTrips (formats : Formats) (settings : Settings) : Prop :=
  ∀ format text, formats.write? format settings = some text → formats.read? format text = some settings.spelledOut

/-- The formats of this library read back what they write, where the numbers are those of a settings file. -/
theorem roundTrips_builtIn (hdepth : settings.maxDepth < UInt64.size) (hverbosity : settings.verbosity < 256) :
    builtIn.RoundTrips settings := by
  intro format text htext
  cases format with
  | toml =>
    simp only [builtIn, Option.some.injEq] at htext ⊢
    exact htext ▸ Toml.read?_write hdepth hverbosity
  | yaml =>
    simp only [builtIn, Option.some.injEq] at htext ⊢
    exact htext ▸ Yaml.read?_write hdepth hverbosity

end Formats

/-! ### Saved files -/

theorem run_write {text : String} : ((Tree.host input).write path text).run tree =
    match tree.write path text with
    | .ok saved => (.ok (), saved)
    | .error fault => (.error fault, tree) := by
  rcases hwrite : tree.write path text with fault | saved
  · simp [Tree.host, StateT.run_bind, hwrite]
    rfl
  · simp [Tree.host, StateT.run_bind, hwrite]
    rfl

theorem save_eq_ok (h : (save (Tree.host input) path settings formats).run tree = (.ok (), saved)) :
    ∃ text, textFor path settings formats = .ok text ∧ tree.write path text = .ok saved := by
  rw [save] at h
  rcases htext : textFor path settings formats with fault | text
  · rw [htext] at h
    cases h
  · simp only [htext] at h
    rw [StateT.run_bind, run_write] at h
    rcases hwrite : tree.write path text with fault | written
    · rw [hwrite] at h
      cases h
    · rw [hwrite] at h
      cases h
      exact ⟨text, rfl, hwrite⟩

theorem run_ofFile : ((ofFile (Tree.host input) path formats).run tree).1 =
    ((readLayer (Tree.host input) path formats).run tree).1.map fun layer => ofLayers [layer] := by
  rw [ofFile, StateT.run_bind]
  rfl

theorem textFor_eq_ok {text : String} (h : textFor path settings formats = .ok text) :
    ∃ format, FileFormat.ofExtension? ((Path.extension? path).getD "toml") = some format ∧
      formats.write? format settings = some text := by
  unfold textFor at h
  split at h
  · cases h
  · next format hformat =>
    split at h
    · next written hwritten =>
      cases h
      exact ⟨format, hformat, hwritten⟩
    · cases h

/-- Where the formats read back what they write, settings that were saved are read back wherever the path has an
    extension, and nowhere else. -/
theorem ofFile_save (hround : formats.RoundTrips settings)
    (h : (save (Tree.host input) path settings formats).run tree = (.ok (), saved)) :
    ((ofFile (Tree.host input) path formats).run saved).1 =
      if (Path.extension? path).isSome then .ok settings else .error .unsupportedFormat := by
  obtain ⟨text, htext, hwrite⟩ := save_eq_ok h
  obtain ⟨format, hformat, hwritten⟩ := textFor_eq_ok htext
  rw [run_ofFile, run_readLayer, Tree.read_write hwrite]
  simp only [layerOfText]
  -- Saving and reading make up different extensions where the path has none.
  rcases hextension : Path.extension? path with - | extension
  · rfl
  · rw [hextension, Option.getD_some] at hformat
    simp only [Option.getD_some, hformat, hround format text hwritten]
    exact congrArg Except.ok (ofLayers_spelledOut settings)

/-- An empty root directory. -/
def bare : Tree := ⟨[], [[]], []⟩

/-- The tree behind a path at which the defaults were saved. -/
def withDefaults (path : String) : Tree := ((save (Tree.host "") path {}).run bare).2

theorem save_defaults (h : ((save (Tree.host "") path {}).run bare).1 = .ok ()) :
    (save (Tree.host "") path {}).run bare = (.ok (), withDefaults path) := Prod.ext h rfl

theorem ofFile_save_yml : Formats.builtIn.RoundTrips {} ∧
    (save (Tree.host "") "o.yml" {}).run bare = (.ok (), withDefaults "o.yml") ∧
    ((ofFile (Tree.host "") "o.yml").run (withDefaults "o.yml")).1 = .ok {} := by
  have hround : Formats.builtIn.RoundTrips {} := Formats.roundTrips_builtIn (by decide) (by decide)
  have hsave := @save_defaults "o.yml" (by decide +kernel)
  exact ⟨hround, hsave, ofFile_save hround hsave⟩

/-- The defaults were saved, but not in a file that reads back, although the formats read back what they write. -/
theorem ofFile_save_nameless : Formats.builtIn.RoundTrips {} ∧
    (save (Tree.host "") "o" {}).run bare = (.ok (), withDefaults "o") ∧
    ((ofFile (Tree.host "") "o").run (withDefaults "o")).1 ≠ .ok {} :=
  ⟨Formats.roundTrips_builtIn (by decide) (by decide), save_defaults (by decide +kernel), by decide +kernel⟩

end GridFilter.Settings
