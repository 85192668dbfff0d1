import GridFilter.Files

/-! Files in a tree. Writing a file takes no directory away, so every walk that succeeded still ends at its place, and
    what was written is what is read there. -/

namespace GridFilter.Tree

variable {tree other saved : Tree} {here place : List (List Char)} {path text : String}

theorem isDirectory_replace {files : List (List (List Char) × String)} {directory : List (List Char)}
    (h : files.any (fun file => directory.isPrefixOf file.1 && directory != file.1) = true) :
    (replace place text files).any (fun file => directory.isPrefixOf file.1 && directory != file.1) = true := by
  induction files with
  | nil => cases h
  | cons file rest ih =>
    obtain ⟨known, old⟩ := file
    rw [replace]
    split
    · exact h
    · rw [List.any_cons, Bool.or_eq_true] at h ⊢
      exact h.imp_right ih

theorem isDirectory_written {directory : List (List Char)} (h : tree.isDirectory directory = true) :
    { tree with files := replace place text tree.files }.isDirectory directory = true := by
  rw [isDirectory, Bool.or_eq_true] at h ⊢
  exact h.imp_right isDirectory_replace

/-- A walk needs no more than the directories on its way. -/
theorem walk_mono (hmore : ∀ directory, tree.isDirectory directory = true → other.isDirectory directory = true)
    {components : List (List Char)} (h : tree.walk here components = .ok place) :
    other.walk here components = .ok place := by
  induction components generalizing here with
  | nil => exact h
  | cons name rest ih =>
    rw [walk] at h ⊢
    split at h
    · cases h
    · rename_i hname
      rw [if_neg hname]
      dsimp only at h ⊢
      -- Both walks step to the same place, and only the test for a directory there differs.
      generalize (if name = [] ∨ name = ['.'] then here else if name = ['.', '.'] then here.dropLast
        else here ++ [name]) = next at h ⊢
      split at h
      · rename_i hway
        rw [if_pos (hway.imp_right (hmore _))]
        exact ih h
      · cases h

theorem place_mono (hmore : ∀ directory, tree.isDirectory directory = true → other.isDirectory directory = true)
    (hcurrent : other.current = tree.current) (h : tree.place path = .ok place) : other.place path = .ok place := by
  rw [Tree.place, follow] at h ⊢
  split at h
  · cases h
  · rename_i hnul
    split at h
    · cases h
    · rename_i hempty
      rw [if_neg hnul, if_neg hempty, hcurrent]
      exact walk_mono hmore h

theorem lookup_replace (files : List (List (List Char) × String)) : (replace place text files).lookup place = some text := by
  induction files with
  | nil => rw [replace, List.lookup_cons_self]
  | cons file rest ih =>
    obtain ⟨known, old⟩ := file
    rw [replace]
    split
    · rename_i heq
      rw [heq, List.lookup_cons_self]
    · rename_i hne
      have hother : (place == known) = false := by simpa using Ne.symm hne
      rw [List.lookup_cons, hother]
      exact ih

theorem placeForFile_eq_ok (h : tree.placeForFile path = .ok place) : tree.place path = .ok place := by
  rw [placeForFile] at h
  split at h
  · rcases hahead : tree.follow path (Path.ahead path) with fault | ahead
    · rw [hahead] at h
      cases h
    · rw [hahead] at h
      cases h
  · exact h

/-- What was written to a path is what is read there. -/
theorem read_write (h : tree.write path text = .ok saved) : saved.read path = .ok text := by
  rw [write] at h
  rcases hplace : tree.placeForFile path with fault | place
  · rw [hplace] at h
    cases h
  · simp only [hplace] at h
    split at h
    · cases h
    · split at h
      · obtain rfl := Except.ok.inj h
        rw [read, place_mono (fun _ => isDirectory_written) rfl (placeForFile_eq_ok hplace)]
        simp only [file?, lookup_replace]
      · cases h

end GridFilter.Tree
