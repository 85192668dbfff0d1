import GridFilter.Proofs.Settings.Document
import GridFilter.Proofs.Token.Words
import GridFilter.Yaml.Token.Lexer

/-! Cutting block text into tokens. Outside of brackets a word in front of a colon is a key, a word in front of the end
    of its line is a value, and the column of the next line tells which blocks go on. -/

namespace GridFilter.Yaml
open Settings

variable {cursor : Cursor} {text rest : List Char} {c : Char} {word : String}

/-! ### Characters -/

theorem not_isBlank (h : isWordChar c = true) : isBlank c = false := by
  have hn := toNat_of_isWordChar h
  simp [isBlank, ← Char.toNat_inj]
  omega

theorem not_isBreak (h : isWordChar c = true) : isBreak c = false := by
  have hn := toNat_of_isWordChar h
  simp [isBreak, ← Char.toNat_inj]
  omega

/-- A text that starts with a word character or a colon, or that is at its end. -/
def IsSolid (text : List Char) : Prop := ∀ c ∈ text.head?, isWordChar c = true ∨ c = ':'

theorem IsSolid.not_isBlank (h : IsSolid text) : ∀ c ∈ text.head?, isBlank c = false := fun c hc => by
  rcases h c hc with hword | rfl
  · exact Yaml.not_isBlank hword
  · decide

theorem IsSolid.not_isBreak (h : IsSolid text) : ∀ c ∈ text.head?, isBreak c = false := fun c hc => by
  rcases h c hc with hword | rfl
  · exact Yaml.not_isBreak hword
  · decide

theorem isSolid_word (h : IsWord word) (rest : List Char) : IsSolid (word.toList ++ rest) := by
  obtain ⟨c, chars, hchars, -⟩ := h.exists_cons
  rw [hchars]
  rintro d ⟨⟩
  exact .inl (h.chars c (by simp [hchars]))

theorem IsSolid.ne (h : IsSolid text) {d : Char} (hd : isWordChar d = false) (hcolon : ':' ≠ d) :
    ∀ c ∈ text.head?, c ≠ d := fun c hc => by
  rcases h c hc with hword | rfl
  · exact ne_of_holds hword hd
  · exact hcolon

/-! ### Cursors -/

namespace Cursor

@[simp] theorem rest_advance (count : Nat) : (cursor.advance count).rest = cursor.rest.drop count := rfl

@[simp] theorem column_advance (count : Nat) : (cursor.advance count).column = cursor.column + count := rfl

theorem advance_advance (m n : Nat) : (cursor.advance m).advance n = cursor.advance (m + n) := by
  simp [advance, List.drop_drop, Nat.add_assoc]

theorem sees_eq_false {p : Char → Bool} (h : ∀ c ∈ cursor.rest.head?, p c = false) : cursor.sees p = false := by
  rw [sees]
  rcases hhead : cursor.rest.head? with - | c
  · rfl
  · exact h c hhead

theorem lineBreak?_of_none (h : ∀ c ∈ cursor.rest.head?, isBreak c = false) : cursor.lineBreak? = none := by
  rw [lineBreak?]
  split
  all_goals first
    | rfl
    | (rename_i htext
       exact absurd (h _ (by rw [htext]; rfl)) (by decide))

theorem skipWhile_replicate {p : Char → Bool} {d : Char} {count : Nat} (hrest : cursor.rest = List.replicate count d ++ text)
    (hd : p d = true) (htext : ∀ c ∈ text.head?, p c = false) : cursor.skipWhile p = cursor.advance count := by
  have hspan : ∀ c ∈ List.replicate count d, p c = true := fun c hc => by rw [List.eq_of_mem_replicate hc, hd]
  rw [skipWhile, takeWhile, hrest, Lexeme.takeWhile_append_stop hspan htext, List.length_replicate]

/-- Blanks are skipped up to a text that is no comment. -/
theorem skip_blanks {p : Char → Bool} {count : Nat} (hrest : cursor.rest = List.replicate count ' ' ++ text) (hp : p ' ' = true)
    (htext : ∀ c ∈ text.head?, p c = false ∧ c ≠ '#' ∧ c ≠ '\uFEFF') :
    (cursor.skipOrderMark.skipWhile p).skipComment = cursor.advance count := by
  have hmark : cursor.sees (· == '\uFEFF') = false := by
    refine sees_eq_false ?_
    rw [hrest]
    rcases count with - | count
    · exact fun c hc => beq_eq_false_iff_ne.mpr (htext c hc).2.2
    · rintro c ⟨⟩
      decide
  have hcomment : (cursor.advance count).sees (· == '#') = false := by
    refine sees_eq_false ?_
    rw [rest_advance, hrest, List.drop_left' (List.length_replicate ..)]
    exact fun c hc => beq_eq_false_iff_ne.mpr (htext c hc).2.1
  rw [skipOrderMark, hmark, Bool.and_false, if_neg Bool.false_ne_true, skipWhile_replicate hrest hp fun c hc => (htext c hc).1,
    skipComment, hcomment, if_neg Bool.false_ne_true]

end Cursor

/-! ### Words -/

theorem wordOf?_append {chars : List Char} (hchars : ∀ c ∈ chars, isWordChar c = true)
    (hrest : wordOf? false rest = some []) : wordOf? false (chars ++ rest) = some chars := by
  induction chars with
  | nil => exact hrest
  | cons c chars ih =>
    obtain ⟨hc, hchars⟩ := List.forall_mem_cons.mp hchars
    have hcolon : (c == ':') = false := beq_eq_false_iff_ne.mpr (ne_of_holds hc rfl)
    rw [List.cons_append, wordOf?, not_isBlank hc, not_isBreak hc, hcolon]
    simp [ih hchars]

theorem spaceFrom_solid {column bound : Nat} {known : Space} (h : IsSolid cursor.rest) :
    spaceFrom column bound known cursor = some (known, cursor) := by
  cases bound with
  | zero => rfl
  | succ bound =>
    rw [spaceFrom]
    simp only [Cursor.lineBreak?_of_none h.not_isBreak]
    rcases hrest : cursor.rest with - | ⟨c, rest⟩
    · rfl
    · have hc : isBlank c = false := h.not_isBlank c (by rw [hrest]; rfl)
      simp [hc]

/-- Behind the end of a line blanks are left out. -/
theorem spaceFrom_blanks {column bound count : Nat} {known : Space} (hknown : known.breaks ≠ [])
    (hrest : cursor.rest = List.replicate count ' ' ++ text) (htext : IsSolid text) (hbound : count ≤ bound) :
    spaceFrom column bound known cursor = some (known, cursor.advance count) := by
  induction count generalizing bound cursor with
  | zero => exact spaceFrom_solid (hrest.symm ▸ htext)
  | succ count ih =>
    obtain ⟨bound, rfl⟩ := Nat.exists_eq_succ_of_ne_zero (by omega : bound ≠ 0)
    rw [List.replicate_succ, List.cons_append] at hrest
    have hbreak : cursor.lineBreak? = none := Cursor.lineBreak?_of_none (by simp [hrest, isBreak])
    have hnext : cursor.next.rest = List.replicate count ' ' ++ text := by simp [Cursor.next, hrest]
    rw [spaceFrom]
    simp only [hbreak, hrest]
    rw [if_neg (by decide), if_neg hknown, if_neg (by simp), ih hnext (by omega), Cursor.next, Cursor.advance_advance,
      Nat.add_comm]

theorem space_of_solid {column : Nat} (h : IsSolid cursor.rest) : space column cursor = some ({}, cursor) :=
  spaceFrom_solid h

/-- The end of a line and the indentation of the next one are a space. -/
theorem space_newline {column count : Nat} (hrest : cursor.rest = '\n' :: (List.replicate count ' ' ++ text))
    (htext : IsSolid text) :
    space column cursor = some ({ breaks := ['\n'] }, (cursor.startLine 1).advance count) := by
  have hbreak : cursor.lineBreak? = some ('\n', cursor.startLine 1) := by
    simp [Cursor.lineBreak?, hrest]
  have hnext : (cursor.startLine 1).rest = List.replicate count ' ' ++ text := by simp [Cursor.startLine, hrest]
  rw [space, spaceFrom]
  simp only [hbreak]
  exact spaceFrom_blanks (by simp) hnext htext (by simp [hrest]; omega)

/-! ### Scalars -/

theorem not_isDocumentMark (hrest : ∀ c ∈ cursor.rest.head?, c ≠ '-' ∧ c ≠ '.') : cursor.isDocumentMark = false := by
  have hmark (mark : Char) (h : ∀ c ∈ cursor.rest.head?, c ≠ mark) : isMark mark cursor.rest = false := by
    rw [isMark.eq_def]
    split
    · rename_i a b d rest htext
      have ha : (a == mark) = false := beq_eq_false_iff_ne.mpr (h a (by rw [htext]; rfl))
      rw [ha]
      rfl
    · rfl
  rw [Cursor.isDocumentMark, hmark _ fun c hc => (hrest c hc).1, hmark _ fun c hc => (hrest c hc).2]
  simp

theorem wordOf?_colon (hgap : isGap rest = true) : wordOf? false (':' :: rest) = some [] := by
  simp [wordOf?, hgap]

/-- What follows a word in a scalar without quotes: the gap behind it, and further words unless the scalar ends. -/
theorem plainWords_word {column bound : Nat} {afterBreak : Bool} {after : Cursor} {gap : Space} (hword : IsWord word)
    (hrest : cursor.rest = word.toList ++ rest) (hend : wordOf? false rest = some [])
    (hspace : space column (cursor.advance word.toList.length) = some (gap, after)) :
    plainWords false column (bound + 1) afterBreak cursor =
      if isGap after.rest || after.column < column then some ((word.toList, decide (gap.breaks ≠ [])), after)
      else do
        let ((others, afterBreak), after) ← plainWords false column bound (decide (gap.breaks ≠ [])) after
        return ((if others = [] then word.toList else word.toList ++ gap.fold ++ others, afterBreak), after) := by
  obtain ⟨c, chars, hchars, hc⟩ := hword.exists_cons
  have hfront : ∀ d ∈ cursor.rest.head?, d.isAlphanum = true := by
    rw [hrest, hchars]
    rintro d ⟨⟩
    exact hc
  have hmark : cursor.isDocumentMark = false :=
    not_isDocumentMark fun d hd => ⟨ne_of_holds (hfront d hd) rfl, ne_of_holds (hfront d hd) rfl⟩
  have hcomment : cursor.sees (· == '#') = false :=
    Cursor.sees_eq_false fun d hd => beq_eq_false_iff_ne.mpr (ne_of_holds (hfront d hd) rfl)
  rw [plainWords]
  dsimp only
  rw [hmark, hcomment, Bool.or_false, if_neg Bool.false_ne_true, hrest, wordOf?_append hword.chars hend]
  simp only [Option.bind_eq_bind, Option.bind_some]
  split
  · rename_i hnil
    rw [hchars] at hnil
    cases hnil
  · rw [hspace]
    rfl

theorem plainWords_colon {column bound : Nat} {afterBreak : Bool} (hrest : cursor.rest = ':' :: rest)
    (hgap : isGap rest = true) :
    plainWords false column (bound + 1) afterBreak cursor = some (([], afterBreak), cursor) := by
  have hmark : cursor.isDocumentMark = false := not_isDocumentMark (by simp [hrest])
  rw [plainWords]
  dsimp only
  rw [hmark, Cursor.sees_eq_false (by simp [hrest]), Bool.or_false, if_neg Bool.false_ne_true, hrest, wordOf?_colon hgap]
  rfl

/-- A word in front of a colon and a gap is a scalar, and its line goes on. -/
theorem plain_key {column : Nat} (hword : IsWord word) (hrest : cursor.rest = word.toList ++ ':' :: rest)
    (hgap : isGap rest = true) (hcolumn : column ≤ cursor.column + 1) :
    plain false column cursor = some ((word, false), cursor.advance word.toList.length) := by
  have hbehind : (cursor.advance word.toList.length).rest = ':' :: rest := by simp [hrest]
  have hspace : space column (cursor.advance word.toList.length) = some ({}, cursor.advance word.toList.length) :=
    space_of_solid (by rw [hbehind]; simp [IsSolid])
  have hgoes : (isGap (cursor.advance word.toList.length).rest ||
      decide ((cursor.advance word.toList.length).column < column)) = false := by
    obtain ⟨c, chars, hchars, -⟩ := hword.exists_cons
    simp [hrest, isGap, isBlank, isBreak, hchars]
    omega
  have hbound : cursor.rest.length = (word.toList.length + rest.length) + 1 := by
    simp [hrest]
    omega
  rw [plain, plainWords_word hword hrest (wordOf?_colon hgap) hspace, hgoes, if_neg Bool.false_ne_true, hbound,
    plainWords_colon hbehind hgap]
  simp

/-- A word at the end of its line is a scalar, where the next line starts no deeper than the block around it. -/
theorem plain_value {column count : Nat} (hword : IsWord word)
    (hrest : cursor.rest = word.toList ++ '\n' :: (List.replicate count ' ' ++ text)) (htext : IsSolid text)
    (hend : text = [] ∨ count < column) :
    plain false column cursor =
      some ((word, true), ((cursor.advance word.toList.length).startLine 1).advance count) := by
  have hbehind : (cursor.advance word.toList.length).rest = '\n' :: (List.replicate count ' ' ++ text) := by simp [hrest]
  have hstop : (isGap (((cursor.advance word.toList.length).startLine 1).advance count).rest ||
      decide ((((cursor.advance word.toList.length).startLine 1).advance count).column < column)) = true := by
    rcases hend with rfl | hcolumn
    · simp [Cursor.startLine, hrest, isGap]
    · simp [Cursor.startLine, hcolumn]
  rw [plain, plainWords_word hword hrest (by simp [wordOf?, isBlank, isBreak]) (space_newline hbehind htext), if_pos hstop]
  simp

/-! ### Between tokens -/

namespace Lexer

/-- A lexer outside of brackets that has seen no key: what it read so far, and the blocks that are open. -/
def outside (cursor : Cursor) (front : List Token) (blocks : List Nat) (keyAllowed : Bool) : Lexer :=
  { cursor, tokens := front.reverse, blocks, keyAllowed }

variable {front : List Token} {blocks : List Nat} {keyAllowed : Bool} {lexer : Lexer}

theorem skip_indentation {count : Nat} (hrest : cursor.rest = List.replicate count ' ' ++ text) (htext : IsSolid text) :
    (cursor.skipOrderMark.skipWhile lexer.parts).skipComment = cursor.advance count ∧
      (cursor.advance count).lineBreak? = none := by
  refine ⟨Cursor.skip_blanks hrest (by simp [parts]) fun c hc => ⟨?_, htext.ne rfl (by decide) c hc,
    htext.ne rfl (by decide) c hc⟩, Cursor.lineBreak?_of_none ?_⟩
  · have hspace : c ≠ ' ' := htext.ne rfl (by decide) c hc
    have htab : c ≠ '\t' := htext.ne rfl (by decide) c hc
    simp [parts, hspace, htab]
  · rw [Cursor.rest_advance, hrest, List.drop_left' (List.length_replicate ..)]
    exact htext.not_isBreak

theorem skipGaps_blanks {bound count : Nat} (hrest : lexer.cursor.rest = List.replicate count ' ' ++ text)
    (htext : IsSolid text) : skipGaps (bound + 1) lexer = { lexer with cursor := lexer.cursor.advance count } := by
  obtain ⟨hskip, hbreak⟩ := @skip_indentation _ _ lexer _ hrest htext
  rw [skipGaps, hskip]
  simp only [hbreak]

/-- At the end of a line the lexer goes on behind the indentation of the next one, where a key may start. -/
theorem skipGaps_newline {bound count : Nat} (hrest : lexer.cursor.rest = '\n' :: (List.replicate count ' ' ++ text))
    (htext : IsSolid text) (houter : lexer.outer = []) : skipGaps (bound + 2) lexer =
      { lexer with cursor := (lexer.cursor.startLine 1).advance count, keyAllowed := true } := by
  have hskip : (lexer.cursor.skipOrderMark.skipWhile lexer.parts).skipComment = lexer.cursor := by
    refine @Cursor.skip_blanks _ _ _ 0 hrest (by simp [parts]) ?_
    rintro c ⟨⟩
    exact ⟨by simp [parts], by decide, by decide⟩
  have hbreak : lexer.cursor.lineBreak? = some ('\n', lexer.cursor.startLine 1) := by simp [Cursor.lineBreak?, hrest]
  have hnext : (lexer.cursor.startLine 1).rest = List.replicate count ' ' ++ text := by simp [Cursor.startLine, hrest]
  rw [skipGaps, hskip]
  simp only [hbreak]
  rw [skipGaps_blanks hnext htext]
  simp [inFlow, houter]

theorem advance?_blanks {count : Nat} (hrest : cursor.rest = List.replicate count ' ' ++ text) (htext : IsSolid text) :
    (outside cursor front blocks keyAllowed).advance? =
      some ((outside (cursor.advance count) front blocks keyAllowed).closeBlocks (cursor.column + count)) := by
  have hskip : skipGaps (cursor.rest.length + 1) (outside cursor front blocks keyAllowed) =
      outside (cursor.advance count) front blocks keyAllowed := skipGaps_blanks hrest htext
  rw [advance?]
  exact congrArg (fun lexer => dropPassedKeys? lexer >>= fun lexer => some (lexer.closeBlocks lexer.cursor.column)) hskip

theorem advance?_newline {count : Nat} (hrest : cursor.rest = '\n' :: (List.replicate count ' ' ++ text))
    (htext : IsSolid text) : (outside cursor front blocks keyAllowed).advance? =
      some ((outside ((cursor.startLine 1).advance count) front blocks true).closeBlocks count) := by
  have hskip : skipGaps (cursor.rest.length + 1) (outside cursor front blocks keyAllowed) =
      outside ((cursor.startLine 1).advance count) front blocks true := by
    have hbound : cursor.rest.length + 1 = (count + text.length) + 2 := by simp [hrest]
    rw [hbound]
    exact skipGaps_newline hrest htext rfl
  rw [advance?]
  refine (congrArg (fun lexer => dropPassedKeys? lexer >>= fun lexer => some (lexer.closeBlocks lexer.cursor.column))
    hskip).trans ?_
  exact congrArg (fun column => some (closeBlocks _ column)) (Nat.zero_add count)

/-! ### Runs -/

/-- Reading goes from one lexer to another: as many tokens are read as are bounded by the characters passed. -/
def Runs (a b : Lexer) : Prop := ∃ count, count + b.cursor.rest.length ≤ a.cursor.rest.length ∧
  ∀ bound, tokensUpTo (bound + count) a = tokensUpTo bound b

theorem Runs.trans {a b c : Lexer} (hab : Runs a b) (hbc : Runs b c) : Runs a c := by
  obtain ⟨m, hm, hab⟩ := hab
  obtain ⟨n, hn, hbc⟩ := hbc
  refine ⟨n + m, by omega, fun bound => ?_⟩
  rw [← Nat.add_assoc, hab, hbc]

/-- Lexers that stop at the same place for the next token read the same tokens. -/
theorem Runs.of_advance {a b : Lexer} (hrest : b.cursor.rest.length ≤ a.cursor.rest.length)
    (h : a.advance? = b.advance?) : Runs a b := by
  refine ⟨0, by omega, fun bound => ?_⟩
  cases bound with
  | zero => rfl
  | succ bound => rw [Nat.add_zero, tokensUpTo, tokensUpTo, h]

theorem Runs.of_token {a b next : Lexer} (hadvance : a.advance? = some next) (hrest : next.cursor.rest = c :: rest)
    (htoken : next.token? c rest = some b) (hshorter : b.cursor.rest.length < a.cursor.rest.length) : Runs a b := by
  refine ⟨1, by omega, fun bound => ?_⟩
  rw [tokensUpTo, hadvance]
  simp only [Option.bind_eq_bind, Option.bind_some, hrest, htoken]

theorem takeWhile_within {column : Nat} (h : ∀ block ∈ blocks.head?, block ≤ column) :
    blocks.takeWhile (column < ·) = [] ∧ blocks.dropWhile (column < ·) = blocks := by
  rcases blocks with - | ⟨block, blocks⟩
  · exact ⟨rfl, rfl⟩
  · have hblock : ¬ column < block := Nat.not_lt.mpr (h block rfl)
    simp [hblock]

theorem closeBlocks_of_within {column : Nat} (h : ∀ block ∈ blocks.head?, block ≤ column) :
    (outside cursor front blocks keyAllowed).closeBlocks column = outside cursor front blocks keyAllowed := by
  obtain ⟨htake, hdrop⟩ := takeWhile_within h
  simp [closeBlocks, closeWhile, inFlow, outside, htake, hdrop]

theorem advance?_solid (hrest : IsSolid cursor.rest) : (outside cursor front blocks keyAllowed).advance? =
    some ((outside cursor front blocks keyAllowed).closeBlocks cursor.column) :=
  @advance?_blanks cursor cursor.rest front blocks keyAllowed 0 rfl hrest

/-- A block ends in front of a column left of it. -/
theorem Runs.blockEnd {block : Nat} (hrest : IsSolid cursor.rest) (hblock : cursor.column < block)
    (hwithin : ∀ block ∈ blocks.head?, block ≤ cursor.column) :
    Runs (outside cursor front (block :: blocks) keyAllowed) (outside cursor (front ++ [.blockEnd]) blocks keyAllowed) := by
  obtain ⟨htake, hdrop⟩ := takeWhile_within hwithin
  have hclose : (outside cursor front (block :: blocks) keyAllowed).closeBlocks cursor.column =
      outside cursor (front ++ [.blockEnd]) blocks keyAllowed := by
    simp [closeBlocks, closeWhile, inFlow, outside, hblock, htake, hdrop]
  refine .of_advance (Nat.le_refl _) ?_
  rw [advance?_solid hrest, advance?_solid hrest, hclose, closeBlocks_of_within hwithin]

theorem Runs.newline {count : Nat} (hrest : cursor.rest = '\n' :: (List.replicate count ' ' ++ text))
    (htext : IsSolid text) : ∃ next, next.rest = text ∧ next.column = count ∧
      Runs (outside cursor front blocks keyAllowed) (outside next front blocks true) := by
  have hnext : ((cursor.startLine 1).advance count).rest = text := by simp [Cursor.startLine, hrest]
  have hcolumn : ((cursor.startLine 1).advance count).column = count := Nat.zero_add count
  refine ⟨(cursor.startLine 1).advance count, hnext, hcolumn, .of_advance ?_ ?_⟩
  · show ((cursor.startLine 1).advance count).rest.length ≤ cursor.rest.length
    rw [hnext, hrest]
    simp
    omega
  · rw [advance?_newline hrest htext, advance?_solid (hnext.symm ▸ htext), hcolumn]

/-! ### Tokens of a line -/

theorem not_isIndicator (hc : c.isAlphanum = true) : isIndicator c = false := by
  have hmarks : ['-', '?', ':', ',', '[', ']', '\x7b', '\x7d', '#', '&', '*', '!', '|', '>', '\'', '"', '%', '@',
      '\x60'].all (fun d => !d.isAlphanum) = true := by decide
  rw [isIndicator, List.contains_eq_mem, decide_eq_false_iff_not]
  intro hmem
  have hother := List.all_eq_true.mp hmarks c hmem
  rw [hc] at hother
  cases hother

/-- A letter or a digit stands for no token of its own, so a scalar without quotes starts with it. -/
theorem token?_plain {lexer : Lexer} (hc : c.isAlphanum = true)
    (hrest : lexer.cursor.rest = c :: rest) : lexer.token? c rest = lexer.plain? := by
  have hindicator := not_isIndicator hc
  have hstarts : startsPlain lexer.inFlow c rest = true := by
    have hblank : isBlank c = false := not_isBlank (by simp [isWordChar, hc])
    simp [startsPlain, hblank, hindicator]
  have hmark : lexer.cursor.isDocumentMark = false := by
    refine not_isDocumentMark fun d hd => ?_
    rw [hrest] at hd
    cases hd
    exact ⟨ne_of_holds hc rfl, ne_of_holds hc rfl⟩
  simp only [isIndicator, List.contains_eq_mem, List.mem_cons, List.not_mem_nil, decide_eq_false_iff_not, not_or] at hindicator
  simp only [token?, hmark, hstarts, hindicator, and_false, false_and, or_self, if_false, if_true, Bool.false_eq_true]

theorem token?_value {lexer : Lexer} (hrest : lexer.cursor.rest = ':' :: rest) (hgap : isGap rest = true) :
    lexer.token? ':' rest = lexer.value? := by
  have hmark : lexer.cursor.isDocumentMark = false := not_isDocumentMark (by simp [hrest])
  simp [token?, hmark, hgap]

/-- The blocks that are open behind a key, and the tokens that open them. -/
def opened (column : Nat) (blocks : List Nat) : List Token × List Nat :=
  if blocks.head? = some column then ([], blocks) else ([.entriesStart], column :: blocks)

theorem head?_opened (column : Nat) (blocks : List Nat) : (opened column blocks).2.head? = some column := by
  rw [opened]
  split
  · assumption
  · rfl

theorem opened_within {column bound : Nat} (h : column ≤ bound) :
    ∀ block ∈ (opened column blocks).2.head?, block ≤ bound := by
  rw [head?_opened]
  rintro block ⟨⟩
  exact h

theorem opened_of_head? {column : Nat} (h : blocks.head? = some column) : opened column blocks = ([], blocks) := if_pos h

theorem opened_of_lt {column : Nat} (h : ∀ block ∈ blocks.head?, block < column) :
    opened column blocks = ([.entriesStart], column :: blocks) :=
  if_neg fun hhead => Nat.lt_irrefl _ (h column hhead)

/-- A lexer behind a word that may be a key. -/
def behindWord (start after : Cursor) (front : List Token) (word : String) (blocks : List Nat) : Lexer :=
  { outside after (front ++ [.scalar .plain word]) blocks false with
    key := some ⟨blocks.head? == some start.column, front.length, start.index, start.line, start.column⟩ }

theorem Runs.keyWord (hword : IsWord word) (hrest : cursor.rest = word.toList ++ ':' :: rest) (hgap : isGap rest = true)
    (hwithin : ∀ block ∈ blocks.head?, block ≤ cursor.column) : Runs (outside cursor front blocks true)
      (behindWord cursor (cursor.advance word.toList.length) front word blocks) := by
  obtain ⟨c, chars, hchars, hc⟩ := hword.exists_cons
  have hfront : cursor.rest = c :: (chars ++ ':' :: rest) := by rw [hrest, hchars, List.cons_append]
  have hsolid : IsSolid cursor.rest := hrest ▸ isSolid_word hword _
  have hcolumn : (blocks.head?.map (· + 1)).getD 0 ≤ cursor.column + 1 := by
    rcases hblock : blocks.head? with - | block
    · exact Nat.zero_le _
    · exact Nat.succ_le_succ (hwithin block hblock)
  refine .of_token (by rw [advance?_solid hsolid, closeBlocks_of_within hwithin]) hfront ?_ ?_
  · have hplain := plain_key hword hrest hgap hcolumn
    rw [token?_plain hc hfront]
    simp [plain?, saveKey?, dropKey?, outside, inFlow, hplain, allowKey, emit, behindWord]
  · show (cursor.rest.drop word.toList.length).length < cursor.rest.length
    rw [List.length_drop, hfront, hchars, List.length_cons, List.length_cons]
    omega

theorem advance?_behindWord {start : Cursor} (hrest : IsSolid cursor.rest) (hline : cursor.line = start.line)
    (hindex : cursor.index ≤ start.index + KeyStart.limit) (hwithin : ∀ block ∈ blocks.head?, block ≤ cursor.column) :
    (behindWord start cursor front word blocks).advance? = some (behindWord start cursor front word blocks) := by
  have hskip : skipGaps (cursor.rest.length + 1) (behindWord start cursor front word blocks) =
      behindWord start cursor front word blocks := @skipGaps_blanks cursor.rest _ _ 0 rfl hrest
  have hdrop : (behindWord start cursor front word blocks).dropPassedKeys? =
      some (behindWord start cursor front word blocks) := by
    simp [dropPassedKeys?, behindWord, outside, reaching?, KeyStart.reaches, hline, hindex]
  have hclose : (behindWord start cursor front word blocks).closeBlocks cursor.column =
      behindWord start cursor front word blocks := by
    obtain ⟨htake, hblocks⟩ := takeWhile_within hwithin
    simp [closeBlocks, closeWhile, inFlow, behindWord, outside, htake, hblocks]
  rw [advance?]
  refine (congrArg (fun lexer => dropPassedKeys? lexer >>= fun lexer => some (lexer.closeBlocks lexer.cursor.column))
    hskip).trans ?_
  rw [hdrop]
  exact congrArg some hclose

theorem value?_behindWord {start : Cursor} (hwithin : ∀ block ∈ blocks.head?, block ≤ start.column) :
    (behindWord start cursor front word blocks).value? =
      some (outside cursor.next (front ++ (opened start.column blocks).1 ++ [.key, .scalar .plain word, .value])
        (opened start.column blocks).2 false) := by
  -- The key and, where a block starts, its mark are put in front of the word that was taken already.
  have htwo : front.length + 1 + 1 - front.length = 2 := by omega
  rcases blocks with - | ⟨block, blocks⟩
  · simp [value?, behindWord, outside, insert, openBlock, isWithin, inFlow, opened, allowKey, emitMark, emit, htwo]
  · rcases Nat.eq_or_lt_of_le (hwithin block rfl) with rfl | hblock
    · simp [value?, behindWord, outside, insert, openBlock, isWithin, inFlow, opened, allowKey, emitMark, emit]
    · have hne : block ≠ start.column := Nat.ne_of_lt hblock
      have hopen : ¬ start.column ≤ block := Nat.not_le.mpr hblock
      simp [value?, behindWord, outside, insert, openBlock, isWithin, inFlow, opened, allowKey, emitMark, emit, hne, hopen,
        htwo]

theorem Runs.colon {start : Cursor} (hrest : cursor.rest = ':' :: rest) (hgap : isGap rest = true)
    (hline : cursor.line = start.line) (hindex : cursor.index ≤ start.index + KeyStart.limit)
    (hcolumn : start.column ≤ cursor.column) (hwithin : ∀ block ∈ blocks.head?, block ≤ start.column) :
    Runs (behindWord start cursor front word blocks)
      (outside cursor.next (front ++ (opened start.column blocks).1 ++ [.key, .scalar .plain word, .value])
        (opened start.column blocks).2 false) := by
  have hsolid : IsSolid cursor.rest := by simp [hrest, IsSolid]
  have hadvance := @advance?_behindWord cursor word front blocks start hsolid hline hindex
    fun block hblock => Nat.le_trans (hwithin block hblock) hcolumn
  refine .of_token hadvance hrest ((token?_value hrest hgap).trans (value?_behindWord hwithin)) ?_
  show cursor.next.rest.length < cursor.rest.length
  simp [Cursor.next, hrest]

/-- A key with the mark of its value. A block starts with the first key at a column. -/
theorem Runs.key (hword : IsName word) (hrest : cursor.rest = word.toList ++ ':' :: rest) (hgap : isGap rest = true)
    (hwithin : ∀ block ∈ blocks.head?, block ≤ cursor.column) :
    ∃ next, next.rest = rest ∧ cursor.column ≤ next.column ∧ Runs (outside cursor front blocks true)
      (outside next (front ++ (opened cursor.column blocks).1 ++ [.key, .scalar .plain word, .value])
        (opened cursor.column blocks).2 false) := by
  have hbehind : (cursor.advance word.toList.length).rest = ':' :: rest := by simp [hrest]
  refine ⟨(cursor.advance word.toList.length).next, by simp [Cursor.next, hrest], ?_, ?_⟩
  · exact Nat.le_trans (Nat.le_add_right ..) (Nat.le_add_right ..)
  have hindex : (cursor.advance word.toList.length).index ≤ cursor.index + KeyStart.limit :=
    Nat.add_le_add_left (Nat.le_trans hword.short (by decide)) _
  exact (Runs.keyWord hword.toIsWord hrest hgap hwithin).trans (.colon hbehind hgap rfl hindex (Nat.le_add_right ..) hwithin)

/-- A value behind the mark of its key, and the indentation of the next line. -/
theorem Runs.value {count : Nat} (hword : IsWord word)
    (hrest : cursor.rest = ' ' :: (word.toList ++ '\n' :: (List.replicate count ' ' ++ text))) (htext : IsSolid text)
    (hwithin : ∀ block ∈ blocks.head?, block ≤ cursor.column + 1)
    (hend : text = [] ∨ ∃ block ∈ blocks.head?, count ≤ block) :
    ∃ next, next.rest = text ∧ next.column = count ∧ Runs (outside cursor front blocks false)
      (outside next (front ++ [.scalar .plain word]) blocks true) := by
  obtain ⟨c, chars, hchars, hc⟩ := hword.exists_cons
  have hword' : cursor.next.rest = word.toList ++ '\n' :: (List.replicate count ' ' ++ text) := by
    simp [Cursor.next, hrest]
  have hfront : cursor.next.rest = c :: (chars ++ '\n' :: (List.replicate count ' ' ++ text)) := by
    rw [hword', hchars, List.cons_append]
  have hsolid := isSolid_word hword ('\n' :: (List.replicate count ' ' ++ text))
  have hcolumn : text = [] ∨ count < (blocks.head?.map (· + 1)).getD 0 := by
    refine hend.imp_right fun ⟨block, hblock, hcount⟩ => ?_
    rw [hblock]
    exact Nat.lt_succ_of_le hcount
  have hadvance : (outside cursor front blocks false).advance? = some (outside cursor.next front blocks false) := by
    rw [@advance?_blanks _ _ _ _ _ 1 hrest hsolid, closeBlocks_of_within hwithin]
    rfl
  have hplain := plain_value hword hword' htext hcolumn
  refine ⟨((cursor.next.advance word.toList.length).startLine 1).advance count, ?_, Nat.zero_add count,
    .of_token hadvance hfront ?_ ?_⟩
  · simp [Cursor.startLine, hword']
  · rw [token?_plain hc hfront]
    simp [plain?, saveKey?, outside, inFlow, hplain, allowKey, emit]
  · show (((cursor.next.advance word.toList.length).startLine 1).advance count).rest.length < cursor.rest.length
    simp [Cursor.startLine, hword', hrest]
    omega

/-- At the end of the text all blocks end. -/
theorem tokensUpTo_end {bound : Nat} (hrest : cursor.rest = []) :
    tokensUpTo (bound + 1) (outside cursor front blocks keyAllowed) = some (front ++ blocks.map fun _ => .blockEnd) := by
  have hall : (blocks.takeWhile (cursor.column < ·)).length + (blocks.dropWhile (cursor.column < ·)).length =
      blocks.length := by
    rw [← List.length_append, List.takeWhile_append_dropWhile]
  rw [tokensUpTo, advance?_solid (by simp [IsSolid, hrest])]
  have hclosed (blocks : List Nat) : blocks.takeWhile (fun _ => true) = blocks := by
    induction blocks with
    | nil => rfl
    | cons block blocks ih => rw [List.takeWhile_cons_of_pos rfl, ih]
  simp [closeBlocks, closeWhile, closeAll, inFlow, outside, dropKey?, hrest, hclosed, List.map_const', hall]

end Lexer

end GridFilter.Yaml
