import PinMachine.Program.Source
import PinMachine.Proofs.Token.Spelling

/-!
Scans of lines. Scanning a line finds one lexeme after the other; `Scans` says so
without the characters that the scanner passes over, and holds of exactly one result
for each text. Facts about scanned lines are proved by induction on it.
-/

namespace PinMachine

/-- What scanning a text from a column on comes to. -/
inductive Scans (mode : CommentMode) (line : Nat) :
    (column : Nat) → (leading : Bool) → List Char → ScannedLine → Prop where
  | finished (column : Nat) (leading : Bool) : Scans mode line column leading [] .finished
  | stuck (column : Nat) (leading : Bool) (text : List Char) (nonempty : text ≠ [])
      (unreadable : nextLexeme? leading text = none) :
      Scans mode line column leading text ⟨[], some column⟩
  | blanks (column : Nat) (leading : Bool) (blanks text rest : List Char)
      (scanned : ScannedLine)
      (found : nextLexeme? leading text = some (.whitespace blanks, rest))
      (later : Scans mode line (column + blanks.length) leading rest scanned) :
      Scans mode line column leading text scanned
  | skipped (column : Nat) (leading : Bool) (comment text : List Char)
      (skips : mode = .skip)
      (found : nextLexeme? leading text = some (.comment comment, [])) :
      Scans mode line column leading text .finished
  | token (column : Nat) (leading : Bool) (lexeme : Lexeme) (text rest : List Char)
      (scanned : ScannedLine) (notBlank : lexeme.kind ≠ .whitespace)
      (kept : lexeme.kind = .comment → mode = .keep)
      (found : nextLexeme? leading text = some (lexeme, rest))
      (later : Scans mode line (column + lexeme.text.length) false rest scanned) :
      Scans mode line column leading text (.cons ⟨lexeme, line, column⟩ scanned)

variable {mode : CommentMode} {line column : Nat} {leading : Bool} {text rest : List Char}
  {lexeme : Lexeme}

/-- Characters of the lexeme found last are passed over. -/
theorem scanFrom_taken (taken : Nat) (text : List Char) :
    scanFrom mode line column leading taken text =
      scanFrom mode line (column + taken) leading 0 (text.drop taken) := by
  induction taken generalizing column text with
  | zero => rfl
  | succ taken ih =>
      cases text with
      | nil => simp [scanFrom]
      | cons char others =>
          rw [List.drop_succ_cons, scanFrom, ih]
          congr 1
          omega

theorem scanFrom_found (found : nextLexeme? leading text = some (lexeme, rest)) :
    scanFrom mode line column leading 0 text =
      match lexeme.kind, mode with
      | .whitespace, _ =>
          scanFrom mode line (column + lexeme.text.length) leading 0 rest
      | .comment, .skip => .finished
      | _, _ =>
          .cons ⟨lexeme, line, column⟩
            (scanFrom mode line (column + lexeme.text.length) false 0 rest) := by
  obtain ⟨_leads, spelled, _ends, rfl⟩ := nextLexeme?_eq_some found
  have nonempty := spelled.text_ne_nil
  cases written : lexeme.text with
  | nil => exact False.elim (nonempty written)
  | cons char others =>
      rw [written, List.cons_append] at found
      rw [List.cons_append, scanFrom, found]
      simp only [written, List.length_cons, Nat.add_sub_cancel, scanFrom_taken others.length,
        List.drop_left]
      have same : column + 1 + others.length = column + (others.length + 1) := by omega
      rewrite [same]
      rfl

theorem scans_scanFrom (mode : CommentMode) (line column : Nat) (leading : Bool)
    (text : List Char) :
    Scans mode line column leading text (scanFrom mode line column leading 0 text) := by
  -- The rest after a lexeme is shorter than the text that starts with the lexeme.
  induction size : text.length using Nat.strong_induction_on generalizing column leading text with
  | _ size ih =>
      subst size
      cases found : nextLexeme? leading text with
      | none =>
          cases text with
          | nil =>
              simp only [scanFrom]
              exact .finished column leading
          | cons char others =>
              simp only [scanFrom, found]
              exact .stuck column leading _ (List.cons_ne_nil _ _) found
      | some next =>
          obtain ⟨lexeme, rest⟩ := next
          obtain ⟨_leads, spelled, ends, split⟩ := nextLexeme?_eq_some found
          have shorter : rest.length < text.length := by
            have nonempty := List.length_pos_iff.mpr spelled.text_ne_nil
            rw [split, List.length_append]
            omega
          rw [scanFrom_found found]
          split
          · rename_i isBlank
            obtain ⟨blanks, rfl⟩ : ∃ blanks, lexeme = .whitespace blanks := by
              cases lexeme <;> cases isBlank
              exact ⟨_, rfl⟩
            exact .blanks column leading blanks text rest _ found (ih _ shorter _ _ _ rfl)
          · rename_i isComment
            obtain ⟨comment, rfl⟩ : ∃ comment, lexeme = .comment comment := by
              cases lexeme <;> cases isComment
              exact ⟨_, rfl⟩
            cases ends
            exact .skipped column leading comment text rfl found
          · rename_i mode _kind _mode notBlank notSkipped
            refine .token column leading lexeme text rest _ notBlank ?_ found
              (ih _ shorter _ _ _ rfl)
            intro isComment
            cases mode with
            | skip => exact False.elim (notSkipped isComment rfl)
            | keep => rfl

theorem Scans.eq_scanFrom {scanned : ScannedLine}
    (scans : Scans mode line column leading text scanned) :
    scanned = scanFrom mode line column leading 0 text := by
  induction scans with
  | finished column leading => simp only [scanFrom]
  | stuck column leading text nonempty unreadable =>
      cases text with
      | nil => exact False.elim (nonempty rfl)
      | cons char others => simp only [scanFrom, unreadable]
  | blanks column leading blanks text rest scanned found later ih =>
      rw [scanFrom_found found, ih]
      rfl
  | skipped column leading comment text skips found =>
      subst skips
      rw [scanFrom_found found]
      rfl
  | token column leading lexeme text rest scanned notBlank kept found later ih =>
      rw [scanFrom_found found, ih]
      split
      · rename_i blank
        exact False.elim (notBlank blank)
      · rename_i comment
        cases kept comment
      · rfl

theorem Scans.token_line {scanned : ScannedLine}
    (scans : Scans mode line column leading text scanned) :
    ∀ token ∈ scanned.tokens, token.line = line := by
  induction scans with
  | finished column leading => simp [ScannedLine.finished]
  | stuck column leading text nonempty unreadable => simp
  | blanks column leading blanks text rest scanned found later ih => exact ih
  | skipped column leading comment text skips found => simp [ScannedLine.finished]
  | token column leading lexeme text rest scanned notBlank kept found later ih =>
      intro token member
      rcases List.mem_cons.mp member with rfl | following
      · rfl
      · exact ih token following

theorem Scans.leadsLine_eq_false {scanned : ScannedLine}
    (scans : Scans mode line column leading text scanned) :
    (leading = false → ∀ token ∈ scanned.tokens, token.kind.leadsLine = false) ∧
      ∀ token ∈ scanned.tokens.tail, token.kind.leadsLine = false := by
  induction scans with
  | finished column leading => simp [ScannedLine.finished]
  | stuck column leading text nonempty unreadable => simp
  | blanks column leading blanks text rest scanned found later ih => exact ih
  | skipped column leading comment text skips found => simp [ScannedLine.finished]
  | token column leading lexeme text rest scanned notBlank kept found later ih =>
      have behind := ih.1 rfl
      refine ⟨?_, behind⟩
      intro inside token member
      rcases List.mem_cons.mp member with rfl | following
      · have leads := (nextLexeme?_eq_some found).1
        rw [inside] at leads
        cases led : lexeme.kind.leadsLine with
        | false => exact led
        | true => cases leads led
      · exact behind token following

theorem Scans.kind_ne_whitespace {scanned : ScannedLine}
    (scans : Scans mode line column leading text scanned) :
    ∀ token ∈ scanned.tokens, token.kind ≠ .whitespace := by
  induction scans with
  | finished column leading => simp [ScannedLine.finished]
  | stuck column leading text nonempty unreadable => simp
  | blanks column leading blanks text rest scanned found later ih => exact ih
  | skipped column leading comment text skips found => simp [ScannedLine.finished]
  | token column leading lexeme text rest scanned notBlank kept found later ih =>
      intro token member
      rcases List.mem_cons.mp member with rfl | following
      · exact notBlank
      · exact ih token following

theorem Scans.wellSpelled {scanned : ScannedLine}
    (scans : Scans mode line column leading text scanned) :
    ∀ token ∈ scanned.tokens, token.lexeme.WellSpelled := by
  induction scans with
  | finished column leading => simp [ScannedLine.finished]
  | stuck column leading text nonempty unreadable => simp
  | blanks column leading blanks text rest scanned found later ih => exact ih
  | skipped column leading comment text skips found => simp [ScannedLine.finished]
  | token column leading lexeme text rest scanned notBlank kept found later ih =>
      intro token member
      rcases List.mem_cons.mp member with rfl | following
      · exact (nextLexeme?_eq_some found).2.1
      · exact ih token following

/-- What scanning the text of a line gave. -/
def Line.scanned (line : Line) : ScannedLine :=
  ⟨line.tokens, line.unparsed⟩

theorem Line.scans_ofText (mode : CommentMode) (index offset : Nat) (text : List Char) :
    Scans mode index 0 true text
      ⟨(Line.ofText mode index offset text).tokens,
        (Line.ofText mode index offset text).unparsed⟩ :=
  scans_scanFrom mode index 0 true text

private theorem mem_readLinesFrom (mode : CommentMode) (done : List Line)
    (index offset : Nat) (texts : List (List Char)) (line : Line)
    (member : line ∈ readLinesFrom mode done index offset texts) :
    line ∈ done ∨ ∃ place before text, line = Line.ofText mode place before text := by
  induction texts generalizing done index offset with
  | nil => exact Or.inl (List.mem_reverse.mp member)
  | cons text rest ih =>
      rcases ih _ _ _ member with read | later
      · rcases List.mem_cons.mp read with rfl | old
        · exact Or.inr ⟨index, offset, text, rfl⟩
        · exact Or.inl old
      · exact Or.inr later

theorem Program.exists_ofText (mode : CommentMode) (source : String) (line : Line)
    (member : line ∈ (Program.ofSource mode source).lines) :
    ∃ index offset text, line = Line.ofText mode index offset text := by
  rcases mem_readLinesFrom mode [] 0 0 _ line member with early | scanned
  · cases early
  · exact scanned

theorem Program.scans_of_mem (mode : CommentMode) (source : String) (line : Line)
    (member : line ∈ (Program.ofSource mode source).lines) :
    Scans mode line.index 0 true line.text line.scanned := by
  obtain ⟨index, offset, text, rfl⟩ := Program.exists_ofText mode source line member
  exact Line.scans_ofText mode index offset text

end PinMachine
