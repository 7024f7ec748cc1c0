import PinMachine.Proofs.Program.Comments
import PinMachine.Proofs.Program.Index
import PinMachine.Proofs.Program.Printing

/-!
The canonical form of a line: the texts of its tokens, with one space between each two of
them. Tokens may have been cut out of a text without blanks, and what follows them there may
be unreadable, but each of them is read again when a space or the end of the line follows it.
So the canonical form is read to its end, and it is its own canonical form.
-/

namespace PinMachine

/-- Lexemes as the rest of a line can hold them. At the start of a line a name is an
instruction, so the name of a label comes behind another lexeme. -/
inductive OnLine (mode : CommentMode) : (leading : Bool) → List Lexeme → Prop where
  | nil (leading : Bool) : OnLine mode leading []
  | comment (leading : Bool) (text : List Char) (kept : mode = .keep)
      (spelled : (Lexeme.comment text).WellSpelled) (onOneLine : OnOneLine text) :
      OnLine mode leading [.comment text]
  | cons (leading : Bool) (lexeme : Lexeme) (rest : List Lexeme)
      (spelled : lexeme.WellSpelled) (notBlank : lexeme.kind ≠ .whitespace)
      (notComment : lexeme.kind ≠ .comment)
      (leads : lexeme.kind.leadsLine = true → leading = true)
      (argument : lexeme.kind = .labelArgument → leading = false)
      (later : OnLine mode false rest) : OnLine mode leading (lexeme :: rest)

variable {mode : CommentMode} {line column : Nat} {leading : Bool}

theorem nextLexeme?_letter {text : List Char} {char : Char} (first : text.head? = some char)
    (letter : char.isAlpha = true) :
    ∃ name rest, nextLexeme? true text = some (.instruction name, rest) := by
  refine ⟨text.takeWhile Char.isAlpha, text.dropWhile Char.isAlpha, ?_⟩
  have run : IsRun Char.isAlpha (text.takeWhile Char.isAlpha) := by
    refine ⟨?_, fun other member => List.mem_takeWhile_imp member⟩
    obtain ⟨others, rfl⟩ := List.head?_eq_some_iff.mp first
    rw [List.takeWhile_cons_of_pos letter]
    exact List.cons_ne_nil _ _
  have found := nextLexeme?_instruction run (stops_dropWhile Char.isAlpha text)
  rw [List.takeWhile_append_dropWhile] at found
  exact found

theorem leading_eq_false_of_labelArgument {text name rest : List Char}
    (found : nextLexeme? leading text = some (.labelArgument name, rest)) :
    leading = false := by
  cases leading with
  | false => rfl
  | true =>
      obtain ⟨_leads, ⟨first, others, rfl, letter, _inside⟩, _ends, rfl⟩ :=
        nextLexeme?_eq_some found
      have atLetter : (first :: others ++ rest).head? = some first := rfl
      obtain ⟨word, behind, instruction⟩ := nextLexeme?_letter atLetter letter
      cases found.symm.trans instruction

/-- The tokens that a scan finds are lexemes that a line can hold, also where the scan gets
stuck behind them. -/
theorem Scans.onLine {text : List Char} {scanned : ScannedLine}
    (scans : Scans mode line column leading text scanned) (onOneLine : OnOneLine text) :
    OnLine mode leading (scanned.tokens.map Token.lexeme) := by
  induction scans with
  | finished column leading => exact .nil leading
  | stuck column leading text nonempty unreadable => exact .nil leading
  | skipped column leading comment text skips found => exact .nil leading
  | blanks column leading blanks text rest scanned found later ih =>
      obtain ⟨_leads, _spelled, _ends, rfl⟩ := nextLexeme?_eq_some found
      exact ih fun char member => onOneLine char (List.mem_append_right _ member)
  | token column leading lexeme text rest scanned notBlank kept found later ih =>
      obtain ⟨leads, spelled, _ends, rfl⟩ := nextLexeme?_eq_some found
      have here : OnOneLine lexeme.text :=
        fun char member => onOneLine char (List.mem_append_left _ member)
      have behind := ih fun char member => onOneLine char (List.mem_append_right _ member)
      by_cases isComment : lexeme.kind = .comment
      · obtain ⟨comment, rfl⟩ : ∃ comment, lexeme = .comment comment := by
          cases lexeme <;> cases isComment
          exact ⟨_, rfl⟩
        rw [(Scans.finished_of_comment found later).2]
        exact .comment leading comment (kept rfl) spelled here
      · refine .cons leading lexeme _ spelled notBlank isComment leads ?_ behind
        intro isArgument
        obtain ⟨name, rfl⟩ : ∃ name, lexeme = .labelArgument name := by
          cases lexeme <;> cases isArgument
          exact ⟨_, rfl⟩
        exact leading_eq_false_of_labelArgument found

/-- Texts with one space between each two of them. -/
def spaced (texts : List (List Char)) : List Char :=
  [' '].intercalate texts

theorem spaced_cons_cons (first second : List Char) (rest : List (List Char)) :
    spaced (first :: second :: rest) = first ++ ' ' :: spaced (second :: rest) := by
  unfold spaced
  rw [List.intercalate_cons_cons, List.append_assoc, List.singleton_append]

theorem spaced_singleton (text : List Char) : spaced [text] = text :=
  List.intercalate_singleton

theorem OnLine.onOneLine {lexemes : List Lexeme} (onLine : OnLine mode leading lexemes) :
    OnOneLine (spaced (lexemes.map Lexeme.text)) := by
  induction onLine with
  | nil leading =>
      intro char member
      cases member
  | comment leading text kept spelled onOneLine =>
      rw [List.map_singleton, spaced_singleton]
      exact onOneLine
  | cons leading lexeme rest spelled notBlank notComment leads argument later ih =>
      have here := spelled.onOneLine notComment
      cases rest with
      | nil =>
          rw [List.map_singleton, spaced_singleton]
          exact here
      | cons second others =>
          rw [List.map_cons, List.map_cons, spaced_cons_cons]
          exact here.append (ih.cons (by decide))

theorem stops_spaced {lexeme : Lexeme} (spelled : lexeme.WellSpelled)
    (notBlank : lexeme.kind ≠ .whitespace) (rest : List (List Char)) :
    Stops isSpaceOrTab (spaced (lexeme.text :: rest)) := by
  cases rest with
  | nil =>
      have stops := Layout.stops_of_wellSpelled spelled notBlank []
      rw [List.append_nil] at stops
      rw [spaced_singleton]
      exact stops
  | cons second others =>
      rw [spaced_cons_cons]
      exact Layout.stops_of_wellSpelled spelled notBlank _

theorem OnLine.stops {lexemes : List Lexeme} (onLine : OnLine mode leading lexemes) :
    Stops isSpaceOrTab (spaced (lexemes.map Lexeme.text)) := by
  induction onLine with
  | nil leading => exact stops_nil _
  | comment leading text kept spelled onOneLine =>
      exact stops_spaced spelled (fun blank => nomatch blank) []
  | cons leading lexeme rest spelled notBlank notComment leads argument later ih =>
      exact stops_spaced spelled notBlank _

private theorem delimited_nil : Delimited [] := by
  intro char first
  cases first

theorem OnLine.scans {lexemes : List Lexeme} (onLine : OnLine mode leading lexemes)
    (line column : Nat) :
    ∃ tokens : List Token, tokens.map Token.lexeme = lexemes ∧
      Scans mode line column leading (spaced (lexemes.map Lexeme.text)) ⟨tokens, none⟩ := by
  induction onLine generalizing column with
  | nil leading => exact ⟨[], rfl, .finished column leading⟩
  | comment leading text kept spelled onOneLine =>
      refine ⟨[⟨.comment text, line, column⟩], rfl, ?_⟩
      rw [List.map_singleton, spaced_singleton]
      exact .token column leading (.comment text) text [] .finished (fun blank => nomatch blank)
        (fun _comment => kept) (nextLexeme?_comment leading spelled) (.finished _ _)
  | cons leading lexeme rest spelled notBlank notComment leads argument later ih =>
      cases rest with
      | nil =>
          refine ⟨[⟨lexeme, line, column⟩], rfl, ?_⟩
          have alone : spaced ([lexeme].map Lexeme.text) = lexeme.text ++ [] := by
            rw [List.map_singleton, spaced_singleton, List.append_nil]
          rw [alone]
          exact Layout.scans_lexeme spelled notBlank notComment leads argument delimited_nil
            (.finished _ _)
      | cons second others =>
          -- Behind the lexeme a space is passed over, and the rest is read from there on.
          obtain ⟨tokens, lexemes, scans⟩ := ih (column + lexeme.text.length + [' '].length)
          refine ⟨⟨lexeme, line, column⟩ :: tokens, congrArg (lexeme :: ·) lexemes, ?_⟩
          rw [List.map_cons, List.map_cons, spaced_cons_cons]
          have space : AreBlanks [' '] := by decide
          have behind := Layout.scans_blanks space later.stops scans
          exact Layout.scans_lexeme spelled notBlank notComment leads argument
            (Layout.delimited_of_blank rfl _) behind

/-- Reading the canonical form of a line gives one line, no error, and the lexemes of the
line: their kinds, their texts and the parts captured in them. That line is already in
canonical form. -/
theorem Program.canonical_form_reads_back (mode : CommentMode) (source : String) (line : Line)
    (member : line ∈ (Program.ofSource mode source).lines) :
    ∃ reread : Line,
      (Program.ofSource mode (.ofList (spaced (line.tokens.map Token.text)))).lines = [reread] ∧
      (Program.ofSource mode (.ofList (spaced (line.tokens.map Token.text)))).lexicalErrors =
        .empty ∧
      reread.tokens.map Token.lexeme = line.tokens.map Token.lexeme ∧
      reread.text = spaced (reread.tokens.map Token.text) := by
  have onLine := (Program.scans_of_mem mode source line member).onLine
    (Program.onOneLine_of_mem mode source line member)
  have texts : ∀ tokens : List Token,
      tokens.map Token.text = (tokens.map Token.lexeme).map Lexeme.text := by
    intro tokens
    rw [List.map_map]
    rfl
  change OnLine mode true (line.tokens.map Token.lexeme) at onLine
  obtain ⟨tokens, lexemes, scans⟩ := onLine.scans 0 0
  have lines := Program.ofSource_onOneLine mode onLine.onOneLine
  rw [← texts] at scans lines
  have scanned : scanLine mode 0 (spaced (line.tokens.map Token.text)) = ⟨tokens, none⟩ :=
    scans.eq_scanFrom.symm
  simp only [Line.ofText, scanned] at lines
  refine ⟨_, lines, ?_, lexemes, ?_⟩
  · unfold Program.lexicalErrors
    rw [lines]
    rfl
  · rw [texts tokens, lexemes, ← texts]

/-- Numbers and names cut out of texts without blanks, and a pin before a text that is no
range. -/
theorem Program.canonical_form_reads_back_cut :
    ∃ line ∈ (Program.ofSource .keep "add0b12 0bcd .p1..p ; x").lines,
      line.unparsed = some 16 ∧
      spaced (line.tokens.map Token.text) = "add 0b1 2 0 bcd .p1".toList ∧
      ∃ reread : Line,
        (Program.ofSource .keep (.ofList (spaced (line.tokens.map Token.text)))).lines =
          [reread] ∧
        (Program.ofSource .keep (.ofList (spaced (line.tokens.map Token.text)))).lexicalErrors =
          .empty ∧
        reread.tokens.map Token.lexeme = line.tokens.map Token.lexeme ∧
        reread.text = spaced (reread.tokens.map Token.text) := by
  let line := Line.ofText .keep 0 0 "add0b12 0bcd .p1..p ; x".toList
  have member : line ∈ (Program.ofSource .keep "add0b12 0bcd .p1..p ; x").lines := by
    decide +kernel
  exact ⟨line, member, by decide +kernel, by decide +kernel,
    Program.canonical_form_reads_back .keep "add0b12 0bcd .p1..p ; x" line member⟩

end PinMachine
