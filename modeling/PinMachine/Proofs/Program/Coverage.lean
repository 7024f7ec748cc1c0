import PinMachine.Proofs.Program.Comments
import PinMachine.Proofs.Program.Index

/-!
What reading keeps of a line. The tokens of a line stand one after the other, each of
them is the part of the text between its columns, and nothing but spaces and tabs stands
outside of them up to the column where reading stops. It stops at the end of the text, at
characters that no pattern takes, or, when comments are skipped, at a comment.
-/

namespace PinMachine

/-- The characters of a text from one column to another, both included. -/
def columns (text : List Char) (first last : Nat) : List Char :=
  (text.drop first).take (last + 1 - first)

variable {text rest : List Char} {column stop : Nat} {tokens : List Token}

namespace Token

def Holds (token : Token) (column : Nat) : Prop :=
  token.startColumn ≤ column ∧ column ≤ token.endColumn

/-- The token is the part of a text that its columns say. -/
structure StandsIn (token : Token) (text : List Char) : Prop where
  forward : token.startColumn ≤ token.endColumn
  inside : token.endColumn < text.length
  text_eq : token.text = columns text token.startColumn token.endColumn

theorem standsIn_of_drop (token : Token)
    (split : text.drop token.startColumn = token.text ++ rest) (nonempty : token.text ≠ []) :
    token.StandsIn text := by
  have positive := List.length_pos_iff.mpr nonempty
  have lengths := congrArg List.length split
  rw [List.length_drop, List.length_append] at lengths
  refine ⟨?_, ?_, ?_⟩
  · unfold endColumn
    omega
  · unfold endColumn
    omega
  · have width : token.endColumn + 1 - token.startColumn = token.text.length := by
      unfold endColumn
      omega
    unfold columns
    rw [split, width, List.take_left]

end Token

/-- Tokens one after the other, and spaces and tabs outside of them, make up a text from
a column to a stop. -/
structure Covered (text : List Char) (column : Nat) (tokens : List Token) (stop : Nat) :
    Prop where
  ahead : column ≤ stop
  inside : stop ≤ text.length
  standing : ∀ token ∈ tokens, token.StandsIn text
  between : ∀ token ∈ tokens, column ≤ token.startColumn ∧ token.endColumn < stop
  ordered : tokens.Pairwise fun earlier later => earlier.endColumn < later.startColumn
  blank : ∀ place, column ≤ place → place < stop → (∀ token ∈ tokens, ¬ token.Holds place) →
    text[place]? = some ' ' ∨ text[place]? = some '\t'

theorem covered_nil (inside : column ≤ text.length) : Covered text column [] column where
  ahead := Nat.le_refl column
  inside := inside
  standing := fun token member => by cases member
  between := fun token member => by cases member
  ordered := List.Pairwise.nil
  blank := fun place after before => by omega

private theorem eq_space_or_tab {char : Char} (blank : isSpaceOrTab char = true) :
    char = ' ' ∨ char = '\t' := by
  simpa [isSpaceOrTab] using blank

theorem Covered.blanks {blanks : List Char} (split : text.drop column = blanks ++ rest)
    (spelled : IsRun isSpaceOrTab blanks)
    (covered : Covered text (column + blanks.length) tokens stop) :
    Covered text column tokens stop where
  ahead := by
    have ahead := covered.ahead
    omega
  inside := covered.inside
  standing := covered.standing
  between := by
    intro token member
    have between := covered.between token member
    omega
  ordered := covered.ordered
  blank := by
    intro place after before outside
    by_cases inBlanks : place < column + blanks.length
    · have within : place - column < blanks.length := by omega
      have found : text[place]? = some blanks[place - column] := by
        have shifted : text[place]? = (text.drop column)[place - column]? := by
          rw [List.getElem?_drop]
          congr 1
          omega
        rw [shifted, split, List.getElem?_append_left within, List.getElem?_eq_getElem within]
      rw [found]
      rcases eq_space_or_tab (spelled.2 _ (List.getElem_mem within)) with space | tab
      · exact Or.inl (congrArg some space)
      · exact Or.inr (congrArg some tab)
    · exact covered.blank place (by omega) before outside

theorem Covered.cons (token : Token)
    (split : text.drop token.startColumn = token.text ++ rest) (nonempty : token.text ≠ [])
    (covered : Covered text (token.startColumn + token.text.length) tokens stop) :
    Covered text token.startColumn (token :: tokens) stop := by
  have positive := List.length_pos_iff.mpr nonempty
  have ends : token.endColumn + 1 = token.startColumn + token.text.length := by
    unfold Token.endColumn
    omega
  have ahead := covered.ahead
  constructor
  · omega
  · exact covered.inside
  · intro other member
    rcases List.mem_cons.mp member with rfl | later
    · exact other.standsIn_of_drop split nonempty
    · exact covered.standing other later
  · intro other member
    rcases List.mem_cons.mp member with rfl | later
    · omega
    · have between := covered.between other later
      omega
  · refine List.pairwise_cons.mpr ⟨?_, covered.ordered⟩
    intro other later
    have between := covered.between other later
    omega
  · intro place after before outside
    apply covered.blank place _ before fun other later =>
      outside other (List.mem_cons_of_mem _ later)
    -- The first token takes all columns up to where the others start.
    have past := outside token List.mem_cons_self
    unfold Token.Holds at past
    omega

/-! ### Stops -/

/-- A character that starts a comment stands at a column. -/
def MarksComment (text : List Char) (column : Nat) : Prop :=
  text[column]? = some ';' ∨ text[column]? = some '#'

/-- Why the scan of a text ends at a column. -/
inductive Halts (mode : CommentMode) (text : List Char) (leading : Bool)
    (scanned : ScannedLine) : (stop : Nat) → Prop where
  | ended (complete : scanned.unparsed = none) : Halts mode text leading scanned text.length
  | stuck (stop : Nat) (unparsed : scanned.unparsed = some stop) (inside : stop < text.length)
      (unreadable : nextLexeme? (leading && scanned.tokens.isEmpty) (text.drop stop) = none) :
      Halts mode text leading scanned stop
  | comment (stop : Nat) (skips : mode = .skip) (complete : scanned.unparsed = none)
      (mark : MarksComment text stop) : Halts mode text leading scanned stop

private theorem drop_behind {front : List Char} (split : text.drop column = front ++ rest)
    (inside : column ≤ text.length) :
    text.drop (column + front.length) = rest ∧ column + front.length ≤ text.length := by
  constructor
  · rw [← List.drop_drop, split, List.drop_left]
  · have lengths := congrArg List.length split
    rw [List.length_drop, List.length_append] at lengths
    omega

/-- The scan from a column on covers the text up to where it ends. -/
theorem Scans.covered {mode : CommentMode} {line : Nat} {leading : Bool}
    {scanned : ScannedLine} (scans : Scans mode line column leading rest scanned)
    (split : text.drop column = rest) (inside : column ≤ text.length) :
    ∃ stop, Covered text column scanned.tokens stop ∧ Halts mode text leading scanned stop := by
  induction scans with
  | finished column leading =>
      have ended : text.length = column :=
        Nat.le_antisymm (List.drop_eq_nil_iff.mp split) inside
      refine ⟨column, covered_nil inside, ?_⟩
      rw [← ended]
      exact .ended rfl
  | stuck column leading rest nonempty unreadable =>
      refine ⟨column, covered_nil inside, ?_⟩
      apply Halts.stuck column rfl
      · rw [← split, Ne, List.drop_eq_nil_iff] at nonempty
        omega
      · rw [split]
        simpa using unreadable
  | blanks column leading blanks rest after scanned found later ih =>
      obtain ⟨_leads, spelled, _ends, written⟩ := nextLexeme?_eq_some found
      rw [← split] at written
      obtain ⟨behind, bounded⟩ := drop_behind written inside
      obtain ⟨stop, covered, halts⟩ := ih behind bounded
      exact ⟨stop, covered.blanks written spelled, halts⟩
  | skipped column leading comment rest skips found =>
      obtain ⟨_leads, spelled, _ends, written⟩ := nextLexeme?_eq_some found
      rw [← split, List.append_nil] at written
      refine ⟨column, covered_nil inside, .comment column skips rfl ?_⟩
      have first : text[column]? = comment.head? := by
        rw [← List.head?_drop, written]
        rfl
      unfold MarksComment
      rw [first]
      exact spelled
  | token column leading lexeme rest after scanned notBlank kept found later ih =>
      obtain ⟨_leads, spelled, _ends, written⟩ := nextLexeme?_eq_some found
      rw [← split] at written
      obtain ⟨behind, bounded⟩ := drop_behind written inside
      obtain ⟨stop, covered, halts⟩ := ih behind bounded
      refine ⟨stop, Covered.cons ⟨lexeme, line, column⟩ written spelled.text_ne_nil covered, ?_⟩
      cases halts with
      | ended complete => exact .ended complete
      | stuck stop unparsed inside unreadable =>
          refine .stuck stop unparsed inside ?_
          simpa [ScannedLine.cons] using unreadable
      | comment stop skips complete mark => exact .comment stop skips complete mark

/-- What reading a program reports for the line at an index. -/
def Program.lexicalErrorsAt (program : Program) (index : Nat) : List Diagnostic :=
  program.lexicalErrors.entries.filter fun entry => entry.line == index

/-- Where reading a line of a program stopped, and what was reported for the line. -/
inductive Program.StopsAt (program : Program) (mode : CommentMode) (line : Line) :
    (stop : Nat) → Prop where
  | ended (complete : line.unparsed = none)
      (reported : program.lexicalErrorsAt line.index = []) :
      StopsAt program mode line line.text.length
  | stuck (stop : Nat) (unparsed : line.unparsed = some stop) (inside : stop < line.text.length)
      (unreadable : ∀ kind : TokenKind, (kind.leadsLine = true → line.tokens = []) →
        kind.scan? (line.text.drop stop) = none)
      (reported : program.lexicalErrorsAt line.index =
        [{ severity := .error
           line := line.index
           startColumn := stop
           endColumn := line.text.length - 1
           message := unparsableMessage }]) :
      StopsAt program mode line stop
  | comment (stop : Nat) (skips : mode = .skip) (complete : line.unparsed = none)
      (mark : MarksComment line.text stop) (free : ∀ token ∈ line.tokens, ¬ token.Holds stop)
      (first : ∀ earlier < stop, MarksComment line.text earlier →
        ∃ token ∈ line.tokens, token.Holds earlier)
      (reported : program.lexicalErrorsAt line.index = []) :
      StopsAt program mode line stop

theorem Program.lexicalErrorsAt_index (mode : CommentMode) (source : String) (line : Line)
    (member : line ∈ (Program.ofSource mode source).lines) :
    (Program.ofSource mode source).lexicalErrorsAt line.index = line.lexicalError?.toList := by
  have alone := (Program.ofSource_indexed mode source).filter_index line member
  -- An error of a line has the index of the line, so the lines can be chosen first.
  have chosen : ∀ other : Line,
      (other.lexicalError?.filter fun entry => entry.line == line.index) =
        if other.index == line.index then other.lexicalError? else none := by
    intro other
    unfold Line.lexicalError?
    cases other.unparsed with
    | none => simp
    | some column => simp [Option.filter]
  unfold lexicalErrorsAt
  rw [Program.entries_lexicalErrors, List.filter_filterMap]
  simp only [chosen]
  rw [← List.filterMap_filter, alone]
  cases found : line.lexicalError? <;> simp [found]

theorem nextLexeme?_eq_none_iff (leading : Bool) (text : List Char) :
    nextLexeme? leading text = none ↔
      ∀ kind : TokenKind, (kind.leadsLine = true → leading = true) → kind.scan? text = none := by
  have every : ∀ kind : TokenKind, kind ∈ TokenKind.all := by
    intro kind
    cases kind <;> decide
  unfold nextLexeme?
  rw [List.findSome?_eq_none_iff]
  constructor
  · intro unreadable kind allowed
    have tried := unreadable kind (every kind)
    rw [if_neg] at tried
    · exact tried
    · simpa using allowed
  · intro unreadable kind _member
    split
    · rfl
    · rename_i allowed
      exact unreadable kind (by simpa using allowed)

theorem Covered.marks_in_tokens (covered : Covered text 0 tokens stop) :
    ∀ earlier < stop, MarksComment text earlier → ∃ token ∈ tokens, token.Holds earlier := by
  intro earlier before mark
  by_contra outside
  have blank := covered.blank earlier (Nat.zero_le earlier) before
    fun token member holds => outside ⟨token, member, holds⟩
  unfold MarksComment at mark
  rcases blank with space | tab
  · rw [space] at mark
    revert mark
    decide
  · rw [tab] at mark
    revert mark
    decide

theorem Program.stopsAt_of_halts (mode : CommentMode) (source : String) (line : Line)
    (member : line ∈ (Program.ofSource mode source).lines)
    (covered : Covered line.text 0 line.tokens stop)
    (halts : Halts mode line.text true ⟨line.tokens, line.unparsed⟩ stop) :
    (Program.ofSource mode source).StopsAt mode line stop := by
  have reported := Program.lexicalErrorsAt_index mode source line member
  unfold Line.lexicalError? at reported
  cases halts with
  | ended complete =>
      change line.unparsed = none at complete
      rw [complete] at reported
      exact .ended complete reported
  | stuck stop unparsed inside unreadable =>
      change line.unparsed = some stop at unparsed
      rw [unparsed] at reported
      refine .stuck stop unparsed inside ?_ reported
      intro kind leads
      apply (nextLexeme?_eq_none_iff _ _).mp unreadable kind
      intro leading
      simp [leads leading]
  | comment stop skips complete mark =>
      change line.unparsed = none at complete
      rw [complete] at reported
      refine .comment stop skips complete mark ?_ covered.marks_in_tokens reported
      intro token inLine holds
      have before := (covered.between token inLine).2
      unfold Token.Holds at holds
      omega

theorem Program.line_covered (mode : CommentMode) (source : String) (line : Line)
    (member : line ∈ (Program.ofSource mode source).lines) :
    ∃ stop, Covered line.text 0 line.tokens stop ∧
      (Program.ofSource mode source).StopsAt mode line stop := by
  obtain ⟨index, offset, text, rfl⟩ := Program.exists_ofText mode source line member
  obtain ⟨stop, covered, halts⟩ :=
    (Line.scans_ofText mode index offset text).covered List.drop_zero (Nat.zero_le text.length)
  exact ⟨stop, covered, Program.stopsAt_of_halts mode source _ member covered halts⟩

/-- Reading keeps every line of a source and loses no character of it: the tokens of a
line are parts of its text in the order of the text, and only blanks stand outside of them
before the stop. Labels and instructions come first and comments last. -/
theorem Program.reading_loses_nothing (mode : CommentMode) (source : String) :
    (Program.ofSource mode source).lines.map Line.text = splitLines source.toList ∧
      ∀ line ∈ (Program.ofSource mode source).lines,
        (splitLines source.toList)[line.index]? = some line.text ∧
        (∃ stop, Covered line.text 0 line.tokens stop ∧
          (Program.ofSource mode source).StopsAt mode line stop) ∧
        (∀ token ∈ line.tokens.tail, token.kind ≠ .label ∧ token.kind ≠ .instruction) ∧
        ∀ token ∈ line.tokens.dropLast, token.kind ≠ .comment := by
  refine ⟨Program.ofSource_texts mode source, ?_⟩
  intro line member
  refine ⟨Program.text_index mode source line member,
    Program.line_covered mode source line member, ?_, ?_⟩
  · obtain ⟨index, offset, text, rfl⟩ := Program.exists_ofText mode source line member
    intro token behind
    have leads := (Line.scans_ofText mode index offset text).leadsLine_eq_false.2 token behind
    constructor
    · intro isLabel
      rw [isLabel] at leads
      cases leads
    · intro isInstruction
      rw [isInstruction] at leads
      cases leads
  · obtain ⟨index, offset, text, rfl⟩ := Program.exists_ofText mode source line member
    exact (Line.scans_ofText mode index offset text).commentLast.dropLast

theorem Program.reading_loses_nothing_before_letter :
    ∃ line ∈ (Program.ofSource .skip "add\t0b1_0é ; x").lines,
      line.tokens.map Token.kind = [.instruction, .binary] ∧
      Covered line.text 0 line.tokens 9 ∧
      (Program.ofSource .skip "add\t0b1_0é ; x").lexicalErrorsAt line.index =
        [{ severity := .error
           line := 0
           startColumn := 9
           endColumn := 13
           message := unparsableMessage }] := by
  let line := Line.ofText .skip 0 0 "add\t0b1_0é ; x".toList
  have member : line ∈ (Program.ofSource .skip "add\t0b1_0é ; x").lines := by decide +kernel
  have unparsed : line.unparsed = some 9 := by decide +kernel
  have kinds : line.tokens.map Token.kind = [.instruction, .binary] := by decide +kernel
  obtain ⟨_texts, each⟩ := reading_loses_nothing .skip "add\t0b1_0é ; x"
  obtain ⟨_place, ⟨stop, covered, stops⟩, _leading, _comments⟩ := each line member
  cases stops with
  | ended complete reported => cases unparsed.symm.trans complete
  | stuck stop found inside unreadable reported =>
      cases unparsed.symm.trans found
      exact ⟨line, member, kinds, covered, reported⟩
  | comment stop skips complete mark free first reported =>
      cases unparsed.symm.trans complete

end PinMachine
