import PinMachine.Proofs.Program.Index
import PinMachine.Proofs.Program.Scan
import PinMachine.Proofs.Text.Lines
import PinMachine.Proofs.Token.Priority

/-!
Printing of lines. A layout is a list of lexemes together with everything that writing
them on a line leaves open: the blanks around them and a comment at the end. Reading a
line that was printed gives back the lexemes of its layout, whatever the blanks, each at
the column where it was printed.
-/

namespace PinMachine

/-- Spaces and tabs, or nothing. -/
def AreBlanks (text : List Char) : Prop :=
  ∀ char ∈ text, isSpaceOrTab char = true

instance (text : List Char) : Decidable (AreBlanks text) :=
  List.decidableBAll (isSpaceOrTab · = true) text

namespace Layout

/-- The first lexeme of a line: a label or an instruction. -/
structure Heading where
  lexeme : Lexeme
  leads : lexeme.kind ∈ [TokenKind.label, .instruction]
  spelled : lexeme.WellSpelled

/-- An argument and the blanks before it. -/
structure Argument where
  blanks : List Char
  lexeme : Lexeme
  spaced : IsRun isSpaceOrTab blanks
  follows : lexeme.kind ∈ [TokenKind.register, .labelArgument, .pinRange, .pinRangeLength,
    .pin, .binary, .hex, .integer]
  spelled : lexeme.WellSpelled

structure Comment where
  text : List Char
  spelled : (Lexeme.comment text).WellSpelled
  onOneLine : OnOneLine text

end Layout

structure Layout where
  indent : List Char
  heading : Layout.Heading
  arguments : List Layout.Argument
  trailing : List Char
  comment : Option Layout.Comment
  indent_blank : AreBlanks indent
  trailing_blank : AreBlanks trailing

namespace Layout

def Argument.text (argument : Argument) : List Char :=
  argument.blanks ++ argument.lexeme.text

def argumentsText (arguments : List Argument) : List Char :=
  arguments.flatMap Argument.text

/-- What is printed after the arguments. -/
def ending (layout : Layout) : List Char :=
  layout.trailing ++ (layout.comment.map Comment.text).getD []

def text (layout : Layout) : List Char :=
  layout.indent ++ (layout.heading.lexeme.text ++
    (argumentsText layout.arguments ++ layout.ending))

/-! ### What is to be read -/

/-- The tokens of arguments that are printed from a column on. -/
def argumentTokens (line : Nat) : (column : Nat) → List Argument → List Token
  | _, [] => []
  | column, argument :: rest =>
      let start := column + argument.blanks.length
      ⟨argument.lexeme, line, start⟩ ::
        argumentTokens line (start + argument.lexeme.text.length) rest

/-- A comment at a column is a token only if comments are kept. -/
def commentTokens (mode : CommentMode) (line column : Nat) : Option Comment → List Token
  | none => []
  | some comment =>
      match mode with
      | .skip => []
      | .keep => [⟨.comment comment.text, line, column⟩]

def tokens (layout : Layout) (mode : CommentMode) (line : Nat) : List Token :=
  let start := layout.indent.length
  let behind := start + layout.heading.lexeme.text.length
  let finish := behind + (argumentsText layout.arguments).length + layout.trailing.length
  ⟨layout.heading.lexeme, line, start⟩ :: argumentTokens line behind layout.arguments ++
    commentTokens mode line finish layout.comment

variable {mode : CommentMode} {line column : Nat} {leading : Bool}

theorem opens_blank (kind : TokenKind) (notBlank : kind ≠ .whitespace) (char : Char)
    (blank : isSpaceOrTab char = true) : kind.opens char = false := by
  simp only [isSpaceOrTab, Bool.or_eq_true, beq_iff_eq] at blank
  rcases blank with rfl | rfl
  · revert notBlank
    cases kind <;> decide
  · revert notBlank
    cases kind <;> decide

theorem stops_of_wellSpelled {lexeme : Lexeme} (spelled : lexeme.WellSpelled)
    (notBlank : lexeme.kind ≠ .whitespace) (rest : List Char) :
    Stops isSpaceOrTab (lexeme.text ++ rest) := by
  obtain ⟨char, others, written, opens⟩ := spelled.opens
  rw [written]
  apply stops_cons
  rw [Bool.eq_false_iff]
  intro blank
  rw [opens_blank lexeme.kind notBlank char blank] at opens
  cases opens

theorem scans_blanks {blanks rest : List Char} {scanned : ScannedLine}
    (areBlanks : AreBlanks blanks) (stops : Stops isSpaceOrTab rest)
    (later : Scans mode line (column + blanks.length) leading rest scanned) :
    Scans mode line column leading (blanks ++ rest) scanned := by
  by_cases none : blanks = []
  · subst none
    exact later
  · refine .blanks column leading blanks _ rest scanned ?_ later
    exact nextLexeme?_whitespace leading ⟨none, areBlanks⟩ stops

theorem scans_comment (comment : Option Comment) :
    Scans mode line column leading ((comment.map Comment.text).getD [])
      ⟨commentTokens mode line column comment, none⟩ := by
  cases comment with
  | none => exact .finished column leading
  | some comment =>
      have found := nextLexeme?_comment leading comment.spelled
      cases mode with
      | skip => exact .skipped column leading comment.text _ rfl found
      | keep =>
          refine .token column leading (.comment comment.text) _ [] .finished ?_ ?_ found ?_
          · intro blank
            cases blank
          · intro _comment
            rfl
          · exact .finished _ _

theorem scans_ending (layout : Layout) (mode : CommentMode) (line column : Nat) :
    Scans mode line column leading layout.ending
      ⟨commentTokens mode line (column + layout.trailing.length) layout.comment, none⟩ := by
  apply scans_blanks layout.trailing_blank _ (scans_comment layout.comment)
  cases layout.comment with
  | none => exact stops_nil _
  | some comment =>
      have stops := stops_of_wellSpelled comment.spelled (by intro blank; cases blank) []
      rw [List.append_nil] at stops
      exact stops

theorem delimited_of_blank {blank : Char} (isBlank : isSpaceOrTab blank = true)
    (rest : List Char) : Delimited (blank :: rest) := by
  intro char first
  cases first
  unfold isDelimiter
  rw [isBlank]
  rfl

theorem delimited_ending (layout : Layout) : Delimited layout.ending := by
  have blanks := layout.trailing_blank
  unfold ending
  cases shape : layout.trailing with
  | cons blank others =>
      rw [shape] at blanks
      exact delimited_of_blank (blanks blank List.mem_cons_self) _
  | nil =>
      cases layout.comment with
      | none =>
          intro char first
          cases first
      | some comment =>
          intro char first
          change comment.text.head? = some char at first
          rcases comment.spelled with semicolon | hash
          · cases first.symm.trans semicolon
            rfl
          · cases first.symm.trans hash
            rfl

theorem delimited_arguments (arguments : List Argument) {rest : List Char}
    (delimited : Delimited rest) : Delimited (argumentsText arguments ++ rest) := by
  cases arguments with
  | nil => exact delimited
  | cons argument others =>
      obtain ⟨blank, more, written, isBlank⟩ := argument.spaced.first
      simp only [argumentsText, List.flatMap_cons, Argument.text, written, List.cons_append]
      exact delimited_of_blank isBlank _

/-- Before a delimiter or the end, a lexeme is found where its kind is allowed, and the scan
goes on behind it. -/
theorem scans_lexeme {lexeme : Lexeme} {rest : List Char} {scanned : ScannedLine}
    (spelled : lexeme.WellSpelled) (notBlank : lexeme.kind ≠ .whitespace)
    (notComment : lexeme.kind ≠ .comment)
    (leads : lexeme.kind.leadsLine = true → leading = true)
    (argument : lexeme.kind = .labelArgument → leading = false) (delimited : Delimited rest)
    (later : Scans mode line (column + lexeme.text.length) false rest scanned) :
    Scans mode line column leading (lexeme.text ++ rest)
      (.cons ⟨lexeme, line, column⟩ scanned) := by
  refine .token column leading lexeme _ rest scanned notBlank ?_ ?_ later
  · intro isComment
    exact False.elim (notComment isComment)
  · exact nextLexeme?_of_wellSpelled leading lexeme spelled
      (delimited.endsAt lexeme notBlank notComment) leads argument (fun _needed => delimited)

theorem scans_token {lexeme : Lexeme} {rest : List Char} {scanned : ScannedLine}
    (spelled : lexeme.WellSpelled) (notBlank : lexeme.kind ≠ .whitespace)
    (notComment : lexeme.kind ≠ .comment) (delimited : Delimited rest)
    (later : Scans mode line (column + lexeme.text.length) false rest scanned) :
    Scans mode line column lexeme.kind.leadsLine (lexeme.text ++ rest)
      (.cons ⟨lexeme, line, column⟩ scanned) := by
  refine scans_lexeme spelled notBlank notComment id ?_ delimited later
  intro argument
  rw [argument]
  rfl

theorem Heading.kind_facts (heading : Heading) :
    heading.lexeme.kind ≠ .whitespace ∧ heading.lexeme.kind ≠ .comment ∧
      heading.lexeme.kind.leadsLine = true := by
  have facts : ∀ kind ∈ [TokenKind.label, .instruction],
      kind ≠ .whitespace ∧ kind ≠ .comment ∧ kind.leadsLine = true := by decide
  exact facts _ heading.leads

theorem Argument.kind_facts (argument : Argument) :
    argument.lexeme.kind ≠ .whitespace ∧ argument.lexeme.kind ≠ .comment ∧
      argument.lexeme.kind.leadsLine = false := by
  have facts : ∀ kind ∈ [TokenKind.register, .labelArgument, .pinRange, .pinRangeLength, .pin,
      .binary, .hex, .integer],
      kind ≠ .whitespace ∧ kind ≠ .comment ∧ kind.leadsLine = false := by decide
  exact facts _ argument.follows

theorem scans_arguments (arguments : List Argument) {rest : List Char} {later : ScannedLine}
    (delimited : Delimited rest)
    (scans : Scans mode line (column + (argumentsText arguments).length) false rest later) :
    Scans mode line column false (argumentsText arguments ++ rest)
      ⟨argumentTokens line column arguments ++ later.tokens, later.unparsed⟩ := by
  -- What follows the arguments is scanned from the column behind all of them.
  induction arguments generalizing column with
  | nil => exact scans
  | cons argument others ih =>
      obtain ⟨notBlank, notComment, follows⟩ := argument.kind_facts
      have printed : argumentsText (argument :: others) ++ rest =
          argument.blanks ++ (argument.lexeme.text ++ (argumentsText others ++ rest)) := by
        simp only [argumentsText, List.flatMap_cons, Argument.text, List.append_assoc]
      have place : column + (argumentsText (argument :: others)).length =
          column + argument.blanks.length + argument.lexeme.text.length +
            (argumentsText others).length := by
        simp only [argumentsText, List.flatMap_cons, Argument.text, List.length_append]
        omega
      rw [place] at scans
      have token := scans_token argument.spelled notBlank notComment
        (delimited_arguments others delimited) (ih scans)
      rw [follows] at token
      rw [printed]
      exact scans_blanks argument.spaced.2
        (stops_of_wellSpelled argument.spelled notBlank _) token

theorem scans_text (layout : Layout) (mode : CommentMode) (line : Nat) :
    Scans mode line 0 true layout.text ⟨layout.tokens mode line, none⟩ := by
  obtain ⟨notBlank, notComment, leads⟩ := layout.heading.kind_facts
  have arguments := scans_arguments layout.arguments layout.delimited_ending
    (layout.scans_ending mode line (0 + layout.indent.length +
      layout.heading.lexeme.text.length + (argumentsText layout.arguments).length))
  have heading := scans_token layout.heading.spelled notBlank notComment
    (delimited_arguments layout.arguments layout.delimited_ending) arguments
  rw [leads] at heading
  have whole := scans_blanks layout.indent_blank
    (stops_of_wellSpelled layout.heading.spelled notBlank _) heading
  rw [Nat.zero_add] at whole
  exact whole

end Layout

theorem IsIdentifier.onOneLine {name : List Char} (identifier : IsIdentifier name) :
    OnOneLine name := by
  obtain ⟨first, others, rfl, letter, _nonempty, inside⟩ := identifier
  have start : OnOneLine [first] :=
    onOneLine_of_class (List.forall_mem_singleton.mpr letter) (by decide)
  exact start.append (onOneLine_of_class inside (by decide))

theorem Lexeme.WellSpelled.onOneLine {lexeme : Lexeme} (spelled : lexeme.WellSpelled)
    (notComment : lexeme.kind ≠ .comment) : OnOneLine lexeme.text := by
  cases lexeme with
  | label name => exact (IsIdentifier.onOneLine spelled).cons (by decide)
  | instruction name => exact onOneLine_of_class spelled.2 (by decide)
  | register name => exact (onOneLine_of_class spelled.2 (by decide)).cons (by decide)
  | labelArgument name => exact IsIdentifier.onOneLine spelled
  | pinRange first last =>
      have start : OnOneLine first := onOneLine_of_class spelled.1.2 (by decide)
      have finish : OnOneLine last := onOneLine_of_class spelled.2.2 (by decide)
      have behind : OnOneLine ('.' :: '.' :: 'p' :: last) :=
        ((finish.cons (by decide)).cons (by decide)).cons (by decide)
      exact ((start.append behind).cons (by decide)).cons (by decide)
  | pinRangeLength first count =>
      have start : OnOneLine first := onOneLine_of_class spelled.1.2 (by decide)
      have size : OnOneLine count := onOneLine_of_class spelled.2.1.2 (by decide)
      exact ((start.append (size.cons (by decide))).cons (by decide)).cons (by decide)
  | pin index =>
      exact ((onOneLine_of_class spelled.2 (by decide)).cons (by decide)).cons (by decide)
  | binary digits =>
      exact ((onOneLine_of_class spelled.1 (by decide)).cons (by decide)).cons (by decide)
  | hex digits =>
      exact ((onOneLine_of_class spelled.2 (by decide)).cons (by decide)).cons (by decide)
  | integer digits => exact onOneLine_of_class spelled.2 (by decide)
  | whitespace blanks => exact onOneLine_of_class spelled.2 (by decide)
  | comment text => exact False.elim (notComment rfl)

/-- A line with an instruction and one argument, as it is to be read. -/
def argumentLine (word blanks : List Char) (argument : Lexeme) : Line where
  text := word ++ (blanks ++ argument.text)
  index := 0
  instructionOffset := 0
  tokens := [⟨.instruction word, 0, 0⟩, ⟨argument, 0, word.length + blanks.length⟩]
  unparsed := none

section ArgumentLine

variable {word blanks : List Char} {argument : Lexeme}

private theorem scans_argumentLine (mode : CommentMode) (isWord : IsRun Char.isAlpha word)
    (areBlanks : AreBlanks blanks) (spelled : argument.WellSpelled)
    (notBlank : argument.kind ≠ .whitespace) (notComment : argument.kind ≠ .comment)
    (follows : argument.kind.leadsLine = false)
    (apart : Stops Char.isAlpha (blanks ++ argument.text)) :
    Scans mode 0 0 true (argumentLine word blanks argument).text
      ⟨(argumentLine word blanks argument).tokens, none⟩ := by
  have delimited : Delimited [] := by
    intro char first
    cases first
  have single : Scans mode 0 (0 + word.length + blanks.length) argument.kind.leadsLine
      (argument.text ++ [])
      ⟨[⟨argument, 0, 0 + word.length + blanks.length⟩], none⟩ :=
    Layout.scans_token spelled notBlank notComment delimited (.finished _ false)
  have stops := Layout.stops_of_wellSpelled spelled notBlank []
  rw [follows, List.append_nil] at single
  rw [List.append_nil] at stops
  have behind := Layout.scans_blanks areBlanks stops single
  have whole := Scans.token 0 true (.instruction word) _ _ _ (fun blank => nomatch blank)
    (fun comment => nomatch comment) (nextLexeme?_instruction isWord apart) behind
  rw [Nat.zero_add] at whole
  exact whole

/-- An argument behind an instruction is read as one token, with or without blanks between
them. -/
theorem Program.ofSource_argumentLine (mode : CommentMode) (isWord : IsRun Char.isAlpha word)
    (areBlanks : AreBlanks blanks) (spelled : argument.WellSpelled)
    (notBlank : argument.kind ≠ .whitespace) (notComment : argument.kind ≠ .comment)
    (follows : argument.kind.leadsLine = false)
    (apart : Stops Char.isAlpha (blanks ++ argument.text)) :
    (Program.ofSource mode (.ofList (argumentLine word blanks argument).text)).lines =
      [argumentLine word blanks argument] := by
  have onOneLine : OnOneLine (argumentLine word blanks argument).text := by
    have onWord : OnOneLine word := onOneLine_of_class isWord.2 (by decide)
    have onBlanks : OnOneLine blanks := onOneLine_of_class areBlanks (by decide)
    exact onWord.append (onBlanks.append (spelled.onOneLine notComment))
  have scanned : scanLine mode 0 (argumentLine word blanks argument).text =
      ⟨(argumentLine word blanks argument).tokens, none⟩ :=
    (scans_argumentLine mode isWord areBlanks spelled notBlank notComment follows
      apart).eq_scanFrom.symm
  rw [Program.ofSource_onOneLine mode onOneLine]
  unfold Line.ofText
  rw [scanned]
  rfl

theorem stops_behind_word (areBlanks : AreBlanks blanks) {mark : Char}
    (notLetter : mark.isAlpha = false) (rest : List Char) :
    Stops Char.isAlpha (blanks ++ mark :: rest) := by
  cases blanks with
  | nil => exact stops_cons notLetter rest
  | cons blank others =>
      apply stops_cons
      have isBlank := areBlanks blank List.mem_cons_self
      simp only [isSpaceOrTab, Bool.or_eq_true, beq_iff_eq] at isBlank
      rcases isBlank with rfl | rfl <;> decide

end ArgumentLine

namespace Layout

theorem onOneLine_text (layout : Layout) : OnOneLine layout.text := by
  have indent : OnOneLine layout.indent := onOneLine_of_class layout.indent_blank (by decide)
  have trailing : OnOneLine layout.trailing :=
    onOneLine_of_class layout.trailing_blank (by decide)
  have heading : OnOneLine layout.heading.lexeme.text :=
    layout.heading.spelled.onOneLine layout.heading.kind_facts.2.1
  have arguments : OnOneLine (argumentsText layout.arguments) := by
    intro char member
    obtain ⟨argument, _given, written⟩ := List.mem_flatMap.mp member
    have blanks : OnOneLine argument.blanks := onOneLine_of_class argument.spaced.2 (by decide)
    exact blanks.append (argument.spelled.onOneLine argument.kind_facts.2.1) char written
  have comment : OnOneLine ((layout.comment.map Comment.text).getD []) := by
    cases layout.comment with
    | none =>
        intro char member
        cases member
    | some comment => exact comment.onOneLine
  exact indent.append (heading.append (arguments.append (trailing.append comment)))

/-! ### Reading what was printed -/

theorem ofText_text (layout : Layout) (mode : CommentMode) (index offset : Nat) :
    Line.ofText mode index offset layout.text =
      { text := layout.text
        index := index
        instructionOffset := offset
        tokens := layout.tokens mode index
        unparsed := none } := by
  have scanned : scanLine mode index layout.text = ⟨layout.tokens mode index, none⟩ :=
    (layout.scans_text mode index).eq_scanFrom.symm
  unfold Line.ofText
  rw [scanned]

/-- Reading undoes printing. The source that a layout prints is one line, which is read
to its end and gives the lexemes of the layout where they were printed, and the comment
if comments are kept. -/
theorem reading_undoes_printing (layout : Layout) (mode : CommentMode) :
    (Program.ofSource mode (String.ofList layout.text)).lines =
        [{ text := layout.text
           index := 0
           instructionOffset := 0
           tokens := layout.tokens mode 0
           unparsed := none }] ∧
      (Program.ofSource mode (String.ofList layout.text)).lexicalErrors = .empty := by
  have lines : (Program.ofSource mode (String.ofList layout.text)).lines =
      [Line.ofText mode 0 0 layout.text] := by
    unfold Program.ofSource
    rw [String.toList_ofList, splitLines_onOneLine layout.onOneLine_text]
    rfl
  rw [ofText_text] at lines
  refine ⟨lines, ?_⟩
  unfold Program.lexicalErrors
  rw [lines]
  rfl

/-- A line with an argument of every kind. -/
def zoo : Layout where
  indent := ['\t']
  heading := ⟨.instruction "add".toList, by decide, by decide⟩
  arguments :=
    [⟨[' '], .register "r0".toList, by decide, by decide, by decide⟩,
      ⟨[' ', ' '], .labelArgument "loop_1".toList, by decide, by decide, by decide⟩,
      ⟨[' '], .pinRange "0".toList "03".toList, by decide, by decide, by decide⟩,
      ⟨[' '], .pinRangeLength "4".toList "20".toList, by decide, by decide, by decide⟩,
      ⟨['\t'], .pin "7".toList, by decide, by decide, by decide⟩,
      ⟨[' '], .binary "1__0".toList, by decide, by decide, by decide⟩,
      ⟨[' '], .hex "0b".toList, by decide, by decide, by decide⟩,
      ⟨[' '], .integer "00".toList, by decide, by decide, by decide⟩]
  trailing := []
  comment := some ⟨"; $r0 ".toList, by decide, by decide⟩
  indent_blank := by decide
  trailing_blank := by decide

theorem reading_undoes_printing_zoo :
    String.ofList zoo.text =
        "\tadd $r0  loop_1 .p0..p03 .p4:20\t.p7 0b1__0 0x0b 00; $r0 " ∧
      (Program.ofSource .skip (String.ofList zoo.text)).lines.map Line.kinds =
        [[.instruction, .register, .labelArgument, .pinRange, .pinRangeLength, .pin, .binary,
          .hex, .integer]] := by
  refine ⟨by decide, ?_⟩
  rw [(reading_undoes_printing zoo .skip).1]
  rfl

end Layout

end PinMachine
