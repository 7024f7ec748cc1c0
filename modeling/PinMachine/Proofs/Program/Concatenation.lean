import PinMachine.Proofs.Program.Index
import PinMachine.Proofs.Program.Scan

/-!
Sources one after the other. Reading a line looks at nothing but its text; the line index
and the number of instruction lines before it only say where the result stands. So the
program of two sources with a separator between them is the program of the first one,
followed by that of the second one moved down, and this carries over to everything that is
read off the lines.
-/

namespace PinMachine

private theorem joinLines_append (first line : List Char) (separator : Separator)
    (rest later : List (Separator × List Char)) :
    joinLines first (rest ++ (separator, line) :: later) =
      joinLines first rest ++ (separator.text ++ joinLines line later) := by
  simp only [joinLines, List.flatMap_append, List.flatMap_cons, List.append_assoc]

/-- A pair between two texts is read as one separator, whatever stands on its sides. -/
private theorem Unpaired.append_pair {rest later : List (Separator × List Char)}
    (earlier : Unpaired rest) (line : List Char) (behind : Unpaired later) :
    Unpaired (rest ++ (.pair, line) :: later) := by
  refine List.isChain_append.mpr ⟨earlier, List.isChain_cons.mpr ⟨?_, behind⟩, ?_⟩
  · intro next _member paired
    cases paired.1
  · intro last _member next first paired
    cases first
    cases paired.2.2

theorem splitLines_append (first second : List Char) :
    splitLines (first ++ ['\r', '\n'] ++ second) = splitLines first ++ splitLines second := by
  obtain ⟨front, rest, joined, unpaired, split⟩ := exists_joinLines [] [] first
  obtain ⟨back, later, joinedLater, unpairedLater, splitLater⟩ := exists_joinLines [] [] second
  have frontLines : splitLines first = front :: rest.map Prod.snd := split
  have backLines : splitLines second = back :: later.map Prod.snd := splitLater
  have lines : ∀ line ∈ front :: (rest ++ (Separator.pair, back) :: later).map Prod.snd,
      OnOneLine line := by
    intro line member
    have inEither : line ∈ splitLines first ++ splitLines second := by
      rw [frontLines, backLines]
      simpa using member
    rcases List.mem_append.mp inEither with inFirst | inSecond
    · exact onOneLine_of_mem_splitLines first line inFirst
    · exact onOneLine_of_mem_splitLines second line inSecond
  have whole : first ++ ['\r', '\n'] ++ second =
      joinLines front (rest ++ (.pair, back) :: later) := by
    rw [joinLines_append, joined, joinedLater, List.append_assoc]
    rfl
  rw [whole, frontLines, backLines]
  refine (splitLinesFrom_joinLines [] _ _ lines (unpaired.append_pair back unpairedLater)).trans ?_
  simp

def Token.shift (lines : Nat) (token : Token) : Token :=
  { token with line := token.line + lines }

def Diagnostic.shift (lines : Nat) (diagnostic : Diagnostic) : Diagnostic :=
  { diagnostic with line := diagnostic.line + lines }

/-- The line with more lines before it, some of which are instruction lines. -/
def Line.shift (lines instructions : Nat) (line : Line) : Line :=
  { line with
    index := line.index + lines
    instructionOffset := line.instructionOffset + instructions
    tokens := line.tokens.map (Token.shift lines) }

theorem Scans.shift {mode : CommentMode} {line column : Nat} {leading : Bool}
    {text : List Char} {scanned : ScannedLine} (lines : Nat)
    (scans : Scans mode line column leading text scanned) :
    Scans mode (line + lines) column leading text
      ⟨scanned.tokens.map (Token.shift lines), scanned.unparsed⟩ := by
  induction scans with
  | finished column leading => exact .finished column leading
  | stuck column leading text nonempty unreadable =>
      exact .stuck column leading text nonempty unreadable
  | blanks column leading blanks text rest scanned found later ih =>
      exact .blanks column leading blanks text rest _ found ih
  | skipped column leading comment text skips found =>
      exact .skipped column leading comment text skips found
  | token column leading lexeme text rest scanned notBlank kept found later ih =>
      exact .token column leading lexeme text rest _ notBlank kept found ih

namespace Line

theorem ofText_shift (mode : CommentMode) (index offset lines instructions : Nat)
    (text : List Char) :
    ofText mode (index + lines) (offset + instructions) text =
      (ofText mode index offset text).shift lines instructions := by
  have scanned := ((scans_ofText mode index offset text).shift lines).eq_scanFrom
  have same : scanLine mode (index + lines) text =
      ⟨((ofText mode index offset text).shift lines instructions).tokens,
        (ofText mode index offset text).unparsed⟩ := scanned.symm
  simp only [ofText, same]
  rfl

variable (lines instructions : Nat) (line : Line)

theorem instructionName?_shift :
    (line.shift lines instructions).instructionName? = line.instructionName? := by
  obtain ⟨text, index, offset, tokens, unparsed⟩ := line
  cases tokens with
  | nil => rfl
  | cons token later =>
      obtain ⟨lexeme, place, column⟩ := token
      cases lexeme <;> rfl

theorem labelName?_shift :
    (line.shift lines instructions).labelName? = line.labelName? := by
  obtain ⟨text, index, offset, tokens, unparsed⟩ := line
  cases tokens with
  | nil => rfl
  | cons token later =>
      obtain ⟨lexeme, place, column⟩ := token
      cases lexeme <;> rfl

theorem isInstruction_shift :
    (line.shift lines instructions).isInstruction = line.isInstruction := by
  unfold isInstruction
  rw [instructionName?_shift]

theorem lexicalError?_shift :
    (line.shift lines instructions).lexicalError? =
      line.lexicalError?.map (Diagnostic.shift lines) := by
  unfold lexicalError?
  rw [Option.map_map]
  rfl

end Line

theorem readLinesFrom_done (mode : CommentMode) (done : List Line) (index offset : Nat)
    (texts : List (List Char)) :
    readLinesFrom mode done index offset texts =
      done.reverse ++ readLinesFrom mode [] index offset texts := by
  induction texts generalizing done index offset with
  | nil => rw [readLinesFrom, readLinesFrom, List.reverse_nil, List.append_nil]
  | cons text rest ih =>
      simp only [readLinesFrom]
      rw [ih, ih [_], List.reverse_cons, List.append_assoc]
      rfl

theorem readLinesFrom_cons (mode : CommentMode) (index offset : Nat) (text : List Char)
    (rest : List (List Char)) :
    readLinesFrom mode [] index offset (text :: rest) =
      Line.ofText mode index offset text ::
        readLinesFrom mode [] (index + 1)
          (offset + if (Line.ofText mode index offset text).isInstruction then 1 else 0) rest := by
  have counted : ∀ holds : Bool,
      (offset + if holds then 1 else 0) = if holds then offset + 1 else offset := by
    intro holds
    cases holds <;> rfl
  rw [counted, readLinesFrom, readLinesFrom_done]
  rfl

/-- Reading goes on with the counts that the lines read so far leave. -/
theorem readLinesFrom_append (mode : CommentMode) (index offset : Nat)
    (texts more : List (List Char)) :
    readLinesFrom mode [] index offset (texts ++ more) =
      readLinesFrom mode [] index offset texts ++
        readLinesFrom mode [] (index + texts.length)
          (offset + (readLinesFrom mode [] index offset texts).countP Line.isInstruction) more := by
  induction texts generalizing index offset with
  | nil => rfl
  | cons text rest ih =>
      rw [List.cons_append, readLinesFrom_cons, ih, readLinesFrom_cons, List.cons_append,
        List.length_cons, List.countP_cons]
      congr 3
      · omega
      · omega

theorem readLinesFrom_shift (mode : CommentMode) (index offset lines instructions : Nat)
    (texts : List (List Char)) :
    readLinesFrom mode [] (index + lines) (offset + instructions) texts =
      (readLinesFrom mode [] index offset texts).map (Line.shift lines instructions) := by
  induction texts generalizing index offset with
  | nil => rfl
  | cons text rest ih =>
      rw [readLinesFrom_cons, readLinesFrom_cons, List.map_cons, Line.ofText_shift,
        Line.isInstruction_shift, ← ih]
      congr 2
      · omega
      · omega

/-- The program that two programs make one after the other. -/
structure Program.Joins (front back whole : Program) : Prop where
  lines : whole.lines = front.lines ++
    back.lines.map (Line.shift front.lines.length front.instructionCount)
  errors : whole.lexicalErrors = .ofList (front.lexicalErrors.entries ++
    back.lexicalErrors.entries.map (Diagnostic.shift front.lines.length))
  instructions : whole.instructionLines = front.instructionLines ++
    back.instructionLines.map (Line.shift front.lines.length front.instructionCount)
  labels : ∀ name, whole.labelLine? name =
    (front.labelLine? name).or ((back.labelLine? name).map (· + front.lines.length))

private theorem lookup_map_index (declared : List (String × Nat)) (lines : Nat) (name : String) :
    (declared.map fun label => (label.1, label.2 + lines)).lookup name =
      (declared.lookup name).map (· + lines) := by
  induction declared with
  | nil => rfl
  | cons label rest ih =>
      rw [List.map_cons, List.lookup_cons, List.lookup_cons, ih]
      cases name == label.1 <;> rfl

private theorem labelDeclarations_shift (lines instructions : Nat) (below : List Line) :
    labelDeclarations (below.map (Line.shift lines instructions)) =
      (labelDeclarations below).map fun label => (label.1, label.2 + lines) := by
  unfold labelDeclarations
  rw [List.filterMap_map, List.map_filterMap]
  apply List.filterMap_congr
  intro line _member
  simp only [Function.comp_apply, Line.labelName?_shift, Option.map_map]
  rfl

namespace Program

theorem joins_of_lines {front back whole : Program}
    (lines : whole.lines = front.lines ++
      back.lines.map (Line.shift front.lines.length front.instructionCount)) :
    Joins front back whole where
  lines := lines
  errors := by
    rw [entries_lexicalErrors, entries_lexicalErrors, List.map_filterMap]
    unfold lexicalErrors
    rw [lines, List.filterMap_append, List.filterMap_map]
    congr 2
    apply List.filterMap_congr
    intro line _member
    exact Line.lexicalError?_shift _ _ line
  instructions := by
    unfold instructionLines
    rw [lines, List.filter_append, List.filter_map]
    congr 2
    apply List.filter_congr
    intro line _member
    exact Line.isInstruction_shift _ _ line
  labels := by
    intro name
    unfold labelLine?
    rw [whole.labels_eq, front.labels_eq, back.labels_eq, lines]
    have split : ∀ above below, labelDeclarations (above ++ below) =
        labelDeclarations above ++ labelDeclarations below := fun _ _ => List.filterMap_append
    rw [split, labelDeclarations_shift, List.lookup_append, lookup_map_index]

theorem ofSource_append_lines (mode : CommentMode) (first second : String) :
    (ofSource mode (first ++ "\r\n" ++ second)).lines =
      (ofSource mode first).lines ++ (ofSource mode second).lines.map
        (Line.shift (ofSource mode first).lines.length (ofSource mode first).instructionCount) := by
  have texts : (first ++ "\r\n" ++ second).toList =
      first.toList ++ ['\r', '\n'] ++ second.toList := by
    rw [String.toList_append, String.toList_append]
    rfl
  have count : (ofSource mode first).lines.length = (splitLines first.toList).length := by
    rw [← List.length_map (f := Line.text), ofSource_texts]
  have read : (ofSource mode (first ++ "\r\n" ++ second)).lines =
      readLinesFrom mode [] 0 0 (splitLines first.toList ++ splitLines second.toList) := by
    change readLinesFrom mode [] 0 0 _ = _
    rw [texts, splitLines_append]
  have instructions : (ofSource mode first).instructionCount =
      (ofSource mode first).lines.countP Line.isInstruction :=
    List.countP_eq_length_filter.symm
  rw [read, readLinesFrom_append, count, instructions]
  congr 1
  exact readLinesFrom_shift mode 0 0 _ _ _

end Program

theorem map_scanned_readLinesFrom (mode : CommentMode) (index offset : Nat)
    (texts : List (List Char)) :
    (readLinesFrom mode [] index offset texts).map Line.scanned =
      texts.mapIdx fun place => scanLine mode (index + place) := by
  induction texts generalizing index offset with
  | nil => rfl
  | cons text rest ih =>
      rw [readLinesFrom_cons, List.map_cons, ih, List.mapIdx_cons]
      congr 2
      funext place
      rw [Nat.add_right_comm, Nat.add_assoc]

/-- Reading two sources one after the other gives the program of the first one and behind
it the program of the second one, moved down by the lines and the instruction lines of the
first. What is read of a line depends on its text and its place alone, so a line that
cannot be read to its end leaves all others as they are. -/
theorem Program.reading_joins_sources (mode : CommentMode) (first second : String) :
    Program.Joins (.ofSource mode first) (.ofSource mode second)
        (.ofSource mode (first ++ "\r\n" ++ second)) ∧
      ∀ source : String, (Program.ofSource mode source).lines.map Line.scanned =
        (splitLines source.toList).mapIdx fun place => scanLine mode place := by
  refine ⟨joins_of_lines (ofSource_append_lines mode first second), ?_⟩
  intro source
  have read := map_scanned_readLinesFrom mode 0 0 (splitLines source.toList)
  simp only [Nat.zero_add] at read
  exact read

end PinMachine
