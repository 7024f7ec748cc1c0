import PinMachine.Interpreter
import PinMachine.Proofs.Program.Scan

/-!
Programs with and without comments. A comment goes on to the end of its line, so it
can only be the last token there. Reading a source without its comments gives the lines
that reading it with them gives, less the comment tokens; and nothing that is read off
the lines, from the tables of a program to the problems found in it, sees a comment.
-/

namespace PinMachine

def withoutComments (tokens : List Token) : List Token :=
  tokens.filter fun token => !token.isComment

/-- No token comes after a comment. -/
def CommentLast : List Token → Prop
  | [] => True
  | token :: later => (token.isComment = true → later = []) ∧ CommentLast later

theorem withoutComments_cons (token : Token) (later : List Token)
    (notComment : token.isComment = false) :
    withoutComments (token :: later) = token :: withoutComments later := by
  unfold withoutComments
  rw [List.filter_cons_of_pos]
  simp [notComment]

theorem CommentLast.cases {tokens : List Token} (last : CommentLast tokens) :
    tokens = [] ∨ (∃ comment, tokens = [comment] ∧ comment.isComment = true) ∨
      ∃ first later, tokens = first :: later ∧ first.isComment = false := by
  cases tokens with
  | nil => exact Or.inl rfl
  | cons first later =>
      cases isComment : first.isComment with
      | true =>
          have alone := last.1 isComment
          subst alone
          exact Or.inr (Or.inl ⟨first, rfl, isComment⟩)
      | false => exact Or.inr (Or.inr ⟨first, later, rfl, isComment⟩)

theorem withoutComments_comment (comment : Token) (isComment : comment.isComment = true) :
    withoutComments [comment] = [] := by
  simp [withoutComments, isComment]

theorem CommentLast.dropLast {tokens : List Token} (last : CommentLast tokens) :
    ∀ token ∈ tokens.dropLast, token.kind ≠ .comment := by
  induction tokens with
  | nil => simp
  | cons first later ih =>
      cases later with
      | nil => simp
      | cons second others =>
          rw [List.dropLast_cons_cons]
          intro token member isComment
          rcases List.mem_cons.mp member with rfl | behind
          · have alone := last.1 (beq_iff_eq.mpr isComment)
            cases alone
          · exact ih last.2 token behind isComment

theorem Scans.finished_of_comment {mode : CommentMode} {line column : Nat}
    {leading later : Bool} {text rest written : List Char} {scanned : ScannedLine}
    (found : nextLexeme? leading text = some (.comment written, rest))
    (scans : Scans mode line column later rest scanned) :
    rest = [] ∧ scanned = .finished := by
  obtain ⟨_leads, _spelled, ends, _split⟩ := nextLexeme?_eq_some found
  cases ends
  refine ⟨rfl, ?_⟩
  rw [scans.eq_scanFrom]
  simp only [scanFrom]

theorem Scans.commentLast {mode : CommentMode} {line column : Nat} {leading : Bool}
    {text : List Char} {scanned : ScannedLine}
    (scans : Scans mode line column leading text scanned) : CommentLast scanned.tokens := by
  induction scans with
  | finished column leading => exact trivial
  | stuck column leading text nonempty unreadable => exact trivial
  | blanks column leading blanks text rest scanned found later ih => exact ih
  | skipped column leading comment text skips found => exact trivial
  | token column leading lexeme text rest scanned notBlank kept found later ih =>
      refine ⟨?_, ih⟩
      intro isComment
      cases lexeme with
      | comment written =>
          rw [(Scans.finished_of_comment found later).2]
          rfl
      | _ => cases isComment

/-- A scan that skips comments finds what a scan that keeps them finds, without the
comments. -/
theorem Scans.skip {line column : Nat} {leading : Bool} {text : List Char}
    {scanned : ScannedLine} (scans : Scans .keep line column leading text scanned) :
    Scans .skip line column leading text
      ⟨withoutComments scanned.tokens, scanned.unparsed⟩ := by
  induction scans with
  | finished column leading => exact .finished column leading
  | stuck column leading text nonempty unreadable =>
      exact .stuck column leading text nonempty unreadable
  | blanks column leading blanks text rest scanned found later ih =>
      exact .blanks column leading blanks text rest _ found ih
  | skipped column leading comment text skips found => cases skips
  | token column leading lexeme text rest scanned notBlank kept found later ih =>
      cases lexeme with
      | comment written =>
          obtain ⟨rfl, rfl⟩ := Scans.finished_of_comment found later
          exact .skipped column leading written text rfl found
      | _ =>
          simp only [ScannedLine.cons]
          rw [withoutComments_cons _ _ rfl]
          refine .token column leading _ text rest ⟨_, _⟩ notBlank ?_ found ih
          intro isComment
          cases isComment

namespace Line

def bare (line : Line) : Line :=
  { line with tokens := withoutComments line.tokens }

theorem ofText_skip (index offset : Nat) (text : List Char) :
    Line.ofText .skip index offset text = (Line.ofText .keep index offset text).bare := by
  have scanned := (Line.scans_ofText .keep index offset text).skip.eq_scanFrom
  have same : scanLine .skip index text =
      ⟨(Line.ofText .keep index offset text).bare.tokens,
        (Line.ofText .keep index offset text).bare.unparsed⟩ := scanned.symm
  simp only [Line.ofText, same]
  rfl

variable {line : Line}

private theorem lexeme_of_isComment {token : Token} (isComment : token.isComment = true) :
    ∃ text, token.lexeme = .comment text := by
  obtain ⟨lexeme, place, column⟩ := token
  cases lexeme with
  | comment text => exact ⟨text, rfl⟩
  | _ => cases isComment

/-- What is read off the first token does not see comments if it does not see one that
stands alone. -/
private theorem read_bare {α : Type} (last : CommentLast line.tokens) (read : Line → α)
    (alone : ∀ comment place column,
      read { line with tokens := [⟨.comment comment, place, column⟩] } =
        read { line with tokens := [] })
    (leading : ∀ token later other, read { line with tokens := token :: later } =
      read { line with tokens := token :: other }) :
    read line.bare = read line := by
  obtain ⟨text, index, offset, tokens, unparsed⟩ := line
  unfold bare
  rcases last.cases with none | ⟨⟨lexeme, place, column⟩, single, isComment⟩ |
    ⟨first, later, shape, kept⟩
  · cases none
    rfl
  · cases single
    obtain ⟨comment, written⟩ := lexeme_of_isComment isComment
    cases written
    rw [withoutComments_comment _ isComment]
    exact (alone comment place column).symm
  · cases shape
    rw [withoutComments_cons first later kept]
    exact leading _ _ _

theorem instructionName?_bare (last : CommentLast line.tokens) :
    line.bare.instructionName? = line.instructionName? := by
  apply read_bare last
  · intro comment place column
    rfl
  · rintro ⟨lexeme, place, column⟩ later other
    cases lexeme <;> rfl

theorem labelName?_bare (last : CommentLast line.tokens) :
    line.bare.labelName? = line.labelName? := by
  apply read_bare last
  · intro comment place column
    rfl
  · rintro ⟨lexeme, place, column⟩ later other
    cases lexeme <;> rfl

theorem isInstruction_bare (last : CommentLast line.tokens) :
    line.bare.isInstruction = line.isInstruction := by
  unfold isInstruction
  rw [instructionName?_bare last]

theorem isLabel_bare (last : CommentLast line.tokens) : line.bare.isLabel = line.isLabel := by
  unfold isLabel
  rw [labelName?_bare last]

theorem arguments_bare (last : CommentLast line.tokens) :
    line.bare.arguments = line.arguments := by
  unfold arguments bare
  rcases last.cases with none | ⟨comment, alone, isComment⟩ | ⟨first, later, shape, kept⟩
  · rw [none]
    rfl
  · rw [alone, withoutComments_comment comment isComment]
    rfl
  · rw [shape, withoutComments_cons first later kept, List.tail_cons, List.tail_cons]
    simp [withoutComments]

theorem head?_bare_of_isLabel (last : CommentLast line.tokens) (isLabel : line.isLabel = true) :
    line.bare.tokens.head? = line.tokens.head? := by
  unfold bare
  rcases last.cases with none | ⟨comment, alone, isComment⟩ | ⟨first, later, shape, kept⟩
  · rw [none]
    rfl
  · -- A comment declares no label.
    obtain ⟨text, written⟩ := lexeme_of_isComment isComment
    obtain ⟨lexeme, place, column⟩ := comment
    cases written
    simp only [Line.isLabel, labelName?, alone] at isLabel
    cases isLabel
  · rw [shape, withoutComments_cons first later kept]
    rfl

theorem blank_bare (last : CommentLast line.tokens) :
    (line.bare.isEmpty || line.bare.isComment) = (line.isEmpty || line.isComment) := by
  unfold isEmpty isComment bare
  rcases last.cases with none | ⟨comment, alone, isComment⟩ | ⟨first, later, shape, kept⟩
  · rw [none]
    rfl
  · simp [alone, withoutComments_comment comment isComment, isComment]
  · simp only [shape, withoutComments_cons first later kept]
    cases later with
    | nil => rfl
    | cons second others =>
        cases withoutComments (second :: others) <;> simp [kept]

theorem checkSignature_bare (last : CommentLast line.tokens) (catalog : Catalog) :
    line.bare.checkSignature catalog = line.checkSignature catalog := by
  unfold checkSignature
  rw [instructionName?_bare last, arguments_bare last]
  rfl

theorem check_bare (last : CommentLast line.tokens) (scope : Scope) (catalog : Catalog) :
    line.bare.check scope catalog = line.check scope catalog := by
  have trailing : line.bare.checkTrailing = line.checkTrailing := by
    unfold checkTrailing
    rw [arguments_bare last]
    rfl
  unfold check
  rw [blank_bare last, isLabel_bare last, isInstruction_bare last, trailing,
    checkSignature_bare last, arguments_bare last]
  rfl

theorem dispatch?_bare (last : CommentLast line.tokens) (catalog : Catalog) :
    line.bare.dispatch? catalog = line.dispatch? catalog := by
  unfold dispatch?
  rw [instructionName?_bare last, arguments_bare last]

end Line

/-! ### Programs -/

theorem commentLast_ofText (index offset : Nat) (text : List Char) :
    CommentLast (Line.ofText .keep index offset text).tokens :=
  (Line.scans_ofText .keep index offset text).commentLast

private theorem readLinesFrom_skip (done : List Line) (index offset : Nat)
    (texts : List (List Char)) :
    readLinesFrom .skip (done.map Line.bare) index offset texts =
      (readLinesFrom .keep done index offset texts).map Line.bare := by
  induction texts generalizing done index offset with
  | nil => simp only [readLinesFrom, List.map_reverse]
  | cons text rest ih =>
      have counted := Line.isInstruction_bare (commentLast_ofText index offset text)
      simp only [readLinesFrom, Line.ofText_skip, counted]
      exact ih (_ :: done) _ _

namespace Program

theorem ofSource_skip_lines (source : String) :
    (Program.ofSource .skip source).lines =
      (Program.ofSource .keep source).lines.map Line.bare :=
  readLinesFrom_skip [] 0 0 (splitLines source.toList)

theorem commentLast_of_mem (source : String) (line : Line)
    (member : line ∈ (Program.ofSource .keep source).lines) : CommentLast line.tokens := by
  obtain ⟨index, offset, text, rfl⟩ := Program.exists_ofText .keep source line member
  exact commentLast_ofText index offset text

end Program

private theorem followingInstructions_bare (lines : List Line)
    (last : ∀ line ∈ lines, CommentLast line.tokens) :
    followingInstructions (lines.map Line.bare) = followingInstructions lines := by
  induction lines with
  | nil => rfl
  | cons line rest ih =>
      have later := ih fun other member => last other (List.mem_cons_of_mem _ member)
      have here := Line.isInstruction_bare (last line List.mem_cons_self)
      simp only [followingInstructions, List.map_cons, List.foldr_cons, here] at later ⊢
      rw [later]
      rfl

private theorem labelDeclarations_bare (lines : List Line)
    (last : ∀ line ∈ lines, CommentLast line.tokens) :
    labelDeclarations (lines.map Line.bare) = labelDeclarations lines := by
  unfold labelDeclarations
  rw [List.filterMap_map]
  apply List.filterMap_congr
  intro line member
  simp only [Function.comp_apply, Line.labelName?_bare (last line member)]
  rfl

/-- Two programs have the same tables, and lines with the same texts. -/
structure Program.Agrees (one other : Program) : Prop where
  following : one.following = other.following
  labels : one.labels = other.labels
  texts : one.lines.map Line.text = other.lines.map Line.text

namespace Program

theorem ofSource_agrees (source : String) :
    (Program.ofSource .keep source).Agrees (Program.ofSource .skip source) where
  following := by
    rw [following_eq, following_eq, ofSource_skip_lines,
      followingInstructions_bare _ (commentLast_of_mem source)]
  labels := by
    rw [labels_eq, labels_eq, ofSource_skip_lines,
      labelDeclarations_bare _ (commentLast_of_mem source)]
  texts := by
    rw [ofSource_skip_lines, List.map_map]
    rfl

theorem ofSource_lexicalErrors (source : String) :
    (Program.ofSource .keep source).lexicalErrors =
      (Program.ofSource .skip source).lexicalErrors := by
  unfold lexicalErrors
  rw [ofSource_skip_lines, List.filterMap_map]
  rfl

private theorem labelTokens_skip (source : String) :
    (Program.ofSource .skip source).labelTokens =
      (Program.ofSource .keep source).labelTokens := by
  unfold labelTokens
  rw [ofSource_skip_lines, List.filter_map, List.filterMap_map]
  have kept : (Program.ofSource .keep source).lines.filter (Line.isLabel ∘ Line.bare) =
      (Program.ofSource .keep source).lines.filter Line.isLabel := by
    apply List.filter_congr
    intro line member
    exact Line.isLabel_bare (commentLast_of_mem source line member)
  rw [kept]
  apply List.filterMap_congr
  intro line member
  obtain ⟨inProgram, isLabel⟩ := List.mem_filter.mp member
  exact Line.head?_bare_of_isLabel (commentLast_of_mem source line inProgram) isLabel

theorem ofSource_validate (source : String) (config : Config) (catalog : Catalog) :
    (Program.ofSource .keep source).validate config catalog =
      (Program.ofSource .skip source).validate config catalog := by
  unfold validate
  rw [labelTokens_skip, ofSource_skip_lines]
  obtain ⟨scope, repeated⟩ :=
    (Scope.ofConfig config).declareLabels (Program.ofSource .keep source).labelTokens
  change Diagnostics.ofList (repeated ++ _) = Diagnostics.ofList (repeated ++ _)
  rw [List.flatMap_map]
  congr 2
  apply List.flatMap_congr
  intro line member
  exact (Line.check_bare (commentLast_of_mem source line member) scope catalog).symm

end Program

end PinMachine
