import PinMachine.Program.Spanned
import PinMachine.Proofs.Program.Concatenation
import PinMachine.Proofs.Token.Measure
import PinMachine.Proofs.Token.Pattern
import PinMachine.Proofs.Token.Spanned

/-!
The grammar of the tokens of a source. Scanning by measures gives the tokens that scanning
for lexemes gives, with the bytes of the captured parts in place of the parts. The tokens
belong to the patterns of their kinds, the bytes are those that the patterns capture, and
no reader misses a part.
-/

namespace PinMachine

def ScannedLine.spanned (scanned : ScannedLine) : SpannedLine :=
  ⟨scanned.tokens.map Token.spanned, scanned.unparsed⟩

theorem SpannedToken.ofMeasure_eq (lexeme : Lexeme) (line column : Nat) (rest : List Char) :
    SpannedToken.ofMeasure lexeme.kind lexeme.measure line column (lexeme.text ++ rest) =
      Token.spanned ⟨lexeme, line, column⟩ := by
  have matched : (lexeme.text ++ rest).take lexeme.measure.length = lexeme.text :=
    List.take_left
  unfold SpannedToken.ofMeasure
  simp only [matched, lexeme.inBytes_measure]
  rfl

theorem spanFrom_eq_spanned (mode : CommentMode) (line column : Nat) (leading : Bool)
    (taken : Nat) (text : List Char) :
    spanFrom mode line column leading taken text =
      (scanFrom mode line column leading taken text).spanned := by
  induction text generalizing column leading taken with
  | nil =>
      rw [spanFrom, scanFrom]
      rfl
  | cons char rest ih =>
      cases taken with
      | succ taken =>
          rw [spanFrom, scanFrom]
          exact ih (column + 1) leading taken
      | zero =>
          rw [spanFrom, scanFrom, nextMeasure?_eq]
          cases found : nextLexeme? leading (char :: rest) with
          | none => rfl
          | some next =>
              obtain ⟨lexeme, after⟩ := next
              obtain ⟨_leads, _spelled, _ends, split⟩ := nextLexeme?_eq_some found
              have width : lexeme.measure.length = lexeme.text.length := rfl
              have here := SpannedToken.ofMeasure_eq lexeme line column after
              rw [← split] at here
              simp only [Option.map_some, width, here, ih]
              cases lexeme.kind with
              | comment => cases mode <;> rfl
              | _ => rfl

theorem spannedLines_eq (mode : CommentMode) (source : String) :
    spannedLines mode source =
      (Program.ofSource mode source).lines.map fun line => line.scanned.spanned := by
  have scanned : (Program.ofSource mode source).lines.map Line.scanned =
      (splitLines source.toList).mapIdx fun place => scanLine mode (0 + place) :=
    map_scanned_readLinesFrom mode 0 0 (splitLines source.toList)
  calc
    spannedLines mode source =
        (splitLines source.toList).zipIdx.map fun entry =>
          (scanLine mode entry.2 entry.1).spanned := by
      refine List.map_congr_left fun entry _member => ?_
      exact spanFrom_eq_spanned mode entry.2 0 true 0 entry.1
    _ = ((splitLines source.toList).mapIdx fun place => scanLine mode (0 + place)).map
          ScannedLine.spanned := by
      simp only [Nat.zero_add, List.mapIdx_eq_zipIdx_map, List.map_map]
      rfl
    _ = (Program.ofSource mode source).lines.map fun line => line.scanned.spanned := by
      rw [← scanned, List.map_map]
      rfl

/-- The result is not that a part is missing. -/
def FindsParts {α : Type} (result : Except ValueError α) : Prop :=
  ∀ kind text, result ≠ .error (.malformed kind text)

theorem FindsParts.bind {α β : Type} {result : Except ValueError α}
    {next : α → Except ValueError β} (finds : FindsParts result)
    (goesOn : ∀ value, FindsParts (next value)) : FindsParts (result >>= next) := by
  cases result with
  | ok value => exact goesOn value
  | error problem =>
      intro kind text failed
      cases failed
      exact finds kind text rfl

namespace Lexeme

theorem findsParts_readIndex (digits : List Char) : FindsParts (readIndex digits) := by
  intro kind text failed
  unfold readIndex at failed
  split at failed <;> cases failed

theorem findsParts_readName (lexeme : Lexeme) : FindsParts lexeme.readName := by
  intro kind text failed
  cases lexeme <;> cases failed

theorem findsParts_readConstant (lexeme : Lexeme) : FindsParts lexeme.readConstant := by
  intro kind text failed
  unfold readConstant at failed
  split at failed
  · cases failed
  · split at failed <;> cases failed

theorem findsParts_readPinIndex (lexeme : Lexeme) : FindsParts lexeme.readPinIndex := by
  cases lexeme with
  | pin index => exact findsParts_readIndex index
  | _ =>
      intro kind text failed
      cases failed

theorem findsParts_readPinRange (lexeme : Lexeme) : FindsParts lexeme.readPinRange := by
  cases lexeme with
  | pin index =>
      refine (findsParts_readIndex index).bind fun value kind text failed => ?_
      cases failed
  | pinRange first last =>
      refine (findsParts_readIndex first).bind fun start => ?_
      refine (findsParts_readIndex last).bind fun stop kind text failed => ?_
      cases failed
  | pinRangeLength first count =>
      refine (findsParts_readIndex first).bind fun start => ?_
      refine (findsParts_readIndex count).bind fun width kind text failed => ?_
      split at failed <;> cases failed
  | _ =>
      intro kind text failed
      cases failed

end Lexeme

/-- The text of a token belongs to the pattern of its kind, the bytes that the token keeps
are those that the pattern captures there, all of them can be sliced out of the text, and no
reader misses one of them. -/
structure SpannedToken.Conforms (token : SpannedToken) : Prop where
  notBlank : token.kind ≠ .whitespace
  captures : ∀ groups, token.kind.pattern.Matches 0 token.text groups ↔ groups = token.groups
  slices : ∀ span ∈ token.groups, ∃ part, span.slice? token.text = some part
  name : FindsParts token.readName
  constant : FindsParts token.readConstant
  pinIndex : FindsParts token.readPinIndex
  pinRange : FindsParts token.readPinRange

/-- The bytes of a token say what its lexeme says. -/
structure Token.SaidBySpans (token : Token) : Prop where
  groups : token.spanned.groups.map (fun span => span.slice? token.text) =
    token.lexeme.groups.map some
  name : token.spanned.readName = token.lexeme.readName
  constant : token.spanned.readConstant = token.lexeme.readConstant
  pinIndex : token.spanned.readPinIndex = token.lexeme.readPinIndex
  pinRange : token.spanned.readPinRange = token.lexeme.readPinRange

theorem Lexeme.WellSpelled.saidBySpans {token : Token} (spelled : token.lexeme.WellSpelled) :
    token.SaidBySpans where
  groups := token.lexeme.slice?_spans
  name := token.readName_spanned
  constant := token.readConstant_spanned spelled
  pinIndex := token.readPinIndex_spanned spelled
  pinRange := token.readPinRange_spanned spelled

theorem Lexeme.WellSpelled.conforms {token : Token} (spelled : token.lexeme.WellSpelled)
    (notBlank : token.kind ≠ .whitespace) : token.spanned.Conforms := by
  have said := spelled.saidBySpans
  refine ⟨notBlank, spelled.pattern_iff, ?_, ?_, ?_, ?_, ?_⟩
  · intro span member
    have sliced : span.slice? token.text ∈ token.lexeme.groups.map some := by
      rw [← said.groups]
      exact List.mem_map_of_mem member
    obtain ⟨part, _captured, found⟩ := List.mem_map.mp sliced
    exact ⟨part, found.symm⟩
  · rw [said.name]
    exact token.lexeme.findsParts_readName
  · rw [said.constant]
    exact token.lexeme.findsParts_readConstant
  · rw [said.pinIndex]
    exact token.lexeme.findsParts_readPinIndex
  · rw [said.pinRange]
    exact token.lexeme.findsParts_readPinRange

/-- Tokens conform to the grammar. Scanned by measures, a source gives the tokens of its
program with the bytes of their captured parts. The text of each belongs to the pattern of
its kind, what it keeps are the bytes that the pattern captures, and each of them is a slice
of the text. The slices are the captured parts, the readers come to the same through them,
and none of them finds a token malformed. -/
theorem Program.tokens_conform_to_grammar (mode : CommentMode) (source : String) :
    (∀ line ∈ spannedLines mode source, ∀ token ∈ line.tokens, token.Conforms) ∧
      spannedLines mode source =
        (Program.ofSource mode source).lines.map (fun line => line.scanned.spanned) ∧
      ∀ line ∈ (Program.ofSource mode source).lines, ∀ token ∈ line.tokens,
        token.SaidBySpans := by
  have same := spannedLines_eq mode source
  refine ⟨?_, same, ?_⟩
  · intro spanned inSource token inLine
    rw [same] at inSource
    obtain ⟨line, inProgram, rfl⟩ := List.mem_map.mp inSource
    obtain ⟨scanned, member, rfl⟩ := List.mem_map.mp inLine
    have scans := Program.scans_of_mem mode source line inProgram
    exact (scans.wellSpelled scanned member).conforms (scans.kind_ne_whitespace scanned member)
  · intro line inProgram token inLine
    have scans := Program.scans_of_mem mode source line inProgram
    exact (scans.wellSpelled token inLine).saidBySpans

/-- A comment is captured whole, also where its characters take several bytes, and of a pin
range only the digits are captured. -/
theorem Program.tokens_conform_to_grammar_beyond_ascii :
    (∃ line ∈ spannedLines .keep "stp .p10..p3 # ü€",
      (∃ token ∈ line.tokens, token.kind = .pinRange ∧ token.groups = [⟨2, 4⟩, ⟨7, 8⟩] ∧
        token.Conforms) ∧
      ∃ token ∈ line.tokens, token.kind = .comment ∧ token.text.length = 4 ∧
        token.groups = [⟨0, 7⟩] ∧ token.Conforms) ∧
      ∃ line ∈ (Program.ofSource .keep "stp .p10..p3 # ü€").lines, ∃ token ∈ line.tokens,
        token.lexeme.readPinRange = .ok ⟨10, 3⟩ ∧ token.SaidBySpans := by
  let source := "stp .p10..p3 # ü€"
  let line := Line.ofText .keep 0 0 source.toList
  let word : Token := ⟨.instruction "stp".toList, 0, 0⟩
  let pins : Token := ⟨.pinRange "10".toList "3".toList, 0, 4⟩
  let comment : Token := ⟨.comment "# ü€".toList, 0, 13⟩
  let spanned : SpannedLine := ⟨[word.spanned, pins.spanned, comment.spanned], none⟩
  have inSource : spanned ∈ spannedLines .keep source := by decide +kernel
  have inProgram : line ∈ (Program.ofSource .keep source).lines := by decide +kernel
  have inLine : pins ∈ line.tokens := by decide +kernel
  obtain ⟨conform, _same, said⟩ := Program.tokens_conform_to_grammar .keep source
  have pinsConform := conform spanned inSource pins.spanned (by decide +kernel)
  have commentConforms := conform spanned inSource comment.spanned (by decide +kernel)
  have saidPins := said line inProgram pins inLine
  exact ⟨⟨spanned, inSource, ⟨pins.spanned, by decide +kernel, rfl, rfl, pinsConform⟩,
    comment.spanned, by decide +kernel, rfl, rfl, rfl, commentConforms⟩,
    line, inProgram, pins, inLine, rfl, saidPins⟩

end PinMachine
