import PinMachine.Proofs.Program.Index
import PinMachine.Proofs.Program.Printing
import PinMachine.Proofs.Text.Numeral

/-!
Underlines of diagnostics. The text of a rendered diagnostic ends with two rows: the
source line behind its number, and the underline. The number takes four columns or more,
and the bar behind it three, but the underline has a bar of its own that always takes four.
So the underline is as wide as the span and stands to the left of it, by three columns for
a number of at most four digits and by more for a larger one.
-/

namespace PinMachine

namespace Diagnostic

/-- What stands before the source line in the row that shows it. -/
def gutter (diagnostic : Diagnostic) : List Char :=
  (lineLabel (diagnostic.line + 1)).toList ++ [' ', '|', ' ']

/-- The columns of the span, in a row where the source line begins at a column. -/
def SpanFrom (diagnostic : Diagnostic) (start column : Nat) : Prop :=
  start + diagnostic.startColumn ≤ column ∧ column ≤ start + diagnostic.endColumn

def underline (diagnostic : Diagnostic) : List Char :=
  [' ', ' ', '|', ' '] ++ List.replicate diagnostic.startColumn ' ' ++
    List.replicate diagnostic.underlineWidth '^'

theorem length_gutter (diagnostic : Diagnostic) :
    diagnostic.gutter.length = max 4 (toString (diagnostic.line + 1)).length + 3 := by
  simp only [gutter, lineLabel, String.toList_append, String.toList_ofList, List.length_append,
    List.length_replicate, List.length_cons, List.length_nil, String.length_toList]
  omega

theorem onOneLine_gutter (diagnostic : Diagnostic) : OnOneLine diagnostic.gutter := by
  have blanks : OnOneLine (List.replicate (4 - (toString (diagnostic.line + 1)).length) ' ') := by
    intro char member
    rw [List.eq_of_mem_replicate member]
    decide
  have digits : OnOneLine (toString (diagnostic.line + 1)).toList :=
    onOneLine_of_class (isDigit_of_mem_toString _) (by decide)
  have bar : OnOneLine [' ', '|', ' '] := by decide
  unfold gutter lineLabel
  rw [String.toList_append, String.toList_ofList]
  exact (blanks.append digits).append bar

theorem onOneLine_underline (diagnostic : Diagnostic) : OnOneLine diagnostic.underline := by
  have bar : OnOneLine [' ', ' ', '|', ' '] := by decide
  have blanks : OnOneLine (List.replicate diagnostic.startColumn ' ') := by
    intro char member
    rw [List.eq_of_mem_replicate member]
    decide
  have carets : OnOneLine (List.replicate diagnostic.underlineWidth '^') := by
    intro char member
    rw [List.eq_of_mem_replicate member]
    decide
  exact (bar.append blanks).append carets

/-- The underline is all that follows the bar and the blanks, where no caret stands. -/
theorem underline_caret_iff (diagnostic : Diagnostic)
    (forward : diagnostic.startColumn ≤ diagnostic.endColumn) (column : Nat) :
    diagnostic.underline[column]? = some '^' ↔ diagnostic.SpanFrom 4 column := by
  have bare : '^' ∉ [' ', ' ', '|', ' '] ++ List.replicate diagnostic.startColumn ' ' := by
    intro member
    rcases List.mem_append.mp member with bar | blank
    · revert bar
      decide
    · cases List.eq_of_mem_replicate blank
  have width : ([' ', ' ', '|', ' '] ++ List.replicate diagnostic.startColumn ' ').length =
      4 + diagnostic.startColumn := by
    rw [List.length_append, List.length_replicate]
    rfl
  unfold underline SpanFrom underlineWidth
  by_cases before : column < 4 + diagnostic.startColumn
  · rw [List.getElem?_append_left (by omega)]
    apply iff_of_false
    · intro caret
      exact bare (List.mem_of_getElem? caret)
    · omega
  · rw [List.getElem?_append_right (by omega), List.getElem?_replicate, width]
    constructor
    · intro caret
      split at caret
      · omega
      · cases caret
    · intro spanned
      rw [if_pos (by omega)]

theorem render_toList (diagnostic : Diagnostic) (file : String) (lines : List (List Char))
    (text : List Char) (quoted : lines[diagnostic.line]? = some text) :
    ∃ above, (diagnostic.render file lines.toArray).toList =
      above ++ '\n' :: (diagnostic.gutter ++ text ++ '\n' :: (diagnostic.underline ++ ['\n'])) := by
  have opening : "  |\n".toList = [' ', ' ', '|', '\n'] := rfl
  have bar : " | ".toList = [' ', '|', ' '] := rfl
  have next : "\n  | ".toList = ['\n', ' ', ' ', '|', ' '] := rfl
  have feed : "\n".toList = ['\n'] := rfl
  refine ⟨(diagnostic.severity.name ++ ": " ++ diagnostic.message ++ "\n --> " ++ file ++
    ":" ++ toString (diagnostic.line + 1) ++ ":" ++
    toString (diagnostic.startColumn + 1) ++ "\n").toList ++ [' ', ' ', '|'], ?_⟩
  unfold render
  rw [List.getElem?_toArray, quoted]
  simp only [excerpt, gutter, underline, String.toList_append, String.toList_ofList, opening, bar,
    next, feed, List.append_assoc, List.cons_append, List.nil_append]

/-- A rendered diagnostic shows the source line behind its number, and below it an underline
that is as wide as the span but placed as if the line began at column 4. The line begins
further to the right, so the underline is never below the span. -/
theorem render_underlines_beside_span (file source : String) (diagnostic : Diagnostic)
    (text : List Char) (quoted : (splitLines source.toList)[diagnostic.line]? = some text)
    (forward : diagnostic.startColumn ≤ diagnostic.endColumn) :
    ∃ above underline,
      splitLines (diagnostic.render file (splitLines source.toList).toArray).toList =
        above ++ [diagnostic.gutter ++ text, underline, []] ∧
      diagnostic.gutter.length = max 4 (toString (diagnostic.line + 1)).length + 3 ∧
      (∀ column, underline[column]? = some '^' ↔ diagnostic.SpanFrom 4 column) ∧
      ¬ ∀ column, underline[column]? = some '^' ↔
        diagnostic.SpanFrom diagnostic.gutter.length column := by
  have width := diagnostic.length_gutter
  have carets := diagnostic.underline_caret_iff forward
  have shown : OnOneLine (diagnostic.gutter ++ text) :=
    diagnostic.onOneLine_gutter.append
      (onOneLine_of_mem_splitLines _ text (List.mem_of_getElem? quoted))
  obtain ⟨above, rendered⟩ := diagnostic.render_toList file _ text quoted
  obtain ⟨earlier, behind⟩ := splitLinesFrom_behind [] [] above
  refine ⟨earlier.reverse, diagnostic.underline, ?_, width, carets, ?_⟩
  · rw [splitLines, rendered, behind, splitLinesFrom_line _ _ shown,
      splitLinesFrom_line _ _ diagnostic.onOneLine_underline]
    simp only [splitLinesFrom, List.reverse_cons, List.reverse_nil, List.append_assoc,
      List.cons_append, List.nil_append]
  · intro below
    -- The first caret stands before the column where the source line begins to show the span.
    have first : diagnostic.SpanFrom 4 (4 + diagnostic.startColumn) := by
      unfold SpanFrom
      omega
    have under := (below _).mp ((carets _).mpr first)
    unfold SpanFrom at under
    omega

theorem render_underlines_beside_unknown_register :
    ∃ above underline,
      splitLines (render "prog.asm" (splitLines "add 1\nmov $foo 3".toList).toArray
          ⟨.error, 1, 4, 7, "Unknown register foo"⟩).toList =
        above ++ ["   2 | mov $foo 3".toList, underline, []] ∧
      ∀ column, underline[column]? = some '^' ↔ 8 ≤ column ∧ column ≤ 11 := by
  obtain ⟨above, underline, rows, _width, carets, _missed⟩ :=
    render_underlines_beside_span "prog.asm" "add 1\nmov $foo 3"
      ⟨.error, 1, 4, 7, "Unknown register foo"⟩ "mov $foo 3".toList (by decide +kernel) (by decide)
  exact ⟨above, underline, rows, carets⟩

/-- The register is shown from column 11 on and underlined from column 8 on. -/
theorem carets_miss_unknown_register :
    ¬ ∀ (file source : String) (diagnostic : Diagnostic) (text : List Char),
      (splitLines source.toList)[diagnostic.line]? = some text →
      diagnostic.startColumn ≤ diagnostic.endColumn → diagnostic.endColumn < text.length →
      ∀ above underline,
        splitLines (diagnostic.render file (splitLines source.toList).toArray).toList =
          above ++ [diagnostic.gutter ++ text, underline, []] →
        ∀ column, underline[column]? = some '^' ↔
          diagnostic.SpanFrom diagnostic.gutter.length column := by
  intro below
  have carets := below "prog.asm" "add 1\nmov $foo 3" ⟨.error, 1, 4, 7, "Unknown register foo"⟩
    "mov $foo 3".toList (by decide +kernel) (by decide) (by decide)
    ["error: Unknown register foo".toList, " --> prog.asm:2:5".toList, "  |".toList]
    "  |     ^^^^".toList (by decide +kernel) 8
  have shown := (carets.mp (by decide)).1
  revert shown
  decide +kernel

end Diagnostic

end PinMachine
