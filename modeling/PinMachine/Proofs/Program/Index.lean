import Mathlib.Data.List.Nodup
import PinMachine.Proofs.Text.Lines

/-!
Positions of lines. A program read from a source keeps one line for each line of
the text, and the index of a line is its position. From this follows what the
table of following instructions says: from a position on, the next instruction
line is the least one that is not before it, and there is none exactly if no
instruction line stands there or later.
-/

namespace PinMachine

/-- The index of every line is its position. -/
def Indexed (lines : List Line) : Prop :=
  ∀ (position : Nat) (line : Line),
    lines[position]? = some line → line.index = position

private theorem indexed_append_single (lines : List Line) (line : Line)
    (indexed : Indexed lines) (last : line.index = lines.length) :
    Indexed (lines ++ [line]) := by
  intro position other found
  by_cases earlier : position < lines.length
  · rw [List.getElem?_append_left earlier] at found
    exact indexed position other found
  · rw [List.getElem?_append_right (by omega)] at found
    cases offset : position - lines.length with
    | zero =>
        rw [offset] at found
        have same : line = other := Option.some.inj found
        rw [← same, last]
        omega
    | succ later =>
        rw [offset] at found
        cases found

theorem readLinesFrom_indexed (mode : CommentMode) (done : List Line)
    (index offset : Nat) (texts : List (List Char))
    (counted : done.length = index) (indexed : Indexed done.reverse) :
    Indexed (readLinesFrom mode done index offset texts) := by
  induction texts generalizing done index offset with
  | nil => exact indexed
  | cons text rest ih =>
      apply ih
      · rw [List.length_cons, counted]
      · rw [List.reverse_cons]
        apply indexed_append_single _ _ indexed
        rw [List.length_reverse, counted]
        rfl

theorem readLinesFrom_length (mode : CommentMode) (done : List Line)
    (index offset : Nat) (texts : List (List Char)) :
    (readLinesFrom mode done index offset texts).length =
      done.length + texts.length := by
  induction texts generalizing done index offset with
  | nil => simp only [readLinesFrom, List.length_reverse, List.length_nil, Nat.add_zero]
  | cons text rest ih =>
      simp only [readLinesFrom]
      rw [ih, List.length_cons, List.length_cons]
      omega

theorem readLinesFrom_texts (mode : CommentMode) (done : List Line) (index offset : Nat)
    (texts : List (List Char)) :
    (readLinesFrom mode done index offset texts).map Line.text =
      done.reverse.map Line.text ++ texts := by
  induction texts generalizing done index offset with
  | nil => rw [readLinesFrom, List.append_nil]
  | cons text rest ih =>
      simp only [readLinesFrom]
      rw [ih, List.reverse_cons, List.map_append, List.append_assoc]
      rfl

theorem Program.ofSource_indexed (mode : CommentMode) (source : String) :
    Indexed (Program.ofSource mode source).lines := by
  apply readLinesFrom_indexed mode [] 0 0
  · rfl
  · intro position line found
    cases found

theorem Indexed.filter_index {lines : List Line} (indexed : Indexed lines) (line : Line)
    (member : line ∈ lines) :
    lines.filter (fun other => other.index == line.index) = [line] := by
  have injective : ∀ one ∈ lines, ∀ other ∈ lines, one.index = other.index → one = other := by
    intro one inLines other alsoInLines same
    obtain ⟨first, atFirst⟩ := List.getElem?_of_mem inLines
    obtain ⟨second, atSecond⟩ := List.getElem?_of_mem alsoInLines
    rw [indexed first one atFirst, indexed second other atSecond] at same
    rw [same, atSecond] at atFirst
    exact (Option.some.inj atFirst).symm
  have distinct : lines.Nodup := by
    rw [List.nodup_iff_getElem?_ne_getElem?]
    intro first second before bound same
    have atFirst := List.getElem?_eq_getElem (Nat.lt_trans before bound)
    have atSecond := same ▸ atFirst
    have equal := (indexed first _ atFirst).symm.trans (indexed second _ atSecond)
    omega
  have single : lines.filter (fun other => other.index == line.index) =
      lines.filter (fun other => other == line) := by
    apply List.filter_congr
    intro other inLines
    rw [Bool.eq_iff_iff, beq_iff_eq, beq_iff_eq]
    exact ⟨injective other inLines line member, congrArg Line.index⟩
  rw [single, List.filter_beq, List.count_eq_one_of_mem distinct member]
  rfl

theorem Program.ofSource_texts (mode : CommentMode) (source : String) :
    (Program.ofSource mode source).lines.map Line.text = splitLines source.toList :=
  readLinesFrom_texts mode [] 0 0 (splitLines source.toList)

theorem Program.ofSource_onOneLine (mode : CommentMode) {text : List Char}
    (onOneLine : OnOneLine text) :
    (Program.ofSource mode (.ofList text)).lines = [Line.ofText mode 0 0 text] := by
  unfold Program.ofSource
  rw [String.toList_ofList, splitLines_onOneLine onOneLine]
  rfl

theorem Program.onOneLine_of_mem (mode : CommentMode) (source : String) (line : Line)
    (member : line ∈ (Program.ofSource mode source).lines) : OnOneLine line.text := by
  apply onOneLine_of_mem_splitLines source.toList
  rw [← Program.ofSource_texts mode source]
  exact List.mem_map_of_mem member

theorem Program.entries_lexicalErrors (program : Program) :
    program.lexicalErrors.entries = program.lines.filterMap Line.lexicalError? :=
  List.reverse_reverse _

theorem Program.getElem?_index (mode : CommentMode) (source : String) (line : Line)
    (member : line ∈ (Program.ofSource mode source).lines) :
    (Program.ofSource mode source).lines[line.index]? = some line := by
  obtain ⟨position, place⟩ := List.getElem?_of_mem member
  rw [Program.ofSource_indexed mode source position line place]
  exact place

theorem Program.text_index (mode : CommentMode) (source : String) (line : Line)
    (member : line ∈ (Program.ofSource mode source).lines) :
    (splitLines source.toList)[line.index]? = some line.text := by
  rw [← Program.ofSource_texts mode source, List.getElem?_map,
    Program.getElem?_index mode source line member]
  rfl

theorem Program.ofSource_lines_pos (mode : CommentMode) (source : String) :
    0 < (Program.ofSource mode source).lines.length := by
  have some_line := splitLinesFrom_length_pos [] [] source.toList
  change 0 < (readLinesFrom mode [] 0 0 (splitLines source.toList)).length
  rw [readLinesFrom_length]
  change 0 < 0 + (splitLinesFrom [] [] source.toList).length
  omega

/-! ### The next instruction line -/

/-- There is an instruction line at an index. -/
def Program.holdsInstruction (program : Program) (index : Nat) : Bool :=
  (program.line? index).any Line.isInstruction

theorem Program.holdsInstruction_iff (program : Program) (index : Nat) :
    program.holdsInstruction index = true ↔
      ∃ line, program.line? index = some line ∧ line.isInstruction = true := by
  exact Option.any_eq_true _ _

private theorem followingInstructions_join (lines : List Line) (start : Nat) :
    (followingInstructions lines)[start]?.join =
      ((lines.drop start).find? Line.isInstruction).map Line.index := by
  induction lines generalizing start with
  | nil => simp [followingInstructions]
  | cons line rest ih =>
      have unfolded : followingInstructions (line :: rest) =
          (if line.isInstruction then some line.index
            else (followingInstructions rest).head?.join) ::
              followingInstructions rest := rfl
      rw [unfolded]
      cases start with
      | zero =>
          -- A line without an instruction repeats the entry of the line after it.
          have atRest := ih 0
          rw [← List.head?_eq_getElem?, List.drop_zero] at atRest
          by_cases holds : line.isInstruction
          · simp [holds]
          · simp [holds, atRest]
      | succ start =>
          rw [List.getElem?_cons_succ, List.drop_succ_cons]
          exact ih start

theorem Program.nextInstruction?_eq_find? (program : Program) (start : Nat) :
    program.nextInstruction? start =
      ((program.lines.drop start).find? Line.isInstruction).map Line.index := by
  unfold Program.nextInstruction?
  rw [program.following_eq, List.getElem?_toArray]
  exact followingInstructions_join program.lines start

/-- The next instruction line is the least one that is not before the start. -/
theorem Program.nextInstruction?_eq_some_iff (program : Program)
    (indexed : Indexed program.lines) (start index : Nat) :
    program.nextInstruction? start = some index ↔
      start ≤ index ∧ program.holdsInstruction index = true ∧
        ∀ between, start ≤ between → between < index →
          program.holdsInstruction between = false := by
  rw [program.nextInstruction?_eq_find?]
  constructor
  · intro found
    obtain ⟨line, first, sameIndex⟩ := Option.map_eq_some_iff.mp found
    obtain ⟨holds, offset, bound, atOffset, earlier⟩ :=
      List.find?_eq_some_iff_getElem.mp first
    rw [List.length_drop] at bound
    have place : program.lines[start + offset]? = some line := by
      rw [← List.getElem?_drop, ← atOffset]
      exact List.getElem?_eq_getElem _
    have position : index = start + offset := by
      rw [← sameIndex]
      exact indexed _ line place
    refine ⟨by omega, ?_, ?_⟩
    · rw [program.holdsInstruction_iff]
      exact ⟨line, position ▸ place, holds⟩
    · intro between notBefore before
      have inside : between - start < offset := by omega
      have skipped := earlier (between - start) inside
      have other : program.line? between =
          some ((program.lines.drop start)[between - start]) := by
        rw [← List.getElem?_eq_getElem, List.getElem?_drop]
        change program.lines[between]? = _
        congr 1
        omega
      unfold Program.holdsInstruction
      rw [other]
      simpa using skipped
  · rintro ⟨notBefore, holds, earlier⟩
    obtain ⟨line, place, isInstruction⟩ := (program.holdsInstruction_iff index).mp holds
    have within : index < program.lines.length :=
      (List.getElem?_eq_some_iff.mp place).1
    have dropped : (program.lines.drop start)[index - start]? = some line := by
      rw [List.getElem?_drop, show start + (index - start) = index by omega]
      exact place
    have first : (program.lines.drop start).find? Line.isInstruction = some line := by
      rw [List.find?_eq_some_iff_getElem]
      refine ⟨isInstruction, index - start, by rw [List.length_drop]; omega, ?_, ?_⟩
      · exact (List.getElem?_eq_some_iff.mp dropped).2
      · intro offset before
        have skipped := earlier (start + offset) (by omega) (by omega)
        have inside : offset < (program.lines.drop start).length := by
          rw [List.length_drop]
          omega
        have other : program.line? (start + offset) =
            some ((program.lines.drop start)[offset]) := by
          rw [← List.getElem?_eq_getElem, List.getElem?_drop]
          rfl
        unfold Program.holdsInstruction at skipped
        rw [other] at skipped
        simpa using skipped
    rw [first, Option.map_some, indexed index line place]

theorem Program.nextInstruction?_eq_none_iff (program : Program) (start : Nat) :
    program.nextInstruction? start = none ↔
      ∀ index, start ≤ index → program.holdsInstruction index = false := by
  rw [program.nextInstruction?_eq_find?, Option.map_eq_none_iff, List.find?_eq_none]
  constructor
  · intro absent index notBefore
    cases place : program.line? index with
    | none =>
        unfold Program.holdsInstruction
        rw [place]
        rfl
    | some line =>
        have member : line ∈ program.lines.drop start := by
          apply List.mem_of_getElem? (i := index - start)
          rw [List.getElem?_drop, show start + (index - start) = index by omega]
          exact place
        unfold Program.holdsInstruction
        rw [place]
        simpa using absent line member
  · intro absent line member holds
    obtain ⟨offset, place⟩ := List.getElem?_of_mem member
    rw [List.getElem?_drop] at place
    have refused := absent (start + offset) (by omega)
    have found := (program.holdsInstruction_iff (start + offset)).mpr ⟨line, place, holds⟩
    rw [refused] at found
    cases found

theorem Program.holdsInstruction_of_nextInstruction? (program : Program)
    (indexed : Indexed program.lines) (start index : Nat)
    (next : program.nextInstruction? start = some index) :
    program.holdsInstruction index = true :=
  ((program.nextInstruction?_eq_some_iff indexed start index).mp next).2.1

theorem Program.lt_length_of_holdsInstruction (program : Program) (index : Nat)
    (holds : program.holdsInstruction index = true) :
    index < program.lines.length := by
  obtain ⟨line, place, _isInstruction⟩ := (program.holdsInstruction_iff index).mp holds
  exact (List.getElem?_eq_some_iff.mp place).1

theorem Program.pairwise_instructionIndices (program : Program)
    (indexed : Indexed program.lines) : program.instructionIndices.Pairwise (· < ·) := by
  have ordered : program.lines.Pairwise fun one other => one.index < other.index := by
    rw [List.pairwise_iff_getElem]
    intro first second bound alsoBound before
    rw [indexed first _ (List.getElem?_eq_getElem bound),
      indexed second _ (List.getElem?_eq_getElem alsoBound)]
    exact before
  exact List.pairwise_map.mpr (ordered.filter _)

theorem Program.nextInstruction?_eq_head? (program : Program) (start : Nat) :
    program.nextInstruction? start =
      (((program.lines.drop start).filter Line.isInstruction).map Line.index).head? := by
  rw [program.nextInstruction?_eq_find?, List.head?_map, List.head?_filter]

/-- Behind an instruction line, the next one is the one that follows it among the
instruction lines. -/
theorem Program.nextInstruction?_behind (program : Program) (indexed : Indexed program.lines)
    (earlier later : List Nat) (index : Nat)
    (order : program.instructionIndices = earlier ++ index :: later) :
    program.nextInstruction? (index + 1) = later.head? := by
  obtain ⟨before, rest, filtered, rfl, behind⟩ := List.map_eq_append_iff.mp order
  obtain ⟨line, after, rfl, rfl, rfl⟩ := List.map_eq_cons_iff.mp behind
  obtain ⟨first, second, whole, _before, last⟩ := List.filter_eq_append_iff.mp filtered
  obtain ⟨skipped, remaining, rfl, _skipped, _holds, kept⟩ := List.filter_eq_cons_iff.mp last
  rw [← List.append_assoc] at whole
  have position : line.index = (first ++ skipped).length := by
    apply indexed
    rw [whole, List.getElem?_append_right (Nat.le_refl _), Nat.sub_self]
    rfl
  have dropped : program.lines.drop (line.index + 1) = remaining := by
    rw [whole, position, List.drop_length_add_append]
    rfl
  rw [program.nextInstruction?_eq_head?, dropped, kept]

end PinMachine
