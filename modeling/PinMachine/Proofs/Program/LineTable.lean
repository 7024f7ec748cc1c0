import Mathlib.Data.Option.Basic
import Mathlib.Order.Bounds.Defs
import PinMachine.Proofs.Program.Concatenation
import PinMachine.Proofs.Reference.Operands

/-!
The lines of a program as a table. A line stands where its text has it and counts the
instruction lines before it. The instruction lines are listed in order, each index of the
list can be looked up, and a label leads to the least index of a line that declares it.
-/

namespace PinMachine

namespace Program

variable {program : Program}

/-- The lines have some texts, and each of them knows its position and how many
instruction lines stand before it. -/
structure Numbers (program : Program) (texts : List (List Char)) : Prop where
  texts : program.lines.map Line.text = texts
  index : ∀ position line, program.line? position = some line → line.index = position
  offset : ∀ position line, program.line? position = some line →
    line.instructionOffset = (program.lines.take position).countP Line.isInstruction

private theorem readLinesFrom_offset (mode : CommentMode) (index offset : Nat)
    (texts : List (List Char)) (position : Nat) (line : Line)
    (place : (readLinesFrom mode [] index offset texts)[position]? = some line) :
    line.instructionOffset = offset +
      ((readLinesFrom mode [] index offset texts).take position).countP Line.isInstruction := by
  induction texts generalizing index offset position with
  | nil => cases place
  | cons text rest ih =>
      rw [readLinesFrom_cons] at place ⊢
      cases position with
      | zero =>
          cases place
          rfl
      | succ position =>
          rw [List.take_succ_cons, List.countP_cons, ih _ _ _ place]
          omega

theorem ofSource_numbers (mode : CommentMode) (source : String) :
    (ofSource mode source).Numbers (splitLines source.toList) where
  texts := ofSource_texts mode source
  index := ofSource_indexed mode source
  offset := by
    intro position line place
    have counted := readLinesFrom_offset mode 0 0 (splitLines source.toList) position line place
    rw [Nat.zero_add] at counted
    exact counted

/-- The instruction lines are listed once each, in order, by indices of the table. -/
structure ListsInstructions (program : Program) : Prop where
  increasing : program.instructionIndices.Pairwise (· < ·)
  listed : ∀ index, index ∈ program.instructionIndices ↔ program.holdsInstruction index = true
  found : program.instructionIndices.map program.line? = program.instructionLines.map some

theorem line?_index (indexed : Indexed program.lines) {line : Line}
    (member : line ∈ program.lines) : program.line? line.index = some line := by
  obtain ⟨position, place⟩ := List.getElem?_of_mem member
  rw [indexed position line place]
  exact place

theorem mem_instructionIndices_iff (indexed : Indexed program.lines) (index : Nat) :
    index ∈ program.instructionIndices ↔ program.holdsInstruction index = true := by
  rw [holdsInstruction_iff]
  constructor
  · intro listed
    obtain ⟨line, kept, rfl⟩ := List.mem_map.mp listed
    obtain ⟨member, isInstruction⟩ := List.mem_filter.mp kept
    exact ⟨line, line?_index indexed member, isInstruction⟩
  · rintro ⟨line, place, isInstruction⟩
    have member := List.mem_of_getElem? place
    rw [← indexed index line place]
    exact List.mem_map_of_mem (List.mem_filter.mpr ⟨member, isInstruction⟩)

theorem listsInstructions (indexed : Indexed program.lines) : program.ListsInstructions where
  increasing := program.pairwise_instructionIndices indexed
  listed := mem_instructionIndices_iff indexed
  found := by
    unfold instructionIndices
    rw [List.map_map]
    apply List.map_congr_left
    intro line kept
    exact line?_index indexed (List.mem_filter.mp kept).1

theorem lastInstruction?_eq_some (indexed : Indexed program.lines) {last : Nat}
    (isLast : program.lastInstruction? = some last) :
    program.holdsInstruction last = true ∧
      ∀ index, program.holdsInstruction index = true → index ≤ last := by
  obtain ⟨earlier, order⟩ := List.getLast?_eq_some_iff.mp isLast
  have increasing := program.pairwise_instructionIndices indexed
  rw [order, List.pairwise_append] at increasing
  constructor
  · rw [← mem_instructionIndices_iff indexed, order]
    exact List.mem_append_right _ List.mem_cons_self
  · intro index holds
    rw [← mem_instructionIndices_iff indexed, order] at holds
    rcases List.mem_append.mp holds with before | here
    · exact Nat.le_of_lt (increasing.2.2 index before last List.mem_cons_self)
    · exact Nat.le_of_eq (List.mem_singleton.mp here)

theorem lastInstruction?_eq_none (indexed : Indexed program.lines)
    (none : program.lastInstruction? = none) (index : Nat) :
    program.holdsInstruction index = false := by
  have empty : program.instructionIndices = [] := List.getLast?_eq_none_iff.mp none
  rw [Bool.eq_false_iff]
  intro holds
  rw [← mem_instructionIndices_iff indexed, empty] at holds
  cases holds

/-- The line at an index declares a label. -/
def Declares (program : Program) (name : String) (index : Nat) : Prop :=
  ∃ line, program.line? index = some line ∧ line.labelName? = some name

/-- A label leads to the first line that declares it, and nowhere if there is none. -/
structure FindsLabels (program : Program) : Prop where
  first : ∀ name index, program.labelLine? name = some index ↔
    IsLeast {place | program.Declares name place} index
  absent : ∀ name, program.labelLine? name = none ↔ ∀ index, ¬ program.Declares name index

theorem labelLine?_eq_findIdx? (indexed : Indexed program.lines) (name : String) :
    program.labelLine? name =
      program.lines.findIdx? fun line => line.labelName? == some name := by
  have address := Reference.labelAddress?_eq program indexed name
  unfold Reference.labelAddress? at address
  exact (Option.map_injective (add_left_injective 1) address).symm

theorem declares_iff (program : Program) (name : String) (index : Nat) :
    program.Declares name index ↔
      ∃ inside : index < program.lines.length,
        (program.lines[index].labelName? == some name) = true := by
  constructor
  · rintro ⟨line, place, declared⟩
    obtain ⟨inside, here⟩ := List.getElem?_eq_some_iff.mp place
    exact ⟨inside, by rw [here, declared]; exact beq_self_eq_true _⟩
  · rintro ⟨inside, declared⟩
    exact ⟨_, List.getElem?_eq_getElem inside, beq_iff_eq.mp declared⟩

theorem findsLabels (indexed : Indexed program.lines) : program.FindsLabels where
  first := by
    intro name index
    rw [labelLine?_eq_findIdx? indexed, List.findIdx?_eq_some_iff_getElem]
    constructor
    · rintro ⟨inside, declared, earlier⟩
      refine ⟨(program.declares_iff name index).mpr ⟨inside, declared⟩, ?_⟩
      intro other declares
      obtain ⟨bound, alsoDeclared⟩ := (program.declares_iff name other).mp declares
      by_contra before
      exact earlier other (Nat.not_le.mp before) alsoDeclared
    · rintro ⟨declares, least⟩
      obtain ⟨inside, declared⟩ := (program.declares_iff name index).mp declares
      refine ⟨inside, declared, ?_⟩
      intro other before alsoDeclared
      have bound : other < program.lines.length := Nat.lt_trans before inside
      exact Nat.not_le.mpr before
        (least ((program.declares_iff name other).mpr ⟨bound, alsoDeclared⟩))
  absent := by
    intro name
    rw [labelLine?_eq_findIdx? indexed, List.findIdx?_eq_none_iff]
    constructor
    · rintro undeclared index ⟨line, place, declared⟩
      have refused := undeclared line (List.mem_of_getElem? place)
      rw [declared, beq_self_eq_true] at refused
      cases refused
    · intro undeclared line member
      rw [beq_eq_false_iff_ne]
      intro declared
      exact undeclared line.index ⟨line, line?_index indexed member, declared⟩

end Program

end PinMachine
