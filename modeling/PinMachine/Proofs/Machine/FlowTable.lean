import PinMachine.Machine.FlowTable
import PinMachine.Proofs.Program.LineTable

/-!
Where flow goes on. A search of the line table from any position ends at the least
instruction line that is not before the position, or with nothing if there is none, and
never looks behind the table: it is bounded by the last instruction line, which is a line of
the table. Starting, jumping and going on all set the next line by such a search.
-/

namespace PinMachine

variable {program : Program}

/-- The least instruction line that is not before a start, or nothing if there is none. -/
structure Program.GoesOnFrom (program : Program) (start : Nat) (next : Option Nat) : Prop where
  least : ∀ index, next = some index ↔
    IsLeast {place | start ≤ place ∧ program.holdsInstruction place = true} index
  absent : next = none ↔ ∀ index, start ≤ index → program.holdsInstruction index = false

theorem Program.nextInstruction?_goesOnFrom (indexed : Indexed program.lines) (start : Nat) :
    program.GoesOnFrom start (program.nextInstruction? start) where
  least := by
    intro index
    rw [program.nextInstruction?_eq_some_iff indexed]
    constructor
    · rintro ⟨notBefore, holds, earlier⟩
      refine ⟨⟨notBefore, holds⟩, ?_⟩
      rintro other ⟨otherNotBefore, otherHolds⟩
      by_contra before
      rw [earlier other otherNotBefore (Nat.not_le.mp before)] at otherHolds
      cases otherHolds
    · rintro ⟨⟨notBefore, holds⟩, least⟩
      refine ⟨notBefore, holds, ?_⟩
      intro between after before
      rw [Bool.eq_false_iff]
      intro alsoHolds
      exact Nat.not_le.mpr before (least ⟨after, alsoHolds⟩)
  absent := program.nextInstruction?_eq_none_iff start

theorem Program.nextInstruction?_step (indexed : Indexed program.lines) (position : Nat) :
    program.nextInstruction? position =
      if program.holdsInstruction position then some position
      else program.nextInstruction? (position + 1) := by
  by_cases holds : program.holdsInstruction position = true
  · rw [if_pos holds, program.nextInstruction?_eq_some_iff indexed]
    exact ⟨Nat.le_refl _, holds, fun between after before => by omega⟩
  · rw [if_neg holds]
    cases later : program.nextInstruction? (position + 1) with
    | none =>
        rw [program.nextInstruction?_eq_none_iff] at later ⊢
        intro index notBefore
        rcases Nat.eq_or_lt_of_le notBefore with rfl | after
        · exact Bool.eq_false_iff.mpr holds
        · exact later index after
    | some index =>
        rw [program.nextInstruction?_eq_some_iff indexed] at later ⊢
        obtain ⟨notBefore, found, earlier⟩ := later
        refine ⟨by omega, found, ?_⟩
        intro between after before
        rcases Nat.eq_or_lt_of_le after with rfl | behind
        · exact Bool.eq_false_iff.mpr holds
        · exact earlier between behind before

namespace FlowTable

theorem executable_ofProgram (position : Nat) (inside : position < program.lines.length) :
    (ofProgram program).executable[position]? = some (program.holdsInstruction position) := by
  unfold ofProgram Program.holdsInstruction Program.line?
  rw [List.getElem?_toArray, List.getElem?_map, List.getElem?_eq_getElem inside]
  rfl

theorem searchFrom_ofProgram (indexed : Indexed program.lines) (last : Nat)
    (inside : last < program.lines.length)
    (bounded : ∀ index, program.holdsInstruction index = true → index ≤ last)
    (position count : Nat) (ends : position + count = last + 1) :
    (ofProgram program).searchFrom position count = .ok (program.nextInstruction? position) := by
  induction count generalizing position with
  | zero =>
      have nothing : program.nextInstruction? position = none := by
        rw [program.nextInstruction?_eq_none_iff]
        intro index notBefore
        rw [Bool.eq_false_iff]
        intro holds
        have within := bounded index holds
        omega
      rw [searchFrom, nothing]
  | succ count ih =>
      have later := ih (position + 1) (by omega)
      rw [searchFrom, executable_ofProgram position (by omega),
        Program.nextInstruction?_step indexed position]
      cases program.holdsInstruction position with
      | true => rfl
      | false => exact later

/-- A search succeeds from every start, also behind the last line. -/
theorem search_ofProgram (indexed : Indexed program.lines) (start : Nat) :
    (ofProgram program).search start = .ok (program.nextInstruction? start) := by
  unfold search
  cases isLast : (ofProgram program).last with
  | none =>
      have nothing : program.nextInstruction? start = none := by
        rw [program.nextInstruction?_eq_none_iff]
        exact fun index _notBefore => Program.lastInstruction?_eq_none indexed isLast index
      rw [nothing]
  | some last =>
      obtain ⟨holds, bounded⟩ := Program.lastInstruction?_eq_some indexed isLast
      have inside := program.lt_length_of_holdsInstruction last holds
      by_cases behind : last < start
      · have nothing : program.nextInstruction? start = none := by
          rw [program.nextInstruction?_eq_none_iff]
          intro index notBefore
          rw [Bool.eq_false_iff]
          intro alsoHolds
          have within := bounded index alsoHolds
          omega
        simp only [if_pos behind, nothing]
      · simp only [if_neg behind]
        exact searchFrom_ofProgram indexed last inside bounded start _ (by omega)

end FlowTable

/-- Flow by the line table of a program is flow by what comes next in it: no search fails,
and every search sets the next line to the first instruction line from where it starts. -/
structure Program.SteersFlow (program : Program) : Prop where
  starts : (FlowTable.ofProgram program).start = .ok (Flow.start program) ∧
    program.GoesOnFrom 0 (Flow.start program).next
  jumps : ∀ (flow : Flow) (address : Nat),
    (FlowTable.ofProgram program).jump flow address = .ok (flow.jump program address) ∧
      program.GoesOnFrom address (flow.jump program address).next
  advances : ∀ flow : Flow,
    (FlowTable.ofProgram program).advance flow = .ok (flow.advance program) ∧
      program.GoesOnFrom (flow.current + 1) (flow.advance program).next

theorem Program.steersFlow (indexed : Indexed program.lines) : program.SteersFlow where
  starts := by
    refine ⟨?_, nextInstruction?_goesOnFrom indexed 0⟩
    rw [FlowTable.start, FlowTable.search_ofProgram indexed]
    rfl
  jumps := by
    intro flow address
    refine ⟨?_, nextInstruction?_goesOnFrom indexed address⟩
    rw [FlowTable.jump, FlowTable.search_ofProgram indexed]
    rfl
  advances := by
    intro flow
    refine ⟨?_, nextInstruction?_goesOnFrom indexed (flow.current + 1)⟩
    rw [FlowTable.advance, FlowTable.search_ofProgram indexed]
    rfl

/-- The lines of a program stand where the source has them and count the instruction lines
before them; instruction lines and labels are found by their indices; and wherever flow
starts, jumps or goes on, its next line is the least instruction line from there, found
without looking behind the lines. -/
theorem Program.line_table_steers_flow (mode : CommentMode) (source : String) :
    (ofSource mode source).Numbers (splitLines source.toList) ∧
      (ofSource mode source).ListsInstructions ∧ (ofSource mode source).FindsLabels ∧
      (ofSource mode source).SteersFlow := by
  have indexed := ofSource_indexed mode source
  exact ⟨ofSource_numbers mode source, listsInstructions indexed, findsLabels indexed,
    steersFlow indexed⟩

/-- A table whose last instruction line is not one of its lines is left by a search. -/
example : (⟨#[true, false], some 2⟩ : FlowTable).search 1 = .error 2 := by decide

end PinMachine
