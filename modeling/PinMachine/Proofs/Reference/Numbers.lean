import Mathlib.Data.List.Induction
import PinMachine.Proofs.Reference.Semantics

/-!
Words as numbers. Every function on words that the standard operations use is the
function of the reference semantics on the numbers that the words stand for, and
bits of words are bits of numbers.
-/

namespace PinMachine

namespace Reference

/-- The result is the number of the word, and nothing exactly if there is no word. -/
theorem arithmetic_toNat (operator : Arithmetic) (left right : Word) :
    arithmetic operator left.toNat right.toNat =
      (operator.apply left right).toOption.map BitVec.toNat := by
  cases operator with
  | add =>
      simp only [arithmetic, Arithmetic.apply, Except.toOption, Option.map_some,
        BitVec.toNat_add]
  | sub =>
      have leftBound := left.isLt
      have rightBound := right.isLt
      simp only [arithmetic, Arithmetic.apply, Except.toOption, Option.map_some,
        BitVec.toNat_sub]
      congr 1
      omega
  | mul =>
      simp only [arithmetic, Arithmetic.apply, Except.toOption, Option.map_some,
        BitVec.toNat_mul]
  | div =>
      by_cases zero : right = 0
      · rw [zero]
        rfl
      · have positive : right.toNat ≠ 0 := fun equal => zero (BitVec.eq_of_toNat_eq equal)
        simp only [arithmetic, Arithmetic.apply, if_neg zero, if_neg positive,
          Except.toOption, Option.map_some, BitVec.toNat_udiv]
  | mod =>
      by_cases zero : right = 0
      · rw [zero]
        rfl
      · have positive : right.toNat ≠ 0 := fun equal => zero (BitVec.eq_of_toNat_eq equal)
        simp only [arithmetic, Arithmetic.apply, if_neg zero, if_neg positive,
          Except.toOption, Option.map_some, BitVec.toNat_umod]

theorem bitwise_toNat (operator : Bitwise) (left right : Word) :
    bitwise operator left.toNat right.toNat = (operator.apply left right).toNat := by
  cases operator with
  | and => exact (BitVec.toNat_and left right).symm
  | or => exact (BitVec.toNat_or left right).symm
  | xor => exact (BitVec.toNat_xor left right).symm

theorem complement_toNat (word : Word) : 65535 - word.toNat = (~~~word).toNat := by
  rw [BitVec.toNat_not]

/-- Shifting by sixteen or more needs no case of its own: the product is a multiple
of 2^16 and the quotient is zero. -/
theorem shift_toNat (direction : ShiftDirection) (value amount : Word) :
    shift direction value.toNat amount.toNat = (direction.apply value amount).toNat := by
  cases direction with
  | left =>
      simp only [shift, ShiftDirection.apply, BitVec.toNat_shiftLeft, Nat.shiftLeft_eq]
  | right =>
      simp only [shift, ShiftDirection.apply, BitVec.toNat_ushiftRight,
        Nat.shiftRight_eq_div_pow]

theorem compare_toNat (comparison : Comparison) (left right : Word) :
    compare comparison left.toNat right.toNat = comparison.holds left right := by
  cases comparison with
  | equal =>
      rw [Bool.eq_iff_iff]
      simp only [compare, Comparison.holds, decide_eq_true_eq, beq_iff_eq, BitVec.toNat_inj]
  | notEqual =>
      rw [Bool.eq_iff_iff]
      simp only [compare, Comparison.holds, decide_eq_true_eq, bne_iff_ne, ne_eq,
        BitVec.toNat_inj]
  | less => rfl
  | greater => rfl

theorem admits_toNat (guard : ReturnGuard) (test : Word) :
    admits guard test.toNat = guard.admits test := by
  cases guard with
  | always => rfl
  | whenTrue => exact compare_toNat .equal test 1
  | whenFalse => exact compare_toNat .equal test 0

private theorem shiftLeft_or_toNat (word : Word) (bit : Bool) :
    ((word <<< 1) ||| (BitVec.ofBool bit).setWidth 16).toNat =
      (2 * word.toNat + bit.toNat) % 65536 := by
  have bound := word.isLt
  have small : bit.toNat < 2 ^ 1 := bit.toNat_lt
  have low : ((BitVec.ofBool bit).setWidth 16).toNat = bit.toNat := by
    cases bit <;> rfl
  have high : (word <<< 1).toNat = 2 ^ 1 * (word.toNat % 32768) := by
    rw [BitVec.toNat_shiftLeft, Nat.shiftLeft_eq]
    omega
  rw [BitVec.toNat_or, low, high, ← Nat.two_pow_add_eq_or_of_lt small]
  omega

theorem testBit_numberOfBits (bits : List Bool) (place : Nat) :
    (numberOfBits bits).testBit place = bits.reverse[place]?.getD false := by
  induction bits using List.reverseRecOn generalizing place with
  | nil =>
      rw [List.reverse_nil, List.getElem?_nil, Option.getD_none]
      exact Nat.zero_testBit place
  | append_singleton earlier bit ih =>
      have doubled : numberOfBits (earlier ++ [bit]) = 2 * numberOfBits earlier + bit.toNat :=
        List.foldl_append
      have small : bit.toNat < 2 := bit.toNat_lt
      rw [doubled, List.reverse_append, List.reverse_singleton, List.singleton_append]
      cases place with
      | zero =>
          rw [Nat.testBit_zero, List.getElem?_cons_zero, Option.getD_some]
          cases bit <;> simp
      | succ place =>
          have half : (2 * numberOfBits earlier + bit.toNat) / 2 = numberOfBits earlier := by omega
          rw [Nat.testBit_succ, half, ih, List.getElem?_cons_succ]

theorem wordOfBits_toNat (bits : List Bool) :
    (wordOfBits bits).toNat = numberOfBits bits % 65536 := by
  -- The two folds agree from any starts that agree modulo 2^16.
  have general : ∀ (word : Word) (number : Nat), word.toNat = number % 65536 →
      (bits.foldl (fun (word : Word) bit =>
          (word <<< 1) ||| (BitVec.ofBool bit).setWidth 16) word).toNat =
        bits.foldl (fun number bit => 2 * number + bit.toNat) number % 65536 := by
    induction bits with
    | nil => exact fun word number same => same
    | cons bit rest ih =>
        intro word number same
        rw [List.foldl_cons, List.foldl_cons]
        apply ih
        rw [shiftLeft_or_toNat, same]
        omega
  exact general 0 0 rfl

theorem drive_wordBits (outputs : List Bool) (range : PinRange) (value : Word)
    (forward : range.first ≤ range.last) (inside : range.last < outputs.length) :
    outputs.take range.first ++ wordBits value range.count ++
        outputs.drop (range.last + 1) =
      outputs.mapIdx fun pin bit =>
        if range.first ≤ pin ∧ pin ≤ range.last then value.toNat.testBit (range.last - pin)
        else bit := by
  have width : (wordBits value range.count).length = range.count := by
    simp only [wordBits, List.length_map, List.length_range]
  have covered : range.count = range.last + 1 - range.first := rfl
  apply List.ext_getElem?
  intro pin
  rw [List.getElem?_mapIdx]
  by_cases before : pin < range.first
  · -- The pins before the range.
    rw [List.append_assoc, List.getElem?_append_left (by rw [List.length_take]; omega),
      List.getElem?_take_of_lt before]
    cases outputs[pin]? with
    | none => rfl
    | some bit => rw [Option.map_some, if_neg (by omega)]
  · by_cases covers : pin ≤ range.last
    · -- The pins of the range.
      rw [List.getElem?_append_left (by rw [List.length_append, List.length_take]; omega),
        List.getElem?_append_right (by rw [List.length_take]; omega), List.length_take,
        List.getElem?_eq_getElem (by omega : pin < outputs.length), Option.map_some,
        if_pos ⟨by omega, covers⟩]
      simp only [wordBits, List.getElem?_map]
      rw [List.getElem?_range (by omega), Option.map_some, BitVec.testBit_toNat]
      congr 2
      omega
    · -- The pins after the range.
      rw [List.getElem?_append_right (by rw [List.length_append, List.length_take]; omega),
        List.length_append, List.length_take, width, List.getElem?_drop]
      have place : range.last + 1 + (pin - (min range.first outputs.length + range.count)) =
          pin := by omega
      rw [place]
      cases outputs[pin]? with
      | none => rfl
      | some bit => rw [Option.map_some, if_neg (by omega)]

end Reference

end PinMachine
