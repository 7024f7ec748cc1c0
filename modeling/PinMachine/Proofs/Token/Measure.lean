import PinMachine.Proofs.Token.Pieces
import PinMachine.Proofs.Token.Spelling

/-!
Patterns by numbers. The measure of a kind finds something exactly where its pattern finds a
lexeme, and then it gives the length of the lexeme and the places of its captured parts.
-/

namespace PinMachine

/-- A length is that of the part that is taken, or zero if nothing is. -/
def Counts (length : Nat) : Option (List Char × List Char) → Prop
  | none => length = 0
  | some (part, _) => part ≠ [] ∧ length = part.length

theorem Counts.ite_eq {α : Type} {length : Nat} {taken : Option (List Char × List Char)}
    (counts : Counts length taken) (make : Nat → α) :
    (if length = 0 then none else some (make length)) =
      taken.map fun found => make found.1.length := by
  cases taken with
  | none => exact if_pos counts
  | some found =>
      obtain ⟨nonempty, counted⟩ := counts
      have positive := List.length_pos_iff.mpr nonempty
      rw [if_neg (by omega), counted]
      rfl

theorem counts_runLength (class? : Char → Bool) (text : List Char) :
    Counts (runLength class? text) (takeRun? class? text) := by
  unfold runLength takeRun?
  cases text.takeWhile class? with
  | nil => rfl
  | cons first others => exact ⟨List.cons_ne_nil _ _, rfl⟩

theorem counts_identifierLength (text : List Char) :
    Counts (identifierLength text) (takeIdentifier? text) := by
  cases text with
  | nil => rfl
  | cons first others =>
      have counts := counts_runLength isNameChar others
      by_cases letter : first.isAlpha = true
      · simp only [identifierLength, takeIdentifier?, if_pos letter]
        cases taken : takeRun? isNameChar others with
        | none =>
            rw [taken] at counts
            exact if_pos counts
        | some found =>
            rw [taken] at counts
            obtain ⟨nonempty, counted⟩ := counts
            have positive := List.length_pos_iff.mpr nonempty
            rw [if_neg (by omega), counted]
            exact ⟨List.cons_ne_nil _ _, rfl⟩
      · simp only [identifierLength, takeIdentifier?, if_neg letter]
        rfl

/-- Looking at one underscore after the other from the end is dropping them. -/
theorem trimmedLength_eq (text : List Char) (length : Nat) (inside : length ≤ text.length) :
    trimmedLength text length = ((text.take length).rdropWhile (· == '_')).length := by
  induction length with
  | zero => rfl
  | succ length ih =>
      have last : text[length]? = some text[length] := List.getElem?_eq_getElem inside
      rw [trimmedLength, last, List.take_add_one, last, Option.toList_some,
        List.rdropWhile_concat]
      by_cases underscore : text[length] = '_'
      · rw [if_pos (congrArg some underscore), if_pos (beq_iff_eq.mpr underscore)]
        exact ih (Nat.le_of_succ_le inside)
      · rw [if_neg (fun same => underscore (Option.some.inj same)),
          if_neg (fun same => underscore (beq_iff_eq.mp same)), List.length_append,
          List.length_take, Nat.min_eq_left (Nat.le_of_succ_le inside)]
        rfl

private theorem takeBinaryDigits?_of_digit (text : List Char)
    (leading : text.head? = some '0' ∨ text.head? = some '1') :
    ∃ rest, takeBinaryDigits? text =
      some ((text.takeWhile isBinaryChar).rdropWhile (· == '_'), rest) := by
  cases text with
  | nil => rcases leading with none | none <;> cases none
  | cons first others =>
      rcases leading with zero | one
      · cases zero
        exact ⟨_, rfl⟩
      · cases one
        exact ⟨_, rfl⟩

theorem counts_binaryLength (text : List Char) :
    Counts (binaryLength text) (takeBinaryDigits? text) := by
  unfold binaryLength
  by_cases leading : text.head? = some '0' ∨ text.head? = some '1'
  · obtain ⟨rest, taken⟩ := takeBinaryDigits?_of_digit text leading
    obtain ⟨⟨_inside, starts, _ends⟩, _stops, _split⟩ :=
      (takeBinaryDigits?_eq_some_iff _ _ _).mp taken
    have run := List.takeWhile_prefix (p := isBinaryChar) (l := text)
    have whole : text.take (runLength isBinaryChar text) = text.takeWhile isBinaryChar :=
      (List.prefix_iff_eq_take.mp run).symm
    rw [if_pos leading, taken]
    refine ⟨?_, ?_⟩
    · intro empty
      rw [empty] at starts
      rcases starts with none | none <;> cases none
    · rw [trimmedLength_eq text (runLength isBinaryChar text) run.length_le, whole]
  · rw [if_neg leading]
    cases taken : takeBinaryDigits? text with
    | none => rfl
    | some found =>
        obtain ⟨⟨_inside, starts, _ends⟩, _stops, split⟩ :=
          (takeBinaryDigits?_eq_some_iff text found.1 found.2).mp taken
        refine False.elim (leading ?_)
        rw [split, List.head?_append]
        exact starts.imp (fun zero => by rw [zero]; rfl) (fun one => by rw [one]; rfl)

private theorem isDigit_and_ne_zero_iff (char : Char) :
    char.isDigit = true ∧ char ≠ '0' ↔ '1' ≤ char ∧ char ≤ '9' := by
  have zero : '0'.val.toNat = 48 := rfl
  have one : '1'.val.toNat = 49 := rfl
  have nine : '9'.val.toNat = 57 := rfl
  rw [Ne, Char.ext_iff, ← UInt32.toNat_inj, Char.le_def, Char.le_def, UInt32.le_iff_toNat_le,
    UInt32.le_iff_toNat_le]
  simp only [Char.isDigit, Bool.and_eq_true, decide_eq_true_eq, ge_iff_le,
    UInt32.le_iff_toNat_le]
  omega

theorem counts_countLength (text : List Char) :
    Counts (countLength text)
      (if text.head? == some '0' then none else takeRun? Char.isDigit text) := by
  cases text with
  | nil => rfl
  | cons first others =>
      by_cases counting : '1' ≤ first ∧ first ≤ '9'
      · obtain ⟨digit, notZero⟩ := (isDigit_and_ne_zero_iff first).mpr counting
        have other : ((first :: others).head? == some '0') = false := by simpa using notZero
        have counted := counts_runLength Char.isDigit (first :: others)
        have width : runLength Char.isDigit (first :: others) =
            1 + runLength Char.isDigit others := by
          unfold runLength
          rw [List.takeWhile_cons_of_pos digit, List.length_cons, Nat.add_comm]
        rw [width] at counted
        rw [other, countLength, if_pos counting]
        exact counted
      · rw [countLength, if_neg counting]
        by_cases zero : first = '0'
        · subst zero
          rfl
        · have other : ((first :: others).head? == some '0') = false := by simpa using zero
          have notDigit : first.isDigit ≠ true := fun digit =>
            counting ((isDigit_and_ne_zero_iff first).mp ⟨digit, zero⟩)
          rw [other, takeRun?, List.takeWhile_cons_of_neg notDigit]
          rfl

theorem counts_commentLength (text : List Char) :
    Counts (commentLength text)
      (if text.head? = some ';' ∨ text.head? = some '#' then some (text, []) else none) := by
  unfold commentLength
  by_cases marked : text.head? = some ';' ∨ text.head? = some '#'
  · rw [if_pos marked, if_pos marked]
    refine ⟨?_, rfl⟩
    rintro rfl
    rcases marked with none | none <;> cases none
  · rw [if_neg marked, if_neg marked]
    rfl

theorem fixedLength?_cases (fixed text : List Char) :
    (∃ rest, text = fixed ++ rest ∧ fixedLength? fixed text = some fixed.length) ∨
      (∀ rest, text ≠ fixed ++ rest) ∧ fixedLength? fixed text = none := by
  unfold fixedLength?
  by_cases starts : fixed.isPrefixOf text = true
  · obtain ⟨rest, split⟩ := List.isPrefixOf_iff_prefix.mp starts
    exact Or.inl ⟨rest, split.symm, if_pos starts⟩
  · refine Or.inr ⟨?_, if_neg starts⟩
    rintro rest rfl
    exact starts (List.isPrefixOf_iff_prefix.mpr (List.prefix_append fixed rest))

theorem Lexeme.exists_opening (lexeme : Lexeme) :
    ∃ rest, lexeme.text = lexeme.kind.opening ++ rest := by
  cases lexeme <;> exact ⟨_, rfl⟩

namespace TokenKind

theorem scan?_of_absent (kind : TokenKind) (text : List Char)
    (absent : ∀ rest, text ≠ kind.opening ++ rest) : kind.scan? text = none := by
  cases found : kind.scan? text with
  | none => rfl
  | some next =>
      obtain ⟨rfl, _spelled, _ends, split⟩ :=
        (kind.scan?_eq_some_iff text next.2 next.1).mp found
      obtain ⟨rest, opened⟩ := next.1.exists_opening
      rw [opened, List.append_assoc] at split
      exact False.elim (absent _ split)

theorem partMeasure?_of_counts (fixed : List Char) {length : List Char → Nat} {rest : List Char}
    {taken : Option (List Char × List Char)} (counts : Counts (length rest) taken) :
    partMeasure? fixed length (fixed ++ rest) =
      taken.map fun found =>
        ⟨fixed.length + found.1.length, [⟨fixed.length, fixed.length + found.1.length⟩]⟩ := by
  rcases fixedLength?_cases fixed (fixed ++ rest) with ⟨_same, _split, starts⟩ | ⟨absent, _none⟩
  · rw [partMeasure?, starts, Option.bind_some, List.drop_left]
    exact counts.ite_eq fun width =>
      (⟨fixed.length + width, [⟨fixed.length, fixed.length + width⟩]⟩ : Measure)
  · exact False.elim (absent rest rfl)

theorem partMeasure?_of_absent (fixed : List Char) (length : List Char → Nat) (text : List Char)
    (absent : ∀ rest, text ≠ fixed ++ rest) : partMeasure? fixed length text = none := by
  rcases fixedLength?_cases fixed text with ⟨rest, split, _starts⟩ | ⟨_absent, nothing⟩
  · exact False.elim (absent rest split)
  · rw [partMeasure?, nothing, Option.bind_none]

private theorem measure?_of_part (kind : TokenKind) {length : List Char → Nat}
    (take? : List Char → Option (List Char × List Char)) (make : List Char → Lexeme)
    (measured : ∀ text, kind.measure? text = partMeasure? kind.opening length text)
    (counts : ∀ rest, Counts (length rest) (take? rest))
    (opened : ∀ rest, kind.scan? (kind.opening ++ rest) =
      (take? rest).map fun found => (make found.1, found.2))
    (sized : ∀ part, (make part).measure =
      ⟨kind.opening.length + part.length,
        [⟨kind.opening.length, kind.opening.length + part.length⟩]⟩)
    (text : List Char) :
    kind.measure? text = (kind.scan? text).map fun found => found.1.measure := by
  rw [measured]
  by_cases starts : ∃ rest, text = kind.opening ++ rest
  · obtain ⟨rest, rfl⟩ := starts
    rw [partMeasure?_of_counts kind.opening (counts rest), opened, Option.map_map]
    congr 1
    funext found
    exact (sized found.1).symm
  · have absent : ∀ rest, text ≠ kind.opening ++ rest := fun rest split => starts ⟨rest, split⟩
    rw [partMeasure?_of_absent _ _ _ absent, kind.scan?_of_absent text absent]
    rfl

private theorem pin_measure? (text : List Char) :
    partMeasure? ['.', 'p'] (runLength Char.isDigit) text =
      (takePinIndex? text).map fun found =>
        ⟨2 + found.1.length, [⟨2, 2 + found.1.length⟩]⟩ := by
  by_cases starts : ∃ rest, text = ['.', 'p'] ++ rest
  · obtain ⟨rest, rfl⟩ := starts
    exact partMeasure?_of_counts ['.', 'p'] (counts_runLength Char.isDigit rest)
  · have absent : ∀ rest, text ≠ ['.', 'p'] ++ rest := fun rest split => starts ⟨rest, split⟩
    have nothing : takePinIndex? text = none := by
      unfold takePinIndex?
      split
      · exact False.elim (absent _ rfl)
      · rfl
    rw [partMeasure?_of_absent _ _ _ absent, nothing]
    rfl

private theorem measure?_of_range (kind : TokenKind) (separator : List Char)
    {length : List Char → Nat} (take? : List Char → Option (List Char × List Char))
    (make : List Char → List Char → Lexeme)
    (measured : ∀ text, kind.measure? text = rangeMeasure? separator length text)
    (counts : ∀ rest, Counts (length rest) (take? rest))
    (scanned : ∀ text first after, takePinIndex? text = some (first, separator ++ after) →
      kind.scan? text = (take? after).map fun found => (make first found.1, found.2))
    (unscanned : ∀ text, (∀ first after, takePinIndex? text ≠ some (first, separator ++ after)) →
      kind.scan? text = none)
    (sized : ∀ first last, (make first last).measure =
      ⟨2 + first.length + separator.length + last.length,
        [⟨2, 2 + first.length⟩,
          ⟨2 + first.length + separator.length,
            2 + first.length + separator.length + last.length⟩]⟩)
    (text : List Char) :
    kind.measure? text = (kind.scan? text).map fun found => found.1.measure := by
  rw [measured, rangeMeasure?, pin_measure?]
  cases taken : takePinIndex? text with
  | none =>
      have absent : ∀ first after, takePinIndex? text ≠ some (first, separator ++ after) := by
        intro first after found
        rw [taken] at found
        cases found
      rw [unscanned text absent]
      rfl
  | some found =>
      obtain ⟨first, rest⟩ := found
      obtain ⟨_run, _stops, split⟩ := (takePinIndex?_eq_some_iff _ _ _).mp taken
      have front : text.drop (2 + first.length) = rest := by
        rw [split]
        exact List.drop_left' (Nat.add_comm first.length 2)
      rw [Option.map_some, Option.bind_some, front]
      rcases fixedLength?_cases separator rest with ⟨after, rfl, starts⟩ | ⟨absent, nothing⟩
      · have behind : text.drop (2 + first.length + separator.length) = after := by
          rw [← List.drop_drop, front, List.drop_left]
        rw [starts, Option.bind_some, scanned text first after taken, Option.map_map]
        dsimp only
        rw [behind]
        refine ((counts after).ite_eq fun width =>
          (⟨2 + first.length + separator.length + width,
            [⟨2, 2 + first.length⟩, ⟨2 + first.length + separator.length,
              2 + first.length + separator.length + width⟩]⟩ : Measure)).trans ?_
        congr 1
        funext found
        exact (sized first found.1).symm
      · have apart : ∀ other after, takePinIndex? text ≠ some (other, separator ++ after) := by
          intro other after found
          rw [taken] at found
          cases found
          exact absent after rfl
        rw [nothing, unscanned text apart]
        rfl

private theorem size_of_part (opening part : List Char) :
    (⟨(opening ++ part).length, Piece.spans List.length 0 [.fixed opening, .captured part]⟩ :
      Measure) = ⟨opening.length + part.length,
        [⟨opening.length, opening.length + part.length⟩]⟩ := by
  simp [Piece.spans]

private theorem size_of_range (first separator last : List Char) :
    (⟨('.' :: 'p' :: first ++ (separator ++ last)).length,
      Piece.spans List.length 0
        [.fixed ['.', 'p'], .captured first, .fixed separator, .captured last]⟩ : Measure) =
      ⟨2 + first.length + separator.length + last.length,
        [⟨2, 2 + first.length⟩,
          ⟨2 + first.length + separator.length,
            2 + first.length + separator.length + last.length⟩]⟩ := by
  simp [Piece.spans]
  omega

/-- A kind measures what its pattern finds. -/
theorem measure?_eq (kind : TokenKind) (text : List Char) :
    kind.measure? text = (kind.scan? text).map fun found => found.1.measure := by
  cases kind with
  | label =>
      exact measure?_of_part label takeIdentifier? .label (fun _ => rfl) counts_identifierLength
        (fun _ => rfl) (size_of_part [':']) text
  | instruction =>
      exact measure?_of_part instruction (takeRun? Char.isAlpha) .instruction (fun _ => rfl)
        (counts_runLength Char.isAlpha) (fun _ => rfl) (size_of_part []) text
  | register =>
      exact measure?_of_part register (takeRun? Char.isAlphanum) .register (fun _ => rfl)
        (counts_runLength Char.isAlphanum) (fun _ => rfl) (size_of_part ['$']) text
  | labelArgument =>
      exact measure?_of_part labelArgument takeIdentifier? .labelArgument (fun _ => rfl)
        counts_identifierLength (fun _ => rfl) (size_of_part []) text
  | pinRange =>
      refine measure?_of_range pinRange ['.', '.', 'p'] (takeRun? Char.isDigit) .pinRange
        (fun _ => rfl) (counts_runLength Char.isDigit) ?_ ?_
        (fun first last => size_of_range first ['.', '.', 'p'] last) text
      · intro text first after taken
        simp only [scan?, taken, List.cons_append, List.nil_append]
      · intro text absent
        simp only [scan?]
        split
        · rename_i first after taken
          exact False.elim (absent first after taken)
        · rfl
  | pinRangeLength =>
      refine measure?_of_range pinRangeLength [':']
        (fun text => if text.head? == some '0' then none else takeRun? Char.isDigit text)
        .pinRangeLength (fun _ => rfl) counts_countLength ?_ ?_
        (fun first count => size_of_range first [':'] count) text
      · intro text first after taken
        simp only [scan?, taken, List.cons_append, List.nil_append]
        split <;> rfl
      · intro text absent
        simp only [scan?]
        split
        · rename_i first after taken
          exact False.elim (absent first after taken)
        · rfl
  | pin =>
      exact measure?_of_part pin (takeRun? Char.isDigit) .pin (fun _ => rfl)
        (counts_runLength Char.isDigit) (fun _ => rfl) (size_of_part ['.', 'p']) text
  | binary =>
      exact measure?_of_part binary takeBinaryDigits? .binary (fun _ => rfl)
        counts_binaryLength (fun _ => rfl) (size_of_part ['0', 'b']) text
  | hex =>
      exact measure?_of_part hex (takeRun? isHexDigit) .hex (fun _ => rfl)
        (counts_runLength isHexDigit) (fun _ => rfl) (size_of_part ['0', 'x']) text
  | integer =>
      exact measure?_of_part integer (takeRun? Char.isDigit) .integer (fun _ => rfl)
        (counts_runLength Char.isDigit) (fun _ => rfl) (size_of_part []) text
  | whitespace =>
      have scanned : whitespace.scan? text = (takeRun? isSpaceOrTab text).map fun found =>
          (.whitespace found.1, found.2) := rfl
      rw [scanned, Option.map_map]
      exact (counts_runLength isSpaceOrTab text).ite_eq fun width => (⟨width, []⟩ : Measure)
  | comment =>
      refine measure?_of_part comment
        (fun text => if text.head? = some ';' ∨ text.head? = some '#' then some (text, [])
          else none) .comment (fun _ => rfl) counts_commentLength ?_ (size_of_part []) text
      intro text
      cases text with
      | nil => rfl
      | cons char others =>
          by_cases semicolon : char = ';'
          · subst semicolon
            rfl
          · by_cases hash : char = '#'
            · subst hash
              rfl
            · simp [opening, scan?, semicolon, hash]

end TokenKind

theorem nextMeasure?_eq (leading : Bool) (text : List Char) :
    nextMeasure? leading text =
      (nextLexeme? leading text).map fun found => (found.1.kind, found.1.measure) := by
  unfold nextMeasure? nextLexeme?
  rw [List.map_findSome?]
  congr 1
  funext kind
  by_cases refused : (kind.leadsLine && !leading) = true
  · simp only [Function.comp_apply, if_pos refused, Option.map_none]
  · simp only [Function.comp_apply, if_neg refused, kind.measure?_eq, Option.map_map]
    cases found : kind.scan? text with
    | none => rfl
    | some next =>
        obtain ⟨rfl, _front⟩ := (kind.scan?_eq_some_iff text next.2 next.1).mp found
        rfl

end PinMachine
