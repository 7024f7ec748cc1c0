import Mathlib.Data.List.DropRight
import PinMachine.Token.Scan

/-!
The grammar of lexemes. Each kind of lexeme has a spelling of its own and an end: what
follows it must not continue it. A pattern finds a lexeme at the front of a text
exactly if the lexeme is spelled so, the text starts with it, and the rest of the text
does not continue it.
-/

namespace PinMachine

/-- A letter and one or more letters, digits or underscores. -/
def IsIdentifier (name : List Char) : Prop :=
  ∃ first others, name = first :: others ∧ first.isAlpha = true ∧ others ≠ [] ∧
    ∀ char ∈ others, isNameChar char = true

/-- One or more characters of a class. -/
def IsRun (class? : Char → Bool) (text : List Char) : Prop :=
  text ≠ [] ∧ ∀ char ∈ text, class? char = true

/-- Binary digits and underscores, with a digit at either end. -/
def IsBinaryNumeral (digits : List Char) : Prop :=
  (∀ char ∈ digits, isBinaryChar char = true) ∧
    (digits.head? = some '0' ∨ digits.head? = some '1') ∧ digits.getLast? ≠ some '_'

def isSpaceOrTab (char : Char) : Bool :=
  char == ' ' || char == '\t'

namespace Lexeme

/-- The captured parts of a lexeme are spelled as its kind asks for. -/
def WellSpelled : Lexeme → Prop
  | .label name | .labelArgument name => IsIdentifier name
  | .instruction name => IsRun Char.isAlpha name
  | .register name => IsRun Char.isAlphanum name
  | .pinRange first last => IsRun Char.isDigit first ∧ IsRun Char.isDigit last
  | .pinRangeLength first count =>
      IsRun Char.isDigit first ∧ IsRun Char.isDigit count ∧ count.head? ≠ some '0'
  | .pin index => IsRun Char.isDigit index
  | .binary digits => IsBinaryNumeral digits
  | .hex digits => IsRun isHexDigit digits
  | .integer digits => IsRun Char.isDigit digits
  | .whitespace blanks => IsRun isSpaceOrTab blanks
  | .comment text => text.head? = some ';' ∨ text.head? = some '#'

end Lexeme

instance (class? : Char → Bool) (text : List Char) : Decidable (IsRun class? text) :=
  have := List.decidableBAll (class? · = true) text
  inferInstanceAs (Decidable (_ ∧ _))

instance (digits : List Char) : Decidable (IsBinaryNumeral digits) :=
  have := List.decidableBAll (isBinaryChar · = true) digits
  inferInstanceAs (Decidable (_ ∧ _ ∧ _))

instance : (name : List Char) → Decidable (IsIdentifier name)
  | [] => isFalse (by rintro ⟨first, others, shape, _⟩; cases shape)
  | first :: others =>
      have := List.decidableBAll (isNameChar · = true) others
      decidable_of_iff (first.isAlpha = true ∧ others ≠ [] ∧
          ∀ char ∈ others, isNameChar char = true)
        ⟨fun spelled => ⟨first, others, rfl, spelled⟩, by
          rintro ⟨_, _, shape, spelled⟩
          cases shape
          exact spelled⟩

instance : (lexeme : Lexeme) → Decidable lexeme.WellSpelled
  | .label name | .labelArgument name => inferInstanceAs (Decidable (IsIdentifier name))
  | .instruction name => inferInstanceAs (Decidable (IsRun Char.isAlpha name))
  | .register name => inferInstanceAs (Decidable (IsRun Char.isAlphanum name))
  | .pinRange first last =>
      inferInstanceAs (Decidable (IsRun Char.isDigit first ∧ IsRun Char.isDigit last))
  | .pinRangeLength first count =>
      inferInstanceAs (Decidable
        (IsRun Char.isDigit first ∧ IsRun Char.isDigit count ∧ count.head? ≠ some '0'))
  | .pin digits | .integer digits => inferInstanceAs (Decidable (IsRun Char.isDigit digits))
  | .binary digits => inferInstanceAs (Decidable (IsBinaryNumeral digits))
  | .hex digits => inferInstanceAs (Decidable (IsRun isHexDigit digits))
  | .whitespace blanks => inferInstanceAs (Decidable (IsRun isSpaceOrTab blanks))
  | .comment text => inferInstanceAs (Decidable (text.head? = some ';' ∨ text.head? = some '#'))

/-- A text does not start with a character of a class. -/
def Stops (class? : Char → Bool) (rest : List Char) : Prop :=
  ∀ char, rest.head? = some char → class? char = false

namespace Lexeme

/-- The rest of a text does not continue a lexeme. Underscores continue a binary
numeral only if a digit follows them; a comment goes on to the end. -/
def EndsAt : Lexeme → List Char → Prop
  | .label _, rest | .labelArgument _, rest => Stops isNameChar rest
  | .instruction _, rest => Stops Char.isAlpha rest
  | .register _, rest => Stops Char.isAlphanum rest
  | .pinRange _ _, rest | .pinRangeLength _ _, rest | .pin _, rest | .integer _, rest =>
      Stops Char.isDigit rest
  | .binary _, rest => Stops isBinaryChar (rest.dropWhile (· == '_'))
  | .hex _, rest => Stops isHexDigit rest
  | .whitespace _, rest => Stops isSpaceOrTab rest
  | .comment _, rest => rest = []

end Lexeme

theorem stops_nil (class? : Char → Bool) : Stops class? [] := by
  intro char first
  cases first

theorem stops_cons {class? : Char → Bool} {char : Char} (outside : class? char = false)
    (rest : List Char) : Stops class? (char :: rest) := by
  intro other first
  cases first
  exact outside

theorem stops_dropWhile (class? : Char → Bool) (text : List Char) :
    Stops class? (text.dropWhile class?) := by
  intro char first
  have outside := List.head?_dropWhile_not class? text
  rw [first] at outside
  exact outside

theorem cut_of_stops (class? : Char → Bool) (run rest : List Char)
    (inside : ∀ char ∈ run, class? char = true) (stops : Stops class? rest) :
    (run ++ rest).takeWhile class? = run ∧ (run ++ rest).dropWhile class? = rest := by
  induction run with
  | nil =>
      cases rest with
      | nil => exact ⟨rfl, rfl⟩
      | cons char others =>
          have outside := stops char rfl
          simp [outside]
  | cons char others ih =>
      have member := inside char List.mem_cons_self
      obtain ⟨taken, dropped⟩ := ih fun other later =>
        inside other (List.mem_cons_of_mem _ later)
      simp [member, taken, dropped]

theorem takeRun?_eq_some_iff (class? : Char → Bool) (text run rest : List Char) :
    takeRun? class? text = some (run, rest) ↔
      IsRun class? run ∧ Stops class? rest ∧ text = run ++ rest := by
  constructor
  · intro taken
    unfold takeRun? at taken
    split at taken
    · cases taken
    · rename_i first others found
      cases taken
      refine ⟨⟨List.cons_ne_nil _ _, ?_⟩, stops_dropWhile class? text, ?_⟩
      · intro char member
        rw [← found] at member
        exact List.mem_takeWhile_imp member
      · rw [← found, List.takeWhile_append_dropWhile]
  · rintro ⟨⟨nonempty, inside⟩, stops, rfl⟩
    obtain ⟨taken, dropped⟩ := cut_of_stops class? run rest inside stops
    unfold takeRun?
    rw [taken, dropped]
    cases run with
    | nil => exact False.elim (nonempty rfl)
    | cons first others => rfl

theorem takeIdentifier?_eq_some_iff (text name rest : List Char) :
    takeIdentifier? text = some (name, rest) ↔
      IsIdentifier name ∧ Stops isNameChar rest ∧ text = name ++ rest := by
  constructor
  · intro taken
    cases text with
    | nil => cases taken
    | cons first others =>
        by_cases letter : first.isAlpha = true
        · simp only [takeIdentifier?, letter, if_true, Option.map_eq_some_iff,
            Prod.mk.injEq] at taken
          obtain ⟨⟨run, after⟩, found, rfl, rfl⟩ := taken
          obtain ⟨⟨nonempty, inside⟩, stops, rfl⟩ := (takeRun?_eq_some_iff _ _ _ _).mp found
          exact ⟨⟨first, run, rfl, letter, nonempty, inside⟩, stops, rfl⟩
        · simp only [takeIdentifier?, letter] at taken
          cases taken
  · rintro ⟨⟨first, others, rfl, letter, nonempty, inside⟩, stops, rfl⟩
    have found := (takeRun?_eq_some_iff isNameChar (others ++ rest) others rest).mpr
      ⟨⟨nonempty, inside⟩, stops, rfl⟩
    simp only [List.cons_append, takeIdentifier?, letter, if_true, found, Option.map_some]

theorem takePinIndex?_eq_some_iff (text index rest : List Char) :
    takePinIndex? text = some (index, rest) ↔
      IsRun Char.isDigit index ∧ Stops Char.isDigit rest ∧
        text = '.' :: 'p' :: index ++ rest := by
  constructor
  · intro taken
    unfold takePinIndex? at taken
    split at taken
    · rename_i after
      obtain ⟨digits, stops, rfl⟩ := (takeRun?_eq_some_iff _ _ _ _).mp taken
      exact ⟨digits, stops, rfl⟩
    · cases taken
  · rintro ⟨digits, stops, rfl⟩
    exact (takeRun?_eq_some_iff _ _ _ _).mpr ⟨digits, stops, rfl⟩

/-- What is left of a run without the underscores at its end. -/
private def trimmed (run : List Char) : List Char :=
  (run.reverse.dropWhile (· == '_')).reverse

private theorem trimmed_append (digits underscores : List Char)
    (digit : digits.getLast? ≠ some '_') (all : ∀ char ∈ underscores, char = '_') :
    trimmed (digits ++ underscores) = digits := by
  have cut := cut_of_stops (· == '_') underscores.reverse digits.reverse ?_ ?_
  · unfold trimmed
    rw [List.reverse_append, cut.2, List.reverse_reverse]
  · intro char member
    rw [all char (List.mem_reverse.mp member)]
    rfl
  · intro char first
    rw [List.head?_reverse] at first
    rw [beq_eq_false_iff_ne]
    rintro rfl
    exact digit first

private theorem exists_trimmed (run : List Char) :
    ∃ underscores, run = trimmed run ++ underscores ∧ (trimmed run).getLast? ≠ some '_' ∧
      ∀ char ∈ underscores, char = '_' := by
  refine ⟨(run.reverse.takeWhile (· == '_')).reverse, ?_, ?_, ?_⟩
  · unfold trimmed
    rw [← List.reverse_append, List.takeWhile_append_dropWhile, List.reverse_reverse]
  · intro last
    unfold trimmed at last
    rw [List.getLast?_reverse] at last
    have outside := stops_dropWhile (· == '_') run.reverse '_' last
    cases outside
  · intro char member
    have underscore := List.mem_takeWhile_imp (List.mem_reverse.mp member)
    exact eq_of_beq underscore

private theorem takeBinaryDigits?_eq (text : List Char) :
    takeBinaryDigits? text =
      if text.head? = some '0' ∨ text.head? = some '1' then
        some (trimmed (text.takeWhile isBinaryChar),
          text.drop (trimmed (text.takeWhile isBinaryChar)).length)
      else none := by
  cases text with
  | nil => rfl
  | cons first others =>
      by_cases zero : first = '0'
      · subst zero
        rfl
      · by_cases one : first = '1'
        · subst one
          rfl
        · simp [takeBinaryDigits?, zero, one]

private theorem stops_underscore {rest : List Char} (stops : Stops isBinaryChar rest) :
    Stops (· == '_') rest := by
  intro char first
  have outside := stops char first
  simp only [isBinaryChar, Bool.or_eq_false_iff] at outside
  exact outside.2

/-- Digits are found in front of underscores and a text that stops the run. -/
theorem takeBinaryDigits?_eq_some_iff (text digits rest : List Char) :
    takeBinaryDigits? text = some (digits, rest) ↔
      IsBinaryNumeral digits ∧ Stops isBinaryChar (rest.dropWhile (· == '_')) ∧
        text = digits ++ rest := by
  rw [takeBinaryDigits?_eq]
  constructor
  · intro taken
    by_cases leading : text.head? = some '0' ∨ text.head? = some '1'
    · rw [if_pos leading] at taken
      obtain ⟨underscores, run, digit, all⟩ := exists_trimmed (text.takeWhile isBinaryChar)
      have inside : ∀ char ∈ text.takeWhile isBinaryChar, isBinaryChar char = true :=
        fun char member => List.mem_takeWhile_imp member
      have stops := stops_dropWhile isBinaryChar text
      have whole := List.takeWhile_append_dropWhile (p := isBinaryChar) (l := text)
      rw [run] at inside whole
      rw [List.append_assoc] at whole
      -- The text is the digits, the underscores after them and what stops the run.
      generalize trimmed (text.takeWhile isBinaryChar) = kept at taken digit inside whole
      generalize text.dropWhile isBinaryChar = tail at stops whole
      cases taken
      subst whole
      rw [List.drop_left]
      refine ⟨⟨fun char member => inside char (List.mem_append_left _ member), ?_, digit⟩,
        ?_, rfl⟩
      · cases digits with
        | nil =>
            -- A run of underscores only does not start with a digit.
            cases underscores with
            | nil =>
                rcases leading with zero | one
                · cases stops '0' zero
                · cases stops '1' one
            | cons first others =>
                rw [all first List.mem_cons_self] at leading
                simp at leading
        | cons first others => exact leading
      · have cut := cut_of_stops (· == '_') underscores tail ?_ (stops_underscore stops)
        · rw [cut.2]
          exact stops
        · intro char member
          rw [all char member]
          rfl
    · rw [if_neg leading] at taken
      cases taken
  · rintro ⟨⟨inside, leading, digit⟩, stops, rfl⟩
    have underscores : ∀ char ∈ rest.takeWhile (· == '_'), char = '_' := by
      intro char member
      have underscore := List.mem_takeWhile_imp member
      exact eq_of_beq underscore
    have run : (digits ++ rest).takeWhile isBinaryChar =
        digits ++ rest.takeWhile (· == '_') := by
      have cut := cut_of_stops isBinaryChar (digits ++ rest.takeWhile (· == '_'))
        (rest.dropWhile (· == '_')) ?_ stops
      · rw [List.append_assoc, List.takeWhile_append_dropWhile] at cut
        exact cut.1
      · intro char member
        rcases List.mem_append.mp member with inDigits | inTail
        · exact inside char inDigits
        · rw [underscores char inTail]
          rfl
    have starts : (digits ++ rest).head? = digits.head? := by
      cases digits with
      | nil => simp at leading
      | cons first others => rfl
    rw [starts, if_pos leading, run, trimmed_append digits _ digit underscores,
      List.drop_left]

/-! ### Patterns -/

private theorem map_eq_some_iff (taken : Option (List Char × List Char))
    (make : List Char → Lexeme) (lexeme : Lexeme) (rest : List Char) :
    taken.map (fun found => (make found.1, found.2)) = some (lexeme, rest) ↔
      ∃ part, lexeme = make part ∧ taken = some (part, rest) := by
  constructor
  · intro found
    obtain ⟨⟨part, remaining⟩, rfl, same⟩ := Option.map_eq_some_iff.mp found
    cases same
    exact ⟨part, rfl, rfl⟩
  · rintro ⟨part, rfl, rfl⟩
    rfl

namespace TokenKind

variable (text rest : List Char) (lexeme : Lexeme)

/-- The fixed characters at the start of the lexemes of a kind. -/
def opening : TokenKind → List Char
  | .label => [':']
  | .register => ['$']
  | .pinRange | .pinRangeLength | .pin => ['.', 'p']
  | .binary => ['0', 'b']
  | .hex => ['0', 'x']
  | .instruction | .labelArgument | .integer | .whitespace | .comment => []

private theorem exists_opening (kind : TokenKind) (found : kind.scan? text ≠ none) :
    ∃ after, text = kind.opening ++ after := by
  cases kind with
  | label | register | binary | hex =>
      simp only [scan?] at found
      split at found
      · exact ⟨_, rfl⟩
      · exact False.elim (found rfl)
  | pinRange | pinRangeLength | pin =>
      cases index : takePinIndex? text with
      | none =>
          simp only [scan?, index] at found
          exact False.elim (found rfl)
      | some taken =>
          obtain ⟨digits, after⟩ := taken
          obtain ⟨_run, _stops, rfl⟩ := (takePinIndex?_eq_some_iff _ _ _).mp index
          exact ⟨digits ++ after, rfl⟩
  | _ => exact ⟨text, rfl⟩

private theorem scan?_iff_of_part (kind : TokenKind)
    (take? : List Char → Option (List Char × List Char)) (make : List Char → Lexeme)
    (kinds : ∀ lexeme : Lexeme, lexeme.kind = kind ↔ ∃ part, lexeme = make part)
    (written : ∀ part, (make part).text = kind.opening ++ part)
    (taken : ∀ after part remaining, take? after = some (part, remaining) ↔
      (make part).WellSpelled ∧ (make part).EndsAt remaining ∧ after = part ++ remaining)
    (opened : ∀ after, kind.scan? (kind.opening ++ after) =
      (take? after).map fun found => (make found.1, found.2)) :
    kind.scan? text = some (lexeme, rest) ↔
      lexeme.kind = kind ∧ lexeme.WellSpelled ∧ lexeme.EndsAt rest ∧
        text = lexeme.text ++ rest := by
  rw [kinds]
  constructor
  · intro found
    obtain ⟨after, rfl⟩ := exists_opening text kind (by rw [found]; exact Option.some_ne_none _)
    rw [opened] at found
    obtain ⟨part, rfl, took⟩ := (map_eq_some_iff _ _ _ _).mp found
    obtain ⟨spelled, ends, rfl⟩ := (taken _ _ _).mp took
    refine ⟨⟨part, rfl⟩, spelled, ends, ?_⟩
    rw [written, List.append_assoc]
  · rintro ⟨⟨part, rfl⟩, spelled, ends, rfl⟩
    have took := (taken (part ++ rest) part rest).mpr ⟨spelled, ends, rfl⟩
    rw [written, List.append_assoc, opened, took, Option.map_some]

private theorem scan?_pinRange_iff :
    pinRange.scan? text = some (lexeme, rest) ↔
      ∃ first last, lexeme = .pinRange first last ∧ IsRun Char.isDigit first ∧
        IsRun Char.isDigit last ∧ Stops Char.isDigit rest ∧
        text = '.' :: 'p' :: (first ++ '.' :: '.' :: 'p' :: (last ++ rest)) := by
  constructor
  · intro found
    simp only [scan?] at found
    split at found
    · rename_i first after index
      obtain ⟨firstSpelled, _stops, rfl⟩ := (takePinIndex?_eq_some_iff _ _ _).mp index
      obtain ⟨last, made, taken⟩ := (map_eq_some_iff _ _ _ _).mp found
      obtain ⟨lastSpelled, stops, rfl⟩ := (takeRun?_eq_some_iff _ _ _ _).mp taken
      exact ⟨first, last, made, firstSpelled, lastSpelled, stops, rfl⟩
    · cases found
  · rintro ⟨first, last, rfl, firstSpelled, lastSpelled, stops, rfl⟩
    have index := (takePinIndex?_eq_some_iff _ first ('.' :: '.' :: 'p' :: (last ++ rest))).mpr
      ⟨firstSpelled, stops_cons rfl _, rfl⟩
    have taken := (takeRun?_eq_some_iff Char.isDigit (last ++ rest) last rest).mpr
      ⟨lastSpelled, stops, rfl⟩
    rw [List.cons_append, List.cons_append] at index
    simp only [scan?, index, taken, Option.map_some]

private theorem scan?_pinRangeLength_iff :
    pinRangeLength.scan? text = some (lexeme, rest) ↔
      ∃ first count, lexeme = .pinRangeLength first count ∧ IsRun Char.isDigit first ∧
        IsRun Char.isDigit count ∧ count.head? ≠ some '0' ∧ Stops Char.isDigit rest ∧
        text = '.' :: 'p' :: (first ++ ':' :: (count ++ rest)) := by
  constructor
  · intro found
    simp only [scan?] at found
    split at found
    · rename_i first after index
      obtain ⟨firstSpelled, _stops, rfl⟩ := (takePinIndex?_eq_some_iff _ _ _).mp index
      split at found
      · cases found
      · rename_i zero
        obtain ⟨count, made, taken⟩ := (map_eq_some_iff _ _ _ _).mp found
        obtain ⟨countSpelled, stops, rfl⟩ := (takeRun?_eq_some_iff _ _ _ _).mp taken
        refine ⟨first, count, made, firstSpelled, countSpelled, ?_, stops, rfl⟩
        intro leading
        apply zero
        rw [List.head?_append, leading]
        rfl
    · cases found
  · rintro ⟨first, count, rfl, firstSpelled, countSpelled, zero, stops, rfl⟩
    have index := (takePinIndex?_eq_some_iff _ first (':' :: (count ++ rest))).mpr
      ⟨firstSpelled, stops_cons rfl _, rfl⟩
    have taken := (takeRun?_eq_some_iff Char.isDigit (count ++ rest) count rest).mpr
      ⟨countSpelled, stops, rfl⟩
    have leading : ((count ++ rest).head? == some '0') = false := by
      rw [beq_eq_false_iff_ne]
      cases count with
      | nil => exact False.elim (countSpelled.1 rfl)
      | cons digit others => exact zero
    rw [List.cons_append, List.cons_append] at index
    simp only [scan?, index, leading, taken, Option.map_some, Bool.false_eq_true, if_false]

private theorem scan?_comment_iff :
    comment.scan? text = some (lexeme, rest) ↔
      (text.head? = some ';' ∨ text.head? = some '#') ∧ lexeme = .comment text ∧
        rest = [] := by
  constructor
  · intro found
    simp only [scan?] at found
    split at found
    · cases found
      exact ⟨Or.inl rfl, rfl, rfl⟩
    · cases found
      exact ⟨Or.inr rfl, rfl, rfl⟩
    · cases found
  · rintro ⟨leading, rfl, rfl⟩
    cases text with
    | nil => simp at leading
    | cons first others =>
        rcases leading with semicolon | hash
        · cases semicolon
          rfl
        · cases hash
          rfl

/-- A pattern finds a lexeme exactly if the lexeme is of its kind, is spelled as the
kind asks for, and stands in front of a text that does not continue it. -/
theorem scan?_eq_some_iff (kind : TokenKind) :
    kind.scan? text = some (lexeme, rest) ↔
      lexeme.kind = kind ∧ lexeme.WellSpelled ∧ lexeme.EndsAt rest ∧
        text = lexeme.text ++ rest := by
  cases kind with
  | label =>
      exact scan?_iff_of_part text rest lexeme label takeIdentifier? .label
        (by intro lexeme; cases lexeme <;> simp [Lexeme.kind]) (fun _ => rfl)
        takeIdentifier?_eq_some_iff (fun _ => rfl)
  | instruction =>
      exact scan?_iff_of_part text rest lexeme instruction (takeRun? Char.isAlpha) .instruction
        (by intro lexeme; cases lexeme <;> simp [Lexeme.kind]) (fun _ => rfl)
        (takeRun?_eq_some_iff Char.isAlpha) (fun _ => rfl)
  | register =>
      exact scan?_iff_of_part text rest lexeme register (takeRun? Char.isAlphanum) .register
        (by intro lexeme; cases lexeme <;> simp [Lexeme.kind]) (fun _ => rfl)
        (takeRun?_eq_some_iff Char.isAlphanum) (fun _ => rfl)
  | labelArgument =>
      exact scan?_iff_of_part text rest lexeme labelArgument takeIdentifier? .labelArgument
        (by intro lexeme; cases lexeme <;> simp [Lexeme.kind]) (fun _ => rfl)
        takeIdentifier?_eq_some_iff (fun _ => rfl)
  | pinRange =>
      rw [scan?_pinRange_iff]
      cases lexeme <;>
        simp [Lexeme.kind, Lexeme.WellSpelled, Lexeme.EndsAt, Lexeme.text, and_assoc]
  | pinRangeLength =>
      rw [scan?_pinRangeLength_iff]
      cases lexeme <;>
        simp [Lexeme.kind, Lexeme.WellSpelled, Lexeme.EndsAt, Lexeme.text, and_assoc]
  | pin =>
      exact scan?_iff_of_part text rest lexeme pin (takeRun? Char.isDigit) .pin
        (by intro lexeme; cases lexeme <;> simp [Lexeme.kind]) (fun _ => rfl)
        (takeRun?_eq_some_iff Char.isDigit) (fun _ => rfl)
  | binary =>
      exact scan?_iff_of_part text rest lexeme binary takeBinaryDigits? .binary
        (by intro lexeme; cases lexeme <;> simp [Lexeme.kind]) (fun _ => rfl)
        takeBinaryDigits?_eq_some_iff (fun _ => rfl)
  | hex =>
      exact scan?_iff_of_part text rest lexeme hex (takeRun? isHexDigit) .hex
        (by intro lexeme; cases lexeme <;> simp [Lexeme.kind]) (fun _ => rfl)
        (takeRun?_eq_some_iff isHexDigit) (fun _ => rfl)
  | integer =>
      exact scan?_iff_of_part text rest lexeme integer (takeRun? Char.isDigit) .integer
        (by intro lexeme; cases lexeme <;> simp [Lexeme.kind]) (fun _ => rfl)
        (takeRun?_eq_some_iff Char.isDigit) (fun _ => rfl)
  | whitespace =>
      exact scan?_iff_of_part text rest lexeme whitespace (takeRun? isSpaceOrTab) .whitespace
        (by intro lexeme; cases lexeme <;> simp [Lexeme.kind]) (fun _ => rfl)
        (takeRun?_eq_some_iff isSpaceOrTab) (fun _ => rfl)
  | comment =>
      rw [scan?_comment_iff]
      cases lexeme with
      | comment written =>
          constructor
          · rintro ⟨leading, made, rfl⟩
            cases made
            exact ⟨rfl, leading, rfl, (List.append_nil _).symm⟩
          · rintro ⟨_kind, leading, ends, rfl⟩
            change rest = [] at ends
            subst ends
            rw [List.append_nil]
            exact ⟨leading, rfl, rfl⟩
      | _ => simp [Lexeme.kind]

end TokenKind

/-- The characters that a lexeme of a kind starts with. -/
def TokenKind.opens : TokenKind → Char → Bool
  | .label, char => char == ':'
  | .instruction, char | .labelArgument, char => char.isAlpha
  | .register, char => char == '$'
  | .pinRange, char | .pinRangeLength, char | .pin, char => char == '.'
  | .binary, char | .hex, char => char == '0'
  | .integer, char => char.isDigit
  | .whitespace, char => isSpaceOrTab char
  | .comment, char => char == ';' || char == '#'

theorem IsRun.first {class? : Char → Bool} {text : List Char}
    (run : IsRun class? text) : ∃ char others, text = char :: others ∧ class? char = true := by
  obtain ⟨nonempty, inside⟩ := run
  obtain ⟨char, others, rfl⟩ := List.exists_cons_of_ne_nil nonempty
  exact ⟨char, others, rfl, inside char List.mem_cons_self⟩

theorem Lexeme.WellSpelled.opens {lexeme : Lexeme} (spelled : lexeme.WellSpelled) :
    ∃ char others, lexeme.text = char :: others ∧ lexeme.kind.opens char = true := by
  cases lexeme with
  | instruction name => exact IsRun.first spelled
  | labelArgument name =>
      obtain ⟨first, others, rfl, letter, _inside⟩ := spelled
      exact ⟨first, others, rfl, letter⟩
  | integer digits => exact IsRun.first spelled
  | whitespace blanks => exact IsRun.first spelled
  | comment text =>
      cases text with
      | nil => rcases spelled with none | none <;> cases none
      | cons char others =>
          refine ⟨char, others, rfl, ?_⟩
          rcases spelled with semicolon | hash
          · cases semicolon
            rfl
          · cases hash
            rfl
  | _ => exact ⟨_, _, rfl, rfl⟩

theorem Lexeme.WellSpelled.text_ne_nil {lexeme : Lexeme} (spelled : lexeme.WellSpelled) :
    lexeme.text ≠ [] := by
  obtain ⟨char, others, written, _opens⟩ := spelled.opens
  rw [written]
  exact List.cons_ne_nil _ _

theorem nextLexeme?_eq_some {leading : Bool} {text rest : List Char} {lexeme : Lexeme}
    (found : nextLexeme? leading text = some (lexeme, rest)) :
    (lexeme.kind.leadsLine = true → leading = true) ∧ lexeme.WellSpelled ∧
      lexeme.EndsAt rest ∧ text = lexeme.text ++ rest := by
  obtain ⟨kind, _member, scanned⟩ := List.exists_of_findSome?_eq_some found
  by_cases refused : (kind.leadsLine && !leading) = true
  · rw [if_pos refused] at scanned
    cases scanned
  · rw [if_neg refused] at scanned
    obtain ⟨rfl, spelled, ends, split⟩ := (kind.scan?_eq_some_iff text rest lexeme).mp scanned
    refine ⟨?_, spelled, ends, split⟩
    intro leads
    rw [leads, Bool.true_and] at refused
    simpa using refused

end PinMachine
