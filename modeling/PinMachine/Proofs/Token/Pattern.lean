import PinMachine.Proofs.Token.Pieces
import PinMachine.Proofs.Token.Spelling

/-!
The grammar of tokens as patterns. A pattern says which texts belong to it and which bytes
of a text it captures. For the texts of one kind of token the captured bytes are unique, and
they are those of the parts that a lexeme of this kind keeps.
-/

namespace PinMachine

inductive Pattern where
  | fixed (text : List Char)
  | one (class? : Char → Bool)
  | many (class? : Char → Bool)
  | seq (first second : Pattern)
  | maybe (pattern : Pattern)
  | capture (pattern : Pattern)

namespace Pattern

/-- A whole text belongs to the pattern, and these are the bytes that are captured if the
text starts at a byte. -/
def Matches : Pattern → (start : Nat) → (text : List Char) → (groups : List Span) → Prop
  | .fixed expected, _, text, groups => text = expected ∧ groups = []
  | .one class?, _, text, groups => ∃ char, class? char = true ∧ text = [char] ∧ groups = []
  | .many class?, _, text, groups => (∀ char ∈ text, class? char = true) ∧ groups = []
  | .seq first second, start, text, groups =>
      ∃ front back frontGroups backGroups, first.Matches start front frontGroups ∧
        second.Matches (start + utf8Length front) back backGroups ∧
          text = front ++ back ∧ groups = frontGroups ++ backGroups
  | .maybe pattern, start, text, groups =>
      text = [] ∧ groups = [] ∨ pattern.Matches start text groups
  | .capture pattern, start, text, groups =>
      ∃ inner, pattern.Matches start text inner ∧
        groups = ⟨start, start + utf8Length text⟩ :: inner

def run (class? : Char → Bool) : Pattern :=
  .seq (.one class?) (.many class?)

def identifier : Pattern :=
  .seq (.one Char.isAlpha) (run isNameChar)

def count : Pattern :=
  .seq (.one fun char => char.isDigit && char != '0') (.many Char.isDigit)

def isBinaryDigit (char : Char) : Bool :=
  char == '0' || char == '1'

def binaryNumeral : Pattern :=
  .seq (.one isBinaryDigit) (.maybe (.seq (.many isBinaryChar) (.one isBinaryDigit)))

def comment : Pattern :=
  .seq (.one fun char => char == ';' || char == '#') (.many fun _ => true)

end Pattern

/-- What the tokens of a kind look like. -/
def TokenKind.pattern : TokenKind → Pattern
  | .label => .seq (.fixed [':']) (.capture .identifier)
  | .instruction => .capture (.run Char.isAlpha)
  | .register => .seq (.fixed ['$']) (.capture (.run Char.isAlphanum))
  | .labelArgument => .capture .identifier
  | .pinRange =>
      .seq (.seq (.fixed ['.', 'p']) (.capture (.run Char.isDigit)))
        (.seq (.fixed ['.', '.', 'p']) (.capture (.run Char.isDigit)))
  | .pinRangeLength =>
      .seq (.seq (.fixed ['.', 'p']) (.capture (.run Char.isDigit)))
        (.seq (.fixed [':']) (.capture .count))
  | .pin => .seq (.fixed ['.', 'p']) (.capture (.run Char.isDigit))
  | .binary => .seq (.fixed ['0', 'b']) (.capture .binaryNumeral)
  | .hex => .seq (.fixed ['0', 'x']) (.capture (.run isHexDigit))
  | .integer => .capture (.run Char.isDigit)
  | .whitespace => .run isSpaceOrTab
  | .comment => .capture .comment

namespace Pattern

variable {pattern first second : Pattern} {language other : List Char → Prop}

/-- The texts of the pattern are those of a language, and nothing in them is captured. -/
def Spells (pattern : Pattern) (language : List Char → Prop) : Prop :=
  ∀ start text groups, pattern.Matches start text groups ↔ language text ∧ groups = []

theorem Spells.of_iff (spells : pattern.Spells language)
    (same : ∀ text, language text ↔ other text) : pattern.Spells other := by
  intro start text groups
  rw [spells, same]

theorem spells_one (class? : Char → Bool) :
    (one class?).Spells fun text => ∃ char, class? char = true ∧ text = [char] := by
  intro start text groups
  constructor
  · rintro ⟨char, inside, single, none⟩
    exact ⟨⟨char, inside, single⟩, none⟩
  · rintro ⟨⟨char, inside, single⟩, none⟩
    exact ⟨char, inside, single, none⟩

theorem spells_many (class? : Char → Bool) :
    (many class?).Spells fun text => ∀ char ∈ text, class? char = true :=
  fun _start _text _groups => Iff.rfl

theorem Spells.seq (front : first.Spells language) (back : second.Spells other) :
    (Pattern.seq first second).Spells fun text =>
      ∃ one rest, language one ∧ other rest ∧ text = one ++ rest := by
  intro start text groups
  constructor
  · rintro ⟨one, rest, oneGroups, restGroups, matched, matchedBehind, split, joined⟩
    obtain ⟨inside, rfl⟩ := (front _ _ _).mp matched
    obtain ⟨insideBehind, rfl⟩ := (back _ _ _).mp matchedBehind
    exact ⟨⟨one, rest, inside, insideBehind, split⟩, joined⟩
  · rintro ⟨⟨one, rest, inside, insideBehind, split⟩, none⟩
    exact ⟨one, rest, [], [], (front _ _ _).mpr ⟨inside, rfl⟩,
      (back _ _ _).mpr ⟨insideBehind, rfl⟩, split, none⟩

theorem Spells.maybe (spells : pattern.Spells language) :
    (Pattern.maybe pattern).Spells fun text => text = [] ∨ language text := by
  intro start text groups
  change text = [] ∧ groups = [] ∨ pattern.Matches start text groups ↔ _
  rw [spells, or_and_right]

theorem spells_run (class? : Char → Bool) : (run class?).Spells (IsRun class?) := by
  refine ((spells_one class?).seq (spells_many class?)).of_iff ?_
  intro text
  constructor
  · rintro ⟨_single, rest, ⟨char, inside, rfl⟩, others, rfl⟩
    exact ⟨List.cons_ne_nil _ _, List.forall_mem_cons.mpr ⟨inside, others⟩⟩
  · intro isRun
    obtain ⟨char, others, rfl, inside⟩ := isRun.first
    exact ⟨[char], others, ⟨char, inside, rfl⟩, (List.forall_mem_cons.mp isRun.2).2, rfl⟩

theorem spells_identifier : identifier.Spells IsIdentifier := by
  refine ((spells_one Char.isAlpha).seq (spells_run isNameChar)).of_iff ?_
  intro text
  constructor
  · rintro ⟨_single, rest, ⟨char, letter, rfl⟩, ⟨nonempty, inside⟩, rfl⟩
    exact ⟨char, rest, rfl, letter, nonempty, inside⟩
  · rintro ⟨char, rest, rfl, letter, nonempty, inside⟩
    exact ⟨[char], rest, ⟨char, letter, rfl⟩, ⟨nonempty, inside⟩, rfl⟩

theorem spells_count :
    count.Spells fun text => IsRun Char.isDigit text ∧ text.head? ≠ some '0' := by
  refine ((spells_one _).seq (spells_many Char.isDigit)).of_iff ?_
  intro text
  constructor
  · rintro ⟨_single, rest, ⟨char, leading, rfl⟩, inside, rfl⟩
    obtain ⟨digit, notZero⟩ := (Bool.and_eq_true _ _).mp leading
    refine ⟨⟨List.cons_ne_nil _ _, List.forall_mem_cons.mpr ⟨digit, inside⟩⟩, ?_⟩
    simpa using notZero
  · rintro ⟨isRun, notZero⟩
    obtain ⟨char, others, rfl, digit⟩ := isRun.first
    refine ⟨[char], others, ⟨char, ?_, rfl⟩, (List.forall_mem_cons.mp isRun.2).2, rfl⟩
    rw [digit, Bool.true_and, bne_iff_ne]
    exact fun zero => notZero (congrArg some zero)

theorem spells_comment :
    comment.Spells fun text => text.head? = some ';' ∨ text.head? = some '#' := by
  refine ((spells_one _).seq (spells_many fun _ => true)).of_iff ?_
  intro text
  constructor
  · rintro ⟨_single, rest, ⟨char, mark, rfl⟩, _any, rfl⟩
    simpa using mark
  · intro mark
    cases text with
    | nil => rcases mark with none | none <;> cases none
    | cons char others =>
        refine ⟨[char], others, ⟨char, ?_, rfl⟩, fun _ _ => rfl, rfl⟩
        simpa using mark

private theorem isBinaryChar_iff (char : Char) :
    isBinaryChar char = true ↔ isBinaryDigit char = true ∨ char = '_' := by
  simp only [isBinaryChar, isBinaryDigit, Bool.or_eq_true, beq_iff_eq]

private theorem isBinaryDigit_iff (char : Char) :
    isBinaryDigit char = true ↔ char = '0' ∨ char = '1' := by
  simp only [isBinaryDigit, Bool.or_eq_true, beq_iff_eq]

private theorem ne_underscore {char : Char} (digit : isBinaryDigit char = true) :
    char ≠ '_' := by
  rintro rfl
  cases digit

theorem spells_binaryNumeral : binaryNumeral.Spells IsBinaryNumeral := by
  have digit := spells_one isBinaryDigit
  refine (digit.seq ((spells_many isBinaryChar).seq digit).maybe).of_iff ?_
  intro text
  constructor
  · rintro ⟨_single, rest, ⟨first, leading, rfl⟩, behind, rfl⟩
    have starts : isBinaryChar first = true := (isBinaryChar_iff first).mpr (Or.inl leading)
    have head : ∀ rest, ([first] ++ rest).head? = some '0' ∨ ([first] ++ rest).head? = some '1' :=
      fun _rest => ((isBinaryDigit_iff first).mp leading).imp (congrArg some) (congrArg some)
    rcases behind with rfl | ⟨middle, _ending, inside, ⟨last, trailing, rfl⟩, rfl⟩
    · refine ⟨?_, head [], ?_⟩
      · intro char member
        rw [List.mem_singleton.mp member]
        exact starts
      · exact fun same => ne_underscore leading (Option.some.inj same)
    · refine ⟨?_, head _, ?_⟩
      · intro char member
        rcases List.mem_append.mp member with here | later
        · rw [List.mem_singleton.mp here]
          exact starts
        · rcases List.mem_append.mp later with between | ending
          · exact inside char between
          · rw [List.mem_singleton.mp ending]
            exact (isBinaryChar_iff last).mpr (Or.inl trailing)
      · rw [← List.append_assoc, List.getLast?_concat]
        exact fun same => ne_underscore trailing (Option.some.inj same)
  · rintro ⟨inside, leading, trailing⟩
    cases text with
    | nil => rcases leading with none | none <;> cases none
    | cons first others =>
        have starts : isBinaryDigit first = true :=
          (isBinaryDigit_iff first).mpr (leading.imp Option.some.inj Option.some.inj)
        refine ⟨[first], others, ⟨first, starts, rfl⟩, ?_, rfl⟩
        rcases List.eq_nil_or_concat others with rfl | ⟨middle, last, rfl⟩
        · exact Or.inl rfl
        · rw [List.concat_eq_append] at inside trailing ⊢
          have ends : isBinaryDigit last = true := by
            have among := inside last (by simp)
            refine ((isBinaryChar_iff last).mp among).resolve_right ?_
            rintro rfl
            rw [← List.cons_append, List.getLast?_concat] at trailing
            exact trailing rfl
          refine Or.inr ⟨middle, [last], ?_, ⟨last, ends, rfl⟩, rfl⟩
          intro char member
          exact inside char (List.mem_cons_of_mem _ (List.mem_append_left _ member))

theorem Spells.capture_iff (spells : pattern.Spells language) (start : Nat)
    (text : List Char) (groups : List Span) :
    (capture pattern).Matches start text groups ↔
      language text ∧ groups = [⟨start, start + utf8Length text⟩] := by
  constructor
  · rintro ⟨inner, matched, captured⟩
    obtain ⟨inside, rfl⟩ := (spells _ _ _).mp matched
    exact ⟨inside, captured⟩
  · rintro ⟨inside, captured⟩
    exact ⟨[], (spells _ _ _).mpr ⟨inside, rfl⟩, captured⟩

theorem Spells.part_iff (spells : pattern.Spells language) (expected : List Char) (start : Nat)
    (text : List Char) (groups : List Span) :
    (Pattern.seq (.fixed expected) (.capture pattern)).Matches start text groups ↔
      ∃ part, language part ∧ text = expected ++ part ∧
        groups = [⟨start + utf8Length expected,
          start + utf8Length expected + utf8Length part⟩] := by
  constructor
  · rintro ⟨_front, part, _none, _captured, ⟨rfl, rfl⟩, matched, split, joined⟩
    obtain ⟨inside, rfl⟩ := (spells.capture_iff _ _ _).mp matched
    exact ⟨part, inside, split, joined⟩
  · rintro ⟨part, inside, split, captured⟩
    exact ⟨expected, part, [], _, ⟨rfl, rfl⟩, (spells.capture_iff _ _ _).mpr ⟨inside, rfl⟩, split,
      captured⟩

end Pattern

/-! ### Patterns and lexemes -/

namespace TokenKind

open Pattern

private theorem pattern_iff_of_part (kind : TokenKind) (expected : List Char)
    (make : List Char → Lexeme) (language : List Char → Prop)
    (matched : ∀ text groups, kind.pattern.Matches 0 text groups ↔
      ∃ part, language part ∧ text = expected ++ part ∧
        groups = [⟨0 + utf8Length expected, 0 + utf8Length expected + utf8Length part⟩])
    (kinds : ∀ lexeme : Lexeme, lexeme.kind = kind ↔ ∃ part, lexeme = make part)
    (spelled : ∀ part, (make part).WellSpelled ↔ language part)
    (written : ∀ part, (make part).text = expected ++ part)
    (spans : ∀ part, (make part).spans =
      [⟨0 + utf8Length expected, 0 + utf8Length expected + utf8Length part⟩])
    (text : List Char) (groups : List Span) :
    kind.pattern.Matches 0 text groups ↔
      ∃ lexeme : Lexeme, lexeme.kind = kind ∧ lexeme.WellSpelled ∧ lexeme.text = text ∧
        lexeme.spans = groups := by
  rw [matched]
  constructor
  · rintro ⟨part, inside, rfl, rfl⟩
    exact ⟨make part, (kinds _).mpr ⟨part, rfl⟩, (spelled part).mpr inside, written part,
      spans part⟩
  · rintro ⟨lexeme, isKind, wellSpelled, rfl, rfl⟩
    obtain ⟨part, rfl⟩ := (kinds lexeme).mp isKind
    exact ⟨part, (spelled part).mp wellSpelled, written part, spans part⟩

private theorem pattern_iff_of_whole (kind : TokenKind) (pattern : Pattern)
    (make : List Char → Lexeme) (language : List Char → Prop) (spells : pattern.Spells language)
    (whole : kind.pattern = .capture pattern)
    (kinds : ∀ lexeme : Lexeme, lexeme.kind = kind ↔ ∃ part, lexeme = make part)
    (spelled : ∀ part, (make part).WellSpelled ↔ language part)
    (written : ∀ part, (make part).text = part)
    (spans : ∀ part, (make part).spans = [⟨0, 0 + utf8Length part⟩])
    (text : List Char) (groups : List Span) :
    kind.pattern.Matches 0 text groups ↔
      ∃ lexeme : Lexeme, lexeme.kind = kind ∧ lexeme.WellSpelled ∧ lexeme.text = text ∧
        lexeme.spans = groups := by
  refine pattern_iff_of_part kind [] make language ?_ kinds spelled written spans text groups
  intro text groups
  rw [whole, spells.capture_iff]
  constructor
  · rintro ⟨inside, captured⟩
    exact ⟨text, inside, rfl, captured⟩
  · rintro ⟨_part, inside, rfl, captured⟩
    exact ⟨inside, captured⟩

private theorem pattern_iff_of_range (kind : TokenKind) (separator : List Char)
    (pattern : Pattern) (make : List Char → List Char → Lexeme) (language : List Char → Prop)
    (spells : pattern.Spells language)
    (shape : kind.pattern = .seq (.seq (.fixed ['.', 'p']) (.capture (.run Char.isDigit)))
      (.seq (.fixed separator) (.capture pattern)))
    (kinds : ∀ lexeme : Lexeme, lexeme.kind = kind ↔ ∃ first last, lexeme = make first last)
    (spelled : ∀ first last,
      (make first last).WellSpelled ↔ IsRun Char.isDigit first ∧ language last)
    (written : ∀ first last,
      (make first last).text = ['.', 'p'] ++ first ++ (separator ++ last))
    (spans : ∀ first last, (make first last).spans =
      [⟨0 + utf8Length ['.', 'p'], 0 + utf8Length ['.', 'p'] + utf8Length first⟩,
        ⟨0 + utf8Length ['.', 'p'] + utf8Length first + utf8Length separator,
          0 + utf8Length ['.', 'p'] + utf8Length first + utf8Length separator +
            utf8Length last⟩])
    (text : List Char) (groups : List Span) :
    kind.pattern.Matches 0 text groups ↔
      ∃ lexeme : Lexeme, lexeme.kind = kind ∧ lexeme.WellSpelled ∧ lexeme.text = text ∧
        lexeme.spans = groups := by
  have pin := (spells_run Char.isDigit).part_iff ['.', 'p']
  have behind := spells.part_iff separator
  have bytes : ∀ first, 0 + utf8Length (['.', 'p'] ++ first) =
      0 + utf8Length ['.', 'p'] + utf8Length first := by
    intro first
    rw [utf8Length_append, Nat.add_assoc]
  rw [shape]
  constructor
  · rintro ⟨_front, _back, _frontGroups, _backGroups, isPin, follows, rfl, rfl⟩
    obtain ⟨first, isRun, rfl, rfl⟩ := (pin _ _ _).mp isPin
    obtain ⟨last, inside, rfl, rfl⟩ := (behind _ _ _).mp follows
    rw [bytes]
    exact ⟨make first last, (kinds _).mpr ⟨first, last, rfl⟩,
      (spelled first last).mpr ⟨isRun, inside⟩, written first last, spans first last⟩
  · rintro ⟨lexeme, isKind, wellSpelled, rfl, rfl⟩
    obtain ⟨first, last, rfl⟩ := (kinds lexeme).mp isKind
    obtain ⟨isRun, inside⟩ := (spelled first last).mp wellSpelled
    refine ⟨['.', 'p'] ++ first, separator ++ last, _, _,
      (pin _ _ _).mpr ⟨first, isRun, rfl, rfl⟩, (behind _ _ _).mpr ⟨last, inside, rfl, rfl⟩,
      written first last, ?_⟩
    rw [bytes]
    exact spans first last

theorem pattern_iff (kind : TokenKind) (text : List Char) (groups : List Span) :
    kind.pattern.Matches 0 text groups ↔
      ∃ lexeme : Lexeme, lexeme.kind = kind ∧ lexeme.WellSpelled ∧ lexeme.text = text ∧
        lexeme.spans = groups := by
  cases kind with
  | label =>
      exact pattern_iff_of_part label [':'] .label IsIdentifier (spells_identifier.part_iff [':'] 0)
        (by intro lexeme; cases lexeme <;> simp [Lexeme.kind]) (fun _ => Iff.rfl)
        (fun _ => rfl) (fun _ => rfl) text groups
  | instruction =>
      exact pattern_iff_of_whole instruction (run Char.isAlpha) .instruction _
        (spells_run Char.isAlpha) rfl (by intro lexeme; cases lexeme <;> simp [Lexeme.kind])
        (fun _ => Iff.rfl) (fun _ => rfl) (fun _ => rfl) text groups
  | register =>
      exact pattern_iff_of_part register ['$'] .register _
        ((spells_run Char.isAlphanum).part_iff ['$'] 0)
        (by intro lexeme; cases lexeme <;> simp [Lexeme.kind]) (fun _ => Iff.rfl)
        (fun _ => rfl) (fun _ => rfl) text groups
  | labelArgument =>
      exact pattern_iff_of_whole labelArgument identifier .labelArgument _
        spells_identifier rfl (by intro lexeme; cases lexeme <;> simp [Lexeme.kind])
        (fun _ => Iff.rfl) (fun _ => rfl) (fun _ => rfl) text groups
  | pinRange =>
      exact pattern_iff_of_range pinRange ['.', '.', 'p'] (run Char.isDigit) .pinRange _
        (spells_run Char.isDigit) rfl (by intro lexeme; cases lexeme <;> simp [Lexeme.kind])
        (fun _ _ => Iff.rfl) (fun _ _ => rfl) (fun _ _ => rfl) text groups
  | pinRangeLength =>
      exact pattern_iff_of_range pinRangeLength [':'] count .pinRangeLength _
        spells_count rfl (by intro lexeme; cases lexeme <;> simp [Lexeme.kind])
        (fun _ _ => Iff.rfl) (fun _ _ => rfl) (fun _ _ => rfl) text groups
  | pin =>
      exact pattern_iff_of_part pin ['.', 'p'] .pin _
        ((spells_run Char.isDigit).part_iff ['.', 'p'] 0)
        (by intro lexeme; cases lexeme <;> simp [Lexeme.kind]) (fun _ => Iff.rfl)
        (fun _ => rfl) (fun _ => rfl) text groups
  | binary =>
      exact pattern_iff_of_part binary ['0', 'b'] .binary _
        (spells_binaryNumeral.part_iff ['0', 'b'] 0)
        (by intro lexeme; cases lexeme <;> simp [Lexeme.kind]) (fun _ => Iff.rfl)
        (fun _ => rfl) (fun _ => rfl) text groups
  | hex =>
      exact pattern_iff_of_part hex ['0', 'x'] .hex _
        ((spells_run isHexDigit).part_iff ['0', 'x'] 0)
        (by intro lexeme; cases lexeme <;> simp [Lexeme.kind]) (fun _ => Iff.rfl)
        (fun _ => rfl) (fun _ => rfl) text groups
  | integer =>
      exact pattern_iff_of_whole integer (run Char.isDigit) .integer _
        (spells_run Char.isDigit) rfl (by intro lexeme; cases lexeme <;> simp [Lexeme.kind])
        (fun _ => Iff.rfl) (fun _ => rfl) (fun _ => rfl) text groups
  | whitespace =>
      have spells := spells_run isSpaceOrTab 0 text groups
      constructor
      · intro matched
        obtain ⟨isRun, rfl⟩ := spells.mp matched
        exact ⟨.whitespace text, rfl, isRun, rfl, rfl⟩
      · rintro ⟨lexeme, isKind, wellSpelled, rfl, rfl⟩
        obtain ⟨blanks, rfl⟩ : ∃ blanks, lexeme = .whitespace blanks := by
          cases lexeme <;> cases isKind
          exact ⟨_, rfl⟩
        exact spells.mpr ⟨wellSpelled, rfl⟩
  | comment =>
      exact pattern_iff_of_whole comment .comment .comment _
        spells_comment rfl (by intro lexeme; cases lexeme <;> simp [Lexeme.kind])
        (fun _ => Iff.rfl) (fun _ => rfl) (fun _ => rfl) text groups

end TokenKind

namespace Lexeme

theorem endsAt_nil (lexeme : Lexeme) : lexeme.EndsAt [] := by
  cases lexeme with
  | comment text => rfl
  | _ => exact stops_nil _

theorem WellSpelled.eq_of_text {one other : Lexeme} (spelled : one.WellSpelled)
    (alsoSpelled : other.WellSpelled) (sameKind : one.kind = other.kind)
    (sameText : one.text = other.text) : one = other := by
  have scanned : one.kind.scan? one.text = some (one, []) :=
    (TokenKind.scan?_eq_some_iff _ _ _ _).mpr
      ⟨rfl, spelled, one.endsAt_nil, (List.append_nil _).symm⟩
  have alsoScanned : one.kind.scan? one.text = some (other, []) :=
    (TokenKind.scan?_eq_some_iff _ _ _ _).mpr
      ⟨sameKind.symm, alsoSpelled, other.endsAt_nil, sameText.trans (List.append_nil _).symm⟩
  rw [scanned] at alsoScanned
  cases alsoScanned
  rfl

/-- A well-spelled lexeme belongs to the pattern of its kind, and what is captured there are
its own captured parts and nothing else. -/
theorem WellSpelled.pattern_iff {lexeme : Lexeme} (spelled : lexeme.WellSpelled)
    (groups : List Span) :
    lexeme.kind.pattern.Matches 0 lexeme.text groups ↔ groups = lexeme.spans := by
  rw [TokenKind.pattern_iff]
  constructor
  · rintro ⟨other, sameKind, alsoSpelled, sameText, rfl⟩
    rw [alsoSpelled.eq_of_text spelled sameKind sameText]
  · rintro rfl
    exact ⟨lexeme, rfl, spelled, rfl, rfl⟩

end Lexeme

end PinMachine
