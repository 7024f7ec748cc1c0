import PinMachine.Proofs.Token.Spelling

/-!
Priority of the patterns. Most kinds of lexemes start with characters of their own, so
the first character of a text leaves a few rivals: the three kinds of pins, and the three
kinds of numbers. What follows the common part decides between these, and so a lexeme
that is well-spelled and properly ended is the one that is found.
-/

namespace PinMachine

theorem TokenKind.scan?_eq_none (kind : TokenKind) (char : Char) (others : List Char)
    (closed : kind.opens char = false) : kind.scan? (char :: others) = none := by
  cases found : kind.scan? (char :: others) with
  | none => rfl
  | some next =>
      obtain ⟨lexeme, rest⟩ := next
      obtain ⟨rfl, spelled, _ends, split⟩ := (kind.scan?_eq_some_iff _ _ _).mp found
      obtain ⟨first, more, written, opens⟩ := spelled.opens
      rw [written, List.cons_append] at split
      cases split
      rw [closed] at opens
      cases opens

/-- The kinds that are tried before a kind. -/
def TokenKind.before (kind : TokenKind) : List TokenKind :=
  TokenKind.all.takeWhile (· != kind)

theorem TokenKind.all_eq_before (kind : TokenKind) :
    ∃ after, TokenKind.all = kind.before ++ kind :: after := by
  cases kind <;> exact ⟨_, rfl⟩

/-- The pattern of a kind decides if the kinds tried before it that are opened by the
same character find nothing. -/
theorem nextLexeme?_of_scan? {leading : Bool} (kind : TokenKind) {char : Char}
    {others : List Char} {found : Lexeme × List Char}
    (allowed : kind.leadsLine = true → leading = true)
    (scanned : kind.scan? (char :: others) = some found)
    (rivals : ∀ other ∈ kind.before, (other.leadsLine = true → leading = true) →
      other.opens char = true → other.scan? (char :: others) = none) :
    nextLexeme? leading (char :: others) = some found := by
  obtain ⟨after, split⟩ := kind.all_eq_before
  unfold nextLexeme?
  rw [List.findSome?_eq_some_iff]
  refine ⟨kind.before, kind, after, split, ?_, ?_⟩
  · have admitted : (kind.leadsLine && !leading) = false := by
      cases leads : kind.leadsLine with
      | false => rfl
      | true => rw [allowed leads]; rfl
    rw [admitted]
    exact scanned
  · intro other earlier
    by_cases refused : (other.leadsLine && !leading) = true
    · rw [if_pos refused]
    · rw [if_neg refused]
      cases opens : other.opens char with
      | false => exact other.scan?_eq_none char others opens
      | true =>
          apply rivals other earlier _ opens
          intro leads
          rw [leads, Bool.true_and] at refused
          simpa using refused

theorem nextLexeme?_of_unrivalled {leading : Bool} (kind : TokenKind) {char : Char}
    {others : List Char} {found : Lexeme × List Char}
    (allowed : kind.leadsLine = true → leading = true)
    (scanned : kind.scan? (char :: others) = some found)
    (alone : ∀ other ∈ kind.before, other.opens char = false) :
    nextLexeme? leading (char :: others) = some found := by
  apply nextLexeme?_of_scan? kind allowed scanned
  intro other earlier _admitted opens
  rw [alone other earlier] at opens
  cases opens

/-- Blanks and comments end a lexeme of any other kind. -/
def isDelimiter (char : Char) : Bool :=
  isSpaceOrTab char || char == ';' || char == '#'

/-- A text is over or starts with a delimiter. -/
def Delimited (rest : List Char) : Prop :=
  ∀ char, rest.head? = some char → isDelimiter char = true

theorem isDelimiter_iff (char : Char) :
    isDelimiter char = true ↔ char = ' ' ∨ char = '\t' ∨ char = ';' ∨ char = '#' := by
  simp only [isDelimiter, isSpaceOrTab, Bool.or_eq_true, beq_iff_eq, or_assoc]

theorem Delimited.stops {rest : List Char} (delimited : Delimited rest) (class? : Char → Bool)
    (outside : class? ' ' = false ∧ class? '\t' = false ∧ class? ';' = false ∧
      class? '#' = false) : Stops class? rest := by
  obtain ⟨space, tab, semicolon, hash⟩ := outside
  intro char first
  rcases (isDelimiter_iff char).mp (delimited char first) with rfl | rfl | rfl | rfl
  · exact space
  · exact tab
  · exact semicolon
  · exact hash

theorem Delimited.endsAt {rest : List Char} (delimited : Delimited rest) (lexeme : Lexeme)
    (notBlank : lexeme.kind ≠ .whitespace) (notComment : lexeme.kind ≠ .comment) :
    lexeme.EndsAt rest := by
  cases lexeme with
  | binary digits =>
      -- No underscore can stand between the digits and a delimiter.
      have kept : rest.dropWhile (· == '_') = rest := by
        cases rest with
        | nil => rfl
        | cons char others =>
            have other := delimited.stops (· == '_') (by decide) char rfl
            rw [List.dropWhile_cons_of_neg]
            simpa using other
      change Stops isBinaryChar (rest.dropWhile (· == '_'))
      rw [kept]
      exact delimited.stops _ (by decide)
  | whitespace blanks => exact False.elim (notBlank rfl)
  | comment text => exact False.elim (notComment rfl)
  | _ => exact delimited.stops _ (by decide)

/-! ### Decisions between rivals -/

private theorem letter_rivals {char : Char} (letter : char.isAlpha = true) :
    ∀ other ∈ TokenKind.labelArgument.before, other.opens char = true →
      other = .instruction := by
  intro other earlier opens
  cases other with
  | instruction => rfl
  | label =>
      rw [beq_iff_eq.mp opens] at letter
      cases letter
  | register =>
      rw [beq_iff_eq.mp opens] at letter
      cases letter
  | _ => exact absurd earlier (by decide)

private theorem isAlpha_of_isDigit {char : Char} (digit : char.isDigit = true) :
    char.isAlpha = false := by
  have last : char.val ≤ '9'.val := of_decide_eq_true ((Bool.and_eq_true _ _).mp digit).2
  rw [Bool.eq_false_iff]
  intro letter
  rcases (Bool.or_eq_true _ _).mp letter with upper | lower
  · have first : 'A'.val ≤ char.val := (of_decide_eq_true upper).1
    exact absurd (UInt32.le_trans first last) (by decide)
  · have first : 'a'.val ≤ char.val := of_decide_eq_true ((Bool.and_eq_true _ _).mp lower).1
    exact absurd (UInt32.le_trans first last) (by decide)

private theorem digit_rivals {char : Char} (digit : char.isDigit = true) :
    ∀ other ∈ TokenKind.integer.before, other.opens char = true →
      char = '0' ∧ (other = .binary ∨ other = .hex) := by
  intro other earlier opens
  have notLetter := isAlpha_of_isDigit digit
  cases other with
  | binary => exact ⟨beq_iff_eq.mp opens, Or.inl rfl⟩
  | hex => exact ⟨beq_iff_eq.mp opens, Or.inr rfl⟩
  | instruction =>
      rw [TokenKind.opens, notLetter] at opens
      cases opens
  | labelArgument =>
      rw [TokenKind.opens, notLetter] at opens
      cases opens
  | integer => exact absurd earlier (by decide)
  | whitespace => exact absurd earlier (by decide)
  | comment => exact absurd earlier (by decide)
  | _ =>
      -- A colon, a dollar sign or a point.
      rw [beq_iff_eq.mp opens] at digit
      cases digit

private theorem pinRange_scan?_eq_none {text first rest : List Char}
    (taken : takePinIndex? text = some (first, rest)) (stops : Stops (· == '.') rest) :
    TokenKind.pinRange.scan? text = none := by
  simp only [TokenKind.scan?, taken]
  split
  · rename_i continues
    cases continues
    cases stops '.' rfl
  · rfl

private theorem pinRangeLength_scan?_eq_none {text first rest : List Char}
    (taken : takePinIndex? text = some (first, rest)) (stops : Stops (· == ':') rest) :
    TokenKind.pinRangeLength.scan? text = none := by
  simp only [TokenKind.scan?, taken]
  split
  · rename_i continues
    cases continues
    cases stops ':' rfl
  · rfl

private theorem binary_scan?_eq_none {rest : List Char} (stops : Stops (· == 'b') rest) :
    TokenKind.binary.scan? ('0' :: rest) = none := by
  simp only [TokenKind.scan?]
  split
  · rename_i continues
    cases continues
    cases stops 'b' rfl
  · rfl

private theorem hex_scan?_eq_none {rest : List Char} (stops : Stops (· == 'x') rest) :
    TokenKind.hex.scan? ('0' :: rest) = none := by
  simp only [TokenKind.scan?]
  split
  · rename_i continues
    cases continues
    cases stops 'x' rfl
  · rfl

private theorem stops_after_digit {mark digit : Char} {digits rest : List Char}
    (run : IsRun Char.isDigit (digit :: digits)) (delimited : Delimited rest)
    (notDelimiter : isDelimiter mark = false) (notDigit : mark.isDigit = false) :
    Stops (· == mark) (digits ++ rest) := by
  intro char first
  rw [beq_eq_false_iff_ne]
  rintro rfl
  cases digits with
  | nil =>
      rw [delimited char first] at notDelimiter
      cases notDelimiter
  | cons second others =>
      cases first
      rw [run.2 char (List.mem_cons_of_mem _ List.mem_cons_self)] at notDigit
      cases notDigit

/-- A well-spelled lexeme that ends where it should is found where its kind is allowed. -/
theorem nextLexeme?_of_wellSpelled (leading : Bool) (lexeme : Lexeme) {rest : List Char}
    (spelled : lexeme.WellSpelled) (ends : lexeme.EndsAt rest)
    (leads : lexeme.kind.leadsLine = true → leading = true)
    (argument : lexeme.kind = .labelArgument → leading = false)
    (delimited : lexeme.kind = .pin ∨ lexeme.kind = .integer → Delimited rest) :
    nextLexeme? leading (lexeme.text ++ rest) = some (lexeme, rest) := by
  have scanned := (lexeme.kind.scan?_eq_some_iff (lexeme.text ++ rest) rest lexeme).mpr
    ⟨rfl, spelled, ends, rfl⟩
  cases lexeme with
  | label name => exact nextLexeme?_of_unrivalled .label leads scanned (by decide)
  | instruction name =>
      obtain ⟨char, others, rfl, letter⟩ := IsRun.first spelled
      have wider : ∀ other ∈ TokenKind.instruction.before,
          other ∈ TokenKind.labelArgument.before ∧ other ≠ .instruction := by decide
      refine nextLexeme?_of_scan? .instruction leads scanned ?_
      intro other earlier _admitted opens
      obtain ⟨within, apart⟩ := wider other earlier
      exact False.elim (apart (letter_rivals letter other within opens))
  | register name => exact nextLexeme?_of_unrivalled .register leads scanned (by decide)
  | labelArgument name =>
      obtain ⟨char, others, rfl, letter, _inside⟩ := spelled
      refine nextLexeme?_of_scan? .labelArgument leads scanned ?_
      intro other earlier admitted opens
      obtain rfl := letter_rivals letter other earlier opens
      rw [argument rfl] at admitted
      cases admitted rfl
  | pinRange first last => exact nextLexeme?_of_unrivalled .pinRange leads scanned (by decide)
  | pinRangeLength first count =>
      have taken : takePinIndex? ('.' :: 'p' :: first ++ ':' :: count ++ rest) =
          some (first, ':' :: count ++ rest) := by
        rw [takePinIndex?_eq_some_iff]
        exact ⟨spelled.1, stops_cons (by decide) _, by simp⟩
      have rival : ∀ other ∈ TokenKind.pinRangeLength.before, other.opens '.' = true →
          other = .pinRange := by decide
      refine nextLexeme?_of_scan? .pinRangeLength leads scanned ?_
      intro other earlier _admitted opens
      obtain rfl := rival other earlier opens
      exact pinRange_scan?_eq_none taken (stops_cons (by decide) _)
  | pin index =>
      have bounded := delimited (Or.inl rfl)
      have taken := (takePinIndex?_eq_some_iff _ index rest).mpr ⟨spelled, ends, rfl⟩
      have rivals : ∀ other ∈ TokenKind.pin.before, other.opens '.' = true →
          other = .pinRange ∨ other = .pinRangeLength := by decide
      refine nextLexeme?_of_scan? .pin leads scanned ?_
      intro other earlier _admitted opens
      rcases rivals other earlier opens with rfl | rfl
      · exact pinRange_scan?_eq_none taken (bounded.stops _ (by decide))
      · exact pinRangeLength_scan?_eq_none taken (bounded.stops _ (by decide))
  | binary digits => exact nextLexeme?_of_unrivalled .binary leads scanned (by decide)
  | hex digits =>
      have rival : ∀ other ∈ TokenKind.hex.before, other.opens '0' = true →
          other = .binary := by decide
      refine nextLexeme?_of_scan? .hex leads scanned ?_
      intro other earlier _admitted opens
      obtain rfl := rival other earlier opens
      exact binary_scan?_eq_none (stops_cons (by decide) _)
  | integer digits =>
      have bounded := delimited (Or.inr rfl)
      obtain ⟨char, others, rfl, digit⟩ := IsRun.first spelled
      refine nextLexeme?_of_scan? .integer leads scanned ?_
      intro other earlier _admitted opens
      obtain ⟨rfl, rfl | rfl⟩ := digit_rivals digit other earlier opens
      · exact binary_scan?_eq_none (stops_after_digit spelled bounded (by decide) (by decide))
      · exact hex_scan?_eq_none (stops_after_digit spelled bounded (by decide) (by decide))
  | whitespace blanks =>
      obtain ⟨char, others, rfl, blank⟩ := IsRun.first spelled
      simp only [isSpaceOrTab, Bool.or_eq_true, beq_iff_eq] at blank
      rcases blank with rfl | rfl
      · exact nextLexeme?_of_unrivalled .whitespace leads scanned (by decide)
      · exact nextLexeme?_of_unrivalled .whitespace leads scanned (by decide)
  | comment text =>
      obtain ⟨char, others, written, opens⟩ := spelled.opens
      cases written
      simp only [Lexeme.kind, TokenKind.opens, Bool.or_eq_true, beq_iff_eq] at opens
      rcases opens with rfl | rfl
      · exact nextLexeme?_of_unrivalled .comment leads scanned (by decide)
      · exact nextLexeme?_of_unrivalled .comment leads scanned (by decide)

theorem nextLexeme?_of_plain (leading : Bool) (lexeme : Lexeme) {rest : List Char}
    (spelled : lexeme.WellSpelled) (ends : lexeme.EndsAt rest)
    (leads : lexeme.kind.leadsLine = true → leading = true)
    (plain : lexeme.kind ≠ .labelArgument ∧ lexeme.kind ≠ .pin ∧ lexeme.kind ≠ .integer) :
    nextLexeme? leading (lexeme.text ++ rest) = some (lexeme, rest) := by
  obtain ⟨notArgument, notPin, notInteger⟩ := plain
  apply nextLexeme?_of_wellSpelled leading lexeme spelled ends leads
  · intro argument
    exact False.elim (notArgument argument)
  · rintro (pin | integer)
    · exact False.elim (notPin pin)
    · exact False.elim (notInteger integer)

theorem nextLexeme?_whitespace (leading : Bool) {blanks rest : List Char}
    (run : IsRun isSpaceOrTab blanks) (stops : Stops isSpaceOrTab rest) :
    nextLexeme? leading (blanks ++ rest) = some (.whitespace blanks, rest) :=
  nextLexeme?_of_plain leading (.whitespace blanks) run stops nofun ⟨nofun, nofun, nofun⟩

theorem nextLexeme?_comment (leading : Bool) {text : List Char}
    (spelled : (Lexeme.comment text).WellSpelled) :
    nextLexeme? leading text = some (.comment text, []) := by
  have whole : text = (Lexeme.comment text).text ++ [] := (List.append_nil text).symm
  nth_rewrite 1 [whole]
  exact nextLexeme?_of_plain leading (.comment text) spelled rfl nofun ⟨nofun, nofun, nofun⟩

theorem nextLexeme?_instruction {word rest : List Char} (run : IsRun Char.isAlpha word)
    (stops : Stops Char.isAlpha rest) :
    nextLexeme? true (word ++ rest) = some (.instruction word, rest) :=
  nextLexeme?_of_plain true (.instruction word) run stops (fun _leads => rfl)
    ⟨nofun, nofun, nofun⟩

theorem nextLexeme?_register (leading : Bool) {name rest : List Char}
    (run : IsRun Char.isAlphanum name) (stops : Stops Char.isAlphanum rest) :
    nextLexeme? leading ('$' :: name ++ rest) = some (.register name, rest) :=
  nextLexeme?_of_plain leading (.register name) run stops nofun ⟨nofun, nofun, nofun⟩

end PinMachine
