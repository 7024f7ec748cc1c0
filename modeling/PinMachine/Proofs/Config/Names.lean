import PinMachine.Config
import PinMachine.Proofs.Text.Numeral

/-!
Register names of a valid configuration. A name of a register that calls save is
the letter `s` and a number; no built-in register is called so, no numbered one,
and a valid configuration does not name one so. Hence the registers that calls
save and those that calls leave alone have no name in common.
-/

namespace PinMachine

namespace Config

variable {config : Config}

private theorem exists_digit_toString (number : Nat) :
    ∃ digit rest, (toString number).toList = digit :: rest ∧ digit.isDigit = true := by
  have allDigits := isDigit_of_mem_toString number
  rw [toString_toList] at allDigits ⊢
  cases digits : Nat.toDigits 10 number with
  | nil => exact False.elim (Nat.toDigits_ne_nil digits)
  | cons digit rest =>
      rw [digits] at allDigits
      exact ⟨digit, rest, rfl, allDigits digit List.mem_cons_self⟩

private theorem numbered_toList (letter : String) (number : Nat) :
    ∃ digit rest, (letter ++ toString number).toList = letter.toList ++ digit :: rest ∧
      digit.isDigit = true := by
  obtain ⟨digit, rest, shown, isDigit⟩ := exists_digit_toString number
  refine ⟨digit, rest, ?_, isDigit⟩
  rw [String.toList_append, shown]

theorem mem_stackRegisterNames_iff (name : String) :
    name ∈ config.stackRegisterNames ↔
      ∃ number, number < config.stackRegisters ∧ "s" ++ toString number = name := by
  simp only [stackRegisterNames, List.mem_map, List.mem_range]

theorem toList_of_mem_stackRegisterNames (name : String)
    (member : name ∈ config.stackRegisterNames) :
    ∃ digit rest, name.toList = 's' :: digit :: rest ∧ digit.isDigit = true := by
  obtain ⟨number, _below, rfl⟩ := (mem_stackRegisterNames_iff name).mp member
  exact numbered_toList "s" number

theorem stackRegisterNames_length :
    config.stackRegisterNames.length = config.stackRegisters := by
  simp only [stackRegisterNames, List.length_map, List.length_range]

private theorem numbered_nodup (letter : String) (count : Nat) :
    ((List.range count).map fun index => letter ++ toString index).Nodup := by
  apply List.Pairwise.map _ _ List.nodup_range
  intro left right apart same
  apply apart
  have digits : Nat.toDigits 10 left = Nat.toDigits 10 right := by
    have texts := congrArg String.toList same
    rw [String.toList_append, String.toList_append] at texts
    simpa [ToString.toString, Nat.repr] using texts
  rw [← Nat.ofDigitChars_ten_toDigits (n := left), digits, Nat.ofDigitChars_ten_toDigits]

theorem stackRegisterNames_nodup (config : Config) : config.stackRegisterNames.Nodup :=
  numbered_nodup "s" config.stackRegisters

theorem basicRegisterNames_nodup (config : Config) : config.basicRegisterNames.Nodup :=
  numbered_nodup "r" config.basicRegisters

theorem toList_of_mem_basicRegisterNames (name : String)
    (member : name ∈ config.basicRegisterNames) :
    ∃ digit rest, name.toList = 'r' :: digit :: rest ∧ digit.isDigit = true := by
  simp only [basicRegisterNames, List.mem_map, List.mem_range] at member
  obtain ⟨number, _below, rfl⟩ := member
  exact numbered_toList "r" number

theorem Valid.named (valid : config.Valid) :
    config.namedRegisters.Nodup ∧ (∀ name ∈ builtinRegisters, name ∉ config.namedRegisters) ∧
      ∀ name ∈ config.namedRegisters, nameProblems name = [] := by
  have whole : config.problems = [] := valid
  simp only [problems, List.append_eq_nil_iff] at whole
  obtain ⟨⟨⟨⟨⟨⟨⟨distinct, builtin⟩, names⟩, _pins⟩, _depth⟩, _stack⟩, _basic⟩, _steps⟩ := whole
  refine ⟨?_, ?_, List.flatMap_eq_nil_iff.mp names⟩
  · by_cases once : config.namedRegisters.Nodup
    · exact once
    · rw [if_neg once] at distinct
      cases distinct
  · intro name isBuiltin named
    rw [List.map_eq_nil_iff, List.filter_eq_nil_iff] at builtin
    exact builtin name isBuiltin (List.contains_iff_mem.mpr named)

theorem Valid.nameProblems_eq_nil (valid : config.Valid) (name : String)
    (member : name ∈ config.namedRegisters) : nameProblems name = [] :=
  valid.named.2.2 name member

theorem Valid.not_named_of_numbered (valid : config.Valid) (name : String) {letter digit : Char}
    {rest : List Char} (shape : name.toList = letter :: digit :: rest)
    (isDigit : digit.isDigit = true) (reserved : letter = 's' ∨ letter = 'r') :
    name ∉ config.namedRegisters := by
  intro member
  have clean := valid.nameProblems_eq_nil name member
  simp only [nameProblems, mimicry, shape, isDigit, List.append_eq_nil_iff] at clean
  rcases reserved with rfl | rfl
  · cases clean.2
  · cases clean.2

theorem Valid.not_mem_general_of_mem_stack (valid : config.Valid) (name : String)
    (member : name ∈ config.stackRegisterNames) :
    name ∉ config.generalRegisterNames := by
  obtain ⟨digit, rest, shape, isDigit⟩ := toList_of_mem_stackRegisterNames name member
  intro general
  simp only [generalRegisterNames, List.mem_append] at general
  rcases general with (builtin | named) | basic
  · simp only [builtinRegisters, List.mem_cons, List.not_mem_nil, or_false] at builtin
    rcases builtin with rfl | rfl | rfl | rfl <;> cases shape
  · exact valid.not_named_of_numbered name shape isDigit (Or.inl rfl) named
  · obtain ⟨other, others, otherShape, _otherDigit⟩ := toList_of_mem_basicRegisterNames name basic
    rw [otherShape] at shape
    cases shape

private theorem nodup_append_of_disjoint {names others : List String} (distinct : names.Nodup)
    (othersDistinct : others.Nodup) (apart : ∀ name ∈ others, name ∉ names) :
    (names ++ others).Nodup := by
  refine List.nodup_append.mpr ⟨distinct, othersDistinct, ?_⟩
  rintro name member other inOthers rfl
  exact apart name inOthers member

theorem Valid.registerNames_nodup (valid : config.Valid) : config.registerNames.Nodup := by
  obtain ⟨named, notBuiltin, _clean⟩ := valid.named
  have builtin : builtinRegisters.Nodup := by decide
  have general : config.generalRegisterNames.Nodup := by
    refine nodup_append_of_disjoint (nodup_append_of_disjoint builtin named ?_)
      config.basicRegisterNames_nodup ?_
    · intro name isNamed isBuiltin
      exact notBuiltin name isBuiltin isNamed
    · intro name basic earlier
      obtain ⟨digit, rest, shape, isDigit⟩ := toList_of_mem_basicRegisterNames name basic
      rcases List.mem_append.mp earlier with isBuiltin | isNamed
      · simp only [builtinRegisters, List.mem_cons, List.not_mem_nil, or_false] at isBuiltin
        rcases isBuiltin with rfl | rfl | rfl | rfl <;> cases shape <;> cases isDigit
      · exact valid.not_named_of_numbered name shape isDigit (Or.inr rfl) isNamed
  exact nodup_append_of_disjoint general config.stackRegisterNames_nodup
    valid.not_mem_general_of_mem_stack

theorem registerNames_length (config : Config) :
    config.registerNames.length =
      4 + config.namedRegisters.length + config.basicRegisters + config.stackRegisters := by
  simp only [registerNames, generalRegisterNames, basicRegisterNames, List.length_append,
    List.length_map, List.length_range, stackRegisterNames_length]
  rfl

/-- Two valid configurations, the large one with all that the small one has and with lines
that take as many steps. -/
structure Within (small large : Config) : Prop where
  small_valid : small.Valid
  large_valid : large.Valid
  named : ∀ name ∈ small.namedRegisters, name ∈ large.namedRegisters
  basic : small.basicRegisters ≤ large.basicRegisters
  stack : small.stackRegisters ≤ large.stackRegisters
  depth : small.stackDepthLimit ≤ large.stackDepthLimit
  pins : small.pins ≤ large.pins
  steps : small.steps = large.steps

variable {small large : Config}

theorem Within.mem_general (within : small.Within large) (name : String)
    (known : name ∈ small.generalRegisterNames) : name ∈ large.generalRegisterNames := by
  simp only [generalRegisterNames, basicRegisterNames, List.mem_append, List.mem_map,
    List.mem_range] at known ⊢
  rcases known with (builtin | named) | ⟨number, below, same⟩
  · exact Or.inl (Or.inl builtin)
  · exact Or.inl (Or.inr (within.named name named))
  · exact Or.inr ⟨number, Nat.lt_of_lt_of_le below within.basic, same⟩

theorem Within.exists_extra (within : small.Within large) :
    ∃ extra, large.stackRegisterNames = small.stackRegisterNames ++ extra ∧
      extra.length = large.stackRegisters - small.stackRegisters := by
  refine ⟨((List.range (large.stackRegisters - small.stackRegisters)).map
    (small.stackRegisters + ·)).map fun index => "s" ++ toString index, ?_, ?_⟩
  · unfold stackRegisterNames
    rw [← List.map_append, ← List.range_add, Nat.add_sub_cancel' within.stack]
  · rw [List.length_map, List.length_map, List.length_range]

theorem Within.mem_stack (within : small.Within large) (name : String)
    (saved : name ∈ small.stackRegisterNames) : name ∈ large.stackRegisterNames := by
  obtain ⟨extra, split, _count⟩ := within.exists_extra
  rw [split]
  exact List.mem_append_left _ saved

theorem Within.mem_registerNames (within : small.Within large) (name : String)
    (known : name ∈ small.registerNames) : name ∈ large.registerNames := by
  rcases List.mem_append.mp known with general | saved
  · exact List.mem_append_left _ (within.mem_general name general)
  · exact List.mem_append_right _ (within.mem_stack name saved)

/-- Calls on the large configuration save no other register of the small one. -/
theorem Within.mem_stack_iff (within : small.Within large) (name : String)
    (known : name ∈ small.registerNames) :
    name ∈ large.stackRegisterNames ↔ name ∈ small.stackRegisterNames := by
  refine ⟨?_, within.mem_stack name⟩
  intro saved
  rcases List.mem_append.mp known with general | alreadySaved
  · have apart := within.large_valid.not_mem_general_of_mem_stack name saved
    exact False.elim (apart (within.mem_general name general))
  · exact alreadySaved

end Config

end PinMachine
