import PinMachine.Text.Span

/-!
Slices. A span of bytes is a slice of a text exactly if the text can be split into what
stands before it, the slice, and what stands behind it, at the bytes that the span says.
-/

namespace PinMachine

@[simp]
theorem utf8Length_nil : utf8Length [] = 0 := rfl

@[simp]
theorem utf8Length_cons (char : Char) (rest : List Char) :
    utf8Length (char :: rest) = char.utf8Size + utf8Length rest := rfl

@[simp]
theorem utf8Length_append (front back : List Char) :
    utf8Length (front ++ back) = utf8Length front + utf8Length back := by
  induction front with
  | nil => rw [List.nil_append, utf8Length_nil, Nat.zero_add]
  | cons char rest ih => rw [List.cons_append, utf8Length_cons, utf8Length_cons, ih, Nat.add_assoc]

theorem cutBytes?_append (front back : List Char) :
    cutBytes? (utf8Length front) (front ++ back) = some (front, back) := by
  induction front with
  | nil => rw [utf8Length_nil, List.nil_append, cutBytes?]
  | cons char rest ih =>
      have positive := char.utf8Size_pos
      obtain ⟨bytes, size⟩ : ∃ bytes, utf8Length (char :: rest) = bytes + 1 :=
        ⟨char.utf8Size + utf8Length rest - 1, by rw [utf8Length_cons]; omega⟩
      rw [size, List.cons_append, cutBytes?, ← size, utf8Length_cons,
        if_pos (Nat.le_add_right _ _), Nat.add_sub_cancel_left, ih]
      rfl

theorem cutBytes?_eq_some_iff (bytes : Nat) (text front back : List Char) :
    cutBytes? bytes text = some (front, back) ↔
      text = front ++ back ∧ utf8Length front = bytes := by
  constructor
  · intro cut
    induction text generalizing bytes front with
    | nil =>
        cases bytes with
        | zero =>
            cases cut
            exact ⟨rfl, rfl⟩
        | succ bytes => cases cut
    | cons char rest ih =>
        cases bytes with
        | zero =>
            cases cut
            exact ⟨rfl, rfl⟩
        | succ bytes =>
            rw [cutBytes?] at cut
            by_cases fits : char.utf8Size ≤ bytes + 1
            · rw [if_pos fits] at cut
              obtain ⟨⟨taken, left⟩, later, same⟩ := Option.map_eq_some_iff.mp cut
              cases same
              obtain ⟨rfl, size⟩ := ih _ taken later
              refine ⟨rfl, ?_⟩
              rw [utf8Length_cons, size]
              omega
            · rw [if_neg fits] at cut
              cases cut
  · rintro ⟨rfl, rfl⟩
    exact cutBytes?_append front back

namespace Span

theorem slice?_eq_some_iff (span : Span) (text part : List Char) :
    span.slice? text = some part ↔
      ∃ before after, text = before ++ part ++ after ∧ utf8Length before = span.start ∧
        utf8Length before + utf8Length part = span.stop := by
  unfold slice?
  constructor
  · intro sliced
    by_cases forward : span.start ≤ span.stop
    · rw [if_pos forward] at sliced
      obtain ⟨⟨before, rest⟩, front, found⟩ := Option.bind_eq_some_iff.mp sliced
      obtain ⟨⟨taken, after⟩, middle, rfl⟩ := Option.map_eq_some_iff.mp found
      obtain ⟨rfl, start⟩ := (cutBytes?_eq_some_iff _ _ _ _).mp front
      obtain ⟨rfl, width⟩ := (cutBytes?_eq_some_iff _ _ _ _).mp middle
      refine ⟨before, after, (List.append_assoc _ _ _).symm, start, ?_⟩
      change utf8Length before + utf8Length taken = span.stop
      omega
    · rw [if_neg forward] at sliced
      cases sliced
  · rintro ⟨before, after, rfl, start, stop⟩
    have front := cutBytes?_append before (part ++ after)
    have middle := cutBytes?_append part after
    have width : span.stop - span.start = utf8Length part := by omega
    rw [if_pos (by omega), width, ← start, List.append_assoc, front, Option.bind_some, middle]
    rfl

/-- A span that ends inside a character is no slice. -/
example : (⟨0, 3⟩ : Span).slice? ['#', ' ', 'ü'] = none := by decide

end Span

end PinMachine
