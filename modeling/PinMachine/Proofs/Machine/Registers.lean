import PinMachine.Machine.Registers
import PinMachine.Proofs.Config.Names

/-!
Contents of a register bank. The bank of a configuration keeps its names under
every operation; a write changes one register, and clearing or restoring the
registers that calls save changes these and no others.
-/

namespace PinMachine

namespace RegisterBank

private theorem fst_overwrite (name : String) (value : Word) (cell : String × Word) :
    (overwrite name value cell).1 = cell.1 := by
  unfold overwrite
  by_cases same : cell.1 = name
  · rw [if_pos same, same]
  · rw [if_neg same]

private theorem map_fst_overwrite (name : String) (value : Word)
    (cells : List (String × Word)) :
    (cells.map (overwrite name value)).map Prod.fst = cells.map Prod.fst := by
  rw [List.map_map]
  apply List.map_congr_left
  intro cell _member
  exact fst_overwrite name value cell

private theorem lookup_overwrite (name other : String) (value : Word)
    (cells : List (String × Word)) :
    (cells.map (overwrite name value)).lookup other =
      if other = name then (cells.lookup name).map fun _ => value
      else cells.lookup other := by
  induction cells with
  | nil => by_cases same : other = name <;> simp [same]
  | cons cell rest ih =>
      obtain ⟨key, word⟩ := cell
      rw [List.map_cons, List.lookup_cons, List.lookup_cons, List.lookup_cons, ih]
      by_cases written : key = name
      · subst written
        by_cases same : other = key
        · simp [overwrite, same]
        · have apart : (other == key) = false := beq_false_of_ne same
          simp [overwrite, same, apart]
      · by_cases same : other = name
        · subst same
          have apart : (other == key) = false :=
            beq_false_of_ne fun equal => written equal.symm
          simp [overwrite, written, apart]
        · simp [overwrite, written, same]

theorem lookup_isSome (name : String) (cells : List (String × Word)) :
    (cells.lookup name).isSome = true ↔ name ∈ cells.map Prod.fst := by
  rw [List.lookup_isSome_iff, List.mem_map]
  constructor
  · rintro ⟨cell, member, same⟩
    exact ⟨cell, member, (eq_of_beq same).symm⟩
  · rintro ⟨cell, member, same⟩
    exact ⟨cell, member, by simp [same]⟩

theorem lookup_zeros (name : String) (names : List String) :
    (zeros names).lookup name = if name ∈ names then some 0 else none := by
  induction names with
  | nil => rfl
  | cons first rest ih =>
      change List.lookup name ((first, (0 : Word)) :: zeros rest) = _
      rw [List.lookup_cons, ih]
      by_cases same : name = first
      · simp [same]
      · have apart : (name == first) = false := beq_false_of_ne same
        simp [same, apart]

theorem map_fst_zeros (names : List String) : (zeros names).map Prod.fst = names := by
  unfold zeros
  rw [List.map_map]
  exact List.map_id names

/-- The bank has the registers of a configuration and no others. -/
structure Fits (config : Config) (bank : RegisterBank) : Prop where
  general : bank.general.map Prod.fst = config.generalRegisterNames
  stack : bank.stack.map Prod.fst = config.stackRegisterNames

variable {config : Config} {bank : RegisterBank}

theorem ofConfig_fits (config : Config) : (ofConfig config).Fits config :=
  ⟨map_fst_zeros _, map_fst_zeros _⟩

theorem get?_ofConfig (config : Config) (name : String) (known : name ∈ config.registerNames) :
    (ofConfig config).get? name = some 0 := by
  unfold ofConfig get?
  rw [lookup_zeros, lookup_zeros]
  rcases List.mem_append.mp known with general | saved
  · rw [if_pos general]
    rfl
  · rw [if_pos saved]
    by_cases general : name ∈ config.generalRegisterNames
    · rw [if_pos general]
      rfl
    · rw [if_neg general]
      rfl

theorem Fits.names_eq (fits : bank.Fits config) : bank.names = config.registerNames := by
  unfold names cells Config.registerNames
  rw [List.map_append, fits.general, fits.stack]

theorem contains_iff (bank : RegisterBank) (name : String) :
    bank.contains name = true ↔ name ∈ bank.names := by
  unfold contains get? names cells
  rw [Option.isSome_or, Bool.or_eq_true, lookup_isSome, lookup_isSome, List.map_append,
    List.mem_append]

theorem Fits.exists_get? (fits : bank.Fits config) (name : String)
    (known : name ∈ config.registerNames) : ∃ value, bank.get? name = some value := by
  have contained : bank.contains name = true := by
    rw [bank.contains_iff, fits.names_eq]
    exact known
  exact Option.isSome_iff_exists.mp contained

theorem get_eq_ok_iff (bank : RegisterBank) (name : String) (value : Word) :
    bank.get name = .ok value ↔ bank.get? name = some value := by
  unfold get
  cases found : bank.get? name with
  | none => simp
  | some word => simp

def write (bank : RegisterBank) (name : String) (value : Word) : RegisterBank :=
  ⟨bank.general.map (overwrite name value), bank.stack.map (overwrite name value)⟩

theorem set_eq_write (bank : RegisterBank) (name : String) (value : Word)
    (known : name ∈ bank.names) : bank.set name value = .ok (bank.write name value) := by
  unfold set
  rw [if_pos ((bank.contains_iff name).mpr known)]
  rfl

theorem set_eq_error (bank : RegisterBank) (name : String) (value : Word)
    (unknown : name ∉ bank.names) :
    bank.set name value = .error (.unknownRegister name) := by
  unfold set
  rw [if_neg (fun contained => unknown ((bank.contains_iff name).mp contained))]

theorem Fits.write (fits : bank.Fits config) (name : String) (value : Word) :
    (bank.write name value).Fits config := by
  constructor
  · exact (map_fst_overwrite name value bank.general).trans fits.general
  · exact (map_fst_overwrite name value bank.stack).trans fits.stack

theorem get?_write (bank : RegisterBank) (name other : String) (value : Word)
    (known : name ∈ bank.names) :
    (bank.write name value).get? other =
      if other = name then some value else bank.get? other := by
  unfold RegisterBank.write get?
  rw [lookup_overwrite, lookup_overwrite]
  by_cases same : other = name
  · rw [if_pos same, if_pos same, if_pos same]
    have contained := (bank.contains_iff name).mpr known
    unfold contains get? at contained
    cases inGeneral : bank.general.lookup name with
    | some word => rfl
    | none =>
        rw [inGeneral, Option.none_or] at contained
        obtain ⟨word, inStack⟩ := Option.isSome_iff_exists.mp contained
        rw [inStack]
        rfl
  · rw [if_neg same, if_neg same, if_neg same]

theorem Fits.clearStack (fits : bank.Fits config) : bank.clearStack.Fits config := by
  constructor
  · exact fits.general
  · exact (map_fst_zeros _).trans fits.stack

theorem Fits.stackWords_length (fits : bank.Fits config) :
    bank.stackWords.length = config.stackRegisters := by
  have counted := congrArg List.length fits.stack
  rw [List.length_map, Config.stackRegisterNames_length] at counted
  unfold stackWords
  rw [List.length_map, counted]

theorem Fits.restoreStack (fits : bank.Fits config) (saved : List Word)
    (width : saved.length = config.stackRegisters) :
    (bank.restoreStack saved).Fits config := by
  constructor
  · exact fits.general
  · change ((bank.stack.map Prod.fst).zip saved).map Prod.fst = _
    rw [fits.stack]
    apply List.map_fst_zip
    exact Nat.le_of_eq (Config.stackRegisterNames_length.trans width.symm)

theorem Fits.get?_of_mem_stack (fits : bank.Fits config) (valid : config.Valid)
    (name : String) (saved : name ∈ config.stackRegisterNames) :
    bank.get? name = bank.stack.lookup name := by
  have absent : bank.general.lookup name = none := by
    rw [← Option.not_isSome_iff_eq_none, lookup_isSome, fits.general]
    exact valid.not_mem_general_of_mem_stack name saved
  unfold get?
  rw [absent, Option.none_or]

theorem Fits.get?_of_not_mem_stack (fits : bank.Fits config) (name : String)
    (general : name ∉ config.stackRegisterNames) :
    bank.get? name = bank.general.lookup name := by
  have absent : bank.stack.lookup name = none := by
    rw [← Option.not_isSome_iff_eq_none, lookup_isSome, fits.stack]
    exact general
  unfold get?
  rw [absent, Option.or_none]

theorem Fits.get?_clearStack (fits : bank.Fits config) (valid : config.Valid)
    (name : String) :
    bank.clearStack.get? name =
      if name ∈ config.stackRegisterNames then some 0 else bank.get? name := by
  by_cases saved : name ∈ config.stackRegisterNames
  · rw [if_pos saved, fits.clearStack.get?_of_mem_stack valid name saved]
    change (zeros (bank.stack.map Prod.fst)).lookup name = _
    rw [fits.stack, lookup_zeros, if_pos saved]
  · rw [if_neg saved, fits.clearStack.get?_of_not_mem_stack name saved,
      fits.get?_of_not_mem_stack name saved]
    rfl

theorem Fits.get?_restoreStack (fits : bank.Fits config) (valid : config.Valid)
    (saved : List Word) (width : saved.length = config.stackRegisters) (name : String) :
    (bank.restoreStack saved).get? name =
      if name ∈ config.stackRegisterNames then
        (config.stackRegisterNames.zip saved).lookup name
      else bank.get? name := by
  have restored := fits.restoreStack saved width
  by_cases member : name ∈ config.stackRegisterNames
  · rw [if_pos member, restored.get?_of_mem_stack valid name member]
    change ((bank.stack.map Prod.fst).zip saved).lookup name = _
    rw [fits.stack]
  · rw [if_neg member, restored.get?_of_not_mem_stack name member,
      fits.get?_of_not_mem_stack name member]
    rfl

/-- The saved words, read under their names, are the registers they were saved
from. -/
theorem Fits.lookup_zip_stackWords (fits : bank.Fits config) (valid : config.Valid)
    (name : String) (member : name ∈ config.stackRegisterNames) :
    (config.stackRegisterNames.zip bank.stackWords).lookup name = bank.get? name := by
  have whole : config.stackRegisterNames.zip bank.stackWords = bank.stack := by
    rw [← fits.stack]
    exact (List.zip_of_prod rfl rfl).symm
  rw [whole, fits.get?_of_mem_stack valid name member]

private theorem map_lookup_of_nodup (cells : List (String × Word))
    (distinct : (cells.map Prod.fst).Nodup) :
    (cells.map Prod.fst).map (fun name => (cells.lookup name).getD 0) =
      cells.map Prod.snd := by
  induction cells with
  | nil => rfl
  | cons cell rest ih =>
      obtain ⟨first, word⟩ := cell
      rw [List.map_cons, List.nodup_cons] at distinct
      obtain ⟨fresh, distinct⟩ := distinct
      rw [List.map_cons, List.map_cons, List.map_cons, ← ih distinct]
      congr 1
      · simp only [List.lookup_cons, beq_self_eq_true, Option.getD_some]
      · apply List.map_congr_left
        intro name member
        have apart : (name == first) = false :=
          beq_false_of_ne fun equal => fresh (equal ▸ member)
        simp only [List.lookup_cons, apart]

theorem Fits.stackWords_eq (fits : bank.Fits config) (valid : config.Valid) :
    bank.stackWords = config.stackRegisterNames.map fun name => (bank.get? name).getD 0 := by
  have distinct : (bank.stack.map Prod.fst).Nodup := by
    rw [fits.stack]
    exact config.stackRegisterNames_nodup
  unfold stackWords
  rw [← map_lookup_of_nodup bank.stack distinct, fits.stack]
  apply List.map_congr_left
  intro name member
  rw [fits.get?_of_mem_stack valid name member]

end RegisterBank

end PinMachine
