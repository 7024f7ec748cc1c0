import Mathlib.Data.List.Perm.Basic
import PinMachine.Proofs.Validation.WellFormed

/-!
Resolution of instructions. What a name and the kinds of its arguments resolve to is said
here without the search: the first kind that is never an argument, else the earliest
definition of the name that admits the arguments, and an error if there is none. Definitions
of other names play no part in it, and those that are appended later come into play only
where nothing was found before.
-/

namespace PinMachine

/-- There is one parameter for each argument, and each shares a category with it. -/
def Definition.Admits (definition : Definition) (kinds : List TokenKind) : Prop :=
  List.Forall₂ (fun parameter kind => ∃ category, TokenKind.category? kind = some category ∧
    ParameterKinds.intersects parameter category = true) definition.parameters kinds

/-- The categories of some kinds, none of which is never an argument. -/
def Categorized (kinds : List TokenKind) (categories : List ParameterKinds) : Prop :=
  List.Forall₂ (fun kind category => TokenKind.category? kind = some category) kinds categories

/-- What a name and the kinds of its arguments resolve to. -/
inductive Catalog.Resolves (catalog : Catalog) (name : String) :
    List TokenKind → Except ResolveError Definition → Prop
  | invalid (earlier later : List TokenKind) (kind : TokenKind)
      (categories : List ParameterKinds) (arguments : Categorized earlier categories)
      (never : kind.category? = none) :
      Resolves catalog name (earlier ++ kind :: later) (.error (.invalidArgumentKind kind))
  | unknown (kinds : List TokenKind) (categories : List ParameterKinds)
      (arguments : Categorized kinds categories)
      (absent : ∀ definition ∈ catalog.definitions, definition.name ≠ name) :
      Resolves catalog name kinds (.error (.unknownName name))
  | found (kinds : List TokenKind) (earlier later : List Definition) (definition : Definition)
      (declared : catalog.definitions = earlier ++ definition :: later)
      (named : definition.name = name) (admits : definition.Admits kinds)
      (first : ∀ other ∈ earlier, other.name = name → ¬ other.Admits kinds) :
      Resolves catalog name kinds (.ok definition)
  | unmatched (kinds : List TokenKind) (categories : List ParameterKinds)
      (arguments : Categorized kinds categories) (definition : Definition)
      (declared : definition ∈ catalog.definitions) (named : definition.name = name)
      (none : ∀ other ∈ catalog.definitions, other.name = name → ¬ other.Admits kinds) :
      Resolves catalog name kinds (.error (.noMatchingOverload name categories))

theorem Definition.admits_iff_takes (definition : Definition) (kinds : List TokenKind) :
    definition.Admits kinds ↔ definition.Takes kinds := by
  constructor
  · intro admits
    refine admits.imp ?_
    rintro parameter kind ⟨category, categorized, meets⟩
    rw [parameter.intersects_category kind category categorized] at meets
    exact ⟨category, categorized, meets⟩
  · intro takes
    refine takes.imp ?_
    rintro parameter kind ⟨category, categorized, contained⟩
    rw [← parameter.intersects_category kind category categorized] at contained
    exact ⟨category, categorized, contained⟩

theorem Categorized.mapM_eq {kinds : List TokenKind} {categories : List ParameterKinds}
    (categorized : Categorized kinds categories) :
    kinds.mapM TokenKind.category = .ok categories :=
  (mapM_category_iff kinds categories).mpr categorized

theorem Definition.admits_iff_accepts (definition : Definition) {kinds : List TokenKind}
    {categories : List ParameterKinds} (categorized : Categorized kinds categories) :
    definition.Admits kinds ↔ definition.accepts categories = true := by
  rw [admits_iff_takes, takes_iff]
  constructor
  · rintro ⟨others, read, accepts⟩
    rw [categorized.mapM_eq] at read
    cases read
    exact accepts
  · exact fun accepts => ⟨categories, categorized.mapM_eq, accepts⟩

theorem Categorized.mapM_append_never {earlier : List TokenKind}
    {categories : List ParameterKinds} (categorized : Categorized earlier categories)
    (later : List TokenKind) {kind : TokenKind} (never : kind.category? = none) :
    (earlier ++ kind :: later).mapM TokenKind.category = .error (.invalidArgumentKind kind) := by
  rw [List.mapM_append, categorized.mapM_eq]
  change (do let others ← (kind :: later).mapM TokenKind.category; _) = _
  rw [List.mapM_cons, TokenKind.category, never]
  rfl

theorem exists_categorized (kinds : List TokenKind) :
    (∃ categories, Categorized kinds categories) ∨
      ∃ earlier kind later categories, kinds = earlier ++ kind :: later ∧
        Categorized earlier categories ∧ kind.category? = none := by
  induction kinds with
  | nil => exact .inl ⟨[], .nil⟩
  | cons kind rest ih =>
      cases found : kind.category? with
      | none => exact .inr ⟨[], kind, rest, [], rfl, .nil, found⟩
      | some category =>
          rcases ih with ⟨categories, categorized⟩ |
            ⟨earlier, other, later, categories, rfl, categorized, never⟩
          · exact .inl ⟨category :: categories, .cons found categorized⟩
          · exact .inr ⟨kind :: earlier, other, later, category :: categories, rfl,
              .cons found categorized, never⟩

namespace Catalog

theorem resolve_of_categorized (catalog : Catalog) (name : String) {kinds : List TokenKind}
    {categories : List ParameterKinds} (categorized : Categorized kinds categories) :
    catalog.resolve name kinds = select name (catalog.overloads name) categories := by
  rw [resolve, categorized.mapM_eq]
  rfl

theorem select_of_find? (name : String) {overloads : List Definition}
    {categories : List ParameterKinds} {definition : Definition}
    (found : overloads.find? (fun other => other.accepts categories) = some definition) :
    select name overloads categories = .ok definition := by
  cases overloads with
  | nil => cases found
  | cons one others =>
      unfold select
      rw [found]

theorem select_of_find?_eq_none (name : String) {overloads : List Definition}
    {categories : List ParameterKinds} {definition : Definition} (declared : definition ∈ overloads)
    (none : overloads.find? (fun other => other.accepts categories) = none) :
    select name overloads categories = .error (.noMatchingOverload name categories) := by
  cases overloads with
  | nil => cases declared
  | cons one others =>
      unfold select
      rw [none]

theorem mem_overloads_iff (catalog : Catalog) (name : String) (definition : Definition) :
    definition ∈ catalog.overloads name ↔
      definition ∈ catalog.definitions ∧ definition.name = name := by
  rw [overloads, List.mem_filter, beq_iff_eq]

theorem Resolves.resolve_eq {catalog : Catalog} {name : String} {kinds : List TokenKind}
    {result : Except ResolveError Definition} (resolves : catalog.Resolves name kinds result) :
    catalog.resolve name kinds = result := by
  cases resolves with
  | invalid earlier later kind categories categorized never =>
      rw [resolve, categorized.mapM_append_never later never]
      rfl
  | unknown _kinds categories categorized absent =>
      have none : catalog.overloads name = [] := by
        rw [List.eq_nil_iff_forall_not_mem]
        intro definition member
        obtain ⟨declared, named⟩ := (catalog.mem_overloads_iff name definition).mp member
        exact absent definition declared named
      rw [catalog.resolve_of_categorized name categorized, none]
      rfl
  | found _kinds earlier later definition declared named admits first =>
      obtain ⟨categories, read, accepts⟩ :=
        (definition.takes_iff kinds).mp ((definition.admits_iff_takes kinds).mp admits)
      have categorized : Categorized kinds categories := (mapM_category_iff _ _).mp read
      rw [catalog.resolve_of_categorized name categorized]
      apply select_of_find?
      rw [List.find?_eq_some_iff_append]
      refine ⟨accepts, earlier.filter (fun other => other.name == name),
        later.filter (fun other => other.name == name), ?_, ?_⟩
      · rw [overloads, declared, List.filter_append, List.filter_cons,
          if_pos (beq_iff_eq.mpr named)]
      · intro other member
        obtain ⟨before, sameName⟩ := List.mem_filter.mp member
        have refused := first other before (beq_iff_eq.mp sameName)
        rw [other.admits_iff_accepts categorized] at refused
        simpa using refused
  | unmatched _kinds categories categorized definition declared named none =>
      rw [catalog.resolve_of_categorized name categorized]
      apply select_of_find?_eq_none name
        ((catalog.mem_overloads_iff name definition).mpr ⟨declared, named⟩)
      rw [List.find?_eq_none]
      intro other member accepts
      obtain ⟨alsoDeclared, sameName⟩ := (catalog.mem_overloads_iff name other).mp member
      exact none other alsoDeclared sameName ((other.admits_iff_accepts categorized).mpr accepts)

theorem exists_resolves (catalog : Catalog) (name : String) (kinds : List TokenKind) :
    ∃ result, catalog.Resolves name kinds result := by
  rcases exists_categorized kinds with ⟨categories, categorized⟩ |
    ⟨earlier, kind, later, categories, rfl, categorized, never⟩
  · by_cases known : ∃ definition ∈ catalog.definitions, definition.name = name
    · obtain ⟨definition, declared, named⟩ := known
      cases found : catalog.definitions.find?
          (fun other => other.name == name && other.accepts categories) with
      | none =>
          rw [List.find?_eq_none] at found
          refine ⟨_, .unmatched kinds categories categorized definition declared named ?_⟩
          intro other alsoDeclared sameName admits
          apply found other alsoDeclared
          rw [Bool.and_eq_true, beq_iff_eq]
          exact ⟨sameName, (other.admits_iff_accepts categorized).mp admits⟩
      | some first =>
          obtain ⟨chosen, earlier, later, split, before⟩ :=
            List.find?_eq_some_iff_append.mp found
          rw [Bool.and_eq_true, beq_iff_eq] at chosen
          refine ⟨_, .found kinds earlier later first split chosen.1
            ((first.admits_iff_accepts categorized).mpr chosen.2) ?_⟩
          intro other inFront sameName admits
          have accepts := (other.admits_iff_accepts categorized).mp admits
          have refused := before other inFront
          rw [accepts, beq_iff_eq.mpr sameName] at refused
          cases refused
    · refine ⟨_, .unknown kinds categories categorized ?_⟩
      exact fun definition declared named => known ⟨definition, declared, named⟩
  · exact ⟨_, .invalid earlier later kind categories categorized never⟩

theorem resolve_eq_iff (catalog : Catalog) (name : String) (kinds : List TokenKind)
    (result : Except ResolveError Definition) :
    catalog.resolve name kinds = result ↔ catalog.Resolves name kinds result := by
  refine ⟨?_, Resolves.resolve_eq⟩
  rintro rfl
  obtain ⟨other, resolves⟩ := catalog.exists_resolves name kinds
  rw [resolves.resolve_eq]
  exact resolves

/-! ### Other catalogs -/

/-- The overloads of a name are all that its resolution looks at. -/
theorem resolve_congr {catalog other : Catalog} {name : String}
    (same : other.overloads name = catalog.overloads name) (kinds : List TokenKind) :
    other.resolve name kinds = catalog.resolve name kinds := by
  rw [resolve, resolve, same]

/-- Among definitions of other names the overloads of a name are found again, as long as
they stand in the same order. -/
theorem overloads_of_mixed (catalog : Catalog) (name : String) {others mixed : List Definition}
    (apart : ∀ definition ∈ others, definition.name ≠ name)
    (kept : (catalog.overloads name).Sublist mixed)
    (mixes : mixed.Perm (catalog.overloads name ++ others)) :
    (Catalog.mk mixed).overloads name = catalog.overloads name := by
  have own : (catalog.overloads name).filter (fun other => other.name == name) =
      catalog.overloads name := by
    rw [List.filter_eq_self]
    exact fun definition member => (List.mem_filter.mp member).2
  have foreign : others.filter (fun other => other.name == name) = [] := by
    rw [List.filter_eq_nil_iff]
    exact fun definition member same => apart definition member (beq_iff_eq.mp same)
  have count := (mixes.filter fun other => other.name == name).length_eq
  rw [List.filter_append, own, foreign, List.append_nil] at count
  have inOrder := kept.filter fun other => other.name == name
  rw [own] at inOrder
  exact (inOrder.eq_of_length count.symm).symm

/-- The catalog with further definitions behind its own. -/
def append (catalog : Catalog) (appended : List Definition) : Catalog :=
  ⟨catalog.definitions ++ appended⟩

theorem resolve_append_of_ok {catalog : Catalog} {name : String} {kinds : List TokenKind}
    {definition : Definition} (resolved : catalog.resolve name kinds = .ok definition)
    (appended : List Definition) :
    (catalog.append appended).resolve name kinds = .ok definition := by
  rw [resolve_eq_iff] at resolved ⊢
  cases resolved with
  | found _kinds earlier later _definition declared named admits first =>
      refine .found kinds earlier (later ++ appended) definition ?_ named admits first
      rw [append, declared, List.append_assoc, List.cons_append]

theorem exists_resolve_append_iff {catalog : Catalog} {name : String} {kinds : List TokenKind}
    {categories : List ParameterKinds}
    (unresolved : catalog.resolve name kinds = .error (.noMatchingOverload name categories))
    (appended : List Definition) :
    (∃ definition, (catalog.append appended).resolve name kinds = .ok definition) ↔
      ∃ definition ∈ appended, definition.name = name ∧ definition.Admits kinds := by
  rw [exists_resolve_iff]
  simp only [← Definition.admits_iff_takes]
  constructor
  · rintro ⟨definition, declared, named, admits⟩
    rcases List.mem_append.mp declared with own | new
    · rw [resolve_eq_iff] at unresolved
      cases unresolved with
      | unmatched _kinds _categories _categorized _definition _declared _named none =>
          exact False.elim (none definition own named admits)
    · exact ⟨definition, new, named, admits⟩
  · rintro ⟨definition, new, named, admits⟩
    exact ⟨definition, List.mem_append_right _ new, named, admits⟩

/-- Resolution finds the first match and nothing else. It depends on the overloads of the
name in their order, wherever definitions of other names stand; later definitions leave
what was found as it is, and make good a missing overload exactly if one of them admits the
arguments. -/
theorem resolution_is_first_match (catalog : Catalog) (name : String) (kinds : List TokenKind) :
    (∀ result, catalog.resolve name kinds = result ↔ catalog.Resolves name kinds result) ∧
      (∀ other : Catalog, other.overloads name = catalog.overloads name →
        other.resolve name kinds = catalog.resolve name kinds) ∧
      (∀ others mixed : List Definition, (∀ definition ∈ others, definition.name ≠ name) →
        (catalog.overloads name).Sublist mixed →
        mixed.Perm (catalog.overloads name ++ others) →
          (Catalog.mk mixed).resolve name kinds = catalog.resolve name kinds) ∧
      ∀ appended : List Definition,
        (∀ definition, catalog.resolve name kinds = .ok definition →
          (catalog.append appended).resolve name kinds = .ok definition) ∧
        ∀ categories, catalog.resolve name kinds = .error (.noMatchingOverload name categories) →
          ((∃ definition, (catalog.append appended).resolve name kinds = .ok definition) ↔
            ∃ definition ∈ appended, definition.name = name ∧ definition.Admits kinds) := by
  refine ⟨catalog.resolve_eq_iff name kinds, ?_, ?_, ?_⟩
  · exact fun other same => resolve_congr same kinds
  · intro others mixed apart kept mixes
    exact resolve_congr (catalog.overloads_of_mixed name apart kept mixes) kinds
  · intro appended
    refine ⟨fun definition resolved => resolve_append_of_ok resolved appended, ?_⟩
    exact fun categories unresolved => exists_resolve_append_iff unresolved appended

/-- A definition that does nothing. -/
def idle (name : String) (parameters : List ParameterKinds) : Definition :=
  ⟨name, parameters, fun _ => .done ()⟩

/-- Two overloads of one name that both take a constant. -/
def overlapping : Catalog :=
  ⟨[idle "mov" [.registerOrConstant], idle "mov" [.onlyConstant]]⟩

/-- The earlier overload wins, also among definitions of another name. A comment is refused
for an unknown name as well, and a pin is taken once an overload for pins is appended. -/
theorem resolution_is_first_match_among_overlapping :
    overlapping.resolve "mov" [.integer] = .ok (idle "mov" [.registerOrConstant]) ∧
      (Catalog.mk [idle "add" [], idle "mov" [.registerOrConstant], idle "add" [],
        idle "mov" [.onlyConstant]]).resolve "mov" [.integer] =
          .ok (idle "mov" [.registerOrConstant]) ∧
      overlapping.resolve "jmp" [.integer, .comment] =
        .error (.invalidArgumentKind .comment) ∧
      overlapping.resolve "mov" [.pin] =
        .error (.noMatchingOverload "mov" [.onlyPinSingle]) ∧
      ∃ definition, (overlapping.append [idle "add" [.anyPins], idle "mov" [.anyPins]]).resolve
        "mov" [.pin] = .ok definition := by
  have wide : overlapping.resolve "mov" [.integer] =
      .ok (idle "mov" [.registerOrConstant]) := rfl
  have unmatched : overlapping.resolve "mov" [.pin] =
      .error (.noMatchingOverload "mov" [.onlyPinSingle]) := rfl
  obtain ⟨_meaning, _congruence, mixing, _appending⟩ :=
    resolution_is_first_match overlapping "mov" [.integer]
  obtain ⟨_pinMeaning, _pinCongruence, _pinMixing, appending⟩ :=
    resolution_is_first_match overlapping "mov" [.pin]
  have kept : (overlapping.overloads "mov").Sublist
      [idle "add" [], idle "mov" [.registerOrConstant], idle "add" [],
        idle "mov" [.onlyConstant]] :=
    .cons _ (.cons_cons _ (.cons _ (.refl _)))
  have moved : [idle "add" [], idle "add" [], idle "mov" [.onlyConstant]].Perm
      [idle "mov" [.onlyConstant], idle "add" [], idle "add" []] :=
    List.perm_append_singleton _ [idle "add" [], idle "add" []]
  have mixed := mixing [idle "add" [], idle "add" []] _ (by decide) kept
    ((List.Perm.swap _ _ _).trans (moved.cons _))
  have appended := (appending [idle "add" [.anyPins], idle "mov" [.anyPins]]).2 _ unmatched
  refine ⟨wide, mixed.trans wide, rfl, unmatched, appended.mpr ?_⟩
  exact ⟨idle "mov" [.anyPins], by simp, rfl, .cons ⟨.onlyPinSingle, rfl, rfl⟩ .nil⟩

end Catalog

end PinMachine
