import PinMachine.Action

/-!
Effects of actions. Apart from its trace, an action is a function from a machine
to a result and a machine. Actions in sequence have their effects in sequence,
every single request has the effect of serving it, and whatever all requests
preserve is preserved by every action.
-/

namespace PinMachine

namespace Action

variable {α β : Type}

/-- What performing an action does: its result, and the machine after it. -/
def effect (action : Action α) (machine : Machine) : Except Fault α × Machine :=
  ((action.perform machine).result, (action.perform machine).machine)

@[simp]
theorem effect_pure (result : α) (machine : Machine) :
    (pure result : Action α).effect machine = (.ok result, machine) := rfl

@[simp]
theorem effect_raise (fault : Fault) (machine : Machine) :
    (Action.raise fault : Action α).effect machine = (.error fault, machine) := rfl

theorem effect_call (request : Request) (resume : request.Answer → Action α)
    (machine : Machine) :
    (Action.call request resume).effect machine =
      (resume (machine.serve request).1).effect (machine.serve request).2 := rfl

theorem effect_tell (reply : Reply) (next : Action α) (machine : Machine) :
    (Action.tell reply next).effect machine = next.effect machine := rfl

theorem effect_bind (action : Action α) (next : α → Action β) (machine : Machine) :
    (action >>= next).effect machine =
      match action.effect machine with
      | (.ok result, performed) => (next result).effect performed
      | (.error fault, performed) => (.error fault, performed) := by
  change (action.bind next).effect machine = _
  induction action generalizing machine with
  | done result => rfl
  | raise fault => rfl
  | call request resume ih =>
      rw [effect_call]
      exact ih (machine.serve request).1 (machine.serve request).2
  | tell reply rest ih =>
      rw [effect_tell]
      exact ih machine

theorem effect_bind_ok (action : Action α) (next : α → Action β) (result : α)
    (machine performed : Machine) (succeeds : action.effect machine = (.ok result, performed)) :
    (action >>= next).effect machine = (next result).effect performed := by
  rw [effect_bind, succeeds]

@[simp]
theorem effect_ofExcept (result : Except Fault α) (machine : Machine) :
    (ofExcept result).effect machine = (result, machine) := by
  cases result <;> rfl

@[simp]
theorem effect_pushFrame (machine : Machine) :
    pushFrame.effect machine = machine.pushFrame := by
  unfold pushFrame
  rw [effect_bind]
  exact effect_ofExcept _ _

@[simp]
theorem effect_popFrame (machine : Machine) :
    popFrame.effect machine = machine.popFrame := by
  unfold popFrame
  rw [effect_bind]
  exact effect_ofExcept _ _

@[simp]
theorem effect_jump (address : Nat) (machine : Machine) :
    (jump address).effect machine = (.ok (), machine.jump address) := rfl

@[simp]
theorem effect_jumpToLabel (label : String) (machine : Machine) :
    (jumpToLabel label).effect machine = (.ok (), machine.jumpToLabel label) := rfl

@[simp]
theorem effect_sleep (steps : Nat) (machine : Machine) :
    (sleep steps).effect machine = (.ok (), machine.sleep steps) := rfl

@[simp]
theorem effect_labelAddress (label : String) (machine : Machine) :
    (labelAddress label).effect machine = (.ok (machine.labelAddress? label), machine) := rfl

@[simp]
theorem effect_register (name : String) (machine : Machine) :
    (register name).effect machine = (machine.registers.get name, machine) := by
  unfold register
  rw [effect_bind]
  exact effect_ofExcept _ _

@[simp]
theorem effect_setRegister (name : String) (value : Word) (machine : Machine) :
    (setRegister name value).effect machine = machine.setRegister name value := by
  unfold setRegister
  rw [effect_bind]
  exact effect_ofExcept _ _

@[simp]
theorem effect_setPins (range : PinRange) (bits : List Bool) (machine : Machine) :
    (setPins range bits).effect machine = machine.setPins range bits := by
  unfold setPins
  rw [effect_bind]
  exact effect_ofExcept _ _

@[simp]
theorem effect_pins (range : PinRange) (machine : Machine) :
    (pins range).effect machine = (machine.pins.readRange range, machine) := by
  unfold pins
  rw [effect_bind]
  exact effect_ofExcept _ _

/-- What every request preserves, an action preserves. -/
theorem effect_preserves (property : Machine → Prop)
    (served : ∀ machine request, property machine → property (machine.serve request).2)
    (action : Action α) (machine : Machine) (holds : property machine) :
    property (action.effect machine).2 := by
  induction action generalizing machine with
  | done result => exact holds
  | raise fault => exact holds
  | call request resume ih =>
      rw [effect_call]
      exact ih _ _ (served machine request holds)
  | tell reply rest ih => exact ih machine holds

/-- The requests that performing an action makes, in order. -/
def requests : Action α → Machine → List Request
  | .done _, _ => []
  | .raise _, _ => []
  | .call request resume, machine =>
      request :: (resume (machine.serve request).1).requests (machine.serve request).2
  | .tell _ next, machine => next.requests machine

/-- Every request that an action can make, whatever the answers, has a property. -/
def AllRequests (property : Request → Prop) : Action α → Prop
  | .done _ => True
  | .raise _ => True
  | .call request resume =>
      property request ∧ ∀ answer, (resume answer).AllRequests property
  | .tell _ next => next.AllRequests property

theorem allRequests_true (action : Action α) : action.AllRequests fun _ => True := by
  induction action with
  | done result => trivial
  | raise fault => trivial
  | call request resume ih => exact ⟨trivial, ih⟩
  | tell reply rest ih => exact ih

theorem AllRequests.mono {property other : Request → Prop} {action : Action α}
    (all : action.AllRequests property) (weaker : ∀ request, property request → other request) :
    action.AllRequests other := by
  induction action with
  | done result => trivial
  | raise fault => trivial
  | call request resume ih => exact ⟨weaker request all.1, fun answer => ih answer (all.2 answer)⟩
  | tell reply rest ih => exact ih all

theorem AllRequests.requests {property : Request → Prop} {action : Action α}
    (all : action.AllRequests property) (machine : Machine) :
    ∀ request ∈ action.requests machine, property request := by
  induction action generalizing machine with
  | done result => intro request member; cases member
  | raise fault => intro request member; cases member
  | call asked resume ih =>
      intro request member
      rcases List.mem_cons.mp member with rfl | later
      · exact all.1
      · exact ih _ (all.2 _) _ request later
  | tell reply rest ih => exact ih all machine

theorem AllRequests.bind {property : Request → Prop} {action : Action α}
    {next : α → Action β} (first : action.AllRequests property)
    (second : ∀ result, (next result).AllRequests property) :
    (action >>= next).AllRequests property := by
  change (action.bind next).AllRequests property
  induction action with
  | done result => exact second result
  | raise fault => trivial
  | call request resume ih => exact ⟨first.1, fun answer => ih answer (first.2 answer)⟩
  | tell reply rest ih => exact ih first

theorem allRequests_ofExcept (property : Request → Prop) (result : Except Fault α) :
    (ofExcept result).AllRequests property := by
  cases result <;> trivial

theorem allRequests_ask {property : Request → Prop} {request : Request}
    (holds : property request) : (ask request).AllRequests property :=
  ⟨holds, fun _ => trivial⟩

end Action

end PinMachine
