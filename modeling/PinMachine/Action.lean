import PinMachine.Journal
import PinMachine.Machine

/-!
Actions: what executing an instruction does, as a tree of requests to the
machine. An action can look at and change the machine only by the requests
listed here, whatever the instruction set, and it can go on after a request that
failed. A host may leave replies on the way, which are shown to it afterwards
and have no effect.
-/

namespace PinMachine

/-- What an action can ask of the machine. -/
inductive Request where
  | currentLine
  | pushFrame
  | popFrame
  | jump (address : Nat)
  | jumpToLabel (label : String)
  | sleep (steps : Nat)
  | labelAddress (label : String)
  | register (name : String)
  | setRegister (name : String) (value : Word)
  | setPins (range : PinRange) (bits : List Bool)
  | pins (range : PinRange)
  deriving DecidableEq, Repr

/-- What the machine answers to a request. -/
abbrev Request.Answer : Request → Type
  | .currentLine => Nat
  | .pushFrame => Except Fault Unit
  | .popFrame => Except Fault Nat
  | .jump _ => Unit
  | .jumpToLabel _ => Unit
  | .sleep _ => Unit
  | .labelAddress _ => Option Nat
  | .register _ => Except Fault Word
  | .setRegister _ _ => Except Fault Unit
  | .setPins _ _ => Except Fault Unit
  | .pins _ => Except Fault (List Bool)

/-- Serves one request: the answer, and the machine after it. -/
def Machine.serve (machine : Machine) :
    (request : Request) → request.Answer × Machine
  | .currentLine => (machine.flow.current, machine)
  | .pushFrame => machine.pushFrame
  | .popFrame => machine.popFrame
  | .jump address => ((), machine.jump address)
  | .jumpToLabel label => ((), machine.jumpToLabel label)
  | .sleep steps => ((), machine.sleep steps)
  | .labelAddress label => (machine.labelAddress? label, machine)
  | .register name => (machine.registers.get name, machine)
  | .setRegister name value => machine.setRegister name value
  | .setPins range bits => machine.setPins range bits
  | .pins range => (machine.pins.readRange range, machine)

/-- What serving a request puts in the journal: a jump to a label that is not
declared is noted. -/
def Machine.requestJournal (machine : Machine) : Request → List JournalEntry
  | .jumpToLabel label =>
      match machine.labelAddress? label with
      | some _ => []
      | none =>
          [{ level := .warn
             component := .interpreter
             message :=
              "jump to unknown label \"" ++ label ++ "\" terminates the program" }]
  | _ => []

/-- A value shown to a host. -/
inductive Datum where
  | nothing
  | number (number : Nat)
  | bit (bit : Bool)
  | bits (bits : List Bool)
  deriving DecidableEq, Repr

/-- The outcome of something that a host asked for. -/
abbrev Reply := Except Fault Datum

/-- What a part of a run leaves behind beside its result. -/
structure Trace where
  journal : List JournalEntry
  replies : List Reply

namespace Trace

def empty : Trace := ⟨[], []⟩

def append (earlier later : Trace) : Trace :=
  ⟨earlier.journal ++ later.journal, earlier.replies ++ later.replies⟩

instance : Append Trace := ⟨append⟩

def join (traces : List Trace) : Trace :=
  ⟨traces.flatMap journal, traces.flatMap replies⟩

def note (level : Level) (message : String) : Trace :=
  ⟨[{ level := level, component := .interpreter, message := message }], []⟩

end Trace

/-- A finite tree of requests that ends in a result or in a fault. -/
inductive Action (α : Type) : Type where
  | done (result : α)
  | raise (fault : Fault)
  | call (request : Request) (resume : request.Answer → Action α)
  | tell (reply : Reply) (next : Action α)

namespace Action

variable {α β : Type}

def bind : Action α → (α → Action β) → Action β
  | .done result, next => next result
  | .raise fault, _ => .raise fault
  | .call request resume, next =>
      .call request fun answer => (resume answer).bind next
  | .tell reply rest, next => .tell reply (rest.bind next)

instance : Monad Action where
  pure := .done
  bind := .bind

def ofExcept : Except Fault α → Action α
  | .ok result => .done result
  | .error fault => .raise fault

def ask (request : Request) : Action request.Answer :=
  .call request .done

/-! ### Single requests

A request that fails ends the action with its fault. -/

def pushFrame : Action Unit := do
  ofExcept (← ask .pushFrame)

def popFrame : Action Nat := do
  ofExcept (← ask .popFrame)

def jump (address : Nat) : Action Unit :=
  ask (.jump address)

def jumpToLabel (label : String) : Action Unit :=
  ask (.jumpToLabel label)

def sleep (steps : Nat) : Action Unit :=
  ask (.sleep steps)

def labelAddress (label : String) : Action (Option Nat) :=
  ask (.labelAddress label)

def register (name : String) : Action Word := do
  ofExcept (← ask (.register name))

def setRegister (name : String) (value : Word) : Action Unit := do
  ofExcept (← ask (.setRegister name value))

def setPins (range : PinRange) (bits : List Bool) : Action Unit := do
  ofExcept (← ask (.setPins range bits))

def pins (range : PinRange) : Action (List Bool) := do
  ofExcept (← ask (.pins range))

structure Outcome (α : Type) where
  result : Except Fault α
  machine : Machine
  trace : Trace

def perform : Action α → Machine → Outcome α
  | .done result, machine => ⟨.ok result, machine, .empty⟩
  | .raise fault, machine => ⟨.error fault, machine, .empty⟩
  | .call request resume, machine =>
      let (answer, served) := machine.serve request
      let outcome := (resume answer).perform served
      { outcome with
        trace := ⟨machine.requestJournal request, []⟩ ++ outcome.trace }
  | .tell reply next, machine =>
      let outcome := next.perform machine
      { outcome with trace := ⟨[], [reply]⟩ ++ outcome.trace }

end Action

abbrev Behavior := List Token → Action Unit

end PinMachine
