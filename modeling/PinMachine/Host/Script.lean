import PinMachine.Catalog.Operation

/-!
Host scripts: behaviors given as a list of calls. Every call leaves its reply.
A call that fails ends the script with its fault, unless the script catches it.
-/

namespace PinMachine

/-- The answer to a request, as a host sees it. -/
def Request.reply : (request : Request) → request.Answer → Reply
  | .currentLine, line => .ok (.number line)
  | .pushFrame, result => result.map fun _ => .nothing
  | .popFrame, result => result.map .number
  | .jump _, _ => .ok .nothing
  | .jumpToLabel _, _ => .ok .nothing
  | .sleep _, _ => .ok .nothing
  | .labelAddress _, address => .ok ((address.map Datum.number).getD .nothing)
  | .register _, result => result.map fun value => .number value.toNat
  | .setRegister _ _, result => result.map fun _ => .nothing
  | .setPins _ _, result => result.map fun _ => .nothing
  | .pins _, result => result.map .bits

/-- A call of a host script. -/
inductive HostCall where
  /-- Any request to the machine. -/
  | ask (request : Request)
  /-- The word that the argument at an index stands for; nothing if there is no
  such argument. -/
  | wordOf (index : Nat)
  /-- A fault of the host's own choice. -/
  | fail (fault : Fault)
  deriving DecidableEq, Repr

/-- A call, and whether the script goes on if it fails. -/
structure HostStep where
  call : HostCall
  catches : Bool
  deriving DecidableEq, Repr

namespace Action

variable {α : Type}

/-- Turns a fault of an action into a result. -/
def attempt : Action α → Action (Except Fault α)
  | .done result => .done (.ok result)
  | .raise fault => .done (.error fault)
  | .call request resume => .call request fun answer => (resume answer).attempt
  | .tell reply next => .tell reply next.attempt

end Action

def HostCall.make (call : HostCall) (arguments : List Token) : Action Reply :=
  match call with
  | .ask request => do
      let answer ← Action.ask request
      return request.reply answer
  | .wordOf index =>
      match arguments[index]? with
      | none => return .ok .nothing
      | some token => do
          let result ← (Action.wordOf token.lexeme).attempt
          return result.map fun value => .number value.toNat
  | .fail fault => return .error fault

def runScript (arguments : List Token) : List HostStep → Action Unit
  | [] => return ()
  | step :: rest => do
      let reply ← step.call.make arguments
      .tell reply (.done ())
      match reply with
      | .ok _ => runScript arguments rest
      | .error fault =>
          if step.catches then runScript arguments rest else .raise fault

/-- Which script the arguments choose: the value of the first argument if that
is a constant, and zero otherwise. -/
def scriptIndex (arguments : List Token) : Nat :=
  match arguments with
  | [] => 0
  | first :: _ =>
      match first.lexeme.readConstant with
      | .ok value => value.toNat
      | .error _ => 0

/-- The behavior of a host with several scripts. A script that is not there does
nothing. -/
def hostBehavior (scripts : List (List HostStep)) : Behavior := fun arguments =>
  runScript arguments (scripts[scriptIndex arguments]?.getD [])

end PinMachine
