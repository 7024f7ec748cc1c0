import PinMachine.Fault

/-!
Call stacks. A stack holds the frames of the open calls, the latest first, and
never more of them than its limit.
-/

namespace PinMachine

/-- What a call saves: the values of the stack registers and the line address at
which the caller goes on. -/
structure Frame where
  saved : List Word
  returnAddress : Nat
  deriving DecidableEq, Repr

/-- The frames of the open calls, latest first, and the number of calls that can
still be opened. -/
structure CallStack where
  frames : List Frame
  room : Nat
  deriving DecidableEq, Repr

namespace CallStack

def empty (limit : Nat) : CallStack := ⟨[], limit⟩

def depth (stack : CallStack) : Nat :=
  stack.frames.length

def limit (stack : CallStack) : Nat :=
  stack.depth + stack.room

def push (stack : CallStack) (frame : Frame) : Except Fault CallStack :=
  match stack.room with
  | 0 => .error (.stackOverflow stack.limit)
  | left + 1 => .ok ⟨frame :: stack.frames, left⟩

def pop (stack : CallStack) : Except Fault (Frame × CallStack) :=
  match stack.frames with
  | [] => .error .stackUnderflow
  | frame :: older => .ok (frame, ⟨older, stack.room + 1⟩)

end CallStack

end PinMachine
