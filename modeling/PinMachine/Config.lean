/-!
Machine configurations. Counts are integers of 32 bits, because a configuration
is written by a user and a negative count has to be reported. Checking a
configuration finds every problem at once, in a fixed order.
-/

namespace PinMachine

/-- The shape of the machine that a program runs on. -/
structure Config where
  /-- Registers with names of their own, in order. -/
  namedRegisters : List String := []
  /-- How many registers `r0`, `r1`, … there are. -/
  basicRegisterCount : Int32 := 0
  /-- How many registers `s0`, `s1`, … there are; calls save these. -/
  stackRegisterCount : Int32 := 0
  maxStackDepth : Int32 := 0
  pinCount : Int32 := 0
  /-- How many steps each instruction line takes. -/
  stepsPerInstruction : Int32 := 1
  deriving DecidableEq, Repr

/-- What can be wrong with a configuration. -/
inductive ConfigError where
  | duplicateRegisterNames
  | builtinRegisterName (name : String)
  | invalidRegisterName (name : String)
  | mimicsStackRegister (name : String)
  | mimicsPinAccessor (name : String)
  | mimicsBasicRegister (name : String)
  | negativePinCount (count : Int32)
  | negativeMaxStackDepth (depth : Int32)
  | negativeStackRegisterCount (count : Int32)
  | negativeBasicRegisterCount (count : Int32)
  | invalidStepsPerInstruction (steps : Int32)
  deriving DecidableEq, Repr

def ConfigError.message : ConfigError → String
  | .duplicateRegisterNames => "duplicate register names found in config"
  | .builtinRegisterName name =>
      "built-in register name \"" ++ name ++ "\" found in config"
  | .invalidRegisterName name => "invalid register name \"" ++ name ++ "\""
  | .mimicsStackRegister name =>
      "register \"" ++ name ++ "\" cannot mimic or replace a stack register"
  | .mimicsPinAccessor name =>
      "register \"" ++ name ++ "\" cannot mimic a pin accessor"
  | .mimicsBasicRegister name =>
      "register \"" ++ name ++
        "\" cannot mimic or replace a numbered \"r\" register"
  | .negativePinCount count =>
      "pin count found to be negative in config (" ++ toString count ++ ")"
  | .negativeMaxStackDepth depth =>
      "max stack depth found to be negative in config (" ++ toString depth ++ ")"
  | .negativeStackRegisterCount count =>
      "stack register count found to be negative in config (" ++ toString count ++
        ")"
  | .negativeBasicRegisterCount count =>
      "basic register count found to be negative in config (" ++ toString count ++
        ")"
  | .invalidStepsPerInstruction steps =>
      "per-instruction step threshold cannot be less than 1 (" ++ toString steps ++
        ")"

/-- Registers that every machine has. -/
def builtinRegisters : List String := ["acc", "t", "ra", "rv"]

/-- One or more letters, then digits only. -/
def isRegisterName (name : List Char) : Bool :=
  !(name.takeWhile Char.isAlpha).isEmpty &&
    (name.dropWhile Char.isAlpha).all Char.isDigit

namespace Config

def basicRegisters (config : Config) : Nat :=
  config.basicRegisterCount.toNatClampNeg

def stackRegisters (config : Config) : Nat :=
  config.stackRegisterCount.toNatClampNeg

def stackDepthLimit (config : Config) : Nat :=
  config.maxStackDepth.toNatClampNeg

def pins (config : Config) : Nat :=
  config.pinCount.toNatClampNeg

/-- Steps per instruction line, at least one. -/
def steps (config : Config) : Nat :=
  max config.stepsPerInstruction.toNatClampNeg 1

def stackRegisterNames (config : Config) : List String :=
  (List.range config.stackRegisters).map fun index => "s" ++ toString index

def basicRegisterNames (config : Config) : List String :=
  (List.range config.basicRegisters).map fun index => "r" ++ toString index

/-- The names of the registers that calls leave alone: the built-in ones, the
named ones, and the numbered ones. -/
def generalRegisterNames (config : Config) : List String :=
  builtinRegisters ++ config.namedRegisters ++ config.basicRegisterNames

/-- Every register name that a program may use. -/
def registerNames (config : Config) : List String :=
  config.generalRegisterNames ++ config.stackRegisterNames

/-- A name whose second character is a digit must not look like a numbered
register or a pin. -/
def mimicry (name : String) : List ConfigError :=
  match name.toList with
  | first :: second :: _ =>
      if second.isDigit then
        match first with
        | 's' => [.mimicsStackRegister name]
        | 'p' => [.mimicsPinAccessor name]
        | 'r' => [.mimicsBasicRegister name]
        | _ => []
      else []
  | _ => []

def nameProblems (name : String) : List ConfigError :=
  (if isRegisterName name.toList then [] else [.invalidRegisterName name]) ++
    mimicry name

/-- Every problem of a configuration: first those of the names, then those of
the counts. -/
def problems (config : Config) : List ConfigError :=
  (if config.namedRegisters.Nodup then [] else [.duplicateRegisterNames]) ++
  (builtinRegisters.filter (config.namedRegisters.contains ·)).map
    .builtinRegisterName ++
  config.namedRegisters.flatMap nameProblems ++
  (if config.pinCount < 0 then [.negativePinCount config.pinCount] else []) ++
  (if config.maxStackDepth < 0 then
    [.negativeMaxStackDepth config.maxStackDepth] else []) ++
  (if config.stackRegisterCount < 0 then
    [.negativeStackRegisterCount config.stackRegisterCount] else []) ++
  (if config.basicRegisterCount < 0 then
    [.negativeBasicRegisterCount config.basicRegisterCount] else []) ++
  (if config.stepsPerInstruction < 1 then
    [.invalidStepsPerInstruction config.stepsPerInstruction] else [])

def Valid (config : Config) : Prop :=
  config.problems = []

instance (config : Config) : Decidable config.Valid :=
  inferInstanceAs (Decidable (config.problems = []))

end Config

end PinMachine
