import NodeWatch.Cli.Arguments

/-!
What a command line asks for.
-/

namespace NodeWatch.Cli

open Text

/-- What overrides the settings on the way of looking. -/
structure Looking where
  method : Option Config.Method := none
  interface : Option String := none
  deriving DecidableEq

inductive Command where
  /-- Keep the records in line with what is found, until interrupted. -/
  | run (looking : Looking) (announce status : Bool)
  /-- Tell the network about this machine, until interrupted. -/
  | announce (name : Option String) (port : Option UInt16)
  /-- Look once. -/
  | scan (looking : Looking) (waitSecs : Nat) (json : Bool)
  /-- List the records. -/
  | nodes (json : Bool)
  deriving DecidableEq

/-- The command opens the records. -/
def Command.usesRecords : Command → Bool
  | run .. | nodes _ => true
  | announce .. | scan .. => false

structure Invocation where
  config : Option String
  verbose : Bool
  logFormat : String
  command : Command
  deriving DecidableEq

def valueOf? (gs : List Given) (s : Setting) : Option String :=
  (gs.find? (·.option = .setting s)).map (·.value)

def has (gs : List Given) (f : Flag) : Bool := gs.any (·.option = .flag f)

def lookingOf (gs : List Given) : Looking where
  method := (valueOf? gs .method).bind Config.Method.ofText?
  interface := valueOf? gs .interface

def Command.of (verb : Verb) (gs : List Given) : Command :=
  match verb with
  | .run => .run (lookingOf gs) (has gs .announce) !(has gs .noStatus)
  | .announce => .announce (valueOf? gs .name)
      (((valueOf? gs .port).bind fun p => port? p.toList).map UInt16.ofNat)
  | .scan => .scan (lookingOf gs)
      (((valueOf? gs .wait).bind fun w => unsigned? u64Max w.toList).getD 3) (has gs .json)
  | .nodes => .nodes (has gs .json)

/-- What follows the command counts more than what precedes it. -/
def Invocation.of (before : List Given) (verb : Verb) (after : List Given) : Invocation :=
  let gs := after ++ before
  { config := valueOf? gs .config
    verbose := has gs .verbose
    logFormat := (valueOf? gs .logFormat).getD "text"
    command := .of verb after }

def Invocation.ofWords (words : List String) : Except Halt Invocation :=
  (read words).map fun (before, verb, after) => .of before verb after

end NodeWatch.Cli
