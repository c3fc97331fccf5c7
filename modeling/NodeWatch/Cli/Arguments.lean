import NodeWatch.Config.Method
import NodeWatch.Text.Numeral
import NodeWatch.Text.Split

/-!
The words of a command line: flags, settings with a value, and the command they belong to.

Words are read from left to right, and the first that is out of place ends the reading. Flags and
settings may stand in short form behind one hyphen, several of them together, or in long form behind
two. Each may be given once before the command and once after it.
-/

namespace NodeWatch.Cli

open Text

inductive Verb where
  | run
  | announce
  | scan
  | nodes
  deriving DecidableEq

def Verb.all : List Verb := [.run, .announce, .scan, .nodes]

def Verb.text : Verb → String
  | run => "run"
  | announce => "announce"
  | scan => "scan"
  | nodes => "nodes"

def Verb.ofText? (s : String) : Option Verb := all.find? (·.text = s)

/-- Options that are there or not. -/
inductive Flag where
  | verbose
  | announce
  | noStatus
  | json
  | help
  | version
  deriving DecidableEq

/-- Options with a value. -/
inductive Setting where
  | config
  | logFormat
  | method
  | interface
  | wait
  | name
  | port
  deriving DecidableEq

inductive Opt where
  | flag (f : Flag)
  | setting (s : Setting)
  deriving DecidableEq

namespace Opt

def long : Opt → String
  | flag .verbose => "verbose"
  | flag .announce => "announce"
  | flag .noStatus => "no-status"
  | flag .json => "json"
  | flag .help => "help"
  | flag .version => "version"
  | setting .config => "config"
  | setting .logFormat => "log-format"
  | setting .method => "method"
  | setting .interface => "interface"
  | setting .wait => "wait"
  | setting .name => "name"
  | setting .port => "port"

def short? : Opt → Option Char
  | flag .verbose => some 'v'
  | flag .help => some 'h'
  | flag .version => some 'V'
  | setting .config => some 'c'
  | setting .method => some 'm'
  | setting .interface => some 'i'
  | setting .wait => some 'w'
  | setting .name => some 'n'
  | setting .port => some 'p'
  | _ => none

/-- The options that may stand before the command, and after it too. -/
def shared : List Opt :=
  [.setting .config, .flag .verbose, .setting .logFormat, .flag .help]

/-- The options of a command, or those before any command. -/
def of : Option Verb → List Opt
  | none => shared ++ [.flag .version]
  | some .run =>
    [.setting .method, .setting .interface, .flag .announce, .flag .noStatus] ++ shared
  | some .announce => [.setting .name, .setting .port] ++ shared
  | some .scan => [.setting .method, .setting .interface, .setting .wait, .flag .json] ++ shared
  | some .nodes => .flag .json :: shared

end Opt

/-- A port as it may be written: also as a zero below zero. -/
def port? (s : List Char) : Option Nat :=
  match s with
  | '-' :: ds => (decimal? ds).filter (· = 0)
  | _ => unsigned? u16Max s

/-- Whether a setting can have a value. -/
def Setting.admits (s : Setting) (v : String) : Bool :=
  match s with
  | config => v ≠ ""
  | method => (Config.Method.ofText? v).isSome
  | port => (port? v.toList).isSome
  | wait => (unsigned? u64Max v.toList).isSome
  | logFormat | interface | name => true

/-- An option with its value; a flag has none. -/
structure Given where
  option : Opt
  value : String
  deriving DecidableEq

/-- Why reading ends early: a word is out of place, or help or the version is asked for. -/
inductive Halt where
  | misused
  | help (verb : Option Verb)
  | version
  deriving DecidableEq

/-- Takes note of an option. -/
def note (verb : Option Verb) (g : Given) (seen : List Given) : Except Halt (List Given) :=
  match g.option with
  | .flag .help => .error (.help verb)
  | .flag .version => .error .version
  | o =>
    let admitted := match o with
      | .setting s => s.admits g.value
      | .flag _ => true
    if seen.any (·.option = o) || !admitted then .error .misused else .ok (seen ++ [g])

/-- A word that can be the value of the option before it. -/
def isValue (word : String) : Bool :=
  match word.toList with
  | '-' :: _ :: _ => false
  | _ => true

/-- The options in a word behind one hyphen. The last may be a setting: what follows it in the word
is its value, with or without an equals sign. A setting at the very end still lacks its value. -/
def readShort (verb : Option Verb) (seen : List Given) :
    List Char → Except Halt (List Given × Option Opt)
  | [] => .ok (seen, none)
  | c :: cs =>
    match (Opt.of verb).find? (·.short? = some c) with
    | none => .error .misused
    | some (.setting s) =>
      match cs with
      | [] => .ok (seen, some (.setting s))
      | '=' :: v => (note verb ⟨.setting s, String.ofList v⟩ seen).map (·, none)
      | v => (note verb ⟨.setting s, String.ofList v⟩ seen).map (·, none)
    | some o => do
      let seen ← note verb ⟨o, ""⟩ seen
      readShort verb seen cs

/-- The option in a word behind two hyphens, with its value if an equals sign is there. -/
def readLong (verb : Option Verb) (seen : List Given) (word : List Char) :
    Except Halt (List Given × Option Opt) :=
  let (name, value?) := match cutFirst '=' word with
    | some (name, v) => (name, some (String.ofList v))
    | none => (word, none)
  match (Opt.of verb).find? (·.long.toList = name), value? with
  | none, _ => .error .misused
  | some (.setting s), none => .ok (seen, some (.setting s))
  | some (.flag _), some _ => .error .misused
  | some o, v => (note verb ⟨o, v.getD ""⟩ seen).map (·, none)

/-- The options up to the first other word, with that word and what follows it; `awaiting` the
option whose value comes next. -/
def readOptions (verb : Option Verb) : (awaiting : Option Opt) → (seen : List Given) →
    List String → Except Halt (List Given × List String)
  | some _, _, [] => .error .misused
  | none, seen, [] => .ok (seen, [])
  | some o, seen, word :: rest => do
    if isValue word then
      let seen ← note verb ⟨o, word⟩ seen
      readOptions verb none seen rest
    else .error .misused
  | none, seen, word :: rest =>
    match word.toList with
    | ['-', '-'] => if rest = [] then .ok (seen, []) else .error .misused
    | '-' :: '-' :: cs => do
      let (seen, awaiting) ← readLong verb seen cs
      readOptions verb awaiting seen rest
    | '-' :: c :: cs => do
      let (seen, awaiting) ← readShort verb seen (c :: cs)
      readOptions verb awaiting seen rest
    | _ => .ok (seen, word :: rest)

/-- The topic of a request for help. -/
def helpTopic : List String → Halt
  | [] | ["help"] => .help none
  | [word] => match Verb.ofText? word with
    | some v => .help (some v)
    | none => .misused
  | _ => .misused

/-- What was given before the command, the command, and what was given after it. -/
def read (words : List String) : Except Halt (List Given × Verb × List Given) := do
  let (before, rest) ← readOptions none none [] words
  match rest with
  | [] => .error .misused
  | word :: rest =>
    match Verb.ofText? word with
    | none => .error (if word = "help" then helpTopic rest else .misused)
    | some verb =>
      let (after, rest) ← readOptions (some verb) none [] rest
      if rest = [] then .ok (before, verb, after) else .error .misused

end NodeWatch.Cli
