import Collocation.Config
import Collocation.Text.Scan

/-!
# Arguments

The arguments of a run name a command, with options before and behind the name. An option is written
`--name value` or `--name=value`, and a switch `--name`. None may be given twice on the same side of
the name of the command; given on both sides, an option counts as it stands behind it. After `--`
everything is a word.
-/

set_option autoImplicit false

namespace Collocation.CommandLine

/-- Why no command is run. -/
inductive Stop where
  | version
  | help
  /-- The arguments are not in order. -/
  | usage
deriving DecidableEq

/-! ## Levels -/

/-- What may stand on one side of the name of the command. -/
structure Level where
  /-- The options, each with what a value has to be. -/
  options : List (String × (String → Bool))
  switches : List String
  /-- How many words there may be. -/
  words : Nat
  /-- Whether the first word ends the level. -/
  endsAtWord : Bool
  /-- Whether the version may be asked for. -/
  tellsVersion : Bool

/-- What stands on one side of the name of the command. -/
structure Given where
  values : List (String × String) := []
  switches : List String := []
  words : List String := []

/-- An argument by its form. -/
inductive Form where
  | escape
  /-- Two hyphens and a name; after an equals sign, a value. -/
  | long (name : String) (attached : Option String)
  /-- A hyphen and letters. -/
  | short (letter : Char)
  | word

/-- The form of a name with two hyphens before it. -/
def formOfName (name : List Char) : Form :=
  match name.span (· ≠ '=') with
  | (name, []) => .long (String.ofList name) none
  | (name, _ :: value) => .long (String.ofList name) (some (String.ofList value))

def formOf (argument : String) : Form :=
  match argument.toList with
  | ['-', '-'] => .escape
  | '-' :: '-' :: name => formOfName name
  | '-' :: letter :: _ => .short letter
  | _ => .word

namespace Given

/-- Adds the value of an option, which must be new and right. -/
def addValue (given : Given) (name value : String) (isRight : String → Bool) :
    Except Stop Given :=
  if isRight value ∧ !given.values.any (·.1 = name) then
    .ok { given with values := given.values ++ [(name, value)] }
  else .error .usage

def addSwitch (given : Given) (name : String) : Except Stop Given :=
  if name ∈ given.switches then .error .usage
  else .ok { given with switches := given.switches ++ [name] }

/-- Adds words, if the level has room for them. -/
def addWords (given : Given) (level : Level) (words : List String) : Except Stop Given :=
  let words := given.words ++ words
  if words.length ≤ level.words then .ok { given with words } else .error .usage

end Given

/-- The stop that a name with two hyphens asks for. -/
def stopOfName (level : Level) (name : String) : Stop :=
  if name = "help" then .help
  else if name = "version" ∧ level.tellsVersion then .version
  else .usage

/-- The stop that a letter behind a hyphen asks for. -/
def stopOfLetter (level : Level) (letter : Char) : Stop :=
  if letter = 'h' then .help
  else if letter = 'V' ∧ level.tellsVersion then .version
  else .usage

/-- Reads the arguments of a level, and leaves those that belong to the next one. -/
def Level.read (level : Level) (given : Given) : List String → Except Stop (Given × List String)
  | [] => .ok (given, [])
  | argument :: rest =>
    match formOf argument with
    | .escape => (given.addWords level rest).map fun given => (given, [])
    | .word =>
      if level.endsAtWord then .ok (given, argument :: rest)
      else (given.addWords level [argument]).bind fun given => level.read given rest
    | .short letter => .error (stopOfLetter level letter)
    | .long name attached =>
      match level.options.lookup name, attached with
      | some isRight, some value =>
        (given.addValue name value isRight).bind fun given => level.read given rest
      | some isRight, none =>
        match rest with
        | [] => .error .usage
        | value :: rest =>
          match formOf value with
          | .word => (given.addValue name value isRight).bind fun given => level.read given rest
          | _ => .error .usage
      | none, some _ => .error .usage
      | none, none =>
        if name ∈ level.switches then
          (given.addSwitch name).bind fun given => level.read given rest
        else .error (stopOfName level name)

/-! ## Values -/

/-- A whole number below a bound. A plus sign may stand before it. -/
def natBelow? (bound : Nat) (text : String) : Option Nat :=
  let digits := match text.toList with
    | '+' :: digits => digits
    | digits => digits
  if digits ≠ [] ∧ digits.all Char.isDigit ∧ Text.number digits < bound then
    some (Text.number digits)
  else none

/-- A whole number of sixty-four bits. -/
def word64? (text : String) : Option UInt64 :=
  (natBelow? UInt64.size text).map .ofNat

/-- A whole number of thirty-two bits. Zero may have a minus sign. -/
def word32? (text : String) : Option UInt32 :=
  match text.toList with
  | '-' :: digits => (natBelow? 1 (String.ofList ('+' :: digits))).map .ofNat
  | _ => (natBelow? UInt32.size text).map .ofNat

def depth? (text : String) : Option NestingDepth :=
  nestingDepths.lookup text

def uuid? (text : String) : Option Uuid :=
  Uuid.parse? text.toList

/-- A path is not empty. -/
def isPath (text : String) : Bool :=
  text ≠ ""

/-! ## Commands -/

/-- What may be given on both sides of the name of a command. -/
structure Overrides where
  config : Option String := none
  chunkSize : Option UInt64 := none
  maxAttempts : Option UInt32 := none
  retryBackoff : Option UInt64 := none
  rowTimeout : Option UInt64 := none
  depth : Option NestingDepth := none

/-- What is to be done, with its own options. -/
inductive Command where
  | store (snapshot input : String) (executionId : Option Uuid)
  | retrieve (snapshot executionId : String) (trim : Bool)
  | inspect (snapshot : String)

/-- A command with the options that every command has. -/
structure Invocation where
  overrides : Overrides
  metrics : Bool
  command : Command

/-- The options that are allowed everywhere. -/
def overrideOptions : List (String × (String → Bool)) :=
  [ ("config", isPath),
    ("chunk-size", fun text => (word64? text).isSome),
    ("max-attempts", fun text => (word32? text).isSome),
    ("retry-backoff-ms", fun text => (word64? text).isSome),
    ("row-timeout-ms", fun text => (word64? text).isSome),
    ("nesting-depth", fun text => (depth? text).isSome) ]

/-- Before the name of the command. -/
def front : Level :=
  { options := overrideOptions
    switches := ["metrics"]
    words := 0
    endsAtWord := true
    tellsVersion := true }

/-- Behind the name of a command. -/
def back (options : List (String × (String → Bool))) (switches : List String) (words : Nat) :
    Level :=
  { options := options ++ overrideOptions
    switches := "metrics" :: switches
    words
    endsAtWord := false
    tellsVersion := false }

/-- The levels behind the names of the commands. -/
def backs : List (String × Level) :=
  [ ("store",
      back
        [ ("snapshot", isPath), ("input", isPath),
          ("execution-id", fun text => (uuid? text).isSome) ]
        [] 0),
    ("retrieve", back [("snapshot", isPath)] ["trim"] 1),
    ("inspect", back [("snapshot", isPath)] [] 0) ]

/-- The value of an option that has to be there. -/
def Given.require (given : Given) (name : String) : Except Stop String :=
  match given.values.lookup name with
  | some value => .ok value
  | none => .error .usage

/-- The command of a name, out of what is given behind it. -/
def Command.ofGiven (name : String) (given : Given) : Except Stop Command := do
  let snapshot ← given.require "snapshot"
  match name, given.words with
  | "store", [] =>
    let input ← given.require "input"
    return .store snapshot input ((given.values.lookup "execution-id").bind uuid?)
  | "retrieve", [executionId] =>
    return .retrieve snapshot executionId ("trim" ∈ given.switches)
  | "inspect", [] => return .inspect snapshot
  | _, _ => throw .usage

/-- The overrides out of values, of which the first counts. -/
def Overrides.ofValues (values : List (String × String)) : Overrides :=
  { config := values.lookup "config"
    chunkSize := (values.lookup "chunk-size").bind word64?
    maxAttempts := (values.lookup "max-attempts").bind word32?
    retryBackoff := (values.lookup "retry-backoff-ms").bind word64?
    rowTimeout := (values.lookup "row-timeout-ms").bind word64?
    depth := (values.lookup "nesting-depth").bind depth? }

/-- The stop of the command `help`: behind it stands the name of a command, or nothing. -/
def stopOfHelp : List String → Stop
  | [] => .help
  | [name] => if name = "help" ∨ (backs.lookup name).isSome then .help else .usage
  | _ => .usage

/-- The invocation that arguments write. -/
def Invocation.ofArguments (arguments : List String) : Except Stop Invocation := do
  let (before, rest) ← front.read {} arguments
  match rest with
  | [] => throw .usage
  | "help" :: rest => throw (stopOfHelp rest)
  | name :: rest =>
    match backs.lookup name with
    | none => throw .usage
    | some level =>
      let (behind, _) ← level.read {} rest
      let command ← Command.ofGiven name behind
      return {
        overrides := .ofValues (behind.values ++ before.values)
        metrics := "metrics" ∈ before.switches ++ behind.switches
        command }

end Collocation.CommandLine
