/-!
This module contains the reading of command lines. All options have values; a value stands behind its
option or is joined to it, with an equals sign or, behind a single letter, without one.
-/

namespace Turnstile

namespace Cli

inductive Command where
  | validate (machine : String)
  | compose (machine : String)
  | tools (command : String) (args : List String)
  | call (command : String) (args : List String) (tool arguments : String)
  | run (machine event : String) (timeoutSeconds : Option UInt64)
  deriving DecidableEq, Repr

structure Invocation where
  config : Option String
  logFilter : Option String
  command : Command
  deriving DecidableEq, Repr

/-! ## Options -/

/-- How an option is written, and which values it takes. -/
structure Parameter where
  name : String
  letter : Option Char
  /-- Is the value a path, which cannot be empty? -/
  isPath : Bool
  takesAll : Bool
  /-- Can the option be given more than once? -/
  repeats : Bool
  deriving DecidableEq, Repr

namespace Parameter

/-- An option that is given once and takes any text. -/
def text (name : String) : Parameter :=
  ⟨name, none, false, false, false⟩

def path (name : String) (letter : Option Char) : Parameter :=
  ⟨name, letter, true, false, false⟩

def takesJoined (p : Parameter) (value : String) : Bool :=
  !(p.isPath && value.isEmpty)

def takes (p : Parameter) (value : String) : Bool :=
  p.takesJoined value && (p.takesAll || value = "-" || !value.startsWith "-")

def match? (p : Parameter) (argument : String) : Option (Option String) :=
  let long := "--" ++ p.name
  if argument = long then some none
  else match argument.dropPrefix? (long ++ "=") with
    | some value => some (some value.toString)
    | none => do
      let letter ← p.letter
      let value := (← argument.dropPrefix? (String.ofList ['-', letter])).toString
      if value.isEmpty then some none
      else some (some ((value.dropPrefix? "=").elim value (·.toString)))

end Parameter

def globals : List Parameter :=
  [.path "config" none, .text "log-filter"]

/-- Finds the option that an argument is, and the value that is joined to it. -/
def find? (parameters : List Parameter) (argument : String) : Option (Parameter × Option String) :=
  parameters.findSome? fun p => (p.match? argument).map (p, ·)

/-- The values of options, with the names of the options. -/
abbrev Values := List (String × String)

def Values.add (values : Values) (p : Parameter) (value : String) : Option Values :=
  if values.any (·.1 = p.name) && !p.repeats then none else some (values ++ [(p.name, value)])

/--
Reads options up to the first argument that is none, and gives what is left. Fails if an option is not
known, has no value or a wrong one, or is repeated. Two hyphens alone end the options.
-/
def readOptions (parameters : List Parameter) (values : Values) :
    List String → Option (Values × List String)
  | [] => some (values, [])
  | argument :: rest =>
    match find? parameters argument, rest with
    | some (p, some value), rest =>
      if p.takesJoined value then
        (values.add p value).bind fun values => readOptions parameters values rest
      else none
    | some (p, none), value :: rest =>
      if p.takes value then
        (values.add p value).bind fun values => readOptions parameters values rest
      else none
    | some (_, none), [] => none
    | none, rest =>
      if argument = "--" && rest.isEmpty then some (values, [])
      else if argument.startsWith "-" then none
      else some (values, argument :: rest)

/-! ## Commands -/

def machineParameter : Parameter :=
  .path "machine" (some 'm')

def serverParameters : List Parameter :=
  [.text "command", ⟨"arg", none, false, true, true⟩]

def parametersOf? : String → Option (List Parameter)
  | "validate" | "compose" => some [machineParameter]
  | "tools" => some serverParameters
  | "call" => some (serverParameters ++ [.text "tool", .text "arguments"])
  | "run" => some [machineParameter, .path "event" (some 'e'), .text "timeout-secs"]
  | _ => none

/-- A number of 64 bits in decimal digits, which may have a plus sign. -/
def number? (text : String) : Option UInt64 := do
  let digits := ((text.dropPrefix? "+").elim text (·.toString)).toList
  let value := digits.foldl (fun value digit => 10 * value + (digit.toNat - '0'.toNat)) 0
  if digits.all Char.isDigit && !digits.isEmpty && value < UInt64.size then some (.ofNat value) else none

def Values.all (values : Values) (name : String) : List String :=
  (values.filter (·.1 = name)).map Prod.snd

/-- The command with the given values, if nothing is missing. -/
def commandOf? (name : String) (values : Values) : Option Command :=
  let value? (name : String) : Option String := values.lookup name
  match name with
  | "validate" => return .validate (← value? "machine")
  | "compose" => return .compose (← value? "machine")
  | "tools" => return .tools (← value? "command") (values.all "arg")
  | "call" =>
    return .call (← value? "command") (values.all "arg") (← value? "tool")
      ((value? "arguments").getD "\x7b\x7d")
  | "run" => do
    let timeout ← match value? "timeout-secs" with
      | some text => (number? text).map some
      | none => some none
    return .run (← value? "machine") (← value? "event") timeout
  | _ => none

/-- Reads a command line, if it is in order. What stands behind the command counts more. -/
def Invocation.ofArguments? (arguments : List String) : Option Invocation := do
  let (before, rest) ← readOptions globals [] arguments
  let name ← rest.head?
  let parameters ← parametersOf? name
  let (values, rest) ← readOptions (globals ++ parameters) [] rest.tail
  if rest.isEmpty then
    let value? (name : String) : Option String := (values.lookup name).orElse fun _ => before.lookup name
    return ⟨value? "config", value? "log-filter", ← commandOf? name values⟩
  else none

end Cli

end Turnstile
