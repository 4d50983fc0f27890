import Turnstile.Server.Practice
import Turnstile.Server.Scripted
import Turnstile.Text.Lines

/-!
This module contains running programs, as they are seen by those that have started them. What a program
does is put on an agenda with the moment at which it happens, and it happens when the agenda is worked
off; what is written to a program waits until the program is given time.
-/

namespace Turnstile

inductive Program where
  | practice (server : Practice.Server)
  | scripted (server : Scripted.Server)

namespace Program

def hear (program : Program) (line : String) : Program × Reaction :=
  match program with
  | practice server =>
    let (server, reaction) := server.hear line
    (practice server, reaction)
  | scripted server =>
    let (server, reaction) := server.hear line
    (scripted server, reaction)

/-- Does the program end when its input does, once it has done what it is doing? -/
def endsWithInput : Program → Bool
  | practice server => !server.isWaiting
  | scripted server => !server.isSilent

end Program

/-- Finds the program of a command, given the arguments. It comes with what the program does first. -/
abbrev Programs := String → List String → Option (Program × Reaction)

namespace Programs

/-- There is only the practice server. -/
def practice : Programs := fun command arguments =>
  if command = Practice.name then
    let (server, reaction) := Practice.launch arguments
    some (.practice server, reaction)
  else none

def withScripted (name : String) (programs : Programs) : Programs := fun command arguments =>
  if command = name then some (.scripted (Scripted.launch arguments), [])
  else programs command arguments

end Programs

inductive Exit where
  | code (code : UInt8)
  | killed
  deriving DecidableEq, Repr

structure Process where
  program : Program
  /-- What has been written to the process and was not heard yet. -/
  input : LineReader
  isOpen : Bool
  hears : Bool
  /-- Has the process taken in that there is no more input? -/
  isDone : Bool
  /-- What the process is going to do and when, in order of time. -/
  agenda : List (Duration × Effect)
  notes : List String
  written : Files
  exit : Option Exit

namespace Process

def plan (p : Process) (now : Duration) (reaction : Reaction) : Process :=
  let later := reaction.map fun (delay, effect) => (now + delay, effect)
  { p with agenda := p.agenda.merge later fun a b => a.1 ≤ b.1 }

def start (now : Duration) (program : Program) (reaction : Reaction) : Process :=
  plan ⟨program, .start none, true, true, false, [], [], {}, none⟩ now reaction

/-- Writes to the process, unless there is nobody to read it. -/
def write (p : Process) (bytes : ByteArray) : Option Process :=
  if p.isOpen && p.hears && p.exit.isNone then some { p with input := p.input.feed bytes }
  else none

def closeInput (p : Process) : Process :=
  { p with isOpen := false }

def hearLine (now : Duration) (p : Process) (line : String) : Process :=
  let (program, reaction) := p.program.hear line
  { p with program }.plan now reaction

/-- Takes in that there is no more input. The process ends when it has nothing left to do. -/
def hearEnd (now : Duration) (p : Process) : Process :=
  let (last, input) := p.input.finish
  let p := last.toList.foldl (hearLine now) { p with input, isDone := true }
  if p.program.endsWithInput then
    let moment := (p.agenda.getLast?.map Prod.fst).getD now
    { p with agenda := p.agenda ++ [(moment, .exit 0)] }
  else p

def listen (now : Duration) (p : Process) : Process :=
  if p.exit.isSome || !p.hears || p.isDone then p
  else
    let (lines, input) := p.input.lines
    let p := lines.foldl (hearLine now) { p with input }
    if p.input.isOver || !p.isOpen then p.hearEnd now else p

def due? (p : Process) : Option Duration :=
  p.agenda.head?.map Prod.fst

/-- Makes an effect happen, and gives what is put out. -/
def perform (p : Process) : Effect → ByteArray × Process
  | .output bytes => (bytes, p)
  | .note text => (.empty, { p with notes := p.notes ++ printedLines text })
  | .write name text => (.empty, { p with written := p.written.insert name text })
  | .deafen => (.empty, { p with hears := false })
  | .exit code => (.empty, { p with exit := some (.code code), agenda := [] })

/-- Works off what comes first on the agenda, and gives what is put out. -/
def proceed (p : Process) : ByteArray × Process :=
  match p.agenda with
  | [] => (.empty, p)
  | (_, effect) :: rest => { p with agenda := rest }.perform effect

/-- What has not been done yet is not done any more. -/
def kill (p : Process) : Process :=
  { p with agenda := [], exit := p.exit <|> some .killed }

end Process

end Turnstile
