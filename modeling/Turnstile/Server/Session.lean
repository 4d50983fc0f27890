import Turnstile.Server.Process

/-!
This module contains sessions with processes: a process, the reader at its other end, and a clock that
goes straight to the next moment at which the process does something.
-/

namespace Turnstile

structure Session where
  process : Process
  reader : LineReader
  /-- Lines that were cut off and not read yet. -/
  lines : List String
  now : Duration

namespace Session

def start (limit : Option Nat) (program : Program) (reaction : Reaction) : Session :=
  ⟨.start .zero program reaction, .start limit, [], .zero⟩

def isOver (s : Session) : Bool :=
  s.reader.isOver

def write (s : Session) (bytes : ByteArray) : Option Session := do
  return { s with process := ← s.process.write bytes }

def closeInput (s : Session) : Session :=
  { s with process := s.process.closeInput }

/-- Ends the process. What it has put out before can still be read. -/
def kill (s : Session) : Session :=
  { s with process := s.process.kill }

def listen (s : Session) : Session :=
  { s with process := s.process.listen s.now }

/-- When something happens next, if the process has been given the time to hear everything. -/
def due? (s : Session) : Option Duration :=
  if s.isOver then none
  else if s.process.exit.isSome then some s.now
  else s.process.due?

def endOutput (s : Session) : Session :=
  let (last, reader) := s.reader.finish
  { s with reader, lines := s.lines ++ last.toList }

def proceed (s : Session) : Session :=
  if s.process.exit.isSome then s.endOutput
  else
    let now := match s.process.due? with
      | some due => if s.now ≤ due then due else s.now
      | none => s.now
    let (bytes, process) := s.process.proceed
    let (lines, reader) := (s.reader.feed bytes).lines
    { process, reader, lines := s.lines ++ lines, now }

/-- How much is let happen before somebody waits in vain. -/
def patience : Nat := 1000000000

/-- Is there something to happen without time going by? -/
def isBusy (s : Session) : Bool :=
  s.due?.any (· ≤ s.now)

/-- Lets everything happen up to the moment at which there are enough lines. -/
def await (count : Nat) : Nat → Session → Session
  | 0, s => s
  | steps + 1, s =>
    let s := s.listen
    if s.isBusy || (s.lines.length < count && s.due?.isSome) then await count steps s.proceed
    else s

/-- Reads the given number of lines, or fewer if no more will come. -/
def readLines (s : Session) (count : Nat) : List String × Session :=
  let s := s.await count patience
  (s.lines.take count, { s with lines := s.lines.drop count })

def readLine (s : Session) : Option String × Session :=
  let (lines, s) := s.readLines 1
  (lines.head?, s)

def drain : Nat → Session → Session
  | 0, s => s
  | steps + 1, s =>
    let s := s.listen
    if s.due?.isSome then drain steps s.proceed else s

/-- Closes the input, and reads what is put out after that. -/
def readRest (s : Session) : List String × Session :=
  let s := s.closeInput.drain patience
  (s.lines, { s with lines := [] })

end Session

end Turnstile
