/-!
This module contains the cutting of a stream of bytes into lines of text. A line ends with a line feed, and
a carriage return before the line feed belongs to the ending. A stream can end without a line feed; then
what comes after the last one is a line too.
-/

namespace Turnstile

/-- The part of a stream that has not been cut yet. -/
structure LineReader where
  /-- How many bytes a line may have, its ending apart. -/
  limit : Option Nat
  rest : ByteArray
  /-- The bytes of the rest up to here are known to have no line feed. -/
  seen : Nat
  /-- Has the stream come to its end, or to a line that cannot be read? -/
  isOver : Bool

inductive Cut where
  | line (text : String)
  /-- The stream has to go on first. -/
  | incomplete
  /-- The line is too long, or is not text. -/
  | unreadable
  deriving DecidableEq, Repr

namespace LineReader

def lineFeed : UInt8 := 10

def carriageReturn : UInt8 := 13

def start (limit : Option Nat) : LineReader :=
  ⟨limit, .empty, 0, false⟩

instance : Inhabited LineReader := ⟨start none⟩

def feed (r : LineReader) (bytes : ByteArray) : LineReader :=
  if r.isOver then r else { r with rest := r.rest ++ bytes }

/-- The position of the first line feed that is not before the given one. -/
def lineFeedFrom? (bytes : ByteArray) (position : Nat) : Option Nat :=
  if h : position < bytes.size then
    if bytes[position] = lineFeed then some position
    else lineFeedFrom? bytes (position + 1)
  else none
termination_by bytes.size - position

/-- The end of a line without the carriage return that belongs to its ending. -/
def trimmedEnd (bytes : ByteArray) (stop : Nat) : Nat :=
  if h : 0 < stop ∧ stop ≤ bytes.size then
    if bytes[stop - 1] = carriageReturn then stop - 1 else stop
  else stop

/-- The text of the bytes before a position. -/
def textBefore? (bytes : ByteArray) (stop : Nat) : Option String :=
  String.fromUTF8? (bytes.extract 0 (trimmedEnd bytes stop))

def exceeds (r : LineReader) (length : Nat) : Bool :=
  r.limit.any (· < length)

def abandon (r : LineReader) : LineReader :=
  { r with rest := .empty, seen := 0, isOver := true }

def next (r : LineReader) : Cut × LineReader :=
  match lineFeedFrom? r.rest r.seen with
  | some stop =>
    let cut := { r with rest := r.rest.extract (stop + 1) r.rest.size, seen := 0 }
    if r.exceeds stop then (.unreadable, r.abandon)
    else match textBefore? r.rest stop with
      | some text => (.line text, cut)
      | none => (.unreadable, r.abandon)
  | none =>
    if r.exceeds r.rest.size then (.unreadable, r.abandon)
    else (.incomplete, { r with seen := r.rest.size })

def lines (r : LineReader) : List String × LineReader :=
  go r r.rest.size []
where
  /-- Each line takes at least one byte. -/
  go (r : LineReader) : Nat → List String → List String × LineReader
    | 0, lines => (lines.reverse, r)
    | fuel + 1, lines =>
      match r.next with
      | (.line text, r) => go r fuel (text :: lines)
      | (_, r) => (lines.reverse, r)

/-- Takes what is left at the end of the stream for a line, unless there is nothing. -/
def finish (r : LineReader) : Option String × LineReader :=
  let text :=
    if r.isOver || trimmedEnd r.rest r.rest.size = 0 then none
    else textBefore? r.rest r.rest.size
  (text, r.abandon)

end LineReader

/-- A text without the carriage return at its end. -/
def withoutReturn (text : String) : String :=
  if text.endsWith "\r" then String.ofList text.toList.dropLast else text

def printedLines (text : String) : List String :=
  (text.splitOn "\n").map withoutReturn

end Turnstile
