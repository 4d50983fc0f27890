import Turnstile.Json.Written

/-!
This module contains the JSON reader. It goes over the text once, one character at a time, with the open
lists and objects on a stack, and stops where the text goes wrong.
-/

namespace Turnstile

namespace Json

namespace Reader

/-- A container whose end is not read yet. Contents are in reverse order. -/
inductive Frame where
  | list (items : List Written)
  | object (members : List (Option String × Written))
  /-- The key of the next member is read, its value is not. -/
  | member (members : List (Option String × Written)) (key : Option String)

inductive NumberPart where
  | minus
  | zero
  | afterZero
  | whole
  | point
  | decimals
  | exponent
  | sign
  | power
  deriving DecidableEq, Repr

namespace NumberPart

def next? (part : NumberPart) (c : Char) : Option NumberPart :=
  let mark (otherwise : Option NumberPart) :=
    if c = 'e' || c = 'E' then some exponent else otherwise
  let fraction := if c = '.' then some point else mark none
  match part with
  | minus => if c = '0' then some zero else if c.isDigit then some whole else none
  | zero => if c.isDigit then some afterZero else fraction
  | afterZero => none
  | whole => if c.isDigit then some whole else fraction
  | point => if c.isDigit then some decimals else none
  | decimals => if c.isDigit then some decimals else mark none
  | exponent =>
    if c.isDigit then some power else if c = '+' || c = '-' then some sign else none
  | sign | power => if c.isDigit then some power else none

def isComplete : NumberPart → Bool
  | zero | whole | decimals | power => true
  | minus | afterZero | point | exponent | sign => false

end NumberPart

/-- What the next character belongs to. The text of a string is absent once it is unusable. -/
inductive Mode where
  /-- A value comes; `first` says that the container may end instead. -/
  | value (first : Bool)
  /-- A key comes; `first` says that the object may end instead. -/
  | key (first : Bool)
  | colon
  | ended (value : Written)
  /-- Within a string, whose characters so far are in reverse order. -/
  | string (text : Option (List Char))
  | escape (text : Option (List Char))
  /-- Within the digits of an escaped code unit, perhaps after the first half of a pair. -/
  | unit (text : Option (List Char)) (high : Option Nat) (code : Nat) (missing : Nat)
  /-- After the first half of a pair: the second half has to follow. -/
  | low (text : Option (List Char)) (high : Nat) (started : Bool)
  | number (chars : List Char) (part : NumberPart)
  | word (rest : List Char) (value : Written)

structure State where
  stack : List Frame
  mode : Mode

def initial : State :=
  ⟨[], .value false⟩

def maxDepth : Nat := 127

def isBlank (c : Char) : Bool :=
  c = ' ' || c = '\t' || c = '\n' || c = '\r'

def hexValue? (c : Char) : Option Nat :=
  if c.isDigit then some (c.toNat - '0'.toNat)
  else if 'a' ≤ c ∧ c ≤ 'f' then some (c.toNat - 'a'.toNat + 10)
  else if 'A' ≤ c ∧ c ≤ 'F' then some (c.toNat - 'A'.toNat + 10)
  else none

def unescape? (c : Char) : Option Char :=
  match c with
  | '"' => some '"'
  | '\\' => some '\\'
  | '/' => some '/'
  | 'b' => some '\x08'
  | 'f' => some '\x0c'
  | 'n' => some '\n'
  | 'r' => some '\r'
  | 't' => some '\t'
  | _ => none

def close (stack : List Frame) (container : Written) : State :=
  ⟨stack, .ended (if stack.length < maxDepth then container else .unusable)⟩

/-- The first character of a value. -/
def startValue? (stack : List Frame) (c : Char) : Option State :=
  match c with
  | '[' => some ⟨.list [] :: stack, .value true⟩
  | '\x7b' => some ⟨.object [] :: stack, .key true⟩
  | '"' => some ⟨stack, .string (some [])⟩
  | '-' => some ⟨stack, .number [c] .minus⟩
  | '0' => some ⟨stack, .number [c] .zero⟩
  | 't' => some ⟨stack, .word ['r', 'u', 'e'] (.bool true)⟩
  | 'f' => some ⟨stack, .word ['a', 'l', 's', 'e'] (.bool false)⟩
  | 'n' => some ⟨stack, .word ['u', 'l', 'l'] .null⟩
  | c => if c.isDigit then some ⟨stack, .number [c] .whole⟩ else none

/-- The character after a value, in the innermost open container. -/
def afterValue? (value : Written) (c : Char) : List Frame → Option State
  | .list items :: stack =>
    if c = ',' then some ⟨.list (value :: items) :: stack, .value false⟩
    else if c = ']' then some (close stack (.list (value :: items).reverse))
    else none
  | .member members key :: stack =>
    if c = ',' then some ⟨.object ((key, value) :: members) :: stack, .key false⟩
    else if c = '\x7d' then some (close stack (.object ((key, value) :: members).reverse))
    else none
  | _ => none

/-- A string is complete: it is the key of an open object or a value. -/
def endString (text : Option String) : List Frame → State
  | .object members :: stack => ⟨.member members text :: stack, .colon⟩
  | stack => ⟨stack, .ended (text.elim .unusable .string)⟩

def stringStep? (stack : List Frame) (text : Option (List Char)) (c : Char) : Option State :=
  if c = '"' then some (endString (text.map fun chars => String.ofList chars.reverse) stack)
  else if c = '\\' then some ⟨stack, .escape text⟩
  else if c.toNat < 32 then none
  else some ⟨stack, .string (text.map (c :: ·))⟩

def escapeStep? (stack : List Frame) (text : Option (List Char)) (c : Char) : Option State :=
  if c = 'u' then some ⟨stack, .unit text none 0 4⟩
  else (unescape? c).map fun c => ⟨stack, .string (text.map (c :: ·))⟩

/-- An escaped code unit is complete. A unit of a pair counts only together with the other one. -/
def endUnit (stack : List Frame) (text : Option (List Char)) (high : Option Nat) (code : Nat) :
    State :=
  let isLow : Bool := 0xdc00 ≤ code && code < 0xe000
  match high with
  | none =>
    if 0xd800 ≤ code ∧ code < 0xdc00 then ⟨stack, .low text code false⟩
    else if isLow then ⟨stack, .string none⟩
    else ⟨stack, .string (text.map (Char.ofNat code :: ·))⟩
  | some high =>
    if isLow then
      let c := Char.ofNat (0x10000 + (high - 0xd800) * 0x400 + (code - 0xdc00))
      ⟨stack, .string (text.map (c :: ·))⟩
    else ⟨stack, .string none⟩

/-- The step of a mode that does not end by what follows it. -/
def plainStep? (stack : List Frame) (mode : Mode) (c : Char) : Option State :=
  match mode with
  | .value first =>
    if isBlank c then some ⟨stack, .value first⟩
    else if first && c = ']' then some (close stack.tail (.list []))
    else startValue? stack c
  | .key first =>
    if isBlank c then some ⟨stack, .key first⟩
    else if first && c = '\x7d' then some (close stack.tail (.object []))
    else if c = '"' then some ⟨stack, .string (some [])⟩
    else none
  | .colon =>
    if isBlank c then some ⟨stack, .colon⟩
    else if c = ':' then some ⟨stack, .value false⟩
    else none
  | .ended value =>
    if isBlank c then some ⟨stack, .ended value⟩ else afterValue? value c stack
  | .string text => stringStep? stack text c
  | .escape text => escapeStep? stack text c
  | .unit text high code missing =>
    (hexValue? c).map fun digit =>
      if missing ≤ 1 then endUnit stack text high (code * 16 + digit)
      else ⟨stack, .unit text high (code * 16 + digit) (missing - 1)⟩
  | .low text high started =>
    if started then
      if c = 'u' then some ⟨stack, .unit text (some high) 0 4⟩ else escapeStep? stack none c
    else
      if c = '\\' then some ⟨stack, .low text high true⟩ else stringStep? stack none c
  | .word (expected :: rest) value =>
    if c ≠ expected then none
    else if rest = [] then some ⟨stack, .ended value⟩
    else some ⟨stack, .word rest value⟩
  | .word [] _ | .number .. => none

/-- The value of a number whose characters are in reverse order. -/
def numberValue (chars : List Char) : Written :=
  (Number.ofText? chars.reverse).elim .unusable .number

/-- A number ends at the first character that cannot belong to it. -/
def step? (state : State) (c : Char) : Option State :=
  match state.mode with
  | .number chars part =>
    match part.next? c with
    | some part => some ⟨state.stack, .number (c :: chars) part⟩
    | none =>
      if part.isComplete then plainStep? state.stack (.ended (numberValue chars)) c else none
  | mode => plainStep? state.stack mode c

/-- Goes on as far as the text is right, and gives what is left of it. -/
def advance (state : State) : List Char → State × List Char
  | [] => (state, [])
  | c :: rest =>
    match step? state c with
    | some state => advance state rest
    | none => (state, c :: rest)

def abandon (value : Written) : Frame → Written
  | .list items => .list (value :: items).reverse
  | .object members => .object ((none, value) :: members).reverse
  | .member members key => .object ((key, value) :: members).reverse

def abandonAfter (value : Written) : Frame → Written
  | .list items => .list (.broken :: value :: items).reverse
  | .object members => .object ((none, .broken) :: members).reverse
  | .member members key => .object ((none, .broken) :: (key, value) :: members).reverse

/-- The value that has just ended, if one has. -/
def State.ended? (state : State) : Option Written :=
  match state.mode with
  | .ended value => some value
  | .number chars part => if part.isComplete then some (numberValue chars) else none
  | _ => none

/-- The document, where whatever is still open breaks off. -/
def State.breakOff (state : State) : Written :=
  match state.ended?, state.stack with
  | some value, [] => value
  | some value, frame :: stack => stack.foldl abandon (abandonAfter value frame)
  | none, stack => stack.foldl abandon .broken

end Reader

/-- Reads a text as far as it is right, and tells whether the document ends where the text does. -/
def read (text : String) : Written × Bool :=
  let (state, rest) := Reader.advance Reader.initial text.toList
  (state.breakOff, state.stack.isEmpty && rest.isEmpty)

/-- Reads a JSON text as a free value, with the members of objects in the order of their keys. -/
def parse? (text : String) : Option Json :=
  match read text with
  | (written, true) => written.json?.map normalize
  | (_, false) => none

end Json

end Turnstile
