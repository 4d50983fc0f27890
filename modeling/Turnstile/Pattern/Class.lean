import Turnstile.Pattern.Escape

/-!
This module contains the reading of classes: sets of characters in brackets, which can stand in one
another, and be cut with one another or taken away from one another.
-/

namespace Turnstile

namespace Pattern

namespace Class

/-- How the sets before and after a doubled sign are put together. -/
inductive Join where
  | both | first | either

def Join.apply : Join → CharSet → CharSet → CharSet
  | both => .inter
  | first => .difference
  | either => .symmetricDifference

/-- A class that is not closed yet. -/
structure Open where
  negated : Bool
  /-- What stands before the last doubled sign. -/
  left : Option (CharSet × Join)
  items : CharSet

namespace Open

def add (o : Open) (s : CharSet) : Open :=
  { o with items := .union o.items s }

/-- What has been read, without case if it does not count. -/
def operand (foldCase : Bool) (o : Open) : CharSet :=
  let items := o.items.written foldCase false
  match o.left with
  | some (left, join) => join.apply left items
  | none => items

def joined (foldCase : Bool) (join : Join) (o : Open) : Open :=
  { o with left := some (o.operand foldCase, join), items := .empty }

def close (foldCase : Bool) (o : Open) : CharSet :=
  (o.operand foldCase).written foldCase o.negated

end Open

/-- Dashes at the start of a class stand for themselves, and so does a bracket at its very start. -/
def start (text : List Char) : Open × List Char :=
  let (negated, text) :=
    match text with
    | '^' :: rest => (true, rest)
    | text => (false, text)
  match text with
  | ']' :: rest => (⟨negated, none, .ofChar ']'⟩, rest)
  | '-' :: rest => (⟨negated, none, .ofChar '-'⟩, rest.dropWhile (· = '-'))
  | text => (⟨negated, none, .empty⟩, text)

/-- Reads a class by name, behind its opening bracket. -/
def named? (text : List Char) : Option (CharSet × List Char) :=
  match text with
  | ':' :: rest =>
    let (negated, rest) :=
      match rest with
      | '^' :: rest => (true, rest)
      | rest => (false, rest)
    let (name, rest) := rest.span (· ≠ ':')
    match rest with
    | ':' :: ']' :: rest =>
      (CharSet.ofClassName? (String.ofList name)).map fun s => (s.written false negated, rest)
    | _ => none
  | _ => none

/-- Reads one member of a class: a character or an escape. -/
def item? (style : Style) (text : List Char) : Option (Escape × List Char) :=
  match text with
  | '\\' :: rest => Escape.read? style true rest
  | c :: rest => some (.char c, rest)
  | [] => none

def setOf? (foldCase : Bool) : Escape → Option CharSet
  | .char c => some (.ofChar c)
  | .set s negated => some (s.written foldCase negated)
  | _ => none

/-- Reads a member or a range. Both ends of a range are characters, the lower one first. -/
def range? (style : Style) (foldCase : Bool) (text : List Char) : Option (CharSet × List Char) := do
  let (first, rest) ← item? style text
  match rest with
  | '-' :: ']' :: _ | '-' :: '-' :: _ => return (← setOf? foldCase first, rest)
  | '-' :: rest =>
    let (last, rest) ← item? style rest
    match first, last with
    | .char low, .char high => if low ≤ high then some (.range low high, rest) else none
    | _, _ => none
  | rest => return (← setOf? foldCase first, rest)

/-- Reads on in a class that stands in others, up to the end of the outermost one. -/
def readOn? (style : Style) (foldCase : Bool) :
    Nat → Open → List Open → List Char → Option (CharSet × List Char)
  | 0, _, _, _ => none
  | n + 1, o, outer, text =>
    match text with
    | [] => none
    | '[' :: rest =>
      match named? rest with
      | some (s, rest) => readOn? style foldCase n (o.add s) outer rest
      | none =>
        let (inner, rest) := start rest
        readOn? style foldCase n inner (o :: outer) rest
    | ']' :: rest =>
      match outer with
      | [] => some (o.close foldCase, rest)
      | next :: outer => readOn? style foldCase n (next.add (o.close foldCase)) outer rest
    | '&' :: '&' :: rest => readOn? style foldCase n (o.joined foldCase .both) outer rest
    | '-' :: '-' :: rest => readOn? style foldCase n (o.joined foldCase .first) outer rest
    | '~' :: '~' :: rest => readOn? style foldCase n (o.joined foldCase .either) outer rest
    | text =>
      match range? style foldCase text with
      | some (s, rest) => readOn? style foldCase n (o.add s) outer rest
      | none => none

/-- What comes after the bracket that closes a class, when brackets are merely counted. -/
def afterBrackets? : Nat → List Char → Option (List Char)
  | _, [] => none
  | depth, '\\' :: _ :: rest => afterBrackets? depth rest
  | depth, '[' :: rest => afterBrackets? (depth + 1) rest
  | 0, ']' :: rest => some rest
  | depth + 1, ']' :: rest => afterBrackets? depth rest
  | depth, _ :: rest => afterBrackets? depth rest

/-- A bracket at the very start of a class does not count. -/
def after? (text : List Char) : Option (List Char) :=
  let text := if text.head? = some '^' then text.drop 1 else text
  afterBrackets? 0 (if text.head? = some ']' then text.drop 1 else text)

/-- Reads a class behind its opening bracket. It has to end where counting brackets leads to. -/
def read? (style : Style) (foldCase : Bool) (text : List Char) : Option (CharSet × List Char) :=
  let (o, rest) := start text
  match readOn? style foldCase (text.length + 1) o [] rest, after? text with
  | some (s, rest), some counted => if rest.length = counted.length then some (s, rest) else none
  | _, _ => none

end Class

end Pattern

end Turnstile
