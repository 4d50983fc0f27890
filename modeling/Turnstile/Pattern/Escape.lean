import Turnstile.Pattern.Basic

/-!
This module contains what stands behind a backslash in a pattern. There are two styles of patterns:
plain ones, whose letters, digits and blanks are those of ASCII, and extended ones, which look around
and know all writings.
-/

namespace Turnstile

namespace Pattern

inductive Style where
  | plain | extended
  deriving DecidableEq

inductive Escape where
  | char (c : Char)
  | set (s : CharSet) (negated : Bool)
  | border (kind : Border)
  | back (group : List Char)
  | pattern (p : Pattern)

namespace Escape

def isHexDigit (c : Char) : Bool :=
  CharSet.hexDigit.contains c

def hexValue (digits : List Char) : Nat :=
  digits.foldl (fun n c => n * 16 + (CharSet.hexDigits.idxOf c.toLower)) 0

/-- The character with a code point, if there is one. -/
def ofCode? (code : Nat) : Option Char :=
  if code.isValidChar then some (Char.ofNat code) else none

/-- Reads so many hexadecimal digits, or up to eight in braces. -/
def hex? (count : Nat) (text : List Char) : Option (Char × List Char) :=
  match text with
  | '\x7b' :: rest =>
    let (digits, rest) := rest.span isHexDigit
    match rest with
    | '\x7d' :: rest =>
      if digits = [] || 8 < digits.length then none
      else (ofCode? (hexValue digits)).map (·, rest)
    | _ => none
  | text =>
    let digits := text.take count
    if digits.length = count && digits.all isHexDigit then
      (ofCode? (hexValue digits)).map (·, text.drop count)
    else
      none

/-- The set that a name or a name with a value stands for, and whether it is negated. -/
def named? (name : List Char) : Option (CharSet × Bool) :=
  let (left, right) := name.span fun c => c ≠ '!' && c ≠ ':' && c ≠ '='
  match right with
  | '!' :: '=' :: value => (CharSet.ofNameAndValue? left value).map (·, true)
  | ':' :: value | '=' :: value => (CharSet.ofNameAndValue? left value).map (·, false)
  | _ => (CharSet.ofName? name).map (·, false)

/-- Reads the name of a property: one letter, or a name in braces. -/
def property? (text : List Char) : Option ((CharSet × Bool) × List Char) :=
  match text with
  | '\x7b' :: rest =>
    let (name, rest) := rest.span (· ≠ '\x7d')
    match rest with
    | '\x7d' :: rest => (named? name).map (·, rest)
    | _ => none
  | '\\' :: _ => none
  | c :: rest => (CharSet.ofName? [c]).map fun s => ((s, false), rest)
  | [] => none

def group? (text : List Char) : Option (Escape × List Char) :=
  let closed (close : Char) (rest : List Char) : Option (Escape × List Char) :=
    let (name, rest) := rest.span (· ≠ close)
    if name = [] || rest = [] then none else some (.back name, rest.drop 1)
  match text with
  | '<' :: rest => closed '>' rest
  | '\x27' :: rest => closed '\x27' rest
  | _ => none

/-- A set by its letter. The capital letter stands for all other characters. -/
def set? (style : Style) (c : Char) : Option Escape :=
  let plain := style = .plain
  let named (s : CharSet) : Option Escape := some (.set s c.isUpper)
  match c.toLower with
  | 'd' => named (if plain then .digit else .anyDigit)
  | 's' => named (if plain then .blank else .anyBlank)
  | 'w' => named (if plain then .word else .anyWord)
  | 'h' => if plain then none else named .hexDigit
  | _ => none

def control? (style : Style) (inClass : Bool) (c : Char) : Option Char :=
  match c with
  | 'f' => some '\x0c'
  | 'n' => some '\n'
  | 'r' => some '\r'
  | 't' => some '\t'
  | 'v' => some '\x0b'
  | 'a' => if style = .plain && !inClass then none else some '\x07'
  | 'e' => if style = .plain then none else some '\x1b'
  | _ => none

def place? (style : Style) (c : Char) (rest : List Char) : Option Escape :=
  match c with
  | 'A' => some (.border .textStart)
  | 'z' => some (.border .textEnd)
  | 'b' => if rest.head? = some '\x7b' then none else some (.border .wordEdge)
  | 'B' => if rest.head? = some '\x7b' then none else some (.border .noWordEdge)
  | '<' => some (.border .wordStart)
  | '>' => some (.border .wordEnd)
  | c =>
    if style = .plain then none
    else
      match c with
      | 'G' => some (.border .textStart)
      | 'K' => some (.pattern .empty)
      | 'Z' =>
        some (.pattern (.ahead false (.seq (.repeated (.one (.ofChar '\n')) 0 none true)
          (.border .textEnd))))
      | _ => none

def itself? (c : Char) : Option Escape :=
  if c.toNat < 128 && !c.isAlphanum then some (.char c) else none

def read? (style : Style) (inClass : Bool) (text : List Char) : Option (Escape × List Char) :=
  match text with
  | [] => none
  | c :: rest =>
    match c with
    | 'x' => (hex? 2 rest).map fun (c, rest) => (.char c, rest)
    | 'u' => (hex? 4 rest).map fun (c, rest) => (.char c, rest)
    | 'U' => (hex? 8 rest).map fun (c, rest) => (.char c, rest)
    | 'p' => (property? rest).map fun ((s, negated), rest) => (.set s negated, rest)
    | 'P' => (property? rest).map fun ((s, negated), rest) => (.set s (!negated), rest)
    | 'c' =>
      match style, rest with
      | .plain, letter :: rest =>
        if letter.isAlpha then some (.char (Char.ofNat (letter.toNat % 32)), rest) else none
      | _, _ => none
    | 'k' => if style = .plain || inClass then none else group? rest
    | c =>
      if c.isDigit then
        if style = .plain || inClass then none
        else
          let (digits, rest) := (c :: rest).span Char.isDigit
          some (.back digits, rest)
      else
        let found := (set? style c).or ((control? style inClass c).map .char)
        let found := if inClass then found else found.or (place? style c rest)
        let isAngle := (c = '<' || c = '>') && style = .plain
        (found.or (if isAngle then none else itself? c)).map (·, rest)

end Escape

end Pattern

end Turnstile
