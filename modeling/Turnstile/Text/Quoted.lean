import Turnstile.Text.Category

/-!
This module contains quoted texts as they stand in descriptions for developers: what cannot be seen is
written as an escape.
-/

namespace Turnstile

namespace Quoted

/-- Marks have this property by their category; these ranges have it besides. -/
def extenders : List (Nat × Nat) :=
  [(0x9be, 0x9be), (0x9d7, 0x9d7), (0xb3e, 0xb3e), (0xb57, 0xb57), (0xbbe, 0xbbe),
    (0xbd7, 0xbd7), (0xcc0, 0xcc0), (0xcc2, 0xcc2), (0xcc7, 0xcc8), (0xcca, 0xccb),
    (0xcd5, 0xcd6), (0xd3e, 0xd3e), (0xd57, 0xd57), (0xdcf, 0xdcf), (0xddf, 0xddf),
    (0x1715, 0x1715), (0x1734, 0x1734), (0x1b35, 0x1b35), (0x1b3b, 0x1b3b), (0x1b3d, 0x1b3d),
    (0x1b43, 0x1b44), (0x1baa, 0x1baa), (0x1bf2, 0x1bf3), (0x200c, 0x200c), (0x302e, 0x302f),
    (0xa953, 0xa953), (0xa9c0, 0xa9c0), (0xff9e, 0xff9f), (0x111c0, 0x111c0), (0x11235, 0x11235),
    (0x1133e, 0x1133e), (0x1134d, 0x1134d), (0x11357, 0x11357), (0x113b8, 0x113b8),
    (0x113c2, 0x113c2), (0x113c5, 0x113c5), (0x113c7, 0x113c9), (0x113cf, 0x113cf),
    (0x114b0, 0x114b0), (0x114bd, 0x114bd), (0x115af, 0x115af), (0x116b6, 0x116b6),
    (0x11930, 0x11930), (0x1193d, 0x1193d), (0x16ff0, 0x16ff1), (0x1d165, 0x1d166),
    (0x1d16d, 0x1d172), (0xe0020, 0xe007f)]

/-- Does the character only extend the one before it? -/
def isExtender (c : Char) : Bool :=
  Category.ofChar c = .nonspacingMark || Category.ofChar c = .enclosingMark ||
    extenders.any fun (low, high) => low ≤ c.toNat && c.toNat ≤ high

/-- The Hangul fillers are letters, but stand for a letter that is missing. -/
def isFiller (c : Char) : Bool :=
  [0x115f, 0x1160, 0x3164, 0xffa0].contains c.toNat

/-- Of the blanks only the space counts as a sign of its own. -/
def isHidden (c : Char) : Bool :=
  let hidden : List Category := [.spaceSeparator, .lineSeparator, .paragraphSeparator, .control,
    .format, .surrogate, .privateUse, .unassigned]
  c ≠ ' ' && (hidden.contains (Category.ofChar c) || isExtender c || isFiller c)

def escape (c : Char) : String :=
  if c = '"' then "\\\""
  else if c = '\\' then "\\\\"
  else if c = '\n' then "\\n"
  else if c = '\t' then "\\t"
  else if c = '\r' then "\\r"
  else if c = '\x00' then "\\0"
  else if isHidden c then
    "\\u\x7b" ++ String.ofList (Nat.toDigits 16 c.toNat) ++ "\x7d"
  else c.toString

end Quoted

/-- The text in double quotes, with escapes. -/
def quoted (text : String) : String :=
  "\"" ++ String.join (text.toList.map Quoted.escape) ++ "\""

def bracketed (parts : List String) : String :=
  "[" ++ String.intercalate ", " parts ++ "]"

def braced (entries : List (String × String)) : String :=
  "\x7b" ++ String.intercalate ", " (entries.map fun (key, value) => quoted key ++ ": " ++ value) ++
    "\x7d"

/-- A name and fields. A partial description says that some fields are not shown. -/
def described (name : String) (fields : List (String × String)) (isPartial : Bool) : String :=
  let shown := fields.map fun (field, value) => field ++ ": " ++ value
  let shown := if isPartial then shown ++ [".."] else shown
  name ++ " \x7b " ++ String.intercalate ", " shown ++ " \x7d"

end Turnstile
