import Turnstile.Text.CaseFolding
import Turnstile.Text.Category
import Turnstile.Text.Writing

/-!
This module contains sets of characters, and those that patterns know by name.
-/

namespace Turnstile

inductive CharSet where
  | empty
  | range (first last : Char)
  | category (c : Category)
  | writing (w : Writing)
  | union (a b : CharSet)
  | inter (a b : CharSet)
  | complement (s : CharSet)
  /-- All characters that differ at most in case from one of the set. -/
  | folded (s : CharSet)

namespace CharSet

def contains : CharSet → Char → Bool
  | empty, _ => false
  | range first last, c => first ≤ c && c ≤ last
  | category kind, c => Category.ofChar c = kind
  | writing w, c => w.contains c
  | union a b, c => a.contains c || b.contains c
  | inter a b, c => a.contains c && b.contains c
  | complement s, c => !s.contains c
  | folded s, c => (CaseFolding.alike c).any s.contains

/-- Does the set have characters of ASCII only, as far as can be told from how it is made? -/
def isAscii : CharSet → Bool
  | empty => true
  | range _ last => last.toNat < 128
  | category _ | writing _ | complement _ | folded _ => false
  | union a b => a.isAscii && b.isAscii
  | inter a b => a.isAscii || b.isAscii

/-- The memory that a set takes in a pattern, in bytes and roughly. -/
def size : CharSet → Nat
  | range first last => if first = last then 32 * first.utf8Size else if last.toNat < 128 then 32 else 200
  | s => if s.isAscii then 64 else 400

def ofChar (c : Char) : CharSet :=
  range c c

def unionAll (sets : List CharSet) : CharSet :=
  sets.foldr union empty

def difference (a b : CharSet) : CharSet :=
  inter a (complement b)

def symmetricDifference (a b : CharSet) : CharSet :=
  union (difference a b) (difference b a)

def ofRanges (ranges : List (Nat × Nat)) : CharSet :=
  unionAll (ranges.map fun (first, last) => range (Char.ofNat first) (Char.ofNat last))

def ofText (text : String) : CharSet :=
  unionAll (text.toList.map ofChar)

def all : CharSet := complement empty

/-- The set as patterns write it: with case or without, and negated or not. -/
def written (s : CharSet) (foldCase negated : Bool) : CharSet :=
  let s := if foldCase then folded s else s
  if negated then complement s else s

def digit : CharSet := range '0' '9'

def lower : CharSet := range 'a' 'z'

def upper : CharSet := range 'A' 'Z'

def letter : CharSet := union lower upper

def word : CharSet := unionAll [letter, digit, ofChar '_']

/-- The blanks of patterns without look-around. -/
def blank : CharSet :=
  union (ofText " \t\n\r\x0b\x0c") (ofRanges [(0xa0, 0xa0), (0xfeff, 0xfeff), (0x2003, 0x2003),
    (0x2029, 0x2029)])

def hexDigits : List Char := "0123456789abcdef".toList

def hexDigit : CharSet := unionAll [digit, range 'a' 'f', range 'A' 'F']

/-! ## Sets of all writings -/

def anyDigit : CharSet := category .decimalNumber

def anyBlank : CharSet :=
  ofRanges [(0x9, 0xd), (0x20, 0x20), (0x85, 0x85), (0xa0, 0xa0), (0x1680, 0x1680),
    (0x2000, 0x200a), (0x2028, 0x2029), (0x202f, 0x202f), (0x205f, 0x205f), (0x3000, 0x3000)]

def categories (initial : Char) : CharSet :=
  unionAll ((Category.all.filter fun c => c.code.toList.head? = some initial).map category)

/-- Letters in circles and squares, capital ones first. -/
def enclosedCapitals : CharSet :=
  ofRanges [(0x24b6, 0x24cf), (0x1f130, 0x1f149), (0x1f150, 0x1f169), (0x1f170, 0x1f189)]

def enclosedSmall : CharSet := ofRanges [(0x24d0, 0x24e9)]

def anyLetter : CharSet :=
  unionAll [categories 'L', category .letterNumber, enclosedCapitals, enclosedSmall]

def anyWord : CharSet :=
  unionAll [anyLetter, categories 'M', anyDigit, category .connectorPunctuation,
    ofRanges [(0x200c, 0x200d)]]

def anyUpper : CharSet :=
  unionAll [category .uppercaseLetter, enclosedCapitals, ofRanges [(0x2160, 0x216f)]]

/-- Small letters, among them modifiers and numerals that look like such. -/
def anyLower : CharSet :=
  unionAll [category .lowercaseLetter, enclosedSmall,
    ofRanges [(0xaa, 0xaa), (0xba, 0xba), (0x2b0, 0x2b8), (0x2c0, 0x2c1), (0x2e0, 0x2e4),
      (0x345, 0x345), (0x37a, 0x37a), (0x10fc, 0x10fc), (0x1d2c, 0x1d6a), (0x1d78, 0x1d78),
      (0x1d9b, 0x1dbf), (0x2071, 0x2071), (0x207f, 0x207f), (0x2090, 0x209c), (0x2170, 0x217f),
      (0x2c7c, 0x2c7d), (0xa69c, 0xa69d), (0xa770, 0xa770), (0xa7f2, 0xa7f4), (0xa7f8, 0xa7f9),
      (0xab5c, 0xab5f), (0xab69, 0xab69), (0x10780, 0x10780), (0x10783, 0x10785),
      (0x10787, 0x107b0), (0x107b2, 0x107ba), (0x1e030, 0x1e06d)]]

/-! ## Names -/

/-- The sets between `[:` and `:]`. -/
def ofClassName? (name : String) : Option CharSet :=
  match name with
  | "alnum" => some (union letter digit)
  | "alpha" => some letter
  | "ascii" => some (range '\x00' '\x7f')
  | "blank" => some (ofText " \t")
  | "cntrl" => some (union (range '\x00' '\x1f') (ofChar '\x7f'))
  | "digit" => some digit
  | "graph" => some (range '!' '~')
  | "lower" => some lower
  | "print" => some (range ' ' '~')
  | "punct" => some (unionAll [range '!' '/', range ':' '@', range '[' (Char.ofNat 0x60),
      range '\x7b' '~'])
  | "space" => some (ofText " \t\n\r\x0b\x0c")
  | "upper" => some upper
  | "word" => some word
  | "xdigit" => some hexDigit
  | _ => none

/-- Other names of categories and of groups of them, in small letters. -/
def ofCategoryName? (name : String) : Option CharSet :=
  match name with
  | "any" => some all
  | "ascii" => some (range '\x00' '\x7f')
  | "assigned" => some (complement (category .unassigned))
  | "c" | "other" => some (categories 'C')
  | "l" | "letter" => some (categories 'L')
  | "lc" | "casedletter" =>
    some (unionAll ([.uppercaseLetter, .lowercaseLetter, .titlecaseLetter].map category))
  | "m" | "mark" | "combiningmark" => some (categories 'M')
  | "n" | "number" => some (categories 'N')
  | "p" | "punctuation" | "punct" => some (categories 'P')
  | "s" | "symbol" => some (categories 'S')
  | "z" | "separator" => some (categories 'Z')
  | "cntrl" => some (category .control)
  | "digit" => some (category .decimalNumber)
  | name =>
    (Category.all.find? fun c => c.code.toLower = name || c.name = name).map category

def ofProperty? (name : String) : Option CharSet :=
  match name with
  | "alphabetic" | "alpha" => some (union anyLetter (category .spacingMark))
  | "lowercase" | "lower" => some anyLower
  | "uppercase" | "upper" => some anyUpper
  | "whitespace" | "wspace" | "space" => some anyBlank
  | "asciihexdigit" | "ahex" => some hexDigit
  | "hexdigit" | "hex" =>
    some (union hexDigit (ofRanges [(0xff10, 0xff19), (0xff21, 0xff26), (0xff41, 0xff46)]))
  | _ => none

/-- A name without the signs that do not count, in small letters. -/
def plainName (name : List Char) : String :=
  let kept := (name.filter fun c => c ≠ ' ' && c ≠ '_' && c ≠ '-').map Char.toLower
  let kept :=
    match kept with
    | 'i' :: 's' :: rest => if rest.isEmpty || rest = ['c'] then kept else rest
    | kept => kept
  String.ofList kept

/-- The set of the characters with a property, a category or a writing. -/
def ofName? (name : List Char) : Option CharSet :=
  let name := plainName name
  ofProperty? name |>.or (ofCategoryName? name) |>.or ((Writing.ofName? name).map writing)

def ofNameAndValue? (name value : List Char) : Option CharSet :=
  match plainName name with
  | "generalcategory" | "gc" => ofCategoryName? (plainName value)
  | "script" | "sc" => (Writing.ofName? (plainName value)).map writing
  | _ => none

end CharSet

end Turnstile
