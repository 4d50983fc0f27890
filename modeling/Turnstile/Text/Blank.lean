/-!
This module contains the characters of white space, which are those that Unicode gives this property.
-/

namespace Turnstile

namespace Blank

/-- The ranges of characters of white space, with both ends included. -/
def ranges : List (Nat × Nat) :=
  [(0x9, 0xd), (0x20, 0x20), (0x85, 0x85), (0xa0, 0xa0), (0x1680, 0x1680), (0x2000, 0x200a),
    (0x2028, 0x2029), (0x202f, 0x202f), (0x205f, 0x205f), (0x3000, 0x3000)]

def isBlank (c : Char) : Bool :=
  ranges.any fun (first, last) => first ≤ c.toNat && c.toNat ≤ last

example : isBlank ' ' ∧ isBlank '\t' ∧ isBlank '\u3000' ∧ ¬ isBlank '\u200b' := by decide

end Blank

/-- Is there nothing but white space in the line? -/
def isBlankLine (line : String) : Bool :=
  line.all Blank.isBlank

end Turnstile
