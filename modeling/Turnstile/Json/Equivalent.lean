import Turnstile.Json.Basic

/-!
This module contains the equality of documents that looks through the way in which numbers are written.
-/

namespace Turnstile

namespace Json

mutual

def matchesUpTo (same : Number → Number → Bool) : Json → Json → Bool
  | .null, .null => true
  | .bool a, .bool b => a == b
  | .number a, .number b => same a b
  | .string a, .string b => a == b
  | .list a, .list b => listMatchesUpTo same a b
  | .object a, .object b => membersMatchUpTo same a b
  | _, _ => false

def listMatchesUpTo (same : Number → Number → Bool) : List Json → List Json → Bool
  | [], [] => true
  | a :: as, b :: bs => matchesUpTo same a b && listMatchesUpTo same as bs
  | _, _ => false

def membersMatchUpTo (same : Number → Number → Bool) :
    List (String × Json) → List (String × Json) → Bool
  | [], [] => true
  | (k, a) :: as, (l, b) :: bs => k == l && matchesUpTo same a b && membersMatchUpTo same as bs
  | _, _ => false

end

/-- Equality of documents: numbers are equal when they have the same value. -/
def equivalent : Json → Json → Bool :=
  matchesUpTo fun a b => a.toRat == b.toRat

def identical : Json → Json → Bool :=
  matchesUpTo fun a b => a.toRat == b.toRat && a.toDouble == b.toDouble

/-- No two of the documents are equal. From sixteen documents on, the two zeros count as different. -/
def areDistinct (items : List Json) : Bool :=
  go (if items.length < 16 then equivalent else identical) items
where
  go (equal : Json → Json → Bool) : List Json → Bool
    | [] => true
    | item :: rest => !rest.any (equal item) && go equal rest

end Json

end Turnstile
