import Std.Data.HashSet
import Turnstile.Pattern.CharSet

/-!
This module contains regular expressions and how they match. What comes first in a pattern is tried
first; of all ways to match, a part that is taken as a whole keeps the first one.
-/

namespace Turnstile

/-- A condition on a place in a text that looks at one character on each side. -/
inductive Pattern.Border where
  | textStart | textEnd | lineStart | lineEnd | wordEdge | noWordEdge | wordStart | wordEnd
  deriving DecidableEq

inductive Pattern where
  | empty
  | one (set : CharSet)
  | border (kind : Pattern.Border)
  | seq (first second : Pattern)
  | either (first second : Pattern)
  /--
  At least `least` times, and at most `most` times if there is a bound. Without a bound, each further
  time has to go on in the text.
  -/
  | repeated (body : Pattern) (least : Nat) (most : Option Nat) (greedy : Bool)
  /-- The text that the body matches can be asked for again. -/
  | group (number : Nat) (body : Pattern)
  | back (group : Nat) (foldCase : Bool)
  /-- Only the first way to match. -/
  | whole (body : Pattern)
  | ahead (negated : Bool) (body : Pattern)
  /-- A condition on the last `width` characters. -/
  | behind (negated : Bool) (width : Nat) (body : Pattern)

namespace Pattern

/-- A place in a text, with what the groups have matched on the way to it. -/
structure Spot where
  /-- The characters before the place, the last one first. -/
  before : List Char
  after : List Char
  /-- The number of characters after the place. -/
  left : Nat
  groups : List (Nat × List Char)

namespace Spot

def start (text : List Char) : Spot :=
  ⟨[], text, text.length, []⟩

/-- Within one text, this tells spots apart. -/
def key (s : Spot) : Nat × List (Nat × String) :=
  (s.left, s.groups.map fun (number, text) => (number, String.ofList text))

def next? (s : Spot) : Option (Char × Spot) :=
  match s.after with
  | c :: rest => some (c, { s with before := c :: s.before, after := rest, left := s.left - 1 })
  | [] => none

def back? (s : Spot) : Nat → Option Spot
  | 0 => some s
  | n + 1 =>
    match s.before with
    | c :: rest => back? { s with before := rest, after := c :: s.after, left := s.left + 1 } n
    | [] => none

def along? (same : Char → Char → Bool) (s : Spot) : List Char → Option Spot
  | [] => some s
  | c :: rest => do
    let (d, s) ← s.next?
    if same c d then s.along? same rest else none

def isWord (side : List Char) : Bool :=
  side.head?.any CharSet.anyWord.contains

def meets (s : Spot) (border : Border) : Bool :=
  let before := isWord s.before
  let after := isWord s.after
  match border with
  | .textStart => s.before.isEmpty
  | .textEnd => s.after.isEmpty
  | .lineStart => s.before.head?.all (· = '\n')
  | .lineEnd => s.after.head?.all (· = '\n')
  | .wordEdge => before != after
  | .noWordEdge => before == after
  | .wordStart => !before && after
  | .wordEnd => before && !after

end Spot

/-- The spots that have been gone on from, with the number of rounds that were left. -/
abbrev Visited := Std.HashSet (Nat × Nat × List (Nat × String))

/-- Keeps the first of spots that are the same. -/
def distinct (spots : List Spot) : List Spot :=
  match spots with
  | [] | [_] => spots
  | spots => (spots.foldl keep ([], (∅ : Visited))).1.reverse
where
  keep (found : List Spot × Visited) (s : Spot) : List Spot × Visited :=
    if found.2.contains (0, s.key) then found else (s :: found.1, found.2.insert (0, s.key))

/-- The spots after exactly the given number of rounds. -/
def iterate (step : Spot → List Spot) : Nat → List Spot → List Spot
  | 0, spots => spots
  | n + 1, spots => if spots.isEmpty then [] else iterate step n (distinct (spots.flatMap step))

/--
The spots after up to the given number of rounds. A spot is gone on from once, since all that comes after
it is found already when it is met again.
-/
def upTo (step : Spot → List Spot) (greedy : Bool) :
    Nat → Spot → List Spot × Visited → List Spot × Visited
  | 0, s, (found, visited) => (s :: found, visited)
  | n + 1, s, (found, visited) =>
    let key := (min (n + 1) s.left, s.key)
    if visited.contains key then
      (found, visited)
    else
      let further (state : List Spot × Visited) : List Spot × Visited :=
        (step s).foldl (fun state t => upTo step greedy n t state) state
      if greedy then
        let (found, visited) := further (found, visited.insert key)
        (s :: found, visited)
      else
        further (s :: found, visited.insert key)

/-- The spots after the pattern, from the one that is tried first to the last one. -/
def spots : Pattern → Spot → List Spot
  | .empty, s => [s]
  | .one set, s =>
    match s.next? with
    | some (c, t) => if set.contains c then [t] else []
    | none => []
  | .border kind, s => if s.meets kind then [s] else []
  | .seq first second, s => distinct ((spots first s).flatMap (spots second))
  | .either first second, s => distinct (spots first s ++ spots second s)
  | .repeated body least most greedy, s =>
    let starts := iterate (spots body) least [s]
    let found :=
      match most with
      | some most =>
        starts.foldl (fun found t => upTo (spots body) greedy (most - least) t found) ([], ∅)
      | none =>
        let onwards (t : Spot) : List Spot := (spots body t).filter fun u => u.left < t.left
        starts.foldl (fun found (t : Spot) => upTo onwards greedy t.left t found) ([], ∅)
    distinct found.1.reverse
  | .group number body, s =>
    (spots body s).map fun t =>
      { t with groups := (number, s.after.take (s.left - t.left)) ::
          t.groups.filter fun (other, _) => other ≠ number }
  | .back number foldCase, s =>
    let same (c d : Char) : Bool := if foldCase then (CaseFolding.alike c).contains d else c == d
    ((s.groups.lookup number).bind (s.along? same)).toList
  | .whole body, s => (spots body s).take 1
  | .ahead negated body, s =>
    match spots body s with
    | t :: _ => if negated then [] else [{ s with groups := t.groups }]
    | [] => if negated then [s] else []
  | .behind negated width body, s =>
    match (s.back? width).elim [] (spots body) with
    | t :: _ => if negated then [] else [{ s with groups := t.groups }]
    | [] => if negated then [s] else []

def occursFrom (p : Pattern) : Nat → Spot → Bool
  | 0, s => !(p.spots s).isEmpty
  | n + 1, s => !(p.spots s).isEmpty || s.next?.any fun (_, t) => p.occursFrom n t

def occursIn (p : Pattern) (text : String) : Bool :=
  p.occursFrom text.length (.start text.toList)

/-- Any character but a line feed. -/
def dot : Pattern :=
  .one (.complement (.ofChar '\n'))

/-- Patterns one after the other. -/
def sequence : List Pattern → Pattern
  | [] => .empty
  | [p] => p
  | p :: rest => .seq p (sequence rest)

/-- Does the pattern match nothing but a place, however the text looks? -/
def isBare : Pattern → Bool
  | .empty | .border _ | .ahead _ _ | .behind _ _ _ => true
  | _ => false

/-- The number of characters that the pattern matches, if it is always the same. -/
def width? : Pattern → Option Nat
  | .empty | .border _ | .ahead _ _ | .behind _ _ _ => some 0
  | .one _ => some 1
  | .seq first second => do return (← first.width?) + (← second.width?)
  | .either first second => do
    let width ← first.width?
    if second.width? = some width then some width else none
  | .repeated body least most _ =>
    if most = some least then body.width?.map (least * ·) else none
  | .group _ body | .whole body => body.width?
  | .back _ _ => none

/-- The memory that a pattern takes, in bytes, when its repetitions are written out. -/
def size : Pattern → Nat
  | .empty | .border _ | .back _ _ => 32
  | .one set => set.size
  | .seq first second => first.size + second.size
  | .either first second => first.size + second.size + 36
  | .repeated body least most _ =>
    match most with
    | some most => least * body.size + (most - least) * (body.size + 40)
    | none => max 1 least * body.size + 40
  | .group _ body => body.size + 64
  | .whole body | .ahead _ body | .behind _ _ body => body.size

def sizeLimit : Nat := 0xa00000

def alternatives : Pattern → List Pattern
  | .either first second => first :: second.alternatives
  | p => [p]

/-- A pattern without references to groups need not keep what they match. -/
def withoutGroups : Pattern → Pattern
  | .seq first second => .seq first.withoutGroups second.withoutGroups
  | .either first second => .either first.withoutGroups second.withoutGroups
  | .repeated body least most greedy => .repeated body.withoutGroups least most greedy
  | .group _ body => body.withoutGroups
  | .whole body => .whole body.withoutGroups
  | .ahead negated body => .ahead negated body.withoutGroups
  | .behind negated width body => .behind negated width body.withoutGroups
  | p => p

/-- Looks back along each alternative, of which each has to have one width. -/
def behind? (negated : Bool) (body : Pattern) : Option Pattern :=
  match body.width? with
  | some width => some (.behind negated width body)
  | none => do
    let parts ← body.alternatives.mapM fun p => do return Pattern.behind negated (← p.width?) p
    return if negated then sequence parts else parts.foldr .either (.one .empty)

end Pattern

end Turnstile
