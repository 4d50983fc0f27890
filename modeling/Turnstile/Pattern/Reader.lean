import Turnstile.Pattern.Class

/-!
This module contains the reading of patterns from text. A pattern is plain as long as no look-around is
met in it; with the first one, all of it is read again as an extended pattern.
-/

namespace Turnstile

namespace Pattern

structure Flags where
  foldCase : Bool
  multiline : Bool
  /-- The dot also stands for a line feed. -/
  dotAll : Bool
  /-- Repetitions are lazy, and greedy with a question mark. -/
  swapGreed : Bool
  /-- Blanks and comments do not count. -/
  verbose : Bool

namespace Flags

def none : Flags :=
  ⟨false, false, false, false, false⟩

/-- Sets the flag with a letter, if there is one. -/
def set? (f : Flags) (letter : Char) (value : Bool) : Option Flags :=
  match letter with
  | 'i' => some { f with foldCase := value }
  | 'm' => some { f with multiline := value }
  | 's' => some { f with dotAll := value }
  | 'U' => some { f with swapGreed := value }
  | 'x' => some { f with verbose := value }
  | 'u' => if value then some f else .none
  | _ => .none

/--
Reads letters up to a colon or a closing parenthesis, with the letters read before and whether there has
been a dash among them. A plain pattern repeats no letter and does not end with the dash.
-/
def read? (style : Style) : Flags → List Char → Bool → List Char → Option (Flags × Bool × List Char)
  | _, _, _, [] => .none
  | f, before, dashed, c :: rest =>
    if c = ':' || c = ')' then
      let dangling := dashed && (before = [] || (style = .plain && before.head? = some '-'))
      if dangling || (before = [] && c = ')') then .none else some (f, c = ':', rest)
    else if c = '-' then
      if dashed then .none
      else read? style f (if before = [] && style = .extended then [] else '-' :: before) true rest
    else if style = .plain && before.contains c then
      .none
    else
      (f.set? c (!dashed)).bind fun f => read? style f (c :: before) dashed rest

end Flags

/-- Why reading stops before the end of the text. -/
inductive Stop where
  | invalid
  /-- A look-around is met in a plain pattern, with which the rest of the text starts. -/
  | lookAround (rest : List Char)

inductive Opening where
  | capture (number : Nat)
  /-- What is read within does not change the flags behind it. -/
  | plain (flags : Flags)
  | whole
  | ahead (negated : Bool)
  | behind (negated : Bool)

/-- What a repetition finds before it. -/
inductive Last where
  | nothing
  /-- Only a condition on the place, which cannot be repeated. -/
  | bare
  | repeatable
  | repeated

/-- A group whose end is not read yet: finished alternatives, and the parts of the current one. -/
structure Group where
  opening : Opening
  /-- The last alternative first. -/
  branches : List Pattern
  /-- The last part first. -/
  parts : List Pattern

namespace Group

def branch (g : Group) : Pattern :=
  sequence g.parts.reverse

def pattern (g : Group) : Pattern :=
  g.branches.foldl (fun later branch => .either branch later) g.branch

end Group

structure Reading where
  style : Style
  current : Group
  outer : List Group
  last : Last
  flags : Flags
  groups : Nat
  names : List (String × Nat)
  /-- Are there references to groups, by number and by name? -/
  byNumber : Bool
  byName : Bool

namespace Reading

def start (style : Style) : Reading where
  style
  current := ⟨.plain .none, [], []⟩
  outer := []
  last := .nothing
  flags := .none
  groups := 0
  names := []
  byNumber := false
  byName := false

def depthLimit : Nat := 64

def add (r : Reading) (p : Pattern) : Reading :=
  { r with current := { r.current with parts := p :: r.current.parts }, last := .repeatable }

/-- Adds a part that cannot be repeated. -/
def addBare (r : Reading) (p : Pattern) : Reading :=
  match p with
  | .empty => { r with last := .bare }
  | p => { r.add p with last := .bare }

def addSet (r : Reading) (s : CharSet) (negated : Bool) : Reading :=
  r.add (.one (s.written r.flags.foldCase negated))

def addChar (r : Reading) (c : Char) : Reading :=
  r.addSet (.ofChar c) false

/-- The number of a group that is given by number, by name, or by how many groups it is back. -/
def group? (r : Reading) (name : List Char) : Option Nat :=
  match name with
  | '-' :: digits =>
    match (String.ofList digits).toNat? with
    | some n => if 0 < n && n ≤ r.groups then some (r.groups + 1 - n) else none
    | none => none
  | name =>
    (r.names.lookup (String.ofList name)).or <|
      (String.ofList name).toNat?.filter fun n => 0 < n && n ≤ r.groups

def addBack? (r : Reading) (name : List Char) (byName : Bool) : Option Reading := do
  let number ← r.group? name
  let r := if byName then { r with byName := true } else { r with byNumber := true }
  return r.add (.back number r.flags.foldCase)

def addEscape? (r : Reading) (e : Escape) (byName : Bool) : Option Reading :=
  match e with
  | .char c => some (r.addChar c)
  | .set s negated => some (r.addSet s negated)
  | .border kind => some (r.addBare (.border kind))
  | .pattern p => if p.isBare then some (r.addBare p) else some (r.add p)
  | .back name => r.addBack? name byName

/-- Closes the group that has been opened last. -/
def close? (r : Reading) : Option Reading :=
  match r.outer with
  | [] => none
  | outer :: rest => do
    let body := r.current.pattern
    let s := { r with current := outer, outer := rest }
    match r.current.opening with
    | .capture number => return s.add (.group number body)
    | .plain flags =>
      let s := { s with flags }
      return if body.isBare then s.addBare body else s.add body
    | .whole => return s.add (.whole body)
    | .ahead negated => return s.addBare (.ahead negated body)
    | .behind negated => return s.addBare (← behind? negated body)

def nextBranch (r : Reading) : Reading :=
  let g := r.current
  { r with current := { g with branches := g.branch :: g.branches, parts := [] }, last := .nothing }

def open? (r : Reading) (opening : Opening) : Option Reading :=
  if r.outer.length + 1 < depthLimit then
    some { r with current := ⟨opening, [], []⟩, outer := r.current :: r.outer, last := .nothing }
  else
    none

def capture? (r : Reading) (name : Option (List Char)) : Option Reading :=
  let number := r.groups + 1
  let names := name.elim r.names fun name => (String.ofList name, number) :: r.names
  { r with groups := number, names }.open? (.capture number)

def name? (r : Reading) (text : List Char) : Option (List Char × List Char) :=
  let (name, rest) := text.span (· ≠ '>')
  let isRepeated := (r.names.lookup (String.ofList name)).isSome
  let startsWell := !name.head?.any Char.isDigit
  if name = [] || rest = [] || !name.all CharSet.word.contains then none
  else if r.style = .plain && (isRepeated || !startsWell) then none
  else some (name, rest.drop 1)

def openGroup (r : Reading) (text : List Char) : Except Stop (Reading × List Char) :=
  let ok (r : Option Reading) (rest : List Char) : Except Stop (Reading × List Char) :=
    match r with
    | some r => .ok (r, rest)
    | none => .error .invalid
  let look (opening : Opening) (rest : List Char) : Except Stop (Reading × List Char) :=
    if r.style = .plain then .error (.lookAround ('(' :: text)) else ok (r.open? opening) rest
  let named (rest : List Char) : Except Stop (Reading × List Char) :=
    match r.name? rest with
    | some (name, rest) => ok (r.capture? name) rest
    | none => .error .invalid
  match text with
  | '?' :: '=' :: rest => look (.ahead false) rest
  | '?' :: '!' :: rest => look (.ahead true) rest
  | '?' :: '<' :: '=' :: rest => look (.behind false) rest
  | '?' :: '<' :: '!' :: rest => look (.behind true) rest
  | '?' :: '<' :: rest => named rest
  | '?' :: 'P' :: '<' :: rest => named rest
  | '?' :: 'P' :: '=' :: rest =>
    let (name, rest) := rest.span (· ≠ ')')
    if r.style = .plain || rest = [] then .error .invalid
    else ok (r.addBack? name true) (rest.drop 1)
  | '?' :: '>' :: rest => if r.style = .plain then .error .invalid else ok (r.open? .whole) rest
  | '?' :: rest =>
    match Flags.read? r.style r.flags [] false rest with
    | some (flags, true, rest) => ok ({ r with flags }.open? (.plain r.flags)) rest
    | some (flags, false, rest) =>
      let last : Last := if r.style = .plain then .nothing else .bare
      .ok ({ r with flags, last }, rest)
    | none => .error .invalid
  | rest => ok (r.capture? none) rest

/-- Blanks and comments that do not count. -/
def skipBlanks (inComment : Bool) : List Char → List Char
  | [] => []
  | c :: rest =>
    if inComment then skipBlanks (c ≠ '\n') rest
    else if c = '#' then skipBlanks true rest
    else if c = ' ' || c = '\n' || c = '\r' || c = '\t' then skipBlanks false rest
    else c :: rest

def skip (r : Reading) (text : List Char) : List Char :=
  if r.flags.verbose then skipBlanks false text else text

def afterComment? : List Char → Option (List Char)
  | [] => none
  | '\\' :: _ :: rest => afterComment? rest
  | ')' :: rest => some rest
  | _ :: rest => afterComment? rest

/--
Repeats the last part. A question mark behind it makes the repetition lazy, and a plus sign behind that
keeps only the first way to match.
-/
def repeatLast? (r : Reading) (least : Nat) (most : Option Nat) (text : List Char) :
    Option (Reading × List Char) :=
  match r.last, r.current.parts with
  | .repeatable, body :: parts =>
    let text := r.skip text
    let (isLazy, text) :=
      match text with
      | '?' :: rest => (true, rest)
      | text => (false, text)
    let p := Pattern.repeated body least most (isLazy == r.flags.swapGreed)
    let (p, text) :=
      match text with
      | '+' :: rest => (.whole p, rest)
      | text => (p, text)
    if most.any (· < least) then none
    else some ({ r with current := { r.current with parts := p :: parts }, last := .repeated }, text)
  | _, _ => none

def countLimit : Nat := 0xffffffff

/-- Reads a count, around which blanks do not count. -/
def count? (text : List Char) : Option Nat × List Char :=
  let (digits, rest) := (text.dropWhile Char.isWhitespace).span Char.isDigit
  (if digits = [] then none else (String.ofList digits).toNat?, rest.dropWhile Char.isWhitespace)

/-- Reads the counts of a repetition behind the opening brace: a lower bound, and perhaps an upper one. -/
def counts? (text : List Char) : Option (Option Nat × Option Nat × List Char) :=
  match count? text with
  | (least, '\x7d' :: rest) => least.map fun n => (some n, some n, rest)
  | (least, ',' :: rest) =>
    match count? rest with
    | (most, '\x7d' :: rest) => some (least, most, rest)
    | _ => none
  | _ => none

/-- In plain patterns every opening brace begins a repetition, and has a lower bound behind it. -/
def bracesFit (r : Reading) (text : List Char) : Bool :=
  match r.style, r.last with
  | .extended, _ => true
  | .plain, .nothing => false
  | .plain, _ =>
    match counts? text with
    | some (some least, most, _) =>
      least ≤ most.getD least && least ≤ countLimit && most.all (· ≤ countLimit)
    | _ => false

/--
Reads what comes behind an opening brace. With blanks in it, or with nothing before it that can be
repeated, it stands for itself.
-/
def brace? (r : Reading) (text : List Char) : Option (Reading × List Char) :=
  let (inside, rest) := text.span (· ≠ '\x7d')
  let hasBlanks := inside.any Char.isWhitespace && !r.flags.verbose
  let literal := some (r.addChar '\x7b', text)
  if !r.bracesFit text then none
  else
    match counts? (inside ++ rest), r.last with
    | _, .nothing | _, .repeated | none, _ => literal
    | some (least, most, rest), _ =>
      if hasBlanks then literal else r.repeatLast? (least.getD 0) most rest

def step (r : Reading) (c : Char) (rest : List Char) : Except Stop (Reading × List Char) :=
  let found (next : Option (Reading × List Char)) : Except Stop (Reading × List Char) :=
    match next with
    | some next => .ok next
    | none => .error .invalid
  let f := r.flags
  match c with
  | '\\' => found do
    let (e, after) ← Escape.read? r.style false rest
    return (← r.addEscape? e (rest.head? = some 'k'), after)
  | '[' => found do
    let (s, rest) ← Class.read? r.style f.foldCase rest
    return (r.add (.one s), rest)
  | '(' =>
    if r.style = .extended && rest.take 2 = ['?', '#'] then
      found ((afterComment? rest).map (r, ·))
    else
      r.openGroup (r.skip rest)
  | ')' => found (r.close?.map (·, rest))
  | '|' => .ok (r.nextBranch, rest)
  | '.' => .ok (r.add (if f.dotAll then .one .all else .dot), rest)
  | '^' => .ok (r.addBare (.border (if f.multiline then .lineStart else .textStart)), rest)
  | '$' => .ok (r.addBare (.border (if f.multiline then .lineEnd else .textEnd)), rest)
  | '*' => found (r.repeatLast? 0 none rest)
  | '+' => found (r.repeatLast? 1 none rest)
  | '?' => found (r.repeatLast? 0 (some 1) rest)
  | '\x7b' => found (r.brace? rest)
  | c => .ok (r.addChar c, rest)

/--
The pattern that has been read, if all groups are closed and it is not too large. References by number
and groups with names do not go together.
-/
def finish? (r : Reading) : Option Pattern :=
  let p := r.current.pattern
  if !r.outer.isEmpty || (r.byNumber && !r.names.isEmpty) || sizeLimit < p.size then none
  else some (if r.byNumber || r.byName then p else p.withoutGroups)

/-- Reads up to the end. Each step takes at least one sign from the text. -/
def run : Nat → Reading → List Char → Except Stop Pattern
  | 0, _, _ => .error .invalid
  | n + 1, r, text =>
    match r.skip text with
    | [] =>
      match r.finish? with
      | some p => .ok p
      | none => .error .invalid
    | c :: rest =>
      match r.step c rest with
      | .ok (r, rest) => run n r rest
      | .error stop => .error stop

end Reading

def withControls : List Char → List Char
  | '\\' :: 'c' :: letter :: rest => Char.ofNat (letter.toNat % 32) :: withControls rest
  | '\\' :: c :: rest => '\\' :: c :: withControls rest
  | c :: rest => c :: withControls rest
  | [] => []

def ofChars? (text : List Char) : Option Pattern :=
  match Reading.run (text.length + 1) (.start .plain) text with
  | .ok p => some p
  | .error .invalid => none
  | .error (.lookAround rest) =>
    let text := withControls (text.take (text.length - rest.length)) ++ rest
    (Reading.run (text.length + 1) (.start .extended) text).toOption

def ofText? (text : String) : Option Pattern :=
  ofChars? text.toList

end Pattern

end Turnstile
