import Turnstile.Json.Printer
import Turnstile.Json.Reader
import Turnstile.Proofs.Json.Order
import Turnstile.Proofs.Number.Numeral

/-!
This module contains what the reader makes of a text that was printed. The value comes back, except that a double
is what its own text is read as, and that containers that are nested too deeply cannot be read at all.
-/

namespace Turnstile

namespace Number

/-- What the text of the number is read as. A whole number is always read as itself, a double need not be. -/
def reread (n : Number) : Number :=
  (ofText? n.text.toList).getD n

/-- The text of the largest doubles can be out of range. -/
def isLegible (n : Number) : Bool :=
  (ofText? n.text.toList).isSome

@[simp]
theorem reread_int (value : Int) (fits : Fits value) : reread (.int value fits) = .int value fits := by
  unfold reread
  rw [ofText?_int]
  rfl

@[simp]
theorem isLegible_int (value : Int) (fits : Fits value) : isLegible (.int value fits) := by
  unfold isLegible
  rw [ofText?_int]
  rfl

end Number

namespace Json

mutual

/-- What the text of the value is read as, if it can be read. -/
def reread : Json → Json
  | .number n => .number n.reread
  | .list items => .list (rereadItems items)
  | .object members => .object (rereadMembers members)
  | other => other

def rereadItems : List Json → List Json
  | [] => []
  | item :: rest => reread item :: rereadItems rest

def rereadMembers : List (String × Json) → List (String × Json)
  | [] => []
  | (key, value) :: rest => (key, reread value) :: rereadMembers rest

end

mutual

/-- Can the text of the value be read, inside of so many containers? -/
def isLegible (depth : Nat) : Json → Bool
  | .number n => n.isLegible
  | .list items => depth < Reader.maxDepth && areLegible (depth + 1) items
  | .object members => depth < Reader.maxDepth && haveLegible (depth + 1) members
  | _ => true

def areLegible (depth : Nat) : List Json → Bool
  | [] => true
  | item :: rest => isLegible depth item && areLegible depth rest

def haveLegible (depth : Nat) : List (String × Json) → Bool
  | [] => true
  | (_, value) :: rest => isLegible depth value && haveLegible depth rest

end

mutual

/-- Is every number of the value read as itself? -/
def isExact : Json → Bool
  | .number n => n.reread = n
  | .list items => areExact items
  | .object members => haveExact members
  | _ => true

def areExact : List Json → Bool
  | [] => true
  | item :: rest => isExact item && areExact rest

def haveExact : List (String × Json) → Bool
  | [] => true
  | (_, value) :: rest => isExact value && haveExact rest

end

mutual

theorem reread_of_isExact : (v : Json) → v.isExact → v.reread = v
  | .null, _ | .bool _, _ | .string _, _ => rfl
  | .number _, h => congrArg number (of_decide_eq_true h)
  | .list items, h => congrArg list (rereadItems_of_areExact items h)
  | .object members, h => congrArg object (rereadMembers_of_haveExact members h)

theorem rereadItems_of_areExact : (items : List Json) → areExact items → rereadItems items = items
  | [], _ => rfl
  | item :: rest, h => by
    rcases Bool.and_eq_true_iff.mp h with ⟨hi, hr⟩
    exact congrArg₂ List.cons (reread_of_isExact item hi) (rereadItems_of_areExact rest hr)

theorem rereadMembers_of_haveExact :
    (members : List (String × Json)) → haveExact members → rereadMembers members = members
  | [], _ => rfl
  | (key, value) :: rest, h => by
    rcases Bool.and_eq_true_iff.mp h with ⟨hv, hr⟩
    unfold rereadMembers
    rw [reread_of_isExact value hv, rereadMembers_of_haveExact rest hr]

end

namespace Reader

/-! ## Characters that are taken -/

/-- The reader takes all the characters. -/
inductive Takes : State → List Char → State → Prop where
  | nil : Takes s [] s
  | cons (h : step? s c = some next) (hs : Takes next chars last) : Takes s (c :: chars) last

variable {s s' : State} {stack : List Frame} {chars more rest : List Char} {value : Written} {first : Bool}
  {part : NumberPart}

theorem advance_cons (h : step? s c = some next) : advance s (c :: rest) = advance next rest := by
  rw [advance, h]

namespace Takes

theorem append (h : Takes s chars next) (hs : Takes next more s') : Takes s (chars ++ more) s' := by
  induction h with
  | nil => exact hs
  | cons hc _ ih => exact .cons hc (ih hs)

theorem advance_append (h : Takes s chars s') (rest : List Char) : advance s (chars ++ rest) = advance s' rest := by
  induction h with
  | nil => rfl
  | cons hc _ ih => rw [List.cons_append, advance_cons hc, ih]

theorem single (h : step? s c = some s') : Takes s [c] s' :=
  .cons h .nil

end Takes

/-- A value has ended here as far as it is known. Whether a number goes on depends on the next character. -/
structure State.Holds (s : State) (stack : List Frame) (value : Written) : Prop where
  stack : s.stack = stack
  ended : s.ended? = some value

theorem holds_ended (stack : List Frame) (value : Written) : State.Holds ⟨stack, .ended value⟩ stack value :=
  ⟨rfl, rfl⟩

theorem next?_eq_none {part : NumberPart} (hc : c = ',' ∨ c = ']' ∨ c = '\x7d') : part.next? c = none := by
  rcases hc with hc | hc | hc <;> subst hc <;> cases part <;> rfl

theorem step?_of_holds (h : s.Holds stack value) (hc : c = ',' ∨ c = ']' ∨ c = '\x7d') :
    step? s c = afterValue? value c stack := by
  rcases s with ⟨frames, mode⟩
  rcases h with ⟨hs, he⟩
  have hb : isBlank c = false := by
    rcases hc with hc | hc | hc <;> subst hc <;> rfl
  dsimp only at hs
  subst hs
  cases mode with
  | ended _ =>
    cases he
    unfold step? plainStep?
    simp [hb]
  | number chars part =>
    unfold State.ended? at he
    dsimp only at he
    split at he
    . next hp =>
      cases he
      unfold step?
      dsimp only
      rw [next?_eq_none hc]
      dsimp only
      rw [if_pos hp]
      unfold plainStep?
      simp [hb]
    . cases he
  | _ => cases he

/-! ## Numbers -/

open Numeral

theorem takes_digits (stack : List Frame) (hp : part = .whole ∨ part = .decimals ∨ part = .power)
    (hd : ∀ c ∈ digits, c.isDigit) (chars : List Char) :
    Takes ⟨stack, .number chars part⟩ digits ⟨stack, .number (digits.reverse ++ chars) part⟩ := by
  induction digits generalizing chars with
  | nil => exact .nil
  | cons c rest ih =>
    rw [List.forall_mem_cons] at hd
    have hn : part.next? c = some part := by
      rcases hp with hp | hp | hp <;> subst hp <;> simp [NumberPart.next?, hd.1]
    have hs : step? ⟨stack, .number chars part⟩ c = some ⟨stack, .number (c :: chars) part⟩ := by
      unfold step?
      dsimp only
      rw [hn]
    have := ih hd.2 (c :: chars)
    rw [List.reverse_cons, List.append_assoc]
    exact .cons hs this

theorem startValue?_of_isDigit (hd : c.isDigit) (hz : c ≠ '0') :
    startValue? stack c = some ⟨stack, .number [c] .whole⟩ := by
  unfold startValue?
  split <;> simp_all

theorem isBlank_of_isDigit {c : Char} (h : c.isDigit) : isBlank c = false := by
  have hd : ∀ {d}, d.isDigit = false → c ≠ d := ne_of_isDigit h
  simp [isBlank, hd (d := ' ') rfl, hd (d := '\t') rfl, hd (d := '\n') rfl, hd (d := '\r') rfl]

theorem takes_whole (stack : List Frame) (first : Bool) (hs : IsSign sign) (hw : IsWhole digits) :
    ∃ part, (part = .zero ∨ part = .whole) ∧
      Takes ⟨stack, .value first⟩ (sign ++ digits) ⟨stack, .number (sign ++ digits).reverse part⟩ := by
  rcases hw with ⟨hn, hz, hd⟩
  cases digits with
  | nil => contradiction
  | cons c rest =>
    rw [List.forall_mem_cons] at hd
    have hb : isBlank c = false := isBlank_of_isDigit hd.1
    have he : c ≠ ']' := ne_of_isDigit hd.1 rfl
    have hminus : step? ⟨stack, .value first⟩ '-' = some ⟨stack, .number ['-'] .minus⟩ := by
      cases first <;> rfl
    by_cases hc : c = '0'
    . subst hc
      have hr : rest = [] := by simpa using hz rfl
      subst hr
      refine ⟨.zero, .inl rfl, ?_⟩
      cases hs with
      | none =>
        apply Takes.single
        cases first <;> rfl
      | minus => exact .cons hminus (.single rfl)
    . refine ⟨.whole, .inr rfl, ?_⟩
      have hrest : Takes ⟨stack, .number (sign ++ [c]).reverse .whole⟩ rest
          ⟨stack, .number (sign ++ c :: rest).reverse .whole⟩ := by
        have := takes_digits stack (.inl rfl) hd.2 (sign ++ [c]).reverse
        simpa using this
      cases hs with
      | none =>
        have hstart : step? ⟨stack, .value first⟩ c = some ⟨stack, .number [c] .whole⟩ := by
          show plainStep? stack (.value first) c = _
          unfold plainStep?
          simp [hb, he, startValue?_of_isDigit hd.1 hc]
        exact .cons hstart hrest
      | minus =>
        have hnext : step? ⟨stack, .number ['-'] .minus⟩ c = some ⟨stack, .number [c, '-'] .whole⟩ := by
          unfold step?
          simp [NumberPart.next?, hc, hd.1]
        exact .cons hminus (.cons hnext hrest)

theorem takes_fraction (stack : List Frame) (hp : part = .zero ∨ part = .whole) (hf : IsFraction fraction)
    (chars : List Char) :
    ∃ last, (last = .zero ∨ last = .whole ∨ last = .decimals) ∧
      Takes ⟨stack, .number chars part⟩ fraction ⟨stack, .number (fraction.reverse ++ chars) last⟩ := by
  cases hf with
  | none => exact ⟨part, by tauto, .nil⟩
  | @point digits hn hd =>
    refine ⟨.decimals, by simp, ?_⟩
    cases digits with
    | nil => contradiction
    | cons c rest =>
      rw [List.forall_mem_cons] at hd
      have hpoint : step? ⟨stack, .number chars part⟩ '.' = some ⟨stack, .number ('.' :: chars) .point⟩ := by
        rcases hp with hp | hp <;> subst hp <;> rfl
      have hnext : step? ⟨stack, .number ('.' :: chars) .point⟩ c =
          some ⟨stack, .number (c :: '.' :: chars) .decimals⟩ := by
        unfold step?
        simp [NumberPart.next?, hd.1]
      have := takes_digits stack (.inr (.inl rfl)) hd.2 (c :: '.' :: chars)
      exact .cons hpoint (.cons hnext (by simpa using this))

theorem takes_exponent (stack : List Frame) (hp : part = .zero ∨ part = .whole ∨ part = .decimals)
    (he : IsExponent exponent) (chars : List Char) :
    ∃ last, last.isComplete ∧
      Takes ⟨stack, .number chars part⟩ exponent ⟨stack, .number (exponent.reverse ++ chars) last⟩ := by
  cases he with
  | none =>
    refine ⟨part, ?_, .nil⟩
    rcases hp with hp | hp | hp <;> subst hp <;> rfl
  | @power sign digits hs hn hd =>
    refine ⟨.power, rfl, ?_⟩
    cases digits with
    | nil => contradiction
    | cons c rest =>
      rw [List.forall_mem_cons] at hd
      have hmark : step? ⟨stack, .number chars part⟩ 'e' = some ⟨stack, .number ('e' :: chars) .exponent⟩ := by
        rcases hp with hp | hp | hp <;> subst hp <;> rfl
      have hsign : step? ⟨stack, .number ('e' :: chars) .exponent⟩ sign =
          some ⟨stack, .number (sign :: 'e' :: chars) .sign⟩ := by
        rcases hs with hs | hs <;> subst hs <;> rfl
      have hnext : step? ⟨stack, .number (sign :: 'e' :: chars) .sign⟩ c =
          some ⟨stack, .number (c :: sign :: 'e' :: chars) .power⟩ := by
        unfold step?
        simp [NumberPart.next?, hd.1]
      have := takes_digits stack (.inr (.inr rfl)) hd.2 (c :: sign :: 'e' :: chars)
      exact .cons hmark (.cons hsign (.cons hnext (by simpa using this)))

theorem takes_numeral (stack : List Frame) (first : Bool) (h : IsNumeral text) :
    ∃ part, part.isComplete ∧ Takes ⟨stack, .value first⟩ text ⟨stack, .number text.reverse part⟩ := by
  cases h with
  | @parts sign whole fraction exponent hs hw hf he =>
    rcases takes_whole stack first hs hw with ⟨part, hp, htaken⟩
    rcases takes_fraction stack hp hf (sign ++ whole).reverse with ⟨later, hl, hmore⟩
    rcases takes_exponent stack hl he (fraction.reverse ++ (sign ++ whole).reverse) with ⟨last, hc, hrest⟩
    refine ⟨last, hc, ?_⟩
    have := (htaken.append hmore).append hrest
    simpa using this

/-! ## Strings -/

theorem hexValue?_hexDigit : ∀ n < 16, hexValue? (hexDigit n) = some n := by
  decide

theorem escape_cases (c : Char) :
    (∃ e, escape c = ['\\', e] ∧ unescape? e = some c) ∨
      (c.toNat < 32 ∧ escape c = ['\\', 'u', '0', '0', hexDigit (c.toNat / 16), hexDigit (c.toNat % 16)]) ∨
      (c ≠ '"' ∧ c ≠ '\\' ∧ 32 ≤ c.toNat ∧ escape c = [c]) := by
  unfold escape
  split_ifs with hq hb _ _ _ _ _ hc
  any_goals
    subst_vars
    exact .inl ⟨_, rfl, rfl⟩
  . exact .inr (.inl ⟨hc, rfl⟩)
  . exact .inr (.inr ⟨hq, hb, by omega, rfl⟩)

theorem endUnit_of_lt (stack : List Frame) (text : List Char) {c : Char} (h : c.toNat < 32) :
    endUnit stack (some text) none c.toNat = ⟨stack, .string (some (c :: text))⟩ := by
  have hl : (decide (0xdc00 ≤ c.toNat) && decide (c.toNat < 0xe000)) = false := by
    simp
    omega
  unfold endUnit
  dsimp only
  rw [if_neg (by omega), hl]
  simp

theorem takes_escape (stack : List Frame) (text : List Char) (c : Char) :
    Takes ⟨stack, .string (some text)⟩ (escape c) ⟨stack, .string (some (c :: text))⟩ := by
  rcases escape_cases c with ⟨e, he, hc⟩ | ⟨hc, he⟩ | ⟨hq, hb, hc, he⟩
  . have hu : e ≠ 'u' := by
      intro hu
      subst hu
      cases hc
    have hs : step? ⟨stack, .escape (some text)⟩ e = some ⟨stack, .string (some (c :: text))⟩ := by
      show escapeStep? stack (some text) e = _
      unfold escapeStep?
      rw [if_neg hu, hc]
      rfl
    rw [he]
    exact .cons rfl (.single hs)
  . have hhigh : step? ⟨stack, .unit (some text) none 0 2⟩ (hexDigit (c.toNat / 16)) =
        some ⟨stack, .unit (some text) none (c.toNat / 16) 1⟩ := by
      show (hexValue? (hexDigit (c.toNat / 16))).map _ = _
      rw [hexValue?_hexDigit _ (by omega)]
      simp
    have hlow : step? ⟨stack, .unit (some text) none (c.toNat / 16) 1⟩ (hexDigit (c.toNat % 16)) =
        some ⟨stack, .string (some (c :: text))⟩ := by
      show (hexValue? (hexDigit (c.toNat % 16))).map _ = _
      rw [hexValue?_hexDigit _ (by omega), Option.map_some, if_pos (by decide), Nat.div_add_mod' c.toNat 16,
        endUnit_of_lt stack text hc]
    rw [he]
    exact .cons rfl (.cons rfl (.cons rfl (.cons rfl (.cons hhigh (.single hlow)))))
  . have hs : step? ⟨stack, .string (some text)⟩ c = some ⟨stack, .string (some (c :: text))⟩ := by
      show stringStep? stack (some text) c = _
      unfold stringStep?
      rw [if_neg hq, if_neg hb, if_neg (by omega)]
      rfl
    rw [he]
    exact .single hs

theorem takes_escaped (stack : List Frame) (chars text : List Char) :
    Takes ⟨stack, .string (some text)⟩ (chars.flatMap escape) ⟨stack, .string (some (chars.reverse ++ text))⟩ := by
  induction chars generalizing text with
  | nil => exact .nil
  | cons c rest ih =>
    have := (takes_escape stack text c).append (ih (c :: text))
    simpa using this

/-- A quoted string is read as the string, be it a key or a value. -/
theorem takes_quote (s : String) (h : step? start '"' = some ⟨stack, .string (some [])⟩) :
    Takes start (quote s).toList (endString (some s) stack) := by
  have hend : step? ⟨stack, .string (some s.toList.reverse)⟩ '"' = some (endString (some s) stack) := by
    show some (endString _ stack) = _
    simp
  have htext : (quote s).toList = '"' :: (s.toList.flatMap escape ++ ['"']) := by
    unfold quote
    simp only [String.toList_append, String.toList_ofList]
    rfl
  have := takes_escaped stack s.toList []
  rw [List.append_nil] at this
  rw [htext]
  exact .cons h (this.append (.single hend))

/-! ## Values -/

/-- From the start of a value on, the text is read as a value that ends with it. -/
def Reads (stack : List Frame) (first : Bool) (text : List Char) (v? : Option Json) : Prop :=
  ∃ s value, Takes ⟨stack, .value first⟩ text s ∧ s.Holds stack value ∧ value.json? = v?

theorem reads_of_takes {v? : Option Json} (h : Takes ⟨stack, .value first⟩ text ⟨stack, .ended value⟩)
    (hv : value.json? = v?) : Reads stack first text v? :=
  ⟨_, value, h, holds_ended stack value, hv⟩

theorem reads_number (n : Number) :
    Reads stack first n.text.toList (if n.isLegible then some (.number n.reread) else none) := by
  rcases takes_numeral stack first n.isNumeral_text with ⟨part, hp, ht⟩
  refine ⟨_, _, ht, ⟨rfl, if_pos hp⟩, ?_⟩
  unfold numberValue Number.isLegible Number.reread
  rw [List.reverse_reverse]
  cases Number.ofText? n.text.toList <;> rfl

theorem reads_closed (value : Written) (hs : Takes ⟨stack, .value first⟩ text (close stack value))
    (hv : value.json? = if legible then some v else none) :
    Reads stack first text (if stack.length < maxDepth && legible then some v else none) := by
  apply reads_of_takes hs
  by_cases hd : stack.length < maxDepth
  . simp [hd, hv]
  . simp [hd, Written.json?]

theorem jsonItems?_cons {legible others : Bool} (hv : value.json? = if legible then some v else none)
    (hs : Written.jsonItems? values = if others then some vs else none) :
    Written.jsonItems? (value :: values) = if legible && others then some (v :: vs) else none := by
  unfold Written.jsonItems?
  rw [hv, hs]
  cases legible <;> cases others <;> rfl

theorem jsonMembers?_cons {legible others : Bool} (key : String) (hv : value.json? = if legible then some v else none)
    (hs : Written.jsonMembers? values = if others then some vs else none) :
    Written.jsonMembers? ((some key, value) :: values) =
      if legible && others then some ((key, v) :: vs) else none := by
  unfold Written.jsonMembers?
  rw [hv, hs]
  cases legible <;> cases others <;> rfl

theorem intercalate_cons {texts : List String} (h : texts ≠ []) (text : String) :
    (String.intercalate "," (text :: texts)).toList ++ chars =
      text.toList ++ ',' :: ((String.intercalate "," texts).toList ++ chars) := by
  rw [String.intercalate_cons_of_ne_nil h]
  simp only [String.toList_append, List.append_assoc]
  rfl

/-- A value can come next, as no object waits for a key. -/
def ExpectsValue : List Frame → Prop
  | .object _ :: _ => False
  | _ => True

theorem endString_of_expectsValue (h : ExpectsValue stack) (s : String) :
    endString (some s) stack = ⟨stack, .ended (.string s)⟩ := by
  unfold endString
  split
  . cases h
  . rfl

-- The induction is on the value, whatever is open around it: each container puts a frame onto the stack.
mutual

theorem reads_compact : (v : Json) → ∀ (stack : List Frame) (first : Bool), ExpectsValue stack →
    Reads stack first v.compact.toList (if v.isLegible stack.length then some v.reread else none)
  | .null, stack, first, _ => by
    have hs : step? ⟨stack, .value first⟩ 'n' = some ⟨stack, .word ['u', 'l', 'l'] .null⟩ := by
      cases first <;> rfl
    exact reads_of_takes (.cons hs (.cons rfl (.cons rfl (.single rfl)))) rfl
  | .bool true, stack, first, _ => by
    have hs : step? ⟨stack, .value first⟩ 't' = some ⟨stack, .word ['r', 'u', 'e'] (.bool true)⟩ := by
      cases first <;> rfl
    exact reads_of_takes (.cons hs (.cons rfl (.cons rfl (.single rfl)))) rfl
  | .bool false, stack, first, _ => by
    have hs : step? ⟨stack, .value first⟩ 'f' = some ⟨stack, .word ['a', 'l', 's', 'e'] (.bool false)⟩ := by
      cases first <;> rfl
    exact reads_of_takes (.cons hs (.cons rfl (.cons rfl (.cons rfl (.single rfl))))) rfl
  | .number n, _, _, _ => reads_number n
  | .string text, stack, first, he => by
    have hs : step? ⟨stack, .value first⟩ '"' = some ⟨stack, .string (some [])⟩ := by
      cases first <;> rfl
    have := takes_quote text hs
    rw [endString_of_expectsValue he] at this
    exact reads_of_takes this rfl
  | .list items, stack, first, _ => by
    have hs : step? ⟨stack, .value first⟩ '[' = some ⟨.list [] :: stack, .value true⟩ := by
      cases first <;> rfl
    by_cases hn : items = []
    . subst hn
      exact reads_closed _ (.cons hs (.single rfl)) rfl
    . rcases takes_items items hn stack true [] with ⟨values, ht, hv⟩
      apply reads_closed (.list values)
      . unfold compact
        simp only [String.toList_append]
        exact .cons hs ht
      . unfold Written.json?
        rw [hv]
        split <;> rfl
  | .object members, stack, first, _ => by
    have hs : step? ⟨stack, .value first⟩ '\x7b' = some ⟨.object [] :: stack, .key true⟩ := by
      cases first <;> rfl
    by_cases hn : members = []
    . subst hn
      exact reads_closed _ (.cons hs (.single rfl)) rfl
    . rcases takes_members members hn stack true [] with ⟨values, ht, hv⟩
      apply reads_closed (.object values)
      . unfold compact
        simp only [String.toList_append]
        exact .cons hs ht
      . unfold Written.json?
        rw [hv]
        split <;> rfl

/-- The items of an open list, and its end. -/
theorem takes_items : (items : List Json) → items ≠ [] →
    ∀ (stack : List Frame) (first : Bool) (before : List Written), ∃ values,
      Takes ⟨.list before :: stack, .value first⟩ ((String.intercalate "," (compactItems items)).toList ++ [']'])
        (close stack (.list (before.reverse ++ values))) ∧
      Written.jsonItems? values = if areLegible (stack.length + 1) items then some (rereadItems items) else none
  | [], hn => absurd rfl hn
  | item :: rest, _ => by
    intro stack first before
    rcases reads_compact item (.list before :: stack) first trivial with ⟨s, value, ht, hh, hv⟩
    cases rest with
    | nil =>
      have hend : step? s ']' = some (close stack (.list (before.reverse ++ [value]))) := by
        rw [step?_of_holds hh (by simp), ← List.reverse_cons]
        rfl
      exact ⟨[value], ht.append (.single hend), jsonItems?_cons hv rfl⟩
    | cons second others =>
      have hnext : step? s ',' = some ⟨.list (value :: before) :: stack, .value false⟩ := by
        rw [step?_of_holds hh (by simp)]
        rfl
      rcases takes_items (second :: others) (by simp) stack false (value :: before) with ⟨values, hs, hvs⟩
      refine ⟨value :: values, ?_, jsonItems?_cons hv hvs⟩
      have := ht.append (.cons hnext hs)
      rw [List.reverse_cons, List.append_assoc] at this
      unfold compactItems
      rw [intercalate_cons (by simp [compactItems])]
      exact this

/-- The members of an open object, and its end. -/
theorem takes_members : (members : List (String × Json)) → members ≠ [] →
    ∀ (stack : List Frame) (first : Bool) (before : List (Option String × Written)), ∃ values,
      Takes ⟨.object before :: stack, .key first⟩
        ((String.intercalate "," (compactMembers members)).toList ++ ['\x7d'])
        (close stack (.object (before.reverse ++ values))) ∧
      Written.jsonMembers? values =
        if haveLegible (stack.length + 1) members then some (rereadMembers members) else none
  | [], hn => absurd rfl hn
  | (key, v) :: rest, _ => by
    intro stack first before
    have hkey : step? ⟨.object before :: stack, .key first⟩ '"' =
        some ⟨.object before :: stack, .string (some [])⟩ := by
      cases first <;> rfl
    have hcolon : step? (endString (some key) (.object before :: stack)) ':' =
        some ⟨.member before (some key) :: stack, .value false⟩ :=
      rfl
    rcases reads_compact v (.member before (some key) :: stack) false trivial with ⟨s, value, ht, hh, hv⟩
    have htext : (quote key ++ ":" ++ v.compact).toList = (quote key).toList ++ ':' :: v.compact.toList := by
      simp only [String.toList_append, List.append_assoc]
      rfl
    have hmember := (takes_quote key hkey).append (.cons hcolon ht)
    rw [← htext] at hmember
    cases rest with
    | nil =>
      have hend : step? s '\x7d' = some (close stack (.object (before.reverse ++ [(some key, value)]))) := by
        rw [step?_of_holds hh (by simp), ← List.reverse_cons]
        rfl
      refine ⟨[(some key, value)], ?_, jsonMembers?_cons key hv rfl⟩
      unfold compactMembers compactMembers
      rw [String.intercalate_singleton]
      exact hmember.append (.single hend)
    | cons second others =>
      have hnext : step? s ',' = some ⟨.object ((some key, value) :: before) :: stack, .key false⟩ := by
        rw [step?_of_holds hh (by simp)]
        rfl
      rcases takes_members (second :: others) (by simp) stack false ((some key, value) :: before) with
        ⟨values, hs, hvs⟩
      refine ⟨(some key, value) :: values, ?_, jsonMembers?_cons key hv hvs⟩
      have := hmember.append (.cons hnext hs)
      rw [List.reverse_cons, List.append_assoc] at this
      unfold compactMembers
      rw [intercalate_cons (by simp [compactMembers])]
      exact this

end

end Reader

/-! ## What is heard of a value -/

/-- The value that is read when the text of a value is. -/
def heard (v : Json) : Json :=
  v.reread.normalize

/-- The printed text of a value is read as that value, up to its doubles and the order of its members. -/
theorem parse?_compact (v : Json) :
    parse? v.compact = if v.isLegible 0 then some v.heard else none := by
  rcases Reader.reads_compact v [] false trivial with ⟨s, value, ht, ⟨hs, he⟩, hv⟩
  have ha : Reader.advance Reader.initial v.compact.toList = (s, []) := by
    have := ht.advance_append []
    rwa [List.append_nil] at this
  have hb : s.breakOff = value := by
    unfold Reader.State.breakOff
    rw [hs, he]
  have hr : read v.compact = (value, true) := by
    unfold read
    rw [ha]
    dsimp only
    rw [hb, hs]
    rfl
  unfold parse?
  rw [hr]
  show value.json?.map normalize = _
  rw [hv, List.length_nil]
  split <;> rfl

theorem heard_of_isExact (h : isExact v) : v.heard = v.normalize :=
  congrArg normalize (reread_of_isExact v h)

@[simp]
theorem heard_string (s : String) : heard (.string s) = .string s :=
  rfl

@[simp]
theorem heard_ofUInt64 (n : UInt64) : heard (.number (.ofUInt64 n)) = .number (.ofUInt64 n) :=
  congrArg number (Number.reread_int _ _)

@[simp]
theorem heard_ofInt64 (n : Int64) : heard (.number (.ofInt64 n)) = .number (.ofInt64 n) :=
  congrArg number (Number.reread_int _ _)

@[simp]
theorem isLegible_string (depth : Nat) (s : String) : isLegible depth (.string s) :=
  rfl

@[simp]
theorem isLegible_ofUInt64 (depth : Nat) (n : UInt64) : isLegible depth (.number (.ofUInt64 n)) :=
  Number.isLegible_int _ _

@[simp]
theorem isLegible_ofInt64 (depth : Nat) (n : Int64) : isLegible depth (.number (.ofInt64 n)) :=
  Number.isLegible_int _ _

theorem isLegible_object (h : depth < Reader.maxDepth) (members : List (String × Json)) :
    (Json.object members).isLegible depth = haveLegible (depth + 1) members := by
  unfold isLegible
  simp [h]

theorem normalize_heard (v : Json) : v.heard.normalize = v.heard :=
  normalize_normalize v.reread

theorem heard_eq_null_iff (v : Json) : v.heard = .null ↔ v = .null := by
  cases v <;> simp [heard, reread, normalize]

theorem lookup_reverse_rereadMembers (members : List (String × Json)) (name : String) :
    (rereadMembers members).reverse.lookup name = (members.reverse.lookup name).map reread := by
  induction members with
  | nil => rfl
  | cons member rest ih =>
    rcases member with ⟨key, value⟩
    unfold rereadMembers
    rw [List.reverse_cons, List.reverse_cons, List.lookup_append, List.lookup_append, ih]
    by_cases hn : name = key
    . cases rest.reverse.lookup name <;> simp [hn]
    . cases rest.reverse.lookup name <;> simp [List.lookup_cons, beq_false_of_ne hn]

/-- What is heard under a name is what was said under it. -/
theorem get?_heard (members : List (String × Json)) (name : String) :
    (heard (.object members)).get? name = (members.reverse.lookup name).map heard := by
  show (normalizeMembers (rereadMembers members)).lookup name = _
  rw [lookup_normalizeMembers, lookup_reverse_rereadMembers, Option.map_map]
  rfl

end Json

end Turnstile
