import Mathlib.Data.List.TakeWhile
import Turnstile.Proofs.Number.Numeral
import Turnstile.Proofs.Schema.Reach

/-!
This module contains what references lead to, as relations apart from the functions that read them: which key a
segment of a pointer stands for, which part of a value a pointer leads to, and which texts refer to a definition.
-/

namespace Turnstile

namespace Pointer

/-- A segment stands for a key, in which each escape is read. A tilde that is of no escape stands for itself. -/
inductive StandsFor : List Char → List Char → Prop where
  | nil : StandsFor [] []
  | tilde : StandsFor rest key → StandsFor ('~' :: '0' :: rest) ('~' :: key)
  | slash : StandsFor rest key → StandsFor ('~' :: '1' :: rest) ('/' :: key)
  | plain : (c = '~' → rest.head? ≠ some '0' ∧ rest.head? ≠ some '1') → StandsFor rest key →
      StandsFor (c :: rest) (c :: key)

variable {segment key rest pointer digits : List Char} {c : Char}

/-! ## Escapes -/

theorem unescapeSlash_cons (h : c = '~' → rest.head? ≠ some '1') :
    unescapeSlash (c :: rest) = c :: unescapeSlash rest := by
  rw [unescapeSlash]
  intro others hc hr
  exact h hc (by rw [hr]; rfl)

theorem unescapeTilde_cons (h : c = '~' → rest.head? ≠ some '0') :
    unescapeTilde (c :: rest) = c :: unescapeTilde rest := by
  rw [unescapeTilde]
  intro others hc hr
  exact h hc (by rw [hr]; rfl)

/-- Reading slashes does not bring in a digit that would make an escape of a tilde. -/
theorem head?_unescapeSlash (h : rest.head? ≠ some '0') : (unescapeSlash rest).head? ≠ some '0' := by
  fun_cases unescapeSlash rest with
  | case1 => nofun
  | case2 => simp
  | case3 => exact h

theorem StandsFor.unescape_eq (h : StandsFor segment key) : unescape segment = key := by
  unfold unescape
  induction h with
  | nil => rfl
  | tilde _ ih =>
    rw [unescapeSlash_cons (by simp), unescapeSlash_cons (by simp), unescapeTilde, ih]
  | slash _ ih => rw [unescapeSlash, unescapeTilde_cons (by simp), ih]
  | plain hc _ ih =>
    rw [unescapeSlash_cons fun he => (hc he).2, unescapeTilde_cons fun he => head?_unescapeSlash (hc he).1, ih]

theorem exists_standsFor (segment : List Char) : ∃ key, StandsFor segment key := by
  match segment with
  | [] => exact ⟨[], .nil⟩
  | [c] => exact ⟨[c], .plain (by simp) .nil⟩
  | c :: d :: rest =>
    by_cases hc : c = '~' ∧ (d = '0' ∨ d = '1')
    . rcases exists_standsFor rest with ⟨key, hk⟩
      rcases hc with ⟨rfl, rfl | rfl⟩
      . exact ⟨_, hk.tilde⟩
      . exact ⟨_, hk.slash⟩
    . rcases exists_standsFor (d :: rest) with ⟨key, hk⟩
      refine ⟨_, hk.plain ?_⟩
      intro he
      simpa [he] using hc

theorem unescape_eq_iff : unescape segment = key ↔ StandsFor segment key := by
  constructor
  . intro h
    rcases exists_standsFor segment with ⟨other, ho⟩
    rwa [← h, ho.unescape_eq]
  . exact StandsFor.unescape_eq

theorem standsFor_escape (segment : List Char) : StandsFor (escape segment) segment := by
  fun_induction escape segment with
  | case1 => exact .nil
  | case2 _ ih => exact ih.tilde
  | case3 _ ih => exact ih.slash
  | case4 _ _ hc _ ih => exact ih.plain fun he => absurd he hc

theorem unescape_escape (segment : List Char) : unescape (escape segment) = segment :=
  (standsFor_escape segment).unescape_eq

/-- Digits stand for themselves, and nothing else does for them. -/
theorem unescape_eq_iff_of_digits (hd : ∀ c ∈ digits, c.isDigit) : unescape segment = digits ↔ segment = digits := by
  rw [unescape_eq_iff]
  constructor
  . intro h
    induction h with
    | nil => rfl
    | tilde => exact absurd (hd '~' List.mem_cons_self) (by decide)
    | slash => exact absurd (hd '/' List.mem_cons_self) (by decide)
    | plain _ _ ih => rw [ih fun c hc => hd c (.tail _ hc)]
  . intro h
    subst h
    induction segment with
    | nil => exact .nil
    | cons c rest ih =>
      refine .plain ?_ (ih fun d hm => hd d (.tail _ hm))
      intro he
      exact absurd he (Numeral.ne_of_isDigit (hd c (.head _)) (by decide))

/-! ## Keys -/

theorem splitSlashes_of_not_mem (hs : '/' ∉ segment) : splitSlashes segment = [segment] := by
  fun_induction splitSlashes segment with
  | case1 => rfl
  | case2 => simp at hs
  | case3 c rest _ hn ih =>
    rw [ih (List.not_mem_of_not_mem_cons hs)] at hn
    cases hn
  | case4 c rest _ first others hq ih =>
    rw [ih (List.not_mem_of_not_mem_cons hs)] at hq
    cases hq
    rfl

theorem splitSlashes_append (hs : '/' ∉ segment) (rest : List Char) :
    splitSlashes (segment ++ '/' :: rest) = segment :: splitSlashes rest := by
  induction segment with
  | nil => rfl
  | cons c segment ih =>
    have hc : c ≠ '/' := fun he => hs (by simp [he])
    rw [List.cons_append, splitSlashes, ih (List.not_mem_of_not_mem_cons hs)]
    exact hc

/-- The key of the first segment comes in front of the others. -/
theorem keys?_segment (hs : '/' ∉ segment) (hk : keys? pointer = some keys) :
    keys? ('/' :: segment ++ pointer) = some (String.ofList (unescape segment) :: keys) := by
  unfold keys? at hk
  split at hk
  . cases hk
    rw [List.append_nil, keys?, splitSlashes_of_not_mem hs]
    rfl
  . cases hk
    rw [List.cons_append, keys?, splitSlashes_append hs]
    rfl
  . cases hk

theorem keys?_eq_nil (h : keys? pointer = some []) : pointer = [] := by
  unfold keys? at h
  split at h
  . rfl
  . next rest =>
    have hn : splitSlashes rest ≠ [] := by
      fun_cases splitSlashes rest <;> simp
    simp [hn] at h
  . cases h

theorem exists_segment {key : String} (h : keys? pointer = some (key :: keys)) :
    ∃ segment rest, pointer = '/' :: segment ++ rest ∧ '/' ∉ segment ∧ key = String.ofList (unescape segment) ∧
      keys? rest = some keys := by
  have hp : ∃ text, pointer = '/' :: text := by
    unfold keys? at h
    split at h
    . cases h
    . exact ⟨_, rfl⟩
    . cases h
  rcases hp with ⟨text, hp⟩
  subst hp
  have hs : '/' ∉ text.takeWhile (· ≠ '/') := by
    intro hm
    simpa using List.mem_takeWhile_imp hm
  have hrest : ∃ others, keys? (text.dropWhile (· ≠ '/')) = some others := by
    cases hd : text.dropWhile (· ≠ '/') with
    | nil => exact ⟨[], rfl⟩
    | cons c rest =>
      have hc := List.head?_dropWhile_not (· ≠ '/') text
      simp only [hd, List.head?_cons] at hc
      obtain rfl : c = '/' := by simpa using hc
      exact ⟨_, rfl⟩
  rcases hrest with ⟨others, ho⟩
  have hk := keys?_segment hs ho
  rw [List.cons_append, List.takeWhile_append_dropWhile, h] at hk
  cases hk
  exact ⟨_, _, by rw [List.cons_append, List.takeWhile_append_dropWhile], hs, rfl, ho⟩

/-- A position in a list has one spelling. -/
theorem index?_eq_some_iff {key : String} : index? key = some i ↔ key = toString i := by
  have hw : Numeral.IsWhole key.toList ↔ ¬ (key.toList = [] || !key.toList.all Char.isDigit ||
      (key.toList.head? = some '0' && key.toList.length ≠ 1)) := by
    simp only [Bool.or_eq_true, Bool.and_eq_true, Bool.not_eq_true', decide_eq_true_eq, not_or, not_and,
      List.all_eq_false, not_exists, not_not]
    exact ⟨fun h => ⟨⟨h.nonempty, h.isDigit⟩, h.single⟩, fun h => ⟨h.1.1, h.2, h.1.2⟩⟩
  rw [Nat.toString_eq_ofList_toDigits]
  unfold index?
  dsimp only
  split
  . next hn =>
    refine ⟨nofun, ?_⟩
    intro he
    have hdigits := Numeral.isWhole_toDigits i
    rw [← String.toList_ofList (l := Nat.toDigits 10 i), ← he, hw] at hdigits
    exact absurd hn hdigits
  . next hn =>
    rw [Option.some.injEq]
    constructor
    . intro hi
      rw [← hi, (hw.mpr hn).toDigits_digitsToNat, String.ofList_toList]
    . intro he
      rw [he, String.toList_ofList, Numeral.digitsToNat_eq, Nat.ofDigitChars_ten_toDigits]

theorem isDigit_of_mem_toString (h : c ∈ (toString (i : Nat)).toList) : c.isDigit := by
  rw [Nat.toString_eq_ofList_toDigits, String.toList_ofList] at h
  exact Numeral.isDigit_of_mem_toDigits h

theorem slash_not_mem_toString (i : Nat) : '/' ∉ (toString i).toList :=
  fun hm => absurd (isDigit_of_mem_toString hm) (by decide)

theorem index?_unescape_eq_some_iff :
    index? (String.ofList (unescape segment)) = some i ↔ segment = (toString i).toList := by
  rw [index?_eq_some_iff, ← String.toList_inj, String.toList_ofList]
  exact unescape_eq_iff_of_digits fun _ => isDigit_of_mem_toString

end Pointer

namespace Json

/-- The pointer leads from the value to the part. -/
inductive Leads : Json → List Char → Json → Prop where
  | whole : Leads value [] value
  | member {segment key pointer : List Char} : '/' ∉ segment → Pointer.StandsFor segment key →
      members.lookup (String.ofList key) = some value → Leads value pointer part →
      Leads (.object members) ('/' :: segment ++ pointer) part
  | item {items : List Json} {i : Nat} : items[i]? = some value → Leads value pointer part →
      Leads (.list items) ('/' :: (toString i).toList ++ pointer) part

theorem leads_iff {pointer : List Char} :
    Leads value pointer part ↔ ∃ keys, Pointer.keys? pointer = some keys ∧ value.descend? keys = some part := by
  constructor
  . intro h
    induction h with
    | whole => exact ⟨[], rfl, rfl⟩
    | member hs hk hm _ ih =>
      rcases ih with ⟨keys, hkeys, hd⟩
      refine ⟨_, Pointer.keys?_segment hs hkeys, ?_⟩
      rw [hk.unescape_eq]
      unfold descend? child?
      dsimp only
      rw [hm]
      exact hd
    | item hi _ ih =>
      rcases ih with ⟨keys, hkeys, hd⟩
      refine ⟨_, Pointer.keys?_segment (Pointer.slash_not_mem_toString _) hkeys, ?_⟩
      unfold descend? child?
      dsimp only
      rw [Pointer.index?_unescape_eq_some_iff.mpr rfl, Option.bind_some, hi]
      exact hd
  . intro ⟨keys, hk, hd⟩
    induction keys generalizing value pointer with
    | nil =>
      cases hd
      rw [Pointer.keys?_eq_nil hk]
      exact .whole
    | cons key keys ih =>
      rcases Pointer.exists_segment hk with ⟨segment, rest, hp, hs, hkey, hrest⟩
      rcases Option.bind_eq_some_iff.mp hd with ⟨child, hc, hd⟩
      have hl := ih hrest hd
      subst hp hkey
      cases value with
      | object members => exact .member hs (Pointer.unescape_eq_iff.mp rfl) hc hl
      | list items =>
        rcases Option.bind_eq_some_iff.mp hc with ⟨i, hi, hget⟩
        rw [Pointer.index?_unescape_eq_some_iff.mp hi]
        exact .item hget hl
      | _ => cases hc

theorem pointer?_eq_some_iff {value : Json} {pointer : String} :
    value.pointer? pointer = some part ↔ value.Leads pointer.toList part := by
  unfold pointer?
  rw [Option.bind_eq_some_iff, leads_iff]

end Json

namespace Reference

/-- The text leads to another document. -/
def Remote (text : List Char) : Prop :=
  "://".toList <:+: text ∨ ".json".toList <:+ text

/-- What stands in front of the name of a definition, if it is not a bare one. -/
def starts : List String :=
  ["#/$defs/", "#/definitions/"]

/-- The text refers to a definition: behind a start, with escapes and maybe with a pointer, or by its bare name. -/
inductive Spells : List Char → Reference → Prop where
  | definition {start : String} {segment key rest : List Char} : start ∈ starts → segment ≠ [] → '/' ∉ segment →
      Pointer.StandsFor segment key → (∀ c, rest.head? = some c → c = '/') →
      Spells (start.toList ++ (segment ++ rest)) ⟨String.ofList key, String.ofList rest⟩
  | bare {key : List Char} : key ≠ [] → key.head? ≠ some '#' → Spells key ⟨String.ofList key, ""⟩

variable {text rest segment : List Char} {start : String} {target : Reference}

theorem occurs_iff {part text : List Char} : occurs part text ↔ part <:+: text := by
  induction text with
  | nil => simp [occurs]
  | cons c rest ih => simp [occurs, ih, List.infix_cons_iff]

theorem isRemote_iff : isRemote text ↔ Remote text := by
  unfold isRemote Remote
  rw [Bool.or_eq_true, occurs_iff, List.isSuffixOf_iff_suffix]

theorem after?_append (start rest : List Char) : after? start (start ++ rest) = some rest := by
  simp [after?, List.isPrefixOf_iff_prefix]

theorem eq_append_of_after? {start text rest : List Char} (h : after? start text = some rest) :
    text = start ++ rest := by
  unfold after? at h
  split at h
  . next hp =>
    cases h
    exact (List.prefix_iff_eq_append.mp (List.isPrefixOf_iff_prefix.mp hp)).symm
  . cases h

theorem after?_start (hs : start ∈ starts) (rest : List Char) :
    (after? defsStart (start.toList ++ rest)).or (after? definitionsStart (start.toList ++ rest)) = some rest := by
  simp only [starts, List.mem_cons, List.not_mem_nil, or_false] at hs
  rcases hs with rfl | rfl
  . exact congrArg (Option.or · _) (after?_append defsStart rest)
  . exact after?_append definitionsStart rest

theorem exists_start (h : (after? defsStart text).or (after? definitionsStart text) = some rest) :
    ∃ start ∈ starts, text = start.toList ++ rest := by
  rcases Option.or_eq_some_iff.mp h with hd | ⟨_, hd⟩
  . exact ⟨"#/$defs/", .head _, eq_append_of_after? hd⟩
  . exact ⟨"#/definitions/", .tail _ (.head _), eq_append_of_after? hd⟩

theorem head?_start (hs : start ∈ starts) (rest : List Char) : (start.toList ++ rest).head? = some '#' := by
  simp only [starts, List.mem_cons, List.not_mem_nil, or_false] at hs
  rcases hs with rfl | rfl <;> rfl

/-- The start of a reference to a definition does not make it remote. -/
theorem isRemote_start (hs : start ∈ starts) (rest : List Char) : isRemote (start.toList ++ rest) = isRemote rest := by
  rw [Bool.eq_iff_iff, isRemote_iff, isRemote_iff]
  unfold Remote
  simp only [starts, List.mem_cons, List.not_mem_nil, or_false] at hs
  rcases hs with rfl | rfl <;> simp [List.infix_cons_iff, List.suffix_cons_iff]

/-- It makes no difference with which start a reference begins. -/
theorem ofChars?_start (hs : start ∈ starts) (rest : List Char) :
    ofChars? (start.toList ++ rest) =
      if isRemote rest ∨ rest.takeWhile (· ≠ '/') = [] then none
      else some ⟨String.ofList (Pointer.unescape (rest.takeWhile (· ≠ '/'))),
        String.ofList (rest.dropWhile (· ≠ '/'))⟩ := by
  unfold ofChars?
  rw [isRemote_start hs, after?_start hs]
  by_cases hr : isRemote rest
  . simp [hr]
  . simp [hr]

theorem ofChars?_defsStart (rest : List Char) :
    ofChars? (defsStart ++ rest) =
      if isRemote rest ∨ rest.takeWhile (· ≠ '/') = [] then none
      else some ⟨String.ofList (Pointer.unescape (rest.takeWhile (· ≠ '/'))),
        String.ofList (rest.dropWhile (· ≠ '/'))⟩ :=
  ofChars?_start (.head _) rest

theorem takeWhile_segment (hm : '/' ∉ segment) (hr : ∀ c, rest.head? = some c → c = '/') :
    (segment ++ rest).takeWhile (· ≠ '/') = segment := by
  have hs : ∀ c ∈ segment, decide (c ≠ '/') = true := by
    intro c hc
    simpa using ne_of_mem_of_not_mem hc hm
  rw [List.takeWhile_append_of_pos hs]
  cases rest with
  | nil => exact List.append_nil _
  | cons c rest =>
    obtain rfl : c = '/' := hr c rfl
    exact List.append_nil _

theorem dropWhile_segment (hm : '/' ∉ segment) (hr : ∀ c, rest.head? = some c → c = '/') :
    (segment ++ rest).dropWhile (· ≠ '/') = rest := by
  have h := List.takeWhile_append_dropWhile (p := (· ≠ '/')) (l := segment ++ rest)
  rw [takeWhile_segment hm hr] at h
  exact List.append_cancel_left h

theorem Spells.ofChars?_eq (h : Spells text target) (hr : ¬ Remote text) : ofChars? text = some target := by
  cases h with
  | definition hs hn hm hk hp =>
    rw [← isRemote_iff, isRemote_start hs] at hr
    rw [ofChars?_start hs, takeWhile_segment hm hp, dropWhile_segment hm hp, hk.unescape_eq, if_neg]
    rw [not_or]
    exact ⟨hr, hn⟩
  | bare hn hh =>
    rw [← isRemote_iff] at hr
    unfold ofChars?
    rw [if_neg hr]
    split
    . next ha =>
      rcases exists_start ha with ⟨start, hs, rfl⟩
      exact absurd (head?_start hs _) hh
    . simp [hn, hh]

theorem ofChars?_eq_some_iff : ofChars? text = some target ↔ ¬ Remote text ∧ Spells text target := by
  constructor
  . intro h
    have hr : ¬ Remote text := by
      rw [← isRemote_iff]
      intro hr
      rw [ofChars?, if_pos hr] at h
      cases h
    refine ⟨hr, ?_⟩
    rw [← isRemote_iff] at hr
    rw [ofChars?, if_neg hr] at h
    split at h
    . next rest ha =>
      rcases exists_start ha with ⟨start, hs, rfl⟩
      dsimp only at h
      split at h
      . cases h
      . next hn =>
        cases h
        have hm : '/' ∉ rest.takeWhile (· ≠ '/') := by
          intro hm
          simpa using List.mem_takeWhile_imp hm
        have hp : ∀ c, (rest.dropWhile (· ≠ '/')).head? = some c → c = '/' := by
          intro c hc
          have := List.head?_dropWhile_not (· ≠ '/') rest
          simp_all
        have := Spells.definition hs hn hm (Pointer.unescape_eq_iff.mp rfl) hp
        rwa [List.takeWhile_append_dropWhile] at this
    . split at h
      . cases h
      . next hn =>
        cases h
        simp only [Bool.or_eq_true, decide_eq_true_eq, not_or] at hn
        exact .bare hn.1 hn.2
  . intro ⟨hr, hs⟩
    exact hs.ofChars?_eq hr

end Reference

namespace Definitions

/-- What a reference fetches is the part of a definition that its pointer leads to. -/
theorem fetch?_eq_some_iff {defs : Definitions} {reference fetched : Json} :
    defs.fetch? reference = some fetched ↔ ∃ text target definition, reference = .string text ∧
      ¬ Reference.Remote text.toList ∧ Reference.Spells text.toList target ∧
      defs.get? target.name = some definition ∧ definition.Leads target.pointer.toList fetched := by
  constructor
  . intro h
    rcases Option.bind_eq_some_iff.mp h with ⟨text, hr, h⟩
    rcases Option.bind_eq_some_iff.mp h with ⟨target, ht, h⟩
    rcases Option.bind_eq_some_iff.mp h with ⟨definition, hd, hp⟩
    rcases Reference.ofChars?_eq_some_iff.mp ht with ⟨hremote, hs⟩
    cases reference with
    | string =>
      cases hr
      exact ⟨text, target, definition, rfl, hremote, hs, hd, Json.pointer?_eq_some_iff.mp hp⟩
    | _ => cases hr
  . intro ⟨text, target, definition, hr, hremote, hs, hd, hl⟩
    have ht : Reference.ofText? text = some target := hs.ofChars?_eq hremote
    subst hr
    unfold fetch? find?
    simp only [Json.string?, ht, hd, Json.pointer?_eq_some_iff.mpr hl, Option.bind_eq_bind, Option.bind_some]

theorem strip_object (members : List (String × Json)) :
    strip (.object members) = .object (members.filter fun (key, _) => key ≠ "$defs" ∧ key ≠ "definitions") := by
  unfold strip keywords
  simp

end Definitions

end Turnstile
