import Mathlib.Data.List.Induction
import Mathlib.Data.List.TakeWhile
import Turnstile.Json.Number

/-!
This module contains the texts that numbers are printed as: each one has a sign, whole digits without zeros in
front, digits after a point and an exponent, where all but the whole digits can be missing. The text of a whole
number is read as that number again.
-/

namespace Turnstile

namespace Numeral

/-! ## Digits -/

theorem ne_of_isDigit {c d : Char} (h : c.isDigit) (hd : d.isDigit = false) : c ≠ d := by
  intro he
  rw [he, hd] at h
  cases h

/-- The digits of a whole number, with no zero in front of others. -/
structure IsWhole (digits : List Char) : Prop where
  nonempty : digits ≠ []
  single : digits.head? = some '0' → digits.length = 1
  isDigit : ∀ c ∈ digits, c.isDigit

theorem isDigit_of_mem_toDigits (h : c ∈ Nat.toDigits 10 n) : c.isDigit :=
  Nat.isDigit_of_mem_toDigits (by decide) (by decide) h

theorem head?_toDigits_ne (h : 0 < n) : (Nat.toDigits 10 n).head? ≠ some '0' := by
  rw [Nat.toDigits_eq_if (by decide)]
  split
  . simp [Nat.digitChar_eq_zero]
    omega
  . next hn =>
    rw [List.head?_append, Option.or_of_isSome (by simp [Nat.toDigits_ne_nil])]
    exact head?_toDigits_ne (by omega)
termination_by n

variable {digits : List Char}

theorem isWhole_toDigits (n : Nat) : IsWhole (Nat.toDigits 10 n) where
  nonempty := Nat.toDigits_ne_nil
  isDigit _ := isDigit_of_mem_toDigits
  single h := by
    rcases Nat.eq_zero_or_pos n with hn | hn
    . rw [hn]
      rfl
    . exact absurd h (head?_toDigits_ne hn)

theorem sub_lt_of_isDigit {c : Char} (h : c.isDigit) : c.toNat - '0'.toNat < 10 :=
  Nat.lt_succ_of_le (Nat.sub_le_sub_right (Char.isDigit_iff_toNat.mp h).2 _)

theorem digitChar_sub {c : Char} (h : c.isDigit) : Nat.digitChar (c.toNat - '0'.toNat) = c := by
  apply Char.toNat_inj.mp
  rw [Nat.toNat_digitChar_of_lt_ten (sub_lt_of_isDigit h)]
  exact Nat.add_sub_cancel' (Char.isDigit_iff_toNat.mp h).1

theorem digitsToNat_eq (digits : List Char) : Number.digitsToNat digits = Nat.ofDigitChars 10 digits 0 := by
  unfold Number.digitsToNat
  rw [Nat.ofDigitChars_eq_foldl]
  simp only [Nat.mul_comm]

/-- The first digits of a whole number are a whole number, unless there are none of them. -/
theorem IsWhole.take (h : IsWhole digits) (hn : 0 < n) (hs : n < digits.length) : IsWhole (digits.take n) where
  nonempty := by
    intro he
    rw [List.take_eq_nil_iff] at he
    rcases he with he | he
    . omega
    . exact h.nonempty he
  isDigit c hc := h.isDigit c (List.mem_of_mem_take hc)
  single hz := by
    rw [List.head?_take, if_neg (by omega)] at hz
    have := h.single hz
    omega

/-- A whole number has no other digits than those that it is read from. -/
theorem IsWhole.toDigits_digitsToNat (h : IsWhole digits) : Nat.toDigits 10 (Number.digitsToNat digits) = digits := by
  rw [digitsToNat_eq]
  induction digits using List.reverseRecOn with
  | nil => exact absurd rfl h.nonempty
  | append_singleton before c ih =>
    have hc := h.isDigit c (by simp)
    have hlt := sub_lt_of_isDigit hc
    rw [Nat.ofDigitChars_append, Nat.ofDigitChars_cons, Nat.ofDigitChars_nil]
    by_cases hb : before = []
    . rw [hb, Nat.ofDigitChars_nil, Nat.mul_zero, Nat.zero_add, Nat.toDigits_of_lt_base hlt, digitChar_sub hc]
      rfl
    . have hw : IsWhole before := by
        have := h.take (List.length_pos_iff.mpr hb) (by simp)
        rwa [List.take_left] at this
      -- A whole number that is zero has no further digits.
      have hpos : 0 < Nat.ofDigitChars 10 before 0 := by
        rw [Nat.pos_iff_ne_zero]
        intro hz
        have hzero := ih hw
        rw [hz, Nat.toDigits_zero] at hzero
        have := h.single (by simp [← hzero])
        simp [← hzero] at this
      rw [← Nat.toDigits_append_toDigits (by decide) hpos hlt, ih hw, Nat.toDigits_of_lt_base hlt, digitChar_sub hc]

theorem isWhole_zero : IsWhole ['0'] :=
  ⟨by simp, by simp, by simp⟩

/-! ## The parts of a number -/

inductive IsSign : List Char → Prop where
  | none : IsSign []
  | minus : IsSign ['-']

inductive IsFraction : List Char → Prop where
  | none : IsFraction []
  | point {digits : List Char} (hn : digits ≠ []) (hd : ∀ c ∈ digits, c.isDigit) : IsFraction ('.' :: digits)

inductive IsExponent : List Char → Prop where
  | none : IsExponent []
  | power {digits : List Char} (hs : sign = '+' ∨ sign = '-') (hn : digits ≠ []) (hd : ∀ c ∈ digits, c.isDigit) :
    IsExponent ('e' :: sign :: digits)

end Numeral

open Numeral

inductive IsNumeral : List Char → Prop where
  | parts (hs : IsSign sign) (hw : IsWhole whole) (hf : IsFraction fraction) (he : IsExponent exponent) :
    IsNumeral (sign ++ (whole ++ (fraction ++ exponent)))

namespace IsNumeral

variable {sign digits fraction : List Char}

theorem of_whole (hs : IsSign sign) (hw : IsWhole digits) : IsNumeral (sign ++ digits) := by
  have := parts hs hw .none .none
  simpa using this

theorem of_fraction (hs : IsSign sign) (hw : IsWhole digits) (hf : IsFraction fraction) :
    IsNumeral (sign ++ (digits ++ fraction)) := by
  have := parts hs hw hf .none
  simpa using this

end IsNumeral

namespace Decimal

variable {sign digits padded : List Char}

/-- If there are as many decimals as digits or more, a zero stands before the point. -/
theorem isWhole_padded (h : IsWhole digits) (places : Nat)
    (hp : List.replicate (places + 1 - digits.length) '0' ++ digits = padded) :
    IsWhole (padded.take (padded.length - places)) := by
  subst hp
  rw [List.length_append, List.length_replicate]
  by_cases hl : digits.length ≤ places
  . have hr : List.replicate (places + 1 - digits.length) '0' =
        '0' :: List.replicate (places - digits.length) '0' := by
      rw [← List.replicate_succ]
      congr 1
      omega
    rw [hr, show places + 1 - digits.length + digits.length - places = 1 by omega]
    exact isWhole_zero
  . rw [show places + 1 - digits.length = 0 by omega, List.replicate_zero, List.nil_append, Nat.zero_add]
    rcases Nat.eq_zero_or_pos places with hz | hz
    . rw [hz, Nat.sub_zero, List.take_length]
      exact h
    . exact h.take (by omega) (by omega)

theorem isNumeral_positional (d : Decimal) (layout : Layout) (hs : IsSign sign) :
    IsNumeral (sign ++ (positional layout d).toList) := by
  unfold positional
  rw [Nat.toString_eq_ofList_toDigits, Nat.toString_eq_ofList_toDigits]
  split
  . rw [String.toList_append, String.toList_ofList]
    apply IsNumeral.of_fraction hs (isWhole_toDigits _)
    split
    . show IsFraction ['.', '0']
      exact .point isWhole_zero.nonempty isWhole_zero.isDigit
    . exact .none
  . next hn =>
    dsimp only
    generalize hplaces : (-d.exponent).toNat = places
    have hz : 0 < places := by omega
    rw [String.toList_ofList]
    generalize hpadded : List.replicate (places + 1 - (Nat.toDigits 10 d.digits).length) '0' ++
      Nat.toDigits 10 d.digits = padded
    have hlength : places + 1 ≤ padded.length := by
      rw [← hpadded]
      simp
      omega
    have hdigits : ∀ c ∈ padded, c.isDigit := by
      intro c hc
      rw [← hpadded, List.mem_append] at hc
      rcases hc with hc | hc
      . rw [List.eq_of_mem_replicate hc]
        decide
      . exact isDigit_of_mem_toDigits hc
    have hwhole : IsWhole (padded.take (padded.length - places)) := by
      exact isWhole_padded (isWhole_toDigits d.digits) places hpadded
    simp only [String.toList_append, String.toList_ofList, List.append_assoc]
    apply IsNumeral.of_fraction hs hwhole
    show IsFraction ('.' :: padded.drop (padded.length - places))
    apply IsFraction.point
    . intro he
      rw [List.drop_eq_nil_iff] at he
      omega
    . intro c hc
      exact hdigits c (List.mem_of_mem_drop hc)

theorem isNumeral_scientific (d : Decimal) (hs : IsSign sign) : IsNumeral (sign ++ (scientific d).toList) := by
  unfold scientific
  dsimp only
  rw [Nat.toString_eq_ofList_toDigits, Nat.toString_eq_ofList_toDigits, String.toList_ofList]
  generalize hdigits : Nat.toDigits 10 d.digits = digits
  have hwhole : IsWhole digits := by
    rw [← hdigits]
    exact isWhole_toDigits d.digits
  generalize (d.exponent + ((digits.length : Int) - 1)) = power
  have hfirst : IsWhole (digits.take 1) := by
    by_cases hl : digits.length = 1
    . rw [List.take_of_length_le (by omega)]
      exact hwhole
    . have := List.length_pos_iff.mpr hwhole.nonempty
      exact hwhole.take (by decide) (by omega)
  have hrest : IsFraction (if digits.length = 1 then "" else "." ++ String.ofList (digits.drop 1)).toList := by
    split
    . exact .none
    . next hl =>
      simp only [String.toList_append, String.toList_ofList]
      show IsFraction ('.' :: digits.drop 1)
      apply IsFraction.point
      . intro he
        rw [List.drop_eq_nil_iff] at he
        have := List.length_pos_iff.mpr hwhole.nonempty
        omega
      . intro c hc
        exact hwhole.isDigit c (List.mem_of_mem_drop hc)
  have hpower : IsExponent ("e" ++ (if power < 0 then "-" else "+") ++
      String.ofList (Nat.toDigits 10 power.natAbs)).toList := by
    simp only [String.toList_append, String.toList_ofList]
    split
    . exact .power (.inr rfl) Nat.toDigits_ne_nil fun _ => isDigit_of_mem_toDigits
    . exact .power (.inl rfl) Nat.toDigits_ne_nil fun _ => isDigit_of_mem_toDigits
  have := IsNumeral.parts hs hfirst hrest hpower
  simpa [String.toList_append] using this

theorem isNumeral_render (layout : Layout) (d : Decimal) (hs : IsSign sign) :
    IsNumeral (sign ++ (render layout d).toList) := by
  unfold render
  dsimp only
  split
  . exact isNumeral_positional d layout hs
  . exact isNumeral_scientific d hs

end Decimal

namespace Number

variable {digits : List Char}

/-- Every number is printed as a sign, whole digits, digits after a point and an exponent. -/
theorem isNumeral_text (n : Number) : IsNumeral n.text.toList := by
  cases n with
  | int value fits =>
    unfold text
    dsimp only
    rw [Int.toString_eq_repr, Int.repr_eq_if]
    split
    . rw [Nat.toList_repr]
      exact IsNumeral.of_whole .none (isWhole_toDigits _)
    . rw [String.toList_append, Nat.toList_repr]
      exact IsNumeral.of_whole .minus (isWhole_toDigits _)
  | real value =>
    unfold text Double.render
    dsimp only
    rw [String.toList_append]
    apply Decimal.isNumeral_render
    split
    . exact .minus
    . exact .none

/-! ## Whole numbers are read again -/

theorem accumulate_of_lt (h : Nat.ofDigitChars 10 digits significand < UInt64.size) :
    accumulate significand digits = (Nat.ofDigitChars 10 digits significand, 0) := by
  induction digits generalizing significand with
  | nil => rfl
  | cons c rest ih =>
    rw [Nat.ofDigitChars_cons, Nat.mul_comm] at h ⊢
    have hn : significand * 10 + (c.toNat - '0'.toNat) < UInt64.size := by
      rw [Nat.ofDigitChars_eq_ofDigitChars_zero] at h
      have := Nat.le_mul_of_pos_left (significand * 10 + (c.toNat - '0'.toNat)) (Nat.pow_pos (n := rest.length)
        (by decide : 0 < 10))
      omega
    unfold accumulate
    rw [if_pos hn, ih h]

theorem accumulate_toDigits (h : n < UInt64.size) : accumulate 0 (Nat.toDigits 10 n) = (n, 0) := by
  have hn : Nat.ofDigitChars 10 (Nat.toDigits 10 n) 0 < UInt64.size := by rwa [Nat.ofDigitChars_ten_toDigits]
  have := accumulate_of_lt hn
  rwa [Nat.ofDigitChars_ten_toDigits] at this

theorem spanDigits_of_digits (h : ∀ c ∈ digits, c.isDigit) : spanDigits digits = (digits, []) := by
  unfold spanDigits
  rw [List.takeWhile_eq_self_iff.mpr h, List.dropWhile_eq_nil_iff.mpr h]

/-- Digits alone are a whole number, if they are one at all. -/
theorem ofParts?_whole {negative : Bool} (hn : n < UInt64.size) (hz : negative → n ≠ 0)
    (hv : value = if negative then -(n : Int) else n) (fits : Fits value) :
    ofParts? negative (Nat.toDigits 10 n) [] none = some (.int value fits) := by
  subst hv
  have hs : (negative && n = 0) = false := by
    cases negative with
    | false => rfl
    | true => simpa using hz rfl
  unfold ofParts?
  rw [accumulate_toDigits hn]
  simp only [decide_true, Bool.and_self, if_true, hs, Bool.false_eq_true, if_false, dif_pos fits]

/-- The number of a sign and the text after it. -/
def ofUnsigned? (negative : Bool) (text : List Char) : Option Number :=
  let (whole, rest) := spanDigits text
  if whole = [] || (whole.head? = some '0' && whole.length ≠ 1) then
    none
  else do
    let (decimals, rest) ← fraction? rest
    let exponent ← exponent? rest
    ofParts? negative whole decimals exponent

theorem ofText?_minus (text : List Char) : ofText? ('-' :: text) = ofUnsigned? true text :=
  rfl

theorem ofText?_of_isWhole (h : IsWhole digits) : ofText? digits = ofUnsigned? false digits := by
  cases digits with
  | nil => rfl
  | cons c rest =>
    have hc : c ≠ '-' := ne_of_isDigit (h.isDigit c (.head _)) rfl
    unfold ofText?
    split
    . next he =>
      split at he
      . next hm =>
        cases hm
        contradiction
      . cases he
        rfl

theorem ofUnsigned?_toDigits {negative : Bool} (hn : n < UInt64.size) (hz : negative → n ≠ 0)
    (hv : value = if negative then -(n : Int) else n) (fits : Fits value) :
    ofUnsigned? negative (Nat.toDigits 10 n) = some (.int value fits) := by
  have hw := isWhole_toDigits n
  have hl : (Nat.toDigits 10 n = [] || ((Nat.toDigits 10 n).head? = some '0' && (Nat.toDigits 10 n).length ≠ 1)) =
      false := by
    have := hw.nonempty
    have := hw.single
    simp_all
  unfold ofUnsigned?
  rw [spanDigits_of_digits hw.isDigit]
  dsimp only
  rw [hl]
  exact ofParts?_whole hn hz hv fits

theorem ofText?_int (value : Int) (fits : Fits value) :
    ofText? (text (.int value fits)).toList = some (.int value fits) := by
  have hf := fits
  unfold Fits at hf
  unfold text
  dsimp only
  rw [Int.toString_eq_repr, Int.repr_eq_if]
  split
  . have hv : value = value.toNat := by omega
    rw [Nat.toList_repr, ofText?_of_isWhole (isWhole_toDigits _)]
    exact ofUnsigned?_toDigits (by unfold UInt64.size; omega) (by simp) hv fits
  . have hv : value = -((-value).toNat : Int) := by omega
    rw [String.toList_append, Nat.toList_repr]
    show ofText? ('-' :: Nat.toDigits 10 (-value).toNat) = _
    rw [ofText?_minus]
    exact ofUnsigned?_toDigits (by unfold UInt64.size; omega) (by intro _; omega) hv fits

end Number

end Turnstile
