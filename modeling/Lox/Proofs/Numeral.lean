import Lox.Proofs.Rescan
import Lox.Proofs.Rounding
import Lox.Value

/-!
# Numerals and their values

Digits in a row, with a point among them or without, are one number token (`cut_numeralToken`).  The
decimal that it denotes has the value of the digits, moved by the digits behind the point
(`Decimal.value_ofText_positional`).

A decimal that is written positionally is such a numeral and keeps its value.  One written with a
negative exponent is a numeral, the letter `e`, a minus and digits (`toList_scientific`).  Which of
the two it is depends on the place of the first digit, and that on the value
(`Decimal.value_bounds`).
-/

namespace Lox

open Grapheme

/-! ### Digits -/

def IsDigits (cs : List Char) : Prop := ∀ c ∈ cs, c.isDigit = true

theorem isDigits_repr (n : Nat) : IsDigits n.repr.toList := by
  intro c hc
  rw [Nat.toList_repr] at hc
  exact Nat.isDigit_of_mem_toDigits (by decide) (by decide) hc

theorem isDigits_replicate (n : Nat) : IsDigits (List.replicate n '0') := by
  intro c hc
  rw [List.eq_of_mem_replicate hc]
  rfl

theorem IsDigits.append {cs cs' : List Char} (h : IsDigits cs) (h' : IsDigits cs') :
    IsDigits (cs ++ cs') := by
  intro c hc
  rcases List.mem_append.mp hc with hc | hc
  · exact h c hc
  · exact h' c hc

theorem IsDigits.take {cs : List Char} (h : IsDigits cs) (n : Nat) : IsDigits (cs.take n) :=
  fun c hc => h c (List.mem_of_mem_take hc)

theorem IsDigits.drop {cs : List Char} (h : IsDigits cs) (n : Nat) : IsDigits (cs.drop n) :=
  fun c hc => h c (List.mem_of_mem_drop hc)

theorem IsDigits.ne_point {cs : List Char} (h : IsDigits cs) : ∀ c ∈ cs, c ≠ '.' := by
  rintro c hc rfl
  exact absurd (h _ hc) (by decide)

theorem repr_ne_nil (n : Nat) : n.repr.toList ≠ [] := by
  rw [Nat.toList_repr]
  exact Nat.toDigits_ne_nil

namespace Decimal

theorem natOfDigits_eq {cs : List Char} (h : IsDigits cs) :
    natOfDigits cs = Nat.ofDigitChars 10 cs 0 := by
  rw [natOfDigits, Nat.ofDigitChars_eq_foldl]
  refine List.foldl_ext _ _ 0 fun n c hc => ?_
  rw [digitOf, if_pos (h c hc)]
  rfl

theorem natOfDigits_repr (n : Nat) : natOfDigits n.repr.toList = n := by
  rw [natOfDigits_eq (isDigits_repr n), Nat.toList_repr, Nat.ofDigitChars_ten_toDigits]

theorem natOfDigits_replicate_append (n : Nat) {cs : List Char} (h : IsDigits cs) :
    natOfDigits (List.replicate n '0' ++ cs) = natOfDigits cs := by
  rw [natOfDigits_eq ((isDigits_replicate n).append h), natOfDigits_eq h, Nat.ofDigitChars_append,
    Nat.ofDigitChars_replicate_zero, Nat.mul_zero]

theorem natOfDigits_append_replicate (n : Nat) {cs : List Char} (h : IsDigits cs) :
    natOfDigits (cs ++ List.replicate n '0') = natOfDigits cs * 10 ^ n := by
  rw [natOfDigits_eq (h.append (isDigits_replicate n)), natOfDigits_eq h, Nat.ofDigitChars_append,
    Nat.ofDigitChars_replicate_zero, Nat.mul_comm]

theorem ofText_of_isDigits {cs : List Char} (h : IsDigits cs) :
    ofText cs = ⟨natOfDigits cs, 0⟩ := by
  have hpoint : ∀ c ∈ cs, decide (c ≠ '.') = true := fun c hc => decide_eq_true (h.ne_point c hc)
  rw [ofText, List.takeWhile_eq_self_iff.mpr hpoint, List.dropWhile_eq_nil_iff.mpr hpoint]
  simp

theorem ofText_append_point {cs : List Char} (h : IsDigits cs) (cs' : List Char) :
    ofText (cs ++ '.' :: cs') = ⟨natOfDigits (cs ++ cs'), -cs'.length⟩ := by
  have hpoint : ∀ c ∈ cs, decide (c ≠ '.') = true := fun c hc => decide_eq_true (h.ne_point c hc)
  rw [ofText, List.takeWhile_append_of_pos hpoint, List.dropWhile_append_of_pos hpoint]
  simp

/-! ### Positional notation -/

def wholePart (digits : List Char) (place : Int) : List Char :=
  if place ≤ 0 then ['0']
  else digits.take place.toNat ++ List.replicate (place.toNat - digits.length) '0'

def fractionPart (digits : List Char) (place : Int) : List Char :=
  if place ≤ 0 then List.replicate (-place).toNat '0' ++ digits
  else if (digits.drop place.toNat).isEmpty then ['0'] else digits.drop place.toNat

theorem toList_positional (digits : List Char) (place : Int) :
    (positional digits place).toList =
      wholePart digits place ++ '.' :: fractionPart digits place := by
  rw [positional, wholePart, fractionPart]
  split
  · simp
  · split <;> simp [*]

variable {digits : List Char}

theorem isDigits_wholePart (h : IsDigits digits) (place : Int) :
    IsDigits (wholePart digits place) := by
  rw [wholePart]
  split
  · exact isDigits_replicate 1
  · exact (h.take _).append (isDigits_replicate _)

theorem isDigits_fractionPart (h : IsDigits digits) (place : Int) :
    IsDigits (fractionPart digits place) := by
  rw [fractionPart]
  split
  · exact (isDigits_replicate _).append h
  · split
    · exact isDigits_replicate 1
    · exact h.drop _

theorem wholePart_ne_nil (h : digits ≠ []) (place : Int) : wholePart digits place ≠ [] := by
  rw [wholePart]
  split
  · exact List.cons_ne_nil _ _
  · rename_i hplace
    have htake : digits.take place.toNat ≠ [] := by
      rw [ne_eq, List.take_eq_nil_iff, not_or]
      exact ⟨by omega, h⟩
    exact List.append_ne_nil_of_left_ne_nil htake _

/-- **A numeral in positional notation has the value of its digits at their place.** -/
theorem value_ofText_positional (h : IsDigits digits) (place : Int) :
    (ofText (positional digits place).toList).value =
      natOfDigits digits * 10 ^ (place - digits.length) := by
  rw [toList_positional, ofText_append_point (isDigits_wholePart h place), value, wholePart,
    fractionPart]
  dsimp only
  split
  · rw [← List.replicate_one, ← List.append_assoc, List.replicate_append_replicate,
      natOfDigits_replicate_append _ h]
    congr 2
    simp
    omega
  · rename_i hplace
    split
    · rename_i hempty
      have hlen : digits.length ≤ place.toNat := by simpa using hempty
      obtain ⟨zeros, hzeros⟩ : ∃ zeros : Nat, place - digits.length = zeros :=
        Int.eq_ofNat_of_zero_le (by omega)
      have hsub : place.toNat - digits.length = zeros := by omega
      rw [List.take_of_length_le hlen, List.append_assoc, ← List.replicate_one,
        List.replicate_append_replicate, natOfDigits_append_replicate _ h, hsub, hzeros]
      simp [pow_succ, ← mul_assoc]
    · rename_i hne
      have hlen : place.toNat < digits.length := by simpa using hne
      rw [Nat.sub_eq_zero_of_le hlen.le, List.replicate_zero, List.append_nil,
        List.take_append_drop]
      congr 2
      simp
      omega

/-! ### The place of the first digit -/

/-- The number of digits before the point, negative with zeros behind it. -/
def place (d : Decimal) : Int := d.digits.repr.toList.length + d.exponent

theorem length_repr_bounds {n : Nat} (h : n ≠ 0) :
    10 ^ (n.repr.toList.length - 1) ≤ n ∧ n < 10 ^ n.repr.toList.length := by
  rw [Nat.toList_repr]
  have hpos := @Nat.length_toDigits_pos 10 n
  refine ⟨?_, (Nat.length_toDigits_le_iff (by decide) hpos).mp (Nat.le_refl _)⟩
  by_cases hone : (Nat.toDigits 10 n).length = 1
  · rw [hone]
    exact Nat.pos_of_ne_zero h
  · have hfewer : ¬ n < 10 ^ ((Nat.toDigits 10 n).length - 1) := by
      rw [← Nat.length_toDigits_le_iff (by decide) (by omega)]
      omega
    exact Nat.le_of_not_lt hfewer

/-- The place says between which powers of ten a decimal lies. -/
theorem value_bounds {d : Decimal} (h : d.digits ≠ 0) :
    (10 : ℚ) ^ (d.place - 1) ≤ d.value ∧ d.value < 10 ^ d.place := by
  obtain ⟨hlow, hhigh⟩ := length_repr_bounds h
  have hlen : 0 < d.digits.repr.toList.length := List.length_pos_iff.mpr (repr_ne_nil _)
  have hpos : (0 : ℚ) < 10 ^ d.exponent := zpow_pos (by norm_num) _
  rw [value, place]
  constructor
  · have hsplit : (d.digits.repr.toList.length : Int) + d.exponent - 1 =
        ((d.digits.repr.toList.length - 1 : Nat) : Int) + d.exponent := by omega
    rw [hsplit, zpow_add₀ (by norm_num), zpow_natCast]
    gcongr
    exact_mod_cast hlow
  · rw [zpow_add₀ (by norm_num), zpow_natCast]
    gcongr
    exact_mod_cast hhigh

theorem le_place_of_le {d : Decimal} (h : d.digits ≠ 0) {e : Int} (hle : (10 : ℚ) ^ e ≤ d.value) :
    e ≤ d.place - 1 := by
  have hlt := (zpow_lt_zpow_iff_right₀ (by norm_num)).mp (lt_of_le_of_lt hle (value_bounds h).2)
  omega

theorem place_lt_of_lt {d : Decimal} (h : d.digits ≠ 0) {e : Int} (hlt : d.value < (10 : ℚ) ^ e) :
    d.place - 1 < e :=
  (zpow_lt_zpow_iff_right₀ (by norm_num)).mp (lt_of_le_of_lt (value_bounds h).1 hlt)

end Decimal

/-! ### Number tokens -/

/-- Digits, and then perhaps a point and more digits. -/
def IsNumeralText (cs : List Char) : Prop :=
  ∃ whole tail, cs = whole ++ tail ∧ whole ≠ [] ∧ IsDigits whole ∧
    (tail = [] ∨ ∃ fraction, tail = '.' :: fraction ∧ IsDigits fraction)

theorem IsDigits.isNumeralText {cs : List Char} (h : IsDigits cs) (hne : cs ≠ []) :
    IsNumeralText cs :=
  ⟨cs, [], (List.append_nil cs).symm, hne, h, .inl rfl⟩

theorem isNumeralText_positional {digits : List Char} (h : IsDigits digits) (hne : digits ≠ [])
    (place : Int) : IsNumeralText (Decimal.positional digits place).toList :=
  ⟨_, _, Decimal.toList_positional digits place, Decimal.wholePart_ne_nil hne place,
    Decimal.isDigits_wholePart h place, .inr ⟨_, rfl, Decimal.isDigits_fractionPart h place⟩⟩

theorem toList_padded (width n : Nat) :
    (Decimal.padded width n).toList =
      List.replicate (width - n.repr.length) '0' ++ n.repr.toList := by
  rw [Decimal.padded, String.toList_append, String.toList_ofList]

/-- A negative exponent stands behind the letter `e` and a minus. -/
theorem toList_scientific {digits : List Char} (h : IsDigits digits) (hne : digits ≠ [])
    {exponent : Int} (hneg : exponent < 0) (width : Nat) :
    ∃ front back, (Decimal.scientific digits exponent width).toList =
      front ++ 'e' :: '-' :: back ∧ IsNumeralText front ∧ IsNumeralText back := by
  have hfirst : digits.take 1 ≠ [] := by
    rw [ne_eq, List.take_eq_nil_iff, not_or]
    exact ⟨by decide, hne⟩
  have hback : IsNumeralText (Decimal.padded width exponent.natAbs).toList := by
    rw [toList_padded]
    exact ((isDigits_replicate _).append (isDigits_repr _)).isNumeralText
      (List.append_ne_nil_of_right_ne_nil _ (repr_ne_nil _))
  rw [Decimal.scientific, if_pos hneg]
  by_cases hempty : (digits.drop 1).isEmpty = true
  · refine ⟨digits.take 1, _, ?_, (h.take 1).isNumeralText hfirst, hback⟩
    rw [if_pos hempty]
    simp
  · refine ⟨digits.take 1 ++ '.' :: digits.drop 1, _, ?_,
      ⟨_, _, rfl, hfirst, h.take 1, .inr ⟨_, rfl, h.drop 1⟩⟩, hback⟩
    rw [if_neg hempty]
    simp

theorem IsDigits.count_point {cs : List Char} (h : IsDigits cs) :
    (cs.map single).count (single '.') = 0 := by
  rw [List.count_eq_zero]
  intro hpoint
  obtain ⟨c, hc, heq⟩ := List.mem_map.mp hpoint
  cases heq
  exact h.ne_point _ hc rfl

theorem IsNumeralText.isNumeral {cs : List Char} (h : IsNumeralText cs) :
    IsNumeral (cs.map single) := by
  obtain ⟨whole, tail, rfl, hne, hwhole, htail⟩ := h
  obtain ⟨c, cs, rfl⟩ := List.exists_cons_of_ne_nil hne
  have hcs : IsDigits cs := fun d hd => hwhole d (List.mem_cons_of_mem c hd)
  refine ⟨single c, (cs ++ tail).map single, rfl, hwhole c List.mem_cons_self, ?_, ?_⟩
  · intro g hg
    obtain ⟨d, hd, rfl⟩ := List.mem_map.mp hg
    rcases List.mem_append.mp hd with hd | hd
    · exact .inl (hcs d hd)
    · rcases htail with rfl | ⟨fraction, rfl, hfraction⟩
      · cases hd
      · rcases List.mem_cons.mp hd with rfl | hd
        · exact .inr rfl
        · exact .inl (hfraction d hd)
  · rw [List.map_append, List.count_append, hcs.count_point]
    rcases htail with rfl | ⟨fraction, rfl, hfraction⟩
    · exact Nat.zero_le 1
    · rw [List.map_cons, List.count_cons_self, hfraction.count_point]

theorem mem_of_isDigit {c : Char} (h : c.isDigit = true) :
    c ∈ ['0', '1', '2', '3', '4', '5', '6', '7', '8', '9'] := by
  have hbounds : 48 ≤ c.toNat ∧ c.toNat ≤ 57 := by
    simpa [Char.isDigit, UInt32.le_iff_toNat_le] using h
  rw [← Char.ofNat_toNat c]
  obtain ⟨hlow, hhigh⟩ := hbounds
  interval_cases c.toNat <;> decide

theorem isPlain_of_all {cs : List Char} (h : cs.all (IsPlain ·) = true) : ∀ c ∈ cs, IsPlain c :=
  fun c hc => of_decide_eq_true (List.all_eq_true.mp h c hc)

theorem isPlain_of_isDigit {c : Char} (h : c.isDigit = true) : IsPlain c :=
  isPlain_of_all (by decide) c (mem_of_isDigit h)

theorem IsNumeralText.isPlain {cs : List Char} (h : IsNumeralText cs) : ∀ c ∈ cs, IsPlain c := by
  obtain ⟨whole, tail, rfl, -, hwhole, htail⟩ := h
  intro c hc
  rcases List.mem_append.mp hc with hc | hc
  · exact isPlain_of_isDigit (hwhole c hc)
  · rcases htail with rfl | ⟨fraction, rfl, hfraction⟩
    · cases hc
    · rcases List.mem_cons.mp hc with rfl | hc
      · decide
      · exact isPlain_of_isDigit (hfraction c hc)

theorem Token.graphemes_of_lexeme {t : Token} {cs : List Char} (h : t.lexeme = String.ofList cs) :
    t.graphemes = cs.map single := by
  rw [graphemes, h, String.toList_ofList]

def numeralToken (cs : List Char) : Token :=
  ⟨.number, String.ofList cs, .number (Decimal.ofText cs).toFloat, 1⟩

theorem cut_numeralToken {cs : List Char} {rest : List Grapheme} (h : IsNumeralText cs)
    (hrest : ∀ g ∈ rest.head?, g.isDigit = false ∧ g ≠ single '.') :
    Cut (numeralToken cs).segment rest := by
  have hgraphemes : (numeralToken cs).graphemes = cs.map single := Token.graphemes_of_lexeme rfl
  have hchars : (cs.map single).flatMap chars = cs := by
    simp [List.flatMap_map, chars, single]
  have hcut := Cut.number h.isNumeral fun g hg =>
    ⟨(hrest g hg).1, fun hpoint => absurd hpoint (hrest g hg).2⟩
  rw [hchars] at hcut
  rw [Token.segment, hgraphemes]
  exact hcut

end Lox
