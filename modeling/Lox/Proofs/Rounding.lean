import Lox.Proofs.FloatParts

/-!
# Rounding decimals to doubles

The bits that a decimal is rounded to depend on its value only, and grow with it
(`Decimal.toBits_mono`); and the value of a finite double is rounded to the bits of that double
(`Decimal.toBits_of_value_eq`).  So the shortest decimal of a double, which may have another value,
is still rounded to the double it was made from (`Double.toBits_shortest`).

Values are rational numbers.  A quotient is scaled by the power of two that `scale` finds and then
rounded to a whole number, and `RoundsTo` says what that rounding does.
-/

namespace Lox

/-! ### Rounding to a whole number -/

/-- The whole number `m` is nearest to `q`, and even when two are. -/
structure RoundsTo (q : ℚ) (m : Nat) : Prop where
  low : (m : ℚ) - 1 / 2 ≤ q
  high : q ≤ m + 1 / 2
  even : q = m - 1 / 2 ∨ q = m + 1 / 2 → m % 2 = 0

theorem roundsTo_natCast (n : Nat) : RoundsTo n n where
  low := by linarith
  high := by linarith
  even := by
    rintro (h | h) <;> linarith

/-- Rounding keeps the order. -/
theorem RoundsTo.le {q q' : ℚ} {m m' : Nat} (h : RoundsTo q m) (h' : RoundsTo q' m')
    (hle : q ≤ q') : m ≤ m' := by
  by_contra hlt
  have hsucc : (m' : ℚ) + 1 ≤ m := by exact_mod_cast Nat.lt_of_not_le hlt
  have hlow := h.low
  have hhigh := h'.high
  -- both are the half between `m'` and the next, so both would be even
  have hm : (m : ℚ) = (m' + 1 : Nat) := by
    push_cast
    linarith
  have hm : m = m' + 1 := by exact_mod_cast hm
  have heven := h.even (.inl (by linarith))
  have heven' := h'.even (.inr (by linarith))
  omega

theorem RoundsTo.eq {n m : Nat} (h : RoundsTo n m) : m = n :=
  Nat.le_antisymm (h.le (roundsTo_natCast n) le_rfl) ((roundsTo_natCast n).le h le_rfl)

theorem roundsTo_of_lt_half (n : Nat) {f : ℚ} (hf : 0 ≤ f) (hhalf : f < 1 / 2) :
    RoundsTo (n + f) n where
  low := by linarith
  high := by linarith
  even := by
    rintro (h | h) <;> linarith

theorem roundsTo_of_half_lt (n : Nat) {f : ℚ} (hhalf : 1 / 2 < f) (hf : f ≤ 1) :
    RoundsTo (n + f) (n + 1 : Nat) where
  low := by
    push_cast
    linarith
  high := by
    push_cast
    linarith
  even := by
    push_cast
    rintro (h | h) <;> linarith

theorem roundsTo_half (n : Nat) : RoundsTo (n + 1 / 2) (n + n % 2) := by
  rcases Nat.mod_two_eq_zero_or_one n with h | h
  · rw [h, Nat.add_zero]
    refine ⟨?_, le_rfl, fun _ => h⟩
    linarith
  · rw [h]
    refine ⟨?_, ?_, fun _ => by omega⟩
    · push_cast
      linarith
    · push_cast
      linarith

/-! ### The bits nearest to a quotient -/

namespace Decimal

theorem div_eq_add_mod (a : Nat) {b : Nat} (hb : 0 < b) :
    (a : ℚ) / b = (a / b : Nat) + (a % b : Nat) / b := by
  have hne : (b : ℚ) ≠ 0 := by exact_mod_cast hb.ne'
  have ha : (b : ℚ) * (a / b : Nat) + (a % b : Nat) = a := by exact_mod_cast Nat.div_add_mod a b
  rw [← ha, add_div, mul_div_cancel_left₀ _ hne]

theorem roundsTo_divRound (a : Nat) {b : Nat} (hb : 0 < b) :
    RoundsTo ((a : ℚ) / b) (divRound a b) := by
  have hpos : (0 : ℚ) < b := by exact_mod_cast hb
  rw [divRound, div_eq_add_mod a hb]
  split
  · rename_i hlt
    refine roundsTo_of_lt_half _ (div_nonneg (Nat.cast_nonneg _) hpos.le) ?_
    rw [div_lt_div_iff₀ hpos two_pos]
    exact_mod_cast (by omega : a % b * 2 < 1 * b)
  · split
    · rename_i hgt
      refine roundsTo_of_half_lt _ ?_ ?_
      · rw [div_lt_div_iff₀ two_pos hpos]
        exact_mod_cast (by omega : 1 * b < a % b * 2)
      · rw [div_le_one hpos]
        exact_mod_cast (Nat.mod_lt a hb).le
    · have hhalf : ((a % b : Nat) : ℚ) / b = 1 / 2 := by
        rw [div_eq_div_iff hpos.ne' two_ne_zero]
        exact_mod_cast (by omega : a % b * 2 = 1 * b)
      rw [hhalf]
      exact roundsTo_half _

/-- A power with a whole exponent is the quotient of two natural powers. -/
theorem zpow_eq_div (c : Nat) (e : Int) :
    (c : ℚ) ^ e = (Nat.pow c e.toNat : Nat) / (Nat.pow c (-e).toNat : Nat) := by
  simp only [Nat.pow_eq]
  rcases le_total 0 e with h | h
  · obtain ⟨n, rfl⟩ := Int.eq_ofNat_of_zero_le h
    simp
  · obtain ⟨n, hn⟩ := Int.eq_ofNat_of_zero_le (Int.neg_nonneg.mpr h)
    obtain rfl : e = -(n : Int) := by omega
    simp

theorem two_zpow_eq_div (e : Int) :
    (2 : ℚ) ^ e = (Nat.pow 2 e.toNat : Nat) / (Nat.pow 2 (-e).toNat : Nat) :=
  zpow_eq_div 2 e

theorem two_zpow_le_div_iff {a b : Nat} (hb : 0 < b) (e : Int) :
    (2 : ℚ) ^ e ≤ a / b ↔ b * Nat.pow 2 e.toNat ≤ a * Nat.pow 2 (-e).toNat := by
  have hpos : (0 : ℚ) < b := by exact_mod_cast hb
  have hpow : (0 : ℚ) < (Nat.pow 2 (-e).toNat : Nat) := by exact_mod_cast Nat.two_pow_pos _
  rw [two_zpow_eq_div, div_le_div_iff₀ hpow hpos, mul_comm]
  norm_cast

theorem log2_bounds {a : Nat} (ha : a ≠ 0) :
    (2 : ℚ) ^ (a.log2 : Int) ≤ a ∧ (a : ℚ) < 2 ^ ((a.log2 : Int) + 1) := by
  constructor
  · rw [zpow_natCast]
    exact_mod_cast Nat.log2_self_le ha
  · have hlt := @Nat.lt_log2_self a
    exact_mod_cast hlt

/-- The number `log2Ratio a b` is the exponent of the power of two below `a / b`. -/
theorem log2Ratio_bounds {a b : Nat} (ha : a ≠ 0) (hb : 0 < b) :
    (2 : ℚ) ^ log2Ratio a b ≤ a / b ∧ (a : ℚ) / b < 2 ^ (log2Ratio a b + 1) := by
  obtain ⟨halow, hahigh⟩ := log2_bounds ha
  obtain ⟨hblow, hbhigh⟩ := log2_bounds hb.ne'
  have hpos : (0 : ℚ) < b := by exact_mod_cast hb
  have hupper : (a : ℚ) / b < 2 ^ ((a.log2 : Int) - b.log2 + 1) := by
    rw [div_lt_iff₀ hpos]
    calc (a : ℚ) < 2 ^ ((a.log2 : Int) + 1) := hahigh
      _ = 2 ^ ((a.log2 : Int) - b.log2 + 1) * 2 ^ (b.log2 : Int) := by
        rw [← zpow_add₀ two_ne_zero]
        congr 1
        omega
      _ ≤ 2 ^ ((a.log2 : Int) - b.log2 + 1) * b := by gcongr
  have hlower : (2 : ℚ) ^ ((a.log2 : Int) - b.log2 - 1) ≤ a / b := by
    rw [le_div_iff₀ hpos]
    calc (2 : ℚ) ^ ((a.log2 : Int) - b.log2 - 1) * b
        ≤ 2 ^ ((a.log2 : Int) - b.log2 - 1) * 2 ^ ((b.log2 : Int) + 1) := by gcongr
      _ = 2 ^ (a.log2 : Int) := by
        rw [← zpow_add₀ two_ne_zero]
        congr 1
        omega
      _ ≤ a := halow
  rw [log2Ratio]
  simp only [← two_zpow_le_div_iff hb]
  split
  · exact ⟨‹_›, hupper⟩
  · rename_i h
    rw [sub_add_cancel]
    exact ⟨hlower, not_le.mp h⟩

theorem le_log2Ratio_iff {a b : Nat} (ha : a ≠ 0) (hb : 0 < b) (e : Int) :
    e ≤ log2Ratio a b ↔ (2 : ℚ) ^ e ≤ a / b := by
  obtain ⟨hlow, hhigh⟩ := log2Ratio_bounds ha hb
  constructor
  · intro h
    exact le_trans (zpow_le_zpow_right₀ one_le_two h) hlow
  · intro h
    have hlt := (zpow_lt_zpow_iff_right₀ (one_lt_two : (1 : ℚ) < 2)).mp (lt_of_le_of_lt h hhigh)
    omega

/-- The exponent at which a quotient is rounded. -/
def scale (a b : Nat) : Int := max (log2Ratio a b - 52) minExponent

theorem scaled_eq (a b : Nat) (k : Int) :
    ((a * Nat.pow 2 (-k).toNat : Nat) : ℚ) / (b * Nat.pow 2 k.toNat : Nat) = a / b / 2 ^ k := by
  rw [two_zpow_eq_div, div_div_div_eq]
  push_cast
  rfl

theorem nearestBits_eq {a b : Nat} (ha : a ≠ 0) (hb : 0 < b) :
    ∃ m, nearestBits a b = packBits m (scale a b) ∧ RoundsTo ((a : ℚ) / b / 2 ^ scale a b) m := by
  refine ⟨_, if_neg ha, ?_⟩
  rw [← scaled_eq]
  exact roundsTo_divRound _ (Nat.mul_pos hb (Nat.two_pow_pos _))

theorem div_scale_le {a b : Nat} (ha : a ≠ 0) (hb : 0 < b) :
    (a : ℚ) / b / 2 ^ scale a b ≤ (2 ^ 53 : Nat) := by
  have hle : log2Ratio a b + 1 ≤ 53 + scale a b := by
    have hmax := le_max_left (log2Ratio a b - 52) minExponent
    rw [← scale] at hmax
    omega
  rw [div_le_iff₀ (zpow_pos two_pos _)]
  calc (a : ℚ) / b ≤ 2 ^ (log2Ratio a b + 1) := (log2Ratio_bounds ha hb).2.le
    _ ≤ 2 ^ (53 + scale a b) := zpow_le_zpow_right₀ one_le_two hle
    _ = (2 ^ 53 : Nat) * 2 ^ scale a b := by
      rw [zpow_add₀ two_ne_zero]
      norm_num

theorem le_div_scale {a b : Nat} (ha : a ≠ 0) (hb : 0 < b) (h : minExponent < scale a b) :
    ((2 ^ 52 : Nat) : ℚ) ≤ a / b / 2 ^ scale a b := by
  have heq : 52 + scale a b = log2Ratio a b := by
    rw [scale] at h ⊢
    omega
  rw [le_div_iff₀ (zpow_pos two_pos _)]
  calc ((2 ^ 52 : Nat) : ℚ) * 2 ^ scale a b = 2 ^ (52 + scale a b) := by
        rw [zpow_add₀ two_ne_zero]
        norm_num
    _ = 2 ^ log2Ratio a b := by rw [heq]
    _ ≤ a / b := (log2Ratio_bounds ha hb).1

theorem scale_mono {a b c d : Nat} (ha : a ≠ 0) (hc : c ≠ 0) (hb : 0 < b) (hd : 0 < d)
    (h : (a : ℚ) / b ≤ c / d) : scale a b ≤ scale c d := by
  have hlog : log2Ratio a b ≤ log2Ratio c d :=
    (le_log2Ratio_iff hc hd _).mpr (le_trans (log2Ratio_bounds ha hb).1 h)
  rw [scale, scale]
  omega

/-- **A larger quotient has no smaller bits.** -/
theorem nearestBits_mono {a b c d : Nat} (hb : 0 < b) (hd : 0 < d) (h : (a : ℚ) / b ≤ c / d) :
    nearestBits a b ≤ nearestBits c d := by
  by_cases ha : a = 0
  · rw [ha]
    exact Nat.zero_le _
  have hc : c ≠ 0 := by
    rintro rfl
    have hpos : (0 : ℚ) < a / b := by positivity
    rw [Nat.cast_zero, zero_div] at h
    linarith
  obtain ⟨m, hm, hr⟩ := nearestBits_eq ha hb
  obtain ⟨m', hm', hr'⟩ := nearestBits_eq hc hd
  have hmin : minExponent ≤ scale a b := le_max_right _ _
  have hbits : (scale a b - minExponent).toNat * Nat.pow 2 52 + m ≤
      (scale c d - minExponent).toNat * Nat.pow 2 52 + m' := by
    rcases eq_or_lt_of_le (scale_mono ha hc hb hd h) with heq | hlt
    · rw [heq] at hr ⊢
      have hle := hr.le hr' (by gcongr)
      omega
    · have hle := hr.le (roundsTo_natCast _) (div_scale_le ha hb)
      have hge := (roundsTo_natCast _).le hr' (le_div_scale hc hd (by omega))
      have hpow : Nat.pow 2 52 = 2 ^ 52 := rfl
      rw [hpow]
      omega
  rw [hm, hm', packBits, packBits]
  exact min_le_min_right _ hbits

theorem nearestBits_congr {a b c d : Nat} (hb : 0 < b) (hd : 0 < d) (h : (a : ℚ) / b = c / d) :
    nearestBits a b = nearestBits c d :=
  Nat.le_antisymm (nearestBits_mono hb hd h.le) (nearestBits_mono hd hb h.ge)

end Decimal

/-! ### The value of a double -/

namespace Double

def value (x : Double) : ℚ := x.significand * 2 ^ x.exponent

theorem den_pos (x : Double) : 0 < x.den := Nat.two_pow_pos _

theorem num_div_den (x : Double) : (x.num : ℚ) / x.den = x.value := by
  rw [value, Decimal.two_zpow_eq_div, num, den, Nat.cast_mul, mul_div_assoc]

theorem num_eq_zero {x : Double} (h : x.magnitude = 0) : x.num = 0 := by
  have hsignificand : x.significand = 0 := by
    have hparts := x.subnormal_or_normal
    omega
  rw [num, hsignificand, Nat.zero_mul]

theorem num_ne_zero {x : Double} (h : x.magnitude ≠ 0) : x.num ≠ 0 :=
  Nat.mul_ne_zero (significand_pos h).ne' (Nat.two_pow_pos _).ne'

theorem scale_eq {x : Double} (h : x.magnitude ≠ 0) : Decimal.scale x.num x.den = x.exponent := by
  have hexponent := x.le_exponent
  have hpos : (0 : ℚ) < 2 ^ x.exponent := zpow_pos two_pos _
  have hhigh : ¬ x.exponent + 53 ≤ Decimal.log2Ratio x.num x.den := by
    rw [Decimal.le_log2Ratio_iff (num_ne_zero h) x.den_pos, num_div_den, value, not_le, add_comm,
      zpow_add₀ two_ne_zero]
    gcongr
    exact_mod_cast x.significand_lt
  rw [Decimal.scale, Decimal.minExponent]
  rcases x.exponent_or_significand with hleast | hlarge
  · omega
  · have hlow : x.exponent + 52 ≤ Decimal.log2Ratio x.num x.den := by
      rw [Decimal.le_log2Ratio_iff (num_ne_zero h) x.den_pos, num_div_den, value, add_comm,
        zpow_add₀ two_ne_zero]
      gcongr
      exact_mod_cast hlarge
    omega

/-- **The value of a finite double has the bits of the double.** -/
theorem nearestBits_num_den {x : Double} (h : x.IsFinite) :
    Decimal.nearestBits x.num x.den = x.magnitude := by
  by_cases hzero : x.magnitude = 0
  · rw [num_eq_zero hzero, hzero]
    rfl
  · obtain ⟨m, hm, hr⟩ := Decimal.nearestBits_eq (num_ne_zero hzero) x.den_pos
    rw [scale_eq hzero] at hm hr
    rw [num_div_den, value, mul_div_cancel_right₀ _ (zpow_pos two_pos _).ne'] at hr
    rw [hm, hr.eq, Decimal.packBits]
    have hfin : x.magnitude < Decimal.infinityBits := h
    have hmagnitude := x.magnitude_eq
    have hexponent := x.le_exponent
    simp only [Decimal.minExponent, Nat.pow_eq]
    omega

end Double

/-! ### The value of a decimal -/

namespace Decimal

def value (d : Decimal) : ℚ := d.digits * 10 ^ d.exponent

theorem value_one (e : Int) : value ⟨1, e⟩ = 10 ^ e := by
  rw [value, Nat.cast_one, one_mul]

theorem num_div_den (d : Decimal) : (d.num : ℚ) / d.den = d.value := by
  have hz := zpow_eq_div 10 d.exponent
  rw [Nat.cast_ofNat] at hz
  rw [value, hz, num, den, Nat.cast_mul, mul_div_assoc]

/-- **Rounding keeps the order of decimals.** -/
theorem toBits_mono {d d' : Decimal} (h : d.value ≤ d'.value) : d.toBits ≤ d'.toBits :=
  nearestBits_mono d.den_pos d'.den_pos (by rwa [num_div_den, num_div_den])

theorem toBits_congr {d d' : Decimal} (h : d.value = d'.value) : d.toBits = d'.toBits :=
  Nat.le_antisymm (toBits_mono h.le) (toBits_mono h.ge)

theorem lt_of_toBits_lt {d d' : Decimal} (h : d.toBits < d'.toBits) : d.value < d'.value := by
  by_contra hle
  exact absurd (toBits_mono (not_lt.mp hle)) (Nat.not_le.mpr h)

/-- **The value of a finite double is rounded to that double.** -/
theorem toBits_of_value_eq {d : Decimal} {x : Double} (hx : x.IsFinite) (h : d.value = x.value) :
    d.toBits = x.magnitude := by
  rw [← Double.nearestBits_num_den hx]
  exact nearestBits_congr d.den_pos x.den_pos (by rw [num_div_den, Double.num_div_den, h])

theorem value_dropZeros (bound : Nat) (d : Decimal) : (d.dropZeros bound).value = d.value := by
  induction bound generalizing d with
  | zero => rfl
  | succ bound ih =>
    rw [dropZeros]
    split
    · rename_i h
      obtain ⟨n, hn⟩ := Nat.dvd_of_mod_eq_zero h.2
      rw [ih, value, value, hn, Nat.mul_div_cancel_left n (by decide), zpow_add_one₀ (by decide)]
      push_cast
      ring
    · rfl

theorem value_trim (d : Decimal) : d.trim.value = d.value := value_dropZeros _ d

end Decimal

/-! ### The shortest decimal -/

namespace Double

theorem value_exact (x : Double) : x.exact.value = x.value := by
  rw [exact]
  split
  · rename_i h
    obtain ⟨n, hn⟩ := Int.eq_ofNat_of_zero_le h
    rw [Decimal.value, num, value, hn, zpow_zero, mul_one, Int.toNat_natCast]
    push_cast
    simp
  · rename_i h
    obtain ⟨n, hn⟩ : ∃ n : Nat, -x.exponent = n := Int.eq_ofNat_of_zero_le (by omega)
    have hexponent : x.exponent = -(n : Int) := by omega
    have hten : (10 : ℚ) = 5 * 2 := by norm_num
    rw [Decimal.value, value, hn, Int.toNat_natCast, hexponent, zpow_neg, zpow_neg, zpow_natCast,
      zpow_natCast, hten, mul_pow]
    simp only [Nat.pow_eq]
    push_cast
    field_simp

theorem toBits_of_onGrid? {x : Double} {unit : Int} {d : Decimal} (h : x.onGrid? unit = some d) :
    d.toBits = x.magnitude := by
  have hreads : ∀ {d : Decimal}, x.readsBack d = true → d.toBits = x.magnitude :=
    fun h => of_decide_eq_true h
  rw [onGrid?] at h
  split at h
  · rename_i hbelow habove
    dsimp only at h
    split at h
    · cases h
      exact hreads hbelow
    · cases h
      exact hreads habove
  · rename_i hbelow habove
    cases h
    exact hreads hbelow
  · rename_i hbelow habove
    cases h
    exact hreads habove
  · cases h

/-- **The shortest decimal of a finite double is rounded to that double.** -/
theorem toBits_shortest {x : Double} (h : x.IsFinite) : x.shortest.toBits = x.magnitude := by
  rw [shortest]
  split
  · rename_i hzero
    rw [hzero]
    rfl
  · rw [Decimal.toBits_congr (Decimal.value_trim _)]
    cases hgrid : (List.range 17).findSome? fun n => x.onGrid? (x.decimalOrder - (n + 1 : Nat)) with
    | none => exact Decimal.toBits_of_value_eq h x.value_exact
    | some d =>
      obtain ⟨n, -, hn⟩ := List.exists_of_findSome?_eq_some hgrid
      exact toBits_of_onGrid? hn

end Double

end Lox
