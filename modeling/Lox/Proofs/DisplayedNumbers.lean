import Lox.Proofs.DepthLimits
import Lox.Proofs.Numeral
import Lox.Proofs.Running

/-!
# Displayed numbers run again

The display text of a number is a source text, and running it gives the number back, bit for bit,
for zero and from one ten-thousandth up (`displayNumber_runs_back`).  Smaller numbers are displayed
with an exponent, which is no part of a number literal, and infinities and what is no number are
displayed as names; these texts end in a parse error.

The argument follows the text.  A finite number is displayed as an optional minus and a numeral that
is rounded to its magnitude (`Double.exists_numeral`), or, if it is tiny, with an exponent
(`Double.exists_exponent`).  Each of these texts is scanned as the tokens it is made of
(`tokenize_sign_append`), and what these tokens parse and evaluate to is then computed.
-/

namespace Lox

open Grapheme

/-! ### Outcomes -/

/-- A run that ends well with a value and shows only a text. -/
def Outcome.Yields (o : Outcome) (v : Value) (text : String) : Prop :=
  o.status = .success ∧ o.value = v ∧ o.shown = [text]

/-- A run that ends in a parse error and reports nothing else. -/
def Outcome.EndsInParseError (o : Outcome) : Prop :=
  o.lexicalErrors = [] ∧ ∃ e, o.parseError = some e ∧ o.shown = [e.report]

theorem Outcome.Yields.not_endsInParseError {o : Outcome} {v : Value} {text : String}
    (h : o.Yields v text) : ¬ o.EndsInParseError := by
  rintro ⟨hlexical, e, he, -⟩
  have hstatus := h.1
  rw [status, hlexical, he] at hstatus
  cases hstatus

theorem scan_of_tokenize {source : String} {ts : List Token} (h : tokenize source = .ok ts) :
    (Scan.ofString source).errors = [] ∧ (Scan.ofString source).tokens = ts := by
  rw [tokenize] at h
  split at h
  · rename_i herrors
    cases h
    exact ⟨herrors, rfl⟩
  · cases h

section

variable {config : Config} {source : String} {ts : List Token}

theorem yields_run {tree : Expr} {v : Value} (htokens : tokenize source = .ok ts)
    (hparse : parseTokens ts config.maxNestingDepth = .ok tree)
    (heval : evaluate config tree = .ok v) : (run config false source).Yields v v.display := by
  obtain ⟨herrors, rfl⟩ := scan_of_tokenize htokens
  have hlexical := lexicalErrors_run config false (Scan.ofString source)
  rw [herrors] at hlexical
  cases ended_run config false (Scan.ofString source) with
  | parseError e hparse' => cases hparse.symm.trans hparse'
  | runtimeError tree' fault hparse' heval' =>
    cases hparse.symm.trans hparse'
    cases heval.symm.trans heval'
  | value tree' v' hparse' heval' hp hr hv hshown =>
    cases hparse.symm.trans hparse'
    cases heval.symm.trans heval'
    rw [herrors] at hshown
    refine ⟨?_, hv, hshown⟩
    rw [run, Outcome.status, hlexical, hp, hr]
    rfl

theorem endsInParseError_run {e : ParseError} (htokens : tokenize source = .ok ts)
    (hparse : parseTokens ts config.maxNestingDepth = .error e) :
    (run config false source).EndsInParseError := by
  obtain ⟨herrors, rfl⟩ := scan_of_tokenize htokens
  have hlexical := lexicalErrors_run config false (Scan.ofString source)
  rw [herrors] at hlexical
  cases ended_run config false (Scan.ofString source) with
  | parseError e' hparse' hp hr hv hshown =>
    rw [herrors] at hshown
    exact ⟨hlexical, e', hp, hshown⟩
  | runtimeError tree fault hparse' => cases hparse.symm.trans hparse'
  | value tree v hparse' => cases hparse.symm.trans hparse'

end

/-! ### Tokens of a displayed number -/

def minusToken : Token := ⟨.minus, "-", .nil, 1⟩

def nameToken (cs : List Char) : Token :=
  ⟨.identifier, String.ofList cs, .identifier (String.ofList cs), 1⟩

def displayNames : List (List Char) := [['N', 'a', 'N'], ['i', 'n', 'f'], ['e']]

theorem cut_minusToken (rest : List Grapheme) : Cut minusToken.segment rest := by
  have hm : ('-', Kind.minus) ∈ Kind.singles := by decide
  exact .single hm

theorem isName_displayName {cs : List Char} (h : cs ∈ displayNames) : IsName (cs.map single) := by
  simp only [displayNames, List.mem_cons, List.not_mem_nil, or_false] at h
  rcases h with rfl | rfl | rfl <;> exact ⟨_, _, rfl, by decide +kernel, by decide +kernel⟩

theorem spelling_ne_displayName {cs : List Char} (h : cs ∈ displayNames) (word : Keyword) :
    word.spelling ≠ String.ofList cs := by
  simp only [displayNames, List.mem_cons, List.not_mem_nil, or_false] at h
  rcases h with rfl | rfl | rfl <;> cases word <;> decide

theorem cut_nameToken {cs : List Char} (h : cs ∈ displayNames) {rest : List Grapheme}
    (hrest : ∀ g ∈ rest.head?, g.continuesName = false) : Cut (nameToken cs).segment rest := by
  have hgraphemes : (nameToken cs).graphemes = cs.map single := Token.graphemes_of_lexeme rfl
  have hjoin : join (cs.map single) = String.ofList cs := by
    rw [← hgraphemes, Token.join_graphemes, nameToken]
  have hcut := Cut.identifier (isName_displayName h) hrest fun word => by
    rw [hjoin]
    exact spelling_ne_displayName h word
  rw [hjoin] at hcut
  rw [Token.segment, hgraphemes]
  exact hcut

/-- A token on the first line of characters that join with no other. -/
def Token.IsPlain (t : Token) : Prop := t.line = 1 ∧ ∀ c ∈ t.lexeme.toList, Lox.IsPlain c

theorem isPlain_minusToken : minusToken.IsPlain := by
  refine ⟨rfl, ?_⟩
  show ∀ c ∈ ['-'], IsPlain c
  exact isPlain_of_all (by decide)

theorem isPlain_numeralToken {cs : List Char} (h : IsNumeralText cs) :
    (numeralToken cs).IsPlain := by
  refine ⟨rfl, ?_⟩
  rw [numeralToken, String.toList_ofList]
  exact h.isPlain

theorem isPlain_nameToken {cs : List Char} (h : cs ∈ displayNames) : (nameToken cs).IsPlain := by
  have hplain : displayNames.all (·.all (IsPlain ·)) = true := by decide
  refine ⟨rfl, ?_⟩
  rw [nameToken, String.toList_ofList]
  exact isPlain_of_all (List.all_eq_true.mp hplain cs h)

def Double.signTokens (x : Double) : List Token := if x.negative then [minusToken] else []

theorem tokenize_sign_append (x : Double) {text : String} {ts : List Token}
    (htext : text.toList = ts.flatMap (·.lexeme.toList)) (h : StandsBefore ts [])
    (hplain : ∀ t ∈ ts, t.IsPlain) :
    tokenize (x.sign ++ text) = .ok (x.signTokens ++ ts ++ [.eof 1]) := by
  have hsource : String.ofList ((x.signTokens ++ ts).flatMap (·.lexeme.toList)) =
      x.sign ++ text := by
    rw [List.flatMap_append, ← htext, String.ofList_append, String.ofList_toList, Double.sign,
      Double.signTokens]
    split <;> rfl
  rw [← hsource]
  apply tokenize_of_standsBefore
  · rw [Double.signTokens]
    split
    · exact ⟨cut_minusToken _, h⟩
    · exact h
  · intro t ht
    rcases List.mem_append.mp ht with ht | ht
    · rw [Double.signTokens] at ht
      split at ht
      · rw [List.mem_singleton.mp ht]
        exact isPlain_minusToken
      · cases ht
    · exact hplain t ht

/-! ### What the tokens come to -/

def Double.signed (x : Double) (y : Float) : Float := if x.negative then -y else y

theorem evaluate_literal (v : Value) : evaluate {} (.literal v) = .ok v :=
  evaluate_of_evalIn (Expr.evalIn_eq_meaning {} (.literal v) false 0 (by simp [Expr.levels]))

theorem evaluate_minus (y : Float) :
    evaluate {} (.unary minusToken (.literal (.number y))) = .ok (.number (-y)) :=
  evaluate_of_evalIn (Expr.evalIn_eq_meaning {} (.unary minusToken (.literal (.number y))) false 0
    (by simp [Expr.levels]))

/-- **A sign and a numeral give the number that they denote.** -/
theorem yields_numeral (x : Double) {text : String} (h : IsNumeralText text.toList) :
    (run {} false (x.sign ++ text)).Yields
      (.number (x.signed (Decimal.ofText text.toList).toFloat))
      (displayNumber (x.signed (Decimal.ofText text.toList).toFloat)) := by
  have htext : text.toList = [numeralToken text.toList].flatMap (·.lexeme.toList) := by
    simp [numeralToken]
  have hstands : StandsBefore [numeralToken text.toList] [] := by
    refine ⟨cut_numeralToken h ?_, trivial⟩
    rintro g ⟨⟩
  have hplain : ∀ t ∈ [numeralToken text.toList], t.IsPlain := by
    simpa using isPlain_numeralToken h
  have htokens := tokenize_sign_append x htext hstands hplain
  rw [Double.signTokens] at htokens
  rw [Double.signed]
  split at htokens
  · rename_i hneg
    rw [if_pos hneg]
    exact yields_run htokens rfl (evaluate_minus _)
  · rename_i hpos
    rw [if_neg hpos]
    exact yields_run htokens rfl (evaluate_literal _)

/-- **An exponent is not read.** -/
theorem endsInParseError_exponent (x : Double) {text : String} {front back : List Char}
    (htext : text.toList = front ++ 'e' :: '-' :: back) (hfront : IsNumeralText front)
    (hback : IsNumeralText back) : (run {} false (x.sign ++ text)).EndsInParseError := by
  have hname : ['e'] ∈ displayNames := by decide
  have htext' : text.toList =
      [numeralToken front, nameToken ['e'], minusToken, numeralToken back].flatMap
        (·.lexeme.toList) := by
    rw [htext]
    simp [numeralToken, nameToken, minusToken]
  have hstands : StandsBefore
      [numeralToken front, nameToken ['e'], minusToken, numeralToken back] [] := by
    refine ⟨cut_numeralToken hfront ?_, cut_nameToken hname ?_, cut_minusToken _,
      cut_numeralToken hback ?_, trivial⟩
    · rintro g ⟨⟩
      decide
    · rintro g ⟨⟩
      decide +kernel
    · rintro g ⟨⟩
  have hplain : ∀ t ∈ [numeralToken front, nameToken ['e'], minusToken, numeralToken back],
      t.IsPlain := by
    simp [isPlain_numeralToken hfront, isPlain_numeralToken hback, isPlain_nameToken hname,
      isPlain_minusToken]
  have htokens := tokenize_sign_append x htext' hstands hplain
  rw [Double.signTokens] at htokens
  split at htokens
  · exact endsInParseError_run htokens rfl
  · exact endsInParseError_run htokens rfl

/-- **A name is no expression.** -/
theorem endsInParseError_name (x : Double) {text : String} (h : text.toList ∈ displayNames) :
    (run {} false (x.sign ++ text)).EndsInParseError := by
  have htext : text.toList = [nameToken text.toList].flatMap (·.lexeme.toList) := by
    simp [nameToken]
  have hstands : StandsBefore [nameToken text.toList] [] := by
    refine ⟨cut_nameToken h ?_, trivial⟩
    rintro g ⟨⟩
  have hplain : ∀ t ∈ [nameToken text.toList], t.IsPlain := by
    simpa using isPlain_nameToken h
  have htokens := tokenize_sign_append x htext hstands hplain
  rw [Double.signTokens] at htokens
  split at htokens
  · exact endsInParseError_run htokens rfl
  · exact endsInParseError_run htokens rfl

/-! ### The texts of numbers -/

namespace Double

theorem display_of_isFinite {x : Double} (h : x.IsFinite) :
    x.display =
      x.sign ++ if x.isIntegral then (x.num / x.den).repr else x.shortest.write numeral := by
  have hnan : x.isNaN = false := decide_eq_false (Nat.not_lt.mpr (Nat.le_of_lt h))
  have hinf : x.isInfinite = false := decide_eq_false (Nat.ne_of_lt h)
  rw [display, hnan, hinf]
  cases x.isIntegral <;> rfl

theorem display_of_not_isFinite {x : Double} (h : ¬ x.IsFinite) :
    x.display = "NaN" ∨ x.display = x.sign ++ "inf" := by
  rw [display]
  split
  · exact .inl rfl
  · rename_i hnan
    have hinf : x.isInfinite = true := by
      have hle : ¬ Decimal.infinityBits < x.magnitude := fun hlt => hnan (decide_eq_true hlt)
      have hge : ¬ x.magnitude < Decimal.infinityBits := h
      exact decide_eq_true (by omega)
    rw [if_pos hinf]
    exact .inr rfl

/-- A whole number is its own decimal. -/
theorem toBits_of_isIntegral {x : Double} (h : x.IsFinite) (hint : x.isIntegral = true) :
    Decimal.toBits ⟨x.num / x.den, 0⟩ = x.magnitude := by
  obtain ⟨n, hn⟩ := Nat.dvd_of_mod_eq_zero (of_decide_eq_true hint : x.num % x.den = 0)
  have hne : (x.den : ℚ) ≠ 0 := by exact_mod_cast x.den_pos.ne'
  apply Decimal.toBits_of_value_eq h
  rw [Decimal.value, zpow_zero, mul_one, ← num_div_den, hn, Nat.mul_div_cancel_left n x.den_pos,
    Nat.cast_mul, mul_div_cancel_left₀ _ hne]

/-- Zero apart, a whole number is not tiny. -/
theorem le_magnitude_of_isIntegral {x : Double} (h : x.IsFinite) (hint : x.isIntegral = true)
    (hne : x.magnitude ≠ 0) : Decimal.toBits ⟨1, -4⟩ ≤ x.magnitude := by
  rw [← toBits_of_isIntegral h hint]
  apply Decimal.toBits_mono
  have hpos : x.num / x.den ≠ 0 := by
    intro hzero
    have hbits := toBits_of_isIntegral h hint
    rw [hzero] at hbits
    exact hne hbits.symm
  have hone : (1 : ℚ) ≤ (x.num / x.den : Nat) := by exact_mod_cast Nat.one_le_iff_ne_zero.mpr hpos
  rw [Decimal.value_one, Decimal.value, zpow_zero, mul_one]
  calc (10 : ℚ) ^ (-4 : Int) ≤ 1 := by norm_num
    _ ≤ (x.num / x.den : Nat) := hone

/-- A number with a fraction is less than `2 ^ 53`, and so than `10 ^ 16`. -/
theorem magnitude_lt_of_not_isIntegral {x : Double} (hint : x.isIntegral = false) :
    x.magnitude < Decimal.toBits ⟨1, 16⟩ := by
  have hbits : Decimal.toBits ⟨1, 16⟩ = 0x4341C37937E08000 := by decide +kernel
  have hexponent : x.exponent < 0 := by
    by_contra hle
    have hden : x.den = 1 := by
      rw [den, Int.toNat_eq_zero.mpr (by omega), Nat.pow_eq, Nat.pow_zero]
    have hzero : x.isIntegral = true := decide_eq_true (by rw [hden, Nat.mod_one])
    rw [hint] at hzero
    cases hzero
  have hmagnitude := x.magnitude_eq
  have hlt := x.significand_lt
  omega

theorem isIntegral_of_eq_zero {x : Double} (h : x.magnitude = 0) : x.isIntegral = true := by
  apply decide_eq_true
  rw [num_eq_zero h, Nat.zero_mod]

theorem value_shortest_lt {x : Double} (h : x.IsFinite) {e : Int}
    (hlt : x.magnitude < Decimal.toBits ⟨1, e⟩) : x.shortest.value < (10 : ℚ) ^ e := by
  rw [← toBits_shortest h] at hlt
  rw [← Decimal.value_one]
  exact Decimal.lt_of_toBits_lt hlt

theorem digits_shortest_ne_zero {x : Double} (h : x.IsFinite) (hne : x.magnitude ≠ 0) :
    x.shortest.digits ≠ 0 := by
  intro hzero
  apply hne
  rw [← toBits_shortest h, Decimal.toBits, Decimal.num, hzero, Nat.zero_mul]
  rfl

/-- One digit is enough if a neighbour on its grid reads back. -/
theorem shortest_of_onGrid? {x : Double} {d : Decimal} (hne : x.magnitude ≠ 0)
    (h : x.onGrid? (x.decimalOrder - (0 + 1 : Nat)) = some d) : x.shortest = d.trim := by
  have hfirst : ∀ f : Nat → Option Decimal, f 0 = some d →
      (List.range 17).findSome? f = some d := by
    intro f hf
    have hrange : List.range 17 = 0 :: (List.range 16).map (· + 1) := rfl
    rw [hrange, List.findSome?_cons, hf]
  have hfound := hfirst (fun n => x.onGrid? (x.decimalOrder - (n + 1 : Nat))) h
  rw [shortest, if_neg hne]
  dsimp only
  rw [hfound, Option.getD_some]

theorem decimalOrder_tenThousandth (negative : Bool) :
    decimalOrder ⟨negative, Decimal.toBits ⟨1, -4⟩⟩ = -3 := by
  have hhigh : ∀ b, num ⟨b, Decimal.toBits ⟨1, -4⟩⟩ * Nat.pow 10 324 /
      den ⟨b, Decimal.toBits ⟨1, -4⟩⟩ < 10 ^ 321 := by decide +kernel
  have hlow : ∀ b, ¬ num ⟨b, Decimal.toBits ⟨1, -4⟩⟩ * Nat.pow 10 324 /
      den ⟨b, Decimal.toBits ⟨1, -4⟩⟩ < 10 ^ 320 := by decide +kernel
  have hle := (Nat.length_repr_le_iff (by decide)).mpr (hhigh negative)
  have hge := mt (Nat.length_repr_le_iff (by decide)).mp (hlow negative)
  rw [decimalOrder]
  omega

theorem shortest_tenThousandth (negative : Bool) :
    shortest ⟨negative, Decimal.toBits ⟨1, -4⟩⟩ = ⟨1, -4⟩ := by
  have hne : ∀ b, (⟨b, Decimal.toBits ⟨1, -4⟩⟩ : Double).magnitude ≠ 0 := by decide +kernel
  have hgrid : ∀ b, onGrid? ⟨b, Decimal.toBits ⟨1, -4⟩⟩ (-3 - (0 + 1 : Nat)) = some ⟨1, -4⟩ := by
    decide +kernel
  have htrim : Decimal.trim ⟨1, -4⟩ = ⟨1, -4⟩ := by decide
  have hone := hgrid negative
  rw [← decimalOrder_tenThousandth negative] at hone
  rw [shortest_of_onGrid? (hne negative) hone, htrim]

theorem le_value_shortest {x : Double} (h : x.IsFinite)
    (hlarge : Decimal.toBits ⟨1, -4⟩ ≤ x.magnitude) : (10 : ℚ) ^ (-4 : Int) ≤ x.shortest.value := by
  rw [← Decimal.value_one]
  -- at the limit the order of bits says nothing, so there the decimal is computed
  rcases Nat.eq_or_lt_of_le hlarge with heq | hlt
  · have hx : x = ⟨x.negative, Decimal.toBits ⟨1, -4⟩⟩ := by rw [heq]
    rw [hx, shortest_tenThousandth]
  · rw [← toBits_shortest h] at hlt
    exact (Decimal.lt_of_toBits_lt hlt).le

theorem write_numeral (d : Decimal) :
    d.write numeral =
      if -4 ≤ d.place - 1 ∧ d.place - 1 ≤ 15 then Decimal.positional d.digits.repr.toList d.place
      else Decimal.scientific d.digits.repr.toList (d.place - 1) 2 := rfl

/-- **A number that is not tiny is displayed as a numeral**, and that is rounded to the number. -/
theorem exists_numeral {x : Double} (h : x.IsFinite)
    (hlarge : x.magnitude = 0 ∨ Decimal.toBits ⟨1, -4⟩ ≤ x.magnitude) :
    ∃ text : String, x.display = x.sign ++ text ∧ IsNumeralText text.toList ∧
      (Decimal.ofText text.toList).toBits = x.magnitude := by
  refine ⟨_, display_of_isFinite h, ?_⟩
  -- a whole number is written in full, any other with its shortest digits
  by_cases hint : x.isIntegral = true
  · rw [if_pos hint]
    refine ⟨(isDigits_repr _).isNumeralText (repr_ne_nil _), ?_⟩
    rw [Decimal.ofText_of_isDigits (isDigits_repr _), Decimal.natOfDigits_repr,
      toBits_of_isIntegral h hint]
  · rw [if_neg hint, write_numeral]
    have hne : x.magnitude ≠ 0 := fun hzero => hint (isIntegral_of_eq_zero hzero)
    have hdigits := digits_shortest_ne_zero h hne
    have hlow := Decimal.le_place_of_le hdigits (le_value_shortest h (hlarge.resolve_left hne))
    have hlt := magnitude_lt_of_not_isIntegral (Bool.eq_false_of_not_eq_true hint)
    have hhigh := Decimal.place_lt_of_lt hdigits (value_shortest_lt h hlt)
    have hplace : -4 ≤ x.shortest.place - 1 ∧ x.shortest.place - 1 ≤ 15 := by omega
    rw [if_pos hplace]
    refine ⟨isNumeralText_positional (isDigits_repr _) (repr_ne_nil _) _, ?_⟩
    rw [← toBits_shortest h]
    apply Decimal.toBits_congr
    rw [Decimal.value_ofText_positional (isDigits_repr _), Decimal.natOfDigits_repr,
      Decimal.value, Decimal.place]
    congr 2
    omega

/-- **A tiny number is displayed with an exponent.** -/
theorem exists_exponent {x : Double} (h : x.IsFinite) (hne : x.magnitude ≠ 0)
    (htiny : x.magnitude < Decimal.toBits ⟨1, -4⟩) :
    ∃ (text : String) (front back : List Char), x.display = x.sign ++ text ∧
      text.toList = front ++ 'e' :: '-' :: back ∧ IsNumeralText front ∧ IsNumeralText back := by
  have hint : ¬ x.isIntegral = true := fun hint =>
    absurd (le_magnitude_of_isIntegral h hint hne) (Nat.not_le.mpr htiny)
  have hplace : x.shortest.place - 1 < -4 :=
    Decimal.place_lt_of_lt (digits_shortest_ne_zero h hne) (value_shortest_lt h htiny)
  have hdisplay := display_of_isFinite h
  rw [if_neg hint, write_numeral, if_neg (by omega)] at hdisplay
  obtain ⟨front, back, htext, hfront, hback⟩ := toList_scientific (isDigits_repr x.shortest.digits)
    (repr_ne_nil _) (show x.shortest.place - 1 < 0 by omega) 2
  exact ⟨_, front, back, hdisplay, htext, hfront, hback⟩

/-- A decimal that is rounded to the magnitude of a finite float gives the float, with its sign. -/
theorem signed_toFloat {x : Float} (h : (ofFloat x).IsFinite) {d : Decimal}
    (hd : d.toBits = (ofFloat x).magnitude) : (ofFloat x).signed d.toFloat = x := by
  have hparts : ofFloat d.toFloat = ⟨false, (ofFloat x).magnitude⟩ := by
    rw [Decimal.toFloat, hd, ofFloat_ofBits h]
  have hfin : (ofFloat d.toFloat).IsFinite := by
    rw [hparts]
    exact h
  apply ofFloat_injective
  rw [signed]
  split
  · rename_i hneg
    rw [ofFloat_neg hfin, hparts, neg, Bool.not_false, ← hneg]
  · rename_i hpos
    rw [hparts, ← Bool.eq_false_of_not_eq_true hpos]

end Double

/-! ### Tiny numbers -/

namespace Double

theorem ofFloat_tenThousandth : ofFloat 0.0001 = ⟨false, Decimal.toBits ⟨1, -4⟩⟩ := by
  decide +kernel

theorem isFinite_tenThousandth : (ofFloat 0.0001).IsFinite := by decide +kernel

section

variable {x : Float} (h : (ofFloat x).IsFinite)

include h

theorem isFinite_abs : (ofFloat x.abs).IsFinite := by
  rw [ofFloat_abs h]
  exact h

theorem le_abs_iff : 0.0001 ≤ x.abs ↔ Decimal.toBits ⟨1, -4⟩ ≤ (ofFloat x).magnitude := by
  have hle := le_iff isFinite_tenThousandth (isFinite_abs h) (by rw [ofFloat_tenThousandth])
    (by rw [ofFloat_abs h, abs])
  rwa [ofFloat_tenThousandth, ofFloat_abs h] at hle

theorem abs_lt_iff : x.abs < 0.0001 ↔ (ofFloat x).magnitude < Decimal.toBits ⟨1, -4⟩ := by
  have hlt := lt_iff (isFinite_abs h) isFinite_tenThousandth (by rw [ofFloat_abs h, abs])
    (by rw [ofFloat_tenThousandth])
  rwa [ofFloat_tenThousandth, ofFloat_abs h] at hlt

end

end Double

/-! ### Running a displayed number -/

theorem yields_displayNumber {x : Float} (h : (Double.ofFloat x).IsFinite)
    (hlarge : (Double.ofFloat x).magnitude = 0 ∨
      Decimal.toBits ⟨1, -4⟩ ≤ (Double.ofFloat x).magnitude) :
    (run {} false (displayNumber x)).Yields (.number x) (displayNumber x) := by
  obtain ⟨text, htext, hnumeral, hbits⟩ := Double.exists_numeral h hlarge
  have hyields := yields_numeral (Double.ofFloat x) hnumeral
  rw [Double.signed_toFloat h hbits, ← htext] at hyields
  exact hyields

theorem endsInParseError_of_tiny {x : Float} (h : (Double.ofFloat x).IsFinite)
    (hne : (Double.ofFloat x).magnitude ≠ 0)
    (htiny : (Double.ofFloat x).magnitude < Decimal.toBits ⟨1, -4⟩) :
    (run {} false (displayNumber x)).EndsInParseError := by
  obtain ⟨text, front, back, hdisplay, htext, hfront, hback⟩ := Double.exists_exponent h hne htiny
  rw [displayNumber, hdisplay]
  exact endsInParseError_exponent _ htext hfront hback

theorem endsInParseError_of_not_isFinite {x : Float} (h : ¬ (Double.ofFloat x).IsFinite) :
    (run {} false (displayNumber x)).EndsInParseError := by
  rw [displayNumber]
  rcases Double.display_of_not_isFinite h with hdisplay | hdisplay
  · rw [hdisplay]
    exact @endsInParseError_name ⟨false, 0⟩ "NaN" (by decide)
  · rw [hdisplay]
    exact endsInParseError_name _ (by decide)

/-- **Displayed numbers run back to themselves exactly if they are not tiny.**  The text of a finite
number that is zero or at least one ten-thousandth runs to that number, the same in all bits, and is
shown again; the text of any other ends in a parse error. -/
theorem displayNumber_runs_back (x : Float) :
    ((run {} false (displayNumber x)).Yields (.number x) (displayNumber x) ↔
      x.isFinite = true ∧ ((x == 0) = true ∨ 0.0001 ≤ x.abs)) ∧
    ((run {} false (displayNumber x)).EndsInParseError ↔
      x.isFinite = false ∨ (x == 0) = false ∧ x.abs < 0.0001) := by
  by_cases hfin : (Double.ofFloat x).IsFinite
  · have hfinite := (Double.isFinite_iff x).mpr hfin
    have hzero := Double.beq_zero_iff hfin
    have hnonzero : (x == 0) = false ↔ (Double.ofFloat x).magnitude ≠ 0 := by
      rw [← Bool.not_eq_true, hzero]
    have hle := Double.le_abs_iff hfin
    have hlt := Double.abs_lt_iff hfin
    by_cases hlarge : (Double.ofFloat x).magnitude = 0 ∨
        Decimal.toBits ⟨1, -4⟩ ≤ (Double.ofFloat x).magnitude
    · have hyields := yields_displayNumber hfin hlarge
      refine ⟨iff_of_true hyields ⟨hfinite, ?_⟩,
        iff_of_false hyields.not_endsInParseError ?_⟩
      · rwa [hzero, hle]
      · rw [hfinite, hnonzero, hlt]
        rintro (hinf | ⟨hne, htiny⟩)
        · cases hinf
        · omega
    · obtain ⟨hne, hsmall⟩ := not_or.mp hlarge
      have hends := endsInParseError_of_tiny hfin hne (Nat.lt_of_not_le hsmall)
      refine ⟨iff_of_false (fun hyields => hyields.not_endsInParseError hends) ?_,
        iff_of_true hends (.inr ?_)⟩
      · rw [hzero, hle]
        exact fun hboth => hlarge hboth.2
      · rw [hnonzero, hlt]
        exact ⟨hne, Nat.lt_of_not_le hsmall⟩
  · have hends := endsInParseError_of_not_isFinite hfin
    have hfinite : ¬ x.isFinite = true := fun h => hfin ((Double.isFinite_iff x).mp h)
    exact ⟨iff_of_false (fun hyields => hyields.not_endsInParseError hends)
        (fun hboth => hfinite hboth.1),
      iff_of_true hends (.inl (Bool.eq_false_of_not_eq_true hfinite))⟩

end Lox
