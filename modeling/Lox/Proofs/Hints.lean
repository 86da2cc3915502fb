import Lox.Proofs.LineNumbers

/-!
# What a hint says of an invalid character

The hint of an invalid character either quotes the grapheme or calls one character of it
non-printable, by its code point.  It quotes the grapheme exactly if all of it prints.  The code
point, though, is that of the first character, whichever of them does not print.  So a hint is right
exactly if the grapheme prints or its first character does not
(`invalidCharacter_hint_right_iff`).  It is wrong about joined pictures: each of these prints, and
only the joiners between them do not (`invalidCharacter_hint_joined_pictures`).

`IsHex` says what a code point is written like, from its digits and their value.
-/

namespace Lox

/-! ### Hexadecimal digits -/

namespace Text

/-- The hexadecimal digits, each at the place that is its value. -/
def hexDigits : List Char := "0123456789ABCDEF".toList

def readHex (digits : List Char) : Nat := digits.foldl (fun n d => 16 * n + hexDigits.idxOf d) 0

structure IsHex (digits : List Char) (n : Nat) : Prop where
  mem : ∀ d ∈ digits, d ∈ hexDigits
  value : readHex digits = n

theorem IsHex.append {digits : List Char} {n d : Nat} (h : IsHex digits n) (hd : d < 16) :
    IsHex (digits ++ [(Nat.digitChar d).toUpper]) (16 * n + d) := by
  have hmem : ∀ d < 16, (Nat.digitChar d).toUpper ∈ hexDigits := by decide
  have hvalue : ∀ d < 16, hexDigits.idxOf (Nat.digitChar d).toUpper = d := by decide
  constructor
  · intro x hx
    rcases List.mem_append.mp hx with hx | hx
    · exact h.mem x hx
    · rw [List.mem_singleton.mp hx]
      exact hmem d hd
  · rw [readHex, List.foldl_append, ← readHex, h.value, List.foldl_cons, List.foldl_nil,
      hvalue d hd]

theorem IsHex.padded {digits : List Char} {n : Nat} (h : IsHex digits n) (zeros : Nat) :
    IsHex (List.replicate zeros '0' ++ digits) n := by
  induction zeros with
  | zero => exact h
  | succ zeros ih =>
    rw [List.replicate_succ, List.cons_append]
    -- reading starts at zero, and a zero read there leaves it at zero
    exact ⟨List.forall_mem_cons.mpr ⟨by decide, ih.mem⟩, ih.value⟩

theorem isHex_toDigits (n : Nat) : IsHex ((Nat.toDigits 16 n).map Char.toUpper) n := by
  induction n using Nat.strongRecOn with
  | ind n ih =>
    by_cases hn : n < 16
    · have hnil : IsHex [] 0 := ⟨by simp, rfl⟩
      rw [Nat.toDigits_of_lt_base hn]
      simpa using hnil.append hn
    · -- the last digit is the remainder, and those before it are the quotient's
      have hhex := (ih (n / 16) (by omega)).append (Nat.mod_lt n (by decide))
      rw [Nat.div_add_mod] at hhex
      rw [Nat.toDigits_of_base_le (by decide) (Nat.le_of_not_lt hn), List.map_append,
        List.map_singleton]
      exact hhex

end Text

open Text

namespace LexicalError

/-! ### Code points -/

theorem toList_codePoint (c : Char) :
    (codePoint c).toList = List.replicate (4 - (Nat.toDigits 16 c.toNat).length) '0' ++
      (Nat.toDigits 16 c.toNat).map Char.toUpper := by
  rw [codePoint, String.toList_map, hex, String.toList_ofList, List.map_append,
    List.map_replicate]
  rfl

theorem isHex_codePoint (c : Char) : IsHex (codePoint c).toList c.toNat := by
  rw [toList_codePoint]
  exact (isHex_toDigits c.toNat).padded _

theorem length_codePoint (c : Char) : 4 ≤ (codePoint c).toList.length := by
  rw [toList_codePoint, List.length_append, List.length_replicate, List.length_map]
  omega

/-! ### Hints -/

/-- A hint shows a grapheme between quotes. -/
def Quotes (hint : String) (g : Grapheme) : Prop := '\'' :: g.chars ++ ['\''] <:+: hint.toList

/-- A hint calls a character non-printable, by its code point in four digits or more. -/
def CallsNonPrintable (hint : String) (c : Char) : Prop :=
  ∃ digits : String, IsHex digits.toList c.toNat ∧ 4 ≤ digits.toList.length ∧
    hint = "Non-printable character (Unicode: U+" ++ digits ++ ") is not allowed."

/-- **A hint that is right about a grapheme**: it quotes the grapheme exactly if all of it prints,
and otherwise it calls one of its characters non-printable that is so. -/
structure RightAbout (hint : String) (g : Grapheme) : Prop where
  quotes : Quotes hint g ↔ ∀ c ∈ g.chars, isPrintable c = true
  names : (¬ ∀ c ∈ g.chars, isPrintable c = true) →
    ∃ c ∈ g.chars, isPrintable c = false ∧ CallsNonPrintable hint c

theorem CallsNonPrintable.unique {hint : String} {c c' : Char} (h : CallsNonPrintable hint c)
    (h' : CallsNonPrintable hint c') : c = c' := by
  obtain ⟨digits, hdigits, -, rfl⟩ := h
  obtain ⟨digits', hdigits', -, heq⟩ := h'
  obtain rfl : digits = digits' := by
    apply String.toList_inj.mp
    simpa using congrArg String.toList heq
  exact Char.toNat_inj.mp (hdigits.value.symm.trans hdigits'.value)

theorem CallsNonPrintable.not_quotes {hint : String} {c : Char} (h : CallsNonPrintable hint c)
    (g : Grapheme) : ¬ Quotes hint g := by
  intro hquotes
  have hmem : '\'' ∈ hint.toList := hquotes.subset (List.mem_cons_self ..)
  obtain ⟨digits, hdigits, -, rfl⟩ := h
  have hdigit : '\'' ∈ digits.toList := by simpa using hmem
  exact absurd (hdigits.mem _ hdigit) (by decide)

section

variable {g : Grapheme} {line position : Nat}

theorem quotes_help (h : ∀ c ∈ g.chars, isPrintable c = true) :
    Quotes (help ⟨.invalidCharacter g, line, position⟩) g := by
  refine ⟨"The character ".toList, " is not valid outside a string literal.".toList, ?_⟩
  simp [help, List.all_eq_true.mpr h, Grapheme.text]

theorem callsNonPrintable_help (h : ¬ ∀ c ∈ g.chars, isPrintable c = true) :
    CallsNonPrintable (help ⟨.invalidCharacter g, line, position⟩) g.first := by
  refine ⟨codePoint g.first, isHex_codePoint g.first, length_codePoint g.first, ?_⟩
  exact if_neg fun hall => h (List.all_eq_true.mp hall)

theorem quotes_help_iff :
    Quotes (help ⟨.invalidCharacter g, line, position⟩) g ↔
      ∀ c ∈ g.chars, isPrintable c = true := by
  refine ⟨fun hquotes => ?_, quotes_help⟩
  by_contra h
  exact (callsNonPrintable_help h).not_quotes g hquotes

/-- **The hint is right exactly if the first character is at fault, where any is.** -/
theorem rightAbout_help_iff :
    RightAbout (help ⟨.invalidCharacter g, line, position⟩) g ↔
      (isPrintable g.first = true → ∀ c ∈ g.chars, isPrintable c = true) := by
  constructor
  · intro hright hfirst
    by_contra h
    obtain ⟨c, -, hc, hcalls⟩ := hright.names h
    rw [hcalls.unique (callsNonPrintable_help h), hfirst] at hc
    cases hc
  · intro hfirst
    refine ⟨quotes_help_iff, fun h => ?_⟩
    have hfault : isPrintable g.first = false :=
      Bool.eq_false_iff.mpr fun hprints => h (hfirst hprints)
    exact ⟨g.first, List.mem_cons_self .., hfault, callsNonPrintable_help h⟩

end

end LexicalError

/-! ### Invalid characters of a scan -/

/-- An invalid character is the grapheme at the position of its error. -/
theorem exists_invalidCharacter {gs : List Grapheme} {e : LexicalError}
    (he : e ∈ (Scan.ofGraphemes gs).errors) (hc : e.code = "L001") :
    ∃ g, gs[e.position]? = some g ∧ e = ⟨.invalidCharacter g, e.line, e.position⟩ := by
  obtain ⟨before, after, hsplit⟩ := List.append_of_mem (Scan.mem_errors.mp he)
  rcases exists_segment_of_items hsplit with ⟨heof, -⟩ | ⟨pre, s, post, hd, -, hitem⟩
  · cases heof
  · have hreports := (divide_cut hd).reports
      (lineAt gs (pre.flatMap Segment.graphemes).length) (pre.flatMap Segment.graphemes).length
    rw [hitem] at hreports
    cases hreports with
    | @invalid g line =>
      -- the position is the length of what the segments before this one cover
      refine ⟨g, ?_, rfl⟩
      have hcovers := flatMap_divide gs
      rw [hd, List.flatMap_append, List.flatMap_cons] at hcovers
      rw [← hcovers]
      simp
    | openString line => exact absurd hc (by simp [LexicalError.code])

open LexicalError

/-- **What the hint of an invalid character says.**  It quotes the grapheme exactly if all of it
prints, otherwise it calls the first character non-printable, and so it is right unless that
character prints and a later one does not. -/
theorem invalidCharacter_hint_right_iff (source : String) (e : LexicalError)
    (he : e ∈ (Scan.ofString source).errors) (hc : e.code = "L001") :
    ∃ g, (Grapheme.ofString source)[e.position]? = some g ∧
      (Quotes e.help g ↔ ∀ c ∈ g.chars, isPrintable c = true) ∧
      ((¬ ∀ c ∈ g.chars, isPrintable c = true) →
        ∀ c, CallsNonPrintable e.help c ↔ c = g.first) ∧
      (RightAbout e.help g ↔
        (isPrintable g.first = true → ∀ c ∈ g.chars, isPrintable c = true)) := by
  obtain ⟨g, hg, heq⟩ := exists_invalidCharacter he hc
  rw [heq]
  refine ⟨g, hg, quotes_help_iff, fun h c => ⟨fun hcalls => ?_, ?_⟩, rightAbout_help_iff⟩
  · exact hcalls.unique (callsNonPrintable_help h)
  · rintro rfl
    exact callsNonPrintable_help h

/-- An Arabic number sign and the digit behind it are one grapheme, of which only the sign does not
print. -/
theorem invalidCharacter_hint_right_iff_number_sign :
    ∃ e ∈ (Scan.ofString "2 \u06001").errors, e.code = "L001" ∧
      (Grapheme.ofString "2 \u06001")[e.position]? = some ⟨'\u0600', ['1']⟩ ∧
      e.help = "Non-printable character (Unicode: U+0600) is not allowed." ∧
      RightAbout e.help ⟨'\u0600', ['1']⟩ := by
  have he : ⟨.invalidCharacter ⟨'\u0600', ['1']⟩, 1, 2⟩ ∈ (Scan.ofString "2 \u06001").errors := by
    decide +kernel
  have hg : (Grapheme.ofString "2 \u06001")[2]? = some ⟨'\u0600', ['1']⟩ := by decide +kernel
  obtain ⟨g, hg', -, -, hright⟩ := invalidCharacter_hint_right_iff _ _ he rfl
  obtain rfl := Option.some.inj (hg.symm.trans hg')
  exact ⟨_, he, rfl, hg, by decide +kernel, hright.mpr (by decide +kernel)⟩

/-- **The hint about a family of three is wrong**: the man it names prints, and the joiners do
not. -/
theorem invalidCharacter_hint_joined_pictures :
    ∃ e ∈ (Scan.ofString "👨\u200d👩\u200d👧").errors, e.code = "L001" ∧
      (Grapheme.ofString "👨\u200d👩\u200d👧")[e.position]? =
        some ⟨'👨', ['\u200d', '👩', '\u200d', '👧']⟩ ∧
      e.help = "Non-printable character (Unicode: U+1F468) is not allowed." ∧
      ¬ RightAbout e.help ⟨'👨', ['\u200d', '👩', '\u200d', '👧']⟩ := by
  refine ⟨⟨.invalidCharacter ⟨'👨', ['\u200d', '👩', '\u200d', '👧']⟩, 1, 0⟩, by decide +kernel,
    rfl, by decide +kernel, by decide +kernel, fun hright => ?_⟩
  have hall := rightAbout_help_iff.mp hright (by decide +kernel)
  exact absurd (hall '\u200d' (by decide)) (by decide +kernel)

end Lox
