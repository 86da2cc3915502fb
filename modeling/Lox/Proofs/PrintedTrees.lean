import Lox.Proofs.DisplayedNumbers
import Lox.Proofs.UniqueReading

/-!
# Printed trees of source texts

A tree that comes from a source text without strings is readable: its literals are numbers, truth
values and nil, which are displayed as words, and its operators are tokens of the scan, so that their
texts and kinds belong together.  By unique reading its printed text tells the tree
(`render_eq_iff_alike`), except for what the text does not show, which is the lines of the operators
and whatever two literals with the same display text may differ in.
-/

namespace Lox

/-! ### The texts of numbers -/

theorem IsDigits.isWord {cs : List Char} (h : IsDigits cs) : IsWord cs := by
  intro c hc
  have hdigit := h c hc
  have hne : c ≠ ' ' ∧ c ≠ '(' ∧ c ≠ ')' := by
    refine ⟨?_, ?_, ?_⟩
    all_goals
      rintro rfl
      exact absurd hdigit (by decide)
  simp [isWordChar, hne]

theorem isWord_padded (width n : Nat) : IsWord (Decimal.padded width n).toList := by
  rw [toList_padded]
  exact ((isDigits_replicate _).append (isDigits_repr n)).isWord

theorem isWord_scientific {digits : List Char} (h : IsDigits digits) (exponent : Int)
    (width : Nat) : IsWord (Decimal.scientific digits exponent width).toList := by
  rw [Decimal.scientific]
  simp only [String.toList_append, String.toList_ofList]
  refine (((h.take 1).isWord.append ?_).append ?_).append (isWord_padded _ _)
  · split
    · exact isWord_of_all (by decide)
    · have hpoint : IsWord ".".toList := isWord_of_all (by decide)
      have hfraction : IsWord (String.ofList (digits.drop 1)).toList := by
        rw [String.toList_ofList]
        exact (h.drop 1).isWord
      rw [String.toList_append]
      exact hpoint.append hfraction
  · split
    · exact isWord_of_all (by decide)
    · exact isWord_of_all (by decide)

theorem isWord_positional {digits : List Char} (h : IsDigits digits) (place : Int) :
    IsWord (Decimal.positional digits place).toList := by
  have hpoint : IsWord ['.'] := isWord_of_all (by decide)
  rw [Decimal.toList_positional]
  exact (Decimal.isDigits_wholePart h place).isWord.append
    (hpoint.append (Decimal.isDigits_fractionPart h place).isWord)

theorem isWord_write (d : Decimal) (layout : Layout) : IsWord (d.write layout).toList := by
  rw [Decimal.write]
  split
  · exact isWord_positional (isDigits_repr _) _
  · exact isWord_scientific (isDigits_repr _) _ _

/-- **A number is displayed as a word.** -/
theorem isWord_displayNumber (x : Float) : IsWord (displayNumber x).toList := by
  have hsign : IsWord (Double.ofFloat x).sign.toList := by
    rw [Double.sign]
    split
    · exact isWord_of_all (by decide)
    · exact isWord_of_all (by decide)
  rw [displayNumber, Double.display]
  split
  · exact isWord_of_all (by decide)
  · split
    · rw [String.toList_append]
      exact hsign.append (isWord_of_all (by decide))
    · split
      · rw [String.toList_append]
        exact hsign.append (isDigits_repr _).isWord
      · rw [String.toList_append]
        exact hsign.append (isWord_write _ _)

/-! ### Trees of source texts -/

theorem Cut.mem_signs {lexeme rest : List Grapheme} {kind : Kind} {literal : Value}
    (h : Cut ⟨lexeme, .token kind literal⟩ rest) (hkind : kind ∈ signs.map Prod.fst) :
    (kind, Grapheme.join lexeme) ∈ signs ∧ literal = .nil := by
  have hsingles : ∀ p ∈ Kind.singles, p.2 ∈ signs.map Prod.fst →
      (p.2, Grapheme.join [.single p.1]) ∈ signs := by decide
  have hpairs : ∀ p ∈ Kind.pairs, (p.2.1 ∈ signs.map Prod.fst →
      (p.2.1, Grapheme.join [.single p.1]) ∈ signs) ∧ (p.2.2 ∈ signs.map Prod.fst →
      (p.2.2, Grapheme.join [.single p.1, .single '=']) ∈ signs) := by decide
  cases h with
  | single hm => exact ⟨hsingles _ hm hkind, rfl⟩
  | short hm => exact ⟨(hpairs _ hm).1 hkind, rfl⟩
  | long hm => exact ⟨(hpairs _ hm).2 hkind, rfl⟩
  | slash => exact ⟨by decide, rfl⟩
  | string | number | identifier => exact absurd hkind (by decide)
  | @word _ _ word => exact absurd hkind (by cases word <;> decide)

theorem isSign_of_mem_tokens {gs : List Grapheme} {t : Token}
    (h : t ∈ (Scan.ofGraphemes gs).tokens) (hkind : t.kind ∈ signs.map Prod.fst) : t.IsSign := by
  have heof : t.kind ≠ .eof := by
    intro heof
    rw [heof] at hkind
    exact absurd hkind (by decide)
  obtain ⟨lexeme, rest, hlexeme, hcut⟩ := cut_of_mem_tokens h heof
  obtain ⟨hsign, hliteral⟩ := hcut.mem_signs hkind
  rw [← hlexeme] at hsign
  exact ⟨hsign, hliteral⟩

theorem isWord_of_mem_tokens {gs : List Grapheme} {t : Token}
    (h : t ∈ (Scan.ofGraphemes gs).tokens) (hkind : t.kind = .number) :
    IsWord t.literal.display.toList := by
  obtain ⟨lexeme, rest, -, hcut⟩ := cut_of_mem_tokens h (by rw [hkind]; decide)
  rw [hkind] at hcut
  obtain ⟨-, hliteral, -⟩ := hcut.form
  rw [hliteral]
  exact isWord_displayNumber _

/-- A token that is displayed as a word if it is a literal, and that is written as its kind is if it
is an operator. -/
structure Token.IsReadable (t : Token) : Prop where
  word : t.kind = .number ∨ t.kind = .string → IsWord t.literal.display.toList
  sign : t.kind ∈ signs.map Prod.fst → t.IsSign

/-- **A tree is readable if the tokens that spell it are.** -/
theorem Expr.Stratified.readable {s : List Token} {e : Expr} {r : Nat} (h : e.Stratified r)
    (hs : Spells s e) (hread : ∀ t ∈ s, t.IsReadable) : e.Readable := by
  induction hs generalizing r with
  | @payload t ht => exact .literal ((hread t (List.mem_singleton_self t)).word ht)
  | trueWord | falseWord | nilWord => exact .literal (isWord_of_all (by decide))
  | grouping _ _ _ ih =>
    cases h with
    | grouping h =>
      exact .grouping (ih h fun t ht => hread t (by simp [ht]))
  | unary op _ ih =>
    cases h with
    | unary hop h =>
      have hkind : op.kind ∈ signs.map Prod.fst := by
        rcases hop with hop | hop <;> rw [hop] <;> decide
      exact .unary ((hread op (by simp)).sign hkind)
        (ih h fun t ht => hread t (by simp [ht]))
  | binary op _ _ ihl ihx =>
    cases h with
    | @binary _ level _ _ _ hop hl _ hx =>
      have hall : ∀ kind ∈ level.operators, kind ∈ signs.map Prod.fst := by
        cases level <;> decide
      exact .binary ((hread op (by simp)).sign (hall _ hop))
        (ihl hl fun t ht => hread t (by simp [ht]))
        (ihx hx fun t ht => hread t (by simp [ht]))
  | ternary _ _ _ _ _ ihc iha ihb =>
    cases h with
    | ternary hc ha hb =>
      exact .ternary
        (ihc hc fun t ht => hread t (by simp [ht]))
        (iha ha fun t ht => hread t (by simp [ht]))
        (ihb hb fun t ht => hread t (by simp [ht]))

/-- **The tree of a text without strings is readable.** -/
theorem readable_of_parseSource {config : Config} {source : String} {e : Expr}
    (h : parseSource config source = .ok e)
    (hstring : ∀ t ∈ (Scan.ofString source).tokens, t.kind ≠ .string) : e.Readable := by
  obtain ⟨ts, htokens, hparse⟩ := parseSource_eq_ok.mp h
  obtain ⟨s, rest, hsplit, hfits⟩ := exists_fits_of_parseTokens hparse
  have hsub : ∀ t ∈ s, t ∈ (Scan.ofString source).tokens := by
    intro t ht
    rw [(scan_of_tokenize htokens).2, hsplit]
    exact List.mem_append_left _ ht
  apply hfits.stratified.readable hfits.spells
  intro t ht
  refine ⟨?_, isSign_of_mem_tokens (hsub t ht)⟩
  rintro (hkind | hkind)
  · exact isWord_of_mem_tokens (hsub t ht) hkind
  · exact absurd hkind (hstring t (hsub t ht))

/-- **The text of a tree tells the tree.**  Two source texts without strings have trees with the
same text just if the trees are the same, up to lines and to literals with the same display text. -/
theorem render_eq_iff_alike (config config' : Config) (source source' : String) (e e' : Expr)
    (h : parseSource config source = .ok e) (h' : parseSource config' source' = .ok e')
    (hstring : ∀ t ∈ (Scan.ofString source).tokens, t.kind ≠ .string)
    (hstring' : ∀ t ∈ (Scan.ofString source').tokens, t.kind ≠ .string) :
    e.render = e'.render ↔ e.Alike e' := by
  have hends : EndsWord [] := by
    rintro c ⟨⟩
  constructor
  · intro heq
    have hunique := (readable_of_parseSource h hstring).readsUniquely
    exact (hunique e' [] [] (readable_of_parseSource h' hstring') hends hends (by rw [heq])).1
  · intro halike
    exact halike.render_eq

/-- The trees of `-nil - 1` on one line and on two are alike, though they differ. -/
theorem render_eq_iff_alike_two_lines :
    ∃ e e', parseSource {} "-nil - 1" = .ok e ∧ parseSource {} "-nil\n- 1.0" = .ok e' ∧ e ≠ e' ∧
      e.Alike e' := by
  have h : parseSource {} "-nil - 1" = .ok (.binary
      (.unary ⟨.minus, "-", .nil, 1⟩ (.literal .nil)) ⟨.minus, "-", .nil, 1⟩
      (.literal (.number 1))) := by decide +kernel
  have h' : parseSource {} "-nil\n- 1.0" = .ok (.binary
      (.unary ⟨.minus, "-", .nil, 1⟩ (.literal .nil)) ⟨.minus, "-", .nil, 2⟩
      (.literal (.number 1))) := by decide +kernel
  refine ⟨_, _, h, h', by decide, ?_⟩
  apply (render_eq_iff_alike _ _ _ _ _ _ h h' (by decide +kernel) (by decide +kernel)).mp
  rw [Expr.render_binary, Expr.render_binary]

end Lox
