import Lox.Proofs.Stratified

/-!
# How a reader fails

Each reader fails in a few ways only, and this file says which.  It fails where one of its parts
does, or it misses a token that has to be there; and it keeps the place where that happened.  The
lemmas are equivalences, so they say where a failure came from as well as when there is one.

The token that a failure names was ahead when the failure was found.  Nothing between there and the
caller takes a token or gives one back, so it is still ahead once the reader has failed
(`NamesNext`).

A chain is the one rule with a loop in it.  It fails behind some operator of its level, and what
stands in front of that operator is a chain that was read without a fault (`chain_eq_error`).
-/

namespace Lox

namespace Reader

/-! ### Failing steps -/

theorem bind_eq_error {α β : Type} {x : Reader α} {f : α → Reader β} {c c' : Cursor}
    {refusal : Refusal} : (x >>= f) c = .error refusal c' ↔
      x c = .error refusal c' ∨ ∃ a c₁, x c = .ok a c₁ ∧ f a c₁ = .error refusal c' := by
  show EStateM.bind x f c = _ ↔ _
  unfold EStateM.bind
  cases x c with
  | ok a c₁ =>
    constructor
    · intro h
      exact .inr ⟨a, c₁, rfl, h⟩
    · rintro (h | ⟨a', c₂, h, hf⟩)
      · cases h
      · cases h
        exact hf
  | error f c₁ => simp

theorem pure_ne_error {α : Type} {a : α} {c c' : Cursor} {refusal : Refusal} :
    (pure a : Reader α) c ≠ .error refusal c' := by
  intro h
  cases h

theorem refuse_eq_error {α : Type} {fault : ParseFault} {refusal : Refusal} {c c' : Cursor} :
    (refuse fault : Reader α) c = .error refusal c' ↔
      refusal = ⟨fault, c.rest.head?⟩ ∧ c' = c := by
  rw [refuse]
  constructor
  · intro h
    cases h
    exact ⟨rfl, rfl⟩
  · rintro ⟨rfl, rfl⟩
    rfl

theorem next?_ne_error {α : Type} {meaning : Token → Option α} {c c' : Cursor}
    {refusal : Refusal} : next? meaning c ≠ .error refusal c' := by
  unfold next?
  repeat' split
  all_goals simp

theorem accept_ne_error {fits : Kind → Bool} {c c' : Cursor} {refusal : Refusal} :
    accept fits c ≠ .error refusal c' := next?_ne_error

theorem expect_eq_error {kind : Kind} {fault : ParseFault} {refusal : Refusal} {c c' : Cursor} :
    expect kind fault c = .error refusal c' ↔
      Stops (· = kind) c.rest ∧ refusal = ⟨fault, c.rest.head?⟩ ∧ c' = c := by
  obtain ⟨ts, k⟩ := c
  rw [expect, bind_eq_error]
  constructor
  · rintro (h | ⟨o, c₁, ha, h⟩)
    · exact absurd h accept_ne_error
    · rcases accept_eq_ok ha with ⟨rfl, rfl, hs⟩ | ⟨t, ts', rfl, -⟩
      · exact ⟨by simpa using hs, refuse_eq_error.mp h⟩
      · exact absurd h pure_ne_error
  · rintro ⟨hs, rfl, rfl⟩
    exact .inr ⟨none, _, accept_of_stops (by simpa using hs) k, rfl⟩

/-! ### Failing rules -/

/-- A primary fails at a token that starts none, inside its parentheses, or where they do not
close. -/
theorem primary_eq_error {expression : Reader Expr} {ts : List Token} {k : Nat}
    {refusal : Refusal} {c : Cursor} :
    primary expression ⟨ts, k⟩ = .error refusal c ↔
      ((∀ t ∈ ts.head?, t.value? = none) ∧ Stops (· = .leftParen) ts ∧
        refusal = ⟨.expectedExpression, ts.head?⟩ ∧ c = ⟨ts, k⟩) ∨
      ∃ p ts', ts = p :: ts' ∧ p.kind = .leftParen ∧
        (expression ⟨ts', k⟩ = .error refusal c ∨
          ∃ inner, expression ⟨ts', k⟩ = .ok inner c ∧ Stops (· = .rightParen) c.rest ∧
            refusal = ⟨.expectedCloseParen, c.rest.head?⟩) := by
  constructor
  · intro hr
    rw [primary, bind_eq_error] at hr
    rcases hr with hr | ⟨o, c₁, ho, hr⟩
    · exact absurd hr next?_ne_error
    · rcases next?_eq_ok ho with ⟨rfl, rfl, hv⟩ | ⟨t, ts', v, rfl, -⟩
      · rcases bind_eq_error.mp hr with hr | ⟨o, c₁, ho, hr⟩
        · exact absurd hr accept_ne_error
        · rcases accept_eq_ok ho with ⟨rfl, rfl, hs⟩ | ⟨p, ts', rfl, rfl, hp, rfl⟩
          · obtain ⟨rfl, rfl⟩ := refuse_eq_error.mp hr
            exact .inl ⟨hv, by simpa using hs, rfl, rfl⟩
          · refine .inr ⟨p, ts', rfl, by simpa using hp, ?_⟩
            rcases bind_eq_error.mp hr with hr | ⟨inner, c₂, hi, hr⟩
            · exact .inl hr
            · rcases bind_eq_error.mp hr with hr | ⟨u, c₃, -, hr⟩
              · obtain ⟨hs, rfl, rfl⟩ := expect_eq_error.mp hr
                exact .inr ⟨inner, hi, hs, rfl⟩
              · exact absurd hr pure_ne_error
      · exact absurd hr pure_ne_error
  · rintro (⟨hv, hs, rfl, rfl⟩ | ⟨p, ts', rfl, hp, hr⟩)
    · refine bind_eq_error.mpr (.inr ⟨none, _, next?_of_none hv k, ?_⟩)
      exact bind_eq_error.mpr (.inr ⟨none, _, accept_of_stops (by simpa using hs) k, rfl⟩)
    · have hv : p.value? = none := by simp [Token.value?, hp]
      refine bind_eq_error.mpr (.inr ⟨none, _, next?_of_none (by simpa using hv) k, ?_⟩)
      refine bind_eq_error.mpr (.inr ⟨some p, _, accept_of_fits (by simpa using hp) ts' k, ?_⟩)
      rcases hr with hr | ⟨inner, hi, hs, rfl⟩
      · exact bind_eq_error.mpr (.inl hr)
      · refine bind_eq_error.mpr (.inr ⟨inner, c, hi, bind_eq_error.mpr (.inl ?_)⟩)
        exact expect_eq_error.mpr ⟨hs, rfl, rfl⟩

theorem unary_eq_error {expression operand : Reader Expr} {ts : List Token} {k : Nat}
    {refusal : Refusal} {c : Cursor} :
    unary expression operand ⟨ts, k⟩ = .error refusal c ↔
      (Stops (Kind.isPrefixOp ·) ts ∧ primary expression ⟨ts, k⟩ = .error refusal c) ∨
      ∃ op ts', ts = op :: ts' ∧ op.kind.isPrefixOp = true ∧
        operand ⟨ts', k⟩ = .error refusal c := by
  constructor
  · intro hr
    rw [unary, bind_eq_error] at hr
    rcases hr with hr | ⟨o, c₁, ha, hr⟩
    · exact absurd hr accept_ne_error
    · rcases accept_eq_ok ha with ⟨rfl, rfl, hs⟩ | ⟨op, ts', rfl, rfl, hop, rfl⟩
      · exact .inl ⟨hs, hr⟩
      · rcases bind_eq_error.mp hr with hr | ⟨x, c₂, -, hr⟩
        · exact .inr ⟨op, ts', rfl, hop, hr⟩
        · exact absurd hr pure_ne_error
  · rintro (⟨hs, hr⟩ | ⟨op, ts', rfl, hop, hr⟩)
    · exact bind_eq_error.mpr (.inr ⟨none, _, accept_of_stops hs k, hr⟩)
    · refine bind_eq_error.mpr (.inr ⟨some op, _, accept_of_fits hop ts' k, ?_⟩)
      exact bind_eq_error.mpr (.inl hr)

/-- A conditional fails in its condition, in one of its branches, or where the colon between them is
missing. -/
theorem ternary_eq_error {expression condition : Reader Expr} {ts : List Token} {k : Nat}
    {refusal : Refusal} {c : Cursor} :
    ternary expression condition ⟨ts, k⟩ = .error refusal c ↔
      condition ⟨ts, k⟩ = .error refusal c ∨
      ∃ x q ts₁ k₁, condition ⟨ts, k⟩ = .ok x ⟨q :: ts₁, k₁⟩ ∧ q.kind = .question ∧
        (expression ⟨ts₁, k₁⟩ = .error refusal c ∨
          (∃ a, expression ⟨ts₁, k₁⟩ = .ok a c ∧ Stops (· = .colon) c.rest ∧
            refusal = ⟨.expectedColon, c.rest.head?⟩) ∨
          ∃ a d ts₂ k₂, expression ⟨ts₁, k₁⟩ = .ok a ⟨d :: ts₂, k₂⟩ ∧ d.kind = .colon ∧
            expression ⟨ts₂, k₂⟩ = .error refusal c) := by
  constructor
  · intro hr
    rw [ternary, bind_eq_error] at hr
    rcases hr with hr | ⟨x, ⟨rest, k₁⟩, hx, hr⟩
    · exact .inl hr
    · rcases bind_eq_error.mp hr with hr | ⟨o, c₂, ho, hr⟩
      · exact absurd hr accept_ne_error
      · rcases accept_eq_ok ho with ⟨rfl, -, -⟩ | ⟨q, ts₁, rfl, rfl, hq, rfl⟩
        · exact absurd hr pure_ne_error
        · refine .inr ⟨x, q, ts₁, k₁, hx, by simpa using hq, ?_⟩
          rcases bind_eq_error.mp hr with hr | ⟨a, ⟨rest, k₂⟩, ha, hr⟩
          · exact .inl hr
          · rcases bind_eq_error.mp hr with hr | ⟨u, c₃, hd, hr⟩
            · obtain ⟨hs, rfl, rfl⟩ := expect_eq_error.mp hr
              exact .inr (.inl ⟨a, ha, hs, rfl⟩)
            · obtain ⟨d, ts₂, rfl, hcolon, rfl⟩ := expect_eq_ok.mp hd
              rcases bind_eq_error.mp hr with hr | ⟨b, c₄, -, hr⟩
              · exact .inr (.inr ⟨a, d, ts₂, k₂, ha, hcolon, hr⟩)
              · exact absurd hr pure_ne_error
  · rintro (hr | ⟨x, q, ts₁, k₁, hx, hq, hr⟩)
    · exact bind_eq_error.mpr (.inl hr)
    · refine bind_eq_error.mpr (.inr ⟨x, _, hx, ?_⟩)
      refine bind_eq_error.mpr (.inr ⟨some q, _, accept_of_fits (by simpa using hq) ts₁ k₁, ?_⟩)
      rcases hr with hr | ⟨a, ha, hs, rfl⟩ | ⟨a, d, ts₂, k₂, ha, hd, hr⟩
      · exact bind_eq_error.mpr (.inl hr)
      · refine bind_eq_error.mpr (.inr ⟨a, c, ha, bind_eq_error.mpr (.inl ?_)⟩)
        exact expect_eq_error.mpr ⟨hs, rfl, rfl⟩
      · refine bind_eq_error.mpr (.inr ⟨a, _, ha, bind_eq_error.mpr (.inr ⟨(), ⟨ts₂, k₂⟩, ?_, ?_⟩)⟩)
        · exact expect_eq_ok.mpr ⟨d, ts₂, rfl, hd, rfl⟩
        · exact bind_eq_error.mpr (.inl hr)

theorem chainFrom_eq_error {operand : Reader Expr} {level : Level}
    {Q : Expr → List Token → List Token → Prop} (h : Reads operand Q)
    {bound k : Nat} {l : Expr} {s ts : List Token} {refusal : Refusal} {c : Cursor}
    (hl : Chain level Q l s ts) (hr : chainFrom level operand bound l ⟨ts, k⟩ = .error refusal c) :
    ∃ l' s' op ts', s ++ ts = s' ++ op :: ts' ∧ Chain level Q l' s' (op :: ts') ∧
      level.has op.kind = true ∧ operand ⟨ts', k⟩ = .error refusal c := by
  induction bound generalizing l s ts with
  | zero => exact absurd hr pure_ne_error
  | succ bound ih =>
    rw [chainFrom, bind_eq_error] at hr
    rcases hr with hr | ⟨o, c₁, ha, hr⟩
    · exact absurd hr accept_ne_error
    · rcases accept_eq_ok ha with ⟨rfl, rfl, hs⟩ | ⟨op, ts', rfl, rfl, hop, rfl⟩
      · exact absurd hr pure_ne_error
      · rcases bind_eq_error.mp hr with hx | ⟨x, c₂, hx, hr⟩
        · exact ⟨l, s, op, ts', rfl, hl, hop, hx⟩
        · obtain ⟨sx, rest, rfl, rfl, hq⟩ := h.sound hx
          obtain ⟨l', s', op', ts'', hts, hrest⟩ := ih (.link hl hop hq) hr
          exact ⟨l', s', op', ts'', by simpa using hts, hrest⟩

/-- A chain fails where its first operand does, or where the operand behind one of its operators
does. -/
theorem chain_eq_error {operand : Reader Expr} {level : Level}
    {Q : Expr → List Token → List Token → Prop} (h : Reads operand Q)
    {ts : List Token} {k : Nat} {refusal : Refusal} {c : Cursor} :
    chain level operand ⟨ts, k⟩ = .error refusal c ↔ operand ⟨ts, k⟩ = .error refusal c ∨
      ∃ l s op ts', ts = s ++ op :: ts' ∧ Chain level Q l s (op :: ts') ∧
        level.has op.kind = true ∧ operand ⟨ts', k⟩ = .error refusal c := by
  constructor
  · intro hr
    rw [chain, bind_eq_error] at hr
    rcases hr with hr | ⟨l, c₁, hl, hr⟩
    · exact .inl hr
    · obtain ⟨s, rest, rfl, rfl, hq⟩ := h.sound hl
      rcases bind_eq_error.mp hr with hg | ⟨c₂, c₃, hg, hr⟩
      · cases hg
      · cases hg
        exact .inr (chainFrom_eq_error h (.operand hq) hr)
  · rintro (hr | ⟨l, s, op, ts', rfl, hl, hop, hr⟩)
    · exact bind_eq_error.mpr (.inl hr)
    · obtain ⟨bound, hb, hrun⟩ := chain_run h hl k
      cases bound with
      | zero => simp at hb
      | succ bound =>
        rw [hrun, chainFrom, bind_eq_error]
        exact .inr ⟨some op, _, accept_of_fits hop ts' k, bind_eq_error.mpr (.inl hr)⟩

/-! ### The token at fault -/

/-- A reader that fails stands in front of the token that it names. -/
def NamesNext {α : Type} (r : Reader α) : Prop :=
  ∀ ⦃c c' : Cursor⦄ ⦃refusal : Refusal⦄, r c = .error refusal c' →
    refusal.token? = c'.rest.head?

theorem namesNext_composes : Composes fun r _ => NamesNext r where
  of_pure _ _ _ _ hr := absurd hr pure_ne_error
  of_refuse fault c c' refusal hr := by
    obtain ⟨rfl, rfl⟩ := refuse_eq_error.mp hr
    rfl
  of_get _ _ _ hr := by cases hr
  of_next _ _ _ _ hr := absurd hr next?_ne_error
  of_bind h hf c c' refusal hr := by
    rcases bind_eq_error.mp hr with hr | ⟨a, c₁, -, hr⟩
    · exact h hr
    · exact hf a hr
  of_nested h c c' refusal hr := by
    unfold nested at hr
    split at hr
    · cases hr
    · rename_i hr₁
      have htoken := h hr₁
      cases hr
      exact htoken

end Reader

open Reader

theorem Rule.read_namesNext (limit : Int) (room : Nat) (rule : Rule) :
    NamesNext (rule.read limit room) := by
  induction room generalizing rule with
  | zero => exact namesNext_composes.of_refuse (.nestedTooDeeply limit)
  | succ room ih => exact namesNext_composes.read limit limit room ih rule

namespace Parser

theorem toEnd_namesNext (limit : Int) : NamesNext (toEnd limit) :=
  namesNext_composes.toEnd limit limit fun _ => Rule.read_namesNext limit _ .expression

theorem moveTo_current {p : Parser} {taken rest : List Token}
    (h : p.tokens.drop p.current = taken ++ rest) (k : Nat) :
    (p.moveTo ⟨rest, k⟩).current = p.current + taken.length := by
  simp [moveTo, h]

/-- **The token at fault is the one at the place where the parse stopped.** -/
theorem token_eq_peek {p : Parser} {refusal : Refusal} {c : Cursor}
    (h : toEnd p.limit ⟨p.tokens.drop p.current, p.depth⟩ = .error refusal c)
    (hsuffix : c.rest <:+ p.tokens.drop p.current) :
    refusal.token?.getD p.endToken = (p.moveTo c).peek := by
  obtain ⟨taken, hsplit⟩ := hsuffix
  have hnext : c.rest.head? = p.tokens[(p.moveTo c).current]? := by
    rw [moveTo_current hsplit.symm, ← List.getElem?_drop, ← hsplit,
      List.getElem?_append_right (Nat.le_refl _), Nat.sub_self, List.head?_eq_getElem?]
  rw [toEnd_namesNext p.limit h, hnext]
  rfl

/-- A parse fails where the reading of an expression does, or at a token behind it. -/
theorem toEnd_eq_error {limit : Int} {ts : List Token} {refusal : Refusal} {c : Cursor} :
    toEnd limit ⟨ts, 0⟩ = .error refusal c ↔
      Rule.expression.read limit limit.toNat ⟨ts, 0⟩ = .error refusal c ∨
        ∃ e, Rule.expression.read limit limit.toNat ⟨ts, 0⟩ = .ok e c ∧
          ¬ Stops (· ≠ .eof) c.rest ∧ refusal = ⟨.trailingTokens, c.rest.head?⟩ := by
  obtain ⟨rest, k⟩ := c
  rw [toEnd, bind_eq_error]
  constructor
  · rintro (hg | ⟨c₀, c₁, hg, h⟩)
    · cases hg
    · cases hg
      rcases bind_eq_error.mp h with hr | ⟨e, c₁, hr, h⟩
      · exact .inl (by simpa using hr)
      · rcases bind_eq_error.mp h with hg | ⟨c₂, c₃, hg, h⟩
        · cases hg
        · cases hg
          obtain ⟨rest₁, k₁⟩ := c₁
          cases rest₁ with
          | nil => exact absurd h pure_ne_error
          | cons t rest₁ =>
            by_cases ht : t.kind = .eof
            · simp only [List.head?_cons, if_pos ht] at h
              exact absurd h pure_ne_error
            · simp only [List.head?_cons, if_neg ht] at h
              obtain ⟨rfl, hc⟩ := refuse_eq_error.mp h
              cases hc
              exact .inr ⟨e, by simpa using hr, by simpa using ht, rfl⟩
  · rintro (hr | ⟨e, hr, hs, rfl⟩)
    · exact .inr ⟨⟨ts, 0⟩, ⟨ts, 0⟩, rfl, bind_eq_error.mpr (.inl (by simpa using hr))⟩
    · refine .inr ⟨⟨ts, 0⟩, ⟨ts, 0⟩, rfl, bind_eq_error.mpr (.inr ⟨e, ⟨rest, k⟩, ?_, ?_⟩)⟩
      · simpa using hr
      · refine bind_eq_error.mpr (.inr ⟨⟨rest, k⟩, ⟨rest, k⟩, rfl, ?_⟩)
        cases rest with
        | nil => exact absurd (stops_nil _) hs
        | cons t rest =>
          have ht : t.kind ≠ .eof := by simpa using hs
          simp only [List.head?_cons, if_neg ht]
          rfl

end Parser

end Lox
