import Lox.Proofs.Failing
import Lox.Proofs.InStep

/-!
# What the limit on nesting changes

The limit on nesting turns the outcome of a parse into a fault of its own and into nothing else.  Two
parses of the same tokens under different limits go in step.  Under the lower limit the parse ends as
it does under the higher one, or it stops because of its limit, at a place that the other parse
reaches too.

This is seen rule by rule.  A reader `r'` outruns `r` if the two are in step until `r` stops at its
limit, and no reader ever gives a token back (`Outruns`).  Each rule made of readers that outrun
others outruns the rule made of those (`outruns_composes`).  The two limits meet only where a level
is opened, and there one induction on the levels left puts the rules together (`Rule.read_outruns`).
-/

namespace Lox

namespace Reader

/-! ### Readers that go further -/

/-- The second cursor is at the place of the first or further on. -/
def Ahead (c c' : Cursor) : Prop := c'.rest <:+ c.rest

/-- **The second reader outruns the first.**  The two are in step until the first one stops because
of its limit. -/
def Outruns {α : Type} (limit : Int) (r r' : Reader α) : Prop :=
  InStep (·.fault = .nestedTooDeeply limit) Ahead r r'

theorem rest_nested {α : Type} (r : Reader α) (c : Cursor) :
    (finalState (nested r c)).rest = (finalState (r { c with depth := c.depth + 1 })).rest := by
  rw [nested]
  cases r { c with depth := c.depth + 1 } <;> rfl

/-- An open level is closed again on both sides, and no token is taken for it. -/
theorem nested_outruns {limit : Int} {α : Type} {r r' : Reader α} (h : Outruns limit r r') :
    Outruns limit (nested r) (nested r') where
  onward c := by
    show (finalState (nested r' c)).rest <:+ c.rest
    rw [rest_nested]
    exact h.onward { c with depth := c.depth + 1 }
  agrees c := by
    rcases h.agrees { c with depth := c.depth + 1 } with heq | ⟨fault, c₁, hstop, hfault, hahead⟩
    · left
      rw [nested, nested, heq]
    · right
      refine ⟨fault, { c₁ with depth := c₁.depth - 1 }, ?_, hfault, ?_⟩
      · rw [nested, hstop]
      · show (finalState (nested r' c)).rest <:+ c₁.rest
        rw [rest_nested]
        exact hahead

theorem next?_outruns {limit : Int} {α : Type} (meaning : Token → Option α) :
    Outruns limit (next? meaning) (next? meaning) := by
  apply InStep.refl
  intro c
  unfold next?
  split
  · exact List.suffix_refl c.rest
  · rename_i t ts hrest
    split
    · show ts <:+ c.rest
      rw [hrest]
      exact List.suffix_cons t ts
    · exact List.suffix_refl c.rest

theorem outruns_composes (limit : Int) : Composes (Outruns limit) where
  of_pure _ := InStep.refl fun c => List.suffix_refl c.rest
  of_refuse _ := InStep.refl fun c => List.suffix_refl c.rest
  of_get := InStep.refl fun c => List.suffix_refl c.rest
  of_next := next?_outruns
  of_bind := InStep.bind (fun c => List.suffix_refl c.rest) fun h h' => h'.trans h
  of_nested := nested_outruns

end Reader

open Reader

/-- **A rule with more room outruns the rule with less.** -/
theorem Rule.read_outruns (limit limit' : Int) {room room' : Nat} (h : room ≤ room') (rule : Rule) :
    Outruns limit (rule.read limit room) (rule.read limit' room') := by
  induction room' generalizing room rule with
  | zero =>
    obtain rfl : room = 0 := Nat.le_zero.mp h
    exact InStep.stop (fun c => ⟨_, rfl, rfl⟩) fun c => List.suffix_refl c.rest
  | succ room' ih =>
    have hrule (n : Nat) (hn : n ≤ room') :
        Outruns limit (rule.read limit (n + 1)) (rule.read limit' (room' + 1)) :=
      (outruns_composes limit).read limit limit' room' (ih hn) rule
    cases room with
    | succ room => exact hrule room (Nat.le_of_succ_le_succ h)
    | zero =>
      -- without room a rule stops at once, and the other one gives no token back
      exact InStep.stop (fun c => ⟨_, rfl, rfl⟩) (hrule 0 (Nat.zero_le _)).onward

/-! ### Whole inputs -/

namespace Parser

theorem toEnd_outruns {limit limit' : Int} (h : limit ≤ limit') :
    Outruns limit (toEnd limit) (toEnd limit') :=
  (outruns_composes limit).toEnd limit limit' fun _ =>
    Rule.read_outruns limit limit' (by omega) .expression

theorem parse_snd (p : Parser) :
    p.parse.2 =
      p.moveTo (finalState (toEnd p.limit ⟨p.tokens.drop p.current, p.depth⟩)) := by
  rw [parse]
  cases toEnd p.limit ⟨p.tokens.drop p.current, p.depth⟩ <;> rfl

theorem current_moveTo_le {p p' : Parser} (htokens : p.tokens = p'.tokens)
    (hcurrent : p.current = p'.current) {c c' : Cursor} (h : Ahead c c') :
    (p.moveTo c).current ≤ (p'.moveTo c').current := by
  have hlength := h.length_le
  simp only [moveTo, htokens, hcurrent]
  omega

/-- A parse under a lower limit ends like the other, or it stops at its limit and no further on. -/
theorem parse_same_or_cut (tokens : List Token) {limit limit' : Int} (h : limit ≤ limit') :
    ((new tokens limit).parse.1 = (new tokens limit').parse.1 ∧
      (new tokens limit).parse.2.current = (new tokens limit').parse.2.current) ∨
    ∃ err, (new tokens limit).parse.1 = .error err ∧ err.code = "P004" ∧
      err.token = (new tokens limit).parse.2.peek ∧
      (new tokens limit).parse.2.current ≤ (new tokens limit').parse.2.current := by
  rcases (toEnd_outruns h).agrees ⟨tokens, 0⟩ with heq | ⟨refusal, c, hstop, hfault, hahead⟩
  · left
    simp only [parse, new, List.drop_zero, heq]
    cases toEnd limit' ⟨tokens, 0⟩ <;> exact ⟨rfl, rfl⟩
  · right
    have hsuffix : c.rest <:+ tokens := by
      have honward := (toEnd_outruns (Int.le_refl limit)).onward ⟨tokens, 0⟩
      rwa [hstop] at honward
    have hlow : (new tokens limit).parse = (.error ⟨.nestedTooDeeply limit,
        ((new tokens limit).moveTo c).peek⟩, (new tokens limit).moveTo c) := by
      rw [← token_eq_peek (p := new tokens limit) hstop hsuffix, ← hfault]
      simp only [parse, new, List.drop_zero, hstop]
    rw [hlow]
    refine ⟨_, rfl, rfl, rfl, ?_⟩
    rw [parse_snd]
    exact current_moveTo_le rfl rfl hahead

end Parser

/-- **A limit on nesting turns outcomes into its own fault and nothing else.**  Under the lower limit
a parse ends as it does under the higher one, or it stops because of the limit, and then no further
on.  So a higher limit changes neither a tree nor any other fault, and a lower one lets no parse
succeed that failed. -/
theorem parse_limit_only_cuts (tokens : List Token) (limit limit' : Int) (h : limit ≤ limit') :
    let low := (Parser.new tokens limit).parse
    let high := (Parser.new tokens limit').parse
    ((low.1 = high.1 ∧ low.2.current = high.2.current) ∨
      ∃ err, low.1 = .error err ∧ err.code = "P004" ∧ err.token = low.2.peek ∧
        low.2.current ≤ high.2.current) ∧
    (∀ e, low.1 = .ok e → high.1 = .ok e ∧ high.2.current = low.2.current) ∧
    (∀ err, low.1 = .error err → err.code ≠ "P004" →
      high.1 = .error err ∧ high.2.current = low.2.current) ∧
    ∀ err, high.1 = .error err → ∃ err', low.1 = .error err' := by
  intro low high
  have hcut : (low.1 = high.1 ∧ low.2.current = high.2.current) ∨
      ∃ err, low.1 = .error err ∧ err.code = "P004" ∧ err.token = low.2.peek ∧
        low.2.current ≤ high.2.current := Parser.parse_same_or_cut tokens h
  refine ⟨hcut, ?_, ?_, ?_⟩
  · intro e he
    rcases hcut with ⟨hsame, hplace⟩ | ⟨err, herr, -⟩
    · exact ⟨hsame ▸ he, hplace.symm⟩
    · rw [he] at herr
      cases herr
  · intro err herr hcode
    rcases hcut with ⟨hsame, hplace⟩ | ⟨err', herr', hcode', -⟩
    · exact ⟨hsame ▸ herr, hplace.symm⟩
    · rw [herr] at herr'
      cases herr'
      exact absurd hcode' hcode
  · intro err herr
    rcases hcut with ⟨hsame, -⟩ | ⟨err', herr', -⟩
    · exact ⟨err, hsame.trans herr⟩
    · exact ⟨err', herr'⟩

/-- In `(-(` a limit of two levels stops the parse behind the prefix operator, which opens the
third.  A limit of five lets it go on to the operand that is missing at the end. -/
theorem parse_limit_only_cuts_prefix_operator :
    (Parser.new [⟨.leftParen, "(", .nil, 1⟩, ⟨.minus, "-", .nil, 1⟩, ⟨.leftParen, "(", .nil, 1⟩,
      .eof 1] 2).parse.2.current = 2 ∧
    (Parser.new [⟨.leftParen, "(", .nil, 1⟩, ⟨.minus, "-", .nil, 1⟩, ⟨.leftParen, "(", .nil, 1⟩,
      .eof 1] 5).parse.2.current = 3 ∧
    ∃ err, (Parser.new [⟨.leftParen, "(", .nil, 1⟩, ⟨.minus, "-", .nil, 1⟩,
      ⟨.leftParen, "(", .nil, 1⟩, .eof 1] 2).parse.1 = .error err ∧ err.code = "P004" := by
  have hcut := (parse_limit_only_cuts [⟨.leftParen, "(", .nil, 1⟩, ⟨.minus, "-", .nil, 1⟩,
    ⟨.leftParen, "(", .nil, 1⟩, .eof 1] 2 5 (by decide)).1
  refine ⟨rfl, rfl, ?_⟩
  rcases hcut with ⟨-, hplace⟩ | ⟨err, herr, hcode, -⟩
  · exact absurd hplace (by decide)
  · exact ⟨err, herr, hcode⟩

end Lox
