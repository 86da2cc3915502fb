import Lox.Proofs.Stratified

/-!
# The grammar

The rules of the language as a context-free grammar on kinds of tokens.  `Derives n w` says that the
nonterminal `n` derives the word `w`; there is one constructor for each alternative of a rule, and
`( op operand )*` is read as any number of links.

The grammar is ambiguous: in `a ? b : c, d` the comma may belong to the else branch or to the chain
that the conditional is an operand of.  A parse always takes the first reading and never goes back.
Nothing is lost by that.  `Expr.appendComma` turns a tree of the second reading into one of the
first, so every derivable word is spelt by some tree that respects precedence
(`Derives.exists_stratified`), and such a tree is what a parse returns when its limit is high
enough.
-/

namespace Lox

inductive Nonterminal
  | expression
  /-- The chains of a level of operators. -/
  | chain (level : Level)
  | ternary
  | unary
  | primary
deriving DecidableEq, Repr

def Level.operand : Level → Nonterminal
  | comma => .ternary
  | equality => .chain .comparison
  | comparison => .chain .term
  | term => .chain .factor
  | factor => .unary

def literalKinds : List Kind :=
  [.number, .string, .keyword .trueWord, .keyword .falseWord, .keyword .nilWord]

/-- **The words that a nonterminal derives.** -/
inductive Derives : Nonterminal → List Kind → Prop
  | expression {w : List Kind} : Derives (.chain .comma) w → Derives .expression w
  | operand {level : Level} {w : List Kind} : Derives level.operand w → Derives (.chain level) w
  | link {level : Level} {op : Kind} {w w' : List Kind} : Derives (.chain level) w →
      op ∈ level.operators → Derives level.operand w' → Derives (.chain level) (w ++ op :: w')
  | condition {w : List Kind} : Derives (.chain .equality) w → Derives .ternary w
  | branches {w w' w'' : List Kind} : Derives (.chain .equality) w → Derives .expression w' →
      Derives .expression w'' → Derives .ternary (w ++ .question :: (w' ++ .colon :: w''))
  | negation {op : Kind} {w : List Kind} : op = .bang ∨ op = .minus → Derives .unary w →
      Derives .unary (op :: w)
  | primary {w : List Kind} : Derives .primary w → Derives .unary w
  | literal {kind : Kind} : kind ∈ literalKinds → Derives .primary [kind]
  | group {w : List Kind} : Derives .expression w →
      Derives .primary (.leftParen :: (w ++ [.rightParen]))

/-! ### Trees have derivations -/

/-- The loosest nonterminal for trees of a rank. -/
def Nonterminal.ofRank : Nat → Nonterminal
  | 0 => .chain .comma
  | 1 => .ternary
  | 2 => .chain .equality
  | 3 => .chain .comparison
  | 4 => .chain .term
  | 5 => .chain .factor
  | _ => .unary

theorem Level.ofRank_rank (level : Level) : .ofRank level.rank = Nonterminal.chain level := by
  cases level <;> rfl

theorem Level.ofRank_rank_succ (level : Level) : .ofRank (level.rank + 1) = level.operand := by
  cases level <;> rfl

theorem Derives.of_rank_succ {r : Nat} {w : List Kind} (h : Derives (.ofRank (r + 1)) w) :
    Derives (.ofRank r) w :=
  match r with
  | 0 => .operand h
  | 1 => .condition h
  | 2 | 3 | 4 | 5 => .operand h
  | _ + 6 => h

theorem Derives.of_rank_le {r r' : Nat} {w : List Kind} (h : Derives (.ofRank r') w)
    (hr : r ≤ r') : Derives (.ofRank r) w := by
  induction hr with
  | refl => exact h
  | step _ ih => exact ih h.of_rank_succ

theorem Derives.of_unary {w : List Kind} (h : Derives .unary w) (r : Nat) :
    Derives (.ofRank r) w := by
  have h6 : Derives (.ofRank (r + 6)) w := by
    match r with
    | 0 => exact h
    | r + 1 => exact h
  exact h6.of_rank_le (Nat.le_add_right _ _)

/-- The tokens of a tree that respects precedence are derived by the nonterminal of its rank. -/
theorem Expr.Stratified.derives {r : Nat} {e : Expr} (h : e.Stratified r) {s : List Token}
    (hs : Spells s e) : Derives (.ofRank r) (s.map Token.kind) := by
  induction h generalizing s with
  | literal v =>
    have hw : Derives .primary (s.map Token.kind) := by
      cases hs with
      | payload ht => rcases ht with ht | ht <;> exact .literal (by simp [literalKinds, ht])
      | trueWord ht | falseWord ht | nilWord ht => exact .literal (by simp [literalKinds, ht])
    exact hw.primary.of_unary _
  | grouping _ ih =>
    cases hs with
    | grouping hp hs hq =>
      have hw := Derives.primary (.group (.expression (ih hs)))
      simpa [hp, hq] using hw.of_unary _
  | unary hop _ ih =>
    cases hs with
    | unary op hs => exact (Derives.negation hop (ih hs)).of_unary _
  | @binary _ level _ _ _ hop _ _ _ hr ihl ihx =>
    cases hs with
    | binary op hs hs' =>
      have hl := ihl hs
      have hx := ihx hs'
      rw [level.ofRank_rank] at hl
      rw [level.ofRank_rank_succ] at hx
      have hw := Derives.link hl hop hx
      rw [← level.ofRank_rank] at hw
      simpa using hw.of_rank_le hr
  | ternary _ _ _ hr ihc iha ihb =>
    cases hs with
    | ternary hs hq hs' hd hs'' =>
      have hw : Derives (.ofRank 1) _ :=
        .branches (ihc hs) (.expression (iha hs')) (.expression (ihb hs''))
      simpa [hq, hd] using hw.of_rank_le hr

/-! ### Derivations have trees -/

/-- A tree continued by a comma and one more operand.  The comma goes to the innermost else branch
that the tree ends in, if there is one. -/
def Expr.appendComma : Expr → Token → Expr → Expr
  | ternary c a b, op, x => ternary c a (b.appendComma op x)
  | binary l op' y, op, x =>
    if y.endsInTernary then binary l op' (y.appendComma op x) else binary (binary l op' y) op x
  | e, op, x => binary e op x

theorem Spells.appendComma {s s' : List Token} {e x : Expr} (op : Token) (h : Spells s e)
    (hx : Spells s' x) : Spells (s ++ op :: s') (e.appendComma op x) := by
  induction e generalizing s with
  | literal | grouping | unary => exact .binary op h hx
  | ternary c a b _ _ ihb =>
    cases h with
    | ternary hc hq ha hd hb => simpa [Expr.appendComma] using Spells.ternary hc hq ha hd (ihb hb)
  | binary l op' y _ ihy =>
    rw [Expr.appendComma]
    split
    · cases h with
      | binary _ hl hy => simpa using Spells.binary op' hl (ihy hy)
    · exact .binary op h hx

/-- Adding to an else branch keeps the rank of the tree, and adding to the chain gives one of
commas. -/
theorem Expr.Stratified.appendComma {r : Nat} {e x : Expr} {op : Token} (h : e.Stratified r)
    (hr : r = 0 ∨ e.endsInTernary = true) (hop : op.kind ∈ Level.comma.operators)
    (hx : x.Stratified 1) :
    (e.appendComma op x).Stratified r := by
  have hchain {e : Expr} (he : e.Stratified 0) (ht : e.endsInTernary = false) :
      (Expr.binary e op x).Stratified 0 := .binary hop he ht hx (Nat.le_refl _)
  induction e generalizing r with
  | literal | grouping | unary =>
    obtain rfl : r = 0 := by simpa [endsInTernary] using hr
    exact hchain h rfl
  | ternary c a b _ _ ihb =>
    cases h with
    | ternary hc ha hb hr' => exact .ternary hc ha (ihb hb (.inl rfl)) hr'
  | binary l op' y _ ihy =>
    rw [Expr.appendComma]
    split
    · rename_i ht
      cases h with
      | @binary _ level _ _ _ hop' hl htl hy hr' =>
        exact .binary hop' hl htl (ihy hy (.inr ht)) hr'
    · rename_i ht
      obtain rfl : r = 0 := by simpa [endsInTernary, ht] using hr
      exact hchain h (by simpa [endsInTernary] using ht)

theorem exists_stratified_link {level : Level} {s s' : List Token} {op : Token} {l x : Expr}
    (hop : op.kind ∈ level.operators) (hl : l.Stratified level.rank) (hsl : Spells s l)
    (hx : x.Stratified (level.rank + 1)) (hsx : Spells s' x) :
    ∃ e, Spells (s ++ op :: s') e ∧ e.Stratified level.rank := by
  cases ht : l.endsInTernary with
  | false => exact ⟨_, .binary op hsl hsx, .binary hop hl ht hx (Nat.le_refl _)⟩
  | true =>
    have hlevel : level = .comma := by
      cases level with
      | comma => rfl
      | _ => simp [hl.endsInTernary_eq_false (by decide)] at ht
    subst hlevel
    exact ⟨_, hsl.appendComma op hsx, hl.appendComma (.inl rfl) hop hx⟩

theorem exists_spells_literal {t : Token} (h : t.kind ∈ literalKinds) :
    ∃ v, Spells [t] (.literal v) := by
  simp only [literalKinds, List.mem_cons, List.not_mem_nil, or_false] at h
  rcases h with h | h | h | h | h
  · exact ⟨_, .payload (.inl h)⟩
  · exact ⟨_, .payload (.inr h)⟩
  · exact ⟨_, .trueWord h⟩
  · exact ⟨_, .falseWord h⟩
  · exact ⟨_, .nilWord h⟩

def Nonterminal.rank : Nonterminal → Nat
  | expression => 0
  | chain level => level.rank
  | ternary => 1
  | unary | primary => 6

theorem Level.rank_operand (level : Level) : level.operand.rank = level.rank + 1 := by
  cases level <;> rfl

/-- **Every derivable word is spelt by a tree that respects precedence.** -/
theorem Derives.exists_stratified {n : Nonterminal} {w : List Kind} (h : Derives n w)
    {ts : List Token} (hts : ts.map Token.kind = w) : ∃ e, Spells ts e ∧ e.Stratified n.rank := by
  induction h generalizing ts with
  | expression _ ih => exact ih hts
  | @operand level w _ ih =>
    obtain ⟨e, hs, he⟩ := ih hts
    rw [level.rank_operand] at he
    exact ⟨e, hs, he.mono (Nat.le_succ _)⟩
  | @link level op w w' _ hop _ ihl ihx =>
    obtain ⟨s, ts', rfl, hs, hts'⟩ := List.map_eq_append_iff.mp hts
    obtain ⟨t, s', rfl, rfl, hs'⟩ := List.map_eq_cons_iff.mp hts'
    obtain ⟨l, hsl, hl⟩ := ihl hs
    obtain ⟨x, hsx, hx⟩ := ihx hs'
    rw [level.rank_operand] at hx
    exact exists_stratified_link hop hl hsl hx hsx
  | condition _ ih =>
    obtain ⟨e, hs, he⟩ := ih hts
    exact ⟨e, hs, he.mono (by decide)⟩
  | branches _ _ _ ihc iha ihb =>
    obtain ⟨s, ts', rfl, hs, hts'⟩ := List.map_eq_append_iff.mp hts
    obtain ⟨q, ts', rfl, hq, hts'⟩ := List.map_eq_cons_iff.mp hts'
    obtain ⟨s', ts'', rfl, hs', hts''⟩ := List.map_eq_append_iff.mp hts'
    obtain ⟨d, s'', rfl, hd, hs''⟩ := List.map_eq_cons_iff.mp hts''
    obtain ⟨c, hsc, hc⟩ := ihc hs
    obtain ⟨a, hsa, ha⟩ := iha hs'
    obtain ⟨b, hsb, hb⟩ := ihb hs''
    exact ⟨_, .ternary hsc hq hsa hd hsb, .ternary hc ha hb (Nat.le_refl _)⟩
  | negation hop _ ih =>
    obtain ⟨t, s, rfl, rfl, hs⟩ := List.map_eq_cons_iff.mp hts
    obtain ⟨e, hs, he⟩ := ih hs
    exact ⟨_, .unary t hs, .unary hop he⟩
  | primary _ ih => exact ih hts
  | literal hk =>
    obtain ⟨t, s, rfl, rfl, hs⟩ := List.map_eq_cons_iff.mp hts
    obtain rfl := List.map_eq_nil_iff.mp hs
    obtain ⟨v, hv⟩ := exists_spells_literal hk
    exact ⟨_, hv, .literal v⟩
  | group _ ih =>
    obtain ⟨p, ts', rfl, hp, hts'⟩ := List.map_eq_cons_iff.mp hts
    obtain ⟨s, ts'', rfl, hs, hts''⟩ := List.map_eq_append_iff.mp hts'
    obtain ⟨q, s', rfl, hq, hs'⟩ := List.map_eq_cons_iff.mp hts''
    obtain rfl := List.map_eq_nil_iff.mp hs'
    obtain ⟨e, hs, he⟩ := ih hs
    exact ⟨_, .grouping hp hs hq, .grouping he⟩

/-- **A sequence of tokens is parsed under some limit exactly when its kinds are derivable.** -/
theorem parseTokens_succeeds_iff_derives (ts tail : List Token) (hts : ∀ t ∈ ts, t.kind ≠ .eof)
    (htail : EndOfInput tail) :
    (∃ limit e, parseTokens (ts ++ tail) limit = .ok e) ↔
      Derives .expression (ts.map Token.kind) := by
  constructor
  · rintro ⟨limit, e, h⟩
    have hf := (parseTokens_eq_ok_iff_fits hts htail).mp h
    exact .expression (hf.stratified.derives hf.spells)
  · intro h
    obtain ⟨e, hs, he⟩ := h.exists_stratified rfl
    refine ⟨(e.nesting + 1 : Nat), e, (parseTokens_eq_ok_iff_fits hts htail).mpr ?_⟩
    exact htail.fits hs he (by simp)

/-- The kinds of `true ? nil : false, true` have a derivation in which the comma does not belong to
the else branch; the tokens are parsed all the same. -/
theorem parseTokens_succeeds_iff_derives_outer_comma :
    ∃ limit e, parseTokens
      ([⟨.keyword .trueWord, "true", .nil, 1⟩, ⟨.question, "?", .nil, 1⟩,
        ⟨.keyword .nilWord, "nil", .nil, 1⟩, ⟨.colon, ":", .nil, 1⟩,
        ⟨.keyword .falseWord, "false", .nil, 1⟩, ⟨.comma, ",", .nil, 1⟩,
        ⟨.keyword .trueWord, "true", .nil, 1⟩] ++ []) limit = .ok e := by
  refine (parseTokens_succeeds_iff_derives _ _ (by decide) (.inl rfl)).mpr ?_
  have hword {word : Keyword} (h : .keyword word ∈ literalKinds) (r : Nat) :
      Derives (.ofRank r) [.keyword word] := (Derives.primary (.literal h)).of_unary r
  have htrue : Kind.keyword .trueWord ∈ literalKinds := by decide
  have hcond : Derives Level.comma.operand
      [.keyword .trueWord, .question, .keyword .nilWord, .colon, .keyword .falseWord] :=
    .branches (hword htrue 2) (.expression (hword (by decide) 0))
      (.expression (hword (by decide) 0))
  have hcomma : Kind.comma ∈ Level.comma.operators := by decide
  exact .expression (.link (.operand hcond) hcomma (hword htrue 1))

end Lox
