import Lox.Proofs.Reading

/-!
# Which trees are read

A tree that a parse returns is spelt by its tokens (`Spells`), respects the precedence of the
operators (`Expr.Stratified`) and does not nest too deeply (`Expr.nesting`).  These three conditions
are also enough: the tokens of such a tree are read back as that very tree.

Expressions have ranks, from `0` for a chain of commas to `6` for an operand of a chain.  The rank
of a level is that of its chains, and `1` is that of a condition with its two branches.
`e.Stratified r` says that `e` is built by the rules and that its outermost rule is of rank `r` at
least.

The branches are whole expressions, so a comma after an else branch belongs to that branch.  Hence a
left operand of a comma never ends in a conditional (`Expr.endsInTernary`), and behind an expression
that does no operator of any rank can stand.  `Fits` puts these conditions together, and for each
rule of the grammar there is one lemma that says its reader is exact for them.
-/

namespace Lox

/-! ### Levels -/

def Level.operators : Level → List Kind
  | comma => [.comma]
  | equality => [.bangEqual, .equalEqual]
  | comparison => [.greater, .greaterEqual, .less, .lessEqual]
  | term => [.minus, .plus]
  | factor => [.slash, .star]

/-- The rank of the chains of a level; a higher rank binds tighter. -/
def Level.rank : Level → Nat
  | comma => 0
  | equality => 2
  | comparison => 3
  | term => 4
  | factor => 5

theorem Level.has_iff {level : Level} {kind : Kind} :
    level.has kind = true ↔ kind ∈ level.operators := by
  cases level <;> cases kind <;> simp [has, operators]

theorem Level.rank_inj {l l' : Level} (h : l.rank = l'.rank) : l = l' := by
  cases l <;> cases l' <;> simp_all [rank]

theorem Level.eq_of_mem_operators {l l' : Level} {kind : Kind} (h : kind ∈ l.operators)
    (h' : kind ∈ l'.operators) : l = l' := by
  cases l <;> cases l' <;> simp_all [operators] <;> grind

/-- Whether a token of this kind, behind an expression, can continue a rule of some rank. -/
def Kind.Extends (rank : Nat) (kind : Kind) : Prop :=
  (∃ level : Level, kind ∈ level.operators ∧ rank ≤ level.rank) ∨ (kind = .question ∧ rank ≤ 1)

theorem Kind.Extends.mono {r r' : Nat} {kind : Kind} (h : kind.Extends r') (hr : r ≤ r') :
    kind.Extends r := by
  rcases h with ⟨level, hk, hl⟩ | ⟨hk, hl⟩
  · exact .inl ⟨level, hk, Nat.le_trans hr hl⟩
  · exact .inr ⟨hk, Nat.le_trans hr hl⟩

theorem Level.extends_iff {level : Level} {kind : Kind} (h : kind ∈ level.operators) {r : Nat} :
    kind.Extends r ↔ r ≤ level.rank := by
  constructor
  · rintro (⟨level', hk, hl⟩ | ⟨rfl, -⟩)
    · rwa [Level.eq_of_mem_operators h hk]
    · cases level <;> simp [operators] at h
  · intro hr
    exact .inl ⟨level, h, hr⟩

/-- What continues the chains of a level is an operator of it or continues its operands. -/
theorem Level.extends_rank_iff (level : Level) {kind : Kind} :
    kind.Extends level.rank ↔ kind ∈ level.operators ∨ kind.Extends (level.rank + 1) := by
  constructor
  · rintro (⟨level', hk, hl⟩ | ⟨hk, hl⟩)
    · rcases Nat.lt_or_eq_of_le hl with hlt | heq
      · exact .inr (.inl ⟨level', hk, hlt⟩)
      · exact .inl (Level.rank_inj heq ▸ hk)
    · refine .inr (.inr ⟨hk, ?_⟩)
      cases level <;> simp_all [rank]
  · rintro (hk | hk)
    · exact .inl ⟨level, hk, Nat.le_refl _⟩
    · exact hk.mono (Nat.le_succ _)

theorem Kind.extends_one_iff {kind : Kind} :
    kind.Extends 1 ↔ kind = .question ∨ kind.Extends 2 := by
  constructor
  · rintro (⟨level, hk, hl⟩ | ⟨hk, -⟩)
    · refine .inr (.inl ⟨level, hk, ?_⟩)
      cases level <;> simp_all [Level.rank]
    · exact .inl hk
  · rintro (hk | hk)
    · exact .inr ⟨hk, Nat.le_refl _⟩
    · exact hk.mono (by decide)

theorem Kind.not_extends_operand (kind : Kind) : ¬ kind.Extends 6 := by
  rintro (⟨level, -, h⟩ | ⟨-, h⟩)
  · cases level <;> simp [Level.rank] at h
  · omega

theorem Kind.not_extends_question : ¬ Kind.question.Extends 2 := by
  rintro (⟨level, hk, -⟩ | ⟨-, hk⟩)
  · cases level <;> simp [Level.operators] at hk
  · omega

/-- The tokens that can stand behind a whole expression do not continue it. -/
theorem Kind.not_extends_closing {kind : Kind}
    (h : kind = .rightParen ∨ kind = .colon ∨ kind = .eof) (rank : Nat) : ¬ kind.Extends rank := by
  rintro (⟨level, hk, -⟩ | ⟨hk, -⟩)
  · rcases h with rfl | rfl | rfl <;> cases level <;> simp [Level.operators] at hk
  · rcases h with rfl | rfl | rfl <;> cases hk

/-! ### Trees and their tokens -/

/-- The tokens spell a tree: read in order they are its literals, operators and brackets.  Operators
are the very tokens of the nodes, and the other tokens count by their kind and payload. -/
inductive Spells : List Token → Expr → Prop
  | payload {t : Token} : t.kind = .number ∨ t.kind = .string → Spells [t] (.literal t.literal)
  | trueWord {t : Token} : t.kind = .keyword .trueWord → Spells [t] (.literal (.boolean true))
  | falseWord {t : Token} : t.kind = .keyword .falseWord → Spells [t] (.literal (.boolean false))
  | nilWord {t : Token} : t.kind = .keyword .nilWord → Spells [t] (.literal .nil)
  | grouping {p q : Token} {s : List Token} {e : Expr} : p.kind = .leftParen → Spells s e →
      q.kind = .rightParen → Spells (p :: (s ++ [q])) (.grouping e)
  | unary {s : List Token} {e : Expr} (op : Token) : Spells s e → Spells (op :: s) (.unary op e)
  | binary {s s' : List Token} {l x : Expr} (op : Token) : Spells s l → Spells s' x →
      Spells (s ++ op :: s') (.binary l op x)
  | ternary {q d : Token} {s s' s'' : List Token} {c a b : Expr} : Spells s c →
      q.kind = .question → Spells s' a → d.kind = .colon → Spells s'' b →
      Spells (s ++ q :: (s' ++ d :: s'')) (.ternary c a b)

theorem spells_literal_iff {s : List Token} {v : Value} :
    Spells s (.literal v) ↔ ∃ t, s = [t] ∧ t.value? = some v := by
  constructor
  · intro h
    cases h with
    | @payload t ht =>
      refine ⟨t, rfl, ?_⟩
      rcases ht with ht | ht <;> simp [Token.value?, ht]
    | @trueWord t ht => exact ⟨t, rfl, by simp [Token.value?, ht]⟩
    | @falseWord t ht => exact ⟨t, rfl, by simp [Token.value?, ht]⟩
    | @nilWord t ht => exact ⟨t, rfl, by simp [Token.value?, ht]⟩
  · rintro ⟨t, rfl, ht⟩
    unfold Token.value? at ht
    split at ht
    · rename_i hk; cases ht; exact .falseWord hk
    · rename_i hk; cases ht; exact .trueWord hk
    · rename_i hk; cases ht; exact .nilWord hk
    · rename_i hk; cases ht; exact .payload (.inl hk)
    · rename_i hk; cases ht; exact .payload (.inr hk)
    · cases ht

namespace Expr

/-- Whether the last operand of an expression is a conditional, so that its else branch would take
in whatever operator follows. -/
def endsInTernary : Expr → Bool
  | ternary _ _ _ => true
  | binary _ _ x => x.endsInTernary
  | _ => false

/-- How many levels an expression opens inside each other: groupings, branches and the operands of
prefix operators. -/
def nesting : Expr → Nat
  | literal _ => 0
  | grouping inner => inner.nesting + 1
  | unary _ right => right.nesting + 1
  | binary left _ right => max left.nesting right.nesting
  | ternary c a b => max c.nesting (max a.nesting b.nesting + 1)

/-- **Trees that respect the precedence of operators**, the outermost rule being of a given rank at
least.  A left operand is of the rank of its operator or tighter, a right operand is tighter, and
only the last operand of a chain of commas may be a conditional. -/
inductive Stratified : Nat → Expr → Prop
  | literal {r : Nat} (v : Value) : Stratified r (.literal v)
  | grouping {r : Nat} {e : Expr} : Stratified 0 e → Stratified r (.grouping e)
  | unary {r : Nat} {op : Token} {e : Expr} : op.kind = .bang ∨ op.kind = .minus →
      Stratified 6 e → Stratified r (.unary op e)
  | binary {r : Nat} {level : Level} {l x : Expr} {op : Token} : op.kind ∈ level.operators →
      Stratified level.rank l → l.endsInTernary = false → Stratified (level.rank + 1) x →
      r ≤ level.rank → Stratified r (.binary l op x)
  | ternary {r : Nat} {c a b : Expr} : Stratified Level.equality.rank c → Stratified 0 a →
      Stratified 0 b → r ≤ 1 → Stratified r (.ternary c a b)

theorem Stratified.mono {r r' : Nat} {e : Expr} (h : Stratified r' e) (hr : r ≤ r') :
    Stratified r e := by
  cases h with
  | literal v => exact .literal v
  | grouping h => exact .grouping h
  | unary hop h => exact .unary hop h
  | binary hop hl ht hx hr' => exact .binary hop hl ht hx (Nat.le_trans hr hr')
  | ternary hc ha hb hr' => exact .ternary hc ha hb (Nat.le_trans hr hr')

/-- Conditionals are looser than equalities, so nothing tighter ends in one. -/
theorem Stratified.endsInTernary_eq_false {r : Nat} {e : Expr} (h : Stratified r e) (hr : 2 ≤ r) :
    e.endsInTernary = false := by
  induction h with
  | literal | grouping | unary => rfl
  | binary _ _ _ _ hr' _ ihx => exact ihx (by omega)
  | ternary _ _ _ hr' => omega

/-- Between a chain of commas and an equality there is only the conditional. -/
theorem Stratified.equality_or_ternary {e : Expr} (h : Stratified 1 e) :
    Stratified 2 e ∨ ∃ c a b, e = .ternary c a b := by
  cases h with
  | literal v => exact .inl (.literal v)
  | grouping h => exact .inl (.grouping h)
  | unary hop h => exact .inl (.unary hop h)
  | @binary _ level _ _ _ hop hl ht hx hr =>
    refine .inl (.binary hop hl ht hx ?_)
    cases level <;> simp_all [Level.rank]
  | ternary => exact .inr ⟨_, _, _, rfl⟩

end Expr

/-! ### Exact conditions -/

/-- The tokens taken spell a tree of some rank that opens fewer than `room` levels, and the next
token does not continue it at the rank `behind`. -/
structure Fits (room rank behind : Nat) (e : Expr) (taken rest : List Token) : Prop where
  spells : Spells taken e
  stratified : e.Stratified rank
  nesting : e.nesting < room
  closed : Stops (Kind.Extends (if e.endsInTernary then 0 else behind)) rest

namespace Fits

variable {room rank behind : Nat} {e : Expr} {s rest : List Token} {level : Level}

theorem closed_zero (h : Fits room rank 0 e s rest) : Stops (Kind.Extends 0) rest := by
  simpa using h.closed

/-- Before an operator of a level stands no conditional, which would have taken it in. -/
theorem endsInTernary_eq_false {op : Token} (h : Fits room rank behind e s (op :: rest))
    (hop : op.kind ∈ level.operators) : e.endsInTernary = false := by
  cases ht : e.endsInTernary with
  | false => rfl
  | true =>
    have hc := h.closed
    rw [if_pos ht, stops_cons, Level.extends_iff hop] at hc
    exact absurd (Nat.zero_le _) hc

/-- A chain of a level is a tree of its rank, closed like its last operand. -/
theorem of_chain (h : Reader.Chain level (Fits room (level.rank + 1) (level.rank + 1)) e s rest) :
    Fits room level.rank (level.rank + 1) e s rest := by
  induction h with
  | operand h => exact ⟨h.spells, h.stratified.mono (Nat.le_succ _), h.nesting, h.closed⟩
  | @link l x op s s' rest _ hop hx ihl =>
    rw [Level.has_iff] at hop
    have ht := ihl.endsInTernary_eq_false hop
    refine ⟨.binary op ihl.spells hx.spells,
      .binary hop ihl.stratified ht hx.stratified (Nat.le_refl _), ?_, hx.closed⟩
    exact Nat.max_lt.mpr ⟨ihl.nesting, hx.nesting⟩

/-- A tree of the rank of a level is a chain of it, however long. -/
theorem chain (h : Fits room level.rank (level.rank + 1) e s rest) :
    Reader.Chain level (Fits room (level.rank + 1) (level.rank + 1)) e s rest := by
  induction e generalizing s rest with
  | literal v => exact .operand ⟨h.spells, .literal v, h.nesting, h.closed⟩
  | grouping e =>
    cases h.stratified with
    | grouping he => exact .operand ⟨h.spells, .grouping he, h.nesting, h.closed⟩
  | unary op e =>
    cases h.stratified with
    | unary hop he => exact .operand ⟨h.spells, .unary hop he, h.nesting, h.closed⟩
  | ternary c a b =>
    cases h.stratified with
    | ternary hc ha hb hr =>
      refine .operand ⟨h.spells, .ternary hc ha hb ?_, h.nesting, h.closed⟩
      cases level <;> simp_all [Level.rank]
  | binary l op x ihl =>
    cases h.stratified with
    | @binary _ level' _ _ _ hop hl ht hx hr =>
      rcases Nat.lt_or_eq_of_le hr with hlt | heq
      · exact .operand ⟨h.spells, .binary hop hl ht hx hlt, h.nesting, h.closed⟩
      · obtain rfl := Level.rank_inj heq
        have hn := Nat.max_lt.mp h.nesting
        cases h.spells with
        | @binary s s' _ _ _ hsl hsx =>
          refine .link (ihl ⟨hsl, hl, hn.1, ?_⟩) (Level.has_iff.mpr hop) ⟨hsx, hx, hn.2, h.closed⟩
          rw [ht, if_neg (by simp), List.cons_append, stops_cons, Level.extends_iff hop]
          omega

/-- Being closed against a level and against its operands is being closed at its rank. -/
theorem closed_iff : Fits room level.rank (level.rank + 1) e s rest ∧ Stops (level.has ·) rest ↔
    Fits room level.rank level.rank e s rest := by
  constructor
  · rintro ⟨h, hs⟩
    refine ⟨h.spells, h.stratified, h.nesting, fun t ht hk => ?_⟩
    have hc := h.closed t ht
    cases hT : e.endsInTernary with
    | true => simp_all
    | false =>
      simp only [hT, Bool.false_eq_true, if_false] at hk hc
      rcases (Level.extends_rank_iff level).mp hk with hm | hm
      · exact hs t ht (Level.has_iff.mpr hm)
      · exact hc hm
  · intro h
    refine ⟨⟨h.spells, h.stratified, h.nesting, h.closed.mono fun k hk => ?_⟩,
      h.closed.mono fun k hk => ?_⟩
    · split at hk <;> rename_i ht
      · rwa [if_pos ht]
      · rw [if_neg ht]
        exact hk.mono (Nat.le_succ _)
    · rw [Level.extends_iff (Level.has_iff.mp hk)]
      split <;> omega

end Fits

/-! ### The rules -/

namespace Reader

variable {room : Nat} {expression operand condition : Reader Expr}

theorem level_reads (level : Level)
    (h : Reads operand (Fits room (level.rank + 1) (level.rank + 1))) :
    Reads (chain level operand) (Fits room level.rank level.rank) := by
  refine (chain_reads h level).congr fun e s rest => ?_
  rw [← Fits.closed_iff]
  exact and_congr_left fun _ => ⟨Fits.of_chain, Fits.chain⟩

theorem equality_reads (h : Reads operand (Fits room 6 6)) :
    Reads (equality operand) (Fits room 2 2) :=
  level_reads .equality (level_reads .comparison (level_reads .term (level_reads .factor h)))

theorem primary_reads (h : Reads expression (Fits room 0 0)) :
    Reads (primary expression) fun e s rest =>
      (∃ v, e = .literal v ∧ Spells s e) ∨
        ∃ p q s' inner, e = .grouping inner ∧ s = p :: (s' ++ [q]) ∧ p.kind = .leftParen ∧
          q.kind = .rightParen ∧ Fits room 0 0 inner s' (q :: rest) where
  sound {ts k e c} hr := by
    rw [primary, bind_eq_ok] at hr
    obtain ⟨o, c₁, ho, hr⟩ := hr
    rcases next?_eq_ok ho with ⟨rfl, rfl, -⟩ | ⟨t, ts', v, rfl, rfl, hv, rfl⟩
    · obtain ⟨o, c₁, ho, hr⟩ := bind_eq_ok.mp hr
      rcases accept_eq_ok ho with ⟨rfl, -, -⟩ | ⟨p, ts', rfl, rfl, hp, rfl⟩
      · exact absurd hr refuse_ne_ok
      · obtain ⟨inner, c₂, hi, hr⟩ := bind_eq_ok.mp hr
        obtain ⟨s', rest, rfl, rfl, hf⟩ := h.sound hi
        obtain ⟨u, c₃, hx, hr⟩ := bind_eq_ok.mp hr
        obtain ⟨q, rest', rfl, hq, rfl⟩ := expect_eq_ok.mp hx
        obtain ⟨rfl, rfl⟩ := pure_eq_ok.mp hr
        exact ⟨p :: (s' ++ [q]), rest', by simp, rfl,
          .inr ⟨p, q, s', inner, rfl, rfl, by simpa using hp, hq, hf⟩⟩
    · obtain ⟨rfl, rfl⟩ := pure_eq_ok.mp hr
      exact ⟨[t], ts', rfl, rfl, .inl ⟨v, rfl, spells_literal_iff.mpr ⟨t, rfl, hv⟩⟩⟩
  complete {e s rest} hq k := by
    rcases hq with ⟨v, rfl, hs⟩ | ⟨p, q, s', inner, rfl, rfl, hp, hq, hf⟩
    · obtain ⟨t, rfl, hv⟩ := spells_literal_iff.mp hs
      exact bind_eq_ok.mpr ⟨some v, _, next?_of_some hv rest k, rfl⟩
    · have hv : p.value? = none := by simp [Token.value?, hp]
      refine bind_eq_ok.mpr ⟨none, _, next?_of_none (by simpa using hv) k, ?_⟩
      refine bind_eq_ok.mpr ⟨some p, _, accept_of_fits (by simpa using hp) _ k, ?_⟩
      refine bind_eq_ok.mpr ⟨inner, ⟨q :: rest, k⟩, by simpa using h.complete hf k, ?_⟩
      exact bind_eq_ok.mpr ⟨(), ⟨rest, k⟩, expect_eq_ok.mpr ⟨q, rest, rfl, hq, rfl⟩, rfl⟩

theorem isPrefixOp_iff {kind : Kind} : kind.isPrefixOp = true ↔ kind = .bang ∨ kind = .minus := by
  cases kind <;> simp [Kind.isPrefixOp]

theorem stops_of_spells_literal {s rest : List Token} {v : Value} (h : Spells s (.literal v)) :
    Stops (Kind.isPrefixOp ·) (s ++ rest) := by
  obtain ⟨t, rfl, ht⟩ := spells_literal_iff.mp h
  rw [List.singleton_append, stops_cons, isPrefixOp_iff]
  rintro (hk | hk) <;> simp [Token.value?, hk] at ht

/-- Nothing continues an operand, so it is read in front of anything. -/
theorem fits_operand {e : Expr} {s : List Token} (hs : Spells s e) (he : e.Stratified 6)
    (hn : e.nesting < room) (rest : List Token) : Fits room 6 6 e s rest := by
  refine ⟨hs, he, hn, fun t _ => ?_⟩
  rw [he.endsInTernary_eq_false (by decide)]
  exact Kind.not_extends_operand _

/-- A whole expression is read in front of a token that closes it. -/
theorem fits_closing {e : Expr} {s rest : List Token} (hs : Spells s e) (he : e.Stratified 0)
    (hn : e.nesting < room)
    (ht : ∀ t ∈ rest.head?, t.kind = .rightParen ∨ t.kind = .colon ∨ t.kind = .eof) :
    Fits room 0 0 e s rest :=
  ⟨hs, he, hn, fun t h => Kind.not_extends_closing (ht t h) _⟩

theorem unary_reads (he : Reads expression (Fits room 0 0)) (ho : Reads operand (Fits room 6 6)) :
    Reads (unary expression operand) (Fits (room + 1) 6 6) where
  sound {ts k e c} hr := by
    rw [unary, bind_eq_ok] at hr
    obtain ⟨o, c₁, ha, hr⟩ := hr
    rcases accept_eq_ok ha with ⟨rfl, rfl, -⟩ | ⟨op, ts', rfl, rfl, hop, rfl⟩
    · obtain ⟨s, rest, hts, hc, hq⟩ := (primary_reads he).sound hr
      refine ⟨s, rest, hts, hc, ?_⟩
      rcases hq with ⟨v, rfl, hs⟩ | ⟨p, q, s', inner, rfl, rfl, hp, hq, hf⟩
      · exact fits_operand hs (.literal v) (Nat.succ_pos _) rest
      · exact fits_operand (.grouping hp hf.spells hq) (.grouping hf.stratified)
          (Nat.succ_lt_succ hf.nesting) rest
    · obtain ⟨x, c₂, hx, hr⟩ := bind_eq_ok.mp hr
      obtain ⟨s, rest, rfl, rfl, hf⟩ := ho.sound hx
      obtain ⟨rfl, rfl⟩ := pure_eq_ok.mp hr
      exact ⟨op :: s, rest, rfl, rfl, fits_operand (.unary op hf.spells)
        (.unary (isPrefixOp_iff.mp hop) hf.stratified) (Nat.succ_lt_succ hf.nesting) rest⟩
  complete {e s rest} hf k := by
    cases hf.stratified with
    | literal v =>
      exact bind_eq_ok.mpr ⟨none, _, accept_of_stops (stops_of_spells_literal hf.spells) k,
        (primary_reads he).complete (.inl ⟨v, rfl, hf.spells⟩) k⟩
    | @grouping _ e hi =>
      cases hf.spells with
      | @grouping p q s _ hp hs hq =>
        refine bind_eq_ok.mpr ⟨none, _, accept_of_stops (by simp [hp, Kind.isPrefixOp]) k, ?_⟩
        refine (primary_reads he).complete (.inr ⟨p, q, s, e, rfl, rfl, hp, hq, ?_⟩) k
        exact fits_closing hs hi (Nat.succ_lt_succ_iff.mp hf.nesting) (by simp [hq])
    | @unary _ op x hop hx =>
      cases hf.spells with
      | @unary s _ _ hs =>
        refine bind_eq_ok.mpr ⟨some op, _, accept_of_fits (isPrefixOp_iff.mpr hop) _ k, ?_⟩
        refine bind_eq_ok.mpr ⟨x, ⟨rest, k⟩, ho.complete ?_ k, rfl⟩
        exact fits_operand hs hx (Nat.succ_lt_succ_iff.mp hf.nesting) rest
    | @binary _ level _ _ _ _ _ _ _ hr => cases level <;> simp [Level.rank] at hr
    | ternary _ _ _ hr => omega

/-- A condition that is not followed by a question mark is all that is read. -/
theorem fits_condition_iff {e : Expr} {s rest : List Token} (he : e.Stratified 2) :
    Fits room 2 2 e s rest ∧ Stops (· = .question) rest ↔ Fits room 1 1 e s rest := by
  have ht := he.endsInTernary_eq_false (Nat.le_refl _)
  constructor
  · rintro ⟨h, hq⟩
    refine ⟨h.spells, he.mono (by decide), h.nesting, fun t hm hk => ?_⟩
    have hc := h.closed t hm
    rw [ht, if_neg (by simp)] at hc hk
    rcases Kind.extends_one_iff.mp hk with hk | hk
    · exact hq t hm hk
    · exact hc hk
  · intro h
    refine ⟨⟨h.spells, he, h.nesting, h.closed.mono fun k hk => ?_⟩, h.closed.mono fun k hk => ?_⟩
    · rw [ht, if_neg (by simp)] at hk ⊢
      exact hk.mono (by decide)
    · rw [ht, if_neg (by simp)]
      exact Kind.extends_one_iff.mpr (.inl hk)

theorem ternary_reads (he : Reads expression (Fits room 0 0))
    (hc : Reads condition (Fits (room + 1) 2 2)) :
    Reads (ternary expression condition) (Fits (room + 1) 1 1) where
  sound {ts k e c} hr := by
    rw [ternary, bind_eq_ok] at hr
    obtain ⟨x, c₁, hx, hr⟩ := hr
    obtain ⟨s, rest, rfl, rfl, hf⟩ := hc.sound hx
    obtain ⟨o, c₂, ho, hr⟩ := bind_eq_ok.mp hr
    rcases accept_eq_ok ho with ⟨rfl, rfl, hs⟩ | ⟨q, ts, rfl, rfl, hq, rfl⟩
    · obtain ⟨rfl, rfl⟩ := pure_eq_ok.mp hr
      exact ⟨s, rest, rfl, rfl,
        (fits_condition_iff hf.stratified).mp ⟨hf, hs.mono fun k hk => by simpa using hk⟩⟩
    · obtain ⟨a, c₂, ha, hr⟩ := bind_eq_ok.mp hr
      obtain ⟨sa, rest, rfl, rfl, hfa⟩ := he.sound ha
      obtain ⟨u, c₃, hx, hr⟩ := bind_eq_ok.mp hr
      obtain ⟨d, rest, rfl, hd, rfl⟩ := expect_eq_ok.mp hx
      obtain ⟨b, c₄, hb, hr⟩ := bind_eq_ok.mp hr
      obtain ⟨sb, rest, rfl, rfl, hfb⟩ := he.sound hb
      obtain ⟨rfl, rfl⟩ := pure_eq_ok.mp hr
      have hn : (Expr.ternary x a b).nesting < room + 1 :=
        Nat.max_lt.mpr ⟨hf.nesting, Nat.succ_lt_succ (Nat.max_lt.mpr ⟨hfa.nesting, hfb.nesting⟩)⟩
      exact ⟨s ++ q :: (sa ++ d :: sb), rest, by simp, rfl,
        .ternary hf.spells (by simpa using hq) hfa.spells hd hfb.spells,
        .ternary hf.stratified hfa.stratified hfb.stratified (Nat.le_refl _), hn, hfb.closed_zero⟩
  complete {e s rest} hf k := by
    rcases hf.stratified.equality_or_ternary with h2 | ⟨x, a, b, rfl⟩
    · obtain ⟨hf, hq⟩ := (fits_condition_iff h2).mpr hf
      refine bind_eq_ok.mpr ⟨e, _, hc.complete hf k, ?_⟩
      exact bind_eq_ok.mpr ⟨none, _, accept_of_stops (hq.mono fun k hk => by simpa using hk) k, rfl⟩
    · cases hf.spells with
      | @ternary q d s sa sb _ _ _ hs hq hsa hd hsb =>
        cases hf.stratified with
        | ternary hx ha hb =>
          obtain ⟨hnx, hnab⟩ := Nat.max_lt.mp hf.nesting
          obtain ⟨hna, hnb⟩ := Nat.max_lt.mp (Nat.succ_lt_succ_iff.mp hnab)
          have hfx : Fits (room + 1) 2 2 x s (q :: (sa ++ d :: (sb ++ rest))) := by
            refine ⟨hs, hx, hnx, ?_⟩
            rw [hx.endsInTernary_eq_false (Nat.le_refl _), stops_cons, hq]
            exact Kind.not_extends_question
          have hfa : Fits room 0 0 a sa (d :: (sb ++ rest)) :=
            fits_closing hsa ha hna (by simp [hd])
          have hfb : Fits room 0 0 b sb rest :=
            ⟨hsb, hb, hnb, by simpa [Expr.endsInTernary] using hf.closed⟩
          refine bind_eq_ok.mpr ⟨x, _, by simpa using hc.complete hfx k, ?_⟩
          refine bind_eq_ok.mpr ⟨some q, _, accept_of_fits (by simpa using hq) _ k, ?_⟩
          refine bind_eq_ok.mpr ⟨a, _, he.complete hfa k, ?_⟩
          refine bind_eq_ok.mpr ⟨(), _, expect_eq_ok.mpr ⟨d, _, rfl, hd, rfl⟩, ?_⟩
          exact bind_eq_ok.mpr ⟨b, _, he.complete hfb k, rfl⟩

theorem comma_reads (he : Reads expression (Fits room 0 0)) (ho : Reads operand (Fits room 6 6)) :
    Reads (comma expression operand) (Fits (room + 1) 0 0) :=
  level_reads .comma (ternary_reads he (equality_reads (unary_reads he ho)))

end Reader

open Reader

def Rule.rank : Rule → Nat
  | .expression => 0
  | .operand => 6

/-- **Reading is exact.**  With some room, a rule reads the trees of its rank that fit into the
room, from the tokens that spell them, and nothing else. -/
theorem Rule.read_reads (limit : Int) (room : Nat) (rule : Rule) :
    Reads (rule.read limit room) (Fits room rule.rank rule.rank) := by
  induction room generalizing rule with
  | zero =>
    refine ⟨fun h => ?_, fun h => absurd h.nesting (Nat.not_lt_zero _)⟩
    rw [read] at h
    exact absurd h refuse_ne_ok
  | succ room ih =>
    cases rule with
    | expression => exact nested_reads (comma_reads (ih .expression) (ih .operand))
    | operand => exact nested_reads (unary_reads (ih .expression) (ih .operand))

/-! ### Whole inputs -/

theorem Parser.toEnd_eq_ok {limit : Int} {ts : List Token} {e : Expr} {c : Cursor} :
    toEnd limit ⟨ts, 0⟩ = .ok e c ↔
      Rule.expression.read limit limit.toNat ⟨ts, 0⟩ = .ok e c ∧ Stops (· ≠ .eof) c.rest := by
  rw [toEnd, bind_eq_ok]
  constructor
  · rintro ⟨c₀, c₁, hg, h⟩
    cases hg
    obtain ⟨e', ⟨rest, k⟩, hr, h⟩ := bind_eq_ok.mp h
    obtain ⟨c₂, c₃, hg, h⟩ := bind_eq_ok.mp h
    cases hg
    simp only [Int.natCast_zero, Int.sub_zero] at hr
    cases rest with
    | nil =>
      obtain ⟨rfl, rfl⟩ := pure_eq_ok.mp h
      exact ⟨hr, stops_nil _⟩
    | cons t rest =>
      by_cases hk : t.kind = .eof
      · simp only [List.head?_cons, if_pos hk] at h
        obtain ⟨rfl, rfl⟩ := pure_eq_ok.mp h
        exact ⟨hr, by simpa using hk⟩
      · simp only [List.head?_cons, if_neg hk] at h
        exact absurd h refuse_ne_ok
  · obtain ⟨rest, k⟩ := c
    rintro ⟨hr, hs⟩
    refine ⟨⟨ts, 0⟩, ⟨ts, 0⟩, rfl, bind_eq_ok.mpr ⟨e, ⟨rest, k⟩, by simpa using hr, ?_⟩⟩
    refine bind_eq_ok.mpr ⟨⟨rest, k⟩, ⟨rest, k⟩, rfl, ?_⟩
    cases rest with
    | nil => rfl
    | cons t rest =>
      have hk : t.kind = .eof := by simpa using hs
      simp only [List.head?_cons, if_pos hk]
      rfl

theorem parseTokens_eq_ok {limit : Int} {ts : List Token} {e : Expr} :
    parseTokens ts limit = .ok e ↔ ∃ c, Parser.toEnd limit ⟨ts, 0⟩ = .ok e c := by
  rw [parseTokens, Parser.parse]
  simp only [Parser.new, List.drop_zero]
  cases Parser.toEnd limit ⟨ts, 0⟩ with
  | ok e' c => simp
  | error fault c => simp

/-- A tree that is returned is spelt by the tokens at the front. -/
theorem exists_fits_of_parseTokens {limit : Int} {ts : List Token} {e : Expr}
    (h : parseTokens ts limit = .ok e) :
    ∃ s rest, ts = s ++ rest ∧ Fits limit.toNat 0 0 e s rest := by
  obtain ⟨c, hc⟩ := parseTokens_eq_ok.mp h
  obtain ⟨hread, -⟩ := Parser.toEnd_eq_ok.mp hc
  obtain ⟨s, rest, hsplit, -, hfits⟩ := (Rule.read_reads limit _ .expression).sound hread
  exact ⟨s, rest, hsplit, hfits⟩

/-- What follows the tokens of an input: an end of input, or nothing at all. -/
def EndOfInput (tail : List Token) : Prop := tail = [] ∨ ∃ t : Token, t.kind = .eof ∧ tail = [t]

theorem EndOfInput.kind_eq_eof {tail : List Token} (h : EndOfInput tail) :
    ∀ t ∈ tail, t.kind = .eof := by
  rcases h with rfl | ⟨t, ht, rfl⟩
  · simp
  · simpa using ht

/-- An expression never takes in an end of input. -/
theorem Spells.kind_ne_eof {s : List Token} {e : Expr} (h : Spells s e) {r : Nat}
    (he : e.Stratified r) : ∀ t ∈ s, t.kind ≠ .eof := by
  induction h generalizing r with
  | payload ht => rcases ht with ht | ht <;> simp [ht]
  | trueWord ht => simp [ht]
  | falseWord ht => simp [ht]
  | nilWord ht => simp [ht]
  | grouping hp _ hq ih =>
    cases he with
    | grouping he =>
      simp only [List.mem_cons, List.mem_append, List.not_mem_nil, or_false]
      rintro t (rfl | ht | rfl)
      · simp [hp]
      · exact ih he t ht
      · simp [hq]
  | unary op _ ih =>
    cases he with
    | unary hop he =>
      simp only [List.mem_cons]
      rintro t (rfl | ht)
      · rcases hop with hop | hop <;> simp [hop]
      · exact ih he t ht
  | binary op _ _ ihl ihx =>
    cases he with
    | @binary _ level _ _ _ hop hl _ hx =>
      simp only [List.mem_append, List.mem_cons]
      rintro t (ht | rfl | ht)
      · exact ihl hl t ht
      · intro hk
        rw [hk] at hop
        cases level <;> simp [Level.operators] at hop
      · exact ihx hx t ht
  | ternary _ hq _ hd _ ihc iha ihb =>
    cases he with
    | ternary hc ha hb =>
      simp only [List.mem_append, List.mem_cons]
      rintro t (ht | rfl | ht | rfl | ht)
      · exact ihc hc t ht
      · simp [hq]
      · exact iha ha t ht
      · simp [hd]
      · exact ihb hb t ht

/-- At the end of the input nothing continues an expression. -/
theorem EndOfInput.fits {tail s : List Token} (h : EndOfInput tail) {room : Nat} {e : Expr}
    (hs : Spells s e) (he : e.Stratified 0) (hn : e.nesting < room) : Fits room 0 0 e s tail :=
  fits_closing hs he hn fun t ht => .inr (.inr (h.kind_eq_eof t (List.mem_of_mem_head? ht)))

theorem parseTokens_eq_ok_iff_fits {ts tail : List Token} (hts : ∀ t ∈ ts, t.kind ≠ .eof)
    (htail : EndOfInput tail) {limit : Int} {e : Expr} :
    parseTokens (ts ++ tail) limit = .ok e ↔ Fits limit.toNat 0 0 e ts tail := by
  have hreads := Rule.read_reads limit limit.toNat .expression
  rw [parseTokens_eq_ok]
  constructor
  · rintro ⟨c, h⟩
    obtain ⟨hr, hs⟩ := Parser.toEnd_eq_ok.mp h
    obtain ⟨s, rest, heq, rfl, hf⟩ := hreads.sound hr
    have hse := hf.spells.kind_ne_eof hf.stratified
    suffices s = ts ∧ rest = tail by rwa [this.1, this.2] at hf
    rcases List.append_eq_append_iff.mp heq with ⟨m, hm, hrest⟩ | ⟨m, hm, hrest⟩
    · cases m with
      | nil => simp_all
      | cons a m =>
        have ha : a.kind = .eof := htail.kind_eq_eof a (by simp [hrest])
        exact absurd ha (hse a (by simp [hm]))
    · cases m with
      | nil => simp_all
      | cons a m =>
        have ha : a.kind = .eof := by simpa [hrest] using hs
        exact absurd ha (hts a (by simp [hm]))
  · intro hf
    refine ⟨⟨tail, 0⟩, Parser.toEnd_eq_ok.mpr ⟨hreads.complete hf 0, fun t ht => ?_⟩⟩
    simpa using htail.kind_eq_eof t (List.mem_of_mem_head? ht)

/-- **A parse returns a tree exactly when the tokens spell it, it respects the precedence of the
operators, and it opens fewer levels than the limit**, the whole expression being one. -/
theorem parseTokens_eq_ok_iff (ts tail : List Token) (hts : ∀ t ∈ ts, t.kind ≠ .eof)
    (htail : EndOfInput tail) (limit : Int) (e : Expr) :
    parseTokens (ts ++ tail) limit = .ok e ↔
      Spells ts e ∧ e.Stratified 0 ∧ (e.nesting : Int) < limit := by
  rw [parseTokens_eq_ok_iff_fits hts htail]
  constructor
  · intro h
    exact ⟨h.spells, h.stratified, by have := h.nesting; omega⟩
  · rintro ⟨hs, he, hn⟩
    exact htail.fits hs he (by omega)

/-- In `!nil, true ? false : nil, true` the second comma belongs to the else branch. -/
theorem parseTokens_eq_ok_iff_comma_after_else :
    parseTokens
      ([⟨.bang, "!", .nil, 1⟩, ⟨.keyword .nilWord, "nil", .nil, 1⟩, ⟨.comma, ",", .nil, 1⟩,
        ⟨.keyword .trueWord, "true", .nil, 1⟩, ⟨.question, "?", .nil, 1⟩,
        ⟨.keyword .falseWord, "false", .nil, 1⟩, ⟨.colon, ":", .nil, 1⟩,
        ⟨.keyword .nilWord, "nil", .nil, 1⟩, ⟨.comma, ",", .nil, 2⟩,
        ⟨.keyword .trueWord, "true", .nil, 2⟩] ++ [.eof 2]) 2 =
      .ok (.binary (.unary ⟨.bang, "!", .nil, 1⟩ (.literal .nil)) ⟨.comma, ",", .nil, 1⟩
        (.ternary (.literal (.boolean true)) (.literal (.boolean false))
          (.binary (.literal .nil) ⟨.comma, ",", .nil, 2⟩ (.literal (.boolean true))))) := by
  refine (parseTokens_eq_ok_iff _ _ (by decide) (.inr ⟨.eof 2, rfl, rfl⟩) 2 _).mpr
    ⟨?_, ?_, by decide⟩
  · exact .binary _ (.unary _ (.nilWord rfl))
      (.ternary (.trueWord rfl) rfl (.falseWord rfl) rfl (.binary _ (.nilWord rfl) (.trueWord rfl)))
  · have hop : Kind.comma ∈ Level.comma.operators := by decide
    exact .binary hop (.unary (.inl rfl) (.literal _)) rfl
      (.ternary (.literal _) (.literal _)
        (.binary hop (.literal _) rfl (.literal _) (Nat.le_refl _)) (Nat.le_refl _)) (Nat.le_refl _)

end Lox
