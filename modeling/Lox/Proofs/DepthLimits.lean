import Lox.Outcome
import Lox.Proofs.Meaning
import Lox.Proofs.Rescan
import Lox.Proofs.Stratified

/-!
# The two limits on depth

A parse limits how deep expressions and prefix operators nest, an evaluation how many levels of the
tree are open at once.  With room for `d` expressions inside each other, the trees that a parse
returns open at most `7 * d - 1` levels, and some open as many.

The bound goes by rank.  On its way from one expression to the next inside it a tree passes at most
seven nodes: a chain of each of the five levels, a conditional, and the brackets or the prefix
operator that lead inside.  `levelBound r n` counts what is left of them from rank `r` on with `n`
expressions still to come, and `Stratified.levelsWithin` is one induction on the tree.

`Tower.tree n` passes all seven, each time.  Its tokens are written out, so that it is the tree of
an actual source, and what is evaluated first in it is always its deepest path.
-/

namespace Lox

namespace Expr

/-! ### A tree opens no more levels than its nesting allows -/

/-- The levels that suffice for trees of a rank that nest up to `n` expressions.  Without a nested
expression there is no conditional, so that between commas and equalities there is nothing. -/
def levelBound (rank : Nat) : Nat → Nat
  | 0 => if 2 ≤ rank then 7 - rank else 6 - rank
  | n + 1 => 7 * (n + 1) + 6 - rank

theorem levelBound_zero (n : Nat) : levelBound 0 n = 7 * n + 6 := by
  cases n <;> rfl

theorem levelBound_anti {r r' : Nat} (h : r ≤ r') (n : Nat) :
    levelBound r' n ≤ levelBound r n := by
  cases n with
  | zero =>
    simp only [levelBound]
    split <;> split <;> omega
  | succ n =>
    simp only [levelBound]
    omega

/-- A chain is one level above its operands. -/
theorem one_add_levelBound_chain (level : Level) (n : Nat) :
    1 + levelBound (level.rank + 1) n ≤ levelBound level.rank n := by
  cases n with
  | zero => cases level <;> decide
  | succ n => cases level <;> simp only [levelBound, Level.rank] <;> omega

theorem one_add_levelBound_nested (n : Nat) : 1 + levelBound 0 n ≤ levelBound 6 (n + 1) := by
  cases n with
  | zero => decide
  | succ n =>
    simp only [levelBound]
    omega

theorem one_add_levelBound_condition (n : Nat) :
    1 + levelBound 2 (n + 1) ≤ levelBound 1 (n + 1) := by
  simp only [levelBound]
  omega

/-- The levels of a tree are within the bound for its rank.  As the left operand of a chain the tree
needs no more than an operand of that chain. -/
structure LevelsWithin (r n : Nat) (e : Expr) : Prop where
  alone : r ≤ 6 → e.levels false ≤ levelBound r n
  inChain : r ≤ 5 → e.endsInTernary = false → e.levels true ≤ levelBound (r + 1) n

theorem LevelsWithin.of_operand {e : Expr} {n : Nat} (hchain : e.levels true = e.levels false)
    (h : e.levels false ≤ levelBound 6 n) (r : Nat) : LevelsWithin r n e := by
  refine ⟨fun hr => h.trans (levelBound_anti hr n), fun hr _ => ?_⟩
  rw [hchain]
  exact h.trans (levelBound_anti (by omega) n)

/-- **The levels of a tree are bounded by its rank and nesting.** -/
theorem Stratified.levelsWithin {r : Nat} {e : Expr} (h : e.Stratified r) {n : Nat}
    (hn : e.nesting ≤ n) : LevelsWithin r n e := by
  induction h generalizing n with
  | literal v =>
    refine .of_operand rfl ?_ _
    rw [levels]
    cases n with
    | zero => decide
    | succ n =>
      simp only [levelBound]
      omega
  | grouping _ ih =>
    simp only [nesting] at hn
    obtain ⟨m, rfl⟩ : ∃ m, n = m + 1 := ⟨n - 1, by omega⟩
    have hinner := (ih (n := m) (by omega)).alone (by decide)
    refine .of_operand rfl ?_ _
    rw [levels]
    exact (Nat.add_le_add_left hinner 1).trans (one_add_levelBound_nested m)
  | unary _ _ ih =>
    simp only [nesting] at hn
    obtain ⟨m, rfl⟩ : ∃ m, n = m + 1 := ⟨n - 1, by omega⟩
    have hright := (ih (n := m) (by omega)).alone (by decide)
    have hinner := hright.trans (levelBound_anti (Nat.zero_le 6) m)
    refine .of_operand rfl ?_ _
    rw [levels]
    exact (Nat.add_le_add_left hinner 1).trans (one_add_levelBound_nested m)
  | @binary r level l x op _ _ hl _ hr ihl ihx =>
    simp only [nesting] at hn
    have hrank : level.rank ≤ 5 := by cases level <;> decide
    have hleft := (ihl (n := n) (by omega)).inChain hrank hl
    have hright := (ihx (n := n) (by omega)).alone (by omega)
    have hchain : max (l.levels true) (x.levels false) ≤ levelBound (level.rank + 1) n :=
      Nat.max_le.mpr ⟨hleft, hright⟩
    refine ⟨fun _ => ?_, fun _ _ => ?_⟩
    · calc 1 + max (l.levels true) (x.levels false)
        _ ≤ 1 + levelBound (level.rank + 1) n := Nat.add_le_add_left hchain 1
        _ ≤ levelBound level.rank n := one_add_levelBound_chain level n
        _ ≤ levelBound r n := levelBound_anti hr n
    · exact hchain.trans (levelBound_anti (by omega) n)
  | @ternary r c a b _ _ _ hr ihc iha ihb =>
    simp only [nesting] at hn
    -- the branches are nested, the condition is not
    obtain ⟨m, rfl⟩ : ∃ m, n = m + 1 := ⟨n - 1, by omega⟩
    have hc := (ihc (n := m + 1) (by omega)).alone (by decide)
    have ha := (iha (n := m) (by omega)).alone (by decide)
    have hb := (ihb (n := m) (by omega)).alone (by decide)
    have hbranch : levelBound 0 m ≤ levelBound 2 (m + 1) := by
      have hnested := one_add_levelBound_nested m
      have hdown := levelBound_anti (show 2 ≤ 6 by decide) (m + 1)
      omega
    have hinner : max (c.levels false) (max (a.levels false) (b.levels false)) ≤
        levelBound 2 (m + 1) :=
      Nat.max_le.mpr ⟨hc, Nat.max_le.mpr ⟨ha.trans hbranch, hb.trans hbranch⟩⟩
    refine ⟨fun _ => ?_, fun _ ht => absurd ht (by simp [endsInTernary])⟩
    calc 1 + max (c.levels false) (max (a.levels false) (b.levels false))
      _ ≤ 1 + levelBound 2 (m + 1) := Nat.add_le_add_left hinner 1
      _ ≤ levelBound 1 (m + 1) := one_add_levelBound_condition m
      _ ≤ levelBound r (m + 1) := levelBound_anti hr _

/-! ### Enough levels for every tree that is parsed -/

theorem applyPrefix_ne_nestedTooDeeply (op : Token) (v : Value) (limit : Int) :
    applyPrefix op v ≠ .error (.nestedTooDeeply limit) := by
  unfold applyPrefix
  split <;> simp

theorem applyBinary_ne_nestedTooDeeply (strict : Bool) (op : Token) (a b : Value) (limit : Int) :
    applyBinary strict op a b ≠ .error (.nestedTooDeeply limit) := by
  simp only [applyBinary, add, onNumbers, compareBy]
  repeat' split
  all_goals simp

theorem bind_ne_error {α β : Type} {m : Except RuntimeError α} {f : α → Except RuntimeError β}
    {fault : RuntimeError} (h : m ≠ .error fault) (hf : ∀ a, f a ≠ .error fault) :
    (m >>= f) ≠ .error fault := by
  cases m with
  | error fault' => exact fun he => h (congrArg Except.error (Except.error.inj he))
  | ok a => exact hf a

theorem meaning_ne_nestedTooDeeply (strict : Bool) (e : Expr) (limit : Int) :
    e.meaning strict ≠ .error (.nestedTooDeeply limit) := by
  induction e with
  | literal v => simp [meaning]
  | grouping inner ih => exact ih
  | unary op right ih =>
    exact bind_ne_error ih fun v => applyPrefix_ne_nestedTooDeeply op v limit
  | binary left op right ihl ihr =>
    refine bind_ne_error ihl fun a => bind_ne_error ihr fun b => ?_
    exact applyBinary_ne_nestedTooDeeply strict op a b limit
  | ternary condition a b ihc iha ihb =>
    refine bind_ne_error ihc fun v => ?_
    split
    · exact iha
    · exact ihb

end Expr

theorem evaluate_of_evalIn {config : Config} {e : Expr} {x : Except RuntimeError Value}
    (h : Expr.evalIn config false e 0 = Eval.ofExcept x 0) : evaluate config e = x := by
  rw [Expr.evalIn] at h
  rw [evaluate, Evaluator.interpret, Evaluator.new, h]
  cases x <;> rfl

theorem evaluate_ne_nestedTooDeeply {config : Config} {e : Expr}
    (h : (e.evalDepth : Int) ≤ config.maxEvalDepth) (limit : Int) :
    evaluate config e ≠ .error (.nestedTooDeeply limit) := by
  have hmeaning := Expr.evalIn_eq_meaning config e false 0 (by simpa [Expr.evalDepth] using h)
  rw [evaluate_of_evalIn hmeaning]
  exact e.meaning_ne_nestedTooDeeply _ limit

theorem parseSource_eq_ok {config : Config} {source : String} {e : Expr} :
    parseSource config source = .ok e ↔
      ∃ ts, tokenize source = .ok ts ∧ parseTokens ts config.maxNestingDepth = .ok e := by
  rw [parseSource]
  cases htokens : tokenize source with
  | error fault => simp
  | ok ts => cases hparse : parseTokens ts config.maxNestingDepth <;> simp [hparse]

theorem stratified_of_parseTokens {ts : List Token} {limit : Int} {e : Expr}
    (h : parseTokens ts limit = .ok e) : e.Stratified 0 ∧ e.nesting < limit.toNat := by
  obtain ⟨s, rest, -, hfits⟩ := exists_fits_of_parseTokens h
  exact ⟨hfits.stratified, hfits.nesting⟩

/-! ### A tree that opens all of them -/

namespace Expr

/-- The evaluation of a tree at a depth stops for want of levels. -/
def TooDeep (c : Config) (e : Expr) (depth : Nat) : Prop :=
  evalIn c false e depth = .error (.nestedTooDeeply c.maxEvalDepth) depth

section

variable {c : Config} {depth : Nat}

theorem nested_tooDeep {inner : Eval Value}
    (h : inner (depth + 1) = .error (.nestedTooDeeply c.maxEvalDepth) (depth + 1)) :
    Eval.nested c.maxEvalDepth inner depth = .error (.nestedTooDeeply c.maxEvalDepth) depth := by
  rw [Eval.nested]
  split
  · rfl
  · rw [h]
    rfl

theorem bind_tooDeep {α : Type} {m : Eval α} {f : α → Eval Value}
    (h : m depth = .error (.nestedTooDeeply c.maxEvalDepth) depth) :
    (m >>= f) depth = .error (.nestedTooDeeply c.maxEvalDepth) depth := by
  show EStateM.bind m f depth = _
  rw [EStateM.bind, h]

theorem tooDeep_literal (v : Value) (h : c.maxEvalDepth < (depth + 1 : Nat)) :
    TooDeep c (literal v) depth := by
  rw [TooDeep, evalIn_literal, Eval.nested, if_pos h]

theorem TooDeep.grouping {inner : Expr} (h : TooDeep c inner (depth + 1)) :
    TooDeep c (grouping inner) depth := by
  rw [TooDeep, evalIn_grouping]
  exact nested_tooDeep h

theorem TooDeep.ternary {condition : Expr} (a b : Expr) (h : TooDeep c condition (depth + 1)) :
    TooDeep c (ternary condition a b) depth := by
  rw [TooDeep, evalIn_ternary]
  exact nested_tooDeep (bind_tooDeep h)

/-- On the left a literal is either too deep itself, or it has its value. -/
theorem TooDeep.binary (v : Value) (op : Token) {x : Expr} (h : TooDeep c x (depth + 1)) :
    TooDeep c (binary (literal v) op x) depth := by
  rw [TooDeep, evalIn_false_binary, evalIn_true_binary]
  refine nested_tooDeep ?_
  by_cases hlimit : c.maxEvalDepth < (depth + 1 + 1 : Nat)
  · refine bind_tooDeep ?_
    rw [evalIn_literal, Eval.nested, if_pos hlimit]
  · have hleft : evalIn c true (literal v) (depth + 1) = .ok v (depth + 1) := by
      rw [evalIn_literal, Eval.nested, if_neg hlimit]
      rfl
    show EStateM.bind _ _ (depth + 1) = _
    rw [EStateM.bind, hleft]
    exact bind_tooDeep h

end

end Expr

namespace Tower

open Lox.Expr Grapheme

def one : Token := ⟨.number, "1", .number (Decimal.ofText ['1']).toFloat, 1⟩

def comma : Token := ⟨.comma, ",", .nil, 1⟩

def equal : Token := ⟨.equalEqual, "==", .nil, 1⟩

def greater : Token := ⟨.greater, ">", .nil, 1⟩

def minus : Token := ⟨.minus, "-", .nil, 1⟩

def star : Token := ⟨.star, "*", .nil, 1⟩

def opening : Token := ⟨.leftParen, "(", .nil, 1⟩

def closing : Token := ⟨.rightParen, ")", .nil, 1⟩

def question : Token := ⟨.question, "?", .nil, 1⟩

def colon : Token := ⟨.colon, ":", .nil, 1⟩

/-- `1 op e` -/
def link (op : Token) (e : Expr) : Expr := .binary (.literal one.literal) op e

/-- `1 == 1 > 1 - 1 * e` -/
def condition (e : Expr) : Expr := link equal (link greater (link minus (link star e)))

/-- `1, 1 == 1 > 1 - 1 * (…) ? 1 : 1`, with the tower one lower in the brackets. -/
def tree : Nat → Expr
  | 0 => link comma (condition (.literal one.literal))
  | n + 1 =>
    link comma (.ternary (condition (.grouping (tree n))) (.literal one.literal)
      (.literal one.literal))

def conditionTokens (ts : List Token) : List Token :=
  one :: equal :: one :: greater :: one :: minus :: one :: star :: ts

def tokens : Nat → List Token
  | 0 => one :: comma :: conditionTokens [one]
  | n + 1 =>
    one :: comma :: (conditionTokens (opening :: (tokens n ++ [closing])) ++
      question :: ([one] ++ colon :: [one]))

def source (n : Nat) : String := String.ofList ((tokens n).flatMap (·.lexeme.toList))

theorem spells_one : Spells [one] (.literal one.literal) := .payload (.inl rfl)

theorem spells_link (op : Token) {ts : List Token} {e : Expr} (h : Spells ts e) :
    Spells (one :: op :: ts) (link op e) :=
  .binary op spells_one h

theorem spells_condition {ts : List Token} {e : Expr} (h : Spells ts e) :
    Spells (conditionTokens ts) (condition e) :=
  spells_link _ (spells_link _ (spells_link _ (spells_link _ h)))

theorem spells_tree (n : Nat) : Spells (tokens n) (tree n) := by
  induction n with
  | zero => exact spells_link _ (spells_condition spells_one)
  | succ n ih =>
    exact spells_link _
      (.ternary (spells_condition (.grouping rfl ih rfl)) rfl spells_one rfl spells_one)

theorem stratified_link (level : Level) {op : Token} (hop : op.kind ∈ level.operators) {e : Expr}
    (h : e.Stratified (level.rank + 1)) : (link op e).Stratified level.rank :=
  .binary hop (.literal _) rfl h (Nat.le_refl _)

theorem stratified_condition {e : Expr} (h : e.Stratified 6) : (condition e).Stratified 2 := by
  have hstar : (link star e).Stratified Level.factor.rank := stratified_link .factor (by decide) h
  have hminus : (link minus (link star e)).Stratified Level.term.rank :=
    stratified_link .term (by decide) hstar
  have hgreater : (link greater (link minus (link star e))).Stratified Level.comparison.rank :=
    stratified_link .comparison (by decide) hminus
  exact stratified_link .equality (by decide) hgreater

theorem stratified_tree (n : Nat) : (tree n).Stratified 0 := by
  have hcomma : comma.kind ∈ Level.comma.operators := by decide
  induction n with
  | zero =>
    have hcondition := stratified_condition (.literal one.literal)
    exact stratified_link .comma hcomma (hcondition.mono (by decide))
  | succ n ih =>
    have hcondition := stratified_condition (.grouping ih)
    exact stratified_link .comma hcomma
      (.ternary hcondition (.literal _) (.literal _) (Nat.le_refl _))

theorem nesting_tree (n : Nat) : (tree n).nesting = n := by
  induction n with
  | zero => rfl
  | succ n ih => simp [tree, link, condition, nesting, ih]

theorem tooDeep_condition {c : Config} {e : Expr} {depth : Nat} (h : TooDeep c e (depth + 4)) :
    TooDeep c (condition e) depth :=
  .binary _ _ (.binary _ _ (.binary _ _ (.binary _ _ h)))

/-- A tower of `n` stories on the ground floor opens seven levels for each story. -/
theorem tooDeep_tree {c : Config} (n : Nat) {depth : Nat}
    (h : c.maxEvalDepth < (depth + 7 * n + 6 : Nat)) : TooDeep c (tree n) depth := by
  induction n generalizing depth with
  | zero => exact .binary _ _ (tooDeep_condition (tooDeep_literal _ h))
  | succ n ih =>
    have hinner : TooDeep c (tree n) (depth + 7) := by
      apply ih
      omega
    exact .binary _ _ (.ternary _ _ (tooDeep_condition hinner.grouping))

/-! #### The text is scanned as the tokens -/

theorem cut_one {rest : List Grapheme}
    (h : ∀ g ∈ rest.head?, g.isDigit = false ∧ g ≠ single '.') : Cut one.segment rest :=
  .number ⟨single '1', [], rfl, by decide, by simp, by simp⟩
    fun g hg => ⟨(h g hg).1, fun hp => absurd hp (h g hg).2⟩

/-- The tokens that are one character each and stand before anything. -/
def signs : List Token := [comma, minus, star, opening, closing, question, colon]

theorem cut_sign {t : Token} (h : t ∈ signs) (rest : List Grapheme) : Cut t.segment rest := by
  simp only [signs, List.mem_cons, List.not_mem_nil, or_false] at h
  rcases h with rfl | rfl | rfl | rfl | rfl | rfl | rfl <;> exact .single (by decide)

theorem cut_equal (rest : List Grapheme) : Cut equal.segment rest := by
  have hm : ('=', Kind.equal, Kind.equalEqual) ∈ Kind.pairs := by decide
  exact .long hm

theorem cut_greater (ts : List Token) (rest : List Grapheme) :
    Cut greater.segment ((one :: ts).flatMap Token.graphemes ++ rest) := by
  have hm : ('>', Kind.greater, Kind.greaterEqual) ∈ Kind.pairs := by decide
  refine .short hm ?_
  rintro g ⟨⟩
  decide

theorem cut_one_before {t : Token} (h : t ∈ equal :: greater :: signs) (ts : List Token)
    (rest : List Grapheme) : Cut one.segment ((t :: ts).flatMap Token.graphemes ++ rest) := by
  simp only [signs, List.mem_cons, List.not_mem_nil, or_false] at h
  refine cut_one ?_
  rcases h with rfl | rfl | rfl | rfl | rfl | rfl | rfl | rfl | rfl <;> rintro g ⟨⟩ <;> decide

theorem standsBefore_condition {ts : List Token} {rest : List Grapheme}
    (h : StandsBefore ts rest) : StandsBefore (conditionTokens ts) rest :=
  ⟨cut_one_before (by simp) _ _, cut_equal _, cut_one_before (by simp) _ _, cut_greater _ _,
    cut_one_before (by simp [signs]) _ _, cut_sign (by simp [signs]) _,
    cut_one_before (by simp [signs]) _ _, cut_sign (by simp [signs]) _, h⟩

theorem standsBefore_tokens (n : Nat) {rest : List Grapheme}
    (h : ∀ g ∈ rest.head?, g.isDigit = false ∧ g ≠ single '.') : StandsBefore (tokens n) rest := by
  induction n generalizing rest with
  | zero =>
    refine ⟨cut_one_before (by simp [signs]) _ _, cut_sign (by simp [signs]) _, ?_⟩
    exact standsBefore_condition ⟨cut_one h, trivial⟩
  | succ n ih =>
    refine ⟨cut_one_before (by simp [signs]) _ _, cut_sign (by simp [signs]) _, ?_⟩
    rw [standsBefore_append]
    constructor
    · refine standsBefore_condition ⟨cut_sign (by simp [signs]) _, ?_⟩
      rw [standsBefore_append]
      refine ⟨ih ?_, cut_sign (by simp [signs]) _, trivial⟩
      rintro g ⟨⟩
      decide
    · exact ⟨cut_sign (by simp [signs]) _, cut_one_before (by simp [signs]) _ _,
        cut_sign (by simp [signs]) _, cut_one h, trivial⟩

theorem mem_of_mem_tokens (n : Nat) : ∀ t ∈ tokens n, t ∈ one :: equal :: greater :: signs := by
  induction n with
  | zero => simp [tokens, conditionTokens, signs]
  | succ n ih =>
    intro t ht
    simp only [tokens, conditionTokens, signs] at ht ih ⊢
    grind

theorem tokenize_source (n : Nat) : tokenize (source n) = .ok (tokens n ++ [.eof 1]) := by
  have hplain : ∀ t ∈ one :: equal :: greater :: signs,
      t.line = 1 ∧ t.lexeme.toList.all (IsPlain ·) = true := by decide
  refine tokenize_of_standsBefore (standsBefore_tokens n (by simp)) fun t ht => ?_
  obtain ⟨hline, hchars⟩ := hplain t (mem_of_mem_tokens n t ht)
  exact ⟨hline, fun c hc => of_decide_eq_true (List.all_eq_true.mp hchars c hc)⟩

theorem parseSource_source {config : Config} {n : Nat} (h : (n : Int) < config.maxNestingDepth) :
    parseSource config (source n) = .ok (tree n) := by
  have hkinds : ∀ t ∈ one :: equal :: greater :: signs, t.kind ≠ .eof := by decide
  have hend : EndOfInput [.eof 1] := .inr ⟨_, rfl, rfl⟩
  have hroom : (tree n).nesting < config.maxNestingDepth.toNat := by
    rw [nesting_tree]
    omega
  have hparse : parseTokens (tokens n ++ [.eof 1]) config.maxNestingDepth = .ok (tree n) :=
    (parseTokens_eq_ok_iff_fits (fun t ht => hkinds t (mem_of_mem_tokens n t ht)) hend).mpr
      (hend.fits (spells_tree n) (stratified_tree n) hroom)
  exact parseSource_eq_ok.mpr ⟨_, tokenize_source n, hparse⟩

theorem evaluate_tree {config : Config} {n : Nat} (h : config.maxEvalDepth < 7 * (n : Int) + 6) :
    evaluate config (tree n) = .error (.nestedTooDeeply config.maxEvalDepth) := by
  have hdeep : TooDeep config (tree n) 0 := tooDeep_tree n (by omega)
  exact evaluate_of_evalIn hdeep

end Tower

/-- **Seven levels for each expression that may nest, less one, are enough, and no fewer are.**  The
default settings allow fewer. -/
theorem evaluation_limit_tight :
    (∀ (ts : List Token) (d : Int) (e : Expr), parseTokens ts d = .ok e →
      ∀ config : Config, 7 * d - 1 ≤ config.maxEvalDepth →
        ∀ fault, evaluate config e = .error fault → fault.code ≠ "R004") ∧
    (∀ d : Int, 1 ≤ d → ∃ source e,
      (∀ config : Config, config.maxNestingDepth = d → parseSource config source = .ok e) ∧
      ∀ config : Config, config.maxEvalDepth ≤ 7 * d - 2 →
        ∃ fault, evaluate config e = .error fault ∧ fault.code = "R004") ∧
    ∃ source e fault, parseSource {} source = .ok e ∧ evaluate {} e = .error fault ∧
      fault.code = "R004" := by
  refine ⟨?_, ?_, ?_⟩
  · intro ts d e hparse config hlimit fault hfault hcode
    obtain ⟨hstratified, hnesting⟩ := stratified_of_parseTokens hparse
    have hwithin := hstratified.levelsWithin (n := d.toNat - 1) (by omega)
    have hlevels : e.evalDepth ≤ 7 * (d.toNat - 1) + 6 :=
      (hwithin.alone (by decide)).trans_eq (Expr.levelBound_zero _)
    have henough : (e.evalDepth : Int) ≤ config.maxEvalDepth := by omega
    cases fault with
    | nestedTooDeeply limit => exact evaluate_ne_nestedTooDeeply henough limit hfault
    | _ => simp [RuntimeError.code] at hcode
  · intro d hd
    refine ⟨Tower.source (d.toNat - 1), Tower.tree (d.toNat - 1), ?_, ?_⟩
    · intro config hconfig
      exact Tower.parseSource_source (by omega)
    · intro config hconfig
      exact ⟨_, Tower.evaluate_tree (by omega), rfl⟩
  · exact ⟨Tower.source 28, Tower.tree 28, _, Tower.parseSource_source (by decide),
      Tower.evaluate_tree (by decide), rfl⟩

/-- The text without any nested expression that needs six levels. -/
theorem evaluation_limit_tight_one_expression :
    ∃ source e, parseSource { maxNestingDepth := 1 } source = .ok e ∧
      (∃ fault, evaluate { maxEvalDepth := 5 } e = .error fault ∧ fault.code = "R004") ∧
      ∀ fault, evaluate { maxEvalDepth := 6 } e = .error fault → fault.code ≠ "R004" := by
  obtain ⟨source, e, hsource, hdeep⟩ := evaluation_limit_tight.2.1 1 (by decide)
  have hparse := hsource { maxNestingDepth := 1 } rfl
  obtain ⟨ts, -, htokens⟩ := parseSource_eq_ok.mp hparse
  exact ⟨source, e, hparse, hdeep _ (by decide),
    evaluation_limit_tight.1 ts 1 e htokens _ (by decide)⟩

end Lox
