import Lox.Eval

/-!
# The meaning of an expression

`Expr.meaning` is evaluation by plain recursion on the tree: first the operands from left to right,
then the operator, and of a conditional only the chosen branch.  It knows no limit and no chains.
`Expr.eval` instead walks a chain link by link and counts levels.  This file says that the two agree
wherever the limit is high enough (`interpret_eq_meaning`).

What `eval` does to a chain is brought back to the tree first.  `Expr.evalIn` is evaluation at one
of two places: as a node of its own, or as the left operand of a chain, where a chain opens no level
of its own.  Its equations, one for each form of node, are in terms of the node's own children, and
`evalIn_true_binary` is the one that says the walk over the links goes down the left spine as a
recursion would.  Induction on the tree does the rest.

`Expr.evalDepth` is the limit that suffices.  `evalDepth_binary` puts it in terms of the whole
spine: a chain is one level above its operands, of which there is one at the far left and one for
each operator.
-/

namespace Lox

namespace Expr

/-! ### Definitions -/

/-- The value of a tree by plain recursion, or the first fault from left to right. -/
def meaning (strict : Bool) : Expr → Except RuntimeError Value
  | literal v => .ok v
  | grouping inner => inner.meaning strict
  | unary op right => do applyPrefix op (← right.meaning strict)
  | binary left op right => do
    let a ← left.meaning strict
    let b ← right.meaning strict
    applyBinary strict op a b
  | ternary condition thenBranch elseBranch => do
    if (← condition.meaning strict).isTruthy then thenBranch.meaning strict
    else elseBranch.meaning strict

/-- The levels that an evaluation opens.  A chain that is the left operand of a longer chain opens
none of its own. -/
def levels : (inChain : Bool) → Expr → Nat
  | _, literal _ => 1
  | _, grouping inner => 1 + inner.levels false
  | _, unary _ right => 1 + right.levels false
  | _, ternary c a b => 1 + max (c.levels false) (max (a.levels false) (b.levels false))
  | true, binary left _ right => max (left.levels true) (right.levels false)
  | false, binary left _ right => 1 + max (left.levels true) (right.levels false)

def evalDepth (e : Expr) : Nat := e.levels false

/-- The operands of a chain: the one at the far left, then the right operand of each operator. -/
def spine : Expr → List Expr
  | binary left _ right => left.spine ++ [right]
  | e => [e]

theorem levels_true (e : Expr) : e.levels true = (e.spine.map evalDepth).foldr max 0 := by
  induction e with
  | binary left op right ihl =>
    have hmax (xs : List Nat) (y : Nat) : (xs ++ [y]).foldr max 0 = max (xs.foldr max 0) y := by
      induction xs with
      | nil => simp
      | cons x xs ih => simp [ih, Nat.max_assoc]
    rw [levels, ihl, spine, List.map_append, List.map_singleton, hmax, evalDepth]
  | _ => simp [spine, levels, evalDepth]

theorem evalDepth_binary (left right : Expr) (op : Token) :
    (binary left op right).evalDepth =
      1 + ((binary left op right).spine.map evalDepth).foldr max 0 := by
  rw [← levels_true, evalDepth, levels, levels]

/-! ### Evaluation as a recursion on trees -/

/-- Evaluation of a tree as a node of its own, or as the left operand of a chain. -/
def evalIn (c : Config) : (inChain : Bool) → Expr → Eval Value
  | false, e => eval c e
  | true, e => do evalLinks c (← eval c (e.unroll []).1) (e.unroll []).2

/-- What is no chain is evaluated alike at both places. -/
theorem evalIn_eq_eval (c : Config) (inChain : Bool) {e : Expr} (h : e.unroll [] = (e, [])) :
    evalIn c inChain e = eval c e := by
  cases inChain with
  | false => rfl
  | true => simp [evalIn, h, evalLinks]

theorem evalIn_literal (c : Config) (inChain : Bool) (v : Value) :
    evalIn c inChain (literal v) = Eval.nested c.maxEvalDepth (pure v) := by
  rw [evalIn_eq_eval c inChain rfl, eval]

theorem evalIn_grouping (c : Config) (inChain : Bool) (inner : Expr) :
    evalIn c inChain (grouping inner) = Eval.nested c.maxEvalDepth (evalIn c false inner) := by
  rw [evalIn_eq_eval c inChain rfl, eval, evalIn]

theorem evalIn_unary (c : Config) (inChain : Bool) (op : Token) (right : Expr) :
    evalIn c inChain (unary op right) = Eval.nested c.maxEvalDepth (do
      let v ← evalIn c false right
      Eval.ofExcept (applyPrefix op v)) := by
  rw [evalIn_eq_eval c inChain rfl, eval, evalIn]

theorem evalIn_ternary (c : Config) (inChain : Bool) (condition a b : Expr) :
    evalIn c inChain (ternary condition a b) = Eval.nested c.maxEvalDepth (do
      let v ← evalIn c false condition
      if v.isTruthy then evalIn c false a else evalIn c false b) := by
  rw [evalIn_eq_eval c inChain rfl, eval, evalIn, evalIn, evalIn]

theorem unroll_eq (e : Expr) (links : List Link) :
    e.unroll links = ((e.unroll []).1, (e.unroll []).2 ++ links) := by
  induction e generalizing links with
  | binary left op right ihl =>
    rw [unroll, ihl, unroll, ihl [⟨op, right⟩]]
    simp
  | _ => rfl

theorem evalLinks_append (c : Config) (v : Value) (links links' : List Link) :
    evalLinks c v (links ++ links') = (do evalLinks c (← evalLinks c v links) links') := by
  induction links generalizing v with
  | nil => simp [evalLinks]
  | cons link links ih =>
    obtain ⟨op, right⟩ := link
    simp only [List.cons_append, evalLinks, ih, bind_assoc]

/-- **The walk over a chain goes down its left spine**: first the left operand, in the same chain,
then the right one, then the operator. -/
theorem evalIn_true_binary (c : Config) (left right : Expr) (op : Token) :
    evalIn c true (binary left op right) = (do
      let a ← evalIn c true left
      let b ← evalIn c false right
      Eval.ofExcept (applyBinary c.strictComparisons op a b)) := by
  -- the last link is the one of the outermost operator
  have hlinks : (binary left op right).unroll [] =
      ((left.unroll []).1, (left.unroll []).2 ++ [⟨op, right⟩]) := left.unroll_eq _
  simp only [evalIn, hlinks, evalLinks_append, bind_assoc]
  simp [evalLinks]

theorem evalIn_false_binary (c : Config) (left right : Expr) (op : Token) :
    evalIn c false (binary left op right) =
      Eval.nested c.maxEvalDepth (evalIn c true (binary left op right)) := by
  rw [evalIn, eval]
  rfl

/-! ### Enough levels -/

theorem nested_eq_ofExcept {α : Type} {limit : Int} {inner : Eval α} {x : Except RuntimeError α}
    {depth : Nat} (hl : ((depth + 1 : Nat) : Int) ≤ limit)
    (h : inner (depth + 1) = Eval.ofExcept x (depth + 1)) :
    Eval.nested limit inner depth = Eval.ofExcept x depth := by
  rw [Eval.nested, if_neg (by omega), h]
  cases x <;> rfl

theorem bind_eq_ofExcept {α β : Type} {m : Eval α} {f : α → Eval β} {x : Except RuntimeError α}
    {g : α → Except RuntimeError β} {depth : Nat} (h : m depth = Eval.ofExcept x depth)
    (hf : ∀ a, f a depth = Eval.ofExcept (g a) depth) :
    (m >>= f) depth = Eval.ofExcept (x >>= g) depth := by
  show EStateM.bind m f depth = _
  rw [EStateM.bind, h]
  cases x with
  | ok a => exact hf a
  | error fault => rfl

/-- **Evaluation within the limit is plain recursion**, at either place. -/
theorem evalIn_eq_meaning (c : Config) (e : Expr) (inChain : Bool) (depth : Nat)
    (h : ((depth + e.levels inChain : Nat) : Int) ≤ c.maxEvalDepth) :
    evalIn c inChain e depth = Eval.ofExcept (e.meaning c.strictComparisons) depth := by
  induction e generalizing inChain depth with
  | literal v =>
    rw [evalIn_literal]
    exact nested_eq_ofExcept h rfl
  | grouping inner ih =>
    simp only [levels] at h
    rw [evalIn_grouping]
    exact nested_eq_ofExcept (by omega) (ih false _ (by omega))
  | unary op right ih =>
    simp only [levels] at h
    rw [evalIn_unary]
    exact nested_eq_ofExcept (by omega) (bind_eq_ofExcept (ih false _ (by omega)) fun _ => rfl)
  | ternary condition a b ihc iha ihb =>
    simp only [levels] at h
    rw [evalIn_ternary]
    refine nested_eq_ofExcept (by omega) (bind_eq_ofExcept (ihc false _ (by omega)) fun v => ?_)
    split
    · exact iha false _ (by omega)
    · exact ihb false _ (by omega)
  | binary left op right ihl ihr =>
    have hchain (depth : Nat)
        (h : ((depth + max (left.levels true) (right.levels false) : Nat) : Int) ≤ c.maxEvalDepth) :
        evalIn c true (binary left op right) depth =
          Eval.ofExcept ((binary left op right).meaning c.strictComparisons) depth := by
      rw [evalIn_true_binary]
      refine bind_eq_ofExcept (ihl true _ (by omega)) fun a => ?_
      exact bind_eq_ofExcept (ihr false _ (by omega)) fun b => rfl
    cases inChain with
    | true => exact hchain depth h
    | false =>
      simp only [levels] at h
      rw [evalIn_false_binary]
      exact nested_eq_ofExcept (by omega) (hchain _ (by omega))

end Expr

/-- **An evaluator within its limit gives the meaning of the tree**: the same value, or the same
first fault with its operator. -/
theorem interpret_eq_meaning (ev : Evaluator) (e : Expr)
    (h : (e.evalDepth : Int) ≤ ev.config.maxEvalDepth) :
    (ev.interpret e).1 = e.meaning ev.config.strictComparisons := by
  have he := Expr.evalIn_eq_meaning ev.config e false 0 (by simpa [Expr.evalDepth] using h)
  rw [Expr.evalIn] at he
  rw [Evaluator.interpret, he]
  cases e.meaning ev.config.strictComparisons <;> rfl

/-- In `nil - true, (true ? nil : nil / nil)` the subtraction is at fault, though the comma would be
too. -/
theorem interpret_eq_meaning_first_fault :
    ((Evaluator.new { maxEvalDepth := 5 }).interpret
      (.binary (.binary (.literal .nil) ⟨.minus, "-", .nil, 1⟩ (.literal (.boolean true)))
        ⟨.comma, ",", .nil, 2⟩
        (.grouping (.ternary (.literal (.boolean true)) (.literal .nil)
          (.binary (.literal .nil) ⟨.slash, "/", .nil, 3⟩ (.literal .nil)))))).1 =
      .error (.operandsNotNumbers ⟨.minus, "-", .nil, 1⟩) :=
  (interpret_eq_meaning _ _ (by decide)).trans rfl

end Lox
