import Lox.Proofs.InStep
import Lox.Proofs.Meaning

/-!
# What the limit on evaluation changes

The limit on evaluation turns the outcome of a tree into a fault of its own and into nothing else.
Two evaluations of a tree go in step until the one under the lower limit stops (`Follows`), whether
a node is evaluated by itself or as part of a chain.  Where a level is opened the two limits meet;
everywhere else the evaluations are made of parts that are in step.

The depth is the whole state of an evaluation, and to be in step includes that each level that was
opened is closed again, however the evaluation ends.  So an evaluator finds the same depth before
every call, and its calls do not depend on each other (`Evaluator.calls_eq`).
-/

namespace Lox

namespace Eval

/-- **The first evaluation follows the second.**  The two are in step until the first one stops with
a fault of the kind given, and the second closes the levels it opened. -/
def Follows {α : Type} (stops : RuntimeError → Prop) (m m' : Eval α) : Prop :=
  InStep stops (fun depth depth' => depth' = depth) m m'

variable {stops : RuntimeError → Prop} {α β : Type}

theorem Follows.bind {m m' : Eval α} {f f' : α → Eval β} (h : Follows stops m m')
    (hf : ∀ a, Follows stops (f a) (f' a)) : Follows stops (m >>= f) (m' >>= f') :=
  InStep.bind (fun _ => rfl) (fun h h' => h'.trans h) h hf

theorem ofExcept_follows {x x' : Except RuntimeError α}
    (h : x = x' ∨ ∃ fault, x = .error fault ∧ stops fault) :
    Follows stops (ofExcept x) (ofExcept x') where
  onward depth := by cases x' <;> rfl
  agrees depth := by
    rcases h with rfl | ⟨fault, rfl, hfault⟩
    · exact .inl rfl
    · right
      refine ⟨fault, depth, rfl, hfault, ?_⟩
      cases x' <;> rfl

theorem pure_follows (a : α) : Follows stops (pure a : Eval α) (pure a) :=
  InStep.refl fun _ => rfl

theorem finalState_nested_of_le {limit : Int} (m : Eval α) {depth : Nat}
    (h : ¬ limit < (depth + 1 : Nat)) :
    finalState (nested limit m depth) = finalState (m (depth + 1)) - 1 := by
  rw [nested, if_neg h]
  cases m (depth + 1) <;> rfl

theorem finalState_nested {limit : Int} {m : Eval α} {depth : Nat}
    (h : finalState (m (depth + 1)) = depth + 1) : finalState (nested limit m depth) = depth := by
  by_cases hdeep : limit < (depth + 1 : Nat)
  · rw [nested, if_pos hdeep]
    rfl
  · rw [finalState_nested_of_le m hdeep, h, Nat.add_sub_cancel]

/-- **The lower limit is the first to stop an evaluation that opens a level.** -/
theorem nested_follows {limit limit' : Int} (hlimit : limit ≤ limit')
    (hstops : limit < limit' → stops (.nestedTooDeeply limit)) {m m' : Eval α}
    (h : Follows stops m m') : Follows stops (nested limit m) (nested limit' m') where
  onward depth := finalState_nested (h.onward (depth + 1))
  agrees depth := by
    by_cases hdeep : limit < (depth + 1 : Nat)
    · rcases Int.lt_or_eq_of_le hlimit with hlt | rfl
      · right
        refine ⟨.nestedTooDeeply limit, depth, ?_, hstops hlt, ?_⟩
        · rw [nested, if_pos hdeep]
        · exact finalState_nested (h.onward (depth + 1))
      · left
        rw [nested, nested, if_pos hdeep, if_pos hdeep]
    · have hdeep' : ¬ limit' < (depth + 1 : Nat) := by omega
      rcases h.agrees (depth + 1) with heq | ⟨fault, depth₁, hstop, hfault, hmoves⟩
      · left
        rw [nested, nested, if_neg hdeep, if_neg hdeep', heq]
      · right
        refine ⟨fault, depth₁ - 1, ?_, hfault, ?_⟩
        · rw [nested, if_neg hdeep, hstop]
        · rw [finalState_nested_of_le m' hdeep', hmoves]

end Eval

open Eval

/-- **Evaluations of a tree under two settings go in step**, at either place of the tree.  The limit
of the first is no higher, and its operators do what those of the second do, unless they stop. -/
theorem Expr.evalIn_follows {stops : RuntimeError → Prop} {c c' : Config}
    (hlimit : c.maxEvalDepth ≤ c'.maxEvalDepth)
    (hstops : c.maxEvalDepth < c'.maxEvalDepth → stops (.nestedTooDeeply c.maxEvalDepth))
    (hop : ∀ op a b,
      applyBinary c.strictComparisons op a b = applyBinary c'.strictComparisons op a b ∨
        ∃ fault, applyBinary c.strictComparisons op a b = .error fault ∧ stops fault)
    (e : Expr) (inChain : Bool) :
    Follows stops (evalIn c inChain e) (evalIn c' inChain e) := by
  induction e generalizing inChain with
  | literal v =>
    rw [evalIn_literal, evalIn_literal]
    exact nested_follows hlimit hstops (pure_follows v)
  | grouping inner ih =>
    rw [evalIn_grouping, evalIn_grouping]
    exact nested_follows hlimit hstops (ih false)
  | unary op right ih =>
    rw [evalIn_unary, evalIn_unary]
    apply nested_follows hlimit hstops
    exact (ih false).bind fun v => ofExcept_follows (.inl rfl)
  | ternary condition a b ihc iha ihb =>
    rw [evalIn_ternary, evalIn_ternary]
    apply nested_follows hlimit hstops
    refine (ihc false).bind fun v => ?_
    split
    · exact iha false
    · exact ihb false
  | binary left op right ihl ihr =>
    have hchain : Follows stops (evalIn c true (binary left op right))
        (evalIn c' true (binary left op right)) := by
      rw [evalIn_true_binary, evalIn_true_binary]
      refine (ihl true).bind fun a => (ihr false).bind fun b => ?_
      exact ofExcept_follows (hop op a b)
    cases inChain with
    | true => exact hchain
    | false =>
      rw [evalIn_false_binary, evalIn_false_binary]
      exact nested_follows hlimit hstops hchain

theorem evaluate_of_follows {stops : RuntimeError → Prop} {c c' : Config} {e : Expr}
    (h : Follows stops (e.evalIn c false) (e.evalIn c' false)) :
    evaluate c e = evaluate c' e ∨ ∃ fault, evaluate c e = .error fault ∧ stops fault := by
  rcases h.agrees 0 with heq | ⟨fault, depth, hstop, hfault, -⟩
  · left
    rw [Expr.evalIn, Expr.evalIn] at heq
    rw [evaluate, evaluate, Evaluator.interpret, Evaluator.interpret, Evaluator.new, Evaluator.new,
      heq]
    cases e.eval c' 0 <;> rfl
  · right
    rw [Expr.evalIn] at hstop
    refine ⟨fault, ?_, hfault⟩
    rw [evaluate, Evaluator.interpret, Evaluator.new, hstop]

/-! ### One evaluator for many trees -/

namespace Evaluator

def calls (ev : Evaluator) : List Expr → List (Except RuntimeError Value × Evaluator)
  | [] => []
  | e :: es => ev.interpret e :: (ev.interpret e).2.calls es

theorem depth_interpret (ev : Evaluator) (e : Expr) :
    (ev.interpret e).2 = ⟨ev.config, 0⟩ := by
  have hself : Follows (fun _ => False) (e.evalIn ev.config false) (e.evalIn ev.config false) :=
    e.evalIn_follows (Int.le_refl _) (fun h => absurd h (Int.lt_irrefl _)) (fun _ _ _ => .inl rfl)
      false
  have hdepth : finalState (e.evalIn ev.config false 0) = 0 := hself.onward 0
  rw [Expr.evalIn] at hdepth
  rw [interpret]
  cases hrun : e.eval ev.config 0 with
  | ok v depth =>
    rw [hrun] at hdepth
    obtain rfl : depth = 0 := hdepth
    rfl
  | error fault depth =>
    rw [hrun] at hdepth
    obtain rfl : depth = 0 := hdepth
    rfl

/-- **Calls do not depend on each other**, whatever they come to. -/
theorem calls_eq (ev : Evaluator) (es : List Expr) :
    ev.calls es = es.map fun e => (((Evaluator.new ev.config).interpret e).1, ⟨ev.config, 0⟩) := by
  induction es generalizing ev with
  | nil => rfl
  | cons e es ih =>
    have hcall : ev.interpret e =
        (((Evaluator.new ev.config).interpret e).1, ⟨ev.config, 0⟩) :=
      Prod.ext rfl (ev.depth_interpret e)
    rw [calls, ih, depth_interpret, List.map_cons, hcall]

end Evaluator

/-- **A limit on evaluation turns outcomes into its own fault and nothing else, and an evaluator
keeps nothing from one call to the next.** -/
theorem evaluation_limit_only_cuts :
    (∀ (config : Config) (limit limit' : Int) (e : Expr), limit ≤ limit' →
      evaluate { config with maxEvalDepth := limit } e =
          evaluate { config with maxEvalDepth := limit' } e ∨
        ∃ fault, evaluate { config with maxEvalDepth := limit } e = .error fault ∧
          fault.code = "R004") ∧
    ∀ (config : Config) (es : List Expr), (Evaluator.new config).calls es =
      es.map fun e => (((Evaluator.new config).interpret e).1, ⟨config, 0⟩) := by
  refine ⟨?_, ?_⟩
  · intro config limit limit' e h
    have hfollows : Follows (fun fault => fault.code = "R004")
        (e.evalIn { config with maxEvalDepth := limit } false)
        (e.evalIn { config with maxEvalDepth := limit' } false) := by
      apply e.evalIn_follows h
      · intro _
        rfl
      · intro op a b
        exact .inl rfl
    exact evaluate_of_follows hfollows
  · intro config es
    exact (Evaluator.new config).calls_eq es

/-- `(nil) - -true` opens three levels.  With two of them its evaluation stops in the grouping, with
three it comes to the prefix operator, which is at fault. -/
theorem evaluation_limit_only_cuts_grouping :
    evaluate { maxEvalDepth := 3 } (.binary (.grouping (.literal .nil)) ⟨.minus, "-", .nil, 1⟩
        (.unary ⟨.minus, "-", .nil, 2⟩ (.literal (.boolean true)))) =
      .error (.operandsNotNumbers ⟨.minus, "-", .nil, 2⟩) ∧
    ∃ fault, evaluate { maxEvalDepth := 2 } (.binary (.grouping (.literal .nil))
        ⟨.minus, "-", .nil, 1⟩ (.unary ⟨.minus, "-", .nil, 2⟩ (.literal (.boolean true)))) =
      .error fault ∧ fault.code = "R004" := by
  have hhigh : evaluate { maxEvalDepth := 3 } (.binary (.grouping (.literal .nil))
      ⟨.minus, "-", .nil, 1⟩ (.unary ⟨.minus, "-", .nil, 2⟩ (.literal (.boolean true)))) =
        .error (.operandsNotNumbers ⟨.minus, "-", .nil, 2⟩) := by
    simp only [evaluate, Evaluator.interpret, Expr.eval, Expr.evalLinks, Expr.unroll]
    rfl
  have hlow : evaluate { maxEvalDepth := 2 } (.binary (.grouping (.literal .nil))
      ⟨.minus, "-", .nil, 1⟩ (.unary ⟨.minus, "-", .nil, 2⟩ (.literal (.boolean true)))) =
        .error (.nestedTooDeeply 2) := by
    simp only [evaluate, Evaluator.interpret, Expr.eval, Expr.evalLinks, Expr.unroll]
    rfl
  refine ⟨hhigh, ?_⟩
  rcases evaluation_limit_only_cuts.1 {} 2 3 (.binary (.grouping (.literal .nil))
    ⟨.minus, "-", .nil, 1⟩ (.unary ⟨.minus, "-", .nil, 2⟩ (.literal (.boolean true))))
    (by decide) with heq | hcut
  · cases hlow.symm.trans (heq.trans hhigh)
  · exact hcut

end Lox
