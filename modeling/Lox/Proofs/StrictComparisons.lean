import Lox.Proofs.Meaning

/-!
# What strict comparisons change

Under strict comparisons an ordering of anything but numbers is a fault, and otherwise it is false.
The two evaluations of a tree part at the first such ordering.  From there on the permissive one
goes its own way: the false value may choose another branch or come to another fault, and nothing
that it does then has a counterpart.

So the two are not compared with each other.  `Expr.observe` is the permissive evaluation with a
record of the orderings that it asks for, and both are read off it (`Expr.evalIn_eq_under`): the
permissive one is its outcome, and the strict one is a fault at the first ordering in the record
that is not one of numbers, or the same outcome if there is none.
-/

namespace Lox

/-! ### Definitions -/

def Kind.isOrdering (kind : Kind) : Bool :=
  kind ∈ [.less, .lessEqual, .greater, .greaterEqual]

def Value.isNumber : Value → Bool
  | number _ => true
  | _ => false

/-- An ordering that an evaluation asks for. -/
structure Comparison where
  op : Token
  left : Value
  right : Value
deriving DecidableEq

def Comparison.ofNumbers (m : Comparison) : Bool := m.left.isNumber && m.right.isNumber

/-- What an evaluation comes to, with the orderings that it asked for on the way. -/
structure Observed (α : Type) where
  comparisons : List Comparison
  outcome : Except RuntimeError α

namespace Observed

variable {α β : Type}

def ofExcept (x : Except RuntimeError α) : Observed α := ⟨[], x⟩

def bind (o : Observed α) (f : α → Observed β) : Observed β :=
  match o.outcome with
  | .ok a => ⟨o.comparisons ++ (f a).comparisons, (f a).outcome⟩
  | .error fault => ⟨o.comparisons, .error fault⟩

def nested (limit : Int) (depth : Nat) (inner : Nat → Observed α) : Observed α :=
  if limit < (depth + 1 : Nat) then ofExcept (.error (.nestedTooDeeply limit))
  else inner (depth + 1)

/-- A binary operator that lets every ordering pass. -/
def applyBinary (op : Token) (a b : Value) : Observed Value where
  comparisons := if op.kind.isOrdering then [⟨op, a, b⟩] else []
  outcome := Lox.applyBinary false op a b

/-- **What the observation tells of an evaluation**, strict or permissive: under strict comparisons
the first ordering of anything but numbers is where it ends. -/
def under (strict : Bool) (o : Observed α) : Except RuntimeError α :=
  match o.comparisons.find? (fun m => strict && !m.ofNumbers) with
  | some m => .error (.operandsNotNumbers m.op)
  | none => o.outcome

end Observed

/-- **The permissive evaluation of a tree, observed.**  It starts with `depth` levels open, as a node
of its own or as the left operand of a chain. -/
def Expr.observe (limit : Int) : (inChain : Bool) → Expr → (depth : Nat) → Observed Value
  | _, literal v, depth => .nested limit depth fun _ => .ofExcept (.ok v)
  | _, grouping inner, depth => .nested limit depth fun depth => inner.observe limit false depth
  | _, unary op right, depth => .nested limit depth fun depth =>
    (right.observe limit false depth).bind fun v => .ofExcept (applyPrefix op v)
  | _, ternary condition a b, depth => .nested limit depth fun depth =>
    (condition.observe limit false depth).bind fun v =>
      if v.isTruthy then a.observe limit false depth else b.observe limit false depth
  | true, binary left op right, depth =>
    (left.observe limit true depth).bind fun a =>
      (right.observe limit false depth).bind fun b => .applyBinary op a b
  | false, binary left op right, depth => .nested limit depth fun depth =>
    (left.observe limit true depth).bind fun a =>
      (right.observe limit false depth).bind fun b => .applyBinary op a b

def Expr.observation (limit : Int) (e : Expr) : Observed Value := e.observe limit false 0

/-! ### The evaluations read off the observation -/

namespace Observed

variable {α β : Type}

theorem under_false (o : Observed α) : o.under false = o.outcome := by
  have hnone : o.comparisons.find? (fun m => false && !m.ofNumbers) = none := by simp
  rw [under, hnone]

theorem under_of_ofNumbers (strict : Bool) {o : Observed α}
    (h : ∀ m ∈ o.comparisons, m.ofNumbers = true) : o.under strict = o.outcome := by
  have hnone : o.comparisons.find? (fun m => strict && !m.ofNumbers) = none := by
    rw [List.find?_eq_none]
    intro m hm
    simp [h m hm]
  rw [under, hnone]

theorem exists_under_true {o : Observed α} (h : ¬ ∀ m ∈ o.comparisons, m.ofNumbers = true) :
    ∃ m ∈ o.comparisons, o.under true = .error (.operandsNotNumbers m.op) := by
  cases hfind : o.comparisons.find? (fun m => true && !m.ofNumbers) with
  | none =>
    refine absurd ?_ h
    intro m hm
    simpa using List.find?_eq_none.mp hfind m hm
  | some m =>
    refine ⟨m, List.mem_of_find?_eq_some hfind, ?_⟩
    rw [under, hfind]

/-- An ordering behind another one counts only if the evaluation comes to it. -/
theorem under_bind (strict : Bool) (o : Observed α) (f : α → Observed β) :
    (o.bind f).under strict = (o.under strict >>= fun a => (f a).under strict) := by
  obtain ⟨comparisons, outcome⟩ := o
  cases outcome with
  | ok a =>
    show (Observed.mk (comparisons ++ (f a).comparisons) (f a).outcome).under strict = _
    rw [under, under, List.find?_append]
    cases comparisons.find? (fun m => strict && !m.ofNumbers) <;> rfl
  | error fault =>
    show (Observed.mk comparisons (.error fault)).under strict = _
    rw [under, under]
    cases comparisons.find? (fun m => strict && !m.ofNumbers) <;> rfl

/-- **An operator does what the record of it says.** -/
theorem under_applyBinary (strict : Bool) (op : Token) (a b : Value) :
    (applyBinary op a b).under strict = Lox.applyBinary strict op a b := by
  obtain ⟨kind, lexeme, literal, line⟩ := op
  by_cases hkind : kind.isOrdering = true
  · -- the four operators treat what is no number alike
    simp only [Kind.isOrdering, decide_eq_true_eq, List.mem_cons, List.not_mem_nil, or_false]
      at hkind
    rcases hkind with rfl | rfl | rfl | rfl
    all_goals cases strict <;> cases a <;> cases b <;> rfl
  · have hrecord : (applyBinary ⟨kind, lexeme, literal, line⟩ a b).comparisons = [] :=
      if_neg hkind
    rw [under, hrecord]
    show Lox.applyBinary false ⟨kind, lexeme, literal, line⟩ a b = _
    cases kind with
    | less | lessEqual | greater | greaterEqual => exact absurd rfl hkind
    | _ => rfl

theorem nested_eq_under {strict : Bool} {limit : Int} {depth : Nat} {m : Eval α}
    {inner : Nat → Observed α}
    (h : m (depth + 1) = Eval.ofExcept ((inner (depth + 1)).under strict) (depth + 1)) :
    Eval.nested limit m depth = Eval.ofExcept ((nested limit depth inner).under strict) depth := by
  by_cases hdeep : limit < (depth + 1 : Nat)
  · rw [Eval.nested, nested, if_pos hdeep, if_pos hdeep]
    rfl
  · rw [nested, if_neg hdeep]
    exact Expr.nested_eq_ofExcept (by omega) h

end Observed

open Observed in
/-- **Every evaluation is read off the observation**, at either place of the tree. -/
theorem Expr.evalIn_eq_under (c : Config) (e : Expr) (inChain : Bool) (depth : Nat) :
    evalIn c inChain e depth =
      Eval.ofExcept ((e.observe c.maxEvalDepth inChain depth).under c.strictComparisons) depth := by
  induction e generalizing inChain depth with
  | literal v =>
    rw [evalIn_literal, observe]
    exact nested_eq_under rfl
  | grouping inner ih =>
    rw [evalIn_grouping, observe]
    exact nested_eq_under (ih false (depth + 1))
  | unary op right ih =>
    rw [evalIn_unary, observe]
    apply nested_eq_under
    rw [under_bind]
    exact bind_eq_ofExcept (ih false (depth + 1)) fun _ => rfl
  | ternary condition a b ihc iha ihb =>
    rw [evalIn_ternary, observe]
    apply nested_eq_under
    rw [under_bind]
    refine bind_eq_ofExcept (ihc false (depth + 1)) fun v => ?_
    split
    · exact iha false (depth + 1)
    · exact ihb false (depth + 1)
  | binary left op right ihl ihr =>
    have hchain : ∀ depth, evalIn c true (binary left op right) depth =
        Eval.ofExcept (((binary left op right).observe c.maxEvalDepth true depth).under
          c.strictComparisons) depth := by
      intro depth
      rw [evalIn_true_binary, observe, under_bind]
      refine bind_eq_ofExcept (ihl true depth) fun a => ?_
      rw [under_bind]
      refine bind_eq_ofExcept (ihr false depth) fun b => ?_
      rw [under_applyBinary]
    cases inChain with
    | true => exact hchain depth
    | false =>
      rw [evalIn_false_binary, observe]
      apply nested_eq_under
      rw [hchain, observe]

theorem evaluate_eq_under (c : Config) (e : Expr) :
    evaluate c e = (e.observation c.maxEvalDepth).under c.strictComparisons := by
  have he := e.evalIn_eq_under c false 0
  rw [Expr.evalIn] at he
  rw [evaluate, Evaluator.interpret, Evaluator.new, he, Expr.observation]
  cases (e.observe c.maxEvalDepth false 0).under c.strictComparisons <;> rfl

/-! ### What is recorded, and what is blamed -/

theorem eq_of_onNumbers {op op' : Token} {a b : Value}
    {f : Float → Float → Except RuntimeError Value}
    (hf : ∀ x y, f x y ≠ .error (.operandsNotNumbers op'))
    (h : onNumbers op a b f = .error (.operandsNotNumbers op')) : op' = op := by
  unfold onNumbers at h
  split at h
  · exact absurd h (hf _ _)
  · cases h
    rfl

/-- An operator that lets every ordering pass blames none. -/
theorem isOrdering_of_applyBinary {op op' : Token} {a b : Value}
    (h : applyBinary false op a b = .error (.operandsNotNumbers op')) :
    op'.kind.isOrdering = false := by
  have hcompare : ∀ holds, compareBy false op holds a b ≠ .error (.operandsNotNumbers op') := by
    intro holds hop
    unfold compareBy at hop
    split at hop <;> cases hop
  unfold applyBinary at h
  split at h
  · unfold add at h
    split at h <;> cases h
  · rename_i hkind
    rw [eq_of_onNumbers (fun _ _ hop => by cases hop) h, hkind]
    rfl
  · rename_i hkind
    rw [eq_of_onNumbers (fun _ _ hop => by cases hop) h, hkind]
    rfl
  · rename_i hkind
    rw [eq_of_onNumbers (fun _ _ hop => by split at hop <;> cases hop) h, hkind]
    rfl
  · exact absurd h (hcompare _)
  · exact absurd h (hcompare _)
  · exact absurd h (hcompare _)
  · exact absurd h (hcompare _)
  · cases h
  · cases h
  · cases h

/-- The record holds orderings only, and the outcome blames none of them. -/
structure Observed.Permissive {α : Type} (o : Observed α) : Prop where
  recorded : ∀ m ∈ o.comparisons, m.op.kind.isOrdering = true
  blamed : ∀ op, o.outcome = .error (.operandsNotNumbers op) → op.kind.isOrdering = false

namespace Observed

variable {α β : Type}

theorem permissive_ofExcept {x : Except RuntimeError α}
    (h : ∀ op, x = .error (.operandsNotNumbers op) → op.kind.isOrdering = false) :
    (ofExcept x).Permissive where
  recorded := by
    intro m hm
    cases hm
  blamed := h

theorem Permissive.bind {o : Observed α} {f : α → Observed β} (h : o.Permissive)
    (hf : ∀ a, (f a).Permissive) : (o.bind f).Permissive := by
  obtain ⟨comparisons, outcome⟩ := o
  cases outcome with
  | ok a =>
    refine ⟨?_, (hf a).blamed⟩
    intro m hm
    rcases List.mem_append.mp hm with hm | hm
    · exact h.recorded m hm
    · exact (hf a).recorded m hm
  | error fault =>
    refine ⟨h.recorded, ?_⟩
    intro op hop
    cases hop
    exact h.blamed op rfl

theorem permissive_nested {limit : Int} {depth : Nat} {inner : Nat → Observed α}
    (h : (inner (depth + 1)).Permissive) : (nested limit depth inner).Permissive := by
  rw [nested]
  split
  · apply permissive_ofExcept
    intro op hop
    cases hop
  · exact h

theorem permissive_applyPrefix (op : Token) (v : Value) :
    (ofExcept (applyPrefix op v)).Permissive := by
  apply permissive_ofExcept
  intro op' hop
  unfold applyPrefix at hop
  split at hop
  · cases hop
  · cases hop
  · rename_i hkind _
    cases hop
    rw [hkind]
    rfl
  · cases hop

theorem permissive_applyBinary (op : Token) (a b : Value) : (applyBinary op a b).Permissive where
  recorded := by
    intro m hm
    rw [applyBinary] at hm
    split at hm
    · rename_i hkind
      obtain rfl := List.mem_singleton.mp hm
      exact hkind
    · cases hm
  blamed := by
    intro op' hop
    exact isOrdering_of_applyBinary hop

end Observed

open Observed in
/-- **An observation blames none of the orderings that it records.** -/
theorem Expr.permissive_observe (limit : Int) (e : Expr) (inChain : Bool) (depth : Nat) :
    (e.observe limit inChain depth).Permissive := by
  induction e generalizing inChain depth with
  | literal v =>
    rw [observe]
    apply permissive_nested
    apply permissive_ofExcept
    intro op hop
    cases hop
  | grouping inner ih =>
    rw [observe]
    exact permissive_nested (ih false (depth + 1))
  | unary op right ih =>
    rw [observe]
    apply permissive_nested
    exact (ih false (depth + 1)).bind fun v => permissive_applyPrefix op v
  | ternary condition a b ihc iha ihb =>
    rw [observe]
    apply permissive_nested
    refine (ihc false (depth + 1)).bind fun v => ?_
    split
    · exact iha false (depth + 1)
    · exact ihb false (depth + 1)
  | binary left op right ihl ihr =>
    cases inChain with
    | true =>
      rw [observe]
      exact (ihl true depth).bind fun a => (ihr false depth).bind fun b =>
        permissive_applyBinary op a b
    | false =>
      rw [observe]
      apply permissive_nested
      exact (ihl true (depth + 1)).bind fun a => (ihr false (depth + 1)).bind fun b =>
        permissive_applyBinary op a b

/-- **Strict comparisons turn outcomes into faults of comparisons and into nothing else**, and they
change an outcome just where the permissive evaluation orders anything but numbers. -/
theorem strict_comparisons_only_fault (config : Config) (e : Expr) :
    (evaluate { config with strictComparisons := true } e =
        evaluate { config with strictComparisons := false } e ∨
      ∃ fault op, evaluate { config with strictComparisons := true } e = .error fault ∧
        fault.code = "R001" ∧ fault.token? = some op ∧
        op.kind ∈ [.less, .lessEqual, .greater, .greaterEqual]) ∧
    (e.observation config.maxEvalDepth).outcome =
      evaluate { config with strictComparisons := false } e ∧
    (evaluate { config with strictComparisons := true } e =
        evaluate { config with strictComparisons := false } e ↔
      ∀ m ∈ (e.observation config.maxEvalDepth).comparisons, m.ofNumbers = true) := by
  have hsound : (e.observation config.maxEvalDepth).Permissive :=
    e.permissive_observe config.maxEvalDepth false 0
  have hstrict : evaluate { config with strictComparisons := true } e =
      (e.observation config.maxEvalDepth).under true := evaluate_eq_under _ e
  have hpermissive : evaluate { config with strictComparisons := false } e =
      (e.observation config.maxEvalDepth).outcome :=
    (evaluate_eq_under _ e).trans (Observed.under_false _)
  rw [hstrict, hpermissive]
  by_cases hnumbers : ∀ m ∈ (e.observation config.maxEvalDepth).comparisons, m.ofNumbers = true
  · have heq := Observed.under_of_ofNumbers true hnumbers
    exact ⟨.inl heq, rfl, fun _ => hnumbers, fun _ => heq⟩
  · obtain ⟨m, hm, hfault⟩ := Observed.exists_under_true hnumbers
    have hkind := hsound.recorded m hm
    refine ⟨.inr ⟨_, m.op, hfault, rfl, rfl, ?_⟩, rfl, ?_, ?_⟩
    · exact of_decide_eq_true hkind
    · intro heq
      have hblamed := hsound.blamed m.op (heq.symm.trans hfault)
      rw [hkind] at hblamed
      cases hblamed
    · intro h
      exact absurd h hnumbers

-- in `(nil < true ? nil : 1) <= nil` the first ordering is false, and the second one is still asked
example : ((Expr.binary (.grouping (.ternary
    (.binary (.literal .nil) ⟨.less, "<", .nil, 1⟩ (.literal (.boolean true)))
    (.literal .nil) (.literal (.number 1)))) ⟨.lessEqual, "<=", .nil, 2⟩
    (.literal .nil)).observation 5).comparisons =
      [⟨⟨.less, "<", .nil, 1⟩, .nil, .boolean true⟩,
        ⟨⟨.lessEqual, "<=", .nil, 2⟩, .number 1, .nil⟩] := rfl

end Lox
