import Lox.Config
import Lox.Diagnostic
import Lox.Expr

/-!
# Evaluation

An expression evaluates to a value or stops at the first fault, operands from left to right.  Only
the chosen branch of `?:` is evaluated.  The comma is an operator of the grammar without a rule
here, so it is a fault to evaluate one.

An evaluation may nest only so deep.  Each node is one level below the node it belongs to, except
that a chain counts as a single node: all its operands lie one level below it, however long it is.
-/

namespace Lox

/-- Why an evaluation stopped, with the operator at fault. -/
inductive RuntimeError
  | operandsNotNumbers (op : Token)
  | operandsNotAddable (op : Token)
  | divisionByZero (op : Token)
  | unexpectedOperator (op : Token)
  | nestedTooDeeply (limit : Int)
deriving DecidableEq

def runtimeCodes : List (String × String) := [
  ("R001", "Operand type mismatch"),
  ("R002", "Division by zero"),
  ("R003", "Unexpected operator"),
  ("R004", "Expression nesting too deep")]

namespace RuntimeError

def token? : RuntimeError → Option Token
  | operandsNotNumbers op | operandsNotAddable op | divisionByZero op | unexpectedOperator op =>
    some op
  | nestedTooDeeply _ => none

def line? (e : RuntimeError) : Option Int := e.token?.map Token.line

def code : RuntimeError → String
  | operandsNotNumbers _ | operandsNotAddable _ => "R001"
  | divisionByZero _ => "R002"
  | unexpectedOperator _ => "R003"
  | nestedTooDeeply _ => "R004"

def message : RuntimeError → String
  | operandsNotNumbers _ => "Operands must be numbers."
  | operandsNotAddable _ => "operands must be numbers or strings."
  | divisionByZero _ => "Division by zero."
  | unexpectedOperator _ => "Unexpected operator"
  | nestedTooDeeply _ => "Expression nesting too deep."

def help? : RuntimeError → Option String
  | operandsNotNumbers op | operandsNotAddable op =>
    some ("Check the operand types of '" ++ op.lexeme ++ "'.")
  | divisionByZero _ => none
  | unexpectedOperator op => some ("'" ++ op.lexeme ++ "' cannot be used in this position.")
  | nestedTooDeeply limit => some ("Evaluation may nest at most " ++ toString limit ++ " levels.")

def diagnostic (e : RuntimeError) : Diagnostic :=
  ⟨.error, e.message, e.line?.getD 0, e.code, e.help?⟩

def report (e : RuntimeError) : String :=
  match e.line? with
  | some line => e.message ++ " [line " ++ toString line ++ "]"
  | none => e.message

end RuntimeError

/-! ### Operators -/

def applyPrefix (op : Token) (v : Value) : Except RuntimeError Value :=
  match op.kind, v with
  | .bang, v => .ok (.boolean (!v.isTruthy))
  | .minus, .number x => .ok (.number (-x))
  | .minus, _ => .error (.operandsNotNumbers op)
  | _, _ => .error (.unexpectedOperator op)

def onNumbers (op : Token) (a b : Value) (f : Float → Float → Except RuntimeError Value) :
    Except RuntimeError Value :=
  match a, b with
  | .number x, .number y => f x y
  | _, _ => .error (.operandsNotNumbers op)

/-- Adds numbers, or joins texts if either side is a string. -/
def add (op : Token) : Value → Value → Except RuntimeError Value
  | .number x, .number y => .ok (.number (x + y))
  | .string s, b => .ok (.string (s ++ b.display))
  | a, .string s => .ok (.string (a.display ++ s))
  | _, _ => .error (.operandsNotAddable op)

/-- Compares numbers; an order of anything else is false, or a fault under strict comparisons. -/
def compareBy (strict : Bool) (op : Token) (holds : Float → Float → Bool) :
    Value → Value → Except RuntimeError Value
  | .number x, .number y => .ok (.boolean (holds x y))
  | _, _ => if strict then .error (.operandsNotNumbers op) else .ok (.boolean false)

def applyBinary (strict : Bool) (op : Token) (a b : Value) : Except RuntimeError Value :=
  match op.kind with
  | .plus => add op a b
  | .minus => onNumbers op a b fun x y => .ok (.number (x - y))
  | .star => onNumbers op a b fun x y => .ok (.number (x * y))
  | .slash => onNumbers op a b fun x y =>
      if y == 0 then .error (.divisionByZero op) else .ok (.number (x / y))
  | .greater => compareBy strict op (fun x y => y < x) a b
  | .greaterEqual => compareBy strict op (fun x y => y ≤ x) a b
  | .less => compareBy strict op (fun x y => x < y) a b
  | .lessEqual => compareBy strict op (fun x y => x ≤ y) a b
  | .equalEqual => .ok (.boolean (a.equal b))
  | .bangEqual => .ok (.boolean (!a.equal b))
  | _ => .error (.unexpectedOperator op)

/-! ### Trees -/

/-- Evaluation in progress: the state is the number of open levels. -/
abbrev Eval := EStateM RuntimeError Nat

namespace Eval

def ofExcept {α : Type} : Except RuntimeError α → Eval α
  | .ok a => pure a
  | .error e => throw e

/-- One level deeper, for as long as the evaluation inside runs, if the limit allows it. -/
def nested {α : Type} (limit : Int) (inner : Eval α) : Eval α := fun depth =>
  if limit < (depth + 1 : Nat) then .error (.nestedTooDeeply limit) depth
  else
    match inner (depth + 1) with
    | .ok a depth => .ok a (depth - 1)
    | .error e depth => .error e (depth - 1)

end Eval

namespace Expr

open Eval (nested)

mutual

def eval (c : Config) : Expr → Eval Value
  | literal v => nested c.maxEvalDepth (pure v)
  | grouping inner => nested c.maxEvalDepth (eval c inner)
  | unary op right => nested c.maxEvalDepth do
    let v ← eval c right
    Eval.ofExcept (applyPrefix op v)
  | ternary condition thenBranch elseBranch => nested c.maxEvalDepth do
    let v ← eval c condition
    if v.isTruthy then eval c thenBranch else eval c elseBranch
  | binary left op right => nested c.maxEvalDepth do
    let chain := left.unroll [⟨op, right⟩]
    let v ← eval c chain.1
    evalLinks c v chain.2
termination_by e => e.size
decreasing_by
  any_goals (simp only [size]; omega)
  · exact size_unroll_lt left right op
  · exact linkSize_unroll_lt left right op

/-- The value of a chain that goes on after the value `left`. -/
def evalLinks (c : Config) (left : Value) : List Link → Eval Value
  | [] => pure left
  | ⟨op, right⟩ :: links => do
    let v ← eval c right
    let v ← Eval.ofExcept (applyBinary c.strictComparisons op left v)
    evalLinks c v links
termination_by links => linkSize links
decreasing_by all_goals (simp only [linkSize]; omega)

end

end Expr

/-- Something that evaluates one expression after the other. -/
structure Evaluator where
  config : Config
  depth : Nat
deriving DecidableEq

namespace Evaluator

def new (config : Config) : Evaluator := ⟨config, 0⟩

def interpret (ev : Evaluator) (e : Expr) : Except RuntimeError Value × Evaluator :=
  match e.eval ev.config 0 with
  | .ok v depth => (.ok v, { ev with depth })
  | .error fault depth => (.error fault, { ev with depth })

end Evaluator

def evaluate (config : Config) (e : Expr) : Except RuntimeError Value :=
  ((Evaluator.new config).interpret e).1

end Lox
