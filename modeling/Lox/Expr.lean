import Lox.Token

/-!
# Expressions

The tree of an expression.  Operators are the tokens they were read from, so that a fault can name
its place; a tree built by hand may hold any token as an operator.

A chain such as `a + b - c` is a tree that leans to the left, as deep as the chain is long.
`Expr.unroll` lays such a chain out flat: the operand at its far left, then one `Link` for each
operator with its right operand.  Functions on trees that walk a chain link by link recurse only
where an expression really nests, and `size_unroll` is why they end.
-/

namespace Lox

inductive Expr
  | literal (value : Value)
  | grouping (inner : Expr)
  | unary (op : Token) (right : Expr)
  | binary (left : Expr) (op : Token) (right : Expr)
  | ternary (condition thenBranch elseBranch : Expr)
deriving DecidableEq

instance : Inhabited Expr := ⟨.literal .nil⟩

/-- An operator of a chain with its right operand. -/
structure Link where
  op : Token
  right : Expr

namespace Expr

def label : Expr → String
  | literal _ => "LiteralExpr"
  | grouping _ => "Grouping"
  | unary _ _ => "Unary"
  | binary _ _ _ => "Binary"
  | ternary _ _ _ => "Ternary"

def children : Expr → List Expr
  | literal _ => []
  | grouping inner => [inner]
  | unary _ right => [right]
  | binary left _ right => [left, right]
  | ternary condition thenBranch elseBranch => [condition, thenBranch, elseBranch]

/-- The nodes of a tree, each before its children. -/
def nodes : Expr → List Expr
  | literal v => [literal v]
  | grouping inner => grouping inner :: nodes inner
  | unary op right => unary op right :: nodes right
  | binary left op right => binary left op right :: (nodes left ++ nodes right)
  | ternary c a b => ternary c a b :: (nodes c ++ nodes a ++ nodes b)

def size : Expr → Nat
  | literal _ => 1
  | grouping inner => inner.size + 1
  | unary _ right => right.size + 1
  | binary left _ right => left.size + right.size + 1
  | ternary c a b => c.size + a.size + b.size + 1

theorem size_pos (e : Expr) : 0 < e.size := by cases e <;> simp [size]

/-- The far left operand of a chain and its links, in front of the links given. -/
def unroll : Expr → List Link → Expr × List Link
  | binary left op right, links => unroll left (⟨op, right⟩ :: links)
  | e, links => (e, links)

/-- The number of nodes that links add to a chain. -/
def linkSize : List Link → Nat
  | [] => 0
  | link :: links => link.right.size + 1 + linkSize links

theorem size_unroll (e : Expr) (links : List Link) :
    (e.unroll links).1.size + linkSize (e.unroll links).2 = e.size + linkSize links := by
  induction e generalizing links with
  | binary left op right ihl _ =>
    rw [unroll, ihl]
    simp only [linkSize, size]
    omega
  | _ => rfl

theorem linkSize_le_unroll (e : Expr) (links : List Link) :
    linkSize links ≤ linkSize (e.unroll links).2 := by
  induction e generalizing links with
  | binary left op right ihl _ =>
    rw [unroll]
    have := ihl (⟨op, right⟩ :: links)
    simp only [linkSize] at this
    omega
  | _ => exact Nat.le_refl _

theorem size_unroll_lt (left right : Expr) (op : Token) :
    (left.unroll [⟨op, right⟩]).1.size < (binary left op right).size := by
  have hs := size_unroll left [⟨op, right⟩]
  have hl := linkSize_le_unroll left [⟨op, right⟩]
  have := right.size_pos
  simp only [linkSize] at hs hl
  simp only [size]
  omega

theorem linkSize_unroll_lt (left right : Expr) (op : Token) :
    linkSize (left.unroll [⟨op, right⟩]).2 < (binary left op right).size := by
  have hs := size_unroll left [⟨op, right⟩]
  have := (left.unroll [⟨op, right⟩]).1.size_pos
  simp only [linkSize] at hs
  simp only [size]
  omega

end Expr

end Lox
