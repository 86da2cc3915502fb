import Lox.Proofs.UniqueReading

/-!
# The text of a tree by plain recursion

`Expr.prefixText` writes every node from the texts of its own children and knows no chains.
`Expr.render` instead walks a chain from its far left operand outwards and puts one link after the
other around the text so far.  This file says that the two agree on every tree, however its
operators are written (`render_eq_prefixText`).

The invariant of the walk is `Expr.renderLinks_render`: the text so far is the text of the tree so
far, which is the far left operand with the links behind it that were passed (`Expr.chain`).
-/

namespace Lox

namespace Expr

/-! ### Definitions -/

/-- A head and its parts in parentheses, with a space between any two. -/
def parenthesized (head : String) (parts : List String) : String :=
  "(" ++ " ".intercalate (head :: parts) ++ ")"

/-- The text of a tree, with that of each node made of the texts of its children. -/
def prefixText : Expr → String
  | literal v => v.display
  | grouping inner => parenthesized "group" [inner.prefixText]
  | unary op right => parenthesized op.lexeme [right.prefixText]
  | binary left op right => parenthesized op.lexeme [left.prefixText, right.prefixText]
  | ternary condition thenBranch elseBranch =>
    parenthesized "ternary" [condition.prefixText, thenBranch.prefixText, elseBranch.prefixText]

def chain (e : Expr) (links : List Link) : Expr :=
  links.foldl (fun left link => binary left link.op link.right) e

/-! ### The walk along a chain -/

theorem renderLinks_render (e : Expr) (links : List Link) :
    renderLinks e.render links = (e.chain links).render := by
  induction links generalizing e with
  | nil => rw [renderLinks, chain, List.foldl_nil]
  | cons link links ih =>
    obtain ⟨op, right⟩ := link
    -- a link passed makes one more binary node of the tree so far
    rw [renderLinks, ← render_binary, ih, chain, chain, List.foldl_cons]

/-! ### Nodes -/

theorem toList_intercalate (head : String) (parts : List String) :
    (" ".intercalate (head :: parts)).toList =
      head.toList ++ parts.flatMap fun part => ' ' :: part.toList := by
  induction parts generalizing head with
  | nil => simp
  | cons part parts ih =>
    rw [String.intercalate_cons_cons, String.toList_append, ih]
    simp

/-- **Each node is written from its head and the texts of its children**, a chain included. -/
theorem render_eq_parenthesized (e : Expr) {head : String} (h : e.head? = some head) :
    e.render = parenthesized head (e.children.map render) := by
  apply String.toList_inj.mp
  rw [toList_render h, parenthesized, String.toList_append, String.toList_append,
    toList_intercalate, List.flatMap_map, renderAll]
  simp

/-! ### The two texts -/

/-- **The walk along chains writes what plain recursion writes**: for a tree as a whole, and at
every point of a walk for the tree so far. -/
theorem render_eq_prefixText (e : Expr) :
    e.render = e.prefixText ∧
      ∀ links, renderLinks e.prefixText links = (e.chain links).prefixText := by
  have htext (e : Expr) : e.render = e.prefixText := by
    induction e with
    | literal v => rw [render, prefixText]
    | grouping inner ih =>
      rw [render_eq_parenthesized _ rfl, prefixText, ← ih]
      rfl
    | unary op right ih =>
      rw [render_eq_parenthesized _ rfl, prefixText, ← ih]
      rfl
    | binary left op right ihl ihr =>
      rw [render_eq_parenthesized _ rfl, prefixText, ← ihl, ← ihr]
      rfl
    | ternary c a b ihc iha ihb =>
      rw [render_eq_parenthesized _ rfl, prefixText, ← ihc, ← iha, ← ihb]
      rfl
  refine ⟨htext e, fun links => ?_⟩
  rw [← htext, renderLinks_render, htext]

-- a node is written with its own head, and a chain of different operators like any other nodes
example : (binary (binary (literal .nil) ⟨.minus, "-", .nil, 1⟩ (literal (.string "a b")))
    ⟨.comma, ",", .nil, 2⟩ (unary ⟨.minus, "-", .nil, 2⟩ (literal (.boolean true)))).prefixText =
      "(, (- nil a b) (- true))" := by
  decide

end Expr

end Lox
