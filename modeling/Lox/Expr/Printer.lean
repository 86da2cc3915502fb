import Lox.Expr

/-!
# Expressions as text

A tree is shown in prefix notation with a pair of parentheses for every node but a literal:
`-2 * (1 == 3)` is `(* (- 2) (group (== 1 3)))`.  A chain is written from its far left operand
outwards, one link after the other.
-/

namespace Lox.Expr

mutual

def render : Expr → String
  | literal v => v.display
  | grouping inner => "(group " ++ render inner ++ ")"
  | unary op right => "(" ++ op.lexeme ++ " " ++ render right ++ ")"
  | ternary c a b => "(ternary " ++ render c ++ " " ++ render a ++ " " ++ render b ++ ")"
  | binary left op right =>
    let chain := left.unroll [⟨op, right⟩]
    renderLinks (render chain.1) chain.2
termination_by e => e.size
decreasing_by
  any_goals (simp only [size]; omega)
  · exact size_unroll_lt left right op
  · exact linkSize_unroll_lt left right op

/-- The text of a chain that goes on after `text`. -/
def renderLinks (text : String) : List Link → String
  | [] => text
  | ⟨op, right⟩ :: links =>
    renderLinks ("(" ++ op.lexeme ++ " " ++ text ++ " " ++ render right ++ ")") links
termination_by links => linkSize links
decreasing_by all_goals (simp only [linkSize]; omega)

end

end Lox.Expr
