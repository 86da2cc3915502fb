import Lox.Segment

/-!
# Block comments

Behind its opening a block comment is read in units: a pair that opens one more level, a pair that
closes one, or any other grapheme alone (`commentUnits`).  `Levels n units m` says that the units
lead from `n` open levels to `m` of them and that some level is open before each unit.  So a comment
is closed by its last unit, and not before, when its units lead from `1` to `0`.

`levels_splitComment` says that splitting off a comment does just this, or else takes the whole text
and tells how many levels are open at its end.
-/

namespace Lox

inductive CommentUnit
  | opening
  | closing
  | plain (g : Grapheme)
deriving DecidableEq

namespace CommentUnit

def graphemes : CommentUnit → List Grapheme
  | opening => [.single '/', .single '*']
  | closing => [.single '*', .single '/']
  | plain g => [g]

def step : CommentUnit → Int
  | opening => 1
  | closing => -1
  | plain _ => 0

end CommentUnit

/-- The units of a text, read from left to right, a pair wherever there is one. -/
def commentUnits : List Grapheme → List CommentUnit
  | [] => []
  | [g] => [.plain g]
  | g :: h :: gs =>
    if g = .single '/' ∧ h = .single '*' then .opening :: commentUnits gs
    else if g = .single '*' ∧ h = .single '/' then .closing :: commentUnits gs
    else .plain g :: commentUnits (h :: gs)

theorem flatMap_commentUnits (gs : List Grapheme) :
    (commentUnits gs).flatMap CommentUnit.graphemes = gs := by
  fun_induction commentUnits gs with
  | case1 => rfl
  | case2 g => rfl
  | case3 g h gs hp ih => simp [CommentUnit.graphemes, ih, hp]
  | case4 g h gs _ hp ih => simp [CommentUnit.graphemes, ih, hp]
  | case5 g h gs _ _ ih => simp [CommentUnit.graphemes, ih]

/-- The units lead from `n` open levels to `m`, and a level is open before each of them. -/
def Levels : (n : Int) → List CommentUnit → (m : Int) → Prop
  | n, [], m => n = m
  | n, u :: us, m => 0 < n ∧ Levels (n + u.step) us m

namespace Segment

theorem splitComment_cons_cons (inner : Nat) (g h : Grapheme) (gs : List Grapheme) :
    splitComment inner (g :: h :: gs) =
      if g = .single '/' ∧ h = .single '*' then (splitComment (inner + 1) gs).cons [g, h]
      else if g = .single '*' ∧ h = .single '/' then
        match inner with
        | 0 => ⟨[g, h], gs, 0⟩
        | inner + 1 => (splitComment inner gs).cons [g, h]
      else (splitComment inner (h :: gs)).cons [g] := by
  cases inner <;> rw [splitComment]

theorem splitComment_cons (inner : Nat) (g : Grapheme) (gs : List Grapheme) :
    ∃ body, (splitComment inner (g :: gs)).body = g :: body := by
  cases gs with
  | nil => exact ⟨[], rfl⟩
  | cons h gs =>
    unfold splitComment
    repeat' split
    all_goals exact ⟨_, rfl⟩

/-- **The units of a comment lead from its opening to its end.** -/
theorem levels_splitComment (inner : Nat) (gs : List Grapheme) :
    Levels (inner + 1) (commentUnits (splitComment inner gs).body)
      (splitComment inner gs).depth := by
  fun_induction splitComment inner gs with
  | case1 inner => rfl
  | case2 inner g => exact ⟨by omega, by simp [CommentUnit.step, Levels]⟩
  | case3 inner g h gs hp ih =>
    rw [Comment.cons, List.cons_append, List.singleton_append, commentUnits, if_pos hp]
    exact ⟨by omega, ih⟩
  | case4 g h gs hp hp' =>
    rw [commentUnits, if_neg hp, if_pos hp']
    exact ⟨by omega, rfl⟩
  | case5 g h gs hp hp' inner ih =>
    rw [Comment.cons, List.cons_append, List.singleton_append, commentUnits, if_neg hp, if_pos hp']
    have hn : ((inner + 1 : Nat) : Int) + 1 + CommentUnit.closing.step = inner + 1 := by
      rw [CommentUnit.step]
      omega
    exact ⟨by omega, by rwa [hn]⟩
  | case6 inner g h gs hp hp' ih =>
    -- the grapheme behind `g` is still in the body, so `g` is read alone there too
    obtain ⟨body, hb⟩ := splitComment_cons inner h gs
    rw [Comment.cons, List.singleton_append, hb, commentUnits, if_neg hp, if_neg hp', ← hb]
    refine ⟨by omega, ?_⟩
    simpa [CommentUnit.step] using ih

theorem splitComment_rest {inner : Nat} {gs : List Grapheme}
    (h : (splitComment inner gs).depth ≠ 0) : (splitComment inner gs).rest = [] := by
  fun_induction splitComment inner gs with
  | case1 | case2 => rfl
  | case3 inner g h gs _ ih => exact ih h
  | case4 => exact absurd rfl h
  | case5 g h gs _ _ inner ih => exact ih h
  | case6 inner g h gs _ _ ih => exact ih h

end Segment

end Lox
