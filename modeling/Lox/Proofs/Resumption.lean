import Lox.Proofs.ParserState
import Mathlib.Order.Bounds.Basic

/-!
# Where to resume, from every position

The search for a statement boundary may start anywhere: behind the last token, or at a negative
position, which counts back from the end.  It goes up from there, and the place `0` is one of those
it passes, with the last token in front of it.

A place needs a token in front of it only if it does not hold an end of input itself.  So of all
places there is just one where this matters, the lowest that has a token: the search fails below it,
and it fails there unless it need not look back.  `synchronize?_isLeast` says that everywhere else
it finds the first boundary.
-/

namespace Lox

def statementWords : List Keyword := [
  .classWord, .funWord, .varWord, .forWord, .ifWord, .whileWord, .printWord, .returnWord]

theorem beginsStatement_iff {kind : Kind} :
    kind.beginsStatement = true ↔ ∃ word ∈ statementWords, kind = .keyword word := by
  constructor
  · intro h
    cases kind with
    | keyword word =>
      refine ⟨word, ?_, rfl⟩
      cases word with
      | classWord | funWord | varWord | forWord | ifWord | whileWord | printWord | returnWord =>
        decide
      | _ => cases h
    | _ => cases h
  · rintro ⟨word, hword, rfl⟩
    have hall : ∀ word ∈ statementWords, (Kind.keyword word).beginsStatement = true := by decide
    exact hall word hword

/-! ### The lowest places -/

theorem tokenAt?_of_lt {tokens : List Token} {position : Int} (h : position < -tokens.length) :
    tokenAt? tokens position = none := by
  rw [tokenAt?, if_neg (by omega), if_neg (by omega)]

theorem tokenAt?_neg_length (tokens : List Token) :
    tokenAt? tokens (-tokens.length) = tokens[0]? := by
  rw [tokenAt?]
  by_cases hempty : tokens.length = 0
  · rw [if_pos (by omega)]
    congr 1
    omega
  · rw [if_neg (by omega), if_pos (Int.le_refl _)]
    congr 1
    omega

/-- Below the lowest place there is no token to look at. -/
theorem boundaryFrom?_of_lt {tokens : List Token} {position : Int}
    (h : position < -tokens.length) : boundaryFrom? tokens position = none := by
  rw [boundaryFrom?, if_pos (by omega), tokenAt?_of_lt h]
  rfl

/-- At the lowest place there is one, but none in front of it. -/
theorem boundaryFrom?_neg_length {tokens : List Token} {t : Token} (h : tokens[0]? = some t) :
    boundaryFrom? tokens (-tokens.length) =
      if t.kind = .eof then some (-tokens.length : Int) else none := by
  have hpos : 0 < tokens.length := by
    by_contra hzero
    rw [List.getElem?_eq_none (by omega)] at h
    cases h
  have hprevious : tokenAt? tokens (-tokens.length - 1) = none := tokenAt?_of_lt (by omega)
  rw [boundaryFrom?, if_pos (by omega), tokenAt?_neg_length, h, hprevious]
  by_cases heof : t.kind = .eof
  · simp [heof]
  · simp [heof]

/-! ### Boundaries -/

theorem isBoundary_iff_of_le {tokens : List Token} {r : Int} (h : -tokens.length ≤ r) :
    IsBoundary tokens r ↔ tokens.length ≤ r ∨
      (∃ t, tokenAt? tokens r = some t ∧ t.kind = .eof) ∨
      (∃ t, tokenAt? tokens (r - 1) = some t ∧ t.kind = .semicolon) ∨
      ∃ t, tokenAt? tokens r = some t ∧ ∃ word ∈ statementWords, t.kind = .keyword word := by
  by_cases hend : (tokens.length : Int) ≤ r
  · exact ⟨fun _ => .inl hend, fun _ => .inl hend⟩
  · obtain ⟨t, ht⟩ := exists_tokenAt? tokens r h (by omega)
    simp only [IsBoundary, hend, false_or, ht, Option.some.injEq, exists_eq_left',
      beginsStatement_iff]

/-- **From every position that is not too low the search finds the first boundary.** -/
theorem exists_boundaryFrom? {tokens : List Token} {position : Int}
    (hlow : -tokens.length ≤ position)
    (hfirst : position = -tokens.length → ∀ t, tokens[0]? = some t → t.kind = .eof) :
    ∃ r, boundaryFrom? tokens position = some r ∧
      IsLeast {r | position ≤ r ∧ IsBoundary tokens r} r := by
  rcases Int.lt_or_eq_of_le hlow with hlt | heq
  · obtain ⟨r, hr, hle, hfound, hleast⟩ := boundaryFrom?_eq_some tokens position hlt
    refine ⟨r, hr, ⟨hle, hfound⟩, ?_⟩
    rintro r' ⟨hle', hfound'⟩
    by_contra hlt'
    exact hleast r' hle' (by omega) hfound'
  · -- the search need not go on from the lowest place
    have hhere : boundaryFrom? tokens position = some position ∧ IsBoundary tokens position := by
      cases htokens : tokens[0]? with
      | none =>
        have hempty : tokens.length = 0 := by
          have := List.getElem?_eq_none_iff.mp htokens
          omega
        refine ⟨?_, .inl (by omega)⟩
        rw [boundaryFrom?, if_neg (by omega)]
      | some t =>
        have heof := hfirst heq.symm t htokens
        rw [← heq]
        refine ⟨?_, .inr ⟨t, (tokenAt?_neg_length tokens).trans htokens, .inl heof⟩⟩
        rw [boundaryFrom?_neg_length htokens, if_pos heof]
    refine ⟨position, hhere.1, ⟨Int.le_refl _, hhere.2⟩, ?_⟩
    rintro r' ⟨hle', -⟩
    exact hle'

/-- A place that is too low to search from: below the lowest one that has a token, or there unless
the token is an end of input. -/
def TooLow (tokens : List Token) (place : Int) : Prop :=
  place < -tokens.length ∨
    place = -tokens.length ∧ ∃ t, tokens[0]? = some t ∧ t.kind ≠ .eof

theorem boundaryFrom?_of_tooLow {tokens : List Token} {place : Int} (h : TooLow tokens place) :
    boundaryFrom? tokens place = none := by
  rcases h with hlt | ⟨rfl, t, ht, hkind⟩
  · exact boundaryFrom?_of_lt hlt
  · rw [boundaryFrom?_neg_length ht, if_neg hkind]

/-- **To resume is to go to the first statement boundary behind a position**, and there is no answer
just if the place behind it is too low. -/
theorem synchronize?_isLeast (tokens : List Token) (position : Int) :
    (synchronize? tokens position = none ↔ TooLow tokens (position + 1)) ∧
    (¬ TooLow tokens (position + 1) → ∃ r, synchronize? tokens position = some r ∧
      IsLeast {r : Int | position + 1 ≤ r ∧ (tokens.length ≤ r ∨
        (∃ t, tokenAt? tokens r = some t ∧ t.kind = .eof) ∨
        (∃ t, tokenAt? tokens (r - 1) = some t ∧ t.kind = .semicolon) ∨
        ∃ t, tokenAt? tokens r = some t ∧
          ∃ word ∈ statementWords, t.kind = .keyword word)} r) := by
  by_cases htoo : TooLow tokens (position + 1)
  · have hnone : synchronize? tokens position = none := boundaryFrom?_of_tooLow htoo
    exact ⟨⟨fun _ => htoo, fun _ => hnone⟩, fun hnot => absurd htoo hnot⟩
  · have hlow : -tokens.length ≤ position + 1 := by
      by_contra hlt
      exact htoo (.inl (by omega))
    have hfirst : position + 1 = -tokens.length → ∀ t, tokens[0]? = some t → t.kind = .eof := by
      intro heq t ht
      by_contra hkind
      exact htoo (.inr ⟨heq, t, ht, hkind⟩)
    obtain ⟨r, hr, hleast⟩ := exists_boundaryFrom? hlow hfirst
    have hsome : synchronize? tokens position = some r := hr
    refine ⟨⟨fun hnone => ?_, fun hlow => absurd hlow htoo⟩, fun _ => ⟨r, hsome, ?_⟩⟩
    · rw [hsome] at hnone
      cases hnone
    · have hset : {r : Int | position + 1 ≤ r ∧ IsBoundary tokens r} = _ :=
        Set.ext fun r' => and_congr_right fun hle => isBoundary_iff_of_le (hlow.trans hle)
      rwa [hset] at hleast

/-- In `! ;` the search from the place of the semicolon, counted from the end, comes to the first
token, with that semicolon in front of it. -/
theorem synchronize?_isLeast_behind_last :
    ¬ TooLow [⟨.bang, "!", .nil, 1⟩, ⟨.semicolon, ";", .nil, 1⟩] (-2 + 1) ∧
    synchronize? [⟨.bang, "!", .nil, 1⟩, ⟨.semicolon, ";", .nil, 1⟩] (-2) = some 0 := by
  have hnot : ¬ TooLow [⟨.bang, "!", .nil, 1⟩, ⟨.semicolon, ";", .nil, 1⟩] (-2 + 1) := by
    rintro (h | h)
    · exact absurd h (by decide)
    · exact absurd h.1 (by decide)
  refine ⟨hnot, ?_⟩
  obtain ⟨r, hr, ⟨hle, hfound⟩, hleast⟩ := (synchronize?_isLeast _ _).2 hnot
  have hr0 : r ≤ 0 := hleast ⟨by decide, .inr (.inr (.inl ⟨_, rfl, rfl⟩))⟩
  have hne : r ≠ -1 := by
    rintro rfl
    simp [tokenAt?, statementWords] at hfound
  obtain rfl : r = 0 := by omega
  exact hr

end Lox
