import Lox.Proofs.Division

/-!
# Tokens written side by side

The lexemes of tokens, written one behind the other, are a row of segments if each may stand in
front of the rest, and then they are scanned as those tokens (`tokenize_of_standsBefore`).  The
characters have to be ones that join with no other to a grapheme, and no line ends.
-/

namespace Lox

open Grapheme

/-! ### Plain characters -/

/-- A character that belongs to no line end and that no other joins before or behind it. -/
def IsPlain (c : Char) : Prop := Text.breakOf c = .other

instance (c : Char) : Decidable (IsPlain c) := inferInstanceAs (Decidable (_ = _))

theorem Edge.joins_start_of_isPlain {c d : Char} (hc : IsPlain c) (hd : IsPlain d) :
    (Edge.start c).joins d = false := by
  rw [IsPlain] at hc hd
  simp [joins, start, hc, hd]

theorem Grapheme.ofChars_of_isPlain {cs : List Char} (h : ∀ c ∈ cs, IsPlain c) :
    ofChars cs = cs.map single := by
  cases cs with
  | nil => rfl
  | cons c cs =>
    rw [ofChars]
    induction cs generalizing c with
    | nil => rfl
    | cons d cs ih =>
      obtain ⟨hc, htail⟩ := List.forall_mem_cons.mp h
      rw [divide, Edge.joins_start_of_isPlain hc (htail d (List.mem_cons_self ..)), ih d htail]
      rfl

theorem countNewlines_of_isPlain {cs : List Char} (h : ∀ c ∈ cs, IsPlain c) :
    countNewlines (cs.map single) = 0 := by
  refine countNewlines_eq_zero fun g hg => ?_
  obtain ⟨c, hc, rfl⟩ := List.mem_map.mp hg
  have hn : c ≠ '\n' := by
    rintro rfl
    exact absurd (h _ hc) (by decide)
  simp [isNewline, single, hn]

/-! ### Tokens in a row -/

namespace Token

def graphemes (t : Token) : List Grapheme := t.lexeme.toList.map single

def segment (t : Token) : Segment := ⟨t.graphemes, .token t.kind t.literal⟩

theorem join_graphemes (t : Token) : join t.graphemes = t.lexeme := by
  simp [join, graphemes, List.flatMap_map, chars, single]

end Token

/-- Each of the tokens may stand in front of the tokens after it with `rest` behind them. -/
def StandsBefore : List Token → List Grapheme → Prop
  | [], _ => True
  | t :: ts, rest => Cut t.segment (ts.flatMap Token.graphemes ++ rest) ∧ StandsBefore ts rest

theorem standsBefore_append {ts ts' : List Token} {rest : List Grapheme} :
    StandsBefore (ts ++ ts') rest ↔
      StandsBefore ts (ts'.flatMap Token.graphemes ++ rest) ∧ StandsBefore ts' rest := by
  induction ts with
  | nil => simp [StandsBefore]
  | cons t ts ih =>
    rw [List.cons_append, StandsBefore, StandsBefore, ih, List.flatMap_append, List.append_assoc,
      and_assoc]

theorem flatMap_segment (ts : List Token) :
    (ts.map Token.segment).flatMap Segment.graphemes = ts.flatMap Token.graphemes :=
  List.flatMap_map ..

theorem StandsBefore.row {ts : List Token} {rest : List Grapheme} (h : StandsBefore ts rest) :
    Row (ts.map Token.segment) rest := by
  induction ts with
  | nil => trivial
  | cons t ts ih =>
    rw [List.map_cons, Row, flatMap_segment]
    exact ⟨h.1, ih h.2⟩

theorem divide_of_standsBefore {ts : List Token} {rest : List Grapheme}
    (h : StandsBefore ts rest) :
    Segment.divide (ts.flatMap Token.graphemes ++ rest) =
      ts.map Token.segment ++ Segment.divide rest := by
  rw [← flatMap_segment, divide_of_row h.row]

/-- Tokens of plain characters are the tokens of their segments. -/
theorem filterMap_item?_of_isPlain {ts : List Token} (position : Nat)
    (h : ∀ t ∈ ts, t.line = 1 ∧ ∀ c ∈ t.lexeme.toList, IsPlain c) :
    (Located.ofSegments 1 position (ts.map Token.segment)).filterMap Located.item? =
      ts.map ScanItem.token := by
  induction ts generalizing position with
  | nil => rfl
  | cons t ts ih =>
    obtain ⟨⟨hline, hplain⟩, htail⟩ := List.forall_mem_cons.mp h
    have hlines : countNewlines t.segment.graphemes = 0 := countNewlines_of_isPlain hplain
    have hitem : Located.item? ⟨t.segment, 1, position⟩ = some (.token t) := by
      obtain ⟨kind, lexeme, literal, line⟩ := t
      obtain rfl : line = 1 := hline
      simp [Located.item?, Token.segment, Token.join_graphemes]
    rw [List.map_cons, Located.ofSegments, hlines, List.filterMap_cons, hitem, ih _ htail]
    rfl

/-- **Lexemes side by side are scanned as their tokens.** -/
theorem tokenize_of_standsBefore {ts : List Token} (h : StandsBefore ts [])
    (hplain : ∀ t ∈ ts, t.line = 1 ∧ ∀ c ∈ t.lexeme.toList, IsPlain c) :
    tokenize (String.ofList (ts.flatMap (·.lexeme.toList))) = .ok (ts ++ [.eof 1]) := by
  have hchars : ∀ c ∈ ts.flatMap (·.lexeme.toList), IsPlain c := by
    intro c hc
    obtain ⟨t, ht, hc⟩ := List.mem_flatMap.mp hc
    exact (hplain t ht).2 c hc
  have hgs : (ts.flatMap (·.lexeme.toList)).map single = ts.flatMap Token.graphemes :=
    List.map_flatMap
  have hd := divide_of_standsBefore h
  rw [List.append_nil, Segment.divide, List.append_nil, ← hgs] at hd
  have hitems : (Scan.ofString (String.ofList (ts.flatMap (·.lexeme.toList)))).items =
      (ts ++ [Token.eof 1]).map ScanItem.token := by
    rw [Scan.ofString, ofString, String.toList_ofList, ofChars_of_isPlain hchars,
      Scan.ofGraphemes_eq, hd, countNewlines_of_isPlain hchars, filterMap_item?_of_isPlain 0 hplain]
    simp
  have herrors : (Scan.ofString (String.ofList (ts.flatMap (·.lexeme.toList)))).errors = [] := by
    rw [Scan.errors, hitems, List.filterMap_map, List.filterMap_eq_nil_iff]
    exact fun _ _ => rfl
  have htokens : (Scan.ofString (String.ofList (ts.flatMap (·.lexeme.toList)))).tokens =
      ts ++ [Token.eof 1] := by
    rw [Scan.tokens, hitems, List.filterMap_map]
    exact List.filterMap_some
  simp only [tokenize, herrors, htokens]

end Lox
