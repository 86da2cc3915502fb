import Lox.Proofs.Division

/-!
# Scans of texts joined by a line end

A line end may follow every segment that has its end.  So in front of one a text divides as it does
alone, and behind it another text begins afresh (`divide_append_newline`).  What the second text
adds to the scan is what its own scan finds, only further down and further on: all lines and
positions are shifted by the lines and the graphemes in front (`Located.shift`).

The first text must not end within a string or a block comment, which would take in the line end and
what comes behind it.  A line comment at its end does no harm.
-/

namespace Lox

open Grapheme

/-! ### The segments -/

theorem Row.before_newline {ss : List Segment} (h : Row ss [])
    (hopen : ∀ s ∈ ss, s.content.isOpen = false) {n : Grapheme} (hn : n.isNewline = true)
    (rest : List Grapheme) : Row ss (n :: rest) := by
  induction ss with
  | nil => trivial
  | cons s ss ih =>
    obtain ⟨hs, hss⟩ := List.forall_mem_cons.mp hopen
    refine ⟨h.1.transfer hs fun g hg => ?_, ih h.2 hss⟩
    cases hgs : ss.flatMap Segment.graphemes with
    | nil =>
      rw [hgs] at hg
      obtain rfl : n = g := by simpa using hg
      exact .inr (.inl hn)
    | cons g' gs =>
      rw [hgs] at hg
      exact .inl hg

theorem divide_append_newline {a : List Grapheme}
    (hopen : ∀ s ∈ Segment.divide a, s.content.isOpen = false) {n : Grapheme}
    (hn : n.isNewline = true) (b : List Grapheme) :
    Segment.divide (a ++ n :: b) =
      Segment.divide a ++ ⟨[n], .newline⟩ :: Segment.divide b := by
  have hrow := divide_of_row ((row_divide a).before_newline hopen hn b)
  rw [flatMap_divide] at hrow
  rw [hrow, Segment.divide.eq_2, Segment.next_of_isNewline hn]

/-- Each segment without its end is reported. -/
theorem isOpen_eq_false_of_scan {gs : List Grapheme}
    (hstring : ∀ e ∈ (Scan.ofGraphemes gs).errors, e.fault ≠ .unterminatedString)
    (hcomment : (Scan.ofGraphemes gs).warnings = []) {s : Segment} (hs : s ∈ Segment.divide gs) :
    s.content.isOpen = false := by
  rw [← map_segment_ofSegments 1 0 (Segment.divide gs)] at hs
  obtain ⟨l, hl, rfl⟩ := List.mem_map.mp hs
  cases hc : l.segment.content with
  | openString =>
    have hitem : l.item? = some (.error ⟨.unterminatedString, l.line, l.position⟩) := by
      rw [Located.item?, hc]
    refine absurd rfl (hstring ⟨.unterminatedString, l.line, l.position⟩ ?_)
    exact Scan.mem_errors.mpr (Scan.mem_items.mpr (.inl ⟨l, hl, hitem⟩))
  | openComment depth =>
    have hwarning : l.warning? = some ⟨l.line, depth⟩ := by
      rw [Located.warning?, hc]
    rw [Scan.warnings_ofGraphemes] at hcomment
    have hnone := List.filterMap_eq_nil_iff.mp hcomment l hl
    rw [hwarning] at hnone
    cases hnone
  | _ => rfl

/-! ### Places further on -/

def ScanItem.shift (lines positions : Nat) : ScanItem → ScanItem
  | token t => token { t with line := t.line + lines }
  | error e => error { e with line := e.line + lines, position := e.position + positions }

def LexicalWarning.shift (lines : Nat) (w : LexicalWarning) : LexicalWarning :=
  { w with line := w.line + lines }

def Located.shift (lines positions : Nat) (l : Located) : Located :=
  { l with line := l.line + lines, position := l.position + positions }

theorem ofSegments_shift (line position lines positions : Nat) (ss : List Segment) :
    Located.ofSegments (line + lines) (position + positions) ss =
      (Located.ofSegments line position ss).map (Located.shift lines positions) := by
  induction ss generalizing line position with
  | nil => rfl
  | cons s ss ih =>
    rw [Located.ofSegments, Located.ofSegments, List.map_cons, ← ih, Nat.add_right_comm line,
      Nat.add_right_comm position]
    rfl

theorem item?_shift (lines positions : Nat) (l : Located) :
    (l.shift lines positions).item? = l.item?.map (ScanItem.shift lines positions) := by
  obtain ⟨⟨graphemes, content⟩, line, position⟩ := l
  cases content with
  | token kind literal =>
    simp [Located.item?, Located.shift, ScanItem.shift]
  | invalid => cases graphemes <;> rfl
  | _ => rfl

theorem warning?_shift (lines positions : Nat) (l : Located) :
    (l.shift lines positions).warning? = l.warning?.map (LexicalWarning.shift lines) := by
  obtain ⟨⟨graphemes, content⟩, line, position⟩ := l
  cases content <;> rfl

/-! ### The scan -/

/-- The segments behind a line end are placed as in their own text, only further on. -/
theorem located_append_newline {a : List Grapheme}
    (hopen : ∀ s ∈ Segment.divide a, s.content.isOpen = false) {n : Grapheme}
    (hn : n.isNewline = true) (b : List Grapheme) :
    Located.ofSegments 1 0 (Segment.divide (a ++ n :: b)) =
      Located.ofSegments 1 0 (Segment.divide a) ++
        ⟨⟨[n], .newline⟩, 1 + countNewlines a, a.length⟩ ::
          (Located.ofSegments 1 0 (Segment.divide b)).map
            (Located.shift (1 + countNewlines a) (a.length + 1)) := by
  have hcount : countNewlines [n] = 1 := by simp [countNewlines, hn]
  rw [divide_append_newline hopen hn, ofSegments_append, flatMap_divide, Located.ofSegments,
    hcount, ← ofSegments_shift, Nat.zero_add, Nat.add_comm (1 + countNewlines a) 1, Nat.zero_add,
    List.length_singleton]

theorem filterMap_item?_shift (lines positions : Nat) (ls : List Located) :
    (ls.map (Located.shift lines positions)).filterMap Located.item? =
      (ls.filterMap Located.item?).map (ScanItem.shift lines positions) := by
  rw [List.filterMap_map, List.map_filterMap]
  simp only [Function.comp_def, item?_shift]

theorem filterMap_warning?_shift (lines positions : Nat) (ls : List Located) :
    (ls.map (Located.shift lines positions)).filterMap Located.warning? =
      (ls.filterMap Located.warning?).map (LexicalWarning.shift lines) := by
  rw [List.filterMap_map, List.map_filterMap]
  simp only [Function.comp_def, warning?_shift]

theorem eof_shift (a b : List Grapheme) (positions : Nat) :
    ScanItem.shift (1 + countNewlines a) positions (.token (.eof (1 + countNewlines b : Nat))) =
      .token (.eof (1 + countNewlines (a ++ single '\n' :: b) : Nat)) := by
  have hcount : countNewlines (a ++ single '\n' :: b) =
      countNewlines a + (countNewlines b + 1) := by
    rw [countNewlines_append, countNewlines, countNewlines, List.countP_cons_of_pos (by decide)]
    rfl
  have hline : ((1 + countNewlines b : Nat) : Int) + (1 + countNewlines a : Nat) =
      (1 + countNewlines (a ++ single '\n' :: b) : Nat) := by
    rw [hcount]
    omega
  rw [ScanItem.shift, ← hline]
  rfl

/-- **Scans compose at line ends.**  A text without an unterminated string or block comment, a line
end and another text are scanned as the first text, without its end of input, and then as the second
text with all its places shifted. -/
theorem scan_append_newline (a b : List Grapheme)
    (hstring : ∀ e ∈ (Scan.ofGraphemes a).errors, e.fault ≠ .unterminatedString)
    (hcomment : (Scan.ofGraphemes a).warnings = []) :
    (Scan.ofGraphemes a).items.getLast? = some (.token (.eof (1 + countNewlines a))) ∧
    (Scan.ofGraphemes (a ++ single '\n' :: b)).items =
      (Scan.ofGraphemes a).items.dropLast ++ (Scan.ofGraphemes b).items.map
        (ScanItem.shift (1 + countNewlines a) (a.length + 1)) ∧
    (Scan.ofGraphemes (a ++ single '\n' :: b)).warnings =
      (Scan.ofGraphemes b).warnings.map (LexicalWarning.shift (1 + countNewlines a)) := by
  have hopen : ∀ s ∈ Segment.divide a, s.content.isOpen = false :=
    fun _ hs => isOpen_eq_false_of_scan hstring hcomment hs
  have hn : (single '\n').isNewline = true := by decide
  have hlocated := located_append_newline hopen hn b
  refine ⟨?_, ?_, ?_⟩
  · rw [Scan.items_ofGraphemes, List.getLast?_concat]
    rfl
  · simp only [Scan.ofGraphemes_eq, hlocated, List.filterMap_append, List.map_append,
      List.map_singleton, eof_shift, List.dropLast_concat, List.append_assoc]
    rw [List.filterMap_cons_none rfl, filterMap_item?_shift]
  · have hwarnings :
        (Located.ofSegments 1 0 (Segment.divide a)).filterMap Located.warning? = [] := by
      rw [← Scan.warnings_ofGraphemes, hcomment]
    simp only [Scan.ofGraphemes_eq, hlocated, List.filterMap_append, hwarnings, List.nil_append]
    rw [List.filterMap_cons_none rfl, filterMap_warning?_shift]

/-- A comment up to the line end, and behind it a string that the first text does not see. -/
theorem scan_append_newline_open_string :
    (Scan.ofGraphemes ([single '#', single '\n', single '/', single '/', single '"'] ++
        single '\n' :: [single ';', single '"', single '\n'])).items =
      [.error ⟨.invalidCharacter (single '#'), 1, 0⟩, .token ⟨.semicolon, ";", .nil, 3⟩,
        .error ⟨.unterminatedString, 3, 7⟩, .token (.eof 4)] := by
  have hjoined := (scan_append_newline
    [single '#', single '\n', single '/', single '/', single '"']
    [single ';', single '"', single '\n'] (by decide +kernel) (by decide +kernel)).2.1
  rw [hjoined]
  decide +kernel

end Lox
