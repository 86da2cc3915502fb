import Lox.Proofs.Lexeme

/-!
# Lines of tokens, errors and warnings

The line of a grapheme is one more than the line ends in front of it (`lineAt`).  All that a scan
reports carries the line of the first grapheme of its segment, and the end of input that of the end
of the text (`scan_lines_exact`).  So a string over several lines, or a string or a comment without
its end, is on the line where it opens.

A scanner has no such count to look up.  It raises its line at each line end that it comes upon, and
that it neither misses one nor counts one twice is `Scanner.run_eq`, which places what it reports by
the segments of the text.  From there on, `exists_segment_of_items` finds the segment that an item
comes from, and `lineAt_divide` the line on which it starts.  Lines only grow along the segments, and
so along the items.
-/

namespace Lox

/-- The line on which the grapheme at a position stands. -/
def lineAt (gs : List Grapheme) (position : Nat) : Nat := 1 + countNewlines (gs.take position)

def ScanItem.line : ScanItem → Int
  | token t => t.line
  | error e => e.line

/-! ### Where segments start -/

theorem lineAt_divide {gs : List Grapheme} {pre post : List Segment}
    (h : Segment.divide gs = pre ++ post) :
    lineAt gs (pre.flatMap Segment.graphemes).length =
      1 + countNewlines (pre.flatMap Segment.graphemes) := by
  have hcovers := flatMap_divide gs
  rw [h, List.flatMap_append] at hcovers
  rw [lineAt, ← hcovers, List.take_left]

theorem lineAt_length (gs : List Grapheme) : lineAt gs gs.length = 1 + countNewlines gs := by
  rw [lineAt, List.take_length]

theorem located_of_split {gs : List Grapheme} {ls ls' : List Located} {l : Located}
    (h : Located.ofSegments 1 0 (Segment.divide gs) = ls ++ l :: ls') :
    ∃ pre s post, Segment.divide gs = pre ++ s :: post ∧ Located.ofSegments 1 0 pre = ls ∧
      l = ⟨s, lineAt gs (pre.flatMap Segment.graphemes).length,
        (pre.flatMap Segment.graphemes).length⟩ := by
  obtain ⟨hd, hls⟩ := ofSegments_of_append h
  refine ⟨ls.map Located.segment, l.segment, ls'.map Located.segment, hd, hls, ?_⟩
  rw [lineAt_divide hd]
  rw [hd, ofSegments_append, hls] at h
  have hl := (List.cons.inj (List.append_cancel_left h)).1
  rw [← hl]
  simp

/-- An item of a scan is the end of input, or comes from a segment; those before it come from the
segments before that one. -/
theorem exists_segment_of_items {gs : List Grapheme} {before after : List ScanItem}
    {item : ScanItem} (h : (Scan.ofGraphemes gs).items = before ++ item :: after) :
    (item = .token (.eof (lineAt gs gs.length)) ∧ after = []) ∨
      ∃ pre s post, Segment.divide gs = pre ++ s :: post ∧
        (Located.ofSegments 1 0 pre).filterMap Located.item? = before ∧
        Located.item? ⟨s, lineAt gs (pre.flatMap Segment.graphemes).length,
          (pre.flatMap Segment.graphemes).length⟩ = some item := by
  rw [Scan.items_ofGraphemes] at h
  rcases List.eq_nil_or_concat after with rfl | ⟨after, last, rfl⟩
  · obtain ⟨-, heof⟩ := List.append_inj' h rfl
    cases heof
    rw [lineAt_length]
    exact .inl ⟨rfl, rfl⟩
  · right
    rw [List.concat_eq_append, ← List.cons_append, ← List.append_assoc] at h
    obtain ⟨hitems, -⟩ := List.append_inj' h rfl
    obtain ⟨ls, ls', hsplit, hbefore, hrest⟩ := List.filterMap_eq_append_iff.mp hitems
    obtain ⟨skipped, l, ls'', rfl, hskip, hl, -⟩ := List.filterMap_eq_cons_iff.mp hrest
    rw [← List.append_assoc] at hsplit
    obtain ⟨pre, s, post, hd, hpre, rfl⟩ := located_of_split hsplit
    refine ⟨pre, s, post, hd, ?_, hl⟩
    rw [hpre, List.filterMap_append, hbefore, List.filterMap_eq_nil_iff.mpr hskip, List.append_nil]

theorem line_of_item? {l : Located} {item : ScanItem} (h : l.item? = some item) :
    item.line = l.line := by
  rw [Located.item?] at h
  split at h
  · cases h
    rfl
  · obtain ⟨g, -, rfl⟩ := Option.map_eq_some_iff.mp h
    rfl
  · cases h
    rfl
  · cases h

theorem exists_segment_of_warning {gs : List Grapheme} {w : LexicalWarning}
    (h : w ∈ (Scan.ofGraphemes gs).warnings) :
    ∃ pre s, Segment.divide gs = pre ++ [s] ∧ s.content = .openComment w.depth ∧
      w.line = lineAt gs (pre.flatMap Segment.graphemes).length := by
  rw [Scan.warnings_ofGraphemes] at h
  obtain ⟨l, hl, hw⟩ := List.mem_filterMap.mp h
  obtain ⟨ls, ls', hsplit⟩ := List.append_of_mem hl
  obtain ⟨pre, s, post, hd, -, rfl⟩ := located_of_split hsplit
  rw [Located.warning?] at hw
  split at hw
  · rename_i depth hcontent
    cases hw
    obtain rfl := divide_eq_nil_of_isOpen hd (by rw [hcontent]; rfl)
    exact ⟨pre, s, hd, hcontent, rfl⟩
  · cases hw

/-! ### Lines only grow -/

/-- The segments of a text lie between the line where it begins and the line where it ends. -/
theorem line_of_mem_ofSegments {line position : Nat} {ss : List Segment} {l : Located}
    (h : l ∈ Located.ofSegments line position ss) :
    line ≤ l.line ∧ l.line ≤ line + countNewlines (ss.flatMap Segment.graphemes) := by
  induction ss generalizing line position with
  | nil => cases h
  | cons s ss ih =>
    rw [List.flatMap_cons, countNewlines_append]
    rcases List.mem_cons.mp h with rfl | h
    · exact ⟨Nat.le_refl _, by simp⟩
    · obtain ⟨hlow, hhigh⟩ := ih h
      omega

theorem pairwise_ofSegments (line position : Nat) (ss : List Segment) :
    (Located.ofSegments line position ss).Pairwise (·.line ≤ ·.line) := by
  induction ss generalizing line position with
  | nil => exact List.Pairwise.nil
  | cons s ss ih =>
    refine List.Pairwise.cons (fun l hl => ?_) (ih _ _)
    have hlow := (line_of_mem_ofSegments hl).1
    show line ≤ l.line
    omega

theorem pairwise_items (gs : List Grapheme) :
    (Scan.ofGraphemes gs).items.Pairwise (·.line ≤ ·.line) := by
  rw [Scan.ofGraphemes_eq, List.pairwise_append]
  refine ⟨?_, List.pairwise_singleton _ _, ?_⟩
  · refine List.Pairwise.filterMap _ ?_ (pairwise_ofSegments 1 0 (Segment.divide gs))
    intro l l' hle item hitem item' hitem'
    rw [line_of_item? hitem, line_of_item? hitem']
    exact_mod_cast hle
  · intro item hitem last hlast
    obtain ⟨l, hl, hli⟩ := List.mem_filterMap.mp hitem
    have hhigh := (line_of_mem_ofSegments hl).2
    rw [flatMap_divide] at hhigh
    rw [List.mem_singleton.mp hlast, line_of_item? hli]
    show (l.line : Int) ≤ ((1 + countNewlines gs : Nat) : Int)
    exact_mod_cast hhigh

/-! ### The whole scan -/

/-- **Lines are exact.**  A token or an error is on the line of the first grapheme of its segment,
and so is a warning; the scanner ends on the line of the end, and so does the end of input, which is
last; and lines never go back. -/
theorem scan_lines_exact (gs : List Grapheme) :
    (∀ before item after, (Scan.ofGraphemes gs).items = before ++ item :: after →
      (item = .token (.eof (lineAt gs gs.length)) ∧ after = []) ∨
        ∃ pre s post, Segment.divide gs = pre ++ s :: post ∧
          (Located.ofSegments 1 0 pre).filterMap Located.item? = before ∧
          Reports (pre.flatMap Segment.graphemes).length s (some item) ∧
          item.line = lineAt gs (pre.flatMap Segment.graphemes).length) ∧
    (∀ w ∈ (Scan.ofGraphemes gs).warnings, ∃ pre s, Segment.divide gs = pre ++ [s] ∧
      s.content = .openComment w.depth ∧
      w.line = lineAt gs (pre.flatMap Segment.graphemes).length) ∧
    (Scan.ofGraphemes gs).items.getLast? = some (.token (.eof (lineAt gs gs.length))) ∧
    (Scan.ofGraphemes gs).line = lineAt gs gs.length ∧
    (Scan.ofGraphemes gs).items.Pairwise (·.line ≤ ·.line) := by
  refine ⟨?_, fun w hw => exists_segment_of_warning hw, ?_, ?_, pairwise_items gs⟩
  · intro before item after h
    rcases exists_segment_of_items h with heof | ⟨pre, s, post, hd, hbefore, hitem⟩
    · exact .inl heof
    · refine .inr ⟨pre, s, post, hd, hbefore, ?_, line_of_item? hitem⟩
      rw [← hitem]
      exact (divide_cut hd).reports _ _
  · rw [Scan.items_ofGraphemes, List.getLast?_concat, lineAt_length]
  · rw [Scan.ofGraphemes_eq, lineAt_length]

-- a string over two lines, and a comment without its end that opens on the third
example : (Scan.ofString "\"a\nb\" 1\n/* c\nd").items.map ScanItem.line = [1, 2, 4] ∧
    (Scan.ofString "\"a\nb\" 1\n/* c\nd").warnings = [⟨3, 1⟩] := by
  decide +kernel

end Lox
