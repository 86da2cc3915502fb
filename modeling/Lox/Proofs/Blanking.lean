import Lox.Outcome
import Lox.Proofs.Division

/-!
# Faults and comments read as blanks

A scan reports lexical errors and drops them, and it drops comments.  `blankText` writes blanks
instead: a space for each grapheme of a fault or a comment, save for line ends, which stay.  A
segment that is kept does not notice, since a blank may follow it as well as what was there, and so
the new text divides into the old segments with one segment for each blank in place of the others
(`divide_blankText`).

It follows that its scan finds the same tokens on the same lines and nothing else, and that its run
ends as the old one does (`scan_blankText`).
-/

namespace Lox

open Grapheme

/-- Whether a segment is a fault or a comment. -/
def Content.isDropped : Content → Bool
  | invalid | openString | lineComment | blockComment | openComment _ => true
  | token _ _ | space | newline => false

def Grapheme.blank (g : Grapheme) : Grapheme := if g.isNewline then g else single ' '

namespace Segment

/-- The graphemes of a segment, blanks for a fault or a comment. -/
def blankGraphemes (s : Segment) : List Grapheme :=
  if s.content.isDropped then s.graphemes.map blank else s.graphemes

def ofBlank (g : Grapheme) : Segment := ⟨[g], if g.isNewline then .newline else .space⟩

/-- What takes the place of a segment: one segment for each blank, or the segment itself. -/
def blanked (s : Segment) : List Segment :=
  if s.content.isDropped then s.graphemes.map (ofBlank ·.blank) else [s]

end Segment

/-- **A text with blanks for its lexical errors and comments.** -/
def blankText (gs : List Grapheme) : List Grapheme :=
  (Segment.divide gs).flatMap Segment.blankGraphemes

/-! ### How it divides -/

theorem newline_or_space_blank (g : Grapheme) :
    g.blank.isNewline = true ∨ g.blank.isSpace = true := by
  rw [blank]
  split
  · exact .inl ‹_›
  · exact .inr (by decide)

theorem isNewline_blank (g : Grapheme) : g.blank.isNewline = g.isNewline := by
  rw [blank]
  split
  · rfl
  · rename_i hg
    rw [Bool.of_not_eq_true hg]
    decide

theorem cut_ofBlank (g : Grapheme) (rest : List Grapheme) :
    Cut (Segment.ofBlank g.blank) rest := by
  rw [Segment.ofBlank]
  split
  · exact .newline ‹_›
  · exact .space ((newline_or_space_blank g).resolve_left ‹_›)

theorem flatMap_ofBlank (gs : List Grapheme) :
    (gs.map (Segment.ofBlank ·.blank)).flatMap Segment.graphemes = gs.map blank := by
  rw [List.flatMap_map, List.map_eq_flatMap]
  rfl

theorem flatMap_blanked (s : Segment) : s.blanked.flatMap Segment.graphemes = s.blankGraphemes := by
  rw [Segment.blanked, Segment.blankGraphemes]
  split
  · exact flatMap_ofBlank _
  · exact List.flatMap_singleton ..

theorem flatMap_flatMap_blanked (ss : List Segment) :
    (ss.flatMap Segment.blanked).flatMap Segment.graphemes =
      ss.flatMap Segment.blankGraphemes := by
  rw [List.flatMap_assoc]
  simp only [flatMap_blanked]

theorem row_ofBlank (gs rest : List Grapheme) :
    Row (gs.map (Segment.ofBlank ·.blank)) rest := by
  induction gs with
  | nil => trivial
  | cons g gs ih => exact ⟨cut_ofBlank g _, ih⟩

/-- The text begins as before or with a blank. -/
theorem head?_blankGraphemes {ss : List Segment} (h : Row ss []) :
    ∀ g ∈ (ss.flatMap Segment.blankGraphemes).head?,
      g ∈ (ss.flatMap Segment.graphemes).head? ∨ g = single ' ' := by
  cases ss with
  | nil => simp
  | cons s ss =>
    obtain ⟨graphemes, content⟩ := s
    obtain ⟨g, gs, rfl⟩ := List.exists_cons_of_ne_nil h.1.graphemes_ne_nil
    rw [List.flatMap_cons, List.flatMap_cons, Segment.blankGraphemes]
    split
    · intro g' hg'
      obtain rfl : g.blank = g' := by simpa using hg'
      by_cases hn : g.isNewline = true
      · exact .inl (by simp [blank, hn])
      · exact .inr (by simp [blank, hn])
    · intro g' hg'
      exact .inl hg'

theorem Row.blanked {ss : List Segment} (h : Row ss []) :
    Row (ss.flatMap Segment.blanked) [] := by
  induction ss with
  | nil => trivial
  | cons s ss ih =>
    rw [List.flatMap_cons, row_append]
    refine ⟨?_, ih h.2⟩
    by_cases hs : s.content.isDropped = true
    · rw [Segment.blanked, if_pos hs]
      exact row_ofBlank _ _
    · -- a segment that is kept has its end and is no line comment
      rw [Segment.blanked, if_neg hs, flatMap_flatMap_blanked, List.append_nil]
      refine ⟨?_, trivial⟩
      refine h.1.transfer ?_ fun g hg => ?_
      · cases hc : s.content <;> simp_all [Content.isDropped, Content.isOpen]
      · rw [List.flatMap_nil, List.nil_append] at hg
        rw [List.append_nil]
        refine (head?_blankGraphemes h.2 g hg).imp_right fun hg => .inr ⟨by rw [hg]; decide, ?_⟩
        intro hc
        simp [hc, Content.isDropped] at hs

/-- **The text divides into the segments that are kept and the blanks.** -/
theorem divide_blankText (gs : List Grapheme) :
    Segment.divide (blankText gs) = (Segment.divide gs).flatMap Segment.blanked :=
  divide_eq_iff.mpr ⟨flatMap_flatMap_blanked _, (row_divide gs).blanked⟩

/-! ### What its scan finds -/

theorem countNewlines_blankGraphemes (s : Segment) :
    countNewlines s.blankGraphemes = countNewlines s.graphemes := by
  rw [Segment.blankGraphemes]
  split
  · rw [countNewlines, List.countP_map]
    simp only [Function.comp_def, isNewline_blank]
    rfl
  · rfl

theorem length_blankGraphemes (s : Segment) :
    s.blankGraphemes.length = s.graphemes.length := by
  rw [Segment.blankGraphemes]
  split
  · exact List.length_map ..
  · rfl

theorem countNewlines_flatMap_blankGraphemes (ss : List Segment) :
    countNewlines (ss.flatMap Segment.blankGraphemes) =
      countNewlines (ss.flatMap Segment.graphemes) := by
  induction ss with
  | nil => rfl
  | cons s ss ih =>
    rw [List.flatMap_cons, List.flatMap_cons, countNewlines_append, countNewlines_append,
      countNewlines_blankGraphemes, ih]

theorem countNewlines_blankText (gs : List Grapheme) :
    countNewlines (blankText gs) = countNewlines gs := by
  rw [blankText, countNewlines_flatMap_blankGraphemes, flatMap_divide]

theorem located_ofBlank {line position : Nat} {gs : List Grapheme} {l : Located}
    (h : l ∈ Located.ofSegments line position (gs.map (Segment.ofBlank ·.blank))) :
    l.item? = none ∧ l.warning? = none := by
  obtain ⟨g, -, hg⟩ := List.mem_map.mp (segment_mem_of_located h)
  rw [Located.item?, Located.warning?, ← hg, Segment.ofBlank]
  cases g.blank.isNewline <;> exact ⟨rfl, rfl⟩

def Located.token? (l : Located) : Option Token := l.item?.bind ScanItem.token?

theorem token?_of_isDropped {s : Segment} (h : s.content.isDropped = true) (line position : Nat) :
    Located.token? ⟨s, line, position⟩ = none := by
  obtain ⟨graphemes, content⟩ := s
  cases content with
  | token | space | newline => cases h
  | invalid => cases graphemes <;> rfl
  | _ => rfl

theorem item?_of_not_isDropped {s : Segment} (h : ¬ s.content.isDropped = true)
    (line position : Nat) :
    Located.item? ⟨s, line, position⟩ = (Located.token? ⟨s, line, position⟩).map .token ∧
      Located.warning? ⟨s, line, position⟩ = none := by
  obtain ⟨graphemes, content⟩ := s
  cases content with
  | token | space | newline => exact ⟨rfl, rfl⟩
  | _ => exact absurd rfl h

theorem located_blanked (s : Segment) (line position : Nat) :
    (Located.ofSegments line position s.blanked).filterMap Located.item? =
        ((Located.token? ⟨s, line, position⟩).map ScanItem.token).toList ∧
      (Located.ofSegments line position s.blanked).filterMap Located.warning? = [] := by
  rw [Segment.blanked]
  split
  · rename_i hs
    rw [token?_of_isDropped hs]
    exact ⟨List.filterMap_eq_nil_iff.mpr fun l hl => (located_ofBlank hl).1,
      List.filterMap_eq_nil_iff.mpr fun l hl => (located_ofBlank hl).2⟩
  · rename_i hs
    obtain ⟨hitem, hwarning⟩ := item?_of_not_isDropped hs line position
    rw [← hitem]
    refine ⟨?_, ?_⟩
    · cases hi : Located.item? ⟨s, line, position⟩ <;> simp [Located.ofSegments, hi]
    · simp [Located.ofSegments, hwarning]

/-- So in place of all segments their tokens are found, on the lines where they were. -/
theorem located_flatMap_blanked (line position : Nat) (ss : List Segment) :
    (Located.ofSegments line position (ss.flatMap Segment.blanked)).filterMap Located.item? =
        ((Located.ofSegments line position ss).filterMap Located.token?).map .token ∧
      (Located.ofSegments line position (ss.flatMap Segment.blanked)).filterMap
        Located.warning? = [] := by
  induction ss generalizing line position with
  | nil => exact ⟨rfl, rfl⟩
  | cons s ss ih =>
    obtain ⟨hitem, hwarning⟩ := located_blanked s line position
    obtain ⟨hitems, hwarnings⟩ :=
      ih (line + countNewlines s.graphemes) (position + s.graphemes.length)
    rw [List.flatMap_cons, ofSegments_append, flatMap_blanked, countNewlines_blankGraphemes,
      length_blankGraphemes, List.filterMap_append, List.filterMap_append, hitem, hitems, hwarning,
      hwarnings, Located.ofSegments]
    refine ⟨?_, rfl⟩
    cases ht : Located.token? ⟨s, line, position⟩ <;> simp [ht]

theorem tokens_ofGraphemes (gs : List Grapheme) :
    (Scan.ofGraphemes gs).tokens =
      (Located.ofSegments 1 0 (Segment.divide gs)).filterMap Located.token? ++
        [.eof (1 + countNewlines gs)] := by
  rw [Scan.tokens, Scan.ofGraphemes_eq, List.filterMap_append, List.filterMap_filterMap]
  rfl

/-- A token of a scan is of one of the forms of segments, unless it is the end of input. -/
theorem cut_of_mem_tokens {gs : List Grapheme} {t : Token}
    (h : t ∈ (Scan.ofGraphemes gs).tokens) (hkind : t.kind ≠ .eof) :
    ∃ lexeme rest, t.lexeme = join lexeme ∧
      Cut ⟨lexeme, .token t.kind t.literal⟩ rest := by
  rw [tokens_ofGraphemes] at h
  rcases List.mem_append.mp h with h | h
  · obtain ⟨l, hl, htoken⟩ := List.mem_filterMap.mp h
    obtain ⟨s, rest, -, hcut, hreports⟩ := reports_of_mem hl
    obtain ⟨item, hitem, htoken⟩ := Option.bind_eq_some_iff.mp htoken
    rw [hitem] at hreports
    cases hreports with
    | token line =>
      cases htoken
      exact ⟨_, rest, rfl, hcut⟩
    | invalid | openString => cases htoken
  · rw [List.mem_singleton.mp h] at hkind
    exact absurd rfl hkind

theorem items_blankText (gs : List Grapheme) :
    (Scan.ofGraphemes (blankText gs)).items = (Scan.ofGraphemes gs).tokens.map .token := by
  rw [tokens_ofGraphemes, Scan.ofGraphemes_eq, divide_blankText, countNewlines_blankText,
    List.map_append, ← (located_flatMap_blanked 1 0 (Segment.divide gs)).1]
  rfl

theorem warnings_blankText (gs : List Grapheme) :
    (Scan.ofGraphemes (blankText gs)).warnings = [] := by
  rw [Scan.ofGraphemes_eq, divide_blankText]
  exact (located_flatMap_blanked 1 0 (Segment.divide gs)).2

/-! ### How its run ends -/

/-- A run that ends as another does which reported lexical errors first. -/
structure Outcome.EndsAs (o o' : Outcome) (errors : List LexicalError) : Prop where
  value : o.value = o'.value
  parseError : o.parseError = o'.parseError
  runtimeError : o.runtimeError = o'.runtimeError
  shown : o'.shown = errors.map LexicalError.report ++ o.shown

theorem run_endsAs {scan scan' : Scan} (htokens : scan.tokens = scan'.tokens)
    (herrors : scan.errors = []) (config : Config) (showTree : Bool) :
    (scan.run config showTree).EndsAs (scan'.run config showTree) scan'.errors := by
  simp only [Scan.run, htokens, herrors]
  split
  · exact ⟨rfl, rfl, rfl, by simp⟩
  · split
    · exact ⟨rfl, rfl, rfl, by simp⟩
    · exact ⟨rfl, rfl, rfl, by simp⟩

/-- **To drop lexical errors and comments is to read blanks in their place.** -/
theorem scan_blankText (gs : List Grapheme) :
    (Scan.ofGraphemes (blankText gs)).errors = [] ∧
    (Scan.ofGraphemes (blankText gs)).warnings = [] ∧
    (Scan.ofGraphemes (blankText gs)).tokens = (Scan.ofGraphemes gs).tokens ∧
    ∀ config showTree,
      ((Scan.ofGraphemes (blankText gs)).run config showTree).EndsAs
          ((Scan.ofGraphemes gs).run config showTree) (Scan.ofGraphemes gs).errors ∧
      ∀ source source', ofString source = gs → ofString source' = blankText gs →
        (run config showTree source').EndsAs (run config showTree source)
          (Scan.ofString source).errors := by
  have hitems := items_blankText gs
  have herrors : (Scan.ofGraphemes (blankText gs)).errors = [] := by
    rw [Scan.errors, hitems, List.filterMap_map]
    exact List.filterMap_eq_nil_iff.mpr fun _ _ => rfl
  have htokens : (Scan.ofGraphemes (blankText gs)).tokens = (Scan.ofGraphemes gs).tokens := by
    rw [Scan.tokens, hitems, List.filterMap_map]
    exact List.filterMap_some
  refine ⟨herrors, warnings_blankText gs, htokens, fun config showTree => ?_⟩
  have hrun := run_endsAs htokens herrors config showTree
  refine ⟨hrun, fun source source' hsource hsource' => ?_⟩
  rw [run, run, Scan.ofString, Scan.ofString, hsource, hsource']
  exact hrun

/-- A comment over two lines and a stray sign between a number and its operator. -/
theorem scan_blankText_two_lines :
    ofString "1  \n   + 2" = blankText (ofString "1/*\n*/#+ 2") ∧
      (run {} true "1  \n   + 2").EndsAs (run {} true "1/*\n*/#+ 2")
        [⟨.invalidCharacter (single '#'), 2, 6⟩] := by
  have hblank : ofString "1  \n   + 2" = blankText (ofString "1/*\n*/#+ 2") := by decide +kernel
  have herrors : (Scan.ofString "1/*\n*/#+ 2").errors =
      [⟨.invalidCharacter (single '#'), 2, 6⟩] := by
    decide +kernel
  refine ⟨hblank, ?_⟩
  rw [← herrors]
  exact ((scan_blankText (ofString "1/*\n*/#+ 2")).2.2.2 {} true).2 _ _ rfl hblank

end Lox
