import Lox.Proofs.Scanner

/-!
# Nothing is lost in a scan

The segments of a text cover it from end to end, each is of one of the forms of `Cut`, and what a
scan returns is read off them in order (`Scan.ofGraphemes_eq`): a token or an error for each segment
that is no trivia, at the place where the segment starts.  `Lossless` collects what this means for a
scan, and `scan_lossless` says that every scan has it.

Only at the end of a text can a segment lack its end.  So at most one does, an unterminated string
or an unterminated comment, and a scan never reports both.
-/

namespace Lox

open Grapheme

namespace Content

/-- Whether a segment gives neither a token nor an error. -/
def isTrivia : Content → Bool
  | space | newline | lineComment | blockComment | openComment _ => true
  | token _ _ | invalid | openString => false

def isOpen : Content → Bool
  | openString | openComment _ => true
  | _ => false

def openLevels? : Content → Option Nat
  | openComment depth => some depth
  | _ => none

end Content

/-- What a segment adds to the result of a scan if it starts at a position. -/
inductive Reports (position : Nat) : Segment → Option ScanItem → Prop
  | token {gs : List Grapheme} {kind : Kind} {literal : Value} (line : Int) :
      Reports position ⟨gs, .token kind literal⟩ (some (.token ⟨kind, join gs, literal, line⟩))
  | invalid {g : Grapheme} (line : Nat) :
      Reports position ⟨[g], .invalid⟩ (some (.error ⟨.invalidCharacter g, line, position⟩))
  | openString {gs : List Grapheme} (line : Nat) :
      Reports position ⟨gs, .openString⟩ (some (.error ⟨.unterminatedString, line, position⟩))
  | trivia {s : Segment} : s.content.isTrivia = true → Reports position s none

/-- **A scan without loss**, with the segments of the text and what each adds to the result. -/
structure Lossless (gs : List Grapheme) (scan : Scan) (segments : List Segment)
    (reports : List (Option ScanItem)) : Prop where
  /-- The segments cover the text in order. -/
  covers : segments.flatMap Segment.graphemes = gs
  nonempty : ∀ s ∈ segments, s.graphemes ≠ []
  /-- Each is of one of the forms, in front of the text behind it. -/
  formed : ∀ pre s post, segments = pre ++ s :: post → Cut s (post.flatMap Segment.graphemes)
  /-- Each adds to the result what it is, at its place. -/
  reported : ∀ pre s post, segments = pre ++ s :: post → ∃ r, reports[pre.length]? = some r ∧
    Reports (pre.flatMap Segment.graphemes).length s r
  length_reports : reports.length = segments.length
  /-- The result is all that the segments add, and one end of input. -/
  items : ∃ line, scan.items = reports.filterMap id ++ [.token ⟨.eof, "", .nil, line⟩]
  eof_once : ∀ t, some (.token t) ∈ reports → t.kind ≠ .eof
  /-- There is a warning for each comment without its end. -/
  warnings : scan.warnings.map LexicalWarning.depth =
    segments.filterMap (·.content.openLevels?)
  /-- Only the last segment can lack its end. -/
  open_last : ∀ pre s post, segments = pre ++ s :: post → s.content.isOpen = true → post = []
  warnings_length : scan.warnings.length ≤ 1
  /-- An unterminated string and an unterminated comment never meet. -/
  exclusive : ∀ e ∈ scan.errors, e.code = "L002" → scan.warnings = []

/-! ### Segments -/

theorem flatMap_divide (gs : List Grapheme) :
    (Segment.divide gs).flatMap Segment.graphemes = gs := by
  fun_induction Segment.divide gs with
  | case1 => rfl
  | case2 g gs ih => rw [List.flatMap_cons, ih, Segment.next_append]

theorem exists_next_of_divide {gs : List Grapheme} {pre post : List Segment} {s : Segment}
    (h : Segment.divide gs = pre ++ s :: post) :
    ∃ g gs', Segment.next g gs' = (s, post.flatMap Segment.graphemes) := by
  induction pre generalizing gs with
  | nil =>
    cases gs with
    | nil => simp [Segment.divide] at h
    | cons g gs =>
      rw [Segment.divide, List.nil_append, List.cons.injEq] at h
      obtain ⟨rfl, rfl⟩ := h
      rw [flatMap_divide]
      exact ⟨g, gs, rfl⟩
  | cons s' pre ih =>
    cases gs with
    | nil => simp [Segment.divide] at h
    | cons g gs =>
      rw [Segment.divide, List.cons_append, List.cons.injEq] at h
      exact ih h.2

theorem divide_cut {gs : List Grapheme} {pre post : List Segment} {s : Segment}
    (h : Segment.divide gs = pre ++ s :: post) : Cut s (post.flatMap Segment.graphemes) := by
  obtain ⟨g, gs', hnext⟩ := exists_next_of_divide h
  have hcut := Segment.next_cut g gs'
  rwa [hnext] at hcut

theorem Cut.graphemes_ne_nil {s : Segment} {rest : List Grapheme} (h : Cut s rest) :
    s.graphemes ≠ [] := by
  cases h with
  | number hn => obtain ⟨d, ds, rfl, -⟩ := hn; simp
  | word hn | identifier hn => obtain ⟨g, gs, rfl, -⟩ := hn; simp
  | _ => simp

theorem Cut.eq_nil_of_isOpen {s : Segment} {rest : List Grapheme} (h : Cut s rest)
    (ho : s.content.isOpen = true) : rest = [] := by
  cases h with
  | openComment | openString => rfl
  | _ => cases ho

theorem Cut.kind_ne_eof {gs rest : List Grapheme} {kind : Kind} {literal : Value}
    (h : Cut ⟨gs, .token kind literal⟩ rest) : kind ≠ .eof := by
  have hsingles : ∀ p ∈ Kind.singles, p.2 ≠ .eof := by decide
  have hpairs : ∀ p ∈ Kind.pairs, p.2.1 ≠ .eof ∧ p.2.2 ≠ .eof := by decide
  cases h with
  | single h => exact hsingles _ h
  | short h => exact (hpairs _ h).1
  | long h => exact (hpairs _ h).2
  | _ => simp

/-! ### Places -/

theorem ofSegments_append (line position : Nat) (ss ss' : List Segment) :
    Located.ofSegments line position (ss ++ ss') = Located.ofSegments line position ss ++
      Located.ofSegments (line + countNewlines (ss.flatMap Segment.graphemes))
        (position + (ss.flatMap Segment.graphemes).length) ss' := by
  induction ss generalizing line position with
  | nil => simp [Located.ofSegments, countNewlines]
  | cons s ss ih =>
    simp only [List.cons_append, Located.ofSegments, ih, List.flatMap_cons, List.length_append,
      countNewlines_append, Nat.add_assoc]

theorem map_segment_ofSegments (line position : Nat) (ss : List Segment) :
    (Located.ofSegments line position ss).map Located.segment = ss := by
  induction ss generalizing line position with
  | nil => rfl
  | cons s ss ih => rw [Located.ofSegments, List.map_cons, ih]

theorem segment_mem_of_located {line position : Nat} {ss : List Segment} {l : Located}
    (h : l ∈ Located.ofSegments line position ss) : l.segment ∈ ss := by
  rw [← map_segment_ofSegments line position ss]
  exact List.mem_map_of_mem h

theorem length_ofSegments (line position : Nat) (ss : List Segment) :
    (Located.ofSegments line position ss).length = ss.length := by
  rw [← List.length_map (f := Located.segment), map_segment_ofSegments]

theorem Cut.reports {s : Segment} {rest : List Grapheme} (h : Cut s rest) (line position : Nat) :
    Reports position s (Located.item? ⟨s, line, position⟩) := by
  cases h with
  | invalid => exact .invalid line
  | openString => exact .openString line
  | lineComment | blockComment | openComment | space | newline => exact .trivia rfl
  | _ => exact .token line

/-- What is reported of a segment of a text is what it is, at the place where it starts. -/
theorem reported_divide {gs : List Grapheme} {pre post : List Segment} {s : Segment}
    (h : Segment.divide gs = pre ++ s :: post) :
    ∃ r, ((Located.ofSegments 1 0 (Segment.divide gs)).map Located.item?)[pre.length]? = some r ∧
      Reports (pre.flatMap Segment.graphemes).length s r := by
  refine ⟨_, ?_, (divide_cut h).reports (1 + countNewlines (pre.flatMap Segment.graphemes)) _⟩
  have hlen : ((Located.ofSegments 1 0 pre).map Located.item?).length = pre.length := by
    rw [List.length_map, length_ofSegments]
  rw [h, ofSegments_append, List.map_append, List.getElem?_append_right (Nat.le_of_eq hlen), hlen]
  simp [Located.ofSegments]

theorem exists_cut_of_located {gs : List Grapheme} {l : Located}
    (h : l ∈ Located.ofSegments 1 0 (Segment.divide gs)) : ∃ rest, Cut l.segment rest := by
  obtain ⟨pre, post, hd⟩ := List.append_of_mem (segment_mem_of_located h)
  exact ⟨_, divide_cut hd⟩

theorem reports_of_mem {gs : List Grapheme} {l : Located}
    (h : l ∈ Located.ofSegments 1 0 (Segment.divide gs)) :
    ∃ s rest, s ∈ Segment.divide gs ∧ Cut s rest ∧ Reports l.position s l.item? := by
  obtain ⟨rest, hcut⟩ := exists_cut_of_located h
  exact ⟨l.segment, rest, segment_mem_of_located h, hcut, hcut.reports l.line l.position⟩

/-! ### Segments without their end -/

/-- Behind a segment of a text that lacks its end there is no other. -/
theorem divide_eq_nil_of_isOpen {gs : List Grapheme} {pre post : List Segment} {s : Segment}
    (h : Segment.divide gs = pre ++ s :: post) (ho : s.content.isOpen = true) : post = [] := by
  have hnil : post.flatMap Segment.graphemes = [] := (divide_cut h).eq_nil_of_isOpen ho
  cases post with
  | nil => rfl
  | cons s' post =>
    have hs' : Segment.divide gs = (pre ++ [s]) ++ s' :: post := by simpa using h
    rw [List.flatMap_cons, List.append_eq_nil_iff] at hnil
    exact absurd hnil.1 (divide_cut hs').graphemes_ne_nil

theorem filterMap_openLevels?_eq_nil {gs : List Grapheme} {pre post : List Segment} {s : Segment}
    (h : Segment.divide gs = pre ++ s :: post) :
    pre.filterMap (·.content.openLevels?) = [] := by
  rw [List.filterMap_eq_nil_iff]
  intro s' hs'
  obtain ⟨pre', mid, rfl⟩ := List.append_of_mem hs'
  have hsplit : Segment.divide gs = pre' ++ s' :: (mid ++ s :: post) := by simpa using h
  cases hc : s'.content with
  | openComment depth =>
    have hnil := divide_eq_nil_of_isOpen hsplit (by rw [hc]; rfl)
    simp at hnil
  | _ => rfl

theorem warnings_eq (gs : List Grapheme) :
    (Scan.ofGraphemes gs).warnings.map LexicalWarning.depth =
      (Segment.divide gs).filterMap (·.content.openLevels?) := by
  have hl (l : Located) : l.warning?.map LexicalWarning.depth = l.segment.content.openLevels? := by
    unfold Located.warning? Content.openLevels?
    split <;> simp_all
  have hs := List.filterMap_map (f := Located.segment) (g := (·.content.openLevels?))
    (l := Located.ofSegments 1 0 (Segment.divide gs))
  rw [map_segment_ofSegments] at hs
  rw [hs, Scan.ofGraphemes_eq, List.map_filterMap]
  simp only [hl, Function.comp_def]

theorem warnings_length_le (gs : List Grapheme) : (Scan.ofGraphemes gs).warnings.length ≤ 1 := by
  rw [← List.length_map (f := LexicalWarning.depth), warnings_eq]
  rcases List.eq_nil_or_concat (Segment.divide gs) with h | ⟨pre, s, h⟩
  · simp [h]
  · rw [List.concat_eq_append] at h
    rw [h, List.filterMap_append, filterMap_openLevels?_eq_nil h, List.nil_append]
    exact List.length_filterMap_le _ _

theorem Scan.mem_errors {s : Scan} {e : LexicalError} : e ∈ s.errors ↔ .error e ∈ s.items := by
  rw [Scan.errors, List.mem_filterMap]
  constructor
  · rintro ⟨item, hitem, he⟩
    cases item with
    | token t => cases he
    | error e' =>
      cases he
      exact hitem
  · exact fun h => ⟨_, h, rfl⟩

/-- An error for an unterminated string comes from a segment that is one. -/
theorem exists_openString {gs : List Grapheme} {e : LexicalError}
    (he : e ∈ (Scan.ofGraphemes gs).errors) (hc : e.code = "L002") :
    ∃ s ∈ Segment.divide gs, s.content = .openString := by
  rcases Scan.mem_items.mp (Scan.mem_errors.mp he) with ⟨l, hl, hli⟩ | heof
  · obtain ⟨s, rest, hs, -, hr⟩ := reports_of_mem hl
    rw [hli] at hr
    cases hr with
    | invalid line => exact absurd hc (by simp [LexicalError.code])
    | openString line => exact ⟨_, hs, rfl⟩
  · cases heof

theorem warnings_eq_nil_of_openString {gs : List Grapheme} {s : Segment}
    (hs : s ∈ Segment.divide gs) (hc : s.content = .openString) :
    (Scan.ofGraphemes gs).warnings = [] := by
  obtain ⟨pre, post, h⟩ := List.append_of_mem hs
  obtain rfl := divide_eq_nil_of_isOpen h (by rw [hc]; rfl)
  have hw := warnings_eq gs
  rw [h, List.filterMap_append, filterMap_openLevels?_eq_nil h] at hw
  simpa [hc, Content.openLevels?] using hw

/-! ### The whole scan -/

theorem kind_ne_eof_of_mem {gs : List Grapheme} {t : Token}
    (h : some (.token t) ∈ (Located.ofSegments 1 0 (Segment.divide gs)).map Located.item?) :
    t.kind ≠ .eof := by
  obtain ⟨l, hl, hli⟩ := List.mem_map.mp h
  obtain ⟨s, rest, -, hcut, hr⟩ := reports_of_mem hl
  rw [hli] at hr
  cases hr with
  | token line => exact hcut.kind_ne_eof

/-- **Every scan is one without loss.** -/
theorem scan_lossless (gs : List Grapheme) :
    ∃ segments reports, Lossless gs (Scan.ofGraphemes gs) segments reports := by
  refine ⟨Segment.divide gs, (Located.ofSegments 1 0 (Segment.divide gs)).map Located.item?, ?_⟩
  exact {
    covers := flatMap_divide gs
    nonempty := by
      intro s hs
      obtain ⟨pre, post, h⟩ := List.append_of_mem hs
      exact (divide_cut h).graphemes_ne_nil
    formed := fun _ _ _ h => divide_cut h
    reported := fun _ _ _ h => reported_divide h
    length_reports := by rw [List.length_map, length_ofSegments]
    items := ⟨1 + countNewlines gs, by simp [Scan.ofGraphemes_eq, List.filterMap_map, Token.eof]⟩
    eof_once := fun _ h => kind_ne_eof_of_mem h
    warnings := warnings_eq gs
    open_last := fun _ _ _ h ho => divide_eq_nil_of_isOpen h ho
    warnings_length := warnings_length_le gs
    exclusive := by
      intro e he hc
      obtain ⟨s, hs, hopen⟩ := exists_openString he hc
      exact warnings_eq_nil_of_openString hs hopen }

end Lox
