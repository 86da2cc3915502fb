import Lox.Proofs.Division
import Mathlib.Data.List.Basic

/-!
# Both spellings of a line end

A line end is one character or two, and a scan takes either for the same.  `Grapheme.crlf` spells a
line end with two characters, and `scan_crlf` says what this changes in the scan of a text: the line
ends within strings, in the lexeme and in the payload, and nothing else.

A scanner looks for line ends in four places: between tokens, at the end of a line comment, within
block comments and within strings.  What it reads is the segments of the text (`Scanner.run_eq`), so
that these agree is a matter of the forms of segments.  A segment may stand in front of the one
spelling if it may stand in front of the other (`Cut.map_crlf`), and it keeps its form if the line
ends within it are spelt otherwise (`Cut.crlf`).  So the new text divides into the old segments with
the new line ends in them (`divide_map_crlf`).
-/

namespace Lox

open Grapheme

/-! ### Definitions -/

/-- A line end of one character becomes one of two; all else stays. -/
def Grapheme.crlf (g : Grapheme) : Grapheme := if g = single '\n' then ⟨'\r', ['\n']⟩ else g

/-- The content of a segment that is read from `lexeme`, with the new line ends in its payload. -/
def Content.crlf (lexeme : List Grapheme) : Content → Content
  | token kind literal =>
    token kind (if kind = .string then .string (join (lexeme.tail.dropLast.map Grapheme.crlf))
      else literal)
  | content => content

def Segment.crlf (s : Segment) : Segment :=
  ⟨s.graphemes.map Grapheme.crlf, s.content.crlf s.graphemes⟩

/-- An item that is read from `lexeme`, with the new line ends: those of a string in its lexeme, and
between the quotes in its payload. -/
def ScanItem.crlf (lexeme : List Grapheme) : ScanItem → ScanItem
  | token t =>
    if t.kind = .string then
      token { t with
        lexeme := join (lexeme.map Grapheme.crlf)
        literal := .string (join (lexeme.tail.dropLast.map Grapheme.crlf)) }
    else token t
  | error e => error e

/-! ### Graphemes -/

theorem crlf_of_ne {g : Grapheme} (h : g ≠ single '\n') : g.crlf = g := if_neg h

/-- What holds of both line ends or of neither does not notice the spelling. -/
theorem apply_crlf {α : Type} {f : Grapheme → α} (h : f ⟨'\r', ['\n']⟩ = f (single '\n'))
    (g : Grapheme) : f g.crlf = f g := by
  by_cases hg : g = single '\n'
  · rw [hg]
    exact h
  · rw [crlf_of_ne hg]

theorem isNewline_crlf (g : Grapheme) : g.crlf.isNewline = g.isNewline :=
  apply_crlf (by decide) g

/-- A character that is no line end is not made and not lost. -/
theorem crlf_eq_single {c : Char} (hc : c ≠ '\n') (g : Grapheme) :
    g.crlf = single c ↔ g = single c := by
  by_cases hg : g = single '\n'
  · have hold : single '\n' ≠ single c := by simpa [single] using hc.symm
    have hnew : (single '\n').crlf ≠ single c := by simp [Grapheme.crlf, single]
    rw [hg]
    exact ⟨fun h => absurd h hnew, fun h => absurd h hold⟩
  · rw [crlf_of_ne hg]

theorem map_crlf_of_ne {gs : List Grapheme} (h : ∀ g ∈ gs, g ≠ single '\n') :
    gs.map Grapheme.crlf = gs := by
  induction gs with
  | nil => rfl
  | cons g gs ih =>
    obtain ⟨hg, hgs⟩ := List.forall_mem_cons.mp h
    rw [List.map_cons, crlf_of_ne hg, ih hgs]

theorem countNewlines_map_crlf (gs : List Grapheme) :
    countNewlines (gs.map Grapheme.crlf) = countNewlines gs := by
  rw [countNewlines, countNewlines, List.countP_map]
  congr 1
  funext g
  exact isNewline_crlf g

/-! ### Segments in front of the new text -/

/-- A segment does not notice how the line end behind it is spelt. -/
theorem Cut.map_crlf {s : Segment} {rest : List Grapheme} (h : Cut s rest) :
    Cut s (rest.map Grapheme.crlf) := by
  by_cases hopen : s.content.isOpen = true
  · obtain rfl := h.eq_nil_of_isOpen hopen
    exact h
  · apply h.transfer (Bool.of_not_eq_true hopen)
    intro g hg
    cases rest with
    | nil => cases hg
    | cons n rest =>
      obtain rfl : n.crlf = g := Option.some.inj hg
      by_cases hn : n = .single '\n'
      · right
        left
        rw [hn]
        decide
      · left
        rw [crlf_of_ne hn]
        rfl

/-! ### Segments with the new line ends -/

/-- Whether a segment can have line ends in it. -/
def Content.spansLines : Content → Bool
  | token kind _ => kind = .string
  | newline | openString | blockComment | openComment _ => true
  | invalid | space | lineComment => false

theorem ne_lineFeed_of {P : Grapheme → Bool} (hP : P (single '\n') = false) {g : Grapheme}
    (h : P g = true) : g ≠ single '\n' := by
  rintro rfl
  rw [hP] at h
  cases h

/-- A segment that cannot span lines has no line end in it. -/
theorem Cut.ne_lineFeed {s : Segment} {rest : List Grapheme} (h : Cut s rest)
    (hs : s.content.spansLines = false) : ∀ g ∈ s.graphemes, g ≠ .single '\n' := by
  have hsingles : ∀ p ∈ Kind.singles, Grapheme.single p.1 ≠ .single '\n' := by decide
  have hpairs : ∀ p ∈ Kind.pairs, Grapheme.single p.1 ≠ .single '\n' := by decide
  cases h with
  | single hm => simpa using hsingles _ hm
  | short hm => simpa using hpairs _ hm
  | long hm => simpa using ⟨hpairs _ hm, by decide⟩
  | slash => decide
  | lineComment hbody =>
    intro g hg
    rcases List.mem_cons.mp hg with rfl | hg
    · decide
    rcases List.mem_cons.mp hg with rfl | hg
    · decide
    rintro rfl
    exact absurd (hbody _ hg) (by decide)
  | space hg => simpa using ne_lineFeed_of (P := isSpace) (by decide) hg
  | number hn =>
    obtain ⟨d, ds, rfl, hd, hds, -⟩ := hn
    refine List.forall_mem_cons.mpr ⟨ne_lineFeed_of (P := isDigit) (by decide) hd, ?_⟩
    intro g hg
    rcases hds g hg with hg | rfl
    · exact ne_lineFeed_of (P := isDigit) (by decide) hg
    · decide
  | word hn | identifier hn =>
    obtain ⟨n, ns, rfl, hn, hns⟩ := hn
    refine List.forall_mem_cons.mpr ⟨ne_lineFeed_of (P := startsName) (by decide +kernel) hn, ?_⟩
    intro g hg
    exact ne_lineFeed_of (P := continuesName) (by decide +kernel) (hns g hg)
  | invalid hg =>
    intro g' hg'
    obtain rfl := List.mem_singleton.mp hg'
    rintro rfl
    exact absurd hg.newline (by decide)
  | blockComment | openComment | newline | string | openString => cases hs

theorem Cut.crlf_eq {s : Segment} {rest : List Grapheme} (h : Cut s rest)
    (hs : s.content.spansLines = false) : s.crlf = s := by
  have hmap := map_crlf_of_ne (h.ne_lineFeed hs)
  obtain ⟨graphemes, content⟩ := s
  rw [Segment.crlf, hmap]
  cases content with
  | token kind literal =>
    have hkind : kind ≠ .string := of_decide_eq_false hs
    rw [Content.crlf, if_neg hkind]
  | _ => rfl

def CommentUnit.crlf : CommentUnit → CommentUnit
  | plain g => plain g.crlf
  | u => u

theorem commentUnits_map_crlf (gs : List Grapheme) :
    commentUnits (gs.map Grapheme.crlf) = (commentUnits gs).map CommentUnit.crlf := by
  have hpair {g h : Grapheme} {c d : Char} (hc : c ≠ '\n') (hd : d ≠ '\n') :
      g.crlf = single c ∧ h.crlf = single d ↔ g = single c ∧ h = single d :=
    and_congr (crlf_eq_single hc g) (crlf_eq_single hd h)
  fun_induction commentUnits gs with
  | case1 => rfl
  | case2 g => rfl
  | case3 g h gs hp ih =>
    rw [List.map_cons, List.map_cons, commentUnits,
      if_pos ((hpair (by decide) (by decide)).mpr hp), ih]
    rfl
  | case4 g h gs hp hp' ih =>
    rw [List.map_cons, List.map_cons, commentUnits,
      if_neg (mt (hpair (by decide) (by decide)).mp hp),
      if_pos ((hpair (by decide) (by decide)).mpr hp'), ih]
    rfl
  | case5 g h gs hp hp' ih =>
    rw [List.map_cons, List.map_cons, commentUnits,
      if_neg (mt (hpair (by decide) (by decide)).mp hp),
      if_neg (mt (hpair (by decide) (by decide)).mp hp'), ← List.map_cons, ih]
    rfl

/-- Line ends open and close no level. -/
theorem Levels.map_crlf {us : List CommentUnit} {n m : Int} (h : Levels n us m) :
    Levels n (us.map CommentUnit.crlf) m := by
  induction us generalizing n with
  | nil => exact h
  | cons u us ih =>
    have hstep : u.crlf.step = u.step := by cases u <;> rfl
    refine ⟨h.1, ?_⟩
    rw [hstep]
    exact ih h.2

theorem ne_quote_map_crlf {body : List Grapheme} (h : ∀ g ∈ body, g ≠ single '"') :
    ∀ g ∈ body.map Grapheme.crlf, g ≠ single '"' := by
  intro g hg
  obtain ⟨g', hg', rfl⟩ := List.mem_map.mp hg
  intro hquote
  exact h g' hg' ((crlf_eq_single (by decide) g').mp hquote)

theorem Segment.crlf_string (body : List Grapheme) :
    Segment.crlf ⟨single '"' :: (body ++ [single '"']), .token .string (.string (join body))⟩ =
      ⟨single '"' :: (body.map Grapheme.crlf ++ [single '"']),
        .token .string (.string (join (body.map Grapheme.crlf)))⟩ := by
  have hquote : (single '"').crlf = single '"' := crlf_of_ne (by decide)
  simp [Segment.crlf, Content.crlf, hquote]

/-- **A segment keeps its form with the new line ends in it.** -/
theorem Cut.crlf {s : Segment} {rest : List Grapheme} (h : Cut s rest) : Cut s.crlf rest := by
  have hsingles : ∀ p ∈ Kind.singles, p.2 ≠ .string := by decide
  have hpairs : ∀ p ∈ Kind.pairs, p.2.1 ≠ .string ∧ p.2.2 ≠ .string := by decide
  by_cases hs : s.content.spansLines = false
  · rw [h.crlf_eq hs]
    exact h
  · cases h with
    | newline hg => exact .newline ((isNewline_crlf _).trans hg)
    | blockComment hl =>
      refine .blockComment ?_
      rw [commentUnits_map_crlf]
      exact hl.map_crlf
    | openComment hd hl =>
      refine .openComment hd ?_
      rw [commentUnits_map_crlf]
      exact hl.map_crlf
    | openString hbody => exact .openString (ne_quote_map_crlf hbody)
    | string hbody =>
      rw [Segment.crlf_string]
      exact .string (ne_quote_map_crlf hbody)
    | single hm => exact absurd (decide_eq_false (hsingles _ hm)) hs
    | short hm => exact absurd (decide_eq_false (hpairs _ hm).1) hs
    | long hm => exact absurd (decide_eq_false (hpairs _ hm).2) hs
    | _ => exact absurd rfl hs

/-! ### The whole text -/

theorem flatMap_crlf (ss : List Segment) :
    (ss.map Segment.crlf).flatMap Segment.graphemes =
      (ss.flatMap Segment.graphemes).map Grapheme.crlf := by
  rw [List.flatMap_map, List.map_flatMap]
  rfl

theorem Row.map_crlf {ss : List Segment} (h : Row ss []) : Row (ss.map Segment.crlf) [] := by
  induction ss with
  | nil => trivial
  | cons s ss ih =>
    obtain ⟨hcut, hrow⟩ := h
    refine ⟨?_, ih hrow⟩
    rw [List.append_nil] at hcut ⊢
    rw [flatMap_crlf]
    exact hcut.map_crlf.crlf

/-- **The new text divides into the old segments with the new line ends.** -/
theorem divide_map_crlf (gs : List Grapheme) :
    Segment.divide (gs.map Grapheme.crlf) = (Segment.divide gs).map Segment.crlf := by
  rw [divide_eq_iff, flatMap_crlf, flatMap_divide]
  exact ⟨rfl, (row_divide gs).map_crlf⟩

theorem ofSegments_map_crlf (line position : Nat) (ss : List Segment) :
    Located.ofSegments line position (ss.map Segment.crlf) =
      (Located.ofSegments line position ss).map fun l => { l with segment := l.segment.crlf } := by
  induction ss generalizing line position with
  | nil => rfl
  | cons s ss ih =>
    have hcount : countNewlines s.crlf.graphemes = countNewlines s.graphemes :=
      countNewlines_map_crlf s.graphemes
    have hlength : s.crlf.graphemes.length = s.graphemes.length := List.length_map ..
    rw [List.map_cons, Located.ofSegments, Located.ofSegments, List.map_cons, hcount, hlength, ih]

/-- What is reported of a segment changes with its line ends. -/
theorem Cut.item?_crlf {s : Segment} {rest : List Grapheme} (h : Cut s rest)
    (line position : Nat) :
    Located.item? ⟨s.crlf, line, position⟩ =
      (Located.item? ⟨s, line, position⟩).map (ScanItem.crlf s.graphemes) := by
  by_cases hs : s.content.spansLines = false
  · rw [h.crlf_eq hs]
    obtain ⟨graphemes, content⟩ := s
    cases content with
    | token kind literal =>
      have hkind : kind ≠ .string := of_decide_eq_false hs
      simp [Located.item?, ScanItem.crlf, hkind]
    | invalid => cases graphemes <;> rfl
    | _ => rfl
  · obtain ⟨graphemes, content⟩ := s
    cases content with
    | token kind literal =>
      obtain rfl : kind = .string := by simpa [Content.spansLines] using hs
      rfl
    | invalid | space | lineComment => exact absurd rfl hs
    | _ => rfl

/-! ### The scan -/

/-- The items of a scan up to the end of input, each with the graphemes that it is read from. -/
def readings (gs : List Grapheme) : List (List Grapheme × ScanItem) :=
  (Located.ofSegments 1 0 (Segment.divide gs)).filterMap fun l =>
    l.item?.map fun item => (l.segment.graphemes, item)

theorem items_eq_readings (gs : List Grapheme) :
    (Scan.ofGraphemes gs).items =
      (readings gs).map Prod.snd ++ [.token (.eof (1 + countNewlines gs : Nat))] := by
  rw [Scan.items_ofGraphemes, readings, List.map_filterMap]
  simp only [Option.map_map, Function.comp_def, Option.map_id_fun', id_eq]

theorem items_map_crlf (gs : List Grapheme) :
    (Scan.ofGraphemes (gs.map Grapheme.crlf)).items =
      (readings gs).map (fun r => r.2.crlf r.1) ++
        [.token (.eof (1 + countNewlines gs : Nat))] := by
  have hitems : (Located.ofSegments 1 0 (Segment.divide (gs.map Grapheme.crlf))).filterMap
      Located.item? = (readings gs).map fun r => r.2.crlf r.1 := by
    rw [divide_map_crlf, ofSegments_map_crlf, List.filterMap_map, readings, List.map_filterMap]
    apply List.filterMap_congr
    intro l hl
    obtain ⟨rest, hcut⟩ := exists_cut_of_located hl
    rw [Option.map_map]
    exact hcut.item?_crlf l.line l.position
  rw [Scan.ofGraphemes_eq, hitems, countNewlines_map_crlf]

theorem warnings_map_crlf (gs : List Grapheme) :
    (Scan.ofGraphemes (gs.map Grapheme.crlf)).warnings = (Scan.ofGraphemes gs).warnings := by
  have hwarning (l : Located) :
      Located.warning? { l with segment := l.segment.crlf } = l.warning? := by
    obtain ⟨⟨graphemes, content⟩, line, position⟩ := l
    cases content <;> rfl
  rw [Scan.warnings_ofGraphemes, Scan.warnings_ofGraphemes, divide_map_crlf, ofSegments_map_crlf,
    List.filterMap_map]
  simp only [Function.comp_def, hwarning]

/-- A token is read from its lexeme, and a string from its quotes and what is between them. -/
theorem lexeme_of_readings {gs lexeme : List Grapheme} {t : Token}
    (h : (lexeme, .token t) ∈ readings gs) :
    t.lexeme = join lexeme ∧ (t.kind = .string → ∃ body,
      lexeme = single '"' :: (body ++ [single '"']) ∧ t.literal = .string (join body)) := by
  obtain ⟨l, hl, hitem⟩ := List.mem_filterMap.mp h
  obtain ⟨item, hitem, heq⟩ := Option.map_eq_some_iff.mp hitem
  cases heq
  obtain ⟨rest, hcut⟩ := exists_cut_of_located hl
  have hreports := hcut.reports l.line l.position
  rw [hitem] at hreports
  obtain ⟨⟨graphemes, content⟩, line, position⟩ := l
  cases hreports with
  | token =>
    refine ⟨rfl, ?_⟩
    rintro rfl
    obtain ⟨body, hlexeme, -, hliteral⟩ := hcut.form
    exact ⟨body, hlexeme, hliteral⟩

theorem kind_token?_crlf (lexeme : List Grapheme) (item : ScanItem) :
    (item.crlf lexeme).token?.map (fun t => (t.kind, t.line)) =
      item.token?.map fun t => (t.kind, t.line) := by
  cases item with
  | token t =>
    rw [ScanItem.crlf]
    split <;> rfl
  | error e => rfl

theorem error?_crlf (lexeme : List Grapheme) (item : ScanItem) :
    (item.crlf lexeme).error? = item.error? := by
  cases item with
  | token t =>
    rw [ScanItem.crlf]
    split <;> rfl
  | error e => rfl

/-- **Both spellings of a line end are scanned alike.**  A text with the one in place of the other
has the same errors and the same warnings, and tokens of the same kinds on the same lines; the line
ends within strings are those of the text. -/
theorem scan_crlf (gs : List Grapheme) :
    (Scan.ofGraphemes gs).items =
      (readings gs).map Prod.snd ++ [.token (.eof (1 + countNewlines gs : Nat))] ∧
    (Scan.ofGraphemes (gs.map Grapheme.crlf)).items =
      (readings gs).map (fun r => r.2.crlf r.1) ++
        [.token (.eof (1 + countNewlines gs : Nat))] ∧
    (∀ lexeme t, (lexeme, .token t) ∈ readings gs → t.lexeme = join lexeme ∧
      (t.kind = .string → ∃ body, lexeme = single '"' :: (body ++ [single '"']) ∧
        t.literal = .string (join body))) ∧
    (Scan.ofGraphemes (gs.map Grapheme.crlf)).tokens.map (fun t => (t.kind, t.line)) =
      (Scan.ofGraphemes gs).tokens.map (fun t => (t.kind, t.line)) ∧
    (Scan.ofGraphemes (gs.map Grapheme.crlf)).errors = (Scan.ofGraphemes gs).errors ∧
    (Scan.ofGraphemes (gs.map Grapheme.crlf)).warnings = (Scan.ofGraphemes gs).warnings := by
  refine ⟨items_eq_readings gs, items_map_crlf gs, fun _ _ h => lexeme_of_readings h, ?_, ?_,
    warnings_map_crlf gs⟩
  · rw [Scan.tokens, items_map_crlf, Scan.tokens, items_eq_readings gs]
    simp only [List.filterMap_append, List.filterMap_map, List.map_append, List.map_filterMap,
      Function.comp_def, kind_token?_crlf]
  · rw [Scan.errors, items_map_crlf, Scan.errors, items_eq_readings gs]
    simp only [List.filterMap_append, List.filterMap_map, Function.comp_def, error?_crlf]

-- line ends in a string, behind a line comment and in a block comment that is never closed
example : (Scan.ofGraphemes ((ofString "\"a\nb\" // c\n/* d\n").map Grapheme.crlf)).items =
      [.token ⟨.string, "\"a\r\nb\"", .string "a\r\nb", 1⟩, .token (.eof 4)] ∧
    (Scan.ofGraphemes ((ofString "\"a\nb\" // c\n/* d\n").map Grapheme.crlf)).warnings =
      [⟨3, 1⟩] := by
  decide +kernel

end Lox
