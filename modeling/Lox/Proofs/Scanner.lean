import Lox.Proofs.Segments
import Lox.Scan

/-!
# A scanner reads segments and counts their line ends

`Located.ofSegments` places the segments of a text: each starts on the line and at the position that
those before it lead to.  A scanner does not know segments.  It counts line ends one by one in some
of its routines and not at all in the others, and it takes the line of a token now before and now
behind the token.  This file says that it comes to the same.

There is one lemma for each routine on how far it reads and to which line it counts
(`readString_eq`, `readComment_eq`, `stepSlash_eq`, `stepString_eq`, `stepName_eq`), and from them
one for a step (`step_eq`): a scanner reads just the next segment, is behind its line ends then, and
reports the segment at the place where it started.  `run_eq` repeats this to the end of the text.
-/

namespace Lox

open Grapheme

/-! ### Places of segments -/

def countNewlines (gs : List Grapheme) : Nat := gs.countP (·.isNewline)

structure Located where
  segment : Segment
  line : Nat
  position : Nat
deriving DecidableEq

namespace Located

/-- The places of segments, the first of which starts at a line and a position. -/
def ofSegments (line position : Nat) : List Segment → List Located
  | [] => []
  | s :: ss =>
    ⟨s, line, position⟩ ::
      ofSegments (line + countNewlines s.graphemes) (position + s.graphemes.length) ss

def item? (l : Located) : Option ScanItem :=
  match l.segment.content with
  | .token kind literal =>
    some (.token ⟨kind, Grapheme.join l.segment.graphemes, literal, l.line⟩)
  | .invalid =>
    l.segment.graphemes.head?.map fun g => .error ⟨.invalidCharacter g, l.line, l.position⟩
  | .openString => some (.error ⟨.unterminatedString, l.line, l.position⟩)
  | _ => none

def warning? (l : Located) : Option LexicalWarning :=
  match l.segment.content with
  | .openComment depth => some ⟨l.line, depth⟩
  | _ => none

end Located

/-! ### Line ends -/

theorem countNewlines_append (gs gs' : List Grapheme) :
    countNewlines (gs ++ gs') = countNewlines gs + countNewlines gs' := List.countP_append

theorem countNewlines_eq_zero {gs : List Grapheme} (h : ∀ g ∈ gs, g.isNewline = false) :
    countNewlines gs = 0 := by
  rw [countNewlines, List.countP_eq_zero]
  intro g hg
  rw [h g hg]
  exact Bool.false_ne_true

/-- A line end is neither a blank nor part of a name or a number. -/
theorem Grapheme.isNewline_eq_false {g : Grapheme}
    (h : g.isSpace = true ∨ g.continuesName = true ∨ g.isDigit = true ∨ g = single '.') :
    g.isNewline = false := by
  by_contra hnewline
  simp only [isNewline, Bool.not_eq_false, Bool.or_eq_true, decide_eq_true_eq] at hnewline
  rcases hnewline with rfl | rfl
  · exact absurd h (by decide)
  · exact absurd h (by decide)

namespace Scanner

theorem lineBehind_eq (line : Nat) (g : Grapheme) :
    lineBehind line g = line + countNewlines [g] := by
  rw [lineBehind, countNewlines, List.countP_singleton]
  split <;> rfl

/-! ### The routines -/

/-- A string is read up to the quote, and all line ends in it are counted. -/
theorem readString_eq (line : Nat) (gs : List Grapheme) :
    readString line gs = ⟨gs.takeWhile (· ≠ single '"'), gs.dropWhile (· ≠ single '"'),
      line + countNewlines (gs.takeWhile (· ≠ single '"'))⟩ := by
  fun_induction readString line gs with
  | case1 => rfl
  | case2 line gs => rfl
  | case3 line g gs hg ih =>
    have hbody : decide (g ≠ single '"') = true := decide_eq_true hg
    rw [List.takeWhile_cons, if_pos hbody, List.dropWhile_cons, if_pos hbody, ih, Stretch.cons,
      lineBehind_eq, Nat.add_assoc, ← countNewlines_append]
    rfl

theorem cons_splitComment {gs : List Grapheme} {line line' : Nat}
    (h : line' = line + countNewlines gs) (c : Segment.Comment) :
    Stretch.cons gs ⟨c.body, c.rest, line' + countNewlines c.body⟩ =
      ⟨(c.cons gs).body, (c.cons gs).rest, line + countNewlines (c.cons gs).body⟩ := by
  rw [h, Stretch.cons, Nat.add_assoc, ← countNewlines_append]
  rfl

/-- A block comment is read unit by unit.  No line end is missed, since none is part of a pair. -/
theorem readComment_eq (line inner : Nat) (gs : List Grapheme) :
    readComment line inner gs = (⟨(Segment.splitComment inner gs).body,
      (Segment.splitComment inner gs).rest,
      line + countNewlines (Segment.splitComment inner gs).body⟩,
      (Segment.splitComment inner gs).depth) := by
  fun_induction readComment line inner gs with
  | case1 => rfl
  | case2 line inner g =>
    rw [lineBehind_eq]
    rfl
  | case3 line inner g h gs hp s depth heq ih =>
    obtain ⟨rfl, rfl⟩ := hp
    obtain ⟨rfl, rfl⟩ := Prod.mk.inj (heq.symm.trans ih)
    rw [Segment.splitComment_cons_cons, if_pos ⟨rfl, rfl⟩]
    exact congrArg (·, _) (cons_splitComment rfl _)
  | case4 line g h gs hp hp' =>
    obtain ⟨rfl, rfl⟩ := hp'
    rfl
  | case5 line g h gs hp hp' inner s depth heq ih =>
    obtain ⟨rfl, rfl⟩ := hp'
    obtain ⟨rfl, rfl⟩ := Prod.mk.inj (heq.symm.trans ih)
    rw [Segment.splitComment_cons_cons, if_neg hp, if_pos ⟨rfl, rfl⟩]
    exact congrArg (·, _) (cons_splitComment rfl _)
  | case6 line inner g h gs hp hp' s depth heq ih =>
    obtain ⟨rfl, rfl⟩ := Prod.mk.inj (heq.symm.trans ih)
    rw [Segment.splitComment_cons_cons, if_neg hp, if_neg hp']
    exact congrArg (·, _) (cons_splitComment (lineBehind_eq line g) _)

/-! ### One step -/

/-- The step that reads a segment in front of a text: it counts the line ends of the segment, and
reports it at the place where it starts. -/
def passing (line position : Nat) (next : Segment × List Grapheme) : ScanStep where
  lexeme := next.1.graphemes
  rest := next.2
  line := line + countNewlines next.1.graphemes
  item? := Located.item? ⟨next.1, line, position⟩
  warning? := Located.warning? ⟨next.1, line, position⟩

theorem passing_of_noNewline {lexeme : List Grapheme} (h : ∀ g ∈ lexeme, g.isNewline = false)
    (line position : Nat) (content : Content) (rest : List Grapheme) :
    passing line position (⟨lexeme, content⟩, rest) =
      ⟨lexeme, rest, line, Located.item? ⟨⟨lexeme, content⟩, line, position⟩,
        Located.warning? ⟨⟨lexeme, content⟩, line, position⟩⟩ := by
  rw [passing, countNewlines_eq_zero h]
  rfl

theorem token_eq {kind : Kind} {literal : Value} {lexeme : List Grapheme}
    (h : ∀ g ∈ lexeme, g.isNewline = false) (line position : Nat) (rest : List Grapheme) :
    token line kind literal lexeme rest =
      passing line position (⟨lexeme, .token kind literal⟩, rest) :=
  (passing_of_noNewline h line position (.token kind literal) rest).symm

theorem stepName_eq {lexeme : List Grapheme} (h : ∀ g ∈ lexeme, g.isNewline = false)
    (line position : Nat) (rest : List Grapheme) :
    stepName line lexeme rest = passing line position (Segment.name lexeme, rest) := by
  rw [stepName, Segment.name]
  cases Keyword.ofSpelling? (join lexeme) with
  | some word => exact token_eq h line position rest
  | none => exact token_eq h line position rest

/-- A line comment stops in front of the line end; a block comment has its line ends counted. -/
theorem stepSlash_eq (line position : Nat) (gs : List Grapheme) :
    stepSlash line (single '/') gs =
      passing line position (Segment.nextSlash (single '/') gs) := by
  have hslash : ∀ g ∈ [single '/'], g.isNewline = false := by decide
  cases gs with
  | nil => exact token_eq hslash line position []
  | cons h rest =>
    rw [stepSlash, Segment.nextSlash]
    simp only [apply_ite (passing line position)]
    refine ite_congr rfl (fun hline => ?_) fun _ => ite_congr rfl (fun hblock => ?_) fun _ => ?_
    · subst hline
      have hbody : ∀ g ∈ single '/' :: single '/' :: rest.takeWhile (!·.isNewline),
          g.isNewline = false := by
        refine List.forall_mem_cons.mpr ⟨by decide, List.forall_mem_cons.mpr ⟨by decide, ?_⟩⟩
        intro g hg
        simpa using List.mem_takeWhile_imp hg
      exact (passing_of_noNewline hbody line position .lineComment _).symm
    · subst hblock
      -- the opening pair has no line end
      have hcount (body : List Grapheme) :
          countNewlines (single '/' :: single '*' :: body) = countNewlines body := rfl
      rw [readComment_eq, passing, hcount, Located.item?, Located.warning?]
      by_cases hdepth : (Segment.splitComment 0 rest).depth = 0
      · simp only [if_pos hdepth]
      · simp only [if_neg hdepth]
    · exact token_eq hslash line position _

/-- A string is reported on the line where it opens, and the scanner goes on where it ends. -/
theorem stepString_eq (line position : Nat) (gs : List Grapheme) :
    stepString line position (single '"') gs =
      passing line position (Segment.nextString (single '"') gs) := by
  -- neither quote is a line end
  have hcount (body : List Grapheme) :
      countNewlines (single '"' :: body) = countNewlines body := rfl
  rw [stepString, Segment.nextString, readString_eq]
  dsimp only
  cases hrest : gs.dropWhile (· ≠ single '"') with
  | nil =>
    rw [passing, hcount]
    rfl
  | cons quote rest =>
    have hquote := head?_dropWhile _ gs quote (by rw [hrest]; rfl)
    obtain rfl : quote = single '"' := Decidable.not_not.mp (of_decide_eq_false hquote)
    dsimp only
    rw [passing, List.cons_append, hcount, countNewlines_append]
    rfl

/-- **A scanner reads the next segment of the text**, and is behind its line ends then. -/
theorem step_eq (line position : Nat) (g : Grapheme) (gs : List Grapheme) :
    step line position g gs = passing line position (Segment.next g gs) := by
  have hsingles : ∀ p ∈ Kind.singles, (single p.1).isNewline = false := by decide
  have hpairs : ∀ p ∈ Kind.pairs, (single p.1).isNewline = false := by decide
  unfold step Segment.next
  cases hsingle : g.char?.bind Kind.single? with
  | some kind =>
    obtain ⟨c, rfl, hmem⟩ := exists_mem_of_lookup hsingle
    exact token_eq (by simpa using hsingles _ hmem) line position gs
  | none =>
    cases hpair : g.char?.bind Kind.pair? with
    | some kinds =>
      obtain ⟨c, rfl, hmem⟩ := exists_mem_of_lookup hpair
      have hc : ∀ g ∈ [single c], g.isNewline = false := by simpa using hpairs _ hmem
      cases gs with
      | nil => exact token_eq hc line position []
      | cons h rest =>
        dsimp only
        rw [apply_ite (passing line position)]
        refine ite_congr rfl (fun heq => ?_) fun _ => token_eq hc line position _
        subst heq
        exact token_eq (List.forall_mem_cons.mpr ⟨hpairs _ hmem, by decide⟩) line position rest
    | none =>
      -- the other forms are tested for in the same order
      simp only [apply_ite (passing line position)]
      refine ite_congr rfl (fun hslash => hslash ▸ stepSlash_eq line position gs) fun _ => ?_
      refine ite_congr rfl (fun hspace => ?_) fun _ => ?_
      · have hg : ∀ h ∈ [g], h.isNewline = false := by
          simpa using isNewline_eq_false (.inl hspace)
        exact (passing_of_noNewline hg line position .space gs).symm
      refine ite_congr rfl (fun hnewline => ?_) fun hnewline => ?_
      · rw [passing, ← lineBehind_eq, lineBehind, if_pos hnewline]
        rfl
      rw [Bool.not_eq_true] at hnewline
      refine ite_congr rfl (fun hquote => hquote ▸ stepString_eq line position gs) fun _ => ?_
      refine ite_congr rfl (fun _ => ?_) fun _ => ite_congr rfl (fun _ => ?_) fun _ => ?_
      · refine token_eq (List.forall_mem_cons.mpr ⟨hnewline, fun h hh => ?_⟩) line position _
        exact isNewline_eq_false (.inr (.inr ((Segment.splitNumber_fst false gs).1 h hh)))
      · refine stepName_eq (List.forall_mem_cons.mpr ⟨hnewline, fun h hh => ?_⟩) line position _
        exact isNewline_eq_false (.inr (.inl (List.mem_takeWhile_imp hh)))
      · have hg : ∀ h ∈ [g], h.isNewline = false := by simpa using hnewline
        exact (passing_of_noNewline hg line position .invalid gs).symm

/-! ### The whole scan -/

/-- **A scanner reads the segments of a text one by one**, each at its place. -/
theorem run_eq (line position : Nat) (gs : List Grapheme) :
    run line position gs =
      { items := (Located.ofSegments line position (Segment.divide gs)).filterMap Located.item? ++
          [.token (.eof (line + countNewlines gs : Nat))]
        warnings :=
          (Located.ofSegments line position (Segment.divide gs)).filterMap Located.warning?
        line := line + countNewlines gs
        position := position + gs.length } := by
  have hfirst {β : Type} (f : Located → Option β) (l : Located) (ls : List Located) :
      (l :: ls).filterMap f = (f l).toList ++ ls.filterMap f := by
    rw [List.filterMap_cons]
    cases f l <;> rfl
  fun_induction run line position gs with
  | case1 line position =>
    rw [Segment.divide]
    rfl
  | case2 line position g gs s scan ih =>
    have hs : s = passing line position (Segment.next g gs) :=
      step_eq line position g gs
    have happend := Segment.next_append g gs
    have hcount : countNewlines (g :: gs) =
        countNewlines (Segment.next g gs).1.graphemes + countNewlines (Segment.next g gs).2 := by
      rw [← countNewlines_append, happend]
    have hlength : (g :: gs).length =
        (Segment.next g gs).1.graphemes.length + (Segment.next g gs).2.length := by
      rw [← List.length_append, happend]
    have hscan : scan = _ := ih
    clear_value scan s
    subst hs hscan
    rw [Segment.divide, Located.ofSegments, hcount, hlength, ← Nat.add_assoc, ← Nat.add_assoc,
      hfirst, hfirst, List.append_assoc]
    rfl

end Scanner

namespace Scan

theorem ofGraphemes_eq (gs : List Grapheme) :
    ofGraphemes gs =
      { items := (Located.ofSegments 1 0 (Segment.divide gs)).filterMap Located.item? ++
          [.token (.eof (1 + countNewlines gs : Nat))]
        warnings := (Located.ofSegments 1 0 (Segment.divide gs)).filterMap Located.warning?
        line := 1 + countNewlines gs
        position := gs.length } := by
  rw [ofGraphemes, Scanner.run_eq, Nat.zero_add]

theorem items_ofGraphemes (gs : List Grapheme) :
    (ofGraphemes gs).items =
      (Located.ofSegments 1 0 (Segment.divide gs)).filterMap Located.item? ++
        [.token (.eof (1 + countNewlines gs : Nat))] := by
  rw [ofGraphemes_eq]

theorem warnings_ofGraphemes (gs : List Grapheme) :
    (ofGraphemes gs).warnings =
      (Located.ofSegments 1 0 (Segment.divide gs)).filterMap Located.warning? := by
  rw [ofGraphemes_eq]

theorem mem_items {gs : List Grapheme} {item : ScanItem} :
    item ∈ (ofGraphemes gs).items ↔
      (∃ l ∈ Located.ofSegments 1 0 (Segment.divide gs), l.item? = some item) ∨
        item = .token (.eof (1 + countNewlines gs : Nat)) := by
  rw [items_ofGraphemes, List.mem_append, List.mem_filterMap, List.mem_singleton]

end Scan

end Lox
