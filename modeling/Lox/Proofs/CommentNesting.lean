import Lox.Proofs.Division

/-!
# Where a block comment ends

A scan goes through its text segment by segment, and `Reaches` tells the places that it comes to.
Where it meets the opening of a block comment, the units behind the opening decide: the comment
ends right behind the first one at which the closings are one more than the openings, since the
opening itself counts (`Closes`).  If there is no such unit, the comment takes all of the text, and
the openings that are left over are the levels that the scan warns of.

`comment_ends_where_closed` says so for every place that a scan reaches, and that a comment leaves
the state of the scan as it is but for the line and the position.  Comments that are made by the
rules of nesting (`IsComment`) close with their last unit, whatever follows them.
-/

namespace Lox

open Grapheme

/-! ### The places that a scan comes to -/

/-- The scan of a text comes to `rest` behind the segments in front of it. -/
inductive Reaches (text : List Grapheme) : List Segment → List Grapheme → Prop
  | start : Reaches text [] text
  | next {pre : List Segment} {g : Grapheme} {gs : List Grapheme} : Reaches text pre (g :: gs) →
      Reaches text (pre ++ [(Segment.next g gs).1]) (Segment.next g gs).2

theorem Reaches.divide_eq {text rest : List Grapheme} {pre : List Segment}
    (h : Reaches text pre rest) : Segment.divide text = pre ++ Segment.divide rest := by
  induction h with
  | start => rfl
  | next _ ih => rw [ih, Segment.divide, List.append_assoc, List.singleton_append]

theorem Reaches.cut {text gs rest : List Grapheme} {pre : List Segment} {content : Content}
    (h : Reaches text pre (gs ++ rest)) (hcut : Cut ⟨gs, content⟩ rest) :
    Reaches text (pre ++ [⟨gs, content⟩]) rest := by
  obtain ⟨g, gs, rfl⟩ := List.exists_cons_of_ne_nil hcut.graphemes_ne_nil
  rw [List.cons_append] at h
  have hnext := h.next
  rwa [hcut.next_eq] at hnext

namespace Scan

/-- What a scan has found in its first segments, and the place behind them. -/
def after (pre : List Segment) : Scan :=
  { items := (Located.ofSegments 1 0 pre).filterMap Located.item?
    warnings := (Located.ofSegments 1 0 pre).filterMap Located.warning?
    line := 1 + countNewlines (pre.flatMap Segment.graphemes)
    position := (pre.flatMap Segment.graphemes).length }

def skip (s : Scan) (gs : List Grapheme) : Scan :=
  { s with line := s.line + countNewlines gs, position := s.position + gs.length }

def resume (s : Scan) (gs : List Grapheme) : Scan :=
  let located := Located.ofSegments s.line s.position (Segment.divide gs)
  let stop := s.skip gs
  { stop with
    items := s.items ++ located.filterMap Located.item? ++ [.token (.eof stop.line)]
    warnings := s.warnings ++ located.filterMap Located.warning? }

end Scan

theorem Reaches.scan_eq {text rest : List Grapheme} {pre : List Segment}
    (h : Reaches text pre rest) : Scan.ofGraphemes text = (Scan.after pre).resume rest := by
  have htext : pre.flatMap Segment.graphemes ++ rest = text := by
    rw [← flatMap_divide text, h.divide_eq, List.flatMap_append, flatMap_divide]
  rw [Scan.ofGraphemes_eq, h.divide_eq, ofSegments_append, ← htext]
  simp only [Scan.resume, Scan.after, Scan.skip, List.filterMap_append,
    countNewlines_append, List.length_append, Nat.zero_add, Nat.add_assoc]

theorem after_blockComment (pre : List Segment) (comment : List Grapheme) :
    Scan.after (pre ++ [⟨comment, .blockComment⟩]) = (Scan.after pre).skip comment := by
  simp [Scan.after, Scan.skip, ofSegments_append, Located.ofSegments, Located.item?,
    Located.warning?, countNewlines, Nat.add_assoc]

theorem after_openComment (pre : List Segment) (comment : List Grapheme) (depth : Nat) :
    Scan.after (pre ++ [⟨comment, .openComment depth⟩]) =
      { (Scan.after pre).skip comment with
        warnings := (Scan.after pre).warnings ++ [⟨(Scan.after pre).line, depth⟩] } := by
  simp [Scan.after, Scan.skip, ofSegments_append, Located.ofSegments, Located.item?,
    Located.warning?, countNewlines, Nat.add_assoc]

/-- A scan skips a comment and goes on behind it: the comment is one segment, which adds nothing to
what has been found. -/
structure Skips (text : List Grapheme) (pre : List Segment) (comment rest : List Grapheme) :
    Prop where
  reaches : Reaches text (pre ++ [⟨comment, .blockComment⟩]) rest
  state : Scan.after (pre ++ [⟨comment, .blockComment⟩]) = (Scan.after pre).skip comment
  scan : Scan.ofGraphemes text = ((Scan.after pre).skip comment).resume rest

theorem Reaches.skips {text comment rest : List Grapheme} {pre : List Segment}
    (h : Reaches text pre (comment ++ rest)) (hcut : Cut ⟨comment, .blockComment⟩ rest) :
    Skips text pre comment rest := by
  have hstate := after_blockComment pre comment
  exact ⟨h.cut hcut, hstate, hstate ▸ (h.cut hcut).scan_eq⟩

/-- A scan that comes to the end with a comment open has this one warning, since any other would be
of a comment that takes the text up to the end as well. -/
theorem Reaches.scan_openComment {text comment : List Grapheme} {pre : List Segment} {depth : Nat}
    (h : Reaches text (pre ++ [⟨comment, .openComment depth⟩]) []) :
    Scan.ofGraphemes text =
      let stop := (Scan.after pre).skip comment
      { stop with
        items := stop.items ++ [.token (.eof stop.line)]
        warnings := [⟨(Scan.after pre).line, depth⟩] } := by
  have hscan := h.scan_eq
  rw [after_openComment] at hscan
  have hnil : (Scan.after pre).warnings = [] := by
    have hlength := warnings_length_le text
    rw [hscan] at hlength
    simpa [Scan.resume, Scan.skip, Segment.divide, Located.ofSegments] using hlength
  rw [hscan, hnil]
  simp [Scan.resume, Scan.skip, Segment.divide, Located.ofSegments, countNewlines]

/-! ### Openings and closings -/

/-- The units behind the opening of a comment close as many levels as it and they have opened. -/
def Closes (us : List CommentUnit) : Prop := us.count .closing = 1 + us.count .opening

instance (us : List CommentUnit) : Decidable (Closes us) :=
  inferInstanceAs (Decidable (_ = _))

def rise (us : List CommentUnit) : Int := us.count .opening - us.count .closing

@[simp] theorem rise_nil : rise [] = 0 := rfl

theorem rise_cons (u : CommentUnit) (us : List CommentUnit) :
    rise (u :: us) = u.step + rise us := by
  cases u <;> simp [rise, CommentUnit.step] <;> omega

theorem closes_iff {us : List CommentUnit} : Closes us ↔ 1 + rise us = 0 := by
  rw [Closes, rise]
  omega

theorem CommentUnit.neg_one_le_step (u : CommentUnit) : -1 ≤ u.step := by
  cases u <;> simp [step]

/-- A unit closes one level at most, so one stays open as long as their number has not been `0`. -/
theorem levels_rise {n : Int} {us : List CommentUnit} (hn : 0 < n)
    (h : ∀ p, p <+: us → n + rise p = 0 → p = us) : Levels n us (n + rise us) := by
  induction us generalizing n with
  | nil =>
    show n = n + rise []
    simp
  | cons u us ih =>
    refine ⟨hn, ?_⟩
    rw [rise_cons, ← Int.add_assoc]
    cases us with
    | nil =>
      show n + u.step = n + u.step + rise []
      simp
    | cons u' us =>
      have hstep := u.neg_one_le_step
      have hopen : n + u.step ≠ 0 := by
        intro h0
        have hall := h [u] (by simp) (by simpa [rise_cons] using h0)
        simp at hall
      refine ih (by omega) ?_
      intro p hp h0
      have hall := h (u :: p) ((List.prefix_cons_inj u).mpr hp) (by rw [rise_cons]; omega)
      exact (List.cons.inj hall).2

theorem Levels.nonneg {n m : Int} {us : List CommentUnit} (h : Levels n us m) (hn : 0 ≤ n) :
    0 ≤ m := by
  induction us generalizing n with
  | nil =>
    have hnm : n = m := h
    omega
  | cons u us ih =>
    have hstep := u.neg_one_le_step
    have hn := h.1
    exact ih h.2 (by omega)

theorem levels_of_closes {us : List CommentUnit} (hclosed : Closes us)
    (hfirst : ∀ p, p <+: us → Closes p → p = us) : Levels 1 us 0 := by
  have hlevels : Levels 1 us (1 + rise us) := by
    apply levels_rise (by decide)
    intro p hp h0
    exact hfirst p hp (closes_iff.mpr h0)
  rwa [closes_iff.mp hclosed] at hlevels

theorem levels_of_not_closes {us : List CommentUnit} (hopen : ∀ p, p <+: us → ¬ Closes p) :
    ∃ depth : Nat, 1 ≤ depth ∧ (depth : Int) = 1 + rise us ∧ Levels 1 us depth := by
  have hlevels : Levels 1 us (1 + rise us) := by
    apply levels_rise (by decide)
    intro p hp h0
    exact absurd (closes_iff.mpr h0) (hopen p hp)
  have hne : 1 + rise us ≠ 0 := fun h0 => hopen us List.prefix_rfl (closes_iff.mpr h0)
  have hnonneg : 0 ≤ 1 + rise us := hlevels.nonneg (by decide)
  obtain ⟨depth, hdepth⟩ := Int.eq_ofNat_of_zero_le hnonneg
  refine ⟨depth, by omega, hdepth.symm, ?_⟩
  rwa [hdepth] at hlevels

theorem levels_append {n m k : Int} {us us' : List CommentUnit} (h : Levels n us m)
    (h' : Levels m us' k) : Levels n (us ++ us') k := by
  induction us generalizing n with
  | nil =>
    obtain rfl : n = m := h
    exact h'
  | cons u us ih => exact ⟨h.1, ih h.2⟩

/-- The first units of a text are the units of the graphemes that they take. -/
theorem commentUnits_flatMap {gs : List Grapheme} {front back : List CommentUnit}
    (h : commentUnits gs = front ++ back) :
    commentUnits (front.flatMap CommentUnit.graphemes) = front := by
  induction gs using commentUnits.induct generalizing front with
  | case1 =>
    obtain ⟨rfl, -⟩ := List.append_eq_nil_iff.mp h.symm
    rfl
  | case2 g =>
    rcases List.append_eq_cons_iff.mp h.symm with ⟨rfl, -⟩ | ⟨front, rfl, hnil⟩
    · rfl
    · obtain ⟨rfl, -⟩ := List.append_eq_nil_iff.mp hnil.symm
      rfl
  | case3 g g' gs hp ih =>
    rw [commentUnits, if_pos hp] at h
    rcases List.append_eq_cons_iff.mp h.symm with ⟨rfl, -⟩ | ⟨front, rfl, hfront⟩
    · rfl
    · rw [List.flatMap_cons, CommentUnit.graphemes, List.cons_append, List.cons_append,
        List.nil_append, commentUnits, if_pos ⟨rfl, rfl⟩, ih hfront]
  | case4 g g' gs hp hp' ih =>
    rw [commentUnits, if_neg hp, if_pos hp'] at h
    rcases List.append_eq_cons_iff.mp h.symm with ⟨rfl, -⟩ | ⟨front, rfl, hfront⟩
    · rfl
    · rw [List.flatMap_cons, CommentUnit.graphemes, List.cons_append, List.cons_append,
        List.nil_append, commentUnits, if_neg (by decide), if_pos ⟨rfl, rfl⟩, ih hfront]
  | case5 g g' gs hp hp' ih =>
    rw [commentUnits, if_neg hp, if_neg hp'] at h
    rcases List.append_eq_cons_iff.mp h.symm with ⟨rfl, -⟩ | ⟨front, rfl, hfront⟩
    · rfl
    -- `g` is read alone again, since it has the same grapheme behind it or none
    have hunits := ih hfront
    have htext := flatMap_commentUnits (g' :: gs)
    rw [hfront, List.flatMap_append] at htext
    rw [List.flatMap_cons, CommentUnit.graphemes, List.singleton_append]
    cases hgs : front.flatMap CommentUnit.graphemes with
    | nil =>
      rw [hgs] at hunits
      rw [← hunits]
      rfl
    | cons g'' gs' =>
      rw [hgs] at htext hunits
      obtain rfl := (List.cons.inj htext).1
      rw [commentUnits, if_neg hp, if_neg hp', hunits]

/-! ### Comments within comments -/

/-- The units inside a comment: plain graphemes and whole comments in any order. -/
inductive CommentBody : List CommentUnit → Prop
  | nil : CommentBody []
  | plain {us : List CommentUnit} (g : Grapheme) : CommentBody us → CommentBody (.plain g :: us)
  | nested {us us' : List CommentUnit} : CommentBody us → CommentBody us' →
      CommentBody (.opening :: (us ++ .closing :: us'))

def IsComment (us : List CommentUnit) : Prop :=
  ∃ body, CommentBody body ∧ us = .opening :: (body ++ [.closing])

theorem CommentBody.levels {us : List CommentUnit} (h : CommentBody us) {n : Int} (hn : 0 < n) :
    Levels n us n := by
  induction h generalizing n with
  | nil => rfl
  | plain g _ ih =>
    refine ⟨hn, ?_⟩
    rw [CommentUnit.step, Int.add_zero]
    exact ih hn
  | nested _ _ ih ih' =>
    have hback : n + CommentUnit.opening.step + CommentUnit.closing.step = n := by
      simp only [CommentUnit.step]
      omega
    have hinner : 0 < n + CommentUnit.opening.step := by
      simp only [CommentUnit.step]
      omega
    refine ⟨hn, levels_append (ih hinner) ⟨hinner, ?_⟩⟩
    rw [hback]
    exact ih' hn

/-- A comment begins with its opening, and the units behind that close it. -/
theorem IsComment.levels {comment : List Grapheme} (h : IsComment (commentUnits comment)) :
    ∃ body, comment = single '/' :: single '*' :: body ∧ Levels 1 (commentUnits body) 0 := by
  obtain ⟨us, hbody, hus⟩ := h
  match comment with
  | [] | [g] => simp [commentUnits] at hus
  | g :: g' :: body =>
    rw [commentUnits] at hus
    split at hus
    · rename_i hp
      obtain ⟨rfl, rfl⟩ := hp
      refine ⟨body, rfl, ?_⟩
      rw [(List.cons.inj hus).2]
      exact levels_append (hbody.levels (by decide)) ⟨by decide, rfl⟩
    · split at hus <;> simp at hus

/-! ### The end of a comment -/

/-- **Block comments end exactly where their nesting closes.** -/
theorem comment_ends_where_closed (text : List Grapheme) (pre : List Segment)
    (rest : List Grapheme) (h : Reaches text pre (single '/' :: single '*' :: rest)) :
    (∀ front back, commentUnits rest = front ++ back → Closes front →
      (∀ p, p <+: front → Closes p → p = front) →
      Skips text pre (single '/' :: single '*' :: front.flatMap CommentUnit.graphemes)
        (back.flatMap CommentUnit.graphemes)) ∧
    ((∀ p, p <+: commentUnits rest → ¬ Closes p) →
      ∃ depth : Nat, 1 ≤ depth ∧ (depth : Int) =
          1 + (commentUnits rest).count .opening - (commentUnits rest).count .closing ∧
        Reaches text (pre ++ [⟨single '/' :: single '*' :: rest, .openComment depth⟩]) [] ∧
        Scan.ofGraphemes text =
          let stop := (Scan.after pre).skip (single '/' :: single '*' :: rest)
          { stop with
            items := stop.items ++ [.token (.eof stop.line)]
            warnings := [⟨(Scan.after pre).line, depth⟩] }) ∧
    (∀ comment follow, single '/' :: single '*' :: rest = comment ++ follow →
      IsComment (commentUnits comment) → Skips text pre comment follow) := by
  refine ⟨?_, ?_, ?_⟩
  · intro front back hunits hclosed hfirst
    have hrest := flatMap_commentUnits rest
    rw [hunits, List.flatMap_append] at hrest
    rw [← hrest] at h
    apply h.skips
    apply Cut.blockComment
    rw [commentUnits_flatMap hunits]
    exact levels_of_closes hclosed hfirst
  · intro hopen
    obtain ⟨depth, hpos, hdepth, hlevels⟩ := levels_of_not_closes hopen
    rw [← List.append_nil rest] at h
    have hreach := h.cut (.openComment hpos hlevels)
    refine ⟨depth, hpos, ?_, hreach, hreach.scan_openComment⟩
    rw [hdepth, rise]
    omega
  · intro comment follow hsplit hcomment
    rw [hsplit] at h
    obtain ⟨body, rfl, hlevels⟩ := hcomment.levels
    exact h.skips (.blockComment hlevels)

/-- A comment over two lines within another, whose closings stand next to each other; an opening
whose star is not the star of a closing too; and a comment in front of one more closing. -/
theorem comment_ends_where_closed_overlap :
    Skips (['-', '/', '*', '/', '*', '\n', '*', '/', '*', '/', '+'].map single)
        [⟨[single '-'], .token .minus .nil⟩]
        (['/', '*', '/', '*', '\n', '*', '/', '*', '/'].map single) [single '+'] ∧
      Scan.ofGraphemes (['/', '*', '/'].map single) =
        ⟨[.token (.eof 1)], [⟨1, 1⟩], 1, 3⟩ ∧
      Skips (['/', '*', '*', '/', '*', '/'].map single) [] (['/', '*', '*', '/'].map single)
        (['*', '/'].map single) := by
  refine ⟨?_, ?_, ?_⟩
  · have hreach : Reaches (['-', '/', '*', '/', '*', '\n', '*', '/', '*', '/', '+'].map single)
        [⟨[single '-'], .token .minus .nil⟩]
        (['/', '*', '/', '*', '\n', '*', '/', '*', '/', '+'].map single) := .next .start
    refine (comment_ends_where_closed _ _ _ hreach).1
      [.opening, .plain (single '\n'), .closing, .closing] [.plain (single '+')] (by decide)
      (by decide) ?_
    intro p hp
    simp only [List.prefix_cons_iff, List.prefix_nil] at hp
    rcases hp with rfl | ⟨_, rfl, rfl | ⟨_, rfl, rfl | ⟨_, rfl, rfl | ⟨_, rfl, rfl⟩⟩⟩⟩ <;> decide
  · have hunits : commentUnits [single '/'] = [.plain (single '/')] := rfl
    have hopen : ∀ p, p <+: commentUnits [single '/'] → ¬ Closes p := by
      intro p hp
      simp only [hunits, List.prefix_cons_iff, List.prefix_nil] at hp
      rcases hp with rfl | ⟨_, rfl, rfl⟩ <;> decide
    obtain ⟨depth, -, hdepth, -, hscan⟩ :=
      (comment_ends_where_closed _ [] [single '/'] .start).2.1 hopen
    have hone : (depth : Int) = 1 := hdepth
    obtain rfl : depth = 1 := by omega
    exact hscan
  · exact (comment_ends_where_closed _ [] _ .start).2.2 (['/', '*', '*', '/'].map single)
      (['*', '/'].map single) rfl ⟨[], .nil, rfl⟩

end Lox
