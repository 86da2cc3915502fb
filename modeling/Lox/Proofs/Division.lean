import Lox.Proofs.Lexeme

/-!
# The forms determine the division

The forms of segments do not only hold of what a text divides into, they also determine it: a
segment that may stand in front of a text is cut off when the two stand together (`Cut.next_eq`).
So there is only one row of segments that makes up a text and in which each may stand in front of
those behind it, and `divide_eq_iff` says that `divide` finds it.  To know how a changed text
divides it is then enough to name the new row.

A form looks at the first grapheme behind the segment and no further.  Blanks may follow every
segment that has its end, save that a line comment goes on to the end of its line; `Cut.transfer`
puts the two together.
-/

namespace Lox

open Grapheme

/-! ### What a form says of the rules -/

namespace Segment

theorem next_of_slash (gs : List Grapheme) :
    next (single '/') gs = nextSlash (single '/') gs := by
  cases gs <;> rfl

theorem next_of_pair_nil {c : Char} {short long : Kind} (h : (c, short, long) ∈ Kind.pairs) :
    next (single c) [] = (fixed short [single c], []) := by
  simp only [Kind.pairs, List.mem_cons, Prod.mk.injEq, List.not_mem_nil, or_false] at h
  rcases h with ⟨rfl, rfl, rfl⟩ | ⟨rfl, rfl, rfl⟩ | ⟨rfl, rfl, rfl⟩ | ⟨rfl, rfl, rfl⟩ <;> rfl

theorem splitNumber_of_stop {pointSeen : Bool} {rest : List Grapheme}
    (h : ∀ g ∈ rest.head?, g.isDigit = false ∧ (g = single '.' → pointSeen = true)) :
    splitNumber pointSeen rest = ([], rest) := by
  cases rest with
  | nil => rfl
  | cons g rest =>
    obtain ⟨hd, hp⟩ := h g rfl
    rw [splitNumber]
    by_cases hg : g = single '.'
    · rw [if_pos hg, if_pos (hp hg)]
    · rw [if_neg hg, if_neg (by simp [hd])]

theorem next_of_isNumeral {g : Grapheme} {gs rest : List Grapheme} (h : IsNumeral (g :: gs))
    (hr : ∀ n ∈ rest.head?, n.isDigit = false ∧ (n = single '.' → single '.' ∈ g :: gs)) :
    next g (gs ++ rest) = (number (g :: gs), rest) := by
  obtain ⟨d, ds, he, hd, hds, hc⟩ := h
  obtain ⟨rfl, rfl⟩ := List.cons.inj he
  have hg : g ≠ single '.' := by
    rintro rfl
    exact absurd hd (by decide)
  obtain ⟨seen, hseen, hsplit⟩ := splitNumber_append_left false hds hc rest
  have hstop : splitNumber seen rest = ([], rest) := by
    refine splitNumber_of_stop fun n hn => ⟨(hr n hn).1, fun hp => hseen.mpr (.inr ?_)⟩
    exact (List.mem_cons.mp ((hr n hn).2 hp)).resolve_left hg.symm
  rw [next_of_isDigit hd, hsplit, hstop, List.append_nil]

/-- What a segment takes by a property of graphemes ends where the property does. -/
theorem span_append {p : Grapheme → Bool} {gs rest : List Grapheme} (hgs : ∀ g ∈ gs, p g = true)
    (hr : ∀ g ∈ rest.head?, p g = false) :
    (gs ++ rest).takeWhile p = gs ∧ (gs ++ rest).dropWhile p = rest := by
  rw [List.takeWhile_append_of_pos hgs, List.dropWhile_append_of_pos hgs]
  cases rest with
  | nil => simp
  | cons g rest =>
    have hg := hr g rfl
    simp [hg]

theorem next_of_isName {g : Grapheme} {gs rest : List Grapheme} (h : IsName (g :: gs))
    (hr : ∀ n ∈ rest.head?, n.continuesName = false) :
    next g (gs ++ rest) = (name (g :: gs), rest) := by
  obtain ⟨g', gs', he, hg, hgs⟩ := h
  obtain ⟨rfl, rfl⟩ := List.cons.inj he
  obtain ⟨htake, hdrop⟩ := span_append hgs hr
  rw [next_of_startsName hg, htake, hdrop]

theorem name_of_spelling {gs : List Grapheme} {word : Keyword} (h : word.spelling = join gs) :
    name gs = ⟨gs, .token (.keyword word) .nil⟩ := by
  have hw : Keyword.ofSpelling? word.spelling = some word := by cases word <;> decide
  rw [name, ← h, hw]
  rfl

theorem name_of_ne_spelling {gs : List Grapheme} (h : ∀ word : Keyword, word.spelling ≠ join gs) :
    name gs = ⟨gs, .token .identifier (.identifier (join gs))⟩ := by
  have hw : Keyword.ofSpelling? (join gs) = none := by
    rw [Keyword.ofSpelling?, List.find?_eq_none]
    intro word _
    simpa using h word
  rw [name, hw]

theorem nextSlash_of_line {body rest : List Grapheme} (hbody : ∀ g ∈ body, g.isNewline = false)
    (hr : ∀ g ∈ rest.head?, g.isNewline = true) :
    nextSlash (single '/') (single '/' :: (body ++ rest)) =
      (⟨single '/' :: single '/' :: body, .lineComment⟩, rest) := by
  have hspan : (body ++ rest).takeWhile (!·.isNewline) = body ∧
      (body ++ rest).dropWhile (!·.isNewline) = rest :=
    span_append (fun g hg => by simp [hbody g hg]) (fun g hg => by simp [hr g hg])
  rw [nextSlash, if_pos rfl, hspan.1, hspan.2]

/-- Units that lead from the opening to a number of levels are a comment that leaves as many of them
open; one that leaves any open takes the whole text. -/
theorem splitComment_of_levels {inner depth : Nat} {body rest : List Grapheme}
    (h : Levels (inner + 1) (commentUnits body) depth) (hr : depth = 0 ∨ rest = []) :
    splitComment inner (body ++ rest) = ⟨body, rest, depth⟩ := by
  induction body using commentUnits.induct generalizing inner with
  | case1 =>
    have hd : (inner : Int) + 1 = depth := h
    obtain rfl := hr.resolve_left (by omega)
    obtain rfl : inner + 1 = depth := by omega
    rfl
  | case2 g =>
    have hd : (inner : Int) + 1 + 0 = depth := h.2
    obtain rfl := hr.resolve_left (by omega)
    obtain rfl : inner + 1 = depth := by omega
    rfl
  | case3 g h' gs hp ih =>
    rw [commentUnits, if_pos hp] at h
    rw [List.cons_append, List.cons_append, splitComment_cons_cons, if_pos hp, ih h.2]
    rfl
  | case4 g h' gs hp hp' ih =>
    rw [commentUnits, if_neg hp, if_pos hp'] at h
    have hn : (inner : Int) + 1 + CommentUnit.closing.step = inner := by
      rw [CommentUnit.step]
      omega
    have hlevels : Levels inner (commentUnits gs) depth := hn ▸ h.2
    rw [List.cons_append, List.cons_append, splitComment_cons_cons, if_neg hp, if_pos hp']
    cases inner with
    | zero =>
      -- no level is open any more, so no unit is left
      have hgs := flatMap_commentUnits gs
      cases hu : commentUnits gs with
      | nil =>
        rw [hu] at hgs hlevels
        obtain rfl : [] = gs := hgs
        have hd : (0 : Int) = depth := hlevels
        obtain rfl : 0 = depth := by omega
        rfl
      | cons u us =>
        rw [hu] at hlevels
        exact absurd hlevels.1 (by simp)
    | succ inner =>
      dsimp only
      rw [ih hlevels]
      rfl
  | case5 g h' gs hp hp' ih =>
    rw [commentUnits, if_neg hp, if_neg hp'] at h
    have hlevels : Levels (inner + 1) (commentUnits (h' :: gs)) depth := by
      simpa [CommentUnit.step] using h.2
    have hrest := ih hlevels
    rw [List.cons_append] at hrest
    rw [List.cons_append, List.cons_append, splitComment_cons_cons, if_neg hp, if_neg hp', hrest]
    rfl

theorem nextSlash_of_levels (depth : Nat) {body rest : List Grapheme}
    (h : Levels 1 (commentUnits body) depth) (hr : depth = 0 ∨ rest = []) :
    nextSlash (single '/') (single '*' :: (body ++ rest)) =
      (⟨single '/' :: single '*' :: body,
        if depth = 0 then .blockComment else .openComment depth⟩, rest) := by
  have hsplit : splitComment 0 (body ++ rest) = ⟨body, rest, depth⟩ := splitComment_of_levels h hr
  rw [nextSlash, if_neg (by decide), if_pos rfl, hsplit]

theorem nextString_of_open {body : List Grapheme} (h : ∀ g ∈ body, g ≠ single '"') :
    nextString (single '"') body = (⟨single '"' :: body, .openString⟩, []) := by
  have hb : ∀ g ∈ body, decide (g ≠ single '"') = true := fun g hg => by simpa using h g hg
  unfold nextString
  rw [List.takeWhile_eq_self_iff.mpr hb, List.dropWhile_eq_nil_iff.mpr hb]

theorem next_of_isSpace {g : Grapheme} (h : g.isSpace = true) (gs : List Grapheme) :
    next g gs = (⟨[g], .space⟩, gs) := by
  simp only [isSpace, Bool.or_eq_true, decide_eq_true_eq] at h
  rcases h with (rfl | rfl) | rfl <;> cases gs <;> rfl

theorem next_of_isNewline {g : Grapheme} (h : g.isNewline = true) (gs : List Grapheme) :
    next g gs = (⟨[g], .newline⟩, gs) := by
  simp only [isNewline, Bool.or_eq_true, decide_eq_true_eq] at h
  rcases h with rfl | rfl <;> cases gs <;> rfl

theorem next_of_isStray {g : Grapheme} (h : IsStray g) (gs : List Grapheme) :
    next g gs = (⟨[g], .invalid⟩, gs) := by
  have hsigns : g ∉ signs := by
    have hspace := h.space
    have hnewline := h.newline
    simp only [isSpace, isNewline, Bool.or_eq_false_iff, decide_eq_false_iff_not] at hspace hnewline
    simp only [signs, List.mem_append, List.mem_map, List.mem_cons, List.not_mem_nil, or_false]
    rintro ((⟨p, hp, he⟩ | ⟨p, hp, he⟩) | he | he | he | he | he | he | he)
    · exact h.single p hp he.symm
    · exact h.pair p hp he.symm
    · exact h.slash he
    · exact hspace.1.1 he
    · exact hspace.1.2 he
    · exact hspace.2 he
    · exact hnewline.1 he
    · exact hnewline.2 he
    · exact h.quote he
  rw [next_of_not_mem_signs hsigns, if_neg (by simp [h.digit]), if_neg (by simp [h.name])]

end Segment

/-- **A segment that may stand in front of a text is cut off there.** -/
theorem Cut.next_eq {g : Grapheme} {gs rest : List Grapheme} {content : Content}
    (h : Cut ⟨g :: gs, content⟩ rest) :
    Segment.next g (gs ++ rest) = (⟨g :: gs, content⟩, rest) := by
  cases h with
  | single hm => exact Segment.next_of_single hm rest
  | short hm hr =>
    cases rest with
    | nil => exact Segment.next_of_pair_nil hm
    | cons n rest => exact (Segment.next_of_pair hm n rest).trans (if_neg (hr n rfl))
  | long hm => exact (Segment.next_of_pair hm _ rest).trans (if_pos rfl)
  | slash hr =>
    rw [List.nil_append, Segment.next_of_slash]
    cases rest with
    | nil => rfl
    | cons n rest =>
      obtain ⟨hline, hblock⟩ := hr n rfl
      rw [Segment.nextSlash, if_neg hline, if_neg hblock, Segment.fixed]
  | lineComment hbody hr =>
    rw [List.cons_append, Segment.next_of_slash, Segment.nextSlash_of_line hbody hr]
  | blockComment hl =>
    rw [List.cons_append, Segment.next_of_slash,
      Segment.nextSlash_of_levels 0 hl (.inl rfl), if_pos rfl]
  | openComment hd hl =>
    rw [List.cons_append, Segment.next_of_slash, Segment.nextSlash_of_levels _ hl (.inr rfl),
      if_neg (by omega)]
  | space hg => exact Segment.next_of_isSpace hg rest
  | newline hg => exact Segment.next_of_isNewline hg rest
  | string hbody =>
    rw [Segment.next_of_quote, List.append_assoc, List.singleton_append,
      Segment.nextString_of_body hbody]
  | openString hbody =>
    rw [List.append_nil, Segment.next_of_quote, Segment.nextString_of_open hbody]
  | number hn hr => exact Segment.next_of_isNumeral hn hr
  | word hn hr hw => rw [Segment.next_of_isName hn hr, Segment.name_of_spelling hw]
  | identifier hn hr hw => rw [Segment.next_of_isName hn hr, Segment.name_of_ne_spelling hw]
  | invalid hg => exact Segment.next_of_isStray hg rest

/-! ### Rows of segments -/

/-- Segments in a row, each of which may stand in front of those behind it and of `rest` at the
end. -/
def Row : List Segment → List Grapheme → Prop
  | [], _ => True
  | s :: ss, rest => Cut s (ss.flatMap Segment.graphemes ++ rest) ∧ Row ss rest

theorem row_append {ss ss' : List Segment} {rest : List Grapheme} :
    Row (ss ++ ss') rest ↔ Row ss (ss'.flatMap Segment.graphemes ++ rest) ∧ Row ss' rest := by
  induction ss with
  | nil => simp [Row]
  | cons s ss ih =>
    rw [List.cons_append, Row, Row, ih, List.flatMap_append, List.append_assoc, and_assoc]

theorem row_divide (gs : List Grapheme) : Row (Segment.divide gs) [] := by
  fun_induction Segment.divide gs with
  | case1 => trivial
  | case2 g gs ih =>
    refine ⟨?_, ih⟩
    rw [List.append_nil, flatMap_divide]
    exact Segment.next_cut g gs

theorem divide_of_row {ss : List Segment} {rest : List Grapheme} (h : Row ss rest) :
    Segment.divide (ss.flatMap Segment.graphemes ++ rest) = ss ++ Segment.divide rest := by
  induction ss with
  | nil => rfl
  | cons s ss ih =>
    obtain ⟨hcut, htail⟩ := h
    obtain ⟨graphemes, content⟩ := s
    obtain ⟨g, gs, rfl⟩ := List.exists_cons_of_ne_nil hcut.graphemes_ne_nil
    rw [List.flatMap_cons, List.append_assoc, List.cons_append, Segment.divide, hcut.next_eq,
      ih htail, List.cons_append]

/-- **There is one row of segments that makes up a text.** -/
theorem divide_eq_iff {gs : List Grapheme} {ss : List Segment} :
    Segment.divide gs = ss ↔ ss.flatMap Segment.graphemes = gs ∧ Row ss [] := by
  constructor
  · rintro rfl
    exact ⟨flatMap_divide gs, row_divide gs⟩
  · rintro ⟨rfl, hrow⟩
    have hd := divide_of_row hrow
    rwa [List.append_nil, Segment.divide, List.append_nil] at hd

/-! ### Blanks behind a segment -/

/-- A grapheme that goes on with no token and opens no comment. -/
structure Grapheme.Separates (g : Grapheme) : Prop where
  equal : g ≠ .single '='
  slash : g ≠ .single '/'
  star : g ≠ .single '*'
  point : g ≠ .single '.'
  digit : g.isDigit = false
  name : g.continuesName = false

theorem separates_of_blank {g : Grapheme} (h : g.isNewline = true ∨ g.isSpace = true) :
    g.Separates := by
  simp only [isNewline, isSpace, Bool.or_eq_true, decide_eq_true_eq] at h
  rcases h with (rfl | rfl) | (rfl | rfl) | rfl
  all_goals exact ⟨by decide, by decide, by decide, by decide, by decide, by decide⟩

/-- **A segment stays as it is** if what follows it begins as before, ends at once, or begins with a
blank that does not belong to it. -/
theorem Cut.transfer {s : Segment} {rest rest' : List Grapheme} (h : Cut s rest)
    (hopen : s.content.isOpen = false)
    (hhead : ∀ g ∈ rest'.head?, g ∈ rest.head? ∨ g.isNewline = true ∨
      g.isSpace = true ∧ s.content ≠ .lineComment) : Cut s rest' := by
  have hfollow {P : Grapheme → Prop} (hrest : ∀ g ∈ rest.head?, P g)
      (hblank : ∀ g, g.Separates → P g) : ∀ g ∈ rest'.head?, P g := by
    intro g hg
    rcases hhead g hg with hg | hg | ⟨hg, -⟩
    · exact hrest g hg
    · exact hblank g (separates_of_blank (.inl hg))
    · exact hblank g (separates_of_blank (.inr hg))
  cases h with
  | single hm => exact .single hm
  | short hm hr => exact .short hm (hfollow hr fun _ hg => hg.equal)
  | long hm => exact .long hm
  | slash hr => exact .slash (hfollow hr fun _ hg => ⟨hg.slash, hg.star⟩)
  | lineComment hbody hr =>
    refine .lineComment hbody fun g hg => ?_
    rcases hhead g hg with hg | hg | ⟨-, hg⟩
    · exact hr g hg
    · exact hg
    · exact absurd rfl hg
  | blockComment hl => exact .blockComment hl
  | openComment | openString => cases hopen
  | space hg => exact .space hg
  | newline hg => exact .newline hg
  | string hbody => exact .string hbody
  | number hn hr =>
    exact .number hn (hfollow hr fun _ hg => ⟨hg.digit, fun hp => absurd hp hg.point⟩)
  | word hn hr hw => exact .word hn (hfollow hr fun _ hg => hg.name) hw
  | identifier hn hr hw => exact .identifier hn (hfollow hr fun _ hg => hg.name) hw
  | invalid hg => exact .invalid hg

end Lox
