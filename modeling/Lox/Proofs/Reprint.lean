import Lox.Proofs.Blanking
import Mathlib.Data.List.Basic

/-!
# Tokens on lines of their own

`reprint` keeps the tokens of a text and nothing else, each with the graphemes it was read from and
with a line end between neighbours.  A token was cut off in front of some text; it may stand in
front of a line end or of nothing just as well (`Cut.transfer`), whatever it is: a number that ends
in its point, a string over several lines with the signs of a comment in it, or a name with marks.
So the new text divides into the old tokens and the line ends between them (`divide_reprint`).

What a token is apart from its line is its `face`, and that is read off the segment alone.  Hence
the scan of the new text finds the faces of the old tokens, in order, and nothing is wrong with it
(`scan_reprint`).
-/

namespace Lox

open Grapheme

/-- What a token is apart from its line. -/
def Token.face (t : Token) : Kind × String × Value := (t.kind, t.lexeme, t.literal)

def Content.isToken : Content → Bool
  | token _ _ => true
  | _ => false

namespace Segment

def face? (s : Segment) : Option (Kind × String × Value) :=
  match s.content with
  | .token kind literal => some (kind, join s.graphemes, literal)
  | _ => none

def lineEnd : Segment := ⟨[single '\n'], .newline⟩

end Segment

def tokenSegments (gs : List Grapheme) : List Segment :=
  (Segment.divide gs).filter (·.content.isToken)

/-- **The tokens of a text with a line end between neighbours.** -/
def reprint (gs : List Grapheme) : List Grapheme :=
  [single '\n'].intercalate ((tokenSegments gs).map Segment.graphemes)

/-! ### How it divides -/

theorem flatMap_intersperse (ss : List Segment) :
    (ss.intersperse Segment.lineEnd).flatMap Segment.graphemes =
      [single '\n'].intercalate (ss.map Segment.graphemes) := by
  induction ss with
  | nil => rfl
  | cons s ss ih =>
    cases ss with
    | nil => simp
    | cons s' ss =>
      rw [List.intersperse_cons_cons, List.flatMap_cons, List.flatMap_cons, ih, List.map_cons,
        List.map_cons, List.map_cons, List.intercalate_cons_cons, List.append_assoc]
      rfl

theorem row_intersperse {ss : List Segment}
    (h : ∀ s ∈ ss, s.content.isToken = true ∧ ∃ rest, Cut s rest) :
    Row (ss.intersperse Segment.lineEnd) [] := by
  have htransfer {s : Segment} {rest : List Grapheme} (hs : s ∈ ss)
      (hrest : ∀ g ∈ rest.head?, g.isNewline = true) : Cut s rest := by
    obtain ⟨htoken, rest', hcut⟩ := h s hs
    refine hcut.transfer ?_ fun g hg => .inr (.inl (hrest g hg))
    cases hc : s.content <;> simp_all [Content.isToken, Content.isOpen]
  clear h
  induction ss with
  | nil => trivial
  | cons s ss ih =>
    have htail := ih fun hs => htransfer (List.mem_cons_of_mem _ hs)
    cases ss with
    | nil => exact ⟨htransfer (List.mem_cons_self ..) (by simp), trivial⟩
    | cons s' ss =>
      rw [List.intersperse_cons_cons]
      refine ⟨htransfer (List.mem_cons_self ..) ?_, .newline (by decide), htail⟩
      rintro g ⟨⟩
      decide

theorem mem_tokenSegments {gs : List Grapheme} {s : Segment} (h : s ∈ tokenSegments gs) :
    s.content.isToken = true ∧ ∃ rest, Cut s rest := by
  obtain ⟨hs, htoken⟩ := List.mem_filter.mp h
  obtain ⟨pre, post, hd⟩ := List.append_of_mem hs
  exact ⟨htoken, _, divide_cut hd⟩

/-- **The text divides into the tokens and the line ends between them.** -/
theorem divide_reprint (gs : List Grapheme) :
    Segment.divide (reprint gs) = (tokenSegments gs).intersperse Segment.lineEnd :=
  divide_eq_iff.mpr ⟨flatMap_intersperse _, row_intersperse fun _ => mem_tokenSegments⟩

/-! ### What its scan finds -/

theorem map_face_token? (l : Located) : l.token?.map Token.face = l.segment.face? := by
  obtain ⟨⟨graphemes, content⟩, line, position⟩ := l
  cases content with
  | invalid => cases graphemes <;> rfl
  | _ => rfl

theorem map_face_ofSegments (line position : Nat) (ss : List Segment) :
    ((Located.ofSegments line position ss).filterMap Located.token?).map Token.face =
      ss.filterMap Segment.face? := by
  have hs := List.filterMap_map (f := Located.segment) (g := Segment.face?)
    (l := Located.ofSegments line position ss)
  rw [map_segment_ofSegments] at hs
  rw [hs, List.map_filterMap]
  simp only [map_face_token?, Function.comp_def]

theorem filterMap_face?_filter (ss : List Segment) :
    (ss.filter (·.content.isToken)).filterMap Segment.face? = ss.filterMap Segment.face? := by
  rw [List.filterMap_filter]
  congr 1
  funext s
  obtain ⟨graphemes, content⟩ := s
  cases content <;> rfl

theorem map_face?_tokenSegments (gs : List Grapheme) :
    (tokenSegments gs).map Segment.face? =
      ((Segment.divide gs).filterMap Segment.face?).map some := by
  rw [← filterMap_face?_filter, ← tokenSegments]
  have hsome : ∀ s ∈ tokenSegments gs, s.face?.isSome = true := by
    intro s hs
    have htoken := (mem_tokenSegments hs).1
    rw [Segment.face?]
    cases hc : s.content <;> simp_all [Content.isToken]
  generalize tokenSegments gs = ss at hsome
  induction ss with
  | nil => rfl
  | cons s ss ih =>
    obtain ⟨hs, hss⟩ := List.forall_mem_cons.mp hsome
    obtain ⟨face, hface⟩ := Option.isSome_iff_exists.mp hs
    rw [List.map_cons, List.filterMap_cons_some hface, List.map_cons, ih hss, hface]

theorem filterMap_face?_intersperse (ss : List Segment) :
    (ss.intersperse Segment.lineEnd).filterMap Segment.face? = ss.filterMap Segment.face? := by
  induction ss with
  | nil => rfl
  | cons s ss ih =>
    cases ss with
    | nil => rfl
    | cons s' ss =>
      have hskip : Segment.face? Segment.lineEnd = none := rfl
      rw [List.intersperse_cons_cons, List.filterMap_cons, List.filterMap_cons_none hskip, ih]
      exact (List.filterMap_cons ..).symm

theorem not_isDropped_intersperse {ss : List Segment} (h : ∀ s ∈ ss, s.content.isToken = true) :
    ∀ s ∈ ss.intersperse Segment.lineEnd, ¬ s.content.isDropped = true := by
  have htoken {s : Segment} (hs : s.content.isToken = true) : ¬ s.content.isDropped = true := by
    cases hc : s.content <;> simp_all [Content.isToken, Content.isDropped]
  induction ss with
  | nil => simp
  | cons s ss ih =>
    obtain ⟨hs, hss⟩ := List.forall_mem_cons.mp h
    cases ss with
    | nil => simpa using htoken hs
    | cons s' ss =>
      rw [List.intersperse_cons_cons, List.forall_mem_cons, List.forall_mem_cons]
      exact ⟨htoken hs, by decide, ih hss⟩

/-- Where there is neither a fault nor a comment, a scan finds tokens only. -/
theorem located_of_not_isDropped (line position : Nat) {ss : List Segment}
    (h : ∀ s ∈ ss, ¬ s.content.isDropped = true) :
    (Located.ofSegments line position ss).filterMap Located.item? =
        ((Located.ofSegments line position ss).filterMap Located.token?).map .token ∧
      (Located.ofSegments line position ss).filterMap Located.warning? = [] := by
  have hl : ∀ l ∈ Located.ofSegments line position ss,
      l.item? = l.token?.map .token ∧ l.warning? = none := by
    intro l hl
    exact item?_of_not_isDropped (h _ (segment_mem_of_located hl)) l.line l.position
  rw [List.map_filterMap]
  exact ⟨List.filterMap_congr fun l h => (hl l h).1,
    List.filterMap_eq_nil_iff.mpr fun l h => (hl l h).2⟩

/-- **Tokens that are printed line by line are scanned as the same tokens.** -/
theorem scan_reprint (gs : List Grapheme) :
    ∃ tokens tokens' : List Token,
      (Scan.ofGraphemes gs).tokens = tokens ++ [.eof (1 + countNewlines gs)] ∧
      (tokenSegments gs).map Segment.face? = tokens.map (some ·.face) ∧
      (Scan.ofGraphemes (reprint gs)).items =
        (tokens' ++ [Token.eof (1 + countNewlines (reprint gs))]).map .token ∧
      (Scan.ofGraphemes (reprint gs)).errors = [] ∧
      (Scan.ofGraphemes (reprint gs)).warnings = [] ∧
      tokens'.map Token.face = tokens.map Token.face := by
  have htokens : ∀ s ∈ tokenSegments gs, s.content.isToken = true :=
    fun s hs => (mem_tokenSegments hs).1
  have hdropped := not_isDropped_intersperse htokens
  rw [← divide_reprint] at hdropped
  obtain ⟨hitems, hwarnings⟩ := located_of_not_isDropped 1 0 hdropped
  have hall : (Scan.ofGraphemes (reprint gs)).items =
      (((Located.ofSegments 1 0 (Segment.divide (reprint gs))).filterMap Located.token?) ++
        [Token.eof (1 + countNewlines (reprint gs))]).map .token := by
    rw [Scan.ofGraphemes_eq, hitems, List.map_append]
    rfl
  have herrors : (Scan.ofGraphemes (reprint gs)).errors = [] := by
    rw [Scan.errors, hall, List.filterMap_map]
    exact List.filterMap_eq_nil_iff.mpr fun _ _ => rfl
  refine ⟨_, _, tokens_ofGraphemes gs, ?_, hall, herrors,
    (Scan.warnings_ofGraphemes _).trans hwarnings, ?_⟩
  · rw [map_face?_tokenSegments, ← map_face_ofSegments 1 0, List.map_map]
    rfl
  · rw [map_face_ofSegments, map_face_ofSegments, divide_reprint, filterMap_face?_intersperse,
      tokenSegments, filterMap_face?_filter]

-- a number that ends in its point, a comment, a string with the sign of one in it, a stray sign
example : reprint (ofString "-1.//a\n\"/*\"#é") = ofString "-\n1.\n\"/*\"\né" := by decide +kernel

end Lox
