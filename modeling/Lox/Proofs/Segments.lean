import Lox.Proofs.Comment
import Mathlib.Data.List.TakeWhile

/-!
# The forms of segments

`Cut s rest` says that a segment may stand in front of the text `rest`.  There is one constructor
for each form that a segment can have, with what its graphemes are and what must not follow them: a
number does not stop before a digit, a line comment stops only before a line end, and only at the
end of the text is there a string or a comment without its end.

`next_cut` says that the first segment of every text is of one of these forms.  All that is proved
of scanning is read off the forms; nothing else looks into the rules by which `next` finds them.
-/

namespace Lox

open Grapheme

/-- Digits with at most one point, which is not the first. -/
def IsNumeral (gs : List Grapheme) : Prop :=
  ∃ d ds, gs = d :: ds ∧ d.isDigit = true ∧ (∀ g ∈ ds, g.isDigit = true ∨ g = single '.') ∧
    ds.count (single '.') ≤ 1

def IsName (gs : List Grapheme) : Prop :=
  ∃ g gs', gs = g :: gs' ∧ g.startsName = true ∧ ∀ h ∈ gs', h.continuesName = true

/-- A grapheme that starts no segment but its own. -/
structure IsStray (g : Grapheme) : Prop where
  single : ∀ p ∈ Kind.singles, g ≠ .single p.1
  pair : ∀ p ∈ Kind.pairs, g ≠ .single p.1
  slash : g ≠ .single '/'
  space : g.isSpace = false
  newline : g.isNewline = false
  quote : g ≠ .single '"'
  digit : g.isDigit = false
  name : g.startsName = false

/-- **The forms of segments**, each with what may follow it. -/
inductive Cut : Segment → List Grapheme → Prop
  | single {c : Char} {kind : Kind} {rest : List Grapheme} : (c, kind) ∈ Kind.singles →
      Cut ⟨[.single c], .token kind .nil⟩ rest
  | short {c : Char} {short long : Kind} {rest : List Grapheme} : (c, short, long) ∈ Kind.pairs →
      (∀ g ∈ rest.head?, g ≠ .single '=') → Cut ⟨[.single c], .token short .nil⟩ rest
  | long {c : Char} {short long : Kind} {rest : List Grapheme} : (c, short, long) ∈ Kind.pairs →
      Cut ⟨[.single c, .single '='], .token long .nil⟩ rest
  | slash {rest : List Grapheme} : (∀ g ∈ rest.head?, g ≠ .single '/' ∧ g ≠ .single '*') →
      Cut ⟨[.single '/'], .token .slash .nil⟩ rest
  | lineComment {body rest : List Grapheme} : (∀ g ∈ body, g.isNewline = false) →
      (∀ g ∈ rest.head?, g.isNewline = true) →
      Cut ⟨.single '/' :: .single '/' :: body, .lineComment⟩ rest
  | blockComment {body rest : List Grapheme} : Levels 1 (commentUnits body) 0 →
      Cut ⟨.single '/' :: .single '*' :: body, .blockComment⟩ rest
  | openComment {body : List Grapheme} {depth : Nat} : 0 < depth →
      Levels 1 (commentUnits body) depth →
      Cut ⟨.single '/' :: .single '*' :: body, .openComment depth⟩ []
  | space {g : Grapheme} {rest : List Grapheme} : g.isSpace = true → Cut ⟨[g], .space⟩ rest
  | newline {g : Grapheme} {rest : List Grapheme} : g.isNewline = true → Cut ⟨[g], .newline⟩ rest
  | string {body rest : List Grapheme} : (∀ g ∈ body, g ≠ .single '"') →
      Cut ⟨.single '"' :: (body ++ [.single '"']), .token .string (.string (join body))⟩ rest
  | openString {body : List Grapheme} : (∀ g ∈ body, g ≠ .single '"') →
      Cut ⟨.single '"' :: body, .openString⟩ []
  | number {gs rest : List Grapheme} : IsNumeral gs →
      (∀ g ∈ rest.head?, g.isDigit = false ∧ (g = .single '.' → .single '.' ∈ gs)) →
      Cut ⟨gs, .token .number (.number (Decimal.ofText (gs.flatMap chars)).toFloat)⟩ rest
  | word {gs rest : List Grapheme} {word : Keyword} : IsName gs →
      (∀ g ∈ rest.head?, g.continuesName = false) → word.spelling = join gs →
      Cut ⟨gs, .token (.keyword word) .nil⟩ rest
  | identifier {gs rest : List Grapheme} : IsName gs →
      (∀ g ∈ rest.head?, g.continuesName = false) → (∀ word : Keyword, word.spelling ≠ join gs) →
      Cut ⟨gs, .token .identifier (.identifier (join gs))⟩ rest
  | invalid {g : Grapheme} {rest : List Grapheme} : IsStray g → Cut ⟨[g], .invalid⟩ rest

/-! ### The forms are those of the rules -/

theorem Grapheme.char?_eq_some {g : Grapheme} {c : Char} : g.char? = some c ↔ g = single c := by
  obtain ⟨first, rest⟩ := g
  cases rest <;> simp [char?, single]

/-- A grapheme with an entry in a table is one of the characters there. -/
theorem exists_mem_of_lookup {β : Type} {g : Grapheme} {b : β} {table : List (Char × β)}
    (h : g.char?.bind (table.lookup ·) = some b) : ∃ c, g = single c ∧ (c, b) ∈ table := by
  obtain ⟨c, hc, hb⟩ := Option.bind_eq_some_iff.mp h
  obtain ⟨l₁, l₂, rfl, -⟩ := List.lookup_eq_some_iff.mp hb
  exact ⟨c, char?_eq_some.mp hc, by simp⟩

theorem ne_single_of_lookup {β : Type} {g : Grapheme} {table : List (Char × β)}
    (h : g.char?.bind (table.lookup ·) = none) : ∀ p ∈ table, g ≠ single p.1 := by
  rintro p hp rfl
  have hl : table.lookup p.1 = none := by simpa [char?, single] using h
  simpa using List.lookup_eq_none_iff.mp hl p hp

theorem head?_dropWhile (p : Grapheme → Bool) (gs : List Grapheme) :
    ∀ g ∈ (gs.dropWhile p).head?, p g = false := by
  intro g hg
  have h := List.head?_dropWhile_not p gs
  rwa [Option.mem_def.mp hg] at h

theorem Keyword.ofSpelling?_eq_some {text : String} {word : Keyword}
    (h : Keyword.ofSpelling? text = some word) : word.spelling = text := by
  simpa using List.find?_some h

theorem Keyword.ofSpelling?_eq_none {text : String} (h : Keyword.ofSpelling? text = none)
    (word : Keyword) : word.spelling ≠ text := by
  have hw : word ∈ Keyword.all := by cases word <;> decide
  simpa using List.find?_eq_none.mp h word hw

namespace Segment

/-- What is split off a number are digits and points, of which there is at most one in all. -/
theorem splitNumber_fst (pointSeen : Bool) (gs : List Grapheme) :
    (∀ g ∈ (splitNumber pointSeen gs).1, g.isDigit = true ∨ g = single '.') ∧
      (splitNumber pointSeen gs).1.count (single '.') ≤ if pointSeen then 0 else 1 := by
  fun_induction splitNumber pointSeen gs with
  | case1 => simp
  | case2 gs => simp
  | case3 pointSeen gs hp ih =>
    have hc : (splitNumber true gs).1.count (single '.') = 0 := Nat.le_zero.mp ih.2
    refine ⟨List.forall_mem_cons.mpr ⟨.inr rfl, ih.1⟩, ?_⟩
    rw [List.count_cons_self, hc, if_neg hp]
  | case4 pointSeen g gs hg hd ih =>
    refine ⟨List.forall_mem_cons.mpr ⟨.inl hd, ih.1⟩, ?_⟩
    rw [List.count_cons_of_ne hg]
    exact ih.2
  | case5 pointSeen g gs hg hd => simp

/-- A number stops before what it cannot take: no digit, and a point only after another. -/
theorem splitNumber_snd (pointSeen : Bool) (gs : List Grapheme) :
    ∀ g ∈ (splitNumber pointSeen gs).2.head?, g.isDigit = false ∧
      (g = single '.' → pointSeen = true ∨ single '.' ∈ (splitNumber pointSeen gs).1) := by
  fun_induction splitNumber pointSeen gs with
  | case1 => simp
  | case2 gs =>
    rintro g ⟨⟩
    exact ⟨by decide, fun _ => .inl rfl⟩
  | case3 pointSeen gs hp ih =>
    intro g hg
    exact ⟨(ih g hg).1, fun _ => .inr (List.mem_cons_self ..)⟩
  | case4 pointSeen d gs hd hdigit ih =>
    intro g hg
    obtain ⟨hg', himp⟩ := ih g hg
    exact ⟨hg', fun h => (himp h).imp_right (List.mem_cons_of_mem d)⟩
  | case5 pointSeen d gs hd hdigit =>
    rintro g ⟨⟩
    exact ⟨by simpa using hdigit, fun h => absurd h hd⟩

theorem number_cut {d : Grapheme} (hd : d.isDigit = true) (gs : List Grapheme) :
    Cut (number (d :: (splitNumber false gs).1)) (splitNumber false gs).2 := by
  obtain ⟨hm, hc⟩ := splitNumber_fst false gs
  refine .number ⟨d, _, rfl, hd, hm, hc⟩ fun g hg => ?_
  obtain ⟨hg', himp⟩ := splitNumber_snd false gs g hg
  refine ⟨hg', fun h => ?_⟩
  rcases himp h with hf | hp
  · cases hf
  · exact List.mem_cons_of_mem d hp

theorem name_cut {gs rest : List Grapheme} (h : IsName gs)
    (hr : ∀ g ∈ rest.head?, g.continuesName = false) : Cut (name gs) rest := by
  unfold name
  split
  · rename_i word hw
    exact .word h hr (Keyword.ofSpelling?_eq_some hw)
  · rename_i hw
    exact .identifier h hr (Keyword.ofSpelling?_eq_none hw)

theorem nextString_cut (gs : List Grapheme) :
    Cut (nextString (single '"') gs).1 (nextString (single '"') gs).2 := by
  have hbody : ∀ g ∈ gs.takeWhile (· ≠ single '"'), g ≠ single '"' :=
    fun g hg => by simpa using List.mem_takeWhile_imp hg
  unfold nextString
  split
  · exact .openString hbody
  · rename_i quote rest hq
    have hquote := head?_dropWhile _ gs quote (by rw [hq]; rfl)
    obtain rfl : quote = single '"' := Decidable.not_not.mp (of_decide_eq_false hquote)
    exact .string hbody

theorem nextSlash_cut (gs : List Grapheme) :
    Cut (nextSlash (single '/') gs).1 (nextSlash (single '/') gs).2 := by
  cases gs with
  | nil => exact .slash (by simp [nextSlash])
  | cons h rest =>
    rw [nextSlash]
    split
    · rename_i hh
      subst hh
      refine .lineComment (fun g hg => ?_) (fun g hg => ?_)
      · simpa using List.mem_takeWhile_imp hg
      · simpa using head?_dropWhile _ rest g hg
    · rename_i hh
      split
      · rename_i hh'
        subst hh'
        have hl := levels_splitComment 0 rest
        by_cases hd : (splitComment 0 rest).depth = 0
        · rw [hd] at hl
          simpa [hd] using Cut.blockComment hl
        · simpa [hd, splitComment_rest hd] using Cut.openComment (Nat.pos_of_ne_zero hd) hl
      · rename_i hh'
        exact .slash (by simp [hh, hh'])

/-- **The first segment of a text is of one of the forms.** -/
theorem next_cut (g : Grapheme) (gs : List Grapheme) : Cut (next g gs).1 (next g gs).2 := by
  unfold next
  split
  · rename_i kind hk
    obtain ⟨c, rfl, hm⟩ := exists_mem_of_lookup hk
    exact .single hm
  · rename_i hsingle
    split
    · rename_i short long hp
      obtain ⟨c, rfl, hm⟩ := exists_mem_of_lookup hp
      exact .short hm (by simp)
    · rename_i short long h rest hp
      obtain ⟨c, rfl, hm⟩ := exists_mem_of_lookup hp
      split
      · rename_i hh
        subst hh
        exact .long hm
      · rename_i hh
        exact .short hm (by simpa using hh)
    · rename_i hpair
      by_cases hslash : g = single '/'
      · rw [if_pos hslash, hslash]
        exact nextSlash_cut _
      rw [if_neg hslash]
      split
      · rename_i hg
        exact .space hg
      rename_i hspace
      split
      · rename_i hg
        exact .newline hg
      rename_i hnewline
      split
      · rename_i hg
        rw [hg]
        exact nextString_cut _
      rename_i hquote
      split
      · rename_i hg
        exact number_cut hg _
      rename_i hdigit
      split
      · rename_i hg
        refine name_cut ⟨g, _, rfl, hg, fun h hh => List.mem_takeWhile_imp hh⟩ ?_
        exact head?_dropWhile _ _
      rename_i hname
      exact .invalid ⟨ne_single_of_lookup hsingle, ne_single_of_lookup hpair, hslash,
        by simpa using hspace, by simpa using hnewline, hquote, by simpa using hdigit,
        by simpa using hname⟩

end Segment

end Lox
