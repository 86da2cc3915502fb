import Lox.Proofs.Lossless

/-!
# Tokens are longest matches

`Kind.Form` says what a token of each kind is: the graphemes it is read from, what may not follow
them, and its payload.  The forms of segments say the same of everything that a text divides into,
so that every token has the form of its kind is read off them (`Cut.form`).

A longest match is more than that.  A lexeme is a text that is a token if nothing follows it
(`IsLexeme`), and `IsLexeme.length_le_next` says that whichever lexeme a text begins with, of
whatever kind, the first segment takes in all of it.  For this one has to know which rule reads a
lexeme.  Its first grapheme decides: it is one of the `signs`, which the rules name one by one, or
else a digit or the start of a name.
-/

namespace Lox

open Grapheme

/-! ### The rule for the first grapheme -/

/-- The graphemes that a rule names.  Any other is read by what its first character is. -/
def Grapheme.signs : List Grapheme :=
  Kind.singles.map (single ·.1) ++ Kind.pairs.map (single ·.1) ++
    [single '/', single ' ', single '\r', single '\t', single '\n', ⟨'\r', ['\n']⟩, single '"']

theorem lookup_eq_none {β : Type} {g : Grapheme} (table : List (Char × β))
    (h : ∀ p ∈ table, g ≠ single p.1) : g.char?.bind (table.lookup ·) = none := by
  cases hc : g.char? with
  | none => rfl
  | some c =>
    have hg : g = single c := char?_eq_some.mp hc
    rw [Option.bind_some, List.lookup_eq_none_iff]
    intro p hp
    simpa using fun he : c = p.1 => h p hp (he ▸ hg)

namespace Segment

theorem next_of_not_mem_signs {g : Grapheme} (h : g ∉ signs) (gs : List Grapheme) :
    next g gs =
      if g.isDigit then (number (g :: (splitNumber false gs).1), (splitNumber false gs).2)
      else if g.startsName then
        (name (g :: gs.takeWhile (·.continuesName)), gs.dropWhile (·.continuesName))
      else (⟨[g], .invalid⟩, gs) := by
  simp only [signs, List.mem_append, List.mem_map, List.mem_cons, List.not_mem_nil, or_false,
    not_or, not_exists, not_and] at h
  obtain ⟨⟨hs, hp⟩, hslash, hb, hr, ht, hn, hrn, hq⟩ := h
  have hsingle : g.char?.bind Kind.single? = none :=
    lookup_eq_none Kind.singles fun p hm he => hs p hm he.symm
  have hpair : g.char?.bind Kind.pair? = none :=
    lookup_eq_none Kind.pairs fun p hm he => hp p hm he.symm
  have hspace : g.isSpace = false := by simp [isSpace, hb, hr, ht]
  have hnewline : g.isNewline = false := by simp [isNewline, hn, hrn]
  unfold next
  rw [hsingle]
  dsimp only
  rw [hpair]
  simp only [hslash, hspace, hnewline, hq, if_false, Bool.false_eq_true]

theorem next_of_single {c : Char} {kind : Kind} (h : (c, kind) ∈ Kind.singles)
    (gs : List Grapheme) : next (single c) gs = (fixed kind [single c], gs) := by
  simp only [Kind.singles, List.mem_cons, Prod.mk.injEq, List.not_mem_nil, or_false] at h
  rcases h with ⟨rfl, rfl⟩ | ⟨rfl, rfl⟩ | ⟨rfl, rfl⟩ | ⟨rfl, rfl⟩ | ⟨rfl, rfl⟩ | ⟨rfl, rfl⟩ |
    ⟨rfl, rfl⟩ | ⟨rfl, rfl⟩ | ⟨rfl, rfl⟩ | ⟨rfl, rfl⟩ | ⟨rfl, rfl⟩ | ⟨rfl, rfl⟩ <;> rfl

theorem next_of_pair {c : Char} {short long : Kind} (h : (c, short, long) ∈ Kind.pairs)
    (g : Grapheme) (gs : List Grapheme) :
    next (single c) (g :: gs) =
      if g = single '=' then (fixed long [single c, g], gs)
      else (fixed short [single c], g :: gs) := by
  simp only [Kind.pairs, List.mem_cons, Prod.mk.injEq, List.not_mem_nil, or_false] at h
  rcases h with ⟨rfl, rfl, rfl⟩ | ⟨rfl, rfl, rfl⟩ | ⟨rfl, rfl, rfl⟩ | ⟨rfl, rfl, rfl⟩ <;> rfl

theorem next_of_quote (gs : List Grapheme) :
    next (single '"') gs = nextString (single '"') gs := by
  cases gs <;> rfl

theorem next_of_isDigit {d : Grapheme} (h : d.isDigit = true) (gs : List Grapheme) :
    next d gs = (number (d :: (splitNumber false gs).1), (splitNumber false gs).2) := by
  have hsigns : ∀ g ∈ signs, g.isDigit = false := by decide
  have hd : d ∉ signs := fun hm => by simp [hsigns d hm] at h
  rw [next_of_not_mem_signs hd, if_pos h]

theorem isDigit_eq_false_of_startsName {g : Grapheme} (h : g.startsName = true) :
    g.isDigit = false := by
  by_contra hd
  have hdigit : g.first.isDigit = true := by
    simp only [isDigit, Bool.and_eq_false_imp, Classical.not_imp, Bool.not_eq_false] at hd
    exact hd.2
  obtain ⟨hl, hu⟩ : 48 ≤ g.first.toNat ∧ g.first.toNat ≤ 57 := by
    simpa [Char.isDigit, UInt32.le_iff_toNat_le] using hdigit
  have halpha : g.first.isAlpha = false := by
    show (decide (g.first.val ≥ 'A'.val ∧ g.first.val ≤ 'Z'.val) ||
      decide (g.first.val ≥ 'a'.val) && decide (g.first.val ≤ 'z'.val)) = false
    simp [UInt32.le_iff_toNat_le]
    omega
  have hunder : g.first ≠ '_' := by
    intro he
    rw [he] at hu
    exact absurd hu (by decide)
  simp [startsName, Text.isAlphabetic, halpha, hunder, show g.first.toNat < 0x80 by omega] at h

theorem next_of_startsName {g : Grapheme} (h : g.startsName = true) (gs : List Grapheme) :
    next g gs =
      (name (g :: gs.takeWhile (·.continuesName)), gs.dropWhile (·.continuesName)) := by
  have hsigns : ∀ g ∈ signs, g.startsName = false := by decide
  have hg : g ∉ signs := fun hm => by simp [hsigns g hm] at h
  rw [next_of_not_mem_signs hg, if_neg (by simp [isDigit_eq_false_of_startsName h]), if_pos h]

/-- Digits and points that make a number are all taken, and of what follows them what still belongs
to it. -/
theorem splitNumber_append_left (pointSeen : Bool) {ds : List Grapheme}
    (hds : ∀ g ∈ ds, g.isDigit = true ∨ g = single '.')
    (hc : ds.count (single '.') ≤ if pointSeen then 0 else 1) (rest : List Grapheme) :
    ∃ seen, (seen = true ↔ pointSeen = true ∨ single '.' ∈ ds) ∧
      splitNumber pointSeen (ds ++ rest) =
        (ds ++ (splitNumber seen rest).1, (splitNumber seen rest).2) := by
  induction ds generalizing pointSeen with
  | nil => exact ⟨pointSeen, by simp, rfl⟩
  | cons d ds ih =>
    obtain ⟨hd, htail⟩ := List.forall_mem_cons.mp hds
    rw [List.cons_append, splitNumber]
    by_cases hp : d = single '.'
    · subst hp
      rw [List.count_cons_self] at hc
      cases pointSeen with
      | true => simp at hc
      | false =>
        obtain ⟨seen, hseen, heq⟩ := ih true htail (by simpa using hc)
        exact ⟨seen, by simpa using hseen, by simp [heq]⟩
    · rw [List.count_cons_of_ne hp] at hc
      obtain ⟨seen, hseen, heq⟩ := ih pointSeen htail hc
      refine ⟨seen, ?_, by simp [hp, hd.resolve_right hp, heq]⟩
      rw [hseen, List.mem_cons, or_iff_right (Ne.symm hp)]

theorem nextString_of_body {body : List Grapheme} (h : ∀ g ∈ body, g ≠ single '"')
    (rest : List Grapheme) :
    nextString (single '"') (body ++ single '"' :: rest) =
      (⟨single '"' :: (body ++ [single '"']), .token .string (.string (join body))⟩, rest) := by
  have hb : ∀ g ∈ body, decide (g ≠ single '"') = true := fun g hg => by simpa using h g hg
  unfold nextString
  rw [List.takeWhile_append_of_pos hb, List.dropWhile_append_of_pos hb]
  simp

theorem length_le_next_of_isName {gs : List Grapheme} (h : IsName gs) {g : Grapheme}
    {gs' rest : List Grapheme} (he : g :: gs' = gs ++ rest) :
    gs.length ≤ (next g gs').1.graphemes.length := by
  obtain ⟨g₀, tail, rfl, hg, htail⟩ := h
  rw [List.cons_append, List.cons.injEq] at he
  obtain ⟨rfl, rfl⟩ := he
  rw [next_of_startsName hg, name_graphemes, List.takeWhile_append_of_pos htail]
  simp

end Segment

/-- The texts that are a token each if nothing follows them. -/
def IsLexeme (gs : List Grapheme) (kind : Kind) (literal : Value) : Prop :=
  Cut ⟨gs, .token kind literal⟩ []

/-- **A segment takes in every lexeme that the text begins with.** -/
theorem IsLexeme.length_le_next {lexeme : List Grapheme} {kind : Kind} {literal : Value}
    (h : IsLexeme lexeme kind literal) {g : Grapheme} {gs rest : List Grapheme}
    (he : g :: gs = lexeme ++ rest) :
    lexeme.length ≤ (Segment.next g gs).1.graphemes.length := by
  have hpos : 1 ≤ (Segment.next g gs).1.graphemes.length :=
    List.length_pos_iff.mpr (Segment.next_graphemes_ne_nil g gs)
  cases h with
  | single | short | slash => exact hpos
  | long hm =>
    rw [List.cons_append, List.cons.injEq] at he
    obtain ⟨rfl, rfl⟩ := he
    rw [List.singleton_append, Segment.next_of_pair hm, if_pos rfl, Segment.fixed_graphemes]
  | string hbody =>
    rw [List.cons_append, List.cons.injEq] at he
    obtain ⟨rfl, rfl⟩ := he
    rw [Segment.next_of_quote, List.append_assoc, List.singleton_append,
      Segment.nextString_of_body hbody]
  | number hn =>
    obtain ⟨d, ds, rfl, hd, hds, hc⟩ := hn
    rw [List.cons_append, List.cons.injEq] at he
    obtain ⟨rfl, rfl⟩ := he
    obtain ⟨seen, -, hsplit⟩ := Segment.splitNumber_append_left false hds hc rest
    rw [Segment.next_of_isDigit hd, Segment.number_graphemes, hsplit]
    simp
  | word hn => exact Segment.length_le_next_of_isName hn he
  | identifier hn => exact Segment.length_le_next_of_isName hn he

theorem Cut.isLexeme {gs rest : List Grapheme} {kind : Kind} {literal : Value}
    (h : Cut ⟨gs, .token kind literal⟩ rest) : IsLexeme gs kind literal := by
  cases h with
  | single hm => exact .single hm
  | short hm => exact .short hm (by simp)
  | long hm => exact .long hm
  | slash => exact .slash (by simp)
  | string hbody => exact .string hbody
  | number hn => exact .number hn (by simp)
  | word hn _ hw => exact .word hn (by simp) hw
  | identifier hn _ hw => exact .identifier hn (by simp) hw

/-! ### Tokens by their kinds -/

def Kind.fixedTexts : List (List Grapheme × Kind) :=
  singles.map (fun p => ([.single p.1], p.2)) ++
    pairs.flatMap fun p => [([.single p.1], p.2.1), ([.single p.1, .single '='], p.2.2)]

/-- **What a token of a kind is**: the graphemes it is read from, what does not follow them, and its
payload. -/
def Kind.Form (lexeme rest : List Grapheme) (literal : Value) : Kind → Prop
  | number => IsNumeral lexeme ∧ literal = .number (Decimal.ofText (join lexeme).toList).toFloat ∧
      ∀ n ∈ rest.head?, n.isDigit = false ∧ (n = .single '.' → .single '.' ∈ lexeme)
  | string => ∃ body, lexeme = .single '"' :: (body ++ [.single '"']) ∧
      (∀ g ∈ body, g ≠ .single '"') ∧ literal = .string (join body)
  | keyword word => IsName lexeme ∧ (∀ n ∈ rest.head?, n.continuesName = false) ∧
      word.spelling = join lexeme ∧ literal = .nil
  | identifier => IsName lexeme ∧ (∀ n ∈ rest.head?, n.continuesName = false) ∧
      (∀ word : Keyword, word.spelling ≠ join lexeme) ∧ literal = .identifier (join lexeme)
  | slash => lexeme = [.single '/'] ∧ literal = .nil ∧
      ∀ n ∈ rest.head?, n ≠ .single '/' ∧ n ≠ .single '*'
  | kind => (lexeme, kind) ∈ fixedTexts ∧ literal = .nil ∧
      (kind ∈ [bang, equal, less, greater] → ∀ n ∈ rest.head?, n ≠ .single '=')

theorem Cut.form {gs rest : List Grapheme} {kind : Kind} {literal : Value}
    (h : Cut ⟨gs, .token kind literal⟩ rest) : kind.Form gs rest literal := by
  cases h with
  | single hm =>
    -- `Kind.Form` has no case for these kinds before it knows which one it is
    simp only [Kind.singles, List.mem_cons, Prod.mk.injEq, List.not_mem_nil, or_false] at hm
    rcases hm with ⟨rfl, rfl⟩ | ⟨rfl, rfl⟩ | ⟨rfl, rfl⟩ | ⟨rfl, rfl⟩ | ⟨rfl, rfl⟩ | ⟨rfl, rfl⟩ |
      ⟨rfl, rfl⟩ | ⟨rfl, rfl⟩ | ⟨rfl, rfl⟩ | ⟨rfl, rfl⟩ | ⟨rfl, rfl⟩ | ⟨rfl, rfl⟩
    all_goals exact ⟨by decide, rfl, by simp⟩
  | short hm hrest =>
    simp only [Kind.pairs, List.mem_cons, Prod.mk.injEq, List.not_mem_nil, or_false] at hm
    rcases hm with ⟨rfl, rfl, -⟩ | ⟨rfl, rfl, -⟩ | ⟨rfl, rfl, -⟩ | ⟨rfl, rfl, -⟩
    all_goals exact ⟨by decide, rfl, fun _ => hrest⟩
  | long hm =>
    simp only [Kind.pairs, List.mem_cons, Prod.mk.injEq, List.not_mem_nil, or_false] at hm
    rcases hm with ⟨rfl, -, rfl⟩ | ⟨rfl, -, rfl⟩ | ⟨rfl, -, rfl⟩ | ⟨rfl, -, rfl⟩
    all_goals exact ⟨by decide, rfl, by simp⟩
  | slash hrest => exact ⟨rfl, rfl, hrest⟩
  | string hbody => exact ⟨_, rfl, hbody, rfl⟩
  | number hn hrest => exact ⟨hn, by simp [join], hrest⟩
  | word hn hrest hw => exact ⟨hn, hrest, hw, rfl⟩
  | identifier hn hrest hw => exact ⟨hn, hrest, hw, rfl⟩

/-- **A token that is a longest match**, read from `lexeme` in front of `rest`. -/
structure Token.LongestMatch (t : Token) (lexeme rest : List Grapheme) : Prop where
  text : t.lexeme = join lexeme
  form : t.kind.Form lexeme rest t.literal
  isLexeme : IsLexeme lexeme t.kind t.literal
  longest : ∀ longer kind literal, IsLexeme longer kind literal → longer <+: lexeme ++ rest →
    longer.length ≤ lexeme.length

/-! ### Tokens of a scan -/

theorem longestMatch_of_divide {gs : List Grapheme} {pre post : List Segment} {s : Segment}
    {line position : Nat} {t : Token} (h : Segment.divide gs = pre ++ s :: post)
    (ht : Located.item? ⟨s, line, position⟩ = some (.token t)) :
    t.LongestMatch s.graphemes (post.flatMap Segment.graphemes) := by
  have hcut := divide_cut h
  obtain ⟨g, gs', hnext⟩ := exists_next_of_divide h
  have happend := Segment.next_append g gs'
  rw [hnext] at happend
  have hr := hcut.reports line position
  rw [ht] at hr
  cases hr with
  | token =>
    refine ⟨rfl, hcut.form, hcut.isLexeme, ?_⟩
    rintro longer kind literal hlonger ⟨rest, hrest⟩
    have hle := hlonger.length_le_next (hrest.trans happend).symm
    rwa [hnext] at hle

theorem ofSegments_of_append {gs : List Grapheme} {ls ls' : List Located}
    (h : Located.ofSegments 1 0 (Segment.divide gs) = ls ++ ls') :
    Segment.divide gs = ls.map Located.segment ++ ls'.map Located.segment ∧
      Located.ofSegments 1 0 (ls.map Located.segment) = ls := by
  have hd : Segment.divide gs = ls.map Located.segment ++ ls'.map Located.segment := by
    rw [← List.map_append, ← h, map_segment_ofSegments]
  refine ⟨hd, ?_⟩
  rw [hd, ofSegments_append] at h
  exact (List.append_inj h (by rw [length_ofSegments, List.length_map])).1

/-- **Every token of a scan is a longest match.** -/
theorem scan_token_longestMatch (gs : List Grapheme) (before after : List ScanItem) (t : Token)
    (h : (Scan.ofGraphemes gs).items = before ++ .token t :: after) :
    (t = .eof (1 + countNewlines gs) ∧ after = []) ∨
      ∃ pre s post, Segment.divide gs = pre ++ s :: post ∧
        gs = pre.flatMap Segment.graphemes ++ s.graphemes ++ post.flatMap Segment.graphemes ∧
        (Located.ofSegments 1 0 pre).filterMap Located.item? = before ∧
        t.LongestMatch s.graphemes (post.flatMap Segment.graphemes) := by
  rw [Scan.items_ofGraphemes] at h
  rcases List.eq_nil_or_concat after with rfl | ⟨after, last, rfl⟩
  · obtain ⟨-, heof⟩ := List.append_inj' h rfl
    cases heof
    exact .inl ⟨rfl, rfl⟩
  · right
    rw [List.concat_eq_append, ← List.cons_append, ← List.append_assoc] at h
    obtain ⟨hitems, -⟩ := List.append_inj' h rfl
    obtain ⟨ls, ls', hsplit, hbefore, hrest⟩ := List.filterMap_eq_append_iff.mp hitems
    obtain ⟨skipped, l, ls'', rfl, hskip, hl, -⟩ := List.filterMap_eq_cons_iff.mp hrest
    rw [← List.append_assoc] at hsplit
    obtain ⟨hd, hpre⟩ := ofSegments_of_append hsplit
    refine ⟨_, _, _, hd, ?_, ?_, longestMatch_of_divide hd hl⟩
    · have hcovers := flatMap_divide gs
      rw [hd, List.flatMap_append] at hcovers
      simpa using hcovers.symm
    · rw [hpre, List.filterMap_append, hbefore, List.filterMap_eq_nil_iff.mpr hskip,
        List.append_nil]

/-- With a mark on its last letter `or` is no reserved word. -/
theorem scan_token_longestMatch_marked_letter :
    ∃ pre s post, Segment.divide [single 'o', ⟨'r', ['\u0301']⟩, single '!', single '='] =
        pre ++ s :: post ∧
      [single 'o', ⟨'r', ['\u0301']⟩, single '!', single '='] =
        pre.flatMap Segment.graphemes ++ s.graphemes ++ post.flatMap Segment.graphemes ∧
      (Located.ofSegments 1 0 pre).filterMap Located.item? = [] ∧
      Token.LongestMatch ⟨.identifier, "or\u0301", .identifier "or\u0301", 1⟩ s.graphemes
        (post.flatMap Segment.graphemes) := by
  have hscan : (Scan.ofGraphemes [single 'o', ⟨'r', ['\u0301']⟩, single '!', single '=']).items =
      [] ++ .token ⟨.identifier, "or\u0301", .identifier "or\u0301", 1⟩ ::
        [.token ⟨.bangEqual, "!=", .nil, 1⟩, .token (.eof 1)] := by
    decide +kernel
  exact (scan_token_longestMatch _ _ _ _ hscan).resolve_left (by simp)

end Lox
