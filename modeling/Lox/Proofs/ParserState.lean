import Lox.Proofs.FirstOffence
import Mathlib.Data.Nat.Find

/-!
# A parser between its calls

A parser can be used again after it has stopped, with a fault or without: `parse` reads on from the
current place, and `synchronize` moves on to the next statement boundary, past the end of the tokens
if there is none.  Nothing is reset in between.  `Parser.Settled` says what a call finds and what it
leaves, and it holds after every sequence of calls (`settled_after_calls`).

A call of `parse` takes tokens up to the next end of input and none behind it, since what it takes
spells a tree or at least begins a sentence, and neither has an end of input in it.  It makes its
tree of operators and literals that it has just taken, and these are in front of the place where it
goes on (`previous?`).  A call of `synchronize` looks at a token and at the one in front of it, from
the second token on.
-/

namespace Lox

/-! ### The next end of input -/

/-- The first place from `start` on that holds an end of input, or the end of the list. -/
def FirstEnd (tokens : List Token) (start stop : Nat) : Prop :=
  (∀ i t, start ≤ i → i < stop → tokens[i]? = some t → t.kind ≠ .eof) ∧
    ((start ≤ stop ∧ ∃ t, tokens[stop]? = some t ∧ t.kind = .eof) ∨ stop = tokens.length)

theorem exists_firstEnd (tokens : List Token) (start : Nat) :
    ∃ stop, FirstEnd tokens start stop := by
  classical
  by_cases h : ∃ i, start ≤ i ∧ ∃ t, tokens[i]? = some t ∧ t.kind = .eof
  · refine ⟨Nat.find h, fun i t hi hlt ht heof => ?_, .inl (Nat.find_spec h)⟩
    exact Nat.find_min h hlt ⟨hi, t, ht, heof⟩
  · refine ⟨tokens.length, fun i t hi _ ht heof => ?_, .inr rfl⟩
    exact h ⟨i, hi, t, ht, heof⟩

/-- Tokens ahead without an end of input do not reach beyond the next one. -/
theorem FirstEnd.le {tokens taken rest : List Token} {start stop : Nat}
    (h : FirstEnd tokens start stop) (hsplit : tokens.drop start = taken ++ rest)
    (htaken : ∀ t ∈ taken, t.kind ≠ .eof) : start + taken.length ≤ max start stop := by
  have hlength := congrArg List.length hsplit
  rw [List.length_drop, List.length_append] at hlength
  rcases h.2 with ⟨hle, t, ht, heof⟩ | rfl
  · by_contra hlt
    have hindex : stop - start < taken.length := by omega
    have hget : (tokens.drop start)[stop - start]? = some t := by
      rw [List.getElem?_drop, Nat.add_sub_cancel' hle, ht]
    rw [hsplit, List.getElem?_append_left hindex] at hget
    exact htaken t (List.mem_of_getElem? hget) heof
  · omega

theorem firstEnd_of_split {tokens taken rest : List Token} {start : Nat}
    (hsplit : tokens.drop start = taken ++ rest) (htaken : ∀ t ∈ taken, t.kind ≠ .eof)
    (hstart : start ≤ tokens.length) (hrest : ∀ t ∈ rest.head?, t.kind = .eof) :
    FirstEnd tokens start (start + taken.length) := by
  have hlength := congrArg List.length hsplit
  rw [List.length_drop, List.length_append] at hlength
  refine ⟨fun i t hi hlt ht => ?_, ?_⟩
  · have hget : (tokens.drop start)[i - start]? = some t := by
      rw [List.getElem?_drop, Nat.add_sub_cancel' hi, ht]
    rw [hsplit, List.getElem?_append_left (by omega)] at hget
    exact htaken t (List.mem_of_getElem? hget)
  · cases rest with
    | nil =>
      right
      simp only [List.length_nil] at hlength
      omega
    | cons t rest =>
      refine .inl ⟨Nat.le_add_right .., t, ?_, hrest t rfl⟩
      rw [← List.getElem?_drop, hsplit]
      simp

/-! ### Statement boundaries -/

/-- A place where a statement can begin: the end of input, the place behind a semicolon, or a word
that begins a statement. -/
def IsBoundary (tokens : List Token) (position : Int) : Prop :=
  tokens.length ≤ position ∨
    ∃ t, tokenAt? tokens position = some t ∧ (t.kind = .eof ∨
      (∃ u, tokenAt? tokens (position - 1) = some u ∧ u.kind = .semicolon) ∨
      t.kind.beginsStatement = true)

theorem exists_tokenAt? (tokens : List Token) (position : Int) (h : -tokens.length ≤ position)
    (h' : position < tokens.length) : ∃ t, tokenAt? tokens position = some t := by
  rw [tokenAt?]
  by_cases hsign : 0 ≤ position
  · rw [if_pos hsign]
    exact ⟨_, List.getElem?_eq_getElem (by omega)⟩
  · rw [if_neg hsign, if_pos h]
    exact ⟨_, List.getElem?_eq_getElem (by omega)⟩

/-- A place with a token in front of it is a boundary by these two tokens. -/
theorem isBoundary_iff {tokens : List Token} {position : Int} {t u : Token}
    (h : position < tokens.length) (ht : tokenAt? tokens position = some t)
    (hu : tokenAt? tokens (position - 1) = some u) :
    IsBoundary tokens position ↔
      t.kind = .eof ∨ u.kind = .semicolon ∨ t.kind.beginsStatement = true := by
  have hlt : ¬ (tokens.length : Int) ≤ position := by omega
  simp only [IsBoundary, hlt, ht, hu, Option.some.injEq, false_or, exists_eq_left']

theorem boundaryFrom?_of_isBoundary {tokens : List Token} {position : Int}
    (h : -tokens.length < position) (hb : IsBoundary tokens position) :
    boundaryFrom? tokens position = some position := by
  rw [boundaryFrom?]
  by_cases hlt : position < tokens.length
  · obtain ⟨t, ht⟩ := exists_tokenAt? tokens position (by omega) hlt
    obtain ⟨u, hu⟩ := exists_tokenAt? tokens (position - 1) (by omega) (by omega)
    rw [isBoundary_iff hlt ht hu] at hb
    rw [if_pos hlt]
    by_cases heof : t.kind = .eof
    · simp [ht, heof]
    · by_cases hsemicolon : u.kind = .semicolon
      · simp [ht, hu, hsemicolon]
      · simp [ht, hu, heof, hsemicolon, (hb.resolve_left heof).resolve_left hsemicolon]
  · rw [if_neg hlt]

theorem boundaryFrom?_of_not_isBoundary {tokens : List Token} {position : Int}
    (h : -tokens.length < position) (hb : ¬ IsBoundary tokens position) :
    boundaryFrom? tokens position = boundaryFrom? tokens (position + 1) := by
  have hlt : position < tokens.length := by
    by_contra hge
    exact hb (.inl (by omega))
  obtain ⟨t, ht⟩ := exists_tokenAt? tokens position (by omega) hlt
  obtain ⟨u, hu⟩ := exists_tokenAt? tokens (position - 1) (by omega) (by omega)
  rw [isBoundary_iff hlt ht hu, not_or, not_or] at hb
  rw [boundaryFrom?, if_pos hlt]
  simp [ht, hu, hb]

/-- **The search for a boundary finds the first one.**  From the second token on there is always a
token in front of the place. -/
theorem boundaryFrom?_eq_some (tokens : List Token) (position : Int)
    (h : -tokens.length < position) :
    ∃ r, boundaryFrom? tokens position = some r ∧ position ≤ r ∧ IsBoundary tokens r ∧
      ∀ r', position ≤ r' → r' < r → ¬ IsBoundary tokens r' := by
  by_cases hb : IsBoundary tokens position
  · refine ⟨position, boundaryFrom?_of_isBoundary h hb, Int.le_refl _, hb, ?_⟩
    intro r' hle hlt
    omega
  · have hlt : position < tokens.length := by
      by_contra hge
      exact hb (.inl (by omega))
    obtain ⟨r, hr, hle, hfound, hfirst⟩ := boundaryFrom?_eq_some tokens (position + 1) (by omega)
    refine ⟨r, (boundaryFrom?_of_not_isBoundary h hb).trans hr, by omega, hfound, ?_⟩
    intro r' hle' hlt'
    by_cases heq : r' = position
    · rwa [heq]
    · exact hfirst r' (by omega) hlt'
termination_by (tokens.length - position).toNat

/-! ### Calls -/

theorem Spells.ne_nil {s : List Token} {e : Expr} (h : Spells s e) : s ≠ [] := by
  cases h <;> simp

namespace Parser

open Reader

inductive Call
  | parse
  | synchronize
deriving DecidableEq, Repr

def call (p : Parser) : Call → Parser
  | .parse => p.parse.2
  | .synchronize => p.synchronize

def calls (p : Parser) (cs : List Call) : Parser := cs.foldl call p

/-- The token in front of the current place, if there is one. -/
def previous? (p : Parser) : Option Token :=
  match p.current with
  | 0 => none
  | place + 1 => p.tokens[place]?

/-- **What a call finds and what it leaves.** -/
structure Settled (p : Parser) : Prop where
  depth : p.depth = 0
  parse_depth : p.parse.2.depth = 0
  /-- A parse goes no further than the next end of input, and returns a tree only there. -/
  parse_current : ∃ stop, FirstEnd p.tokens p.current stop ∧ p.current ≤ p.parse.2.current ∧
    p.parse.2.current ≤ max p.current stop ∧
    ∀ e, p.parse.1 = .ok e → p.parse.2.current = stop ∧
      Spells ((p.tokens.drop p.current).take (stop - p.current)) e
  /-- A fault is at the token that was not taken, or at an end of input behind the last one. -/
  parse_error : ∀ err, p.parse.1 = .error err → err.token = p.parse.2.peek ∧
    err.token = p.tokens[p.parse.2.current]?.getD
      (.eof ((p.tokens.getLast?.map Token.line).getD 1))
  synchronize_depth : p.synchronize.depth = 0
  /-- The search for a boundary ends, at the first one behind the current place. -/
  synchronize_current : p.current < p.synchronize.current ∧
    synchronize? p.tokens p.current = some (p.synchronize.current : Int) ∧
    IsBoundary p.tokens p.synchronize.current ∧
    ∀ r : Int, p.current < r → r < p.synchronize.current → ¬ IsBoundary p.tokens r
  /-- A token that a reader took is the one in front of the place that it reached. -/
  taken : ∀ {α : Type} (meaning : Token → Option α) (pre rest : List Token) (k : Nat) (a : α)
    (c : Cursor), p.tokens.drop p.current = pre ++ rest →
      next? meaning ⟨rest, k⟩ = .ok (some a) c →
      0 < (p.moveTo c).current ∧
        ∃ t, p.tokens[(p.moveTo c).current - 1]? = some t ∧ meaning t = some a
  /-- A chain ends, or its next link is made with the operator in front of the place from which the
  operand is read. -/
  link_previous : ∀ (level : Level) (operand : Reader Expr) (bound : Nat) (left : Expr)
    (pre rest : List Token) (k : Nat), p.tokens.drop p.current = pre ++ rest →
      chainFrom level operand (bound + 1) left ⟨rest, k⟩ = .ok left ⟨rest, k⟩ ∨
      ∃ op c, (p.moveTo c).previous? = some op ∧ level.has op.kind = true ∧
        chainFrom level operand (bound + 1) left ⟨rest, k⟩ =
          (operand >>= fun right => chainFrom level operand bound (.binary left op right)) c
  unary_previous : ∀ (expression operand : Reader Expr) (pre rest : List Token) (k : Nat),
    p.tokens.drop p.current = pre ++ rest →
      unary expression operand ⟨rest, k⟩ = primary expression ⟨rest, k⟩ ∨
      ∃ op c, (p.moveTo c).previous? = some op ∧ op.kind.isPrefixOp = true ∧
        unary expression operand ⟨rest, k⟩ = (operand >>= fun x => pure (.unary op x)) c
  literal_previous : ∀ (expression : Reader Expr) (pre rest : List Token) (k : Nat),
    p.tokens.drop p.current = pre ++ rest →
      (∀ t ∈ rest.head?, t.value? = none) ∨
      ∃ t v c, (p.moveTo c).previous? = some t ∧ t.value? = some v ∧
        primary expression ⟨rest, k⟩ = .ok (.literal v) c

/-- A parse has taken some tokens and left the rest.  Those taken spell the tree that is returned,
and in any case they have no end of input among them. -/
theorem parse_cases {p : Parser} (h : p.depth = 0) :
    ∃ taken rest, p.tokens.drop p.current = taken ++ rest ∧ p.parse.2 = p.moveTo ⟨rest, 0⟩ ∧
      (∀ t ∈ taken, t.kind ≠ .eof) ∧
      ((∃ e, p.parse.1 = .ok e ∧ Spells taken e ∧ ∀ t ∈ rest.head?, t.kind = .eof) ∨
        ∃ fault, p.parse.1 = .error ⟨fault, p.parse.2.peek⟩) := by
  cases hrun : toEnd p.limit ⟨p.tokens.drop p.current, p.depth⟩ with
  | ok e c =>
    have hparse : p.parse = (.ok e, p.moveTo c) := by rw [parse, hrun]
    rw [h] at hrun
    obtain ⟨hread, hstops⟩ := toEnd_eq_ok.mp hrun
    obtain ⟨taken, rest, hsplit, rfl, hfits⟩ := (Rule.read_reads _ _ .expression).sound hread
    have hend : ∀ t ∈ rest.head?, t.kind = .eof := by
      intro t ht
      exact Decidable.not_not.mp (hstops t ht)
    rw [hparse]
    exact ⟨taken, rest, hsplit, rfl, hfits.spells.kind_ne_eof hfits.stratified,
      .inl ⟨e, rfl, hfits.spells, hend⟩⟩
  | error refusal c =>
    have hparse : p.parse = (.error ⟨refusal.fault, refusal.token?.getD p.endToken⟩,
        p.moveTo c) := by rw [parse, hrun]
    have hrun₀ := hrun
    rw [h] at hrun₀
    obtain ⟨taken, rest, hsplit, rfl, ⟨w, hw⟩, -⟩ := toEnd_refuses (Int.le_refl _) hrun₀
    rw [hparse, token_eq_peek hrun ⟨taken, hsplit.symm⟩]
    refine ⟨taken, rest, hsplit, rfl, ?_, .inr ⟨refusal.fault, rfl⟩⟩
    intro t ht heof
    have hmem : t.kind ∈ taken.map Token.kind ++ w :=
      List.mem_append_left _ (List.mem_map_of_mem ht)
    rw [heof] at hmem
    exact hw.eof_not_mem hmem

theorem synchronize_spec (p : Parser) :
    p.current < p.synchronize.current ∧
      synchronize? p.tokens p.current = some (p.synchronize.current : Int) ∧
      IsBoundary p.tokens p.synchronize.current ∧
      ∀ r : Int, p.current < r → r < p.synchronize.current → ¬ IsBoundary p.tokens r := by
  obtain ⟨r, hr, hle, hfound, hfirst⟩ :=
    boundaryFrom?_eq_some p.tokens (p.current + 1) (by omega)
  have hr' : synchronize? p.tokens p.current = some r := hr
  have hcurrent : (p.synchronize.current : Int) = r := by
    rw [synchronize, hr']
    simp only [Option.getD_some]
    omega
  rw [hcurrent]
  refine ⟨by omega, hr', hfound, ?_⟩
  intro r' hlt hlt'
  exact hfirst r' (by omega) hlt'

theorem previous?_eq_some {p : Parser} {t : Token} :
    p.previous? = some t ↔ 0 < p.current ∧ p.tokens[p.current - 1]? = some t := by
  rw [previous?]
  cases p.current with
  | zero => simp
  | succ place => simp

/-- A token is behind the place once it was taken. -/
theorem previous?_moveTo {p : Parser} {pre rest : List Token} {t : Token}
    (h : p.tokens.drop p.current = pre ++ t :: rest) (k : Nat) :
    (p.moveTo ⟨rest, k⟩).previous? = some t := by
  have hsplit : p.tokens.drop p.current = (pre ++ [t]) ++ rest := by simpa using h
  have hcurrent : (p.moveTo ⟨rest, k⟩).current = p.current + pre.length + 1 := by
    rw [moveTo_current hsplit, List.length_append, List.length_singleton, Nat.add_assoc]
  have htoken : p.tokens[p.current + pre.length]? = some t := by
    rw [← List.getElem?_drop, h]
    simp
  rw [previous?, hcurrent]
  exact htoken

theorem taken_spec (p : Parser) {α : Type} (meaning : Token → Option α) (pre rest : List Token)
    (k : Nat) (a : α) (c : Cursor) (hsplit : p.tokens.drop p.current = pre ++ rest)
    (h : next? meaning ⟨rest, k⟩ = .ok (some a) c) :
    0 < (p.moveTo c).current ∧
      ∃ t, p.tokens[(p.moveTo c).current - 1]? = some t ∧ meaning t = some a := by
  rcases next?_eq_ok h with ⟨hnone, -⟩ | ⟨t, ts, a', ha, rfl, hmeaning, rfl⟩
  · cases hnone
  · cases ha
    obtain ⟨hpos, htoken⟩ := previous?_eq_some.mp (previous?_moveTo hsplit k)
    exact ⟨hpos, t, htoken, hmeaning⟩

/-- A reader that begins with a look at the next token goes on without it, or with what it means and
from the place behind it. -/
theorem next?_bind_spec (p : Parser) {α β : Type} (meaning : Token → Option α)
    (f : Option α → Reader β) {pre rest : List Token}
    (h : p.tokens.drop p.current = pre ++ rest) (k : Nat) :
    ((∀ t ∈ rest.head?, meaning t = none) ∧ (next? meaning >>= f) ⟨rest, k⟩ = f none ⟨rest, k⟩) ∨
      ∃ t a c, (p.moveTo c).previous? = some t ∧ meaning t = some a ∧
        (next? meaning >>= f) ⟨rest, k⟩ = f (some a) c := by
  have hbind (o : Option α) (c : Cursor) (hnext : next? meaning ⟨rest, k⟩ = .ok o c) :
      (next? meaning >>= f) ⟨rest, k⟩ = f o c := by
    show EStateM.bind (next? meaning) f ⟨rest, k⟩ = _
    rw [EStateM.bind, hnext]
  by_cases hnone : ∀ t ∈ rest.head?, meaning t = none
  · exact .inl ⟨hnone, hbind none _ (next?_of_none hnone k)⟩
  · right
    cases rest with
    | nil => exact absurd (by simp) hnone
    | cons t rest =>
      obtain ⟨a, ha⟩ : ∃ a, meaning t = some a := by
        simpa [Option.ne_none_iff_exists'] using hnone
      exact ⟨t, a, ⟨rest, k⟩, previous?_moveTo h k, ha, hbind (some a) _ (next?_of_some ha rest k)⟩

theorem accept_bind_spec (p : Parser) {β : Type} (fits : Kind → Bool) (f : Option Token → Reader β)
    {pre rest : List Token} (h : p.tokens.drop p.current = pre ++ rest) (k : Nat) :
    (accept fits >>= f) ⟨rest, k⟩ = f none ⟨rest, k⟩ ∨
      ∃ t c, (p.moveTo c).previous? = some t ∧ fits t.kind = true ∧
        (accept fits >>= f) ⟨rest, k⟩ = f (some t) c := by
  rcases next?_bind_spec p _ f h k with ⟨-, hf⟩ | ⟨t, a, c, ht, ha, hf⟩
  · exact .inl hf
  · obtain ⟨hfits, rfl⟩ : fits t.kind = true ∧ t = a := by simpa using ha
    exact .inr ⟨t, c, ht, hfits, hf⟩

/-- **A parser without open levels is settled.** -/
theorem settled_of_depth {p : Parser} (h : p.depth = 0) : p.Settled := by
  obtain ⟨taken, rest, hsplit, hafter, htaken, houtcome⟩ := parse_cases h
  have hcurrent : p.parse.2.current = p.current + taken.length := by
    rw [hafter, moveTo_current hsplit]
  exact {
    depth := h
    parse_depth := by rw [hafter]; rfl
    parse_current := by
      rcases houtcome with ⟨e, hok, hspells, hend⟩ | ⟨fault, herror⟩
      · have hstart : p.current ≤ p.tokens.length := by
          have hlength := congrArg List.length hsplit
          have hpos := List.length_pos_iff.mpr hspells.ne_nil
          rw [List.length_drop, List.length_append] at hlength
          omega
        refine ⟨p.current + taken.length, firstEnd_of_split hsplit htaken hstart hend, ?_, ?_, ?_⟩
        · omega
        · omega
        · intro e' he'
          rw [hok] at he'
          cases he'
          rw [hsplit, Nat.add_sub_cancel_left, List.take_left]
          exact ⟨hcurrent, hspells⟩
      · obtain ⟨stop, hstop⟩ := exists_firstEnd p.tokens p.current
        refine ⟨stop, hstop, by omega, hcurrent ▸ hstop.le hsplit htaken, ?_⟩
        intro e he
        rw [herror] at he
        cases he
    parse_error := by
      intro err herr
      rcases houtcome with ⟨e, hok, -⟩ | ⟨fault, herror⟩
      · rw [hok] at herr
        cases herr
      · rw [herror] at herr
        cases herr
        refine ⟨rfl, ?_⟩
        rw [hafter]
        rfl
    synchronize_depth := h
    synchronize_current := synchronize_spec p
    taken := taken_spec p
    link_previous := fun level operand bound left pre rest k hrest =>
      accept_bind_spec p level.has _ hrest k
    unary_previous := fun expression operand pre rest k hrest =>
      accept_bind_spec p Kind.isPrefixOp _ hrest k
    literal_previous := by
      intro expression pre rest k hrest
      rcases next?_bind_spec p Token.value? _ hrest k with ⟨hnone, -⟩ | ⟨t, v, c, ht, hv, hf⟩
      · exact .inl hnone
      · exact .inr ⟨t, v, c, ht, hv, hf⟩ }

/-! ### Sequences of calls -/

theorem tokens_call (p : Parser) (c : Call) :
    (p.call c).tokens = p.tokens ∧ (p.call c).limit = p.limit := by
  cases c with
  | synchronize => exact ⟨rfl, rfl⟩
  | parse =>
    rw [call, parse]
    split <;> exact ⟨rfl, rfl⟩

theorem Settled.call {p : Parser} (h : p.Settled) (c : Call) :
    (p.call c).Settled ∧ p.current ≤ (p.call c).current := by
  cases c with
  | synchronize =>
    exact ⟨settled_of_depth h.synchronize_depth, Nat.le_of_lt h.synchronize_current.1⟩
  | parse =>
    obtain ⟨stop, -, hle, -⟩ := h.parse_current
    exact ⟨settled_of_depth h.parse_depth, hle⟩

theorem Settled.calls {p : Parser} (h : p.Settled) (cs : List Call) :
    (p.calls cs).Settled ∧ p.current ≤ (p.calls cs).current ∧ (p.calls cs).tokens = p.tokens ∧
      (p.calls cs).limit = p.limit := by
  induction cs generalizing p with
  | nil => exact ⟨h, Nat.le_refl _, rfl, rfl⟩
  | cons c cs ih =>
    obtain ⟨hcall, hle⟩ := h.call c
    obtain ⟨htokens, hlimit⟩ := tokens_call p c
    obtain ⟨hcalls, hle', htokens', hlimit'⟩ := ih hcall
    exact ⟨hcalls, Nat.le_trans hle hle', htokens'.trans htokens, hlimit'.trans hlimit⟩

/-- **A parser is settled after every sequence of calls**, and its place never goes back. -/
theorem settled_after_calls (tokens : List Token) (limit : Int) (cs : List Call) :
    ((Parser.new tokens limit).calls cs).Settled ∧
      ((Parser.new tokens limit).calls cs).tokens = tokens ∧
      ((Parser.new tokens limit).calls cs).limit = limit ∧
      ∀ cs', ((Parser.new tokens limit).calls cs).current ≤
        ((Parser.new tokens limit).calls (cs ++ cs')).current := by
  have hnew : (Parser.new tokens limit).Settled := settled_of_depth rfl
  obtain ⟨hsettled, -, htokens, hlimit⟩ := hnew.calls cs
  refine ⟨hsettled, htokens, hlimit, fun cs' => ?_⟩
  rw [Parser.calls, Parser.calls, List.foldl_append]
  exact (hsettled.calls cs').2.1

end Parser

end Lox
