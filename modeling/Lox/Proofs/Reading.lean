import Lox.Expr.Parser

/-!
# What a reader takes

A reader is exact for a relation `Q` when it succeeds precisely as `Q` says: `Q e taken rest` holds
if and only if, on the tokens `taken ++ rest`, the reader returns `e` and leaves `rest` (`Reads`).
The relation sees the tokens that are left as well as the ones taken, since a chain ends only where
no operator of its level follows.

`Reads` passes from the parts of a reader to the whole.  `nested_reads` says that opening a level
changes nothing in what is read, and `chain_reads` turns exact operands into exact chains: the tree
of a chain is built link by link, and each link sees the operator behind it as the first token left.

What the rules do with their parts is said once for other purposes too.  A relation between readers
that holds of the single steps and is kept when steps are put together (`Composes`) holds of a rule
if it holds of the rules one level down.
-/

namespace Lox

/-- The next token, if there is one, is not of the kinds given. -/
def Stops (p : Kind → Prop) (ts : List Token) : Prop := ∀ t ∈ ts.head?, ¬ p t.kind

@[simp] theorem stops_nil (p : Kind → Prop) : Stops p [] := by simp [Stops]

@[simp] theorem stops_cons {p : Kind → Prop} {t : Token} {ts : List Token} :
    Stops p (t :: ts) ↔ ¬ p t.kind := by simp [Stops]

theorem Stops.mono {p q : Kind → Prop} {ts : List Token} (h : Stops p ts)
    (hpq : ∀ k, q k → p k) : Stops q ts := fun t ht hq => h t ht (hpq _ hq)

namespace Reader

/-! ### Steps -/

theorem bind_eq_ok {α β : Type} {x : Reader α} {f : α → Reader β} {c c' : Cursor} {b : β} :
    (x >>= f) c = .ok b c' ↔ ∃ a c₁, x c = .ok a c₁ ∧ f a c₁ = .ok b c' := by
  show EStateM.bind x f c = _ ↔ _
  unfold EStateM.bind
  cases x c with
  | ok a c₁ =>
    constructor
    · intro h
      exact ⟨a, c₁, rfl, h⟩
    · rintro ⟨a', c₂, h, hf⟩
      cases h
      exact hf
  | error f c₁ => simp

theorem pure_eq_ok {α : Type} {a b : α} {c c' : Cursor} :
    (pure a : Reader α) c = .ok b c' ↔ a = b ∧ c = c' := by
  show EStateM.Result.ok a c = _ ↔ _
  simp

theorem refuse_ne_ok {α : Type} {fault : ParseFault} {a : α} {c c' : Cursor} :
    refuse fault c ≠ .ok a c' := by
  intro h
  cases h

theorem next?_of_some {α : Type} {meaning : Token → Option α} {t : Token} {a : α}
    (h : meaning t = some a) (ts : List Token) (k : Nat) :
    next? meaning ⟨t :: ts, k⟩ = .ok (some a) ⟨ts, k⟩ := by
  simp [next?, h]

theorem next?_of_none {α : Type} {meaning : Token → Option α} {ts : List Token}
    (h : ∀ t ∈ ts.head?, meaning t = none) (k : Nat) :
    next? meaning ⟨ts, k⟩ = .ok none ⟨ts, k⟩ := by
  cases ts with
  | nil => rfl
  | cons t ts =>
    have ht : meaning t = none := h t rfl
    simp [next?, ht]

/-- Looking at the next token takes one with a meaning, or takes nothing in front of one without. -/
theorem next?_eq_ok {α : Type} {meaning : Token → Option α} {ts : List Token} {k : Nat}
    {o : Option α} {c : Cursor} (h : next? meaning ⟨ts, k⟩ = .ok o c) :
    (o = none ∧ c = ⟨ts, k⟩ ∧ ∀ t ∈ ts.head?, meaning t = none) ∨
      ∃ t ts' a, o = some a ∧ ts = t :: ts' ∧ meaning t = some a ∧ c = ⟨ts', k⟩ := by
  cases ts with
  | nil =>
    cases h
    exact .inl ⟨rfl, rfl, by simp⟩
  | cons t ts =>
    cases ht : meaning t with
    | none =>
      have hn : ∀ u ∈ (t :: ts).head?, meaning u = none := by simpa using ht
      rw [next?_of_none hn k] at h
      cases h
      exact .inl ⟨rfl, rfl, hn⟩
    | some a =>
      rw [next?_of_some ht] at h
      cases h
      exact .inr ⟨t, ts, a, rfl, rfl, ht, rfl⟩

theorem accept_of_fits {fits : Kind → Bool} {t : Token} (h : fits t.kind = true)
    (ts : List Token) (k : Nat) : accept fits ⟨t :: ts, k⟩ = .ok (some t) ⟨ts, k⟩ :=
  next?_of_some (if_pos h) ts k

theorem accept_of_stops {fits : Kind → Bool} {ts : List Token} (h : Stops (fits ·) ts) (k : Nat) :
    accept fits ⟨ts, k⟩ = .ok none ⟨ts, k⟩ :=
  next?_of_none (fun t ht => if_neg (h t ht)) k

theorem accept_eq_ok {fits : Kind → Bool} {ts : List Token} {k : Nat} {o : Option Token}
    {c : Cursor} (h : accept fits ⟨ts, k⟩ = .ok o c) :
    (o = none ∧ c = ⟨ts, k⟩ ∧ Stops (fits ·) ts) ∨
      ∃ t ts', o = some t ∧ ts = t :: ts' ∧ fits t.kind = true ∧ c = ⟨ts', k⟩ := by
  rcases next?_eq_ok h with ⟨ho, hc, hs⟩ | ⟨t, ts', a, ho, hts, hm, hc⟩
  · exact .inl ⟨ho, hc, fun t ht => by simpa using hs t ht⟩
  · obtain ⟨hf, rfl⟩ : fits t.kind = true ∧ t = a := by simpa using hm
    exact .inr ⟨t, ts', ho, hts, hf, hc⟩

theorem expect_eq_ok {kind : Kind} {fault : ParseFault} {c c' : Cursor} {u : Unit} :
    expect kind fault c = .ok u c' ↔
      ∃ t ts, c.rest = t :: ts ∧ t.kind = kind ∧ c' = ⟨ts, c.depth⟩ := by
  obtain ⟨ts, k⟩ := c
  rw [expect, bind_eq_ok]
  constructor
  · rintro ⟨o, c₁, ha, h⟩
    rcases accept_eq_ok ha with ⟨rfl, -, -⟩ | ⟨t, ts', rfl, rfl, ht, rfl⟩
    · exact absurd h refuse_ne_ok
    · exact ⟨t, ts', rfl, by simpa using ht, (pure_eq_ok.mp h).2.symm⟩
  · rintro ⟨t, ts', rfl, ht, rfl⟩
    exact ⟨some t, _, accept_of_fits (by simpa using ht) ts' k, rfl⟩

/-! ### Exact readers -/

/-- **A reader is exact for a relation.**  It succeeds where the relation holds of a tree, the
tokens taken and the tokens left, and nowhere else, and it closes the levels it opened. -/
structure Reads (r : Reader Expr) (Q : Expr → List Token → List Token → Prop) : Prop where
  sound : ∀ {ts : List Token} {k : Nat} {e : Expr} {c : Cursor}, r ⟨ts, k⟩ = .ok e c →
    ∃ taken rest, ts = taken ++ rest ∧ c = ⟨rest, k⟩ ∧ Q e taken rest
  complete : ∀ {e : Expr} {taken rest : List Token}, Q e taken rest →
    ∀ k, r ⟨taken ++ rest, k⟩ = .ok e ⟨rest, k⟩

variable {r operand : Reader Expr} {Q Q' : Expr → List Token → List Token → Prop} {level : Level}

theorem Reads.congr (h : Reads r Q) (hQ : ∀ e taken rest, Q e taken rest ↔ Q' e taken rest) :
    Reads r Q' where
  sound hr := by
    obtain ⟨taken, rest, hts, hc, hq⟩ := h.sound hr
    exact ⟨taken, rest, hts, hc, (hQ _ _ _).mp hq⟩
  complete hq := h.complete ((hQ _ _ _).mpr hq)

theorem nested_reads (h : Reads r Q) : Reads (nested r) Q where
  sound {ts k e c} hr := by
    unfold nested at hr
    split at hr
    · rename_i a c₁ hr₁
      obtain ⟨taken, rest, hts, rfl, hq⟩ := h.sound hr₁
      cases hr
      exact ⟨taken, rest, hts, by simp, hq⟩
    · cases hr
  complete hq k := by simp [nested, h.complete hq (k + 1)]

/-! ### Chains -/

/-- A chain of a level up to some place: an operand, or a chain with one more link.  The chain in
front of a link was left with the operator of the link as the first token ahead. -/
inductive Chain (level : Level) (Q : Expr → List Token → List Token → Prop) :
    Expr → List Token → List Token → Prop
  | operand {e : Expr} {s rest : List Token} : Q e s rest → Chain level Q e s rest
  | link {l x : Expr} {op : Token} {s s' rest : List Token} :
      Chain level Q l s (op :: s' ++ rest) → level.has op.kind = true → Q x s' rest →
      Chain level Q (.binary l op x) (s ++ op :: s') rest

/-- The loop extends a chain to one that no operator of the level can extend. -/
theorem chainFrom_sound (h : Reads operand Q) {bound k : Nat} {l e : Expr} {s ts : List Token}
    {c : Cursor} (hb : ts.length ≤ bound) (hl : Chain level Q l s ts)
    (hr : chainFrom level operand bound l ⟨ts, k⟩ = .ok e c) :
    ∃ s' rest, ts = s' ++ rest ∧ c = ⟨rest, k⟩ ∧ Chain level Q e (s ++ s') rest ∧
      Stops (level.has ·) rest := by
  induction bound generalizing l s ts with
  | zero =>
    obtain rfl : ts = [] := List.length_eq_zero_iff.mp (Nat.le_zero.mp hb)
    obtain ⟨rfl, rfl⟩ := pure_eq_ok.mp hr
    exact ⟨[], [], rfl, rfl, by simpa using hl, stops_nil _⟩
  | succ bound ih =>
    rw [chainFrom, bind_eq_ok] at hr
    obtain ⟨o, c₁, ha, hr⟩ := hr
    rcases accept_eq_ok ha with ⟨rfl, rfl, hs⟩ | ⟨op, ts', rfl, rfl, hop, rfl⟩
    · obtain ⟨rfl, rfl⟩ := pure_eq_ok.mp hr
      exact ⟨[], ts, rfl, rfl, by simpa using hl, hs⟩
    · obtain ⟨x, c₂, hx, hr⟩ := bind_eq_ok.mp hr
      obtain ⟨sx, rest, rfl, rfl, hq⟩ := h.sound hx
      simp only [List.length_cons, List.length_append] at hb
      obtain ⟨s', rest', rfl, hc, hch, hs⟩ := ih (by omega) (.link hl hop hq) hr
      exact ⟨op :: sx ++ s', rest', by simp, hc, by simpa using hch, hs⟩

/-- Reading a chain passes through every chain that the tokens ahead begin with. -/
theorem chain_run (h : Reads operand Q) {e : Expr} {s rest : List Token}
    (he : Chain level Q e s rest) (k : Nat) :
    ∃ bound, rest.length ≤ bound ∧
      chain level operand ⟨s ++ rest, k⟩ = chainFrom level operand bound e ⟨rest, k⟩ := by
  induction he with
  | @operand e s rest hq =>
    refine ⟨rest.length, Nat.le_refl _, ?_⟩
    show EStateM.bind operand _ _ = _
    rw [EStateM.bind, h.complete hq k]
    rfl
  | @link l x op s s' rest _ hop hq ih =>
    obtain ⟨bound, hb, hr⟩ := ih
    cases bound with
    | zero => simp at hb
    | succ bound =>
      simp only [List.cons_append, List.length_cons, List.length_append] at hb
      refine ⟨bound, by omega, ?_⟩
      rw [List.append_assoc, hr, chainFrom]
      show EStateM.bind (accept level.has) _ _ = _
      rw [EStateM.bind, List.cons_append, accept_of_fits hop]
      show EStateM.bind operand _ _ = _
      rw [EStateM.bind, h.complete hq k]

theorem chainFrom_of_stops {bound k : Nat} {e : Expr} {rest : List Token}
    (hs : Stops (level.has ·) rest) :
    chainFrom level operand bound e ⟨rest, k⟩ = .ok e ⟨rest, k⟩ := by
  cases bound with
  | zero => rfl
  | succ bound =>
    rw [chainFrom, bind_eq_ok]
    exact ⟨none, _, accept_of_stops hs k, rfl⟩

/-- **Exact operands make exact chains.**  A chain ends where no operator of its level follows. -/
theorem chain_reads (h : Reads operand Q) (level : Level) :
    Reads (chain level operand) fun e s rest =>
      Chain level Q e s rest ∧ Stops (level.has ·) rest where
  sound {ts k e c} hr := by
    rw [chain, bind_eq_ok] at hr
    obtain ⟨l, c₁, hl, hr⟩ := hr
    obtain ⟨s, rest, rfl, rfl, hq⟩ := h.sound hl
    obtain ⟨c₂, c₃, hg, hr⟩ := bind_eq_ok.mp hr
    cases hg
    obtain ⟨s', rest', rfl, hc, hch, hs⟩ := chainFrom_sound h (Nat.le_refl _) (.operand hq) hr
    exact ⟨s ++ s', rest', by simp, hc, hch, hs⟩
  complete {e s rest} hq k := by
    obtain ⟨bound, -, hr⟩ := chain_run h hq.1 k
    rw [hr, chainFrom_of_stops hq.2]

/-! ### From the parts to the whole -/

/-- **A relation that passes from the parts of readers to the whole.** -/
structure Composes (R : {α : Type} → Reader α → Reader α → Prop) : Prop where
  of_pure : ∀ {α : Type} (a : α), R (pure a : Reader α) (pure a)
  of_refuse : ∀ {α : Type} (fault : ParseFault), R (refuse fault : Reader α) (refuse fault)
  of_get : R (get : Reader Cursor) get
  of_next : ∀ {α : Type} (meaning : Token → Option α), R (next? meaning) (next? meaning)
  of_bind : ∀ {α β : Type} {r r' : Reader α} {f f' : α → Reader β}, R r r' →
    (∀ a, R (f a) (f' a)) → R (r >>= f) (r' >>= f')
  of_nested : ∀ {α : Type} {r r' : Reader α}, R r r' → R (nested r) (nested r')

namespace Composes

variable {R : {α : Type} → Reader α → Reader α → Prop}
  {expression expression' operand operand' condition condition' : Reader Expr}

theorem expect (h : Composes R) (kind : Kind) (fault : ParseFault) :
    R (expect kind fault) (expect kind fault) := by
  refine h.of_bind (h.of_next _) fun o => ?_
  cases o with
  | none => exact h.of_refuse fault
  | some t => exact h.of_pure ()

theorem chainFrom (h : Composes R) (level : Level) (ho : R operand operand') (bound : Nat)
    (left : Expr) :
    R (chainFrom level operand bound left) (chainFrom level operand' bound left) := by
  induction bound generalizing left with
  | zero => exact h.of_pure left
  | succ bound ih =>
    refine h.of_bind (h.of_next _) fun o => ?_
    cases o with
    | none => exact h.of_pure left
    | some op => exact h.of_bind ho fun x => ih (.binary left op x)

theorem chain (h : Composes R) (level : Level) (ho : R operand operand') :
    R (chain level operand) (chain level operand') := by
  refine h.of_bind ho fun left => h.of_bind h.of_get fun c => ?_
  exact h.chainFrom level ho c.rest.length left

theorem primary (h : Composes R) (he : R expression expression') :
    R (primary expression) (primary expression') := by
  refine h.of_bind (h.of_next _) fun o => ?_
  cases o with
  | some v => exact h.of_pure (Expr.literal v)
  | none =>
    refine h.of_bind (h.of_next _) fun o => ?_
    cases o with
    | none => exact h.of_refuse .expectedExpression
    | some p =>
      refine h.of_bind he fun inner => h.of_bind (h.expect _ _) fun _ => ?_
      exact h.of_pure (Expr.grouping inner)

theorem unary (h : Composes R) (he : R expression expression') (ho : R operand operand') :
    R (unary expression operand) (unary expression' operand') := by
  refine h.of_bind (h.of_next _) fun o => ?_
  cases o with
  | none => exact h.primary he
  | some op => exact h.of_bind ho fun x => h.of_pure (Expr.unary op x)

theorem equality (h : Composes R) (ho : R operand operand') :
    R (equality operand) (equality operand') := by
  apply h.chain
  apply h.chain
  apply h.chain
  exact h.chain .factor ho

theorem ternary (h : Composes R) (he : R expression expression') (hc : R condition condition') :
    R (ternary expression condition) (ternary expression' condition') := by
  refine h.of_bind hc fun c => h.of_bind (h.of_next _) fun o => ?_
  cases o with
  | none => exact h.of_pure c
  | some q =>
    refine h.of_bind he fun a => h.of_bind (h.expect _ _) fun _ => h.of_bind he fun b => ?_
    exact h.of_pure (Expr.ternary c a b)

theorem comma (h : Composes R) (he : R expression expression') (ho : R operand operand') :
    R (comma expression operand) (comma expression' operand') :=
  h.chain .comma (h.ternary he (h.equality (h.unary he ho)))

/-- A rule has the relation if the rules one level down have it. -/
theorem read (h : Composes R) (limit limit' : Int) {room : Nat} (room' : Nat)
    (hread : ∀ rule : Rule, R (rule.read limit room) (rule.read limit' room')) (rule : Rule) :
    R (rule.read limit (room + 1)) (rule.read limit' (room' + 1)) := by
  cases rule with
  | expression => exact h.of_nested (h.comma (hread .expression) (hread .operand))
  | operand => exact h.of_nested (h.unary (hread .expression) (hread .operand))

theorem toEnd (h : Composes R) (limit limit' : Int)
    (hread : ∀ depth : Nat, R (Rule.expression.read limit (limit - depth).toNat)
      (Rule.expression.read limit' (limit' - depth).toNat)) :
    R (Parser.toEnd limit) (Parser.toEnd limit') := by
  refine h.of_bind h.of_get fun c => h.of_bind (hread c.depth) fun e => ?_
  refine h.of_bind h.of_get fun c' => ?_
  cases c'.rest.head? with
  | none => exact h.of_pure e
  | some t =>
    show R (if t.kind = .eof then pure e else refuse .trailingTokens)
      (if t.kind = .eof then pure e else refuse .trailingTokens)
    split
    · exact h.of_pure e
    · exact h.of_refuse .trailingTokens

end Composes

end Reader

end Lox
