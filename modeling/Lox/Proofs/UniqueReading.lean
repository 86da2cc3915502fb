import Lox.Expr.Printer
import Lox.Proofs.Meaning
import Lox.Proofs.Reprint

/-!
# The text of a tree is read in one way only

A node is written as its head and its children in parentheses, with a space in front of each child,
and so is a chain, though it is written link by link (`Expr.render_binary`).  Such a text can be read
back.  A word ends at the next space or parenthesis, and a node ends where its children do.

The same signs are written for prefix operators and for binary ones, and a grouping and a conditional
are written with words in front.  So it takes the head and the number of children to tell the form of
a node (`Expr.Readable.alike`), and the number is known only when all children have been read.  That
is why a text is read together with what follows it (`Expr.ReadsUniquely`): what is left behind a
child tells whether there is another one.

`Expr.Readable` asks that literals are displayed as words and that operators are written as they are
scanned.  A string could be displayed as anything, the text of another tree included.
-/

namespace Lox

namespace Expr

/-! ### The text of a node -/

theorem renderLinks_append (text : String) (links links' : List Link) :
    renderLinks text (links ++ links') = renderLinks (renderLinks text links) links' := by
  induction links generalizing text with
  | nil => rw [List.nil_append, renderLinks]
  | cons link links ih =>
    obtain ⟨op, right⟩ := link
    rw [List.cons_append, renderLinks, renderLinks, ih]

/-- The text of a tree is that of its far left operand, with its links around it. -/
theorem renderLinks_unroll (e : Expr) :
    renderLinks (e.unroll []).1.render (e.unroll []).2 = e.render := by
  cases e with
  | binary left op right => rw [render, unroll]
  | _ => simp only [unroll, renderLinks]

/-- **The text of a chain is made of the texts of its last operator's operands.** -/
theorem render_binary (left right : Expr) (op : Token) :
    (binary left op right).render =
      "(" ++ op.lexeme ++ " " ++ left.render ++ " " ++ right.render ++ ")" := by
  rw [render, unroll_eq]
  dsimp only
  rw [renderLinks_append, renderLinks_unroll, renderLinks, renderLinks]

/-- What stands behind the opening parenthesis of a node. -/
def head? : Expr → Option String
  | literal _ => none
  | grouping _ => some "group"
  | unary op _ | binary _ op _ => some op.lexeme
  | ternary _ _ _ => some "ternary"

def renderAll (es : List Expr) : List Char := es.flatMap fun e => ' ' :: e.render.toList

/-- **A node is written as its head and its children in parentheses.** -/
theorem toList_render {e : Expr} {head : String} (h : e.head? = some head) :
    e.render.toList = '(' :: (head.toList ++ (renderAll e.children ++ [')'])) := by
  cases e with
  | literal v => cases h
  | grouping inner =>
    cases h
    rw [render]
    simp [renderAll, children]
  | unary op right =>
    cases h
    rw [render]
    simp [renderAll, children]
  | binary left op right =>
    cases h
    rw [render_binary]
    simp [renderAll, children]
  | ternary c a b =>
    cases h
    rw [render]
    simp [renderAll, children]

end Expr

/-! ### Words -/

/-- Whether a character neither ends a word nor begins a node. -/
def isWordChar (c : Char) : Bool := !decide (c = ' ') && !decide (c = '(') && !decide (c = ')')

def IsWord (cs : List Char) : Prop := ∀ c ∈ cs, isWordChar c = true

def EndsWord (rest : List Char) : Prop := ∀ c ∈ rest.head?, c = ' ' ∨ c = ')'

theorem isWord_of_all {cs : List Char} (h : cs.all isWordChar = true) : IsWord cs :=
  List.all_eq_true.mp h

theorem IsWord.append {cs cs' : List Char} (h : IsWord cs) (h' : IsWord cs') :
    IsWord (cs ++ cs') := by
  intro c hc
  rcases List.mem_append.mp hc with hc | hc
  · exact h c hc
  · exact h' c hc

theorem EndsWord.ne {rest cs : List Char} (h : EndsWord rest) {c : Char} (hc : isWordChar c = true) :
    rest ≠ c :: cs := by
  rintro rfl
  rcases h c rfl with rfl | rfl
  · exact absurd hc (by decide)
  · exact absurd hc (by decide)

/-- **A word is told from what follows it.** -/
theorem IsWord.append_inj {cs cs' rest rest' : List Char} (h : IsWord cs) (h' : IsWord cs')
    (hr : EndsWord rest) (hr' : EndsWord rest') (heq : cs ++ rest = cs' ++ rest') :
    cs = cs' ∧ rest = rest' := by
  induction cs generalizing cs' with
  | nil =>
    cases cs' with
    | nil => exact ⟨rfl, heq⟩
    | cons c' cs' => exact absurd heq (hr.ne (h' c' (List.mem_cons_self ..)))
  | cons c cs ih =>
    cases cs' with
    | nil => exact absurd heq.symm (hr'.ne (h c (List.mem_cons_self ..)))
    | cons c' cs' =>
      obtain ⟨rfl, htail⟩ := List.cons.inj heq
      obtain ⟨-, hcs⟩ := List.forall_mem_cons.mp h
      obtain ⟨-, hcs'⟩ := List.forall_mem_cons.mp h'
      obtain ⟨rfl, hrest⟩ := ih hcs hcs' htail
      exact ⟨rfl, hrest⟩

/-! ### Operators -/

def signs : List (Kind × String) := [
  (.comma, ","), (.bangEqual, "!="), (.equalEqual, "=="), (.greater, ">"), (.greaterEqual, ">="),
  (.less, "<"), (.lessEqual, "<="), (.minus, "-"), (.plus, "+"), (.slash, "/"), (.star, "*"),
  (.bang, "!")]

structure Token.IsSign (t : Token) : Prop where
  sign : (t.kind, t.lexeme) ∈ signs
  literal : t.literal = .nil

namespace Token.IsSign

theorem isWord {t : Token} (h : t.IsSign) : IsWord t.lexeme.toList := by
  have hall : ∀ p ∈ signs, p.2.toList.all isWordChar = true := by decide
  exact isWord_of_all (hall _ h.sign)

/-- No operator is written like a grouping or a conditional. -/
theorem lexeme_ne {t : Token} (h : t.IsSign) : t.lexeme ≠ "group" ∧ t.lexeme ≠ "ternary" := by
  have hall : ∀ p ∈ signs, p.2 ≠ "group" ∧ p.2 ≠ "ternary" := by decide
  exact hall _ h.sign

/-- Operators with the same text differ in their lines only. -/
theorem face_eq {t t' : Token} (h : t.IsSign) (h' : t'.IsSign) (heq : t.lexeme = t'.lexeme) :
    t.face = t'.face := by
  have hall : ∀ p ∈ signs, ∀ q ∈ signs, p.2 = q.2 → p.1 = q.1 := by decide
  have hkind : t.kind = t'.kind := hall _ h.sign _ h'.sign heq
  rw [face, face, hkind, heq, h.literal, h'.literal]

end Token.IsSign

/-! ### Trees -/

namespace Expr

/-- **Trees that are the same** up to the lines of their operators and up to literals with the same
display text. -/
inductive Alike : Expr → Expr → Prop
  | literal {v v' : Value} : v.display = v'.display → Alike (.literal v) (.literal v')
  | grouping {e e' : Expr} : Alike e e' → Alike (.grouping e) (.grouping e')
  | unary {op op' : Token} {e e' : Expr} : op.face = op'.face → Alike e e' →
      Alike (.unary op e) (.unary op' e')
  | binary {op op' : Token} {l l' x x' : Expr} : op.face = op'.face → Alike l l' → Alike x x' →
      Alike (.binary l op x) (.binary l' op' x')
  | ternary {c c' a a' b b' : Expr} : Alike c c' → Alike a a' → Alike b b' →
      Alike (.ternary c a b) (.ternary c' a' b')

/-- Trees whose literals are displayed as words and whose operators are written as such. -/
inductive Readable : Expr → Prop
  | literal {v : Value} : IsWord v.display.toList → Readable (.literal v)
  | grouping {e : Expr} : Readable e → Readable (.grouping e)
  | unary {op : Token} {e : Expr} : op.IsSign → Readable e → Readable (.unary op e)
  | binary {op : Token} {l x : Expr} : op.IsSign → Readable l → Readable x →
      Readable (.binary l op x)
  | ternary {c a b : Expr} : Readable c → Readable a → Readable b → Readable (.ternary c a b)

theorem Readable.children {e : Expr} (h : e.Readable) : ∀ c ∈ e.children, c.Readable := by
  cases h with
  | literal => simp [Expr.children]
  | grouping he => simpa [Expr.children] using he
  | unary _ he => simpa [Expr.children] using he
  | binary _ hl hx => simpa [Expr.children] using ⟨hl, hx⟩
  | ternary hc ha hb => simpa [Expr.children] using ⟨hc, ha, hb⟩

theorem Readable.isWord_head {e : Expr} (h : e.Readable) {head : String}
    (hhead : e.head? = some head) : IsWord head.toList := by
  cases h with
  | literal => cases hhead
  | grouping | ternary =>
    cases hhead
    exact isWord_of_all (by decide)
  | unary hop | binary hop =>
    cases hhead
    exact hop.isWord

theorem Readable.isWord_literal {e : Expr} (h : e.Readable) (hhead : e.head? = none) :
    ∃ v, e = .literal v ∧ IsWord e.render.toList := by
  cases h with
  | @literal v hv =>
    refine ⟨v, rfl, ?_⟩
    rw [render]
    exact hv
  | _ => cases hhead

/-- **The head and the number of children tell the form of a node.** -/
theorem Readable.alike {e e' : Expr} (h : e.Readable) (h' : e'.Readable) {head : String}
    (hhead : e.head? = some head) (hhead' : e'.head? = some head)
    (hchildren : List.Forall₂ Alike e.children e'.children) : e.Alike e' := by
  cases h with
  | literal => cases hhead
  | grouping he =>
    cases hhead
    cases h' with
    | literal => cases hhead'
    | grouping =>
      cases hchildren with
      | cons halike => exact .grouping halike
    | unary hop | binary hop => exact absurd (Option.some.inj hhead') hop.lexeme_ne.1
    | ternary => exact absurd (Option.some.inj hhead') (by decide)
  | unary hop =>
    cases hhead
    cases h' with
    | literal => cases hhead'
    | grouping => exact absurd (Option.some.inj hhead').symm hop.lexeme_ne.1
    | unary hop' =>
      cases hchildren with
      | cons halike => exact .unary (hop.face_eq hop' (Option.some.inj hhead').symm) halike
    | binary =>
      cases hchildren with
      | cons _ hrest => cases hrest
    | ternary => exact absurd (Option.some.inj hhead').symm hop.lexeme_ne.2
  | binary hop =>
    cases hhead
    cases h' with
    | literal => cases hhead'
    | grouping => exact absurd (Option.some.inj hhead').symm hop.lexeme_ne.1
    | unary =>
      cases hchildren with
      | cons _ hrest => cases hrest
    | binary hop' =>
      cases hchildren with
      | cons hleft hrest =>
        cases hrest with
        | cons hright =>
          exact .binary (hop.face_eq hop' (Option.some.inj hhead').symm) hleft hright
    | ternary => exact absurd (Option.some.inj hhead').symm hop.lexeme_ne.2
  | ternary =>
    cases hhead
    cases h' with
    | literal => cases hhead'
    | grouping => exact absurd (Option.some.inj hhead') (by decide)
    | unary hop | binary hop => exact absurd (Option.some.inj hhead') hop.lexeme_ne.2
    | ternary =>
      cases hchildren with
      | cons hc hrest =>
        cases hrest with
        | cons ha hrest =>
          cases hrest with
          | cons hb => exact .ternary hc ha hb

/-- The text of a tree can be read in one way only, whatever follows it. -/
def ReadsUniquely (e : Expr) : Prop :=
  ∀ (e' : Expr) (rest rest' : List Char), e'.Readable → EndsWord rest → EndsWord rest' →
    e.render.toList ++ rest = e'.render.toList ++ rest' → e.Alike e' ∧ rest = rest'

theorem endsWord_renderAll (es : List Expr) (rest : List Char) :
    EndsWord (renderAll es ++ ')' :: rest) := by
  cases es with
  | nil =>
    rintro c ⟨⟩
    exact .inr rfl
  | cons e es =>
    rintro c ⟨⟩
    exact .inl rfl

/-- Children are read one after the other, up to the closing parenthesis. -/
theorem renderAll_unique {es es' : List Expr} (h : ∀ e ∈ es, e.ReadsUniquely)
    (h' : ∀ e ∈ es', e.Readable) {rest rest' : List Char}
    (heq : renderAll es ++ ')' :: rest = renderAll es' ++ ')' :: rest') :
    List.Forall₂ Alike es es' ∧ rest = rest' := by
  induction es generalizing es' with
  | nil =>
    cases es' with
    | nil => exact ⟨.nil, (List.cons.inj heq).2⟩
    | cons e' es' => exact absurd (List.cons.inj heq).1 (by decide)
  | cons e es ih =>
    cases es' with
    | nil => exact absurd (List.cons.inj heq).1 (by decide)
    | cons e' es' =>
      obtain ⟨hunique, hes⟩ := List.forall_mem_cons.mp h
      obtain ⟨hreadable, hes'⟩ := List.forall_mem_cons.mp h'
      have htexts : e.render.toList ++ (renderAll es ++ ')' :: rest) =
          e'.render.toList ++ (renderAll es' ++ ')' :: rest') := by
        simpa [renderAll] using heq
      obtain ⟨halike, hrest⟩ := hunique e' _ _ hreadable (endsWord_renderAll es rest)
        (endsWord_renderAll es' rest') htexts
      obtain ⟨halikes, hrest⟩ := ih hes hes' hrest
      exact ⟨.cons halike halikes, hrest⟩

theorem word_ne_node {cs rest text : List Char} (h : IsWord cs) (hr : EndsWord rest) :
    cs ++ rest ≠ '(' :: text := by
  intro heq
  cases cs with
  | nil =>
    rw [List.nil_append] at heq
    rw [heq] at hr
    exact absurd (hr '(' rfl) (by decide)
  | cons c cs =>
    obtain ⟨rfl, -⟩ := List.cons.inj heq
    exact absurd (h '(' (List.mem_cons_self ..)) (by decide)

/-- **If the children of a tree are read in one way only, so is the tree.** -/
theorem Readable.readsUniquely_of_children {e : Expr} (h : e.Readable)
    (ih : ∀ c ∈ e.children, c.ReadsUniquely) : e.ReadsUniquely := by
  intro e' rest rest' h' hr hr' heq
  cases hhead : e.head? with
  | none =>
    obtain ⟨v, rfl, hword⟩ := h.isWord_literal hhead
    cases hhead' : e'.head? with
    | none =>
      obtain ⟨v', rfl, hword'⟩ := h'.isWord_literal hhead'
      obtain ⟨htext, hrest⟩ := hword.append_inj hword' hr hr' heq
      rw [render, render] at htext
      exact ⟨.literal (String.toList_inj.mp htext), hrest⟩
    | some head' =>
      rw [toList_render hhead'] at heq
      exact absurd heq (word_ne_node hword hr)
  | some head =>
    rw [toList_render hhead] at heq
    cases hhead' : e'.head? with
    | none =>
      obtain ⟨v', rfl, hword'⟩ := h'.isWord_literal hhead'
      exact absurd heq.symm (word_ne_node hword' hr')
    | some head' =>
      rw [toList_render hhead'] at heq
      -- first the heads are told from the children, then these from what follows
      have hnode : head.toList ++ (renderAll e.children ++ ')' :: rest) =
          head'.toList ++ (renderAll e'.children ++ ')' :: rest') := by
        simpa using heq
      obtain ⟨hheads, hnode⟩ := (h.isWord_head hhead).append_inj (h'.isWord_head hhead')
        (endsWord_renderAll _ _) (endsWord_renderAll _ _) hnode
      obtain ⟨hchildren, hrest⟩ := renderAll_unique ih h'.children hnode
      rw [← String.toList_inj.mp hheads] at hhead'
      exact ⟨h.alike h' hhead hhead' hchildren, hrest⟩

theorem Readable.readsUniquely {e : Expr} (h : e.Readable) : e.ReadsUniquely := by
  induction h with
  | literal hv => exact (Readable.literal hv).readsUniquely_of_children (by simp [Expr.children])
  | grouping he ih =>
    exact (Readable.grouping he).readsUniquely_of_children (by simpa [Expr.children] using ih)
  | unary hop he ih =>
    exact (Readable.unary hop he).readsUniquely_of_children (by simpa [Expr.children] using ih)
  | binary hop hl hx ihl ihx =>
    apply (Readable.binary hop hl hx).readsUniquely_of_children
    simpa [Expr.children] using ⟨ihl, ihx⟩
  | ternary hc ha hb ihc iha ihb =>
    apply (Readable.ternary hc ha hb).readsUniquely_of_children
    simpa [Expr.children] using ⟨ihc, iha, ihb⟩

/-- The other way round, trees that are alike have the same text. -/
theorem Alike.render_eq {e e' : Expr} (h : e.Alike e') : e.render = e'.render := by
  have hlexeme {op op' : Token} (hface : op.face = op'.face) : op.lexeme = op'.lexeme :=
    congrArg (fun face => face.2.1) hface
  induction h with
  | literal hv =>
    rw [render, render]
    exact hv
  | grouping _ ih => rw [render, render, ih]
  | unary hop _ ih => rw [render, render, hlexeme hop, ih]
  | binary hop _ _ ihl ihx => rw [render_binary, render_binary, hlexeme hop, ihl, ihx]
  | ternary _ _ _ ihc iha ihb => rw [render, render, ihc, iha, ihb]

end Expr

end Lox
