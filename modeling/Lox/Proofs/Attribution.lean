import Lox.Proofs.Blanking
import Lox.Proofs.LineNumbers
import Lox.Proofs.Meaning
import Lox.Proofs.ParserState
import Lox.Proofs.Running

/-!
# What values and faults are attributed to

A fault of a run names a token of its source, and it names the right one.  This is an invariant that
passes through all stages.  The scan gives payloads to numbers, strings and identifiers, and lines
between the first and the last.  A parse puts into the tree only literals of the first two and only
operators that the grammar has, which are tokens of the source (`Expr.MadeOf`).  An evaluation of
such a tree blames an operator of it, and by the operator's kind (`RuntimeError.Blames`); it never
comes upon an identifier.

`run_attributed` puts this together for the outcome of a run.
-/

namespace Lox

def Value.isIdentifier : Value → Bool
  | identifier _ => true
  | _ => false

/-! ### Trees made of tokens -/

/-- Trees whose operators are tokens from a list, of the kinds that the grammar has, and whose
literals are no identifiers. -/
inductive Expr.MadeOf (tokens : List Token) : Expr → Prop
  | literal {v : Value} : v.isIdentifier = false → MadeOf tokens (.literal v)
  | grouping {e : Expr} : MadeOf tokens e → MadeOf tokens (.grouping e)
  | unary {op : Token} {e : Expr} : op ∈ tokens → op.kind = .bang ∨ op.kind = .minus →
      MadeOf tokens e → MadeOf tokens (.unary op e)
  | binary {l x : Expr} {op : Token} (level : Level) : op ∈ tokens → op.kind ∈ level.operators →
      MadeOf tokens l → MadeOf tokens x → MadeOf tokens (.binary l op x)
  | ternary {c a b : Expr} : MadeOf tokens c → MadeOf tokens a → MadeOf tokens b →
      MadeOf tokens (.ternary c a b)

/-- Tokens with a payload that is no identifier, if they are literals. -/
def PlainPayloads (tokens : List Token) : Prop :=
  ∀ t ∈ tokens, t.kind = .number ∨ t.kind = .string → t.literal.isIdentifier = false

/-- **What a parse returns is made of its tokens.** -/
theorem Expr.Stratified.madeOf {tokens s : List Token} {e : Expr} {r : Nat} (h : e.Stratified r)
    (hs : Spells s e) (hsub : ∀ t ∈ s, t ∈ tokens) (hplain : PlainPayloads tokens) :
    e.MadeOf tokens := by
  induction hs generalizing r with
  | @payload t ht => exact .literal (hplain t (hsub t (List.mem_singleton_self t)) ht)
  | trueWord | falseWord | nilWord => exact .literal rfl
  | grouping _ _ _ ih =>
    cases h with
    | grouping h =>
      exact .grouping (ih h fun t ht => hsub t (by simp [ht]))
  | unary op _ ih =>
    cases h with
    | unary hop h =>
      exact .unary (hsub op (by simp)) hop (ih h fun t ht => hsub t (by simp [ht]))
  | binary op _ _ ihl ihx =>
    cases h with
    | @binary _ level _ _ _ hop hl _ hx =>
      exact .binary level (hsub op (by simp)) hop (ihl hl fun t ht => hsub t (by simp [ht]))
        (ihx hx fun t ht => hsub t (by simp [ht]))
  | ternary _ _ _ _ _ ihc iha ihb =>
    cases h with
    | ternary hc ha hb =>
      exact .ternary (ihc hc fun t ht => hsub t (by simp [ht]))
        (iha ha fun t ht => hsub t (by simp [ht])) (ihb hb fun t ht => hsub t (by simp [ht]))

theorem madeOf_of_parseTokens {tokens : List Token} {limit : Int} {e : Expr}
    (h : parseTokens tokens limit = .ok e) (hplain : PlainPayloads tokens) : e.MadeOf tokens := by
  obtain ⟨s, rest, hsplit, hfits⟩ := exists_fits_of_parseTokens h
  refine hfits.stratified.madeOf hfits.spells (fun t ht => ?_) hplain
  rw [hsplit]
  exact List.mem_append_left _ ht

/-! ### What an evaluation blames -/

/-- A fault names a token from a list, of a kind that can be at fault in this way. -/
inductive RuntimeError.Blames (strict : Bool) (tokens : List Token) : RuntimeError → Prop
  | arithmetic {op : Token} : op ∈ tokens → op.kind ∈ [.minus, .star, .slash] →
      Blames strict tokens (.operandsNotNumbers op)
  | comparison {op : Token} : op ∈ tokens → strict = true → op.kind ∈ Level.comparison.operators →
      Blames strict tokens (.operandsNotNumbers op)
  | addition {op : Token} : op ∈ tokens → op.kind = .plus →
      Blames strict tokens (.operandsNotAddable op)
  | division {op : Token} : op ∈ tokens → op.kind = .slash →
      Blames strict tokens (.divisionByZero op)
  | comma {op : Token} : op ∈ tokens → op.kind = .comma →
      Blames strict tokens (.unexpectedOperator op)
  | limit (limit : Int) : Blames strict tokens (.nestedTooDeeply limit)

/-- No identifier comes out, and a fault blames one of the tokens. -/
def Accountable (strict : Bool) (tokens : List Token) : Except RuntimeError Value → Prop
  | .ok v => v.isIdentifier = false
  | .error fault => fault.Blames strict tokens

theorem accountable_applyPrefix {strict : Bool} {tokens : List Token} {op : Token}
    (hop : op ∈ tokens) (hkind : op.kind = .bang ∨ op.kind = .minus) (v : Value) :
    Accountable strict tokens (applyPrefix op v) := by
  rcases hkind with hkind | hkind
  · simp only [applyPrefix, hkind]
    rfl
  · cases v with
    | number x =>
      simp only [applyPrefix, hkind]
      rfl
    | _ =>
      simp only [applyPrefix, hkind]
      exact .arithmetic hop (by simp [hkind])

theorem accountable_onNumbers {strict : Bool} {tokens : List Token} {op : Token}
    (hop : op ∈ tokens) (hkind : op.kind ∈ [.minus, .star, .slash]) (a b : Value)
    {f : Float → Float → Except RuntimeError Value}
    (hf : ∀ x y, Accountable strict tokens (f x y)) :
    Accountable strict tokens (onNumbers op a b f) := by
  unfold onNumbers
  split
  · exact hf _ _
  · exact .arithmetic hop hkind

theorem accountable_compareBy {strict : Bool} {tokens : List Token} {op : Token}
    (hop : op ∈ tokens) (hkind : op.kind ∈ Level.comparison.operators)
    (holds : Float → Float → Bool) (a b : Value) :
    Accountable strict tokens (compareBy strict op holds a b) := by
  unfold compareBy
  split
  · rfl
  · cases strict with
    | false => rfl
    | true => exact .comparison hop rfl hkind

theorem accountable_add {strict : Bool} {tokens : List Token} {op : Token} (hop : op ∈ tokens)
    (hkind : op.kind = .plus) (a b : Value) : Accountable strict tokens (add op a b) := by
  unfold add
  split
  · rfl
  · rfl
  · rfl
  · exact .addition hop hkind

/-- **A binary operator is blamed by its kind.** -/
theorem accountable_applyBinary {strict : Bool} {tokens : List Token} {op : Token} {level : Level}
    (hop : op ∈ tokens) (hkind : op.kind ∈ level.operators) (a b : Value) :
    Accountable strict tokens (applyBinary strict op a b) := by
  cases level with
  | comma =>
    obtain hk : op.kind = .comma := by simpa [Level.operators] using hkind
    simp only [applyBinary, hk]
    exact .comma hop hk
  | equality =>
    rcases (show op.kind = .bangEqual ∨ op.kind = .equalEqual by
      simpa [Level.operators] using hkind) with hk | hk
    all_goals
      simp only [applyBinary, hk]
      rfl
  | comparison =>
    rcases (show op.kind = .greater ∨ op.kind = .greaterEqual ∨ op.kind = .less ∨
      op.kind = .lessEqual by simpa [Level.operators] using hkind) with hk | hk | hk | hk
    all_goals
      simp only [applyBinary, hk]
      exact accountable_compareBy hop hkind _ a b
  | term =>
    rcases (show op.kind = .minus ∨ op.kind = .plus by
      simpa [Level.operators] using hkind) with hk | hk
    · simp only [applyBinary, hk]
      exact accountable_onNumbers hop (by simp [hk]) a b fun x y => rfl
    · simp only [applyBinary, hk]
      exact accountable_add hop hk a b
  | factor =>
    rcases (show op.kind = .slash ∨ op.kind = .star by
      simpa [Level.operators] using hkind) with hk | hk
    · simp only [applyBinary, hk]
      refine accountable_onNumbers hop (by simp [hk]) a b fun x y => ?_
      split
      · exact .division hop hk
      · rfl
    · simp only [applyBinary, hk]
      exact accountable_onNumbers hop (by simp [hk]) a b fun x y => rfl

/-! ### Evaluation -/

namespace Eval

def Accounts (strict : Bool) (tokens : List Token) (m : Eval Value) : Prop :=
  ∀ depth, match m depth with
    | .ok v _ => v.isIdentifier = false
    | .error fault _ => fault.Blames strict tokens

variable {strict : Bool} {tokens : List Token}

theorem accounts_ofExcept {x : Except RuntimeError Value} (h : Accountable strict tokens x) :
    Accounts strict tokens (ofExcept x) := by
  intro depth
  cases x with
  | ok v => exact h
  | error fault => exact h

theorem accounts_nested {limit : Int} {m : Eval Value} (h : Accounts strict tokens m) :
    Accounts strict tokens (nested limit m) := by
  intro depth
  by_cases hlimit : limit < (depth + 1 : Nat)
  · rw [nested, if_pos hlimit]
    exact .limit limit
  · rw [nested, if_neg hlimit]
    have hm := h (depth + 1)
    cases hrun : m (depth + 1) with
    | ok v _ =>
      rw [hrun] at hm
      exact hm
    | error fault _ =>
      rw [hrun] at hm
      exact hm

theorem accounts_bind {m : Eval Value} {f : Value → Eval Value} (h : Accounts strict tokens m)
    (hf : ∀ v, Accounts strict tokens (f v)) : Accounts strict tokens (m >>= f) := by
  intro depth
  have hm := h depth
  show match EStateM.bind m f depth with
    | .ok v _ => v.isIdentifier = false
    | .error fault _ => fault.Blames strict tokens
  rw [EStateM.bind]
  cases hrun : m depth with
  | ok v depth' => exact hf v depth'
  | error fault _ =>
    rw [hrun] at hm
    exact hm

end Eval

open Eval in
/-- **An evaluation is accountable to the tokens that its tree is made of**, at either place of a
tree and whatever the limit. -/
theorem Expr.MadeOf.accounts_evalIn {tokens : List Token} {e : Expr} (h : e.MadeOf tokens)
    (c : Config) (inChain : Bool) : Accounts c.strictComparisons tokens (evalIn c inChain e) := by
  induction h generalizing inChain with
  | literal hv =>
    rw [evalIn_literal]
    exact accounts_nested fun _ => hv
  | grouping _ ih =>
    rw [evalIn_grouping]
    exact accounts_nested (ih false)
  | unary hop hkind _ ih =>
    rw [evalIn_unary]
    refine accounts_nested (accounts_bind (ih false) fun v => ?_)
    exact accounts_ofExcept (accountable_applyPrefix hop hkind v)
  | ternary _ _ _ ihc iha ihb =>
    rw [evalIn_ternary]
    refine accounts_nested (accounts_bind (ihc false) fun v => ?_)
    split
    · exact iha false
    · exact ihb false
  | @binary l x op level hop hkind _ _ ihl ihx =>
    have hchain : Accounts c.strictComparisons tokens (evalIn c true (.binary l op x)) := by
      rw [evalIn_true_binary]
      refine accounts_bind (ihl true) fun a => accounts_bind (ihx false) fun b => ?_
      exact accounts_ofExcept (accountable_applyBinary hop hkind a b)
    cases inChain with
    | true => exact hchain
    | false =>
      rw [evalIn_false_binary]
      exact accounts_nested hchain

theorem Expr.MadeOf.accountable_evaluate {tokens : List Token} {e : Expr} (h : e.MadeOf tokens)
    (config : Config) : Accountable config.strictComparisons tokens (evaluate config e) := by
  have haccounts := h.accounts_evalIn config false 0
  rw [evalIn] at haccounts
  rw [evaluate, Evaluator.interpret, Evaluator.new]
  cases hrun : e.eval config 0 with
  | ok v depth =>
    rw [hrun] at haccounts
    exact haccounts
  | error fault depth =>
    rw [hrun] at haccounts
    exact haccounts

/-! ### Tokens and errors of a scan -/

theorem Cut.plainPayload {gs rest : List Grapheme} {kind : Kind} {literal : Value}
    (h : Cut ⟨gs, .token kind literal⟩ rest) (hkind : kind = .number ∨ kind = .string) :
    literal.isIdentifier = false := by
  cases h with
  | identifier => rcases hkind with hkind | hkind <;> cases hkind
  | _ => rfl

theorem plainPayloads_scan (gs : List Grapheme) : PlainPayloads (Scan.ofGraphemes gs).tokens := by
  intro t ht hkind
  have heof : t.kind ≠ .eof := by
    rcases hkind with hkind | hkind <;> rw [hkind] <;> decide
  obtain ⟨lexeme, rest, -, hcut⟩ := cut_of_mem_tokens ht heof
  exact hcut.plainPayload hkind

theorem line_of_mem_items {gs : List Grapheme} {item : ScanItem}
    (h : item ∈ (Scan.ofGraphemes gs).items) :
    1 ≤ item.line ∧ item.line ≤ (1 + countNewlines gs : Nat) := by
  rcases Scan.mem_items.mp h with ⟨l, hl, hitem⟩ | rfl
  · obtain ⟨hlow, hhigh⟩ := line_of_mem_ofSegments hl
    rw [flatMap_divide] at hhigh
    rw [line_of_item? hitem]
    omega
  · show 1 ≤ ((1 + countNewlines gs : Nat) : Int) ∧ ((1 + countNewlines gs : Nat) : Int) ≤ _
    omega

theorem line_of_mem_tokens {gs : List Grapheme} {t : Token}
    (h : t ∈ (Scan.ofGraphemes gs).tokens) :
    1 ≤ t.line ∧ t.line ≤ (1 + countNewlines gs : Nat) := by
  obtain ⟨item, hitem, ht⟩ := List.mem_filterMap.mp h
  cases item with
  | token t' =>
    cases ht
    exact line_of_mem_items hitem
  | error e => cases ht

theorem line_of_mem_errors {gs : List Grapheme} {e : LexicalError}
    (h : e ∈ (Scan.ofGraphemes gs).errors) :
    1 ≤ (e.line : Int) ∧ (e.line : Int) ≤ (1 + countNewlines gs : Nat) :=
  line_of_mem_items (Scan.mem_errors.mp h)

/-- A parse of tokens with an end of input fails at one of them. -/
theorem getElem?_of_parse_error {tokens : List Token} {limit : Int} {err : ParseError}
    (heof : ∃ t ∈ tokens, t.kind = .eof) (h : parseTokens tokens limit = .error err) :
    tokens[(Parser.new tokens limit).parse.2.current]? = some err.token := by
  have hdepth : (Parser.new tokens limit).depth = 0 := rfl
  obtain ⟨taken, rest, hsplit, hafter, htaken, -⟩ := Parser.parse_cases hdepth
  have hcurrent : (Parser.new tokens limit).parse.2.current = taken.length := by
    rw [hafter, Parser.moveTo_current hsplit]
    exact Nat.zero_add _
  have hsplit' : tokens = taken ++ rest := hsplit
  obtain ⟨t, rest, rfl⟩ : ∃ t rest', rest = t :: rest' := by
    apply List.exists_cons_of_ne_nil
    rintro rfl
    obtain ⟨t, ht, hkind⟩ := heof
    rw [hsplit', List.append_nil] at ht
    exact htaken t ht hkind
  have hget : tokens[(Parser.new tokens limit).parse.2.current]? = some t := by
    rw [hcurrent, hsplit']
    simp
  have hpeek := ((Parser.settled_of_depth hdepth).parse_error err h).2
  have htoken : err.token = t := by
    rw [hpeek]
    show (tokens[_]?).getD _ = t
    rw [hget]
    rfl
  rw [hget, htoken]

/-! ### The outcome of a run -/

/-- The lines that the faults of a run are reported on. -/
def Outcome.lines (o : Outcome) : List Int :=
  o.lexicalErrors.map (·.diagnostic.line) ++ o.parseError.toList.map (·.diagnostic.line) ++
    o.runtimeError.toList.filterMap RuntimeError.line?

def Kind.isOperator (kind : Kind) : Bool :=
  kind.isPrefixOp || [Level.comma, .equality, .comparison, .term, .factor].any (·.has kind)

/-- A fault is at an operator from a list of tokens that can be at fault in this way; only the limit
on depth is at none. -/
structure RuntimeError.Attributed (strict : Bool) (tokens : List Token) (e : RuntimeError) :
    Prop where
  token_eq_none : e.token? = none ↔ e.code = "R004"
  operator : ∀ t ∈ e.token?, t ∈ tokens ∧ t.kind.isOperator = true
  comma : e.code = "R003" → ∃ t, e.token? = some t ∧ t.kind = .comma
  slash : e.code = "R002" → ∃ t, e.token? = some t ∧ t.kind = .slash
  operands : e.code = "R001" → ∃ t, e.token? = some t ∧
    (t.kind ∈ [.plus, .minus, .star, .slash] ∨
      strict = true ∧ t.kind ∈ [.less, .lessEqual, .greater, .greaterEqual])

/-- **The value and the faults of an outcome are attributed to tokens** as they should be. -/
structure Outcome.Attributed (config : Config) (tokens : List Token) (o : Outcome) : Prop where
  value : o.value.isIdentifier = false
  runtime : ∀ e ∈ o.runtimeError, e.Attributed config.strictComparisons tokens
  /-- A parse error is at a token of the list, not at an end of input added to it. -/
  parse : ∀ e ∈ o.parseError,
    tokens[(Parser.new tokens config.maxNestingDepth).parse.2.current]? = some e.token
  /-- The last token is the end of input, and all lines lie between the first and its line. -/
  lines : ∃ eof, tokens.getLast? = some eof ∧ eof.kind = .eof ∧
    ∀ n ∈ o.lines, 1 ≤ n ∧ n ≤ eof.line

theorem isOperator_of_mem {kind : Kind} {level : Level} (h : kind ∈ level.operators) :
    kind.isOperator = true := by
  rw [← Level.has_iff] at h
  cases level <;> simp [Kind.isOperator, h]

theorem RuntimeError.token?_eq_none_iff (e : RuntimeError) :
    e.token? = none ↔ e.code = "R004" := by
  cases e <;> simp [token?, code]

theorem RuntimeError.Blames.attributed {strict : Bool} {tokens : List Token} {e : RuntimeError}
    (h : e.Blames strict tokens) : e.Attributed strict tokens := by
  have hnone := e.token?_eq_none_iff
  cases h with
  | @arithmetic op hop hkind =>
    refine ⟨hnone, ?_, by simp [code], by simp [code], fun _ => ⟨op, rfl, .inl ?_⟩⟩
    · rintro t ⟨⟩
      refine ⟨hop, ?_⟩
      simp only [List.mem_cons, List.not_mem_nil, or_false] at hkind
      rcases hkind with hkind | hkind | hkind <;> rw [hkind] <;> rfl
    · exact List.mem_cons_of_mem _ hkind
  | @comparison op hop hstrict hkind =>
    refine ⟨hnone, ?_, by simp [code], by simp [code], fun _ => ⟨op, rfl, .inr ⟨hstrict, ?_⟩⟩⟩
    · rintro t ⟨⟩
      exact ⟨hop, isOperator_of_mem hkind⟩
    · simp only [Level.operators, List.mem_cons, List.not_mem_nil, or_false] at hkind ⊢
      rcases hkind with hkind | hkind | hkind | hkind <;> simp [hkind]
  | @addition op hop hkind =>
    refine ⟨hnone, ?_, by simp [code], by simp [code], fun _ => ⟨op, rfl, .inl (by simp [hkind])⟩⟩
    rintro t ⟨⟩
    exact ⟨hop, by rw [hkind]; rfl⟩
  | @division op hop hkind =>
    refine ⟨hnone, ?_, by simp [code], fun _ => ⟨op, rfl, hkind⟩, by simp [code]⟩
    rintro t ⟨⟩
    exact ⟨hop, by rw [hkind]; rfl⟩
  | @comma op hop hkind =>
    refine ⟨hnone, ?_, fun _ => ⟨op, rfl, hkind⟩, by simp [code], by simp [code]⟩
    rintro t ⟨⟩
    exact ⟨hop, by rw [hkind]; rfl⟩
  | limit => exact ⟨hnone, by simp [token?], by simp [code], by simp [code], by simp [code]⟩

theorem line_of_mem_lines {gs : List Grapheme} {o : Outcome} {n : Int}
    (herrors : o.lexicalErrors = (Scan.ofGraphemes gs).errors)
    (hparse : ∀ e ∈ o.parseError, e.token ∈ (Scan.ofGraphemes gs).tokens)
    (hruntime : ∀ e ∈ o.runtimeError, ∀ t ∈ e.token?, t ∈ (Scan.ofGraphemes gs).tokens)
    (hn : n ∈ o.lines) : 1 ≤ n ∧ n ≤ (1 + countNewlines gs : Nat) := by
  rw [Outcome.lines, herrors] at hn
  rcases List.mem_append.mp hn with hn | hn
  · rcases List.mem_append.mp hn with hn | hn
    · obtain ⟨e, he, rfl⟩ := List.mem_map.mp hn
      exact line_of_mem_errors he
    · obtain ⟨e, he, rfl⟩ := List.mem_map.mp hn
      exact line_of_mem_tokens (hparse e (Option.mem_toList.mp he))
  · obtain ⟨e, he, hline⟩ := List.mem_filterMap.mp hn
    obtain ⟨t, ht, rfl⟩ := Option.map_eq_some_iff.mp hline
    exact line_of_mem_tokens (hruntime e (Option.mem_toList.mp he) t ht)

/-- **Every run attributes its value and its faults to the tokens of its source.** -/
theorem run_attributed (config : Config) (showTree : Bool) (source : String) :
    (run config showTree source).Attributed config (Scan.ofString source).tokens := by
  have hlast : (Scan.ofString source).tokens.getLast? =
      some (.eof (1 + countNewlines (Grapheme.ofString source))) := by
    rw [Scan.ofString, tokens_ofGraphemes]
    exact List.getLast?_concat
  have heof : ∃ t ∈ (Scan.ofString source).tokens, t.kind = .eof :=
    ⟨_, List.mem_of_getLast? hlast, rfl⟩
  obtain ⟨hvalue, hruntime, hparse⟩ :
      (run config showTree source).value.isIdentifier = false ∧
        (∀ e ∈ (run config showTree source).runtimeError,
          e.Blames config.strictComparisons (Scan.ofString source).tokens) ∧
        ∀ e ∈ (run config showTree source).parseError,
          parseTokens (Scan.ofString source).tokens config.maxNestingDepth = .error e := by
    have hplain : PlainPayloads (Scan.ofString source).tokens := plainPayloads_scan _
    cases ended_run config showTree (Scan.ofString source) with
    | parseError e hparse hp hr hv _ =>
      rw [run, hp, hr, hv]
      refine ⟨rfl, by simp, ?_⟩
      rintro e ⟨⟩
      exact hparse
    | runtimeError tree fault hparse heval hp hr hv _ =>
      have haccount := (madeOf_of_parseTokens hparse hplain).accountable_evaluate config
      rw [heval] at haccount
      rw [run, hp, hr, hv]
      refine ⟨rfl, ?_, by simp⟩
      rintro e ⟨⟩
      exact haccount
    | value tree v hparse heval hp hr hv _ =>
      have haccount := (madeOf_of_parseTokens hparse hplain).accountable_evaluate config
      rw [heval] at haccount
      rw [run, hp, hr, hv]
      exact ⟨haccount, by simp, by simp⟩
  have hplace : ∀ e ∈ (run config showTree source).parseError,
      (Scan.ofString source).tokens[(Parser.new (Scan.ofString source).tokens
        config.maxNestingDepth).parse.2.current]? = some e.token :=
    fun e he => getElem?_of_parse_error heof (hparse e he)
  refine ⟨hvalue, fun e he => (hruntime e he).attributed, hplace, _, hlast, rfl, fun n hn => ?_⟩
  refine line_of_mem_lines (lexicalErrors_run ..) (fun e he => ?_) (fun e he t ht => ?_) hn
  · exact List.mem_of_getElem? (hplace e he)
  · exact ((hruntime e he).attributed.operator t ht).1

end Lox
