import Lox.Proofs.Failing
import Lox.Proofs.Grammar

/-!
# The first offending token

A parse that fails has taken as many tokens as any sentence could begin with: they are the beginning
of some sentence, and with the next token they are the beginning of none.

That they begin a sentence is seen rule by rule, by completing what is open: a missing parenthesis,
a missing colon and branch, a missing operand.  That they begin none together with the next token
needs no look at the sentences.  A reader looks no further than the token it fails at, and no higher
limit would help it (`Refuses`).  So a parse fails just there on every list of tokens that is the
same up to this token, under every higher limit, while the tokens of a sentence are parsed under
some limit.
-/

namespace Lox

/-- A fault that no higher limit would avoid. -/
def ParseFault.isSyntactic : ParseFault → Bool
  | nestedTooDeeply _ => false
  | _ => true

/-- The word begins one that the nonterminal derives. -/
def Viable (n : Nonterminal) (w : List Kind) : Prop := ∃ w', Derives n (w ++ w')

theorem Viable.imp {n n' : Nonterminal} {w : List Kind} (h : Viable n w)
    (hn : ∀ w, Derives n w → Derives n' w) : Viable n' w := by
  obtain ⟨w', hw⟩ := h
  exact ⟨w', hn _ hw⟩

theorem derives_number (r : Nat) : Derives (.ofRank r) [.number] :=
  (Derives.primary (.literal (by decide))).of_unary r

theorem stops_congr {p : Kind → Prop} {ts ts' : List Token} (h : ts'.head? = ts.head?) :
    Stops p ts' ↔ Stops p ts := by
  rw [Stops, Stops, h]

theorem Fits.transfer {room room' rank behind : Nat} {e : Expr} {s rest rest' : List Token}
    (h : Fits room rank behind e s rest) (hroom : room ≤ room') (hhead : rest'.head? = rest.head?) :
    Fits room' rank behind e s rest' :=
  ⟨h.spells, h.stratified, Nat.lt_of_lt_of_le h.nesting hroom, (stops_congr hhead).mpr h.closed⟩

namespace Reader

/-! ### Readers that fail for good -/

/-- **A reader fails for good.**  What it took begins a word of the nonterminal, and if the limit is
not to blame, then `r'` fails on all tokens that are the same up to the one in the way. -/
structure Refuses (n : Nonterminal) (r r' : Reader Expr) : Prop where
  stops : ∀ {ts : List Token} {k : Nat} {refusal : Refusal} {c : Cursor},
    r ⟨ts, k⟩ = .error refusal c →
      ∃ taken rest, ts = taken ++ rest ∧ c = ⟨rest, k⟩ ∧ Viable n (taken.map Token.kind) ∧
        (refusal.fault.isSyntactic = true → ∀ rest', rest'.head? = rest.head? →
          r' ⟨taken ++ rest', k⟩ = .error refusal ⟨rest', k⟩)

variable {n : Nonterminal} {r r' expression expression' operand operand' condition condition' :
  Reader Expr} {room room' : Nat} {level : Level}

theorem Refuses.imp {n' : Nonterminal} (h : Refuses n r r')
    (hn : ∀ w, Derives n w → Derives n' w) : Refuses n' r r' where
  stops hr := by
    obtain ⟨taken, rest, hts, hc, hv, hp⟩ := h.stops hr
    exact ⟨taken, rest, hts, hc, hv.imp hn, hp⟩

theorem nested_refuses (h : Refuses n r r') : Refuses n (nested r) (nested r') where
  stops {ts k refusal c} hr := by
    unfold nested at hr
    split at hr
    · cases hr
    · rename_i f c₁ hr₁
      obtain ⟨taken, rest, hts, rfl, hv, hp⟩ := h.stops hr₁
      cases hr
      refine ⟨taken, rest, hts, by simp, hv, ?_⟩
      intro hf rest' hhead
      simp [nested, hp hf rest' hhead]

theorem Chain.transfer {rank behind : Nat} {e : Expr} {s rest rest' : List Token}
    (h : Chain level (Fits room rank behind) e s rest) (hroom : room ≤ room')
    (hhead : rest'.head? = rest.head?) : Chain level (Fits room' rank behind) e s rest' := by
  induction h generalizing rest' with
  | operand hq => exact .operand (hq.transfer hroom hhead)
  | link _ hop hq ih => exact .link (ih rfl) hop (hq.transfer hroom hhead)

theorem level_refuses (level : Level)
    (h : Reads operand (Fits room (level.rank + 1) (level.rank + 1)))
    (h' : Reads operand' (Fits room' (level.rank + 1) (level.rank + 1))) (hroom : room ≤ room')
    (ho : Refuses level.operand operand operand') :
    Refuses (.chain level) (chain level operand) (chain level operand') where
  stops {ts k refusal c} hr := by
    rcases (chain_eq_error h).mp hr with hr | ⟨l, s, op, ts, rfl, hl, hop, hr⟩
    · obtain ⟨taken, rest, hts, hc, hv, hp⟩ := ho.stops hr
      refine ⟨taken, rest, hts, hc, hv.imp fun w => .operand, ?_⟩
      intro hf rest' hhead
      exact (chain_eq_error h').mpr (.inl (hp hf rest' hhead))
    · obtain ⟨taken, rest, rfl, hc, ⟨w, hw⟩, hp⟩ := ho.stops hr
      have hfits := Fits.of_chain hl
      have hs := hfits.stratified.derives hfits.spells
      rw [level.ofRank_rank] at hs
      have hlink := hs.link (Level.has_iff.mp hop) hw
      refine ⟨s ++ op :: taken, rest, by simp, hc, ⟨w, by simpa using hlink⟩, ?_⟩
      intro hf rest' hhead
      refine (chain_eq_error h').mpr (.inr ⟨l, s, op, taken ++ rest', by simp, ?_, hop, ?_⟩)
      · exact hl.transfer hroom rfl
      · exact hp hf rest' hhead

theorem equality_refuses (h : Reads operand (Fits room 6 6)) (h' : Reads operand' (Fits room' 6 6))
    (hroom : room ≤ room') (ho : Refuses .unary operand operand') :
    Refuses (.chain .equality) (equality operand) (equality operand') := by
  have h5 := level_reads .factor h
  have h5' := level_reads .factor h'
  have h4 := level_reads .term h5
  have h4' := level_reads .term h5'
  have h3 := level_reads .comparison h4
  have h3' := level_reads .comparison h4'
  have hfactor := level_refuses .factor h h' hroom ho
  have hterm := level_refuses .term h5 h5' hroom hfactor
  have hcomparison := level_refuses .comparison h4 h4' hroom hterm
  exact level_refuses .equality h3 h3' hroom hcomparison

theorem primary_refuses (h : Reads expression (Fits room 0 0))
    (h' : Reads expression' (Fits room' 0 0)) (hroom : room ≤ room')
    (he : Refuses .expression expression expression') :
    Refuses .primary (primary expression) (primary expression') where
  stops {ts k refusal c} hr := by
    rcases primary_eq_error.mp hr with ⟨hv, hs, rfl, rfl⟩ | ⟨p, ts, rfl, hp, hr | ⟨e, hi, hs, rfl⟩⟩
    · refine ⟨[], ts, rfl, rfl, ⟨[.number], .literal (by decide)⟩, ?_⟩
      intro _ rest' hhead
      exact primary_eq_error.mpr (.inl ⟨by rwa [List.nil_append, hhead],
        (stops_congr hhead).mpr hs, by rw [List.nil_append, hhead], rfl⟩)
    · obtain ⟨taken, rest, rfl, hc, ⟨w, hw⟩, hpers⟩ := he.stops hr
      refine ⟨p :: taken, rest, rfl, hc, ⟨w ++ [.rightParen], by simpa [hp] using hw.group⟩, ?_⟩
      intro hf rest' hhead
      exact primary_eq_error.mpr (.inr ⟨p, _, rfl, hp, .inl (hpers hf rest' hhead)⟩)
    · obtain ⟨s, rest, rfl, rfl, hf⟩ := h.sound hi
      have hw : Derives .expression (s.map Token.kind) :=
        .expression (hf.stratified.derives hf.spells)
      refine ⟨p :: s, rest, rfl, rfl, ⟨[.rightParen], by simpa [hp] using hw.group⟩, ?_⟩
      intro _ rest' hhead
      have hi' := h'.complete (hf.transfer hroom hhead) k
      exact primary_eq_error.mpr (.inr ⟨p, _, rfl, hp,
        .inr ⟨e, hi', (stops_congr hhead).mpr hs, by rw [hhead]⟩⟩)

theorem unary_refuses (h : Reads expression (Fits room 0 0))
    (h' : Reads expression' (Fits room' 0 0)) (hroom : room ≤ room')
    (he : Refuses .expression expression expression') (ho : Refuses .unary operand operand') :
    Refuses .unary (unary expression operand) (unary expression' operand') where
  stops {ts k refusal c} hr := by
    rcases unary_eq_error.mp hr with ⟨hs, hr⟩ | ⟨op, ts, rfl, hop, hr⟩
    · obtain ⟨taken, rest, rfl, hc, hv, hp⟩ := (primary_refuses h h' hroom he).stops hr
      refine ⟨taken, rest, rfl, hc, hv.imp fun w => .primary, ?_⟩
      intro hf rest' hhead
      have hhead' : (taken ++ rest').head? = (taken ++ rest).head? := by
        rw [List.head?_append, List.head?_append, hhead]
      exact unary_eq_error.mpr (.inl ⟨(stops_congr hhead').mpr hs, hp hf rest' hhead⟩)
    · obtain ⟨taken, rest, rfl, hc, ⟨w, hw⟩, hp⟩ := ho.stops hr
      refine ⟨op :: taken, rest, rfl, hc, ⟨w, hw.negation (isPrefixOp_iff.mp hop)⟩, ?_⟩
      intro hf rest' hhead
      exact unary_eq_error.mpr (.inr ⟨op, _, rfl, hop, hp hf rest' hhead⟩)

theorem ternary_refuses (h : Reads expression (Fits room 0 0))
    (h' : Reads expression' (Fits room' 0 0)) (hc : Reads condition (Fits (room + 1) 2 2))
    (hc' : Reads condition' (Fits (room' + 1) 2 2)) (hroom : room ≤ room')
    (he : Refuses .expression expression expression')
    (hcr : Refuses (.chain .equality) condition condition') :
    Refuses .ternary (ternary expression condition) (ternary expression' condition') where
  stops {ts k refusal c} hr := by
    have hroom' : room + 1 ≤ room' + 1 := Nat.succ_le_succ hroom
    rcases ternary_eq_error.mp hr with hr | ⟨x, q, ts₁, k₁, hx, hq, hr⟩
    · obtain ⟨taken, rest, rfl, hc, hv, hp⟩ := hcr.stops hr
      refine ⟨taken, rest, rfl, hc, hv.imp fun w => .condition, ?_⟩
      intro hf rest' hhead
      exact ternary_eq_error.mpr (.inl (hp hf rest' hhead))
    · obtain ⟨s, rest, rfl, hrest, hfx⟩ := hc.sound hx
      cases hrest
      have hwx : Derives (.chain .equality) (s.map Token.kind) :=
        hfx.stratified.derives hfx.spells
      have hx' (rest' : List Token) :
          condition' ⟨s ++ q :: rest', k⟩ = .ok x ⟨q :: rest', k⟩ := by
        have hfx' : Fits (room' + 1) 2 2 x s (q :: rest') := hfx.transfer hroom' rfl
        exact hc'.complete hfx' k
      have hnumber : Derives .expression [.number] := .expression (derives_number 0)
      rcases hr with hr | ⟨a, ha, hs, rfl⟩ | ⟨a, d, ts₂, k₂, ha, hd, hr⟩
      · obtain ⟨taken, rest, rfl, rfl, ⟨w, hw⟩, hp⟩ := he.stops hr
        refine ⟨s ++ q :: taken, rest, by simp, rfl, ⟨w ++ [.colon, .number], ?_⟩, ?_⟩
        · simpa [hq] using hwx.branches hw hnumber
        · intro hf rest' hhead
          refine ternary_eq_error.mpr (.inr ⟨x, q, taken ++ rest', k, ?_, hq, .inl ?_⟩)
          · simpa using hx' (taken ++ rest')
          · exact hp hf rest' hhead
      · obtain ⟨s', rest, rfl, rfl, hfa⟩ := h.sound ha
        have hwa : Derives .expression (s'.map Token.kind) :=
          .expression (hfa.stratified.derives hfa.spells)
        refine ⟨s ++ q :: s', rest, by simp, rfl, ⟨[.colon, .number], ?_⟩, ?_⟩
        · simpa [hq] using hwx.branches hwa hnumber
        · intro _ rest' hhead
          refine ternary_eq_error.mpr (.inr ⟨x, q, s' ++ rest', k, ?_, hq, .inr (.inl ⟨a, ?_⟩)⟩)
          · simpa using hx' (s' ++ rest')
          · exact ⟨h'.complete (hfa.transfer hroom hhead) k, (stops_congr hhead).mpr hs,
              by rw [hhead]⟩
      · obtain ⟨s', rest, rfl, hrest, hfa⟩ := h.sound ha
        cases hrest
        have hwa : Derives .expression (s'.map Token.kind) :=
          .expression (hfa.stratified.derives hfa.spells)
        obtain ⟨taken, rest, rfl, rfl, ⟨w, hw⟩, hp⟩ := he.stops hr
        refine ⟨s ++ q :: (s' ++ d :: taken), rest, by simp, rfl, ⟨w, ?_⟩, ?_⟩
        · simpa [hq, hd] using hwx.branches hwa hw
        · intro hf rest' hhead
          have hfa' : Fits room' 0 0 a s' (d :: (taken ++ rest')) := hfa.transfer hroom rfl
          refine ternary_eq_error.mpr (.inr ⟨x, q, s' ++ d :: (taken ++ rest'), k, ?_, hq,
            .inr (.inr ⟨a, d, taken ++ rest', k, ?_, hd, hp hf rest' hhead⟩)⟩)
          · simpa using hx' (s' ++ d :: (taken ++ rest'))
          · exact h'.complete hfa' k

end Reader

open Reader

def Rule.nonterminal : Rule → Nonterminal
  | .expression => .expression
  | .operand => .unary

theorem Rule.read_refuses (limit limit' : Int) {room room' : Nat} (h : room ≤ room') (rule : Rule) :
    Refuses rule.nonterminal (rule.read limit room) (rule.read limit' room') := by
  induction room generalizing room' rule with
  | zero =>
    refine ⟨fun {ts k refusal c} hr => ?_⟩
    rw [read] at hr
    obtain ⟨rfl, rfl⟩ := refuse_eq_error.mp hr
    refine ⟨[], ts, rfl, rfl, ⟨[.number], ?_⟩, ?_⟩
    · cases rule with
      | expression => exact .expression (derives_number 0)
      | operand => exact derives_number 6
    · intro hf
      cases hf
  | succ room ih =>
    obtain ⟨room', rfl⟩ := Nat.exists_eq_succ_of_ne_zero (Nat.ne_zero_of_lt h)
    have hroom : room ≤ room' := Nat.le_of_succ_le_succ h
    have he := read_reads limit room .expression
    have he' := read_reads limit' room' .expression
    have ho := read_reads limit room .operand
    have ho' := read_reads limit' room' .operand
    have hre := ih hroom .expression
    have hunary := unary_refuses he he' hroom hre (ih hroom .operand)
    cases rule with
    | operand => exact nested_refuses hunary
    | expression =>
      have hu := unary_reads he ho
      have hu' := unary_reads he' ho'
      have hequality := equality_refuses hu hu' h hunary
      have hternary := ternary_refuses he he' (equality_reads hu) (equality_reads hu') hroom hre
        hequality
      have hcomma := level_refuses .comma (ternary_reads he (equality_reads hu))
        (ternary_reads he' (equality_reads hu')) h hternary
      exact nested_refuses (hcomma.imp fun w => .expression)

/-! ### Whole inputs -/

/-- **A parse fails for good**, under this limit and every higher one. -/
theorem Parser.toEnd_refuses {limit limit' : Int} (hlimit : limit ≤ limit') {ts : List Token}
    {refusal : Refusal} {c : Cursor} (hr : toEnd limit ⟨ts, 0⟩ = .error refusal c) :
    ∃ taken rest, ts = taken ++ rest ∧ c = ⟨rest, 0⟩ ∧
      Viable .expression (taken.map Token.kind) ∧
      (refusal.fault.isSyntactic = true → ∀ rest', rest'.head? = rest.head? →
        toEnd limit' ⟨taken ++ rest', 0⟩ = .error refusal ⟨rest', 0⟩) := by
  have hroom : limit.toNat ≤ limit'.toNat := Int.toNat_le_toNat hlimit
  rcases toEnd_eq_error.mp hr with hr | ⟨e, hread, hs, rfl⟩
  · obtain ⟨taken, rest, hts, hc, hv, hp⟩ :=
      (Rule.read_refuses limit limit' hroom .expression).stops hr
    refine ⟨taken, rest, hts, hc, hv, ?_⟩
    intro hf rest' hhead
    exact toEnd_eq_error.mpr (.inl (hp hf rest' hhead))
  · obtain ⟨taken, rest, hts, rfl, hf⟩ := (Rule.read_reads limit _ .expression).sound hread
    have hw : Derives .expression (taken.map Token.kind) :=
      .expression (hf.stratified.derives hf.spells)
    refine ⟨taken, rest, hts, rfl, ⟨[], by simpa using hw⟩, ?_⟩
    intro _ rest' hhead
    have hread' := (Rule.read_reads limit' _ .expression).complete (hf.transfer hroom hhead) 0
    exact toEnd_eq_error.mpr (.inr ⟨e, hread', by rwa [stops_congr hhead], by rw [hhead]⟩)

/-- The tokens of a sentence are parsed under every limit that is high enough. -/
theorem Parser.exists_toEnd_eq_ok {ts tail : List Token} (htail : EndOfInput tail)
    (h : Derives .expression (ts.map Token.kind)) (limit : Int) :
    ∃ limit' e c, limit ≤ limit' ∧ toEnd limit' ⟨ts ++ tail, 0⟩ = .ok e c := by
  obtain ⟨e, hs, he⟩ := h.exists_stratified rfl
  refine ⟨max limit (e.nesting + 1 : Nat), e, ⟨tail, 0⟩, Int.le_max_left .., ?_⟩
  have hn : e.nesting < (max limit (e.nesting + 1 : Nat)).toNat := by omega
  have hf := htail.fits hs he hn
  refine toEnd_eq_ok.mpr ⟨(Rule.read_reads _ _ .expression).complete hf 0, fun t ht => ?_⟩
  simpa using htail.kind_eq_eof t (List.mem_of_mem_head? ht)

/-- Tokens that go on from a failure in any way are no sentence. -/
theorem Parser.not_derives_of_error {limit : Int} {taken rest tail : List Token}
    {refusal : Refusal} (hr : toEnd limit ⟨taken ++ rest, 0⟩ = .error refusal ⟨rest, 0⟩)
    (hf : refusal.fault.isSyntactic = true) (rest' : List Token) (htail : EndOfInput tail)
    (hhead : (rest' ++ tail).head? = rest.head?) :
    ¬ Derives .expression ((taken ++ rest').map Token.kind) := by
  intro h
  obtain ⟨limit', e, c, hlimit, hok⟩ := exists_toEnd_eq_ok htail h limit
  obtain ⟨taken', rest₁, hts, hc, -, hp⟩ := toEnd_refuses hlimit hr
  cases hc
  obtain rfl := List.append_cancel_right hts
  have herror := hp hf _ hhead
  rw [List.append_assoc, herror] at hok
  cases hok

theorem Derives.eof_not_mem {n : Nonterminal} {w : List Kind} (h : Derives n w) : .eof ∉ w := by
  have hw : (w.map fun kind => (⟨kind, "", .nil, 0⟩ : Token)).map Token.kind = w := by
    simp [Function.comp_def]
  obtain ⟨e, hs, he⟩ := h.exists_stratified hw
  intro hm
  exact hs.kind_ne_eof he ⟨.eof, "", .nil, 0⟩ (List.mem_map_of_mem hm) rfl

theorem Parser.parse_eq_error {ts : List Token} {limit : Int} {err : ParseError} {p : Parser}
    (h : (Parser.new ts limit).parse = (.error err, p)) :
    ∃ taken rest refusal, ts = taken ++ rest ∧ p.current = taken.length ∧
      toEnd limit ⟨taken ++ rest, 0⟩ = .error refusal ⟨rest, 0⟩ ∧ refusal.fault = err.fault ∧
      Viable .expression (taken.map Token.kind) := by
  simp only [parse, Parser.new, List.drop_zero] at h
  cases hr : toEnd limit ⟨ts, 0⟩ with
  | ok e c =>
    rw [hr] at h
    cases h
  | error refusal c =>
    rw [hr] at h
    cases h
    obtain ⟨taken, rest, rfl, rfl, hv, -⟩ := toEnd_refuses (Int.le_refl limit) hr
    exact ⟨taken, rest, refusal, rfl, by simp [moveTo], hr, rfl, hv⟩

theorem ParseError.isSyntactic_of_code {err : ParseError} (h : err.code ≠ "P004") :
    err.fault.isSyntactic = true := by
  obtain ⟨fault, token⟩ := err
  cases fault with
  | nestedTooDeeply limit => exact absurd rfl h
  | _ => rfl

/-- **A parse fails at the first token that no sentence has there.**  The tokens in front of it
begin a sentence; together with it they begin none. -/
theorem parse_stops_at_first_offence (ts : List Token) (eof : Token)
    (hts : ∀ t ∈ ts, t.kind ≠ .eof) (heof : eof.kind = .eof) (limit : Int) (err : ParseError)
    (p : Parser) (h : (Parser.new (ts ++ [eof]) limit).parse = (.error err, p))
    (hcode : err.code ≠ "P004") :
    p.current ≤ ts.length ∧
      (∃ more, Derives .expression ((ts.take p.current ++ more).map Token.kind)) ∧
      (p.current < ts.length →
        ∀ more, ¬ Derives .expression ((ts.take (p.current + 1) ++ more).map Token.kind)) ∧
      (p.current = ts.length → ¬ Derives .expression (ts.map Token.kind)) := by
  obtain ⟨taken, rest, refusal, hsplit, hcurrent, hr, hfault, w, hw⟩ := Parser.parse_eq_error h
  have hf : refusal.fault.isSyntactic = true := hfault ▸ ParseError.isSyntactic_of_code hcode
  -- no sentence has an end of input in it, so the failure is not behind that
  obtain ⟨ahead, rfl, rfl⟩ : ∃ ahead, ts = taken ++ ahead ∧ rest = ahead ++ [eof] := by
    rcases List.append_eq_append_iff.mp hsplit with ⟨m, hm, hrest⟩ | ⟨m, hm, hrest⟩
    · cases m with
      | nil => exact ⟨[], by simpa using hm.symm, by simpa using hrest.symm⟩
      | cons t m =>
        obtain ⟨rfl, -⟩ := List.cons.inj hrest
        have hmem : Kind.eof ∈ taken.map Token.kind ++ w := by simp [hm, heof]
        exact absurd hmem hw.eof_not_mem
    · exact ⟨m, hm, hrest⟩
  rw [hcurrent]
  refine ⟨by simp, ⟨w.map fun kind => ⟨kind, "", .nil, 0⟩, ?_⟩, ?_, ?_⟩
  · simpa [Function.comp_def] using hw
  · intro hlt more
    cases ahead with
    | nil => simp at hlt
    | cons t ahead =>
      have htake : (taken ++ t :: ahead).take (taken.length + 1) = taken ++ [t] :=
        List.take_length_add_append 1
      rw [htake, List.append_assoc]
      exact Parser.not_derives_of_error hr hf (t :: more) (.inl rfl) rfl
  · intro heq
    obtain rfl : ahead = [] := by simpa using heq
    have hn := Parser.not_derives_of_error hr hf [] (.inr ⟨eof, heof, rfl⟩) rfl
    simpa using hn

/-- In `true ? nil, )` the parenthesis is at fault: there the comma wants an operand. -/
theorem parse_stops_at_first_offence_missing_operand :
    (∃ more, Derives .expression (([⟨.keyword .trueWord, "true", .nil, 1⟩,
        ⟨.question, "?", .nil, 1⟩, ⟨.keyword .nilWord, "nil", .nil, 1⟩,
        ⟨.comma, ",", .nil, 1⟩] ++ more).map Token.kind)) ∧
      ∀ more, ¬ Derives .expression (([⟨.keyword .trueWord, "true", .nil, 1⟩,
        ⟨.question, "?", .nil, 1⟩, ⟨.keyword .nilWord, "nil", .nil, 1⟩,
        ⟨.comma, ",", .nil, 1⟩, ⟨.rightParen, ")", .nil, 1⟩] ++ more).map Token.kind) := by
  have h := parse_stops_at_first_offence
    [⟨.keyword .trueWord, "true", .nil, 1⟩, ⟨.question, "?", .nil, 1⟩,
      ⟨.keyword .nilWord, "nil", .nil, 1⟩, ⟨.comma, ",", .nil, 1⟩,
      ⟨.rightParen, ")", .nil, 1⟩]
    (.eof 1) (by decide) rfl 2 _ _ rfl (by decide)
  exact ⟨h.2.1, h.2.2.1 (by decide)⟩

end Lox
