import Lox.Proofs.Lossless
import Lox.Proofs.Running

/-!
# Two ways through the stages

A text goes through all stages in a run, which drops what is faulty in the scan and reports every
fault that it meets.  The other way is to ask for the tree of the text and then for its value, and to
be told the first fault only (`evaluateSource`).  `run_agrees` says how the two compare.  Without
lexical errors they come to the same, and with any of them the second way ends at the first one.

What a run shows is determined by what it has found: a line for each lexical error, in the order of
the text, and then how it ended.  It ends in one way only, and its exit status tells which way the
text would have gone without the run.
-/

namespace Lox

/-- Why a text has no value, by the first fault that is met. -/
inductive Fault
  | source (e : SourceError)
  | runtime (e : RuntimeError)
deriving DecidableEq

def evaluateSource (config : Config) (source : String) : Except Fault Value :=
  match parseSource config source with
  | .error e => .error (.source e)
  | .ok tree =>
    match evaluate config tree with
    | .error e => .error (.runtime e)
    | .ok v => .ok v

namespace Outcome

def result (o : Outcome) : Except Fault Value :=
  match o.parseError, o.runtimeError with
  | some e, _ => .error (.source (.parse e))
  | none, some e => .error (.runtime e)
  | none, none => .ok o.value

/-- What a run shows at its end, the line with the tree apart. -/
inductive LastLine (o : Outcome) : String → Prop
  | runtimeError (e : RuntimeError) : o.runtimeError = some e → LastLine o e.report
  | value : o.runtimeError = none → LastLine o o.value.display

/-- **A run agrees with the other way through the stages** and reports what it found. -/
structure Agrees (config : Config) (showTree : Bool) (source : String) (o : Outcome) : Prop where
  /-- The lexical errors are those of the scan, in the order of the text. -/
  lexicalErrors : o.lexicalErrors = (Scan.ofString source).errors ∧
    o.lexicalErrors.Pairwise (·.position < ·.position)
  /-- The first of them is where the other way ends. -/
  first : ∀ e ∈ o.lexicalErrors.head?, parseSource config source = .error (.lexical e)
  /-- Without any, both ways come to the same. -/
  result : o.lexicalErrors = [] → o.result = evaluateSource config source
  /-- Behind the lexical errors a parse error is shown alone, and otherwise the tree on request and
  one more line. -/
  shown : (∃ e, o.parseError = some e ∧
      o.shown = o.lexicalErrors.map LexicalError.report ++ [e.report]) ∨
    ∃ tree last, parseTokens (Scan.ofString source).tokens config.maxNestingDepth = .ok tree ∧
      o.parseError = none ∧ o.LastLine last ∧
      o.shown = o.lexicalErrors.map LexicalError.report ++
        if showTree then [tree.render, last] else [last]
  /-- At most one of a parse error, a runtime error and a value other than nil is found. -/
  single : [o.parseError.isSome, o.runtimeError.isSome, decide (o.value ≠ .nil)].count true ≤ 1
  dataError : o.status.code = 65 ↔ o.lexicalErrors ≠ [] ∨ o.parseError ≠ none
  softwareError : o.status.code = 70 ↔
    o.lexicalErrors = [] ∧ o.parseError = none ∧ o.runtimeError ≠ none
  success : o.status.code = 0 ↔
    o.lexicalErrors = [] ∧ o.parseError = none ∧ o.runtimeError = none
  /-- So the exit status is decided by the other way. -/
  status : o.status =
    match evaluateSource config source with
    | .error (.source _) => .dataError
    | .error (.runtime _) => .softwareError
    | .ok _ => .success

end Outcome

/-! ### Lexical errors in the order of the text -/

/-- Segments that are not empty start further and further on. -/
theorem pairwise_position_ofSegments (line position : Nat) {ss : List Segment}
    (h : ∀ s ∈ ss, s.graphemes ≠ []) :
    (Located.ofSegments line position ss).Pairwise (·.position < ·.position) ∧
      ∀ l ∈ Located.ofSegments line position ss, position ≤ l.position := by
  induction ss generalizing line position with
  | nil => exact ⟨List.Pairwise.nil, by simp [Located.ofSegments]⟩
  | cons s ss ih =>
    obtain ⟨hs, hss⟩ := List.forall_mem_cons.mp h
    have hpos := List.length_pos_iff.mpr hs
    obtain ⟨hpairs, hlow⟩ :=
      ih (line + countNewlines s.graphemes) (position + s.graphemes.length) hss
    refine ⟨List.Pairwise.cons (fun l hl => ?_) hpairs, List.forall_mem_cons.mpr ⟨?_, ?_⟩⟩
    · have hl' := hlow l hl
      show position < l.position
      omega
    · exact Nat.le_refl position
    · intro l hl
      have hl' := hlow l hl
      omega

theorem position_of_error? {l : Located} {e : LexicalError}
    (h : l.item?.bind ScanItem.error? = some e) : e.position = l.position := by
  rw [Located.item?] at h
  split at h
  · cases h
  · obtain ⟨item, hitem, he⟩ := Option.bind_eq_some_iff.mp h
    obtain ⟨g, -, rfl⟩ := Option.map_eq_some_iff.mp hitem
    cases he
    rfl
  · cases h
    rfl
  · cases h

theorem pairwise_errors (gs : List Grapheme) :
    (Scan.ofGraphemes gs).errors.Pairwise (·.position < ·.position) := by
  have hne : ∀ s ∈ Segment.divide gs, s.graphemes ≠ [] := by
    intro s hs
    obtain ⟨pre, post, hsplit⟩ := List.append_of_mem hs
    exact (divide_cut hsplit).graphemes_ne_nil
  have herrors : (Scan.ofGraphemes gs).errors =
      (Located.ofSegments 1 0 (Segment.divide gs)).filterMap
        fun l => l.item?.bind ScanItem.error? := by
    rw [Scan.errors, Scan.ofGraphemes_eq, List.filterMap_append, List.filterMap_filterMap]
    exact List.append_nil _
  rw [herrors]
  refine List.Pairwise.filterMap _ ?_ (pairwise_position_ofSegments 1 0 hne).1
  intro l l' hlt e he e' he'
  rw [position_of_error? he, position_of_error? he']
  exact hlt

/-! ### The outcome of a run -/

section

variable {config : Config} {showTree : Bool} {source : String}

theorem parseSource_of_errors {e : LexicalError}
    (h : e ∈ (Scan.ofString source).errors.head?) :
    parseSource config source = .error (.lexical e) := by
  obtain ⟨es, hes⟩ := List.head?_eq_some_iff.mp h
  simp only [parseSource, tokenize, hes]

/-- Without lexical errors the tree is that of the tokens. -/
theorem parseSource_of_clean (h : (Scan.ofString source).errors = []) :
    parseSource config source =
      (parseTokens (Scan.ofString source).tokens config.maxNestingDepth).mapError .parse := by
  have htokens : tokenize source = .ok (Scan.ofString source).tokens := by
    simp only [tokenize, h]
  simp only [parseSource, htokens]
  cases parseTokens (Scan.ofString source).tokens config.maxNestingDepth <;> rfl

namespace Outcome.Ended

variable {o : Outcome}

theorem result_eq (h : o.Ended config showTree (Scan.ofString source))
    (hclean : (Scan.ofString source).errors = []) :
    o.result = evaluateSource config source := by
  rw [evaluateSource, parseSource_of_clean hclean]
  cases h with
  | parseError e hparse hp hr hv hshown =>
    rw [hparse, result, hp, Except.mapError]
  | runtimeError tree fault hparse heval hp hr hv hshown =>
    simp only [hparse, result, hp, hr, Except.mapError, heval]
  | value tree v hparse heval hp hr hv hshown =>
    simp only [hparse, result, hp, hr, hv, Except.mapError, heval]

/-- The lines at the end of a run are those of the fault or of the value it came to. -/
theorem shown_eq (h : o.Ended config showTree (Scan.ofString source))
    (hlexical : o.lexicalErrors = (Scan.ofString source).errors) :
    (∃ e, o.parseError = some e ∧
        o.shown = o.lexicalErrors.map LexicalError.report ++ [e.report]) ∨
      ∃ tree last, parseTokens (Scan.ofString source).tokens config.maxNestingDepth = .ok tree ∧
        o.parseError = none ∧ o.LastLine last ∧
        o.shown = o.lexicalErrors.map LexicalError.report ++
          if showTree then [tree.render, last] else [last] := by
  rw [hlexical]
  cases h with
  | parseError e hparse hp hr hv hshown => exact .inl ⟨e, hp, hshown⟩
  | runtimeError tree fault hparse heval hp hr hv hshown =>
    refine .inr ⟨tree, fault.report, hparse, hp, .runtimeError fault hr, ?_⟩
    rw [hshown, List.append_assoc]
    cases showTree <;> rfl
  | value tree v hparse heval hp hr hv hshown =>
    refine .inr ⟨tree, o.value.display, hparse, hp, .value hr, ?_⟩
    rw [hshown, hv, List.append_assoc]
    cases showTree <;> rfl

theorem count_le_one (h : o.Ended config showTree (Scan.ofString source)) :
    [o.parseError.isSome, o.runtimeError.isSome, decide (o.value ≠ .nil)].count true ≤ 1 := by
  cases h with
  | parseError e hparse hp hr hv hshown =>
    rw [hp, hr, hv, Option.isSome_some]
    decide
  | runtimeError tree fault hparse heval hp hr hv hshown =>
    rw [hp, hr, hv, Option.isSome_some]
    decide
  | value tree v hparse heval hp hr hv hshown =>
    rw [hp, hr]
    cases decide (o.value ≠ .nil) <;> decide

end Outcome.Ended

theorem evaluateSource_of_errors {e : LexicalError}
    (h : e ∈ (Scan.ofString source).errors.head?) :
    evaluateSource config source = .error (.source (.lexical e)) := by
  rw [evaluateSource, parseSource_of_errors h]

/-- The exit status goes by the first fault of the other way. -/
theorem Outcome.status_of_result {o : Outcome}
    (hlexical : o.lexicalErrors = (Scan.ofString source).errors)
    (hresult : (Scan.ofString source).errors = [] → o.result = evaluateSource config source) :
    o.status =
      match evaluateSource config source with
      | .error (.source _) => .dataError
      | .error (.runtime _) => .softwareError
      | .ok _ => .success := by
  cases herrors : (Scan.ofString source).errors with
  | cons e es =>
    have hfirst : e ∈ (Scan.ofString source).errors.head? := by rw [herrors]; rfl
    rw [evaluateSource_of_errors hfirst, status, hlexical, herrors]
    rfl
  | nil =>
    rw [← hresult herrors, status, result, hlexical, herrors]
    cases o.parseError with
    | some e => rfl
    | none => cases o.runtimeError <;> rfl

end

theorem Outcome.status_code (o : Outcome) :
    (o.status.code = 65 ↔ o.lexicalErrors ≠ [] ∨ o.parseError ≠ none) ∧
      (o.status.code = 70 ↔
        o.lexicalErrors = [] ∧ o.parseError = none ∧ o.runtimeError ≠ none) ∧
      (o.status.code = 0 ↔
        o.lexicalErrors = [] ∧ o.parseError = none ∧ o.runtimeError = none) := by
  rw [status]
  cases o.lexicalErrors with
  | cons e es => simp [ExitStatus.code]
  | nil =>
    cases o.parseError with
    | some e => simp [ExitStatus.code]
    | none => cases o.runtimeError <;> simp [ExitStatus.code]

/-- **Every run agrees with the other way through the stages**, and reports exactly what it came
to. -/
theorem run_agrees (config : Config) (showTree : Bool) (source : String) :
    (run config showTree source).Agrees config showTree source := by
  have hended := ended_run config showTree (Scan.ofString source)
  have hlexical : (run config showTree source).lexicalErrors = (Scan.ofString source).errors :=
    lexicalErrors_run config showTree (Scan.ofString source)
  obtain ⟨hdata, hsoftware, hsuccess⟩ := (run config showTree source).status_code
  exact {
    lexicalErrors := by
      rw [hlexical]
      exact ⟨rfl, pairwise_errors _⟩
    first := by
      intro e he
      rw [hlexical] at he
      exact parseSource_of_errors he
    result := by
      intro hclean
      rw [hlexical] at hclean
      exact hended.result_eq hclean
    shown := hended.shown_eq hlexical
    single := hended.count_le_one
    dataError := hdata
    softwareError := hsoftware
    success := hsuccess
    status := Outcome.status_of_result hlexical hended.result_eq }

end Lox
