import Lox.Session
import Mathlib.Data.List.TakeWhile

/-!
# Sessions under every schedule

The reader and the main party take their steps in any order, and signals may fall between them.
`Progress` is what holds after every order of steps: the lines that the main party has taken, those
in the queue and those not yet read are the input in its order, and what was shown together with
what is left to show are the prompt and one block for each line taken.  A block is all that a line
leads to, its run and the next prompt, so no line is run in part.

`Progress.step` says that each step keeps this, and `Progress.after` that a run does.  The texts
that an interrupt shows are not the main party's; `shownDuring` leaves them out.

Without signals the flag stays down, and then only a line ends a session.
-/

namespace Lox

namespace Session

/-! ### What a session shows -/

/-- Whether the main party stops at a line of the input: the end mark, or the word for it. -/
def endsSession : Option String → Bool
  | none => true
  | some line => Text.trimBlank line = exitCommand

def isBlank (line : String) : Bool := (Text.trimBlank line).isEmpty

/-- All that is shown for a line: its run, unless it is blank, and the next prompt. -/
def block (config : Config) (line : String) : List String :=
  (if isBlank line then [] else (run config false line).shown.map (· ++ "\n")) ++ [config.prompt]

def linesBeforeEnd (input : List (Option String)) : List String :=
  (input.takeWhile (!endsSession ·)).filterMap id

def farewell : Option String → List String
  | none => ["\n", "Exiting...\n"]
  | some _ => ["Exiting...\n"]

/-- What a session shows for its input, after the first prompt. -/
def answers (config : Config) (input : List (Option String)) : List String :=
  (linesBeforeEnd input).flatMap (block config) ++ (input.find? endsSession).elim [] farewell

section

variable {lines : List String} (hlines : ∀ line ∈ lines, endsSession (some line) = false)

include hlines

theorem linesBeforeEnd_append (rest : List (Option String)) :
    linesBeforeEnd (lines.map some ++ rest) = lines ++ linesBeforeEnd rest := by
  have hall : ∀ line ∈ lines.map some, (!endsSession line) = true := by
    intro line hline
    obtain ⟨text, htext, rfl⟩ := List.mem_map.mp hline
    simp [hlines text htext]
  rw [linesBeforeEnd, List.takeWhile_append_of_pos hall, List.filterMap_append, linesBeforeEnd]
  simp

theorem answers_append (config : Config) (rest : List (Option String)) :
    answers config (lines.map some ++ rest) =
      lines.flatMap (block config) ++ answers config rest := by
  have hnone : (lines.map some).find? endsSession = none := by
    rw [List.find?_eq_none]
    intro line hline
    obtain ⟨text, htext, rfl⟩ := List.mem_map.mp hline
    simp [hlines text htext]
  rw [answers, linesBeforeEnd_append hlines, List.find?_append, hnone, List.flatMap_append,
    List.append_assoc, Option.none_or, answers]

end

theorem linesBeforeEnd_of_ends {last : Option String} (h : endsSession last = true)
    (rest : List (Option String)) : linesBeforeEnd (last :: rest) = [] := by
  simp [linesBeforeEnd, h]

theorem answers_of_ends {last : Option String} (h : endsSession last = true) (config : Config)
    (rest : List (Option String)) : answers config (last :: rest) = farewell last := by
  rw [answers, linesBeforeEnd_of_ends h, List.find?_cons_of_pos h]
  rfl

/-! ### Actions -/

end Session

/-- Whether the main party may wait at an action, or end the session there. -/
def Action.waits : Action → Bool
  | checkQuit | takeLine => true
  | _ => false

def Action.text? : Action → Option String
  | echo text => some text
  | _ => none

theorem Action.text?_of_waits {a : Action} (h : a.waits = true) : a.text? = none := by
  cases a <;> simp_all [waits, text?]

namespace Session

def texts (actions : List Action) : List String := actions.filterMap Action.text?

theorem texts_echo (shown : List String) :
    texts (shown.map fun s => .echo (s ++ "\n")) = shown.map (· ++ "\n") := by
  induction shown with
  | nil => rfl
  | cons s shown ih =>
    rw [List.map_cons, List.map_cons, ← ih]
    rfl

theorem waits_echo (shown : List String) :
    ∀ a ∈ shown.map fun s => Action.echo (s ++ "\n"), a.waits = false := by
  intro a ha
  obtain ⟨s, -, rfl⟩ := List.mem_map.mp ha
  rfl

/-- A line that ends the session leads to its farewell. -/
theorem respond_of_ends {line : Option String} (h : endsSession line = true) (config : Config) :
    (∀ a ∈ (respond config line).1, a.waits = false) ∧
      texts (respond config line).1 = farewell line ∧
      (respond config line).1.count .countLine = 0 := by
  cases line with
  | none => exact ⟨by simp [respond, closing, Action.waits], rfl, rfl⟩
  | some line =>
    have hexit : Text.trimBlank line = exitCommand := by simpa [endsSession] using h
    have hrespond : (respond config (some line)).1 = closing := by simp [respond, hexit]
    rw [hrespond]
    exact ⟨by simp [closing, Action.waits], rfl, rfl⟩

/-- Any other line leads to its block, and then to the next look at the flag. -/
theorem respond_of_goesOn {line : String} (h : endsSession (some line) = false)
    (config : Config) :
    ∃ plain, (respond config (some line)).1 = plain ++ [.checkQuit] ∧
      (∀ a ∈ plain, a.waits = false) ∧ texts plain = block config line ∧
      plain.count .countLine = if isBlank line then 0 else 1 := by
  have hexit : Text.trimBlank line ≠ exitCommand := by simpa [endsSession] using h
  by_cases hblank : isBlank line = true
  · refine ⟨[.echo config.prompt], ?_, by simp [Action.waits], ?_, by simp [hblank]⟩
    · have hempty : (Text.trimBlank line).isEmpty = true := hblank
      simp only [respond, if_neg hexit, if_pos hempty, proceed, List.singleton_append]
    · rw [block, if_pos hblank]
      rfl
  · have hempty : ¬ (Text.trimBlank line).isEmpty = true := hblank
    refine ⟨(run config false line).shown.map (fun s => .echo (s ++ "\n")) ++
      [.countLine, .echo config.prompt], ?_, ?_, ?_, ?_⟩
    · simp only [respond, if_neg hexit, if_neg hempty, proceed, List.append_assoc,
        List.cons_append, List.nil_append]
    · intro a ha
      rcases List.mem_append.mp ha with ha | ha
      · exact waits_echo _ a ha
      · simp only [List.mem_cons, List.not_mem_nil, or_false] at ha
        rcases ha with rfl | rfl <;> rfl
    · rw [texts, List.filterMap_append, ← texts, texts_echo, block, if_neg hblank]
      rfl
    · rw [List.count_append, if_neg hblank, List.count_eq_zero_of_not_mem]
      · rfl
      · intro hmem
        obtain ⟨s, -, hs⟩ := List.mem_map.mp hmem
        cases hs

/-! ### One step -/

def after (s : Session) (events : List Event) : Session := events.foldl step s

/-- The text that the main party shows in a step, if any. -/
def shownBy (s : Session) : Event → List String
  | .advance => texts (s.todo.take 1)
  | _ => []

def shownDuring (s : Session) : List Event → List String
  | [] => []
  | event :: events => s.shownBy event ++ (s.step event).shownDuring events

/-- What has been shown and counted when the main party has taken `lines`, and has `plain` left to
do for the last of them or for the farewell. -/
structure Account (config : Config) (lines farewell : List String) (plain : List Action)
    (linesRun : Nat) (shown : List String) : Prop where
  goesOn : ∀ line ∈ lines, endsSession (some line) = false
  waits : ∀ a ∈ plain, a.waits = false
  shown_eq : shown ++ texts plain = config.prompt :: (lines.flatMap (block config) ++ farewell)
  linesRun_eq : linesRun + plain.count .countLine = lines.countP (!isBlank ·)

/-- How a session comes to its end: by the last line taken, or without one by the flag. -/
inductive Leaves (quitRequested : Bool) : List (Option String) → List String → Prop
  | line {last : Option String} : endsSession last = true →
      Leaves quitRequested [last] (farewell last)
  | quit : quitRequested = true → Leaves quitRequested [] ["Exiting...\n"]

/-- **What holds of a session after every order of steps.** -/
inductive Progress (config : Config) (input : List (Option String)) (s : Session)
    (shown : List String) : Prop
  | working (lines : List String) (plain : List Action) (wait : Action) : s.config = config →
      s.todo = plain ++ [wait] → wait.waits = true →
      input = lines.map some ++ (s.queue ++ s.unread) →
      Account config lines [] plain s.linesRun shown → Progress config input s shown
  | leaving (lines : List String) (ending : List (Option String)) (farewell : List String) :
      s.config = config → Leaves s.quitRequested ending farewell →
      input = lines.map some ++ (ending ++ (s.queue ++ s.unread)) →
      Account config lines farewell s.todo s.linesRun shown → Progress config input s shown

section

variable {config : Config} {input : List (Option String)} {lines bye : List String}
  {s : Session} {shown : List String}

/-! #### What an action leaves alone at which the main party does not wait -/

structure SameInput (s s' : Session) : Prop where
  config : s'.config = s.config
  queue : s'.queue = s.queue
  unread : s'.unread = s.unread
  quitRequested : s'.quitRequested = s.quitRequested

theorem sameInput_advance {a : Action} {rest : List Action} (htodo : s.todo = a :: rest)
    (ha : a.waits = false) : SameInput s (s.step .advance) := by
  cases a with
  | checkQuit | takeLine => cases ha
  | _ =>
    simp only [step, htodo, perform, record]
    exact ⟨rfl, rfl, rfl, rfl⟩

theorem todo_advance {a : Action} {rest : List Action} (htodo : s.todo = a :: rest)
    (ha : a.waits = false) : (s.step .advance).todo = rest := by
  cases a with
  | checkQuit | takeLine => cases ha
  | _ => simp only [step, htodo, perform]

/-- An action done moves from what is left to what has been shown and counted. -/
theorem Account.advance {a : Action} {rest plain : List Action}
    (h : Account config lines bye (a :: plain) s.linesRun shown) (htodo : s.todo = a :: rest) :
    Account config lines bye plain (s.step .advance).linesRun (shown ++ s.shownBy .advance) := by
  obtain ⟨ha, hplain⟩ := List.forall_mem_cons.mp h.waits
  have hshown : s.shownBy .advance ++ texts plain = texts (a :: plain) := by
    rw [shownBy, htodo, texts, texts, texts, ← List.filterMap_append]
    rfl
  have hcount : (s.step .advance).linesRun + plain.count .countLine =
      s.linesRun + (a :: plain).count .countLine := by
    cases a with
    | checkQuit | takeLine => cases ha
    | countLine =>
      simp only [step, htodo, perform, List.count_cons_self]
      omega
    | _ => simp [step, htodo, perform, record]
  refine ⟨h.goesOn, hplain, ?_, hcount.trans h.linesRun_eq⟩
  rw [List.append_assoc, hshown, h.shown_eq]

/-! #### Actions at which it waits -/

theorem Account.leave {linesRun : Nat} (h : Account config lines [] [] linesRun shown)
    {last : Option String} (hends : endsSession last = true) :
    Account config lines (farewell last) (respond config last).1 linesRun shown := by
  obtain ⟨hwaits, htexts, hcount⟩ := respond_of_ends hends config
  have hshown := h.shown_eq
  simp only [texts, List.filterMap_nil, List.append_nil] at hshown
  refine ⟨h.goesOn, hwaits, ?_, ?_⟩
  · rw [htexts, hshown, List.cons_append]
  · rw [hcount]
    exact h.linesRun_eq

theorem Account.goOn {linesRun : Nat} (h : Account config lines [] [] linesRun shown)
    {line : String} (hline : endsSession (some line) = false) :
    ∃ plain, (respond config (some line)).1 = plain ++ [.checkQuit] ∧
      Account config (lines ++ [line]) [] plain linesRun shown := by
  obtain ⟨plain, hrespond, hwaits, htexts, hcount⟩ := respond_of_goesOn hline config
  have hshown := h.shown_eq
  simp only [texts, List.filterMap_nil, List.append_nil] at hshown
  have hlinesRun : linesRun = lines.countP (!isBlank ·) := h.linesRun_eq
  refine ⟨plain, hrespond, ?_, hwaits, ?_, ?_⟩
  · rw [List.forall_mem_append, List.forall_mem_singleton]
    exact ⟨h.goesOn, hline⟩
  · rw [htexts, hshown, List.flatMap_append, List.flatMap_singleton, List.append_nil,
      List.cons_append]
  · rw [hcount, hlinesRun, List.countP_append]
    by_cases hblank : isBlank line = true <;> simp [hblank]

theorem Progress.checkQuit (hconfig : s.config = config) (htodo : s.todo = [.checkQuit])
    (hinput : input = lines.map some ++ (s.queue ++ s.unread))
    (h : Account config lines [] [] s.linesRun shown) :
    Progress config input (s.step .advance) shown := by
  by_cases hquit : s.quitRequested = true
  · have hstep : s.step .advance = { s with todo := closing } := by
      simp [step, htodo, perform, hquit]
    rw [hstep]
    -- the flag has the same closing as the word
    exact .leaving lines [] _ hconfig (.quit hquit) hinput
      (h.leave (show endsSession (some exitCommand) = true by decide))
  · have hstep : s.step .advance = { s with todo := [.takeLine] } := by
      simp [step, htodo, perform, hquit]
    rw [hstep]
    exact .working lines [] .takeLine hconfig rfl rfl hinput h

theorem Progress.takeLine (hconfig : s.config = config) (htodo : s.todo = [.takeLine])
    (hinput : input = lines.map some ++ (s.queue ++ s.unread))
    (h : Account config lines [] [] s.linesRun shown) :
    Progress config input (s.step .advance) shown := by
  cases hqueue : s.queue with
  | nil =>
    have hstep : s.step .advance = { s with todo := [.checkQuit] } := by
      simp [step, htodo, perform, hqueue]
    rw [hstep]
    exact .working lines [] .checkQuit hconfig rfl rfl hinput h
  | cons line queue =>
    have hstep : s.step .advance =
        { s with queue, todo := (respond config line).1,
                 log := s.log ++ (respond config line).2 } := by
      simp [step, htodo, perform, hqueue, hconfig]
    rw [hqueue, List.cons_append] at hinput
    rw [hstep]
    by_cases hends : endsSession line = true
    · exact .leaving lines [line] _ hconfig (.line hends) hinput (h.leave hends)
    · cases line with
      | none => exact absurd rfl hends
      | some line =>
        obtain ⟨plain, hrespond, haccount⟩ := h.goOn (Bool.of_not_eq_true hends)
        refine .working (lines ++ [line]) plain .checkQuit hconfig hrespond rfl ?_ haccount
        rw [hinput, List.map_append, List.append_assoc]
        rfl

/-! #### Steps of the others -/

/-- What is left alone by everyone but the main party. -/
structure Untouched (s s' : Session) : Prop where
  config : s'.config = s.config
  todo : s'.todo = s.todo
  pending : s'.queue ++ s'.unread = s.queue ++ s.unread
  linesRun : s'.linesRun = s.linesRun
  quitRequested : s.quitRequested = true → s'.quitRequested = true

theorem untouched_deliver (s : Session) : Untouched s (s.step .deliver) := by
  rw [step]
  split
  · exact ⟨rfl, rfl, rfl, rfl, id⟩
  · rename_i line unread hunread
    refine ⟨rfl, rfl, ?_, rfl, id⟩
    rw [hunread, List.append_assoc]
    rfl

theorem untouched_signal (s : Session) (signal : Signal) :
    Untouched s (s.step (.signal signal)) := by
  cases signal with
  | quit => exact ⟨rfl, rfl, rfl, rfl, fun _ => rfl⟩
  | interrupt =>
    rw [step]
    split
    · exact ⟨rfl, rfl, rfl, rfl, fun _ => rfl⟩
    · exact ⟨rfl, rfl, rfl, rfl, id⟩

theorem Progress.of_untouched {s' : Session} (h : Progress config input s shown)
    (hs : Untouched s s') : Progress config input s' shown := by
  cases h with
  | working lines plain wait hconfig htodo hwait hinput h =>
    rw [← hs.pending] at hinput
    rw [← hs.linesRun] at h
    exact .working lines plain wait (hs.config.trans hconfig) (hs.todo.trans htodo) hwait hinput h
  | leaving lines ending farewell hconfig hleaves hinput h =>
    rw [← hs.pending] at hinput
    rw [← hs.linesRun, ← hs.todo] at h
    refine .leaving lines ending farewell (hs.config.trans hconfig) ?_ hinput h
    cases hleaves with
    | line hends => exact .line hends
    | quit hquit => exact .quit (hs.quitRequested hquit)

/-- **Every step keeps `Progress`.** -/
theorem Progress.step (h : Progress config input s shown) (event : Event) :
    Progress config input (s.step event) (shown ++ s.shownBy event) := by
  cases event with
  | deliver => simpa [shownBy] using h.of_untouched (untouched_deliver s)
  | signal signal => simpa [shownBy] using h.of_untouched (untouched_signal s signal)
  | advance =>
    cases h with
    | working lines plain wait hconfig htodo hwait hinput h =>
      cases plain with
      | nil =>
        have hnone : s.shownBy .advance = [] := by
          simp [shownBy, htodo, texts, Action.text?_of_waits hwait]
        rw [hnone, List.append_nil]
        cases wait with
        | checkQuit => exact .checkQuit hconfig htodo hinput h
        | takeLine => exact .takeLine hconfig htodo hinput h
        | _ => cases hwait
      | cons a plain =>
        have ha := h.waits a (List.mem_cons_self ..)
        have hsame := sameInput_advance htodo ha
        rw [← hsame.queue, ← hsame.unread] at hinput
        exact .working lines plain wait (hsame.config.trans hconfig) (todo_advance htodo ha) hwait
          hinput (h.advance htodo)
    | leaving lines ending farewell hconfig hleaves hinput h =>
      cases htodo : s.todo with
      | nil =>
        have hidle : s.step .advance = s := by simp [Session.step, htodo]
        have hnone : s.shownBy .advance = [] := by simp [shownBy, htodo, texts]
        rw [hidle, hnone, List.append_nil]
        exact .leaving lines ending farewell hconfig hleaves hinput h
      | cons a rest =>
        rw [htodo] at h
        have ha := h.waits a (List.mem_cons_self ..)
        have hsame := sameInput_advance htodo ha
        rw [← hsame.queue, ← hsame.unread] at hinput
        rw [← hsame.quitRequested] at hleaves
        refine .leaving lines ending farewell (hsame.config.trans hconfig) hleaves hinput ?_
        rw [todo_advance htodo ha]
        exact h.advance htodo

/-! ### A run -/

theorem progress_new (config : Config) (input : List (Option String)) (handlesInterrupts : Bool) :
    Progress config input (new config input handlesInterrupts) [] := by
  refine .working [] [.echo config.prompt] .checkQuit rfl rfl rfl rfl ⟨?_, ?_, rfl, rfl⟩
  · simp
  · simp [Action.waits]

theorem Progress.after (h : Progress config input s shown) (events : List Event) :
    Progress config input (s.after events) (shown ++ s.shownDuring events) := by
  induction events generalizing s shown with
  | nil =>
    rw [shownDuring, List.append_nil]
    exact h
  | cons event events ih =>
    rw [shownDuring, ← List.append_assoc]
    exact ih (h.step event)

def Quiet (events : List Event) : Prop := ∀ event ∈ events, event = .deliver ∨ event = .advance

/-- Without a signal only the main party shows anything, and nobody asks it to quit. -/
theorem step_of_quiet {event : Event} (h : event = .deliver ∨ event = .advance) (s : Session) :
    (s.step event).transcript.map Prod.fst = s.transcript.map Prod.fst ++ s.shownBy event ∧
      (s.step event).quitRequested = s.quitRequested := by
  rcases h with rfl | rfl
  · rw [step]
    split <;> simp [shownBy]
  · cases htodo : s.todo with
    | nil => simp [step, shownBy, htodo, texts]
    | cons a rest =>
      cases a with
      | takeLine => cases hqueue : s.queue <;>
          simp [step, shownBy, htodo, texts, perform, hqueue, Action.text?]
      | _ => simp [step, shownBy, htodo, texts, perform, record, Action.text?]

theorem after_of_quiet {events : List Event} (h : Quiet events) (s : Session) :
    (s.after events).transcript.map Prod.fst =
        s.transcript.map Prod.fst ++ s.shownDuring events ∧
      (s.after events).quitRequested = s.quitRequested := by
  induction events generalizing s with
  | nil => simp [after, shownDuring]
  | cons event events ih =>
    obtain ⟨hevent, hevents⟩ := List.forall_mem_cons.mp h
    obtain ⟨hshown, hquit⟩ := step_of_quiet hevent s
    obtain ⟨hshown', hquit'⟩ := ih hevents (s.step event)
    rw [hshown, List.append_assoc] at hshown'
    exact ⟨hshown', hquit'.trans hquit⟩

/-- Without a signal what is shown is the beginning of the answers to the input, and a line has
ended the session when nothing is left to do. -/
theorem Progress.answers_of_not_quit (h : Progress config input s shown)
    (hquit : s.quitRequested = false) :
    shown <+: config.prompt :: answers config input ∧
      (s.todo = [] → shown = config.prompt :: answers config input ∧
        s.linesRun = (linesBeforeEnd input).countP (!isBlank ·)) := by
  cases h with
  | working lines plain wait _ htodo hwait hinput h =>
    refine ⟨⟨texts plain ++ answers config (s.queue ++ s.unread), ?_⟩, ?_⟩
    · rw [hinput, answers_append h.goesOn, ← List.append_assoc, h.shown_eq]
      simp
    · simp [htodo]
  | leaving lines ending farewell _ hleaves hinput h =>
    cases hleaves with
    | quit hquit' => simp [hquit] at hquit'
    | @line last hends =>
      have hanswers : shown ++ texts s.todo = config.prompt :: answers config input := by
        rw [h.shown_eq, hinput, answers_append h.goesOn, List.singleton_append,
          answers_of_ends hends]
      refine ⟨⟨_, hanswers⟩, fun htodo => ⟨?_, ?_⟩⟩
      · simpa [htodo, texts] using hanswers
      · have hlines := h.linesRun_eq
        rw [htodo, List.count_nil, Nat.add_zero] at hlines
        rw [hlines, hinput, linesBeforeEnd_append h.goesOn, List.singleton_append,
          linesBeforeEnd_of_ends hends, List.append_nil]

/-! ### Sessions that end -/

theorem deliverAll_eq_after (s : Session) :
    s.deliverAll = s.after (List.replicate s.unread.length .deliver) := by
  obtain ⟨n, hn⟩ : ∃ n, s.unread.length = n := ⟨_, rfl⟩
  rw [hn]
  induction n generalizing s with
  | zero =>
    have hunread : [] = s.unread := (List.length_eq_zero_iff.mp hn).symm
    rw [deliverAll, hunread, ← hunread, List.append_nil, hunread]
    rfl
  | succ n ih =>
    obtain ⟨line, unread, hunread⟩ := List.exists_cons_of_length_eq_add_one hn
    have hstep : s.step .deliver = { s with unread, queue := s.queue ++ [line] } := by
      simp only [step, hunread]
    have hrest := ih (s.step .deliver) (by rw [hstep]; simpa [hunread] using hn)
    rw [List.replicate_succ, after, List.foldl_cons, ← after, ← hrest, hstep]
    simp [deliverAll, hunread]

/-- Working until idle is one order of steps. -/
theorem exists_settle_eq_after (s : Session) :
    ∃ n, settle none s = s.after (List.replicate n .advance) := by
  induction s using settle.induct none with
  | case1 s hidle =>
    refine ⟨0, ?_⟩
    rw [settle, dif_pos hidle]
    rfl
  | case2 s hidle ih =>
    obtain ⟨n, hn⟩ := ih
    refine ⟨n + 1, ?_⟩
    rw [settle, dif_neg hidle, hn]
    rfl

theorem isIdle_settle (s : Session) : (settle none s).isIdle = true := by
  induction s using settle.induct none with
  | case1 s hidle =>
    rw [settle, dif_pos hidle]
    exact hidle
  | case2 s hidle ih =>
    rw [settle, dif_neg hidle]
    exact ih

theorem unread_advance (s : Session) : (s.step .advance).unread = s.unread := by
  rw [step]
  split
  · rfl
  · rename_i a rest htodo
    cases a with
    | takeLine => cases hqueue : s.queue <;> simp [perform, hqueue]
    | _ => rfl

theorem unread_advances (s : Session) (n : Nat) :
    (s.after (List.replicate n .advance)).unread = s.unread := by
  induction n generalizing s with
  | zero => rfl
  | succ n ih => exact (ih (s.step .advance)).trans (unread_advance s)

theorem isIdle_eq_true (h : s.isIdle = true) :
    s.todo = [] ∨ .takeLine ∈ s.todo ∧ s.queue = [] := by
  rw [isIdle] at h
  split at h
  · exact .inl ‹_›
  · rename_i rest htodo
    rw [htodo]
    exact .inr ⟨List.mem_cons_self .., List.isEmpty_iff.mp h⟩
  · cases h

/-- The main party does not wait for ever if the end mark is among what it was given. -/
theorem Progress.todo_of_isIdle (h : Progress config input s shown) (hidle : s.isIdle = true)
    (hunread : s.unread = []) (hend : none ∈ input) : s.todo = [] := by
  rcases isIdle_eq_true hidle with htodo | ⟨htake, hqueue⟩
  · exact htodo
  · cases h with
    | working lines plain wait _ _ _ hinput =>
      -- all of the input has been taken, and none of it ended the session
      rw [hinput, hqueue, hunread] at hend
      simp at hend
    | leaving lines ending farewell _ _ _ h => cases h.waits _ htake

theorem Quiet.append {events events' : List Event} (h : Quiet events) (h' : Quiet events') :
    Quiet (events ++ events') :=
  List.forall_mem_append.mpr ⟨h, h'⟩

/-- Once all of the input is delivered, working until idle ends the session. -/
theorem exists_quiet_end (h : Progress config input s shown) (hend : none ∈ input) :
    ∃ more, Quiet more ∧ (s.after more).todo = [] := by
  obtain ⟨n, hn⟩ := exists_settle_eq_after s.deliverAll
  have hrun : (s.after (List.replicate s.unread.length .deliver ++ List.replicate n .advance)) =
      settle none s.deliverAll := by
    rw [hn, deliverAll_eq_after, after, after, after, List.foldl_append]
  refine ⟨List.replicate s.unread.length .deliver ++ List.replicate n .advance, ?_, ?_⟩
  · refine .append (fun event hevent => ?_) (fun event hevent => ?_)
    · exact .inl (List.eq_of_mem_replicate hevent)
    · exact .inr (List.eq_of_mem_replicate hevent)
  · refine (h.after _).todo_of_isIdle ?_ ?_ hend
    · rw [hrun]
      exact isIdle_settle _
    · rw [hrun, hn, unread_advances]
      rfl

end

/-- **A session without signals does not depend on the order of steps.**  What has been shown is
always a beginning of the same texts; a session that has ended has shown all of them and has run
every line before its end that is not blank; and however it went so far, it can still end. -/
theorem session_ignores_timing (config : Config) (input : List (Option String))
    (handlesInterrupts : Bool) (events : List Event) (hquiet : Quiet events) (s : Session)
    (hs : (new config input handlesInterrupts).after events = s) :
    s.transcript.map Prod.fst <+: config.prompt :: answers config input ∧
    (s.todo = [] → s.transcript.map Prod.fst = config.prompt :: answers config input ∧
      s.linesRun = (linesBeforeEnd input).countP (!isBlank ·)) ∧
    (none ∈ input → ∃ more, Quiet more ∧ (s.after more).todo = []) := by
  have hprogress := (progress_new config input handlesInterrupts).after events
  obtain ⟨hshown, hquit⟩ := after_of_quiet hquiet (new config input handlesInterrupts)
  rw [hs] at hprogress hshown hquit
  obtain ⟨hbeginning, hend⟩ := hprogress.answers_of_not_quit hquit
  have htexts : s.transcript.map Prod.fst =
      [] ++ (new config input handlesInterrupts).shownDuring events := hshown
  rw [htexts]
  exact ⟨hbeginning, hend, exists_quiet_end hprogress⟩

/-- The main party looks into the empty queue twice before the reader is done. -/
theorem session_ignores_timing_late_reader :
    ((new {} [some "nil == true", some " ", some " exit ", some "nil", none] true).after
        (List.replicate 7 .advance ++ List.replicate 5 .deliver ++
          List.replicate 15 .advance)).transcript.map Prod.fst =
      ["lox > ", "false\n", "lox > ", "lox > ", "Exiting...\n"] := by
  have hquiet : Quiet (List.replicate 7 .advance ++ List.replicate 5 .deliver ++
      List.replicate 15 .advance) := by
    unfold Quiet
    decide
  have hend := (session_ignores_timing {}
    [some "nil == true", some " ", some " exit ", some "nil", none] true _ hquiet _ rfl).2.1
    (by decide +kernel)
  exact hend.1.trans (by decide +kernel)

end Session

end Lox
