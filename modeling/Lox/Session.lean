import Lox.Outcome
import Lox.Text.Blank

/-!
# Interactive sessions

A session runs its input line by line.  Two parties work on it.  The reader hands over lines through
a queue, the last of them an end mark.  The main party shows a prompt, takes the lines one at a
time, runs each, and shows the prompt again.  Anyone may ask it to quit; it looks at that flag
before it waits for the next line, so a line in progress is always finished.

`Session.step` is one step of either party or of the world outside, and every order of steps is
possible.  What the main party has begun stands in `todo`, one action for each thing that others can
see, so that a quit or an interrupt can fall between any two of them.

`Session.settle` is one such order: the main party works until nothing is left to do.
-/

namespace Lox

/-- The things that the main party does one at a time. -/
inductive Action
  | echo (text : String)
  | countLine
  | checkQuit
  | takeLine
  /-- Gives up the handling of interrupts. -/
  | release
  | summarise
deriving DecidableEq, Repr

inductive Signal
  /-- Someone asks the session to quit. -/
  | quit
  /-- The user interrupts the session. -/
  | interrupt
deriving DecidableEq, Repr

inductive Event
  /-- The reader hands over its next line. -/
  | deliver
  /-- The main party does its next action. -/
  | advance
  | signal (signal : Signal)
deriving DecidableEq, Repr

/-- A session; in the input `none` is the end mark. -/
structure Session where
  config : Config
  unread : List (Option String)
  queue : List (Option String)
  todo : List Action
  quitRequested : Bool
  handlesInterrupts : Bool
  linesRun : Nat
  /-- Each text shown, with the number of lines run at that time. -/
  transcript : List (String × Nat)
  log : List LogEntry
deriving DecidableEq

namespace Session

def exitCommand : String := "exit"

def closing : List Action := [.release, .echo "Exiting...\n", .summarise]

/-- Shows the prompt and goes on with the next line. -/
def proceed (config : Config) : List Action := [.echo config.prompt, .checkQuit]

def new (config : Config) (input : List (Option String)) (handlesInterrupts : Bool) : Session where
  config
  unread := input
  queue := []
  todo := proceed config
  quitRequested := false
  handlesInterrupts
  linesRun := 0
  transcript := []
  log := []

/-- What a line leads to, and what is noted on the way. -/
def respond (config : Config) : Option String → List Action × List LogEntry
  | none => (.echo "\n" :: closing, [])
  | some line =>
    let text := Text.trimBlank line
    if text = exitCommand then (closing, [])
    else if text.isEmpty then (proceed config, [])
    else
      let outcome := run config false line
      (outcome.shown.map (fun s => .echo (s ++ "\n")) ++ .countLine :: proceed config, outcome.log)

def record (s : Session) (text : String) : Session :=
  { s with transcript := s.transcript ++ [(text, s.linesRun)] }

def perform (s : Session) (rest : List Action) : Action → Session
  | .echo text => { s.record text with todo := rest }
  | .countLine => { s with linesRun := s.linesRun + 1, todo := rest }
  | .checkQuit => { s with todo := (if s.quitRequested then closing else [.takeLine]) ++ rest }
  | .takeLine =>
    match s.queue with
    | [] => { s with todo := .checkQuit :: rest }
    | line :: queue =>
      let (actions, notes) := respond s.config line
      { s with queue, todo := actions ++ rest, log := s.log ++ notes }
  | .release => { s with handlesInterrupts := false, todo := rest }
  | .summarise =>
    let note : LogEntry :=
      ⟨.debug, .session, "REPL finished after " ++ toString s.linesRun ++ " lines"⟩
    { s with log := s.log ++ [note], todo := rest }

def step (s : Session) : Event → Session
  | .deliver =>
    match s.unread with
    | [] => s
    | line :: unread => { s with unread, queue := s.queue ++ [line] }
  | .advance =>
    match s.todo with
    | [] => s
    | action :: rest => s.perform rest action
  | .signal .quit => { s with quitRequested := true }
  | .signal .interrupt =>
    if s.handlesInterrupts then { s.record "\n" with quitRequested := true } else s

def deliverAll (s : Session) : Session := { s with unread := [], queue := s.queue ++ s.unread }

/-- Whether the main party has nothing to do: it has finished, or waits for a line. -/
def isIdle (s : Session) : Bool :=
  match s.todo with
  | [] => true
  | .takeLine :: _ => s.queue.isEmpty
  | _ => false

/-- A signal that falls right after a text is shown, the texts counted from one. -/
structure Interruption where
  afterShown : Nat
  signal : Signal
deriving DecidableEq, Repr

/-! ### Working until idle -/

/-- How much an action leaves to do: a look at the flag leads to one more action or to the three of
the closing. -/
def weight : Action → Nat
  | .checkQuit => 4
  | _ => 1

/-- How much the main party has begun. -/
def load (s : Session) : Nat := s.todo.foldr (weight · + ·) 0

theorem advance_decreases {s : Session} (h : s.isIdle = false) :
    (s.step .advance).queue.length < s.queue.length ∨
      (s.step .advance).queue = s.queue ∧ (s.step .advance).load < s.load := by
  unfold isIdle at h
  cases ht : s.todo with
  | nil => simp [ht] at h
  | cons action rest =>
    cases action with
    | takeLine =>
      cases hq : s.queue with
      | nil => simp [ht, hq] at h
      | cons line queue => simp [step, ht, perform, hq]
    | checkQuit =>
      refine .inr ⟨by simp [step, ht, perform], ?_⟩
      simp only [step, ht, perform, load]
      split
      · simp only [closing, List.cons_append, List.nil_append, List.foldr_cons, weight]
        omega
      · simp [weight]
    | _ => simp [step, ht, perform, load, weight, record]

/-- Applies an interruption if the text it waits for has been shown since `before` texts. -/
def interruptIfDue (i : Option Interruption) (before : Nat) (s : Session) : Session :=
  match i with
  | none => s
  | some ⟨after, signal⟩ =>
    if before < after ∧ after = s.transcript.length then s.step (.signal signal) else s

theorem step_signal_queue (s : Session) (signal : Signal) :
    (s.step (.signal signal)).queue = s.queue := by
  cases signal with
  | quit => rfl
  | interrupt =>
    simp only [step]
    split <;> rfl

theorem step_signal_load (s : Session) (signal : Signal) :
    (s.step (.signal signal)).load = s.load := by
  cases signal with
  | quit => rfl
  | interrupt =>
    simp only [step]
    split <;> rfl

theorem interruptIfDue_queue (i : Option Interruption) (before : Nat) (s : Session) :
    (interruptIfDue i before s).queue = s.queue := by
  unfold interruptIfDue
  repeat' split
  · rfl
  · exact step_signal_queue s _
  · rfl

theorem interruptIfDue_load (i : Option Interruption) (before : Nat) (s : Session) :
    (interruptIfDue i before s).load = s.load := by
  unfold interruptIfDue
  repeat' split
  · rfl
  · exact step_signal_load s _
  · rfl

/-- The main party works until it is idle; the interruption falls where it is due. -/
def settle (i : Option Interruption) (s : Session) : Session :=
  if _idle : s.isIdle then s
  else settle i (interruptIfDue i s.transcript.length (s.step .advance))
termination_by (s.queue.length, s.load)
decreasing_by
  rw [interruptIfDue_queue, interruptIfDue_load]
  rcases advance_decreases (by simpa using _idle) with hq | ⟨hq, hl⟩
  · exact Prod.Lex.left _ _ hq
  · rw [hq]
    exact Prod.Lex.right _ hl

end Session

end Lox
