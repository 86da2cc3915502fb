import Lox.Proofs.Schedule

/-!
# Sessions that are asked to quit

A session may be asked to quit at any time, by a call or by an interrupt.  The main party finds the
flag up when it looks at it next; only if it is past that look, waiting for a line, does it take one
more.  `Poised` says that it is either just there or has a look ahead of it, and with the flag up it
comes there no more: so at most one line is taken (`length_takenDuring_le_one`), and the session is
over after a number of its steps that the others cannot put off (`todo_of_stepsLeft_le`).

What it has shown by then is read off `Progress`: whole blocks of lines in the order of the input,
and one closing.  An interrupt shows an empty text of its own in between; `spokenDuring` tells who
shows what.
-/

namespace Lox

namespace Session

/-! ### What is taken and what is shown -/

/-- The line that the main party takes in a step, if any; `none` stands for the end mark. -/
def takenBy (s : Session) : Event → List (Option String)
  | .advance => if s.todo.head? = some .takeLine then s.queue.take 1 else []
  | _ => []

def takenDuring (s : Session) : List Event → List (Option String)
  | [] => []
  | event :: events => s.takenBy event ++ (s.step event).takenDuring events

inductive Speaker
  | mainParty | interrupt
deriving DecidableEq

/-- The text shown in a step, if any.  An interrupt that is handled shows an empty one. -/
def spokenBy (s : Session) : Event → List (Speaker × String)
  | .signal .interrupt => if s.handlesInterrupts then [(.interrupt, "\n")] else []
  | event => (s.shownBy event).map (Speaker.mainParty, ·)

def spokenDuring (s : Session) : List Event → List (Speaker × String)
  | [] => []
  | event :: events => s.spokenBy event ++ (s.step event).spokenDuring events

def withoutInterrupts (spoken : List (Speaker × String)) : List String :=
  (spoken.filter (·.1 = .mainParty)).map Prod.snd

/-- A line has been taken, and not all of its block has been shown. -/
def AtWork (config : Config) (start : Session) (events : List Event) : Prop :=
  ∃ earlier later line, events = earlier ++ .advance :: later ∧
    (start.after earlier).takenBy .advance = [some line] ∧
    ((start.after earlier).shownDuring (.advance :: later)).length < (block config line).length

/-- **A session that quits cleanly**, whenever it is asked to. -/
structure QuitsCleanly (config : Config) (input : List (Option String)) (start : Session)
    (events : List Event) : Prop where
  /-- Once the flag is up, one more line is taken at most. -/
  taken_le_one : ∀ before later, events = before ++ later →
    (start.after before).quitRequested = true →
    ((start.after before).takenDuring later).length ≤ 1
  /-- None is taken if the main party has yet to look at the flag for the first time, which is its
  second step, or is at work on a line, or has a look at the flag ahead of it, as it has between the
  prompt that ends a block and the next line. -/
  taken_none : ∀ before later, events = before ++ later →
    (start.after before).quitRequested = true →
    before.count .advance ≤ 1 ∨ AtWork config start before ∨
      .checkQuit ∈ (start.after before).todo →
    (start.after before).takenDuring later = []
  /-- Then the session ends after some steps of the main party, whatever the others do. -/
  ends : (start.after events).quitRequested = true →
    ∃ n, ∀ later, n ≤ later.count .advance → ((start.after events).after later).todo = []
  /-- All texts shown are the main party's and those of the interrupts. -/
  transcript : (start.after events).transcript.map Prod.fst =
    (start.spokenDuring events).map Prod.snd
  /-- A session that has ended has run each line that it took to the end of its block.  Either the
  last line ended it, and it has shown all that it shows without a signal; or the flag did, and it
  has shown the blocks and one closing. -/
  finished : (start.after events).todo = [] → ∃ lines,
    (∀ line ∈ lines, endsSession (some line) = false) ∧
    (start.after events).linesRun = lines.countP (!isBlank ·) ∧
    ((∃ last, endsSession last = true ∧ start.takenDuring events = lines.map some ++ [last] ∧
        lines = linesBeforeEnd input ∧
        withoutInterrupts (start.spokenDuring events) = config.prompt :: answers config input) ∨
      (start.takenDuring events = lines.map some ∧ lines.map some <+: input ∧
        withoutInterrupts (start.spokenDuring events) =
          config.prompt :: (lines.flatMap (block config) ++ ["Exiting...\n"])))

/-! ### Accounts of a run -/

theorem shownDuring_append (s : Session) (events events' : List Event) :
    s.shownDuring (events ++ events') =
      s.shownDuring events ++ (s.after events).shownDuring events' := by
  induction events generalizing s with
  | nil => rfl
  | cons event events ih =>
    rw [List.cons_append, shownDuring, shownDuring, ih, List.append_assoc]
    rfl

theorem takenDuring_append (s : Session) (events events' : List Event) :
    s.takenDuring (events ++ events') =
      s.takenDuring events ++ (s.after events).takenDuring events' := by
  induction events generalizing s with
  | nil => rfl
  | cons event events ih =>
    rw [List.cons_append, takenDuring, takenDuring, ih, List.append_assoc]
    rfl

theorem untouched_step {event : Event} (h : event ≠ .advance) (s : Session) :
    Untouched s (s.step event) := by
  cases event with
  | deliver => exact untouched_deliver s
  | signal signal => exact untouched_signal s signal
  | advance => exact absurd rfl h

theorem takenBy_of_ne {event : Event} (h : event ≠ .advance) (s : Session) :
    s.takenBy event = [] := by
  cases event with
  | advance => exact absurd rfl h
  | _ => rfl

theorem takenBy_pending (s : Session) (event : Event) :
    s.takenBy event ++ ((s.step event).queue ++ (s.step event).unread) = s.queue ++ s.unread := by
  by_cases hevent : event = .advance
  · subst hevent
    rw [unread_advance]
    cases htodo : s.todo with
    | nil => simp [takenBy, step, htodo]
    | cons a rest =>
      cases a with
      | takeLine => cases hqueue : s.queue <;> simp [takenBy, step, htodo, perform, hqueue]
      | _ => simp [takenBy, step, htodo, perform, record]
  · rw [takenBy_of_ne hevent, List.nil_append, (untouched_step hevent s).pending]

/-- What has been taken and what is still to come are the input. -/
theorem takenDuring_pending (s : Session) (events : List Event) :
    s.takenDuring events ++ ((s.after events).queue ++ (s.after events).unread) =
      s.queue ++ s.unread := by
  induction events generalizing s with
  | nil => rfl
  | cons event events ih =>
    rw [takenDuring, List.append_assoc, ← takenBy_pending s event, ← ih (s.step event)]
    rfl

theorem transcript_step (s : Session) (event : Event) :
    (s.step event).transcript.map Prod.fst =
      s.transcript.map Prod.fst ++ (s.spokenBy event).map Prod.snd := by
  cases event with
  | deliver => simpa [spokenBy, shownBy] using (step_of_quiet (.inl rfl) s).1
  | advance => simpa [spokenBy, Function.comp_def] using (step_of_quiet (.inr rfl) s).1
  | signal signal =>
    cases signal with
    | quit => simp [spokenBy, shownBy, step]
    | interrupt =>
      rw [spokenBy, step]
      split <;> simp [record]

theorem transcript_after (s : Session) (events : List Event) :
    (s.after events).transcript.map Prod.fst =
      s.transcript.map Prod.fst ++ (s.spokenDuring events).map Prod.snd := by
  induction events generalizing s with
  | nil => simp [after, spokenDuring]
  | cons event events ih =>
    rw [spokenDuring, List.map_append, ← List.append_assoc, ← transcript_step, ← ih]
    rfl

theorem withoutInterrupts_spokenBy (s : Session) (event : Event) :
    withoutInterrupts (s.spokenBy event) = s.shownBy event := by
  cases event with
  | deliver => rfl
  | advance => simp [withoutInterrupts, spokenBy, List.filter_map, Function.comp_def]
  | signal signal =>
    cases signal with
    | quit => rfl
    | interrupt =>
      rw [spokenBy]
      split <;> rfl

theorem withoutInterrupts_spokenDuring (s : Session) (events : List Event) :
    withoutInterrupts (s.spokenDuring events) = s.shownDuring events := by
  induction events generalizing s with
  | nil => rfl
  | cons event events ih =>
    rw [spokenDuring, shownDuring, ← withoutInterrupts_spokenBy, ← ih, withoutInterrupts,
      List.filter_append, List.map_append]
    rfl

/-! ### Looks at the flag -/

/-- The main party is past its look at the flag, or has to look before it takes a line. -/
def Poised (s : Session) : Prop := s.todo = [.takeLine] ∨ .takeLine ∉ s.todo

theorem takeLine_not_mem_respond (config : Config) (line : Option String) :
    .takeLine ∉ (respond config line).1 := by
  intro hmem
  by_cases hends : endsSession line = true
  · cases (respond_of_ends hends config).1 _ hmem
  · cases line with
    | none => exact hends rfl
    | some line =>
      obtain ⟨plain, hrespond, hwaits, -⟩ := respond_of_goesOn (Bool.of_not_eq_true hends) config
      rw [hrespond] at hmem
      rcases List.mem_append.mp hmem with hmem | hmem
      · cases hwaits _ hmem
      · cases List.mem_singleton.mp hmem

section

variable {config : Config} {input : List (Option String)} {shown : List String} {s : Session}

theorem quitRequested_step (h : s.quitRequested = true) (event : Event) :
    (s.step event).quitRequested = true := by
  by_cases hevent : event = .advance
  · exact (step_of_quiet (.inr hevent) s).2.trans h
  · exact (untouched_step hevent s).quitRequested h

/-- A line is taken or not; either way the next one needs another look at the flag. -/
theorem takeLine_not_mem_advance (h : s.todo = [.takeLine]) :
    .takeLine ∉ (s.step .advance).todo := by
  cases hqueue : s.queue with
  | nil => simp [step, h, perform, hqueue]
  | cons line queue =>
    simpa [step, h, perform, hqueue] using takeLine_not_mem_respond s.config line

/-- Behind its look at the flag the main party has planned nothing yet. -/
theorem Progress.checkQuit_last {rest : List Action} (h : Progress config input s shown)
    (htodo : s.todo = .checkQuit :: rest) : rest = [] := by
  cases h with
  | working lines plain wait _ htodo' _ _ h =>
    cases plain with
    | nil =>
      rw [htodo, List.nil_append] at htodo'
      exact (List.cons.inj htodo').2
    | cons a plain =>
      rw [htodo] at htodo'
      obtain ⟨rfl, -⟩ := List.cons.inj htodo'
      cases h.waits _ (List.mem_cons_self ..)
  | leaving lines ending farewell _ _ _ h =>
    rw [htodo] at h
    cases h.waits _ (List.mem_cons_self ..)

theorem Poised.step (h : Poised s) (hprogress : Progress config input s shown) (event : Event) :
    Poised (s.step event) := by
  by_cases hevent : event = .advance
  · subst hevent
    rcases h with h | h
    · exact .inr (takeLine_not_mem_advance h)
    · cases htodo : s.todo with
      | nil => exact .inr (by simp [Session.step, htodo])
      | cons a rest =>
        rw [htodo] at h
        cases a with
        | takeLine => exact absurd (List.mem_cons_self ..) h
        | checkQuit =>
          obtain rfl := hprogress.checkQuit_last htodo
          by_cases hquit : s.quitRequested = true
          · exact .inr (by simp [Session.step, htodo, perform, hquit, closing])
          · exact .inl (by simp [Session.step, htodo, perform, hquit])
        | _ =>
          refine .inr fun hmem => h (List.mem_cons_of_mem _ ?_)
          simpa [Session.step, htodo, perform] using hmem
  · rw [Poised, (untouched_step hevent s).todo]
    exact h

theorem poised_new (config : Config) (input : List (Option String)) (handlesInterrupts : Bool) :
    Poised (new config input handlesInterrupts) :=
  .inr (by simp [new, proceed])

theorem Poised.after (h : Poised s) (hprogress : Progress config input s shown)
    (events : List Event) : Poised (s.after events) := by
  induction events generalizing s shown with
  | nil => exact h
  | cons event events ih => exact ih (h.step hprogress event) (hprogress.step event)

/-! ### With the flag up -/

theorem takeLine_not_mem_step (hquit : s.quitRequested = true) (h : .takeLine ∉ s.todo)
    (event : Event) : .takeLine ∉ (s.step event).todo := by
  by_cases hevent : event = .advance
  · subst hevent
    cases htodo : s.todo with
    | nil => simp [step, htodo]
    | cons a rest =>
      rw [htodo, List.mem_cons, not_or] at h
      cases a with
      | takeLine => exact absurd rfl h.1
      | checkQuit => simpa [step, htodo, perform, hquit, closing] using h.2
      | _ => simpa [step, htodo, perform] using h.2
  · rw [(untouched_step hevent s).todo]
    exact h

theorem takenBy_eq_nil (h : .takeLine ∉ s.todo) (event : Event) : s.takenBy event = [] := by
  by_cases hevent : event = .advance
  · rw [hevent, takenBy, if_neg]
    exact fun hhead => h (List.mem_of_head? hhead)
  · exact takenBy_of_ne hevent s

theorem takenDuring_eq_nil (hquit : s.quitRequested = true) (h : .takeLine ∉ s.todo)
    (events : List Event) : s.takenDuring events = [] := by
  induction events generalizing s with
  | nil => rfl
  | cons event events ih =>
    rw [takenDuring, takenBy_eq_nil h, List.nil_append]
    exact ih (quitRequested_step hquit event) (takeLine_not_mem_step hquit h event)

/-- **One more line is taken at most.** -/
theorem length_takenDuring_le_one (hquit : s.quitRequested = true) (h : Poised s)
    (events : List Event) : (s.takenDuring events).length ≤ 1 := by
  rcases h with h | h
  · induction events generalizing s with
    | nil => exact Nat.zero_le _
    | cons event events ih =>
      by_cases hevent : event = .advance
      · subst hevent
        rw [takenDuring, takenDuring_eq_nil (quitRequested_step hquit _)
          (takeLine_not_mem_advance h), List.append_nil, takenBy]
        split
        · exact List.length_take_le ..
        · exact Nat.zero_le _
      · rw [takenDuring, takenBy_of_ne hevent, List.nil_append]
        exact ih (quitRequested_step hquit event) ((untouched_step hevent s).todo.trans h)
  · rw [takenDuring_eq_nil hquit h]
    exact Nat.zero_le _

/-! ### The end comes -/

def cost (actions : List Action) : Nat := actions.foldr (weight · + ·) 0

def nextCost (s : Session) : Nat :=
  (s.queue ++ s.unread).head?.elim 0 fun line => cost (respond s.config line).1

/-- How many steps the main party has left if the flag is up. -/
def stepsLeft (s : Session) : Nat :=
  if s.todo = [.takeLine] then 5 + s.nextCost else cost s.todo

theorem stepsLeft_of_not_mem (h : .takeLine ∉ s.todo) : s.stepsLeft = cost s.todo := by
  rw [stepsLeft, if_neg]
  intro htodo
  simp [htodo] at h

theorem stepsLeft_step_of_ne {event : Event} (h : event ≠ .advance) (s : Session) :
    (s.step event).stepsLeft = s.stepsLeft := by
  have hs := untouched_step h s
  rw [stepsLeft, stepsLeft, nextCost, nextCost, hs.todo, hs.pending, hs.config]

/-- Each step of the main party brings the end nearer. -/
theorem stepsLeft_advance (hquit : s.quitRequested = true) (h : Poised s) (htodo : s.todo ≠ []) :
    (s.step .advance).stepsLeft < s.stepsLeft := by
  rcases h with h | h
  · rw [stepsLeft_of_not_mem (takeLine_not_mem_advance h), stepsLeft, if_pos h]
    cases hqueue : s.queue with
    | nil =>
      have hcost : cost (s.step .advance).todo = 4 := by
        simp [step, h, perform, hqueue, cost, weight]
      omega
    | cons line queue =>
      have hcost : cost (s.step .advance).todo = s.nextCost := by
        simp [step, h, perform, hqueue, nextCost]
      omega
  · rw [stepsLeft_of_not_mem (takeLine_not_mem_step hquit h _), stepsLeft_of_not_mem h]
    obtain ⟨a, rest, htodo⟩ := List.exists_cons_of_ne_nil htodo
    rw [htodo] at h ⊢
    cases a with
    | takeLine => exact absurd (List.mem_cons_self ..) h
    | checkQuit =>
      simp only [step, htodo, perform, hquit, if_true, closing, cost, List.cons_append,
        List.nil_append, List.foldr_cons, weight]
      omega
    | _ => simp [step, htodo, perform, cost, weight]

/-- **The session is over after so many steps of the main party.** -/
theorem todo_of_stepsLeft_le (hquit : s.quitRequested = true) (h : Poised s)
    (hprogress : Progress config input s shown) (events : List Event)
    (hcount : s.stepsLeft ≤ events.count .advance) : (s.after events).todo = [] := by
  induction events generalizing s shown with
  | nil =>
    -- no step is left, and every action would take one
    by_contra htodo
    have hlt := stepsLeft_advance hquit h htodo
    rw [List.count_nil] at hcount
    omega
  | cons event events ih =>
    refine ih (quitRequested_step hquit event) (h.step hprogress event) (hprogress.step event) ?_
    by_cases hevent : event = .advance
    · subst hevent
      rw [List.count_cons_self] at hcount
      by_cases htodo : s.todo = []
      · have hstep : s.step .advance = s := by simp [step, htodo]
        have hzero : s.stepsLeft = 0 := by simp [stepsLeft, htodo, cost]
        rw [hstep, hzero]
        exact Nat.zero_le _
      · have hlt := stepsLeft_advance hquit h htodo
        omega
    · rw [List.count_cons_of_ne hevent] at hcount
      rw [stepsLeft_step_of_ne hevent]
      exact hcount

/-! ### Where a line can still be taken -/

/-- Actions at which the main party does not wait are done one in each of its steps. -/
theorem todo_after_of_plain {plain rest : List Action} (htodo : s.todo = plain ++ rest)
    (hplain : ∀ a ∈ plain, a.waits = false) (events : List Event)
    (hcount : events.count .advance ≤ plain.length) :
    (s.after events).todo = plain.drop (events.count .advance) ++ rest := by
  induction events generalizing s plain with
  | nil => exact htodo
  | cons event events ih =>
    by_cases hevent : event = .advance
    · subst hevent
      rw [List.count_cons_self] at hcount ⊢
      cases plain with
      | nil => simp at hcount
      | cons a plain =>
        obtain ⟨ha, hplain⟩ := List.forall_mem_cons.mp hplain
        exact ih (todo_advance htodo ha) hplain (Nat.le_of_succ_le_succ hcount)
    · rw [List.count_cons_of_ne hevent] at hcount ⊢
      exact ih ((untouched_step hevent s).todo.trans htodo) hplain hcount

/-- Past its look at the flag the main party has shown the whole blocks of the lines it took. -/
theorem Progress.of_takeLine (h : Progress config input s shown) (htodo : s.todo = [.takeLine]) :
    ∃ lines : List String, input = lines.map some ++ (s.queue ++ s.unread) ∧
      shown = config.prompt :: lines.flatMap (block config) := by
  cases h with
  | working lines plain wait _ htodo' _ hinput h =>
    rw [htodo] at htodo'
    obtain ⟨rfl, -⟩ : plain = [] ∧ wait = .takeLine := by
      simpa [eq_comm] using List.append_eq_singleton_iff.mp htodo'.symm
    have hshown := h.shown_eq
    simp only [texts, List.filterMap_nil, List.append_nil] at hshown
    exact ⟨lines, hinput, hshown⟩
  | leaving lines ending farewell _ _ _ h =>
    rw [htodo] at h
    cases h.waits _ (List.mem_singleton_self _)

/-- A session that has ended has shown the whole blocks of the lines it took, and its farewell. -/
theorem Progress.of_todo_nil (h : Progress config input s shown) (htodo : s.todo = []) :
    ∃ (lines : List String) (ending : List (Option String)) (farewell : List String),
      Leaves s.quitRequested ending farewell ∧
      input = lines.map some ++ ending ++ (s.queue ++ s.unread) ∧
      (∀ line ∈ lines, endsSession (some line) = false) ∧
      s.linesRun = lines.countP (!isBlank ·) ∧
      shown = config.prompt :: (lines.flatMap (block config) ++ farewell) := by
  cases h with
  | working lines plain wait _ htodo' => simp [htodo] at htodo'
  | leaving lines ending farewell _ hleaves hinput h =>
    rw [htodo] at h
    have hshown := h.shown_eq
    simp only [texts, List.filterMap_nil, List.append_nil] at hshown
    rw [← List.append_assoc] at hinput
    exact ⟨lines, ending, farewell, hleaves, hinput, h.goesOn, h.linesRun_eq, hshown⟩

end

section

variable (config : Config) (input : List (Option String)) (handlesInterrupts : Bool)

theorem progress_after (events : List Event) :
    Progress config input ((new config input handlesInterrupts).after events)
      ((new config input handlesInterrupts).shownDuring events) :=
  (progress_new config input handlesInterrupts).after events

theorem poised_after (events : List Event) :
    Poised ((new config input handlesInterrupts).after events) :=
  (poised_new config input handlesInterrupts).after (progress_new config input handlesInterrupts)
    events

variable {config input handlesInterrupts}

/-- The lines taken are told by what is still to come. -/
theorem takenDuring_eq {events : List Event} {taken : List (Option String)}
    (h : input = taken ++ (((new config input handlesInterrupts).after events).queue ++
      ((new config input handlesInterrupts).after events).unread)) :
    (new config input handlesInterrupts).takenDuring events = taken := by
  have hpending := takenDuring_pending (new config input handlesInterrupts) events
  have hinput : (new config input handlesInterrupts).queue ++
      (new config input handlesInterrupts).unread = input := rfl
  rw [hinput] at hpending
  exact List.append_cancel_right (hpending.trans h)

theorem two_le_count_advance {events : List Event}
    (h : ((new config input handlesInterrupts).after events).todo = [.takeLine]) :
    2 ≤ events.count .advance := by
  by_contra hcount
  have hnew : (new config input handlesInterrupts).todo =
      [.echo config.prompt] ++ [.checkQuit] := rfl
  have htodo := todo_after_of_plain hnew (by simp [Action.waits]) events
    (by rw [List.length_singleton]; omega)
  rw [h] at htodo
  have hmem : Action.checkQuit ∈ [Action.takeLine] := by
    rw [htodo]
    exact List.mem_append_right _ (List.mem_singleton_self _)
  cases List.mem_singleton.mp hmem

theorem not_atWork {events : List Event}
    (h : ((new config input handlesInterrupts).after events).todo = [.takeLine]) :
    ¬ AtWork config (new config input handlesInterrupts) events := by
  rintro ⟨earlier, later, line, rfl, htaken, hlength⟩
  have htodo : ((new config input handlesInterrupts).after earlier).todo = [.takeLine] := by
    refine (poised_after config input handlesInterrupts earlier).resolve_right fun hnone => ?_
    rw [takenBy_eq_nil hnone] at htaken
    cases htaken
  -- all blocks are shown now, and those of the lines before this one were shown before
  obtain ⟨lines, hinput, hshown⟩ := (progress_after config input handlesInterrupts _).of_takeLine h
  obtain ⟨lines', hinput', hshown'⟩ :=
    (progress_after config input handlesInterrupts earlier).of_takeLine htodo
  have hlines := takenDuring_eq hinput
  rw [takenDuring_append, takenDuring_eq hinput', takenDuring, htaken] at hlines
  obtain ⟨lines₁, lines₂, rfl, hlines₁, hlines₂⟩ := List.map_eq_append_iff.mp hlines.symm
  obtain rfl : lines₁ = lines' := (List.map_inj_right fun _ _ => Option.some.inj).mp hlines₁
  obtain ⟨line', more, rfl, hline, -⟩ := List.map_eq_cons_iff.mp hlines₂
  obtain rfl : line' = line := Option.some.inj hline
  rw [shownDuring_append, hshown', List.flatMap_append, List.flatMap_cons] at hshown
  have hsince := List.append_cancel_left hshown
  rw [hsince, List.length_append] at hlength
  omega

theorem takenDuring_of_not_waiting {before : List Event}
    (hquit : ((new config input handlesInterrupts).after before).quitRequested = true)
    (h : before.count .advance ≤ 1 ∨ AtWork config (new config input handlesInterrupts) before ∨
      .checkQuit ∈ ((new config input handlesInterrupts).after before).todo)
    (later : List Event) :
    ((new config input handlesInterrupts).after before).takenDuring later = [] := by
  refine takenDuring_eq_nil hquit ?_ later
  refine (poised_after config input handlesInterrupts before).resolve_left fun htodo => ?_
  rcases h with hcount | hwork | hlook
  · have := two_le_count_advance htodo
    omega
  · exact not_atWork htodo hwork
  · rw [htodo] at hlook
    cases List.mem_singleton.mp hlook

/-! ### The whole session -/

/-- **A session quits cleanly, whenever and however often it is asked to.** -/
theorem session_quits_cleanly (config : Config) (input : List (Option String))
    (handlesInterrupts : Bool) (events : List Event) :
    QuitsCleanly config input (new config input handlesInterrupts) events where
  taken_le_one before later _ hquit :=
    length_takenDuring_le_one hquit (poised_after config input handlesInterrupts before) later
  taken_none before later _ hquit h := takenDuring_of_not_waiting hquit h later
  ends hquit := ⟨_, fun later hcount => todo_of_stepsLeft_le hquit
    (poised_after config input handlesInterrupts events)
    (progress_after config input handlesInterrupts events) later hcount⟩
  transcript := transcript_after _ events
  finished htodo := by
    rw [withoutInterrupts_spokenDuring]
    obtain ⟨lines, ending, farewell, hleaves, hinput, hlines, hrun, hshown⟩ :=
      (progress_after config input handlesInterrupts events).of_todo_nil htodo
    have htaken := takenDuring_eq hinput
    refine ⟨lines, hlines, hrun, ?_⟩
    cases hleaves with
    | @line last hends =>
      rw [List.append_assoc, List.singleton_append] at hinput
      refine .inl ⟨last, hends, htaken, ?_, ?_⟩
      · rw [hinput, linesBeforeEnd_append hlines, linesBeforeEnd_of_ends hends, List.append_nil]
      · rw [hshown, ← answers_of_ends hends, ← answers_append hlines, ← hinput]
    | quit =>
      rw [List.append_nil] at htaken hinput
      exact .inr ⟨htaken, ⟨_, hinput.symm⟩, hshown⟩

-- an interrupt while the main party waits: the line that comes next is still run
example : ((new {} [some "nil", some "true", none] true).after
      ([.advance, .advance, .signal .interrupt, .deliver, .deliver] ++
        List.replicate 9 .advance)).transcript.map Prod.fst =
    ["lox > ", "\n", "nil\n", "lox > ", "Exiting...\n"] := by
  decide +kernel

end

end Session

end Lox
