/-!
# Two runs in step

A lower limit or a stricter setting cuts a run short and changes nothing else.  Until it stops, the
shorter run does what the longer one does, and it stops with a fault of its own.  `InStep` says this
of two runs from the same state, and `InStep.bind` says that runs in step stay in step when others
in step follow them.

When the shorter run has stopped, the longer one goes on.  What it does then is of no interest, save
that the state moves one way only.  So the relation carries with it how the state may move, and this
is all that is asked of the longer run by itself.
-/

namespace Lox

variable {ε σ α β : Type}

def finalState : EStateM.Result ε σ α → σ
  | .ok _ s => s
  | .error _ s => s

/-- **Two runs in step.**  From every state `m` ends as `m'` does, or it stops with a fault of the
kind given and the state moves on from there to where `m'` leaves it. -/
structure InStep (stops : ε → Prop) (moves : σ → σ → Prop) (m m' : EStateM ε σ α) : Prop where
  onward : ∀ s, moves s (finalState (m' s))
  agrees : ∀ s, m s = m' s ∨
    ∃ fault s₁, m s = .error fault s₁ ∧ stops fault ∧ moves s₁ (finalState (m' s))

namespace InStep

variable {stops : ε → Prop} {moves : σ → σ → Prop} {m m' : EStateM ε σ α}
  {f f' : α → EStateM ε σ β}

theorem refl (h : ∀ s, moves s (finalState (m s))) : InStep stops moves m m where
  onward := h
  agrees _ := .inl rfl

/-- A run that stops at once is in step with every run that moves one way only. -/
theorem stop (hstop : ∀ s, ∃ fault, m s = .error fault s ∧ stops fault)
    (h : ∀ s, moves s (finalState (m' s))) : InStep stops moves m m' where
  onward := h
  agrees s := by
    obtain ⟨fault, hm, hfault⟩ := hstop s
    exact .inr ⟨fault, s, hm, hfault, h s⟩

theorem onward_bind (hrefl : ∀ s, moves s s) (hf : ∀ a, InStep stops moves (f a) (f' a)) (s : σ) :
    moves (finalState (m' s)) (finalState ((m' >>= f') s)) := by
  show moves _ (finalState (EStateM.bind m' f' s))
  rw [EStateM.bind]
  cases m' s with
  | ok a s₁ => exact (hf a).onward s₁
  | error fault s₁ => exact hrefl s₁

/-- **Runs in step that go on in step are in step.** -/
theorem bind (hrefl : ∀ s, moves s s) (htrans : ∀ {a b c}, moves a b → moves b c → moves a c)
    (h : InStep stops moves m m') (hf : ∀ a, InStep stops moves (f a) (f' a)) :
    InStep stops moves (m >>= f) (m' >>= f') where
  onward s := htrans (h.onward s) (onward_bind hrefl hf s)
  agrees s := by
    rcases h.agrees s with heq | ⟨fault, s₁, hstop, hfault, hmoves⟩
    · show EStateM.bind m f s = EStateM.bind m' f' s ∨ ∃ fault s₁,
        EStateM.bind m f s = .error fault s₁ ∧ stops fault ∧
          moves s₁ (finalState (EStateM.bind m' f' s))
      rw [EStateM.bind, EStateM.bind, heq]
      cases m' s with
      | ok a s₁ => exact (hf a).agrees s₁
      | error fault s₁ => exact .inl rfl
    · right
      refine ⟨fault, s₁, ?_, hfault, htrans hmoves (onward_bind hrefl hf s)⟩
      show EStateM.bind m f s = .error fault s₁
      rw [EStateM.bind, hstop]

end InStep

end Lox
