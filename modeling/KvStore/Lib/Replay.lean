import KvStore.Lib.Scan

/-!
# Replaying a log

A log is read by a scanner that takes one entry at a time, and every entry is a
step that may fail. `Replays` relates the state before the log, the log and the
state after it; a log that ends within an entry or with a step that fails has
no state after it.
-/

namespace Lib

/-- Reading `log` entry by entry leads from one state to another. -/
inductive Replays (p : List τ → Scan τ α) (step : σ → α → Option σ) : σ → List τ → σ → Prop
  | done (s : σ) : Replays p step s [] s
  | next : p log = .done a rest → step s a = some s₁ → Replays p step s₁ rest s₂ →
    Replays p step s log s₂

namespace Replays

variable {p : List τ → Scan τ α} {step : σ → α → Option σ}

theorem append (hp : Online p) (h : Replays p step s log s₁) (h' : Replays p step s₁ log' s₂) :
    Replays p step s (log ++ log') s₂ := by
  induction h with
  | done => exact h'
  | next hread hstep _ ih => exact .next (hp.done hread log') hstep (ih h')

theorem snoc (hp : Online p) (h : Replays p step s log s₁) (hread : p entry = .done a [])
    (hstep : step s₁ a = some s₂) : Replays p step s (log ++ entry) s₂ :=
  h.append hp (.next hread hstep (.done s₂))

theorem cases_log (h : Replays p step s log s₂) :
    log = [] ∧ s₂ = s ∨
      ∃ a rest s₁, p log = .done a rest ∧ step s a = some s₁ ∧ Replays p step s₁ rest s₂ := by
  cases h with
  | done => exact .inl ⟨rfl, rfl⟩
  | next hread hstep hrest => exact .inr ⟨_, _, _, hread, hstep, hrest⟩

/-- The state after a log is determined if no entry is empty. -/
theorem unique (hp : p [] = .more) (h : Replays p step s log s₁) (h' : Replays p step s log s₂) :
    s₁ = s₂ := by
  induction h generalizing s₂ with
  | done =>
    obtain ⟨-, rfl⟩ | ⟨a, rest, s', hread, -⟩ := h'.cases_log
    · rfl
    · rw [hp] at hread
      cases hread
  | next hread hstep _ ih =>
    obtain ⟨rfl, -⟩ | ⟨a, rest, s', hread', hstep', hrest⟩ := h'.cases_log
    · rw [hp] at hread
      cases hread
    · rw [hread] at hread'
      cases hread'
      rw [hstep] at hstep'
      cases hstep'
      exact ih hrest

end Replays

end Lib
