import Mathlib.Logic.Basic

/-! Runs of a system that takes one event after the other. A run whose every step meets a
condition keeps what each such step keeps. -/

namespace Effects

variable {σ ε : Type}

/-- The state after the events, unless one of them cannot happen where it stands. -/
def runEvents (step : σ → ε → Option σ) : σ → List ε → Option σ
  | state, [] => some state
  | state, event :: rest => (step state event).bind fun next => runEvents step next rest

def EveryStep (step : σ → ε → Option σ) (condition : σ → ε → Prop) : σ → List ε → Prop
  | _, [] => True
  | state, event :: rest => condition state event ∧ ∀ next, step state event = some next → EveryStep step condition next rest

variable {step : σ → ε → Option σ} {condition : σ → ε → Prop} {state last : σ} {events : List ε}

theorem runEvents_cons :
    runEvents step state (event :: rest) = some last ↔ ∃ next, step state event = some next ∧ runEvents step next rest = some last :=
  Option.bind_eq_some_iff

theorem runEvents_keeps {inv : σ → Prop}
    (keeps : ∀ state event next, inv state → condition state event → step state event = some next → inv next)
    (holds : inv state) (met : EveryStep step condition state events) (ran : runEvents step state events = some last) : inv last := by
  induction events generalizing state with
  | nil =>
    cases ran
    exact holds
  | cons event rest ih =>
    obtain ⟨next, stepped, ran⟩ := runEvents_cons.mp ran
    exact ih (keeps state event next holds met.1 stepped) (met.2 next stepped) ran

theorem everyStep_true (events) : EveryStep step (fun _ _ => True) state events := by
  induction events generalizing state with
  | nil => trivial
  | cons event rest ih => exact ⟨trivial, fun next _ => ih⟩

end Effects
