import Mathlib.Data.List.Basic

/-! Runs of a step function that can fail: what every step keeps, and conditions on the events along a run. -/

namespace Runs

variable {σ ε φ : Type}

/-- The state after a sequence of events, or how one of them has failed. -/
def run (step : σ → ε → Except φ σ) : σ → List ε → Except φ σ
  | s, [] => .ok s
  | s, event :: events =>
      match step s event with
      | .ok s' => run step s' events
      | .error failure => .error failure

/-- What is noted down along the sequence: a history variable. -/
def record {γ : Type} (step : σ → ε → Except φ σ) (note : σ → ε → γ → γ) : σ → List ε → γ → γ
  | _, [], history => history
  | s, event :: events, history =>
      match step s event with
      | .ok s' => record step note s' events (note s event history)
      | .error _ => history

/-- Every event meets the condition in the state in which it happens. -/
def Along (step : σ → ε → Except φ σ) (cond : σ → ε → Prop) : σ → List ε → Prop
  | _, [] => True
  | s, event :: events => cond s event ∧
      match step s event with
      | .ok s' => Along step cond s' events
      | .error _ => True

instance (step : σ → ε → Except φ σ) (cond : σ → ε → Prop) [∀ s event, Decidable (cond s event)] :
    (s : σ) → (events : List ε) → Decidable (Along step cond s events)
  | _, [] => isTrue trivial
  | s, event :: events =>
      match hstep : step s event with
      | .ok s' =>
          have := instDecidableAlong step cond s' events
          decidable_of_iff (cond s event ∧ Along step cond s' events) (by rw [Along, hstep])
      | .error _ => decidable_of_iff (cond s event) (by rw [Along, hstep, and_true])

variable {step : σ → ε → Except φ σ} {cond : σ → ε → Prop} {s s' : σ} {event : ε} {events : List ε}

theorem run_nil (hrun : run step s [] = .ok s') : s' = s := (Except.ok.inj hrun).symm

theorem run_cons (hrun : run step s (event :: events) = .ok s') :
    ∃ mid, step s event = .ok mid ∧ run step mid events = .ok s' := by
  rw [run] at hrun
  cases hstep : step s event with
  | ok mid =>
      rw [hstep] at hrun
      exact ⟨mid, rfl, hrun⟩
  | error failure =>
      rw [hstep] at hrun
      cases hrun

theorem Along.first (halong : Along step cond s (event :: events)) : cond s event := halong.1

theorem Along.rest (halong : Along step cond s (event :: events)) {mid : σ} (hstep : step s event = .ok mid) :
    Along step cond mid events := by
  have hrest := halong.2
  rw [hstep] at hrest
  exact hrest

theorem Along.of_mem (hcond : ∀ event ∈ events, ∀ s, cond s event) (s : σ) : Along step cond s events := by
  induction events generalizing s with
  | nil => trivial
  | cons event events ih =>
      refine ⟨hcond event List.mem_cons_self s, ?_⟩
      split
      · exact ih (fun later hmem => hcond later (List.mem_cons_of_mem event hmem)) _
      · trivial

theorem Along.of_forall (hcond : ∀ s event, cond s event) (s : σ) (events : List ε) :
    Along step cond s events := .of_mem (fun event _ s => hcond s event) s

/-- What every event of the run keeps under the condition holds after it. -/
theorem run_invariant (inv : σ → Prop)
    (hkeep : ∀ {s s' event}, event ∈ events → inv s → cond s event → step s event = .ok s' → inv s')
    (hinv : inv s) (halong : Along step cond s events) (hrun : run step s events = .ok s') : inv s' := by
  induction events generalizing s with
  | nil =>
      rw [run_nil hrun]
      exact hinv
  | cons event events ih =>
      obtain ⟨mid, hstep, hrun⟩ := run_cons hrun
      have hmid : inv mid := hkeep List.mem_cons_self hinv halong.first hstep
      exact ih (fun hmem => hkeep (List.mem_cons_of_mem event hmem)) hmid (halong.rest hstep) hrun

/-- What every step keeps between the state and the history variable. -/
theorem run_record {γ : Type} (note : σ → ε → γ → γ) (inv : γ → σ → Prop)
    (hkeep : ∀ {history s s' event}, inv history s → cond s event → step s event = .ok s' →
      inv (note s event history) s')
    {history : γ} (hinv : inv history s) (halong : Along step cond s events) (hrun : run step s events = .ok s') :
    inv (record step note s events history) s' := by
  induction events generalizing s history with
  | nil =>
      rw [run_nil hrun]
      exact hinv
  | cons event events ih =>
      obtain ⟨mid, hstep, hrun⟩ := run_cons hrun
      rw [record, hstep]
      exact ih (hkeep hinv halong.first hstep) (halong.rest hstep) hrun

/-- What every step keeps anyway. -/
theorem run_keeps (inv : σ → Prop) (hkeep : ∀ {s s' event}, inv s → step s event = .ok s' → inv s')
    (hinv : inv s) (hrun : run step s events = .ok s') : inv s' := by
  induction events generalizing s with
  | nil =>
      rw [run_nil hrun]
      exact hinv
  | cons event events ih =>
      obtain ⟨mid, hstep, hrun⟩ := run_cons hrun
      exact ih (hkeep hinv hstep) hrun

end Runs
