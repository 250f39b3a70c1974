import Z80.Processor.Step

/-!
# Runs

Steps in a row: a number of them, or as many as it takes to use up a budget of clock cycles. Either
way a fault ends the run. A budget is always used up, for only a reset is free and a reset is not
requested twice in a row (`Processor.result_step`).
-/

namespace Z80

/-- What a run added up to, the processor after it, and the fault that ended it, if one did. -/
structure Run (β : Type) where
  processor : Processor β
  steps : Nat := 0
  cycles : Nat := 0
  fault? : Option Fault := none
  history : Array Observation := #[]

namespace Run

variable {β : Type}

/-- Takes up one more step. A step that faults is not counted, but its fault ends the run. -/
def extend (r : Run β) (s : Step β) : Run β :=
  match s.result with
  | .ok outcome =>
    { r with
      processor := s.processor
      steps := r.steps + 1
      cycles := r.cycles + outcome.cycles
      history := r.history.appendList s.trace }
  | .error fault =>
    { r with
      processor := s.processor
      fault? := some fault
      history := r.history.appendList s.trace }

/-- An upper bound for the number of steps that are left before the budget is used up. -/
def remaining (r : Run β) (budget : Nat) : Nat :=
  (budget - r.cycles) + (if r.processor.lines.resetRequested then 1 else 0)

/-- A step without a fault brings a run nearer to its budget, or carries out the reset that stood in
the way. -/
theorem remaining_extend_lt [Bus β] {r : Run β} {budget : Nat} (hb : r.cycles < budget)
    (hf : (r.extend r.processor.step).fault? = none) :
    (r.extend r.processor.step).remaining budget < r.remaining budget := by
  have hreset := r.processor.resetRequested_step
  unfold extend at hf ⊢
  split at hf
  case h_1 outcome ho =>
    simp only [remaining, hreset]
    rcases r.processor.result_step ho with ⟨hr, rfl⟩ | ⟨hr, hc⟩
    · simp only [hr, StepOutcome.cycles, if_true, Bool.false_eq_true, if_false]
      omega
    · simp only [hr, Bool.false_eq_true, if_false]
      omega
  case h_2 => cases hf

/-- Goes on until the budget is used up or a step faults. -/
def untilBudget [Bus β] (r : Run β) (budget : Nat) : Run β :=
  if r.cycles < budget then
    let next := r.extend r.processor.step
    if next.fault?.isSome then next else next.untilBudget budget
  else r
termination_by r.remaining budget
decreasing_by
  rename_i hb hf
  exact remaining_extend_lt hb (Option.not_isSome_iff_eq_none.mp hf)

section

variable [Bus β] {r : Run β} {budget : Nat}

/-- A run that has reached its budget goes no further. -/
theorem untilBudget_of_le (reached : budget ≤ r.cycles) : r.untilBudget budget = r := by
  rw [untilBudget, if_neg (Nat.not_lt_of_le reached)]

/-- A run ends with the step that faults. -/
theorem untilBudget_of_isSome (left : r.cycles < budget)
    (faulted : (r.extend r.processor.step).fault?.isSome) :
    r.untilBudget budget = r.extend r.processor.step := by
  rw [untilBudget, if_pos left, if_pos faulted]

/-- A run that has not reached its budget goes on after a step without a fault. -/
theorem untilBudget_of_not_isSome (left : r.cycles < budget)
    (going : ¬ (r.extend r.processor.step).fault?.isSome) :
    r.untilBudget budget = (r.extend r.processor.step).untilBudget budget := by
  rw [untilBudget, if_pos left, if_neg going]

end

end Run

namespace Processor

variable {β : Type}

/-- Steps until at least the budget of clock cycles has been charged, or to the first fault. -/
def runFor [Bus β] (p : Processor β) (budget : Nat) : Run β :=
  Run.untilBudget { processor := p } budget

/-- At most `n` steps, up to and with the first that faults. -/
def steps [Bus β] : Nat → Processor β → List (Step β)
  | 0, _ => []
  | n + 1, p =>
    let s := p.step
    match s.result with
    | .ok _ => s :: steps n s.processor
    | .error _ => [s]

end Processor

end Z80
