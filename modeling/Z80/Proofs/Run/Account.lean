import Mathlib.Algebra.Order.Floor.Div
import Mathlib.Order.Bounds.Basic
import Z80.Processor.Run

/-!
# What a run adds up to

A run with a budget of clock cycles takes the steps the processor would take anyway
(`Processor.after`), and adds up what they are charged (`Processor.charged`). It ends with the step
that uses up the budget, or with the first that faults (`Processor.runFor_accounts`). A step that
completes is charged four cycles at least, but for a requested reset, which is free and can only come
first. So a budget bounds the number of steps.
-/

namespace Z80

variable {β : Type}

namespace Step

/-- The step did not fault. -/
def Completes (s : Step β) : Prop := ∃ outcome, s.result = .ok outcome

/-- The clock cycles that the processor is charged for the step: none if it faults. -/
def charge (s : Step β) : Nat :=
  match s.result with
  | .ok outcome => outcome.cycles
  | .error _ => 0

/-- A step that completes is charged what its outcome says. -/
lemma charge_of_ok {s : Step β} {outcome : StepOutcome} (h : s.result = .ok outcome) :
    s.charge = outcome.cycles := by
  rw [charge, h]

/-- A step that faults is charged nothing. -/
lemma charge_of_error {s : Step β} {fault : Fault} (h : s.result = .error fault) :
    s.charge = 0 := by
  rw [charge, h]

end Step

namespace Processor

variable [Bus β]

/-- The processor after a number of steps in a row. -/
def after (p : Processor β) : Nat → Processor β
  | 0 => p
  | n + 1 => (p.after n).step.processor

/-- What the first so many steps are charged together. -/
def charged (p : Processor β) : Nat → Nat
  | 0 => 0
  | n + 1 => p.charged n + (p.after n).step.charge

/-- The first so many steps complete. -/
def Completes (p : Processor β) (n : Nat) : Prop := ∀ k < n, (p.after k).step.Completes

/-- The counter goes on by what a step is charged. -/
lemma cycles_step (p : Processor β) : p.step.processor.cycles = p.cycles + p.step.charge := by
  obtain hr | ⟨hr, ⟨a, ha⟩ | ⟨abort, ha⟩⟩ := p.step_cases
  · rw [step_of_reset hr]
    rfl
  · rw [step_of_ok hr ha]
    rfl
  · rw [step_of_error hr ha]
    rfl

/-- A step is charged 21 cycles at most. -/
lemma charge_step_le (p : Processor β) : p.step.charge ≤ 21 := by
  cases h : p.step.result with
  | error fault =>
    rw [Step.charge_of_error h]
    exact Nat.zero_le _
  | ok outcome =>
    rw [Step.charge_of_ok h]
    obtain ⟨-, rfl⟩ | ⟨-, -, most⟩ := p.result_step h
    · exact Nat.zero_le _
    · exact most

/-- A step that completes without a reset is charged at least 4 cycles. -/
lemma four_le_charge_step {p : Processor β} (asked : p.lines.resetRequested = false)
    (h : p.step.Completes) : 4 ≤ p.step.charge := by
  obtain ⟨outcome, h⟩ := h
  rw [Step.charge_of_ok h]
  obtain ⟨requested, -⟩ | ⟨-, least, -⟩ := p.result_step h
  · exact absurd (requested.symm.trans asked) nofun
  · exact least

/-- The counter goes on by what all steps are charged. -/
lemma cycles_after (p : Processor β) (n : Nat) : (p.after n).cycles = p.cycles + p.charged n := by
  induction n with
  | zero => rfl
  | succ n ih =>
    show (p.after n).step.processor.cycles = p.cycles + (p.charged n + (p.after n).step.charge)
    rw [cycles_step, ih, Nat.add_assoc]

/-- Only the first step can be free. -/
lemma four_mul_le_charged {p : Processor β} {n : Nat} (h : p.Completes (n + 1)) :
    4 * n ≤ p.charged (n + 1) := by
  induction n with
  | zero => exact Nat.zero_le _
  | succ n ih =>
    have before : 4 * n ≤ p.charged (n + 1) :=
      ih fun k hk => h k (Nat.lt_succ_of_lt hk)
    -- A step leaves no reset requested, so the one after it is not free.
    have last : 4 ≤ (p.after (n + 1)).step.charge :=
      four_le_charge_step (p.after n).resetRequested_step (h (n + 1) (Nat.lt_succ_self _))
    show 4 * (n + 1) ≤ p.charged (n + 1) + (p.after (n + 1)).step.charge
    omega

/-- Steps that leave something of a budget are no more than a quarter of it. -/
lemma le_of_charged_lt {p : Processor β} {n budget : Nat} (h : p.Completes n)
    (short : p.charged n < budget) : n ≤ budget ⌈/⌉ 4 := by
  rw [Nat.ceilDiv_eq_add_pred_div]
  cases n with
  | zero => exact Nat.zero_le _
  | succ n =>
    have charged := four_mul_le_charged h
    omega

end Processor

namespace Run

/-- The account of a run that used up its budget: the processor has taken the steps that were counted,
and no more than were needed. -/
structure UsesUp [Bus β] (r : Run β) (p : Processor β) (budget : Nat) : Prop where
  completed : p.Completes r.steps
  processor : r.processor = p.after r.steps
  cycles : r.cycles = p.charged r.steps
  counter : r.processor.cycles = p.cycles + r.cycles
  least : IsLeast {n | budget ≤ p.charged n} r.steps
  reached : budget ≤ r.cycles
  overshoot : 0 < budget → r.cycles ≤ budget + 20
  bounded : r.steps ≤ budget ⌈/⌉ 4 + 1

/-- The account of a run that a fault cut short: the processor has taken the steps that were counted
and the one that faulted, for which it is charged nothing. -/
structure CutShort [Bus β] (r : Run β) (p : Processor β) (budget : Nat) (fault : Fault) : Prop where
  completed : p.Completes r.steps
  faulted : (p.after r.steps).step.result = .error fault
  processor : r.processor = p.after (r.steps + 1)
  cycles : r.cycles = p.charged r.steps
  counter : r.processor.cycles = p.cycles + r.cycles
  within : r.cycles < budget
  bounded : r.steps ≤ budget ⌈/⌉ 4

/-- The account of a run, as its fault has it. -/
def Accounts [Bus β] (r : Run β) (p : Processor β) (budget : Nat) : Prop :=
  match r.fault? with
  | none => r.UsesUp p budget
  | some fault => r.CutShort p budget fault

/-- The account of a run that goes on: before none of its steps was the budget used up. -/
structure Tallies [Bus β] (r : Run β) (p : Processor β) (budget : Nat) : Prop where
  fault? : r.fault? = none
  completed : p.Completes r.steps
  processor : r.processor = p.after r.steps
  cycles : r.cycles = p.charged r.steps
  short : ∀ n < r.steps, p.charged n < budget

/-- A run takes up a step that completes, with its charge. -/
lemma extend_of_ok {r : Run β} {s : Step β} {outcome : StepOutcome} (h : s.result = .ok outcome) :
    r.extend s =
      { r with
        processor := s.processor
        steps := r.steps + 1
        cycles := r.cycles + outcome.cycles
        history := r.history.appendList s.trace } := by
  rw [extend, h]

/-- A run takes up a step that faults, and does not count it. -/
lemma extend_of_error {r : Run β} {s : Step β} {fault : Fault} (h : s.result = .error fault) :
    r.extend s =
      { r with
        processor := s.processor
        fault? := some fault
        history := r.history.appendList s.trace } := by
  rw [extend, h]

/-- A run that takes up a step that faults has its fault. -/
lemma fault?_extend_of_error {r : Run β} {s : Step β} {fault : Fault}
    (h : s.result = .error fault) : (r.extend s).fault? = some fault := by
  rw [extend_of_error h]

namespace Tallies

variable [Bus β] {r : Run β} {p : Processor β} {budget : Nat}

/-- A run that has made no step is in agreement with its processor. -/
lemma start (p : Processor β) (budget : Nat) : Tallies { processor := p } p budget where
  fault? := rfl
  completed := nofun
  processor := rfl
  cycles := rfl
  short := nofun

/-- A step that completes is tallied, if there was something left of the budget. -/
lemma extend {outcome : StepOutcome} (h : r.Tallies p budget) (left : r.cycles < budget)
    (ok : r.processor.step.result = .ok outcome) :
    (r.extend r.processor.step).Tallies p budget := by
  rw [extend_of_ok ok]
  rw [h.processor] at ok ⊢
  refine ⟨h.fault?, ?_, rfl, ?_, ?_⟩
  · intro k hk
    obtain hk | rfl := Nat.lt_succ_iff_lt_or_eq.mp hk
    · exact h.completed k hk
    · exact ⟨outcome, ok⟩
  · show r.cycles + outcome.cycles = p.charged r.steps + (p.after r.steps).step.charge
    rw [h.cycles, Step.charge_of_ok ok]
  · intro n hn
    obtain hn | rfl := Nat.lt_succ_iff_lt_or_eq.mp hn
    · exact h.short n hn
    · rw [← h.cycles]
      exact left

/-- When the budget is used up, the tally is the account. -/
lemma usesUp (h : r.Tallies p budget) (reached : budget ≤ r.cycles) : r.UsesUp p budget where
  completed := h.completed
  processor := h.processor
  cycles := h.cycles
  counter := by rw [h.processor, h.cycles, p.cycles_after]
  least := by
    constructor
    · show budget ≤ p.charged r.steps
      rw [← h.cycles]
      exact reached
    · intro n enough
      by_contra early
      exact absurd (h.short n (Nat.lt_of_not_le early)) (Nat.not_lt_of_le enough)
  reached := reached
  overshoot := by
    intro positive
    rw [h.cycles]
    cases hs : r.steps with
    | zero => exact Nat.zero_le _
    | succ n =>
      -- One step before, something was left, and the last step takes twenty-one cycles at most.
      have before : p.charged n < budget := h.short n (hs ▸ Nat.lt_succ_self n)
      have last := (p.after n).charge_step_le
      show p.charged n + (p.after n).step.charge ≤ budget + 20
      omega
  bounded := by
    cases hs : r.steps with
    | zero => exact Nat.zero_le _
    | succ n =>
      have early : n < r.steps := hs ▸ Nat.lt_succ_self n
      have steps : n ≤ budget ⌈/⌉ 4 :=
        Processor.le_of_charged_lt (fun k hk => h.completed k (hk.trans early)) (h.short n early)
      exact Nat.succ_le_succ steps

/-- When a step faults, the tally is the account. -/
lemma cutShort {fault : Fault} (h : r.Tallies p budget) (left : r.cycles < budget)
    (faulted : r.processor.step.result = .error fault) :
    (r.extend r.processor.step).CutShort p budget fault := by
  rw [extend_of_error faulted]
  rw [h.processor] at faulted ⊢
  refine ⟨h.completed, faulted, rfl, h.cycles, ?_, left, ?_⟩
  · show (p.after r.steps).step.processor.cycles = p.cycles + r.cycles
    rw [Processor.cycles_step, Step.charge_of_error faulted, p.cycles_after, h.cycles]
    rfl
  · exact Processor.le_of_charged_lt h.completed (h.cycles ▸ left)

/-- However far the tally has come, the run ends with an account. -/
lemma untilBudget (h : r.Tallies p budget) : (r.untilBudget budget).Accounts p budget := by
  fun_induction Run.untilBudget r budget with
  | case1 r left next faulted =>
    cases hs : r.processor.step.result with
    | ok outcome =>
      -- A step that is charged leaves the run without a fault.
      have going : next.fault? = none := (h.extend left hs).fault?
      rw [going] at faulted
      cases faulted
    | error fault =>
      have stopped : next.fault? = some fault := fault?_extend_of_error hs
      rw [Accounts, stopped]
      exact h.cutShort left hs
  | case2 r left next going ih =>
    cases hs : r.processor.step.result with
    | ok outcome => exact ih (h.extend left hs)
    | error fault =>
      have stopped : next.fault? = some fault := fault?_extend_of_error hs
      rw [stopped] at going
      exact absurd rfl going
  | case3 r reached =>
    rw [Accounts, h.fault?]
    exact h.usesUp (Nat.le_of_not_lt reached)

end Tallies

end Run

namespace Processor

/-- A run ends, whatever its budget, and its account is exact. It has taken the steps up to the one that
used up the budget, by twenty cycles too many at most, or up to the first that faulted. A run without
a budget has done nothing. -/
theorem runFor_accounts [Bus β] (p : Processor β) (budget : Nat) :
    (p.runFor budget).Accounts p budget ∧ p.runFor 0 = { processor := p } := by
  constructor
  · exact (Run.Tallies.start p budget).untilBudget
  · exact Run.untilBudget_of_le (Nat.zero_le _)

end Processor

end Z80
