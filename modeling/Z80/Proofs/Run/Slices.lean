import Mathlib.Algebra.GroupWithZero.Nat
import Z80.Bus.Ram
import Z80.Processor.Run

/-!
# Runs in slices

A run may be made in slices. What one slice runs over its budget is taken off the budget of the next,
and then the slices add up to the run with the whole budget (`Processor.runFor_sliced`): the processor
comes to the same state, and to the same fault if there is one.

Two facts are behind it. Where a run goes on depends on what it has added up only in so far as that is
taken off the budget (`Run.untilBudget_followedBy`), and a run with a greater budget is the one with the
smaller budget, gone on with (`Run.untilBudget_split`).
-/

namespace Z80

namespace Run

variable {β : Type}

/-- A run and another one from where it ended, taken together. -/
def followedBy (r s : Run β) : Run β where
  processor := s.processor
  steps := r.steps + s.steps
  cycles := r.cycles + s.cycles
  fault? := s.fault?
  history := r.history ++ s.history

/-- A run is what it is when no step follows it. -/
lemma followedBy_nothing {r : Run β} (h : r.fault? = none) :
    r.followedBy { processor := r.processor } = r := by
  obtain ⟨processor, steps, cycles, fault?, history⟩ := r
  obtain rfl : fault? = none := h
  simp only [followedBy, Nat.add_zero, Array.append_empty]

/-- A step may be taken up by the run that follows or by both together. -/
lemma extend_followedBy (r s : Run β) (step : Step β) :
    (r.followedBy s).extend step = r.followedBy (s.extend step) := by
  have history : (r.history ++ s.history).appendList step.trace =
      r.history ++ s.history.appendList step.trace := by
    apply Array.toList_inj.mp
    simp only [Array.appendList_eq_append, Array.toList_appendList, Array.toList_append,
      List.append_assoc]
  unfold extend
  split
  case h_1 outcome _ => simp only [followedBy, history, Nat.add_assoc]
  case h_2 fault _ => simp only [followedBy, history]

variable [Bus β]

/-- A run that no fault ended has used up its budget. -/
lemma le_cycles_untilBudget {r : Run β} {budget : Nat}
    (h : (r.untilBudget budget).fault? = none) : budget ≤ (r.untilBudget budget).cycles := by
  fun_induction untilBudget r budget with
  | case1 r left next faulted =>
    rw [h] at faulted
    cases faulted
  | case2 r left next going ih => exact ih h
  | case3 r reached => exact Nat.le_of_not_lt reached

/-- What has been added up before is taken off the budget, and makes no other difference. -/
lemma untilBudget_followedBy (r s : Run β) (budget : Nat) :
    (r.followedBy s).untilBudget (r.cycles + budget) = r.followedBy (s.untilBudget budget) := by
  -- Both loops take the same steps, and find something left of their budgets at the same time.
  fun_induction untilBudget s budget with
  | case1 s left next faulted =>
    have short : (r.followedBy s).cycles < r.cycles + budget := Nat.add_lt_add_left left _
    have taken : (r.followedBy s).extend (r.followedBy s).processor.step = r.followedBy next :=
      extend_followedBy r s s.processor.step
    rw [untilBudget_of_isSome short (taken ▸ faulted), taken]
  | case2 s left next going ih =>
    have short : (r.followedBy s).cycles < r.cycles + budget := Nat.add_lt_add_left left _
    have taken : (r.followedBy s).extend (r.followedBy s).processor.step = r.followedBy next :=
      extend_followedBy r s s.processor.step
    rw [untilBudget_of_not_isSome short (taken ▸ going), taken, ih]
  | case3 s reached =>
    exact untilBudget_of_le (Nat.add_le_add_left (Nat.le_of_not_lt reached) _)

/-- To go on with a run is to follow it by one with what is left of the budget. -/
lemma untilBudget_eq_followedBy {r : Run β} (h : r.fault? = none) (budget : Nat) :
    r.untilBudget budget = r.followedBy (r.processor.runFor (budget - r.cycles)) := by
  obtain left | reached := Nat.lt_or_ge r.cycles budget
  · have whole : r.cycles + (budget - r.cycles) = budget := Nat.add_sub_of_le (Nat.le_of_lt left)
    have gone_on := untilBudget_followedBy r { processor := r.processor } (budget - r.cycles)
    rw [followedBy_nothing h, whole] at gone_on
    exact gone_on
  · have nothing : r.processor.runFor 0 = { processor := r.processor } :=
      untilBudget_of_le (Nat.zero_le _)
    rw [Nat.sub_eq_zero_of_le reached, untilBudget_of_le reached, nothing, followedBy_nothing h]

/-- A run with a greater budget is the one with the smaller budget, gone on with unless a fault has
ended it. -/
lemma untilBudget_split {r : Run β} {smaller greater : Nat} (h : smaller ≤ greater)
    (running : r.fault? = none) :
    r.untilBudget greater =
      if (r.untilBudget smaller).fault?.isSome then r.untilBudget smaller
      else (r.untilBudget smaller).untilBudget greater := by
  fun_induction untilBudget r smaller with
  | case1 r left next faulted =>
    rw [if_pos faulted]
    exact untilBudget_of_isSome (Nat.lt_of_lt_of_le left h) faulted
  | case2 r left next going ih =>
    rw [← ih (Option.not_isSome_iff_eq_none.mp going)]
    exact untilBudget_of_not_isSome (Nat.lt_of_lt_of_le left h) going
  | case3 r reached => rw [running, if_neg nofun]

end Run

namespace Processor

variable {β : Type} [Bus β] {p : Processor β} {smaller greater : Nat}

/-- A run that faults is the same for every greater budget. -/
lemma runFor_of_fault {fault : Fault} (h : smaller ≤ greater)
    (faulted : (p.runFor smaller).fault? = some fault) : p.runFor greater = p.runFor smaller := by
  have split := Run.untilBudget_split (r := { processor := p }) h rfl
  have isSome : (p.runFor smaller).fault?.isSome := by rw [faulted]; rfl
  exact split.trans (if_pos isSome)

/-- A run is a run for less, followed by one for what is left. -/
lemma runFor_eq_followedBy (h : smaller ≤ greater) (going : (p.runFor smaller).fault? = none) :
    p.runFor greater =
      (p.runFor smaller).followedBy
        ((p.runFor smaller).processor.runFor (greater - (p.runFor smaller).cycles)) := by
  have split := Run.untilBudget_split (r := { processor := p }) h rfl
  have not_isSome : ¬ (p.runFor smaller).fault?.isSome := Option.not_isSome_iff_eq_none.mpr going
  rw [← Run.untilBudget_eq_followedBy going]
  exact split.trans (if_neg not_isSome)

/-- Runs a slice for each of the budgets, until a fault. What the slices before ran over is taken off
the budget of the next. -/
def runSlices (p : Processor β) (overshoot : Nat) : List Nat → Run β
  | [] => { processor := p }
  | budget :: rest =>
    let slice := p.runFor (budget - overshoot)
    if slice.fault?.isSome then slice
    else slice.followedBy (slice.processor.runSlices (overshoot + slice.cycles - budget) rest)

/-- A run in slices, each short of what the ones before it took too much, is one run. -/
lemma runSlices_eq_runFor (p : Processor β) (overshoot : Nat) (budgets : List Nat) :
    p.runSlices overshoot budgets = p.runFor (budgets.sum - overshoot) := by
  induction budgets generalizing p overshoot with
  | nil =>
    rw [List.sum_nil, Nat.zero_sub]
    exact (Run.untilBudget_of_le (Nat.zero_le _)).symm
  | cons budget rest ih =>
    have part : budget - overshoot ≤ (budget :: rest).sum - overshoot := by
      rw [List.sum_cons]
      omega
    rw [runSlices]
    split
    case isTrue faulted =>
      obtain ⟨fault, faulted⟩ := Option.isSome_iff_exists.mp faulted
      exact (runFor_of_fault part faulted).symm
    case isFalse going =>
      have going := Option.not_isSome_iff_eq_none.mp going
      have reached : budget - overshoot ≤ (p.runFor (budget - overshoot)).cycles :=
        Run.le_cycles_untilBudget going
      rw [ih, runFor_eq_followedBy part going, List.sum_cons]
      -- The slice has reached its budget, so what is left of the whole is what is left of the rest.
      congr 2
      omega

/-- A run may be made in slices. If a first slice ends without a fault, going on with what is left of
the budget comes to the run with the whole budget, and adds up to it; if it faults, so does the whole
run, in the same state. So it is with any number of slices, when what one of them runs over is taken
off the next. -/
theorem runFor_sliced (p : Processor β) {b₁ b : Nat} (h : b₁ ≤ b) :
    ((p.runFor b₁).fault? = none →
        p.runFor b =
          (p.runFor b₁).followedBy ((p.runFor b₁).processor.runFor (b - (p.runFor b₁).cycles))) ∧
      (∀ fault, (p.runFor b₁).fault? = some fault → p.runFor b = p.runFor b₁) ∧
      ∀ budgets, p.runSlices 0 budgets = p.runFor budgets.sum := by
  refine ⟨runFor_eq_followedBy h, ?_, ?_⟩
  · intro fault faulted
    exact runFor_of_fault h faulted
  · exact p.runSlices_eq_runFor 0

/-- A processor at the beginning of a memory of zeros, which are instructions that do nothing, with a
reset requested. -/
def resetPending : Processor Ram := (new {}).drive .requestReset

/-- The reset is free, so that two instructions are needed for five cycles. They take eight, and one
more instruction is left to do for nine. -/
theorem runFor_sliced_resetPending :
    (resetPending.runFor 5).fault? = none ∧ (resetPending.runFor 5).steps = 3 ∧
      (resetPending.runFor 5).cycles = 8 ∧
      resetPending.runFor 9 =
        (resetPending.runFor 5).followedBy ((resetPending.runFor 5).processor.runFor 1) ∧
      (resetPending.runFor 9).steps = 4 ∧ (resetPending.runFor 9).cycles = 12 := by
  have going : (resetPending.runFor 5).fault? = none := by decide +kernel
  have cycles : (resetPending.runFor 5).cycles = 8 := by decide +kernel
  obtain ⟨followed, -⟩ := resetPending.runFor_sliced (by decide : 5 ≤ 9)
  have whole := followed going
  rw [cycles] at whole
  exact ⟨going, by decide +kernel, cycles, whole, by decide +kernel, by decide +kernel⟩

end Processor

end Z80
