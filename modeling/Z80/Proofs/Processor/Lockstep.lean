import Mathlib.Logic.Basic
import Mathlib.Tactic.Lemma
import Z80.Processor.Step

/-!
# Processors in lockstep

Two processors that are put through the same: calls on their inputs, changes of their buses, and
steps. A relation between them that each of these keeps, and under which a step comes to the same
and is seen the same on either side, is kept by any sequence of them (`Processor.Lockstep.run`). The
relation may need something of the steps, which then is asked of the steps of one side only.
-/

namespace Z80

/-- Something that a processor is put through. -/
inductive Stimulus (β : Type) where
  | drive (call : LineCall)
  | changeBus (change : β → β)
  | step

namespace Processor

variable {β : Type} [Bus β]

/-- The processor after a stimulus. -/
def respond (p : Processor β) : Stimulus β → Processor β
  | .drive call => p.drive call
  | .changeBus change => { p with bus := change p.bus }
  | .step => p.step.processor

/-- The processor after a sequence of stimuli. -/
def under (p : Processor β) (stimuli : List (Stimulus β)) : Processor β := stimuli.foldl respond p

/-- The processor as it stands at the beginning of each step in a sequence of stimuli. -/
def beforeSteps (p : Processor β) : List (Stimulus β) → List (Processor β)
  | [] => []
  | .step :: rest => p :: p.step.processor.beforeSteps rest
  | .drive call :: rest => (p.drive call).beforeSteps rest
  | .changeBus change :: rest => { p with bus := change p.bus }.beforeSteps rest

/-- What the steps in a sequence of stimuli come to. -/
def results (p : Processor β) (stimuli : List (Stimulus β)) : List (Except Fault StepOutcome) :=
  (p.beforeSteps stimuli).map fun q => q.step.result

/-- What is seen of the steps in a sequence of stimuli. -/
def traces (p : Processor β) (stimuli : List (Stimulus β)) : List Trace :=
  (p.beforeSteps stimuli).map fun q => q.step.trace

/-- The relation between two processors is kept by whatever they are put through. A step comes to
the same and is seen the same on either side, if the condition holds of the first. -/
structure Lockstep (R : Processor β → Processor β → Prop) (condition : Processor β → Prop) :
    Prop where
  drive : ∀ {p q}, R p q → ∀ call, R (p.drive call) (q.drive call)
  changeBus : ∀ {p q}, R p q → ∀ change : β → β,
    R { p with bus := change p.bus } { q with bus := change q.bus }
  step : ∀ {p q}, R p q → condition p →
    p.step.result = q.step.result ∧ p.step.trace = q.step.trace ∧
      R p.step.processor q.step.processor

/-- What holds after each stimulus holds after a sequence of them: the steps come to the same, are
seen the same, and the relation is there in the end. -/
theorem Lockstep.run {R : Processor β → Processor β → Prop} {condition : Processor β → Prop}
    (h : Lockstep R condition) {p q : Processor β} (related : R p q) {stimuli : List (Stimulus β)}
    (hc : ∀ x ∈ p.beforeSteps stimuli, condition x) :
    p.results stimuli = q.results stimuli ∧ p.traces stimuli = q.traces stimuli ∧
      R (p.under stimuli) (q.under stimuli) := by
  induction stimuli generalizing p q with
  | nil => exact ⟨rfl, rfl, related⟩
  | cons stimulus rest ih =>
    cases stimulus with
    | drive call => exact ih (h.drive related call) hc
    | changeBus change => exact ih (h.changeBus related change) hc
    | step =>
      obtain ⟨now, later⟩ := List.forall_mem_cons.mp hc
      obtain ⟨result, trace, after⟩ := h.step related now
      obtain ⟨results, traces, final⟩ := ih after later
      exact ⟨congrArg₂ List.cons result results, congrArg₂ List.cons trace traces, final⟩

end Processor

end Z80
