import Z80.Proofs.Microprogram.Completion

/-!
# What a microprogram comes to

A condition on the accesses of a run and the value at its end, together. It is read off the tree
(`Microprogram.Concludes`) and holds on every bus that completes the accesses, on which the
microprogram then ends with a value (`Microprogram.Concludes.of_run`).
-/

namespace Z80.Microprogram

variable {α β : Type}

/-- Every path ends with a value, and the condition holds of the accesses on the path, all of them
completed, and of that value. -/
def Concludes (P : List Access → α → Prop) : Microprogram α → Prop
  | done value => P [] value
  | illegal _ _ => False
  | read _ address next =>
    ∀ value, (next value).Concludes fun later => P (.read address value :: later)
  | write _ address value next => next.Concludes fun later => P (.write address value :: later)
  | acknowledge _ next =>
    ∀ value, (next value).Concludes fun later => P (.acknowledge value :: later)
  | report _ next => next.Concludes P

/-- On a bus that completes every access it is asked for, a microprogram completes, with a value and
accesses of which the condition holds. -/
lemma Concludes.of_run [Bus β] {P : List Access → α → Prop} {p : Microprogram α}
    (h : p.Concludes P) {bus : β}
    (completed : ∀ access ∈ (p.run bus).trace.accesses, access.error? = none) :
    ∃ value after t, p.Completes bus value after t ∧ P t.accesses value := by
  induction p generalizing bus P with
  | done value => exact ⟨value, bus, [], rfl, h⟩
  | illegal now cause => exact h.elim
  | read now address next ih =>
    simp only [run] at completed
    split at completed
    case h_1 byte middle answer =>
      obtain ⟨-, rest⟩ := List.forall_mem_cons.mp completed
      obtain ⟨value, after, t, completes, holds⟩ := ih byte (h byte) rest
      exact ⟨value, after, _, completes.read answer, holds⟩
    -- A failed access is in the log, where all are completed.
    case h_2 => cases completed _ (List.mem_singleton.mpr rfl)
  | write now address byte next ih =>
    simp only [run] at completed
    split at completed
    case h_1 middle answer =>
      obtain ⟨-, rest⟩ := List.forall_mem_cons.mp completed
      obtain ⟨value, after, t, completes, holds⟩ := ih h rest
      exact ⟨value, after, _, completes.write answer, holds⟩
    case h_2 => cases completed _ (List.mem_singleton.mpr rfl)
  | acknowledge now next ih =>
    simp only [run] at completed
    split at completed
    case h_1 byte middle answer =>
      obtain ⟨-, rest⟩ := List.forall_mem_cons.mp completed
      obtain ⟨value, after, t, completes, holds⟩ := ih byte (h byte) rest
      exact ⟨value, after, _, completes.acknowledge answer, holds⟩
    case h_2 => cases completed _ (List.mem_singleton.mpr rfl)
  | report r next ih =>
    obtain ⟨value, after, t, completes, holds⟩ := ih h completed
    exact ⟨value, after, _, completes.report, holds⟩

end Z80.Microprogram
