import Z80.Proofs.Bus.Success
import Z80.Proofs.Microprogram.Failure

/-!
# What a run stores

Memory on a bus changes by the writes that complete and by nothing else. A log of accesses says which
these are, and memory after the log is memory with them carried out in order (`Ram.stored`). So a run
leaves what its log has stored (`Microprogram.bus_run`), and everything it has stored is outside the
read-only region (`Microprogram.writable_run`).
-/

namespace Z80

/-- The log has a write to the address that completed. -/
def Access.WritesTo (address : Word) (seen : List Access) : Prop :=
  ∃ value, .write address value ∈ seen

/-- Where nothing was seen, nothing was written. -/
lemma Access.not_writesTo_nil (address : Word) : ¬ WritesTo address [] := by
  intro ⟨value, found⟩
  cases found

/-- What was written later was written. -/
lemma Access.WritesTo.cons {address : Word} {seen : List Access} (h : WritesTo address seen)
    (access : Access) : WritesTo address (access :: seen) := by
  obtain ⟨value, found⟩ := h
  exact ⟨value, List.mem_cons_of_mem access found⟩

namespace Ram

/-- Memory when the writes of a log that completed have been carried out. -/
def stored (m : Ram) : List Access → Ram
  | [] => m
  | .write address value :: later =>
    { m with memory := m.memory.set address value }.stored later
  | _ :: later => m.stored later

/-- What is read-only and what answers an acknowledge cycle is not stored anywhere. -/
lemma wiring_stored (m : Ram) (seen : List Access) :
    (m.stored seen).romSize = m.romSize ∧ (m.stored seen).acknowledge = m.acknowledge := by
  induction seen generalizing m with
  | nil => exact ⟨rfl, rfl⟩
  | cons access later ih =>
    cases access with
    | write address value => exact ih { m with memory := m.memory.set address value }
    | read _ _ | acknowledge _ | failed _ _ => exact ih m

/-- A byte that no write is to stays. -/
lemma peek_stored {m : Ram} {seen : List Access} {address : Word}
    (unwritten : ¬ Access.WritesTo address seen) : (m.stored seen).peek address = m.peek address := by
  induction seen generalizing m with
  | nil => rfl
  | cons access later ih =>
    have rest : ¬ Access.WritesTo address later := fun h => unwritten (h.cons access)
    cases access with
    | write other value =>
      have elsewhere : address ≠ other := by
        rintro rfl
        exact unwritten ⟨value, List.mem_cons_self⟩
      rw [stored, ih rest, peek_set, if_neg elsewhere]
    | read _ _ | acknowledge _ | failed _ _ => exact ih rest

/-- An access that completes leaves memory with what it stored. -/
lemma meet_completed {m after : Ram} {request : Request} {access : Access}
    (met : request.meet m = (access, after)) (completed : access.error? = none) :
    after = m.stored [access] ∧
      ∀ address value, access = .write address value → ¬ address < m.romSize := by
  cases request with
  | read address =>
    cases met
    exact ⟨rfl, nofun⟩
  | write address value =>
    simp only [Request.meet] at met
    split at met
    case h_1 written =>
      cases met
      obtain ⟨writable, rfl⟩ := write_ok_inv written
      refine ⟨rfl, ?_⟩
      intro other byte same
      cases same
      exact writable
    case h_2 =>
      cases met
      cases completed
  | acknowledge =>
    simp only [Request.meet] at met
    split at met
    case h_1 answered =>
      cases met
      -- What a device answers is not stored.
      change m.answerAcknowledge = _ at answered
      unfold answerAcknowledge at answered
      split at answered
      case h_1 =>
        cases answered
        refine ⟨rfl, ?_⟩
        intro other byte same
        cases same
      case h_2 => cases answered
    case h_2 =>
      cases met
      cases completed

/-- An access that fails changes nothing. -/
lemma meet_failed {m after : Ram} {request asked : Request} {error : BusError}
    (met : request.meet m = (.failed asked error, after)) : after = m := by
  cases request with
  | read address => cases met
  | write address value =>
    simp only [Request.meet] at met
    split at met
    case h_1 => cases met
    case h_2 refused =>
      cases met
      change m.write address value = _ at refused
      unfold write at refused
      split at refused
      case isTrue =>
        cases refused
        rfl
      case isFalse => cases refused
  | acknowledge =>
    simp only [Request.meet] at met
    split at met
    case h_1 => cases met
    case h_2 silent =>
      cases met
      change m.answerAcknowledge = _ at silent
      unfold answerAcknowledge at silent
      split at silent
      case h_1 => cases silent
      case h_2 =>
        cases silent
        rfl

end Ram

namespace Microprogram

variable {α : Type}

/-- A run leaves memory with what its log has stored. -/
theorem bus_run (p : Microprogram α) (m : Ram) :
    (p.run m).bus = m.stored (p.run m).trace.accesses := by
  apply run_induction (motive := fun (m : Ram) c => c.bus = m.stored c.trace.accesses)
  case done => exact fun _ _ => rfl
  case illegal => exact fun _ _ _ => rfl
  case completed =>
    intro m middle request access c met completed ih
    obtain ⟨rfl, -⟩ := Ram.meet_completed met completed
    cases access with
    | read _ _ | write _ _ | acknowledge _ | failed _ _ => exact ih
  case failed =>
    intro m after request error now met
    exact Ram.meet_failed met
  case reported => exact fun _ _ _ ih => ih

/-- Nothing that a run has stored is in the read-only region. -/
theorem writable_run (p : Microprogram α) (m : Ram) {address : Word}
    (h : Access.WritesTo address (p.run m).trace.accesses) : ¬ address < m.romSize := by
  revert h
  apply run_induction (motive := fun (m : Ram) c =>
    Access.WritesTo address c.trace.accesses → ¬ address < m.romSize)
  case done => exact fun _ _ h => absurd h (Access.not_writesTo_nil address)
  case illegal => exact fun _ _ _ h => absurd h (Access.not_writesTo_nil address)
  case completed =>
    intro m middle request access c met completed ih ⟨value, found⟩
    obtain ⟨rfl, writable⟩ := Ram.meet_completed met completed
    obtain same | later := List.mem_cons.mp found
    · exact writable address value same.symm
    · rw [← (m.wiring_stored [access]).1]
      exact ih ⟨value, later⟩
  case failed =>
    intro m after request error now met ⟨value, found⟩
    cases List.mem_singleton.mp found
  case reported => exact fun _ _ _ ih => ih

end Microprogram

end Z80
