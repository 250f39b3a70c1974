import Z80.Proofs.Memory.Image
import Z80.Proofs.Microprogram.Storage
import Z80.Proofs.Session.FlipFlop

/-!
# What happens to memory while a processor runs

A processor on memory is put through line calls, resets, steps and runs with a budget, in any order.
Memory changes in the steps alone, and by the writes that they complete (`Processor.bus_step`). So the
read-only region stays as it is, whatever the program and however it came to an end
(`Processor.readOnly_unchanged`).
-/

namespace Z80

/-- Something that is done with a processor. -/
inductive Operation where
  | drive (call : LineCall)
  | reset
  | step
  | runFor (budget : Nat)
  deriving DecidableEq, Repr

namespace Processor

section

variable {β : Type} [Bus β]

/-- The processor after an operation. -/
def operate (p : Processor β) : Operation → Processor β
  | .drive call => p.drive call
  | .reset => p.reset.1
  | .step => p.step.processor
  | .runFor budget => (p.runFor budget).processor

/-- The processor after operations one after the other. -/
def operated (p : Processor β) (operations : List Operation) : Processor β :=
  operations.foldl operate p

/-- The processor as it stands at the beginning of each step of an operation. -/
def stepsWithin (p : Processor β) : Operation → List (Processor β)
  | .drive _ | .reset => []
  | .step => [p]
  | .runFor budget => (List.range (p.runFor budget).taken).map p.after

/-- The processor as it stands at the beginning of each step of operations one after the other. -/
def stepsAlong (p : Processor β) : List Operation → List (Processor β)
  | [] => []
  | operation :: later => p.stepsWithin operation ++ (p.operate operation).stepsAlong later

/-- What each of so many steps in a row keeps is there after any number of them. -/
lemma after_induction {motive : Processor β → Prop} {p : Processor β} {n : Nat} (start : motive p)
    (step : ∀ k < n, motive (p.after k) → motive (p.after k).step.processor) :
    ∀ k ≤ n, motive (p.after k) := by
  intro k hk
  induction k with
  | zero => exact start
  | succ k ih => exact step k hk (ih (Nat.le_of_lt hk))

/-- What each step of the operations keeps, and what is done from outside keeps, is there at the
beginning of each step and in the end. -/
lemma operated_induction {motive : Processor β → Prop} {p : Processor β}
    {operations : List Operation} (start : motive p)
    (drive : ∀ q call, motive q → motive (q.drive call)) (reset : ∀ q, motive q → motive q.reset.1)
    (step : ∀ before ∈ p.stepsAlong operations, motive before → motive before.step.processor) :
    (∀ before ∈ p.stepsAlong operations, motive before) ∧ motive (p.operated operations) := by
  induction operations generalizing p with
  | nil => exact ⟨List.forall_mem_nil _, start⟩
  | cons operation later ih =>
    rw [stepsAlong] at step ⊢
    obtain ⟨now, afterwards⟩ := List.forall_mem_append.mp step
    -- Every operation comes down to steps: none, one, or as many as the budget allows.
    have here : (∀ before ∈ p.stepsWithin operation, motive before) ∧
        motive (p.operate operation) := by
      cases operation with
      | drive call => exact ⟨List.forall_mem_nil _, drive p call start⟩
      | reset => exact ⟨List.forall_mem_nil _, reset p start⟩
      | step =>
        exact ⟨List.forall_mem_singleton.mpr start, now p List.mem_cons_self start⟩
      | runFor budget =>
        have began := after_induction (n := (p.runFor budget).taken) start fun k hk =>
          now _ (List.mem_map_of_mem (List.mem_range.mpr hk))
        refine ⟨?_, ?_⟩
        · intro before h
          obtain ⟨k, hk, rfl⟩ := List.mem_map.mp h
          exact began k (Nat.le_of_lt (List.mem_range.mp hk))
        · rw [operate, processor_runFor]
          exact began _ (Nat.le_refl _)
    obtain ⟨along, final⟩ := ih here.2 afterwards
    exact ⟨List.forall_mem_append.mpr ⟨here.1, along⟩, final⟩

end

/-- A step leaves memory with what the accesses that are seen of it stored. -/
lemma bus_step (p : Processor Ram) : p.step.processor.bus = p.bus.stored p.step.trace.accesses := by
  cases hr : p.lines.resetRequested with
  | true =>
    rw [accesses_step_of_reset hr, step_of_reset hr]
    rfl
  | false =>
    rw [accesses_step hr]
    have left := Microprogram.bus_run (p.sampled.registers.advance p.sampled.mode) p.bus
    obtain hr' | ⟨-, ⟨a, ha⟩ | ⟨abort, ha⟩⟩ := p.step_cases
    · exact absurd (hr'.symm.trans hr) nofun
    · rw [step_of_ok hr ha]
      exact left
    · rw [step_of_error hr ha]
      exact left

/-- A step writes nothing to the read-only region. -/
lemma writable_step {p : Processor Ram} {address : Word}
    (h : Access.WritesTo address p.step.trace.accesses) : ¬ address < p.bus.romSize := by
  cases hr : p.lines.resetRequested with
  | true =>
    rw [accesses_step_of_reset hr] at h
    exact absurd h (Access.not_writesTo_nil address)
  | false =>
    rw [accesses_step hr] at h
    exact Microprogram.writable_run (p.sampled.registers.advance p.sampled.mode) p.bus h

/-- The step changes the byte at the address. -/
def Changes (p : Processor Ram) (address : Word) : Prop :=
  p.step.processor.bus.peek address ≠ p.bus.peek address

/-- What a step changes in memory it has written to. -/
lemma Changes.writesTo {p : Processor Ram} {address : Word} (h : p.Changes address) :
    Access.WritesTo address p.step.trace.accesses := by
  by_contra unwritten
  apply h
  rw [bus_step]
  exact Ram.peek_stored unwritten

/-- A byte that no step of the operations changes stays. -/
lemma peek_operated {p : Processor Ram} {operations : List Operation} {address : Word}
    (same : ∀ before ∈ p.stepsAlong operations, ¬ before.Changes address) :
    (p.operated operations).bus.peek address = p.bus.peek address := by
  have kept := operated_induction (motive := fun q => q.bus.peek address = p.bus.peek address) rfl
    (fun _ _ => id) (fun _ => id) (fun before h => (not_not.mp (same before h)).trans)
  exact kept.2

/-- No step changes where the read-only region ends. -/
lemma romSize_step (p : Processor Ram) : p.step.processor.bus.romSize = p.bus.romSize := by
  rw [bus_step]
  exact (p.bus.wiring_stored _).1

/-- Whatever is done with a processor on memory, what is read-only stays read-only and keeps its
bytes, and memory keeps its size. Another byte changes in the steps alone, and in none that has not
completed a write to it. -/
theorem readOnly_unchanged (p : Processor Ram) (operations : List Operation) :
    (p.operated operations).bus.romSize = p.bus.romSize ∧
      (∀ address < p.bus.romSize,
        (p.operated operations).bus.peek address = p.bus.peek address) ∧
      p.bus.memory.image.length = 65536 ∧
      (p.operated operations).bus.memory.image.length = 65536 ∧
      (∀ before ∈ p.stepsAlong operations, ∀ address, before.Changes address →
        ¬ address < p.bus.romSize ∧ Access.WritesTo address before.step.trace.accesses) ∧
      ∀ address, (p.operated operations).bus.peek address ≠ p.bus.peek address →
        ∃ before ∈ p.stepsAlong operations, before.Changes address := by
  obtain ⟨romSizes, romSize⟩ : (∀ before ∈ p.stepsAlong operations,
      before.bus.romSize = p.bus.romSize) ∧ (p.operated operations).bus.romSize = p.bus.romSize :=
    operated_induction (motive := fun q => q.bus.romSize = p.bus.romSize) rfl (fun _ _ => id)
      (fun _ => id) (fun before _ => before.romSize_step.trans)
  -- The region has the same size in every step, so what a step may write is the same throughout.
  have guarded : ∀ before ∈ p.stepsAlong operations, ∀ address, before.Changes address →
      ¬ address < p.bus.romSize := by
    intro before h address changes
    rw [← romSizes before h]
    exact writable_step changes.writesTo
  refine ⟨romSize, ?_, Memory.length_image _, Memory.length_image _, ?_, ?_⟩
  · intro address readOnly
    apply peek_operated
    exact fun before h changes => guarded before h address changes readOnly
  · exact fun before h address changes => ⟨guarded before h address changes, changes.writesTo⟩
  · intro address differs
    by_contra unchanged
    apply differs
    apply peek_operated
    exact fun before h changes => unchanged ⟨before, h, changes⟩

end Processor

end Z80
