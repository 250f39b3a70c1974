import Z80.Proofs.Processor.Restart
import Z80.Proofs.Processor.TornExchange

/-!
# Words that are stored in part

A word crosses the bus as two bytes, and the second may fail when the first is in memory already. The
step is tried again on that memory. It comes to the same as if it had not failed, for it stores the
first byte again and reads nothing that it has overwritten. The exchange of HL with the word on top of
the stack is the exception: it reads the word again that it has begun to overwrite, and L keeps its value
where it would have had the low byte of that word (`Processor.step_restarts_torn`).
-/

namespace Z80

open Microprogram

/-- What was begun is known from the first accesses of a log. -/
lemma Instruction.begun?_append {mode : InterruptMode} {seen : List Access} {i : Instruction}
    (h : begun? mode seen = some i) (later : List Access) : begun? mode (seen ++ later) = some i := by
  cases seen with
  | nil => cases h
  | cons access rest =>
    cases access with
    | read address opcode =>
      simp only [begun?, ofAccesses?, List.cons_append] at h ⊢
      split at h
      case isTrue page =>
        rw [if_pos page]
        split at h
        case h_1 => exact h
        case h_2 => cases h
      case isFalse base => rwa [if_neg base]
    | write address value => cases h
    | acknowledge opcode => exact h
    | failed request error => cases h

/-- A run that has stored a byte, and has read nothing at its address before, goes on after the byte
like a run on a bus that has it already. -/
lemma Microprogram.run_stored {α β : Type} [Bus β] {p : Microprogram α} {bus after : β}
    {before : List Access} {first : Word} {low : Byte} (store : Bus.Store β)
    (asks : p.Asks before (.write first low))
    (completed : ∀ access ∈ before, access.error? = none)
    (unwritten : ∀ address value, .write address value ∉ before)
    (unread : ∀ value, .read first value ∉ before)
    (behind : Bus.perform bus ((before ++ [Access.write first low]).map Access.request) =
      (before ++ [.write first low], after)) : p.run after = p.run bus := by
  obtain ⟨performed, stored⟩ := store.toSteady.perform_store_inv completed unwritten behind
  have again := store.perform stored completed unwritten unread performed
  exact run_eq_of_asks asks again performed (store.again stored) stored

namespace Registers

variable {r : Registers} {mode : InterruptMode} {before : List Access} {first : Word} {low : Byte}
  {request : Request}

/-- What was done in a step before a word was stored in part is no store, and what was read is the
encoding of the instruction, unless it is the exchange. -/
lemma torn_inv (asks : (r.advance mode).Asks (before ++ [.write first low]) request) :
    (∀ address value, .write address value ∉ before) ∧
      ∀ address value, .read address value ∈ before →
        Instruction.begun? mode (before ++ [.write first low]) = some .exchangeTop ∨
          r.fetches = true ∧ ∃ i, Instruction.begun? mode (before ++ [.write first low]) = some i ∧
            address ∈ r.pc.upFrom i.size := by
  cases storesLast_advance asks with
  | unwritten h => exact absurd (List.mem_append_right _ List.mem_cons_self) (h first low)
  | second taken _ _ _ _ shape _ unwritten read =>
    obtain ⟨rfl, -⟩ := List.append_inj' shape rfl
    exact ⟨unwritten, read⟩

/-- What was read is not at the address that was stored to, when that is not in the encoding. -/
lemma unread_of_torn (asks : (r.advance mode).Asks (before ++ [.write first low]) request)
    (apart : ∀ i, Instruction.begun? mode (before ++ [.write first low]) = some i →
      r.fetches = true → first ∉ r.pc.upFrom i.size)
    (other : Instruction.begun? mode (before ++ [.write first low]) ≠ some .exchangeTop) :
    ∀ value, .read first value ∉ before := by
  intro value found
  obtain exchanges | ⟨fetches, i, begun, inside⟩ := (torn_inv asks).2 first value found
  · exact other exchanges
  · exact apart i begun fetches inside

/-- In a step that has stored the first byte of a word, the bus is halfway, and the first access is still
completed as before. -/
lemma halfway_of_torn {β : Type} [Bus β] {bus after : β} {access : Access} {later : List Access}
    (store : Bus.Store β) (asks : (r.advance mode).Asks (access :: (later ++ [.write first low])) request)
    (completed : ∀ a ∈ access :: later, a.error? = none) (apart : r.fetches = true → first ≠ r.pc)
    (behind : Bus.perform bus ((access :: later ++ [Access.write first low]).map Access.request) =
      (access :: later ++ [.write first low], after)) :
    Bus.Halfway bus after access later first low := by
  have unwritten : ∀ address value, .write address value ∉ access :: later := (torn_inv asks).1
  obtain ⟨performed, stored⟩ := store.toSteady.perform_store_inv completed unwritten behind
  obtain ⟨middle, opened, answers⟩ := Bus.perform_cons_inv performed
  obtain ⟨done, -⟩ := List.forall_mem_cons.mp completed
  obtain rfl : middle = bus := by
    apply store.toSteady.meet done ?_ opened
    rintro address value rfl
    exact unwritten address value List.mem_cons_self
  -- If the first access is a read, it is not of the byte that was stored.
  have opened' : Bus.perform after ([access].map Access.request) = ([access], after) := by
    have alone : Bus.perform middle ([access].map Access.request) = ([access], middle) := by
      simp only [List.map_cons, List.map_nil, Bus.perform, opened]
    apply store.perform stored ?_ ?_ ?_ alone
    · exact List.forall_mem_singleton.mpr done
    · intro address value found
      obtain rfl := List.mem_singleton.mp found
      exact unwritten address value List.mem_cons_self
    · intro value found
      obtain rfl := List.mem_singleton.mp found
      obtain ⟨same, fetches⟩ := advance_read_inv asks
      exact apart fetches same
  obtain ⟨last, met, rest⟩ := Bus.perform_cons_inv opened'
  cases rest
  exact {
    opened := opened
    opened' := met
    answers := answers
    unwritten := fun address value found => unwritten address value (List.mem_cons_of_mem _ found)
    stored := stored }

end Registers

namespace Processor

variable {β : Type} [Bus β] {p : Processor β}

/-- Where the microprogram of a step comes to the same but for L, the step does. -/
lemma step_keepsL {bus : β} (unasked : p.lines.resetRequested = false)
    (like : Completion.KeepsL (p.registers.readByte .l) p.attempt
      ((p.sampled.registers.advance p.mode).run bus)) :
    { p.sampled with bus }.step.result = p.step.result ∧
      { p.sampled with bus }.step.processor =
        { p.step.processor with
          registers := p.step.processor.registers.writeByte .l (p.registers.readByte .l) } := by
  have attempt : { p.sampled with bus }.attempt = (p.sampled.registers.advance p.mode).run bus := by
    rw [Processor.attempt, sampled_again]
    rfl
  rw [← attempt] at like
  obtain ⟨a, ha, again⟩ | ⟨abort, ha, again⟩ := like.ending
  · rw [step_of_ok unasked ha, step_of_ok (p := { p.sampled with bus }) unasked again, like.bus,
      sampled_again]
    exact ⟨rfl, rfl⟩
  · have left := registers_of_abort ha
    rw [step_of_error unasked ha, step_of_error (p := { p.sampled with bus }) unasked again, like.bus,
      sampled_again, left]
    refine ⟨rfl, ?_⟩
    have kept : p.sampled.registers.writeByte .l (p.registers.readByte .l) = p.sampled.registers :=
      Registers.writeByte_readByte p.sampled.registers .l
    rw [kept]

/-- A step that failed at the second byte of a word has made the accesses before on the bus behind, and
is tried again on what is left of it. -/
lemma step_torn {n : Nat} {error : BusError} {before : List Access} {first address : Word}
    {low value : Byte} (came : (p.failing n error).step.processor.bus.pending = none)
    (torn : (p.failing n error).step.trace.accesses =
      before ++ [.write first low, .failed (.write address value) error]) :
    p.lines.resetRequested = false ∧ ∃ after,
      (p.sampled.registers.advance p.mode).Asks before (.write first low) ∧
      (p.sampled.registers.advance p.mode).Asks (before ++ [.write first low])
        (.write address value) ∧
      (∀ access ∈ before, access.error? = none) ∧
      Bus.perform p.bus ((before ++ [Access.write first low]).map Access.request) =
        (before ++ [.write first low], after) ∧
      (p.failing n error).step.result = .error (.bus error) ∧
      (p.failing n error).step.processor.step = { p.sampled with bus := after }.step.onSpent := by
  obtain ⟨unasked, seen, request, after, cut⟩ := step_came came
  obtain ⟨faults, again⟩ := step_cutShort unasked cut
  rw [accesses_step (p := p.failing n error) unasked] at torn
  have split := torn.trans (List.append_cons before _ _)
  -- The log that ends with the failure is the log of what the bus behind has completed.
  obtain ⟨same, -⟩ := List.append_inj' (cut.seen.symm.trans split) rfl
  have behind := cut.behind
  have completed := cut.completed
  rw [same] at behind completed
  exact ⟨unasked, after, asks_of_run torn, asks_of_run split,
    fun access found => completed access (List.mem_append_left _ found), behind, faults, again⟩

/-- A step that fails between the two bytes of a word is tried again as if it had not failed, unless it
exchanges HL with the word on top of the stack. On a bus that is a store, let the write of the second
byte fail, and let the first byte not have been stored over the instruction itself. Then the next step,
with the failure past, is the step without it, in its outcome, its trace and everything it leaves. If it
is an exchange, it comes to the same outcome and leaves the same but for L, which keeps its value. -/
theorem step_restarts_torn (store : Bus.Store β) {n : Nat} {error : BusError} {before : List Access}
    {first : Word} {low high : Byte}
    (came : (p.failing n error).step.processor.bus.pending = none)
    (torn : (p.failing n error).step.trace.accesses =
      before ++ [.write first low, .failed (.write (first + 1) high) error])
    (apart : ∀ i, Instruction.begun? p.mode (p.failing n error).step.trace.accesses = some i →
      p.fetches = true → first ∉ p.registers.pc.upFrom i.size) :
    (p.failing n error).step.result = .error (.bus error) ∧
      (Instruction.begun? p.mode (p.failing n error).step.trace.accesses ≠ some .exchangeTop →
        (p.failing n error).step.processor.step = p.step.onSpent) ∧
      (Instruction.begun? p.mode (p.failing n error).step.trace.accesses = some .exchangeTop →
        (p.failing n error).step.processor.step.result = p.step.result ∧
        (p.failing n error).step.processor.step.processor =
          { p.step.onSpent.processor with
            registers := p.step.processor.registers.writeByte .l (p.registers.readByte .l) }) := by
  obtain ⟨unasked, after, asks, asks', completed, behind, faults, again⟩ := step_torn came torn
  have split := torn.trans (List.append_cons before _ _)
  rw [split] at apart ⊢
  have fetches : p.sampled.registers.fetches = true → p.fetches = true := by
    intro fetches
    rw [Processor.fetches, unasked, fetches]
    rfl
  refine ⟨faults, ?other, ?exchange⟩
  case other =>
    intro other
    -- What comes before the store does not read what it stores, so it is answered as before.
    have unread := Registers.unread_of_torn asks'
      (fun i begun fetched => apart i (Instruction.begun?_append begun _) (fetches fetched))
      (fun begun => other (Instruction.begun?_append begun _))
    have unwritten := (Registers.torn_inv asks').1
    have same := Microprogram.run_stored store asks completed unwritten unread behind
    rw [again, step_sampled unasked same]
  case exchange =>
    intro exchanges
    cases before with
    | nil => cases exchanges
    | cons access later =>
      have beside : p.sampled.registers.fetches = true → first ≠ p.registers.pc := by
        rintro fetched rfl
        exact apart _ exchanges (fetches fetched) List.mem_cons_self
      -- The exchange finds its own low byte on the stack, and takes it for the one that stood there.
      have half := Registers.halfway_of_torn store asks' completed beside behind
      have like := Registers.keepsL_advance store half asks' exchanges
      obtain ⟨result, left⟩ := step_keepsL unasked like
      rw [again]
      refine ⟨result, ?_⟩
      show Processor.plugged _ _ = _
      rw [left]
      rfl

/-- A processor at a call whose return address goes right behind the call. -/
def callBeforeStack : Processor Ram where
  registers := { pc := 0x0100, sp := 0x0105 }
  mode := .mode1
  lines := {}
  cycles := 8
  config := {}
  bus := ({} : Ram).load 0x0100 [0xCD, 0x34, 0x12]

/-- The high byte of the return address fails, and the call is made all the same. -/
theorem step_restarts_torn_callBeforeStack :
    (callBeforeStack.failing 4 (.device 0x0104 "late")).step.result =
        .error (.bus (.device 0x0104 "late")) ∧
      (callBeforeStack.failing 4 (.device 0x0104 "late")).step.processor.step =
        callBeforeStack.step.onSpent ∧
      callBeforeStack.step.result = .ok (.retired 17) := by
  have came : (callBeforeStack.failing 4 (.device 0x0104 "late")).step.processor.bus.pending = none := by
    decide +kernel
  have torn : (callBeforeStack.failing 4 (.device 0x0104 "late")).step.trace.accesses =
      [.read 0x0100 0xCD, .read 0x0101 0x34, .read 0x0102 0x12] ++
        [.write 0x0103 0x03, .failed (.write 0x0104 0x01) (.device 0x0104 "late")] := by
    decide +kernel
  have begun : Instruction.begun? callBeforeStack.mode
      (callBeforeStack.failing 4 (.device 0x0104 "late")).step.trace.accesses = some (.call none) := by
    decide +kernel
  have apart : ∀ i, Instruction.begun? callBeforeStack.mode
      (callBeforeStack.failing 4 (.device 0x0104 "late")).step.trace.accesses = some i →
        callBeforeStack.fetches = true → 0x0103 ∉ callBeforeStack.registers.pc.upFrom i.size := by
    intro i started _
    cases begun.symm.trans started
    decide
  obtain ⟨faults, again, -⟩ := step_restarts_torn Ram.store came torn apart
  refine ⟨faults, again ?_, by rfl⟩
  rw [begun]
  nofun

/-- A processor at an exchange of HL with the word on top of the stack. -/
def exchangeBeforeStack : Processor Ram where
  registers := { hl := 0xBEEF, pc := 0x0100, sp := 0x8000 }
  mode := .mode0
  lines := {}
  cycles := 0
  config := {}
  bus := (({} : Ram).load 0x0100 [0xE3]).load 0x8000 [0x34, 0x12]

/-- Not every step that failed between the two bytes of a word is tried again as if it had not failed:
where HL would have become `0x1234`, it becomes `0x12EF`. -/
theorem not_restarts_torn : ¬ ∀ (p : Processor Ram) (n : Nat) (error : BusError)
    (before : List Access) (first : Word) (low high : Byte),
    (p.failing n error).step.processor.bus.pending = none →
    (p.failing n error).step.trace.accesses =
      before ++ [.write first low, .failed (.write (first + 1) high) error] →
    (∀ i, Instruction.begun? p.mode (p.failing n error).step.trace.accesses = some i →
      first ∉ p.registers.pc.upFrom i.size ∧ first + 1 ∉ p.registers.pc.upFrom i.size) →
    (p.failing n error).step.processor.step.processor.registers = p.step.processor.registers ∧
      ∀ address, (p.failing n error).step.processor.step.processor.bus.bus.peek address =
        p.step.processor.bus.peek address := by
  intro restarts
  have begun : Instruction.begun? exchangeBeforeStack.mode
      (exchangeBeforeStack.failing 4 (.device 0x8001 "late")).step.trace.accesses =
        some .exchangeTop := by
    decide +kernel
  obtain ⟨same, -⟩ := restarts exchangeBeforeStack 4 (.device 0x8001 "late")
    [.read 0x0100 0xE3, .read 0x8000 0x34, .read 0x8001 0x12] 0x8000 0xEF 0xBE
    (by decide +kernel) (by decide +kernel) fun i started => by
      cases begun.symm.trans started
      decide
  have again : (exchangeBeforeStack.failing 4
      (.device 0x8001 "late")).step.processor.step.processor.registers.hl = 0x12EF := by
    decide +kernel
  have once : exchangeBeforeStack.step.processor.registers.hl = 0x1234 := by
    decide +kernel
  rw [same, once] at again
  exact absurd again (by decide)

end Processor

end Z80
