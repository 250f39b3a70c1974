import Z80.Proofs.Microprogram.Asks

/-!
# A failure that passes

A bus that fails one access on purpose and no other (`Transient`). The access that fails does not reach
the bus behind it, whatever the access is. When the failure came in a run, it ended the run, and the bus
behind has seen the accesses before it and nothing else (`Transient.run_came`). When it is past, the bus
is the one behind it (`Transient.run_spent`).
-/

namespace Z80

/-- A bus of which one access fails, once. -/
structure Transient (β : Type) where
  bus : β
  /-- How many accesses still pass before one fails, and how it fails, if it has not failed yet. -/
  pending : Option (Nat × BusError)

namespace Transient

variable {α β : Type}

/-- Makes an access, unless it is the one to fail. -/
def guarded (s : Transient β) (access : β → Except BusError α × β) :
    Except BusError α × Transient β :=
  match s.pending with
  | some (0, error) => (.error error, { s with pending := none })
  | some (n + 1, error) => ((access s.bus).1, ⟨(access s.bus).2, some (n, error)⟩)
  | none => ((access s.bus).1, ⟨(access s.bus).2, none⟩)

instance [Bus β] : Bus (Transient β) where
  read s address := s.guarded (Bus.read · address)
  write s address value := s.guarded (Bus.write · address value)
  acknowledge s := s.guarded Bus.acknowledge

/-- The bus, with no failure to come. -/
def spent (bus : β) : Transient β := ⟨bus, none⟩

section

variable [Bus β] (bus : β) (request : Request)

/-- The access whose turn it is fails, and no later one does. -/
lemma meet_failing (error : BusError) :
    request.meet (Transient.mk bus (some (0, error))) = (.failed request error, spent bus) := by
  cases request <;> rfl

/-- An access before that passes, and one less is left to wait for. -/
lemma meet_waiting (n : Nat) (error : BusError) :
    request.meet (Transient.mk bus (some (n + 1, error))) =
      ((request.meet bus).1, ⟨(request.meet bus).2, some (n, error)⟩) := by
  cases request with
  | read address =>
    have answer : Bus.read (Transient.mk bus (some (n + 1, error))) address =
      ((Bus.read bus address).1, ⟨(Bus.read bus address).2, some (n, error)⟩) := rfl
    simp only [Request.meet, answer]
    rcases Bus.read bus address with ⟨_ | _, after⟩ <;> rfl
  | write address value =>
    have answer : Bus.write (Transient.mk bus (some (n + 1, error))) address value =
      ((Bus.write bus address value).1, ⟨(Bus.write bus address value).2, some (n, error)⟩) := rfl
    simp only [Request.meet, answer]
    rcases Bus.write bus address value with ⟨_ | _, after⟩ <;> rfl
  | acknowledge =>
    have answer : Bus.acknowledge (Transient.mk bus (some (n + 1, error))) =
      ((Bus.acknowledge bus).1, ⟨(Bus.acknowledge bus).2, some (n, error)⟩) := rfl
    simp only [Request.meet, answer]
    rcases Bus.acknowledge bus with ⟨_ | _, after⟩ <;> rfl

end

open Microprogram

/-- The run was cut short by the failure. The bus behind has completed the accesses before it, with these
answers, and the one that failed has not reached it. -/
structure CutShort [Bus β] (bus : β) (error : BusError) (c : Completion (Transient β) α)
    (before : List Access) (request : Request) (after : β) : Prop where
  ending : ∃ left, c.ending = .error ⟨.bus error, left⟩
  left : c.bus = spent after
  seen : c.trace.accesses = before ++ [.failed request error]
  completed : ∀ access ∈ before, access.error? = none
  behind : Bus.perform bus (before.map Access.request) = (before, after)

/-- A run in which the failure came was cut short by it. -/
theorem run_came [Bus β] {p : Microprogram α} {bus : β} {n : Nat} {error : BusError}
    (came : (p.run (Transient.mk bus (some (n, error)))).bus.pending = none) :
    ∃ before request after,
      CutShort bus error (p.run (Transient.mk bus (some (n, error)))) before request after := by
  -- How many accesses still pass changes with each that does, and so does the bus.
  refine run_induction (motive := fun (s : Transient β) (c : Completion (Transient β) α) => ∀ n,
    s.pending = some (n, error) → c.bus.pending = none →
      ∃ before request after, CutShort s.bus error c before request after)
    ?done ?illegal ?completed ?failed ?reported p _ n rfl came
  case done =>
    intro s value n waiting came
    exact absurd (waiting.symm.trans came) (Option.some_ne_none _)
  case illegal =>
    intro s now cause n waiting came
    exact absurd (waiting.symm.trans came) (Option.some_ne_none _)
  case completed =>
    intro s middle request access c met completed ih n waiting came
    obtain ⟨bus, _⟩ := s
    cases waiting
    cases n with
    | zero =>
      rw [meet_failing] at met
      cases met
      cases completed
    | succ n =>
      rw [meet_waiting] at met
      obtain ⟨rfl, rfl⟩ := Prod.mk.inj met
      obtain ⟨before, last, after, cut⟩ := ih n rfl came
      refine ⟨(request.meet bus).1 :: before, last, after, cut.ending, cut.left, ?_, ?_, ?_⟩
      · exact congrArg ((request.meet bus).1 :: ·) cut.seen
      · exact List.forall_mem_cons.mpr ⟨completed, cut.completed⟩
      · simp only [List.map_cons, request.request_meet, Bus.perform, cut.behind]
  case failed =>
    intro s after request cause now met n waiting came
    obtain ⟨bus, _⟩ := s
    cases waiting
    cases n with
    | zero =>
      rw [meet_failing] at met
      cases met
      exact ⟨[], request, bus, ⟨now, rfl⟩, rfl, rfl, List.forall_mem_nil _, rfl⟩
    | succ n =>
      rw [meet_waiting] at met
      obtain ⟨-, rfl⟩ := Prod.mk.inj met
      cases came
  case reported =>
    intro s r c ih n waiting came
    obtain ⟨before, last, after, cut⟩ := ih n waiting came
    exact ⟨before, last, after, cut.ending, cut.left, cut.seen, cut.completed, cut.behind⟩

/-- Once the failure is past, a run is a run on the bus behind. -/
theorem run_spent [Bus β] (p : Microprogram α) (bus : β) :
    p.run (spent bus) =
      ⟨(p.run bus).ending, spent (p.run bus).bus, (p.run bus).trace⟩ := by
  induction p generalizing bus with
  | done value => rfl
  | illegal now cause => rfl
  | read now address next ih =>
    have answer : Bus.read (spent bus) address =
      ((Bus.read bus address).1, spent (Bus.read bus address).2) := rfl
    simp only [run, answer]
    rcases Bus.read bus address with ⟨_ | value, after⟩
    · rfl
    · simp only [ih]
      rfl
  | write now address value next ih =>
    have answer : Bus.write (spent bus) address value =
      ((Bus.write bus address value).1, spent (Bus.write bus address value).2) := rfl
    simp only [run, answer]
    rcases Bus.write bus address value with ⟨_ | _, after⟩
    · rfl
    · simp only [ih]
      rfl
  | acknowledge now next ih =>
    have answer : Bus.acknowledge (spent bus) =
      ((Bus.acknowledge bus).1, spent (Bus.acknowledge bus).2) := rfl
    simp only [run, answer]
    rcases Bus.acknowledge bus with ⟨_ | value, after⟩
    · rfl
    · simp only [ih]
      rfl
  | report r next ih =>
    simp only [run, ih]
    rfl

end Transient

end Z80
