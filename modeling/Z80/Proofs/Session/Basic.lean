import Z80.Interrupt.Pool
import Z80.Proofs.Processor.Course

/-!
# Sessions

A processor from power-on on, with everything that is done to it from outside: calls through any
handle on its inputs, steps, resets, changes of its bus, its mode and its registers. A session keeps
what has happened so far (`Session.past`), and properties of the past say what the state of the
processor stands for.

The handles are shared and made afresh while the session goes on. Those of the first family are on
the inputs of the processor (`Session.wired`).
-/

namespace Z80

/-- Something that may be done from outside. -/
inductive Action (β : Type) where
  /-- A call through a handle. -/
  | drive (handle : Nat) (call : LineCall)
  /-- One more handle on what a handle is on. -/
  | share (handle : Nat)
  /-- A handle on inputs of its own. -/
  | addFresh
  | step
  | reset
  | selectMode (mode : InterruptMode)
  | resetCycles
  | changeBus (change : β → β)
  | edit (change : Registers → Registers)

/-- Something that has happened to the processor. -/
inductive Incident where
  | called (call : LineCall)
  | reset
  | stepped (result : Except Fault StepOutcome) (seen : List Access)

namespace Incident

/-- A reset was carried out, at once or by a step. -/
def isReset : Incident → Bool
  | reset | stepped (.ok .reset) _ => true
  | _ => false

/-- A step entered the handler of the non-maskable interrupt. -/
def acceptsNmi : Incident → Bool
  | stepped (.ok (.interrupted .nmi _)) _ => true
  | _ => false

/-- A step stopped short. -/
def isFault : Incident → Bool
  | stepped (.error _) _ => true
  | _ => false

/-- The instruction that a step completed, fetched or supplied. -/
def retired? : Incident → Option Instruction
  | stepped (.ok (.retired _)) seen => Instruction.ofAccesses? seen
  | stepped (.ok (.interrupted (.maskable .mode0) _)) seen => Instruction.ofAccesses? seen
  | _ => none

end Incident

/-- What a step was, as it is remembered. -/
def Step.incident {β : Type} (s : Step β) : Incident := .stepped s.result s.trace.accesses

/-- A processor, the handles, and what has happened, the latest first. -/
structure Session (β : Type) where
  processor : Processor β
  pool : LinePool
  wired : pool.families[0]? = some processor.lines
  past : List Incident

namespace LinePool

/-- The inputs of the first family become these. -/
def withFirst (p : LinePool) (lines : Lines) : LinePool :=
  { p with families := p.families.set 0 lines }

variable {p : LinePool} {lines : Lines}

/-- The first lines of a pool are those that were put there. -/
lemma withFirst_first (h : p.families[0]? = some lines) (after : Lines) :
    (p.withFirst after).families[0]? = some after := by
  obtain ⟨hl, -⟩ := List.getElem?_eq_some_iff.mp h
  exact List.getElem?_set_self hl

/-- One more handle leaves the first lines of a pool as they are. -/
lemma share_first (h : p.families[0]? = some lines) (handle : Nat) :
    (p.share handle).families[0]? = some lines := by
  unfold share
  split
  case h_1 => exact h
  case h_2 => exact h

/-- A handle on lines of its own leaves the first lines of a pool as they are. -/
lemma addFresh_first (h : p.families[0]? = some lines) : p.addFresh.families[0]? = some lines := by
  obtain ⟨hl, -⟩ := List.getElem?_eq_some_iff.mp h
  exact (List.getElem?_append_left hl).trans h

/-- A call through a handle of the first family is a call on its inputs. -/
lemma apply_first (h : p.families[0]? = some lines) {handle : Nat}
    (hf : p.family? handle = some 0) (call : LineCall) :
    (p.apply handle call).families[0]? = some (lines.apply call) := by
  simp only [apply, hf, List.getElem?_modify_eq, h, Option.map_eq_map, Option.map_some]

/-- A call through a handle of another family leaves the inputs of the first alone. -/
lemma apply_first_ne (h : p.families[0]? = some lines) {handle : Nat}
    (hf : p.family? handle ≠ some 0) (call : LineCall) :
    (p.apply handle call).families[0]? = some lines := by
  unfold apply
  split
  case h_1 family hfamily =>
    have other : family ≠ 0 := by
      rintro rfl
      exact hf hfamily
    exact (List.getElem?_modify_ne _ _ other).trans h
  case h_2 => exact h

end LinePool

namespace Session

variable {β : Type}

/-- A session begins when a processor is switched on. -/
def powerOn (bus : β) (config : Config) : Session β where
  processor := .withConfig bus config
  pool := {}
  wired := rfl
  past := []

/-- The session when something has happened to the processor. -/
def become (s : Session β) (p : Processor β) (happened : List Incident) : Session β where
  processor := p
  pool := s.pool.withFirst p.lines
  wired := LinePool.withFirst_first s.wired _
  past := happened ++ s.past

/-- The session after a call through a handle. The processor takes part if the handle is on its
inputs. -/
def drive (s : Session β) (handle : Nat) (call : LineCall) : Session β :=
  if h : s.pool.family? handle = some 0 then
    { processor := s.processor.drive call
      pool := s.pool.apply handle call
      wired := LinePool.apply_first s.wired h call
      past := .called call :: s.past }
  else
    { s with
      pool := s.pool.apply handle call
      wired := LinePool.apply_first_ne s.wired h call }

/-- The session after something was done from outside. -/
def act [Bus β] (s : Session β) : Action β → Session β
  | .drive handle call => s.drive handle call
  | .share handle => { s with
      pool := s.pool.share handle
      wired := LinePool.share_first s.wired handle }
  | .addFresh => { s with
      pool := s.pool.addFresh
      wired := LinePool.addFresh_first s.wired }
  | .step => s.become s.processor.step.processor [s.processor.step.incident]
  | .reset => s.become s.processor.reset.1 [.reset]
  | .selectMode mode => s.become (s.processor.selectMode mode).1 []
  | .resetCycles => s.become s.processor.resetCycles []
  | .changeBus change => s.become { s.processor with bus := change s.processor.bus } []
  | .edit change => s.become { s.processor with registers := change s.processor.registers } []

/-- The session came from power-on by doing things that are allowed. -/
inductive Reached [Bus β] (allowed : Action β → Prop) : Session β → Prop where
  | powerOn (bus : β) (config : Config) : Reached allowed (.powerOn bus config)
  | act {s : Session β} {a : Action β} (hs : Reached allowed s) (ha : allowed a) :
      Reached allowed (s.act a)

/-- A call through a handle on the lines of the processor reaches it, and is remembered. -/
lemma drive_heard (s : Session β) {handle : Nat} (h : s.pool.family? handle = some 0)
    (call : LineCall) :
    (s.drive handle call).processor = s.processor.drive call ∧
      (s.drive handle call).past = .called call :: s.past := by
  simp only [drive, h, dite_true, and_self]

/-- A call through any other handle does not reach the processor, and is not remembered. -/
lemma drive_unheard (s : Session β) {handle : Nat} (h : s.pool.family? handle ≠ some 0)
    (call : LineCall) :
    (s.drive handle call).processor = s.processor ∧ (s.drive handle call).past = s.past := by
  simp only [drive, h, dite_false, and_self]

end Session

end Z80
