import Z80.Bus.Ram
import Z80.Proofs.Processor.Mode
import Z80.Proofs.Session.Basic

/-!
# The interrupt mode over a session

Of all that is done to a processor only a few things select an interrupt mode (`Session.selects?`): a
reset by either way, a selection from outside, and a step that completes an `IM`. The mode is the one
that was selected last, and the log of the session, read from its beginning, leads to it
(`Session.mode_selected_last`).
-/

namespace Z80.Session

variable {β : Type}

/-- No call through a handle touches the mode or the configuration. -/
lemma drive_kept (s : Session β) (handle : Nat) (call : LineCall) :
    (s.drive handle call).processor.mode = s.processor.mode ∧
      (s.drive handle call).processor.config = s.processor.config := by
  by_cases heard : s.pool.family? handle = some 0
  · rw [(s.drive_heard heard call).1]
    exact ⟨rfl, rfl⟩
  · rw [(s.drive_unheard heard call).1]
    exact ⟨rfl, rfl⟩

variable [Bus β]

/-- The mode that is selected by what is done. -/
def selects? (s : Session β) : Action β → Option InterruptMode
  | .step => s.processor.step.selects?
  | .reset => some s.processor.config.resetMode
  | .selectMode mode => some mode
  | .drive _ _ | .share _ | .addFresh | .resetCycles | .changeBus _ | .edit _ => none

/-- The lines that are written to the log by what is done. -/
def writes (s : Session β) : Action β → List String
  | .step => s.processor.step.trace.lines
  | .reset => s.processor.reset.2.lines
  | .selectMode mode => (s.processor.selectMode mode).2.lines
  | .drive _ _ | .share _ | .addFresh | .resetCycles | .changeBus _ | .edit _ => []

/-- The session after several things were done, one after the other. -/
def actAll (s : Session β) (actions : List (Action β)) : Session β := actions.foldl act s

/-- The modes that are selected on the way, the earliest first. -/
def selections (s : Session β) : List (Action β) → List InterruptMode
  | [] => []
  | a :: later => (s.selects? a).toList ++ (s.act a).selections later

/-- What is written to the log on the way. -/
def log (s : Session β) : List (Action β) → List String
  | [] => []
  | a :: later => s.writes a ++ (s.act a).log later

/-- An action leaves the mode that it selects, and the mode as it was if it selects none. -/
lemma mode_act (s : Session β) (a : Action β) :
    (s.act a).processor.mode = (s.selects? a).getD s.processor.mode := by
  cases a with
  | drive handle call => exact (s.drive_kept handle call).1
  | step => exact s.processor.mode_step
  | share _ | addFresh | reset | selectMode _ | resetCycles | changeBus _ | edit _ => rfl

/-- No action touches the configuration. -/
lemma config_act (s : Session β) (a : Action β) :
    (s.act a).processor.config = s.processor.config := by
  cases a with
  | drive handle call => exact (s.drive_kept handle call).2
  | step => exact s.processor.config_step
  | share _ | addFresh | reset | selectMode _ | resetCycles | changeBus _ | edit _ => rfl

/-- What is written to the log leads from the mode before to the mode after. -/
lemma replay_act (s : Session β) (a : Action β) :
    InterruptMode.replay s.processor.config.resetMode s.processor.mode (s.writes a) =
      (s.act a).processor.mode := by
  cases a with
  | drive handle call => exact (s.drive_kept handle call).1.symm
  | step => exact s.processor.replay_step
  | selectMode mode => exact s.processor.replay_selectMode mode
  | share _ | addFresh | reset | resetCycles | changeBus _ | edit _ => rfl

/-- Actions leave the mode that was selected last, and the mode as it was if none was. -/
lemma mode_actAll (s : Session β) (actions : List (Action β)) :
    (s.actAll actions).processor.mode =
      (s.selections actions).getLast?.getD s.processor.mode := by
  induction actions generalizing s with
  | nil => rfl
  | cons a later ih =>
    show ((s.act a).actAll later).processor.mode = _
    rw [ih, mode_act, selections, List.getLast?_append]
    cases (s.act a).selections later |>.getLast? with
    | some last => rfl
    | none => cases s.selects? a <;> rfl

/-- The log of actions leads from the mode before them to the mode after them. -/
lemma replay_actAll (s : Session β) (actions : List (Action β)) :
    InterruptMode.replay s.processor.config.resetMode s.processor.mode (s.log actions) =
      (s.actAll actions).processor.mode := by
  induction actions generalizing s with
  | nil => rfl
  | cons a later ih =>
    show _ = ((s.act a).actAll later).processor.mode
    rw [log, InterruptMode.replay_append, replay_act, ← s.config_act a]
    exact ih (s.act a)

/-- The mode is the last of the selections, or that of power-on if there is none, and the log leads to it
from that of power-on. An interrupt that is answered next leaves it, in whatever mode it is answered, and
so does a step that stops short. -/
structure ModeTracked (s : Session β) (config : Config) (selections : List InterruptMode)
    (log : List String) : Prop where
  last : s.processor.mode = selections.getLast?.getD config.resetMode
  log : InterruptMode.replay config.resetMode config.resetMode log = s.processor.mode
  interrupted : ∀ source cycles, s.processor.step.result = .ok (.interrupted source cycles) →
    (s.act .step).processor.mode = s.processor.mode
  stopped : ∀ fault, s.processor.step.result = .error fault →
    (s.act .step).processor.mode = s.processor.mode

/-- From power-on on, whatever is done and in whatever order, the interrupt mode is the one that was
selected last, and the log of all that was done leads to it. -/
theorem mode_selected_last (bus : β) (config : Config) (actions : List (Action β)) :
    ((powerOn bus config).actAll actions).ModeTracked config
      ((powerOn bus config).selections actions) ((powerOn bus config).log actions) where
  last := (powerOn bus config).mode_actAll actions
  log := (powerOn bus config).replay_actAll actions
  interrupted source cycles answered := by
    rw [mode_act, selects?, Step.selects?, answered]
    rfl
  stopped fault failed := by
    rw [mode_act, selects?, Step.selects?, failed]
    rfl

/-- Nothing is written when the mode is selected that is in force, and of a reset not which mode it puts
back. -/
example :
    let s := powerOn (({} : Ram).load 0 [0xED, 0x5E]) { resetMode := .mode1 }
    let actions : List (Action Ram) :=
      [.step, .selectMode .mode2, .drive 0 .requestReset, .step]
    s.selections actions = [.mode2, .mode2, .mode1] ∧
      s.log actions = ["0x0000  IM 2", "interrupt mode 2", "reset"] := by
  decide +kernel

end Z80.Session
