import Mathlib.Data.List.Basic
import Mathlib.Data.List.Induction
import Mathlib.Tactic.Lemma
import Z80.Interrupt.Line

/-!
# Control lines through time

Control lines are driven from outside, and the processor takes note of what they have latched. What
has become of them is told by these events in their order: a level is the one that the line was driven
to last, and a latch is set if something has set it since it was cleared last. What sets the latch of
the non-maskable interrupt line is that the line is driven high when it was driven low before
(`Lines.reflects_undergoAll`).
-/

namespace Z80

/-- Something that happens to control lines. -/
inductive LineEvent where
  /-- They are driven from outside. -/
  | call (call : LineCall)
  /-- The processor takes note of the reset request. -/
  | resetTaken
  /-- The processor takes note of the rise of the non-maskable interrupt line. -/
  | edgeTaken
  deriving DecidableEq, Repr

namespace LineEvent

/-- The level that the non-maskable interrupt line is driven to. -/
def nmiLevel? : LineEvent → Option Bool
  | call (.driveNmi level) => some level
  | _ => none

/-- The level that the maskable interrupt line is driven to. -/
def intLevel? : LineEvent → Option Bool
  | call (.driveInt level) => some level
  | _ => none

/-- The last of the levels that events drive a line to, and the first level if there is none. -/
def lastLevel (driven : LineEvent → Option Bool) (first : Bool) (events : List LineEvent) : Bool :=
  (events.filterMap driven).getLast?.getD first

/-- The non-maskable interrupt line is driven high when the events before have left it low. -/
def Rises (first : Bool) (before : List LineEvent) (event : LineEvent) : Prop :=
  event = call (.driveNmi true) ∧ lastLevel nmiLevel? first before = false

/-- An event has come that sets a latch, given the events before it, and none later that clears it. -/
def Latched (sets : List LineEvent → LineEvent → Prop) (clear : LineEvent)
    (events : List LineEvent) : Prop :=
  ∃ before event after, events = before ++ event :: after ∧ sets before event ∧ clear ∉ after

variable {driven : LineEvent → Option Bool} {sets : List LineEvent → LineEvent → Prop}
  {clear : LineEvent}

/-- The level is the one that was driven last, if that was just now, and as it was before
otherwise. -/
lemma lastLevel_concat (first : Bool) (events : List LineEvent) (last : LineEvent) :
    lastLevel driven first (events ++ [last]) =
      (driven last).getD (lastLevel driven first events) := by
  rw [lastLevel, List.filterMap_append, List.getLast?_append]
  cases h : driven last with
  | none => simp [lastLevel, h]
  | some level => simp [h]

/-- Nothing is latched before anything has happened. -/
lemma not_latched_nil : ¬ Latched sets clear [] := by
  rintro ⟨before, event, after, split, -⟩
  exact absurd split.symm (List.append_ne_nil_of_right_ne_nil before (List.cons_ne_nil event after))

/-- The last event has set the latch, or has not cleared it. -/
lemma latched_concat (events : List LineEvent) (last : LineEvent) :
    Latched sets clear (events ++ [last]) ↔
      sets events last ∨ (Latched sets clear events ∧ last ≠ clear) := by
  constructor
  · rintro ⟨before, event, after, split, set, quiet⟩
    rcases List.eq_nil_or_concat' after with rfl | ⟨after, final, rfl⟩
    · obtain ⟨rfl, same⟩ := List.append_inj' split rfl
      cases same
      exact .inl set
    · rw [← List.cons_append, ← List.append_assoc] at split
      obtain ⟨rfl, same⟩ := List.append_inj' split rfl
      cases same
      rw [List.mem_append, List.mem_singleton, not_or] at quiet
      exact .inr ⟨⟨before, event, after, rfl, set, quiet.1⟩, Ne.symm quiet.2⟩
  · rintro (set | ⟨⟨before, event, after, rfl, set, quiet⟩, passed⟩)
    · exact ⟨events, last, [], rfl, set, List.not_mem_nil⟩
    · refine ⟨before, event, after ++ [last], ?_, set, ?_⟩
      · exact List.append_assoc before (event :: after) [last]
      · rw [List.mem_append, List.mem_singleton, not_or]
        exact ⟨quiet, Ne.symm passed⟩

end LineEvent

namespace Lines

open LineEvent

/-- The lines after something has happened to them. -/
def undergo (l : Lines) : LineEvent → Lines
  | .call c => l.apply c
  | .resetTaken => l.takeReset
  | .edgeTaken => l.takeNmiEdge

def undergoAll (l : Lines) (events : List LineEvent) : Lines := events.foldl undergo l

/-- The lines are what the events since a start say. -/
structure Reflects (l start : Lines) (events : List LineEvent) : Prop where
  nmiLevel : l.nmiLevel = lastLevel nmiLevel? start.nmiLevel events
  intLevel : l.intLevel = lastLevel intLevel? start.intLevel events
  nmiEdge : l.nmiEdge = true ↔
    Latched (Rises start.nmiLevel) .edgeTaken events ∨
      (start.nmiEdge = true ∧ .edgeTaken ∉ events)
  resetRequested : l.resetRequested = true ↔
    Latched (fun _ event => event = .call .requestReset) .resetTaken events ∨
      (start.resetRequested = true ∧ .resetTaken ∉ events)

/-- What happened last happens to the lines after all before it. -/
lemma undergoAll_concat (l : Lines) (events : List LineEvent) (last : LineEvent) :
    l.undergoAll (events ++ [last]) = (l.undergoAll events).undergo last :=
  List.foldl_concat undergo l last events

/-- A level that each event leaves or drives anew is the one that it was driven to last. -/
lemma level_undergoAll {level : Lines → Bool} {driven : LineEvent → Option Bool}
    (step : ∀ l event, level (undergo l event) = (driven event).getD (level l)) (l : Lines)
    (events : List LineEvent) :
    level (l.undergoAll events) = lastLevel driven (level l) events := by
  induction events using List.reverseRecOn with
  | nil => rfl
  | append_singleton events last ih => rw [undergoAll_concat, step, ih, lastLevel_concat]

/-- A latch that each event sets, clears or leaves is set if it was set since it was cleared last. -/
lemma latch_undergoAll {latch : Lines → Bool} {sets : Lines → LineEvent → Prop} {clear : LineEvent}
    (step : ∀ l event, latch (undergo l event) = true ↔
      sets l event ∨ (latch l = true ∧ event ≠ clear)) (l : Lines) (events : List LineEvent) :
    latch (l.undergoAll events) = true ↔
      Latched (fun before event => sets (l.undergoAll before) event) clear events ∨
        (latch l = true ∧ clear ∉ events) := by
  induction events using List.reverseRecOn with
  | nil => simp [undergoAll, not_latched_nil]
  | append_singleton events last ih =>
    rw [undergoAll_concat, step, ih, latched_concat, List.mem_append, List.mem_singleton, not_or,
      ne_comm, or_and_right, and_assoc, or_assoc]

/-- The level of the non-maskable interrupt line is as it is driven, or as it was. -/
lemma nmiLevel_undergo (l : Lines) (event : LineEvent) :
    (l.undergo event).nmiLevel = event.nmiLevel?.getD l.nmiLevel := by
  cases event with
  | call c => cases c <;> rfl
  | resetTaken | edgeTaken => rfl

/-- The level of the maskable interrupt line is as it is driven, or as it was. -/
lemma intLevel_undergo (l : Lines) (event : LineEvent) :
    (l.undergo event).intLevel = event.intLevel?.getD l.intLevel := by
  cases event with
  | call c => cases c <;> rfl
  | resetTaken | edgeTaken => rfl

/-- A rise is remembered from when the line is driven up until note is taken of it. -/
lemma nmiEdge_undergo (l : Lines) (event : LineEvent) :
    (l.undergo event).nmiEdge = true ↔
      (event = .call (.driveNmi true) ∧ l.nmiLevel = false) ∨
        (l.nmiEdge = true ∧ event ≠ .edgeTaken) := by
  cases event with
  | call c =>
    cases c with
    | driveNmi level => cases level <;> simp [undergo, apply, driveNmi, or_comm]
    | requestReset | driveInt _ => simp [undergo, apply, requestReset, driveInt]
  | resetTaken | edgeTaken => simp [undergo, takeReset, takeNmiEdge]

/-- A reset request is remembered until note is taken of it. -/
lemma resetRequested_undergo (l : Lines) (event : LineEvent) :
    (l.undergo event).resetRequested = true ↔
      event = .call .requestReset ∨ (l.resetRequested = true ∧ event ≠ .resetTaken) := by
  cases event with
  | call c => cases c <;> simp [undergo, apply, requestReset, driveNmi, driveInt]
  | resetTaken | edgeTaken => simp [undergo, takeReset, takeNmiEdge]

/-- Whatever happens to control lines, they are what these events say. -/
theorem reflects_undergoAll (start : Lines) (events : List LineEvent) :
    (start.undergoAll events).Reflects start events where
  nmiLevel := level_undergoAll nmiLevel_undergo start events
  intLevel := level_undergoAll intLevel_undergo start events
  nmiEdge := by
    rw [latch_undergoAll nmiEdge_undergo]
    simp only [level_undergoAll nmiLevel_undergo]
    rfl
  resetRequested := latch_undergoAll resetRequested_undergo start events

end Lines

end Z80
