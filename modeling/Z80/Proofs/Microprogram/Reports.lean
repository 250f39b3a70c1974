import Mathlib.Tactic.Lemma
import Z80.Microprogram.Supplied

/-!
# Reports of a microprogram

A listener is told the reports of a run one after the other and keeps what it makes of them
(`Trace.relay`). Of a microprogram it can be said what its reports are like (`Microprogram.Reports`), and
most of it reports nothing at all (`Microprogram.Mute`). Of the whole it can be said what a listener
keeps where it ends, and what where it stops short, whatever the bus answers (`Microprogram.Follows`).
Then the listener keeps that of a run, on any bus (`Microprogram.Follows.of_run`).
-/

namespace Z80

/-- What a listener keeps when it was told the reports of a trace. -/
def Trace.relay {σ : Type} (receive : σ → Report → σ) : σ → Trace → σ
  | s, [] => s
  | s, .access _ :: later => relay receive s later
  | s, .report r :: later => relay receive (receive s r) later

/-- A trace is told after the one before it. -/
lemma Trace.relay_append {σ : Type} (receive : σ → Report → σ) (s : σ) (t u : Trace) :
    Trace.relay receive s (t ++ u) = Trace.relay receive (Trace.relay receive s t) u := by
  induction t generalizing s with
  | nil => rfl
  | cons seen later ih =>
    cases seen with
    | access a => exact ih s
    | report r => exact ih (receive s r)

/-- What the listener keeps of the completion satisfies the first condition if it ended with a value,
and the second if it stopped short. -/
def Completion.Follows {α β σ : Type} (receive : σ → Report → σ) (ends : α → σ → Prop)
    (stops : σ → Prop) (s : σ) (c : Completion β α) : Prop :=
  match c.ending with
  | .ok value => ends value (c.trace.relay receive s)
  | .error _ => stops (c.trace.relay receive s)

namespace Completion

variable {α β σ : Type} {receive : σ → Report → σ} {ends : α → σ → Prop} {stops : σ → Prop} {s : σ}

/-- An access tells the listener nothing. -/
lemma Follows.after_access {a : Access} {c : Completion β α} (h : c.Follows receive ends stops s) :
    (c.after (.access a)).Follows receive ends stops s := h

/-- Conditions may be replaced by weaker ones. -/
lemma Follows.imp {ends' : α → σ → Prop} {stops' : σ → Prop} {c : Completion β α}
    (h : c.Follows receive ends stops s) (he : ∀ value kept, ends value kept → ends' value kept)
    (hs : ∀ kept, stops kept → stops' kept) : c.Follows receive ends' stops' s := by
  unfold Follows at h ⊢
  revert h
  cases c.ending with
  | ok value => exact he value _
  | error abort => exact hs _

end Completion

namespace Microprogram

variable {α β γ σ : Type}

/-- Every report satisfies the condition. -/
def Reports (P : Report → Prop) : Microprogram α → Prop
  | done _ | illegal _ _ => True
  | read _ _ next | acknowledge _ next => ∀ value, (next value).Reports P
  | write _ _ _ next => next.Reports P
  | report r next => P r ∧ next.Reports P

section Reports

variable {P Q : Report → Prop} {p : Microprogram α}

/-- The reports of a sequence are those of its parts. -/
lemma Reports.bind {f : α → Microprogram γ} (hp : p.Reports P) (hf : ∀ value, (f value).Reports P) :
    (p.bind f).Reports P := by
  induction p with
  | done value => exact hf value
  | illegal now cause => exact trivial
  | read now address next ih => exact fun value => ih value (hp value)
  | write now address value next ih => exact ih hp
  | acknowledge now next ih => exact fun value => ih value (hp value)
  | report r next ih => exact ⟨hp.1, ih hp.2⟩

/-- A microprogram that goes on without an access reports what its first part does. -/
lemma Reports.bind_done {f : α → γ} (hp : p.Reports P) :
    (p.bind fun value => .done (f value)).Reports P :=
  hp.bind fun _ => trivial

/-- A condition on the reports may be replaced by a weaker one. -/
lemma Reports.imp (hp : p.Reports P) (h : ∀ r, P r → Q r) : p.Reports Q := by
  induction p with
  | done value => exact trivial
  | illegal now cause => exact trivial
  | read now address next ih => exact fun value => ih value (hp value)
  | write now address value next ih => exact ih hp
  | acknowledge now next ih => exact fun value => ih value (hp value)
  | report r next ih => exact ⟨h r hp.1, ih hp.2⟩

/-- What is put right where a microprogram stops short is not reported. -/
lemma Reports.onAbort (hp : p.Reports P) (repair : Registers → Registers) :
    (p.onAbort repair).Reports P := by
  induction p with
  | done value => exact trivial
  | illegal now cause => exact trivial
  | read now address next ih => exact fun value => ih value (hp value)
  | write now address value next ih => exact ih hp
  | acknowledge now next ih => exact fun value => ih value (hp value)
  | report r next ih => exact ⟨hp.1, ih hp.2⟩

/-- A microprogram reports no more when some of what it reads is supplied. -/
lemma Reports.withSupplied (hp : p.Reports P) (first : Word) (bytes : List Byte) :
    (p.withSupplied first bytes).Reports P := by
  induction p with
  | done value => exact trivial
  | illegal now cause => exact trivial
  | read now address next ih =>
    unfold Microprogram.withSupplied
    split
    case h_1 value _ => exact ih value (hp value)
    case h_2 => exact fun value => ih value (hp value)
  | write now address value next ih => exact ih hp
  | acknowledge now next ih => exact fun value => ih value (hp value)
  | report r next ih => exact ⟨hp.1, ih hp.2⟩

end Reports

/-- Nothing is reported. -/
def Mute : Microprogram α → Prop := Reports fun _ => False

/-- What the listener keeps satisfies the first condition where the microprogram ends with a value, and
the second where it stops short. -/
def Follows (receive : σ → Report → σ) (ends : α → σ → Prop) (stops : σ → Prop) :
    σ → Microprogram α → Prop
  | s, done value => ends value s
  | s, illegal _ _ => stops s
  | s, read _ _ next | s, acknowledge _ next =>
    stops s ∧ ∀ value, (next value).Follows receive ends stops s
  | s, write _ _ _ next => stops s ∧ next.Follows receive ends stops s
  | s, report r next => next.Follows receive ends stops (receive s r)

variable {receive : σ → Report → σ} {stops : σ → Prop} {s : σ}

/-- The listener goes on with what it has kept of the first part. -/
lemma Follows.bind {ends : α → σ → Prop} {ends' : γ → σ → Prop} {p : Microprogram α}
    {f : α → Microprogram γ} (hp : p.Follows receive ends stops s)
    (hf : ∀ value kept, ends value kept → (f value).Follows receive ends' stops kept) :
    (p.bind f).Follows receive ends' stops s := by
  induction p generalizing s with
  | done value => exact hf value s hp
  | illegal now cause => exact hp
  | read now address next ih => exact ⟨hp.1, fun value => ih value (hp.2 value)⟩
  | write now address value next ih => exact ⟨hp.1, ih hp.2⟩
  | acknowledge now next ih => exact ⟨hp.1, fun value => ih value (hp.2 value)⟩
  | report r next ih => exact ih hp

/-- Reports of a kind that makes no difference leave the listener with what it has. -/
lemma Reports.follows {R : Report → Prop} {P : α → Prop} {p : Microprogram α} (hp : p.Reports R)
    (keeps : ∀ r, R r → receive s r = s) (yields : p.Yields P) (stop : stops s) :
    p.Follows receive (fun value kept => P value ∧ kept = s) stops s := by
  induction p with
  | done value => exact ⟨yields, rfl⟩
  | illegal now cause => exact stop
  | read now address next ih => exact ⟨stop, fun value => ih value (hp value) (yields value)⟩
  | write now address value next ih => exact ⟨stop, ih hp yields⟩
  | acknowledge now next ih => exact ⟨stop, fun value => ih value (hp value) (yields value)⟩
  | report r next ih =>
    unfold Follows
    rw [keeps r hp.1]
    exact ih hp.2 yields

/-- What comes first and makes no difference to the listener need only be looked at for the values
that it can yield. -/
lemma Reports.follows_bind {R : Report → Prop} {ends : γ → σ → Prop} {P : α → Prop}
    {p : Microprogram α} {f : α → Microprogram γ} (hp : p.Reports R)
    (keeps : ∀ r, R r → receive s r = s) (yields : p.Yields P) (stop : stops s)
    (hf : ∀ value, P value → (f value).Follows receive ends stops s) :
    (p.bind f).Follows receive ends stops s := by
  apply (hp.follows keeps yields stop).bind
  rintro value kept ⟨holds, rfl⟩
  exact hf value holds

/-- What is put right where a microprogram stops short tells the listener nothing. -/
lemma Follows.onAbort {ends : α → σ → Prop} {p : Microprogram α}
    (hp : p.Follows receive ends stops s) (repair : Registers → Registers) :
    (p.onAbort repair).Follows receive ends stops s := by
  induction p generalizing s with
  | done value => exact hp
  | illegal now cause => exact hp
  | read now address next ih => exact ⟨hp.1, fun value => ih value (hp.2 value)⟩
  | write now address value next ih => exact ⟨hp.1, ih hp.2⟩
  | acknowledge now next ih => exact ⟨hp.1, fun value => ih value (hp.2 value)⟩
  | report r next ih => exact ih hp

/-- What holds whenever it ends holds of the values it can end with. -/
lemma Follows.yields {ends : α → σ → Prop} {P : α → Prop} {p : Microprogram α}
    (hp : p.Follows receive ends stops s) (h : ∀ value kept, ends value kept → P value) :
    p.Yields P := by
  induction p generalizing s with
  | done value => exact h value s hp
  | illegal now cause => exact trivial
  | read now address next ih => exact fun value => ih value (hp.2 value)
  | write now address value next ih => exact ih hp.2
  | acknowledge now next ih => exact fun value => ih value (hp.2 value)
  | report r next ih => exact ih hp

/-- However a run came to an end, the listener keeps what it should. -/
theorem Follows.of_run [Bus β] {ends : α → σ → Prop} {p : Microprogram α}
    (hp : p.Follows receive ends stops s) (bus : β) :
    (p.run bus).Follows receive ends stops s := by
  induction p generalizing bus s with
  | done value => exact hp
  | illegal now cause => exact hp
  | read now address next ih =>
    simp only [run]
    split
    case h_1 value middle _ => exact ih value (hp.2 value) middle
    case h_2 => exact hp.1
  | write now address value next ih =>
    simp only [run]
    split
    case h_1 _ middle _ => exact ih hp.2 middle
    case h_2 => exact hp.1
  | acknowledge now next ih =>
    simp only [run]
    split
    case h_1 value middle _ => exact ih value (hp.2 value) middle
    case h_2 => exact hp.1
  | report r next ih => exact ih hp bus

/-- Bytes that a device gives are not reported. -/
lemma mute_acknowledgeBytes (now : Registers) (n : Nat) : (acknowledgeBytes now n).Mute := by
  induction n with
  | zero => exact trivial
  | succ n ih =>
    intro value
    exact ih.bind_done

end Microprogram

end Z80
