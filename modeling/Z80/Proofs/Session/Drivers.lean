import Z80.Bus.Ram
import Z80.Proofs.Interrupt.Family
import Z80.Proofs.Session.Basic

/-!
# Drivers of the control lines

Several drivers call on the inputs of processors, each through handles of its own choice. They do not
disturb one another (`Session.drivers_undisturbed`). Handles with one founder show the same lines, as
these are left by what has been done through them, and the lines of other founders are left alone. If
one driver calls on the non-maskable interrupt line only, one on the maskable line only and one requests
resets only, then the order in which their calls come does not matter.
-/

namespace Z80

/-- The calls on the non-maskable interrupt line, those on the maskable line and the requests for a
reset that calls through handles are made up of. The calls on each input come in their own order. -/
inductive Interleaved :
    List (Nat × Bool) → List (Nat × Bool) → List Nat → List (Nat × LineCall) → Prop where
  | nil : Interleaved [] [] [] []
  | nmi {nmi int resets calls} (handle : Nat) (level : Bool) :
    Interleaved nmi int resets calls →
    Interleaved ((handle, level) :: nmi) int resets ((handle, .driveNmi level) :: calls)
  | int {nmi int resets calls} (handle : Nat) (level : Bool) :
    Interleaved nmi int resets calls →
    Interleaved nmi ((handle, level) :: int) resets ((handle, .driveInt level) :: calls)
  | reset {nmi int resets calls} (handle : Nat) :
    Interleaved nmi int resets calls →
    Interleaved nmi int (handle :: resets) ((handle, .requestReset) :: calls)

namespace LinePool

/-- Calls on different inputs can change places, through whatever handles they are made. -/
lemma apply_comm (p : LinePool) {c d : LineCall} (apart : c.sameInput d = false) (i j : Nat) :
    (p.apply i c).apply j d = (p.apply j d).apply i c := by
  have comm : (Lines.apply · d) ∘ (Lines.apply · c) = (Lines.apply · c) ∘ (Lines.apply · d) :=
    funext fun l => l.apply_comm apart
  exact p.change_comm comm i j

end LinePool

namespace Session

variable {β : Type}

/-- A processor and the handles on its inputs and on others. -/
def front (s : Session β) : Processor β × LinePool := (s.processor, s.pool)

/-- A processor and handles after a call, which is one to the processor if the handle is of the first
family. -/
def hear (x : Processor β × LinePool) (call : Nat × LineCall) : Processor β × LinePool :=
  (if x.2.family? call.1 = some 0 then x.1.drive call.2 else x.1, x.2.apply call.1 call.2)

/-- The session after calls through handles. -/
def driveAll (s : Session β) (calls : List (Nat × LineCall)) : Session β :=
  calls.foldl (fun s call => s.drive call.1 call.2) s

/-- What a call does can be told from the processor and the pool alone. -/
lemma front_drive (s : Session β) (call : Nat × LineCall) :
    (s.drive call.1 call.2).front = hear s.front call := by
  unfold drive hear
  split
  case isTrue heard => exact congrArg (·, _) (if_pos heard).symm
  case isFalse unheard => exact congrArg (·, _) (if_neg unheard).symm

/-- What calls do can be told from the processor and the pool alone. -/
lemma front_driveAll (s : Session β) (calls : List (Nat × LineCall)) :
    (s.driveAll calls).front = calls.foldl hear s.front :=
  (List.foldl_hom front fun s call => (s.front_drive call).symm).symm

/-- Calls on different inputs may come in either order, through whatever handles. -/
lemma hear_comm (x : Processor β × LinePool) {c d : Nat × LineCall}
    (apart : c.2.sameInput d.2 = false) : hear (hear x c) d = hear (hear x d) c := by
  obtain ⟨q, p⟩ := x
  have kept : ∀ i j call, (p.apply i call).family? j = p.family? j :=
    fun i j call => p.family?_change i j (·.apply call)
  have lines : (q.drive c.2).drive d.2 = (q.drive d.2).drive c.2 :=
    congrArg (fun lines => { q with lines }) (q.lines.apply_comm apart)
  simp only [hear, kept, p.apply_comm apart c.1 d.1]
  split <;> split
  · rw [lines]
  all_goals rfl

/-- A call on an input may as well come after calls that are all on other inputs. -/
lemma foldl_hear (x : Processor β × LinePool) (call : Nat × LineCall)
    (others : List (Nat × LineCall)) (apart : ∀ other ∈ others, other.2.sameInput call.2 = false) :
    others.foldl hear (hear x call) = hear (others.foldl hear x) call := by
  induction others generalizing x with
  | nil => rfl
  | cons other later ih =>
    obtain ⟨first, rest⟩ := List.forall_mem_cons.mp apart
    rw [List.foldl_cons, List.foldl_cons, ← hear_comm x first]
    exact ih (hear x other) rest

/-- A call may come later than calls on other inputs. -/
lemma foldl_hear_insert (x : Processor β × LinePool) (call : Nat × LineCall)
    (earlier later : List (Nat × LineCall))
    (apart : ∀ other ∈ earlier, other.2.sameInput call.2 = false) :
    (call :: (earlier ++ later)).foldl hear x = (earlier ++ call :: later).foldl hear x := by
  rw [List.foldl_cons, List.foldl_append, foldl_hear x call earlier apart, List.foldl_append,
    List.foldl_cons]

/-- First all calls on the non-maskable interrupt line, then all on the maskable line, and then all
requests for a reset. -/
def inOrder (nmi int : List (Nat × Bool)) (resets : List Nat) : List (Nat × LineCall) :=
  nmi.map (fun call => (call.1, .driveNmi call.2)) ++
    int.map (fun call => (call.1, .driveInt call.2)) ++
    resets.map fun handle => (handle, .requestReset)

/-- Whatever the order was in which the calls came, they may as well have come input by input. -/
lemma foldl_hear_inOrder (x : Processor β × LinePool) {nmi int : List (Nat × Bool)}
    {resets : List Nat} {calls : List (Nat × LineCall)} (h : Interleaved nmi int resets calls) :
    calls.foldl hear x = (inOrder nmi int resets).foldl hear x := by
  induction h generalizing x with
  | nil => rfl
  | nmi handle level _ ih => exact ih _
  | int handle level _ ih =>
    -- It passes the calls on the non-maskable line, and stays in front of those on its own.
    refine (ih (hear x (handle, .driveInt level))).trans ?_
    rw [inOrder, inOrder, List.append_assoc, List.append_assoc]
    exact foldl_hear_insert x _ _ _ (List.forall_mem_map.mpr fun _ _ => rfl)
  | reset handle _ ih =>
    refine (ih (hear x (handle, .requestReset))).trans (foldl_hear_insert x _ _ _ ?_)
    exact List.forall_mem_append.mpr
      ⟨List.forall_mem_map.mpr fun _ _ => rfl, List.forall_mem_map.mpr fun _ _ => rfl⟩

/-- Two orders of the same calls lead to the same processor and handles. -/
lemma front_driveAll_eq (s : Session β) {nmi int : List (Nat × Bool)} {resets : List Nat}
    {calls others : List (Nat × LineCall)} (h : Interleaved nmi int resets calls)
    (h' : Interleaved nmi int resets others) :
    (s.driveAll calls).front = (s.driveAll others).front := by
  rw [front_driveAll, front_driveAll, foldl_hear_inOrder _ h, foldl_hear_inOrder _ h']

end Session

/-- A step takes note of what the inputs have latched, and leaves their levels. -/
lemma Processor.lines_step {β : Type} [Bus β] (p : Processor β) :
    p.step.processor.lines = p.lines.undergoAll [.resetTaken, .edgeTaken] := by
  have untaken (unasked : p.lines.resetRequested = false) : p.lines.takeReset = p.lines := by
    rw [Lines.takeReset, ← unasked]
  obtain hr | ⟨hr, ⟨a, ha⟩ | ⟨abort, ha⟩⟩ := p.step_cases
  · rw [step_of_reset hr]
    rfl
  · rw [step_of_ok hr ha]
    exact congrArg Lines.takeNmiEdge (untaken hr).symm
  · rw [step_of_error hr ha]
    exact congrArg Lines.takeNmiEdge (untaken hr).symm

namespace Session

open LinePool PoolAction

variable {β : Type} [Bus β]

/-- However a pool has grown and whatever is done with its handles then, each handle shows what has
been done since through handles with its founder, as all of these do, and a call leaves alone what is
seen through handles with other founders. Calls on the three inputs may come in any order that keeps
those on each input in theirs: they lead to the same processor and the same handles, and so to the same
step. What a step or a reset does to the inputs is that it takes note of what they have latched. -/
theorem drivers_undisturbed (before later : List PoolAction) :
    let founders := enrolAll [0] (before ++ later)
    let pool := ({} : LinePool).actAll before
    let after := pool.actAll later
    founders.length = after.handles.length ∧
      (∀ handle founder : Nat, founders[handle]? = some founder →
        ∃ lines, after.view[handle]? = some lines ∧
          lines.Reflects ((pool.lines? founder).getD {})
            (heardAll founder (enrolAll [0] before) later)) ∧
      (∀ i j : Nat, founders[i]? = founders[j]? → after.view[i]? = after.view[j]?) ∧
      (∀ (i j : Nat) (call : LineCall), founders[i]? ≠ founders[j]? →
        (after.apply i call).view[j]? = after.view[j]?) ∧
      (∀ (s : Session β) (nmi int : List (Nat × Bool)) (resets : List Nat)
        (calls others : List (Nat × LineCall)),
        Interleaved nmi int resets calls → Interleaved nmi int resets others →
          (s.driveAll calls).pool = (s.driveAll others).pool ∧
            (s.driveAll calls).processor = (s.driveAll others).processor ∧
            (s.driveAll calls).processor.step = (s.driveAll others).processor.step) ∧
      ∀ p : Processor β,
        p.step.processor.lines = p.lines.undergoAll [.resetTaken, .edgeTaken] ∧
          p.reset.1.lines = p.lines.undergoAll [.resetTaken, .edgeTaken] := by
  intro founders pool after
  -- The founders are known in every pool that grows from one handle.
  have known : pool.Founded (enrolAll [0] before) := Founded.start.actAll before
  have grown : after.Founded founders := by
    show after.Founded (enrolAll [0] (before ++ later))
    rw [enrolAll, List.foldl_append]
    exact known.actAll later
  refine ⟨grown.length, fun handle founder found => ?_, fun i j same => ?_,
    fun i j call apart => ?_, fun s nmi int resets calls others h h' => ?_,
    fun p => ⟨p.lines_step, rfl⟩⟩
  · rw [grown.getElem?_view]
    have found' : (enrolAll (enrolAll [0] before) later)[handle]? = some founder := by
      rw [← found]
      exact congrArg (fun founders : List Nat => founders[handle]?) List.foldl_append.symm
    exact ⟨_, lines?_actAll known later found', Lines.reflects_undergoAll _ _⟩
  · rw [grown.getElem?_view, grown.getElem?_view]
    exact grown.lines?_eq same
  · have called : (after.apply i call).Founded founders := grown.change i (·.apply call)
    rw [called.getElem?_view, grown.getElem?_view]
    exact (grown.lines?_change i j (·.apply call)).trans (if_neg apart)
  -- Both orders come to the same as the calls taken input by input.
  · have same := s.front_driveAll_eq h h'
    have processors : (s.driveAll calls).processor = (s.driveAll others).processor :=
      congrArg Prod.fst same
    exact ⟨congrArg Prod.snd same, processors, congrArg Processor.step processors⟩

/-- A session with two handles on the inputs of the processor and one on others. -/
def threeHandles : Session Ram := ((powerOn {} {}).act (.share 0)).act .addFresh

/-- The line rises, what it has latched is taken note of, and through two other handles it falls and
rises once more. The handle that was made afresh takes no part in it. -/
theorem drivers_undisturbed_risenTwice :
    let before : List PoolAction :=
      [.share 0, .addFresh, .through 1 (.call (.driveNmi true)), .through 0 .edgeTaken]
    let later : List PoolAction :=
      [.through 0 (.call (.driveNmi false)), .share 1, .through 2 (.call (.driveInt true)),
        .through 3 (.call (.driveNmi true))]
    let founders := enrolAll [0] (before ++ later)
    let after := (({} : LinePool).actAll before).actAll later
    let calls : List (Nat × LineCall) :=
      [(0, .driveNmi true), (1, .driveInt true), (1, .driveNmi false), (2, .requestReset)]
    let others : List (Nat × LineCall) :=
      [(2, .requestReset), (0, .driveNmi true), (1, .driveNmi false), (1, .driveInt true)]
    founders[1]? = some 0 ∧
      (∃ lines, after.view[1]? = some lines ∧ lines.nmiEdge = true ∧ lines.intLevel = false) ∧
      founders[0]? = founders[3]? ∧ after.view[0]? = after.view[3]? ∧
      founders[2]? ≠ founders[0]? ∧
      (after.apply 2 .requestReset).view[0]? = after.view[0]? ∧
      Interleaved [(0, true), (1, false)] [(1, true)] [2] calls ∧
      Interleaved [(0, true), (1, false)] [(1, true)] [2] others ∧
      (threeHandles.driveAll calls).processor.step =
        (threeHandles.driveAll others).processor.step := by
  intro before later founders after calls others
  obtain ⟨-, shows, alike, apart, orders, -⟩ := @drivers_undisturbed Ram _ before later
  obtain ⟨lines, shown, reflects⟩ := shows 1 0 (by decide)
  have risen : lines.nmiEdge = true := reflects.nmiEdge.mpr
    (.inl ⟨[.call (.driveNmi false)], .call (.driveNmi true), [], rfl, ⟨rfl, rfl⟩, List.not_mem_nil⟩)
  have made : Interleaved [(0, true), (1, false)] [(1, true)] [2] calls :=
    .nmi 0 true (.int 1 true (.nmi 1 false (.reset 2 .nil)))
  have made' : Interleaved [(0, true), (1, false)] [(1, true)] [2] others :=
    .reset 2 (.nmi 0 true (.nmi 1 false (.int 1 true .nil)))
  refine ⟨by decide, ⟨lines, shown, risen, reflects.intLevel⟩, by decide, alike 0 3 (by decide),
    by decide, apart 2 0 .requestReset (by decide), made, made', ?_⟩
  exact (orders threeHandles _ _ _ calls others made made').2.2

end Session

end Z80
