import Z80.Interrupt.Pool
import Z80.Proofs.Interrupt.History

/-!
# Families of line handles

A pool of handles grows by handles that are shared and by handles that are made afresh. Every handle
goes back to one that was made afresh, the founder of its family (`PoolAction.enrolAll`), and through
all the handles of a family the same lines are driven, which are no other family's: what a handle shows
follows from what was done through handles with its founder (`LinePool.lines?_actAll`).
-/

namespace Z80

/-- Something done with line handles. -/
inductive PoolAction where
  /-- Something happens to the lines that a handle is on. -/
  | through (handle : Nat) (event : LineEvent)
  /-- One more handle on what a handle is on. -/
  | share (handle : Nat)
  /-- A handle on lines of its own. -/
  | addFresh
  deriving DecidableEq, Repr

namespace PoolAction

/-- The founders of all handles, from those before. A handle that is made afresh is its own founder,
and a shared one has the founder of the other. -/
def enrol (founders : List Nat) : PoolAction → List Nat
  | through _ _ => founders
  | share handle => founders ++ founders[handle]?.toList
  | addFresh => founders ++ [founders.length]

def enrolAll (founders : List Nat) (actions : List PoolAction) : List Nat :=
  actions.foldl enrol founders

/-- What happens to the lines of a founder. -/
def heard (founder : Nat) (founders : List Nat) : PoolAction → List LineEvent
  | through handle event => if founders[handle]? = some founder then [event] else []
  | share _ | addFresh => []

/-- What happens to the lines of a founder while the pool grows. -/
def heardAll (founder : Nat) : List Nat → List PoolAction → List LineEvent
  | _, [] => []
  | founders, a :: later => a.heard founder founders ++ heardAll founder (a.enrol founders) later

end PoolAction

namespace LinePool

open PoolAction

/-- The lines that a handle is on are changed. -/
def change (p : LinePool) (handle : Nat) (f : Lines → Lines) : LinePool :=
  match p.family? handle with
  | some family => { p with families := p.families.modify family f }
  | none => p

/-- The pool after something was done with its handles. -/
def act (p : LinePool) : PoolAction → LinePool
  | .through handle (.call call) => p.apply handle call
  | .through handle event => p.change handle (·.undergo event)
  | .share handle => p.share handle
  | .addFresh => p.addFresh

/-- The pool after a sequence of actions. -/
def actAll (p : LinePool) (actions : List PoolAction) : LinePool := actions.foldl act p

/-- Whatever happens through a handle changes the lines that it is on. -/
lemma act_through (p : LinePool) (handle : Nat) (event : LineEvent) :
    p.act (.through handle event) = p.change handle (·.undergo event) := by
  cases event <;> rfl

/-- What is done through a known handle is done to its lines. -/
lemma change_of_family {p : LinePool} {handle family : Nat} (h : p.family? handle = some family)
    (f : Lines → Lines) :
    p.change handle f = { p with families := p.families.modify family f } := by
  simp only [change, h]

/-- Nothing is done through an unknown handle. -/
lemma change_of_none {p : LinePool} {handle : Nat} (h : p.family? handle = none)
    (f : Lines → Lines) : p.change handle f = p := by
  simp only [change, h]

/-- To change lines adds no handle and takes none away. -/
lemma handles_change (p : LinePool) (handle : Nat) (f : Lines → Lines) :
    (p.change handle f).handles = p.handles := by
  unfold change
  split <;> rfl

/-- To change lines leaves every handle on what it is on. -/
lemma family?_change (p : LinePool) (i j : Nat) (f : Lines → Lines) :
    (p.change i f).family? j = p.family? j :=
  congrArg (fun handles : List Nat => handles[j]?) (p.handles_change i f)

/-- To change lines adds no lines and takes none away. -/
lemma length_families_change (p : LinePool) (handle : Nat) (f : Lines → Lines) :
    (p.change handle f).families.length = p.families.length := by
  unfold change
  split
  case h_1 => exact List.length_modify ..
  case h_2 => rfl

/-- Changes that can change places can do so through whatever handles they are made. -/
lemma change_comm (p : LinePool) {f g : Lines → Lines} (comm : g ∘ f = f ∘ g) (i j : Nat) :
    (p.change i f).change j g = (p.change j g).change i f := by
  cases hi : p.family? i with
  | none => rw [change_of_none hi, change_of_none ((p.family?_change j i g).trans hi)]
  | some family =>
    cases hj : p.family? j with
    | none => rw [change_of_none hj, change_of_none ((p.family?_change i j f).trans hj)]
    | some other =>
      rw [change_of_family ((p.family?_change i j f).trans hj),
        change_of_family ((p.family?_change j i g).trans hi), change_of_family hi,
        change_of_family hj]
      by_cases same : family = other
      · subst same
        rw [List.modify_modify_eq, List.modify_modify_eq, comm]
      · rw [List.modify_modify_ne f g p.families same]

/-- The last item of a list is the one that was put at its end. -/
lemma getElem?_concat {α : Type} (l : List α) (x : α) (i : Nat) :
    (l ++ [x])[i]? = if i = l.length then some x else l[i]? := by
  rw [List.getElem?_append]
  grind

/-- What may have been put at the end of a list is found there. -/
lemma getElem?_append_toList {α : Type} (l : List α) (o : Option α) (i : Nat) :
    (l ++ o.toList)[i]? = if i = l.length then o else l[i]? := by
  cases o with
  | none =>
    rw [Option.toList_none, List.append_nil]
    split
    case isTrue last => exact List.getElem?_eq_none (Nat.le_of_eq last.symm)
    case isFalse => rfl
  | some x => exact getElem?_concat l x i

/-- An item that is listed once more is listed already. -/
lemma mem_of_mem_append_getElem? {α : Type} {l : List α} {i : Nat} {x : α}
    (h : x ∈ l ++ l[i]?.toList) : x ∈ l := by
  rcases List.mem_append.mp h with old | new
  · exact old
  · exact List.mem_of_getElem? (Option.mem_toList.mp new)

/-- A handle is shared by one more entry on the same lines, if it is known. -/
lemma share_eq (p : LinePool) (handle : Nat) :
    p.share handle = { p with handles := p.handles ++ (p.family? handle).toList } := by
  unfold share
  cases p.family? handle with
  | some family => rfl
  | none => simp

/-- A known handle shows the lines that it is on. -/
lemma lines?_of_family {p : LinePool} {handle family : Nat} (h : p.family? handle = some family) :
    p.lines? handle = p.families[family]? := by
  simp only [lines?, h, Option.bind_eq_bind, Option.bind_some]

/-- An unknown handle shows nothing. -/
lemma lines?_of_none {p : LinePool} {handle : Nat} (h : p.family? handle = none) :
    p.lines? handle = none := by
  simp only [lines?, h, Option.bind_eq_bind, Option.bind_none]

/-- What happens to the lines that a handle is on is seen through each handle that is on them. -/
lemma lines?_change (p : LinePool) (i j : Nat) (f : Lines → Lines) :
    (p.change i f).lines? j =
      if p.family? i = p.family? j then (p.lines? j).map f else p.lines? j := by
  cases hi : p.family? i with
  | none =>
    rw [change_of_none hi]
    split
    case isTrue unknown => rw [lines?_of_none unknown.symm, Option.map_none]
    case isFalse => rfl
  | some family =>
    have kept := p.family?_change i j f
    cases hj : p.family? j with
    | none =>
      rw [lines?_of_none (kept.trans hj), lines?_of_none hj]
      rfl
    | some other =>
      rw [lines?_of_family (kept.trans hj), lines?_of_family hj, change_of_family hi,
        List.getElem?_modify]
      simp only [Option.some.injEq]
      split <;> simp

/-- The new handle shows what the shared one does, and the others what they did. -/
lemma lines?_share (p : LinePool) (handle i : Nat) :
    (p.share handle).lines? i =
      if i = p.handles.length then p.lines? handle else p.lines? i := by
  have family : (p.share handle).family? i =
      if i = p.handles.length then p.family? handle else p.family? i := by
    rw [share_eq]
    exact getElem?_append_toList p.handles _ i
  have kept : (p.share handle).families = p.families := by rw [share_eq]
  rw [lines?, family, kept]
  split <;> rfl

/-- The founders of a pool: one for each handle, the same for handles that drive the same lines, and
each its own. Every handle is on lines that are there. -/
structure Founded (p : LinePool) (founders : List Nat) : Prop where
  length : founders.length = p.handles.length
  same : ∀ i j : Nat, founders[i]? = founders[j]? ↔ p.handles[i]? = p.handles[j]?
  own : ∀ founder ∈ founders, founders[founder]? = some founder
  bounded : ∀ family ∈ p.handles, family < p.families.length

namespace Founded

variable {p : LinePool} {founders : List Nat}

/-- The first handle is its own founder. -/
lemma start : Founded {} [0] where
  length := rfl
  same _ _ := Iff.rfl
  own := by simp
  bounded := by simp

/-- A founder is one of the handles. -/
lemma lt_length (h : p.Founded founders) {founder : Nat} (member : founder ∈ founders) :
    founder < founders.length :=
  (List.getElem?_eq_some_iff.mp (h.own founder member)).1

/-- To change lines makes no difference to the founders. -/
lemma change (h : p.Founded founders) (handle : Nat) (f : Lines → Lines) :
    (p.change handle f).Founded founders where
  length := p.handles_change handle f ▸ h.length
  same := p.handles_change handle f ▸ h.same
  own := h.own
  bounded := by
    rw [handles_change, length_families_change]
    exact h.bounded

/-- A handle that is shared passes on its founder. -/
lemma share (h : p.Founded founders) (handle : Nat) :
    (p.share handle).Founded (founders ++ founders[handle]?.toList) := by
  rw [share_eq]
  constructor
  case length =>
    have lengths := h.length
    grind [family?]
  case same =>
    intro i j
    rw [getElem?_append_toList, getElem?_append_toList, getElem?_append_toList,
      getElem?_append_toList, h.length]
    split <;> split <;> exact h.same _ _
  case own =>
    intro founder member
    have old := mem_of_mem_append_getElem? member
    rw [List.getElem?_append_left (h.lt_length old)]
    exact h.own founder old
  case bounded =>
    intro family member
    exact h.bounded family (mem_of_mem_append_getElem? member)

/-- A handle on lines of its own is its own founder. -/
lemma addFresh (h : p.Founded founders) :
    p.addFresh.Founded (founders ++ [founders.length]) := by
  have new_founder : ∀ i : Nat, founders[i]? ≠ some founders.length := by
    intro i found
    exact absurd (h.lt_length (List.mem_of_getElem? found)) (Nat.lt_irrefl _)
  have new_family : ∀ i : Nat, p.handles[i]? ≠ some p.families.length := by
    intro i found
    exact absurd (h.bounded _ (List.mem_of_getElem? found)) (Nat.lt_irrefl _)
  constructor
  case length =>
    rw [LinePool.addFresh, List.length_append, List.length_append, h.length]
    rfl
  case same =>
    intro i j
    rw [h.length] at new_founder
    rw [LinePool.addFresh, getElem?_concat, getElem?_concat, getElem?_concat, getElem?_concat,
      h.length]
    -- The new handle is paired with itself, or with an old one of another founder and family.
    split <;> split
    · exact iff_of_true rfl rfl
    · exact iff_of_false (new_founder j).symm (new_family j).symm
    · exact iff_of_false (new_founder i) (new_family i)
    · exact h.same i j
  case own =>
    intro founder member
    rw [getElem?_concat]
    split
    case isTrue last => exact congrArg some last.symm
    case isFalse before =>
      rcases List.mem_append.mp member with old | new
      · exact h.own founder old
      · exact absurd (List.mem_singleton.mp new) before
  case bounded =>
    intro family member
    rw [LinePool.addFresh, List.length_append]
    rcases List.mem_append.mp member with old | new
    · exact Nat.lt_succ_of_lt (h.bounded family old)
    · rw [List.mem_singleton.mp new]
      exact Nat.lt_succ_self _

/-- The founders are told by what happened, one action at a time. -/
lemma act (h : p.Founded founders) (a : PoolAction) : (p.act a).Founded (a.enrol founders) := by
  cases a with
  | through handle event =>
    rw [act_through]
    exact h.change handle _
  | share handle => exact h.share handle
  | addFresh => exact h.addFresh

/-- The founders are told by all that happened, one action after the other. -/
lemma actAll (h : p.Founded founders) (actions : List PoolAction) :
    (p.actAll actions).Founded (enrolAll founders actions) := by
  induction actions generalizing p founders with
  | nil => exact h
  | cons a later ih => exact ih (h.act a)

/-- Handles with the same founder show the same. -/
lemma lines?_eq (h : p.Founded founders) {i j : Nat} (same : founders[i]? = founders[j]?) :
    p.lines? i = p.lines? j :=
  congrArg (·.bind (p.families[·]?)) ((h.same i j).mp same)

/-- Every handle shows lines. -/
lemma exists_lines (h : p.Founded founders) {i founder : Nat} (hi : founders[i]? = some founder) :
    ∃ lines, p.lines? i = some lines := by
  obtain ⟨inside, -⟩ := List.getElem?_eq_some_iff.mp hi
  rw [h.length] at inside
  have known : p.family? i = some p.handles[i] := List.getElem?_eq_getElem inside
  have there := h.bounded _ (List.getElem_mem inside)
  exact ⟨_, (lines?_of_family known).trans (List.getElem?_eq_getElem there)⟩

/-- A handle that is made afresh shows lines that nothing has happened to, and the other handles show
what they did. -/
lemma lines?_addFresh (h : p.Founded founders) (i : Nat) :
    p.addFresh.lines? i = if i = p.handles.length then some {} else p.lines? i := by
  have family : p.addFresh.family? i =
      if i = p.handles.length then some p.families.length else p.family? i :=
    getElem?_concat p.handles p.families.length i
  split
  case isTrue last =>
    rw [if_pos last] at family
    rw [lines?_of_family family]
    exact List.getElem?_concat_length
  case isFalse before =>
    rw [if_neg before] at family
    cases hi : p.family? i with
    | none => rw [lines?_of_none (family.trans hi), lines?_of_none hi]
    | some old =>
      rw [lines?_of_family (family.trans hi), lines?_of_family hi]
      exact List.getElem?_append_left (h.bounded old (List.mem_of_getElem? hi))

/-- What happens to the lines of a handle is seen through the handles with its founder, and through no
others. -/
lemma lines?_change (h : p.Founded founders) (i j : Nat) (f : Lines → Lines) :
    (p.change i f).lines? j =
      if founders[i]? = founders[j]? then (p.lines? j).map f else p.lines? j := by
  rw [LinePool.lines?_change, if_congr (h.same i j) rfl rfl]
  rfl

/-- A handle without a founder shows nothing. -/
lemma lines?_eq_none (h : p.Founded founders) {i : Nat} (unknown : founders[i]? = none) :
    p.lines? i = none := by
  apply lines?_of_none
  rw [List.getElem?_eq_none_iff, h.length] at unknown
  exact List.getElem?_eq_none unknown

/-- What is seen of a pool are the lines that its handles show. -/
lemma getElem?_view (h : p.Founded founders) (i : Nat) : p.view[i]? = p.lines? i := by
  have all : p.view = p.handles.map fun family => (p.families[family]?).getD {} := by
    rw [view, ← List.filterMap_eq_map]
    apply List.filterMap_congr
    intro family member
    have there := List.getElem?_eq_getElem (h.bounded family member)
    rw [Function.comp_apply, there, Option.getD_some]
  rw [all, List.getElem?_map]
  cases hi : p.family? i with
  | none =>
    rw [lines?_of_none hi]
    exact congrArg (Option.map _) hi
  | some family =>
    have there := h.bounded family (List.mem_of_getElem? hi)
    rw [lines?_of_family hi, List.getElem?_eq_getElem there]
    refine (congrArg (Option.map _) hi).trans ?_
    rw [Option.map_some, List.getElem?_eq_getElem there, Option.getD_some]

/-- The lines of a founder are changed by what happens to them. Before the founder is there they are
taken to be lines that nothing has happened to. -/
lemma lines?_act (h : p.Founded founders) (a : PoolAction) {founder : Nat}
    (own : ∀ x, (a.enrol founders)[founder]? = some x → x = founder) :
    ((p.act a).lines? founder).getD {} =
      ((p.lines? founder).getD {}).undergoAll (a.heard founder founders) := by
  cases a with
  | through handle event =>
    rw [act_through, h.lines?_change, PoolAction.heard]
    by_cases through : founders[handle]? = some founder
    -- The event is heard by the founder of the handle, and the handle's lines are those of its founder.
    · have its := h.own founder (List.mem_of_getElem? through)
      obtain ⟨lines, shown⟩ := h.exists_lines its
      rw [if_pos (through.trans its.symm), if_pos through, shown]
      rfl
    · rw [if_neg through]
      split
      case isTrue same =>
        have unknown : founders[founder]? = none := by
          cases its : founders[founder]? with
          | none => rfl
          | some x => exact absurd (same.trans (its.trans (congrArg some (own x its)))) through
        rw [h.lines?_eq_none unknown]
        rfl
      case isFalse => rfl
  | share handle =>
    rw [LinePool.act, lines?_share]
    split
    case isTrue last =>
      rw [← h.length] at last
      -- A handle that is shared has a founder that was there before, and is not its own.
      have unknown : founders[handle]? = none := by
        cases its : founders[handle]? with
        | none => rfl
        | some x =>
          have earlier := h.lt_length (List.mem_of_getElem? its)
          have later := own x (by rw [enrol, getElem?_append_toList, if_pos last, its])
          omega
      rw [h.lines?_eq_none unknown, h.lines?_eq_none (List.getElem?_eq_none (Nat.le_of_eq last.symm))]
      rfl
    case isFalse => rfl
  | addFresh =>
    rw [LinePool.act, h.lines?_addFresh]
    split
    case isTrue last =>
      rw [← h.length] at last
      rw [h.lines?_eq_none (List.getElem?_eq_none (Nat.le_of_eq last.symm))]
      rfl
    case isFalse => rfl

end Founded

/-- A handle keeps its founder. -/
lemma getElem?_enrolAll {founders : List Nat} {i founder : Nat} (h : founders[i]? = some founder)
    (actions : List PoolAction) : (enrolAll founders actions)[i]? = some founder := by
  induction actions generalizing founders with
  | nil => exact h
  | cons a later ih =>
    apply ih
    obtain ⟨inside, -⟩ := List.getElem?_eq_some_iff.mp h
    cases a with
    | through _ _ => exact h
    | share _ | addFresh => exact (List.getElem?_append_left inside).trans h

/-- What has become of the lines of a founder follows from what happened to them. -/
lemma lines?_founder {p : LinePool} {founders : List Nat} (h : p.Founded founders)
    (actions : List PoolAction) {founder : Nat}
    (own : ∀ x, (enrolAll founders actions)[founder]? = some x → x = founder) :
    ((p.actAll actions).lines? founder).getD {} =
      ((p.lines? founder).getD {}).undergoAll (heardAll founder founders actions) := by
  induction actions generalizing p founders with
  | nil => rfl
  | cons a later ih =>
    have first := h.lines?_act a fun x found => own x (getElem?_enrolAll found later)
    have others := ih (h.act a) own
    rw [first] at others
    rw [heardAll, Lines.undergoAll, List.foldl_append]
    exact others

/-- What a handle shows follows from what happened to the lines of its founder. -/
lemma lines?_actAll {p : LinePool} {founders : List Nat} (h : p.Founded founders)
    (actions : List PoolAction) {i founder : Nat}
    (hi : (enrolAll founders actions)[i]? = some founder) :
    (p.actAll actions).lines? i =
      some (((p.lines? founder).getD {}).undergoAll (heardAll founder founders actions)) := by
  have grown := h.actAll actions
  have its := grown.own founder (List.mem_of_getElem? hi)
  obtain ⟨lines, shown⟩ := grown.exists_lines its
  have reached := lines?_founder h actions fun x found => Option.some.inj (found.symm.trans its)
  rw [shown, Option.getD_some] at reached
  rw [grown.lines?_eq (hi.trans its.symm), shown, reached]

end LinePool

end Z80
