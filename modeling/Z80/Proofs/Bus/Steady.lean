import Z80.Proofs.Bus.Success
import Z80.Proofs.Microprogram.Asks

/-!
# Buses that keep what they have

A bus is steady when nothing but writes changes it (`Bus.Steady`), and it is a store when a byte that was
written makes a difference at its own address only, and none when it is written again (`Bus.Store`).
Memory is both. On a steady bus accesses that store nothing leave the bus as it was
(`Bus.Steady.perform`), and on a store they are answered as before when a byte has been stored
elsewhere (`Bus.Store.perform`).
-/

namespace Z80

/-- Reads and acknowledge cycles leave the bus as it is. -/
structure Bus.Steady (β : Type) [Bus β] : Prop where
  read : ∀ (bus : β) address, (Bus.read bus address).2 = bus
  acknowledge : ∀ bus : β, (Bus.acknowledge bus).2 = bus

/-- A byte that is stored is read at its address, and changes nothing else. -/
structure Bus.Store (β : Type) [Bus β] : Prop extends Bus.Steady β where
  here : ∀ {bus after : β} {address value}, Bus.write bus address value = (.ok (), after) →
    (Bus.read after address).1 = .ok value
  elsewhere : ∀ {bus after : β} {address value}, Bus.write bus address value = (.ok (), after) →
    ∀ other, other ≠ address → (Bus.read after other).1 = (Bus.read bus other).1
  answers : ∀ {bus after : β} {address value}, Bus.write bus address value = (.ok (), after) →
    (Bus.acknowledge after).1 = (Bus.acknowledge bus).1
  /-- It makes no difference to store it again. -/
  again : ∀ {bus after : β} {address value}, Bus.write bus address value = (.ok (), after) →
    Bus.write after address value = (.ok (), after)

/-- A request that follows others is met by what they have left. -/
lemma Bus.perform_concat_inv {β : Type} [Bus β] {bus after : β} {seen : List Access} {last : Access}
    (h : Bus.perform bus ((seen ++ [last]).map Access.request) = (seen ++ [last], after)) :
    ∃ middle, Bus.perform bus (seen.map Access.request) = (seen, middle) ∧
      last.request.meet middle = (last, after) := by
  induction seen generalizing bus with
  | nil =>
    obtain ⟨middle, met, rest⟩ := perform_cons_inv h
    cases rest
    exact ⟨bus, rfl, met⟩
  | cons access later ih =>
    obtain ⟨first, met, rest⟩ := perform_cons_inv h
    obtain ⟨middle, performed, met'⟩ := ih rest
    refine ⟨middle, ?_, met'⟩
    simp only [List.map_cons, perform, met, performed]

/-- To set a byte again makes no difference. -/
lemma Memory.set_set (m : Memory) (address : Word) (value : Byte) :
    (m.set address value).set address value = m.set address value := by
  apply Memory.ext_get
  intro other
  simp only [Memory.get_set]
  split <;> rfl

/-- Memory that may be read-only in part stores what it is given. -/
lemma Ram.store : Bus.Store Ram where
  read := fun _ _ => rfl
  acknowledge := by
    intro m
    show m.answerAcknowledge.2 = m
    unfold answerAcknowledge
    split <;> rfl
  here := by
    intro m after address value written
    obtain ⟨-, rfl⟩ := write_ok_inv written
    show Except.ok _ = Except.ok _
    rw [peek_set, if_pos rfl]
  elsewhere := by
    intro m after address value written other apart
    obtain ⟨-, rfl⟩ := write_ok_inv written
    show Except.ok _ = Except.ok _
    rw [peek_set, if_neg apart]
  answers := by
    intro m after address value written
    obtain ⟨-, rfl⟩ := write_ok_inv written
    show (answerAcknowledge _).1 = m.answerAcknowledge.1
    simp only [answerAcknowledge]
    cases m.acknowledge <;> rfl
  again := by
    intro m after address value written
    obtain ⟨writable, rfl⟩ := write_ok_inv written
    have second : Bus.write { m with memory := m.memory.set address value } address value = _ :=
      write_ok writable
    rwa [Memory.set_set] at second

namespace Bus

variable {β : Type} [Bus β] {bus after : β} {seen : List Access}

/-- An access to a steady bus that is completed and stores nothing leaves the bus as it was. -/
lemma Steady.meet (steady : Steady β) {request : Request} {access : Access}
    (completed : access.error? = none) (unwritten : ∀ address value, access ≠ .write address value)
    (met : request.meet bus = (access, after)) : after = bus := by
  cases request with
  | read address =>
    have kept := steady.read bus address
    simp only [Request.meet] at met
    split at met
    case h_1 answer =>
      cases met
      rwa [answer] at kept
    case h_2 =>
      cases met
      cases completed
  | write address value =>
    simp only [Request.meet] at met
    split at met
    case h_1 =>
      cases met
      exact absurd rfl (unwritten address value)
    case h_2 =>
      cases met
      cases completed
  | acknowledge =>
    have kept := steady.acknowledge bus
    simp only [Request.meet] at met
    split at met
    case h_1 answer =>
      cases met
      rwa [answer] at kept
    case h_2 =>
      cases met
      cases completed

/-- Accesses that are completed and store nothing leave a steady bus as it was. -/
lemma Steady.perform (steady : Steady β) (completed : ∀ access ∈ seen, access.error? = none)
    (unwritten : ∀ address value, .write address value ∉ seen)
    (h : Bus.perform bus (seen.map Access.request) = (seen, after)) : after = bus := by
  induction seen generalizing bus with
  | nil =>
    cases h
    rfl
  | cons access later ih =>
    obtain ⟨middle, met, rest⟩ := perform_cons_inv h
    obtain ⟨done, others⟩ := List.forall_mem_cons.mp completed
    have kept : middle = bus := by
      apply steady.meet done ?_ met
      rintro address value rfl
      exact unwritten address value List.mem_cons_self
    rw [← kept]
    exact ih others (fun a v found => unwritten a v (List.mem_cons_of_mem _ found)) rest

/-- When the last of several accesses is the first to store, it is made on the bus as it was. -/
lemma Steady.perform_store_inv (steady : Steady β) {address : Word} {value : Byte}
    (completed : ∀ access ∈ seen, access.error? = none)
    (unwritten : ∀ address value, .write address value ∉ seen)
    (h : Bus.perform bus ((seen ++ [Access.write address value]).map Access.request) =
      (seen ++ [.write address value], after)) :
    Bus.perform bus (seen.map Access.request) = (seen, bus) ∧
      Bus.write bus address value = (.ok (), after) := by
  obtain ⟨middle, performed, met⟩ := perform_concat_inv h
  obtain rfl : middle = bus := steady.perform completed unwritten performed
  exact ⟨performed, Request.meet_write_inv met⟩

/-- When a byte has been stored, the accesses that store nothing and do not read it are answered as
before. -/
lemma Store.perform {stored : β} {address : Word} {value : Byte} (store : Store β)
    (written : Bus.write bus address value = (.ok (), stored))
    (completed : ∀ access ∈ seen, access.error? = none)
    (unwritten : ∀ address value, .write address value ∉ seen)
    (unread : ∀ value, .read address value ∉ seen)
    (h : Bus.perform bus (seen.map Access.request) = (seen, after)) :
    Bus.perform stored (seen.map Access.request) = (seen, stored) := by
  induction seen with
  | nil => rfl
  | cons access later ih =>
    obtain ⟨middle, met, rest⟩ := perform_cons_inv h
    obtain ⟨done, others⟩ := List.forall_mem_cons.mp completed
    have kept : middle = bus := by
      apply store.toSteady.meet done ?_ met
      rintro address value rfl
      exact unwritten address value List.mem_cons_self
    -- As long as nothing else is stored, the bus without the byte stays the one that it was.
    rw [kept] at rest
    have same : access.request.meet stored = (access, stored) := by
      cases access with
      | read other byte =>
        have apart : other ≠ address := by
          rintro rfl
          exact unread byte List.mem_cons_self
        have answer := store.elsewhere written other apart
        rw [Request.meet_read_inv met] at answer
        have read : Bus.read stored other = (.ok byte, stored) := Prod.ext answer (store.read _ _)
        simp only [Access.request, Request.meet, read]
      | write other byte => exact absurd List.mem_cons_self (unwritten other byte)
      | acknowledge byte =>
        have answer := store.answers written
        rw [Request.meet_acknowledge_inv met] at answer
        have acknowledged : Bus.acknowledge stored = (.ok byte, stored) :=
          Prod.ext answer (store.acknowledge _)
        simp only [Access.request, Request.meet, acknowledged]
      | failed request error => cases done
    have tail := ih others (fun a v found => unwritten a v (List.mem_cons_of_mem _ found))
      (fun v found => unread v (List.mem_cons_of_mem _ found)) rest
    simp only [List.map_cons, Bus.perform, same, tail]

end Bus

end Z80
