import Z80.Proofs.Flag.Bit

/-!
# Flag updates laid over one another

A flag update decides some bits of the flag byte and leaves the others (`FlagUpdate.decides`). Laid
over one another, updates go by the last that decides: whichever way the list is bracketed, a bit
becomes what the last update that decides it makes of it, and stays if there is none
(`FlagUpdate.layered_last_wins`). No bit is ever decided both ways, so an update is known by what it
does to flag bytes.
-/

namespace Z80.FlagUpdate

/-- What the update makes of a bit, if it decides it. -/
def decides (u : FlagUpdate) (n : Nat) : Option Bool :=
  if u.clear.bit n then some false else if u.set.bit n then some true else Option.none

section Bits

variable (u v : FlagUpdate) (flags mask : Byte) {n : Nat} (hn : n < 8)

/-- An update decides the bits that it affects. -/
lemma isSome_decides (n : Nat) : (u.decides n).isSome = u.affected.bit n := by
  simp only [affected, decides, Byte.bit_or]
  cases u.clear.bit n <;> cases u.set.bit n <;> rfl

include hn

/-- A bit is what the update decides, or as it was. -/
lemma bit_apply : (u.apply flags).bit n = (u.decides n).getD (flags.bit n) := by
  simp only [apply, decides, Byte.bit_and, Byte.bit_or, Byte.bit_not _ hn]
  cases u.clear.bit n <;> cases u.set.bit n <;> cases flags.bit n <;> rfl

/-- The update that lies on top decides first. -/
lemma decides_overlay : (u.overlay v).decides n = (v.decides n).or (u.decides n) := by
  simp only [overlay, affected, decides, Byte.bit_and, Byte.bit_or, Byte.bit_not _ hn]
  cases u.clear.bit n <;> cases u.set.bit n <;> cases v.clear.bit n <;> cases v.set.bit n <;> rfl

/-- An update that is restricted decides nothing of what was taken from it. -/
lemma decides_without :
    (u.without mask).decides n = if mask.bit n then Option.none else u.decides n := by
  simp only [without, decides, Byte.bit_and, Byte.bit_not _ hn]
  cases u.clear.bit n <;> cases u.set.bit n <;> cases mask.bit n <;> rfl

end Bits

section Affected

variable (u v : FlagUpdate) (mask values : Byte)

/-- An update that sets a mask affects just the mask. -/
@[simp] lemma affected_sets : (sets mask).affected = mask := UInt8.or_zero

/-- An update that clears a mask affects just the mask. -/
@[simp] lemma affected_clears : (clears mask).affected = mask := UInt8.zero_or

/-- An update that takes a mask from given values affects just the mask. -/
@[simp] lemma affected_assign : (assign mask values).affected = mask := by
  apply Byte.ext_bit
  intro n hn
  simp only [affected, assign, Byte.bit_or, Byte.bit_and, Byte.bit_not _ hn]
  cases mask.bit n <;> cases values.bit n <;> rfl

/-- An update of a flag affects just the flag, whichever way it goes. -/
@[simp] lemma affected_flag (enabled : Bool) : (flag mask enabled).affected = mask := by
  cases enabled with
  | true => exact affected_sets mask
  | false => exact affected_clears mask

/-- An update that is restricted affects what it did, but for what was taken from it. -/
@[simp] lemma affected_without : (u.without mask).affected = u.affected &&& ~~~mask := by
  apply Byte.ext_bit
  intro n hn
  rw [← isSome_decides, decides_without u mask hn, Byte.bit_and, Byte.bit_not _ hn,
    ← isSome_decides]
  cases mask.bit n with
  | true => exact (Bool.and_false _).symm
  | false => exact (Bool.and_true _).symm

/-- An update laid over another affects what either does. -/
@[simp] lemma affected_overlay : (u.overlay v).affected = u.affected ||| v.affected := by
  apply Byte.ext_bit
  intro n hn
  rw [← isSome_decides, decides_overlay u v hn, Option.isSome_or, isSome_decides, isSome_decides,
    Byte.bit_or, Bool.or_comm]

/-- Flags that an update does not affect stay. -/
lemma apply_and_of_unaffected {mask : Byte} (spared : u.affected &&& mask = 0) (flags : Byte) :
    u.apply flags &&& mask = flags &&& mask := by
  apply Byte.ext_bit
  intro n hn
  have bit := congrArg (Byte.bit · n) spared
  simp only [Byte.bit_and, ← isSome_decides] at bit
  rw [Byte.bit_and, Byte.bit_and, bit_apply u flags hn]
  cases hm : mask.bit n with
  | false => rw [Bool.and_false, Bool.and_false]
  | true =>
    rw [hm, Bool.and_true] at bit
    rw [Option.not_isSome_iff_eq_none.mp (Bool.eq_false_iff.mp (bit.trans (Nat.zero_testBit n)))]
    rfl

end Affected

/-- Without a mask an update leaves the flags of the mask and decides the others as it did. -/
lemma apply_without (u : FlagUpdate) (mask flags : Byte) :
    (u.without mask).apply flags = flags &&& mask ||| u.apply flags &&& ~~~mask := by
  apply Byte.ext_bit
  intro n hn
  simp only [Byte.bit_or, Byte.bit_and, Byte.bit_not _ hn, bit_apply _ flags hn,
    decides_without u mask hn]
  cases mask.bit n with
  | true => simp
  | false => simp

/-- An update is consistent when it sets no bit that it clears. -/
lemma consistent_iff (u : FlagUpdate) :
    u.Consistent ↔ ∀ n < 8, (u.set.bit n && u.clear.bit n) = false := by
  constructor
  · intro h n _
    rw [← Byte.bit_and, show u.set &&& u.clear = 0 from h]
    exact Nat.zero_testBit n
  · intro h
    apply Byte.ext_bit
    intro n hn
    rw [Byte.bit_and, h n hn]
    exact (Nat.zero_testBit n).symm

namespace Consistent

variable {u v : FlagUpdate}

/-- An update from given values is consistent. -/
lemma assign (mask values : Byte) : (assign mask values).Consistent := by
  rw [consistent_iff]
  intro n hn
  simp only [FlagUpdate.assign, Byte.bit_and, Byte.bit_not _ hn]
  cases mask.bit n <;> cases values.bit n <;> rfl

/-- A consistent update stays so when it is restricted. -/
lemma without (h : u.Consistent) (mask : Byte) : (u.without mask).Consistent := by
  rw [consistent_iff] at h ⊢
  intro n hn
  have disjoint := h n hn
  simp only [FlagUpdate.without, Byte.bit_and]
  revert disjoint
  cases u.clear.bit n <;> cases u.set.bit n <;> simp

/-- A consistent update laid over another is consistent. -/
lemma overlay (hu : u.Consistent) (hv : v.Consistent) : (u.overlay v).Consistent := by
  rw [consistent_iff] at hu hv ⊢
  intro n hn
  have lower := hu n hn
  have upper := hv n hn
  simp only [FlagUpdate.overlay, affected, Byte.bit_and, Byte.bit_or, Byte.bit_not _ hn]
  revert lower upper
  cases u.clear.bit n <;> cases u.set.bit n <;> cases v.clear.bit n <;> cases v.set.bit n <;> decide

/-- What an update makes of no flag at all is its set mask. -/
lemma apply_zero (h : u.Consistent) : u.apply 0 = u.set := by
  rw [consistent_iff] at h
  apply Byte.ext_bit
  intro n hn
  have disjoint := h n hn
  rw [apply, UInt8.zero_or, Byte.bit_and, Byte.bit_not _ hn]
  revert disjoint
  cases u.clear.bit n <;> cases u.set.bit n <;> decide

end Consistent

/-- What an update leaves of all flags is the complement of its clear mask. -/
lemma apply_all (u : FlagUpdate) : u.apply Flag.all = ~~~u.clear := by
  rw [apply, Flag.all, show (0xFF : Byte) = -1 from rfl, UInt8.neg_one_or, UInt8.neg_one_and]

/-- An update that decides no bit both ways is known by what it does to flag bytes. -/
lemma Consistent.ext_apply {u v : FlagUpdate} (hu : u.Consistent) (hv : v.Consistent)
    (alike : ∀ flags, u.apply flags = v.apply flags) : u = v := by
  have set : u.set = v.set := by
    rw [← hu.apply_zero, ← hv.apply_zero, alike]
  have clear : u.clear = v.clear := by
    apply UInt8.not_inj.mp
    rw [← u.apply_all, ← v.apply_all, alike]
  cases u
  cases v
  exact congr (congrArg FlagUpdate.mk set) clear

/-- The update is put together from the elementary ones. -/
inductive Built : FlagUpdate → Prop where
  | none : Built .none
  | sets (mask : Byte) : Built (.sets mask)
  | clears (mask : Byte) : Built (.clears mask)
  | assign (mask values : Byte) : Built (.assign mask values)
  | flag (mask : Byte) (enabled : Bool) : Built (.flag mask enabled)
  | without {u : FlagUpdate} (hu : Built u) (mask : Byte) : Built (u.without mask)
  | overlay {u v : FlagUpdate} (hu : Built u) (hv : Built v) : Built (u.overlay v)

/-- However an update was built, it is consistent. -/
lemma Built.consistent {u : FlagUpdate} (h : u.Built) : u.Consistent := by
  induction h with
  | none => exact UInt8.and_zero
  | sets mask => exact UInt8.and_zero
  | clears mask => exact UInt8.zero_and
  | assign mask values => exact .assign mask values
  | flag mask enabled =>
    cases enabled with
    | true => exact UInt8.and_zero
    | false => exact UInt8.zero_and
  | without _ mask ih => exact ih.without mask
  | overlay _ _ lower upper => exact lower.overlay upper

/-- The update comes of laying those of a list over one another, the first at the bottom, with some
bracketing. -/
inductive Layered : List FlagUpdate → FlagUpdate → Prop where
  | nothing : Layered [] .none
  | single (u : FlagUpdate) : Layered [u] u
  | laid {us vs : List FlagUpdate} {u v : FlagUpdate} (hu : Layered us u) (hv : Layered vs v) :
      Layered (us ++ vs) (u.overlay v)

/-- What the last update of a list that decides a bit makes of it, if one does. -/
def lastDecides (us : List FlagUpdate) (n : Nat) : Option Bool :=
  us.reverse.findSome? (·.decides n)

/-- The bits that a list of updates affects. -/
def affectedBy (us : List FlagUpdate) : Byte := us.foldr (fun u bits => u.affected ||| bits) 0

/-- What two lists of updates affect is what the first does and what the second does. -/
lemma affectedBy_append (us vs : List FlagUpdate) :
    affectedBy (us ++ vs) = affectedBy us ||| affectedBy vs := by
  induction us with
  | nil => exact UInt8.zero_or.symm
  | cons u us ih =>
    show u.affected ||| affectedBy (us ++ vs) = (u.affected ||| affectedBy us) ||| affectedBy vs
    rw [ih, UInt8.or_assoc]

namespace Layered

variable {us : List FlagUpdate} {u : FlagUpdate}

/-- What is put together from updates that were built is built. -/
lemma built (h : Layered us u) (members : ∀ v ∈ us, v.Built) : u.Built := by
  induction h with
  | nothing => exact .none
  | single u => exact members u List.mem_cons_self
  | laid _ _ lower upper =>
    obtain ⟨below, above⟩ := List.forall_mem_append.mp members
    exact (lower below).overlay (upper above)

/-- However updates are put together, the whole affects what any of them does. -/
lemma affected_eq (h : Layered us u) : u.affected = affectedBy us := by
  induction h with
  | nothing => rfl
  | single u => exact UInt8.or_zero.symm
  | laid _ _ lower upper => rw [affected_overlay, lower, upper, affectedBy_append]

/-- However updates are put together, the whole does what they do one after the other. -/
lemma apply_eq (h : Layered us u) (flags : Byte) :
    u.apply flags = us.foldl (fun flags v => v.apply flags) flags := by
  induction h generalizing flags with
  | nothing =>
    show (flags ||| 0) &&& ~~~(0 : Byte) = flags
    rw [UInt8.or_zero]
    exact UInt8.and_neg_one
  | single u => rfl
  | laid _ _ lower upper => rw [apply_overlay, List.foldl_append, lower, upper]

/-- However updates are put together, the last one that decides a bit decides it. -/
lemma decides_eq (h : Layered us u) {n : Nat} (hn : n < 8) : u.decides n = lastDecides us n := by
  unfold lastDecides
  induction h with
  | nothing =>
    rw [decides, none, show Byte.bit 0 n = false from Nat.zero_testBit n]
    rfl
  | single u => simp
  | laid _ _ lower upper =>
    rw [decides_overlay _ _ hn, lower, upper, List.reverse_append, List.findSome?_append]

end Layered

/-- Laid over one another with any bracketing, updates put together from the elementary ones never
decide a bit both ways, affect what one of them affects and act like all of them in turn, so a bit
goes by the last that decides it and stays if none does. Without a mask such an update leaves just
the flags of the mask, and it is known by what it does to flag bytes. -/
theorem layered_last_wins {us : List FlagUpdate} {u : FlagUpdate} (members : ∀ v ∈ us, v.Built)
    (layered : Layered us u) :
    u.set &&& u.clear = 0 ∧ u.affected = affectedBy us ∧
      (∀ flags, u.apply flags = us.foldl (fun flags v => v.apply flags) flags) ∧
      (∀ flags n, n < 8 → (u.apply flags).bit n = (lastDecides us n).getD (flags.bit n)) ∧
      (∀ mask, (u.without mask).affected = u.affected &&& ~~~mask ∧
        ∀ flags, (u.without mask).apply flags = flags &&& mask ||| u.apply flags &&& ~~~mask) ∧
      ∀ v : FlagUpdate, v.Built → (∀ flags, u.apply flags = v.apply flags) →
        u.set = v.set ∧ u.clear = v.clear := by
  have consistent := (layered.built members).consistent
  refine ⟨consistent, layered.affected_eq, layered.apply_eq, ?_, ?_, ?_⟩
  · intro flags n hn
    rw [bit_apply u flags hn, layered.decides_eq hn]
  · intro mask
    exact ⟨u.affected_without mask, u.apply_without mask⟩
  · intro v built alike
    have same := consistent.ext_apply built.consistent alike
    exact ⟨congrArg set same, congrArg clear same⟩

/-- The flags of a logical product that is negative: those of the result, but for half carry,
subtraction and carry. -/
def negativeProduct : List FlagUpdate :=
  [assign Flag.all 0x80, sets Flag.halfCarry, clears (Flag.subtract ||| Flag.carry)]

/-- The flags of the product, the two amendments laid over those of the result in turn. -/
def amendedTwice : FlagUpdate :=
  ((assign Flag.all 0x80).overlay (sets Flag.halfCarry)).overlay
    (clears (Flag.subtract ||| Flag.carry))

/-- The flags of the product, the two amendments put together first. -/
def amendedOnce : FlagUpdate :=
  (assign Flag.all 0x80).overlay
    ((sets Flag.halfCarry).overlay (clears (Flag.subtract ||| Flag.carry)))

/-- Both bracketings decide the flags of the product alike, and each of them decides all flags. -/
theorem layered_last_wins_product :
    (∀ v ∈ negativeProduct, v.Built) ∧ Layered negativeProduct amendedTwice ∧
      Layered negativeProduct amendedOnce ∧ amendedTwice.set = amendedOnce.set ∧
      amendedTwice.clear = amendedOnce.clear ∧ amendedTwice.affected = 0xFF ∧
      ∀ flags n, n < 8 →
        (amendedOnce.apply flags).bit n = (lastDecides negativeProduct n).getD (flags.bit n) := by
  have members : ∀ v ∈ negativeProduct, v.Built := by
    unfold negativeProduct
    rintro v (_ | ⟨_, _ | ⟨_, _ | ⟨_, ⟨⟩⟩⟩⟩)
    · exact .assign Flag.all 0x80
    · exact .sets Flag.halfCarry
    · exact .clears (Flag.subtract ||| Flag.carry)
  have twice : Layered negativeProduct amendedTwice :=
    .laid (.laid (.single _) (.single _)) (.single _)
  have once : Layered negativeProduct amendedOnce :=
    .laid (.single _) (.laid (.single _) (.single _))
  obtain ⟨-, affected, inTurn, -, -, same⟩ := layered_last_wins members twice
  obtain ⟨-, -, inTurn', last, -, -⟩ := layered_last_wins members once
  obtain ⟨set, clear⟩ := same amendedOnce (once.built members) fun flags =>
    (inTurn flags).trans (inTurn' flags).symm
  exact ⟨members, twice, once, set, clear, affected, last⟩

end Z80.FlagUpdate
