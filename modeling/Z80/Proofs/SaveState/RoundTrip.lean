import Mathlib.Data.Option.Basic
import Mathlib.Algebra.Group.Nat.Defs
import Mathlib.Data.List.Basic
import Mathlib.Tactic.Lemma
import Z80.SaveState.Fields

/-!
# Round trips of saved states

What was saved is restored (`Saved.RoundTrips`), whatever it is. Numbers, flags and the lists of the
shadow pairs have one value each that stands for them (`Saved.Canonical`), so a register bank is read
from a record exactly when each of its fields is given once and holds what it may hold, and then every
field holds what would be saved for it (`Saved.restored_strictly`). Nothing is cut to size, and no
field is passed over because another one has its name.
-/

namespace Z80

namespace Value

/-- The value is a number of at most so many bits. -/
def Fits (bits : Nat) (v : Value) : Prop := ∃ n < 2 ^ bits, v = .ofNat n

/-- A number is read below a bound when it is whole and lies there. -/
lemma natBelow?_eq_some_iff {bound n : Nat} {v : Value} :
    v.natBelow? bound = some n ↔ v = .ofNat n ∧ n < bound := by
  unfold natBelow?
  split
  case h_1 m =>
    by_cases small : m < bound
    · rw [if_pos small, Option.some.injEq, ofNat, integer.injEq]
      constructor
      · rintro rfl
        exact ⟨rfl, small⟩
      · rintro ⟨same, -⟩
        exact Int.ofNat.inj same
    · rw [if_neg small]
      refine ⟨nofun, ?_⟩
      rintro ⟨same, below⟩
      rw [ofNat, integer.injEq] at same
      rw [← Int.ofNat.inj same] at below
      exact absurd below small
  case h_2 other =>
    refine ⟨nofun, ?_⟩
    rintro ⟨rfl, -⟩
    exact absurd rfl (other n)

/-- A value is read as a list when it is one. -/
lemma list?_eq_some_iff {v : Value} {items : List Value} :
    v.list? = some items ↔ v = list items := by
  cases v <;> simp [list?]

/-- A field has a value when just that is given under its name. -/
lemma field?_eq_some_iff {name : String} {v x : Value} :
    v.field? name = some x ↔ v.given name = [x] := by
  unfold field?
  split
  case h_1 y single => rw [single, Option.some.injEq, List.singleton_inj]
  case h_2 several => exact ⟨nofun, fun single => absurd single (several x)⟩

/-- Fields are selected when each of them is given once. -/
lemma select?_eq_some_iff {names : List String} {items : List (String × Value)}
    {values : List Value} :
    select? names (fields items) = some values ↔
      names.map (fun name => (fields items).given name) = values.map fun v => [v] := by
  show names.mapM (fun name => (fields items).field? name) = some values ↔ _
  induction names generalizing values with
  | nil => cases values <;> simp
  | cons name rest ih =>
    rw [List.mapM_cons]
    cases values with
    | nil => simp [Option.bind_eq_some_iff]
    | cons v values => simp [Option.bind_eq_some_iff, field?_eq_some_iff, ← ih]

end Value

namespace Saved

/-- What was saved is restored. -/
class RoundTrips (α : Type) [Saved α] : Prop where
  restore_save (x : α) : restore (save x) = some x

export RoundTrips (restore_save)

/-- What was saved is restored, and from no other value. -/
class Canonical (α : Type) [Saved α] : Prop where
  restore_eq_some_iff {v : Value} {x : α} : restore v = some x ↔ v = save x

export Canonical (restore_eq_some_iff)

variable {α γ : Type} [Saved α]

instance [Canonical α] : RoundTrips α where
  restore_save _ := restore_eq_some_iff.mpr rfl

/-- What was saved is restored, and the rest goes on with it. -/
lemma bind_save [RoundTrips α] (x : α) (f : α → Option γ) : (restore (save x) >>= f) = f x := by
  rw [restore_save, Option.bind_eq_bind, Option.bind_some]

/-- What was restored had been saved, and the rest has gone on with it. -/
lemma bind_restore_inv [Canonical α] {v : Value} {f : α → Option γ} {y : γ}
    (h : (restore v >>= f) = some y) : ∃ x : α, v = save x ∧ f x = some y := by
  obtain ⟨x, hx, hf⟩ := Option.bind_eq_some_iff.mp h
  exact ⟨x, restore_eq_some_iff.mp hx, hf⟩

section Number

variable {size : Nat} {ofNat : Nat → α} {toNat : α → Nat}

omit [Saved α] in
/-- A number that has its place below a bound is saved as itself, and none beyond is read. -/
lemma map_natBelow?_iff (inside : ∀ n < size, toNat (ofNat n) = n) (below : ∀ x, toNat x < size)
    (same : ∀ x, ofNat (toNat x) = x) {v : Value} {x : α} :
    (v.natBelow? size).map ofNat = some x ↔ v = .ofNat (toNat x) := by
  simp only [Option.map_eq_some_iff, Value.natBelow?_eq_some_iff]
  constructor
  · rintro ⟨n, ⟨rfl, small⟩, rfl⟩
    rw [inside n small]
  · rintro rfl
    exact ⟨toNat x, ⟨rfl, below x⟩, same x⟩

end Number

instance : Canonical Bool where
  restore_eq_some_iff {v _} := by
    cases v <;> simp [restore, save, Value.flag?]

instance : Canonical Byte where
  restore_eq_some_iff :=
    map_natBelow?_iff (fun _ small => UInt8.toNat_ofNat_of_lt' small) UInt8.toNat_lt
      fun _ => UInt8.ofNat_toNat

instance : Canonical Word where
  restore_eq_some_iff :=
    map_natBelow?_iff (fun _ small => UInt16.toNat_ofNat_of_lt' small) UInt16.toNat_lt
      fun _ => UInt16.ofNat_toNat

instance : Canonical UInt32 where
  restore_eq_some_iff :=
    map_natBelow?_iff (fun _ small => UInt32.toNat_ofNat_of_lt' small) UInt32.toNat_lt
      fun _ => UInt32.ofNat_toNat

instance : Canonical String where
  restore_eq_some_iff {v _} := by
    cases v <;> simp [restore, save, Value.text?]

instance : Canonical ShadowPairs where
  restore_eq_some_iff {v s} := by
    show restoreShadow v = some s ↔ v = saveShadow s
    unfold restoreShadow saveShadow
    constructor
    · intro h
      obtain ⟨items, hitems, h⟩ := Option.bind_eq_some_iff.mp h
      rw [Value.list?_eq_some_iff.mp hitems]
      split at h
      case h_1 =>
        iterate 4 (replace h := bind_restore_inv h; obtain ⟨_, rfl, h⟩ := h)
        cases h
        rfl
      case h_2 => cases h
    · rintro rfl
      show (restore (save s.af) >>= _) = _
      iterate 4 rw [bind_save]
      rfl

section Name

variable {name : α → String} {all : List α}

omit [Saved α] in
/-- A thing is found by its name when no other bears it. -/
lemma named?_name (distinct : ∀ x ∈ all, ∀ y ∈ all, name x = name y → x = y) {x : α}
    (listed : x ∈ all) : named? name all (name x) = some x := by
  obtain ⟨y, hy⟩ : ∃ y, named? name all (name x) = some y := by
    apply Option.isSome_iff_exists.mp
    exact List.find?_isSome.mpr ⟨x, listed, beq_self_eq_true _⟩
  have found : (name y == name x) = true := List.find?_some (p := fun z => name z == name x) hy
  rw [hy, distinct y (List.mem_of_find?_eq_some hy) x listed (beq_iff_eq.mp found)]

end Name

instance : RoundTrips ByteRegister where
  restore_save r := named?_name (by decide) (by cases r <;> decide)

instance : RoundTrips WordRegister where
  restore_save r := named?_name (by decide) (by cases r <;> decide)

instance : RoundTrips InterruptMode where
  restore_save m := named?_name (by decide) (by cases m <;> decide)

instance : RoundTrips InterruptSource where
  restore_save s := named?_name (by decide) (by
    cases s with
    | nmi => decide
    | maskable mode => cases mode <;> decide)

instance : RoundTrips FaultClass where
  restore_save k := named?_name (by decide) (by cases k <;> decide)

instance : RoundTrips Config where
  restore_save c := by
    have fields : (save c).members? ["tracing_enabled", "reset_interrupt_mode"] =
        some [save c.tracing, save c.resetMode] := rfl
    show ((save c).members? _ >>= _) = _
    rw [fields, Option.bind_eq_bind, Option.bind_some]
    exact (bind_save c.tracing _).trans (bind_save c.resetMode _)

instance : RoundTrips BusError where
  restore_save e := by
    cases e with
    | unmapped address | readOnly address =>
      show (restore (save address) >>= _) = _
      rw [bind_save]
      rfl
    | device address reason =>
      show (restore (save address) >>= _) = _
      rw [bind_save, bind_save]
      rfl
    | noAcknowledge => rfl

instance : RoundTrips Event where
  restore_save e := by
    cases e with
    | instructionStart pc opcode =>
      show (restore (save pc) >>= _) = _
      rw [bind_save, bind_save]
      rfl
    | instructionRetired pc cycles =>
      show (restore (save pc) >>= _) = _
      rw [bind_save, bind_save]
      rfl
    | interruptAccepted source vector =>
      show (restore (save source) >>= _) = _
      rw [bind_save, bind_save]
      rfl
    | reset => rfl
    | faultRaised pc kind =>
      show (restore (save pc) >>= _) = _
      rw [bind_save, bind_save]
      rfl

/-- The values of the fields of a register bank, in the order of their names. -/
def members (r : Registers) : List Value :=
  [save r.af, save r.bc, save r.de, save r.hl, save r.shadow, save r.pc, save r.sp, save r.i,
    save r.iff1, save r.iff2, save r.nmiPending, save r.intPending, save r.eiExecuted,
    save r.halted]

/-- A register bank is restored from its members alone. -/
lemma restore_registers_iff {v : Value} {r : Registers} :
    restore v = some r ↔ v.members? registerNames = some (members r) := by
  show restoreRegisters v = some r ↔ _
  unfold restoreRegisters
  constructor
  · intro h
    obtain ⟨items, hitems, h⟩ := Option.bind_eq_some_iff.mp h
    rw [hitems]
    split at h
    case h_1 =>
      -- One field after the other is its own saved value.
      iterate 14 (replace h := bind_restore_inv h; obtain ⟨_, rfl, h⟩ := h)
      cases h
      rfl
    case h_2 => cases h
  · intro h
    rw [h]
    show (restore (save r.af) >>= _) = _
    iterate 14 rw [bind_save]
    rfl

instance : RoundTrips Registers where
  restore_save _ := restore_registers_iff.mpr rfl

/-- What a field of a saved register bank may hold. -/
inductive Format where
  | flag
  /-- A number of so many bits. -/
  | number (bits : Nat)
  /-- So many numbers of so many bits. -/
  | numbers (count bits : Nat)
  deriving DecidableEq

/-- A value is of the format. -/
def Format.Admits : Format → Value → Prop
  | flag, v => ∃ b, v = .flag b
  | number bits, v => v.Fits bits
  | numbers count bits, v =>
    ∃ items, v = .list items ∧ items.length = count ∧ ∀ item ∈ items, item.Fits bits

/-- The fields of a saved register bank and what they may hold. -/
def registerFormats : List (String × Format) :=
  [("af", .number 16), ("bc", .number 16), ("de", .number 16), ("hl", .number 16),
    ("shadow", .numbers 4 16), ("pc", .number 16), ("sp", .number 16), ("i", .number 8),
    ("iff1", .flag), ("iff2", .flag), ("nmi_pending", .flag), ("int_pending", .flag),
    ("ei_executed", .flag), ("halted", .flag)]

/-- The values of a format are those that are saved for the things of a type. -/
class HasFormat (α : Type) [Saved α] (format : outParam Format) : Prop where
  admits_iff {v : Value} : format.Admits v ↔ ∃ x : α, v = save x

export HasFormat (admits_iff)

/-- What is saved for a thing has the format of its type. -/
lemma admits_save {format : Format} [HasFormat α format] (x : α) : format.Admits (save x) :=
  admits_iff.mpr ⟨x, rfl⟩

instance : HasFormat Bool .flag where
  admits_iff := Iff.rfl

instance : HasFormat Byte (.number 8) where
  admits_iff {v} := by
    constructor
    · rintro ⟨n, small, rfl⟩
      exact ⟨UInt8.ofNat n, congrArg Value.ofNat (UInt8.toNat_ofNat_of_lt' small).symm⟩
    · rintro ⟨x, rfl⟩
      exact ⟨x.toNat, x.toNat_lt, rfl⟩

instance : HasFormat Word (.number 16) where
  admits_iff {v} := by
    constructor
    · rintro ⟨n, small, rfl⟩
      exact ⟨UInt16.ofNat n, congrArg Value.ofNat (UInt16.toNat_ofNat_of_lt' small).symm⟩
    · rintro ⟨x, rfl⟩
      exact ⟨x.toNat, x.toNat_lt, rfl⟩

instance : HasFormat ShadowPairs (.numbers 4 16) where
  admits_iff {v} := by
    constructor
    · rintro ⟨items, rfl, length, fit⟩
      obtain ⟨a, b, c, d, rfl⟩ := List.length_eq_four.mp length
      simp only [List.forall_mem_cons] at fit
      obtain ⟨ha, hb, hc, hd, -⟩ := fit
      obtain ⟨af, rfl⟩ := admits_iff (α := Word).mp ha
      obtain ⟨bc, rfl⟩ := admits_iff (α := Word).mp hb
      obtain ⟨de, rfl⟩ := admits_iff (α := Word).mp hc
      obtain ⟨hl, rfl⟩ := admits_iff (α := Word).mp hd
      exact ⟨⟨af, bc, de, hl⟩, rfl⟩
    · rintro ⟨s, rfl⟩
      refine ⟨_, rfl, rfl, ?_⟩
      simp only [List.forall_mem_cons]
      exact ⟨admits_save s.af, admits_save s.bc, admits_save s.de, admits_save s.hl, nofun⟩

/-- What is saved for the fields of a register bank is admitted there. -/
lemma admits_field (r : Registers) :
    ∀ field ∈ registerFormats, ∃ v, (save r).given field.1 = [v] ∧ field.2.Admits v := by
  simp only [registerFormats, List.forall_mem_cons]
  iterate 14 refine ⟨⟨_, rfl, admits_save _⟩, ?_⟩
  exact nofun

/-- A record in which every field is given once, and admits what it holds, is that of a register
bank. -/
lemma exists_restore {items : List (String × Value)}
    (fit : ∀ field ∈ registerFormats, ∃ v,
      (Value.fields items).given field.1 = [v] ∧ field.2.Admits v) :
    ∃ r : Registers, restore (.fields items) = some r := by
  -- A value of the format of a field is one that is saved for a thing of the type of the field.
  have held {α : Type} [Saved α] {format : Format} [HasFormat α format] (name : String)
      (listed : (name, format) ∈ registerFormats) :
      ∃ x : α, (Value.fields items).given name = [save x] := by
    obtain ⟨v, hv, admitted⟩ := fit (name, format) listed
    obtain ⟨x, rfl⟩ := admits_iff (α := α).mp admitted
    exact ⟨x, hv⟩
  obtain ⟨af, haf⟩ := held (α := Word) "af" (by decide)
  obtain ⟨bc, hbc⟩ := held (α := Word) "bc" (by decide)
  obtain ⟨de, hde⟩ := held (α := Word) "de" (by decide)
  obtain ⟨hl, hhl⟩ := held (α := Word) "hl" (by decide)
  obtain ⟨shadow, hshadow⟩ := held (α := ShadowPairs) "shadow" (by decide)
  obtain ⟨pc, hpc⟩ := held (α := Word) "pc" (by decide)
  obtain ⟨sp, hsp⟩ := held (α := Word) "sp" (by decide)
  obtain ⟨i, hi⟩ := held (α := Byte) "i" (by decide)
  obtain ⟨iff1, hiff1⟩ := held (α := Bool) "iff1" (by decide)
  obtain ⟨iff2, hiff2⟩ := held (α := Bool) "iff2" (by decide)
  obtain ⟨nmiPending, hnmi⟩ := held (α := Bool) "nmi_pending" (by decide)
  obtain ⟨intPending, hint⟩ := held (α := Bool) "int_pending" (by decide)
  obtain ⟨eiExecuted, hei⟩ := held (α := Bool) "ei_executed" (by decide)
  obtain ⟨halted, hhalted⟩ := held (α := Bool) "halted" (by decide)
  refine ⟨⟨af, bc, de, hl, shadow, pc, sp, i, iff1, iff2, nmiPending, intPending, eiExecuted,
    halted⟩, restore_registers_iff.mpr (Value.select?_eq_some_iff.mpr ?_)⟩
  simp only [registerNames, members, List.map_cons, List.map_nil, *]

/-- Each field of a register bank that is restored from a record is given there once, as it would be
saved. -/
lemma restore_fields_iff {items : List (String × Value)} {r : Registers} :
    restore (.fields items) = some r ↔
      ∀ field ∈ registerFormats, (Value.fields items).given field.1 = (save r).given field.1 := by
  have names : registerNames = registerFormats.map Prod.fst := rfl
  have saved : (members r).map (fun v => [v]) = registerNames.map fun name => (save r).given name :=
    rfl
  rw [restore_registers_iff]
  show Value.select? registerNames (.fields items) = _ ↔ _
  rw [Value.select?_eq_some_iff, saved, List.map_inj_left, names, List.forall_mem_map]

/-- Whatever was saved is restored, be it a register bank, a configuration, an interrupt mode, the
name of a register, a bus error with any reason, or an event and its parts. A register bank is read
from a record exactly when each of its fields is given there, once and not twice, and holds a value of
its format, a flag, a number of at most so many bits or four such numbers. It is then the bank that
gives in each field what the record gives: no field has lost anything. -/
theorem restored_strictly :
    ((∀ r : Registers, restore (save r) = some r) ∧ (∀ c : Config, restore (save c) = some c) ∧
        (∀ m : InterruptMode, restore (save m) = some m) ∧
        (∀ r : ByteRegister, restore (save r) = some r) ∧
        (∀ r : WordRegister, restore (save r) = some r) ∧
        (∀ e : BusError, restore (save e) = some e) ∧
        (∀ k : FaultClass, restore (save k) = some k) ∧
        (∀ s : InterruptSource, restore (save s) = some s) ∧
        ∀ e : Event, restore (save e) = some e) ∧
      ∀ items : List (String × Value),
        ((∃ r : Registers, restore (.fields items) = some r) ↔
          ∀ field ∈ registerFormats, ∃ v,
            (Value.fields items).given field.1 = [v] ∧ field.2.Admits v) ∧
        ∀ r : Registers, restore (.fields items) = some r ↔
          ∀ field ∈ registerFormats,
            (Value.fields items).given field.1 = (save r).given field.1 := by
  refine ⟨⟨restore_save, restore_save, restore_save, restore_save, restore_save, restore_save,
    restore_save, restore_save, restore_save⟩, ?_⟩
  intro items
  refine ⟨⟨?_, exists_restore⟩, fun r => restore_fields_iff⟩
  rintro ⟨r, hr⟩ field listed
  rw [restore_fields_iff.mp hr field listed]
  exact admits_field r field listed

/-- The record that is saved for a register bank, with something else in one of its fields. -/
def withField (name : String) (v : Value) (r : Registers) : List (String × Value) :=
  (registerNames.zip (members r)).map fun field =>
    (field.1, if field.1 = name then v else field.2)

/-- A vector base of nine bits is refused, and so are a fifth shadow pair and a stack pointer that is
given a second time, whatever comes second. A stack pointer of all its sixteen bits is read as it is. -/
theorem restored_strictly_atBounds :
    (¬ ∃ r : Registers, restore (.fields (withField "i" (.integer 256) {})) = some r) ∧
      (¬ ∃ r : Registers, restore (.fields (withField "shadow"
        (.list (List.replicate 5 (.integer 0))) {})) = some r) ∧
      (¬ ∃ r : Registers, restore (.fields
        (withField "sp" (.integer 1) {} ++ [("sp", .integer 70000)])) = some r) ∧
      restore (.fields (withField "sp" (.integer 65535) { sp := 0 })) =
        some ({ sp := 0xFFFF } : Registers) := by
  obtain ⟨-, strict⟩ := restored_strictly
  refine ⟨?_, ?_, ?_, ?_⟩
  · intro read
    obtain ⟨v, found, n, small, same⟩ := (strict _).1.mp read ("i", .number 8) (by decide)
    cases found
    cases same
    exact absurd small (by decide)
  · intro read
    obtain ⟨v, found, items, same, length, -⟩ :=
      (strict _).1.mp read ("shadow", .numbers 4 16) (by decide)
    cases found
    cases same
    cases length
  · intro read
    obtain ⟨v, found, -⟩ := (strict _).1.mp read ("sp", .number 16) (by decide)
    cases found
  · apply ((strict _).2 _).mpr
    simp only [registerFormats, List.forall_mem_cons]
    iterate 14 refine ⟨rfl, ?_⟩
    exact nofun

end Saved

end Z80
