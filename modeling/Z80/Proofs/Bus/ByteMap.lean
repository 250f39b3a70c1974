import Z80.Microprogram.Basic
import Z80.Proofs.Bus.Success
import Z80.Proofs.Memory.Load

/-!
# Memory as a map of bytes

Whatever is asked of memory on a bus, in whatever order, it answers like a map from addresses to bytes
of which the lowest addresses are guarded (`ByteMap`). Bytes that are loaded come to their addresses
whether these are guarded or not, over the end of memory as often as it takes, and of those that come
to one address the last stays (`Memory.get_load_last`). Each call is answered alike by memory and by the
map that it shows, and leaves the one that the other then shows (`Ram.call_view`), and so are all calls
(`Ram.answers_as_byteMap`).
-/

namespace Z80

/-- The address that follows is lower only where it is the first. -/
lemma Word.add_one_lt_iff {address bound : Word} (h : ¬ address < bound) :
    address + 1 < bound ↔ address = 0xFFFF ∧ bound ≠ 0 := by
  have ha := address.toNat_lt
  have hb := bound.toNat_lt
  have hone : (1 : Word).toNat = 1 := rfl
  have htop : (0xFFFF : Word).toNat = 65535 := rfl
  have hzero : (0 : Word).toNat = 0 := rfl
  rw [UInt16.lt_iff_toNat_lt] at h
  rw [UInt16.lt_iff_toNat_lt, UInt16.toNat_add, hone, ← UInt16.toNat_inj, ne_eq, ← UInt16.toNat_inj,
    htop, hzero]
  omega

/-- The last of the bytes that come to an address when bytes are stored from another on. -/
def Byte.lastAt (first : Word) (bytes : List Byte) (address : Word) : Option Byte :=
  bytes.zipIdx.reverse.findSome? fun (byte, i) =>
    if (first.toNat + i) % 65536 = address.toNat then some byte else none

namespace Memory

/-- Bytes may be loaded in two parts, one after the other. -/
lemma load_append (m : Memory) (address : Word) (bytes others : List Byte) :
    m.load address (bytes ++ others) =
      (m.load address bytes).load (address + UInt16.ofNat bytes.length) others := by
  induction bytes generalizing m address with
  | nil => exact congrArg (m.load · others) (UInt16.add_zero address).symm
  | cons byte rest ih =>
    rw [List.length_cons, Nat.add_comm, UInt16.ofNat_add, ← UInt16.add_assoc]
    exact ih (m.set address byte) (address + 1)

/-- The bytes count from the first address, so the addresses of a rest of them count from there, too. -/
lemma get_load_from (m : Memory) (first k : Nat) (bytes : List Byte) (address : Word) :
    (m.load (UInt16.ofNat (first + k)) bytes).get address =
      ((bytes.zipIdx k).reverse.findSome? fun (byte, i) =>
        if (first + i) % 65536 = address.toNat then some byte else none).getD (m.get address) := by
  induction bytes generalizing m k with
  | nil => rfl
  | cons byte rest ih =>
    have next : UInt16.ofNat (first + k) + 1 = UInt16.ofNat (first + (k + 1)) :=
      (UInt16.ofNat_add (first + k) 1).symm
    have here : (address = UInt16.ofNat (first + k)) ↔ (first + k) % 65536 = address.toNat := by
      rw [← UInt16.toNat_inj, UInt16.toNat_ofNat']
      exact eq_comm
    rw [load, next, ih, get_set, List.zipIdx_cons, List.reverse_cons, List.findSome?_append]
    cases List.findSome? _ (rest.zipIdx (k + 1)).reverse with
    | some later => rfl
    | none =>
      simp only [Option.getD_none, Option.none_or, List.findSome?_singleton, here]
      split <;> rfl

/-- After bytes were loaded an address holds the last that came to it, and what it held if none did. -/
lemma get_load_last (m : Memory) (first : Word) (bytes : List Byte) (address : Word) :
    (m.load first bytes).get address = (Byte.lastAt first bytes address).getD (m.get address) := by
  have whole := m.get_load_from first.toNat 0 bytes address
  rwa [Nat.add_zero, UInt16.ofNat_toNat] at whole

end Memory

/-- What may be asked of memory on a bus, and done to it from outside. -/
inductive MemoryCall where
  | load (first : Word) (bytes : List Byte)
  | peek (address : Word)
  | read (address : Word)
  | write (address : Word) (value : Byte)
  | readWord (address : Word)
  | writeWord (address value : Word)
  | setAcknowledge (answer : Option Byte)
  | acknowledge
  deriving DecidableEq, Repr

/-- What a call comes back with. -/
inductive Reply where
  | done
  | byte (value : Byte)
  | word (value : Word)
  | failed (fault : Fault)
  deriving DecidableEq, Repr

namespace Reply

/-- The reply to a call that has ended with a value, or failed. -/
def ofResult {α : Type} (reply : α → Reply) : Except Fault α → Reply
  | .ok value => reply value
  | .error fault => failed fault

/-- The reply to a single access. -/
def ofAccess {α : Type} (reply : α → Reply) (answer : Except BusError α) : Reply :=
  ofResult reply (answer.mapError Fault.bus)

end Reply

/-- Calls are made one after the other: the replies, and what is called in the end. -/
def MemoryCall.makeAll {σ : Type} (make : σ → MemoryCall → Reply × σ) :
    σ → List MemoryCall → List Reply × σ
  | s, [] => ([], s)
  | s, call :: later =>
    let (reply, after) := make s call
    let (replies, last) := makeAll make after later
    (reply :: replies, last)

/-- The call, made to memory on a bus. -/
def Ram.call (m : Ram) : MemoryCall → Reply × Ram
  | .load first bytes => (.done, m.load first bytes)
  | .peek address => (.byte (m.peek address), m)
  | .read address =>
    let (answer, after) := Bus.read m address
    (.ofAccess .byte answer, after)
  | .write address value =>
    let (answer, after) := Bus.write m address value
    (.ofAccess (fun _ => .done) answer, after)
  | .readWord address =>
    let run := (Microprogram.readWord {} address).run m
    (.ofResult .word run.result, run.bus)
  | .writeWord address value =>
    let run := (Microprogram.writeWord {} address value).run m
    (.ofResult (fun _ => .done) run.result, run.bus)
  | .setAcknowledge answer => (.done, m.withAcknowledge answer)
  | .acknowledge =>
    let (answer, after) := Bus.acknowledge m
    (.ofAccess .byte answer, after)

/-- A byte for each address. The addresses below the guard cannot be written. -/
structure ByteMap where
  byte : Word → Byte
  guard : Word
  /-- The byte that acknowledge cycles are answered with, if they are. -/
  answer : Option Byte

namespace ByteMap

/-- The map when a byte was put at an address. -/
def store (b : ByteMap) (address : Word) (value : Byte) : ByteMap :=
  { b with byte := fun other => if other = address then value else b.byte other }

/-- The map when bytes were put from an address on, the last of several at one address staying. -/
def load (b : ByteMap) (first : Word) (bytes : List Byte) : ByteMap :=
  { b with byte := fun address => (Byte.lastAt first bytes address).getD (b.byte address) }

/-- A byte below the guard is refused, and put at its address otherwise. -/
def write (b : ByteMap) (address : Word) (value : Byte) : Reply × ByteMap :=
  if address < b.guard then (.failed (.bus (.readOnly address)), b)
  else (.done, b.store address value)

/-- The low byte at the address and the high byte at the next, unless the first write fails. -/
def writeWord (b : ByteMap) (address value : Word) : Reply × ByteMap :=
  match b.write address value.low with
  | (.done, stored) => stored.write (address + 1) value.high
  | failed => failed

/-- The call, made to a map. -/
def call (b : ByteMap) : MemoryCall → Reply × ByteMap
  | .load first bytes => (.done, b.load first bytes)
  | .peek address | .read address => (.byte (b.byte address), b)
  | .write address value => b.write address value
  | .readWord address => (.word (.ofHalves (b.byte (address + 1)) (b.byte address)), b)
  | .writeWord address value => b.writeWord address value
  | .setAcknowledge answer => (.done, { b with answer })
  | .acknowledge =>
    match b.answer with
    | some value => (.byte value, b)
    | none => (.failed (.bus .noAcknowledge), b)

end ByteMap

namespace Ram

/-- The map that memory shows. -/
def view (m : Ram) : ByteMap := ⟨m.peek, m.romSize, m.acknowledge⟩

/-- To load bytes shows in the map as it should. -/
lemma view_load (m : Ram) (first : Word) (bytes : List Byte) :
    (m.load first bytes).view = m.view.load first bytes := by
  have shown : (m.load first bytes).peek = (m.view.load first bytes).byte := by
    funext address
    exact m.memory.get_load_last first bytes address
  unfold view
  rw [shown]
  rfl

/-- To set a byte shows in the map at its address. -/
lemma view_set (m : Ram) (address : Word) (value : Byte) :
    ({ m with memory := m.memory.set address value } : Ram).view = m.view.store address value := by
  have shown : ({ m with memory := m.memory.set address value } : Ram).peek =
      (m.view.store address value).byte := by
    funext other
    exact m.peek_set address other value
  unfold view
  rw [shown]
  rfl

/-- A byte is written where the map lets it be written. -/
lemma write_view (m : Ram) (address : Word) (value : Byte) :
    m.view.write address value =
      (.ofAccess (fun _ => .done) (Bus.write m address value).1, (Bus.write m address value).2.view) := by
  unfold ByteMap.write
  by_cases guarded : address < m.view.guard
  · rw [if_pos guarded, write_readOnly guarded]
    rfl
  · rw [if_neg guarded, write_ok guarded, view_set]
    rfl

/-- A word write comes down to its two byte writes, and there is none of the high byte if that of the
low byte fails. -/
lemma call_writeWord_bytes (m : Ram) (address value : Word) :
    m.call (.writeWord address value) =
      match Bus.write m address value.low with
      | (.ok _, stored) =>
        (.ofAccess (fun _ => .done) (Bus.write stored (address + 1) value.high).1,
          (Bus.write stored (address + 1) value.high).2)
      | (.error error, stored) => (.failed (.bus error), stored) := by
  show (Reply.ofResult _ (Microprogram.run _ m).result, (Microprogram.run _ m).bus) = _
  simp only [Microprogram.writeWord, Microprogram.writeByte, Microprogram.bind_eq, Microprogram.bind,
    Microprogram.run]
  rcases Bus.write m address value.low with ⟨_ | _, stored⟩
  case error => rfl
  case ok =>
    dsimp only
    rcases Bus.write stored (address + 1) value.high with ⟨_ | _, after⟩ <;> rfl

/-- To write a word is answered as in the map, and shows in it as it should. -/
lemma writeWord_view (m : Ram) (address value : Word) :
    m.view.writeWord address value =
      ((m.call (.writeWord address value)).1, (m.call (.writeWord address value)).2.view) := by
  rw [ByteMap.writeWord, write_view, call_writeWord_bytes]
  rcases Bus.write m address value.low with ⟨_ | _, stored⟩
  case ok => exact stored.write_view (address + 1) value.high
  case error => rfl

/-- Memory answers a call as the map does that it shows, and shows what the map then is. -/
theorem call_view (m : Ram) (c : MemoryCall) :
    m.view.call c = ((m.call c).1, (m.call c).2.view) := by
  cases c with
  | load first bytes => exact congrArg (Prod.mk Reply.done) (m.view_load first bytes).symm
  | write address value => exact m.write_view address value
  | writeWord address value => exact m.writeWord_view address value
  | acknowledge =>
    obtain ⟨memory, romSize, answer⟩ := m
    cases answer <;> rfl
  | peek _ | read _ | readWord _ | setAcknowledge _ => rfl

/-- The last address is never guarded, and the one that follows it is if any is: only there does a word
write fail after its low byte is stored. -/
lemma call_writeWord (m : Ram) (address value : Word) :
    m.call (.writeWord address value) =
      if address < m.romSize then (.failed (.bus (.readOnly address)), m)
      else if address = 0xFFFF ∧ m.romSize ≠ 0 then
        (.failed (.bus (.readOnly 0)), { m with memory := m.memory.set 0xFFFF value.low })
      else
        (.done, { m with memory := (m.memory.set address value.low).set (address + 1) value.high }) := by
  rw [call_writeWord_bytes]
  by_cases guarded : address < m.romSize
  · rw [if_pos guarded, write_readOnly guarded]
  · rw [if_neg guarded, write_ok guarded]
    let stored : Ram := { m with memory := m.memory.set address value.low }
    have next : address + 1 < stored.romSize ↔ address = 0xFFFF ∧ m.romSize ≠ 0 :=
      Word.add_one_lt_iff guarded
    show (Reply.ofAccess _ (Bus.write stored (address + 1) value.high).1,
      (Bus.write stored (address + 1) value.high).2) = _
    by_cases torn : address = 0xFFFF ∧ m.romSize ≠ 0
    · rw [if_pos torn, write_readOnly (next.mpr torn)]
      obtain ⟨rfl, -⟩ := torn
      rfl
    · rw [if_neg torn, write_ok (mt next.mp torn)]
      rfl

/-- Memory with a read-only region is a map of zeros, guarded up to its end. -/
lemma view_withRom (romSize : Word) :
    (withRom romSize).view = ⟨fun _ => 0, romSize, some 0xFF⟩ := by
  have blank : (withRom romSize).peek = fun _ => 0 := funext Memory.get_blank
  unfold view
  rw [blank]
  rfl

/-- All calls are answered as in the map, and show in it as they should. -/
lemma makeAll_view (m : Ram) (calls : List MemoryCall) :
    MemoryCall.makeAll ByteMap.call m.view calls =
      ((MemoryCall.makeAll call m calls).1, (MemoryCall.makeAll call m calls).2.view) := by
  induction calls generalizing m with
  | nil => rfl
  | cons c later ih =>
    simp only [MemoryCall.makeAll]
    rw [call_view, ih]

/-- Whatever is asked of memory, it answers like the map that it showed at first, and shows in the end
what has become of that map. Loads compose, and a word write is torn at the last address only. -/
theorem answers_as_byteMap (m : Ram) (calls : List MemoryCall) :
    MemoryCall.makeAll ByteMap.call m.view calls =
        ((MemoryCall.makeAll call m calls).1, (MemoryCall.makeAll call m calls).2.view) ∧
      (∀ romSize, (withRom romSize).view = ⟨fun _ => 0, romSize, some 0xFF⟩) ∧
      (∀ first bytes others, m.load first (bytes ++ others) =
        (m.load first bytes).load (first + UInt16.ofNat bytes.length) others) ∧
      ∀ address value,
        m.call (.writeWord address value) =
          if address < m.romSize then (.failed (.bus (.readOnly address)), m)
          else if address = 0xFFFF ∧ m.romSize ≠ 0 then
            (.failed (.bus (.readOnly 0)), { m with memory := m.memory.set 0xFFFF value.low })
          else
            (.done,
              { m with memory := (m.memory.set address value.low).set (address + 1) value.high }) := by
  refine ⟨m.makeAll_view calls, view_withRom, fun first bytes others => ?_, m.call_writeWord⟩
  exact congrArg (fun memory => ({ m with memory } : Ram)) (m.memory.load_append first bytes others)

end Ram

end Z80
