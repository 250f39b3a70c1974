import Z80.SaveState.Value
import Z80.Processor.Basic

/-!
# Saved states

How the parts of a processor that outlive it are written as values and read back. Reading is strict:
a number outside the range of its field, a field that is missing or given twice, or a name that means
nothing is refused, and nothing is cut to size.
-/

namespace Z80

/-- A type has a form in which its things are saved. -/
class Saved (α : Type) where
  /-- The value of a saved state that stands for it. -/
  save : α → Value
  /-- What a value of a saved state stands for. -/
  restore : Value → Option α

export Saved (save restore)

namespace Saved

instance : Saved Bool where
  save := .flag
  restore := Value.flag?

instance : Saved Byte where
  save x := .ofNat x.toNat
  restore v := (v.natBelow? UInt8.size).map UInt8.ofNat

instance : Saved Word where
  save x := .ofNat x.toNat
  restore v := (v.natBelow? UInt16.size).map UInt16.ofNat

instance : Saved UInt32 where
  save x := .ofNat x.toNat
  restore v := (v.natBelow? UInt32.size).map UInt32.ofNat

instance : Saved String where
  save := .text
  restore := Value.text?

/-- The one of the given things that bears the name. -/
def named? {α : Type} (name : α → String) (all : List α) (wanted : String) : Option α :=
  all.find? fun x => name x == wanted

/-- Reads a case that comes with nothing. -/
def restoreBare {α : Type} (name : α → String) (all : List α) (v : Value) : Option α :=
  match v.case? with
  | some (wanted, .null) => named? name all wanted
  | _ => none

/-- Things that are saved under their names. -/
abbrev ofNames {α : Type} (name : α → String) (all : List α) : Saved α where
  save x := .text (name x)
  restore := restoreBare name all

end Saved

end Z80
