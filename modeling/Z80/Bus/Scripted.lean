import Z80.Bus.Basic

/-!
# Scripted buses

A bus in front of another one, which fails some accesses on purpose and can answer acknowledge
cycles from a queue. A script is a list of rules. Each rule picks the accesses it is about, lets some
of them pass and then fails some; the first rule that fails an access decides how.
-/

namespace Z80

/-- What a rule can be about. -/
inductive AccessKind where
  | read
  | write
  | acknowledge
  deriving DecidableEq, Repr

/-- How a rule can fail an access. -/
inductive BusErrorKind where
  | unmapped
  | readOnly
  | device
  | noAcknowledge
  deriving DecidableEq, Repr

/-- The error of a kind at an address. A reason counts for a device only. -/
def BusErrorKind.error (address : Word) (reason : String) : BusErrorKind → BusError
  | unmapped => .unmapped address
  | readOnly => .readOnly address
  | device => .device address reason
  | noAcknowledge => .noAcknowledge

/-- A rule of a script. -/
structure FaultRule where
  /-- The kind of access the rule is about. -/
  on : AccessKind
  /-- The address the rule is about, if it is not about all of them. -/
  address : Option Word := none
  /-- How many accesses still pass. -/
  skip : Nat := 0
  /-- How many accesses fail after those. -/
  times : Nat := 1
  error : BusErrorKind
  reason : String := ""
  deriving DecidableEq, Repr

namespace FaultRule

/-- The rule is about an access and is not used up. -/
def applies (rule : FaultRule) (kind : AccessKind) (address : Word) : Bool :=
  rule.on == kind && rule.address.all (· == address) && rule.times != 0

/-- Puts an access to the rules in order, up to the first that fails it, and gives the failure and
the rules afterwards. -/
def judge (kind : AccessKind) (address : Word) :
    List FaultRule → Option BusError × List FaultRule
  | [] => (none, [])
  | rule :: rest =>
    if rule.applies kind address then
      if rule.skip = 0 then
        (some (rule.error.error address rule.reason), { rule with times := rule.times - 1 } :: rest)
      else
        let (verdict, after) := judge kind address rest
        (verdict, { rule with skip := rule.skip - 1 } :: after)
    else
      let (verdict, after) := judge kind address rest
      (verdict, rule :: after)

end FaultRule

/-- A bus with a script in front of it. -/
structure Scripted (β : Type) where
  bus : β
  rules : List FaultRule := []
  /-- Bytes that answer acknowledge cycles in turn, in place of the bus. -/
  queue : Option (List Byte) := none

namespace Scripted

variable {β : Type}

/-- Adds a rule after those that are there. -/
def addRule (s : Scripted β) (rule : FaultRule) : Scripted β :=
  { s with rules := s.rules ++ [rule] }

/-- Makes an access unless a rule fails it. -/
def guarded {α : Type} (s : Scripted β) (kind : AccessKind) (address : Word)
    (access : Scripted β → Except BusError α × Scripted β) : Except BusError α × Scripted β :=
  match FaultRule.judge kind address s.rules with
  | (some error, rules) => (.error error, { s with rules })
  | (none, rules) => access { s with rules }

def read [Bus β] (s : Scripted β) (address : Word) : Except BusError Byte × Scripted β :=
  s.guarded .read address fun s =>
    let (answer, bus) := Bus.read s.bus address
    (answer, { s with bus })

def write [Bus β] (s : Scripted β) (address : Word) (value : Byte) :
    Except BusError Unit × Scripted β :=
  s.guarded .write address fun s =>
    let (answer, bus) := Bus.write s.bus address value
    (answer, { s with bus })

/-- Answers an acknowledge cycle from the queue, if there is one, and else from the bus. To the
rules it is an access at address zero. -/
def acknowledge [Bus β] (s : Scripted β) : Except BusError Byte × Scripted β :=
  s.guarded .acknowledge 0 fun s =>
    match s.queue with
    | some (value :: rest) => (.ok value, { s with queue := some rest })
    | some [] => (.error .noAcknowledge, s)
    | none =>
      let (answer, bus) := Bus.acknowledge s.bus
      (answer, { s with bus })

instance [Bus β] : Bus (Scripted β) where
  read := read
  write := write
  acknowledge := acknowledge

end Scripted

end Z80
