import Z80.Text.Hex
import Z80.Instruction.Basic

/-!
# Instruction text

Instructions in assembly notation. A byte in the encoding is written `n`, a word `nn` and a
displacement `e`, for the values themselves are not part of an instruction.
-/

namespace Z80

/-- An operand, with the given sign for an immediate value. -/
def Source.text {ρ : Type} (name : ρ → String) (immediateSign : String) : Source ρ → String
  | .register r => name r
  | .immediate => immediateSign
  | .indirect pointer => "(" ++ pointer.name ++ ")"
  | .absolute => "(nn)"

def ByteSource.text (s : ByteSource) : String := Source.text ByteRegister.name "n" s

def WordSource.text (s : WordSource) : String := Source.text WordRegister.name "nn" s

def ByteTarget.text (t : ByteTarget) : String := ByteSource.text t.toSource

def WordTarget.text (t : WordTarget) : String := WordSource.text t.toSource

def Condition.text : Condition → String
  | nonZero => "NZ"
  | zero => "Z"
  | noCarry => "NC"
  | carry => "C"
  | parityOdd => "PO"
  | parityEven => "PE"
  | positive => "P"
  | negative => "M"

/-- The operation up to its operand. -/
def AluOperation.text : AluOperation → String
  | add => "ADD A,"
  | adc => "ADC A,"
  | sub => "SUB "
  | sbc => "SBC A,"
  | and => "AND "
  | xor => "XOR "
  | or => "OR "
  | cp => "CP "

def Rotation.text : Rotation → String
  | rlca => "RLCA"
  | rrca => "RRCA"
  | rla => "RLA"
  | rra => "RRA"

def Exchange.text : Exchange → String
  | af => "EX AF,AF'"
  | pairs => "EXX"
  | deHl => "EX DE,HL"

namespace Instruction

/-- An operation with its operands, which are separated by commas and stand after one blank. -/
def withOperands (operation : String) : List String → String
  | [] => operation
  | operands => operation ++ " " ++ ",".intercalate operands

/-- A control transfer: the condition, if there is one, comes before the target. -/
def transferText (operation : String) (condition : Option Condition) (target : List String) :
    String :=
  withOperands operation ((condition.map Condition.text).toList ++ target)

/-- An instruction as it is written in the log. -/
def text : Instruction → String
  | nop => "NOP"
  | halt => "HALT"
  | loadByte target source => withOperands "LD" [ByteTarget.text target, ByteSource.text source]
  | loadWord target source => withOperands "LD" [WordTarget.text target, WordSource.text source]
  | incByte target => withOperands "INC" [ByteTarget.text target]
  | decByte target => withOperands "DEC" [ByteTarget.text target]
  | incWord r => withOperands "INC" [r.name]
  | decWord r => withOperands "DEC" [r.name]
  | alu operation source => operation.text ++ ByteSource.text source
  | addHl r => withOperands "ADD" ["HL", r.name]
  | adcHl r => withOperands "ADC" ["HL", r.name]
  | sbcHl r => withOperands "SBC" ["HL", r.name]
  | rotate rotation => rotation.text
  | cpl => "CPL"
  | scf => "SCF"
  | ccf => "CCF"
  | neg => "NEG"
  | exchange kind => kind.text
  | exchangeTop => "EX (SP),HL"
  | jump condition => transferText "JP" condition ["nn"]
  | jumpHl => "JP (HL)"
  | jumpRelative condition => transferText "JR" condition ["e"]
  | djnz => "DJNZ e"
  | call condition => transferText "CALL" condition ["nn"]
  | ret condition => transferText "RET" condition []
  | retn => "RETN"
  | reti => "RETI"
  | rst target => withOperands "RST" [Hex.byte target]
  | push r => withOperands "PUSH" [r.name]
  | pop r => withOperands "POP" [r.name]
  | di => "DI"
  | ei => "EI"
  | im mode => withOperands "IM" [toString mode.number]
  | loadIA => "LD I,A"
  | loadAI => "LD A,I"
  | illegal (some page) opcode => "ILLEGAL " ++ Hex.byte page ++ " " ++ Hex.byte opcode
  | illegal none opcode => "ILLEGAL " ++ Hex.byte opcode

end Instruction

end Z80
