/-
This file lists the operations of the two intermediate languages: the low level, close to the
machine and over registers, and the medium level, over typed variables. It also classifies the
low-level operations that matter for cross-references.
-/

namespace BinaryFacts

/-! ### The low level -/

/-- An operation of the low-level language. -/
inductive LowOperation where
  | nop
  | setReg
  | setFlag
  | reg
  | flag
  | const
  | constPtr
  | externalPtr
  | load
  | store
  | push
  | pop
  | add
  | sub
  | mul
  | and
  | or
  | xor
  | lsl
  | lsr
  | neg
  | not
  | cmpE
  | cmpNe
  | call
  | tailCall
  | callStackAdjust
  | jump
  | jumpTo
  | goto
  | branch
  | ret
  | syscall
  | intrinsic
  | unimpl
  | unimplMem
  | undef
  deriving DecidableEq

namespace LowOperation

/-- The name of an operation in listings. -/
def name : LowOperation → String
  | .nop => "Nop"
  | .setReg => "SetReg"
  | .setFlag => "SetFlag"
  | .reg => "Reg"
  | .flag => "Flag"
  | .const => "Const"
  | .constPtr => "ConstPtr"
  | .externalPtr => "ExternPtr"
  | .load => "Load"
  | .store => "Store"
  | .push => "Push"
  | .pop => "Pop"
  | .add => "Add"
  | .sub => "Sub"
  | .mul => "Mul"
  | .and => "And"
  | .or => "Or"
  | .xor => "Xor"
  | .lsl => "Lsl"
  | .lsr => "Lsr"
  | .neg => "Neg"
  | .not => "Not"
  | .cmpE => "CmpE"
  | .cmpNe => "CmpNe"
  | .call => "Call"
  | .tailCall => "TailCall"
  | .callStackAdjust => "CallStackAdjust"
  | .jump => "Jump"
  | .jumpTo => "JumpTo"
  | .goto => "Goto"
  | .branch => "If"
  | .ret => "Ret"
  | .syscall => "Syscall"
  | .intrinsic => "Intrinsic"
  | .unimpl => "Unimpl"
  | .unimplMem => "UnimplMem"
  | .undef => "Undef"

/-- Every operation. -/
def all : List LowOperation :=
  [.nop, .setReg, .setFlag, .reg, .flag, .const, .constPtr, .externalPtr, .load, .store, .push,
   .pop, .add, .sub, .mul, .and, .or, .xor, .lsl, .lsr, .neg, .not, .cmpE, .cmpNe, .call,
   .tailCall, .callStackAdjust, .jump, .jumpTo, .goto, .branch, .ret, .syscall, .intrinsic,
   .unimpl, .unimplMem, .undef]

/-- The operation with a name. -/
def ofName? (name : String) : Option LowOperation := all.find? (·.name = name)

/-- Whether an operation calls a function. -/
def isCall : LowOperation → Bool
  | .call | .tailCall | .callStackAdjust => true
  | _ => false

/-- Whether an operation jumps to an address. -/
def isJump : LowOperation → Bool
  | .jump | .jumpTo => true
  | _ => false

/-- Whether an operation addresses memory through its first operand. -/
def isMemory : LowOperation → Bool
  | .load | .store | .unimplMem => true
  | _ => false

/-- Whether an operation is a constant address or number. -/
def isConstant : LowOperation → Bool
  | .const | .constPtr => true
  | _ => false

/-- Whether nothing is known about an operation or its operands. -/
def isUnknown : LowOperation → Bool
  | .unimpl | .undef => true
  | _ => false

/-- Reading the name of an operation gives the operation back. -/
theorem ofName?_name (operation : LowOperation) : ofName? operation.name = some operation := by
  cases operation <;> decide

end LowOperation

/-! ### The medium level -/

/-- An operation of the medium-level language. -/
inductive MediumOperation where
  | nop
  | setVar
  | var
  | addressOf
  | const
  | constPtr
  | load
  | store
  | add
  | sub
  | call
  | tailCall
  | ret
  | jump
  | branch
  | intrinsic
  deriving DecidableEq

namespace MediumOperation

/-- The name of an operation in listings. -/
def name : MediumOperation → String
  | .nop => "Nop"
  | .setVar => "SetVar"
  | .var => "Var"
  | .addressOf => "AddressOf"
  | .const => "Const"
  | .constPtr => "ConstPtr"
  | .load => "Load"
  | .store => "Store"
  | .add => "Add"
  | .sub => "Sub"
  | .call => "Call"
  | .tailCall => "TailCall"
  | .ret => "Ret"
  | .jump => "Jump"
  | .branch => "If"
  | .intrinsic => "Intrinsic"

/-- Every operation. -/
def all : List MediumOperation :=
  [.nop, .setVar, .var, .addressOf, .const, .constPtr, .load, .store, .add, .sub, .call,
   .tailCall, .ret, .jump, .branch, .intrinsic]

/-- The operation with a name. -/
def ofName? (name : String) : Option MediumOperation := all.find? (·.name = name)

/-- Reading the name of an operation gives the operation back. -/
theorem ofName?_name (operation : MediumOperation) : ofName? operation.name = some operation := by
  cases operation <;> decide

end MediumOperation

end BinaryFacts
