/-!
The registers a callee must preserve, and the tags of a reload list. A reload list names the
registers to put back when a frame runs again and ends with a tag that tells whether the frame
uses a frame pointer.
-/

namespace CallStacks.Frozen

/-- A register that survives calls. -/
inductive Register where
  | rbx | rbp | rdi | rsi | r12 | r13 | r14 | r15
  | xmm6 | xmm7 | xmm8 | xmm9 | xmm10 | xmm11 | xmm12 | xmm13 | xmm14 | xmm15
  deriving DecidableEq, Repr

namespace Register

/-- All of them, in the order in which a frame is asked for them. -/
def all : List Register :=
  [.rbx, .rbp, .rdi, .rsi, .r12, .r13, .r14, .r15,
   .xmm6, .xmm7, .xmm8, .xmm9, .xmm10, .xmm11, .xmm12, .xmm13, .xmm14, .xmm15]

theorem mem_all (register : Register) : register ∈ all := by cases register <;> decide

/-- Vector registers take sixteen bytes and general ones eight. -/
def width : Register → Nat
  | .rbx | .rbp | .rdi | .rsi | .r12 | .r13 | .r14 | .r15 => 8
  | _ => 16

theorem le_width (register : Register) : 8 ≤ register.width := by cases register <;> decide

def name : Register → String
  | .rbx => "Rbx" | .rbp => "Rbp" | .rdi => "Rdi" | .rsi => "Rsi"
  | .r12 => "R12" | .r13 => "R13" | .r14 => "R14" | .r15 => "R15"
  | .xmm6 => "Xmm6" | .xmm7 => "Xmm7" | .xmm8 => "Xmm8" | .xmm9 => "Xmm9"
  | .xmm10 => "Xmm10" | .xmm11 => "Xmm11" | .xmm12 => "Xmm12" | .xmm13 => "Xmm13"
  | .xmm14 => "Xmm14" | .xmm15 => "Xmm15"

end Register

/-- An entry of a reload list: a register, or the end of the list. -/
inductive ReloadTag where
  | saved (register : Register)
  | lastWithFramePointer
  | lastWithoutFramePointer
  deriving DecidableEq, Repr

namespace ReloadTag

/-- Every tag, by code. -/
def all : List ReloadTag :=
  Register.all.map .saved ++ [.lastWithFramePointer, .lastWithoutFramePointer]

/-- The position of a tag among all tags. -/
def code (tag : ReloadTag) : Nat := all.idxOf tag

/-- The position at which a frame is asked for the register. -/
def probe? : ReloadTag → Option Nat
  | .saved register => Register.all.idxOf? register
  | _ => none

def endsList : ReloadTag → Bool
  | .saved _ => false
  | _ => true

/-- The bytes reloaded; an end tag counts as one word. -/
def width : ReloadTag → Nat
  | .saved register => register.width
  | _ => 8

def name : ReloadTag → String
  | .saved register => register.name
  | .lastWithFramePointer => "ReturnRegisters"
  | .lastWithoutFramePointer => "ReturnRegistersNoFrame"

def ofName? (name : String) : Option ReloadTag := all.find? (·.name == name)

end ReloadTag

def Register.ofName? (name : String) : Option Register := all.find? (·.name == name)

/-- One entry of a reload list, with the place of the saved value. -/
structure Reload where
  tag : ReloadTag
  offset : UInt32
  deriving DecidableEq, Repr

end CallStacks.Frozen
