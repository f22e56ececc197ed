import BraneKernel.Basic
import BraneKernel.Lib.Checked

namespace BraneKernel

/-- The user-visible registers captured at a syscall, in `repr(C)` field order.
`rcx` is the return address and `r11` the flags saved by the processor. -/
structure UserContext where
  r15 : U64
  r14 : U64
  r13 : U64
  r12 : U64
  rbx : U64
  rbp : U64
  r11 : U64
  r10 : U64
  r9 : U64
  r8 : U64
  rdi : U64
  rsi : U64
  rdx : U64
  rcx : U64
  rax : U64
  deriving DecidableEq

def UserContext.empty : UserContext :=
  ⟨0, 0, 0, 0, 0, 0, 0, 0, 0, 0, 0, 0, 0, 0, 0⟩

structure TaskContext where
  rbx : U64
  r12 : U64
  r13 : U64
  r14 : U64
  r15 : U64
  rbp : U64
  rsp : U64
  rip : U64
  deriving DecidableEq

def TaskContext.empty : TaskContext := ⟨0, 0, 0, 0, 0, 0, 0, 0⟩

/-- Two words are reserved: the restore drops one of them before the entry. -/
def TaskContext.newTask (stackTop entry : U64) : Option TaskContext :=
  (Checked.sub stackTop 16).map fun rsp ↦ ⟨0, 0, 0, 0, 0, stackTop, rsp, entry⟩

def kernelStackSize : ℕ := 16 * 1024

/-- An allocated kernel stack: 16-byte aligned, and short of the end of the
address space. -/
structure KernelStack where
  base : U64
  aligned : base.toNat % 16 = 0
  fits : base.toNat + kernelStackSize ≤ (BitVec.allOnes 64).toNat

def KernelStack.top (stack : KernelStack) : U64 :=
  (stack.base + BitVec.ofNat 64 kernelStackSize) &&& ~~~0xF

end BraneKernel
