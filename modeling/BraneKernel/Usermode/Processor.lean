import BraneKernel.Basic
import BraneKernel.Lib.Memory

namespace BraneKernel.Usermode

inductive Reg
  | rax | rbx | rcx | rdx | rsi | rdi | rbp | rsp
  | r8 | r9 | r10 | r11 | r12 | r13 | r14 | r15
  deriving DecidableEq

structure PerCpuData where
  kernelRsp : U64
  userRsp : U64
  deriving DecidableEq

inductive GsField
  | kernelRsp
  | userRsp
  deriving DecidableEq

def PerCpuData.get (d : PerCpuData) : GsField → U64
  | .kernelRsp => d.kernelRsp
  | .userRsp => d.userRsp

def PerCpuData.set (d : PerCpuData) (f : GsField) (w : U64) : PerCpuData :=
  match f with
  | .kernelRsp => { d with kernelRsp := w }
  | .userRsp => { d with userRsp := w }

/-- The processor state that the entry stub works on. `gs` is the block at the
active GS base, `swapped` the one at the base that `swapgs` exchanges it with. -/
structure Processor where
  regs : Reg → U64
  mem : Memory
  rip : U64
  rflags : U64
  gs : PerCpuData
  swapped : PerCpuData

/-- The instructions of the entry stub, other than its call. Memory operands
are relative to `rsp`. -/
inductive Instr
  | swapgs
  | storeGs (field : GsField) (src : Reg)
  | loadGs (dst : Reg) (field : GsField)
  | push (src : Reg)
  | pop (dst : Reg)
  | load (dst : Reg) (offset : ℕ)
  | store (offset : ℕ) (src : Reg)
  | subRsp (bytes : ℕ)
  | addRsp (bytes : ℕ)
  | mov (dst src : Reg)
  | sysretq

def fmaskValue : U64 := (1#64 <<< 9) ||| (1#64 <<< 8) ||| (1#64 <<< 10) ||| (1#64 <<< 18)

namespace Processor

def set (c : Processor) (r : Reg) (w : U64) : Processor :=
  { c with regs := Function.update c.regs r w }

/-- The `syscall` instruction: the return address goes to `rcx` and the flags to
`r11`. The jump to the entry stub is left out. -/
def syscall (c : Processor) : Processor :=
  { (c.set .rcx c.rip).set .r11 c.rflags with rflags := c.rflags &&& ~~~fmaskValue }

def step (c : Processor) : Instr → Processor
  | .swapgs => { c with gs := c.swapped, swapped := c.gs }
  | .storeGs field src => { c with gs := c.gs.set field (c.regs src) }
  | .loadGs dst field => c.set dst (c.gs.get field)
  | .push src =>
    { c.set .rsp (c.regs .rsp - 8) with mem := c.mem.write64 (c.regs .rsp - 8) (c.regs src) }
  | .pop dst => (c.set .rsp (c.regs .rsp + 8)).set dst (c.mem.read64 (c.regs .rsp))
  | .load dst offset => c.set dst (c.mem.read64 (c.regs .rsp + BitVec.ofNat 64 offset))
  | .store offset src =>
    { c with mem := c.mem.write64 (c.regs .rsp + BitVec.ofNat 64 offset) (c.regs src) }
  | .subRsp bytes => c.set .rsp (c.regs .rsp - BitVec.ofNat 64 bytes)
  | .addRsp bytes => c.set .rsp (c.regs .rsp + BitVec.ofNat 64 bytes)
  | .mov dst src => c.set dst (c.regs src)
  | .sysretq =>
    { c with rip := c.regs .rcx, rflags := (c.regs .r11 &&& 0x3C7FD7#64) ||| 2#64 }

def exec (c : Processor) (code : List Instr) : Processor := code.foldl step c

variable {c : Processor} {r : Reg} {w : U64}

@[simp] theorem set_mem : (c.set r w).mem = c.mem := rfl

@[simp] theorem set_self : (c.set r w).regs r = w := Function.update_self ..

theorem set_of_ne {q : Reg} (h : q ≠ r) : (c.set r w).regs q = c.regs q :=
  Function.update_of_ne h ..

@[simp] theorem exec_nil : c.exec [] = c := rfl

@[simp] theorem exec_cons (i : Instr) (code : List Instr) :
    c.exec (i :: code) = (c.step i).exec code := rfl

theorem exec_append (code code' : List Instr) : c.exec (code ++ code') = (c.exec code).exec code' :=
  List.foldl_append

def stack (c : Processor) (n : ℕ) : List U64 := c.mem.words (c.regs .rsp) n

variable {n i : ℕ}

theorem stack_set (h : r ≠ .rsp) : (c.set r w).stack n = c.stack n := by
  rw [stack, set_of_ne h.symm, set_mem, stack]

theorem stack_mov {q : Reg} (h : r ≠ .rsp) : (c.step (.mov r q)).stack n = c.stack n :=
  stack_set h

theorem stack_push (h : 8 * (n + 1) ≤ 2 ^ 64) :
    (c.step (.push r)).stack (n + 1) = c.regs r :: c.stack n := by
  have hrsp : (c.step (.push r)).regs .rsp = c.regs .rsp - 8 :=
    set_self (c := c) (r := .rsp)
  rw [stack, hrsp]
  exact Memory.words_push c.mem _ _ h

theorem stack_store (hi : i < n) (hn : 8 * n ≤ 2 ^ 64) :
    (c.step (.store (8 * i) r)).stack n = (c.stack n).set i (c.regs r) :=
  Memory.words_write64 c.mem _ _ hi hn

theorem step_load (hi : i < n) (h : (c.stack n)[i]? = some w) :
    c.step (.load r (8 * i)) = c.set r w := by
  rw [stack, Memory.getElem?_words _ _ hi, Option.some.injEq] at h
  rw [step, h]

theorem stack_subRsp (k : ℕ) :
    (c.step (.subRsp (8 * k))).stack (k + n) =
      c.mem.words (c.regs .rsp - BitVec.ofNat 64 (8 * k)) k ++ c.stack n := by
  have hrsp : (c.step (.subRsp (8 * k))).regs .rsp = c.regs .rsp - BitVec.ofNat 64 (8 * k) :=
    set_self (c := c) (r := .rsp)
  rw [stack, hrsp, Memory.words_add, BitVec.sub_add_cancel]
  rfl

theorem stack_exec_push {l : List Reg} (hrs : .rsp ∉ l) (h : 8 * (l.length + n) ≤ 2 ^ 64) :
    (c.exec (l.map .push)).stack (l.length + n) = (l.map c.regs).reverse ++ c.stack n := by
  induction l generalizing c n with
  | nil => simp
  | cons r l ih =>
    rw [List.mem_cons, not_or] at hrs
    rw [List.length_cons, Nat.add_right_comm, Nat.add_assoc] at h ⊢
    have hregs : l.map (c.step (.push r)).regs = l.map c.regs :=
      List.map_congr_left fun q hq ↦ set_of_ne fun e ↦ hrs.2 (e ▸ hq)
    rw [List.map_cons, exec_cons, ih hrs.2 h, hregs, stack_push (by omega), List.map_cons,
      List.reverse_cons, List.append_assoc, List.singleton_append]

theorem exec_push (c : Processor) (l : List Reg) :
    ∃ mem sp, c.exec (l.map .push) = { c.set .rsp sp with mem := mem } := by
  induction l generalizing c with
  | nil => exact ⟨c.mem, c.regs .rsp, by simp [set]⟩
  | cons r l ih =>
    obtain ⟨mem, sp, h⟩ := ih (c.step (.push r))
    refine ⟨mem, sp, h.trans ?_⟩
    simp [step, set]

theorem exec_pop {l : List Reg} (hnd : l.Nodup) (hrs : .rsp ∉ l) :
    l.map (c.exec (l.map .pop)).regs = c.stack l.length ∧
      (c.exec (l.map .pop)).gs = c.gs ∧
      ∀ q ∉ l, q ≠ .rsp → (c.exec (l.map .pop)).regs q = c.regs q := by
  induction l generalizing c with
  | nil => exact ⟨rfl, rfl, fun _ _ _ ↦ rfl⟩
  | cons r l ih =>
    rw [List.nodup_cons] at hnd
    rw [List.mem_cons, not_or] at hrs
    obtain ⟨hmap, hgs, hother⟩ := @ih (c.step (.pop r)) hnd.2 hrs.2
    have hr : (c.step (.pop r)).regs r = c.mem.read64 (c.regs .rsp) := set_self (r := r)
    have hsp : (c.step (.pop r)).stack l.length = c.mem.words (c.regs .rsp + 8) l.length := by
      rw [step, stack_set (Ne.symm hrs.1), stack, set_self, set_mem]
    simp only [List.map_cons, exec_cons, List.length_cons]
    refine ⟨?_, hgs, fun q hq hne ↦ ?_⟩
    · rw [hmap, hother r hnd.1 (Ne.symm hrs.1), hr, hsp, stack, Memory.words_succ]
    · rw [List.mem_cons, not_or] at hq
      rw [hother q hq.2 hne, step, set_of_ne hq.1, set_of_ne hne]

end Processor

end BraneKernel.Usermode
