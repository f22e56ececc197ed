import BraneKernel.Syscall.Dispatch
import BraneKernel.Usermode.Processor

namespace BraneKernel

def SyscallContext.toWords (ctx : SyscallContext) : List U64 :=
  [ctx.number, ctx.arg1, ctx.arg2, ctx.arg3, ctx.arg4, ctx.arg5]

def UserContext.toWords (f : UserContext) : List U64 :=
  [f.r15, f.r14, f.r13, f.r12, f.rbx, f.rbp, f.r11, f.r10, f.r9, f.r8, f.rdi, f.rsi, f.rdx, f.rcx,
    f.rax]

theorem SyscallContext.toWords_injective : Function.Injective toWords := by
  rintro ⟨⟩ ⟨⟩ h
  simpa [toWords] using h

theorem UserContext.toWords_injective : Function.Injective toWords := by
  rintro ⟨⟩ ⟨⟩ h
  simpa [toWords] using h

namespace Usermode

open Reg

def readSyscallContext (m : Memory) (p : U64) : SyscallContext :=
  let field i := m.read64 (p + BitVec.ofNat 64 (8 * i))
  { number := field 0, arg1 := field 1, arg2 := field 2, arg3 := field 3, arg4 := field 4
    arg5 := field 5 }

def readUserContext (m : Memory) (p : U64) : UserContext :=
  let field i := m.read64 (p + BitVec.ofNat 64 (8 * i))
  { r15 := field 0, r14 := field 1, r13 := field 2, r12 := field 3, rbx := field 4, rbp := field 5
    r11 := field 6, r10 := field 7, r9 := field 8, r8 := field 9, rdi := field 10, rsi := field 11
    rdx := field 12, rcx := field 13, rax := field 14 }

theorem toWords_readSyscallContext (m : Memory) (p : U64) :
    (readSyscallContext m p).toWords = m.words p 6 := rfl

theorem toWords_readUserContext (m : Memory) (p : U64) :
    (readUserContext m p).toWords = m.words p 15 := rfl

def frameOf (regs : Reg → U64) : UserContext :=
  { r15 := regs r15, r14 := regs r14, r13 := regs r13, r12 := regs r12, rbx := regs rbx
    rbp := regs rbp, r11 := regs r11, r10 := regs r10, r9 := regs r9, r8 := regs r8
    rdi := regs rdi, rsi := regs rsi, rdx := regs rdx, rcx := regs rcx, rax := regs rax }

def pushed : List Reg := [rax, rcx, rdx, rsi, rdi, r8, r9, r10, r11, rbp, rbx, r12, r13, r14, r15]

def popped : List Reg := [r15, r14, r13, r12, rbx, rbp, r11, r10, r9, r8, rdi, rsi, rdx, rcx, rax]

def enterKernel : List Instr := [.swapgs, .storeGs .userRsp rsp, .loadGs rsp .kernelRsp]

def loadArguments : List Instr :=
  [.load rax (8 * 14), .load rdi (8 * 6), .load rsi (8 * 5), .load rdx (8 * 2), .load r10 (8 * 3),
    .load r8 (8 * 4)]

def storeContext : List Instr :=
  [.store (8 * 0) rax, .store (8 * 1) rdi, .store (8 * 2) rsi, .store (8 * 3) rdx,
    .store (8 * 4) r10, .store (8 * 5) r8]

def buildContext : List Instr :=
  loadArguments ++ [.subRsp (8 * 6)] ++ storeContext ++ [.mov rdi rsp]

def leaveKernel : List Instr := [.loadGs rsp .userRsp, .swapgs, .sysretq]

/-- `syscall_entry` up to its call of `dispatch`. -/
def entryCode : List Instr := enterKernel ++ pushed.map .push ++ buildContext

/-- `syscall_entry` after its call of `dispatch`. -/
def exitCode : List Instr :=
  [.addRsp (8 * 6), .store (8 * 14) rax] ++ popped.map .pop ++ leaveKernel

def contextOf (regs : Reg → U64) : SyscallContext :=
  { number := regs rax, arg1 := regs r11, arg2 := regs rbp, arg3 := regs r13, arg4 := regs r12
    arg5 := regs rbx }

variable {c c' : Processor} {f : UserContext}

theorem stack_pushed : (c.exec (pushed.map .push)).stack 15 = (frameOf c.regs).toWords := by
  have h := Processor.stack_exec_push (c := c) (n := 0) (l := pushed) (by decide) (by decide)
  exact h.trans (List.append_nil _)

theorem exec_loadArguments (h : c.stack 15 = f.toWords) : c.exec loadArguments =
    (((((c.set rax f.rax).set rdi f.r11).set rsi f.rbp).set rdx f.r13).set r10 f.r12).set r8 f.rbx := by
  have hload {c : Processor} {r : Reg} {i : ℕ} {w : U64} (hc : c.stack 15 = f.toWords)
      (hi : f.toWords[i]? = some w) (hlt : i < 15) : c.step (.load r (8 * i)) = c.set r w :=
    Processor.step_load hlt (hc ▸ hi)
  have hset {c : Processor} {r : Reg} {w : U64} (hc : c.stack 15 = f.toWords) (hr : r ≠ rsp) :
      (c.set r w).stack 15 = f.toWords := (Processor.stack_set hr).trans hc
  have h1 := hset (w := f.rax) h (r := rax) (by decide)
  have h2 := hset (w := f.r11) h1 (r := rdi) (by decide)
  have h3 := hset (w := f.rbp) h2 (r := rsi) (by decide)
  have h4 := hset (w := f.r13) h3 (r := rdx) (by decide)
  have h5 := hset (w := f.r12) h4 (r := r10) (by decide)
  simp only [loadArguments, Processor.exec_cons, Processor.exec_nil]
  rw [hload h rfl (by decide), hload h1 rfl (by decide), hload h2 rfl (by decide),
    hload h3 rfl (by decide), hload h4 rfl (by decide), hload h5 rfl (by decide)]

theorem stack_storeContext {m : Memory} {a : U64} {rest : List U64}
    (h : c.stack 21 = m.words a 6 ++ rest) : (c.exec storeContext).stack 21 =
      [c.regs rax, c.regs rdi, c.regs rsi, c.regs rdx, c.regs r10, c.regs r8] ++ rest := by
  simp only [storeContext, Processor.exec_cons, Processor.exec_nil]
  iterate 6 rw [Processor.stack_store (by decide) (by decide)]
  rw [h]
  rfl

theorem stack_buildContext (h : c.stack 15 = (frameOf c'.regs).toWords) :
    (c.exec buildContext).stack 21 =
      (contextOf c'.regs).toWords ++ (frameOf c'.regs).toWords := by
  simp only [buildContext, Processor.exec_append, exec_loadArguments h, Processor.exec_cons, Processor.exec_nil]
  generalize hd : Processor.set _ r8 _ = d
  have hstack : d.stack 15 = (frameOf c'.regs).toWords := by
    subst hd
    iterate 6 rw [Processor.stack_set (by decide)]
    exact h
  have hsub := Processor.stack_subRsp (c := d) (n := 15) 6
  rw [hstack] at hsub
  rw [Processor.stack_mov (by decide), stack_storeContext hsub]
  subst hd
  rfl

structure Entered (c e : Processor) : Prop where
  argument : e.regs rdi = e.regs rsp
  userRsp : e.gs.userRsp = c.regs rsp
  context : readSyscallContext e.mem (e.regs rdi) = contextOf c.regs
  frame : readUserContext e.mem (e.regs rdi + 48) = frameOf c.regs

theorem exec_entryCode (c : Processor) : Entered c (c.exec entryCode) := by
  obtain ⟨b, hb⟩ : ∃ b, b = c.exec enterKernel := ⟨_, rfl⟩
  obtain ⟨mem, sp, hpush⟩ := Processor.exec_push b pushed
  have hstack : (b.exec (pushed.map .push)).stack 15 = (frameOf c.regs).toWords :=
    stack_pushed.trans (hb ▸ rfl)
  have hgs : (b.exec (pushed.map .push)).gs.userRsp = c.regs rsp := by
    rw [hpush, hb]
    rfl
  rw [entryCode, Processor.exec_append, Processor.exec_append, ← hb]
  generalize b.exec (pushed.map .push) = p at hstack hgs
  have harg : (p.exec buildContext).regs rdi = (p.exec buildContext).regs rsp := rfl
  have hwords := stack_buildContext hstack
  rw [Processor.stack, ← harg, Memory.words_add _ _ 6 15] at hwords
  obtain ⟨hcontext, hframe⟩ := List.append_inj hwords rfl
  exact ⟨harg, hgs,
    SyscallContext.toWords_injective ((toWords_readSyscallContext _ _).trans hcontext),
    UserContext.toWords_injective ((toWords_readUserContext _ _).trans hframe)⟩

theorem exec_leaveKernel : frameOf (c.exec leaveKernel).regs = frameOf c.regs ∧
    (c.exec leaveKernel).regs rsp = c.gs.userRsp ∧ (c.exec leaveKernel).rip = c.regs rcx :=
  ⟨rfl, rfl, rfl⟩

theorem exec_exitCode (c : Processor) :
    frameOf (c.exec exitCode).regs =
        { readUserContext c.mem (c.regs rsp + 48) with rax := c.regs rax } ∧
      (c.exec exitCode).regs rsp = c.gs.userRsp ∧
      (c.exec exitCode).rip = (readUserContext c.mem (c.regs rsp + 48)).rcx := by
  obtain ⟨d, hd⟩ : ∃ d, d = (c.step (.addRsp (8 * 6))).step (.store (8 * 14) rax) := ⟨_, rfl⟩
  have hstack : d.stack 15 = (c.mem.words (c.regs rsp + 48) 15).set 14 (c.regs rax) :=
    hd ▸ Processor.stack_store (by decide) (by decide)
  obtain ⟨hpop, hgs, -⟩ := Processor.exec_pop (c := d) (l := popped) (by decide) (by decide)
  have hexec : c.exec exitCode = (d.exec (popped.map .pop)).exec leaveKernel := by
    rw [exitCode, Processor.exec_append, Processor.exec_append, hd]
    rfl
  rw [hexec]
  generalize d.exec (popped.map .pop) = e at hpop hgs
  have hframe : frameOf e.regs =
      { readUserContext c.mem (c.regs rsp + 48) with rax := c.regs rax } :=
    UserContext.toWords_injective (hpop.trans hstack)
  obtain ⟨hregs, hrsp, hrip⟩ := exec_leaveKernel (c := e)
  have hgs' : e.gs = c.gs := hgs.trans (hd ▸ rfl)
  exact ⟨hregs.trans hframe, hrsp.trans (congrArg _ hgs'), hrip.trans (congrArg UserContext.rcx hframe)⟩

def argumentsOf (regs : Reg → U64) : SyscallContext :=
  { number := regs rax, arg1 := regs rdi, arg2 := regs rsi, arg3 := regs rdx, arg4 := regs r10
    arg5 := regs r8 }

/-- The stub passes the arguments exactly when they coincide with the flags and the
registers whose slots it reads instead. -/
theorem arguments_passed_iff (c : Processor) :
    readSyscallContext (c.syscall.exec entryCode).mem ((c.syscall.exec entryCode).regs rdi) =
        argumentsOf c.regs ↔
      c.regs rdi = c.rflags ∧ c.regs rsi = c.regs rbp ∧ c.regs rdx = c.regs r13 ∧
        c.regs r10 = c.regs r12 ∧ c.regs r8 = c.regs rbx := by
  rw [(exec_entryCode c.syscall).context, SyscallContext.mk.injEq]
  constructor
  · rintro ⟨-, h1, h2, h3, h4, h5⟩
    exact ⟨h1.symm, h2.symm, h3.symm, h4.symm, h5.symm⟩
  · rintro ⟨h1, h2, h3, h4, h5⟩
    exact ⟨rfl, h1.symm, h2.symm, h3.symm, h4.symm, h5.symm⟩

def writing : Processor where
  regs
    | rax => SyscallNumber.write.toRaw
    | rdi => 1
    | rsi => 0x402000
    | rdx => 5
    | rsp => 0x7FFF0000
    | _ => 0
  mem := fun _ ↦ 0
  rip := 0x401000
  rflags := 0x202
  gs := ⟨0, 0⟩
  swapped := ⟨0xFFFF800000010000, 0⟩

/-- The dispatcher reads the saved flags as the first argument of a `write` to descriptor 1. -/
theorem flags_passed_as_descriptor :
    readSyscallContext (writing.syscall.exec entryCode).mem
        ((writing.syscall.exec entryCode).regs rdi) =
      ⟨SyscallNumber.write.toRaw, 0x202, 0, 0, 0, 0⟩ ∧
    argumentsOf writing.regs = ⟨SyscallNumber.write.toRaw, 1, 0x402000, 5, 0, 0⟩ :=
  ⟨(exec_entryCode writing.syscall).context, rfl⟩

/-- `dispatch` may change the user frame, the registers and any other memory, but
returns with the stack pointer and the per-CPU block it was called with. -/
structure Returns (e e' : Processor) : Prop where
  stackPointer : e'.regs rsp = e.regs rsp
  perCpu : e'.gs = e.gs

/-- The handler is given the user's registers, and they are reloaded from the frame it leaves, with
its result in `rax`. -/
theorem frame_passed (c e' : Processor) (h : Returns (c.exec entryCode) e') :
    readUserContext (c.exec entryCode).mem ((c.exec entryCode).regs rdi + 48) = frameOf c.regs ∧
    frameOf (e'.exec exitCode).regs =
      { readUserContext e'.mem ((c.exec entryCode).regs rdi + 48) with rax := e'.regs rax } ∧
    (e'.exec exitCode).regs rsp = c.regs rsp := by
  have hentry := exec_entryCode c
  obtain ⟨hframe, hrsp, -⟩ := exec_exitCode e'
  rw [h.stackPointer, ← hentry.argument] at hframe
  rw [h.perCpu, hentry.userRsp] at hrsp
  exact ⟨hentry.frame, hframe, hrsp⟩

theorem frame_passed_redirect : ∃ e', Returns (writing.syscall.exec entryCode) e' ∧
    (e'.exec exitCode).regs rcx = 0x400500 ∧ (e'.exec exitCode).regs rax = 7 ∧
    (e'.exec exitCode).regs rsp = 0x7FFF0000 := by
  have h := frame_passed writing.syscall
  generalize writing.syscall.exec entryCode = e at h ⊢
  obtain ⟨e', he'⟩ : ∃ e' : Processor, e' = { e.set rax 7 with
      mem := e.mem.write64 (e.regs rdi + 48 + BitVec.ofNat 64 (8 * 13)) 0x400500 } := ⟨_, rfl⟩
  have hreturns : Returns e e' :=
    he' ▸ ⟨Processor.set_of_ne (c := e) (r := rax) (w := 7) (q := rsp) (by decide), rfl⟩
  obtain ⟨-, hframe, hrsp⟩ := h e' hreturns
  refine ⟨e', hreturns, ?_⟩
  generalize e'.exec exitCode = d at hframe hrsp ⊢
  have hrcx := congrArg UserContext.rcx hframe
  have hrax := congrArg UserContext.rax hframe
  subst he'
  simp only [frameOf, readUserContext, Memory.read64_write64_self] at hrcx hrax
  exact ⟨hrcx, hrax, hrsp⟩

end Usermode

end BraneKernel
