import BraneKernel.Context
import BraneKernel.Lib.Bits
import BraneKernel.Lib.Trace
import BraneKernel.Usermode.Processor

namespace BraneKernel

open Usermode (Reg)

structure Cpu where
  regs : Reg → U64
  rip : U64

structure SwitchMachine where
  cpu : Cpu
  memory : Memory

inductive SwitchInstr
  | store (base : Reg) (offset : ℕ) (src : Reg)
  | load (dst base : Reg) (offset : ℕ)
  | add (dst : Reg) (value : ℕ)
  | jmp (target : Reg)

namespace SwitchMachine

variable (m : SwitchMachine)

def set (r : Reg) (w : U64) : SwitchMachine :=
  { m with cpu := { m.cpu with regs := Function.update m.cpu.regs r w } }

def step : SwitchInstr → SwitchMachine
  | .store base offset src =>
    { m with
      memory := m.memory.write64 (m.cpu.regs base + BitVec.ofNat 64 offset) (m.cpu.regs src) }
  | .load dst base offset =>
    m.set dst (m.memory.read64 (m.cpu.regs base + BitVec.ofNat 64 offset))
  | .add dst value => m.set dst (m.cpu.regs dst + BitVec.ofNat 64 value)
  | .jmp target => { m with cpu := { m.cpu with rip := m.cpu.regs target } }

def exec (code : List SwitchInstr) : SwitchMachine := code.foldl step m

/-- The call of `switch_context`, without its jump: the return address is pushed. -/
def call (returnAddress : U64) : SwitchMachine :=
  { m.set .rsp (m.cpu.regs .rsp - 8) with
    memory := m.memory.write64 (m.cpu.regs .rsp - 8) returnAddress }

end SwitchMachine

/-- The return address is what the stack pointer points at. -/
def saveContext : List SwitchInstr :=
  [.store .rdi 0x00 .rbx, .store .rdi 0x08 .r12, .store .rdi 0x10 .r13, .store .rdi 0x18 .r14,
    .store .rdi 0x20 .r15, .store .rdi 0x28 .rbp, .store .rdi 0x30 .rsp, .load .rax .rsp 0,
    .store .rdi 0x38 .rax]

/-- The word of the return address is dropped before the jump. -/
def restoreContext : List SwitchInstr :=
  [.load .rbx .rsi 0x00, .load .r12 .rsi 0x08, .load .r13 .rsi 0x10, .load .r14 .rsi 0x18,
    .load .r15 .rsi 0x20, .load .rbp .rsi 0x28, .load .rsp .rsi 0x30, .add .rsp 8,
    .load .rax .rsi 0x38, .jmp .rax]

def switchContext : List SwitchInstr := saveContext ++ restoreContext

def TaskContext.fields (ctx : TaskContext) : List U64 :=
  [ctx.rbx, ctx.r12, ctx.r13, ctx.r14, ctx.r15, ctx.rbp, ctx.rsp, ctx.rip]

/-- What a task leaves behind when it calls `switch_context`: its registers at the
call, where it returns to, and the memory under its stack. -/
structure Stop where
  cpu : Cpu
  returnAddress : U64
  memory : Memory

def Stop.context (stop : Stop) : TaskContext :=
  { rbx := stop.cpu.regs .rbx
    r12 := stop.cpu.regs .r12
    r13 := stop.cpu.regs .r13
    r14 := stop.cpu.regs .r14
    r15 := stop.cpu.regs .r15
    rbp := stop.cpu.regs .rbp
    rsp := stop.cpu.regs .rsp - 8
    rip := stop.returnAddress }

def calleeSaved : List Reg := [.rbx, .rbp, .r12, .r13, .r14, .r15, .rsp]

/-- A processor goes on as if the call had returned. -/
structure Continues (cpu : Cpu) (stop : Stop) : Prop where
  rip : cpu.rip = stop.returnAddress
  regs : ∀ r ∈ calleeSaved, cpu.regs r = stop.cpu.regs r

structure TaskSpace (τ : Type) where
  context : τ → U64
  stack : τ → Set U64
  contexts_apart : ∀ t u, t ≠ u → ∀ x ∈ Memory.span (context t) 64, x ∉ Memory.span (context u) 64
  stacks_apart : ∀ t u, t ≠ u → ∀ x ∈ stack t, x ∉ stack u
  stack_context : ∀ t u, ∀ x ∈ stack t, x ∉ Memory.span (context u) 64

structure TaskSystem (κ τ : Type) where
  memory : Memory
  cpus : κ → Cpu
  running : κ → τ
  stopped : τ → Option Stop

inductive SwitchEvent (κ τ : Type)
  | work (c : κ) (cpu : Cpu) (memory : Memory)
  | switch (c : κ) (target : τ) (returnAddress : U64)

variable {κ τ : Type}

namespace TaskSystem

def calling (s : TaskSystem κ τ) (c : κ) (returnAddress : U64) : SwitchMachine :=
  SwitchMachine.call ⟨s.cpus c, s.memory⟩ returnAddress

def stopOf (s : TaskSystem κ τ) (c : κ) (returnAddress : U64) : Stop :=
  ⟨s.cpus c, returnAddress, (s.calling c returnAddress).memory⟩

def switched [DecidableEq κ] [DecidableEq τ] (s : TaskSystem κ τ) (c : κ) (target : τ)
    (returnAddress : U64) : TaskSystem κ τ :=
  let after := (s.calling c returnAddress).exec switchContext
  { memory := after.memory
    cpus := Function.update s.cpus c after.cpu
    running := Function.update s.running c target
    stopped := Function.update s.stopped (s.running c) (some (s.stopOf c returnAddress)) }

/-- A running task changes its registers, and memory other than the stacks and the
contexts of other tasks. It may switch to any task that no other processor runs, with
room on its stack for the call. -/
def Step [DecidableEq κ] [DecidableEq τ] (space : TaskSpace τ) (s : TaskSystem κ τ) :
    SwitchEvent κ τ → TaskSystem κ τ → Prop
  | .work c cpu memory, s' =>
    (∀ t, t ≠ s.running c → ∀ x, x ∈ space.stack t ∨ x ∈ Memory.span (space.context t) 64 →
      memory x = s.memory x) ∧
    s' = { s with cpus := Function.update s.cpus c cpu, memory := memory }
  | .switch c target returnAddress, s' =>
    (∀ d, d ≠ c → s.running d ≠ target) ∧
    (s.cpus c).regs .rdi = space.context (s.running c) ∧
    (s.cpus c).regs .rsi = space.context target ∧
    (∀ x ∈ Memory.span ((s.cpus c).regs .rsp - 8) 8, x ∈ space.stack (s.running c)) ∧
    s' = s.switched c target returnAddress

end TaskSystem

section Machine

variable {m : SwitchMachine} {ctx : TaskContext}

theorem exec_append (m : SwitchMachine) (code code' : List SwitchInstr) :
    m.exec (code ++ code') = (m.exec code).exec code' :=
  List.foldl_append

def storesFrom (base : Reg) : ℕ → List Reg → List SwitchInstr
  | _, [] => []
  | i, r :: rs => .store base (8 * i) r :: storesFrom base (i + 1) rs

theorem exec_storesFrom (m : SwitchMachine) (base : Reg) (i : ℕ) (rs : List Reg) :
    m.exec (storesFrom base i rs) =
      { m with memory := m.memory.writeWords (m.cpu.regs base) i (rs.map m.cpu.regs) } := by
  induction rs generalizing m i with
  | nil => rfl
  | cons r rs ih => exact ih (m.step (.store base (8 * i) r)) (i + 1)

def stored : List Reg := [.rbx, .r12, .r13, .r14, .r15, .rbp, .rsp]

theorem saveContext_eq :
    saveContext = storesFrom .rdi 0 stored ++ [.load .rax .rsp 0, .store .rdi (8 * 7) .rax] := rfl

def partlySaved (m : SwitchMachine) : Memory :=
  m.memory.writeWords (m.cpu.regs .rdi) 0 (stored.map m.cpu.regs)

theorem exec_saveContext (m : SwitchMachine) : m.exec saveContext =
    { m.set .rax ((partlySaved m).read64 (m.cpu.regs .rsp + 0)) with
      memory := m.memory.writeWords (m.cpu.regs .rdi) 0 (stored.map m.cpu.regs ++
        [(partlySaved m).read64 (m.cpu.regs .rsp + 0)]) } := by
  rw [saveContext_eq, exec_append, exec_storesFrom, Memory.writeWords_append]
  rfl

theorem regs_saveContext (m : SwitchMachine) {r : Reg} (h : r ≠ .rax) :
    (m.exec saveContext).cpu.regs r = m.cpu.regs r := by
  rw [exec_saveContext]
  exact Function.update_of_ne h ..

theorem memory_restoreContext (m : SwitchMachine) : (m.exec restoreContext).memory = m.memory := rfl

structure Loaded (cpu : Cpu) (ctx : TaskContext) : Prop where
  rbx : cpu.regs .rbx = ctx.rbx
  r12 : cpu.regs .r12 = ctx.r12
  r13 : cpu.regs .r13 = ctx.r13
  r14 : cpu.regs .r14 = ctx.r14
  r15 : cpu.regs .r15 = ctx.r15
  rbp : cpu.regs .rbp = ctx.rbp
  rsp : cpu.regs .rsp = ctx.rsp + 8
  rip : cpu.rip = ctx.rip

theorem loaded_restoreContext (h : m.memory.words (m.cpu.regs .rsi) 8 = ctx.fields) :
    Loaded (m.exec restoreContext).cpu ctx := by
  have hwords : [_, _, _, _, _, _, _, _] = ctx.fields := h
  simp only [TaskContext.fields, List.cons.injEq, and_true] at hwords
  obtain ⟨hrbx, hr12, hr13, hr14, hr15, hrbp, hrsp, hrip⟩ := hwords
  exact ⟨hrbx, hr12, hr13, hr14, hr15, hrbp, congrArg (· + 8) hrsp, hrip⟩

theorem memory_saveContext_of_not_mem {x : U64} (h : x ∉ Memory.span (m.cpu.regs .rdi) 64) :
    (m.exec saveContext).memory x = m.memory x := by
  rw [exec_saveContext]
  exact Memory.writeWords_of_not_mem (n := 8) h _ _ _ (le_refl 8)

theorem words_saveContext
    (h : ∀ x ∈ Memory.span (m.cpu.regs .rsp) 8, x ∉ Memory.span (m.cpu.regs .rdi) 64) :
    (m.exec saveContext).memory.words (m.cpu.regs .rdi) 8 =
      stored.map m.cpu.regs ++ [m.memory.read64 (m.cpu.regs .rsp)] := by
  have hslot : (partlySaved m).read64 (m.cpu.regs .rsp + 0) =
      m.memory.read64 (m.cpu.regs .rsp) := by
    rw [BitVec.ofNat_eq_ofNat, BitVec.add_zero]
    refine Memory.read64_congr fun x hx ↦ ?_
    exact Memory.writeWords_of_not_mem (n := 8) (h x hx) _ _ _ (Nat.le_succ 7)
  rw [exec_saveContext, hslot]
  exact Memory.words_writeWords (n := 8) _ _ (by decide) 0 _ rfl

end Machine

def KernelStack.bytes (stack : KernelStack) : Set U64 := Memory.span stack.base kernelStackSize

theorem KernelStack.toNat_top (stack : KernelStack) :
    stack.top.toNat = stack.base.toNat + kernelStackSize := by
  have haligned := stack.aligned
  have hfits : stack.base.toNat + kernelStackSize ≤ 2 ^ 64 - 1 := stack.fits
  have hsum : (stack.base + BitVec.ofNat 64 kernelStackSize).toNat =
      stack.base.toNat + kernelStackSize := by
    rw [BitVec.toNat_add, BitVec.toNat_ofNat, kernelStackSize] at *
    omega
  have hdvd : 16 ∣ (stack.base + BitVec.ofNat 64 kernelStackSize).toNat := by
    rw [hsum, kernelStackSize]
    omega
  have htop : stack.top = stack.base + BitVec.ofNat 64 kernelStackSize := Bits.and_not_low hdvd
  rw [htop, hsum]

namespace TaskSystem

variable {space : TaskSpace τ} {kernelStacks : τ → KernelStack} {entry : τ → U64}
  {s s' : TaskSystem κ τ} {c : κ} {target t : τ} {returnAddress : U64}

def waiting (kernelStacks : τ → KernelStack) (entry : τ → U64) (s : TaskSystem κ τ) (t : τ) :
    Option TaskContext :=
  (s.stopped t).elim (TaskContext.newTask (kernelStacks t).top (entry t)) fun stop ↦
    some stop.context

theorem waiting_new (h : s.stopped t = none) :
    s.waiting kernelStacks entry t = TaskContext.newTask (kernelStacks t).top (entry t) := by
  rw [waiting, h, Option.elim_none]

theorem waiting_stopped {stop : Stop} (h : s.stopped t = some stop) :
    s.waiting kernelStacks entry t = some stop.context := by
  rw [waiting, h, Option.elim_some]

/-- At first a task runs, or it is new and its stack is its own. -/
structure Started (space : TaskSpace τ) (kernelStacks : τ → KernelStack) (entry : τ → U64)
    (s : TaskSystem κ τ) : Prop where
  stopped : ∀ t, s.stopped t = none
  contexts : ∀ t, (∀ c, s.running c ≠ t) → ∃ ctx,
    TaskContext.newTask (kernelStacks t).top (entry t) = some ctx ∧
      s.memory.words (space.context t) 8 = ctx.fields
  own : ∀ t, (∀ c, s.running c ≠ t) → (kernelStacks t).bytes ⊆ space.stack t

/-- A task that does not run has its context and its stack as it left them. -/
structure Kept (space : TaskSpace τ) (kernelStacks : τ → KernelStack) (entry : τ → U64)
    (s : TaskSystem κ τ) (t : τ) : Prop where
  context : ∃ ctx, s.waiting kernelStacks entry t = some ctx ∧
    s.memory.words (space.context t) 8 = ctx.fields
  stack : ∀ stop, s.stopped t = some stop → ∀ x ∈ space.stack t, s.memory x = stop.memory x
  own : s.stopped t = none → (kernelStacks t).bytes ⊆ space.stack t

theorem Kept.congr (h : Kept space kernelStacks entry s t) (hstopped : s'.stopped t = s.stopped t)
    (hmemory : ∀ x, x ∈ space.stack t ∨ x ∈ Memory.span (space.context t) 64 →
      s'.memory x = s.memory x) : Kept space kernelStacks entry s' t where
  context := by
    obtain ⟨ctx, hwaiting, hwords⟩ := h.context
    refine ⟨ctx, ?_, ?_⟩
    · rwa [waiting, hstopped]
    · rw [← hwords]
      exact Memory.words_congr fun x hx ↦ hmemory x (.inr hx)
  stack stop hstop x hx := by
    rw [hstopped] at hstop
    rw [hmemory x (.inl hx)]
    exact h.stack stop hstop x hx
  own hnew := h.own (hstopped.symm.trans hnew)

theorem calling_regs {r : Reg} (h : r ≠ .rsp) :
    (s.calling c returnAddress).cpu.regs r = (s.cpus c).regs r :=
  Function.update_of_ne h ..

theorem calling_rsp :
    (s.calling c returnAddress).cpu.regs .rsp = (s.cpus c).regs .rsp - 8 := by
  simp only [calling, SwitchMachine.call, SwitchMachine.set, Function.update_self]

section Switch

variable [DecidableEq κ] [DecidableEq τ] (hrdi : (s.cpus c).regs .rdi = space.context (s.running c))
  (hroom : ∀ x ∈ Memory.span ((s.cpus c).regs .rsp - 8) 8, x ∈ space.stack (s.running c))

theorem stopped_switched_self : (s.switched c target returnAddress).stopped (s.running c) =
    some (s.stopOf c returnAddress) :=
  Function.update_self ..

theorem stopped_switched_of_ne (h : t ≠ s.running c) :
    (s.switched c target returnAddress).stopped t = s.stopped t :=
  Function.update_of_ne h ..

include hrdi in
theorem memory_switched_of_not_mem {x : U64}
    (h : x ∉ Memory.span (space.context (s.running c)) 64) :
    (s.switched c target returnAddress).memory x = (s.calling c returnAddress).memory x := by
  have hrdi' : (s.calling c returnAddress).cpu.regs .rdi = space.context (s.running c) :=
    (calling_regs (by decide)).trans hrdi
  rw [switched]
  dsimp only
  rw [switchContext, exec_append, memory_restoreContext]
  exact memory_saveContext_of_not_mem (by rwa [hrdi'])

include hrdi hroom in
theorem kept_switched_old :
    Kept space kernelStacks entry (s.switched c target returnAddress) (s.running c) := by
  have hrdi' : (s.calling c returnAddress).cpu.regs .rdi = space.context (s.running c) :=
    (calling_regs (by decide)).trans hrdi
  have hsave := words_saveContext (m := s.calling c returnAddress) fun x hx ↦ by
    rw [hrdi']
    rw [calling_rsp] at hx
    exact space.stack_context _ _ x (hroom x hx)
  have hreturn : (s.calling c returnAddress).memory.read64
      ((s.calling c returnAddress).cpu.regs .rsp) = returnAddress := by
    rw [calling_rsp]
    exact Memory.read64_write64_self ..
  rw [hreturn, hrdi'] at hsave
  refine ⟨⟨(s.stopOf c returnAddress).context, ?_, ?_⟩, ?_, fun hnew ↦ ?_⟩
  · exact waiting_stopped stopped_switched_self
  · rw [switched]
    dsimp only
    rw [switchContext, exec_append, memory_restoreContext, hsave]
    rfl
  · intro stop hstop x hx
    cases stopped_switched_self.symm.trans hstop
    exact memory_switched_of_not_mem hrdi (space.stack_context _ _ x hx)
  · cases stopped_switched_self.symm.trans hnew

include hrdi hroom in
theorem Kept.switched (h : Kept space kernelStacks entry s t) (hne : t ≠ s.running c) :
    Kept space kernelStacks entry (s.switched c target returnAddress) t := by
  refine h.congr (stopped_switched_of_ne hne) fun x hx ↦ ?_
  have hcontext : x ∉ Memory.span (space.context (s.running c)) 64 := by
    rcases hx with hx | hx
    · exact space.stack_context t _ x hx
    · exact space.contexts_apart t _ hne x hx
  have hstack : x ∉ space.stack (s.running c) := by
    rcases hx with hx | hx
    · exact space.stacks_apart t _ hne x hx
    · exact fun hmem ↦ space.stack_context _ t x hmem hx
  rw [memory_switched_of_not_mem hrdi hcontext]
  exact Memory.write64_of_not_mem _ _ fun hmem ↦ hstack (hroom x hmem)

include hrdi hroom in
theorem kept_switched (hkept : ∀ t, (∀ d, s.running d ≠ t) → Kept space kernelStacks entry s t)
    (ht : ∀ d, d ≠ c → s.running d ≠ t) :
    Kept space kernelStacks entry (s.switched c target returnAddress) t := by
  by_cases hold : t = s.running c
  · rw [hold]
    exact kept_switched_old hrdi hroom
  · refine (hkept t fun d ↦ ?_).switched hrdi hroom hold
    by_cases hd : d = c
    · rw [hd]
      exact fun h ↦ hold h.symm
    · exact ht d hd

theorem loaded_switched (hrsi : (s.cpus c).regs .rsi = space.context target) {ctx : TaskContext}
    (hwords : (s.switched c target returnAddress).memory.words (space.context target) 8 =
      ctx.fields) : Loaded ((s.switched c target returnAddress).cpus c) ctx := by
  have hcpu : (s.switched c target returnAddress).cpus c =
      ((s.calling c returnAddress).exec switchContext).cpu := Function.update_self ..
  rw [hcpu, switchContext, exec_append]
  refine loaded_restoreContext ?_
  rw [regs_saveContext _ (by decide), calling_regs (by decide), hrsi, ← hwords]
  rfl

end Switch

theorem Started.kept (h : Started space kernelStacks entry s) (ht : ∀ c, s.running c ≠ t) :
    Kept space kernelStacks entry s t where
  context := by
    obtain ⟨ctx, hnew, hwords⟩ := h.contexts t ht
    exact ⟨ctx, (waiting_new (h.stopped t)).trans hnew, hwords⟩
  stack stop hstop := by
    rw [h.stopped] at hstop
    cases hstop
  own _ := h.own t ht

theorem kept_step [DecidableEq κ] [DecidableEq τ] {e : SwitchEvent κ τ}
    (hkept : ∀ t, (∀ c, s.running c ≠ t) → Kept space kernelStacks entry s t)
    (hstep : s.Step space e s') (ht : ∀ c, s'.running c ≠ t) :
    Kept space kernelStacks entry s' t := by
  cases e with
  | work c cpu memory =>
    obtain ⟨hleaves, rfl⟩ := hstep
    exact (hkept t ht).congr rfl (hleaves t (ht c).symm)
  | switch c target returnAddress =>
    obtain ⟨-, hrdi, -, hroom, rfl⟩ := hstep
    refine kept_switched hrdi hroom hkept fun d hd ↦ ?_
    have hrunning : (s.switched c target returnAddress).running d = s.running d :=
      Function.update_of_ne hd ..
    rw [← hrunning]
    exact ht d

end TaskSystem

theorem Loaded.continues {cpu : Cpu} {stop : Stop} (h : Loaded cpu stop.context) :
    Continues cpu stop where
  rip := h.rip
  regs := by
    have hrsp : cpu.regs .rsp = stop.cpu.regs .rsp :=
      h.rsp.trans (BitVec.sub_add_cancel (stop.cpu.regs .rsp) 8)
    intro r hr
    simp only [calleeSaved, List.mem_cons, List.not_mem_nil, or_false] at hr
    rcases hr with rfl | rfl | rfl | rfl | rfl | rfl | rfl
    · exact h.rbx
    · exact h.rbp
    · exact h.r12
    · exact h.r13
    · exact h.r14
    · exact h.r15
    · exact hrsp

/-- A new task starts at its entry, with the stack pointer as after a call. -/
structure Enters (cpu : Cpu) (stack : Set U64) (entry : U64) : Prop where
  rip : cpu.rip = entry
  aligned : (cpu.regs .rsp).toNat % 16 = 8
  inside : cpu.regs .rsp ∈ stack

theorem Loaded.enters {cpu : Cpu} {ctx : TaskContext} {stack : KernelStack} {entry : U64}
    (h : Loaded cpu ctx) (hnew : TaskContext.newTask stack.top entry = some ctx) :
    Enters cpu stack.bytes entry := by
  obtain ⟨rsp, hsub, rfl⟩ := Option.map_eq_some_iff.mp hnew
  have haligned := stack.aligned
  have hfits : stack.base.toNat + kernelStackSize ≤ 2 ^ 64 - 1 := stack.fits
  have hrsp : rsp.toNat + 16 = stack.base.toNat + kernelStackSize :=
    (Checked.sub_eq_some_iff.mp hsub).trans stack.toNat_top
  have hregs : cpu.regs .rsp = rsp + 8 := h.rsp
  rw [kernelStackSize] at hfits hrsp
  have hword : (cpu.regs .rsp).toNat = stack.base.toNat + (kernelStackSize - 8) := by
    rw [hregs, kernelStackSize]
    bv_omega
  refine ⟨h.rip, ?_, ?_⟩
  · rw [hword, kernelStackSize]
    omega
  · rw [KernelStack.bytes, Memory.mem_span, kernelStackSize]
    rw [kernelStackSize] at hword
    bv_omega

namespace TaskSystem

variable [DecidableEq κ] [DecidableEq τ] {space : TaskSpace τ} {kernelStacks : τ → KernelStack}
  {entry : τ → U64} {s₀ s s' : TaskSystem κ τ} {c : κ} {target : τ} {returnAddress : U64}

/-- Every task goes on where it stopped, and a new one starts at its entry, after any
switches among tasks that leave each other's stacks and contexts alone. -/
theorem tasks_resume_where_stopped {events : List (SwitchEvent κ τ)}
    (hstarted : s₀.Started space kernelStacks entry)
    (hrun : Trace.Run (Step space) s₀ events s)
    (hswitch : s.Step space (.switch c target returnAddress) s') :
    (∀ stop, s'.stopped target = some stop → Continues (s'.cpus c) stop ∧
      ∀ x ∈ space.stack target, s'.memory x = stop.memory x) ∧
    (s'.stopped target = none → Enters (s'.cpus c) (space.stack target) (entry target)) := by
  have hkept : ∀ t, (∀ c, s.running c ≠ t) → Kept space kernelStacks entry s t := by
    refine hrun.invariant (I := fun s ↦ ∀ t, (∀ c, s.running c ≠ t) →
      Kept space kernelStacks entry s t) (fun t ht ↦ hstarted.kept ht) ?_
    intro s e s' hkept hstep t ht
    exact kept_step hkept hstep ht
  obtain ⟨hfree, hrdi, hrsi, hroom, rfl⟩ := hswitch
  have htarget : Kept space kernelStacks entry (s.switched c target returnAddress) target :=
    kept_switched hrdi hroom hkept hfree
  obtain ⟨ctx, hwaiting, hwords⟩ := htarget.context
  have hloaded := loaded_switched hrsi hwords
  constructor
  · intro stop hstop
    obtain rfl := Option.some.inj ((waiting_stopped hstop).symm.trans hwaiting)
    exact ⟨hloaded.continues, htarget.stack stop hstop⟩
  · intro hnew
    have henters := hloaded.enters ((waiting_new hnew).symm.trans hwaiting)
    exact ⟨henters.rip, henters.aligned, htarget.own hnew henters.inside⟩

def twoTasks : TaskSpace Bool where
  context t := if t then 0x2000 else 0x1000
  stack t := Memory.span (if t then 0x20000 else 0x10000) kernelStackSize
  contexts_apart := by
    intro t u hne x hx hx'
    rw [Memory.mem_span] at hx hx'
    cases t <;> cases u <;> simp_all <;> bv_omega
  stacks_apart := by
    intro t u hne x hx hx'
    rw [Memory.mem_span, kernelStackSize] at hx hx'
    cases t <;> cases u <;> simp_all <;> bv_omega
  stack_context := by
    intro t u x hx hx'
    rw [Memory.mem_span] at hx hx'
    rw [kernelStackSize] at hx
    cases t <;> cases u <;> simp_all <;> bv_omega

def workerStack : KernelStack := ⟨0x20000, by decide, by decide⟩

def workerContext : TaskContext := ⟨0, 0, 0, 0, 0, 0x24000, 0x23FF0, 0x500000⟩

def aboutToSwitch (old new rsp rbx : U64) : Cpu :=
  ⟨fun r ↦ if r = .rdi then old else if r = .rsi then new else if r = .rsp then rsp else
    if r = .rbx then rbx else 0, 0x300000⟩

def firstRuns : TaskSystem Unit Bool where
  memory := Memory.writeWords (fun _ ↦ 0) 0x2000 0 workerContext.fields
  cpus _ := aboutToSwitch 0x1000 0x2000 0x13000 7
  running _ := false
  stopped _ := none

def workerRuns : TaskSystem Unit Bool :=
  { firstRuns.switched () true 0x400100 with
    cpus := Function.update (firstRuns.switched () true 0x400100).cpus ()
      (aboutToSwitch 0x2000 0x1000 0x23F00 9) }

theorem started_firstRuns :
    firstRuns.Started twoTasks (fun _ ↦ workerStack) (fun _ ↦ 0x500000) where
  stopped _ := rfl
  contexts t ht := by
    obtain rfl : t = true := by simpa [firstRuns] using ht ()
    exact ⟨workerContext, by decide, Memory.words_writeWords (n := 8) _ _ (by decide) 0 _ rfl⟩
  own t ht := by
    obtain rfl : t = true := by simpa [firstRuns] using ht ()
    exact subset_rfl

theorem room_in_stack {t : Bool} {rsp : U64}
    (h : (rsp - 8 - if t then 0x20000 else 0x10000).toNat + 8 ≤ kernelStackSize) :
    ∀ x ∈ Memory.span (rsp - 8) 8, x ∈ twoTasks.stack t := by
  intro x hx
  show (x - if t then 0x20000 else 0x10000).toNat < kernelStackSize
  rw [Memory.mem_span] at hx
  rw [kernelStackSize] at h ⊢
  bv_omega

theorem run_workerRuns : Trace.Run (Step twoTasks) firstRuns
    [.switch () true 0x400100, .work () (aboutToSwitch 0x2000 0x1000 0x23F00 9)
      (firstRuns.switched () true 0x400100).memory] workerRuns := by
  refine .cons ⟨fun d hd ↦ (hd rfl).elim, rfl, rfl, room_in_stack (t := false) (by decide), rfl⟩ ?_
  exact .snoc .nil ⟨fun _ _ _ _ ↦ rfl, rfl⟩

theorem tasks_resume_where_stopped_back :
    Continues ((workerRuns.switched () false 0x500080).cpus ()) (firstRuns.stopOf () 0x400100) := by
  have hcpu : workerRuns.cpus () = aboutToSwitch 0x2000 0x1000 0x23F00 9 := rfl
  have hrunning : workerRuns.running () = true := rfl
  have hswitch : workerRuns.Step twoTasks (.switch () false 0x500080)
      (workerRuns.switched () false 0x500080) := by
    refine ⟨fun d hd ↦ (hd rfl).elim, ?_, ?_, ?_, rfl⟩
    · rw [hcpu, hrunning]
      rfl
    · rw [hcpu]
      rfl
    · rw [hcpu, hrunning]
      exact room_in_stack (t := true) (by decide)
  have hstopped : (workerRuns.switched () false 0x500080).stopped false =
      some (firstRuns.stopOf () 0x400100) := by
    rw [stopped_switched_of_ne (by rw [hrunning]; decide)]
    exact @stopped_switched_self _ _ firstRuns () true 0x400100 _ _
  exact ((tasks_resume_where_stopped started_firstRuns run_workerRuns hswitch).1 _ hstopped).1

end TaskSystem

end BraneKernel
