import Mathlib
import Hnmos.ByteMemory

/-!
# A 32-bit processor

The instructions that hand-written kernel code is made of. An instruction reads
words, changes registers and flags and makes a list of stores, so that it can
run on a memory of its own or on one it shares with other processors. Interrupts
go through a gate that stays at the same privilege.
-/

set_option autoImplicit false

namespace Hnmos.Processor
open Hnmos.ByteMemory

inductive Reg where
  | eax | ecx | edx | ebx | esp | ebp | esi | edi
  deriving DecidableEq

structure Core where
  regs : Reg → UInt32
  eip : UInt32
  cs : UInt32
  eflags : UInt32

/-- What differs from one processor to another: the auxiliary carry flag that a
logical operation leaves, and what `cpuid` returns for a leaf. -/
structure Features where
  auxiliary : UInt32 → UInt32 → Bool
  identify : UInt32 → UInt32 → UInt32 × UInt32 × UInt32 × UInt32

def plainFeatures : Features := ⟨fun _ _ => false, fun _ _ => (0, 0, 0, 0)⟩

inductive Instr where
  | pusha
  | popa
  | push (source : Reg)
  | pop (target : Reg)
  | pushMem (base : Reg) (offset : UInt32)
  | pushf
  | popf
  | mov (target source : Reg)
  | movImm (target : Reg) (value : UInt32)
  | loadMem (target base : Reg) (offset : UInt32)
  | storeImm (base : Reg) (value : UInt32)
  | andImm (target : Reg) (value : UInt32)
  | subImm (target : Reg) (value : UInt32)
  | xor (target source : Reg)
  | test (first second : Reg)
  | cmpMem (base : Reg) (value : UInt32)
  | xchg (target base : Reg)
  | lockAdd (address value : UInt32)
  | jz (target : UInt32)
  | jne (target : UInt32)
  | jmp (target : UInt32)
  | call (target : UInt32)
  | ret
  | iret
  | cld
  | cli
  | pause
  | cpuid
  deriving DecidableEq

def zeroFlag : UInt32 := 0x40
def interruptFlag : UInt32 := 0x200
def directionFlag : UInt32 := 0x400

def Core.has (c : Core) (flag : UInt32) : Bool := c.eflags &&& flag != 0

def arithmeticFlags : UInt32 := 0x8D5

structure Arithmetic where
  carry : Bool
  parity : Bool
  auxiliary : Bool
  zero : Bool
  sign : Bool
  overflow : Bool

def Arithmetic.bits (a : Arithmetic) : UInt32 :=
  (if a.carry then 0x1 else 0) ||| (if a.parity then 0x4 else 0) |||
    (if a.auxiliary then 0x10 else 0) ||| (if a.zero then 0x40 else 0) |||
    (if a.sign then 0x80 else 0) ||| (if a.overflow then 0x800 else 0)

def evenParity (v : UInt32) : Bool :=
  ((List.range 8).countP fun i => v.toNat.testBit i) % 2 == 0

def Core.flags (c : Core) (a : Arithmetic) : Core :=
  { c with eflags := c.eflags &&& ~~~arithmeticFlags ||| a.bits }

def logical (p : Features) (c : Core) (result : UInt32) : Arithmetic where
  carry := false
  parity := evenParity result
  auxiliary := p.auxiliary c.eflags result
  zero := result == 0
  sign := result.toNat.testBit 31
  overflow := false

def difference (a b : UInt32) : Arithmetic where
  carry := a < b
  parity := evenParity (a - b)
  auxiliary := a.toNat % 16 < b.toNat % 16
  zero := a - b == 0
  sign := (a - b).toNat.testBit 31
  overflow := a.toNat.testBit 31 != b.toNat.testBit 31 &&
    (a - b).toNat.testBit 31 != a.toNat.testBit 31

def sum (a b : UInt32) : Arithmetic where
  carry := a + b < a
  parity := evenParity (a + b)
  auxiliary := 16 ≤ a.toNat % 16 + b.toNat % 16
  zero := a + b == 0
  sign := (a + b).toNat.testBit 31
  overflow := a.toNat.testBit 31 == b.toNat.testBit 31 &&
    (a + b).toNat.testBit 31 != a.toNat.testBit 31

def pushImage (eflags : UInt32) : UInt32 := eflags &&& 0xFCFFFF

/-- The flags after a pop at the highest privilege: the virtual-8086 flag stays,
the resume flag and the virtual interrupt flags are cleared. -/
def popImage (eflags v : UInt32) : UInt32 := v &&& 0x247FD5 ||| eflags &&& 0x20000 ||| 2

/-- A gate clears the trap, interrupt, nested-task, resume and virtual-8086
flags. -/
def gateFlags (eflags : UInt32) : UInt32 := eflags &&& ~~~0x34300

def Core.set (c : Core) (r : Reg) (v : UInt32) : Core :=
  { c with regs := Function.update c.regs r v }

def Core.goto (c : Core) (eip : UInt32) : Core := { c with eip := eip }

def Core.all (c : Core) : List UInt32 :=
  [c.regs .eax, c.regs .ecx, c.regs .edx, c.regs .ebx, c.regs .esp, c.regs .ebp, c.regs .esi,
    c.regs .edi]

/-- The stack pointer that was pushed is passed over. -/
def popAll (m : Memory) (esp : UInt32) : Reg → UInt32
  | .edi => load m esp
  | .esi => load m (esp + 4)
  | .ebp => load m (esp + 8)
  | .esp => esp + 32
  | .ebx => load m (esp + 16)
  | .edx => load m (esp + 20)
  | .ecx => load m (esp + 24)
  | .eax => load m (esp + 28)

/-- The registers after an instruction and the stores it makes. `next` is the
address of the instruction behind it. -/
def exec (p : Features) (next : UInt32) (i : Instr) (c : Core) (m : Memory) :
    Core × List Store :=
  let esp := c.regs .esp
  let c' := c.goto next
  match i with
  | .pusha => (c'.set .esp (esp - 32), pushes esp c.all)
  | .popa => ({ c' with regs := popAll m esp }, [])
  | .push source => (c'.set .esp (esp - 4), [(esp - 4, c.regs source)])
  | .pop target => ((c'.set .esp (esp + 4)).set target (load m esp), [])
  | .pushMem base offset =>
    (c'.set .esp (esp - 4), [(esp - 4, load m (c.regs base + offset))])
  | .pushf => (c'.set .esp (esp - 4), [(esp - 4, pushImage c.eflags)])
  | .popf => ({ c'.set .esp (esp + 4) with eflags := popImage c.eflags (load m esp) }, [])
  | .mov target source => (c'.set target (c.regs source), [])
  | .movImm target value => (c'.set target value, [])
  | .loadMem target base offset => (c'.set target (load m (c.regs base + offset)), [])
  | .storeImm base value => (c', [(c.regs base, value)])
  | .andImm target value =>
    let result := c.regs target &&& value
    ((c'.set target result).flags (logical p c result), [])
  | .subImm target value =>
    ((c'.set target (c.regs target - value)).flags (difference (c.regs target) value), [])
  | .xor target source =>
    let result := c.regs target ^^^ c.regs source
    ((c'.set target result).flags (logical p c result), [])
  | .test first second => (c'.flags (logical p c (c.regs first &&& c.regs second)), [])
  | .cmpMem base value => (c'.flags (difference (load m (c.regs base)) value), [])
  | .xchg target base =>
    (c'.set target (load m (c.regs base)), [(c.regs base, c.regs target)])
  | .lockAdd address value =>
    (c'.flags (sum (load m address) value), [(address, load m address + value)])
  | .jz target => (if c.has zeroFlag then c.goto target else c', [])
  | .jne target => (if c.has zeroFlag then c' else c.goto target, [])
  | .jmp target => (c.goto target, [])
  | .call target => ((c.goto target).set .esp (esp - 4), [(esp - 4, next)])
  | .ret => ((c.goto (load m esp)).set .esp (esp + 4), [])
  | .iret =>
    ({ (c.goto (load m esp)).set .esp (esp + 12) with
        cs := load m (esp + 4), eflags := load m (esp + 8) }, [])
  | .cld => ({ c' with eflags := c.eflags &&& ~~~directionFlag }, [])
  | .cli => ({ c' with eflags := c.eflags &&& ~~~interruptFlag }, [])
  | .pause => (c', [])
  | .cpuid =>
    let found := p.identify (c.regs .eax) (c.regs .ecx)
    ((((c'.set .eax found.1).set .ebx found.2.1).set .ecx found.2.2.1).set .edx found.2.2.2, [])

def reads (i : Instr) (c : Core) : List UInt32 :=
  let esp := c.regs .esp
  match i with
  | .popa => [esp, esp + 4, esp + 8, esp + 16, esp + 20, esp + 24, esp + 28]
  | .pop _ => [esp]
  | .pushMem base offset => [c.regs base + offset]
  | .popf => [esp]
  | .loadMem _ base offset => [c.regs base + offset]
  | .cmpMem base _ => [c.regs base]
  | .xchg _ base => [c.regs base]
  | .lockAdd address _ => [address]
  | .ret => [esp]
  | .iret => [esp, esp + 4, esp + 8]
  | _ => []

/-- An instruction depends on the memory only through the words it reads. -/
theorem exec_congr (p : Features) (next : UInt32) (i : Instr) (c : Core) (m m' : Memory)
    (h : ∀ a ∈ reads i c, load m a = load m' a) : exec p next i c m = exec p next i c m' := by
  cases i with
  | popa =>
    unfold reads at h
    simp only at h
    rw [List.forall_mem_cons, List.forall_mem_cons, List.forall_mem_cons, List.forall_mem_cons,
      List.forall_mem_cons, List.forall_mem_cons, List.forall_mem_cons] at h
    obtain ⟨hedi, hesi, hebp, hebx, hedx, hecx, heax, -⟩ := h
    have hall : popAll m (c.regs .esp) = popAll m' (c.regs .esp) := by
      funext r
      cases r <;> first | assumption | rfl
    simp only [exec, hall]
  | iret =>
    unfold reads at h
    simp only at h
    rw [List.forall_mem_cons, List.forall_mem_cons, List.forall_mem_cons] at h
    obtain ⟨heip, hcs, heflags, -⟩ := h
    simp only [exec]
    rw [heip, hcs, heflags]
  | pop target => simp only [exec, h (c.regs .esp) List.mem_cons_self]
  | pushMem base offset => simp only [exec, h (c.regs base + offset) List.mem_cons_self]
  | popf => simp only [exec, h (c.regs .esp) List.mem_cons_self]
  | loadMem target base offset => simp only [exec, h (c.regs base + offset) List.mem_cons_self]
  | cmpMem base value => simp only [exec, h (c.regs base) List.mem_cons_self]
  | xchg target base => simp only [exec, h (c.regs base) List.mem_cons_self]
  | lockAdd address value => simp only [exec, h address List.mem_cons_self]
  | ret => simp only [exec, h (c.regs .esp) List.mem_cons_self]
  | _ => rfl

theorem or_and_distrib (x y z : UInt32) : (x ||| y) &&& z = x &&& z ||| y &&& z := by
  apply UInt32.toBitVec_inj.mp
  exact BitVec.and_or_distrib_right

theorem bits_apart (a : Arithmetic) (flag : UInt32) (h : arithmeticFlags &&& flag = 0) :
    a.bits &&& flag = 0 := by
  have hbits : a.bits &&& arithmeticFlags = a.bits := by
    obtain ⟨carry, parity, auxiliary, zero, sign, overflow⟩ := a
    cases carry <;> cases parity <;> cases auxiliary <;> cases zero <;> cases sign <;>
      cases overflow <;> rfl
  rw [← hbits, UInt32.and_assoc, h, UInt32.and_zero]

theorem flags_and (c : Core) (a : Arithmetic) (flag : UInt32)
    (h : arithmeticFlags &&& flag = 0) (hnot : ~~~arithmeticFlags &&& flag = flag) :
    (c.flags a).eflags &&& flag = c.eflags &&& flag := by
  unfold Core.flags
  simp only
  rw [or_and_distrib, bits_apart a flag h, UInt32.or_zero, UInt32.and_assoc, hnot]

@[simp] theorem flags_interrupt (c : Core) (a : Arithmetic) :
    (c.flags a).has interruptFlag = c.has interruptFlag := by
  unfold Core.has
  rw [flags_and c a interruptFlag (by decide) (by decide)]

@[simp] theorem flags_direction (c : Core) (a : Arithmetic) :
    (c.flags a).has directionFlag = c.has directionFlag := by
  unfold Core.has
  rw [flags_and c a directionFlag (by decide) (by decide)]

theorem flags_zero (c : Core) (a : Arithmetic) : (c.flags a).has zeroFlag = a.zero := by
  have hbits : a.bits &&& zeroFlag = if a.zero then zeroFlag else 0 := by
    obtain ⟨carry, parity, auxiliary, zero, sign, overflow⟩ := a
    cases carry <;> cases parity <;> cases auxiliary <;> cases zero <;> cases sign <;>
      cases overflow <;> rfl
  have hclear : ~~~arithmeticFlags &&& zeroFlag = 0 := by decide
  unfold Core.has Core.flags
  simp only
  rw [or_and_distrib, UInt32.and_assoc, hclear, UInt32.and_zero, UInt32.zero_or,
    hbits]
  cases a.zero <;> rfl

@[simp] theorem flags_regs (c : Core) (a : Arithmetic) : (c.flags a).regs = c.regs := rfl
@[simp] theorem flags_eip (c : Core) (a : Arithmetic) : (c.flags a).eip = c.eip := rfl
@[simp] theorem flags_cs (c : Core) (a : Arithmetic) : (c.flags a).cs = c.cs := rfl
@[simp] theorem goto_regs (c : Core) (eip : UInt32) : (c.goto eip).regs = c.regs := rfl
@[simp] theorem goto_eip (c : Core) (eip : UInt32) : (c.goto eip).eip = eip := rfl
@[simp] theorem goto_cs (c : Core) (eip : UInt32) : (c.goto eip).cs = c.cs := rfl
@[simp] theorem goto_eflags (c : Core) (eip : UInt32) : (c.goto eip).eflags = c.eflags := rfl
@[simp] theorem set_eip (c : Core) (r : Reg) (v : UInt32) : (c.set r v).eip = c.eip := rfl
@[simp] theorem set_cs (c : Core) (r : Reg) (v : UInt32) : (c.set r v).cs = c.cs := rfl
@[simp] theorem set_eflags (c : Core) (r : Reg) (v : UInt32) : (c.set r v).eflags = c.eflags :=
  rfl

@[simp] theorem set_same (c : Core) (r : Reg) (v : UInt32) : (c.set r v).regs r = v := by
  unfold Core.set
  exact Function.update_self r v c.regs

@[simp] theorem set_other (c : Core) (r s : Reg) (v : UInt32) (h : s ≠ r) :
    (c.set r v).regs s = c.regs s := by
  unfold Core.set
  exact Function.update_of_ne h v c.regs

abbrev Code := UInt32 → Option (Instr × UInt32)

structure Machine where
  core : Core
  memory : Memory

def perform (p : Features) (next : UInt32) (i : Instr) (s : Machine) : Machine :=
  let done := exec p next i s.core s.memory
  ⟨done.1, apply s.memory done.2⟩

def oneByte (start : ℕ) (is : List Instr) (a : UInt32) : Option (Instr × UInt32) :=
  (is[a.toNat - start]?).map (·, a + 1)

def Placed (code : Code) : UInt32 → List Instr → UInt32 → Prop
  | start, [], stop => start = stop
  | start, i :: is, stop => ∃ next, code start = some (i, next) ∧ Placed code next is stop

/-- From one state to another, with the instructions that are carried out. -/
inductive Runs (p : Features) (code : Code) : Machine → List Instr → Machine → Prop
  | refl (s : Machine) : Runs p code s [] s
  | head (s t : Machine) (i : Instr) (next : UInt32) (is : List Instr)
      (hcode : code s.core.eip = some (i, next)) (htail : Runs p code (perform p next i s) is t) :
      Runs p code s (i :: is) t

def deliver (selector entry : UInt32) (s : Machine) : Machine where
  core :=
    { s.core.set .esp (s.core.regs .esp - 12) with
      eip := entry, cs := selector, eflags := gateFlags s.core.eflags }
  memory := apply s.memory
    (pushes (s.core.regs .esp) [s.core.eflags, s.core.cs, s.core.eip])

end Hnmos.Processor
