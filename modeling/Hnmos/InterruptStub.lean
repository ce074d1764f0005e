import Mathlib
import Hnmos.InterruptedRun

/-!
# Interrupt stubs

The three stubs save all registers on the interrupted stack, align the stack,
call a handler that was compiled from C and undo all of it. Code that an
interrupt finds anywhere goes on as if nothing had happened.
-/

set_option autoImplicit false

namespace Hnmos.InterruptStub
open Hnmos.ByteMemory Hnmos.Processor Hnmos.InterruptedRun

/-- A stub, for the address of its handler. -/
def irqStub (handler : UInt32) : List Instr :=
  [.pusha, .mov .ebp .esp, .andImm .esp 0xFFFFFFF0, .cld, .call handler, .mov .esp .ebp, .popa,
    .iret]

def irq1Stub (keyboardIrqHandler : UInt32) : List Instr := irqStub keyboardIrqHandler

def irq3Stub (aiSerialIrqHandler : UInt32) : List Instr := irqStub aiSerialIrqHandler

def irq12Stub (mouseIrqHandler : UInt32) : List Instr := irqStub mouseIrqHandler

/-- How a stub calls a compiled function without parameters: the direction flag
is clear and the stack aligned to sixteen bytes, interrupts are disabled, and
the memory of the handlers is as they left it. -/
structure Called (area : Area) (depth : ℕ) (s : Machine) : Prop where
  direction : s.core.has directionFlag = false
  disabled : s.core.has interruptFlag = false
  aligned : ((s.core.regs .esp).toNat + 4) % 16 = 0
  room : area.holds depth (s.core.regs .esp)
  sound : area.sound s.memory

/-- What the calling convention promises the caller: the stack pointer and four
more registers are as they were, and its stack has not been written. -/
structure Kept (area : Area) (s t : Machine) : Prop where
  eip : t.core.eip = load s.memory (s.core.regs .esp)
  esp : t.core.regs .esp = s.core.regs .esp + 4
  preserved : ∀ r ∈ [Reg.ebx, .ebp, .esi, .edi], t.core.regs r = s.core.regs r
  disabled : t.core.has interruptFlag = false
  memory : ∀ x, area.spares (s.core.regs .esp) x → t.memory x = s.memory x
  sound : area.sound t.memory

/-- A call ends, and however it ends the convention is kept. -/
def Conforms (area : Area) (depth : ℕ) (call : Machine → Machine → Prop) : Prop :=
  ∀ s, Called area depth s → (∃ t, call s t) ∧ ∀ t, call s t → Kept area s t

theorem mask_bits : ∀ i < 32, Nat.testBit 4294967280 i = decide (4 ≤ i) := by decide

theorem align_toNat (v : UInt32) : (v &&& 0xFFFFFFF0).toNat = v.toNat / 16 * 16 := by
  have hshift : v.toNat / 16 * 16 = v.toNat >>> 4 <<< 4 := by
    rw [Nat.shiftRight_eq_div_pow, Nat.shiftLeft_eq]
  rw [UInt32.toNat_and, hshift]
  show v.toNat &&& 4294967280 = _
  apply Nat.eq_of_testBit_eq
  intro i
  rw [Nat.testBit_and, Nat.testBit_shiftLeft, Nat.testBit_shiftRight]
  by_cases hi : i < 32
  · rw [mask_bits i hi]
    by_cases hlow : 4 ≤ i
    · simp [hlow, Nat.add_sub_cancel' hlow]
    · simp [hlow]
  · have hbit : v.toNat.testBit i = false :=
      Nat.testBit_lt_two_pow (v.toNat_lt.trans_le (Nat.pow_le_pow_right (by decide) (not_lt.mp hi)))
    have hlow : 4 ≤ i := by omega
    simp [hbit, Nat.add_sub_cancel' hlow]

def saved (c : Core) : List UInt32 :=
  [c.eflags, c.cs, c.eip, c.regs .eax, c.regs .ecx, c.regs .edx, c.regs .ebx, c.regs .esp - 12,
    c.regs .ebp, c.regs .esi, c.regs .edi]

theorem saved_stores (c : Core) (selector entry : UInt32) (m : Memory) :
    apply (deliver selector entry ⟨c, m⟩).memory
      (pushes (c.regs .esp - 12) (deliver selector entry ⟨c, m⟩).core.all) =
      apply m (pushes (c.regs .esp) (saved c)) := by
  have htwelve : c.regs .esp - 4 - 4 - 4 = c.regs .esp - 12 := by grind
  have hpushes : pushes (c.regs .esp) (saved c) =
      pushes (c.regs .esp) [c.eflags, c.cs, c.eip] ++
        pushes (c.regs .esp - 12) (deliver selector entry ⟨c, m⟩).core.all := by
    rw [← htwelve]
    rfl
  rw [hpushes, apply_append]
  rfl

/-- What the stub has done when the handler is entered. -/
structure Entered (handler : UInt32) (s t : Machine) : Prop where
  eip : t.core.eip = handler
  direction : t.core.has directionFlag = false
  disabled : t.core.has interruptFlag = false
  base : t.core.regs .ebp = s.core.regs .esp - 44
  esp : t.core.regs .esp = ((s.core.regs .esp - 44) &&& 0xFFFFFFF0) - 4
  memory : ∃ back, t.memory = store (apply s.memory (pushes (s.core.regs .esp) (saved s.core)))
    (((s.core.regs .esp - 44) &&& 0xFFFFFFF0) - 4) back

section
variable {p : Features} {image : Image} {area : Area}

theorem stub_enters (handler start stop selector : UInt32) (s : Machine)
    (hplaced : Placed image.code start (irqStub handler) stop) :
    ∃ t behind, (∀ P, Returning p image P t → Returning p image P (deliver selector start s)) ∧
      Entered handler s t ∧ load t.memory (t.core.regs .esp) = behind ∧
      Placed image.code behind [.mov .esp .ebp, .popa, .iret] stop := by
  obtain ⟨n1, h1, n2, h2, n3, h3, n4, h4, n5, h5, hrest⟩ := hplaced
  let s0 := deliver selector start s
  let s1 := perform p n1 .pusha s0
  let s2 := perform p n2 (.mov .ebp .esp) s1
  let s3 := perform p n3 (.andImm .esp 0xFFFFFFF0) s2
  let s4 := perform p n4 .cld s3
  let s5 := perform p n5 (.call handler) s4
  have hflag0 : s0.core.has interruptFlag = false := gate_disables selector start s
  have hflag2 : s2.core.has interruptFlag = false := hflag0
  have hflag3 : s3.core.has interruptFlag = false := (flags_interrupt _ _).trans hflag2
  have hflag4 : s4.core.has interruptFlag = false := by
    have hkeep : ~~~directionFlag &&& interruptFlag = interruptFlag := by decide
    show (s3.core.eflags &&& ~~~directionFlag &&& interruptFlag != 0) = false
    rw [UInt32.and_assoc, hkeep]
    exact hflag3
  have hdirection : s4.core.has directionFlag = false := by
    have hclear : ~~~directionFlag &&& directionFlag = 0 := by decide
    show (s3.core.eflags &&& ~~~directionFlag &&& directionFlag != 0) = false
    rw [UInt32.and_assoc, hclear, UInt32.and_zero]
    rfl
  have hmemory : s4.memory = apply s.memory (pushes (s.core.regs .esp) (saved s.core)) :=
    saved_stores s.core selector start s.memory
  have hesp1 : s1.core.regs .esp = s.core.regs .esp - 44 := by
    show s.core.regs .esp - 12 - 32 = _
    grind
  have hebp2 : s2.core.regs .ebp = s.core.regs .esp - 44 := hesp1
  have hesp2 : s2.core.regs .esp = s.core.regs .esp - 44 := hesp1
  have hesp4 : s4.core.regs .esp = (s.core.regs .esp - 44) &&& 0xFFFFFFF0 := by
    show s2.core.regs .esp &&& 0xFFFFFFF0 = _
    rw [hesp2]
  have hesp5 : s5.core.regs .esp = ((s.core.regs .esp - 44) &&& 0xFFFFFFF0) - 4 := by
    show s4.core.regs .esp - 4 = _
    rw [hesp4]
  have hmemory5 : s5.memory = store s4.memory (s4.core.regs .esp - 4) n5 := rfl
  have hthrough (P : Machine → Prop) (h : Returning p image P s5) : Returning p image P s0 := by
    apply Returning.instr s0 .pusha n1 hflag0 h1 (by decide)
    apply Returning.instr s1 (.mov .ebp .esp) n2 hflag0 h2 (by decide)
    apply Returning.instr s2 (.andImm .esp 0xFFFFFFF0) n3 hflag2 h3 (by decide)
    apply Returning.instr s3 .cld n4 hflag3 h4 (by decide)
    exact Returning.instr s4 (.call handler) n5 hflag4 h5 (by simp) h
  refine ⟨s5, n5, hthrough, ⟨rfl, hdirection, hflag4, hebp2, hesp5, n5, ?_⟩, ?_, hrest⟩
  · rw [hmemory5, hesp4, hmemory]
  · rw [hesp5, hmemory5, hesp4]
    exact load_store _ _ n5

theorem saved_load (c : Core) (m m' : Memory) (i : ℕ) (v : UInt32)
    (hroom : 44 ≤ (c.regs .esp).toNat)
    (hkept : ∀ x : UInt32, (c.regs .esp).toNat - 44 ≤ x.toNat → x.toNat < (c.regs .esp).toNat →
      m' x = apply m (pushes (c.regs .esp) (saved c)) x)
    (hi : (saved c)[i]? = some v) : load m' (below (c.regs .esp) (i + 1)) = v := by
  have hlength : i < 11 := (List.getElem?_eq_some_iff.mp hi).1
  have hbelow := below_toNat (c.regs .esp) (i + 1) (by omega)
  have hesp := (c.regs .esp).toNat_lt
  rw [← pushes_load m (c.regs .esp) (saved c) i v hroom hi]
  apply load_congr
  intro x hx
  have hrange := covers_range _ x (by omega) hx
  apply hkept <;> omega

theorem stub_leaves (behind stop : UInt32) (s r : Machine)
    (hplaced : Placed image.code behind [.mov .esp .ebp, .popa, .iret] stop)
    (hroom : 44 ≤ (s.core.regs .esp).toNat) (heip : r.core.eip = behind)
    (hbase : r.core.regs .ebp = s.core.regs .esp - 44)
    (hdisabled : r.core.has interruptFlag = false)
    (hkept : ∀ x : UInt32, (s.core.regs .esp).toNat - 44 ≤ x.toNat →
      x.toNat < (s.core.regs .esp).toNat →
      r.memory x = apply s.memory (pushes (s.core.regs .esp) (saved s.core)) x) :
    ∃ u : Machine, u.core = s.core ∧ u.memory = r.memory ∧
      ∀ P : Machine → Prop, P u → Returning p image P r := by
  obtain ⟨n1, h1, n2, h2, n3, h3, -⟩ := hplaced
  rw [← heip] at h1
  have hload (i : ℕ) (v : UInt32) (hi : (saved s.core)[i]? = some v) :=
    saved_load s.core s.memory r.memory i v hroom hkept hi
  let t1 := perform p n1 (.mov .esp .ebp) r
  let t2 := perform p n2 .popa t1
  have hesp1 : t1.core.regs .esp = s.core.regs .esp - 44 := hbase
  have hregs2 : t2.core.regs = popAll r.memory (s.core.regs .esp - 44) := by
    show popAll t1.memory (t1.core.regs .esp) = _
    rw [hesp1]
    rfl
  have hesp2 : t2.core.regs .esp = s.core.regs .esp - 12 := by
    rw [hregs2]
    show s.core.regs .esp - 44 + 32 = _
    grind
  have hwords (n : UInt32) (i : ℕ) (v : UInt32) (hi : (saved s.core)[i]? = some v)
      (hn : s.core.regs .esp - 44 + n = below (s.core.regs .esp) (i + 1)) :
      load r.memory (s.core.regs .esp - 44 + n) = v := by
    rw [hn]
    exact hload i v hi
  have hall (reg : Reg) (hreg : reg ≠ .esp) : t2.core.regs reg = s.core.regs reg := by
    rw [hregs2]
    cases reg with
    | esp => exact absurd rfl hreg
    | edi => exact hload 10 _ rfl
    | esi => exact hwords 4 9 _ rfl (by unfold below; grind)
    | ebp => exact hwords 8 8 _ rfl (by unfold below; grind)
    | ebx => exact hwords 16 6 _ rfl (by unfold below; grind)
    | edx => exact hwords 20 5 _ rfl (by unfold below; grind)
    | ecx => exact hwords 24 4 _ rfl (by unfold below; grind)
    | eax => exact hwords 28 3 _ rfl (by unfold below; grind)
  have hcs : s.core.regs .esp - 12 + 4 = below (s.core.regs .esp) 2 := by unfold below; grind
  have heflags : s.core.regs .esp - 12 + 8 = below (s.core.regs .esp) 1 := by unfold below; grind
  refine ⟨perform p n3 .iret t2, ?_, rfl, ?_⟩
  · show Core.mk (Function.update t2.core.regs .esp (t2.core.regs .esp + 12))
      (load r.memory (t2.core.regs .esp)) (load r.memory (t2.core.regs .esp + 4))
      (load r.memory (t2.core.regs .esp + 8)) = s.core
    rw [hesp2, hcs, heflags, hload 1 s.core.cs rfl, hload 0 s.core.eflags rfl]
    have heip : load r.memory (s.core.regs .esp - 12) = s.core.eip := hload 2 s.core.eip rfl
    rw [heip]
    have hregs : Function.update t2.core.regs .esp (s.core.regs .esp - 12 + 12) =
        s.core.regs := by
      funext reg
      by_cases hreg : reg = .esp
      · rw [hreg, Function.update_self]
        grind
      · rw [Function.update_of_ne hreg]
        exact hall reg hreg
    rw [hregs]
  · intro P h
    apply Returning.instr r (.mov .esp .ebp) n1 hdisabled h1 (by decide)
    apply Returning.instr t1 .popa n2 hdisabled h2 (by decide)
    exact Returning.last t2 n3 hdisabled h3 h

/-- A stub around a conforming handler leads back from wherever it is entered:
every register, the flags and the place of the interrupted code are as they
were, and nothing is written but what the handler owns and the free stack. -/
theorem stub_transparent (handler start stop selector : UInt32) (depth : ℕ)
    (call : Machine → Machine → Prop) (hplaced : Placed image.code start (irqStub handler) stop)
    (hcall : image.routines handler = some call) (hconforms : Conforms area depth call) :
    Transparent p image area (depth + 64) selector start := by
  intro s hholds hsound
  obtain ⟨hlimit, htop⟩ := hholds
  obtain ⟨t, behind, hthrough, hentered, hbehind, hrest⟩ :=
    stub_enters (p := p) handler start stop selector s hplaced
  obtain ⟨back, hmemory⟩ := hentered.memory
  have hesp := (s.core.regs .esp).toNat_lt
  have hlow : (s.core.regs .esp - 44).toNat = (s.core.regs .esp).toNat - 44 :=
    below_toNat (s.core.regs .esp) 11 (by omega)
  have halign := align_toNat (s.core.regs .esp - 44)
  have hfour := sub_four_toNat ((s.core.regs .esp - 44) &&& 0xFFFFFFF0) (by omega)
  have hentry := congrArg UInt32.toNat hentered.esp
  have hback (x : UInt32) (hx : (s.core.regs .esp).toNat - 44 ≤ x.toNat ∨
      x.toNat < area.limit.toNat) :
      t.memory x = apply s.memory (pushes (s.core.regs .esp) (saved s.core)) x := by
    rw [hmemory]
    apply store_outside
    intro hcover
    have hrange := covers_range _ x (by omega) hcover
    omega
  have hpushed (x : UInt32) (hx : x.toNat < area.limit.toNat ∨ (s.core.regs .esp).toNat ≤ x.toNat) :
      apply s.memory (pushes (s.core.regs .esp) (saved s.core)) x = s.memory x := by
    have hlength : 4 * (saved s.core).length = 44 := rfl
    apply pushes_outside
    · omega
    · omega
  have howned (x : UInt32) (hx : area.owned x) : t.memory x = s.memory x := by
    have hapart := area.apart x hx
    rw [hback x (by omega), hpushed x (by omega)]
  have hcalled : Called area depth t :=
    ⟨hentered.direction, hentered.disabled, by omega, ⟨by omega, by omega⟩,
      area.own _ _ howned hsound⟩
  obtain ⟨hends, hkeeps⟩ := hconforms t hcalled
  rw [← hentered.eip] at hcall
  apply hthrough
  apply Returning.routine t call hentered.disabled hcall hends
  intro r hr
  have hkept := hkeeps r hr
  have hspared (x : UInt32) (hx : (s.core.regs .esp).toNat - 44 ≤ x.toNat ∨
      x.toNat < area.limit.toNat) (hown : ¬ area.owned x) :
      r.memory x = apply s.memory (pushes (s.core.regs .esp) (saved s.core)) x := by
    rw [hkept.memory x ⟨hown, by omega⟩, hback x hx]
  have hstack (x : UInt32) (hx : (s.core.regs .esp).toNat - 44 ≤ x.toNat)
      (hx' : x.toNat < (s.core.regs .esp).toNat) :
      r.memory x = apply s.memory (pushes (s.core.regs .esp) (saved s.core)) x := by
    apply hspared x (.inl hx)
    intro hown
    have hapart := area.apart x hown
    omega
  obtain ⟨u, hcore, hlast, hreturns⟩ := stub_leaves (p := p) behind stop s r hrest (by omega)
    (hkept.eip.trans hbehind) ((hkept.preserved .ebp (by simp)).trans hentered.base)
    hkept.disabled hstack
  apply hreturns
  refine ⟨hcore, ?_, hlast.symm ▸ hkept.sound⟩
  intro x hx
  rw [hlast, hspared x (by have hside := hx.2; omega) hx.1]
  exact hpushed x hx.2

end

structure Handlers where
  keyboardIrqHandler : UInt32
  aiSerialIrqHandler : UInt32
  mouseIrqHandler : UInt32
  irq1Stub : UInt32
  irq3Stub : UInt32
  irq12Stub : UInt32

structure Installed (image : Image) (area : Area) (depth : ℕ) (stub handler : UInt32)
    (is : List Instr) : Prop where
  placed : ∃ stop, Placed image.code stub is stop
  conforms : ∃ call, image.routines handler = some call ∧ Conforms area depth call

structure Linked (image : Image) (area : Area) (depth : ℕ) (h : Handlers) : Prop where
  keyboard : Installed image area depth h.irq1Stub h.keyboardIrqHandler
    (irq1Stub h.keyboardIrqHandler)
  aiSerial : Installed image area depth h.irq3Stub h.aiSerialIrqHandler
    (irq3Stub h.aiSerialIrqHandler)
  mouse : Installed image area depth h.irq12Stub h.mouseIrqHandler
    (irq12Stub h.mouseIrqHandler)

def Handlers.stubs (h : Handlers) : List UInt32 := [h.irq1Stub, h.irq3Stub, h.irq12Stub]

section
variable {p : Features} {image : Image} {area : Area} {depth : ℕ}

theorem installed_transparent (selector stub handler : UInt32)
    (h : Installed image area depth stub handler (irqStub handler)) :
    Transparent p image area (depth + 64) selector stub := by
  obtain ⟨⟨stop, hplaced⟩, call, hcall, hconforms⟩ := h
  exact stub_transparent handler stub stop selector depth call hplaced hcall hconforms

theorem linked_transparent (h : Handlers) (hlinked : Linked image area depth h)
    (selector stub : UInt32) (hstub : stub ∈ h.stubs) :
    Transparent p image area (depth + 64) selector stub := by
  rcases List.mem_cons.mp hstub with rfl | hstub
  · exact installed_transparent selector _ _ hlinked.keyboard
  · rcases List.mem_cons.mp hstub with rfl | hstub
    · exact installed_transparent selector _ _ hlinked.aiSerial
    · rw [List.mem_singleton.mp hstub]
      exact installed_transparent selector _ _ hlinked.mouse

/-- Code that shares nothing with the handlers does not see the interrupts of
the keyboard, the serial port and the mouse, whichever come between which of
its instructions and whatever the handlers do. -/
theorem interrupts_unseen (h : Handlers) (selector : UInt32) (v : Shadow) (w : Interrupted)
    (hlinked : Linked image area depth h) (hsound : area.sound v.machine.memory)
    (hknown : ∀ x, v.known x → area.spares (v.machine.core.regs .esp) x)
    (hdiscreet : ∀ n, Discreet p image area (depth + 64) (alone p image.code area v n))
    (hrun : Relation.ReflTransGen (Interrupted.Step p image selector h.stubs)
      ⟨v.machine, false, 0⟩ w) :
    Faithful p image area (alone p image.code area v w.ticks) w :=
  run_faithful v w h.stubs hsound hknown hdiscreet
    (fun stub hstub => linked_transparent h hlinked selector stub hstub) hrun

end

/-- A handler that puts whatever byte it finds at its port into a buffer of
sixteen bytes, at the index it keeps behind it, and leaves anything in `eax`. -/
def ringPut (base : UInt32) (byte : UInt8) (scratch : UInt32) (s : Machine) : Machine where
  core := ((s.core.set .eax scratch).set .esp (s.core.regs .esp + 4)).goto
    (load s.memory (s.core.regs .esp))
  memory := Function.update
    (Function.update s.memory (base + (s.memory (base + 16)).toUInt32) byte)
    (base + 16) ((s.memory (base + 16) + 1) % 16)

def ringCall (base : UInt32) (s t : Machine) : Prop := ∃ byte scratch, t = ringPut base byte scratch s

def ringBases : List UInt32 := [0x3000, 0x3020, 0x3040]

theorem ring_place (base : UInt32) (hbase : base ∈ ringBases) :
    (base + 16).toNat = base.toNat + 16 ∧ 0x3000 ≤ base.toNat ∧ base.toNat + 16 < 0x3060 ∧
      base.toNat % 32 = 0 := by
  simp only [ringBases, List.mem_cons, List.not_mem_nil, or_false] at hbase
  rcases hbase with rfl | rfl | rfl <;> decide

/-- Three buffers above the stack. Each index stays inside its own. -/
def loopArea : Area where
  owned := fun x => 0x3000 ≤ x.toNat ∧ x.toNat < 0x3060
  limit := 0x1000
  top := 0x2000
  sound := fun m => ∀ base ∈ ringBases, m (base + 16) < 16
  apart := fun x hx => .inr (by
    have htop : UInt32.toNat 0x2000 = 0x2000 := rfl
    omega)
  own := by
    intro m m' hsame hsound base hbase
    obtain ⟨hindex, hlow, hhigh, -⟩ := ring_place base hbase
    rw [hsame (base + 16) ⟨by omega, by omega⟩]
    exact hsound base hbase

theorem ring_cell (base : UInt32) (hbase : base ∈ ringBases) (i : UInt8) (hi : i < 16) :
    (base + i.toUInt32).toNat = base.toNat + i.toNat ∧ i.toNat < 16 := by
  obtain ⟨hindex, hlow, hhigh, -⟩ := ring_place base hbase
  have hsmall : i.toNat < 16 := hi
  refine ⟨?_, hsmall⟩
  rw [UInt32.toNat_add, UInt8.toNat_toUInt32, Nat.mod_eq_of_lt]
  omega

theorem ring_conforms (base : UInt32) (hbase : base ∈ ringBases) (depth : ℕ) :
    Conforms loopArea depth (ringCall base) := by
  intro s hcalled
  refine ⟨⟨ringPut base 0 0 s, 0, 0, rfl⟩, ?_⟩
  rintro t ⟨byte, scratch, rfl⟩
  obtain ⟨hindex, hlow, hhigh, hround⟩ := ring_place base hbase
  obtain ⟨hcell, hsmall⟩ := ring_cell base hbase _ (hcalled.sound base hbase)
  refine ⟨rfl, rfl, ?_, hcalled.disabled, ?_, ?_⟩
  · intro r hr
    simp only [List.mem_cons, List.not_mem_nil, or_false] at hr
    rcases hr with rfl | rfl | rfl | rfl <;> rfl
  · intro x hx
    have hother : ¬ (0x3000 ≤ x.toNat ∧ x.toNat < 0x3060) := hx.1
    show Function.update (Function.update s.memory _ byte) _ _ x = s.memory x
    rw [Function.update_of_ne, Function.update_of_ne]
    · rintro rfl
      omega
    · rintro rfl
      omega
  · intro other hother
    obtain ⟨hindex', -, -, hround'⟩ := ring_place other hother
    show Function.update (Function.update s.memory _ byte) _ _ (other + 16) < 16
    by_cases hsame : other + 16 = base + 16
    · rw [hsame, Function.update_self, UInt8.lt_iff_toNat_lt, UInt8.toNat_mod]
      exact Nat.mod_lt _ (by decide)
    · rw [Function.update_of_ne hsame, Function.update_of_ne]
      · exact hcalled.sound other hother
      · intro hcover
        have heq := congrArg UInt32.toNat hcover
        omega

def loopCode : Code := fun a =>
  if a.toNat < 0x200 then oneByte 0x100 (irqStub 0x400) a
  else if a.toNat < 0x300 then oneByte 0x200 (irqStub 0x410) a
  else if a.toNat < 0x400 then oneByte 0x300 (irqStub 0x420) a
  else if a.toNat < 0x500 then none
  else oneByte 0x500 [.push .eax, .pop .ecx, .jmp 0x500] a

def loopImage : Image where
  code := loopCode
  routines := fun a =>
    if a = 0x400 then some (ringCall 0x3000)
    else if a = 0x410 then some (ringCall 0x3020)
    else if a = 0x420 then some (ringCall 0x3040)
    else none
  apart := by
    intro a call h
    split_ifs at h with h1 h2 h3
    · rw [h1]
      decide +kernel
    · rw [h2]
      decide +kernel
    · rw [h3]
      decide +kernel

def loopHandlers : Handlers := ⟨0x400, 0x410, 0x420, 0x100, 0x200, 0x300⟩

def loopMachine : Machine where
  core := ⟨fun r => if r = .esp then 0x2000 else 7, 0x500, 8, 0x202⟩
  memory := fun _ => 0

def loopShadow : Shadow := ⟨loopMachine, loopArea.spares 0x2000⟩

theorem placed_bytes (code : Code) (start : UInt32) (is : List Instr)
    (h : ∀ k < is.length, code (start + UInt32.ofNat k) =
      (is[k]?).map (·, start + UInt32.ofNat (k + 1))) :
    Placed code start is (start + UInt32.ofNat is.length) := by
  induction is generalizing start with
  | nil => exact (UInt32.add_zero start).symm
  | cons i is ih =>
    have hshift (k : ℕ) : start + UInt32.ofNat (k + 1) = start + 1 + UInt32.ofNat k := by
      rw [Nat.add_comm, UInt32.ofNat_add, UInt32.add_assoc]
      rfl
    have hfirst := h 0 (Nat.succ_pos _)
    rw [show start + UInt32.ofNat 0 = start from UInt32.add_zero start] at hfirst
    refine ⟨start + 1, hfirst, ?_⟩
    rw [List.length_cons, hshift]
    apply ih
    intro k hk
    have hlater := h (k + 1) (Nat.succ_lt_succ hk)
    rwa [hshift, hshift, List.getElem?_cons_succ] at hlater

theorem loop_installed (stub handler base : UInt32) (hbase : base ∈ ringBases)
    (hcode : ∀ k < 8, loopCode (stub + UInt32.ofNat k) =
      ((irqStub handler)[k]?).map (·, stub + UInt32.ofNat (k + 1)))
    (hcall : loopImage.routines handler = some (ringCall base)) :
    Installed loopImage loopArea 0 stub handler (irqStub handler) where
  placed := ⟨_, placed_bytes loopCode stub (irqStub handler) hcode⟩
  conforms := ⟨ringCall base, hcall, ring_conforms base hbase 0⟩

theorem loop_linked : Linked loopImage loopArea 0 loopHandlers where
  keyboard := loop_installed 0x100 0x400 0x3000 (by decide) (by decide +kernel) rfl
  aiSerial := loop_installed 0x200 0x410 0x3020 (by decide) (by decide +kernel) rfl
  mouse := loop_installed 0x300 0x420 0x3040 (by decide) (by decide +kernel) rfl

def Looping (v : Shadow) : Prop :=
  (v.machine.core.eip = 0x500 ∧ v.machine.core.regs .esp = 0x2000) ∨
  (v.machine.core.eip = 0x501 ∧ v.machine.core.regs .esp = 0x1FFC ∧
    ∀ x, Covers 0x1FFC x → v.known x) ∨
  (v.machine.core.eip = 0x502 ∧ v.machine.core.regs .esp = 0x2000)

theorem loop_code : loopCode 0x500 = some (.push .eax, 0x501) ∧
    loopCode 0x501 = some (.pop .ecx, 0x502) ∧ loopCode 0x502 = some (.jmp 0x500, 0x503) := by
  decide +kernel

theorem pushed_apart (x : UInt32) (hx : Covers 0x1FFC x) :
    UInt32.toNat 0x1FFC ≤ x.toNat ∧ ¬ loopArea.owned x := by
  have hrange := covers_range 0x1FFC x (by decide) hx
  refine ⟨hrange.1, fun howned => ?_⟩
  have hhigh : 0x3000 ≤ x.toNat := howned.1
  have hlow : UInt32.toNat 0x1FFC = 0x1FFC := rfl
  omega

theorem next_looping (v : Shadow) (h : Looping v) :
    Looping (v.next plainFeatures loopCode loopArea) := by
  obtain ⟨hpush, hpop, hjmp⟩ := loop_code
  rcases h with ⟨heip, hesp⟩ | ⟨heip, hesp, -⟩ | ⟨heip, hesp⟩
  · have hbelow : v.machine.core.regs .esp - 4 = 0x1FFC := by
      rw [hesp]
      decide
    have hnext : (v.next plainFeatures loopCode loopArea).machine.core.regs .esp = 0x1FFC := by
      rw [Shadow.next, heip, hpush]
      exact hbelow
    refine .inr (.inl ⟨?_, hnext, ?_⟩)
    · rw [Shadow.next, heip, hpush]
      rfl
    · intro x hx
      obtain ⟨hlow, hfree⟩ := pushed_apart x hx
      rw [Shadow.next, heip, hpush] at hnext ⊢
      refine ⟨.inr ⟨(v.machine.core.regs .esp - 4, v.machine.core.regs .eax),
        List.mem_singleton.mpr rfl, ?_⟩, hfree, .inr ?_⟩
      · rwa [hbelow]
      · rw [hnext]
        exact hlow
  · refine .inr (.inr ⟨?_, ?_⟩)
    · rw [Shadow.next, heip, hpop]
      rfl
    · rw [Shadow.next, heip, hpop]
      show v.machine.core.regs .esp + 4 = _
      rw [hesp]
      decide
  · refine .inl ⟨?_, ?_⟩
    · rw [Shadow.next, heip, hjmp]
      rfl
    · rw [Shadow.next, heip, hjmp]
      exact hesp

theorem looping (n : ℕ) : Looping (alone plainFeatures loopCode loopArea loopShadow n) := by
  induction n with
  | zero => exact .inl ⟨rfl, rfl⟩
  | succ n ih =>
    rw [alone, Function.iterate_succ_apply']
    exact next_looping _ ih

theorem loop_room : loopArea.holds 64 0x2000 ∧ loopArea.holds 64 0x1FFC := by
  unfold Area.holds loopArea
  decide

theorem loop_discreet (n : ℕ) : Discreet plainFeatures loopImage loopArea 64
    (alone plainFeatures loopCode loopArea loopShadow n) := by
  obtain ⟨hpush, hpop, hjmp⟩ := loop_code
  have hlooping := looping n
  generalize alone plainFeatures loopCode loopArea loopShadow n = v at hlooping ⊢
  rcases hlooping with ⟨heip, hesp⟩ | ⟨heip, hesp, hknown⟩ | ⟨heip, hesp⟩
  · rw [← heip] at hpush
    apply discreet_of_code v (.push .eax) 0x501 hpush (by decide)
    · rw [hesp]
      exact loop_room.1
    · rw [heip]
      rfl
    · exact fun a ha => absurd ha List.not_mem_nil
    · intro s hs x hx howned
      have hbelow : v.machine.core.regs .esp - 4 = 0x1FFC := by
        rw [hesp]
        decide
      rw [List.mem_singleton.mp hs, hbelow] at hx
      exact (pushed_apart x hx).2 howned
  · rw [← heip] at hpop
    apply discreet_of_code v (.pop .ecx) 0x502 hpop (by decide)
    · rw [hesp]
      exact loop_room.2
    · rw [heip]
      rfl
    · intro a ha x hx
      rw [List.mem_singleton.mp ha, hesp] at hx
      exact hknown x hx
    · exact fun s hs => absurd hs List.not_mem_nil
  · rw [← heip] at hjmp
    apply discreet_of_code v (.jmp 0x500) 0x503 hjmp (by decide)
    · rw [hesp]
      exact loop_room.1
    · rw [heip]
      rfl
    · exact fun a ha => absurd ha List.not_mem_nil
    · exact fun s hs => absurd hs List.not_mem_nil

def loopTick (w : Interrupted) : Interrupted :=
  match loopCode w.machine.core.eip with
  | none => w
  | some (i, next) =>
    ⟨perform plainFeatures next i w.machine, w.serving && i != .iret,
      if w.serving then w.ticks else w.ticks + 1⟩

abbrev LoopRuns : Interrupted → Interrupted → Prop :=
  Relation.ReflTransGen (Interrupted.Step plainFeatures loopImage 8 loopHandlers.stubs)

theorem loop_ticks (n : ℕ) (w : Interrupted) : LoopRuns w (loopTick^[n] w) := by
  induction n with
  | zero => exact .refl
  | succ n ih =>
    rw [Function.iterate_succ_apply']
    refine ih.trans ?_
    generalize loopTick^[n] w = u
    unfold loopTick
    cases hcode : loopCode u.machine.core.eip with
    | none => exact .refl
    | some fetched => exact .single (.instr u.machine u.serving u.ticks fetched.1 fetched.2 hcode)

def loopPressed : Interrupted :=
  { loopTick ⟨loopMachine, false, 0⟩ with
    machine := deliver 8 0x100 (loopTick ⟨loopMachine, false, 0⟩).machine
    serving := true }

def loopStored : Interrupted :=
  { loopTick^[5] loopPressed with
    machine := ringPut 0x3000 0x1E 0xFFFFFFFF (loopTick^[5] loopPressed).machine }

theorem loop_runs : LoopRuns ⟨loopMachine, false, 0⟩ (loopTick^[4] loopStored) := by
  have hpressed : LoopRuns (loopTick ⟨loopMachine, false, 0⟩) loopPressed :=
    .single (.interrupt _ _ _ 0x100 (by decide) (by decide +kernel))
  have hstored : LoopRuns (loopTick^[5] loopPressed) loopStored := by
    have hentered : (loopTick^[5] loopPressed).machine.core.eip = 0x400 := by decide +kernel
    have hcall : loopImage.routines (loopTick^[5] loopPressed).machine.core.eip =
        some (ringCall 0x3000) := by
      rw [hentered]
      rfl
    exact .single (.routine _ _ _ _ _ hcall ⟨0x1E, 0xFFFFFFFF, rfl⟩)
  exact (loop_ticks 1 _).trans (hpressed.trans ((loop_ticks 5 _).trans
    (hstored.trans (loop_ticks 4 _))))

theorem interrupts_unseen_loop :
    (loopTick^[4] loopStored).machine.memory 0x3000 = 0x1E ∧
      Agrees loopArea (alone plainFeatures loopCode loopArea loopShadow 2)
        (loopTick^[4] loopStored).machine := by
  have hsound : loopArea.sound loopMachine.memory := by
    intro base _
    show (0 : UInt8) < 16
    decide
  have hfaithful := interrupts_unseen loopHandlers 8 loopShadow (loopTick^[4] loopStored)
    loop_linked hsound (fun x hx => hx) loop_discreet loop_runs
  have hserving : (loopTick^[4] loopStored).serving = false := by decide +kernel
  have hticks : (loopTick^[4] loopStored).ticks = 2 := by decide +kernel
  rw [Faithful, hserving, hticks, if_neg Bool.false_ne_true] at hfaithful
  exact ⟨by decide +kernel, hfaithful⟩

end Hnmos.InterruptStub
