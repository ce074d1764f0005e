import Mathlib
import Hnmos.InterruptController
import Hnmos.InterruptStub
import Hnmos.Transition

/-!
# From the devices to the handlers

The keyboard, the mouse and the second serial port interrupt the main loop.
The PS/2 controller holds one byte, for either of its devices, until a handler
reads it; the serial port asks for service when fourteen bytes have come or the
line has been quiet. The processor takes interrupts while it waits at the end
of the loop. Whatever the devices do, and whatever state the firmware left the
controllers in, every interrupt enters the handler of the device that asked.
-/

set_option autoImplicit false

namespace Hnmos.InterruptService
open Hnmos.InterruptController Hnmos.InterruptStub Hnmos.Transition

structure Gate where
  offsetLow : UInt16
  selector : UInt16
  zero : UInt8
  typeAttr : UInt8
  offsetHigh : UInt16

abbrev Idt := UInt8 → Gate

def idtSetGate (idt : Idt) (vector : UInt8) (handler : UInt32) : Idt :=
  Function.update idt vector {
    offsetLow := (handler &&& 0xFFFF).toUInt16
    selector := 0x08
    zero := 0
    typeAttr := 0x8E
    offsetHigh := (handler >>> 16 &&& 0xFFFF).toUInt16 }

def interruptsInit (h : Handlers) : Idt :=
  let idt : Idt := fun _ => ⟨0, 0, 0, 0, 0⟩
  let idt := idtSetGate idt 0x21 h.irq1Stub
  let idt := idtSetGate idt 0x23 h.irq3Stub
  idtSetGate idt 0x2C h.irq12Stub

/-- Where the processor goes through a gate of the kernel's code segment, if
it is present and an interrupt gate. -/
def Gate.entry (g : Gate) : Option UInt32 :=
  if g.typeAttr &&& 0x9F = 0x8E ∧ g.selector = 0x08 then
    some (g.offsetHigh.toUInt32 <<< 16 ||| g.offsetLow.toUInt32)
  else none

abbrev Write := UInt16 × UInt8

def ioWait : Write := (0x80, 0)

def masterMask : UInt8 := ~~~((1 : UInt8) <<< 1 ||| (1 : UInt8) <<< 2 ||| (1 : UInt8) <<< 3)

def slaveMask : UInt8 := ~~~((1 : UInt8) <<< (12 - 8))

def picRemapInputIrqs : List Write :=
  [(0x20, 0x10 ||| 0x01), ioWait, (0xA0, 0x10 ||| 0x01), ioWait,
    (0x21, 0x20), ioWait, (0xA1, 0x28), ioWait,
    (0x21, 0x04), ioWait, (0xA1, 0x02), ioWait,
    (0x21, 0x01), ioWait, (0xA1, 0x01), ioWait,
    (0x21, masterMask), (0xA1, slaveMask)]

def picSendEoi (irq : UInt8) : List Write :=
  (if 8 ≤ irq then [(0xA0, 0x20)] else []) ++ [(0x20, 0x20)]

def writes (p : Pair) (ws : List Write) : Pair := ws.foldl (fun p w => p.write w.1 w.2) p

inductive Irq where
  | keyboard | aiSerial | mouse
  deriving DecidableEq

def Irq.number : Irq → UInt8
  | .keyboard => 1
  | .aiSerial => 3
  | .mouse => 12

def irqAt (h : Handlers) (a : UInt32) : Option Irq :=
  if a = h.irq1Stub then some .keyboard
  else if a = h.irq3Stub then some .aiSerial
  else if a = h.irq12Stub then some .mouse
  else none

inductive Source where
  | keyboard | mouse
  deriving DecidableEq

/-- The main loop from the `cli` on, its pass, the `sti; hlt`, and a handler
that has its device to see to or writes left. -/
inductive Cpu where
  | awake
  | passing
  | passed
  | halted
  | serving (irq : Irq) (read : Bool) (left : List Write)
  | faulted
  deriving DecidableEq

/-- What the drivers get, and the passes of the main loop with the bytes that
the poll took from the port. -/
inductive Taken where
  | scancode (value : UInt8)
  | mouseByte (value : UInt8)
  | receive (bytes : List UInt8)
  | pass (bytes : List UInt8)
  deriving DecidableEq

/-- `given` is what the keyboard and the mouse have delivered. -/
structure Board where
  pair : Pair
  idt : Idt
  cpu : Cpu
  output : Option (Source × UInt8)
  fifo : List UInt8
  timedOut : Bool
  given : List (Source × UInt8)
  log : List Taken

def Board.holds (b : Board) (source : Source) : Bool := decide (b.output.map Prod.fst = some source)

def Board.serialRequests (b : Board) : Bool := decide (14 ≤ b.fifo.length) || b.timedOut

def Board.drive (b : Board) : Board :=
  { b with
    pair := ((b.pair.setLine true 4 (b.holds .mouse)).setLine false 1 (b.holds .keyboard)).setLine
      false 3 b.serialRequests }

def Board.readOutput (b : Board) (taken : Taken) : Board :=
  { b with output := none, log := b.log ++ [taken] }.drive

def Board.capture (b : Board) (taken : List UInt8 → Taken) : Board :=
  { b with fifo := [], timedOut := false, log := b.log ++ [taken b.fifo] }.drive

/-- What a handler does with its device. The keyboard's does not ask whose the
byte is. -/
def Board.handle (b : Board) : Irq → Board
  | .keyboard =>
    match b.output with
    | none => b
    | some (_, value) => b.readOutput (.scancode value)
  | .mouse =>
    match b.output with
    | some (.mouse, value) => b.readOutput (.mouseByte value)
    | _ => b
  | .aiSerial => b.capture .receive

def Board.interrupt (h : Handlers) (b : Board) : Board :=
  match (b.pair.acknowledge.1.bind fun vector => (b.idt vector).entry).bind (irqAt h) with
  | none => { b with pair := b.pair.acknowledge.2, cpu := .faulted }
  | some irq =>
    { b with
      pair := b.pair.acknowledge.2
      cpu := .serving irq false (picSendEoi irq.number) }

/-- The next step of the processor. The poll in a pass reads the port while an
answer is awaited. -/
def Board.tick (h : Handlers) (b : Board) (listening : Bool) : Board :=
  match b.cpu with
  | .awake => if b.pair.asserts then b.interrupt h else { b with cpu := .passing }
  | .passing =>
    if listening then { b.capture .pass with cpu := .passed }
    else { b with log := b.log ++ [.pass []], cpu := .passed }
  | .passed => { b with cpu := .halted }
  | .halted => if b.pair.asserts then b.interrupt h else b
  | .serving irq false left => { b.handle irq with cpu := .serving irq true left }
  | .serving irq true (w :: left) =>
    { b with pair := b.pair.write w.1 w.2, cpu := .serving irq true left }
  | .serving _ true [] => { b with cpu := .awake }
  | .faulted => b

inductive BoardEvent where
  | present (source : Source) (value : UInt8)
  | arrive (value : UInt8)
  | timeout
  | other (slave : Bool) (n : Fin 8) (high : Bool)
  | tick (listening : Bool)

/-- The inputs of the three devices and of the second controller. -/
def wired (slave : Bool) (n : Fin 8) : Bool :=
  if slave then decide (n = 4) else decide (n = 1 ∨ n = 2 ∨ n = 3)

def Board.step (h : Handlers) (b : Board) : BoardEvent → Board
  | .present source value =>
    if b.output = none then
      { b with output := some (source, value), given := b.given ++ [(source, value)] }.drive
    else b
  | .arrive value =>
    if b.fifo.length < 16 then
      { b with fifo := b.fifo ++ [value] }.drive
    else b
  | .timeout => if b.fifo = [] then b else { b with timedOut := true }.drive
  | .other slave n high =>
    if wired slave n then b else { b with pair := b.pair.setLine slave n high }
  | .tick listening => b.tick h listening

section
variable (h : Handlers) (p : Pair) (output : Option (Source × UInt8)) (fifo : List UInt8)
  (timedOut : Bool)

def Board.unprogrammed : Board where
  pair := p
  idt := interruptsInit h
  cpu := .passing
  output := output
  fifo := fifo
  timedOut := timedOut
  given := output.toList
  log := []

def Board.start : Board :=
  let b := (Board.unprogrammed h p output fifo timedOut).drive
  { b with pair := writes b.pair picRemapInputIrqs }

end

/-- Both run edge-triggered in 8086 mode, cascaded at input 2, with the vectors
from 0x20 on and the three inputs open. -/
def masterSetup : Setup := ⟨.operating, false, true, false, 0x20, 0x04, 0x01, masterMask⟩

def slaveSetup : Setup := ⟨.operating, false, true, false, 0x28, 0x02, 0x01, slaveMask⟩

def forget (c : Controller) : Controller :=
  { c with level := Function.update c.level 2 false, edge := Function.update c.edge 2 false }

def masterWrite (c : Controller) (w : Write) : Controller :=
  if w.1 = 0x20 then c.writeCommand w.2 else if w.1 = 0x21 then c.writeData w.2 else c

def slaveWrite (c : Controller) (w : Write) : Controller :=
  if w.1 = 0xA0 then c.writeCommand w.2 else if w.1 = 0xA1 then c.writeData w.2 else c

theorem forget_setLine (c : Controller) (high : Bool) : forget (c.setLine 2 high) = forget c := by
  simp [forget, Controller.setLine]

theorem forget_writeCommand (c : Controller) (byte : UInt8) :
    forget ((forget c).writeCommand byte) = forget (c.writeCommand byte) := by
  unfold Controller.writeCommand Controller.endOfInterrupt
  split_ifs
  · simp [forget]
  · simp [forget]
  · simp [forget]
  · rw [show (forget c).service = c.service from rfl]
    cases Fin.find? c.service <;> simp [forget]
  · simp [forget]
  · simp [forget]

theorem forget_writeData (c : Controller) (byte : UInt8) :
    forget ((forget c).writeData byte) = forget (c.writeData byte) := by
  simp [Controller.writeData, forget]

theorem forget_masterWrite (c d : Controller) (w : Write) (h : forget c = forget d) :
    forget (masterWrite c w) = forget (masterWrite d w) := by
  unfold masterWrite
  split_ifs
  · rw [← forget_writeCommand c, h, forget_writeCommand]
  · rw [← forget_writeData c, h, forget_writeData]
  · exact h

theorem write_slave (p : Pair) (w : Write) : (p.write w.1 w.2).slave = slaveWrite p.slave w := by
  unfold Pair.write slaveWrite
  split_ifs with h1 h2 h3 h4 <;> simp_all

theorem write_master (p : Pair) (w : Write) :
    forget (p.write w.1 w.2).master = forget (masterWrite p.master w) := by
  unfold Pair.write masterWrite
  split_ifs with h1 h2 h3 h4
  · exact forget_setLine _ _
  · exact forget_setLine _ _
  · exact forget_setLine _ _
  · exact forget_setLine _ _
  · rfl

theorem writes_slave (p : Pair) (ws : List Write) :
    (writes p ws).slave = ws.foldl slaveWrite p.slave := by
  induction ws generalizing p with
  | nil => rfl
  | cons w ws ih => exact (ih _).trans (congrArg (ws.foldl slaveWrite) (write_slave p w))

theorem writes_master (p : Pair) (c : Controller) (ws : List Write)
    (h : forget p.master = forget c) :
    forget (writes p ws).master = forget (ws.foldl masterWrite c) := by
  induction ws generalizing p c with
  | nil => exact h
  | cons w ws ih => exact ih _ _ ((write_master p w).trans (forget_masterWrite _ _ w h))

theorem remapped_slave (p : Pair) : (writes p picRemapInputIrqs).slave =
    ⟨slaveSetup, p.slave.level, fun _ => false, p.slave.service⟩ := by
  rw [writes_slave]
  rfl

theorem remapped_master (p : Pair) : forget (writes p picRemapInputIrqs).master =
    forget ⟨masterSetup, p.master.level, fun _ => false, p.master.service⟩ := by
  rw [writes_master p p.master picRemapInputIrqs rfl]
  rfl

theorem open_master (n : Fin 8) : bit masterSetup.mask n = false ↔ n = 1 ∨ n = 2 ∨ n = 3 := by
  revert n
  decide

theorem open_slave (n : Fin 8) : bit slaveSetup.mask n = false ↔ n = 4 := by
  revert n
  decide

/-- The programmed pair. A request of the second controller is one that the
first has seen rise. -/
structure Wired (p : Pair) : Prop where
  master : p.master.setup = masterSetup
  slave : p.slave.setup = slaveSetup
  cascade : p.master.level 2 = p.slave.resolve.isSome
  latched : p.master.level 2 = true → p.master.edge 2 = true

theorem settle_wired (p : Pair) (hmaster : p.master.setup = masterSetup)
    (hslave : p.slave.setup = slaveSetup)
    (hlatched : p.master.level 2 = true → p.master.edge 2 = true) : Wired p.settle := by
  refine ⟨hmaster, hslave, settle_level p, ?_⟩
  intro hhigh
  rw [settle_level] at hhigh
  show (p.master.setLine 2 _).edge 2 = true
  rw [setLine_edge_same, hhigh]
  cases hlevel : p.master.level 2 with
  | false => simp
  | true => simp [hlatched hlevel]

theorem setLine_wired (p : Pair) (slave : Bool) (n : Fin 8) (high : Bool) (h : Wired p) :
    Wired (p.setLine slave n high) := by
  unfold Pair.setLine
  split_ifs with hs hn
  · exact settle_wired _ h.master h.slave h.latched
  · exact h
  · refine ⟨h.master, h.slave, ?_, ?_⟩
    · exact (setLine_level_other p.master n 2 high (Ne.symm hn)).trans h.cascade
    · intro hhigh
      rw [setLine_level_other p.master n 2 high (Ne.symm hn)] at hhigh
      rw [setLine_edge_other p.master n 2 high (Ne.symm hn)]
      exact h.latched hhigh

theorem remapped_wired (p : Pair) : Wired (writes p picRemapInputIrqs) := by
  have hslave := remapped_slave p
  have hmaster := remapped_master p
  have hnone : (writes p picRemapInputIrqs).slave.resolve = none := by
    rw [hslave, resolve_none_iff _ rfl]
    intro n
    simp [Controller.eligible, Controller.request, slaveSetup]
  obtain ⟨q, hq⟩ : ∃ q : Pair, writes p picRemapInputIrqs = q.settle := ⟨_, rfl⟩
  have hlevel : (writes p picRemapInputIrqs).master.level 2 = false := by
    rw [hq] at hnone ⊢
    rw [settle_level, ← settle_slave, hnone]
    rfl
  refine ⟨congrArg Controller.setup hmaster, congrArg Controller.setup hslave, ?_, ?_⟩
  · rw [hlevel, hnone]
    rfl
  · intro hhigh
    exact absurd (hlevel.symm.trans hhigh) Bool.false_ne_true

def Irq.slave : Irq → Bool
  | .mouse => true
  | _ => false

def Irq.pin : Irq → Fin 8
  | .keyboard => 1
  | .aiSerial => 3
  | .mouse => 4

def Irq.input : Irq → Fin 8
  | .keyboard => 1
  | .aiSerial => 3
  | .mouse => 2

def Irq.vector : Irq → UInt8
  | .keyboard => 0x21
  | .aiSerial => 0x23
  | .mouse => 0x2C

def level (p : Pair) (irq : Irq) : Bool := (p.side irq.slave).level irq.pin

def edge (p : Pair) (irq : Irq) : Bool := (p.side irq.slave).edge irq.pin

structure Free (p : Pair) : Prop where
  master : p.master.service = fun _ => false
  slave : p.slave.service = fun _ => false

theorem slave_resolve (c : Controller) (m : Fin 8) (hsetup : c.setup = slaveSetup) :
    c.resolve = some m ↔ m = 4 ∧ c.level 4 = true ∧ c.edge 4 = true ∧
      ∀ n ≤ 4, c.service n = false := by
  have honly (n : Fin 8) (hn : c.eligible n = true) : n = 4 := by
    rw [eligible_iff, hsetup] at hn
    exact (open_slave n).mp hn.2.1
  have hfour : c.eligible 4 = true ↔ c.level 4 = true ∧ c.edge 4 = true ∧
      ∀ n ≤ 4, c.service n = false := by
    rw [eligible_iff, hsetup, (open_slave 4).mpr rfl, Controller.request, hsetup]
    simp [slaveSetup, and_assoc]
  rw [resolve_some_iff, hsetup]
  constructor
  · rintro ⟨-, heligible, -⟩
    obtain rfl := honly m heligible
    exact ⟨rfl, hfour.mp heligible⟩
  · rintro ⟨rfl, hrest⟩
    refine ⟨rfl, hfour.mpr hrest, ?_⟩
    intro n hn
    by_contra heligible
    rw [Bool.not_eq_false] at heligible
    exact absurd (honly n heligible) hn.ne

theorem slave_asks (c : Controller) (hsetup : c.setup = slaveSetup) :
    c.resolve.isSome = true ↔ c.level 4 = true ∧ c.edge 4 = true ∧
      ∀ n ≤ 4, c.service n = false := by
  rw [Option.isSome_iff_exists]
  constructor
  · rintro ⟨m, hm⟩
    exact ((slave_resolve c m hsetup).mp hm).2
  · intro h
    exact ⟨4, (slave_resolve c 4 hsetup).mpr ⟨rfl, h⟩⟩

theorem master_eligible (p : Pair) (n : Fin 8) (h : Wired p) (hfree : Free p) :
    p.master.eligible n = true ↔
      ∃ irq : Irq, n = irq.input ∧ level p irq = true ∧ edge p irq = true := by
  rw [eligible_iff, h.master, open_master, Controller.request, h.master, hfree.master]
  have hmouse : p.master.level 2 = true ↔ level p .mouse = true ∧ edge p .mouse = true := by
    rw [h.cascade, slave_asks _ h.slave, hfree.slave]
    simp [level, edge, Pair.side, Irq.slave, Irq.pin]
  constructor
  · rintro ⟨hrequest, hopen, -⟩
    simp only [masterSetup, Bool.false_or, Bool.and_eq_true] at hrequest
    rcases hopen with rfl | rfl | rfl
    · exact ⟨.keyboard, rfl, hrequest⟩
    · exact ⟨.mouse, rfl, hmouse.mp hrequest.1⟩
    · exact ⟨.aiSerial, rfl, hrequest⟩
  · rintro ⟨irq, rfl, hlevel, hedge⟩
    cases irq with
    | keyboard => exact ⟨by simpa [masterSetup] using ⟨hlevel, hedge⟩, by simp [Irq.input], by simp⟩
    | aiSerial => exact ⟨by simpa [masterSetup] using ⟨hlevel, hedge⟩, by simp [Irq.input], by simp⟩
    | mouse =>
      have hhigh := hmouse.mpr ⟨hlevel, hedge⟩
      exact ⟨by simpa [masterSetup, Irq.input] using ⟨hhigh, h.latched hhigh⟩,
        by simp [Irq.input], by simp⟩

theorem asserts_iff (p : Pair) (h : Wired p) (hfree : Free p) :
    p.asserts = true ↔ ∃ irq : Irq, level p irq = true ∧ edge p irq = true := by
  have hphase : p.master.setup.phase = .operating := by
    rw [h.master]
    rfl
  rw [Pair.asserts, Controller.resolve, if_pos hphase, Fin.isSome_find?_iff]
  constructor
  · rintro ⟨n, hn⟩
    obtain ⟨irq, -, hrequest⟩ := (master_eligible p n h hfree).mp hn
    exact ⟨irq, hrequest⟩
  · rintro ⟨irq, hrequest⟩
    exact ⟨irq.input, (master_eligible p _ h hfree).mpr ⟨irq, rfl, hrequest⟩⟩

structure Accepted (p : Pair) (irq : Irq) (q : Pair) : Prop where
  wired : Wired q
  level : ∀ i, level q i = level p i
  edge : ∀ i, edge q i = if i = irq then false else edge p i
  master : q.master.service = fun n => decide (n = irq.input)
  slave : q.slave.service = fun n => decide (irq = .mouse ∧ n = 4)

theorem accepted_direct (p : Pair) (irq : Irq) (h : Wired p) (hfree : Free p)
    (hdirect : irq ≠ .mouse) : Accepted p irq ⟨p.master.acknowledge irq.input, p.slave⟩ := by
  have hinput : irq.input ≠ 2 := by
    cases irq with
    | mouse => exact absurd rfl hdirect
    | keyboard => decide
    | aiSerial => decide
  constructor
  · refine ⟨h.master, h.slave, h.cascade, ?_⟩
    intro hhigh
    exact (Function.update_of_ne (Ne.symm hinput) _ _).trans (h.latched hhigh)
  · intro i
    cases i <;> rfl
  · intro i
    cases irq <;> cases i <;> first | exact absurd rfl hdirect | rfl
  · exact acknowledge_service p.master irq.input (by rw [h.master]; decide) hfree.master
  · rw [hfree.slave]
    funext n
    simp [hdirect]

theorem accepted_mouse (p : Pair) (h : Wired p) (hfree : Free p) :
    Accepted p .mouse (Pair.settle ⟨p.master.acknowledge 2, p.slave.acknowledge 4⟩) := by
  have hservice := acknowledge_service p.slave 4 (by rw [h.slave]; decide) hfree.slave
  have hnone : (p.slave.acknowledge 4).resolve.isSome = false := by
    rw [← Bool.not_eq_true, slave_asks (p.slave.acknowledge 4) h.slave, hservice]
    rintro ⟨-, -, hall⟩
    exact absurd (hall 4 le_rfl) (by decide)
  have hlow := (settle_level ⟨p.master.acknowledge 2, p.slave.acknowledge 4⟩).trans hnone
  constructor
  · refine ⟨h.master, h.slave, hlow.trans hnone.symm, ?_⟩
    intro hhigh
    exact absurd (hlow.symm.trans hhigh) Bool.false_ne_true
  · intro i
    cases i <;> rfl
  · intro i
    cases i <;> rfl
  · exact acknowledge_service p.master 2 (by rw [h.master]; decide) hfree.master
  · rw [settle_slave, hservice]
    simp

/-- Every acknowledge is for a device that asks, and brings its vector. -/
theorem acknowledge_accepted (p : Pair) (h : Wired p) (hfree : Free p)
    (hasserts : p.asserts = true) :
    ∃ irq, level p irq = true ∧ edge p irq = true ∧ p.acknowledge.1 = some irq.vector ∧
      Accepted p irq p.acknowledge.2 := by
  obtain ⟨n, hn⟩ := Option.isSome_iff_exists.mp hasserts
  have heligible := ((resolve_some_iff p.master n).mp hn).2.1
  obtain ⟨irq, rfl, hlevel, hedge⟩ := (master_eligible p n h hfree).mp heligible
  refine ⟨irq, hlevel, hedge, ?_⟩
  have hdirect (hmouse : irq ≠ .mouse) : p.acknowledge =
      (p.master.vector irq.input, ⟨p.master.acknowledge irq.input, p.slave⟩) := by
    have hbit : (!p.master.setup.single && bit p.master.setup.cascade irq.input) = false := by
      rw [h.master]
      cases irq with
      | mouse => exact absurd rfl hmouse
      | keyboard => decide
      | aiSerial => decide
    rw [Pair.acknowledge, hn]
    simp only [hbit, Bool.false_eq_true, if_false]
    rw [settle_stays]
    exact h.cascade
  cases irq with
  | keyboard =>
    rw [hdirect (by decide), Controller.vector, h.master]
    exact ⟨rfl, accepted_direct p .keyboard h hfree (by decide)⟩
  | aiSerial =>
    rw [hdirect (by decide), Controller.vector, h.master]
    exact ⟨rfl, accepted_direct p .aiSerial h hfree (by decide)⟩
  | mouse =>
    have hasks : p.slave.resolve = some 4 := by
      rw [slave_resolve _ _ h.slave, hfree.slave]
      exact ⟨rfl, hlevel, hedge, fun _ _ => rfl⟩
    have hboth : p.acknowledge = (p.slave.vector 4,
        Pair.settle ⟨p.master.acknowledge 2, p.slave.acknowledge 4⟩) := by
      rw [Pair.acknowledge, hn, hasks, h.master, h.slave]
      rfl
    rw [hboth, Controller.vector, h.slave]
    exact ⟨rfl, accepted_mouse p h hfree⟩

def Cpu.masterService : Cpu → Fin 8 → Bool
  | .serving irq _ left => fun n => decide (n = irq.input ∧ ((0x20, 0x20) : Write) ∈ left)
  | _ => fun _ => false

def Cpu.slaveService : Cpu → Fin 8 → Bool
  | .serving irq _ left => fun n =>
    decide (irq = .mouse ∧ n = 4 ∧ ((0xA0, 0x20) : Write) ∈ left)
  | _ => fun _ => false

structure Serves (p : Pair) (cpu : Cpu) : Prop where
  master : p.master.service = cpu.masterService
  slave : p.slave.service = cpu.slaveService

structure Untouched (p q : Pair) : Prop where
  level : ∀ i, level q i = level p i
  edge : ∀ i, edge q i = edge p i

theorem eoi_left (irq : Irq) (w : Write) (left : List Write)
    (h : w :: left <:+ picSendEoi irq.number) :
    w = (0x20, 0x20) ∧ left = [] ∨
      irq = .mouse ∧ w = (0xA0, 0x20) ∧ left = [(0x20, 0x20)] := by
  have hone (hends : w :: left <:+ [((0x20, 0x20) : Write)]) : w = (0x20, 0x20) ∧ left = [] := by
    rcases List.suffix_cons_iff.mp hends with hall | hnone
    · exact List.cons.inj hall
    · exact absurd (List.suffix_nil.mp hnone) (List.cons_ne_nil _ _)
  cases irq with
  | keyboard => exact .inl (hone h)
  | aiSerial => exact .inl (hone h)
  | mouse =>
    rcases List.suffix_cons_iff.mp h with hall | hends
    · exact .inr ⟨rfl, List.cons.inj hall⟩
    · exact .inl (hone hends)

theorem master_eoi (p : Pair) (irq : Irq) (read : Bool) (h : Wired p)
    (hserves : Serves p (.serving irq read [(0x20, 0x20)])) :
    p.write 0x20 0x20 = { p with master := { p.master with service := fun _ => false } } := by
  have hservice : p.master.service = fun n => decide (n = irq.input) := by
    rw [hserves.master]
    funext n
    simp [Cpu.masterService]
  have hcommand : p.master.writeCommand 0x20 = { p.master with service := fun _ => false } :=
    endOfInterrupt_only p.master irq.input hservice
  rw [Pair.write, if_pos rfl, hcommand, settle_stays]
  exact h.cascade

theorem slave_eoi (p : Pair) (read : Bool)
    (hserves : Serves p (.serving .mouse read [(0xA0, 0x20), (0x20, 0x20)])) :
    p.write 0xA0 0x20 =
      Pair.settle { p with slave := { p.slave with service := fun _ => false } } := by
  have hservice : p.slave.service = fun n => decide (n = 4) := by
    rw [hserves.slave]
    funext n
    simp [Cpu.slaveService]
  have hcommand : p.slave.writeCommand 0x20 = { p.slave with service := fun _ => false } :=
    endOfInterrupt_only p.slave 4 hservice
  rw [Pair.write, if_neg (by decide), if_neg (by decide), if_pos rfl, hcommand]

theorem eoi_serves (p : Pair) (irq : Irq) (w : Write) (left : List Write) (h : Wired p)
    (hsuffix : w :: left <:+ picSendEoi irq.number)
    (hserves : Serves p (.serving irq true (w :: left))) :
    Wired (p.write w.1 w.2) ∧ Serves (p.write w.1 w.2) (.serving irq true left) ∧
      Untouched p (p.write w.1 w.2) := by
  rcases eoi_left irq w left hsuffix with ⟨rfl, rfl⟩ | ⟨rfl, rfl, rfl⟩
  · rw [master_eoi p irq true h hserves]
    refine ⟨⟨h.master, h.slave, h.cascade, h.latched⟩, ⟨?_, ?_⟩, ?_, ?_⟩
    · funext n
      simp [Cpu.masterService]
    · funext n
      show p.slave.service n = _
      rw [hserves.slave]
      simp [Cpu.slaveService]
    · intro i
      cases i <;> rfl
    · intro i
      cases i <;> rfl
  · rw [slave_eoi p true hserves]
    refine ⟨settle_wired _ h.master h.slave h.latched, ⟨?_, ?_⟩, ?_, ?_⟩
    · show p.master.service = _
      rw [hserves.master]
      funext n
      simp [Cpu.masterService]
    · funext n
      simp [Cpu.slaveService]
    · intro i
      cases i <;> rfl
    · intro i
      cases i <;> rfl

theorem offset_joined (a : UInt32) :
    (a >>> 16 &&& 0xFFFF).toUInt16.toUInt32 <<< 16 ||| (a &&& 0xFFFF).toUInt16.toUInt32 = a := by
  have ha := a.toNat_lt
  have hmask (n : ℕ) : n &&& 65535 = n % 65536 := Nat.and_two_pow_sub_one_eq_mod n 16
  have hlow : (a &&& 0xFFFF).toUInt16.toUInt32.toNat = a.toNat % 65536 := by simp [hmask]
  have hhigh : (a >>> 16 &&& 0xFFFF).toUInt16.toUInt32.toNat = a.toNat / 65536 := by
    simp [hmask, Nat.shiftRight_eq_div_pow]
    omega
  have hshift : (a.toNat / 65536) <<< 16 % 2 ^ 32 = (a.toNat / 65536) <<< 16 := by
    rw [Nat.shiftLeft_eq]
    omega
  apply UInt32.toNat_inj.mp
  rw [UInt32.toNat_or, UInt32.toNat_shiftLeft, hlow, hhigh,
    show (16 : UInt32).toNat % 32 = 16 from rfl, hshift,
    ← Nat.shiftLeft_add_eq_or_of_lt (Nat.mod_lt _ (by decide)), Nat.shiftLeft_eq]
  omega

theorem setGate_entry (idt : Idt) (vector : UInt8) (handler : UInt32) :
    (idtSetGate idt vector handler vector).entry = some handler := by
  have hgate : (0x8E : UInt8) &&& 0x9F = 0x8E ∧ (0x08 : UInt16) = 0x08 := by decide
  rw [idtSetGate, Function.update_self, Gate.entry, if_pos hgate, offset_joined]

theorem setGate_other (idt : Idt) (vector other : UInt8) (handler : UInt32)
    (hne : other ≠ vector) : idtSetGate idt vector handler other = idt other :=
  Function.update_of_ne hne ..

def stubOf (h : Handlers) : Irq → UInt32
  | .keyboard => h.irq1Stub
  | .aiSerial => h.irq3Stub
  | .mouse => h.irq12Stub

theorem init_entry (h : Handlers) (irq : Irq) :
    (interruptsInit h irq.vector).entry = some (stubOf h irq) := by
  unfold interruptsInit
  cases irq with
  | keyboard =>
    rw [setGate_other _ _ _ _ (by decide), setGate_other _ _ _ _ (by decide)]
    exact setGate_entry _ 0x21 h.irq1Stub
  | aiSerial =>
    rw [setGate_other _ _ _ _ (by decide)]
    exact setGate_entry _ 0x23 h.irq3Stub
  | mouse => exact setGate_entry _ 0x2C h.irq12Stub

theorem irqAt_stub (h : Handlers) (hstubs : h.stubs.Nodup) (irq : Irq) :
    irqAt h (stubOf h irq) = some irq := by
  simp only [Handlers.stubs, List.nodup_cons, List.mem_cons, List.not_mem_nil, or_false,
    not_or, not_false_eq_true, List.nodup_nil, and_true] at hstubs
  obtain ⟨⟨h13, h112⟩, h312⟩ := hstubs
  cases irq with
  | keyboard => exact if_pos rfl
  | aiSerial => exact (if_neg (Ne.symm h13)).trans (if_pos rfl)
  | mouse => exact (if_neg (Ne.symm h112)).trans ((if_neg (Ne.symm h312)).trans (if_pos rfl))

def Board.asks (b : Board) : Irq → Bool
  | .keyboard => b.holds .keyboard
  | .aiSerial => b.serialRequests
  | .mouse => b.holds .mouse

def Cpu.Running : Cpu → Prop
  | .serving irq read left =>
    left <:+ picSendEoi irq.number ∧ (read = false → left = picSendEoi irq.number)
  | .faulted => False
  | _ => True

/-- The lines are as the devices drive them, what is in service is what the
processor is serving, and a handler finds its device asking. -/
structure Sound (h : Handlers) (b : Board) : Prop where
  idt : b.idt = interruptsInit h
  wired : Wired b.pair
  level : ∀ irq, level b.pair irq = b.asks irq
  serves : Serves b.pair b.cpu
  running : b.cpu.Running
  announced : ∀ irq left, b.cpu = .serving irq false left → b.asks irq = true

theorem drive_pair (b : Board) : b.drive.pair =
    ((b.pair.setLine true 4 (b.holds .mouse)).setLine false 1 (b.holds .keyboard)).setLine
      false 3 b.serialRequests := rfl

theorem drive_cpu (b : Board) : b.drive.cpu = b.cpu := rfl

theorem drive_level (b : Board) (irq : Irq) : level b.drive.pair irq = b.asks irq := by
  unfold level Board.drive
  cases irq <;> simp [setLine_level_eq, Irq.slave, Irq.pin, Board.asks]

theorem drive_edge (b : Board) (irq : Irq) :
    edge b.drive.pair irq = (edge b.pair irq || b.asks irq && !level b.pair irq) := by
  unfold edge level Board.drive
  cases irq <;>
    simp [setLine_level_eq, setLine_edge_eq, Irq.slave, Irq.pin, Board.asks]

theorem setLine_serves (p : Pair) (cpu : Cpu) (slave : Bool) (n : Fin 8) (high : Bool)
    (h : Serves p cpu) : Serves (p.setLine slave n high) cpu :=
  ⟨(setLine_sides p slave false n high).2.trans h.master,
    (setLine_sides p slave true n high).2.trans h.slave⟩

theorem drive_sound (h : Handlers) (b : Board) (hidt : b.idt = interruptsInit h)
    (hwired : Wired b.pair) (hserves : Serves b.pair b.cpu) (hrunning : b.cpu.Running)
    (hannounced : ∀ irq left, b.cpu = .serving irq false left → b.asks irq = true) :
    Sound h b.drive where
  idt := hidt
  wired := by
    rw [drive_pair]
    exact setLine_wired _ _ _ _ (setLine_wired _ _ _ _ (setLine_wired _ _ _ _ hwired))
  level := drive_level b
  serves := by
    rw [drive_pair, drive_cpu]
    exact setLine_serves _ _ _ _ _ (setLine_serves _ _ _ _ _ (setLine_serves _ _ _ _ _ hserves))
  running := hrunning
  announced := hannounced

theorem free_of_serves (p : Pair) (cpu : Cpu) (h : Serves p cpu)
    (hmain : ∀ irq read left, cpu ≠ .serving irq read left) : Free p := by
  cases cpu with
  | serving irq read left => exact absurd rfl (hmain irq read left)
  | awake => exact ⟨h.master, h.slave⟩
  | passing => exact ⟨h.master, h.slave⟩
  | passed => exact ⟨h.master, h.slave⟩
  | halted => exact ⟨h.master, h.slave⟩
  | faulted => exact ⟨h.master, h.slave⟩

/-- An interrupt is taken: the handler of a device that asks is entered. -/
theorem interrupt_enters (h : Handlers) (b : Board) (hstubs : h.stubs.Nodup) (hb : Sound h b)
    (hmain : ∀ irq read left, b.cpu ≠ .serving irq read left) (hasserts : b.pair.asserts = true) :
    ∃ irq, b.asks irq = true ∧ edge b.pair irq = true ∧
      Accepted b.pair irq b.pair.acknowledge.2 ∧
      b.interrupt h = { b with
        pair := b.pair.acknowledge.2
        cpu := .serving irq false (picSendEoi irq.number) } := by
  have hfree := free_of_serves b.pair b.cpu hb.serves hmain
  obtain ⟨irq, hlevel, hedge, hvector, haccepted⟩ :=
    acknowledge_accepted b.pair hb.wired hfree hasserts
  refine ⟨irq, (hb.level irq).symm.trans hlevel, hedge, haccepted, ?_⟩
  have hgate : (b.pair.acknowledge.1.bind fun vector => (b.idt vector).entry).bind (irqAt h) =
      some irq := by
    rw [hvector, hb.idt, Option.bind_some, init_entry, Option.bind_some, irqAt_stub h hstubs]
  rw [Board.interrupt, hgate]

theorem accepted_serves (p q : Pair) (irq : Irq) (h : Accepted p irq q) :
    Serves q (.serving irq false (picSendEoi irq.number)) := by
  refine ⟨h.master.trans ?_, h.slave.trans ?_⟩
  · funext n
    cases irq <;> simp [Cpu.masterService, picSendEoi, Irq.number]
  · funext n
    cases irq <;> simp [Cpu.slaveService, picSendEoi, Irq.number]

theorem interrupt_sound (h : Handlers) (b : Board) (hstubs : h.stubs.Nodup) (hb : Sound h b)
    (hmain : ∀ irq read left, b.cpu ≠ .serving irq read left) (hasserts : b.pair.asserts = true) :
    Sound h (b.interrupt h) := by
  obtain ⟨irq, hasks, -, haccepted, hnext⟩ := interrupt_enters h b hstubs hb hmain hasserts
  rw [hnext]
  refine ⟨hb.idt, haccepted.wired, ?_, accepted_serves _ _ irq haccepted, ?_, ?_⟩
  · intro i
    exact (haccepted.level i).trans (hb.level i)
  · exact ⟨List.suffix_refl _, fun _ => rfl⟩
  · intro i left hserving
    cases hserving
    exact hasks

theorem devices_sound (h : Handlers) (b c : Board) (hb : Sound h b) (hpair : c.pair = b.pair)
    (hidt : c.idt = b.idt) (hcpu : c.cpu = b.cpu)
    (hasks : ∀ irq, b.asks irq = true → c.asks irq = true) : Sound h c.drive := by
  apply drive_sound h c (hidt.trans hb.idt)
  · rw [hpair]
    exact hb.wired
  · rw [hpair, hcpu]
    exact hb.serves
  · rw [hcpu]
    exact hb.running
  · intro irq left hserving
    rw [hcpu] at hserving
    exact hasks irq (hb.announced irq left hserving)

theorem holds_iff (b : Board) (source : Source) :
    b.holds source = true ↔ ∃ value, b.output = some (source, value) := by
  unfold Board.holds
  cases hout : b.output with
  | none => simp
  | some held =>
    obtain ⟨other, value⟩ := held
    simp

theorem handle_keyboard (b : Board) (h : b.asks .keyboard = true) :
    ∃ value, b.output = some (.keyboard, value) ∧
      b.handle .keyboard = b.readOutput (.scancode value) := by
  obtain ⟨value, houtput⟩ := (holds_iff b .keyboard).mp h
  exact ⟨value, houtput, by rw [Board.handle, houtput]⟩

theorem handle_mouse (b : Board) (h : b.asks .mouse = true) :
    ∃ value, b.output = some (.mouse, value) ∧
      b.handle .mouse = b.readOutput (.mouseByte value) := by
  obtain ⟨value, houtput⟩ := (holds_iff b .mouse).mp h
  exact ⟨value, houtput, by rw [Board.handle, houtput]⟩

theorem readOutput_sound (h : Handlers) (b : Board) (taken : Taken) (irq : Irq)
    (left : List Write) (hb : Sound h b) (hcpu : b.cpu = .serving irq false left) :
    Sound h { b.readOutput taken with cpu := .serving irq true left } := by
  have hserves := hb.serves
  have hrunning := hb.running
  rw [hcpu] at hserves hrunning
  exact drive_sound h { b with
      output := none, log := b.log ++ [taken], cpu := .serving irq true left } hb.idt hb.wired
    ⟨hserves.master, hserves.slave⟩ ⟨hrunning.1, fun hread => absurd hread.symm Bool.false_ne_true⟩
    fun i l hserving => absurd hserving (by simp)

theorem capture_sound (h : Handlers) (b : Board) (taken : List UInt8 → Taken) (cpu : Cpu)
    (hb : Sound h b) (hserves : Serves b.pair cpu) (hrunning : cpu.Running)
    (hcpu : ∀ irq left, cpu ≠ .serving irq false left) :
    Sound h { b.capture taken with cpu := cpu } :=
  drive_sound h { b with fifo := [], timedOut := false, log := b.log ++ [taken b.fifo], cpu := cpu }
    hb.idt hb.wired hserves hrunning fun irq left hserving => absurd hserving (hcpu irq left)

theorem handle_sound (h : Handlers) (b : Board) (irq : Irq) (left : List Write) (hb : Sound h b)
    (hcpu : b.cpu = .serving irq false left) :
    Sound h { b.handle irq with cpu := .serving irq true left } := by
  have hasks := hb.announced irq left hcpu
  have hserves := hb.serves
  have hrunning := hb.running
  rw [hcpu] at hserves hrunning
  cases irq with
  | keyboard =>
    obtain ⟨value, -, hhandle⟩ := handle_keyboard b hasks
    rw [hhandle]
    exact readOutput_sound h b _ _ left hb hcpu
  | mouse =>
    obtain ⟨value, -, hhandle⟩ := handle_mouse b hasks
    rw [hhandle]
    exact readOutput_sound h b _ _ left hb hcpu
  | aiSerial =>
    apply capture_sound h b .receive (.serving .aiSerial true left) hb
    · exact ⟨hserves.master, hserves.slave⟩
    · exact ⟨hrunning.1, fun hread => absurd hread.symm Bool.false_ne_true⟩
    · simp

theorem main_sound (h : Handlers) (b : Board) (log : List Taken) (cpu : Cpu) (hb : Sound h b)
    (hserves : Serves b.pair cpu) (hrunning : cpu.Running)
    (hcpu : ∀ irq left, cpu ≠ .serving irq false left) :
    Sound h { b with log := log, cpu := cpu } :=
  ⟨hb.idt, hb.wired, hb.level, hserves, hrunning,
    fun irq left hserving => absurd hserving (hcpu irq left)⟩

theorem tick_sound (h : Handlers) (b : Board) (listening : Bool) (hstubs : h.stubs.Nodup)
    (hb : Sound h b) : Sound h (b.tick h listening) := by
  have hserves := hb.serves
  have hrunning := hb.running
  unfold Board.tick
  cases hcpu : b.cpu with
  | awake =>
    rw [hcpu] at hserves
    simp only
    split_ifs with hasserts
    · exact interrupt_sound h b hstubs hb (by simp [hcpu]) hasserts
    · exact main_sound h b b.log .passing hb ⟨hserves.master, hserves.slave⟩ trivial (by simp)
  | passing =>
    rw [hcpu] at hserves
    simp only
    split_ifs
    · exact capture_sound h b .pass .passed hb ⟨hserves.master, hserves.slave⟩ trivial (by simp)
    · exact main_sound h b _ .passed hb ⟨hserves.master, hserves.slave⟩ trivial (by simp)
  | passed =>
    rw [hcpu] at hserves
    exact main_sound h b b.log .halted hb ⟨hserves.master, hserves.slave⟩ trivial (by simp)
  | halted =>
    simp only
    split_ifs with hasserts
    · exact interrupt_sound h b hstubs hb (by simp [hcpu]) hasserts
    · exact hb
  | faulted =>
    rw [hcpu] at hrunning
    exact hrunning.elim
  | serving irq read left =>
    rw [hcpu] at hserves hrunning
    cases read with
    | false => exact handle_sound h b irq left hb hcpu
    | true =>
      cases left with
      | nil =>
        apply main_sound h b b.log .awake hb _ trivial (by simp)
        refine ⟨hserves.master.trans ?_, hserves.slave.trans ?_⟩
        · funext n
          simp [Cpu.masterService]
        · funext n
          simp [Cpu.slaveService]
      | cons w left =>
        obtain ⟨hwired, hnext, huntouched⟩ :=
          eoi_serves b.pair irq w left hb.wired hrunning.1 hserves
        refine ⟨hb.idt, hwired, ?_, hnext, ?_, ?_⟩
        · intro i
          exact (huntouched.level i).trans (hb.level i)
        · exact ⟨(List.suffix_cons w left).trans hrunning.1,
            fun hread => absurd hread.symm Bool.false_ne_true⟩
        · intro i l hserving
          exact absurd hserving (by simp)

theorem unwired (slave : Bool) (n : Fin 8) (h : wired slave n = false) (irq : Irq) :
    (slave = true ∨ n ≠ 2) ∧ (irq.slave = true ∨ irq.pin ≠ 2) ∧
      ¬ (irq.slave = slave ∧ irq.pin = n) := by
  revert h n
  cases slave <;> cases irq <;> decide

theorem other_untouched (p : Pair) (slave : Bool) (n : Fin 8) (high : Bool)
    (h : wired slave n = false) : Untouched p (p.setLine slave n high) := by
  constructor
  · intro irq
    obtain ⟨hn, hm, hne⟩ := unwired slave n h irq
    exact (setLine_level_eq p slave irq.slave n irq.pin high hn hm).trans (if_neg hne)
  · intro irq
    obtain ⟨hn, hm, hne⟩ := unwired slave n h irq
    exact (setLine_edge_eq p slave irq.slave n irq.pin high hn hm).trans (if_neg hne)

theorem other_sound (h : Handlers) (b : Board) (slave : Bool) (n : Fin 8) (high : Bool)
    (hb : Sound h b) (hother : wired slave n = false) :
    Sound h { b with pair := b.pair.setLine slave n high } := by
  refine ⟨hb.idt, setLine_wired _ _ _ _ hb.wired, ?_, setLine_serves _ _ _ _ _ hb.serves,
    hb.running, hb.announced⟩
  intro irq
  exact ((other_untouched b.pair slave n high hother).level irq).trans (hb.level irq)

theorem present_sound (h : Handlers) (b : Board) (source : Source) (value : UInt8)
    (hb : Sound h b) (hnone : b.output = none) :
    Sound h { b with
      output := some (source, value), given := b.given ++ [(source, value)] }.drive := by
  refine devices_sound h b { b with
    output := some (source, value), given := b.given ++ [(source, value)] } hb rfl rfl rfl ?_
  intro irq hasks
  cases irq with
  | keyboard => simp [Board.asks, Board.holds, hnone] at hasks
  | mouse => simp [Board.asks, Board.holds, hnone] at hasks
  | aiSerial => exact hasks

theorem arrive_sound (h : Handlers) (b : Board) (value : UInt8) (hb : Sound h b) :
    Sound h { b with fifo := b.fifo ++ [value] }.drive := by
  refine devices_sound h b { b with fifo := b.fifo ++ [value] } hb rfl rfl rfl ?_
  intro irq hasks
  cases irq with
  | keyboard => exact hasks
  | mouse => exact hasks
  | aiSerial =>
    simp only [Board.asks, Board.serialRequests, Bool.or_eq_true, decide_eq_true_eq,
      List.length_append, List.length_singleton] at hasks ⊢
    exact hasks.imp_left (Nat.le_succ_of_le ·)

theorem timeout_sound (h : Handlers) (b : Board) (hb : Sound h b) :
    Sound h { b with timedOut := true }.drive := by
  refine devices_sound h b { b with timedOut := true } hb rfl rfl rfl ?_
  intro irq hasks
  cases irq with
  | keyboard => exact hasks
  | mouse => exact hasks
  | aiSerial => exact Bool.or_true _

theorem step_sound (h : Handlers) (b : Board) (e : BoardEvent) (hstubs : h.stubs.Nodup)
    (hb : Sound h b) : Sound h (b.step h e) := by
  cases e with
  | present source value =>
    rw [Board.step]
    split_ifs with hnone
    · exact present_sound h b source value hb hnone
    · exact hb
  | arrive value =>
    rw [Board.step]
    split_ifs
    · exact arrive_sound h b value hb
    · exact hb
  | timeout =>
    rw [Board.step]
    split_ifs
    · exact hb
    · exact timeout_sound h b hb
  | other slave n high =>
    rw [Board.step]
    split_ifs with hwired
    · exact hb
    · exact other_sound h b slave n high hb (Bool.eq_false_iff.mpr hwired)
  | tick listening => exact tick_sound h b listening hstubs hb

end Hnmos.InterruptService
