import Mathlib

/-!
# A pair of 8259A interrupt controllers

A controller has eight inputs, the lowest of them first. In edge-triggered mode
an input requests an interrupt while it is high, once it has risen since the
last acknowledge or initialisation. An input that is being served holds back
itself and the inputs behind it until the end of interrupt. The second
controller is wired to input 2 of the first. Rotating priorities, special masks
and polling are left out.
-/

set_option autoImplicit false

namespace Hnmos.InterruptController

instance eightInputs : NeZero 8 := ⟨by decide⟩

/-- What a byte on the data port is taken for. -/
inductive Phase where
  | icw2 | icw3 | icw4 | operating
  deriving DecidableEq

structure Setup where
  phase : Phase
  single : Bool
  wantsIcw4 : Bool
  levelTriggered : Bool
  base : UInt8
  cascade : UInt8
  mode : UInt8
  mask : UInt8
  deriving DecidableEq

structure Controller where
  setup : Setup
  level : Fin 8 → Bool
  edge : Fin 8 → Bool
  service : Fin 8 → Bool

def bit (byte : UInt8) (n : Fin 8) : Bool := byte.toNat.testBit n

def Controller.request (c : Controller) (n : Fin 8) : Bool :=
  c.level n && (c.setup.levelTriggered || c.edge n)

def Controller.eligible (c : Controller) (n : Fin 8) : Bool :=
  c.request n && !bit c.setup.mask n && decide (∀ m ≤ n, c.service m = false)

/-- The input for which the controller asks for an interrupt. -/
def Controller.resolve (c : Controller) : Option (Fin 8) :=
  if c.setup.phase = .operating then Fin.find? c.eligible else none

def Controller.setLine (c : Controller) (n : Fin 8) (high : Bool) : Controller :=
  { c with
    level := Function.update c.level n high
    edge := Function.update c.edge n (c.edge n || high && !c.level n) }

def Controller.acknowledge (c : Controller) (n : Fin 8) : Controller :=
  { c with
    edge := Function.update c.edge n false
    service := if bit c.setup.mode 1 then c.service else Function.update c.service n true }

def Controller.endOfInterrupt (c : Controller) : Controller :=
  match Fin.find? c.service with
  | none => c
  | some n => { c with service := Function.update c.service n false }

/-- The first initialisation word, or an operation command. -/
def Controller.writeCommand (c : Controller) (byte : UInt8) : Controller :=
  if bit byte 4 then
    { c with
      setup := { c.setup with
        phase := .icw2
        single := bit byte 1
        wantsIcw4 := bit byte 0
        levelTriggered := bit byte 3
        mode := if bit byte 0 then c.setup.mode else 0
        mask := 0 }
      edge := fun _ => false }
  else if bit byte 3 then c
  else if byte >>> 5 = 1 then c.endOfInterrupt
  else if byte >>> 5 = 3 then
    { c with service := Function.update c.service (Fin.ofNat 8 byte.toNat) false }
  else c

def Setup.last (s : Setup) : Phase := if s.wantsIcw4 then .icw4 else .operating

def Setup.write (s : Setup) (byte : UInt8) : Setup :=
  match s.phase with
  | .icw2 => { s with base := byte, phase := if s.single then s.last else .icw3 }
  | .icw3 => { s with cascade := byte, phase := s.last }
  | .icw4 => { s with mode := byte, phase := .operating }
  | .operating => { s with mask := byte }

def Controller.writeData (c : Controller) (byte : UInt8) : Controller :=
  { c with setup := c.setup.write byte }

def Controller.vector (c : Controller) (n : Fin 8) : Option UInt8 :=
  if bit c.setup.mode 0 then some (c.setup.base &&& 0xF8 ||| UInt8.ofNat n) else none

structure Pair where
  master : Controller
  slave : Controller

/-- The output of the second controller is input 2 of the first. -/
def Pair.settle (p : Pair) : Pair :=
  { p with master := p.master.setLine 2 p.slave.resolve.isSome }

def Pair.setLine (p : Pair) (slave : Bool) (n : Fin 8) (high : Bool) : Pair :=
  if slave then { p with slave := p.slave.setLine n high }.settle
  else if n = 2 then p
  else { p with master := p.master.setLine n high }

def Pair.write (p : Pair) (port : UInt16) (byte : UInt8) : Pair :=
  if port = 0x20 then { p with master := p.master.writeCommand byte }.settle
  else if port = 0x21 then { p with master := p.master.writeData byte }.settle
  else if port = 0xA0 then { p with slave := p.slave.writeCommand byte }.settle
  else if port = 0xA1 then { p with slave := p.slave.writeData byte }.settle
  else p

def Pair.asserts (p : Pair) : Bool := p.master.resolve.isSome

/-- The acknowledge cycle and the vector it brings. For an input with a second
controller the first one announces the input, and that controller answers if
it knows itself by that number; with no request of its own it gives input 7. -/
def Pair.acknowledge (p : Pair) : Option UInt8 × Pair :=
  match p.master.resolve with
  | none => (p.master.vector 7, p)
  | some n =>
    let master := p.master.acknowledge n
    if !p.master.setup.single && bit p.master.setup.cascade n then
      if p.slave.setup.cascade &&& 7 = UInt8.ofNat n then
        match p.slave.resolve with
        | none => (p.slave.vector 7, Pair.settle ⟨master, p.slave⟩)
        | some m => (p.slave.vector m, Pair.settle ⟨master, p.slave.acknowledge m⟩)
      else (none, Pair.settle ⟨master, p.slave⟩)
    else (p.master.vector n, Pair.settle ⟨master, p.slave⟩)

theorem setLine_setup (c : Controller) (n : Fin 8) (high : Bool) :
    (c.setLine n high).setup = c.setup := rfl

theorem setLine_service (c : Controller) (n : Fin 8) (high : Bool) :
    (c.setLine n high).service = c.service := rfl

theorem setLine_level (c : Controller) (n : Fin 8) (high : Bool) :
    (c.setLine n high).level = Function.update c.level n high := rfl

@[simp] theorem setLine_level_same (c : Controller) (n : Fin 8) (high : Bool) :
    (c.setLine n high).level n = high := Function.update_self ..

theorem setLine_level_other (c : Controller) (n m : Fin 8) (high : Bool) (h : m ≠ n) :
    (c.setLine n high).level m = c.level m := Function.update_of_ne h ..

@[simp] theorem setLine_edge_same (c : Controller) (n : Fin 8) (high : Bool) :
    (c.setLine n high).edge n = (c.edge n || high && !c.level n) := Function.update_self ..

theorem setLine_edge_other (c : Controller) (n m : Fin 8) (high : Bool) (h : m ≠ n) :
    (c.setLine n high).edge m = c.edge m := Function.update_of_ne h ..

theorem setLine_stays (c : Controller) (n : Fin 8) (high : Bool) (h : c.level n = high) :
    c.setLine n high = c := by
  obtain ⟨setup, level, edge, service⟩ := c
  subst h
  simp [Controller.setLine]

theorem resolve_some_iff (c : Controller) (n : Fin 8) :
    c.resolve = some n ↔ c.setup.phase = .operating ∧ c.eligible n = true ∧
      ∀ m < n, c.eligible m = false := by
  unfold Controller.resolve
  by_cases h : c.setup.phase = .operating
  · simp [h]
  · simp [h]

theorem resolve_none_iff (c : Controller) (h : c.setup.phase = .operating) :
    c.resolve = none ↔ ∀ n, c.eligible n = false := by
  rw [Controller.resolve, if_pos h, Fin.find?_eq_none_iff]

theorem eligible_iff (c : Controller) (n : Fin 8) :
    c.eligible n = true ↔ c.request n = true ∧ bit c.setup.mask n = false ∧
      ∀ m ≤ n, c.service m = false := by
  simp [Controller.eligible, and_assoc]

theorem acknowledge_service (c : Controller) (n : Fin 8) (hmode : bit c.setup.mode 1 = false)
    (hfree : c.service = fun _ => false) :
    (c.acknowledge n).service = fun m => decide (m = n) := by
  funext m
  simp [Controller.acknowledge, hmode, hfree, Function.update_apply]

/-- The end of interrupt for the only input in service. -/
theorem endOfInterrupt_only (c : Controller) (n : Fin 8)
    (h : c.service = fun m => decide (m = n)) :
    c.endOfInterrupt = { c with service := fun _ => false } := by
  have hfind : Fin.find? c.service = some n := by
    rw [Fin.find?_eq_some_iff, h]
    exact ⟨decide_eq_true rfl, fun m hm => decide_eq_false hm.ne⟩
  rw [Controller.endOfInterrupt, hfind]
  simp only [h]
  congr 1
  funext m
  simp [Function.update_apply]

def Pair.side (p : Pair) (slave : Bool) : Controller := if slave then p.slave else p.master

@[simp] theorem settle_slave (p : Pair) : p.settle.slave = p.slave := rfl

@[simp] theorem settle_setup (p : Pair) : p.settle.master.setup = p.master.setup := rfl

@[simp] theorem settle_service (p : Pair) : p.settle.master.service = p.master.service := rfl

theorem settle_level (p : Pair) : p.settle.master.level 2 = p.slave.resolve.isSome :=
  setLine_level_same ..

theorem settle_level_other (p : Pair) (n : Fin 8) (h : n ≠ 2) :
    p.settle.master.level n = p.master.level n := setLine_level_other _ _ _ _ h

theorem settle_edge_other (p : Pair) (n : Fin 8) (h : n ≠ 2) :
    p.settle.master.edge n = p.master.edge n := setLine_edge_other _ _ _ _ h

theorem settle_stays (p : Pair) (h : p.master.level 2 = p.slave.resolve.isSome) :
    p.settle = p := by
  rw [Pair.settle, setLine_stays _ _ _ h]

theorem setLine_sides (p : Pair) (slave other : Bool) (n : Fin 8) (high : Bool) :
    ((p.setLine slave n high).side other).setup = (p.side other).setup ∧
      ((p.setLine slave n high).side other).service = (p.side other).service := by
  unfold Pair.setLine Pair.side
  cases slave <;> cases other <;> split_ifs <;> simp [setLine_setup, setLine_service]

theorem setLine_level_eq (p : Pair) (slave other : Bool) (n m : Fin 8) (high : Bool)
    (hn : slave = true ∨ n ≠ 2) (hm : other = true ∨ m ≠ 2) :
    ((p.setLine slave n high).side other).level m =
      if other = slave ∧ m = n then high else (p.side other).level m := by
  unfold Pair.setLine Pair.side
  cases slave <;> cases other <;> simp_all [settle_level_other, setLine_level, Function.update_apply]

theorem setLine_edge_eq (p : Pair) (slave other : Bool) (n m : Fin 8) (high : Bool)
    (hn : slave = true ∨ n ≠ 2) (hm : other = true ∨ m ≠ 2) :
    ((p.setLine slave n high).side other).edge m =
      if other = slave ∧ m = n then (p.side slave).edge n || high && !(p.side slave).level n
      else (p.side other).edge m := by
  unfold Pair.setLine Pair.side
  cases slave <;> cases other <;>
    simp_all [settle_edge_other, Controller.setLine, Function.update_apply]

end Hnmos.InterruptController
