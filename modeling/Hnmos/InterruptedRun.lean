import Mathlib
import Hnmos.Processor

/-!
# Code that is interrupted

A program runs while interrupts come between any two of its instructions. A
handler is entered through a few instructions and is otherwise a routine known
by what a call may come to: it may read ports, move bytes and use addresses it
keeps in memory of its own, as long as an invariant of that memory holds, which
it keeps. A program that shares nothing with the handlers then runs as it would
alone: the same registers and flags, the same words in the memory it knows,
after as many of its own instructions.
-/

set_option autoImplicit false

namespace Hnmos.InterruptedRun
open Hnmos.ByteMemory Hnmos.Processor

/-- Instructions, and routines that stand where no instruction is listed. -/
structure Image where
  code : Code
  routines : UInt32 → Option (Machine → Machine → Prop)
  apart : ∀ a call, routines a = some call → code a = none

/-- What handlers may write: the addresses they own, which are not in the
stack, and the stack itself below where they are entered. What they rely on is
a property of the memory they own. -/
structure Area where
  owned : UInt32 → Prop
  limit : UInt32
  top : UInt32
  sound : Memory → Prop
  apart : ∀ x, owned x → x.toNat < limit.toNat ∨ top.toNat ≤ x.toNat
  own : ∀ m m', (∀ x, owned x → m' x = m x) → sound m → sound m'

def Area.holds (area : Area) (depth : ℕ) (esp : UInt32) : Prop :=
  area.limit.toNat + depth ≤ esp.toNat ∧ esp.toNat ≤ area.top.toNat

def Area.spares (area : Area) (esp x : UInt32) : Prop :=
  ¬ area.owned x ∧ (x.toNat < area.limit.toNat ∨ esp.toNat ≤ x.toNat)

/-- With interrupts disabled, every way to go on comes to a return from the
interrupt, and to the property there. -/
inductive Returning (p : Features) (image : Image) (P : Machine → Prop) : Machine → Prop
  | last (s : Machine) (next : UInt32) (hdisabled : s.core.has interruptFlag = false)
      (hcode : image.code s.core.eip = some (.iret, next)) (h : P (perform p next .iret s)) :
      Returning p image P s
  | instr (s : Machine) (i : Instr) (next : UInt32)
      (hdisabled : s.core.has interruptFlag = false)
      (hcode : image.code s.core.eip = some (i, next)) (hplain : i ≠ .iret)
      (h : Returning p image P (perform p next i s)) : Returning p image P s
  | routine (s : Machine) (call : Machine → Machine → Prop)
      (hdisabled : s.core.has interruptFlag = false)
      (hcall : image.routines s.core.eip = some call) (hends : ∃ t, call s t)
      (h : ∀ t, call s t → Returning p image P t) : Returning p image P s

structure Restored (area : Area) (s u : Machine) : Prop where
  core : u.core = s.core
  memory : ∀ x, area.spares (s.core.regs .esp) x → u.memory x = s.memory x
  sound : area.sound u.memory

/-- A handler that leads back from wherever it is entered. -/
def Transparent (p : Features) (image : Image) (area : Area) (depth : ℕ)
    (selector entry : UInt32) : Prop :=
  ∀ s : Machine, area.holds depth (s.core.regs .esp) → area.sound s.memory →
    Returning p image (Restored area s) (deliver selector entry s)

structure Interrupted where
  machine : Machine
  serving : Bool
  ticks : ℕ

/-- An instruction, whatever a routine may do, or an interrupt while interrupts
are enabled. -/
inductive Interrupted.Step (p : Features) (image : Image) (selector : UInt32)
    (entries : List UInt32) : Interrupted → Interrupted → Prop
  | instr (s : Machine) (serving : Bool) (n : ℕ) (i : Instr) (next : UInt32)
      (hcode : image.code s.core.eip = some (i, next)) :
      Step p image selector entries ⟨s, serving, n⟩
        ⟨perform p next i s, serving && i != .iret, if serving then n else n + 1⟩
  | routine (s t : Machine) (serving : Bool) (n : ℕ) (call : Machine → Machine → Prop)
      (hcall : image.routines s.core.eip = some call) (h : call s t) :
      Step p image selector entries ⟨s, serving, n⟩ ⟨t, serving, n⟩
  | interrupt (s : Machine) (serving : Bool) (n : ℕ) (entry : UInt32) (hentry : entry ∈ entries)
      (henabled : s.core.has interruptFlag = true) :
      Step p image selector entries ⟨s, serving, n⟩ ⟨deliver selector entry s, true, n⟩

/-- The program alone, with the addresses whose contents it can know. -/
structure Shadow where
  machine : Machine
  known : UInt32 → Prop

def Shadow.next (p : Features) (code : Code) (area : Area) (v : Shadow) : Shadow :=
  match code v.machine.core.eip with
  | none => v
  | some (i, next) =>
    ⟨perform p next i v.machine, fun x =>
      (v.known x ∨ ∃ s ∈ (exec p next i v.machine.core v.machine.memory).2, Covers s.1 x) ∧
        area.spares ((perform p next i v.machine).core.regs .esp) x⟩

def alone (p : Features) (code : Code) (area : Area) (v : Shadow) (n : ℕ) : Shadow :=
  (Shadow.next p code area)^[n] v

/-- The next instruction is one of the program's own and not a return from an
interrupt, reads what is known and leaves the handlers' memory alone, and there
is room on the stack for a handler. -/
structure Discreet (p : Features) (image : Image) (area : Area) (depth : ℕ) (v : Shadow) :
    Prop where
  room : area.holds depth (v.machine.core.regs .esp)
  listed : image.routines v.machine.core.eip = none
  plain : ∀ next, image.code v.machine.core.eip ≠ some (.iret, next)
  reads : ∀ i next, image.code v.machine.core.eip = some (i, next) →
    ∀ a ∈ reads i v.machine.core, ∀ x, Covers a x → v.known x
  writes : ∀ i next, image.code v.machine.core.eip = some (i, next) →
    ∀ s ∈ (exec p next i v.machine.core v.machine.memory).2, ∀ x, Covers s.1 x → ¬ area.owned x

structure Agrees (area : Area) (v : Shadow) (s : Machine) : Prop where
  core : s.core = v.machine.core
  memory : ∀ x, v.known x → s.memory x = v.machine.memory x
  sound : area.sound s.memory

def Faithful (p : Features) (image : Image) (area : Area) (v : Shadow) (w : Interrupted) : Prop :=
  if w.serving then Returning p image (Agrees area v) w.machine else Agrees area v w.machine

section
variable {p : Features} {image : Image} {area : Area} {depth : ℕ} {selector : UInt32}

theorem discreet_of_code (v : Shadow) (i : Instr) (next : UInt32)
    (hcode : image.code v.machine.core.eip = some (i, next)) (hplain : i ≠ .iret)
    (hroom : area.holds depth (v.machine.core.regs .esp))
    (hlisted : image.routines v.machine.core.eip = none)
    (hreads : ∀ a ∈ reads i v.machine.core, ∀ x, Covers a x → v.known x)
    (hwrites : ∀ s ∈ (exec p next i v.machine.core v.machine.memory).2,
      ∀ x, Covers s.1 x → ¬ area.owned x) : Discreet p image area depth v where
  room := hroom
  listed := hlisted
  plain := fun behind hother =>
    hplain (Prod.mk.inj (Option.some.inj (hcode.symm.trans hother))).1
  reads := by
    intro j behind hother
    rw [← (Prod.mk.inj (Option.some.inj (hcode.symm.trans hother))).1]
    exact hreads
  writes := by
    intro j behind hother
    obtain ⟨rfl, rfl⟩ := Prod.mk.inj (Option.some.inj (hcode.symm.trans hother))
    exact hwrites

theorem gate_disables (selector entry : UInt32) (s : Machine) :
    (deliver selector entry s).core.has interruptFlag = false := by
  have hclear : ~~~(0x34300 : UInt32) &&& interruptFlag = 0 := by decide
  show (gateFlags s.core.eflags &&& interruptFlag != 0) = false
  rw [gateFlags, UInt32.and_assoc, hclear, UInt32.and_zero]
  rfl

theorem Returning.mono {P Q : Machine → Prop} {s : Machine} (h : Returning p image P s)
    (hpq : ∀ u, P u → Q u) : Returning p image Q s := by
  induction h with
  | last s next hdisabled hcode h => exact .last s next hdisabled hcode (hpq _ h)
  | instr s i next hdisabled hcode hplain _ ih => exact .instr s i next hdisabled hcode hplain ih
  | routine s call hdisabled hcall hends _ ih => exact .routine s call hdisabled hcall hends ih

theorem Returning.disabled {P : Machine → Prop} {s : Machine} (h : Returning p image P s) :
    s.core.has interruptFlag = false := by
  cases h <;> assumption

theorem next_spares (v : Shadow) (h : ∀ x, v.known x → area.spares (v.machine.core.regs .esp) x)
    (x : UInt32) (hx : (v.next p image.code area).known x) :
    area.spares ((v.next p image.code area).machine.core.regs .esp) x := by
  unfold Shadow.next at hx ⊢
  cases hcode : image.code v.machine.core.eip with
  | none =>
    rw [hcode] at hx
    exact h x hx
  | some fetched =>
    rw [hcode] at hx
    exact hx.2

theorem alone_spares (v : Shadow) (h : ∀ x, v.known x → area.spares (v.machine.core.regs .esp) x)
    (n : ℕ) (x : UInt32) (hx : (alone p image.code area v n).known x) :
    area.spares ((alone p image.code area v n).machine.core.regs .esp) x := by
  induction n generalizing v with
  | zero => exact h x hx
  | succ n ih => exact ih (v.next p image.code area) (next_spares v h) hx

theorem instr_agrees (v : Shadow) (s : Machine) (i : Instr) (next : UInt32)
    (h : Agrees area v s) (hdiscreet : Discreet p image area depth v)
    (hcode : image.code v.machine.core.eip = some (i, next)) :
    Agrees area (v.next p image.code area) (perform p next i s) := by
  have hnext : v.next p image.code area = ⟨perform p next i v.machine, fun x =>
      (v.known x ∨ ∃ s ∈ (exec p next i v.machine.core v.machine.memory).2, Covers s.1 x) ∧
        area.spares ((perform p next i v.machine).core.regs .esp) x⟩ := by
    rw [Shadow.next, hcode]
  have hexec : exec p next i s.core s.memory = exec p next i v.machine.core v.machine.memory := by
    rw [h.core]
    apply exec_congr
    intro a ha
    apply load_congr
    intro x hx
    exact h.memory x (hdiscreet.reads i next hcode a ha x hx)
  have howned (x : UInt32) (hx : area.owned x) :
      apply s.memory (exec p next i v.machine.core v.machine.memory).2 x = s.memory x :=
    apply_outside _ _ x fun st hst hcover => hdiscreet.writes i next hcode st hst x hcover hx
  rw [hnext]
  unfold perform
  rw [hexec]
  refine ⟨rfl, ?_, area.own _ _ howned h.sound⟩
  intro x hx
  rcases hx.1 with hknown | hstored
  · exact apply_agree _ _ _ x (h.memory x hknown)
  · exact apply_covered _ _ _ x hstored

theorem interrupt_returning (v : Shadow) (s : Machine) (entry : UInt32) (h : Agrees area v s)
    (hknown : ∀ x, v.known x → area.spares (v.machine.core.regs .esp) x)
    (hdiscreet : Discreet p image area depth v)
    (htransparent : Transparent p image area depth selector entry) :
    Returning p image (Agrees area v) (deliver selector entry s) := by
  have hroom := hdiscreet.room
  rw [← h.core] at hroom
  apply (htransparent s hroom h.sound).mono
  intro u hrestored
  refine ⟨hrestored.core.trans h.core, ?_, hrestored.sound⟩
  intro x hx
  have hspares := hknown x hx
  rw [← h.core] at hspares
  exact (hrestored.memory x hspares).trans (h.memory x hx)

theorem step_faithful (v : Shadow) (w w' : Interrupted) (entries : List UInt32)
    (h0 : ∀ x, v.known x → area.spares (v.machine.core.regs .esp) x)
    (hdiscreet : ∀ n, Discreet p image area depth (alone p image.code area v n))
    (hentries : ∀ entry ∈ entries, Transparent p image area depth selector entry)
    (h : Faithful p image area (alone p image.code area v w.ticks) w)
    (hstep : Interrupted.Step p image selector entries w w') :
    Faithful p image area (alone p image.code area v w'.ticks) w' := by
  cases hstep with
  | instr s serving n i next hcode =>
    cases serving with
    | false =>
      have hagrees : Agrees area (alone p image.code area v n) s := h
      have hown : image.code (alone p image.code area v n).machine.core.eip = some (i, next) := by
        rw [← hagrees.core]
        exact hcode
      have hnext := instr_agrees _ s i next hagrees (hdiscreet n) hown
      show Agrees area (alone p image.code area v (n + 1)) (perform p next i s)
      rwa [alone, Function.iterate_succ_apply']
    | true =>
      have hreturning : Returning p image (Agrees area (alone p image.code area v n)) s := h
      cases hreturning with
      | last _ behind hdisabled hiret hlast =>
        obtain ⟨rfl, rfl⟩ := Prod.mk.inj (Option.some.inj (hcode.symm.trans hiret))
        exact hlast
      | instr _ j behind hdisabled hown hplain hrest =>
        obtain ⟨rfl, rfl⟩ := Prod.mk.inj (Option.some.inj (hcode.symm.trans hown))
        have hserving : (true && i != .iret) = true := by
          rw [Bool.true_and, bne_iff_ne]
          exact hplain
        show Faithful p image area (alone p image.code area v n)
          ⟨perform p next i s, true && i != .iret, n⟩
        rw [hserving]
        exact hrest
      | routine _ call hdisabled hcall hends hrest =>
        exact absurd (hcode.symm.trans (image.apart _ call hcall)) (Option.some_ne_none _)
  | routine s t serving n call hcall ht =>
    cases serving with
    | false =>
      have hagrees : Agrees area (alone p image.code area v n) s := h
      have hlisted := (hdiscreet n).listed
      rw [← hagrees.core] at hlisted
      exact absurd (hcall.symm.trans hlisted) (Option.some_ne_none call)
    | true =>
      have hreturning : Returning p image (Agrees area (alone p image.code area v n)) s := h
      cases hreturning with
      | last _ behind hdisabled hiret _ =>
        exact absurd (hiret.symm.trans (image.apart _ call hcall)) (Option.some_ne_none _)
      | instr _ j behind hdisabled hown _ _ =>
        exact absurd (hown.symm.trans (image.apart _ call hcall)) (Option.some_ne_none _)
      | routine _ same hdisabled hsame hends hrest =>
        obtain rfl := Option.some.inj (hsame.symm.trans hcall)
        exact hrest t ht
  | interrupt s serving n entry hentry henabled =>
    cases serving with
    | false =>
      exact interrupt_returning _ s entry h (fun x hx => alone_spares v h0 n x hx) (hdiscreet n)
        (hentries entry hentry)
    | true =>
      -- a handler runs with interrupts disabled
      have hreturning : Returning p image (Agrees area (alone p image.code area v n)) s := h
      exact absurd (henabled.symm.trans hreturning.disabled) Bool.true_eq_false.mp

/-- However often the program is interrupted and whatever the handlers do:
outside of them it is where it would be alone after as many of its own
instructions, with the same registers, flags and known memory, and every way
on from within a handler leads back there. -/
theorem run_faithful (v : Shadow) (w : Interrupted) (entries : List UInt32)
    (hsound : area.sound v.machine.memory)
    (h0 : ∀ x, v.known x → area.spares (v.machine.core.regs .esp) x)
    (hdiscreet : ∀ n, Discreet p image area depth (alone p image.code area v n))
    (hentries : ∀ entry ∈ entries, Transparent p image area depth selector entry)
    (hrun : Relation.ReflTransGen (Interrupted.Step p image selector entries)
      ⟨v.machine, false, 0⟩ w) :
    Faithful p image area (alone p image.code area v w.ticks) w := by
  induction hrun with
  | refl => exact ⟨rfl, fun x _ => rfl, hsound⟩
  | tail _ hstep ih => exact step_faithful v _ _ entries h0 hdiscreet hentries ih hstep

end

end Hnmos.InterruptedRun
