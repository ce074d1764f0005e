import Mathlib
import Hnmos.Transition

/-!
# Critical sections under interrupts

One processor runs code that any number of nested interrupt handlers preempt
wherever the interrupt flag is set. A call saves the flag, clears it, takes a
spin lock, executes a body, releases the lock and restores the flag. The body
then runs as a whole: what whole bodies keep holds whenever the lock is free,
no call ever waits, and every call returns with the flag it was entered with.
-/

set_option autoImplicit false

namespace Hnmos.MaskedSection
open Hnmos.Transition

variable {α ρ κ ι ω : Type*}

/-- The calls over shared data and the registers of a call: the body of each,
what an instruction of a body does, what is noted when a call releases the
lock, and what the code outside of calls may change. -/
structure Program (α ρ κ ι ω : Type*) where
  enters : κ → Bool
  body : κ → List ι
  exec : α × ρ → ι → α × ρ
  complete : α → κ → α
  outside : α → ω → α
  registers : ρ

inductive Stage (κ ι : Type*) where
  | outside
  | entered (call : κ)
  | saved (call : κ)
  | trying (call : κ)
  | waiting (call : κ)
  | critical (call : κ) (rest : List ι)
  | released (call : κ)
  | restored (call : κ)

/-- Where a piece of code is, with the flag it saved and the flag its call was
entered with. -/
structure Frame (ρ κ ι : Type*) where
  stage : Stage κ ι
  irqFlags : Bool
  enabled : Bool
  registers : ρ

/-- The running code and the codes it has interrupted, each with the flag that
the return restores. -/
structure Machine (α ρ κ ι : Type*) where
  interruptFlag : Bool
  lock : UInt32
  data : α
  top : Frame ρ κ ι
  below : List (Frame ρ κ ι × Bool)

inductive Event (κ ω : Type*) where
  | setInterrupts (enabled : Bool)
  | outside (change : ω)
  | call (call : κ)
  | advance
  | interrupt
  | interruptReturn

def Machine.goto (s : Machine α ρ κ ι) (stage : Stage κ ι) : Machine α ρ κ ι :=
  { s with top := { s.top with stage := stage } }

def advance (p : Program α ρ κ ι ω) (s : Machine α ρ κ ι) : Machine α ρ κ ι :=
  match s.top.stage with
  | .outside => s
  | .entered call =>
    { s with top := { s.top with stage := .saved call, irqFlags := s.interruptFlag } }
  | .saved call => { s.goto (.trying call) with interruptFlag := false }
  | .trying call =>
    -- the exchange writes the lock whether it was free or not
    { s.goto (if s.lock = 0 then .critical call (p.body call) else .waiting call) with lock := 1 }
  | .waiting call => if s.lock = 0 then s.goto (.trying call) else s
  | .critical call (i :: rest) =>
    let done := p.exec (s.data, s.top.registers) i
    { s with
      data := done.1
      top := { s.top with stage := .critical call rest, registers := done.2 } }
  | .critical call [] =>
    { s.goto (.released call) with lock := 0, data := p.complete s.data call }
  | .released call => { s.goto (.restored call) with interruptFlag := s.top.irqFlags }
  | .restored _ => s.goto .outside

/-- Only code outside of calls changes the flag, starts calls and returns; an
event that is not possible has no effect. -/
def step (p : Program α ρ κ ι ω) (s : Machine α ρ κ ι) : Event κ ω → Machine α ρ κ ι
  | .setInterrupts enabled =>
    match s.top.stage with
    | .outside => { s with interruptFlag := enabled }
    | _ => s
  | .outside change =>
    match s.top.stage with
    | .outside => { s with data := p.outside s.data change }
    | _ => s
  | .call call =>
    match s.top.stage with
    | .outside =>
      { s with top :=
          { stage := if p.enters call then .entered call else .restored call
            irqFlags := s.top.irqFlags
            enabled := s.interruptFlag
            registers := p.registers } }
    | _ => s
  | .advance => advance p s
  | .interrupt =>
    if s.interruptFlag then
      { s with
        interruptFlag := false
        top := ⟨.outside, false, false, p.registers⟩
        below := (s.top, s.interruptFlag) :: s.below }
    else s
  | .interruptReturn =>
    match s.top.stage, s.below with
    | .outside, (interrupted, flag) :: below =>
      { s with interruptFlag := flag, top := interrupted, below := below }
    | _, _ => s

def whole (p : Program α ρ κ ι ω) (call : κ) (work : α × ρ) (rest : List ι) : α :=
  p.complete (run p.exec work rest).1 call

/-- What holds at a place that can be interrupted. -/
def Quiet (f : Frame ρ κ ι) : Prop :=
  match f.stage with
  | .outside => True
  | .entered _ => f.enabled = true
  | .saved _ => f.enabled = true ∧ f.irqFlags = true
  | .restored _ => f.enabled = true
  | _ => False

/-- What holds of the running code: the lock is free and the data is as whole
bodies keep it, but in a critical section, where the rest of the body leads
there. `F` is what holds before each instruction of a body. -/
def Running (p : Program α ρ κ ι ω) (J : α → Prop) (F : α × ρ → ι → Prop)
    (s : Machine α ρ κ ι) : Prop :=
  match s.top.stage with
  | .outside => s.lock = 0 ∧ J s.data
  | .entered _ => s.lock = 0 ∧ J s.data ∧ s.interruptFlag = s.top.enabled
  | .saved _ =>
    s.lock = 0 ∧ J s.data ∧ s.interruptFlag = s.top.enabled ∧ s.top.irqFlags = s.top.enabled
  | .trying _ =>
    s.lock = 0 ∧ J s.data ∧ s.interruptFlag = false ∧ s.top.irqFlags = s.top.enabled
  | .waiting _ => False
  | .critical call rest =>
    s.lock = 1 ∧ Along p.exec F (s.data, s.top.registers) rest ∧
      J (whole p call (s.data, s.top.registers) rest) ∧ s.interruptFlag = false ∧
        s.top.irqFlags = s.top.enabled
  | .released _ =>
    s.lock = 0 ∧ J s.data ∧ s.interruptFlag = false ∧ s.top.irqFlags = s.top.enabled
  | .restored _ => s.lock = 0 ∧ J s.data ∧ s.interruptFlag = s.top.enabled

structure Sound (p : Program α ρ κ ι ω) (J : α → Prop) (F : α × ρ → ι → Prop)
    (s : Machine α ρ κ ι) : Prop where
  running : Running p J F s
  below : ∀ code ∈ s.below, code.2 = true ∧ Quiet code.1

structure Keeps (p : Program α ρ κ ι ω) (J : α → Prop) (F : α × ρ → ι → Prop) : Prop where
  body : ∀ call a r, J a →
    Along p.exec F (a, r) (p.body call) ∧ J (whole p call (a, r) (p.body call))
  outside : ∀ a change, J a → J (p.outside a change)

section
variable {p : Program α ρ κ ι ω} {J : α → Prop} {F : α × ρ → ι → Prop}
variable (hkeeps : Keeps p J F) (s : Machine α ρ κ ι)

/-- Where the flag is set, the running code is at a place that can be
interrupted, the lock is free and the data is whole. -/
theorem interruptible (h : Running p J F s) (hflag : s.interruptFlag = true) :
    s.lock = 0 ∧ J s.data ∧ Quiet s.top := by
  cases hstage : s.top.stage <;> simp_all [Running, Quiet]

theorem resumed (f : Frame ρ κ ι) (h : Running p J F s) (hstage : s.top.stage = .outside)
    (hquiet : Quiet f) (below : List (Frame ρ κ ι × Bool)) :
    Running p J F { s with interruptFlag := true, top := f, below := below } := by
  simp only [Running, hstage] at h
  cases hresume : f.stage <;> simp_all [Running, Quiet]

include hkeeps

theorem advance_running (h : Running p J F s) : Running p J F (advance p s) := by
  rw [advance]
  cases hstage : s.top.stage with
  | outside => exact h
  | entered call =>
    simp only [Running, hstage] at h
    exact ⟨h.1, h.2.1, h.2.2, h.2.2⟩
  | saved call =>
    simp only [Running, hstage] at h
    exact ⟨h.1, h.2.1, rfl, h.2.2.2⟩
  | trying call =>
    simp only [Running, hstage] at h
    obtain ⟨hlock, hdata, hflag, hsaved⟩ := h
    simp only [if_pos hlock]
    obtain ⟨halong, hwhole⟩ := hkeeps.body call s.data s.top.registers hdata
    exact ⟨rfl, halong, hwhole, hflag, hsaved⟩
  | waiting call =>
    simp only [Running, hstage] at h
  | critical call rest =>
    simp only [Running, hstage] at h
    obtain ⟨hlock, halong, hwhole, hflag, hsaved⟩ := h
    cases rest with
    | nil => exact ⟨rfl, hwhole, hflag, hsaved⟩
    | cons i rest => exact ⟨hlock, halong.2, hwhole, hflag, hsaved⟩
  | released call =>
    simp only [Running, hstage] at h
    exact ⟨h.1, h.2.1, h.2.2.2⟩
  | restored call =>
    simp only [Running, hstage] at h
    exact ⟨h.1, h.2.1⟩

theorem outside_running (h : Running p J F s) (hstage : s.top.stage = .outside)
    (change : ω) : Running p J F { s with data := p.outside s.data change } := by
  simp only [Running, hstage] at h ⊢
  exact ⟨h.1, hkeeps.outside s.data change h.2⟩

omit hkeeps in
theorem call_running (h : Running p J F s) (hstage : s.top.stage = .outside) (call : κ) :
    Running p J F { s with top :=
      { stage := if p.enters call then .entered call else .restored call
        irqFlags := s.top.irqFlags
        enabled := s.interruptFlag
        registers := p.registers } } := by
  simp only [Running, hstage] at h
  cases henters : p.enters call with
  | true => exact ⟨h.1, h.2, rfl⟩
  | false => exact ⟨h.1, h.2, rfl⟩

end

theorem advance_below (p : Program α ρ κ ι ω) (s : Machine α ρ κ ι) :
    (advance p s).below = s.below := by
  rw [advance]
  split
  case h_5 => split_ifs <;> rfl
  all_goals rfl

section
variable {p : Program α ρ κ ι ω} {J : α → Prop} {F : α × ρ → ι → Prop}

theorem step_busy (p : Program α ρ κ ι ω) (s : Machine α ρ κ ι) (e : Event κ ω)
    (hstage : s.top.stage ≠ .outside) (hadvance : e ≠ .advance) (hinterrupt : e ≠ .interrupt) :
    step p s e = s := by
  cases e with
  | advance => exact absurd rfl hadvance
  | interrupt => exact absurd rfl hinterrupt
  | _ =>
    rw [step]
    split
    · exact absurd ‹_› hstage
    · rfl

theorem step_sound (hkeeps : Keeps p J F) (s : Machine α ρ κ ι) (h : Sound p J F s)
    (e : Event κ ω) : Sound p J F (step p s e) := by
  obtain ⟨hrunning, hbelow⟩ := h
  cases e with
  | advance =>
    refine ⟨advance_running hkeeps s hrunning, ?_⟩
    rwa [step, advance_below]
  | setInterrupts enabled =>
    by_cases hstage : s.top.stage = .outside
    · rw [step, hstage]
      simp only [Running, hstage] at hrunning
      refine ⟨?_, hbelow⟩
      simpa only [Running, hstage] using hrunning
    · rw [step_busy p s (.setInterrupts enabled) hstage nofun nofun]
      exact ⟨hrunning, hbelow⟩
  | outside change =>
    by_cases hstage : s.top.stage = .outside
    · rw [step, hstage]
      exact ⟨outside_running hkeeps s hrunning hstage change, hbelow⟩
    · rw [step_busy p s (.outside change) hstage nofun nofun]
      exact ⟨hrunning, hbelow⟩
  | call call =>
    by_cases hstage : s.top.stage = .outside
    · rw [step, hstage]
      exact ⟨call_running s hrunning hstage call, hbelow⟩
    · rw [step_busy p s (.call call) hstage nofun nofun]
      exact ⟨hrunning, hbelow⟩
  | interrupt =>
    by_cases hflag : s.interruptFlag = true
    · obtain ⟨hlock, hdata, hquiet⟩ := interruptible s hrunning hflag
      rw [step, if_pos hflag]
      exact ⟨⟨hlock, hdata⟩, List.forall_mem_cons.mpr ⟨⟨hflag, hquiet⟩, hbelow⟩⟩
    · rw [step, if_neg hflag]
      exact ⟨hrunning, hbelow⟩
  | interruptReturn =>
    by_cases hstage : s.top.stage = .outside
    · cases hcodes : s.below with
      | nil =>
        rw [step, hstage, hcodes]
        exact ⟨hrunning, hbelow⟩
      | cons code below =>
        rw [hcodes] at hbelow
        obtain ⟨⟨hflag, hquiet⟩, hrest⟩ := List.forall_mem_cons.mp hbelow
        obtain ⟨interrupted, flag⟩ := code
        obtain rfl : flag = true := hflag
        rw [step, hstage, hcodes]
        exact ⟨resumed s interrupted hrunning hstage hquiet below, hrest⟩
    · rw [step_busy p s .interruptReturn hstage nofun nofun]
      exact ⟨hrunning, hbelow⟩

theorem run_sound (hkeeps : Keeps p J F) (s : Machine α ρ κ ι) (h : Sound p J F s)
    (events : List (Event κ ω)) : Sound p J F (run (step p) s events) :=
  run_invariant_all (step p) (Sound p J F) (fun s e hs => step_sound hkeeps s hs e) s events h

section
variable (s : Machine α ρ κ ι) (h : Sound p J F s)
include h

theorem never_waits (call : κ) :
    (s.top.stage = .trying call → s.lock = 0) ∧ s.top.stage ≠ .waiting call := by
  have hrunning := h.running
  constructor
  · intro hstage
    simp only [Running, hstage] at hrunning
    exact hrunning.1
  · intro hstage
    simp only [Running, hstage] at hrunning

theorem returns_restored (call : κ) (hstage : s.top.stage = .restored call) :
    s.lock = 0 ∧ s.interruptFlag = s.top.enabled := by
  have hrunning := h.running
  simp only [Running, hstage] at hrunning
  exact ⟨hrunning.1, hrunning.2.2⟩

theorem data_whole (hlock : s.lock = 0) : J s.data := by
  have hrunning := h.running
  cases hstage : s.top.stage with
  | critical call rest =>
    simp only [Running, hstage] at hrunning
    exact absurd (hlock.symm.trans hrunning.1) (by decide)
  | waiting call => exact absurd hstage (never_waits s h call).2
  | outside =>
    simp only [Running, hstage] at hrunning
    exact hrunning.2
  | _ =>
    simp only [Running, hstage] at hrunning
    exact hrunning.2.1

end

def remaining (p : Program α ρ κ ι ω) : Stage κ ι → ℕ
  | .outside => 0
  | .restored _ => 1
  | .released _ => 2
  | .critical _ rest => 3 + rest.length
  | .trying call => 4 + (p.body call).length
  | .saved call => 5 + (p.body call).length
  | .entered call => 6 + (p.body call).length
  | .waiting _ => 0

theorem advance_remaining (s : Machine α ρ κ ι) (h : Sound p J F s) :
    remaining p (advance p s).top.stage = remaining p s.top.stage - 1 := by
  have hwaits := never_waits s h
  rw [advance]
  cases hstage : s.top.stage with
  | outside =>
    show remaining p s.top.stage = _
    rw [hstage]
    rfl
  | waiting call => exact absurd hstage (hwaits call).2
  | trying call =>
    simp only [if_pos ((hwaits call).1 hstage), Machine.goto, remaining]
    omega
  | critical call rest =>
    cases rest with
    | nil => rfl
    | cons i rest => rfl
  | _ => simp only [Machine.goto, remaining] <;> omega

theorem call_returns (hkeeps : Keeps p J F) (s : Machine α ρ κ ι) (h : Sound p J F s) :
    (run (step p) s (List.replicate (remaining p s.top.stage) .advance)).top.stage = .outside := by
  generalize hn : remaining p s.top.stage = n
  induction n generalizing s with
  | zero =>
    show s.top.stage = .outside
    cases hstage : s.top.stage with
    | outside => rfl
    | waiting call => exact absurd hstage (never_waits s h call).2
    | _ =>
      rw [hstage, remaining] at hn
      omega
  | succ n ih =>
    rw [List.replicate_succ, run_cons]
    apply ih (step p s .advance) (step_sound hkeeps s h .advance)
    have hnext := advance_remaining s h
    rw [hn] at hnext
    exact hnext

end

end Hnmos.MaskedSection
