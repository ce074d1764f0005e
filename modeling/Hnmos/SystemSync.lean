import Mathlib
import Hnmos.MaskedSection

/-!
# The sync layer

The sync layer keeps counters of fences and copies them, with the state of
memory and framebuffer, into snapshots. Its seven entry points are calls of one
critical section. The statements of a body are separate steps, and a snapshot
is copied field by field.
-/

set_option autoImplicit false

namespace Hnmos.SystemSync
open Hnmos.MaskedSection Hnmos.Transition

inductive Field where
  | sequence | stateFlags | cpuFenceCount | ramFenceCount | gpuFenceCount | pmmFreePages
  | heapUsedBytes | framebufferWidth | framebufferHeight | framebufferBpp
  deriving DecidableEq

abbrev Snapshot := Field → UInt32

structure Environment where
  pmmInitialized : Bool
  pmmFreePages : UInt32
  heapInitialized : Bool
  heapUsedBytes : UInt32
  framebufferAvailable : Bool
  framebufferWidth : UInt32
  framebufferHeight : UInt32
  framebufferBpp : UInt8

def cpuReady : UInt32 := 1
def ramReady : UInt32 := 2
def gpuFramebufferReady : UInt32 := 4
def aiVisible : UInt32 := 16

def currentFlags (e : Environment) : UInt32 :=
  (cpuReady ||| aiVisible) |||
    (if e.pmmInitialized && e.heapInitialized then ramReady else 0) |||
    (if e.framebufferAvailable then gpuFramebufferReady else 0)

def observed (e : Environment) (last : Snapshot) : Field → UInt32
  | .stateFlags => currentFlags e
  | .pmmFreePages => if e.pmmInitialized then e.pmmFreePages else 0
  | .heapUsedBytes => if e.heapInitialized then e.heapUsedBytes else 0
  | .framebufferWidth => if e.framebufferAvailable then e.framebufferWidth else 0
  | .framebufferHeight => if e.framebufferAvailable then e.framebufferHeight else 0
  | .framebufferBpp => if e.framebufferAvailable then e.framebufferBpp.toUInt32 else 0
  | field => last field

/-- The entry points. A capture or checkpoint is given the address of a
snapshot or none; the initialisation has one of its own. -/
inductive Call where
  | init (snapshot : ℕ)
  | cpuRamFence
  | gpuFence
  | fullFence
  | capture (snapshot : Option ℕ)
  | checkpoint (snapshot : Option ℕ)
  | isReady
  deriving DecidableEq

inductive Instr where
  | cpuSerialize
  | memoryBarrier
  | clear (field : Field)
  | increment (field : Field)
  | testFramebuffer
  | barrierIfAvailable
  | incrementIfAvailable (field : Field)
  | observe (field : Field)
  | copy (field : Field) (snapshot : ℕ)
  | setReady
  | readReady
  deriving DecidableEq

def fields : List Field :=
  [.sequence, .stateFlags, .cpuFenceCount, .ramFenceCount, .gpuFenceCount, .pmmFreePages,
    .heapUsedBytes, .framebufferWidth, .framebufferHeight, .framebufferBpp]

def cpuRamFenceLocked : List Instr :=
  [.cpuSerialize, .memoryBarrier, .increment .cpuFenceCount, .increment .ramFenceCount]

def gpuFenceLocked : List Instr :=
  [.testFramebuffer, .barrierIfAvailable, .incrementIfAvailable .gpuFenceCount]

def fullFenceLocked : List Instr :=
  cpuRamFenceLocked ++ gpuFenceLocked ++ [.increment .sequence]

def captureLocked : Option ℕ → List Instr
  | none => []
  | some snapshot =>
    [.observe .stateFlags, .observe .pmmFreePages, .observe .heapUsedBytes,
      .observe .framebufferWidth, .observe .framebufferHeight, .observe .framebufferBpp] ++
      fields.map fun field => .copy field snapshot

def initLocked (snapshot : ℕ) : List Instr :=
  [.clear .sequence, .observe .stateFlags, .clear .cpuFenceCount, .clear .ramFenceCount,
    .clear .gpuFenceCount, .clear .pmmFreePages, .clear .heapUsedBytes, .clear .framebufferWidth,
    .clear .framebufferHeight, .clear .framebufferBpp, .setReady] ++
    fullFenceLocked ++ captureLocked (some snapshot)

def Call.body : Call → List Instr
  | .init snapshot => initLocked snapshot
  | .cpuRamFence => cpuRamFenceLocked
  | .gpuFence => gpuFenceLocked
  | .fullFence => fullFenceLocked
  | .capture snapshot => captureLocked snapshot
  | .checkpoint snapshot => fullFenceLocked ++ captureLocked snapshot
  | .isReady => [.readReady]

def Call.destination : Call → Option ℕ
  | .init snapshot => some snapshot
  | .capture snapshot => snapshot
  | .checkpoint snapshot => snapshot
  | _ => none

/-- The state of the layer, the snapshots its callers hold, the rest of the
kernel, and two records: the completed calls, each with whether there was a
framebuffer, and the snapshots they captured. -/
structure State where
  last : Snapshot
  ready : Bool
  snapshots : ℕ → Snapshot
  environment : Environment
  completed : List (Call × Bool)
  captured : List ℕ

structure Locals where
  available : Bool
  ready : Bool

def State.set (s : State) (field : Field) (value : UInt32) : State :=
  { s with last := Function.update s.last field value }

def State.store (s : State) (snapshot : ℕ) (value : Snapshot) : State :=
  { s with snapshots := Function.update s.snapshots snapshot value }

def exec : State × Locals → Instr → State × Locals
  | (s, l), .cpuSerialize => (s, l)
  | (s, l), .memoryBarrier => (s, l)
  | (s, l), .clear field => (s.set field 0, l)
  | (s, l), .increment field => (s.set field (s.last field + 1), l)
  | (s, l), .testFramebuffer => (s, { l with available := s.environment.framebufferAvailable })
  | (s, l), .barrierIfAvailable => (s, l)
  | (s, l), .incrementIfAvailable field =>
    (if l.available then s.set field (s.last field + 1) else s, l)
  | (s, l), .observe field => (s.set field (observed s.environment s.last field), l)
  | (s, l), .copy field snapshot =>
    (s.store snapshot (Function.update (s.snapshots snapshot) field (s.last field)), l)
  | (s, l), .setReady => ({ s with ready := true }, l)
  | (s, l), .readReady => (s, { l with ready := s.ready })

/-- A capture without a snapshot returns before its critical section. -/
def sync : Program State Locals Call Instr Environment where
  enters := fun call => call != .capture none
  body := Call.body
  exec := exec
  complete := fun s call => { s with
    completed := s.completed ++ [(call, s.environment.framebufferAvailable)]
    captured := call.destination.toList ++ s.captured }
  outside := fun s e => { s with environment := e }
  registers := ⟨false, false⟩

structure Tally where
  sequence : ℕ
  fences : ℕ
  gpuFences : ℕ

def Tally.add (t : Tally) : Call × Bool → Tally
  | (.init _, available) => ⟨1, 1, available.toNat⟩
  | (.cpuRamFence, _) => { t with fences := t.fences + 1 }
  | (.gpuFence, available) => { t with gpuFences := t.gpuFences + available.toNat }
  | (.fullFence, available) => ⟨t.sequence + 1, t.fences + 1, t.gpuFences + available.toNat⟩
  | (.checkpoint _, available) => ⟨t.sequence + 1, t.fences + 1, t.gpuFences + available.toNat⟩
  | (.capture _, _) => t
  | (.isReady, _) => t

def tally (calls : List (Call × Bool)) : Tally := calls.foldl Tally.add ⟨0, 0, 0⟩

/-- The counters of a snapshot are those of a tally, modulo 2 ^ 32. -/
structure Shows (snapshot : Snapshot) (t : Tally) : Prop where
  sequence : snapshot .sequence = UInt32.ofNat t.sequence
  cpu : snapshot .cpuFenceCount = UInt32.ofNat t.fences
  ram : snapshot .ramFenceCount = UInt32.ofNat t.fences
  gpu : snapshot .gpuFenceCount = UInt32.ofNat t.gpuFences

/-- The counters are those after all completed calls, and every captured
snapshot has those after some of them. -/
structure Whole (s : State) : Prop where
  last : Shows s.last (tally s.completed)
  captured : ∀ snapshot ∈ s.captured, ∃ front, front <+: s.completed ∧
    Shows (s.snapshots snapshot) (tally front)

/-- Between two statements the two fence counts agree, unless the second is
about to follow the first. -/
def Paired (work : State × Locals) (i : Instr) : Prop :=
  work.1.last .cpuFenceCount = work.1.last .ramFenceCount ∨
    i = .clear .ramFenceCount ∨ i = .increment .ramFenceCount

def Instr.writes : Instr → Option Field
  | .clear field => some field
  | .increment field => some field
  | .incrementIfAvailable field => some field
  | .observe field => some field
  | _ => none

theorem exec_other (w : State × Locals) (i : Instr) (field : Field) (h : i.writes ≠ some field) :
    (exec w i).1.last field = w.1.last field := by
  have hset : ∀ f value, i.writes = some f → (w.1.set f value).last field = w.1.last field := by
    intro f value hf
    rw [hf] at h
    exact Function.update_of_ne (fun heq => h (congrArg some heq.symm)) _ _
  cases i with
  | clear f => exact hset f _ rfl
  | increment f => exact hset f _ rfl
  | observe f => exact hset f _ rfl
  | incrementIfAvailable f =>
    rw [exec]
    split_ifs
    · exact hset f _ rfl
    · rfl
  | _ => rfl

theorem run_other (w : State × Locals) (is : List Instr) (field : Field)
    (h : ∀ i ∈ is, i.writes ≠ some field) : (run exec w is).1.last field = w.1.last field := by
  induction is generalizing w with
  | nil => rfl
  | cons i is ih =>
    obtain ⟨hi, hrest⟩ := List.forall_mem_cons.mp h
    rw [run_cons, ih _ hrest, exec_other w i field hi]

structure SameFrame (s t : State) : Prop where
  environment : t.environment = s.environment
  completed : t.completed = s.completed
  captured : t.captured = s.captured

theorem exec_frame (w : State × Locals) (i : Instr) : SameFrame w.1 (exec w i).1 := by
  cases i with
  | incrementIfAvailable field =>
    rw [exec]
    split_ifs <;> exact ⟨rfl, rfl, rfl⟩
  | _ => exact ⟨rfl, rfl, rfl⟩

theorem run_frame (w : State × Locals) (is : List Instr) : SameFrame w.1 (run exec w is).1 := by
  induction is generalizing w with
  | nil => exact ⟨rfl, rfl, rfl⟩
  | cons i is ih =>
    have hi := exec_frame w i
    have hrest := ih (exec w i)
    exact ⟨hrest.environment.trans hi.environment, hrest.completed.trans hi.completed,
      hrest.captured.trans hi.captured⟩

theorem exec_snapshots (w : State × Locals) (i : Instr)
    (h : ∀ field snapshot, i ≠ .copy field snapshot) :
    (exec w i).1.snapshots = w.1.snapshots := by
  cases i with
  | incrementIfAvailable field =>
    rw [exec]
    split_ifs <;> rfl
  | copy field snapshot => exact absurd rfl (h field snapshot)
  | _ => rfl

theorem run_snapshots (w : State × Locals) (is : List Instr)
    (h : ∀ i ∈ is, ∀ field snapshot, i ≠ .copy field snapshot) :
    (run exec w is).1.snapshots = w.1.snapshots := by
  induction is generalizing w with
  | nil => rfl
  | cons i is ih =>
    obtain ⟨hi, hrest⟩ := List.forall_mem_cons.mp h
    rw [run_cons, ih _ hrest, exec_snapshots w i hi]

theorem cpuRam_shows (w : State × Locals) (t : Tally) (h : Shows w.1.last t) :
    Shows (run exec w cpuRamFenceLocked).1.last { t with fences := t.fences + 1 } := by
  have hcpu : (run exec w cpuRamFenceLocked).1.last .cpuFenceCount =
      w.1.last .cpuFenceCount + 1 := rfl
  have hram : (run exec w cpuRamFenceLocked).1.last .ramFenceCount =
      w.1.last .ramFenceCount + 1 := rfl
  refine ⟨h.sequence, ?_, ?_, h.gpu⟩
  · rw [hcpu, h.cpu, UInt32.ofNat_add]
    rfl
  · rw [hram, h.ram, UInt32.ofNat_add]
    rfl

theorem gpu_shows (w : State × Locals) (t : Tally) (h : Shows w.1.last t) :
    Shows (run exec w gpuFenceLocked).1.last
      { t with gpuFences := t.gpuFences + w.1.environment.framebufferAvailable.toNat } := by
  cases havailable : w.1.environment.framebufferAvailable with
  | false =>
    have hsame : (run exec w gpuFenceLocked).1.last = w.1.last := by
      simp [gpuFenceLocked, exec, havailable]
    rw [hsame]
    exact h
  | true =>
    have hset : (run exec w gpuFenceLocked).1.last =
        (w.1.set .gpuFenceCount (w.1.last .gpuFenceCount + 1)).last := by
      simp [gpuFenceLocked, exec, havailable]
    rw [hset]
    refine ⟨h.sequence, h.cpu, h.ram, ?_⟩
    show w.1.last .gpuFenceCount + 1 = UInt32.ofNat (t.gpuFences + 1)
    rw [h.gpu, UInt32.ofNat_add]
    rfl

theorem full_shows (w : State × Locals) (t : Tally) (h : Shows w.1.last t) :
    Shows (run exec w fullFenceLocked).1.last ⟨t.sequence + 1, t.fences + 1,
      t.gpuFences + w.1.environment.framebufferAvailable.toNat⟩ := by
  have hfences := cpuRam_shows w t h
  have hgpu := gpu_shows _ _ hfences
  rw [(run_frame w cpuRamFenceLocked).environment] at hgpu
  rw [fullFenceLocked, run_append, run_append]
  generalize run exec (run exec w cpuRamFenceLocked) gpuFenceLocked = done at hgpu
  refine ⟨?_, hgpu.cpu, hgpu.ram, hgpu.gpu⟩
  show done.1.last .sequence + 1 = UInt32.ofNat (t.sequence + 1)
  rw [hgpu.sequence, UInt32.ofNat_add]
  rfl

def counters : List Field := [.sequence, .cpuFenceCount, .ramFenceCount, .gpuFenceCount]

def observations : List Instr :=
  [.observe .stateFlags, .observe .pmmFreePages, .observe .heapUsedBytes,
    .observe .framebufferWidth, .observe .framebufferHeight, .observe .framebufferBpp]

def copying (snapshot : ℕ) (fs : List Field) : List Instr :=
  fs.map fun field => .copy field snapshot

theorem captureLocked_some (snapshot : ℕ) :
    captureLocked (some snapshot) = observations ++ copying snapshot fields := rfl

theorem copying_writes (snapshot : ℕ) (fs : List Field) :
    ∀ i ∈ copying snapshot fs, i.writes = none := by
  intro i hi
  obtain ⟨field, _, rfl⟩ := List.mem_map.mp hi
  rfl

theorem capture_writes (snapshot : Option ℕ) (field : Field) (hfield : field ∈ counters) :
    ∀ i ∈ captureLocked snapshot, i.writes ≠ some field := by
  have hobservations : ∀ field ∈ counters, ∀ i ∈ observations, i.writes ≠ some field := by decide
  cases snapshot with
  | none => exact fun i hi => absurd hi List.not_mem_nil
  | some snapshot =>
    rw [captureLocked_some]
    intro i hi
    rcases List.mem_append.mp hi with hin | hin
    · exact hobservations field hfield i hin
    · rw [copying_writes snapshot fields i hin]
      exact nofun

theorem capture_shows (w : State × Locals) (t : Tally) (snapshot : Option ℕ)
    (h : Shows w.1.last t) : Shows (run exec w (captureLocked snapshot)).1.last t := by
  have hkept : ∀ field ∈ counters,
      (run exec w (captureLocked snapshot)).1.last field = w.1.last field :=
    fun field hfield => run_other w _ field (capture_writes snapshot field hfield)
  exact ⟨(hkept .sequence (by decide)).trans h.sequence,
    (hkept .cpuFenceCount (by decide)).trans h.cpu,
    (hkept .ramFenceCount (by decide)).trans h.ram, (hkept .gpuFenceCount (by decide)).trans h.gpu⟩

theorem copying_last (w : State × Locals) (snapshot : ℕ) (fs : List Field) :
    (run exec w (copying snapshot fs)).1.last = w.1.last := by
  funext field
  apply run_other
  intro i hi
  rw [copying_writes snapshot fs i hi]
  exact nofun

theorem copying_snapshots (w : State × Locals) (snapshot : ℕ) (fs : List Field) :
    (run exec w (copying snapshot fs)).1.snapshots =
      Function.update w.1.snapshots snapshot
        (fun field => if field ∈ fs then w.1.last field else w.1.snapshots snapshot field) := by
  induction fs generalizing w with
  | nil =>
    simp only [List.not_mem_nil, if_false, Function.update_eq_self]
    rfl
  | cons f fs ih =>
    show (run exec (exec w (.copy f snapshot)) (copying snapshot fs)).1.snapshots = _
    rw [ih]
    ext address field
    by_cases haddress : address = snapshot
    · subst haddress
      simp only [Function.update_self, exec, State.store, List.mem_cons]
      by_cases hfield : field = f
      · subst hfield
        simp
      · simp [hfield]
    · simp [exec, State.store, haddress]

theorem capture_snapshots (w : State × Locals) (snapshot : ℕ) :
    (run exec w (captureLocked (some snapshot))).1.snapshots =
      Function.update w.1.snapshots snapshot
        (run exec w (captureLocked (some snapshot))).1.last := by
  have hall : ∀ field : Field, field ∈ fields := by
    intro field
    cases field <;> decide
  have hobserved : (run exec w observations).1.snapshots = w.1.snapshots :=
    run_snapshots w observations (by simp [observations])
  rw [captureLocked_some, run_append, copying_snapshots, copying_last, hobserved]
  simp only [hall, if_true]

def Equal (w : State × Locals) : Prop := w.1.last .cpuFenceCount = w.1.last .ramFenceCount

theorem cpuRam_paired (w : State × Locals) (h : Equal w) :
    Along exec Paired w cpuRamFenceLocked ∧ Equal (run exec w cpuRamFenceLocked) := by
  refine ⟨⟨Or.inl h, Or.inl h, Or.inl h, Or.inr (Or.inr rfl), trivial⟩, ?_⟩
  show w.1.last .cpuFenceCount + 1 = w.1.last .ramFenceCount + 1
  rw [h]

theorem others_paired (w : State × Locals) (is : List Instr)
    (hcpu : ∀ i ∈ is, i.writes ≠ some .cpuFenceCount)
    (hram : ∀ i ∈ is, i.writes ≠ some .ramFenceCount) (h : Equal w) :
    Along exec Paired w is ∧ Equal (run exec w is) := by
  induction is generalizing w with
  | nil => exact ⟨trivial, h⟩
  | cons i is ih =>
    obtain ⟨hci, hcrest⟩ := List.forall_mem_cons.mp hcpu
    obtain ⟨hri, hrrest⟩ := List.forall_mem_cons.mp hram
    have hnext : Equal (exec w i) := by
      rw [Equal, exec_other w i _ hci, exec_other w i _ hri]
      exact h
    obtain ⟨halong, hend⟩ := ih _ hcrest hrrest hnext
    exact ⟨⟨Or.inl h, halong⟩, hend⟩

theorem append_paired (w : State × Locals) (is js : List Instr)
    (hfirst : Along exec Paired w is ∧ Equal (run exec w is))
    (hsecond : Along exec Paired (run exec w is) js ∧ Equal (run exec (run exec w is) js)) :
    Along exec Paired w (is ++ js) ∧ Equal (run exec w (is ++ js)) := by
  rw [along_append, run_append]
  exact ⟨⟨hfirst.1, hsecond.1⟩, hsecond.2⟩

theorem full_paired (w : State × Locals) (h : Equal w) :
    Along exec Paired w fullFenceLocked ∧ Equal (run exec w fullFenceLocked) := by
  have hcpuRam := cpuRam_paired w h
  have hgpu := append_paired w _ _ hcpuRam
    (others_paired _ gpuFenceLocked (by decide) (by decide) hcpuRam.2)
  exact append_paired w _ _ hgpu (others_paired _ [.increment .sequence] (by decide) (by decide)
    hgpu.2)

theorem capture_paired (w : State × Locals) (snapshot : Option ℕ) (h : Equal w) :
    Along exec Paired w (captureLocked snapshot) ∧ Equal (run exec w (captureLocked snapshot)) :=
  others_paired w _ (capture_writes snapshot _ (by decide))
    (capture_writes snapshot _ (by decide)) h

def clears : List Instr :=
  [.clear .sequence, .observe .stateFlags, .clear .cpuFenceCount, .clear .ramFenceCount,
    .clear .gpuFenceCount, .clear .pmmFreePages, .clear .heapUsedBytes, .clear .framebufferWidth,
    .clear .framebufferHeight, .clear .framebufferBpp, .setReady]

theorem clears_shows (w : State × Locals) : Shows (run exec w clears).1.last ⟨0, 0, 0⟩ :=
  ⟨rfl, rfl, rfl, rfl⟩

theorem clears_paired (w : State × Locals) (h : Equal w) :
    Along exec Paired w clears ∧ Equal (run exec w clears) :=
  ⟨⟨Or.inl h, Or.inl h, Or.inl h, Or.inr (Or.inl rfl), Or.inl rfl, Or.inl rfl, Or.inl rfl,
    Or.inl rfl, Or.inl rfl, Or.inl rfl, Or.inl rfl, trivial⟩, rfl⟩

theorem body_shows (call : Call) (w : State × Locals) (t : Tally) (h : Shows w.1.last t) :
    Shows (run exec w call.body).1.last
      (t.add (call, w.1.environment.framebufferAvailable)) := by
  cases call with
  | init snapshot =>
    have hfull := full_shows _ _ (clears_shows w)
    simp only [(run_frame w clears).environment, Nat.zero_add] at hfull
    have hcapture := capture_shows _ _ (some snapshot) hfull
    rw [← run_append, ← run_append, ← List.append_assoc] at hcapture
    exact hcapture
  | cpuRamFence => exact cpuRam_shows w t h
  | gpuFence => exact gpu_shows w t h
  | fullFence => exact full_shows w t h
  | capture snapshot => exact capture_shows w t snapshot h
  | checkpoint snapshot =>
    have hcapture := capture_shows _ _ snapshot (full_shows w t h)
    rwa [← run_append] at hcapture
  | isReady => exact h

theorem body_paired (call : Call) (w : State × Locals) (h : Equal w) :
    Along exec Paired w call.body ∧ Equal (run exec w call.body) := by
  cases call with
  | init snapshot =>
    have hclears := clears_paired w h
    have hfull := append_paired w _ _ hclears (full_paired _ hclears.2)
    exact append_paired w _ _ hfull (capture_paired _ (some snapshot) hfull.2)
  | cpuRamFence => exact cpuRam_paired w h
  | gpuFence => exact others_paired w _ (by decide) (by decide) h
  | fullFence => exact full_paired w h
  | capture snapshot => exact capture_paired w snapshot h
  | checkpoint snapshot =>
    have hfull := full_paired w h
    exact append_paired w _ _ hfull (capture_paired _ snapshot hfull.2)
  | isReady => exact ⟨⟨Or.inl h, trivial⟩, h⟩

theorem body_snapshots (call : Call) (w : State × Locals) (address : ℕ) :
    (run exec w call.body).1.snapshots address =
      if call.destination = some address then (run exec w call.body).1.last
      else w.1.snapshots address := by
  have hcaptured : ∀ (before : List Instr) (snapshot : Option ℕ),
      (∀ i ∈ before, ∀ field snapshot, i ≠ .copy field snapshot) →
      (run exec w (before ++ captureLocked snapshot)).1.snapshots address =
        if snapshot = some address then (run exec w (before ++ captureLocked snapshot)).1.last
        else w.1.snapshots address := by
    intro before snapshot hbefore
    have hkept := run_snapshots w before hbefore
    rw [run_append]
    cases snapshot with
    | none =>
      rw [if_neg nofun, ← hkept]
      rfl
    | some snapshot =>
      rw [capture_snapshots, hkept]
      by_cases haddress : address = snapshot
      · rw [haddress, Function.update_self, if_pos rfl]
      · rw [Function.update_of_ne haddress, if_neg (fun h => haddress (Option.some.inj h).symm)]
  cases call with
  | init snapshot =>
    exact hcaptured (clears ++ fullFenceLocked) (some snapshot)
      (by simp [clears, fullFenceLocked, cpuRamFenceLocked, gpuFenceLocked])
  | capture snapshot => exact hcaptured [] snapshot (by simp)
  | checkpoint snapshot =>
    exact hcaptured fullFenceLocked snapshot
      (by simp [fullFenceLocked, cpuRamFenceLocked, gpuFenceLocked])
  | cpuRamFence =>
    rw [if_neg nofun, run_snapshots w _ (by simp [Call.body, cpuRamFenceLocked])]
  | gpuFence =>
    rw [if_neg nofun, run_snapshots w _ (by simp [Call.body, gpuFenceLocked])]
  | fullFence =>
    rw [if_neg nofun, run_snapshots w _ (by
      simp [Call.body, fullFenceLocked, cpuRamFenceLocked, gpuFenceLocked])]
  | isReady => rw [if_neg nofun, run_snapshots w _ (by simp [Call.body])]

theorem tally_concat (calls : List (Call × Bool)) (call : Call × Bool) :
    tally (calls ++ [call]) = (tally calls).add call := List.foldl_concat ..

theorem shows_equal (s : Snapshot) (t : Tally) (h : Shows s t) :
    s .cpuFenceCount = s .ramFenceCount := h.cpu.trans h.ram.symm

theorem body_whole (call : Call) (s : State) (l : Locals) (h : Whole s) :
    Whole (whole sync call (s, l) call.body) := by
  have hframe := run_frame (s, l) call.body
  have hlast := body_shows call (s, l) _ h.last
  have hcompleted : (whole sync call (s, l) call.body).completed =
      s.completed ++ [(call, s.environment.framebufferAvailable)] := by
    show (run exec (s, l) call.body).1.completed ++
      [(call, (run exec (s, l) call.body).1.environment.framebufferAvailable)] = _
    rw [hframe.completed, hframe.environment]
  have hshows : Shows (whole sync call (s, l) call.body).last
      (tally (whole sync call (s, l) call.body).completed) := by
    rw [hcompleted, tally_concat]
    exact hlast
  refine ⟨hshows, ?_⟩
  intro address haddress
  have hstored := body_snapshots call (s, l) address
  show ∃ front, front <+: (whole sync call (s, l) call.body).completed ∧
    Shows ((run exec (s, l) call.body).1.snapshots address) (tally front)
  by_cases hdestination : call.destination = some address
  · rw [hstored, if_pos hdestination]
    exact ⟨_, List.prefix_refl _, hshows⟩
  · have hold : address ∈ s.captured := by
      rcases List.mem_append.mp haddress with hin | hin
      · exact absurd (Option.mem_toList.mp hin) hdestination
      · rwa [← hframe.captured]
    obtain ⟨front, hfront, hshown⟩ := h.captured address hold
    rw [hstored, if_neg hdestination]
    refine ⟨front, ?_, hshown⟩
    rw [hcompleted]
    exact hfront.trans (List.prefix_append _ _)

theorem sync_keeps : Keeps sync Whole Paired where
  body := fun call s l h =>
    ⟨(body_paired call (s, l) (shows_equal s.last _ h.last)).1, body_whole call s l h⟩
  outside := fun _ _ h => ⟨h.last, h.captured⟩

def boot (environment : Environment) (snapshots : ℕ → Snapshot) (enabled : Bool) :
    Machine State Locals Call Instr where
  interruptFlag := enabled
  lock := 0
  data := {
    last := fun _ => 0
    ready := false
    snapshots := snapshots
    environment := environment
    completed := []
    captured := [] }
  top := ⟨.outside, false, false, ⟨false, false⟩⟩
  below := []

theorem boot_sound (environment : Environment) (snapshots : ℕ → Snapshot) (enabled : Bool) :
    Sound sync Whole Paired (boot environment snapshots enabled) where
  running := ⟨rfl, ⟨rfl, rfl, rfl, rfl⟩, fun _ h => absurd h List.not_mem_nil⟩
  below := fun _ h => absurd h List.not_mem_nil

/-- The two fence counts are equal but right between the two statements that
change them. -/
theorem counts_equal (s : Machine State Locals Call Instr) (h : Sound sync Whole Paired s) :
    s.data.last .cpuFenceCount = s.data.last .ramFenceCount ∨
      ∃ call rest, s.top.stage = .critical call (.clear .ramFenceCount :: rest) ∨
        s.top.stage = .critical call (.increment .ramFenceCount :: rest) := by
  have hrunning := h.running
  cases hstage : s.top.stage with
  | critical call rest =>
    simp only [Running, hstage] at hrunning
    obtain ⟨_, halong, hwhole, _⟩ := hrunning
    cases rest with
    | nil => exact Or.inl (shows_equal _ _ hwhole.last)
    | cons i rest =>
      rcases halong.1 with hequal | rfl | rfl
      · exact Or.inl hequal
      · exact Or.inr ⟨call, rest, Or.inl rfl⟩
      · exact Or.inr ⟨call, rest, Or.inr rfl⟩
  | waiting call => exact absurd hstage (never_waits s h call).2
  | outside =>
    simp only [Running, hstage] at hrunning
    exact Or.inl (shows_equal _ _ hrunning.2.last)
  | _ =>
    simp only [Running, hstage] at hrunning
    exact Or.inl (shows_equal _ _ hrunning.2.1.last)

/-- Under any interleaving of calls and nested interrupts: no call waits, every
call returns, with a free lock and the interrupt flag it was entered with, the
two fence counts agree wherever other code can run, and while the lock is free
the counters and every captured snapshot are those of whole completed calls. -/
theorem preemption_safe (environment : Environment) (snapshots : ℕ → Snapshot) (enabled : Bool)
    (events : List (Event Call Environment)) :
    let s := run (step sync) (boot environment snapshots enabled) events
    (∀ call, (s.top.stage = .trying call → s.lock = 0) ∧ s.top.stage ≠ .waiting call) ∧
    (∃ n, (run (step sync) s (List.replicate n .advance)).top.stage = .outside) ∧
    (∀ call, s.top.stage = .restored call → s.lock = 0 ∧ s.interruptFlag = s.top.enabled) ∧
    (s.data.last .cpuFenceCount = s.data.last .ramFenceCount ∨
      ∃ call rest, s.top.stage = .critical call (.clear .ramFenceCount :: rest) ∨
        s.top.stage = .critical call (.increment .ramFenceCount :: rest)) ∧
    (s.interruptFlag = true → s.lock = 0) ∧
    (s.lock = 0 → s.data.last .cpuFenceCount = s.data.last .ramFenceCount ∧ Whole s.data) := by
  intro s
  have h : Sound sync Whole Paired s :=
    run_sound sync_keeps _ (boot_sound environment snapshots enabled) events
  refine ⟨never_waits s h, ⟨_, call_returns sync_keeps s h⟩, returns_restored s h,
    counts_equal s h, fun hflag => (interruptible s h.running hflag).1, fun hlock => ?_⟩
  have hwhole := data_whole s h hlock
  exact ⟨shows_equal _ _ hwhole.last, hwhole⟩

end Hnmos.SystemSync
