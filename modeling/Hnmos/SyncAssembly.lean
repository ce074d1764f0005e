import Mathlib
import Hnmos.Processor

/-!
# The routines of the sync layer

The routines are written by hand. Each keeps the calling convention of the
compiled code that calls it: it returns to its caller, leaves the stack pointer
and the registers a caller relies on as they were, and writes nothing above its
own stack but the word it is given.
-/

set_option autoImplicit false

namespace Hnmos.SyncAssembly
open Hnmos.ByteMemory Hnmos.Processor

def syncCpuSerialize : List Instr := [.push .ebx, .xor .eax .eax, .cpuid, .pop .ebx, .ret]

def syncMemoryBarrier (barrierWord : UInt32) : List Instr := [.lockAdd barrierWord 0, .ret]

def syncCpuPause : List Instr := [.pause, .ret]

def syncIrqSave : List Instr := [.pushf, .pop .eax, .cli, .ret]

def syncIrqRestore : List Instr := [.pushMem .esp 4, .popf, .ret]

def aiMachineReadEflags : List Instr := [.pushf, .pop .eax, .ret]

structure SyncLockAcquire (code : Code) where
  entry : UInt32
  lockTry : UInt32
  exchange : UInt32
  test : UInt32
  branch : UInt32
  lockWait : UInt32
  compare : UInt32
  again : UInt32
  retry : UInt32
  lockAcquired : UInt32
  stop : UInt32
  entry_code : code entry = some (.loadMem .ecx .esp 4, lockTry)
  try_code : code lockTry = some (.movImm .eax 1, exchange)
  exchange_code : code exchange = some (.xchg .eax .ecx, test)
  test_code : code test = some (.test .eax .eax, branch)
  branch_code : code branch = some (.jz lockAcquired, lockWait)
  wait_code : code lockWait = some (.pause, compare)
  compare_code : code compare = some (.cmpMem .ecx 0, again)
  again_code : code again = some (.jne lockWait, retry)
  retry_code : code retry = some (.jmp lockTry, lockAcquired)
  acquired_code : code lockAcquired = some (.ret, stop)

structure SyncLockRelease (code : Code) where
  entry : UInt32
  clear : UInt32
  leave : UInt32
  stop : UInt32
  entry_code : code entry = some (.loadMem .eax .esp 4, clear)
  clear_code : code clear = some (.storeImm .eax 0, leave)
  leave_code : code leave = some (.ret, stop)

inductive Routine where
  | syncCpuSerialize
  | syncMemoryBarrier (barrierWord : UInt32)
  | syncCpuPause
  | syncIrqSave
  | syncIrqRestore
  | syncLockAcquire
  | syncLockRelease
  | aiMachineReadEflags

def Routine.Stands (code : Code) (entry : UInt32) : Routine → Prop
  | .syncCpuSerialize => ∃ stop, Placed code entry SyncAssembly.syncCpuSerialize stop
  | .syncMemoryBarrier word => ∃ stop, Placed code entry (SyncAssembly.syncMemoryBarrier word) stop
  | .syncCpuPause => ∃ stop, Placed code entry SyncAssembly.syncCpuPause stop
  | .syncIrqSave => ∃ stop, Placed code entry SyncAssembly.syncIrqSave stop
  | .syncIrqRestore => ∃ stop, Placed code entry SyncAssembly.syncIrqRestore stop
  | .syncLockAcquire => ∃ routine : SyncLockAcquire code, routine.entry = entry
  | .syncLockRelease => ∃ routine : SyncLockRelease code, routine.entry = entry
  | .aiMachineReadEflags => ∃ stop, Placed code entry SyncAssembly.aiMachineReadEflags stop

def stackPointer (s : Machine) : UInt32 := s.core.regs .esp

def argument (s : Machine) : UInt32 := load s.memory (stackPointer s + 4)

/-- What the caller owes: a lock that is not its own return address, and free
when it is to be taken. -/
def Routine.Called (s : Machine) : Routine → Prop
  | .syncLockAcquire =>
    Apart (argument s) (stackPointer s) ∧ load s.memory (argument s) = 0
  | .syncLockRelease => Apart (argument s) (stackPointer s)
  | _ => True

def Routine.target (s : Machine) : Routine → Option UInt32
  | .syncLockAcquire => some (argument s)
  | .syncLockRelease => some (argument s)
  | _ => none

/-- What the routine is called for: an instruction that the processor treats in
a way of its own is among those carried out, or a value is where it belongs. -/
def Routine.Effect (is : List Instr) (s t : Machine) : Routine → Prop
  | .syncCpuSerialize => .cpuid ∈ is
  | .syncMemoryBarrier word => .lockAdd word 0 ∈ is
  | .syncCpuPause => .pause ∈ is ∧ t.core.eflags = s.core.eflags ∧
      ∀ reg, reg ≠ .esp → t.core.regs reg = s.core.regs reg
  | .syncIrqSave => t.core.regs .eax = pushImage s.core.eflags ∧
      t.core.eflags = s.core.eflags &&& ~~~interruptFlag
  | .syncIrqRestore => t.core.eflags = popImage s.core.eflags (argument s)
  | .syncLockAcquire => load t.memory (argument s) = 1
  | .syncLockRelease => load t.memory (argument s) = 0
  | .aiMachineReadEflags => t.core.regs .eax = pushImage s.core.eflags ∧
      t.core.eflags = s.core.eflags

/-- The routine returns to its caller, and the caller finds its stack pointer
popped, its registers kept and nothing written but the word it asked for and
the stack below. -/
structure Returned (r : Routine) (is : List Instr) (s t : Machine) : Prop where
  eip : t.core.eip = load s.memory (stackPointer s)
  esp : stackPointer t = stackPointer s + 4
  preserved : ∀ reg ∈ [Reg.ebx, .ebp, .esi, .edi], t.core.regs reg = s.core.regs reg
  memory : ∀ x : UInt32, (∀ a ∈ r.target s, ¬ Covers a x) →
    x.toNat < (stackPointer s).toNat - 4 ∨ (stackPointer s).toNat ≤ x.toNat →
      t.memory x = s.memory x
  effect : r.Effect is s t

section
variable {p : Features} {code : Code}

theorem runs_step {s t : Machine} {i : Instr} {next : UInt32} {is : List Instr}
    (hcode : code s.core.eip = some (i, next)) (h : Runs p code (perform p next i s) is t) :
    Runs p code s (i :: is) t := .head s t i next is hcode h

theorem return_kept (s : Machine) (v : UInt32) (hlow : 4 ≤ (stackPointer s).toNat)
    (hhigh : (stackPointer s).toNat + 8 ≤ 2 ^ 32) :
    load (store s.memory (stackPointer s - 4) v) (stackPointer s) =
      load s.memory (stackPointer s) := by
  have hfour := sub_four_toNat (stackPointer s) hlow
  exact load_store_apart _ _ _ v (apart_of_le _ _ (by omega) (by omega))

theorem scratch_kept (s : Machine) (v x : UInt32) (hlow : 4 ≤ (stackPointer s).toNat)
    (hx : x.toNat < (stackPointer s).toNat - 4 ∨ (stackPointer s).toNat ≤ x.toNat) :
    store s.memory (stackPointer s - 4) v x = s.memory x := by
  have hfour := sub_four_toNat (stackPointer s) hlow
  have hesp := (stackPointer s).toNat_lt
  apply store_outside
  intro hcover
  have hrange := covers_range _ x (by omega) hcover
  omega

theorem serialize_returns (s : Machine) (stop : UInt32)
    (hplaced : Placed code s.core.eip syncCpuSerialize stop) (hlow : 4 ≤ (stackPointer s).toNat)
    (hhigh : (stackPointer s).toNat + 8 ≤ 2 ^ 32) :
    ∃ t, Runs p code s syncCpuSerialize t ∧ Returned .syncCpuSerialize syncCpuSerialize s t := by
  obtain ⟨n1, h1, n2, h2, n3, h3, n4, h4, n5, h5, -⟩ := hplaced
  let s1 := perform p n1 (.push .ebx) s
  let s2 := perform p n2 (.xor .eax .eax) s1
  let s3 := perform p n3 .cpuid s2
  let s4 := perform p n4 (.pop .ebx) s3
  let s5 := perform p n5 .ret s4
  have hmemory : s5.memory = store s.memory (stackPointer s - 4) (s.core.regs .ebx) := rfl
  have hesp : s4.core.regs .esp = stackPointer s := by
    show stackPointer s - 4 + 4 = _
    grind
  have hebx : s4.core.regs .ebx = s.core.regs .ebx := load_store s.memory (stackPointer s - 4) _
  refine ⟨s5, runs_step h1 (runs_step (s := s1) h2 (runs_step (s := s2) h3
    (runs_step (s := s3) h4 (runs_step (s := s4) h5 (.refl _))))), ?_, ?_, ?_, ?_, ?_⟩
  · show load s4.memory (s4.core.regs .esp) = _
    rw [hesp]
    exact return_kept s _ hlow hhigh
  · show s4.core.regs .esp + 4 = _
    rw [hesp]
  · intro reg hreg
    simp only [List.mem_cons, List.not_mem_nil, or_false] at hreg
    rcases hreg with rfl | rfl | rfl | rfl
    · exact hebx
    · rfl
    · rfl
    · rfl
  · intro x _ hx
    rw [hmemory]
    exact scratch_kept s _ x hlow hx
  · show Instr.cpuid ∈ syncCpuSerialize
    decide

theorem store_same (m : Memory) (a : UInt32) : store m a (load m a) = m := by
  have hload : (load m a).toNat = (m a).toNat + 256 * (m (a + 1)).toNat +
      65536 * (m (a + 2)).toNat + 16777216 * (m (a + 3)).toNat := by
    have h0 := (m a).toNat_lt
    have h1 := (m (a + 1)).toNat_lt
    have h2 := (m (a + 2)).toNat_lt
    have h3 := (m (a + 3)).toNat_lt
    rw [load, UInt32.toNat_ofNat', Nat.mod_eq_of_lt]
    omega
  have hbyte (i : UInt32) (hi : i.toNat < 4) (hvalue : (load m a).toNat / 256 ^ i.toNat % 256 =
      (m (a + i)).toNat) : store m a (load m a) (a + i) = m (a + i) := by
    rw [store_byte m a _ i hi]
    apply UInt8.toNat_inj.mp
    rw [byteOf_toNat]
    exact hvalue
  have h0 := (m a).toNat_lt
  have h1 := (m (a + 1)).toNat_lt
  have h2 := (m (a + 2)).toNat_lt
  have h3 := (m (a + 3)).toNat_lt
  funext x
  by_cases hx : Covers a x
  · rcases (covers_iff a x).mp hx with rfl | rfl | rfl | rfl
    · have hzero := hbyte 0 (by decide)
      rw [UInt32.add_zero] at hzero
      apply hzero
      show _ / 256 ^ 0 % 256 = _
      omega
    · apply hbyte 1 (by decide)
      show _ / 256 ^ 1 % 256 = _
      omega
    · apply hbyte 2 (by decide)
      show _ / 256 ^ 2 % 256 = _
      omega
    · apply hbyte 3 (by decide)
      show _ / 256 ^ 3 % 256 = _
      omega
  · exact store_outside m a _ x hx

theorem barrier_returns (s : Machine) (word stop : UInt32)
    (hplaced : Placed code s.core.eip (syncMemoryBarrier word) stop) :
    ∃ t, Runs p code s (syncMemoryBarrier word) t ∧ Returned (.syncMemoryBarrier word) (syncMemoryBarrier word) s t := by
  obtain ⟨n1, h1, n2, h2, -⟩ := hplaced
  let s1 := perform p n1 (.lockAdd word 0) s
  let s2 := perform p n2 .ret s1
  have hmemory : s1.memory = s.memory := by
    show store s.memory word (load s.memory word + 0) = _
    rw [UInt32.add_zero, store_same]
  refine ⟨s2, runs_step h1 (runs_step (s := s1) h2 (.refl _)), ?_, rfl, ?_, ?_,
    List.mem_cons_self⟩
  · show load s1.memory _ = _
    rw [hmemory]
    rfl
  · intro reg hreg
    simp only [List.mem_cons, List.not_mem_nil, or_false] at hreg
    rcases hreg with rfl | rfl | rfl | rfl <;> rfl
  · intro x _ _
    exact congrFun hmemory x

theorem pause_returns (s : Machine) (stop : UInt32)
    (hplaced : Placed code s.core.eip syncCpuPause stop) :
    ∃ t, Runs p code s syncCpuPause t ∧ Returned .syncCpuPause syncCpuPause s t := by
  obtain ⟨n1, h1, n2, h2, -⟩ := hplaced
  let s1 := perform p n1 .pause s
  refine ⟨perform p n2 .ret s1, runs_step h1 (runs_step (s := s1) h2 (.refl _)), rfl, rfl, ?_,
    fun x _ _ => rfl, List.mem_cons_self, rfl, ?_⟩
  · intro reg hreg
    simp only [List.mem_cons, List.not_mem_nil, or_false] at hreg
    rcases hreg with rfl | rfl | rfl | rfl <;> rfl
  · intro reg hreg
    exact set_other _ .esp reg _ hreg

theorem flags_read (s : Machine) (n1 n2 : UInt32) (hlow : 4 ≤ (stackPointer s).toNat)
    (hhigh : (stackPointer s).toNat + 8 ≤ 2 ^ 32) :
    let t := perform p n2 (.pop .eax) (perform p n1 .pushf s)
    t.core.regs .eax = pushImage s.core.eflags ∧ stackPointer t = stackPointer s ∧
      t.core.eflags = s.core.eflags ∧ t.core.eip = n2 ∧
      load t.memory (stackPointer s) = load s.memory (stackPointer s) ∧
      (∀ reg ∈ [Reg.ebx, .ebp, .esi, .edi], t.core.regs reg = s.core.regs reg) ∧
      ∀ x : UInt32, x.toNat < (stackPointer s).toNat - 4 ∨ (stackPointer s).toNat ≤ x.toNat →
        t.memory x = s.memory x := by
  refine ⟨load_store s.memory (stackPointer s - 4) _, ?_, rfl, rfl,
    return_kept s _ hlow hhigh, ?_, fun x hx => scratch_kept s _ x hlow hx⟩
  · show stackPointer s - 4 + 4 = _
    grind
  · intro reg hreg
    simp only [List.mem_cons, List.not_mem_nil, or_false] at hreg
    rcases hreg with rfl | rfl | rfl | rfl <;> rfl

theorem save_returns (s : Machine) (stop : UInt32)
    (hplaced : Placed code s.core.eip syncIrqSave stop) (hlow : 4 ≤ (stackPointer s).toNat)
    (hhigh : (stackPointer s).toNat + 8 ≤ 2 ^ 32) :
    ∃ t, Runs p code s syncIrqSave t ∧ Returned .syncIrqSave syncIrqSave s t := by
  obtain ⟨n1, h1, n2, h2, n3, h3, n4, h4, -⟩ := hplaced
  obtain ⟨heax, hesp, heflags, heip, hback, hregs, hmemory⟩ := flags_read (p := p) s n1 n2 hlow hhigh
  let s2 := perform p n2 (.pop .eax) (perform p n1 .pushf s)
  let s3 := perform p n3 .cli s2
  refine ⟨perform p n4 .ret s3, runs_step h1 (runs_step h2 (runs_step (s := s2) h3
    (runs_step (s := s3) h4 (.refl _)))), ?_, ?_, ?_, fun x _ hx => hmemory x hx, heax, ?_⟩
  · show load s2.memory (stackPointer s2) = _
    rw [hesp]
    exact hback
  · show stackPointer s2 + 4 = _
    rw [hesp]
  · intro reg hreg
    have hkept := hregs reg hreg
    simp only [List.mem_cons, List.not_mem_nil, or_false] at hreg
    rcases hreg with rfl | rfl | rfl | rfl <;> exact hkept
  · show s2.core.eflags &&& ~~~interruptFlag = _
    rw [heflags]

theorem read_returns (s : Machine) (stop : UInt32)
    (hplaced : Placed code s.core.eip aiMachineReadEflags stop) (hlow : 4 ≤ (stackPointer s).toNat)
    (hhigh : (stackPointer s).toNat + 8 ≤ 2 ^ 32) :
    ∃ t, Runs p code s aiMachineReadEflags t ∧ Returned .aiMachineReadEflags aiMachineReadEflags s t := by
  obtain ⟨n1, h1, n2, h2, n3, h3, -⟩ := hplaced
  obtain ⟨heax, hesp, heflags, heip, hback, hregs, hmemory⟩ := flags_read (p := p) s n1 n2 hlow hhigh
  let s2 := perform p n2 (.pop .eax) (perform p n1 .pushf s)
  refine ⟨perform p n3 .ret s2, runs_step h1 (runs_step h2 (runs_step (s := s2) h3
    (.refl _))), ?_, ?_, ?_, fun x _ hx => hmemory x hx, heax, heflags⟩
  · show load s2.memory (stackPointer s2) = _
    rw [hesp]
    exact hback
  · show stackPointer s2 + 4 = _
    rw [hesp]
  · intro reg hreg
    have hkept := hregs reg hreg
    simp only [List.mem_cons, List.not_mem_nil, or_false] at hreg
    rcases hreg with rfl | rfl | rfl | rfl <;> exact hkept

theorem restore_returns (s : Machine) (stop : UInt32)
    (hplaced : Placed code s.core.eip syncIrqRestore stop) (hlow : 4 ≤ (stackPointer s).toNat)
    (hhigh : (stackPointer s).toNat + 8 ≤ 2 ^ 32) :
    ∃ t, Runs p code s syncIrqRestore t ∧ Returned .syncIrqRestore syncIrqRestore s t := by
  obtain ⟨n1, h1, n2, h2, n3, h3, -⟩ := hplaced
  let s1 := perform p n1 (.pushMem .esp 4) s
  let s2 := perform p n2 .popf s1
  have hesp : stackPointer s2 = stackPointer s := by
    show stackPointer s - 4 + 4 = _
    grind
  have hmemory : s2.memory = store s.memory (stackPointer s - 4) (argument s) := rfl
  refine ⟨perform p n3 .ret s2, runs_step h1 (runs_step (s := s1) h2 (runs_step (s := s2) h3
    (.refl _))), ?_, ?_, ?_, ?_, ?_⟩
  · show load s2.memory (stackPointer s2) = _
    rw [hesp]
    exact return_kept s _ hlow hhigh
  · show stackPointer s2 + 4 = _
    rw [hesp]
  · intro reg hreg
    simp only [List.mem_cons, List.not_mem_nil, or_false] at hreg
    rcases hreg with rfl | rfl | rfl | rfl <;> rfl
  · intro x _ hx
    show s2.memory x = _
    rw [hmemory]
    exact scratch_kept s _ x hlow hx
  · show popImage s.core.eflags (load s1.memory (stackPointer s - 4)) = _
    exact congrArg _ (load_store s.memory (stackPointer s - 4) (argument s))

theorem release_returns (s : Machine) (routine : SyncLockRelease code)
    (hentry : routine.entry = s.core.eip) (hcalled : Apart (argument s) (stackPointer s)) :
    ∃ is t, Runs p code s is t ∧ Returned .syncLockRelease is s t := by
  have h1 := routine.entry_code
  rw [hentry] at h1
  let s1 := perform p routine.clear (.loadMem .eax .esp 4) s
  let s2 := perform p routine.leave (.storeImm .eax 0) s1
  have hmemory : s2.memory = store s.memory (argument s) 0 := rfl
  refine ⟨_, perform p routine.stop .ret s2, runs_step h1 (runs_step (s := s1)
    routine.clear_code (runs_step (s := s2) routine.leave_code (.refl _))), ?_, rfl, ?_, ?_, ?_⟩
  · show load s2.memory (stackPointer s) = _
    rw [hmemory, load_store_apart _ _ _ _ hcalled]
  · intro reg hreg
    simp only [List.mem_cons, List.not_mem_nil, or_false] at hreg
    rcases hreg with rfl | rfl | rfl | rfl <;> rfl
  · intro x htarget _
    show s2.memory x = _
    rw [hmemory]
    exact store_outside _ _ _ x (htarget _ rfl)
  · show load s2.memory _ = _
    rw [hmemory]
    exact load_store _ _ _

theorem acquire_returns (s : Machine) (routine : SyncLockAcquire code)
    (hentry : routine.entry = s.core.eip) (hcalled : Apart (argument s) (stackPointer s))
    (hfree : load s.memory (argument s) = 0) :
    ∃ is t, Runs p code s is t ∧ Returned .syncLockAcquire is s t := by
  have h1 := routine.entry_code
  rw [hentry] at h1
  let s1 := perform p routine.lockTry (.loadMem .ecx .esp 4) s
  let s2 := perform p routine.exchange (.movImm .eax 1) s1
  let s3 := perform p routine.test (.xchg .eax .ecx) s2
  let s4 := perform p routine.branch (.test .eax .eax) s3
  let s5 := perform p routine.lockWait (.jz routine.lockAcquired) s4
  have hmemory : s5.memory = store s.memory (argument s) 1 := rfl
  have heax : s3.core.regs .eax = 0 := hfree
  have hzero : s4.core.has zeroFlag = true := by
    show (Core.flags _ _).has zeroFlag = true
    rw [flags_zero, logical, UInt32.and_self, heax]
    rfl
  have hgo : s5.core = s4.core.goto routine.lockAcquired := by
    show (if _ then _ else _) = _
    rw [if_pos hzero]
  have hacquired : code s5.core.eip = some (.ret, routine.stop) := by
    rw [hgo]
    exact routine.acquired_code
  have hregs : s5.core.regs = s4.core.regs := by rw [hgo]; rfl
  refine ⟨_, perform p routine.stop .ret s5, runs_step h1 (runs_step (s := s1) routine.try_code
    (runs_step (s := s2) routine.exchange_code (runs_step (s := s3) routine.test_code
    (runs_step (s := s4) routine.branch_code (runs_step (s := s5) hacquired (.refl _)))))),
    ?_, ?_, ?_, ?_, ?_⟩
  · show load s5.memory (s5.core.regs .esp) = _
    rw [hregs, hmemory]
    exact load_store_apart _ _ _ _ hcalled
  · show s5.core.regs .esp + 4 = _
    rw [hregs]
    rfl
  · intro reg hreg
    show Function.update s5.core.regs .esp _ reg = _
    rw [hregs]
    simp only [List.mem_cons, List.not_mem_nil, or_false] at hreg
    rcases hreg with rfl | rfl | rfl | rfl <;> rfl
  · intro x htarget _
    show s5.memory x = _
    rw [hmemory]
    exact store_outside _ _ _ x (htarget _ rfl)
  · show load s5.memory _ = _
    rw [hmemory]
    exact load_store _ _ _

/-- Every routine of the sync layer, wherever it is called, returns to its
caller with all that the caller relies on and has done what it is for. -/
theorem routines_return (r : Routine) (s : Machine) (hstands : r.Stands code s.core.eip)
    (hlow : 4 ≤ (stackPointer s).toNat) (hhigh : (stackPointer s).toNat + 8 ≤ 2 ^ 32)
    (hcalled : r.Called s) : ∃ is t, Runs p code s is t ∧ Returned r is s t := by
  cases r with
  | syncCpuSerialize =>
    obtain ⟨stop, hplaced⟩ := hstands
    exact ⟨_, serialize_returns s stop hplaced hlow hhigh⟩
  | syncMemoryBarrier word =>
    obtain ⟨stop, hplaced⟩ := hstands
    exact ⟨_, barrier_returns s word stop hplaced⟩
  | syncCpuPause =>
    obtain ⟨stop, hplaced⟩ := hstands
    exact ⟨_, pause_returns s stop hplaced⟩
  | syncIrqSave =>
    obtain ⟨stop, hplaced⟩ := hstands
    exact ⟨_, save_returns s stop hplaced hlow hhigh⟩
  | syncIrqRestore =>
    obtain ⟨stop, hplaced⟩ := hstands
    exact ⟨_, restore_returns s stop hplaced hlow hhigh⟩
  | syncLockAcquire =>
    obtain ⟨routine, hentry⟩ := hstands
    exact acquire_returns s routine hentry hcalled.1 hcalled.2
  | syncLockRelease =>
    obtain ⟨routine, hentry⟩ := hstands
    exact release_returns s routine hentry hcalled
  | aiMachineReadEflags =>
    obtain ⟨stop, hplaced⟩ := hstands
    exact ⟨_, read_returns s stop hplaced hlow hhigh⟩

/-- Bits that a pop at the highest privilege takes over, and the bit that is
always set. -/
def Normal (eflags : UInt32) : Prop := eflags &&& 0x247FD5 ||| 2 = eflags

theorem popImage_pushImage (eflags later : UInt32) (h : Normal eflags)
    (hlater : later &&& 0x20000 = 0) : popImage later (pushImage eflags) = eflags := by
  have hmask : (0xFCFFFF : UInt32) &&& 0x247FD5 = 0x247FD5 := by decide
  rw [popImage, pushImage, UInt32.and_assoc, hmask, hlater, UInt32.or_zero]
  exact h

theorem cli_disables (c : Core) (eflags : UInt32) (h : c.eflags = eflags &&& ~~~interruptFlag) :
    c.has interruptFlag = false := by
  have hclear : ~~~interruptFlag &&& interruptFlag = 0 := by decide
  show (c.eflags &&& interruptFlag != 0) = false
  rw [h, UInt32.and_assoc, hclear, UInt32.and_zero]
  rfl

theorem save_run (s t : Machine) (h : Runs p code s syncIrqSave t) :
    t.core.regs .eax = pushImage s.core.eflags ∧
      t.core.eflags = s.core.eflags &&& ~~~interruptFlag := by
  cases h with
  | head _ _ _ n1 _ _ h1 =>
    cases h1 with
    | head _ _ _ n2 _ _ h2 =>
      cases h2 with
      | head _ _ _ n3 _ _ h3 =>
        cases h3 with
        | head _ _ _ n4 _ _ h4 =>
          cases h4 with
          | refl => exact ⟨load_store s.memory (stackPointer s - 4) _, rfl⟩

/-- A save leaves interrupts disabled, and restoring what it returned gives
back all flags as they were, whatever has happened to them since. -/
theorem restore_undoes_save (s t u : Machine) (hsave : Runs p code s syncIrqSave t)
    (hnormal : Normal s.core.eflags)
    (hstands : Routine.Stands code u.core.eip .syncIrqRestore)
    (hargument : argument u = t.core.regs .eax) (hmode : u.core.eflags &&& 0x20000 = 0)
    (hlow : 4 ≤ (stackPointer u).toNat) (hhigh : (stackPointer u).toNat + 8 ≤ 2 ^ 32) :
    t.core.has interruptFlag = false ∧
      ∃ w, Runs p code u syncIrqRestore w ∧ Returned .syncIrqRestore syncIrqRestore u w ∧
        w.core.eflags = s.core.eflags := by
  obtain ⟨heax, hflags⟩ := save_run s t hsave
  obtain ⟨stop, hplaced⟩ := hstands
  obtain ⟨w, hruns, hreturned⟩ := restore_returns (p := p) u stop hplaced hlow hhigh
  refine ⟨cli_disables t.core _ hflags, w, hruns, hreturned, ?_⟩
  have hrestored : w.core.eflags = popImage u.core.eflags (argument u) := hreturned.effect
  rw [hrestored, hargument, heax]
  exact popImage_pushImage _ _ hnormal hmode

end

def sectionCode : Code := fun a =>
  if a.toNat < 0x200 then oneByte 0x100 syncIrqSave a else oneByte 0x200 syncIrqRestore a

def sectionMachine (eip eflags : UInt32) (m : Memory) : Machine :=
  ⟨⟨fun r => if r = .esp then 0x1000 else 0, eip, 8, eflags⟩, m⟩

theorem section_code :
    sectionCode 0x100 = some (.pushf, 0x101) ∧ sectionCode 0x101 = some (.pop .eax, 0x102) ∧
    sectionCode 0x102 = some (.cli, 0x103) ∧ sectionCode 0x103 = some (.ret, 0x104) ∧
    sectionCode 0x200 = some (.pushMem .esp 4, 0x201) ∧ sectionCode 0x201 = some (.popf, 0x202) ∧
    sectionCode 0x202 = some (.ret, 0x203) := by decide +kernel

theorem section_save : Placed sectionCode 0x100 syncIrqSave 0x104 :=
  ⟨0x101, section_code.1, 0x102, section_code.2.1, 0x103, section_code.2.2.1, 0x104,
    section_code.2.2.2.1, rfl⟩

theorem section_restore : Placed sectionCode 0x200 syncIrqRestore 0x203 :=
  ⟨0x201, section_code.2.2.2.2.1, 0x202, section_code.2.2.2.2.2.1, 0x203,
    section_code.2.2.2.2.2.2, rfl⟩

def sectionSave : Machine := sectionMachine 0x100 0x202 fun _ => 0

def sectionRestore : Machine := sectionMachine 0x200 0x46 (store (fun _ => 0) 0x1004 0x202)

theorem routines_return_section :
    ∃ is t, Runs plainFeatures sectionCode sectionSave is t ∧
      Returned .syncIrqSave is sectionSave t :=
  routines_return .syncIrqSave sectionSave ⟨0x104, section_save⟩ (by decide +kernel)
    (by decide +kernel) trivial

theorem restore_undoes_save_section :
    ∃ t w, Runs plainFeatures sectionCode sectionSave syncIrqSave t ∧
      t.core.has interruptFlag = false ∧
      Runs plainFeatures sectionCode sectionRestore syncIrqRestore w ∧
      w.core.eflags = sectionSave.core.eflags := by
  obtain ⟨t, hsave, hsaved⟩ := save_returns (p := plainFeatures) sectionSave 0x104 section_save
    (by decide +kernel) (by decide +kernel)
  have hargument : argument sectionRestore = t.core.regs .eax := by
    rw [hsaved.effect.1]
    decide +kernel
  have hnormal : Normal sectionSave.core.eflags := by
    show (0x202 : UInt32) &&& 0x247FD5 ||| 2 = 0x202
    decide
  obtain ⟨hdisabled, w, hruns, -, hflags⟩ := restore_undoes_save (p := plainFeatures) sectionSave t
    sectionRestore hsave hnormal ⟨0x203, section_restore⟩ hargument (by decide +kernel)
    (by decide +kernel) (by decide +kernel)
  exact ⟨t, w, hsave, hdisabled, hruns, hflags⟩

end Hnmos.SyncAssembly
