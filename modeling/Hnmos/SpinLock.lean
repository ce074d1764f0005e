import Mathlib
import Hnmos.StoreBuffers
import Hnmos.SyncAssembly
import Hnmos.Transition

/-!
# The spin lock

Any number of processors take the lock of the sync layer and give it back with
its own two routines, while their stores wait in store buffers. No two of them
hold the lock, and whoever holds it sees what was stored under it before, by
whichever processor, although the lock is given back by a plain store.
-/

set_option autoImplicit false
set_option linter.unusedSectionVars false

namespace Hnmos.SpinLock
open Hnmos.ByteMemory Hnmos.Processor Hnmos.StoreBuffers Hnmos.SyncAssembly Hnmos.Transition

variable {ι : Type*} [DecidableEq ι]

/-- The lock word with the two routines, the stack of each processor and the
data that the lock guards; none of them overlap. -/
structure Lock (code : Code) (ι : Type*) where
  word : UInt32
  acquire : SyncLockAcquire code
  release : SyncLockRelease code
  stack : ι → UInt32 → Prop
  guarded : UInt32 → Prop
  stack_apart : ∀ i j x, stack i x → stack j x → i = j
  word_stack : ∀ i x, Covers word x → ¬ stack i x
  word_guarded : ∀ x, Covers word x → ¬ guarded x

inductive Role where
  | outside
  | acquiring
  | holding
  | releasing
  deriving DecidableEq

/-- The processors, what each is doing with the lock, and the guarded data as it
would be if the holders worked on one memory in turn. -/
structure System (ι : Type*) where
  shared : Shared ι
  role : ι → Role
  latest : Memory

inductive LockEvent (ι : Type*) where
  | client (i : ι) (core : Core) (stores : List Store)
  | acquire (i : ι)
  | release (i : ι)
  | execute (i : ι)
  | flush (i : ι)

def System.enter (s : System ι) (i : ι) (role : Role) : System ι :=
  { s with role := Function.update s.role i role }

def afterReturn : Role → Role
  | .acquiring => .holding
  | .releasing => .outside
  | role => role

/-- Outside of the routines a processor does anything; an event that is not
possible has no effect. -/
def System.step (p : Features) (code : Code) (s : System ι) : LockEvent ι → System ι
  | .client i core stores =>
    match s.role i with
    | .outside => { s with shared := (s.shared.setCore i core).put i stores }
    | .holding =>
      { s with
        shared := (s.shared.setCore i core).put i stores
        latest := apply s.latest stores }
    | _ => s
  | .acquire i => if s.role i = .outside then s.enter i .acquiring else s
  | .release i => if s.role i = .holding then s.enter i .releasing else s
  | .execute i =>
    if s.role i = .acquiring ∨ s.role i = .releasing then
      let next := { s with shared := s.shared.execute p code i }
      match code (s.shared.cores i).eip with
      | some (.ret, _) => next.enter i (afterReturn (s.role i))
      | _ => next
    else s
  | .flush i => { s with shared := s.shared.flush i }

variable {p : Features} {code : Code} (L : Lock code ι)

structure Argument (s : System ι) (i : ι) : Prop where
  value : load (s.shared.view i) ((s.shared.cores i).regs .esp + 4) = L.word
  own : ∀ x, Covers ((s.shared.cores i).regs .esp + 4) x → L.stack i x

/-- What the code outside of the routines may do: it leaves the lock word and
the other stacks alone and stores to guarded data while it holds the lock. -/
def Disciplined (s : System ι) : LockEvent ι → Prop
  | .client i _ stores => ∀ st ∈ stores, ∀ x, Covers st.1 x →
      ¬ Covers L.word x ∧ (∀ j, j ≠ i → ¬ L.stack j x) ∧
        (L.guarded x → s.role i = .holding)
  | .acquire i => (s.shared.cores i).eip = L.acquire.entry ∧ Argument L s i
  | .release i => (s.shared.cores i).eip = L.release.entry ∧ Argument L s i
  | _ => True

def Avoids (st : Store) : Prop := ∀ x, Covers st.1 x → ¬ Covers L.word x

def Clean (st : Store) : Prop := ∀ x, Covers st.1 x → ¬ Covers L.word x ∧ ¬ L.guarded x

structure Active (s : System ι) (owner : Option ι) (i : ι) : Prop where
  owns : owner = some i
  avoids : ∀ st ∈ s.shared.buffers i, Avoids L st

/-- The lock has been given back, but this has not reached the memory. -/
structure Pending (s : System ι) (owner : Option ι) (i : ι) : Prop where
  owns : owner = some i
  split : ∃ before after, s.shared.buffers i = before ++ (L.word, 0) :: after ∧
    (∀ st ∈ before, Avoids L st) ∧ ∀ st ∈ after, Clean L st

structure Idle (s : System ι) (owner : Option ι) (i : ι) : Prop where
  other : owner ≠ some i
  clean : ∀ st ∈ s.shared.buffers i, Clean L st

def Passive (s : System ι) (owner : Option ι) (i : ι) : Prop :=
  Pending L s owner i ∨ Idle L s owner i

/-- Where a processor is in the acquisition. -/
inductive Acquiring (s : System ι) (owner : Option ι) (i : ι) : Prop
  | entered (eip : (s.shared.cores i).eip = L.acquire.entry) (argument : Argument L s i)
      (passive : Passive L s owner i)
  | trying (eip : (s.shared.cores i).eip = L.acquire.lockTry)
      (ecx : (s.shared.cores i).regs .ecx = L.word) (passive : Passive L s owner i)
  | exchanging (eip : (s.shared.cores i).eip = L.acquire.exchange)
      (ecx : (s.shared.cores i).regs .ecx = L.word) (eax : (s.shared.cores i).regs .eax = 1)
      (passive : Passive L s owner i)
  | testing (eip : (s.shared.cores i).eip = L.acquire.test)
      (ecx : (s.shared.cores i).regs .ecx = L.word)
      (taken : (s.shared.cores i).regs .eax = 0 → Active L s owner i)
      (missed : (s.shared.cores i).regs .eax ≠ 0 → Passive L s owner i)
  | branching (eip : (s.shared.cores i).eip = L.acquire.branch)
      (ecx : (s.shared.cores i).regs .ecx = L.word)
      (taken : (s.shared.cores i).has zeroFlag = true → Active L s owner i)
      (missed : (s.shared.cores i).has zeroFlag = false → Passive L s owner i)
  | waiting (eip : (s.shared.cores i).eip ∈
      [L.acquire.lockWait, L.acquire.compare, L.acquire.again, L.acquire.retry])
      (ecx : (s.shared.cores i).regs .ecx = L.word) (passive : Passive L s owner i)
  | acquired (eip : (s.shared.cores i).eip = L.acquire.lockAcquired)
      (active : Active L s owner i)

inductive Releasing (s : System ι) (owner : Option ι) (i : ι) : Prop
  | entered (eip : (s.shared.cores i).eip = L.release.entry) (argument : Argument L s i)
      (active : Active L s owner i)
  | clearing (eip : (s.shared.cores i).eip = L.release.clear)
      (eax : (s.shared.cores i).regs .eax = L.word) (active : Active L s owner i)
  | leaving (eip : (s.shared.cores i).eip = L.release.leave) (passive : Passive L s owner i)

def Place (s : System ι) (owner : Option ι) (i : ι) : Prop :=
  match s.role i with
  | .outside => Passive L s owner i
  | .acquiring => Acquiring L s owner i
  | .holding => Active L s owner i
  | .releasing => Releasing L s owner i

/-- The guarded data is up to date in the memory, or as the owner sees it. -/
def UpToDate (s : System ι) (owner : Option ι) : Prop :=
  ∀ x, L.guarded x →
    match owner with
    | none => s.shared.memory x = s.latest x
    | some i => s.shared.view i x = s.latest x

structure Inv (s : System ι) (owner : Option ι) : Prop where
  word : load s.shared.memory L.word = if owner = none then 0 else 1
  places : ∀ i, Place L s owner i
  apart : ∀ i j, j ≠ i → ∀ st ∈ s.shared.buffers j, ∀ x, Covers st.1 x → ¬ L.stack i x
  data : UpToDate L s owner

variable {L} {s t : System ι} {owner owner' : Option ι} {i k : ι}

theorem active_frame (h : Active L s owner i)
    (hbuffer : t.shared.buffers i = s.shared.buffers i) (howner : owner' = some i ↔ owner = some i) :
    Active L t owner' i := by
  refine ⟨howner.mpr h.owns, ?_⟩
  rw [hbuffer]
  exact h.avoids

theorem passive_frame (h : Passive L s owner i)
    (hbuffer : t.shared.buffers i = s.shared.buffers i) (howner : owner' = some i ↔ owner = some i) :
    Passive L t owner' i := by
  rcases h with h | h
  · refine .inl ⟨howner.mpr h.owns, ?_⟩
    rw [hbuffer]
    exact h.split
  · refine .inr ⟨fun hn => h.other (howner.mp hn), ?_⟩
    rw [hbuffer]
    exact h.clean

theorem argument_frame (h : Argument L s i) (hcore : t.shared.cores i = s.shared.cores i)
    (hview : ∀ x, L.stack i x → t.shared.view i x = s.shared.view i x) : Argument L t i := by
  refine ⟨?_, ?_⟩
  · rw [hcore, ← h.value]
    exact load_congr _ _ _ fun x hx => hview x (h.own x hx)
  · rw [hcore]
    exact h.own

theorem place_map (h : Place L s owner i) (hcore : t.shared.cores i = s.shared.cores i)
    (hrole : t.role i = s.role i) (hactive : Active L s owner i → Active L t owner' i)
    (hpassive : Passive L s owner i → Passive L t owner' i)
    (hargument : Argument L s i → Argument L t i) : Place L t owner' i := by
  unfold Place at h ⊢
  rw [hrole]
  cases hr : s.role i with
  | outside =>
    rw [hr] at h
    exact hpassive h
  | holding =>
    rw [hr] at h
    exact hactive h
  | acquiring =>
    rw [hr] at h
    simp only at h ⊢
    cases h with
    | entered eip argument passive =>
      exact .entered (hcore ▸ eip) (hargument argument) (hpassive passive)
    | trying eip ecx passive => exact .trying (hcore ▸ eip) (hcore ▸ ecx) (hpassive passive)
    | exchanging eip ecx eax passive =>
      exact .exchanging (hcore ▸ eip) (hcore ▸ ecx) (hcore ▸ eax) (hpassive passive)
    | testing eip ecx taken missed =>
      refine .testing (hcore ▸ eip) (hcore ▸ ecx) ?_ ?_
      · rw [hcore]
        exact fun hzero => hactive (taken hzero)
      · rw [hcore]
        exact fun hzero => hpassive (missed hzero)
    | branching eip ecx taken missed =>
      refine .branching (hcore ▸ eip) (hcore ▸ ecx) ?_ ?_
      · rw [hcore]
        exact fun hzero => hactive (taken hzero)
      · rw [hcore]
        exact fun hzero => hpassive (missed hzero)
    | waiting eip ecx passive => exact .waiting (hcore ▸ eip) (hcore ▸ ecx) (hpassive passive)
    | acquired eip active => exact .acquired (hcore ▸ eip) (hactive active)
  | releasing =>
    rw [hr] at h
    simp only at h ⊢
    cases h with
    | entered eip argument active =>
      exact .entered (hcore ▸ eip) (hargument argument) (hactive active)
    | clearing eip eax active => exact .clearing (hcore ▸ eip) (hcore ▸ eax) (hactive active)
    | leaving eip passive => exact .leaving (hcore ▸ eip) (hpassive passive)

theorem place_frame (h : Place L s owner i) (hcore : t.shared.cores i = s.shared.cores i)
    (hrole : t.role i = s.role i) (hbuffer : t.shared.buffers i = s.shared.buffers i)
    (howner : owner' = some i ↔ owner = some i)
    (hview : ∀ x, L.stack i x → t.shared.view i x = s.shared.view i x) : Place L t owner' i :=
  place_map h hcore hrole (fun ha => active_frame ha hbuffer howner)
    (fun hp => passive_frame hp hbuffer howner) fun ha => argument_frame ha hcore hview

theorem place_kind (h : Place L s owner i) : Active L s owner i ∨ Passive L s owner i := by
  unfold Place at h
  cases hr : s.role i with
  | outside =>
    rw [hr] at h
    exact .inr h
  | holding =>
    rw [hr] at h
    exact .inl h
  | acquiring =>
    rw [hr] at h
    simp only at h
    cases h with
    | testing eip ecx taken missed => exact (em _).imp taken missed
    | branching eip ecx taken missed =>
      cases hzero : (s.shared.cores i).has zeroFlag with
      | true => exact .inl (taken hzero)
      | false => exact .inr (missed hzero)
    | acquired eip active => exact .inl active
    | entered eip argument passive => exact .inr passive
    | trying eip ecx passive => exact .inr passive
    | exchanging eip ecx eax passive => exact .inr passive
    | waiting eip ecx passive => exact .inr passive
  | releasing =>
    rw [hr] at h
    simp only at h
    cases h with
    | leaving eip passive => exact .inr passive
    | entered eip argument active => exact .inl active
    | clearing eip eax active => exact .inl active

theorem other_clean (h : Place L s owner i) (hother : owner ≠ some i) :
    ∀ st ∈ s.shared.buffers i, Clean L st := by
  rcases place_kind h with hactive | hpending | hidle
  · exact absurd hactive.owns hother
  · exact absurd hpending.owns hother
  · exact hidle.clean

theorem client_others (hinv : Inv L s owner) (core : Core) (stores : List Store) (latest : Memory)
    (i : ι) (h : i ≠ k) :
    Place L ⟨(s.shared.setCore k core).put k stores, s.role, latest⟩ owner i := by
  apply place_frame (hinv.places i)
  · exact setCore_other s.shared k i core h
  · rfl
  · exact put_other _ k i stores h
  · exact Iff.rfl
  · intro x _
    rw [put_view_other _ k i stores h]
    rfl

theorem client_apart (hinv : Inv L s owner) (core : Core) (stores : List Store)
    (hstores : ∀ st ∈ stores, ∀ x, Covers st.1 x → ∀ j, j ≠ k → ¬ L.stack j x)
    (i j : ι) (hji : j ≠ i) (st : Store)
    (hst : st ∈ ((s.shared.setCore k core).put k stores).buffers j) (x : UInt32)
    (hx : Covers st.1 x) : ¬ L.stack i x := by
  by_cases hj : j = k
  · subst hj
    rw [put_same] at hst
    rcases List.mem_append.mp hst with hst | hst
    · exact hinv.apart i j hji st hst x hx
    · exact hstores st hst x hx i hji.symm
  · rw [put_other _ k j stores hj] at hst
    exact hinv.apart i j hji st hst x hx

theorem outside_keeps (hinv : Inv L s owner) (core : Core) (stores : List Store)
    (hrole : s.role k = .outside) (hstores : Disciplined L s (.client k core stores)) :
    Inv L ⟨(s.shared.setCore k core).put k stores, s.role, s.latest⟩ owner := by
  have hclean : ∀ st ∈ stores, Clean L st := by
    intro st hst x hx
    obtain ⟨hword, -, hguarded⟩ := hstores st hst x hx
    refine ⟨hword, fun hn => ?_⟩
    exact absurd (hrole.symm.trans (hguarded hn)) (by decide)
  refine ⟨hinv.word, fun i => ?_, ?_, ?_⟩
  · by_cases hi : i = k
    · subst hi
      have hplace := hinv.places i
      unfold Place at hplace ⊢
      rw [hrole] at hplace ⊢
      rcases hplace with hpending | hidle
      · obtain ⟨before, after, hsplit, hbefore, hafter⟩ := hpending.split
        refine .inl ⟨hpending.owns, before, after ++ stores, ?_, hbefore, ?_⟩
        · rw [put_same, setCore_buffers, hsplit, List.append_assoc, List.cons_append]
        · intro st hst
          exact (List.mem_append.mp hst).elim (hafter st) (hclean st)
      · refine .inr ⟨hidle.other, ?_⟩
        intro st hst
        rw [put_same] at hst
        exact (List.mem_append.mp hst).elim (hidle.clean st) (hclean st)
    · exact client_others hinv core stores s.latest i hi
  · exact client_apart hinv core stores fun st hst x hx => (hstores st hst x hx).2.1
  · intro x hx
    have hdata := hinv.data x hx
    cases owner with
    | none => exact hdata
    | some j =>
      show Shared.view _ j x = s.latest x
      by_cases hj : j = k
      · subst hj
        rw [put_view, apply_outside]
        · exact hdata
        · exact fun st hst hcover => (hclean st hst x hcover).2 hx
      · rw [put_view_other _ k j stores hj]
        exact hdata

theorem holding_keeps (hinv : Inv L s owner) (core : Core) (stores : List Store)
    (hrole : s.role k = .holding) (hstores : Disciplined L s (.client k core stores)) :
    Inv L ⟨(s.shared.setCore k core).put k stores, s.role, apply s.latest stores⟩ owner := by
  have hactive : Active L s owner k := by
    have hplace := hinv.places k
    unfold Place at hplace
    rwa [hrole] at hplace
  refine ⟨hinv.word, fun i => ?_, ?_, ?_⟩
  · by_cases hi : i = k
    · subst hi
      unfold Place
      rw [hrole]
      refine ⟨hactive.owns, ?_⟩
      intro st hst
      rw [put_same] at hst
      rcases List.mem_append.mp hst with hst | hst
      · exact hactive.avoids st hst
      · exact fun x hx => (hstores st hst x hx).1
    · exact client_others hinv core stores _ i hi
  · exact client_apart hinv core stores fun st hst x hx => (hstores st hst x hx).2.1
  · intro x hx
    have hdata := hinv.data x hx
    rw [hactive.owns] at hdata ⊢
    show Shared.view _ k x = apply s.latest stores x
    rw [put_view]
    exact apply_agree _ _ stores x hdata

def System.move (s : System ι) (k : ι) (core : Core) (role : Role) : System ι :=
  ⟨s.shared.setCore k core, Function.update s.role k role, s.latest⟩

theorem move_role (s : System ι) (k : ι) (core : Core) (role : Role) :
    (s.move k core role).role k = role := by
  unfold System.move
  exact Function.update_self k role s.role

theorem move_role_other (s : System ι) (i k : ι) (core : Core) (role : Role) (h : i ≠ k) :
    (s.move k core role).role i = s.role i := by
  unfold System.move
  exact Function.update_of_ne h role s.role

theorem move_core (s : System ι) (k : ι) (core : Core) (role : Role) :
    (s.move k core role).shared.cores k = core := setCore_same s.shared k core

theorem move_keeps (hinv : Inv L s owner) (core : Core) (role : Role)
    (hplace : Place L (s.move k core role) owner k) : Inv L (s.move k core role) owner := by
  refine ⟨hinv.word, fun i => ?_, hinv.apart, hinv.data⟩
  by_cases hi : i = k
  · rw [hi]
    exact hplace
  · exact place_frame (hinv.places i) (setCore_other s.shared k i core hi)
      (move_role_other s i k core role hi) rfl Iff.rfl fun x _ => rfl

theorem execute_move (instr : Instr) (next : UInt32)
    (hcode : code (s.shared.cores k).eip = some (instr, next)) (hplain : drains instr = false)
    (hstores : (exec p next instr (s.shared.cores k) (s.shared.view k)).2 = [])
    (hbusy : s.role k = .acquiring ∨ s.role k = .releasing) :
    s.step p code (.execute k) =
      s.move k (exec p next instr (s.shared.cores k) (s.shared.view k)).1
        (if instr = .ret then afterReturn (s.role k) else s.role k) := by
  have hput (shared : Shared ι) : shared.put k [] = shared := by
    unfold Shared.put
    rw [List.append_nil, Function.update_eq_self]
  have hexecute : s.shared.execute p code k = s.shared.setCore k
      (exec p next instr (s.shared.cores k) (s.shared.view k)).1 := by
    rw [execute_plain p code s.shared k instr next hcode hplain, hstores, hput]
  unfold System.step System.move
  simp only
  rw [if_pos hbusy, hcode, hexecute]
  by_cases hret : instr = .ret
  · subst hret
    rfl
  · rw [if_neg hret, Function.update_eq_self]
    cases instr with
    | ret => exact absurd rfl hret
    | _ => rfl

theorem exchange_keeps (hinv : Inv L s owner) (hrole : s.role k = .acquiring)
    (heip : (s.shared.cores k).eip = L.acquire.exchange)
    (hecx : (s.shared.cores k).regs .ecx = L.word) (heax : (s.shared.cores k).regs .eax = 1)
    (hpassive : Passive L s owner k) : ∃ owner, Inv L (s.step p code (.execute k)) owner := by
  have hcode : code (s.shared.cores k).eip = some (.xchg .eax .ecx, L.acquire.test) := by
    rw [heip]
    exact L.acquire.exchange_code
  have hstep : s.step p code (.execute k) = { s with shared := s.shared.execute p code k } := by
    unfold System.step
    simp only
    rw [if_pos (.inl hrole), hcode]
  rw [hstep]
  by_cases hempty : s.shared.buffers k = []
  · rw [execute_drained p code s.shared k _ _ hcode rfl hempty]
    have hidle : Idle L s owner k := by
      rcases hpassive with hpending | hidle
      · obtain ⟨before, after, hsplit, -⟩ := hpending.split
        rw [hempty] at hsplit
        exact absurd hsplit.symm (List.append_ne_nil_of_right_ne_nil before (List.cons_ne_nil _ _))
      · exact hidle
    have hmemory : apply s.shared.memory
        (exec p L.acquire.test (.xchg .eax .ecx) (s.shared.cores k) s.shared.memory).2 =
        store s.shared.memory L.word 1 := by
      show store s.shared.memory ((s.shared.cores k).regs .ecx) ((s.shared.cores k).regs .eax) = _
      rw [hecx, heax]
    have hvalue : (exec p L.acquire.test (.xchg .eax .ecx) (s.shared.cores k) s.shared.memory).1 =
        ((s.shared.cores k).goto L.acquire.test).set .eax (load s.shared.memory L.word) := by
      show ((s.shared.cores k).goto L.acquire.test).set .eax
        (load s.shared.memory ((s.shared.cores k).regs .ecx)) = _
      rw [hecx]
    rw [hmemory, hvalue]
    generalize hcore : ((s.shared.cores k).goto L.acquire.test).set .eax
      (load s.shared.memory L.word) = core
    have hcoreEip : core.eip = L.acquire.test := by rw [← hcore]; rfl
    have hcoreEcx : core.regs .ecx = L.word := by
      rw [← hcore, set_other _ _ _ _ (by decide)]
      exact hecx
    have hcoreEax : core.regs .eax = load s.shared.memory L.word := by
      rw [← hcore, set_same]
    have hview (j : ι) (x : UInt32) (hx : ¬ Covers L.word x) :
        Shared.view { s.shared.setCore k core with memory := store s.shared.memory L.word 1 } j x =
          s.shared.view j x :=
      apply_agree _ _ _ x (store_outside s.shared.memory L.word 1 x hx)
    have hothers (after : Option ι) (i : ι) (hi : i ≠ k)
        (hafter : after = some i ↔ owner = some i) :
        Place L ⟨{ s.shared.setCore k core with memory := store s.shared.memory L.word 1 }, s.role,
          s.latest⟩ after i :=
      place_frame (hinv.places i) (setCore_other s.shared k i core hi) rfl rfl hafter
        fun x hx => hview i x fun hword => L.word_stack i x hword hx
    cases howner : owner with
    | none =>
      have hzero : load s.shared.memory L.word = 0 := by
        have hword := hinv.word
        rwa [howner, if_pos rfl] at hword
      refine ⟨some k, ?_, fun i => ?_, hinv.apart, ?_⟩
      · exact load_store s.shared.memory L.word 1
      · by_cases hi : i = k
        · subst hi
          unfold Place
          simp only
          rw [hrole]
          refine .testing ?_ ?_ ?_ ?_
          · exact (congrArg Core.eip (setCore_same s.shared i core)).trans hcoreEip
          · rw [setCore_same]
            exact hcoreEcx
          · intro _
            refine ⟨rfl, ?_⟩
            intro st hst
            have hnone : st ∈ s.shared.buffers i := hst
            rw [hempty] at hnone
            exact absurd hnone List.not_mem_nil
          · intro hne
            rw [setCore_same] at hne
            exact absurd (hcoreEax.trans hzero) hne
        · apply hothers (some k) i hi
          rw [howner]
          exact ⟨fun hn => absurd (Option.some.inj hn).symm hi, fun hn => absurd hn.symm
            (Option.some_ne_none i)⟩
      · intro x hx
        have hdata := hinv.data x hx
        rw [howner] at hdata
        have hbuffer : s.shared.view k x = s.shared.memory x := by
          rw [Shared.view, hempty]
          rfl
        exact (hview k x fun hword => L.word_guarded x hword hx).trans (hbuffer.trans hdata)
    | some j =>
      have hone : load s.shared.memory L.word = 1 := by
        have hword := hinv.word
        rwa [howner, if_neg (Option.some_ne_none j)] at hword
      refine ⟨some j, ?_, fun i => ?_, hinv.apart, ?_⟩
      · exact load_store s.shared.memory L.word 1
      · by_cases hi : i = k
        · subst hi
          unfold Place
          simp only
          rw [hrole]
          refine .testing ?_ ?_ ?_ ?_
          · exact (congrArg Core.eip (setCore_same s.shared i core)).trans hcoreEip
          · rw [setCore_same]
            exact hcoreEcx
          · intro hzero
            rw [setCore_same, hcoreEax, hone] at hzero
            exact absurd hzero (by decide)
          · intro _
            exact .inr ⟨howner ▸ hidle.other, hidle.clean⟩
        · apply hothers (some j) i hi
          rw [howner]
      · intro x hx
        have hdata := hinv.data x hx
        rw [howner] at hdata
        exact (hview j x fun hword => L.word_guarded x hword hx).trans hdata
  · rw [execute_waiting p code s.shared k _ _ hcode rfl hempty]
    exact ⟨owner, hinv⟩

theorem acquiring_move (hinv : Inv L s owner) (hrole : s.role k = .acquiring) (instr : Instr)
    (next : UInt32) (hcode : code (s.shared.cores k).eip = some (instr, next))
    (hplain : drains instr = false) (hret : instr ≠ .ret)
    (hstores : (exec p next instr (s.shared.cores k) (s.shared.view k)).2 = [])
    (hplace : ∀ core, core = (exec p next instr (s.shared.cores k) (s.shared.view k)).1 →
      Acquiring L (s.move k core .acquiring) owner k) :
    ∃ owner, Inv L (s.step p code (.execute k)) owner := by
  refine ⟨owner, ?_⟩
  rw [execute_move instr next hcode hplain hstores (.inl hrole), if_neg hret, hrole]
  apply move_keeps hinv
  unfold Place
  rw [move_role]
  exact hplace _ rfl

theorem acquiring_keeps (hinv : Inv L s owner) (hrole : s.role k = .acquiring) :
    ∃ owner, Inv L (s.step p code (.execute k)) owner := by
  have hplace := hinv.places k
  unfold Place at hplace
  rw [hrole] at hplace
  have hcore (core : Core) : (s.move k core .acquiring).shared.cores k = core := move_core s k core _
  cases hplace with
  | entered eip argument passive =>
    apply acquiring_move hinv hrole (.loadMem .ecx .esp 4) L.acquire.lockTry
      (eip ▸ L.acquire.entry_code) rfl (by simp) rfl
    rintro core rfl
    refine .trying ?_ ?_ (passive_frame passive rfl Iff.rfl)
    · rw [hcore]
      rfl
    · rw [hcore]
      show (((s.shared.cores k).goto _).set .ecx _).regs .ecx = _
      rw [set_same]
      exact argument.value
  | trying eip ecx passive =>
    apply acquiring_move hinv hrole (.movImm .eax 1) L.acquire.exchange
      (eip ▸ L.acquire.try_code) rfl (by simp) rfl
    rintro core rfl
    refine .exchanging ?_ ?_ ?_ (passive_frame passive rfl Iff.rfl)
    · rw [hcore]
      rfl
    · rw [hcore]
      exact ecx
    · rw [hcore]
      rfl
  | exchanging eip ecx eax passive => exact exchange_keeps hinv hrole eip ecx eax passive
  | testing eip ecx taken missed =>
    apply acquiring_move hinv hrole (.test .eax .eax) L.acquire.branch
      (eip ▸ L.acquire.test_code) rfl (by simp) rfl
    rintro core rfl
    have hzero : (exec p L.acquire.branch (.test .eax .eax) (s.shared.cores k)
        (s.shared.view k)).1.has zeroFlag = ((s.shared.cores k).regs .eax == 0) := by
      show (Core.flags _ _).has zeroFlag = _
      rw [flags_zero, logical, UInt32.and_self]
    refine .branching ?_ ?_ ?_ ?_
    · rw [hcore]
      rfl
    · rw [hcore]
      exact ecx
    · rw [hcore, hzero, beq_iff_eq]
      exact fun heax => active_frame (taken heax) rfl Iff.rfl
    · rw [hcore, hzero, beq_eq_false_iff_ne]
      exact fun heax => passive_frame (missed heax) rfl Iff.rfl
  | branching eip ecx taken missed =>
    apply acquiring_move hinv hrole (.jz L.acquire.lockAcquired) L.acquire.lockWait
      (eip ▸ L.acquire.branch_code) rfl (by simp) rfl
    rintro core rfl
    cases hzero : (s.shared.cores k).has zeroFlag with
    | true =>
      refine .acquired ?_ (active_frame (taken hzero) rfl Iff.rfl)
      rw [hcore]
      show Core.eip (if _ then _ else _) = _
      rw [if_pos hzero]
      rfl
    | false =>
      have hgo : (exec p L.acquire.lockWait (.jz L.acquire.lockAcquired) (s.shared.cores k)
          (s.shared.view k)).1 = (s.shared.cores k).goto L.acquire.lockWait := by
        show (if _ then _ else _) = _
        rw [hzero, if_neg Bool.false_ne_true]
      refine .waiting ?_ ?_ (passive_frame (missed hzero) rfl Iff.rfl)
      · rw [hcore, hgo]
        exact List.mem_cons_self
      · rw [hcore, hgo]
        exact ecx
  | waiting eip ecx passive =>
    rcases List.mem_cons.mp eip with eip | eip
    · apply acquiring_move hinv hrole .pause L.acquire.compare (eip ▸ L.acquire.wait_code) rfl
        (by simp) rfl
      rintro core rfl
      refine .waiting ?_ ?_ (passive_frame passive rfl Iff.rfl)
      · rw [hcore]
        show L.acquire.compare ∈ _
        simp
      · rw [hcore]
        exact ecx
    rcases List.mem_cons.mp eip with eip | eip
    · apply acquiring_move hinv hrole (.cmpMem .ecx 0) L.acquire.again
        (eip ▸ L.acquire.compare_code) rfl (by simp) rfl
      rintro core rfl
      refine .waiting ?_ ?_ (passive_frame passive rfl Iff.rfl)
      · rw [hcore]
        show L.acquire.again ∈ _
        simp
      · rw [hcore]
        exact ecx
    rcases List.mem_cons.mp eip with eip | eip
    · apply acquiring_move hinv hrole (.jne L.acquire.lockWait) L.acquire.retry
        (eip ▸ L.acquire.again_code) rfl (by simp) rfl
      rintro core rfl
      have hgo : (exec p L.acquire.retry (.jne L.acquire.lockWait) (s.shared.cores k)
          (s.shared.view k)).1 = (s.shared.cores k).goto (if (s.shared.cores k).has zeroFlag then
            L.acquire.retry else L.acquire.lockWait) := by
        show (if _ then _ else _) = _
        split_ifs <;> rfl
      refine .waiting ?_ ?_ (passive_frame passive rfl Iff.rfl)
      · rw [hcore, hgo]
        show (if _ then _ else _) ∈ _
        split_ifs <;> simp
      · rw [hcore, hgo]
        exact ecx
    · have eip := List.mem_singleton.mp eip
      apply acquiring_move hinv hrole (.jmp L.acquire.lockTry) L.acquire.lockAcquired
        (eip ▸ L.acquire.retry_code) rfl (by simp) rfl
      rintro core rfl
      refine .trying ?_ ?_ (passive_frame passive rfl Iff.rfl)
      · rw [hcore]
        rfl
      · rw [hcore]
        exact ecx
  | acquired eip active =>
    refine ⟨owner, ?_⟩
    rw [execute_move .ret L.acquire.stop (eip ▸ L.acquire.acquired_code) rfl rfl (.inl hrole),
      if_pos rfl, hrole]
    apply move_keeps hinv
    unfold Place
    rw [move_role]
    exact active_frame active rfl Iff.rfl

theorem clear_keeps (hinv : Inv L s owner) (hrole : s.role k = .releasing)
    (heip : (s.shared.cores k).eip = L.release.clear)
    (heax : (s.shared.cores k).regs .eax = L.word) (hactive : Active L s owner k) :
    Inv L (s.step p code (.execute k)) owner := by
  have hcode : code (s.shared.cores k).eip = some (.storeImm .eax 0, L.release.leave) := by
    rw [heip]
    exact L.release.clear_code
  have hstep : s.step p code (.execute k) =
      ⟨(s.shared.setCore k ((s.shared.cores k).goto L.release.leave)).put k [(L.word, 0)], s.role,
        s.latest⟩ := by
    unfold System.step
    simp only
    rw [if_pos (.inr hrole), hcode, execute_plain p code s.shared k _ _ hcode rfl]
    show System.mk (Shared.put _ k [((s.shared.cores k).regs .eax, 0)]) _ _ = _
    rw [heax]
    rfl
  rw [hstep]
  refine ⟨hinv.word, fun i => ?_, ?_, ?_⟩
  · by_cases hi : i = k
    · subst hi
      unfold Place
      simp only
      rw [hrole]
      refine .leaving ?_ (.inl ⟨hactive.owns, s.shared.buffers i, [], ?_, hactive.avoids, ?_⟩)
      · show Core.eip (Shared.cores (Shared.setCore _ i _) i) = _
        rw [setCore_same]
        rfl
      · exact put_same _ i _
      · exact fun st hst => absurd hst List.not_mem_nil
    · exact client_others hinv _ _ s.latest i hi
  · apply client_apart hinv
    intro st hst x hx j _
    rw [List.mem_singleton.mp hst] at hx
    exact L.word_stack j x hx
  · intro x hx
    have hdata := hinv.data x hx
    rw [hactive.owns] at hdata ⊢
    show Shared.view _ k x = s.latest x
    rw [put_view, apply_outside]
    · exact hdata
    · intro st hst hcover
      rw [List.mem_singleton.mp hst] at hcover
      exact L.word_guarded x hcover hx

theorem releasing_keeps (hinv : Inv L s owner) (hrole : s.role k = .releasing) :
    Inv L (s.step p code (.execute k)) owner := by
  have hplace := hinv.places k
  unfold Place at hplace
  rw [hrole] at hplace
  cases hplace with
  | entered eip argument active =>
    rw [execute_move (.loadMem .eax .esp 4) L.release.clear (eip ▸ L.release.entry_code) rfl rfl
      (.inr hrole), if_neg (by simp), hrole]
    apply move_keeps hinv
    unfold Place
    rw [move_role]
    refine .clearing ?_ ?_ (active_frame active rfl Iff.rfl)
    · rw [move_core]
      rfl
    · rw [move_core]
      show (((s.shared.cores k).goto _).set .eax _).regs .eax = _
      rw [set_same]
      exact argument.value
  | clearing eip eax active => exact clear_keeps hinv hrole eip eax active
  | leaving eip passive =>
    rw [execute_move .ret L.release.stop (eip ▸ L.release.leave_code) rfl rfl (.inr hrole),
      if_pos rfl, hrole]
    apply move_keeps hinv
    unfold Place
    rw [move_role]
    exact passive_frame passive rfl Iff.rfl

theorem flush_apart (hinv : Inv L s owner) (i j : ι) (hji : j ≠ i) (st : Store)
    (hst : st ∈ (s.shared.flush k).buffers j) (x : UInt32) (hx : Covers st.1 x) :
    ¬ L.stack i x := hinv.apart i j hji st (flush_subset s.shared k j st hst) x hx

theorem flush_stack (hinv : Inv L s owner) (hi : i ≠ k) (x : UInt32) (hx : L.stack i x) :
    (s.shared.flush k).view i x = s.shared.view i x :=
  flush_view_other s.shared k i x hi fun st hst hcover =>
    hinv.apart i k hi.symm st hst x hcover hx

theorem flush_buffer (s : Shared ι) (i k : ι) (h : i ≠ k) :
    (s.flush k).buffers i = s.buffers i := by
  cases hbuffer : s.buffers k with
  | nil => rw [flush_nil s k hbuffer]
  | cons oldest rest =>
    rw [flush_cons s k oldest rest hbuffer]
    exact Function.update_of_ne h rest s.buffers

theorem flush_release (hinv : Inv L s owner) (rest : List Store) (howner : owner = some k)
    (hbuffer : s.shared.buffers k = (L.word, 0) :: rest) (hrest : ∀ st ∈ rest, Clean L st) :
    Inv L { s with shared := s.shared.flush k } none := by
  have hflush := flush_cons s.shared k (L.word, 0) rest hbuffer
  have hmemory : (s.shared.flush k).memory = store s.shared.memory L.word 0 := by rw [hflush]
  have hrests : (s.shared.flush k).buffers k = rest := by
    rw [hflush]
    exact Function.update_self k rest s.shared.buffers
  refine ⟨?_, fun i => ?_, flush_apart hinv, ?_⟩
  · show load (s.shared.flush k).memory L.word = _
    rw [hmemory, load_store, if_pos rfl]
  · by_cases hi : i = k
    · subst hi
      have hidle : Idle L { s with shared := s.shared.flush i } none i := by
        refine ⟨fun hn => absurd hn.symm (Option.some_ne_none i), ?_⟩
        show ∀ st ∈ (s.shared.flush i).buffers i, Clean L st
        rw [hrests]
        exact hrest
      refine place_map (hinv.places i) (congrFun (flush_cores s.shared i) i) rfl ?_
        (fun _ => .inr hidle) fun ha => argument_frame ha (congrFun (flush_cores s.shared i) i)
          fun x _ => congrFun (flush_view s.shared i) x
      intro hactive
      -- the store is the one that an active processor does not have
      have havoids := hactive.avoids (L.word, 0) (hbuffer ▸ List.mem_cons_self)
      exact absurd (covers_self L.word) (havoids L.word (covers_self L.word))
    · have hother : none = some i ↔ owner = some i := by
        rw [howner]
        exact ⟨fun hn => absurd hn.symm (Option.some_ne_none i),
          fun hn => absurd (Option.some.inj hn).symm hi⟩
      exact place_frame (hinv.places i) (congrFun (flush_cores s.shared k) i) rfl
        (flush_buffer s.shared i k hi) hother (flush_stack hinv hi)
  · intro x hx
    have hdata := hinv.data x hx
    rw [howner] at hdata
    show (s.shared.flush k).memory x = s.latest x
    have hview : s.shared.view k x = (s.shared.flush k).memory x := by
      rw [← flush_view, Shared.view, hrests]
      exact apply_outside _ rest x fun st hst hcover => (hrest st hst x hcover).2 hx
    exact hview.symm.trans hdata

theorem flush_other (hinv : Inv L s owner) (oldest : Store) (rest : List Store)
    (hbuffer : s.shared.buffers k = oldest :: rest) (havoids : Avoids L oldest) :
    Inv L { s with shared := s.shared.flush k } owner := by
  have hflush := flush_cons s.shared k oldest rest hbuffer
  have hmemory : (s.shared.flush k).memory = store s.shared.memory oldest.1 oldest.2 := by
    rw [hflush]
  have hrests : (s.shared.flush k).buffers k = rest := by
    rw [hflush]
    exact Function.update_self k rest s.shared.buffers
  have hsubset : ∀ st ∈ rest, st ∈ s.shared.buffers k := by
    rw [hbuffer]
    exact fun st hst => List.mem_cons_of_mem oldest hst
  refine ⟨?_, fun i => ?_, flush_apart hinv, ?_⟩
  · show load (s.shared.flush k).memory L.word = _
    rw [hmemory, load_store_apart _ _ _ _ fun x hx => havoids x hx.1 hx.2]
    exact hinv.word
  · by_cases hi : i = k
    · subst hi
      refine place_map (hinv.places i) (congrFun (flush_cores s.shared i) i) rfl ?_ ?_ fun ha =>
        argument_frame ha (congrFun (flush_cores s.shared i) i)
          fun x _ => congrFun (flush_view s.shared i) x
      · intro hactive
        refine ⟨hactive.owns, ?_⟩
        show ∀ st ∈ (s.shared.flush i).buffers i, Avoids L st
        rw [hrests]
        exact fun st hst => hactive.avoids st (hsubset st hst)
      · rintro (hpending | hidle)
        · obtain ⟨before, after, hsplit, hbefore, hafter⟩ := hpending.split
          rw [hbuffer] at hsplit
          cases before with
          | nil =>
            rw [(List.cons.inj hsplit).1] at havoids
            exact absurd (covers_self L.word) (havoids L.word (covers_self L.word))
          | cons first before =>
            refine .inl ⟨hpending.owns, before, after, ?_,
              fun st hst => hbefore st (List.mem_cons_of_mem first hst), hafter⟩
            show (s.shared.flush i).buffers i = _
            rw [hrests]
            exact (List.cons.inj hsplit).2
        · refine .inr ⟨hidle.other, ?_⟩
          show ∀ st ∈ (s.shared.flush i).buffers i, Clean L st
          rw [hrests]
          exact fun st hst => hidle.clean st (hsubset st hst)
    · exact place_frame (hinv.places i) (congrFun (flush_cores s.shared k) i) rfl
        (flush_buffer s.shared i k hi) Iff.rfl (flush_stack hinv hi)
  · intro x hx
    have hdata := hinv.data x hx
    have hclean (hother : owner ≠ some k) (st : Store) (hst : st ∈ s.shared.buffers k) :
        ¬ Covers st.1 x := fun hcover => (other_clean (hinv.places k) hother st hst x hcover).2 hx
    cases owner with
    | none =>
      exact (flush_memory s.shared k x (hclean (Option.some_ne_none k).symm)).trans hdata
    | some j =>
      show (s.shared.flush k).view j x = s.latest x
      by_cases hj : j = k
      · rw [hj, flush_view, ← hj]
        exact hdata
      · rw [flush_view_other s.shared k j x hj (hclean fun hn => hj (Option.some.inj hn))]
        exact hdata

theorem flush_keeps (hinv : Inv L s owner) :
    ∃ owner, Inv L { s with shared := s.shared.flush k } owner := by
  cases hbuffer : s.shared.buffers k with
  | nil =>
    rw [flush_nil s.shared k hbuffer]
    exact ⟨owner, hinv⟩
  | cons oldest rest =>
    have hmem : oldest ∈ s.shared.buffers k := hbuffer ▸ List.mem_cons_self
    rcases place_kind (hinv.places k) with hactive | hpending | hidle
    · exact ⟨owner, flush_other hinv oldest rest hbuffer (hactive.avoids oldest hmem)⟩
    · obtain ⟨before, after, hsplit, hbefore, hafter⟩ := hpending.split
      rw [hbuffer] at hsplit
      cases before with
      | nil =>
        obtain ⟨rfl, rfl⟩ := List.cons.inj hsplit
        exact ⟨none, flush_release hinv rest hpending.owns hbuffer hafter⟩
      | cons first before =>
        obtain ⟨rfl, -⟩ := List.cons.inj hsplit
        exact ⟨owner, flush_other hinv oldest rest hbuffer (hbefore oldest List.mem_cons_self)⟩
    · exact ⟨owner, flush_other hinv oldest rest hbuffer fun x hx => (hidle.clean oldest hmem x hx).1⟩

theorem enter_role (s : System ι) (k : ι) (role : Role) : (s.enter k role).role k = role := by
  unfold System.enter
  exact Function.update_self k role s.role

theorem enter_role_other (s : System ι) (i k : ι) (role : Role) (h : i ≠ k) :
    (s.enter k role).role i = s.role i := by
  unfold System.enter
  exact Function.update_of_ne h role s.role

theorem enter_keeps (hinv : Inv L s owner) (role : Role)
    (hplace : Place L (s.enter k role) owner k) : Inv L (s.enter k role) owner := by
  refine ⟨hinv.word, fun i => ?_, hinv.apart, hinv.data⟩
  by_cases hi : i = k
  · rw [hi]
    exact hplace
  · exact place_frame (hinv.places i) rfl (enter_role_other s i k role hi) rfl Iff.rfl
      fun x _ => rfl

theorem step_inv (e : LockEvent ι) (h : ∃ owner, Inv L s owner) (hallowed : Disciplined L s e) :
    ∃ owner, Inv L (s.step p code e) owner := by
  obtain ⟨owner, hinv⟩ := h
  cases e with
  | client k core stores =>
    unfold System.step
    cases hrole : s.role k <;> simp only [hrole]
    case outside => exact ⟨owner, outside_keeps hinv core stores hrole hallowed⟩
    case holding => exact ⟨owner, holding_keeps hinv core stores hrole hallowed⟩
    case acquiring => exact ⟨owner, hinv⟩
    case releasing => exact ⟨owner, hinv⟩
  | acquire k =>
    unfold System.step
    simp only
    split_ifs with hrole
    · have hplace := hinv.places k
      unfold Place at hplace
      rw [hrole] at hplace
      refine ⟨owner, enter_keeps hinv .acquiring ?_⟩
      unfold Place
      rw [enter_role]
      exact .entered hallowed.1 ⟨hallowed.2.value, hallowed.2.own⟩ (passive_frame hplace rfl Iff.rfl)
    · exact ⟨owner, hinv⟩
  | release k =>
    unfold System.step
    simp only
    split_ifs with hrole
    · have hplace := hinv.places k
      unfold Place at hplace
      rw [hrole] at hplace
      refine ⟨owner, enter_keeps hinv .releasing ?_⟩
      unfold Place
      rw [enter_role]
      exact .entered hallowed.1 ⟨hallowed.2.value, hallowed.2.own⟩ (active_frame hplace rfl Iff.rfl)
    · exact ⟨owner, hinv⟩
  | execute k =>
    by_cases hbusy : s.role k = .acquiring ∨ s.role k = .releasing
    · rcases hbusy with hrole | hrole
      · exact acquiring_keeps hinv hrole
      · exact ⟨owner, releasing_keeps hinv hrole⟩
    · unfold System.step
      simp only
      rw [if_neg hbusy]
      exact ⟨owner, hinv⟩
  | flush k => exact flush_keeps hinv

structure Start (L : Lock code ι) (s : System ι) : Prop where
  roles : ∀ i, s.role i = .outside
  buffers : ∀ i, s.shared.buffers i = []
  word : load s.shared.memory L.word = 0
  latest : s.latest = s.shared.memory

theorem start_inv (h : Start L s) : Inv L s none := by
  refine ⟨?_, fun i => ?_, ?_, fun x _ => ?_⟩
  · rw [if_pos rfl]
    exact h.word
  · unfold Place
    rw [h.roles i]
    refine .inr ⟨(Option.some_ne_none i).symm, ?_⟩
    rw [h.buffers i]
    exact fun st hst => absurd hst List.not_mem_nil
  · intro i j _ st hst
    rw [h.buffers j] at hst
    exact absurd hst List.not_mem_nil
  · exact congrFun h.latest.symm x

theorem run_inv (es : List (LockEvent ι)) (h : Start L s)
    (hallowed : Along (System.step p code) (Disciplined L) s es) :
    ∃ owner, Inv L (run (System.step p code) s es) owner :=
  run_invariant (System.step p code) (Disciplined L) (fun s => ∃ owner, Inv L s owner)
    (fun _ e hinv he => step_inv e hinv he) s es ⟨none, start_inv h⟩ hallowed

theorem holding_active (hinv : Inv L s owner) (hrole : s.role i = .holding) :
    Active L s owner i := by
  have hplace := hinv.places i
  unfold Place at hplace
  rwa [hrole] at hplace

/-- In every run, while a processor holds the lock no other one does. -/
theorem one_holder (es : List (LockEvent ι)) (h : Start L s)
    (hallowed : Along (System.step p code) (Disciplined L) s es) (i j : ι) (hji : j ≠ i)
    (hi : (run (System.step p code) s es).role i = .holding) :
    (run (System.step p code) s es).role j ≠ .holding := by
  intro hj
  obtain ⟨owner, hinv⟩ := run_inv es h hallowed
  have howner := (holding_active hinv hi).owns
  have howner' := (holding_active hinv hj).owns
  exact hji (Option.some.inj (howner'.symm.trans howner))

/-- In every run the holder sees the guarded data as if all holders had worked
on one memory in turn. -/
theorem holder_sees_latest (es : List (LockEvent ι)) (h : Start L s)
    (hallowed : Along (System.step p code) (Disciplined L) s es) (i : ι)
    (hi : (run (System.step p code) s es).role i = .holding) (x : UInt32) (hx : L.guarded x) :
    (run (System.step p code) s es).shared.view i x = (run (System.step p code) s es).latest x := by
  obtain ⟨owner, hinv⟩ := run_inv es h hallowed
  have hdata := hinv.data x hx
  rwa [(holding_active hinv hi).owns] at hdata

/-- The processor waits for the lock, which is free in the memory, and has no
stores under way. -/
structure Waiting (L : Lock code ι) (s : System ι) (k : ι) : Prop where
  role : s.role k = .acquiring
  empty : s.shared.buffers k = []
  free : load s.shared.memory L.word = 0

def executes (p : Features) (code : Code) (k : ι) (n : ℕ) (s : System ι) : System ι :=
  run (System.step p code) s (List.replicate n (.execute k))

def Takes (p : Features) (code : Code) (k : ι) (s : System ι) : Prop :=
  ∃ n, (executes p code k n s).role k = .holding

theorem takes_step (h : Takes p code k (s.step p code (.execute k))) :
    Takes p code k s := by
  obtain ⟨n, hn⟩ := h
  exact ⟨n + 1, hn⟩

theorem waiting_step (h : Waiting L s k) (instr : Instr) (next : UInt32)
    (hcode : code (s.shared.cores k).eip = some (instr, next)) (hplain : drains instr = false)
    (hret : instr ≠ .ret)
    (hstores : (exec p next instr (s.shared.cores k) (s.shared.view k)).2 = [])
    (htakes : ∀ t, Waiting L t k →
      t.shared.cores k = (exec p next instr (s.shared.cores k) s.shared.memory).1 →
      Takes p code k t) : Takes p code k s := by
  have hview : s.shared.view k = s.shared.memory := by
    rw [Shared.view, h.empty]
    rfl
  apply takes_step
  rw [execute_move instr next hcode hplain hstores (.inl h.role), if_neg hret]
  apply htakes
  · exact ⟨(move_role s k _ _).trans h.role, h.empty, h.free⟩
  · rw [move_core, hview]

theorem taken_takes (h : s.role k = .acquiring)
    (heip : (s.shared.cores k).eip = L.acquire.lockAcquired) : Takes p code k s := by
  refine ⟨1, ?_⟩
  show (s.step p code (.execute k)).role k = _
  rw [execute_move .ret L.acquire.stop (heip ▸ L.acquire.acquired_code) rfl rfl (.inl h),
    if_pos rfl, h]
  exact move_role s k _ _

theorem branch_takes (h : s.role k = .acquiring)
    (heip : (s.shared.cores k).eip = L.acquire.branch)
    (hzero : (s.shared.cores k).has zeroFlag = true) : Takes p code k s := by
  apply takes_step
  rw [execute_move _ _ (heip ▸ L.acquire.branch_code) rfl rfl (.inl h), if_neg (by simp), h]
  apply taken_takes (L := L) (move_role s k _ _)
  rw [move_core]
  show Core.eip (if _ then _ else _) = _
  rw [if_pos hzero]
  rfl

theorem exchange_takes (h : Waiting L s k)
    (heip : (s.shared.cores k).eip = L.acquire.exchange)
    (hecx : (s.shared.cores k).regs .ecx = L.word) : Takes p code k s := by
  have hcode : code (s.shared.cores k).eip = some (.xchg .eax .ecx, L.acquire.test) := by
    rw [heip]
    exact L.acquire.exchange_code
  have hstep : s.step p code (.execute k) = { s with shared := s.shared.execute p code k } := by
    unfold System.step
    simp only
    rw [if_pos (.inl h.role), hcode]
  have hcore : (s.step p code (.execute k)).shared.cores k =
      ((s.shared.cores k).goto L.acquire.test).set .eax (load s.shared.memory L.word) := by
    rw [hstep, execute_drained p code s.shared k _ _ hcode rfl h.empty]
    show Shared.cores (Shared.setCore _ k _) k = _
    rw [setCore_same]
    show Core.set _ .eax (load s.shared.memory ((s.shared.cores k).regs .ecx)) = _
    rw [hecx]
  have hrole : (s.step p code (.execute k)).role k = .acquiring := by
    rw [hstep]
    exact h.role
  apply takes_step
  generalize s.step p code (.execute k) = t at hcore hrole
  have heax : (t.shared.cores k).regs .eax = 0 := by
    rw [hcore, set_same]
    exact h.free
  have htest : (t.shared.cores k).eip = L.acquire.test := by rw [hcore]; rfl
  apply takes_step
  rw [execute_move _ _ (htest ▸ L.acquire.test_code) rfl rfl (.inl hrole), if_neg (by simp), hrole]
  apply branch_takes (L := L) (move_role t k _ _)
  · rw [move_core]
    rfl
  · rw [move_core]
    show (Core.flags _ _).has zeroFlag = true
    rw [flags_zero, logical, UInt32.and_self, heax]
    rfl

theorem trying_takes (h : Waiting L s k) (heip : (s.shared.cores k).eip = L.acquire.lockTry)
    (hecx : (s.shared.cores k).regs .ecx = L.word) : Takes p code k s := by
  apply waiting_step h _ _ (heip ▸ L.acquire.try_code) rfl (by simp) rfl
  intro t ht hcore
  apply exchange_takes ht
  · rw [hcore]
    rfl
  · rw [hcore]
    exact hecx

theorem retry_takes (h : Waiting L s k) (heip : (s.shared.cores k).eip = L.acquire.retry)
    (hecx : (s.shared.cores k).regs .ecx = L.word) : Takes p code k s := by
  apply waiting_step h _ _ (heip ▸ L.acquire.retry_code) rfl (by simp) rfl
  intro t ht hcore
  apply trying_takes ht
  · rw [hcore]
    rfl
  · rw [hcore]
    exact hecx

theorem wait_takes (h : Waiting L s k) (heip : (s.shared.cores k).eip = L.acquire.lockWait)
    (hecx : (s.shared.cores k).regs .ecx = L.word) : Takes p code k s := by
  have hagain (t : System ι) (ht : Waiting L t k)
      (heip : (t.shared.cores k).eip = L.acquire.again)
      (hecx : (t.shared.cores k).regs .ecx = L.word)
      (hzero : (t.shared.cores k).has zeroFlag = true) : Takes p code k t := by
    apply waiting_step ht _ _ (heip ▸ L.acquire.again_code) rfl (by simp) rfl
    intro u hu hcore
    have hgo : u.shared.cores k = (t.shared.cores k).goto L.acquire.retry := by
      rw [hcore]
      show (if _ then _ else _) = _
      rw [if_pos hzero]
    apply retry_takes hu
    · rw [hgo]
      rfl
    · rw [hgo]
      exact hecx
  apply waiting_step h _ _ (heip ▸ L.acquire.wait_code) rfl (by simp) rfl
  intro t ht hcore
  have htecx : (t.shared.cores k).regs .ecx = L.word := by
    rw [hcore]
    exact hecx
  have hteip : (t.shared.cores k).eip = L.acquire.compare := by
    rw [hcore]
    rfl
  apply waiting_step ht _ _ (hteip ▸ L.acquire.compare_code) rfl (by simp) rfl
  intro u hu hucore
  apply hagain u hu
  · rw [hucore]
    rfl
  · rw [hucore]
    exact htecx
  · rw [hucore]
    show (Core.flags _ (difference (load t.shared.memory ((t.shared.cores k).regs .ecx)) 0)).has
      zeroFlag = true
    rw [flags_zero, htecx, ht.free]
    rfl

theorem acquiring_takes (hinv : Inv L s none) (h : Waiting L s k) : Takes p code k s := by
  have hplace := hinv.places k
  unfold Place at hplace
  rw [h.role] at hplace
  have hfree {q : Prop} (hactive : Active L s none k) : q :=
    absurd hactive.owns (Option.some_ne_none k).symm
  cases hplace with
  | entered eip argument passive =>
    apply waiting_step h _ _ (eip ▸ L.acquire.entry_code) rfl (by simp) rfl
    intro t ht hcore
    apply trying_takes ht
    · rw [hcore]
      rfl
    · have hvalue := argument.value
      rw [Shared.view, h.empty] at hvalue
      rw [hcore]
      show (((s.shared.cores k).goto _).set .ecx _).regs .ecx = _
      rw [set_same]
      exact hvalue
  | trying eip ecx passive => exact trying_takes h eip ecx
  | exchanging eip ecx eax passive => exact exchange_takes h eip ecx
  | testing eip ecx taken missed =>
    apply waiting_step h _ _ (eip ▸ L.acquire.test_code) rfl (by simp) rfl
    intro t ht hcore
    have hteip : (t.shared.cores k).eip = L.acquire.branch := by
      rw [hcore]
      rfl
    have htecx : (t.shared.cores k).regs .ecx = L.word := by
      rw [hcore]
      exact ecx
    cases hzero : (t.shared.cores k).has zeroFlag with
    | true => exact branch_takes ht.role hteip hzero
    | false =>
      apply waiting_step ht _ _ (hteip ▸ L.acquire.branch_code) rfl (by simp) rfl
      intro u hu hucore
      have hgo : u.shared.cores k = (t.shared.cores k).goto L.acquire.lockWait := by
        rw [hucore]
        show (if _ then _ else _) = _
        rw [hzero, if_neg Bool.false_ne_true]
      apply wait_takes hu
      · rw [hgo]
        rfl
      · rw [hgo]
        exact htecx
  | branching eip ecx taken missed =>
    cases hzero : (s.shared.cores k).has zeroFlag with
    | true => exact hfree (taken hzero)
    | false =>
      apply waiting_step h _ _ (eip ▸ L.acquire.branch_code) rfl (by simp) rfl
      intro t ht hcore
      have hgo : t.shared.cores k = (s.shared.cores k).goto L.acquire.lockWait := by
        rw [hcore]
        show (if _ then _ else _) = _
        rw [hzero, if_neg Bool.false_ne_true]
      apply wait_takes ht
      · rw [hgo]
        rfl
      · rw [hgo]
        exact ecx
  | waiting eip ecx passive =>
    have hagain (t : System ι) (ht : Waiting L t k)
        (hteip : (t.shared.cores k).eip = L.acquire.again)
        (htecx : (t.shared.cores k).regs .ecx = L.word) : Takes p code k t := by
      apply waiting_step ht _ _ (hteip ▸ L.acquire.again_code) rfl (by simp) rfl
      intro u hu hcore
      have hgo : u.shared.cores k = (t.shared.cores k).goto (if (t.shared.cores k).has zeroFlag then
          L.acquire.retry else L.acquire.lockWait) := by
        rw [hcore]
        show (if _ then _ else _) = _
        split_ifs <;> rfl
      have huecx : (u.shared.cores k).regs .ecx = L.word := by
        rw [hgo]
        exact htecx
      by_cases hzero : (t.shared.cores k).has zeroFlag = true
      · apply retry_takes hu _ huecx
        rw [hgo, if_pos hzero]
        rfl
      · apply wait_takes hu _ huecx
        rw [hgo, if_neg hzero]
        rfl
    rcases List.mem_cons.mp eip with eip | eip
    · exact wait_takes h eip ecx
    rcases List.mem_cons.mp eip with eip | eip
    · apply waiting_step h _ _ (eip ▸ L.acquire.compare_code) rfl (by simp) rfl
      intro t ht hcore
      apply hagain t ht
      · rw [hcore]
        rfl
      · rw [hcore]
        exact ecx
    rcases List.mem_cons.mp eip with eip | eip
    · exact hagain s h eip ecx
    · exact retry_takes h (List.mem_singleton.mp eip) ecx
  | acquired eip active => exact hfree active

theorem flushes_empty (n : ℕ) (hn : (s.shared.buffers k).length = n)
    (havoids : ∀ st ∈ s.shared.buffers k, Avoids L st) :
    let t := run (System.step p code) s (List.replicate n (.flush k))
    t.shared.buffers k = [] ∧ t.role = s.role ∧
      load t.shared.memory L.word = load s.shared.memory L.word := by
  induction n generalizing s with
  | zero => exact ⟨List.length_eq_zero_iff.mp hn, rfl, rfl⟩
  | succ n ih =>
    cases hbuffer : s.shared.buffers k with
    | nil =>
      rw [hbuffer] at hn
      exact absurd hn (Nat.succ_ne_zero n).symm
    | cons oldest rest =>
      rw [hbuffer] at hn havoids
      have hflush := flush_cons s.shared k oldest rest hbuffer
      have hrest : (s.shared.flush k).buffers k = rest := by
        rw [hflush]
        exact Function.update_self k rest s.shared.buffers
      have hword : load (s.shared.flush k).memory L.word = load s.shared.memory L.word := by
        rw [hflush]
        exact load_store_apart _ _ _ _ fun x hx => havoids oldest List.mem_cons_self x hx.1 hx.2
      have hnext := ih (s := { s with shared := s.shared.flush k })
        (by rw [show _ = (s.shared.flush k).buffers k from rfl, hrest]; exact Nat.succ.inj hn)
        (by
          rw [show _ = (s.shared.flush k).buffers k from rfl, hrest]
          exact fun st hst => havoids st (List.mem_cons_of_mem oldest hst))
      exact ⟨hnext.1, hnext.2.1, hnext.2.2.trans hword⟩

theorem along_flushes (m : ℕ) (s : System ι) :
    Along (System.step p code) (Disciplined L) s (List.replicate m (.flush k)) := by
  induction m generalizing s with
  | zero => trivial
  | succ m ih => exact ⟨trivial, ih _⟩

/-- In every run a processor that waits for the lock when it is free gets it by
itself: its stores reach the memory, and it goes on in the routine. -/
theorem free_lock_taken (es : List (LockEvent ι)) (h : Start L s)
    (hallowed : Along (System.step p code) (Disciplined L) s es)
    (hrole : (run (System.step p code) s es).role k = .acquiring)
    (hfree : load (run (System.step p code) s es).shared.memory L.word = 0) :
    ∃ m n, (run (System.step p code) s (es ++ List.replicate m (.flush k) ++
      List.replicate n (.execute k))).role k = .holding := by
  obtain ⟨owner, hinv⟩ := run_inv es h hallowed
  have hnone : owner = none := by
    by_contra hsome
    have hword := hinv.word
    rw [if_neg hsome, hfree] at hword
    exact absurd hword (by decide)
  subst hnone
  have hclean := other_clean (hinv.places k) (Option.some_ne_none k).symm
  obtain ⟨hempty, hroles, hword⟩ := flushes_empty (p := p) (L := L) (k := k) _ rfl
    fun st hst x hx => (hclean st hst x hx).1
  generalize hm : ((run (System.step p code) s es).shared.buffers k).length = m at hempty hroles hword
  rw [← run_append] at hempty hroles hword
  have hallowed' : Along (System.step p code) (Disciplined L) s
      (es ++ List.replicate m (.flush k)) :=
    (along_append _ _ s es _).mpr ⟨hallowed, along_flushes m _⟩
  obtain ⟨owner, hinv'⟩ := run_inv _ h hallowed'
  have hnone' : owner = none := by
    by_contra hsome
    have hvalue := hinv'.word
    rw [if_neg hsome, hword, hfree] at hvalue
    exact absurd hvalue (by decide)
  subst hnone'
  obtain ⟨n, hn⟩ := acquiring_takes hinv' ⟨(congrFun hroles k).trans hrole, hempty, hword.trans hfree⟩
  refine ⟨m, n, ?_⟩
  rw [run_append]
  exact hn

def pairCode : Code := fun a =>
  if a.toNat < 0x200 then
    oneByte 0x100 [.loadMem .ecx .esp 4, .movImm .eax 1, .xchg .eax .ecx, .test .eax .eax,
      .jz 0x109, .pause, .cmpMem .ecx 0, .jne 0x105, .jmp 0x101, .ret] a
  else oneByte 0x200 [.loadMem .eax .esp 4, .storeImm .eax 0, .ret] a

theorem pair_acquire_code :
    pairCode 0x100 = some (.loadMem .ecx .esp 4, 0x101) ∧
    pairCode 0x101 = some (.movImm .eax 1, 0x102) ∧
    pairCode 0x102 = some (.xchg .eax .ecx, 0x103) ∧
    pairCode 0x103 = some (.test .eax .eax, 0x104) ∧ pairCode 0x104 = some (.jz 0x109, 0x105) ∧
    pairCode 0x105 = some (.pause, 0x106) ∧ pairCode 0x106 = some (.cmpMem .ecx 0, 0x107) ∧
    pairCode 0x107 = some (.jne 0x105, 0x108) ∧ pairCode 0x108 = some (.jmp 0x101, 0x109) ∧
    pairCode 0x109 = some (.ret, 0x10A) := by decide +kernel

theorem pair_release_code :
    pairCode 0x200 = some (.loadMem .eax .esp 4, 0x201) ∧
    pairCode 0x201 = some (.storeImm .eax 0, 0x202) ∧ pairCode 0x202 = some (.ret, 0x203) := by
  decide +kernel

def pairAcquire : SyncLockAcquire pairCode where
  entry := 0x100
  lockTry := 0x101
  exchange := 0x102
  test := 0x103
  branch := 0x104
  lockWait := 0x105
  compare := 0x106
  again := 0x107
  retry := 0x108
  lockAcquired := 0x109
  stop := 0x10A
  entry_code := pair_acquire_code.1
  try_code := pair_acquire_code.2.1
  exchange_code := pair_acquire_code.2.2.1
  test_code := pair_acquire_code.2.2.2.1
  branch_code := pair_acquire_code.2.2.2.2.1
  wait_code := pair_acquire_code.2.2.2.2.2.1
  compare_code := pair_acquire_code.2.2.2.2.2.2.1
  again_code := pair_acquire_code.2.2.2.2.2.2.2.1
  retry_code := pair_acquire_code.2.2.2.2.2.2.2.2.1
  acquired_code := pair_acquire_code.2.2.2.2.2.2.2.2.2

def pairRelease : SyncLockRelease pairCode where
  entry := 0x200
  clear := 0x201
  leave := 0x202
  stop := 0x203
  entry_code := pair_release_code.1
  clear_code := pair_release_code.2.1
  leave_code := pair_release_code.2.2

def pairStack (i : Bool) (x : UInt32) : Prop :=
  if i then 0x3000 ≤ x.toNat ∧ x.toNat < 0x4000 else 0x2000 ≤ x.toNat ∧ x.toNat < 0x3000

def pairGuarded (x : UInt32) : Prop := 0x1800 ≤ x.toNat ∧ x.toNat < 0x1900

theorem pair_word (x : UInt32) (h : Covers 0x1000 x) : x.toNat < 0x1004 :=
  (covers_range 0x1000 x (by decide) h).2

theorem pair_stacks (i j : Bool) (x : UInt32) (h : pairStack i x) (h' : pairStack j x) : i = j := by
  unfold pairStack at h h'
  cases i <;> cases j <;> simp only [if_true] at h h' ⊢ <;> simp at h h' ⊢ <;> omega

theorem pair_word_stack (i : Bool) (x : UInt32) (h : Covers 0x1000 x) : ¬ pairStack i x := by
  have hlow := pair_word x h
  unfold pairStack
  split_ifs <;> omega

theorem pair_word_guarded (x : UInt32) (h : Covers 0x1000 x) : ¬ pairGuarded x := by
  have hlow := pair_word x h
  unfold pairGuarded
  omega

def pairLock : Lock pairCode Bool where
  word := 0x1000
  acquire := pairAcquire
  release := pairRelease
  stack := pairStack
  guarded := pairGuarded
  stack_apart := pair_stacks
  word_stack := pair_word_stack
  word_guarded := pair_word_guarded

def pairCore (eip esp : UInt32) : Core := ⟨fun _ => esp, eip, 8, 2⟩

def pairStart : System Bool where
  shared := ⟨fun _ => pairCore 0 0, fun _ => [], fun _ => 0⟩
  role := fun _ => .outside
  latest := fun _ => 0

def pairEsp (i : Bool) : UInt32 := if i then 0x3000 else 0x2000

def pairArgument (i : Bool) : List Store := [(pairEsp i + 4, 0x1000)]

def callsAcquire (i : Bool) : List (LockEvent Bool) :=
  [.client i (pairCore 0x100 (pairEsp i)) (pairArgument i), .acquire i]

def acquires (i : Bool) : List (LockEvent Bool) :=
  callsAcquire i ++ [.execute i, .execute i, .flush i, .execute i, .execute i, .execute i,
    .execute i]

def releases (i : Bool) : List (LockEvent Bool) :=
  [.client i (pairCore 0x200 (pairEsp i)) [(0x1800, 7)], .release i, .execute i, .execute i,
    .execute i, .flush i, .flush i]

def pairEvents : List (LockEvent Bool) := acquires false ++ releases false ++ acquires true

theorem pair_start : Start pairLock pairStart where
  roles := fun _ => rfl
  buffers := fun _ => rfl
  word := by decide +kernel
  latest := rfl

theorem pair_own (s : System Bool) (i : Bool) (core : Core) (a v : UInt32)
    (h : ∀ x, Covers a x → pairStack i x) :
    Disciplined pairLock s (.client i core [(a, v)]) := by
  intro st hst x hx
  rw [List.mem_singleton.mp hst] at hx
  have hown := h x hx
  refine ⟨fun hword => pair_word_stack i x hword hown, ?_, ?_⟩
  · exact fun j hj hstack => hj (pair_stacks j i x hstack hown)
  · intro hguarded
    obtain ⟨-, hhigh⟩ : pairGuarded x := hguarded
    unfold pairStack at hown
    split_ifs at hown <;> omega

theorem pair_guarded (s : System Bool) (i : Bool) (core : Core) (v : UInt32)
    (h : s.role i = .holding) : Disciplined pairLock s (.client i core [(0x1800, v)]) := by
  intro st hst x hx
  rw [List.mem_singleton.mp hst] at hx
  obtain ⟨hlow, hhigh⟩ := covers_range 0x1800 x (by decide) hx
  have hfixed : UInt32.toNat 0x1800 = 0x1800 := rfl
  refine ⟨?_, ?_, fun _ => h⟩
  · intro hword
    have hsmall := pair_word x hword
    omega
  · intro j _ hstack
    obtain hstack : pairStack j x := hstack
    unfold pairStack at hstack
    split_ifs at hstack <;> omega

theorem pair_argument (i : Bool) (x : UInt32) (h : Covers (pairEsp i + 4) x) : pairStack i x := by
  unfold pairStack
  cases i with
  | true =>
    have hrange := covers_range 0x3004 x (by decide) h
    have hfixed : UInt32.toNat 0x3004 = 0x3004 := rfl
    rw [if_pos rfl]
    omega
  | false =>
    have hrange := covers_range 0x2004 x (by decide) h
    have hfixed : UInt32.toNat 0x2004 = 0x2004 := rfl
    rw [if_neg Bool.false_ne_true]
    omega

theorem acquires_disciplined (s : System Bool) (i : Bool) (h : s.role i = .outside) :
    Along (System.step plainFeatures pairCode) (Disciplined pairLock) s (acquires i) := by
  have hstep : (System.step plainFeatures pairCode) s (.client i (pairCore 0x100 (pairEsp i)) (pairArgument i)) =
      ⟨(s.shared.setCore i (pairCore 0x100 (pairEsp i))).put i (pairArgument i), s.role,
        s.latest⟩ := by
    unfold System.step
    simp only [h]
  refine ⟨pair_own s i _ _ _ (pair_argument i), ?_, trivial, trivial, trivial, trivial, trivial,
    trivial, trivial, trivial⟩
  rw [hstep]
  have hcore : ((s.shared.setCore i (pairCore 0x100 (pairEsp i))).put i
      (pairArgument i)).cores i = pairCore 0x100 (pairEsp i) := setCore_same s.shared i _
  refine ⟨congrArg Core.eip hcore, ?_, ?_⟩
  · show load (Shared.view _ i) (Core.regs (Shared.cores _ i) .esp + 4) = 0x1000
    rw [hcore, put_view]
    exact load_store _ _ _
  · show ∀ x, Covers (Core.regs (Shared.cores _ i) .esp + 4) x → pairStack i x
    rw [hcore]
    exact pair_argument i

theorem releases_disciplined (s : System Bool) (i : Bool) (h : s.role i = .holding)
    (hargument : load (s.shared.view i) (pairEsp i + 4) = 0x1000) :
    Along (System.step plainFeatures pairCode) (Disciplined pairLock) s (releases i) := by
  have hstep : (System.step plainFeatures pairCode) s (.client i (pairCore 0x200 (pairEsp i)) [(0x1800, 7)]) =
      ⟨(s.shared.setCore i (pairCore 0x200 (pairEsp i))).put i [(0x1800, 7)], s.role,
        apply s.latest [(0x1800, 7)]⟩ := by
    unfold System.step
    simp only [h]
  refine ⟨pair_guarded s i _ _ h, ?_, trivial, trivial, trivial, trivial, trivial, trivial⟩
  rw [hstep]
  have hcore : ((s.shared.setCore i (pairCore 0x200 (pairEsp i))).put i
      [(0x1800, 7)]).cores i = pairCore 0x200 (pairEsp i) := setCore_same s.shared i _
  have hapart : Apart 0x1800 (pairEsp i + 4) := by
    cases i with
    | true => exact apart_of_le 0x1800 0x3004 (by decide) (by decide)
    | false => exact apart_of_le 0x1800 0x2004 (by decide) (by decide)
  refine ⟨congrArg Core.eip hcore, ?_, ?_⟩
  · show load (Shared.view _ i) (Core.regs (Shared.cores _ i) .esp + 4) = 0x1000
    rw [hcore, put_view]
    exact (load_store_apart _ _ _ 7 hapart).trans hargument
  · show ∀ x, Covers (Core.regs (Shared.cores _ i) .esp + 4) x → pairStack i x
    rw [hcore]
    exact pair_argument i

def pairRun (es : List (LockEvent Bool)) : System Bool :=
  run (System.step plainFeatures pairCode) pairStart es

theorem pair_roles :
    (pairRun (acquires false)).role false = .holding ∧
    load ((pairRun (acquires false)).shared.view false) (pairEsp false + 4) = 0x1000 ∧
    (pairRun (acquires false ++ releases false)).role true = .outside ∧
    (pairRun pairEvents).role true = .holding := by
  decide +kernel

theorem pair_disciplined :
    Along (System.step plainFeatures pairCode) (Disciplined pairLock) pairStart pairEvents := by
  obtain ⟨hholding, hargument, houtside, -⟩ := pair_roles
  refine (along_append _ _ _ _ _).mpr ⟨(along_append _ _ _ _ _).mpr ⟨?_, ?_⟩, ?_⟩
  · exact acquires_disciplined pairStart false rfl
  · exact releases_disciplined _ false hholding hargument
  · exact acquires_disciplined _ true houtside

theorem one_holder_pair : (pairRun pairEvents).role false ≠ .holding := by
  have hholding := pair_roles.2.2.2
  have hone := one_holder (L := pairLock) (p := plainFeatures) pairEvents pair_start
    pair_disciplined true false Bool.false_ne_true
  rw [← pairRun] at hone
  exact hone hholding

theorem pair_first_guarded : pairLock.guarded 0x1800 := by
  show 0x1800 ≤ UInt32.toNat 0x1800 ∧ UInt32.toNat 0x1800 < 0x1900
  decide

theorem holder_sees_latest_pair : (pairRun pairEvents).shared.view true 0x1800 = 7 := by
  have hseven : (pairRun pairEvents).latest 0x1800 = 7 := by decide +kernel
  have hlatest := holder_sees_latest (L := pairLock) (p := plainFeatures) pairEvents pair_start
    pair_disciplined true
  rw [← pairRun] at hlatest
  exact (hlatest pair_roles.2.2.2 0x1800 pair_first_guarded).trans hseven

theorem free_lock_taken_pair :
    ∃ m n, (pairRun (callsAcquire true ++ List.replicate m (.flush true) ++
      List.replicate n (.execute true))).role true = .holding := by
  have hwaits : (pairRun (callsAcquire true)).role true = .acquiring ∧
      load (pairRun (callsAcquire true)).shared.memory 0x1000 = 0 := by decide +kernel
  have hallowed := (along_append _ _ pairStart _ _).mp (acquires_disciplined pairStart true rfl)
  exact free_lock_taken (L := pairLock) (p := plainFeatures) (callsAcquire true) pair_start
    hallowed.1 hwaits.1 hwaits.2

end Hnmos.SpinLock
