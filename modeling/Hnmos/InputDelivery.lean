import Mathlib
import Hnmos.InterruptService
import Hnmos.RingBuffer

/-!
# Every byte reaches its driver

The interrupt machinery serves the devices like a plain queue: the drivers get
the bytes of the PS/2 controller and of the port in the order of their coming,
each from its own device, and the main loop never goes to sleep before what
they got has been seen to. Left alone by the devices the machine comes to rest
with nothing undelivered. A byte that was in the output buffer when the
controllers were programmed raises no request: it stays there, and shuts the
keyboard and the mouse out.
-/

set_option autoImplicit false

namespace Hnmos.InputDelivery
open Hnmos.InterruptController Hnmos.InterruptService Hnmos.InterruptStub Hnmos.RingBuffer
open Hnmos.Transition

def input : Taken → List (Source × UInt8)
  | .scancode value => [(.keyboard, value)]
  | .mouseByte value => [(.mouse, value)]
  | _ => []

def captured : Taken → List UInt8
  | .receive bytes => bytes
  | .pass bytes => bytes
  | _ => []

def Passed (log : List Taken) : Prop := ∃ before bytes, log = before ++ [.pass bytes]

structure Recorded (b : Board) : Prop where
  given : b.log.flatMap input ++ b.output.toList = b.given
  rested : b.cpu = .passed ∨ b.cpu = .halted → Passed b.log

theorem setLine_free (p : Pair) (slave : Bool) (n : Fin 8) (high : Bool) (h : Free p) :
    Free (p.setLine slave n high) :=
  ⟨(setLine_sides p slave false n high).2.trans h.master,
    (setLine_sides p slave true n high).2.trans h.slave⟩

theorem drive_free (b : Board) (h : Free b.pair) : Free b.drive.pair := by
  rw [drive_pair]
  exact setLine_free _ _ _ _ (setLine_free _ _ _ _ (setLine_free _ _ _ _ h))

theorem remapped_free (p : Pair) (h : Free p) : Free (writes p picRemapInputIrqs) where
  master := (congrArg Controller.service (remapped_master p)).trans h.master
  slave := (congrArg Controller.service (remapped_slave p)).trans h.slave

theorem remapped_level (p : Pair) (irq : Irq) :
    level (writes p picRemapInputIrqs) irq = level p irq := by
  have hmaster := congrArg Controller.level (remapped_master p)
  have hslave := congrArg Controller.level (remapped_slave p)
  have hother (n : Fin 8) (hn : n ≠ 2) :
      (writes p picRemapInputIrqs).master.level n = p.master.level n := by
    have h := congrFun hmaster n
    simpa [forget, hn] using h
  cases irq with
  | keyboard => exact hother 1 (by decide)
  | aiSerial => exact hother 3 (by decide)
  | mouse => exact congrFun hslave 4

theorem remapped_edge (p : Pair) (irq : Irq) :
    edge (writes p picRemapInputIrqs) irq = false := by
  have hmaster := congrArg Controller.edge (remapped_master p)
  have hslave := congrArg Controller.edge (remapped_slave p)
  have hother (n : Fin 8) (hn : n ≠ 2) : (writes p picRemapInputIrqs).master.edge n = false := by
    have h := congrFun hmaster n
    simpa [forget, hn] using h
  cases irq with
  | keyboard => exact hother 1 (by decide)
  | aiSerial => exact hother 3 (by decide)
  | mouse => exact congrFun hslave 4

section
variable (h : Handlers) (p : Pair) (output : Option (Source × UInt8)) (fifo : List UInt8)
  (timedOut : Bool)

theorem start_cpu : (Board.start h p output fifo timedOut).cpu = .passing := rfl

theorem start_asks (irq : Irq) : (Board.start h p output fifo timedOut).asks irq =
    (Board.unprogrammed h p output fifo timedOut).asks irq := by
  cases irq <;> rfl

theorem start_sound (hfree : Free p) : Sound h (Board.start h p output fifo timedOut) := by
  have hidle := remapped_free _ (drive_free (Board.unprogrammed h p output fifo timedOut) hfree)
  refine ⟨rfl, remapped_wired _, ?_, ⟨hidle.master, hidle.slave⟩, trivial, ?_⟩
  · intro irq
    rw [start_asks]
    exact (remapped_level _ irq).trans (drive_level _ irq)
  · intro irq left hserving
    rw [start_cpu] at hserving
    exact absurd hserving (by simp)

theorem start_recorded : Recorded (Board.start h p output fifo timedOut) where
  given := rfl
  rested := by
    rw [start_cpu]
    simp

theorem start_edge (irq : Irq) : edge (Board.start h p output fifo timedOut).pair irq = false :=
  remapped_edge _ irq

end

theorem drive_recorded (b : Board) (h : Recorded b) : Recorded b.drive :=
  ⟨h.given, h.rested⟩

theorem interrupt_recorded (h : Handlers) (b : Board) (hb : Recorded b) :
    Recorded (b.interrupt h) := by
  unfold Board.interrupt
  split
  · exact ⟨hb.given, by simp⟩
  · exact ⟨hb.given, by simp⟩

theorem capture_recorded (b : Board) (taken : List UInt8 → Taken) (cpu : Cpu) (hb : Recorded b)
    (hinput : ∀ bytes, input (taken bytes) = [])
    (hrested : cpu = .passed ∨ cpu = .halted → ∃ bytes, taken b.fifo = .pass bytes) :
    Recorded { b.capture taken with cpu := cpu } := by
  refine ⟨?_, ?_⟩
  · show (b.log ++ [taken b.fifo]).flatMap input ++ b.output.toList = b.given
    rw [List.flatMap_append, List.flatMap_singleton, hinput, List.append_nil, hb.given]
  · intro hcpu
    obtain ⟨bytes, htaken⟩ := hrested hcpu
    exact ⟨b.log, bytes, congrArg (fun t => b.log ++ [t]) htaken⟩

theorem readOutput_recorded (b : Board) (taken : Taken) (source : Source) (value : UInt8)
    (cpu : Cpu) (hb : Recorded b) (houtput : b.output = some (source, value))
    (hinput : input taken = [(source, value)]) (hcpu : ¬ (cpu = .passed ∨ cpu = .halted)) :
    Recorded { b.readOutput taken with cpu := cpu } := by
  refine ⟨?_, fun hrests => absurd hrests hcpu⟩
  show (b.log ++ [taken]).flatMap input ++ [] = b.given
  rw [← hb.given, List.flatMap_append, List.flatMap_singleton, hinput, List.append_nil, houtput]
  rfl

theorem handle_recorded (h : Handlers) (b : Board) (irq : Irq) (left : List Write)
    (hsound : Sound h b) (hb : Recorded b) (hcpu : b.cpu = .serving irq false left) :
    Recorded { b.handle irq with cpu := .serving irq true left } := by
  have hasks := hsound.announced irq left hcpu
  cases irq with
  | keyboard =>
    obtain ⟨value, houtput, hhandle⟩ := handle_keyboard b hasks
    rw [hhandle]
    exact readOutput_recorded b _ .keyboard value _ hb houtput rfl (by simp)
  | mouse =>
    obtain ⟨value, houtput, hhandle⟩ := handle_mouse b hasks
    rw [hhandle]
    exact readOutput_recorded b _ .mouse value _ hb houtput rfl (by simp)
  | aiSerial =>
    exact capture_recorded b .receive _ hb (fun _ => rfl) (by simp)

theorem tick_recorded (h : Handlers) (b : Board) (listening : Bool) (hsound : Sound h b)
    (hb : Recorded b) : Recorded (b.tick h listening) := by
  unfold Board.tick
  cases hcpu : b.cpu with
  | awake =>
    simp only
    split_ifs
    · exact interrupt_recorded h b hb
    · exact ⟨hb.given, by simp⟩
  | passing =>
    simp only
    split_ifs
    · exact capture_recorded b .pass .passed hb (fun _ => rfl) fun _ => ⟨_, rfl⟩
    · refine ⟨?_, fun _ => ⟨b.log, [], rfl⟩⟩
      rw [← hb.given, List.flatMap_append]
      simp [input]
  | passed => exact ⟨hb.given, fun _ => hb.rested (.inl hcpu)⟩
  | halted =>
    simp only
    split_ifs
    · exact interrupt_recorded h b hb
    · exact hb
  | faulted => exact hb
  | serving irq read left =>
    cases read with
    | false => exact handle_recorded h b irq left hsound hb hcpu
    | true =>
      cases left with
      | nil => exact ⟨hb.given, by simp⟩
      | cons w left => exact ⟨hb.given, by simp⟩

theorem step_recorded (h : Handlers) (b : Board) (e : BoardEvent) (hsound : Sound h b)
    (hb : Recorded b) : Recorded (b.step h e) := by
  cases e with
  | present source value =>
    rw [Board.step]
    split_ifs with hnone
    · have hgiven := hb.given
      rw [hnone, Option.toList_none, List.append_nil] at hgiven
      exact drive_recorded _ ⟨congrArg (· ++ [(source, value)]) hgiven, hb.rested⟩
    · exact hb
  | arrive value =>
    rw [Board.step]
    split_ifs
    · exact drive_recorded _ ⟨hb.given, hb.rested⟩
    · exact hb
  | timeout =>
    rw [Board.step]
    split_ifs
    · exact hb
    · exact drive_recorded _ ⟨hb.given, hb.rested⟩
  | other slave n high =>
    rw [Board.step]
    split_ifs
    · exact hb
    · exact ⟨hb.given, hb.rested⟩
  | tick listening => exact tick_recorded h b listening hsound hb

def fromPort (b : Board) : List UInt8 := b.log.flatMap captured ++ b.fifo

/-- A byte that comes to the port is lost if the receive buffer has its sixteen
bytes. -/
def arrivals (b : Board) : BoardEvent → List (UInt8 × Bool)
  | .arrive value => [(value, decide (b.fifo.length < 16))]
  | _ => []

theorem capture_port (b : Board) (taken : List UInt8 → Taken)
    (hcaptured : ∀ bytes, captured (taken bytes) = bytes) :
    fromPort (b.capture taken) = fromPort b := by
  show (b.log ++ [taken b.fifo]).flatMap captured ++ [] = b.log.flatMap captured ++ b.fifo
  rw [List.flatMap_append, List.flatMap_singleton, hcaptured, List.append_nil]

theorem readOutput_port (b : Board) (taken : Taken) (hcaptured : captured taken = []) :
    fromPort (b.readOutput taken) = fromPort b := by
  show (b.log ++ [taken]).flatMap captured ++ b.fifo = b.log.flatMap captured ++ b.fifo
  rw [List.flatMap_append, List.flatMap_singleton, hcaptured, List.append_nil]

theorem handle_port (b : Board) (irq : Irq) : fromPort (b.handle irq) = fromPort b := by
  cases irq with
  | keyboard =>
    cases houtput : b.output with
    | none => rw [Board.handle, houtput]
    | some held =>
      rw [Board.handle, houtput]
      exact readOutput_port b (.scancode held.2) rfl
  | mouse =>
    rw [Board.handle]
    split
    · exact readOutput_port b (.mouseByte _) rfl
    · rfl
  | aiSerial => exact capture_port b .receive fun _ => rfl

theorem interrupt_port (h : Handlers) (b : Board) : fromPort (b.interrupt h) = fromPort b := by
  unfold Board.interrupt
  split <;> rfl

theorem tick_port (h : Handlers) (b : Board) (listening : Bool) :
    fromPort (b.tick h listening) = fromPort b := by
  unfold Board.tick
  cases b.cpu with
  | awake =>
    simp only
    split_ifs
    · exact interrupt_port h b
    · rfl
  | passing =>
    simp only
    split_ifs
    · exact capture_port b .pass fun _ => rfl
    · show (b.log ++ [Taken.pass []]).flatMap captured ++ b.fifo = b.log.flatMap captured ++ b.fifo
      rw [List.flatMap_append, List.flatMap_singleton, captured, List.append_nil]
  | passed => rfl
  | halted =>
    simp only
    split_ifs
    · exact interrupt_port h b
    · rfl
  | faulted => rfl
  | serving irq read left =>
    cases read with
    | false => exact handle_port b irq
    | true => cases left <;> rfl

theorem step_port (h : Handlers) (b : Board) (e : BoardEvent) :
    fromPort (b.step h e) = fromPort b ++ stored (arrivals b e) := by
  cases e with
  | present source value =>
    refine Eq.trans ?_ (List.append_nil _).symm
    rw [Board.step]
    split_ifs <;> rfl
  | arrive value =>
    rw [Board.step, arrivals]
    split_ifs with hroom
    · rw [decide_eq_true hroom]
      exact (List.append_assoc _ _ _).symm
    · rw [decide_eq_false hroom]
      exact (List.append_nil _).symm
  | timeout =>
    refine Eq.trans ?_ (List.append_nil _).symm
    rw [Board.step]
    split_ifs <;> rfl
  | other slave n high =>
    refine Eq.trans ?_ (List.append_nil _).symm
    rw [Board.step]
    split_ifs <;> rfl
  | tick listening => exact (tick_port h b listening).trans (List.append_nil _).symm

theorem run_port (h : Handlers) (b : Board) (es : List BoardEvent) :
    fromPort (run (Board.step h) b es) =
      fromPort b ++ stored (translate (Board.step h) arrivals b es) := by
  induction es generalizing b with
  | nil => exact (List.append_nil _).symm
  | cons e es ih => rw [run_cons, ih, step_port, translate_cons, stored_append, List.append_assoc]

/-- The controllers have seen a device begin to ask, or its handler is at
work. -/
def Live (irq : Irq) (b : Board) : Prop :=
  b.asks irq = true → edge b.pair irq = true ∨ ∃ left, b.cpu = .serving irq false left

theorem drive_asks (b : Board) (irq : Irq) : b.drive.asks irq = b.asks irq := by
  cases irq <;> rfl

theorem drive_live (irq : Irq) (b c : Board) (hlevel : level b.pair irq = b.asks irq)
    (hb : Live irq b) (hpair : c.pair = b.pair)
    (hkept : ∀ left, b.cpu = .serving irq false left →
      c.cpu = .serving irq false left ∨ c.asks irq = false) : Live irq c.drive := by
  intro hasks
  rw [drive_asks] at hasks
  rw [drive_edge, hpair, hlevel, hasks]
  cases hbefore : b.asks irq with
  | false => exact .inl (by simp)
  | true =>
    rcases hb hbefore with hedge | ⟨left, hserving⟩
    · exact .inl (by rw [hedge]; rfl)
    · rcases hkept left hserving with hstill | hquiet
      · exact .inr ⟨left, hstill⟩
      · exact absurd (hquiet.symm.trans hasks) Bool.false_ne_true

theorem same_live (irq : Irq) (b c : Board) (hb : Live irq b) (hasks : c.asks irq = b.asks irq)
    (hedge : edge c.pair irq = edge b.pair irq)
    (hserving : ∀ left, b.cpu ≠ .serving irq false left) : Live irq c := by
  intro h
  rw [hasks] at h
  rcases hb h with hseen | ⟨left, hleft⟩
  · exact .inl (hedge.trans hseen)
  · exact absurd hleft (hserving left)

theorem interrupt_live (h : Handlers) (irq : Irq) (b : Board) (hstubs : h.stubs.Nodup)
    (hsound : Sound h b) (hb : Live irq b) (hmain : ∀ irq read left, b.cpu ≠ .serving irq read left)
    (hasserts : b.pair.asserts = true) : Live irq (b.interrupt h) := by
  obtain ⟨taken, -, -, haccepted, hnext⟩ := interrupt_enters h b hstubs hsound hmain hasserts
  rw [hnext]
  by_cases hirq : irq = taken
  · intro _
    exact .inr ⟨_, by rw [hirq]⟩
  · apply same_live irq b _ hb
    · cases irq <;> rfl
    · exact (haccepted.edge irq).trans (if_neg hirq)
    · exact fun left => hmain irq false left

theorem readOutput_quiet (b : Board) (taken : Taken) (irq : Irq) (hserial : irq ≠ .aiSerial) :
    ({ b with output := none, log := b.log ++ [taken] } : Board).asks irq = false := by
  cases irq with
  | aiSerial => exact absurd rfl hserial
  | keyboard => simp [Board.asks, Board.holds]
  | mouse => simp [Board.asks, Board.holds]

theorem handle_live (h : Handlers) (irq taken : Irq) (b : Board) (left : List Write)
    (hsound : Sound h b) (hb : Live irq b) (hcpu : b.cpu = .serving taken false left) :
    Live irq { b.handle taken with cpu := .serving taken true left } := by
  have hasks := hsound.announced taken left hcpu
  have hread (t : Taken) (hserial : taken ≠ .aiSerial) :
      Live irq { b.readOutput t with cpu := .serving taken true left } := by
    apply drive_live irq b { b with
      output := none, log := b.log ++ [t], cpu := .serving taken true left } (hsound.level irq) hb rfl
    intro l hserving
    obtain ⟨rfl, -⟩ : taken = irq ∧ left = l := by simpa [hcpu] using hserving
    exact .inr (readOutput_quiet b t taken hserial)
  cases taken with
  | keyboard =>
    obtain ⟨value, -, hhandle⟩ := handle_keyboard b hasks
    rw [hhandle]
    exact hread _ (by decide)
  | mouse =>
    obtain ⟨value, -, hhandle⟩ := handle_mouse b hasks
    rw [hhandle]
    exact hread _ (by decide)
  | aiSerial =>
    apply drive_live irq b { b with
      fifo := [], timedOut := false, log := b.log ++ [.receive b.fifo]
      cpu := .serving .aiSerial true left } (hsound.level irq) hb rfl
    intro l hserving
    obtain ⟨rfl, -⟩ : Irq.aiSerial = irq ∧ left = l := by simpa [hcpu] using hserving
    exact .inr rfl

theorem tick_live (h : Handlers) (irq : Irq) (b : Board) (listening : Bool)
    (hstubs : h.stubs.Nodup) (hsound : Sound h b) (hb : Live irq b) :
    Live irq (b.tick h listening) := by
  unfold Board.tick
  cases hcpu : b.cpu with
  | awake =>
    simp only
    split_ifs with hasserts
    · exact interrupt_live h irq b hstubs hsound hb (by simp [hcpu]) hasserts
    · exact same_live irq b _ hb (by cases irq <;> rfl) rfl (by simp [hcpu])
  | passing =>
    simp only
    split_ifs
    · exact drive_live irq b { b with
        fifo := [], timedOut := false, log := b.log ++ [.pass b.fifo], cpu := .passed }
        (hsound.level irq) hb rfl (by simp [hcpu])
    · exact same_live irq b _ hb (by cases irq <;> rfl) rfl (by simp [hcpu])
  | passed => exact same_live irq b _ hb (by cases irq <;> rfl) rfl (by simp [hcpu])
  | halted =>
    simp only
    split_ifs with hasserts
    · exact interrupt_live h irq b hstubs hsound hb (by simp [hcpu]) hasserts
    · exact hb
  | faulted => exact hb
  | serving taken read left =>
    have hrunning := hsound.running
    have hserves := hsound.serves
    rw [hcpu] at hrunning hserves
    cases read with
    | false => exact handle_live h irq taken b left hsound hb hcpu
    | true =>
      cases left with
      | nil => exact same_live irq b _ hb (by cases irq <;> rfl) rfl (by simp [hcpu])
      | cons w left =>
        have huntouched :=
          (eoi_serves b.pair taken w left hsound.wired hrunning.1 hserves).2.2
        exact same_live irq b _ hb (by cases irq <;> rfl) (huntouched.edge irq) (by simp [hcpu])

theorem step_live (h : Handlers) (irq : Irq) (b : Board) (e : BoardEvent)
    (hstubs : h.stubs.Nodup) (hsound : Sound h b) (hb : Live irq b) : Live irq (b.step h e) := by
  cases e with
  | present source value =>
    rw [Board.step]
    split_ifs
    · exact drive_live irq b { b with
        output := some (source, value), given := b.given ++ [(source, value)] }
        (hsound.level irq) hb rfl fun left hserving => .inl hserving
    · exact hb
  | arrive value =>
    rw [Board.step]
    split_ifs
    · exact drive_live irq b { b with fifo := b.fifo ++ [value] }
        (hsound.level irq) hb rfl fun left hserving => .inl hserving
    · exact hb
  | timeout =>
    rw [Board.step]
    split_ifs
    · exact hb
    · exact drive_live irq b { b with timedOut := true } (hsound.level irq) hb rfl
        fun left hserving => .inl hserving
  | other slave n high =>
    rw [Board.step]
    split_ifs with hwired
    · exact hb
    · intro hasks
      rw [(other_untouched b.pair slave n high (Bool.eq_false_iff.mpr hwired)).edge irq]
      exact hb (by cases irq <;> exact hasks)
  | tick listening => exact tick_live h irq b listening hstubs hsound hb

def request (p : Pair) (irq : Irq) : Bool := level p irq && edge p irq

def requests (p : Pair) : ℕ :=
  (request p .keyboard).toNat + (request p .aiSerial).toNat + (request p .mouse).toNat

/-- The steps of the processor to the end of the loop without interrupts. -/
def work : Cpu → ℕ
  | .awake => 3
  | .passing => 2
  | .passed => 1
  | .halted => 0
  | .serving _ false left => left.length + 5
  | .serving _ true left => left.length + 4
  | .faulted => 0

def rank (b : Board) : ℕ := 8 * requests b.pair + work b.cpu

structure Resting (b : Board) : Prop where
  halted : b.cpu = .halted
  quiet : b.pair.asserts = false

theorem toNat_mono (a c : Bool) (h : a = true → c = true) : a.toNat ≤ c.toNat := by
  cases a with
  | false => exact Nat.zero_le _
  | true => rw [h rfl]

theorem requests_le (p q : Pair) (h : ∀ irq, request q irq = true → request p irq = true) :
    requests q ≤ requests p :=
  Nat.add_le_add (Nat.add_le_add (toNat_mono _ _ (h _)) (toNat_mono _ _ (h _)))
    (toNat_mono _ _ (h _))

theorem requests_accepted (p q : Pair) (irq : Irq) (haccepted : Accepted p irq q)
    (hrequest : request p irq = true) : requests p = requests q + 1 := by
  have hother (i : Irq) (hi : i ≠ irq) : request q i = request p i := by
    rw [request, request, haccepted.level, haccepted.edge, if_neg hi]
  have hthis : request q irq = false := by
    rw [request, haccepted.edge, if_pos rfl, Bool.and_false]
  unfold requests
  cases irq with
  | keyboard =>
    rw [hother .aiSerial (by decide), hother .mouse (by decide), hthis, hrequest]
    simp only [Bool.toNat_true, Bool.toNat_false]
    omega
  | aiSerial =>
    rw [hother .keyboard (by decide), hother .mouse (by decide), hthis, hrequest]
    simp only [Bool.toNat_true, Bool.toNat_false]
    omega
  | mouse =>
    rw [hother .keyboard (by decide), hother .aiSerial (by decide), hthis, hrequest]
    simp only [Bool.toNat_true, Bool.toNat_false]

theorem drive_requests (b c : Board) (hlevel : ∀ irq, level b.pair irq = b.asks irq)
    (hpair : c.pair = b.pair) (hasks : ∀ irq, c.asks irq = true → b.asks irq = true) :
    requests c.drive.pair ≤ requests b.pair := by
  apply requests_le
  intro irq hrequest
  rw [request, drive_level, drive_edge, hpair, hlevel, Bool.and_eq_true] at hrequest
  obtain ⟨hnow, hedge⟩ := hrequest
  have hbefore := hasks irq hnow
  rw [hbefore, Bool.not_true, Bool.and_false, Bool.or_false] at hedge
  rw [request, hlevel, hbefore, hedge]
  rfl

theorem readOutput_asks (b : Board) (taken : Taken) (irq : Irq)
    (h : ({ b with output := none, log := b.log ++ [taken] } : Board).asks irq = true) :
    b.asks irq = true := by
  cases irq with
  | keyboard => exact absurd h (by simp [Board.asks, Board.holds])
  | mouse => exact absurd h (by simp [Board.asks, Board.holds])
  | aiSerial => exact h

theorem capture_asks (b : Board) (taken : List UInt8 → Taken) (irq : Irq)
    (h : ({ b with fifo := [], timedOut := false, log := b.log ++ [taken b.fifo] } : Board).asks
      irq = true) : b.asks irq = true := by
  cases irq with
  | keyboard => exact h
  | mouse => exact h
  | aiSerial => exact absurd h (by simp [Board.asks, Board.serialRequests])

theorem readOutput_requests (h : Handlers) (b : Board) (taken : Taken) (hsound : Sound h b) :
    requests (b.readOutput taken).pair ≤ requests b.pair :=
  drive_requests b { b with output := none, log := b.log ++ [taken] } hsound.level rfl
    (readOutput_asks b taken)

theorem capture_requests (h : Handlers) (b : Board) (taken : List UInt8 → Taken)
    (hsound : Sound h b) : requests (b.capture taken).pair ≤ requests b.pair :=
  drive_requests b { b with fifo := [], timedOut := false, log := b.log ++ [taken b.fifo] }
    hsound.level rfl (capture_asks b taken)

theorem handle_requests (h : Handlers) (b : Board) (irq : Irq) (left : List Write)
    (hsound : Sound h b) (hcpu : b.cpu = .serving irq false left) :
    requests (b.handle irq).pair ≤ requests b.pair := by
  have hasks := hsound.announced irq left hcpu
  cases irq with
  | keyboard =>
    obtain ⟨value, -, hhandle⟩ := handle_keyboard b hasks
    rw [hhandle]
    exact readOutput_requests h b _ hsound
  | mouse =>
    obtain ⟨value, -, hhandle⟩ := handle_mouse b hasks
    rw [hhandle]
    exact readOutput_requests h b _ hsound
  | aiSerial => exact capture_requests h b .receive hsound

theorem interrupt_rank (h : Handlers) (b : Board) (hstubs : h.stubs.Nodup) (hsound : Sound h b)
    (hmain : ∀ irq read left, b.cpu ≠ .serving irq read left) (hasserts : b.pair.asserts = true) :
    rank (b.interrupt h) < rank b := by
  obtain ⟨irq, hasks, hedge, haccepted, hnext⟩ := interrupt_enters h b hstubs hsound hmain hasserts
  have hrequest : request b.pair irq = true := by
    rw [request, hsound.level, hasks, hedge]
    rfl
  have hless := requests_accepted _ _ irq haccepted hrequest
  have hleft : (picSendEoi irq.number).length ≤ 2 := by cases irq <;> decide
  rw [hnext, rank, rank, hless]
  simp only [work]
  omega

theorem rank_lt (b c : Board) (less : ℕ) (hrequests : requests c.pair ≤ requests b.pair)
    (hwork : work c.cpu + (less + 1) = work b.cpu) : rank c < rank b := by
  unfold rank
  omega

/-- Every step of the processor brings it nearer to its rest. -/
theorem tick_rank (h : Handlers) (b : Board) (listening : Bool) (hstubs : h.stubs.Nodup)
    (hsound : Sound h b) : rank (b.tick h listening) < rank b ∨ Resting b := by
  unfold Board.tick
  cases hcpu : b.cpu with
  | awake =>
    left
    simp only
    split_ifs with hasserts
    · exact interrupt_rank h b hstubs hsound (by simp [hcpu]) hasserts
    · exact rank_lt b { b with cpu := .passing } 0 le_rfl (by rw [hcpu]; rfl)
  | passing =>
    left
    simp only
    split_ifs
    · exact rank_lt b { b.capture .pass with cpu := .passed } 0 (capture_requests h b .pass hsound)
        (by rw [hcpu]; rfl)
    · exact rank_lt b { b with log := b.log ++ [.pass []], cpu := .passed } 0 le_rfl
        (by rw [hcpu]; rfl)
  | passed =>
    left
    exact rank_lt b { b with cpu := .halted } 0 le_rfl (by rw [hcpu]; rfl)
  | halted =>
    simp only
    split_ifs with hasserts
    · exact .inl (interrupt_rank h b hstubs hsound (by simp [hcpu]) hasserts)
    · exact .inr ⟨hcpu, Bool.eq_false_iff.mpr hasserts⟩
  | faulted =>
    have hrunning := hsound.running
    rw [hcpu] at hrunning
    exact hrunning.elim
  | serving irq read left =>
    have hrunning := hsound.running
    have hserves := hsound.serves
    rw [hcpu] at hrunning hserves
    left
    cases read with
    | false =>
      exact rank_lt b { b.handle irq with cpu := .serving irq true left } 0
        (handle_requests h b irq left hsound hcpu) (by rw [hcpu]; rfl)
    | true =>
      cases left with
      | nil => exact rank_lt b { b with cpu := .awake } 0 le_rfl (by rw [hcpu]; rfl)
      | cons w left =>
        have huntouched :=
          (eoi_serves b.pair irq w left hsound.wired hrunning.1 hserves).2.2
        refine rank_lt b { b with
          pair := b.pair.write w.1 w.2, cpu := .serving irq true left } 0 ?_ ?_
        · apply requests_le
          intro i hi
          rwa [request, huntouched.level, huntouched.edge] at hi
        · rw [hcpu]
          simp only [work, List.length_cons]

theorem tick_resting (h : Handlers) (b : Board) (listening : Bool) (hb : Resting b) :
    b.tick h listening = b := by
  unfold Board.tick
  rw [hb.halted]
  exact if_neg (by rw [hb.quiet]; exact Bool.false_ne_true)

theorem work_le (h : Handlers) (b : Board) (hsound : Sound h b) : work b.cpu ≤ 7 := by
  have hrunning := hsound.running
  cases hcpu : b.cpu with
  | serving irq read left =>
    rw [hcpu] at hrunning
    have hleft := hrunning.1.length_le
    have hall : (picSendEoi irq.number).length ≤ 2 := by cases irq <;> decide
    cases read <;> simp only [work] <;> omega
  | _ => simp [work]

theorem rank_le (h : Handlers) (b : Board) (hsound : Sound h b) : rank b ≤ 31 := by
  have hwork := work_le h b hsound
  have hone (a : Bool) : a.toNat ≤ 1 := Bool.toNat_le a
  have h1 := hone (request b.pair .keyboard)
  have h3 := hone (request b.pair .aiSerial)
  have h12 := hone (request b.pair .mouse)
  unfold rank requests
  omega

def alone (ticks : List Bool) : List BoardEvent := ticks.map .tick

theorem resting_stays (h : Handlers) (b : Board) (ticks : List Bool) (hb : Resting b) :
    run (Board.step h) b (alone ticks) = b := by
  induction ticks with
  | nil => rfl
  | cons listening ticks ih =>
    have hsame : b.step h (.tick listening) = b := tick_resting h b listening hb
    rw [alone, List.map_cons, run_cons, hsame]
    exact ih

theorem ticks_rest (h : Handlers) (b : Board) (ticks : List Bool) (hstubs : h.stubs.Nodup)
    (hsound : Sound h b) (hrank : rank b < ticks.length) :
    Resting (run (Board.step h) b (alone ticks)) := by
  induction ticks generalizing b with
  | nil => exact absurd hrank (Nat.not_lt_zero _)
  | cons listening ticks ih =>
    rcases tick_rank h b listening hstubs hsound with hless | hresting
    · apply ih _ (tick_sound h b listening hstubs hsound)
      rw [List.length_cons] at hrank
      exact Nat.lt_of_lt_of_le hless (Nat.le_of_lt_succ hrank)
    · rw [resting_stays h b _ hresting]
      exact hresting

def irqOf : Source → Irq
  | .keyboard => .keyboard
  | .mouse => .mouse

theorem asks_irqOf (b : Board) (source : Source) : b.asks (irqOf source) = b.holds source := by
  cases source <;> rfl

/-- The output buffer holds a byte whose request was forgotten. -/
structure Stuck (held : Source × UInt8) (b : Board) : Prop where
  output : b.output = some held
  edge : edge b.pair (irqOf held.1) = false
  serial : ∀ irq left, b.cpu = .serving irq false left → irq = .aiSerial
  given : b.given = [held]

theorem stuck_asks (held : Source × UInt8) (b : Board) (h : b.output = some held) :
    b.asks (irqOf held.1) = true := by
  rw [asks_irqOf]
  exact (holds_iff b held.1).mpr ⟨held.2, h⟩

theorem stuck_serial (held : Source × UInt8) (b : Board) (irq : Irq) (hb : Stuck held b)
    (hasks : b.asks irq = true) (hedge : edge b.pair irq = true) : irq = .aiSerial := by
  by_contra hother
  have hsame : irq = irqOf held.1 := by
    cases irq with
    | aiSerial => exact absurd rfl hother
    | keyboard =>
      obtain ⟨value, houtput⟩ := (holds_iff b .keyboard).mp hasks
      rw [← Option.some.inj (houtput.symm.trans hb.output)]
      rfl
    | mouse =>
      obtain ⟨value, houtput⟩ := (holds_iff b .mouse).mp hasks
      rw [← Option.some.inj (houtput.symm.trans hb.output)]
      rfl
  rw [hsame, hb.edge] at hedge
  exact Bool.false_ne_true hedge

theorem drive_stuck (held : Source × UInt8) (b c : Board)
    (hlevel : ∀ irq, level b.pair irq = b.asks irq) (hb : Stuck held b) (hpair : c.pair = b.pair)
    (houtput : c.output = b.output) (hgiven : c.given = b.given)
    (hcpu : ∀ irq left, c.cpu = .serving irq false left → irq = .aiSerial) :
    Stuck held c.drive := by
  refine ⟨houtput.trans hb.output, ?_, hcpu, hgiven.trans hb.given⟩
  rw [drive_edge, hpair, hlevel, stuck_asks held b hb.output, hb.edge]
  simp

theorem tick_stuck (h : Handlers) (held : Source × UInt8) (b : Board) (listening : Bool)
    (hstubs : h.stubs.Nodup) (hsound : Sound h b) (hb : Stuck held b) :
    Stuck held (b.tick h listening) := by
  have hinterrupt (hmain : ∀ irq read left, b.cpu ≠ .serving irq read left)
      (hasserts : b.pair.asserts = true) : Stuck held (b.interrupt h) := by
    obtain ⟨irq, hasks, hedge, haccepted, hnext⟩ :=
      interrupt_enters h b hstubs hsound hmain hasserts
    have hserial := stuck_serial held b irq hb hasks hedge
    rw [hnext]
    refine ⟨hb.output, ?_, ?_, hb.given⟩
    · rw [haccepted.edge, hb.edge]
      exact ite_self false
    · intro i left hserving
      cases hserving
      exact hserial
  unfold Board.tick
  cases hcpu : b.cpu with
  | awake =>
    simp only
    split_ifs with hasserts
    · exact hinterrupt (by simp [hcpu]) hasserts
    · exact ⟨hb.output, hb.edge, by simp, hb.given⟩
  | passing =>
    simp only
    split_ifs
    · exact drive_stuck held b { b with
        fifo := [], timedOut := false, log := b.log ++ [.pass b.fifo], cpu := .passed }
        hsound.level hb rfl rfl rfl (by simp)
    · exact ⟨hb.output, hb.edge, by simp, hb.given⟩
  | passed => exact ⟨hb.output, hb.edge, by simp, hb.given⟩
  | halted =>
    simp only
    split_ifs with hasserts
    · exact hinterrupt (by simp [hcpu]) hasserts
    · exact hb
  | faulted => exact hb
  | serving irq read left =>
    have hrunning := hsound.running
    have hserves := hsound.serves
    rw [hcpu] at hrunning hserves
    cases read with
    | false =>
      obtain rfl := hb.serial irq left hcpu
      exact drive_stuck held b { b with
        fifo := [], timedOut := false, log := b.log ++ [.receive b.fifo]
        cpu := .serving .aiSerial true left } hsound.level hb rfl rfl rfl (by simp)
    | true =>
      cases left with
      | nil => exact ⟨hb.output, hb.edge, by simp, hb.given⟩
      | cons w left =>
        have huntouched :=
          (eoi_serves b.pair irq w left hsound.wired hrunning.1 hserves).2.2
        exact ⟨hb.output, (huntouched.edge _).trans hb.edge, by simp, hb.given⟩

theorem step_stuck (h : Handlers) (held : Source × UInt8) (b : Board) (e : BoardEvent)
    (hstubs : h.stubs.Nodup) (hsound : Sound h b) (hb : Stuck held b) :
    Stuck held (b.step h e) := by
  cases e with
  | present source value =>
    rw [Board.step, if_neg (by rw [hb.output]; exact Option.some_ne_none held)]
    exact hb
  | arrive value =>
    rw [Board.step]
    split_ifs
    · exact drive_stuck held b { b with fifo := b.fifo ++ [value] }
        hsound.level hb rfl rfl rfl hb.serial
    · exact hb
  | timeout =>
    rw [Board.step]
    split_ifs
    · exact hb
    · exact drive_stuck held b { b with timedOut := true } hsound.level hb rfl rfl rfl hb.serial
  | other slave n high =>
    rw [Board.step]
    split_ifs with hwired
    · exact hb
    · have huntouched := other_untouched b.pair slave n high (Bool.eq_false_iff.mpr hwired)
      exact ⟨hb.output, (huntouched.edge _).trans hb.edge, hb.serial, hb.given⟩
  | tick listening => exact tick_stuck h held b listening hstubs hsound hb

/-- The controllers as a firmware leaves them, with the vectors from 8 on. -/
def firmware : Pair where
  master := ⟨⟨.operating, false, true, false, 0x08, 0x04, 0x01, 0xB8⟩, fun _ => false,
    fun _ => false, fun _ => false⟩
  slave := ⟨⟨.operating, false, true, false, 0x70, 0x02, 0x01, 0x8F⟩, fun _ => false,
    fun _ => false, fun _ => false⟩

theorem firmware_free : Free firmware := ⟨rfl, rfl⟩

theorem loop_stubs : loopHandlers.stubs.Nodup := by decide

def keyEntered : List BoardEvent :=
  [.present .keyboard 0x1E, .tick false, .tick false, .tick false]

section
variable (h : Handlers) (p : Pair) (output : Option (Source × UInt8)) (fifo : List UInt8)
  (timedOut : Bool)

def afterRun (es : List BoardEvent) : Board :=
  run (Board.step h) (Board.start h p output fifo timedOut) es

theorem run_sound (es : List BoardEvent) (hstubs : h.stubs.Nodup) (hfree : Free p) :
    Sound h (afterRun h p output fifo timedOut es) :=
  run_invariant_all (Board.step h) (Sound h) (fun b e hb => step_sound h b e hstubs hb) _ es
    (start_sound h p output fifo timedOut hfree)

theorem run_keeps (I : Board → Prop) (es : List BoardEvent) (hstubs : h.stubs.Nodup)
    (hfree : Free p) (hstep : ∀ b e, Sound h b → I b → I (b.step h e))
    (hstart : I (Board.start h p output fifo timedOut)) :
    I (afterRun h p output fifo timedOut es) :=
  (run_invariant_all (Board.step h) (fun b => Sound h b ∧ I b)
    (fun b e hb => ⟨step_sound h b e hstubs hb.1, hstep b e hb.1 hb.2⟩) _ es
    ⟨start_sound h p output fifo timedOut hfree, hstart⟩).2

theorem run_recorded (es : List BoardEvent) (hstubs : h.stubs.Nodup) (hfree : Free p) :
    Recorded (afterRun h p output fifo timedOut es) :=
  run_keeps h p output fifo timedOut Recorded es hstubs hfree (step_recorded h)
    (start_recorded h p output fifo timedOut)

theorem run_live (es : List BoardEvent) (irq : Irq) (hstubs : h.stubs.Nodup) (hfree : Free p)
    (hquiet : (Board.unprogrammed h p output fifo timedOut).asks irq = false) :
    Live irq (afterRun h p output fifo timedOut es) := by
  apply run_keeps h p output fifo timedOut (Live irq) es hstubs hfree
  · exact fun b e hsound hb => step_live h irq b e hstubs hsound hb
  · intro hasks
    rw [start_asks, hquiet] at hasks
    exact absurd hasks Bool.false_ne_true

theorem run_stuck (es : List BoardEvent) (held : Source × UInt8) (hstubs : h.stubs.Nodup)
    (hfree : Free p) (houtput : output = some held) :
    Stuck held (afterRun h p output fifo timedOut es) := by
  subst houtput
  apply run_keeps h p (some held) fifo timedOut (Stuck held) es hstubs hfree
  · exact fun b e hsound hb => step_stuck h held b e hstubs hsound hb
  · exact ⟨rfl, start_edge h p (some held) fifo timedOut _,
      fun irq left hserving => absurd hserving (by rw [start_cpu]; simp), rfl⟩

theorem resting_quiet (b : Board) (irq : Irq) (hsound : Sound h b) (hb : Live irq b)
    (hresting : Resting b) : b.asks irq = false := by
  by_contra hasks
  rw [Bool.not_eq_false] at hasks
  have hmain (i : Irq) (read : Bool) (left : List Write) : b.cpu ≠ .serving i read left := by
    rw [hresting.halted]
    simp
  rcases hb hasks with hedge | ⟨left, hserving⟩
  · have hfree := free_of_serves b.pair b.cpu hsound.serves hmain
    have hasserts := (asserts_iff b.pair hsound.wired hfree).mpr
      ⟨irq, (hsound.level irq).trans hasks, hedge⟩
    exact Bool.false_ne_true (hresting.quiet.symm.trans hasserts)
  · exact hmain irq false left hserving

theorem run_rests (es : List BoardEvent) (ticks : List Bool) (hstubs : h.stubs.Nodup)
    (hfree : Free p) (hlong : 32 ≤ ticks.length) :
    Resting (afterRun h p output fifo timedOut (es ++ alone ticks)) := by
  have hsound := run_sound h p output fifo timedOut es hstubs hfree
  have hrank := rank_le h _ hsound
  rw [afterRun, run_append]
  exact ticks_rest h _ ticks hstubs hsound (by rw [afterRun] at hrank; omega)

/-- Whatever the firmware left and whatever the devices do, no interrupt finds
an empty gate, a handler is entered only for a device that asks, and the main
code runs with nothing in service. -/
theorem interrupts_served (es : List BoardEvent) (hstubs : h.stubs.Nodup) (hfree : Free p) :
    let b := afterRun h p output fifo timedOut es
    b.cpu ≠ .faulted ∧
      (∀ irq left, b.cpu = .serving irq false left → b.asks irq = true) ∧
      ((∀ irq read left, b.cpu ≠ .serving irq read left) → Free b.pair) := by
  intro b
  have hsound : Sound h b := run_sound h p output fifo timedOut es hstubs hfree
  refine ⟨?_, hsound.announced, free_of_serves b.pair b.cpu hsound.serves⟩
  intro hfaulted
  have hrunning := hsound.running
  rw [hfaulted] at hrunning
  exact hrunning

theorem interrupts_served_key :
    (afterRun loopHandlers firmware none [] false keyEntered).cpu ≠ .faulted ∧
      (afterRun loopHandlers firmware none [] false keyEntered).asks .keyboard = true ∧
      Free (afterRun loopHandlers firmware none [] false []).pair := by
  have hkey := interrupts_served loopHandlers firmware none [] false keyEntered loop_stubs
    firmware_free
  have hmain := interrupts_served loopHandlers firmware none [] false [] loop_stubs firmware_free
  have hentered : (afterRun loopHandlers firmware none [] false keyEntered).cpu =
      .serving .keyboard false [(0x20, 0x20)] := by decide +kernel
  exact ⟨hkey.1, hkey.2.1 _ _ hentered, hmain.2.2 (by simp [afterRun, start_cpu])⟩

/-- The keyboard and the mouse driver get what their devices delivered, in its
order and each its own, up to the byte in the output buffer; the serial driver
gets the bytes that found room in the receive buffer, up to those still there;
and when the processor halts a pass of the main loop has seen to all of it. -/
theorem input_delivered (es : List BoardEvent) (hstubs : h.stubs.Nodup) (hfree : Free p) :
    let b := afterRun h p output fifo timedOut es
    let came := translate (Board.step h) arrivals (Board.start h p output fifo timedOut) es
    b.log.flatMap input ++ b.output.toList = b.given ∧
      b.log.flatMap captured ++ b.fifo = fifo ++ stored came ∧
      (b.cpu = .halted → Passed b.log) := by
  intro b came
  have hrecorded : Recorded b := run_recorded h p output fifo timedOut es hstubs hfree
  exact ⟨hrecorded.given, run_port h _ es, fun hcpu => hrecorded.rested (.inr hcpu)⟩

/-- A key, a byte of the mouse and seventeen bytes on the port, of which the
last finds no room, until the processor halts. -/
def busyRun : List BoardEvent :=
  [.present .keyboard 0x1E] ++ (List.range 17).map (fun n => .arrive n.toUInt8) ++
    List.replicate 15 (.tick false) ++ [.present .mouse 0x08] ++ List.replicate 15 (.tick false)

theorem input_delivered_key :
    let b := afterRun loopHandlers firmware none [] false busyRun
    b.given = [(.keyboard, 0x1E), (.mouse, 0x08)] ∧
      b.log.flatMap input ++ b.output.toList = b.given ∧
      b.log.flatMap captured ++ b.fifo = (List.range 16).map Nat.toUInt8 ∧ Passed b.log := by
  intro b
  obtain ⟨hgiven, harrived, hpassed⟩ := input_delivered loopHandlers firmware none [] false busyRun
    loop_stubs firmware_free
  have hstored : stored (translate (Board.step loopHandlers) arrivals
      (Board.start loopHandlers firmware none [] false) busyRun) =
      (List.range 16).map Nat.toUInt8 := by decide +kernel
  rw [hstored] at harrived
  exact ⟨by decide +kernel, hgiven, harrived, hpassed (by decide +kernel)⟩

/-- If no device asked while the controllers were programmed, then after every
run thirty-two steps of the processor bring the machine to rest with every
byte of the keyboard and the mouse delivered and no request of the port. -/
theorem comes_to_rest (es : List BoardEvent) (ticks : List Bool) (hstubs : h.stubs.Nodup)
    (hfree : Free p) (hquiet : ∀ irq, (Board.unprogrammed h p output fifo timedOut).asks irq = false)
    (hlong : 32 ≤ ticks.length) :
    let b := afterRun h p output fifo timedOut (es ++ alone ticks)
    b.cpu = .halted ∧ (∀ irq, b.asks irq = false) ∧ b.log.flatMap input = b.given ∧
      Passed b.log := by
  intro b
  have hsound : Sound h b := run_sound h p output fifo timedOut _ hstubs hfree
  have hrecorded : Recorded b := run_recorded h p output fifo timedOut _ hstubs hfree
  have hresting : Resting b := run_rests h p output fifo timedOut es ticks hstubs hfree hlong
  have hasks (irq : Irq) : b.asks irq = false :=
    resting_quiet h b irq hsound (run_live h p output fifo timedOut _ irq hstubs hfree (hquiet irq))
      hresting
  refine ⟨hresting.halted, hasks, ?_, hrecorded.rested (.inr hresting.halted)⟩
  have hgiven := hrecorded.given
  cases houtput : b.output with
  | none => rwa [houtput, Option.toList_none, List.append_nil] at hgiven
  | some held =>
    exact absurd ((hasks (irqOf held.1)).symm.trans (stuck_asks held b houtput))
      Bool.false_ne_true

theorem comes_to_rest_key :
    let b := afterRun loopHandlers firmware none [] false
      (keyEntered ++ alone (List.replicate 32 false))
    b.cpu = .halted ∧ (∀ irq, b.asks irq = false) ∧ b.log.flatMap input = b.given ∧
      Passed b.log :=
  comes_to_rest loopHandlers firmware none [] false keyEntered (List.replicate 32 false) loop_stubs
    firmware_free (by intro irq; cases irq <;> rfl) (by simp)

/-- The keyboard and the mouse are heard exactly if the output buffer is empty
when the controllers are programmed; otherwise no driver ever gets a byte. -/
theorem heard_iff (hstubs : h.stubs.Nodup) (hfree : Free p) :
    ((∀ es ticks, 32 ≤ ticks.length →
        (afterRun h p output fifo timedOut (es ++ alone ticks)).output = none) ↔ output = none) ∧
      (output ≠ none → ∀ es, (afterRun h p output fifo timedOut es).log.flatMap input = []) := by
  have hstuck (held : Source × UInt8) (houtput : output = some held) (es : List BoardEvent) :=
    run_stuck h p output fifo timedOut es held hstubs hfree houtput
  constructor
  · constructor
    · intro hheard
      have hnone := hheard [] (List.replicate 32 false) (by simp)
      cases houtput : output with
      | none => rfl
      | some held =>
        have hheld := (hstuck held houtput ([] ++ alone (List.replicate 32 false))).output
        exact absurd (hheld.symm.trans hnone) (Option.some_ne_none held)
    · rintro rfl es ticks hlong
      have hsound := run_sound h p none fifo timedOut (es ++ alone ticks) hstubs hfree
      have hresting := run_rests h p none fifo timedOut es ticks hstubs hfree hlong
      cases houtput : (afterRun h p none fifo timedOut (es ++ alone ticks)).output with
      | none => rfl
      | some held =>
        have hlive := run_live h p none fifo timedOut (es ++ alone ticks) (irqOf held.1) hstubs
          hfree (by cases held.1 <;> rfl)
        exact absurd ((resting_quiet h _ _ hsound hlive hresting).symm.trans
          (stuck_asks held _ houtput)) Bool.false_ne_true
  · intro hsome es
    obtain ⟨held, houtput⟩ := Option.ne_none_iff_exists'.mp hsome
    have hgiven := (run_recorded h p output fifo timedOut es hstubs hfree).given
    rw [(hstuck held houtput es).output, (hstuck held houtput es).given] at hgiven
    exact List.append_cancel_right (hgiven.trans (List.nil_append _).symm)

theorem heard_iff_early :
    (afterRun loopHandlers firmware none [] false
      (keyEntered ++ alone (List.replicate 32 false))).output = none ∧
    ∀ es, (afterRun loopHandlers firmware (some (.keyboard, 0x1E)) [] false es).log.flatMap
      input = [] := by
  have hempty := heard_iff loopHandlers firmware none [] false loop_stubs firmware_free
  have hfull := heard_iff loopHandlers firmware (some (.keyboard, 0x1E)) [] false loop_stubs
    firmware_free
  exact ⟨hempty.1.mpr rfl keyEntered _ (by simp), hfull.2 (by simp)⟩

end

end Hnmos.InputDelivery
