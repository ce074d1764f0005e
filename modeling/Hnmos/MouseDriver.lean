import Mathlib
import Hnmos.Alternation
import Hnmos.Graphics
import Hnmos.QueuedEvents

/-!
# The mouse driver and its events

The driver assembles packets of three bytes, commits the position and the
buttons of a packet and then pushes its events, whatever the queue answers. The
pushes of the two interrupt handlers and the polls of the main loop interleave.
-/

set_option autoImplicit false

namespace Hnmos.MouseDriver
open Hnmos.Alternation Hnmos.BoundedFifo Hnmos.Events Hnmos.Graphics Hnmos.QueuedEvents
open Hnmos.Transition

structure Mouse where
  packet : Fin 3 → UInt8
  packetIndex : Fin 3
  x : UInt32
  y : UInt32
  leftButton : Bool
  rightButton : Bool
  middleButton : Bool
  ready : Bool
  dirty : Bool

def mouseLeftMask : UInt8 := 1
def mouseRightMask : UInt8 := 2
def mouseMiddleMask : UInt8 := 4

def Mouse.init (m : Mouse) (v : Video) (answers : Bool) : Mouse where
  packet := m.packet
  packetIndex := 0
  x := if v.available then v.width / 2 else m.x
  y := if v.available then v.height / 2 else m.y
  leftButton := false
  rightButton := false
  middleButton := false
  ready := v.available && answers
  dirty := false

def signExtend (value : UInt8) : Int32 :=
  if value &&& 0x80 ≠ 0 then value.toUInt32.toInt32 - 256 else value.toUInt32.toInt32

def buttonsMask (leftButton rightButton middleButton : Bool) : UInt8 :=
  (if leftButton then mouseLeftMask else 0) ||| (if rightButton then mouseRightMask else 0) |||
    (if middleButton then mouseMiddleMask else 0)

def clampPosition (v : Video) (x y : Int32) : Int32 × Int32 :=
  if v.available = false ∨ v.width = 0 ∨ v.height = 0 then (0, 0)
  else
    let maxX := v.width.toInt32 - 1
    let maxY := v.height.toInt32 - 1
    (if x < 0 then 0 else if x > maxX then maxX else x,
      if y < 0 then 0 else if y > maxY then maxY else y)

def Mouse.moveEvent (m : Mouse) (dx dy : Int32) (buttons : UInt8) : List UiEvent :=
  if dx = 0 ∧ dy = 0 then []
  else [{ UiEvent.init .mouseMove with x := m.x, y := m.y, dx := dx, dy := dy, buttons := buttons }]

def Mouse.buttonEvent (m : Mouse) (type : EventType) (button buttons : UInt8) : UiEvent :=
  { UiEvent.init type with x := m.x, y := m.y, button := button, buttons := buttons }

def Mouse.buttonChange (m : Mouse) (old new : Bool) (button buttons : UInt8) : List UiEvent :=
  if old ≠ new then
    [m.buttonEvent (if new then .mouseButtonDown else .mouseButtonUp) button buttons]
  else []

/-- The packet is committed; its events are still to be pushed, in this order. -/
def Mouse.applyPacket (m : Mouse) (v : Video) : Mouse × List UiEvent :=
  if m.packet 0 &&& 0xC0 ≠ 0 then (m, [])
  else
    let leftButton := decide (m.packet 0 &&& 0x01 ≠ 0)
    let rightButton := decide (m.packet 0 &&& 0x02 ≠ 0)
    let middleButton := decide (m.packet 0 &&& 0x04 ≠ 0)
    let dx := signExtend (m.packet 1)
    let dy := signExtend (m.packet 2)
    let position := clampPosition v (m.x.toInt32 + dx) (m.y.toInt32 - dy)
    let buttons := buttonsMask leftButton rightButton middleButton
    let moved := { m with
      x := position.1.toUInt32
      y := position.2.toUInt32
      leftButton := leftButton
      rightButton := rightButton
      middleButton := middleButton
      dirty := true }
    (moved, moved.moveEvent dx (-dy) buttons ++
      moved.buttonChange m.leftButton leftButton mouseButtonLeft buttons ++
      moved.buttonChange m.rightButton rightButton mouseButtonRight buttons ++
      moved.buttonChange m.middleButton middleButton mouseButtonMiddle buttons)

def Mouse.handleByte (m : Mouse) (v : Video) (value : UInt8) : Mouse × List UiEvent :=
  if m.packetIndex = 0 ∧ value &&& 0x08 = 0 then (m, [])
  else
    let packet := Function.update m.packet m.packetIndex value
    if m.packetIndex.val + 1 < 3 then
      ({ m with packet := packet, packetIndex := m.packetIndex + 1 }, [])
    else { m with packet := packet, packetIndex := 0 }.applyPacket v

def Mouse.irqHandler (m : Mouse) (v : Video) (value : UInt8) : Mouse × List UiEvent :=
  if m.ready then m.handleByte v value else (m, [])

inductive Button where
  | left | right | middle
  deriving DecidableEq

def Button.code : Button → UInt8
  | .left => mouseButtonLeft
  | .right => mouseButtonRight
  | .middle => mouseButtonMiddle

def Mouse.pressed (m : Mouse) : Button → Bool
  | .left => m.leftButton
  | .right => m.rightButton
  | .middle => m.middleButton

def report (b : Button) (event : UiEvent) : Option Bool :=
  if event.button = b.code then
    match event.type with
    | .mouseButtonDown => some true
    | .mouseButtonUp => some false
    | _ => none
  else none

def reports (b : Button) (events : List UiEvent) : List Bool := events.filterMap (report b)

def tracked (b : Button) (events : List UiEvent) : Bool := latest false (reports b events)

/-- The button goes down first, then up and down in turn. -/
def Alternating (b : Button) (events : List UiEvent) : Prop := Differing false (reports b events)

/-- The two drivers with the events their handlers have still to push, the
queue, and the mouse events that were pushed, each with the answer. -/
structure Drivers where
  mouse : Mouse
  outgoing : List UiEvent
  shiftPressed : Bool
  typed : List UiEvent
  session : Session
  offered : List (UiEvent × Bool)

inductive Input where
  | mouseByte (value : UInt8)
  | mousePush
  | scancode (value : UInt8)
  | keyPush
  | poll

def Drivers.start (q : EventQueue) (m : Mouse) (v : Video) (answers shiftPressed : Bool) :
    Drivers where
  mouse := m.init v answers
  outgoing := []
  shiftPressed := shiftPressed
  typed := []
  session := Session.start q
  offered := []

/-- A handler is not entered again before it has pushed all its events. -/
def step (v : Video) (s : Drivers) : Input → Drivers
  | .mouseByte value =>
    match s.outgoing with
    | [] =>
      let handled := s.mouse.irqHandler v value
      { s with mouse := handled.1, outgoing := handled.2 }
    | _ :: _ => s
  | .mousePush =>
    match s.outgoing with
    | [] => s
    | event :: rest =>
      { s with
        outgoing := rest
        session := QueuedEvents.step s.session (.push event)
        offered := s.offered ++ [(event, (s.session.queue.push event).1)] }
  | .scancode value =>
    match s.typed with
    | [] =>
      let handled := handleScancode s.shiftPressed value
      { s with shiftPressed := handled.1, typed := handled.2 }
    | _ :: _ => s
  | .keyPush =>
    match s.typed with
    | [] => s
    | event :: rest =>
      { s with typed := rest, session := QueuedEvents.step s.session (.push event) }
  | .poll => { s with session := QueuedEvents.step s.session .poll }

def transitions (b : Button) (offered : List (UiEvent × Bool)) : List (Bool × Bool) :=
  offered.filterMap fun (event, accepted) => (report b event).map fun down => (down, accepted)

/-- The transitions reported so far and those under way lead to the driver's
state; those accepted are what the queue got. -/
structure Consistent (b : Button) (s : Drivers) : Prop where
  refines : ∃ f, Refines s.session f
  typed : reports b s.typed = []
  committed : Alternates false ((transitions b s.offered).map Prod.fst ++ reports b s.outgoing)
    (s.mouse.pressed b)
  accepted : reports b s.session.accepted = received (transitions b s.offered)

theorem reports_append (b : Button) (events more : List UiEvent) :
    reports b (events ++ more) = reports b events ++ reports b more :=
  List.filterMap_append

theorem reports_nil (b : Button) (events : List UiEvent)
    (h : ∀ event ∈ events, event.type ≠ .mouseButtonDown ∧ event.type ≠ .mouseButtonUp) :
    reports b events = [] := by
  apply List.filterMap_eq_nil_iff.mpr
  intro event hevent
  obtain ⟨hdown, hup⟩ := h event hevent
  rw [report]
  cases htype : event.type <;> simp_all

theorem moveEvent_reports (b : Button) (m : Mouse) (dx dy : Int32) (buttons : UInt8) :
    reports b (m.moveEvent dx dy buttons) = [] := by
  apply reports_nil
  intro event hevent
  rw [Mouse.moveEvent] at hevent
  split_ifs at hevent
  · exact absurd hevent List.not_mem_nil
  · obtain rfl := List.mem_singleton.mp hevent
    exact ⟨EventType.noConfusion, EventType.noConfusion⟩

theorem buttonChange_reports (b changed : Button) (m : Mouse) (old new : Bool) (buttons : UInt8) :
    reports b (m.buttonChange old new changed.code buttons) =
      if b = changed ∧ old ≠ new then [new] else [] := by
  by_cases hchange : old = new
  · rw [Mouse.buttonChange, if_neg (not_not.mpr hchange), if_neg (fun h => h.2 hchange)]
    rfl
  · rw [Mouse.buttonChange, if_pos hchange]
    cases b <;> cases changed <;> cases old <;> cases new <;> first | rfl | exact absurd rfl hchange

theorem handleScancode_reports (b : Button) (shiftPressed : Bool) (value : UInt8) :
    reports b (handleScancode shiftPressed value).2 = [] := by
  apply reports_nil
  intro event hevent
  have hkey : event.type = .keyDown ∨ event.type = .keyChar := by
    simp only [handleScancode] at hevent
    split_ifs at hevent <;> simp [keyDown, keyChar, UiEvent.init] at hevent <;> grind
  rcases hkey with h | h <;> rw [h] <;> exact ⟨EventType.noConfusion, EventType.noConfusion⟩

theorem change_alternates (old new : Bool) :
    Alternates old (if old ≠ new then [new] else []) new := by
  cases old <;> cases new <;> simp [Alternates]

theorem applyPacket_reports (b : Button) (m : Mouse) (v : Video) :
    Alternates (m.pressed b) (reports b (m.applyPacket v).2) ((m.applyPacket v).1.pressed b) := by
  by_cases hoverflow : m.packet 0 &&& 0xC0 ≠ 0
  · rw [Mouse.applyPacket, if_pos hoverflow]
    rfl
  · rw [Mouse.applyPacket, if_neg hoverflow]
    simp only [reports_append, moveEvent_reports, List.nil_append]
    have hleft := buttonChange_reports b .left
    have hright := buttonChange_reports b .right
    have hmiddle := buttonChange_reports b .middle
    simp only [Button.code] at hleft hright hmiddle
    rw [hleft, hright, hmiddle]
    cases b <;> simp only [Mouse.pressed, reduceCtorEq, true_and, false_and, if_false,
      List.nil_append, List.append_nil] <;> exact change_alternates _ _

theorem handleByte_reports (b : Button) (m : Mouse) (v : Video) (value : UInt8) :
    Alternates (m.pressed b) (reports b (m.handleByte v value).2)
      ((m.handleByte v value).1.pressed b) := by
  rw [Mouse.handleByte]
  split_ifs
  · rfl
  · cases b <;> rfl
  · have hpacket := applyPacket_reports b
      { m with packet := Function.update m.packet m.packetIndex value, packetIndex := 0 } v
    cases b <;> exact hpacket

theorem irqHandler_reports (b : Button) (m : Mouse) (v : Video) (value : UInt8) :
    Alternates (m.pressed b) (reports b (m.irqHandler v value).2)
      ((m.irqHandler v value).1.pressed b) := by
  rw [Mouse.irqHandler]
  split_ifs
  · exact handleByte_reports b m v value
  · rfl

theorem transitions_append (b : Button) (offered more : List (UiEvent × Bool)) :
    transitions b (offered ++ more) = transitions b offered ++ transitions b more :=
  List.filterMap_append

theorem accepted_push (session : Session) (event : UiEvent) :
    (QueuedEvents.step session (.push event)).accepted =
      session.accepted ++ if (session.queue.push event).1 then [event] else [] := by
  show (if (session.queue.push event).1 then session.accepted ++ [event] else session.accepted) = _
  split_ifs
  · rfl
  · exact (List.append_nil _).symm

theorem start_consistent (b : Button) (q : EventQueue) (m : Mouse) (v : Video)
    (answers shiftPressed : Bool) : Consistent b (Drivers.start q m v answers shiftPressed) where
  refines := ⟨_, start_refines q⟩
  typed := rfl
  committed := by cases b <;> rfl
  accepted := rfl

theorem step_consistent (b : Button) (v : Video) (s : Drivers) (input : Input)
    (h : Consistent b s) : Consistent b (step v s input) := by
  obtain ⟨f, hf⟩ := h.refines
  cases input with
  | mouseByte value =>
    cases hout : s.outgoing with
    | cons event rest => rwa [step, hout]
    | nil =>
      have hcommitted := h.committed
      rw [hout, reports, List.filterMap_nil, List.append_nil] at hcommitted
      rw [step, hout]
      exact ⟨⟨f, hf⟩, h.typed,
        alternates_append _ _ _ _ _ hcommitted (irqHandler_reports b s.mouse v value), h.accepted⟩
  | mousePush =>
    cases hout : s.outgoing with
    | nil => rwa [step, hout]
    | cons event rest =>
      have hcommitted := h.committed
      rw [hout] at hcommitted
      rw [step, hout]
      refine ⟨⟨_, step_refines s.session f (.push event) hf⟩, h.typed, ?_, ?_⟩
      · show Alternates false ((transitions b (s.offered ++ [_])).map Prod.fst ++ reports b rest) _
        rw [transitions_append]
        cases hreport : report b event with
        | none => simpa [transitions, reports, hreport] using hcommitted
        | some down => simpa [transitions, reports, hreport] using hcommitted
      · show reports b (QueuedEvents.step s.session (.push event)).accepted =
          received (transitions b (s.offered ++ [_]))
        rw [accepted_push, reports_append, h.accepted, transitions_append, received, received,
          List.filter_append, List.map_append]
        congr 1
        cases hanswer : (s.session.queue.push event).1 <;>
          cases hreport : report b event <;> simp [transitions, reports, hreport]
  | scancode value =>
    cases htyped : s.typed with
    | cons event rest => rwa [step, htyped]
    | nil =>
      rw [step, htyped]
      exact ⟨⟨f, hf⟩, handleScancode_reports b s.shiftPressed value, h.committed, h.accepted⟩
  | keyPush =>
    cases htyped : s.typed with
    | nil => rwa [step, htyped]
    | cons event rest =>
      have hkeys := h.typed
      rw [htyped, reports, List.filterMap_cons] at hkeys
      cases hreport : report b event with
      | some down =>
        rw [hreport] at hkeys
        exact absurd hkeys (List.cons_ne_nil _ _)
      | none =>
        rw [hreport] at hkeys
        rw [step, htyped]
        refine ⟨⟨_, step_refines s.session f (.push event) hf⟩, hkeys, h.committed, ?_⟩
        show reports b (QueuedEvents.step s.session (.push event)).accepted = _
        rw [accepted_push, reports_append, h.accepted]
        split_ifs
        · rw [reports, List.filterMap_cons, hreport, List.filterMap_nil, List.append_nil]
        · exact List.append_nil _
  | poll => exact ⟨⟨_, step_refines s.session f .poll hf⟩, h.typed, h.committed, h.accepted⟩

theorem run_consistent (b : Button) (v : Video) (s : Drivers) (inputs : List Input)
    (h : Consistent b s) : Consistent b (run (step v) s inputs) := by
  induction inputs generalizing s with
  | nil => exact h
  | cons input inputs ih => exact ih _ (step_consistent b v s input h)

theorem numbered_reports (b : Button) (events : List UiEvent) :
    reports b (numbered stamp events) = reports b events := by
  induction events using List.reverseRecOn with
  | nil => rfl
  | append_singleton events event ih =>
    rw [numbered_snoc, reports_append, reports_append, ih]
    rfl

theorem drained_polled (s : Session) (f : Fifo UiEvent 127) (h : Refines s f)
    (hdrained : s.queue.pendingCount = 0) : s.polled = numbered stamp s.accepted := by
  have hcount : f.count = 0 := by
    rw [← refines_pending s f h, ← pendingCount_eq, hdrained]
    rfl
  rw [h.polled, h.accepted, Fifo.polled]
  apply List.take_of_length_le
  rw [numbered_length]
  rw [Fifo.count] at hcount
  omega

/-- After any interleaving, with the handler done and the queue drained, the
consumer's view of a button is the driver's and the delivered events alternate
exactly when every stretch of refused transitions of that button, before,
between and after the accepted ones, is even. -/
theorem button_tracked (q : EventQueue) (m : Mouse) (v : Video) (answers shiftPressed : Bool)
    (inputs : List Input) :
    let s := run (step v) (Drivers.start q m v answers shiftPressed) inputs
    s.outgoing = [] → s.session.queue.pendingCount = 0 → ∀ b,
      ((tracked b s.session.polled = s.mouse.pressed b ∧ Alternating b s.session.polled) ↔
        ∀ stretch ∈ ((transitions b s.offered).map Prod.snd).splitOn true,
          Even stretch.length) := by
  intro s hout hdrained b
  have h : Consistent b s :=
    run_consistent b v _ inputs (start_consistent b q m v answers shiftPressed)
  obtain ⟨f, hf⟩ := h.refines
  have hreports : reports b s.session.polled = received (transitions b s.offered) := by
    rw [drained_polled s.session f hf hdrained, numbered_reports, h.accepted]
  have hcommitted := h.committed
  rw [hout, reports, List.filterMap_nil, List.append_nil] at hcommitted
  rw [tracked, Alternating, hreports]
  exact tracked_iff _ _ hcommitted

def screen : Video where
  available := true
  width := 1600
  height := 900
  bpp := 32
  address := 0xE0000000
  pitch := 6400
  redPosition := 16
  redMaskSize := 8
  greenPosition := 8
  greenMaskSize := 8
  bluePosition := 0
  blueMaskSize := 8
  supported := deep_supported true

def mouse : Mouse := ⟨fun _ => 0, 0, 0, 0, false, false, false, false, false⟩

def queue : EventQueue where
  queue := fun _ => UiEvent.init .none
  head := 0
  tail := 0
  sequence := 0
  dropped := 0
  last := UiEvent.init .none
  hasRecent := false
  head_lt := zero_index_lt
  tail_lt := zero_index_lt

def press : List Input := [.mouseByte 0x09, .mouseByte 0, .mouseByte 0, .mousePush]

theorem press_tracked :
    let s := run (step screen) (Drivers.start queue mouse screen true false) (press ++ [.poll])
    tracked .left s.session.polled = true ∧ Alternating .left s.session.polled := by
  have h := button_tracked queue mouse screen true false (press ++ [.poll])
    (by decide) (by decide) .left
  have hevery : ∀ stretch ∈ ((transitions .left (run (step screen)
      (Drivers.start queue mouse screen true false) (press ++ [.poll])).offered).map
        Prod.snd).splitOn true, Even stretch.length := by decide
  have hpressed : (run (step screen) (Drivers.start queue mouse screen true false)
      (press ++ [.poll])).mouse.pressed .left = true := by decide
  exact hpressed ▸ h.mpr hevery

/-- 127 presses of Enter fill the queue. -/
def fillThenPress : List Input :=
  (List.replicate 127 [Input.scancode 0x1C, Input.keyPush]).flatten ++ press ++
    List.replicate 127 Input.poll

theorem full_queue_loses_press :
    let s := run (step screen) (Drivers.start queue mouse screen true false) fillThenPress
    s.outgoing = [] ∧ s.session.queue.pendingCount = 0 ∧
      s.mouse.pressed .left = true ∧ tracked .left s.session.polled = false := by
  decide +kernel

end Hnmos.MouseDriver
