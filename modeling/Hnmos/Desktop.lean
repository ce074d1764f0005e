import Mathlib
import Hnmos.InputDispatcher
import Hnmos.MouseCursor

/-!
# The desktop

The iterations of the main loop with what the kernel draws in them. A response
is rendered on the studio screen only, which paints and never uses the console.
-/

set_option autoImplicit false

namespace Hnmos
open Hnmos.CString Hnmos.Surface Hnmos.Widgets Hnmos.Graphics Hnmos.MouseCursor
open Hnmos.Workspace Hnmos.Events Hnmos.Transition Hnmos.AiBridge Hnmos.AiAssembly
open Hnmos.SerialTransport Hnmos.TaskScheduler

def System.drawnSince (s old : System) : List DrawOp := s.display.ops.drop old.display.ops.length

/-- From one state to the next the screen has only been painted. -/
def Painted (s t : System) : Prop :=
  ∃ ops, t.display.ops = s.display.ops ++ ops ∧ Painting ops

theorem painted_refl (s : System) : Painted s s := ⟨[], by simp, painting_nil⟩

theorem painted_trans (s t u : System) (h : Painted s t) (h' : Painted t u) : Painted s u := by
  obtain ⟨ops, heq, hops⟩ := h
  obtain ⟨more, heq', hmore⟩ := h'
  exact ⟨ops ++ more, by rw [heq', heq, List.append_assoc], (painting_append _ _).mpr ⟨hops, hmore⟩⟩

theorem painted_draw (s : System) (ops : List DrawOp) (h : Painting ops) :
    Painted s (s.draw ops) := ⟨ops, rfl, h⟩

theorem painted_same (s t : System) (h : t.display = s.display) : Painted s t :=
  ⟨[], by rw [h, List.append_nil], painting_nil⟩

theorem painted_drawnSince (s t : System) (h : Painted s t) : Painting (t.drawnSince s) := by
  obtain ⟨ops, heq, hops⟩ := h
  rw [System.drawnSince, heq, List.drop_left]
  exact hops

@[simp] theorem painting_label (x y : UInt32) (text : List UInt8) (fg bg : Color) :
    Painting (label x y text fg bg) := painting_drawString x y text fg bg

@[simp] theorem painting_button (b : Button) : Painting b.render := by
  simp only [Button.render]
  split_ifs <;> simp

@[simp] theorem painting_panel (p : Panel) : Painting p.render := by
  simp [Panel.render]

@[simp] theorem painting_window (w : Window) : Painting w.render := by
  simp only [Window.render]
  split_ifs <;> simp

theorem painting_sourceOps (files : Files) (x y : UInt32) (background : Color) :
    Painting (sourceOps files x y background) := by
  intro op hop
  obtain ⟨⟨line, i⟩, _, hop⟩ := List.mem_flatMap.mp hop
  have hlabels : Painting (label x (y + UInt32.ofNat i * 24)
      [48 + UInt8.ofNat (i + 1) / 10, 48 + UInt8.ofNat (i + 1) % 10] themeDefault.mutedText
      themeDefault.panelAlt ++
    label (x + 40) (y + UInt32.ofNat i * 24) line themeDefault.text background) := by simp
  exact hlabels op hop

theorem topBar_painting (fb : Framebuffer) (name : List UInt8) : Painting (topBar fb name) := by
  simp only [topBar, painting_append, painting_fillRect, painting_label, and_self]

theorem connectionOps_painting (st : Studio) (face : Face) (x y width height : UInt32) :
    Painting (st.connectionOps face x y width height) := by
  unfold Studio.connectionOps
  simp only [painting_append]
  simp only [painting_fillRect, painting_drawRect, painting_label, painting_button, painting_panel,
    and_self]

theorem codeOps_painting (st : Studio) (files : Files) (x y width height : UInt32) :
    Painting (st.codeOps files x y width height) := by
  unfold Studio.codeOps
  simp only [painting_append]
  simp only [painting_fillRect, painting_drawRect, painting_label, painting_button, painting_panel,
    painting_window, painting_sourceOps, and_self]

theorem syncProviderResult_painted (s : System) : Painted s s.syncProviderResult := by
  apply painted_same
  unfold System.syncProviderResult
  simp only
  split_ifs
  · rfl
  · rfl
  · rfl
  · rfl
  · split <;> rfl
  · rfl

theorem drawStudio_painted (s : System) (face : Face) : Painted s (s.drawStudio face) := by
  have hbackground := painted_draw s (fillRect 0 84 s.display.fb.width (s.display.fb.height - 84)
    themeDefault.background) (painting_fillRect _ _ _ _ _)
  unfold System.drawStudio
  simp only
  generalize s.draw (fillRect 0 84 s.display.fb.width (s.display.fb.height - 84)
    themeDefault.background) = t at hbackground ⊢
  have hplaced := painted_same t { t with studio := t.studio.placeConnection 24 108 264 } rfl
  have hconnection := painted_draw { t with studio := t.studio.placeConnection 24 108 264 } _
    (connectionOps_painting (t.studio.placeConnection 24 108 264) face 24 108 264
      (s.display.fb.height - 108 - 24))
  have hleft := painted_trans _ _ _ hbackground (painted_trans _ _ _ hplaced hconnection)
  generalize (if s.display.fb.width > 24 + 264 + 16 + 24 then
    s.display.fb.width - (24 + 264 + 16) - 24 else 0) = rightWidth
  split_ifs
  · apply painted_trans _ _ _ hleft
    exact painted_trans _ _ _ (painted_same _ _ rfl)
      (painted_draw _ _ (codeOps_painting _ _ _ _ _ _))
  · exact hleft

theorem renderStudio_painted (s : System) (face : Face) : Painted s (s.renderStudio face) := by
  rw [System.renderStudio]
  split_ifs
  · exact painted_trans _ _ _ (syncProviderResult_painted s) (drawStudio_painted _ face)
  · exact painted_refl s

theorem renderTopBar_painted (s : System) : Painted s s.renderTopBar := by
  rw [System.renderTopBar]
  split_ifs
  · exact painted_draw s _ (topBar_painting _ _)
  · exact painted_refl s

theorem studioScreen_painted (k : Kernel) (h : k.system.current = .aiStudio) :
    Painted k.system k.renderCurrentScreen.system := by
  have hbar := renderTopBar_painted k.system
  have hcurrent : k.system.renderTopBar.current = .aiStudio := by
    rw [System.renderTopBar]
    split_ifs
    · exact h
    · exact h
  have hscreen : k.system.current ≠ .launcher ∧ k.system.current ≠ .terminal := by simp [h]
  rw [Kernel.renderCurrentScreen]
  split_ifs
  · show Painted k.system (Kernel.screenRender _ (k.system.renderTopBar).current).system
    rw [hcurrent]
    exact painted_trans _ _ _ hbar (renderStudio_painted _ _)
  · exact painted_refl k.system

theorem service_painted (k : Kernel) (arrived : List UInt8) :
    Painted k.system (k.step (.service arrived)).system := by
  rw [Kernel.step]
  split_ifs with hhalted
  · exact painted_refl k.system
  · show Painted k.system (k.pollBridge arrived).system.yieldScheduler
    have hpolled : Painted k.system (k.pollBridge arrived).system := by
      have hsame : (k.system.poll arrived).2.display = k.system.display := rfl
      rw [Kernel.pollBridge]
      generalize k.system.poll arrived = polled at hsame
      rcases polled with ⟨answered, s⟩
      have hpoll := painted_same k.system s hsame
      cases answered with
      | false => exact hpoll
      | true =>
        show Painted k.system (if s.current = ScreenId.aiStudio then
          { k with system := s }.renderCurrentScreen else { k with system := s }).system
        split_ifs with hcurrent
        · exact painted_trans _ _ _ hpoll (studioScreen_painted { k with system := s } hcurrent)
        · exact hpoll
    exact painted_trans _ _ _ hpolled (painted_same _ _ rfl)

/-- An iteration of the main loop as the cursor sees it. -/
def Kernel.pass (k : Kernel) (events : List UiEvent) (moved : Option Pointer)
    (arrived : List UInt8) : Pass :=
  let dispatched := run Kernel.step k (events.map Input.event)
  { drawing := dispatched.system.drawnSince k.system
    moved := moved
    rerender := (dispatched.step (.service arrived)).system.drawnSince dispatched.system
    studio := painted_drawnSince _ _ (service_painted dispatched arrived) }

def bootVideo : Video where
  width := 1024
  height := 768
  bpp := 32
  available := true
  address := 0xFD000000
  pitch := 4096
  redPosition := 16
  redMaskSize := 8
  greenPosition := 8
  greenMaskSize := 8
  bluePosition := 0
  blueMaskSize := 8
  supported := deep_supported true

def powerOn : Kernel where
  system := {
    display := ⟨bootVideo.toFramebuffer, ⟨0, 0, 128, 96, 0, 0, true⟩, []⟩
    log := []
    bridge := Bridge.init
    program := Program.init ⟨0, 0⟩ ⟨0, 0, 0, 0, 0, 0, 0, 0, 0, 0⟩
    transport := Transport.init
    files := Files.init
    sync := ⟨0, 0, 0, 0, 0, 0, 0, 0, 0, 0⟩
    scheduler := Scheduler.init
    memory := ⟨true, true, 0, 0, 0, 0, 0, 0, 0, false⟩
    registers := ⟨0, 0⟩
    mouseReady := true
    halted := false
    current := .launcher
    routerReady := false
    hooks := []
    launcher := ⟨fun _ => Button.zero, none, false⟩
    terminalInput := []
    studio := ⟨fun _ => Button.zero, none, false, [], CText.empty 160 Task.input_room, 0, false⟩ }
  session := ⟨List.replicate 192 0, 0, .none, .disconnected⟩
  port := ⟨fun _ => true, 0, []⟩

def keyEvents (c : UInt8) : List UiEvent :=
  [{ UiEvent.init .keyDown with keyCode := c.toUInt32 },
    { UiEvent.init .keyChar with character := c }]

def enterEvents : List UiEvent := [{ UiEvent.init .keyDown with keyCode := keyEnter }]

def prompted : Kernel :=
  run Kernel.step powerOn.boot ((keyEvents 53 ++ keyEvents 103 ++ keyEvents 97).map Input.event)

/-- The prompt is submitted, the mouse moves and the answer arrives within
one iteration. -/
def answeredPass : Pass :=
  prompted.pass enterEvents (some ⟨408, 557, false, false, false⟩)
    (ascii "HNAI1|RES|00000001|S|61\n")

def readyCursor : Cursor := ⟨fun _ => 0, fun _ => false, 512, 384, false, false, false, true, false⟩

theorem bootVideo_separate : bootVideo.Separate := ⟨rfl, by decide, by decide⟩

theorem answered_colors :
    Painting answeredPass.drawing ∧
    bootVideo.drawnColor answeredPass.drawing 408 557 = some 0x162435 ∧
      bootVideo.drawnColor answeredPass.rerender 408 557 = some 0x6AE88B := by
  unfold Painting
  decide +kernel

theorem readyCursor_start :
    (start bootVideo (fun _ => 0) readyCursor []).cursor.initialized = true := by
  decide +kernel

theorem statusOps_place (c : Cursor) (v : Video) (p : Pointer) :
    (c.place p).statusOps v = (readyCursor.place p).statusOps v := rfl

theorem status_elsewhere :
    bootVideo.drawnColor ((readyCursor.place ⟨408, 557, false, false, false⟩).statusOps bootVideo)
      408 557 = none := by
  decide

/-- The next hide puts the old text back under the cursor. -/
theorem response_corrupted :
    ¬ NeverCorrupted bootVideo (start bootVideo (fun _ => 0) readyCursor []) [answeredPass] := by
  intro h
  have hspares := ((neverCorrupted_iff _ _ _ (start_clean _ _ _ _)).mp h).1
  obtain ⟨hvisible, hx, hy, hplain⟩ := polled_moved _ bootVideo answeredPass
    ⟨408, 557, false, false, false⟩ rfl readyCursor_start rfl
  have hon : bootVideo.onScreen 408 557 = true := by decide
  have hbyte : 0 < bootVideo.bytesPerPixel.toNat := by decide
  have hmem : bootVideo.pixelAddress 408 557 + UInt32.ofNat 0 ∈
      ((start bootVideo (fun _ => 0) readyCursor []).polled bootVideo answeredPass).cursor.under
        bootVideo := by
    refine ⟨0, by decide, ?_⟩
    rw [Cursor.cellX, Cursor.cellY, ← hx, ← hy]
    exact ⟨hon, 0, hbyte, rfl⟩
  have hsame := hspares hvisible _ hmem
  obtain ⟨hdrawing, hbefore, hafter⟩ := answered_colors
  rw [draw_at bootVideo bootVideo_separate _ _ 408 557 0 hon hbyte answeredPass.studio, hafter,
    hplain, draw_at bootVideo bootVideo_separate _ _ 408 557 0 hon hbyte (statusOps_painting _ _),
    draw_at bootVideo bootVideo_separate _ _ 408 557 0 hon hbyte hdrawing, hbefore,
    statusOps_place, status_elsewhere] at hsame
  exact absurd hsame (by decide)

end Hnmos
