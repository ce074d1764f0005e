import Mathlib
import Hnmos.LineEditor
import Hnmos.RequestRetention
import Hnmos.RequestReply

/-!
# What is typed is what is sent

The kernel refines the line editor: its capture modes hold the editor's text,
its counter is the editor's, and the bytes on the second port are the editor's
frames. Each act is followed by what the editor does; the gestures then say
which acts an input stands for.
-/

set_option autoImplicit false

namespace Hnmos
open Hnmos.CString Hnmos.Task Hnmos.SerialPort Hnmos.SerialTransport Hnmos.AiBridge
open Hnmos.AiSession Hnmos.Workspace Hnmos.Events Hnmos.Transition

instance (k : Kernel) (input : Input) : Decidable (k.asks input) :=
  match input with
  | .event event => inferInstanceAs (Decidable (k.system.halted = false ∧
      k.system.current = .terminal ∧ event.type = .keyDown ∧ event.keyCode = keyEnter ∧
      commandMatches (cstr k.system.terminalInput) (ascii "ai") = true ∧
      commandArgument (cstr k.system.terminalInput) (ascii "ai") ∈ aiArguments))
  | .service _ => inferInstanceAs (Decidable False)
  | .receive _ => inferInstanceAs (Decidable False)

def Kernel.studioGesture (k : Kernel) (event : UiEvent) : Gesture :=
  match event.type with
  | .keyDown =>
    if event.keyCode = keyBackspace then .backspace
    else if event.keyCode = keyEnter then .enter
    else .none
  | .keyChar => .key event.character
  | .mouseButtonUp =>
    if event.button = mouseButtonLeft then
      match k.releasedButton event.x event.y with
      | none => .none
      | some b => .button b
    else .none
  | _ => .none

/-- What an input means on the screen it meets. -/
def Kernel.gesture (k : Kernel) (input : Input) : Gesture :=
  if k.system.halted then .none
  else if k.asks input then .request
  else
    match input with
    | .event event =>
      if k.system.current = .aiStudio then
        if event.type = .keyDown ∧ event.keyCode = keyEscape then .leave
        else if k.system.studio.ready then k.studioGesture event
        else .none
      else .none
    | _ => .none

def Kernel.running (k : Kernel) : Bool := k.system.bridge.lastTask.status == .running

def Kernel.edited (k : Kernel) (e : Editor) : List Input → Editor
  | [] => e
  | input :: inputs => (k.step input).edited (e.step k.running (k.gesture input)) inputs

def Holds (c : Core) : Mode → Prop
  | .idle => Wiped c.session none ∧ c.capturingPrompt = false
  | .secret text => Wiped c.session (some text) ∧ c.capturingPrompt = false
  | .prompt text => Wiped c.session none ∧ c.capturingPrompt = true ∧ c.prompt.chars = text

/-- The core does the editor's work; `start` is what the port had sent before. -/
structure Edits (start : List UInt8) (c : Core) (e : Editor) : Prop where
  mode : Holds c e.mode
  number : c.bridge.nextTaskId = UInt32.ofNat (e.submissions + 1)
  written : c.port.written = start ++ e.sent.flatMap Sent.bytes
  reliable : c.port.Reliable

section
variable (start : List UInt8) (c : Core) (e : Editor)

theorem edits_mode (d : Core) (mode : Mode) (h : Edits start c e) (hmode : Holds d mode)
    (hnext : d.bridge.nextTaskId = c.bridge.nextTaskId) (hport : d.port = c.port) :
    Edits start d { e with mode := mode } := by
  refine ⟨hmode, hnext.trans h.number, ?_, ?_⟩
  · rw [hport]
    exact h.written
  · rw [hport]
    exact h.reliable

theorem holds_kept (d : Core) (mode : Mode) (h : Holds c mode) (hsession : d.session = c.session)
    (hcapturing : d.capturingPrompt = c.capturingPrompt) (hprompt : d.prompt = c.prompt) :
    Holds d mode := by
  cases mode with
  | idle => exact ⟨hsession ▸ h.1, hcapturing.trans h.2⟩
  | secret text => exact ⟨hsession ▸ h.1, hcapturing.trans h.2⟩
  | prompt text => exact ⟨hsession ▸ h.1, hcapturing.trans h.2.1, hprompt ▸ h.2.2⟩

theorem edits_kept (d : Core) (h : Edits start c e) (hsession : d.session = c.session)
    (hcapturing : d.capturingPrompt = c.capturingPrompt) (hprompt : d.prompt = c.prompt)
    (hnext : d.bridge.nextTaskId = c.bridge.nextTaskId) (hport : d.port = c.port) :
    Edits start d e :=
  edits_mode start c e d e.mode h (holds_kept c d e.mode h.mode hsession hcapturing hprompt)
    hnext hport

theorem sync_edits (h : Edits start c e) : Edits start c.sync e := by
  unfold Core.sync
  split_ifs
  · exact edits_kept start c e _ h rfl rfl rfl rfl rfl
  · exact h

theorem poll_port (arrived : List UInt8) :
    (c.poll arrived).port = c.port ∧ (c.poll arrived).prompt = c.prompt := by
  unfold Core.poll
  rcases c.bridge.poll c.transport arrived with ⟨answered, bridge, transport⟩
  exact ⟨rfl, rfl⟩

theorem poll_edits (arrived : List UInt8) (h : Edits start c e) :
    Edits start (c.poll arrived) e := by
  obtain ⟨hsession, hcapturing, -, -⟩ := poll_rest c arrived
  obtain ⟨hport, hprompt⟩ := poll_port c arrived
  exact edits_kept start c e _ h hsession hcapturing hprompt (poll_kept c arrived).next hport

theorem holds_text (mode : Mode) (h : Holds c mode) : ∃ text, Wiped c.session text := by
  cases mode with
  | idle => exact ⟨_, h.1⟩
  | secret text => exact ⟨_, h.1⟩
  | prompt text => exact ⟨_, h.1⟩

theorem wiped_capturing (s : Session) (text : Option (List UInt8)) (h : Wiped s text) :
    s.isCapturingSecret = text.isSome := by
  have hstate := h.state
  unfold Session.isCapturingSecret
  cases text with
  | none => simpa using hstate
  | some text => simpa using hstate

theorem cancelCapture_wiped (mode : Mode) (h : Holds c mode) :
    Wiped c.cancelCapture.session none := by
  obtain ⟨text, hwiped⟩ := holds_text c mode h
  have hcapturing := wiped_capturing c.session text hwiped
  unfold Core.cancelCapture
  split_ifs with hsecret
  · exact apply_wiped c.session text .cancel hwiped
  · cases text with
    | none => exact hwiped
    | some text => exact absurd hcapturing hsecret

theorem cancelCapture_port : c.cancelCapture.port = c.port := by
  unfold Core.cancelCapture
  split_ifs <;> rfl

theorem goto_edits (screen : ScreenId) (h : Edits start c e) (hstudio : c.current = .aiStudio) :
    Edits start (c.act (.goto screen)) { e with mode := .idle } := by
  have hleave : c.leave = { c.cancelCapture with capturingPrompt := false } := if_pos hstudio
  have hwiped := cancelCapture_wiped c e.mode h.mode
  refine edits_mode start c e _ .idle h ⟨?_, ?_⟩ ?_ ?_
  · show Wiped c.leave.session none
    rw [hleave]
    exact hwiped
  · show c.leave.capturingPrompt = false
    rw [hleave]
  · show c.leave.bridge.nextTaskId = c.bridge.nextTaskId
    rw [(leave_kept c).1]
  · show c.leave.port = c.port
    rw [hleave]
    exact cancelCapture_port c

theorem request_edits (taskType : TaskType) (input : List UInt8) (contextFlags : UInt32)
    (h : Edits start c e) (hserviced : Serviced c) (htype : taskType ≠ .hnlang) :
    Edits start (c.act (.request taskType input contextFlags))
      { e with submissions := e.submissions + 1 } := by
  have hroute := route_serviced c taskType hserviced
  rw [if_neg htype] at hroute
  have hreplaced := request_replaced c taskType input contextFlags hserviced
  obtain ⟨hsession, hcapturing, -, -⟩ := request_rest c taskType input contextFlags
  have hport : (c.act (.request taskType input contextFlags)).port = c.port ∧
      (c.act (.request taskType input contextFlags)).prompt = c.prompt := by
    unfold Core.act
    simp only
    have hsubmit : (c.submit taskType input contextFlags).2.port = c.port ∧
        (c.submit taskType input contextFlags).2.prompt = c.prompt := by
      unfold Core.submit Bridge.submit
      rw [hroute]
      exact ⟨rfl, rfl⟩
    rcases hresult : c.submit taskType input contextFlags with ⟨accepted, d⟩
    rw [hresult] at hsubmit
    cases accepted with
    | true =>
      obtain ⟨hpoll, hpollPrompt⟩ := poll_port d []
      exact ⟨hpoll.trans hsubmit.1, hpollPrompt.trans hsubmit.2⟩
    | false => exact hsubmit
  refine ⟨holds_kept c _ e.mode h.mode hsession hcapturing hport.2, ?_, ?_, ?_⟩
  · rw [hreplaced.next, h.number]
    show UInt32.ofNat (e.submissions + 1) + UInt32.ofNat 1 = _
    rw [← UInt32.ofNat_add]
  · rw [hport.1]
    exact h.written
  · rw [hport.1]
    exact h.reliable

theorem press_edits (b : StudioButton) (h : Edits start c e) :
    Edits start (run Core.act c (pressAct b))
      (e.press (c.bridge.lastTask.status == .running) b) := by
  obtain ⟨text, hwiped⟩ := holds_text c e.mode h.mode
  cases b with
  | subscription =>
    exact edits_mode start c e _ .idle h
      ⟨apply_wiped c.session text .beginSubscriptionLogin hwiped, rfl⟩ rfl rfl
  | apiKey =>
    exact edits_mode start c e _ (.secret []) h ⟨beginApiKey_wiped c.session, rfl⟩ rfl rfl
  | generate =>
    show Edits start (c.act .generate) (if c.bridge.lastTask.status == .running then e
      else { e with mode := .prompt [] })
    unfold Core.act
    simp only [beq_iff_eq]
    split_ifs
    · exact h
    · have hsecret := cancelCapture_wiped c e.mode h.mode
      have hbridge := (cancelCapture_kept c).1
      refine edits_mode start c e _ (.prompt []) h ⟨hsecret, rfl, rfl⟩ ?_ (cancelCapture_port c)
      show c.cancelCapture.bridge.nextTaskId = c.bridge.nextTaskId
      rw [hbridge]
  | review => exact h
  | build => exact h

theorem promptChar_chars (prompt : CText 160) (ch : UInt8) :
    (Hnmos.promptChar prompt ch).chars = typed promptCharacter 159 prompt.chars ch := by
  unfold Hnmos.promptChar typed promptCharacter
  by_cases h : (32 ≤ ch.toNat ∧ ch.toNat ≤ 126) ∧ prompt.chars.length + 1 < 160
  · rw [dif_pos h, if_pos]
    simp only [Bool.and_eq_true, decide_eq_true_eq]
    exact ⟨h.1, by omega⟩
  · rw [dif_neg h, if_neg]
    simp only [Bool.and_eq_true, decide_eq_true_eq]
    exact fun hn => h ⟨hn.1, by omega⟩

theorem secretChar_edits (text : List UInt8) (ch : UInt8) (h : Edits start c e)
    (hmode : e.mode = .secret text) :
    Edits start (c.act (.secretChar ch))
      { e with mode := .secret (typed keyCharacter 191 text ch) } := by
  have hholds := h.mode
  rw [hmode] at hholds
  exact edits_mode start c e _ _ h
    ⟨capture_wiped c.session (some text) ch hholds.1, hholds.2⟩ rfl rfl

theorem promptChar_edits (text : List UInt8) (ch : UInt8) (h : Edits start c e)
    (hmode : e.mode = .prompt text) :
    Edits start (c.act (.promptChar ch))
      { e with mode := .prompt (typed promptCharacter 159 text ch) } := by
  have hholds := h.mode
  rw [hmode] at hholds
  obtain ⟨hwiped, hcapturing, hchars⟩ := hholds
  refine edits_mode start c e _ _ h ⟨hwiped, hcapturing, ?_⟩ rfl rfl
  show (Hnmos.promptChar c.prompt ch).chars = _
  rw [promptChar_chars, hchars]

theorem secretBackspace_edits (text : List UInt8) (h : Edits start c e)
    (hmode : e.mode = .secret text) :
    Edits start (c.act .secretBackspace) { e with mode := .secret text.dropLast } := by
  have hholds := h.mode
  rw [hmode] at hholds
  exact edits_mode start c e _ _ h ⟨backspace_wiped c.session (some text) hholds.1, hholds.2⟩
    rfl rfl

theorem promptBackspace_edits (text : List UInt8) (h : Edits start c e)
    (hmode : e.mode = .prompt text) :
    Edits start (c.act .promptBackspace) { e with mode := .prompt text.dropLast } := by
  have hholds := h.mode
  rw [hmode] at hholds
  obtain ⟨hwiped, hcapturing, hchars⟩ := hholds
  refine edits_mode start c e _ _ h ⟨hwiped, hcapturing, ?_⟩ rfl rfl
  show c.prompt.chars.dropLast = text.dropLast
  rw [hchars]

theorem sent_concat (frame : Sent) : start ++ (e.sent ++ [frame]).flatMap Sent.bytes =
    (start ++ e.sent.flatMap Sent.bytes) ++ frame.bytes := by
  rw [List.flatMap_append, List.flatMap_singleton, List.append_assoc]

theorem secretEnter_edits (text : List UInt8) (h : Edits start c e) (hserviced : Serviced c)
    (hmode : e.mode = .secret text) : Edits start (c.act .secretEnter) e.enter := by
  have hholds := h.mode
  rw [hmode] at hholds
  have hwiped := submit_wiped c.session (some text) c.transport c.port hholds.1
  have hport : (c.act .secretEnter).port =
      if 8 ≤ text.length ∧ c.transport.ready = true then c.port.writeText (keyFrame text)
      else c.port := submit_port c.session text c.transport c.port hholds.1
  rw [hserviced.transport] at hport
  have henter : e.enter = { e with
      mode := .idle
      sent := if 8 ≤ text.length then e.sent ++ [.key text] else e.sent } := by
    unfold Editor.enter
    rw [hmode]
  rw [henter]
  by_cases hlong : 8 ≤ text.length
  · rw [if_pos ⟨hlong, rfl⟩] at hport
    refine ⟨⟨hwiped, hholds.2⟩, h.number, ?_, ?_⟩
    · rw [hport, writeText_written _ _ h.reliable, h.written, if_pos hlong, sent_concat]
      rfl
    · rw [hport]
      exact reliable_writeText _ _ h.reliable
  · rw [if_neg (fun hn => hlong hn.1)] at hport
    refine ⟨⟨hwiped, hholds.2⟩, h.number, ?_, ?_⟩
    · rw [hport, if_neg hlong]
      exact h.written
    · rw [hport]
      exact h.reliable

theorem promptEnter_core (hserviced : Serviced c) (hne : c.prompt.chars ≠ []) :
    c.act .promptEnter = { c with
      bridge := { c.bridge with
        lastTask := { c.bridge.prepared .hnlang (some c.prompt.chars) 16 with status := .running }
        nextTaskId := c.bridge.nextTaskId + 1
        lastProvider := some .serial }
      port := c.port.writeText (requestFrame c.bridge.nextTaskId .hnlang c.prompt.chars
        hnlangAiSystemContract)
      capturingPrompt := false } := by
  have hlength : c.prompt.chars.length ≤ 159 := Nat.lt_succ_iff.mp c.prompt.fits
  have hsubmit := RequestReply.submit_text c.bridge c.transport c.port c.prompt.chars 16
    hserviced.ready hserviced.active hserviced.transport hne c.prompt.noNul hlength
  unfold Core.act
  simp only
  rw [if_neg hne, Core.submit, hsubmit]

theorem promptEnter_edits (text : List UInt8) (h : Edits start c e) (hserviced : Serviced c)
    (hmode : e.mode = .prompt text) : Edits start (c.act .promptEnter) e.enter := by
  have hholds := h.mode
  rw [hmode] at hholds
  obtain ⟨hwiped, hcapturing, hchars⟩ := hholds
  unfold Editor.enter
  rw [hmode]
  simp only
  by_cases hempty : text = []
  · rw [if_pos hempty, promptEnter_empty c (hchars.trans hempty)]
    exact h
  · have hne : c.prompt.chars ≠ [] := by rwa [hchars]
    rw [if_neg hempty, promptEnter_core c hserviced hne]
    generalize hframe :
      requestFrame c.bridge.nextTaskId .hnlang c.prompt.chars hnlangAiSystemContract = frame
    refine ⟨⟨hwiped, rfl⟩, ?_, ?_, ?_⟩
    · show c.bridge.nextTaskId + 1 = UInt32.ofNat (e.submissions + 1 + 1)
      rw [h.number]
      show UInt32.ofNat (e.submissions + 1) + UInt32.ofNat 1 = _
      rw [← UInt32.ofNat_add]
    · show (c.port.writeText _).written = _
      rw [writeText_written _ _ h.reliable, h.written, sent_concat, ← hframe, h.number, hchars]
      rfl
    · exact reliable_writeText _ _ h.reliable

end

section
variable (start : List UInt8) (k : Kernel) (e : Editor)

theorem pressed_edits (b : StudioButton) (h : Edits start k.core e) :
    Edits start (run Core.act k.core (pressAct b ++ [.sync])) (e.press k.running b) := by
  rw [run_append]
  exact sync_edits start _ _ (press_edits start k.core e b h)

theorem hover_edits (x y : UInt32) (h : Edits start k.core e) :
    Edits start (run Core.act k.core (k.hoverActs x y)) e := by
  rcases hoverActs_cases k x y with hsync | hnone
  · rw [hsync]
    exact sync_edits start k.core e h
  · rw [hnone]
    exact h

theorem command_edits (ch : UInt8) (h : Edits start k.core e) (hmode : e.mode = .idle) :
    Edits start (run Core.act k.core (commandActs ch)) (e.type k.running ch) := by
  have hpress := fun b => pressed_edits start k e b h
  unfold Editor.type
  rw [hmode]
  unfold commandActs commandButton
  split_ifs
  · exact hpress .subscription
  · exact hpress .apiKey
  · exact hpress .generate
  · exact hpress .review
  · exact hpress .build
  · have hcancel : Edits start (k.core.act .cancelTask) e :=
      edits_kept start k.core e _ h rfl rfl rfl (cancel_kept k.core.bridge).next rfl
    exact sync_edits start _ e hcancel
  · exact h

theorem keyChar_edits (ch : UInt8) (h : Edits start k.core e) :
    Edits start (run Core.act k.core (k.studioKeyCharActs ch)) (e.type k.running ch) := by
  have hholds := h.mode
  unfold Kernel.studioKeyCharActs
  cases hmode : e.mode with
  | idle =>
    rw [hmode] at hholds
    have hsecret : k.session.isCapturingSecret = false := wiped_capturing _ _ hholds.1
    have hprompt : k.system.studio.capturingPrompt = false := hholds.2
    rw [hsecret, hprompt]
    exact command_edits start k e ch h hmode
  | secret text =>
    rw [hmode] at hholds
    have hsecret : k.session.isCapturingSecret = true := wiped_capturing _ _ hholds.1
    have htype : e.type k.running ch =
        { e with mode := .secret (typed keyCharacter 191 text ch) } := by
      unfold Editor.type
      rw [hmode]
    rw [if_pos hsecret, htype]
    exact sync_edits start _ _ (secretChar_edits start k.core e text ch h hmode)
  | prompt text =>
    rw [hmode] at hholds
    have hsecret : k.session.isCapturingSecret = false := wiped_capturing _ _ hholds.1
    have hprompt : k.system.studio.capturingPrompt = true := hholds.2.1
    have htype : e.type k.running ch =
        { e with mode := .prompt (typed promptCharacter 159 text ch) } := by
      unfold Editor.type
      rw [hmode]
    rw [hsecret, hprompt, htype]
    exact sync_edits start _ _ (promptChar_edits start k.core e text ch h hmode)

theorem backspace_edits (h : Edits start k.core e) :
    Edits start (run Core.act k.core (k.studioKeyDownActs keyBackspace)) e.backspace := by
  have hholds := h.mode
  have hother : keyBackspace ≠ keyEnter := by decide
  unfold Kernel.studioKeyDownActs Editor.backspace
  cases hmode : e.mode with
  | idle =>
    rw [hmode] at hholds
    have hsecret : k.session.isCapturingSecret = false := wiped_capturing _ _ hholds.1
    have hprompt : k.system.studio.capturingPrompt = false := hholds.2
    rw [hsecret, hprompt]
    exact h
  | secret text =>
    rw [hmode] at hholds
    have hsecret : k.session.isCapturingSecret = true := wiped_capturing _ _ hholds.1
    rw [if_pos ⟨rfl, hsecret⟩]
    exact sync_edits start _ _ (secretBackspace_edits start k.core e text h hmode)
  | prompt text =>
    rw [hmode] at hholds
    have hsecret : k.session.isCapturingSecret = false := wiped_capturing _ _ hholds.1
    have hprompt : k.system.studio.capturingPrompt = true := hholds.2.1
    rw [hsecret, hprompt]
    exact sync_edits start _ _ (promptBackspace_edits start k.core e text h hmode)

theorem enter_edits (h : Edits start k.core e) (hserviced : Serviced k.core) :
    Edits start (run Core.act k.core (k.studioKeyDownActs keyEnter)) e.enter := by
  have hholds := h.mode
  unfold Kernel.studioKeyDownActs
  cases hmode : e.mode with
  | idle =>
    rw [hmode] at hholds
    have hsecret : k.session.isCapturingSecret = false := wiped_capturing _ _ hholds.1
    have hprompt : k.system.studio.capturingPrompt = false := hholds.2
    have henter : e.enter = e := by
      unfold Editor.enter
      rw [hmode]
    rw [hsecret, hprompt, henter]
    exact h
  | secret text =>
    rw [hmode] at hholds
    have hsecret : k.session.isCapturingSecret = true := wiped_capturing _ _ hholds.1
    rw [hsecret]
    exact sync_edits start _ _ (secretEnter_edits start k.core e text h hserviced hmode)
  | prompt text =>
    rw [hmode] at hholds
    have hsecret : k.session.isCapturingSecret = false := wiped_capturing _ _ hholds.1
    have hprompt : k.system.studio.capturingPrompt = true := hholds.2.1
    rw [hsecret, hprompt]
    exact sync_edits start _ _ (promptEnter_edits start k.core e text h hserviced hmode)

theorem otherKey_edits (keyCode : UInt32) (h : Edits start k.core e)
    (hback : keyCode ≠ keyBackspace) (henter : keyCode ≠ keyEnter) :
    Edits start (run Core.act k.core (k.studioKeyDownActs keyCode)) e := by
  unfold Kernel.studioKeyDownActs
  rw [if_neg (fun hn => hback hn.1), if_neg (fun hn => hback hn.1), if_neg (fun hn => henter hn.1),
    if_neg (fun hn => henter hn.1)]
  exact h

theorem mouseUp_edits (x y : UInt32) (h : Edits start k.core e) :
    Edits start (run Core.act k.core (k.mouseUpActs x y))
      (e.step k.running (match k.releasedButton x y with
        | none => .none
        | some b => .button b)) := by
  unfold Kernel.mouseUpActs
  cases k.releasedButton x y with
  | none => exact sync_edits start k.core e h
  | some b => exact pressed_edits start k e b h

theorem studio_edits (event : UiEvent) (h : Edits start k.core e) (hserviced : Serviced k.core)
    (hready : k.system.studio.ready = true) :
    Edits start (run Core.act k.core (k.studioActs event))
      (e.step k.running (k.studioGesture event)) := by
  unfold Kernel.studioActs Kernel.studioGesture
  rw [if_pos hready]
  cases event.type with
  | none => exact h
  | keyDown =>
    simp only
    by_cases hback : event.keyCode = keyBackspace
    · rw [if_pos hback, hback]
      exact backspace_edits start k e h
    by_cases henter : event.keyCode = keyEnter
    · rw [if_neg hback, if_pos henter, henter]
      exact enter_edits start k e h hserviced
    · rw [if_neg hback, if_neg henter]
      exact otherKey_edits start k e event.keyCode h hback henter
  | keyChar => exact keyChar_edits start k e event.character h
  | mouseMove => exact hover_edits start k e _ _ h
  | mouseButtonDown =>
    simp only
    split_ifs
    · rw [run_append]
      exact sync_edits start _ e (hover_edits start k e _ _ h)
    · exact h
  | mouseButtonUp =>
    simp only
    split_ifs
    · exact mouseUp_edits start k e _ _ h
    · exact h

end

theorem edits_idle (start : List UInt8) (c : Core) (e : Editor) (h : Edits start c e)
    (hmodes : Modes c) (hother : c.current ≠ .aiStudio) : e.mode = .idle := by
  have hholds := h.mode
  cases hmode : e.mode with
  | idle => rfl
  | secret text =>
    rw [hmode] at hholds
    have hsecret : c.capturesSecret = true := wiped_capturing _ _ hholds.1
    exact absurd (hmodes.confined (.inl hsecret)) hother
  | prompt text =>
    rw [hmode] at hholds
    exact absurd (hmodes.confined (.inr hholds.2.1)) hother

theorem idle_edits (start : List UInt8) (c : Core) (e : Editor) (act : Act) (h : Edits start c e)
    (hmode : e.mode = .idle) (hother : c.current ≠ .aiStudio) (hguard : Guarded c act)
    (hsubmits : act.submits = false) : Edits start (c.act act) e := by
  have hholds := h.mode
  rw [hmode] at hholds
  have hsecret : c.session.isCapturingSecret = false := wiped_capturing _ _ hholds.1
  have hsame : { e with mode := .idle } = e := by
    rw [← hmode]
  cases act with
  | subscription =>
    have hwiped := apply_wiped c.session none .beginSubscriptionLogin hholds.1
    exact hsame ▸ edits_mode start c e _ .idle h ⟨hwiped, rfl⟩ rfl rfl
  | apiKey => exact absurd hguard hother
  | generate => exact absurd hguard hother
  | secretChar ch => exact absurd (hsecret.symm.trans hguard) Bool.false_ne_true
  | secretBackspace => exact absurd (hsecret.symm.trans hguard) Bool.false_ne_true
  | secretEnter => exact absurd (hsecret.symm.trans hguard) Bool.false_ne_true
  | promptChar ch => exact absurd (hholds.2.symm.trans hguard.2) Bool.false_ne_true
  | promptBackspace => exact absurd (hholds.2.symm.trans hguard.2) Bool.false_ne_true
  | promptEnter => exact Bool.noConfusion hsubmits
  | cancelTask =>
    exact edits_kept start c e _ h rfl rfl rfl (cancel_kept c.bridge).next rfl
  | sync => exact sync_edits start c e h
  | goto screen =>
    have hleave : c.leave = c := if_neg hother
    refine edits_kept start c e _ h ?_ ?_ ?_ ?_ ?_
    · show c.leave.session = c.session
      rw [hleave]
    · show c.leave.capturingPrompt = c.capturingPrompt
      rw [hleave]
    · show c.leave.prompt = c.prompt
      rw [hleave]
    · show c.leave.bridge.nextTaskId = c.bridge.nextTaskId
      rw [hleave]
    · show c.leave.port = c.port
      rw [hleave]
  | request taskType input contextFlags => exact Bool.noConfusion hsubmits
  | poll arrived => exact poll_edits start c e arrived h
  | receive arrived => exact edits_kept start c e _ h rfl rfl rfl rfl rfl
  | halt => exact edits_kept start c e _ h rfl rfl rfl rfl rfl

theorem batch_edits (start : List UInt8) (c : Core) (e : Editor) (acts : List Act)
    (h : Edits start c e) (hmode : e.mode = .idle) (hother : c.current ≠ .aiStudio)
    (hguard : Along Core.act Guarded c acts) (hbatch : Batch acts) :
    Edits start (run Core.act c acts) e := by
  cases hbatch with
  | none => exact h
  | halt => exact idle_edits start c e .halt h hmode hother hguard.1 rfl
  | leave screen => exact idle_edits start c e (.goto screen) h hmode hother hguard.1 rfl
  | shown => exact sync_edits start c e h
  | edit act hact =>
    exact sync_edits start _ e (idle_edits start c e act h hmode hother hguard.1 hact)

theorem back_acts (k : Kernel) (hready : k.system.routerReady = true)
    (hstudio : k.system.current = .aiStudio) : k.backActs = [.goto .launcher] := by
  unfold Kernel.backActs Kernel.setScreenActs
  rw [hstudio, if_neg (by decide), if_pos hready, findScreen_code]
  rfl

theorem studioEvent_edits (start : List UInt8) (k : Kernel) (e : Editor) (event : UiEvent)
    (htracked : Tracked k) (h : Edits start k.core e) (hstudio : k.system.current = .aiStudio) :
    Edits start (run Core.act k.core (k.eventActs event))
      (e.step k.running
        (if event.type = .keyDown ∧ event.keyCode = keyEscape then .leave
          else if k.system.studio.ready then k.studioGesture event
          else .none)) := by
  rw [Kernel.eventActs, if_pos htracked.ready]
  by_cases hescape : event.type = .keyDown ∧ event.keyCode = keyEscape
  · have hother : k.system.current ≠ .launcher := by
      rw [hstudio]
      decide
    rw [if_pos hescape, if_pos ⟨hescape.1, hescape.2, hother⟩,
      back_acts k htracked.ready hstudio]
    exact goto_edits start k.core e .launcher h hstudio
  rw [if_neg hescape, if_neg (fun hn => hescape ⟨hn.1, hn.2.1⟩)]
  by_cases hhelp : event.type = .keyDown ∧ event.keyCode = keyF1
  · have hgesture : k.studioGesture event = .none := by
      unfold Kernel.studioGesture
      rw [hhelp.1, hhelp.2]
      rfl
    rw [if_pos hhelp, hgesture, ite_self, hstudio]
    exact sync_edits start k.core e h
  · have hshortcut : k.shortcutActs event = none := if_pos (.inr (.inr (.inl hstudio)))
    have hscreen : k.screenActs event = k.studioActs event := by
      rw [Kernel.screenActs, hstudio]
    rw [if_neg hhelp, hshortcut]
    simp only
    rw [hscreen]
    by_cases hready : k.system.studio.ready = true
    · rw [if_pos hready]
      exact studio_edits start k e event h htracked.serviced hready
    · rw [if_neg hready, Kernel.studioActs, if_neg hready]
      exact h

theorem otherEvent_edits (start : List UInt8) (k : Kernel) (e : Editor) (event : UiEvent)
    (htracked : Tracked k) (h : Edits start k.core e) (hother : k.system.current ≠ .aiStudio)
    (hasks : ¬ k.asks (.event event)) :
    Edits start (run Core.act k.core (k.acts (.event event))) e := by
  have hmode := edits_idle start k.core e h htracked.modes hother
  have hguard := acts_guarded k (.event event)
  have hcases := acts_cases k (.event event)
  generalize k.acts (.event event) = acts at hguard hcases ⊢
  cases hcases with
  | batch hbatch => exact batch_edits start k.core e acts h hmode hother hguard hbatch
  | asked taskType text contextFlags hask => exact absurd hask hasks
  | prompted hprompts => exact absurd hprompts.2.1 hother
  | received arrived => exact edits_kept start k.core e _ h rfl rfl rfl rfl rfl
  | polled arrived => exact poll_edits start k.core e arrived h

theorem step_edits (start : List UInt8) (k : Kernel) (e : Editor) (input : Input)
    (htracked : Tracked k) (h : Edits start k.core e) :
    Edits start (k.step input).core (e.step k.running (k.gesture input)) := by
  rw [step_core]
  unfold Kernel.gesture
  by_cases hhalted : k.system.halted = true
  · have hacts : k.acts input = [] := if_pos hhalted
    rw [hacts, if_pos hhalted]
    exact h
  rw [if_neg hhalted]
  by_cases hasks : k.asks input
  · have hguard := acts_guarded k input
    obtain ⟨taskType, text, contextFlags, hacts⟩ := asks_acts k input htracked.ready hasks
    rw [hacts] at hguard ⊢
    rw [if_pos hasks]
    exact request_edits start k.core e taskType text contextFlags h htracked.serviced hguard.1.1
  rw [if_neg hasks]
  cases input with
  | service arrived =>
    have hacts : k.acts (.service arrived) = k.pollActs arrived := if_neg hhalted
    have hpoll := poll_edits start k.core e arrived h
    rw [hacts]
    show Edits start (run Core.act k.core (k.pollActs arrived)) e
    unfold Kernel.pollActs
    split_ifs
    · exact sync_edits start _ e hpoll
    · exact hpoll
  | receive arrived =>
    have hacts : k.acts (.receive arrived) = [.receive arrived] := if_neg hhalted
    rw [hacts]
    exact edits_kept start k.core e _ h rfl rfl rfl rfl rfl
  | event event =>
    simp only
    by_cases hstudio : k.system.current = .aiStudio
    · have hacts : k.acts (.event event) = k.eventActs event := if_neg hhalted
      rw [if_pos hstudio, hacts]
      exact studioEvent_edits start k e event htracked h hstudio
    · rw [if_neg hstudio]
      exact otherEvent_edits start k e event htracked h hstudio hasks

theorem run_edits (start : List UInt8) (k : Kernel) (e : Editor) (inputs : List Input)
    (htracked : Tracked k) (h : Edits start k.core e) :
    Edits start (run Kernel.step k inputs).core (k.edited e inputs) := by
  induction inputs generalizing k e with
  | nil => exact h
  | cons input inputs ih =>
    exact ih (k.step input) _ (step_tracked k input htracked)
      (step_edits start k e input htracked h)

theorem boot_edits (k : Kernel) (h : k.port.Reliable) :
    Edits k.port.written k.boot.core Editor.init := by
  rw [boot_core]
  have hwiped : Wiped k.session.init none := session_wiped k.session []
  exact ⟨⟨hwiped, rfl⟩, rfl, (List.append_nil _).symm, h⟩

theorem edited_numbered (k : Kernel) (e : Editor) (inputs : List Input) (h : e.Numbered) :
    (k.edited e inputs).Numbered := by
  induction inputs generalizing k e with
  | nil => exact h
  | cons input inputs ih =>
    exact ih (k.step input) _ (gesture_numbered k.running e (k.gesture input) h)

/-- On a port that takes every byte, what every run puts on the line is what
the line editor sends at the gestures of the run; a request carries the number
of its submission modulo 2 ^ 32, the numbers increase, and no two identifiers
agree in a run of at most 2 ^ 32 submissions. -/
theorem output_edited (k : Kernel) (inputs : List Input) (h : k.port.Reliable) :
    let e := k.boot.edited Editor.init inputs
    (run Kernel.step k.boot inputs).port.written =
      k.port.written ++ e.sent.flatMap Sent.bytes ∧
    e.Numbered ∧ (e.submissions ≤ 2 ^ 32 → e.ids.Nodup) := by
  intro e
  have hedits := run_edits k.port.written k.boot Editor.init inputs (boot_tracked k)
    (boot_edits k h)
  have hnumbered : e.Numbered := edited_numbered k.boot Editor.init inputs editor_numbered
  exact ⟨hedits.written, hnumbered, ids_nodup e hnumbered⟩

theorem output_edited_answered :
    let e := powerOn.boot.edited Editor.init answeredInputs
    (run Kernel.step powerOn.boot answeredInputs).port.written =
      powerOn.port.written ++ e.sent.flatMap Sent.bytes ∧ e.sent = [.request 1 [97]] := by
  have hsent : (powerOn.boot.edited Editor.init answeredInputs).sent = [.request 1 [97]] := by
    decide +kernel
  exact ⟨(output_edited powerOn answeredInputs readyUart_reliable).1, hsent⟩

structure Open (k : Kernel) : Prop where
  router : k.system.routerReady = true
  studio : k.system.studio.ready = true
  running : k.system.halted = false
  current : k.system.current = .aiStudio

theorem step_open (k : Kernel) (input : Input) (h : Open k)
    (hhalted : (k.step input).core.halted = false)
    (hcurrent : (k.step input).core.current = .aiStudio) : Open (k.step input) := by
  have hsteady := step_steady k input
  exact ⟨hsteady.router.trans h.router, hsteady.studio.trans h.studio, hhalted, hcurrent⟩

theorem open_acts (k : Kernel) (event : UiEvent) (h : Open k)
    (hplain : event.type = .keyDown → event.keyCode ≠ keyEscape ∧ event.keyCode ≠ keyF1) :
    k.acts (.event event) = k.studioActs event := by
  have hshortcut : k.shortcutActs event = none := if_pos (.inr (.inr (.inl h.current)))
  have hscreen : k.screenActs event = k.studioActs event := by
    rw [Kernel.screenActs, h.current]
  show (if k.system.halted = true then [] else k.eventActs event) = _
  rw [h.running, if_neg Bool.false_ne_true, Kernel.eventActs, if_pos h.router,
    if_neg (fun hn => (hplain hn.1).1 hn.2.1), if_neg (fun hn => (hplain hn.1).2 hn.2), hshortcut]
  exact hscreen

theorem down_core (k : Kernel) (event : UiEvent) (h : Open k) (htype : event.type = .keyDown)
    (hescape : event.keyCode ≠ keyEscape) (hhelp : event.keyCode ≠ keyF1) :
    (k.step (.event event)).core =
      run Core.act k.core (k.studioKeyDownActs event.keyCode) := by
  rw [step_core, open_acts k event h fun _ => ⟨hescape, hhelp⟩, Kernel.studioActs,
    if_pos h.studio, htype]

theorem char_core (k : Kernel) (event : UiEvent) (h : Open k) (htype : event.type = .keyChar) :
    (k.step (.event event)).core =
      run Core.act k.core (k.studioKeyCharActs event.character) := by
  have hplain : event.type = .keyDown → event.keyCode ≠ keyEscape ∧ event.keyCode ≠ keyF1 := by
    rw [htype]
    exact nofun
  rw [step_core, open_acts k event h hplain, Kernel.studioActs, if_pos h.studio, htype]

theorem key_core (k : Kernel) (c : UInt8) (h : Open k)
    (hplain : c.toUInt32 ≠ keyEscape ∧ c.toUInt32 ≠ keyF1 ∧ c.toUInt32 ≠ keyBackspace ∧
      c.toUInt32 ≠ keyEnter)
    (hhalted : (run Core.act k.core (k.studioKeyCharActs c)).halted = false)
    (hcurrent : (run Core.act k.core (k.studioKeyCharActs c)).current = .aiStudio) :
    Open (run Kernel.step k ((keyEvents c).map Input.event)) ∧
      (run Kernel.step k ((keyEvents c).map Input.event)).core =
        run Core.act k.core (k.studioKeyCharActs c) := by
  obtain ⟨hescape, hhelp, hback, henter⟩ := hplain
  have hnone : k.studioKeyDownActs c.toUInt32 = [] := by
    unfold Kernel.studioKeyDownActs
    rw [if_neg (fun hn => hback hn.1), if_neg (fun hn => hback hn.1),
      if_neg (fun hn => henter hn.1), if_neg (fun hn => henter hn.1)]
  have hkeys : ∃ down up : UiEvent, keyEvents c = [down, up] ∧ down.type = .keyDown ∧
      down.keyCode = c.toUInt32 ∧ up.type = .keyChar ∧ up.character = c :=
    ⟨_, _, rfl, rfl, rfl, rfl, rfl⟩
  obtain ⟨down, up, hkeys, hdownType, hcode, hupType, hcharacter⟩ := hkeys
  rw [hkeys]
  show Open ((k.step (.event down)).step (.event up)) ∧
    ((k.step (.event down)).step (.event up)).core = _
  have hdown := down_core k down h hdownType (hcode ▸ hescape) (hcode ▸ hhelp)
  rw [hcode, hnone, run_nil] at hdown
  have hopen := step_open k (.event down) h (hdown ▸ h.running) (hdown ▸ h.current)
  generalize k.step (.event down) = j at hdown hopen
  have hsecret : j.session.isCapturingSecret = k.session.isCapturingSecret :=
    congrArg Core.capturesSecret hdown
  have hprompt : j.system.studio.capturingPrompt = k.system.studio.capturingPrompt :=
    congrArg Core.capturingPrompt hdown
  have hacts : j.studioKeyCharActs c = k.studioKeyCharActs c := by
    unfold Kernel.studioKeyCharActs
    rw [hsecret, hprompt]
  have hchar := char_core j up hopen hupType
  rw [hcharacter, hacts, hdown] at hchar
  exact ⟨step_open j (.event up) hopen (hchar ▸ hhalted) (hchar ▸ hcurrent), hchar⟩

theorem sync_undone (c : Core) (h : c.bridge.lastTask.status ≠ .done) : c.sync = c := by
  unfold Core.sync
  rw [if_neg]
  intro hn
  have hunsaved := hn.2.1
  simp only [Core.unsaved, Bool.and_eq_true, beq_iff_eq] at hunsaved
  exact h hunsaved.1.2

structure Resting (c : Core) : Prop where
  serviced : Serviced c
  secret : c.capturesSecret = false
  prompt : c.capturingPrompt = false
  notRunning : c.bridge.lastTask.status ≠ .running
  notDone : c.bridge.lastTask.status ≠ .done

def letterA : CText 160 := ⟨[97], by decide, by decide⟩

def Core.drafting (c : Core) (prompt : CText 160) : Core :=
  { c with prompt := prompt, capturingPrompt := true }

theorem generate_core (c : Core) (h : Resting c) :
    run Core.act c [.generate, .sync] = c.drafting (CText.empty 160) := by
  have hcancel : c.cancelCapture = c :=
    if_neg (fun hn => Bool.false_ne_true (h.secret.symm.trans hn))
  have hact : c.act .generate = c.drafting (CText.empty 160) := by
    unfold Core.act Core.drafting
    simp only
    rw [if_neg h.notRunning, hcancel]
  rw [run_cons, hact]
  exact sync_undone _ h.notDone

theorem letter_core (c : Core) (h : Resting c) :
    run Core.act (c.drafting (CText.empty 160)) [.promptChar 97, .sync] = c.drafting letterA :=
  sync_undone (c.drafting letterA) h.notDone

structure PromptSent (c : Core) (prompt : CText 160) (d : Core) : Prop where
  serviced : Serviced d
  secret : d.capturesSecret = false
  closed : d.capturingPrompt = false
  running : d.bridge.lastTask.status = .running
  halted : d.halted = c.halted
  current : d.current = c.current
  port : d.port = c.port.writeText (requestFrame c.bridge.nextTaskId .hnlang prompt.chars
    hnlangAiSystemContract)
  next : d.bridge.nextTaskId = c.bridge.nextTaskId + 1

theorem sent_core (c : Core) (prompt : CText 160) (h : Resting c) (hne : prompt.chars ≠ []) :
    PromptSent c prompt (run Core.act (c.drafting prompt) [.promptEnter, .sync]) := by
  have hserviced : Serviced (c.drafting prompt) :=
    ⟨h.serviced.ready, h.serviced.active, h.serviced.localProvider, h.serviced.files,
      h.serviced.transport⟩
  have henter := promptEnter_core (c.drafting prompt) hserviced hne
  have hsent := act_serviced (c.drafting prompt) .promptEnter hserviced
  rw [henter] at hsent
  have hrun : run Core.act (c.drafting prompt) [.promptEnter, .sync] =
      ((c.drafting prompt).act .promptEnter).sync := rfl
  have hundone : ((c.drafting prompt).act .promptEnter).bridge.lastTask.status ≠ .done := by
    rw [henter]
    nofun
  have hsecret : c.session.isCapturingSecret = false := h.secret
  have hport : ((c.drafting prompt).act .promptEnter).port = c.port.writeText
      (requestFrame c.bridge.nextTaskId .hnlang prompt.chars hnlangAiSystemContract) := by
    rw [henter]
    simp only [Core.drafting]
  rw [hrun, sync_undone _ hundone, henter]
  rw [henter] at hport
  exact ⟨hsent, hsecret, rfl, rfl, rfl, rfl, hport, rfl⟩

theorem cancel_core (d : Core) (hserviced : Serviced d) (hsecret : d.capturesSecret = false)
    (hprompt : d.capturingPrompt = false) (hrunning : d.bridge.lastTask.status = .running) :
    Resting (run Core.act d [.cancelTask, .sync]) ∧
      run Core.act d [.cancelTask, .sync] = { d with
        bridge := { d.bridge with
          lastTask := closeTask d.bridge.lastTask (ascii "AI request cancelled locally.")
            .cancelled } } := by
  have hcancel : d.act .cancelTask = { d with
      bridge := { d.bridge with
        lastTask := closeTask d.bridge.lastTask (ascii "AI request cancelled locally.")
          .cancelled } } := by
    rcases cancel_slot d.bridge with ⟨hclosed, -⟩ | ⟨-, hcancel⟩
    · exact absurd (.inl hrunning) hclosed
    · show { d with bridge := d.bridge.cancel.2 } = _
      rw [hcancel]
  have hclosed := act_serviced d .cancelTask hserviced
  rw [hcancel] at hclosed
  have hcore : run Core.act d [.cancelTask, .sync] = { d with
      bridge := { d.bridge with
        lastTask := closeTask d.bridge.lastTask (ascii "AI request cancelled locally.")
          .cancelled } } := by
    rw [run_cons, hcancel]
    exact sync_undone _ nofun
  rw [hcore]
  exact ⟨⟨hclosed, hsecret, hprompt, nofun, nofun⟩, rfl⟩

def roundInputs : List Input :=
  ((keyEvents 103).map Input.event ++ (keyEvents 97).map Input.event) ++
    (enterEvents.map Input.event ++ (keyEvents 120).map Input.event)

theorem draft_open (k : Kernel) (hopen : Open k) (h : Resting k.core) :
    Open (run Kernel.step k ((keyEvents 103).map Input.event ++ (keyEvents 97).map Input.event)) ∧
      (run Kernel.step k ((keyEvents 103).map Input.event ++
        (keyEvents 97).map Input.event)).core = k.core.drafting letterA := by
  have hgenerate : run Core.act k.core (k.studioKeyCharActs 103) =
      k.core.drafting (CText.empty 160) := by
    have hsecret : k.session.isCapturingSecret = false := h.secret
    have hprompt : k.system.studio.capturingPrompt = false := h.prompt
    have hacts : k.studioKeyCharActs 103 = [.generate, .sync] := by
      unfold Kernel.studioKeyCharActs
      rw [hsecret, hprompt]
      rfl
    rw [hacts]
    exact generate_core k.core h
  have hfirst := key_core k 103 hopen (by decide) (by rw [hgenerate]; exact hopen.running)
    (by rw [hgenerate]; exact hopen.current)
  rw [hgenerate] at hfirst
  rw [run_append]
  generalize run Kernel.step k ((keyEvents 103).map Input.event) = j at hfirst
  obtain ⟨hjopen, hjcore⟩ := hfirst
  have hletter : run Core.act j.core (j.studioKeyCharActs 97) = k.core.drafting letterA := by
    have hsecret : j.session.isCapturingSecret = false :=
      (congrArg Core.capturesSecret hjcore).trans h.secret
    have hprompt : j.system.studio.capturingPrompt = true := congrArg Core.capturingPrompt hjcore
    have hacts : j.studioKeyCharActs 97 = [.promptChar 97, .sync] := by
      unfold Kernel.studioKeyCharActs
      rw [hsecret, hprompt]
      rfl
    rw [hacts, hjcore]
    exact letter_core k.core h
  have hsecond := key_core j 97 hjopen (by decide) (by rw [hletter]; exact hopen.running)
    (by rw [hletter]; exact hopen.current)
  rwa [hletter] at hsecond

theorem enter_open (i : Kernel) (c : Core) (hopen : Open i) (h : Resting c)
    (hcore : i.core = c.drafting letterA) :
    Open (run Kernel.step i (enterEvents.map Input.event)) ∧
      PromptSent c letterA (run Kernel.step i (enterEvents.map Input.event)).core := by
  have hevents : ∃ event, enterEvents = [event] ∧ event.type = .keyDown ∧
      event.keyCode = keyEnter := ⟨_, rfl, rfl, rfl⟩
  obtain ⟨event, hevents, htype, hcode⟩ := hevents
  rw [hevents]
  have hdown := down_core i event hopen htype (by rw [hcode]; decide) (by rw [hcode]; decide)
  have hacts : i.studioKeyDownActs event.keyCode = [.promptEnter, .sync] := by
    have hsecret : i.session.isCapturingSecret = false :=
      (congrArg Core.capturesSecret hcore).trans h.secret
    have hprompt : i.system.studio.capturingPrompt = true := congrArg Core.capturingPrompt hcore
    rw [hcode]
    unfold Kernel.studioKeyDownActs
    rw [hsecret, hprompt]
    rfl
  rw [hacts, hcore] at hdown
  have hsent := sent_core c letterA h (List.cons_ne_nil 97 [])
  rw [← hdown] at hsent
  have hhalted : c.halted = false := (congrArg Core.halted hcore).symm.trans hopen.running
  have hcurrent : c.current = .aiStudio := (congrArg Core.current hcore).symm.trans hopen.current
  exact ⟨step_open i (.event event) hopen (hsent.halted.trans hhalted)
    (hsent.current.trans hcurrent), hsent⟩

theorem round_sent (k : Kernel) (hopen : Open k) (h : Resting k.core) :
    Open (run Kernel.step k roundInputs) ∧ Resting (run Kernel.step k roundInputs).core ∧
      (run Kernel.step k roundInputs).port = k.port.writeText
        (requestFrame k.system.bridge.nextTaskId .hnlang [97] hnlangAiSystemContract) ∧
      (run Kernel.step k roundInputs).system.bridge.nextTaskId =
        k.system.bridge.nextTaskId + 1 := by
  obtain ⟨hiopen, hicore⟩ := draft_open k hopen h
  rw [roundInputs, run_append, run_append]
  generalize run Kernel.step k ((keyEvents 103).map Input.event ++
    (keyEvents 97).map Input.event) = i at hiopen hicore
  obtain ⟨hjopen, hsent⟩ := enter_open i k.core hiopen h hicore
  generalize run Kernel.step i (enterEvents.map Input.event) = j at hjopen hsent
  obtain ⟨hresting, hcancelled⟩ :=
    cancel_core j.core hsent.serviced hsent.secret hsent.closed hsent.running
  have hsecret : j.session.isCapturingSecret = false := hsent.secret
  have hprompt : j.system.studio.capturingPrompt = false := hsent.closed
  have hacts : j.studioKeyCharActs 120 = [.cancelTask, .sync] := by
    unfold Kernel.studioKeyCharActs
    rw [hsecret, hprompt]
    rfl
  have hkey := key_core j 120 hjopen (by decide)
    (by rw [hacts, hcancelled]; exact hjopen.running)
    (by rw [hacts, hcancelled]; exact hjopen.current)
  rw [hacts] at hkey
  rw [← hkey.2] at hresting hcancelled
  have hletter : letterA.chars = [97] := rfl
  have hport := hsent.port
  rw [hletter] at hport
  refine ⟨hkey.1, hresting, ?_, ?_⟩
  · exact (congrArg Core.port hcancelled).trans hport
  · exact (congrArg (fun c => c.bridge.nextTaskId) hcancelled).trans hsent.next

theorem rounds_sent (k : Kernel) (hopen : Open k) (h : Resting k.core) (hport : k.port.Reliable)
    (n : ℕ) :
    let j := run Kernel.step k (List.replicate n roundInputs).flatten
    Open j ∧ Resting j.core ∧ j.port.Reliable ∧
      j.system.bridge.nextTaskId = k.system.bridge.nextTaskId + UInt32.ofNat n ∧
      j.port.written = k.port.written ++ (List.range n).flatMap fun i => requestFrame
        (k.system.bridge.nextTaskId + UInt32.ofNat i) .hnlang [97] hnlangAiSystemContract := by
  induction n with
  | zero => exact ⟨hopen, h, hport, (add_zero _).symm, (List.append_nil _).symm⟩
  | succ n ih =>
    have hrounds : (List.replicate (n + 1) roundInputs).flatten =
        (List.replicate n roundInputs).flatten ++ roundInputs := by
      rw [List.replicate_succ', List.flatten_append, List.flatten_singleton]
    rw [hrounds, run_append]
    generalize run Kernel.step k (List.replicate n roundInputs).flatten = j at ih
    obtain ⟨hjopen, hresting, hreliable, hnext, hwritten⟩ := ih
    obtain ⟨hlopen, hlresting, hsent, hcount⟩ := round_sent j hjopen hresting
    refine ⟨hlopen, hlresting, ?_, ?_, ?_⟩
    · rw [hsent]
      exact reliable_writeText _ _ hreliable
    · rw [hcount, hnext, UInt32.ofNat_add, add_assoc]
      rfl
    · rw [hsent, writeText_written _ _ hreliable, hwritten, hnext, List.range_succ,
        List.flatMap_append, List.flatMap_singleton, List.append_assoc]

theorem flatMap_ends (f : ℕ → List UInt8) (m : ℕ) :
    ∃ between, (List.range (m + 2)).flatMap f = f 0 ++ between ++ f (m + 1) := by
  refine ⟨((List.range m).map Nat.succ).flatMap f, ?_⟩
  rw [List.range_succ, List.range_succ_eq_map, List.flatMap_append, List.flatMap_cons,
    List.flatMap_singleton]

def roundsInputs (n : ℕ) : List Input :=
  (keyEvents 53).map Input.event ++ (List.replicate n roundInputs).flatten

theorem opened_rounds (n : ℕ) :
    (run Kernel.step powerOn.boot (roundsInputs n)).port.written =
      (List.range n).flatMap fun i =>
        requestFrame (1 + UInt32.ofNat i) .hnlang [97] hnlangAiSystemContract := by
  have hedits := run_edits [] powerOn.boot Editor.init ((keyEvents 53).map Input.event)
    (boot_tracked powerOn) (boot_edits powerOn readyUart_reliable)
  have hserviced : Serviced (run Kernel.step powerOn.boot ((keyEvents 53).map Input.event)).core :=
    run_invariant_all Kernel.step (fun k => Serviced k.core)
      (step_invariant Serviced fun c act h _ => act_serviced c act h) _ _ (boot_serviced powerOn)
  have hopened : (run Kernel.step powerOn.boot
        ((keyEvents 53).map Input.event)).system.routerReady = true ∧
      (run Kernel.step powerOn.boot ((keyEvents 53).map Input.event)).system.studio.ready = true ∧
      (run Kernel.step powerOn.boot ((keyEvents 53).map Input.event)).system.halted = false ∧
      (run Kernel.step powerOn.boot ((keyEvents 53).map Input.event)).system.current =
        .aiStudio := by
    decide
  have hquiet : (run Kernel.step powerOn.boot
        ((keyEvents 53).map Input.event)).session.isCapturingSecret = false ∧
      (run Kernel.step powerOn.boot
        ((keyEvents 53).map Input.event)).system.studio.capturingPrompt = false ∧
      (run Kernel.step powerOn.boot
        ((keyEvents 53).map Input.event)).system.bridge.lastTask.status = .empty ∧
      (powerOn.boot.edited Editor.init ((keyEvents 53).map Input.event)) = Editor.init := by
    decide
  rw [roundsInputs, run_append]
  generalize run Kernel.step powerOn.boot ((keyEvents 53).map Input.event) = k
    at hedits hserviced hopened hquiet
  obtain ⟨hrouter, hstudio, hrunning, hcurrent⟩ := hopened
  obtain ⟨hsecret, hprompt, hempty, heditor⟩ := hquiet
  rw [heditor] at hedits
  have hresting : Resting k.core := ⟨hserviced, hsecret, hprompt, by
    show k.system.bridge.lastTask.status ≠ .running
    rw [hempty]
    decide, by
    show k.system.bridge.lastTask.status ≠ .done
    rw [hempty]
    decide⟩
  have hrounds := rounds_sent k ⟨hrouter, hstudio, hrunning, hcurrent⟩ hresting hedits.reliable n
  have hnext : k.system.bridge.nextTaskId = 1 := hedits.number
  have hwritten : k.port.written = [] := hedits.written
  rw [hrounds.2.2.2.2, hwritten, hnext, List.nil_append]

/-- After 2 ^ 32 requests the identifier of the first is sent again. -/
theorem request_repeated : ∃ between,
    (run Kernel.step powerOn.boot (roundsInputs (2 ^ 32 - 1 + 2))).port.written =
      requestFrame 1 .hnlang [97] hnlangAiSystemContract ++ between ++
        requestFrame 1 .hnlang [97] hnlangAiSystemContract := by
  obtain ⟨between, hends⟩ := flatMap_ends
    (fun i => requestFrame (1 + UInt32.ofNat i) .hnlang [97] hnlangAiSystemContract) (2 ^ 32 - 1)
  have hfirst : (1 : UInt32) + UInt32.ofNat 0 = 1 := rfl
  have hlast : (1 : UInt32) + UInt32.ofNat (2 ^ 32 - 1 + 1) = 1 := by decide
  rw [hfirst, hlast] at hends
  exact ⟨between, (opened_rounds _).trans hends⟩

end Hnmos
