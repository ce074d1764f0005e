import Mathlib
import Hnmos.System
import Hnmos.Events

/-!
# The AI Studio screen

The studio edits the prompt and drives the credential session and the bridge.
A provider result is saved while the screen is rendered. What the screen
shows of the session is its `Face`: the status, the method and the masked
text, never the secret.
-/

set_option autoImplicit false

namespace Hnmos
open Hnmos.CString Hnmos.Surface Hnmos.Widgets Hnmos.AiSession Hnmos.Task Hnmos.AiBridge
open Hnmos.Workspace Hnmos.Events

structure Face where
  status : SessionStatus
  authMethodName : List UInt8
  maskedSecret : List UInt8

def Kernel.face (k : Kernel) : Face :=
  ⟨k.session.state, k.session.authMethodName, k.session.maskedSecret 32⟩

def System.setActivity (s : System) (activity : List UInt8) : System :=
  { s with studio := { s.studio with activity := activity } }

def connectionStatus : SessionStatus → List UInt8 × List UInt8
  | .enteringApiKey => (ascii "type key; ENTER submits", ascii "masked + volatile")
  | .waitingDeviceLogin => (ascii "device login staged", ascii "network runtime required")
  | .subscriptionUnsupported =>
    (ascii "subscription is separate", ascii "use an API platform key")
  | .waitingProvider => (ascii "credential handed off", ascii "local secret cleared")
  | .invalidKey => (ascii "key rejected + cleared", ascii "minimum length is 8")
  | .disconnected => (ascii "COM2 provider bridge ready", ascii "enter key or use host env")

def Studio.placeConnection (st : Studio) (x y width : UInt32) : Studio :=
  { st with buttons := fun
      | .subscription =>
        (st.buttons .subscription).place (x + 16) (y + 68) (width - 32) 36
          (ascii "L  Subscription info")
      | .apiKey =>
        (st.buttons .apiKey).place (x + 16) (y + 116) (width - 32) 36 (ascii "K  Add API key")
      | button => st.buttons button }

def Studio.connectionOps (st : Studio) (face : Face) (x y width height : UInt32) :
    List DrawOp :=
  let theme := themeDefault
  let text below text fg := label (x + 16) (y + below) text fg theme.panel
  Panel.render ⟨⟨x, y, width, height⟩, theme.panel, theme.border⟩ ++
    text 16 (ascii "AI CONNECTION") theme.text ++
    text 38 (ascii "provider-neutral session") theme.mutedText ++
    (st.buttons .subscription).render ++ (st.buttons .apiKey).render ++
    text 168 (ascii "auth:") theme.mutedText ++
    label (x + 64) (y + 168) face.authMethodName theme.text theme.panel ++
    text 190 (connectionStatus face.status).1 theme.accentAlt ++
    text 210 (connectionStatus face.status).2 theme.mutedText ++
    fillRect (x + 16) (y + 232) (width - 32) 32 theme.background ++
    drawRect (x + 16) (y + 232) (width - 32) 32 theme.accent ++
    label (x + 24) (y + 244)
      (if face.maskedSecret ≠ [] then face.maskedSecret else ascii "secret is never displayed")
      theme.mutedText theme.background ++
    text 286 (ascii "WORKSPACE POLICY") theme.text ++
    text 312 (ascii "+ write HNLang drafts") theme.accentAlt ++
    text 334 (ascii "+ inspect build logs") theme.accentAlt ++
    text 356 (ascii "? build/network approval") theme.accent ++
    text 378 (ascii "- kernel / boot writes") theme.mutedText ++
    text 400 (ascii "- policy / driver control") theme.mutedText ++
    text 422 (ascii "deny by default") theme.accentAlt ++
    text (height - 48) (ascii "Credentials do not grant") theme.mutedText ++
    text (height - 26) (ascii "HNMos system authority.") theme.text

/-- The lines of the source view, at most `room` of them and 67 characters
each. -/
def sourceLines : ℕ → List UInt8 → List (List UInt8)
  | 0, _ => []
  | _ + 1, [] => []
  | room + 1, c :: source =>
    (((c :: source).takeWhile (· ≠ 10)).take 67).map (fun c => if c = 9 then 32 else c) ::
      sourceLines room (((c :: source).dropWhile (· ≠ 10)).drop 1)

def sourceOps (files : Files) (x y : UInt32) (background : Color) : List DrawOp :=
  let theme := themeDefault
  let source := ((files.read mainPath).bind Node.data).getD
    (ascii "# /workspace/main.hn unavailable")
  (sourceLines 9 source).zipIdx.flatMap fun (line, i) =>
    let number := UInt8.ofNat (i + 1)
    label x (y + UInt32.ofNat i * 24) [48 + number / 10, 48 + number % 10] theme.mutedText
      theme.panelAlt ++
    label (x + 40) (y + UInt32.ofNat i * 24) line theme.text background

def Studio.placeCode (st : Studio) (x y : UInt32) : Studio :=
  let actionY := y + windowTitleHeight + 286 + 24
  { st with buttons := fun
      | .generate =>
        (st.buttons .generate).place (x + 12) actionY 152 36 (ascii "G  Provider prompt")
      | .review => (st.buttons .review).place (x + 176) actionY 136 36 (ascii "R  Review")
      | .build => (st.buttons .build).place (x + 324) actionY 152 36 (ascii "B  Build request")
      | button => st.buttons button }

def Studio.codeOps (st : Studio) (files : Files) (x y width height : UInt32) : List DrawOp :=
  let theme := themeDefault
  let promptPreview := st.prompt.chars.take 63
  let bodyY := y + windowTitleHeight
  let editorHeight := 286
  let assistantY := bodyY + editorHeight + 24 + 52
  let assistantHeight :=
    if height > assistantY - y + 12 then height - (assistantY - y) - 12 else 0
  let text below text fg := label (x + 26) (assistantY + below) text fg theme.panelAlt
  Window.render ⟨⟨x, y, width, height⟩, ascii "HN AI Studio  |  main.hn  |  HNLang AI profile",
      theme.accent, theme.text, theme.panel, theme.border⟩ ++
    fillRect (x + 12) (bodyY + 12) (width - 24) editorHeight theme.background ++
    drawRect (x + 12) (bodyY + 12) (width - 24) editorHeight theme.border ++
    fillRect (x + 13) (bodyY + 13) 38 (editorHeight - 2) theme.panelAlt ++
    sourceOps files (x + 22) (bodyY + 30) theme.background ++
    label (x + 62) (bodyY + 196)
      (ascii "HNLang AI profile: 7 typed primitives + 4 bounded recipes") theme.mutedText
      theme.background ++
    label (x + 62) (bodyY + 220)
      (ascii "Combinations are bounded, typed, reusable and reviewable.") theme.mutedText
      theme.background ++
    (st.buttons .generate).render ++ (st.buttons .review).render ++
    (st.buttons .build).render ++
    Panel.render ⟨⟨x + 12, assistantY, width - 24, assistantHeight⟩, theme.panelAlt,
      theme.accentAlt⟩ ++
    text 14 (ascii "ASSISTANT / TASK PREVIEW") theme.text ++
    text 38 (ascii "prompt:") theme.mutedText ++
    label (x + 90) (assistantY + 38)
      (if promptPreview ≠ [] then promptPreview else ascii "G starts a provider prompt")
      theme.text theme.panelAlt ++
    text 62 st.activity theme.accentAlt ++
    text 86 (ascii "AI drafts; policy gates; /workspace only. X cancels.") theme.mutedText

/-- Show the state of the last HNLang task and save a result that has not
been saved yet. -/
def System.syncProviderResult (s : System) : System :=
  let task := s.bridge.lastTask
  if task.taskType ≠ .hnlang ∨ task.taskId = 0 then s
  else if task.status = .running ∨ task.status = .pending then
    s.setActivity (ascii "Provider request running over COM2 bridge")
  else if task.status = .error then
    s.setActivity (ascii "Provider request failed; verify bridge/key/model")
  else if task.status = .cancelled then
    s.setActivity (ascii "Provider request cancelled locally")
  else if task.status = .done ∧ task.taskId ≠ s.studio.savedTaskId then
    match s.files.writeHnlangDraft mainPath task.output.chars with
    | (true, files) =>
      { s with
        files := files
        studio := { s.studio with
          savedTaskId := task.taskId
          activity := ascii "Provider draft saved to /workspace/main.hn" } }
    | (false, files) =>
      { s with files := files }.setActivity
        (ascii "Provider result blocked by workspace policy")
  else s

def System.studioReady (s : System) : Bool :=
  s.studio.ready && decide (48 < s.display.fb.width) && decide (132 < s.display.fb.height)

def System.drawStudio (s : System) (face : Face) : System :=
  let fb := s.display.fb
  let contentHeight := fb.height - 108 - 24
  let rightX := 24 + 264 + 16
  let rightWidth := if fb.width > rightX + 24 then fb.width - rightX - 24 else 0
  let s := s.draw (fillRect 0 84 fb.width (fb.height - 84) themeDefault.background)
  let s := { s with studio := s.studio.placeConnection 24 108 264 }
  let s := s.draw (s.studio.connectionOps face 24 108 264 contentHeight)
  if rightWidth > 480 then
    let s := { s with studio := s.studio.placeCode rightX 108 }
    s.draw (s.studio.codeOps s.files rightX 108 rightWidth contentHeight)
  else s

def System.renderStudio (s : System) (face : Face) : System :=
  if s.studioReady then s.syncProviderResult.drawStudio face else s

def Kernel.renderStudio (k : Kernel) : Kernel := k.onSystem (·.renderStudio k.face)

def Kernel.studioInit (k : Kernel) : Kernel :=
  { k with
    system := { k.system with studio := { k.system.studio with
      pressedIndex := none
      activity := ascii "Ready: OpenAI COM2 bridge + HNLang profile"
      prompt := CText.empty 160 input_room
      savedTaskId := 0
      capturingPrompt := false
      ready := k.system.display.fb.available } }
    session := k.session.init }

def Kernel.cancelCapture (k : Kernel) : Kernel :=
  if k.session.isCapturingSecret then { k with session := k.session.cancel } else k

def System.beginPrompt (s : System) : System :=
  { s with studio := { s.studio with
      prompt := CText.empty 160 input_room
      capturingPrompt := true
      activity := ascii "Type an HNLang app request, then press ENTER" } }

def System.leavePrompt (s : System) : System :=
  { s with studio := { s.studio with capturingPrompt := false } }

def Kernel.generate (k : Kernel) : Kernel :=
  if k.system.bridge.lastTask.status = .running then
    k.onSystem (·.setActivity (ascii "A provider request is running; X cancels locally"))
  else k.cancelCapture.onSystem System.beginPrompt

def Kernel.submitPrompt (k : Kernel) : Kernel :=
  if k.system.studio.prompt.chars = [] then
    k.onSystem (·.setActivity (ascii "Prompt is empty; type a request first"))
  else if policyDecidePath .writeHnlangDraft mainPath ≠ .allow then
    k.onSystem (·.setActivity (ascii "Denied: workspace draft capability unavailable"))
  else
    match k.submit .hnlang (some k.system.studio.prompt.chars) 16 with
    | (false, k) => k.onSystem (·.setActivity (ascii "Draft failed: AI bridge unavailable"))
    | (true, k) =>
      k.onSystem fun s =>
        s.leavePrompt.setActivity (ascii "Request sent; waiting for OpenAI bridge response")

def System.review (s : System) : System :=
  s.setActivity (ascii "Review passed: workspace-only HNLang proposal")

def System.build (s : System) : System :=
  match policyDecide .runWorkspaceBuild with
  | .requireApproval => s.setActivity (ascii "Build blocked: explicit user approval is required")
  | .allow => s.setActivity (ascii "Build request queued inside workspace")
  | .deny => s.setActivity (ascii "Build denied by workspace policy")

def Kernel.press (k : Kernel) : StudioButton → Kernel
  | .subscription =>
    { k.onSystem fun s => s.leavePrompt.setActivity
        (ascii "ChatGPT subscription cannot authorize API usage") with
      session := k.session.beginSubscriptionLogin }
  | .apiKey =>
    { k.onSystem fun s => s.leavePrompt.setActivity
        (ascii "Type API key; ENTER hands it to the bridge") with
      session := k.session.beginApiKey }
  | .generate => k.generate
  | .review => k.onSystem System.review
  | .build => k.onSystem System.build

def Kernel.activate (k : Kernel) (button : StudioButton) : Kernel :=
  (k.press button).renderStudio

def Studio.hover (st : Studio) (x y : UInt32) : Studio :=
  { st with buttons := fun i => { st.buttons i with hovered := (st.buttons i).hitTest x y } }

def Studio.hoverChanges (st : Studio) (x y : UInt32) : Bool :=
  StudioButton.all.any fun i => (st.buttons i).hovered != (st.buttons i).hitTest x y

def System.setPressed (s : System) (pressedIndex : Option StudioButton) : System :=
  { s with studio := { s.studio with pressedIndex := pressedIndex } }

def Kernel.studioUpdateHover (k : Kernel) (x y : UInt32) : Kernel :=
  let changed := k.system.studio.hoverChanges x y
  let k := k.onSystem fun s => { s with studio := s.studio.hover x y }
  if changed then k.renderStudio else k

/-- Press the hovered buttons; the last of them is remembered. -/
def System.pressHovered (s : System) : System :=
  { s with studio := { s.studio with
      buttons := fun i => { s.studio.buttons i with pressed := (s.studio.buttons i).hovered }
      pressedIndex := StudioButton.all.foldl
        (fun found i => if (s.studio.buttons i).hovered then some i else found)
        s.studio.pressedIndex } }

def Kernel.studioMouseDown (k : Kernel) (x y : UInt32) : Kernel :=
  let k := (k.onSystem (·.setPressed none)).studioUpdateHover x y
  (k.onSystem System.pressHovered).renderStudio

def System.releaseButtons (s : System) : System :=
  { s with studio := { s.studio with
      buttons := fun i => { s.studio.buttons i with pressed := false } } }

def Kernel.studioMouseUp (k : Kernel) (x y : UInt32) : Kernel :=
  let pressedIndex := k.system.studio.pressedIndex
  let k := k.onSystem fun s => (s.setPressed none).releaseButtons
  match pressedIndex with
  | none => k.renderStudio
  | some button =>
    if (k.system.studio.buttons button).hitTest x y then k.activate button else k.renderStudio

def promptBackspace (prompt : CText 160) : CText 160 where
  chars := prompt.chars.dropLast
  noNul := fun h => prompt.noNul (List.mem_of_mem_dropLast h)
  fits := Nat.lt_of_le_of_lt (by simp) prompt.fits

def promptChar (prompt : CText 160) (c : UInt8) : CText 160 :=
  if h : (32 ≤ c.toNat ∧ c.toNat ≤ 126) ∧ prompt.chars.length + 1 < 160 then
    { chars := prompt.chars ++ [c]
      noNul := by
        intro hmem
        rcases List.mem_append.mp hmem with hmem | hmem
        · exact prompt.noNul hmem
        · rw [← List.mem_singleton.mp hmem] at h
          simp at h
      fits := by simpa using h.2 }
  else prompt

def System.editPrompt (s : System) (edit : CText 160 → CText 160) : System :=
  { s with studio := { s.studio with prompt := edit s.studio.prompt } }

def Kernel.studioKeyDown (k : Kernel) (keyCode : UInt32) : Kernel :=
  if keyCode = keyBackspace ∧ k.session.isCapturingSecret = true then
    { k with session := k.session.backspace }.renderStudio
  else if keyCode = keyBackspace ∧ k.system.studio.capturingPrompt = true then
    (k.onSystem (·.editPrompt promptBackspace)).renderStudio
  else if keyCode = keyEnter ∧ k.session.isCapturingSecret = true then
    match k.session.submitApiKey k.system.transport k.port with
    | (session, port) =>
      ({ k with session := session, port := port }.onSystem
        (·.setActivity (ascii "API key handed to bridge; HNMos copy cleared"))).renderStudio
  else if keyCode = keyEnter ∧ k.system.studio.capturingPrompt = true then
    k.submitPrompt.renderStudio
  else k

def Kernel.studioCancel (k : Kernel) : Kernel :=
  match k.system.cancelTask with
  | (true, s) =>
    ({ k with system := s.setActivity (ascii "Provider request cancelled locally") }).renderStudio
  | (false, s) =>
    ({ k with system := s.setActivity (ascii "No running provider request") }).renderStudio

def Kernel.studioCommand (k : Kernel) (c : UInt8) : Kernel :=
  if c = 108 then k.activate .subscription
  else if c = 107 then k.activate .apiKey
  else if c = 103 then k.activate .generate
  else if c = 114 then k.activate .review
  else if c = 98 then k.activate .build
  else if c = 120 then k.studioCancel
  else k

def Kernel.studioKeyChar (k : Kernel) (c : UInt8) : Kernel :=
  if k.session.isCapturingSecret then
    { k with session := (k.session.captureCharacter c).2 }.renderStudio
  else if k.system.studio.capturingPrompt then
    (k.onSystem (·.editPrompt (promptChar · c))).renderStudio
  else k.studioCommand c

def Kernel.studioHandleEvent (k : Kernel) (event : UiEvent) : Kernel :=
  if k.system.studio.ready then
    match event.type with
    | .keyDown => k.studioKeyDown event.keyCode
    | .keyChar => k.studioKeyChar event.character
    | .mouseMove => k.studioUpdateHover event.x event.y
    | .mouseButtonDown =>
      if event.button = mouseButtonLeft then k.studioMouseDown event.x event.y else k
    | .mouseButtonUp =>
      if event.button = mouseButtonLeft then k.studioMouseUp event.x event.y else k
    | .none => k
  else k

def System.studioOnEnter (s : System) : System :=
  (s.setPressed none).logLine (ascii "router: AI Studio entered.")

def Kernel.studioOnExit (k : Kernel) : Kernel :=
  k.cancelCapture.onSystem fun s =>
    ((s.setPressed none).leavePrompt).logLine
      (ascii "router: AI Studio exited; volatile secret cleared.")

end Hnmos
