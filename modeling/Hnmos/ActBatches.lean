import Mathlib
import Hnmos.KernelInvariant

/-!
# The acts of one input

An input either submits nothing, and then its acts are a batch of one of a few
shapes that renders last, or it is an assistant command entered at the
terminal, or it sends the prompt of AI Studio.
-/

set_option autoImplicit false

namespace Hnmos
open Hnmos.CString Hnmos.Task Hnmos.AiSession Hnmos.Events

def Act.submits : Act → Bool
  | .promptEnter => true
  | .request .. => true
  | _ => false

/-- The acts of an input that submits nothing. -/
inductive Batch : List Act → Prop
  | none : Batch []
  | halt : Batch [.halt]
  | leave (screen : ScreenId) (h : screen ≠ .aiStudio) : Batch [.goto screen]
  | shown : Batch [.sync]
  | edit (act : Act) (h : act.submits = false) : Batch [act, .sync]

def aiArguments : List (List UInt8) :=
  [ascii "help", ascii "sysinfo", ascii "status", ascii "asm", ascii "assembly", ascii "sync"]

def Kernel.asks (k : Kernel) : Input → Prop
  | .event event =>
    k.system.halted = false ∧ k.system.current = .terminal ∧ event.type = .keyDown ∧
      event.keyCode = keyEnter ∧ commandMatches (cstr k.system.terminalInput) (ascii "ai") = true ∧
      commandArgument (cstr k.system.terminalInput) (ascii "ai") ∈ aiArguments
  | _ => False

def Kernel.prompts (k : Kernel) : Input → Prop
  | .event event =>
    k.system.halted = false ∧ k.system.current = .aiStudio ∧ k.system.studio.ready = true ∧
      event.type = .keyDown ∧ event.keyCode = keyEnter ∧ k.session.isCapturingSecret = false ∧
      k.system.studio.capturingPrompt = true
  | _ => False

theorem renderActs_batch (screen : ScreenId) : Batch (renderActs screen) := by
  unfold renderActs
  split_ifs
  · exact .shown
  · exact .none

theorem setScreenActs_batch (k : Kernel) (screenId : UInt32) :
    Batch (k.setScreenActs screenId) := by
  unfold Kernel.setScreenActs
  split_ifs
  · cases findScreen screenId with
    | none => exact .none
    | some next =>
      simp only
      split_ifs
      · exact renderActs_batch next
      · by_cases hstudio : next = .aiStudio
        · rw [hstudio]
          exact .edit (.goto .aiStudio) rfl
        · have hrender : renderActs next = [] := if_neg hstudio
          rw [changeActs, hrender]
          exact .leave next hstudio
  · exact .none

theorem pressAct_batch (button : StudioButton) : Batch (pressAct button ++ [.sync]) := by
  cases button with
  | subscription => exact .edit .subscription rfl
  | apiKey => exact .edit .apiKey rfl
  | generate => exact .edit .generate rfl
  | review => exact .shown
  | build => exact .shown

theorem commandActs_batch (c : UInt8) : Batch (commandActs c) := by
  unfold commandActs
  split_ifs
  · exact .edit .subscription rfl
  · exact .edit .apiKey rfl
  · exact .edit .generate rfl
  · exact .shown
  · exact .shown
  · exact .edit .cancelTask rfl
  · exact .none

theorem studioKeyDownActs_cases (k : Kernel) (keyCode : UInt32) :
    Batch (k.studioKeyDownActs keyCode) ∨
      (k.studioKeyDownActs keyCode = [.promptEnter, .sync] ∧ keyCode = keyEnter ∧
        k.session.isCapturingSecret = false ∧ k.system.studio.capturingPrompt = true) := by
  unfold Kernel.studioKeyDownActs
  split_ifs with hbackSecret hbackPrompt henterSecret henterPrompt
  · exact .inl (.edit .secretBackspace rfl)
  · exact .inl (.edit .promptBackspace rfl)
  · exact .inl (.edit .secretEnter rfl)
  · have hsecret : k.session.isCapturingSecret = false :=
      Bool.eq_false_iff.mpr fun hn => henterSecret ⟨henterPrompt.1, hn⟩
    exact .inr ⟨rfl, henterPrompt.1, hsecret, henterPrompt.2⟩
  · exact .inl .none

theorem hoverActs_cases (k : Kernel) (x y : UInt32) :
    k.hoverActs x y = [.sync] ∨ k.hoverActs x y = [] := by
  unfold Kernel.hoverActs
  split_ifs
  · exact .inl rfl
  · exact .inr rfl

theorem studioActs_cases (k : Kernel) (event : UiEvent) :
    Batch (k.studioActs event) ∨
      (k.studioActs event = [.promptEnter, .sync] ∧ k.system.studio.ready = true ∧
        event.type = .keyDown ∧ event.keyCode = keyEnter ∧
        k.session.isCapturingSecret = false ∧ k.system.studio.capturingPrompt = true) := by
  unfold Kernel.studioActs
  by_cases hready : k.system.studio.ready = true
  · rw [if_pos hready]
    cases event.type with
    | none => exact .inl .none
    | keyDown =>
      rcases studioKeyDownActs_cases k event.keyCode with hbatch | ⟨hacts, hrest⟩
      · exact .inl hbatch
      · exact .inr ⟨hacts, hready, rfl, hrest⟩
    | keyChar =>
      left
      show Batch (k.studioKeyCharActs event.character)
      unfold Kernel.studioKeyCharActs
      split_ifs
      · exact .edit (.secretChar _) rfl
      · exact .edit (.promptChar _) rfl
      · exact commandActs_batch _
    | mouseMove =>
      left
      show Batch (k.hoverActs event.x event.y)
      rcases hoverActs_cases k event.x event.y with hsync | hnone
      · rw [hsync]
        exact .shown
      · rw [hnone]
        exact .none
    | mouseButtonDown =>
      left
      simp only
      split_ifs
      · rcases hoverActs_cases k event.x event.y with hsync | hnone
        · rw [hsync]
          exact .edit .sync rfl
        · rw [hnone]
          exact .shown
      · exact .none
    | mouseButtonUp =>
      left
      simp only
      split_ifs
      · unfold Kernel.mouseUpActs
        cases k.releasedButton event.x event.y with
        | none => exact .shown
        | some button => exact pressAct_batch button
      · exact .none
  · rw [if_neg hready]
    exact .inl .none

theorem itemActs_batch (k : Kernel) (item : LauncherItem) : Batch (itemActs k item) := by
  cases item with
  | terminal => exact setScreenActs_batch k ScreenId.terminal.code
  | system => exact setScreenActs_batch k ScreenId.system.code
  | memory => exact setScreenActs_batch k ScreenId.memory.code
  | ai => exact setScreenActs_batch k ScreenId.aiStudio.code
  | shutdown => exact .halt

theorem launcherActs_batch (k : Kernel) (event : UiEvent) : Batch (k.launcherActs event) := by
  unfold Kernel.launcherActs
  by_cases hready : k.system.launcher.ready = true
  · rw [if_pos hready]
    cases event.type with
    | keyChar =>
      show Batch (k.launcherShortcutActs event.character)
      unfold Kernel.launcherShortcutActs
      split_ifs
      · exact itemActs_batch k .terminal
      · exact itemActs_batch k .system
      · exact itemActs_batch k .memory
      · exact itemActs_batch k .shutdown
      · exact itemActs_batch k .ai
      · exact .none
    | mouseButtonUp =>
      simp only
      split_ifs
      · cases k.releasedItem event.x event.y with
        | none => exact .none
        | some item => exact itemActs_batch k item
      · exact .none
    | _ => exact .none
  · rw [if_neg hready]
    exact .none

theorem aiActs_cases (argument : List UInt8) :
    (argument ∉ aiArguments ∧ aiActs argument = []) ∨
      (argument ∈ aiArguments ∧ ∃ taskType input contextFlags,
        aiActs argument = [.request taskType input contextFlags]) := by
  unfold aiActs
  split_ifs with hhelp hsysinfo hstatus hasm hsync
  · exact .inr ⟨by simp [aiArguments, hhelp], _, _, _, rfl⟩
  · exact .inr ⟨by simp [aiArguments, hsysinfo], _, _, _, rfl⟩
  · exact .inr ⟨by simp [aiArguments, hstatus], _, _, _, rfl⟩
  · exact .inr ⟨by rcases hasm with hasm | hasm <;> simp [aiArguments, hasm], _, _, _, rfl⟩
  · exact .inr ⟨by simp [aiArguments, hsync], _, _, _, rfl⟩
  · rw [not_or] at hasm
    exact .inl ⟨by simp [aiArguments, hhelp, hsysinfo, hstatus, hasm.1, hasm.2, hsync], rfl⟩

theorem commandActs_cases (k : Kernel) (command : List UInt8) :
    Batch (k.commandActs command) ∨
      (commandMatches command (ascii "ai") = true ∧
        commandArgument command (ascii "ai") ∈ aiArguments ∧
        ∃ taskType input contextFlags,
          k.commandActs command = [.request taskType input contextFlags]) := by
  unfold Kernel.commandActs
  split_ifs with hempty hhelp hai hback
  · exact .inl .none
  · exact .inl .none
  · rcases aiActs_cases (commandArgument command (ascii "ai")) with ⟨-, hnone⟩ | ⟨hmem, hrequest⟩
    · rw [hnone]
      exact .inl .none
    · exact .inr ⟨hai, hmem, hrequest⟩
  · exact .inl (setScreenActs_batch k _)
  · left
    unfold localActs
    split_ifs
    · exact .halt
    · exact .none

theorem terminalActs_cases (k : Kernel) (event : UiEvent) :
    Batch (k.terminalActs event) ∨
      (event.type = .keyDown ∧ event.keyCode = keyEnter ∧
        commandMatches (cstr k.system.terminalInput) (ascii "ai") = true ∧
        commandArgument (cstr k.system.terminalInput) (ascii "ai") ∈ aiArguments ∧
        ∃ taskType input contextFlags,
          k.terminalActs event = [.request taskType input contextFlags]) := by
  unfold Kernel.terminalActs
  split_ifs with hchar hback henter
  · exact .inl .none
  · exact .inl .none
  · rcases commandActs_cases k (cstr k.system.terminalInput) with hbatch | hrequest
    · exact .inl hbatch
    · exact .inr ⟨henter.1, henter.2, hrequest⟩
  · exact .inl .none

theorem shortcutActs_batch (k : Kernel) (event : UiEvent) (acts : List Act)
    (h : k.shortcutActs event = some acts) : Batch acts := by
  unfold Kernel.shortcutActs at h
  split_ifs at h <;> cases h
  · exact setScreenActs_batch k _
  · exact setScreenActs_batch k _
  · exact setScreenActs_batch k _
  · exact .halt
  · exact setScreenActs_batch k _

theorem eventActs_cases (k : Kernel) (event : UiEvent) (hrun : k.system.halted = false) :
    Batch (k.eventActs event) ∨
      (k.asks (.event event) ∧ ∃ taskType input contextFlags,
        k.eventActs event = [.request taskType input contextFlags]) ∨
      (k.prompts (.event event) ∧ k.eventActs event = [.promptEnter, .sync]) := by
  unfold Kernel.eventActs
  split_ifs
  · left
    unfold Kernel.backActs
    split_ifs
    · exact .none
    · exact setScreenActs_batch k _
  · exact .inl (renderActs_batch _)
  · cases hshortcut : k.shortcutActs event with
    | some acts => exact .inl (shortcutActs_batch k event acts hshortcut)
    | none =>
      simp only
      unfold Kernel.screenActs
      cases hcurrent : k.system.current with
      | launcher => exact .inl (launcherActs_batch k event)
      | terminal =>
        rcases terminalActs_cases k event with hbatch | ⟨hdown, henter, hai, hmem, hrequest⟩
        · exact .inl hbatch
        · exact .inr (.inl ⟨⟨hrun, hcurrent, hdown, henter, hai, hmem⟩, hrequest⟩)
      | system => exact .inl .none
      | memory => exact .inl .none
      | aiStudio =>
        rcases studioActs_cases k event with hbatch | ⟨hacts, hready, hdown, henter, hrest⟩
        · exact .inl hbatch
        · exact .inr (.inr ⟨⟨hrun, hcurrent, hready, hdown, henter, hrest⟩, hacts⟩)
  · exact .inl .none

/-- What the acts of an input can be. -/
inductive Acts (k : Kernel) (input : Input) : List Act → Prop
  | batch {acts : List Act} (h : Batch acts) : Acts k input acts
  | asked (taskType : TaskType) (text : List UInt8) (contextFlags : UInt32)
      (h : k.asks input) : Acts k input [.request taskType text contextFlags]
  | prompted (h : k.prompts input) : Acts k input [.promptEnter, .sync]
  | received (arrived : List UInt8) : Acts k input [.receive arrived]
  | polled (arrived : List UInt8)
      (h : k.system.current ≠ .aiStudio ∨ k.system.routerReady = false ∨
        (k.system.bridge.poll k.system.transport arrived).1 = false) :
      Acts k input [.poll arrived]

theorem acts_cases (k : Kernel) (input : Input) : Acts k input (k.acts input) := by
  unfold Kernel.acts
  by_cases hhalted : k.system.halted = true
  · rw [if_pos hhalted]
    exact .batch .none
  · rw [if_neg hhalted]
    cases input with
    | event event =>
      rcases eventActs_cases k event (Bool.eq_false_iff.mpr hhalted) with
        hbatch | ⟨hasks, taskType, text, contextFlags, hacts⟩ | ⟨hprompts, hacts⟩
      · exact .batch hbatch
      · show Acts k _ (k.eventActs event)
        rw [hacts]
        exact .asked taskType text contextFlags hasks
      · show Acts k _ (k.eventActs event)
        rw [hacts]
        exact .prompted hprompts
    | service arrived =>
      simp only [Kernel.pollActs]
      split_ifs with hsync
      · exact .batch (.edit (.poll arrived) rfl)
      · refine .polled arrived ?_
        rw [not_and_or, not_and_or] at hsync
        rcases hsync with hanswer | hcurrent | hready
        · exact .inr (.inr (Bool.eq_false_iff.mpr hanswer))
        · exact .inl hcurrent
        · exact .inr (.inl (Bool.eq_false_iff.mpr hready))
    | receive arrived => exact .received arrived

end Hnmos
