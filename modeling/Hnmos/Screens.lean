import Mathlib
import Hnmos.System

/-!
# Rendering the screens without a text editor

The launcher, the terminal greeting and the two information screens. All of
them are functions of `System`; the launcher lays its items out afresh each
time, and the system screen takes a synchronisation snapshot to show.
-/

set_option autoImplicit false

namespace Hnmos
open Hnmos.CString Hnmos.Surface Hnmos.Widgets Hnmos.AiAssembly Hnmos.TaskScheduler
open Hnmos.Workspace

def launcherTopBar (fb : Framebuffer) (screenName : List UInt8) : List DrawOp :=
  let theme := themeDefault
  fillRect 0 0 fb.width 84 theme.topBar ++
    fillRect 0 (84 - 2) fb.width 2 theme.border ++
    label 32 18 (ascii "HNMos") theme.text theme.topBar ++
    label 32 42 (ascii "Current screen:") theme.mutedText theme.topBar ++
    label 160 42 screenName theme.text theme.topBar ++
    label 256 42 (ascii "1 Terminal 2 System 3 Memory 5 AI Studio 4 Shutdown F1 Help")
      theme.accentAlt theme.topBar ++
    label (if fb.width > 248 then fb.width - 248 else 32) 18 (ascii "tick: no timer yet")
      theme.mutedText theme.topBar

/-- An item as the launcher lays it out: neither hovered nor pressed. -/
def launcherItem (x y width height : UInt32) (text : List UInt8) : Button :=
  { Button.zero.place x y width height text with hovered := false, pressed := false }

def aiStudioIcon (rect : Rect) : List DrawOp :=
  let theme := themeDefault
  let iconX := rect.x + 12
  let iconY := rect.y + 12
  fillRect iconX iconY 32 32 theme.background ++
    drawRect iconX iconY 32 32 theme.accent ++
    fillRect (iconX + 5) (iconY + 6) 4 20 theme.accentAlt ++
    fillRect (iconX + 13) (iconY + 7) 13 3 theme.text ++
    fillRect (iconX + 13) (iconY + 14) 10 3 theme.mutedText ++
    fillRect (iconX + 13) (iconY + 21) 14 3 theme.accentAlt

def Launcher.renderItems (l : Launcher) : List DrawOp :=
  LauncherItem.all.flatMap (fun i => (l.items i).render) ++ aiStudioIcon (l.items .ai).rect

def launcherPanelX (fb : Framebuffer) : UInt32 :=
  if fb.width > 600 then (fb.width - 600) / 2 else 24

def launcherItems (fb : Framebuffer) : LauncherItem → Button :=
  let panelX := launcherPanelX fb
  let leftX := panelX + 64
  let rightX := panelX + 600 - 64 - 220
  let centerX := panelX + (600 - 220) / 2
  let topY : UInt32 := 142 + 120
  fun
    | .terminal => launcherItem leftX topY 220 56 (ascii "1 Terminal")
    | .system => launcherItem rightX topY 220 56 (ascii "2 System")
    | .memory => launcherItem leftX (topY + 76) 220 56 (ascii "3 Memory")
    | .ai => launcherItem rightX (topY + 76) 220 56 (ascii "5 AI Studio")
    | .shutdown => launcherItem centerX (topY + 76 + 76) 220 56 (ascii "4 Shutdown")

def launcherHome (fb : Framebuffer) (screenName : List UInt8) (l : Launcher) : List DrawOp :=
  let theme := themeDefault
  let panelX := launcherPanelX fb
  fillRect 0 0 fb.width fb.height theme.background ++
    launcherTopBar fb screenName ++
    Panel.render ⟨⟨panelX, 142, 600, 404⟩, theme.panel, theme.border⟩ ++
    label (panelX + 40) (142 + 32) (ascii "Welcome to HNMos") theme.text theme.panel ++
    label (panelX + 40) (142 + 58) (ascii "first kernel launcher screen") theme.mutedText
      theme.panel ++
    label (panelX + 40) (142 + 84) (ascii "select an internal screen") theme.accentAlt
      theme.panel ++
    l.renderItems ++
    label (panelX + 40) (142 + 404 - 40) (ascii "terminal and serial debug stay available")
      theme.mutedText theme.panel

def System.renderLauncher (s : System) : System :=
  if s.launcher.ready then
    let launcher := { s.launcher with items := launcherItems s.display.fb }
    { s with launcher := launcher }.draw (launcherHome s.display.fb s.current.name launcher)
  else s

def System.launcherInit (s : System) : System :=
  if s.display.fb.available then
    { s with launcher := { s.launcher with pressedIndex := none, ready := true } }.logLine
      (ascii "launcher: ready.")
  else { s with launcher := { s.launcher with ready := false } }

def System.launcherOnEnter (s : System) : System :=
  { s with launcher := { s.launcher with
      pressedIndex := none
      items := fun i => { s.launcher.items i with hovered := false, pressed := false } } }

def System.launcherOnExit (s : System) : System :=
  { s with launcher := { s.launcher with pressedIndex := none } }

def terminalFg : Color := colorRgb 232 238 245
def terminalBg : Color := colorRgb 6 10 16
def terminalAccent : Color := colorRgb 67 220 210

def System.terminalPrompt (s : System) : System :=
  s.print fun d =>
    ((d.setColors terminalAccent terminalBg).write (ascii "hnmos> ")).setColors
      terminalFg terminalBg

def terminalCommands : List UInt8 :=
  ascii "commands: help version clear halt reboot ls cat tasks sync ai back exit launcher"

def terminalAiCommands : List UInt8 :=
  ascii "ai commands: ai help, ai sysinfo, ai status, ai asm, ai sync"

def System.terminalInit (s : System) : System :=
  { s with terminalInput := [] }.print (·.setColors terminalFg terminalBg)

def System.terminalShowScreen (s : System) : System :=
  let s := { s with terminalInput := [] }
  let s := s.print fun d => ((d.setColors terminalFg terminalBg).clear).setCursor 4 4
  let s := s.writeLine (ascii "HNMos Terminal")
  let s := s.writeLine terminalCommands
  let s := s.writeLine terminalAiCommands
  let s := s.writeLine (ascii "ESC/back/exit/launcher returns to Launcher")
  (s.print (·.newline)).terminalPrompt

def infoFrame (fb : Framebuffer) (title : List UInt8) : List DrawOp :=
  let theme := themeDefault
  let windowX := if fb.width > 560 then (fb.width - 560) / 2 else 32
  fillRect 0 84 fb.width (fb.height - 84) theme.background ++
    Window.render ⟨⟨windowX, 132, 560, 328⟩, title, theme.accent, theme.text, theme.panel,
      theme.border⟩ ++
    Panel.render ⟨⟨windowX + 20, 132 + windowTitleHeight + 18, 560 - 40,
      328 - windowTitleHeight - 44⟩, theme.panelAlt, theme.border⟩

def infoLine (fb : Framebuffer) (below : UInt32) (text : List UInt8) (fg : Color) :
    List DrawOp :=
  let windowX := if fb.width > 560 then (fb.width - 560) / 2 else 32
  label (windowX + 20 + 16) (132 + windowTitleHeight + 18 + below) text fg
    themeDefault.panelAlt

def memoryScreen (fb : Framebuffer) (m : MemoryStats) : List DrawOp :=
  let theme := themeDefault
  let kib := ascii " kib"
  let line := infoLine fb
  infoFrame fb (ascii "Memory") ++
    line 18 (ascii "physical memory manager online") theme.text ++
    line 42 (statText 64 (ascii "total memory: ") m.totalMemoryKib kib) theme.mutedText ++
    line 66 (statText 64 (ascii "usable memory: ") m.usableMemoryKib kib) theme.mutedText ++
    line 90 (statText 64 (ascii "reserved memory: ") m.reservedMemoryKib kib)
      theme.mutedText ++
    line 114 (statText 64 (ascii "mmap entries: ") m.regionCount []) theme.mutedText ++
    line 138 (statText 64 (ascii "pmm free pages: ") m.freePages []) theme.mutedText ++
    line 162 (statText 64 (ascii "heap used bytes: ") m.heapUsedBytes []) theme.mutedText ++
    line 186 (if m.heapSupportsFree then ascii "heap free list: ready"
      else ascii "heap free list: todo bump only") theme.accentAlt ++
    line 218 (ascii "paging and userspace memory are not ready") theme.accentAlt ++
    line 238 (ascii "keys: 1 terminal 2 system 3 memory 4 shutdown") theme.accentAlt

def System.renderMemory (s : System) : System :=
  if s.display.fb.available then s.draw (memoryScreen s.display.fb s.memory) else s

def resolutionText (fb : Framebuffer) : List UInt8 :=
  let text := statText 48 (ascii "framebuffer: ") fb.width (ascii "x")
  let text := appendText 48 (appendText 48 text (decimal fb.height)) (ascii "x")
  appendText 48 text (decimal fb.bpp.toUInt32)

def taskText (s : Scheduler) : List UInt8 :=
  let current := (s.currentTask.map Task.name).getD (ascii "none")
  let text := statText 80 (ascii "tasks: ") (UInt32.ofNat s.registry.tasks.length)
    (ascii " current: ")
  let text := appendText 80 (appendText 80 text current) (ascii " yields: ")
  appendText 80 text (decimal s.yieldTotal)

def systemScreen (s : System) (sync : SyncSnapshot) : List DrawOp :=
  let theme := themeDefault
  let line := infoLine s.display.fb
  infoFrame s.display.fb (ascii "System") ++
    line 18 (ascii "kernel: HNMos Kernel 01") theme.text ++
    line 42 (resolutionText s.display.fb) theme.text ++
    line 66 (statText 64 (ascii "memory usable: ") s.memory.usableMemoryKib (ascii " kib"))
      theme.mutedText ++
    line 90 (statText 64 (ascii "heap pages: ") s.memory.heapPageCount []) theme.mutedText ++
    line 114 (ascii "input: keyboard event queue ready") theme.mutedText ++
    line 138 (if s.mouseReady then ascii "mouse: ps2 ready" else ascii "mouse: unavailable")
      theme.mutedText ++
    line 162 (statText 64 (ascii "filesystem nodes: ") s.files.nodeCount []) theme.mutedText ++
    line 186 (taskText s.scheduler) theme.mutedText ++
    line 210 sync.summary theme.mutedText ++
    line 234 (ascii "tick: no timer irq yet") theme.mutedText ++
    line 258 (ascii "keys: 1 terminal 2 system 3 memory 4 shutdown") theme.accentAlt

def System.renderSystem (s : System) : System :=
  if s.display.fb.available then
    let sync := s.sync.capture s.memory s.display.fb
    { s with sync := sync }.draw (systemScreen s sync)
  else s

end Hnmos
