import Mathlib
import Hnmos.ConsoleGrid
import Hnmos.Desktop
import Hnmos.LineEditor
import Hnmos.Terminal
import Hnmos.TerminalTape

/-!
# The line that is being typed

The terminal keeps what is typed in a buffer and shows it through the console,
which knows nothing of the buffer. They stay in step: after the prompt the grid
shows the buffer, blanks where characters were taken back, and everything
before the prompt as it was, moved up by the rows that have scrolled away.
-/

set_option autoImplicit false

namespace Hnmos.TerminalEcho
open Hnmos.CString Hnmos.Surface Hnmos.Events Hnmos.Graphics
open Hnmos.PageAllocator (Memory)
open Hnmos.PixelRows Hnmos.TerminalGrid Hnmos.TerminalTape Hnmos.ConsoleGrid Hnmos.Transition

def ActKeeps (background : Color) : ConsoleGrid.Act → Prop
  | .setColors _ color => color = background
  | _ => True

def CallKeeps (background : Color) : ConsoleGrid.Call → Prop
  | .setColors _ color => color = background
  | _ => True

theorem charActs_keeps (background : Color) (c : UInt8) :
    ∀ a ∈ charActs c, ActKeeps background a := by
  rw [charActs]
  split_ifs <;> simp [ActKeeps]

theorem call_keeps (background : Color) (c : ConsoleGrid.Call) (h : CallKeeps background c) :
    ∀ a ∈ c.acts, ActKeeps background a := by
  have htext : ∀ text : List UInt8, ∀ a ∈ text.flatMap charActs, ActKeeps background a := by
    intro text a ha
    obtain ⟨character, _, hmem⟩ := List.mem_flatMap.mp ha
    exact charActs_keeps background character a hmem
  cases c with
  | putChar c => exact charActs_keeps background c
  | write text => exact htext text
  | writeLine text =>
    intro a ha
    rcases List.mem_append.mp ha with ha | ha
    · exact htext text a ha
    · rw [List.mem_singleton.mp ha]
      trivial
  | setColors foreground color =>
    intro a ha
    rw [List.mem_singleton.mp ha]
    exact h
  | _ =>
    intro a ha
    rw [List.mem_singleton.mp ha]
    trivial

theorem calls_keep (background : Color) (calls : List ConsoleGrid.Call)
    (h : ∀ c ∈ calls, CallKeeps background c) :
    ∀ a ∈ calls.flatMap ConsoleGrid.Call.acts, ActKeeps background a := by
  intro a ha
  obtain ⟨c, hc, hmem⟩ := List.mem_flatMap.mp ha
  exact call_keeps background c (h c hc) a hmem

theorem act_background {v : Video} (t : Reference v) (a : ConsoleGrid.Act) (background : Color)
    (h : t.background = background) (ha : ActKeeps background a) :
    (t.act a).background = background := by
  cases a with
  | setColors foreground color => exact ha
  | _ => exact h

/-- The grid is shown, and the lines below it are background. -/
structure Pictured {v : Video} (m : Memory) (background : Color) (p : Pair v) : Prop where
  shows : PairShows m p
  margin : KeepsBackground v background (shownPicture v m p.screen)

section
variable {v : Video} (hs : v.Separate) (m : Memory) (hheight : 8 < v.height.toNat)
variable (background : Color) (p : Pair v)

theorem same_pictured (hp : Pictured m background p) (q : Pair v)
    (hops : q.screen.ops = p.screen.ops) (hshows : PairShows m q) : Pictured m background q := by
  have hsame : shownPicture v m q.screen = shownPicture v m p.screen := by
    rw [shownPicture, hops]
    rfl
  refine ⟨hshows, ?_⟩
  rw [hsame]
  exact hp.margin

include hs in
theorem clear_pictured (h : Placed p) (hb : p.reference.background = background) :
    Pictured m background (step p .clear) := by
  refine ⟨clear_shows hs m p h, ?_⟩
  intro x y hx _ hy
  show shownPicture v m p.screen.clear x y = _
  rw [Screen.clear, if_pos h.ready, h.background, hb]
  show shownPicture v m (p.screen.draw [_]) x y = _
  rw [columns] at hx
  rw [shownPicture_draw, picture_clear v hs _ _ x y (by omega) hy]

include hs hheight in
theorem newline_pictured (h : Placed p) (hb : p.reference.background = background)
    (hp : Pictured m background p) : Pictured m background (step p .newline) := by
  have hcolor : p.screen.console.background = background := h.background.trans hb
  have hshows : PairShows m (step p .newline) := by
    apply (newline_shows_iff hs m p h hheight.le hp.shows).mpr
    intro _
    rw [hcolor]
    exact hp.margin
  by_cases hlast : Scrolls p.screen .newline
  · refine ⟨hshows, ?_⟩
    intro x y hx hfirst hy
    have hwidth : x < v.width.toNat := by
      rw [columns] at hx
      omega
    rw [scrolled_picture hs m p h hheight.le hlast x y hwidth hy, if_neg (Nat.not_le.mpr hheight),
      hcolor]
    by_cases hbelow : y + 8 < v.height.toNat
    · rw [if_pos hbelow]
      exact hp.margin x (y + 8) hx (by omega) hbelow
    · rw [if_neg hbelow]
  · apply same_pictured m background p hp _ _ hshows
    exact (newline_ops p.screen h.ready).trans (if_neg hlast)

include hheight in
theorem margin_outside (column row x y : ℕ) (hrow : row < rows v) (hy : firstKept v ≤ y) :
    ¬ Within (column * 8) (row * 8) 8 8 x y := by
  rw [firstKept, if_neg (Nat.not_le.mpr hheight)] at hy
  intro hin
  have hbelow := hin.2.2
  omega

include hs hheight in
theorem ink_pictured (h : Placed p) (hp : Pictured m background p) (c : UInt8) :
    Pictured m background (ink p c) := by
  refine ⟨ink_shows hs m p h hp.shows c, ?_⟩
  intro x y hx hfirst hy
  have hrow : p.screen.console.cursorY.toNat < rows v := h.row ▸ p.reference.terminal.row_lt
  rw [ink_picture hs m p h c x y (by rw [columns] at hx; omega) hy, inked,
    if_neg (margin_outside hheight _ _ x y hrow hfirst)]
  exact hp.margin x y hx hfirst hy

include hs hheight in
theorem glyph_pictured (h : Placed p) (hb : p.reference.background = background)
    (hp : Pictured m background p) (c : UInt8) : Pictured m background (step p (.glyph c)) := by
  have hink := ink_pictured hs m hheight background p h hp c
  by_cases hnext : p.reference.terminal.column + 1 < columns v
  · have hscreen := putGlyph_screen p h c
    rw [if_neg (fun hge => (lastColumn_iff p h).mp hge hnext)] at hscreen
    have hops : (step p (.glyph c)).screen.ops = (ink p c).screen.ops := by
      show (p.screen.putGlyph c).ops = _
      rw [hscreen]
    apply same_pictured m background _ hink _ hops
    show Shows v m (p.screen.putGlyph c) (p.reference.terminal.put _ _).cells
    rw [hscreen, put_next _ _ _ hnext]
    exact hink.shows
  · rw [glyph_wraps p h c hnext]
    exact newline_pictured hs m hheight background _ (ink_placed p h c) hb hink

include hs hheight in
theorem backspace_pictured (h : Placed p) (hp : Pictured m background p) :
    Pictured m background (step p .backspace) := by
  by_cases hfirst : p.reference.terminal.column = 0 ∧ p.reference.terminal.row = 0
  · rw [backspace_first p h hfirst]
    exact hp
  · obtain ⟨column, row, hcolumn, hrow, hscreen⟩ := backspace_screen p h hfirst
    have hcolumns : column.toNat < columns v := hcolumn ▸ p.reference.terminal.back.column_lt
    have hrows : row.toNat < rows v := hrow ▸ p.reference.terminal.back.row_lt
    refine ⟨backspace_shows hs m p h hp.shows, ?_⟩
    intro x y hx hkept hy
    show shownPicture v m p.screen.backspace x y = _
    rw [hscreen]
    show shownPicture v m (p.screen.draw [_]) x y = _
    rw [shownPicture_draw, blank_picture v hs _ _ column row hcolumns hrows x y
      (by rw [columns] at hx; omega) hy, if_neg (margin_outside hheight _ _ x y hrows hkept)]
    exact hp.margin x y hx hkept hy

include hs hheight in
/-- In one background the grid is always shown: nothing but background ever
comes up from below it. -/
theorem act_pictured (h : Placed p) (hb : p.reference.background = background)
    (hp : Pictured m background p) (a : ConsoleGrid.Act) : Pictured m background (step p a) := by
  cases a with
  | clear => exact clear_pictured hs m background p h hb
  | setColors foreground color => exact same_pictured m background p hp _ rfl hp.shows
  | setCursor column row =>
    have hops : (step p (.setCursor column row)).screen.ops = p.screen.ops := by
      show (p.screen.setCursor column row).ops = _
      rw [Screen.setCursor, if_pos h.ready]
    apply same_pictured m background p hp _ hops
    rw [step, act, Screen.setCursor, if_pos h.ready]
    exact hp.shows
  | newline => exact newline_pictured hs m hheight background p h hb hp
  | carriageReturn => exact same_pictured m background p hp _ rfl hp.shows
  | backspace => exact backspace_pictured hs m hheight background p h hp
  | glyph c => exact glyph_pictured hs m hheight background p h hb hp c

end

def promptText : List UInt8 := ascii "hnmos> "

theorem promptText_length : promptText.length = 7 := by decide

def promptCells : List Cell := promptText.map fun c => .glyph c terminalAccent terminalBg

def typedCell (c : UInt8) : Cell := .glyph c terminalFg terminalBg

def promptActs : List ConsoleGrid.Act :=
  .setColors terminalAccent terminalBg ::
    (promptText.map .glyph ++ [.setColors terminalFg terminalBg])

/-- The console shows the prompt and the text from where the cursor was before
the prompt; the text has been up to `longest` characters long. -/
structure Echoed {v : Video} (before : Terminal Cell (columns v) (rows v)) (q : Pair v)
    (text : List UInt8) (longest : ℕ) : Prop where
  placed : Placed q
  foreground : q.reference.foreground = terminalFg
  background : q.reference.background = terminalBg
  held : ∃ l gone, Held (.blank terminalBg) q.reference.terminal l gone ∧
    l.under = (fresh before (.blank terminalBg)).under ∧
    l.start = (fresh before (.blank terminalBg)).start ∧
    l.text = promptCells ++ text.map typedCell ∧ l.reach = 7 + longest

theorem glyphs_held {v : Video} (characters : List UInt8) (q : Pair v) (l : Line Cell) (gone : ℕ)
    (h : Placed q) (hheld : Held (.blank q.reference.background) q.reference.terminal l gone) :
    let q' := run step q (characters.map .glyph)
    Placed q' ∧ q'.reference.foreground = q.reference.foreground ∧
      q'.reference.background = q.reference.background ∧
      ∃ l' gone', Held (.blank q.reference.background) q'.reference.terminal l' gone' ∧
        l'.under = l.under ∧ l'.start = l.start ∧
        l'.text = l.text ++
          characters.map (fun c => .glyph c q.reference.foreground q.reference.background) ∧
        l'.reach = max l.reach (l.text.length + characters.length) := by
  induction characters generalizing q l gone with
  | nil =>
    refine ⟨h, rfl, rfl, l, gone, hheld, rfl, rfl, (List.append_nil _).symm, ?_⟩
    exact (Nat.max_eq_left l.reached).symm
  | cons c characters ih =>
    obtain ⟨gone', hput⟩ := put_held hheld (.glyph c q.reference.foreground q.reference.background)
    obtain ⟨hplaced, hforeground, hbackground, l', gone'', hheld', hunder, hstart, htext, hreach⟩ :=
      ih (step q (.glyph c)) _ gone' (act_placed q h (.glyph c)) hput
    refine ⟨hplaced, hforeground, hbackground, l', gone'', hheld', hunder, hstart, ?_, ?_⟩
    · rw [htext, List.map_cons]
      exact List.append_assoc _ [_] _
    · rw [hreach, put_reach, put_text, List.length_append, List.length_singleton,
        List.length_cons]
      omega

theorem prompt_echoed {v : Video} (p : Pair v) (h : Placed p) :
    Echoed p.reference.terminal (run step p promptActs) [] 0 := by
  have hcolors := act_placed p h (.setColors terminalAccent terminalBg)
  have hfresh := fresh_held p.reference.terminal (.blank terminalBg)
  obtain ⟨hplaced, _, _, l, gone, hheld, hunder, hstart, htext, hreach⟩ :=
    glyphs_held promptText (step p (.setColors terminalAccent terminalBg))
      (fresh p.reference.terminal (.blank terminalBg)) 0 hcolors hfresh
  have hseven : l.reach = 7 := by
    rw [hreach, promptText_length]
    rfl
  have hlast := act_placed _ hplaced (.setColors terminalFg terminalBg)
  rw [promptActs, run_cons, run_concat]
  generalize run step (step p (.setColors terminalAccent terminalBg)) (promptText.map .glyph) = q
    at *
  refine ⟨hlast, rfl, rfl, l, gone, hheld, hunder, hstart, ?_, hseven⟩
  rw [List.map_nil, List.append_nil, promptCells, htext]
  exact List.nil_append _

section
variable {v : Video} {before : Terminal Cell (columns v) (rows v)} {q : Pair v}
variable {text : List UInt8} {longest : ℕ}

theorem char_echoed (h : Echoed before q text longest) (c : UInt8) :
    Echoed before (step q (.glyph c)) (text ++ [c]) (max longest (text.length + 1)) := by
  obtain ⟨l, gone, hheld, hunder, hstart, htext, hreach⟩ := h.held
  have hplaced := act_placed q h.placed (.glyph c)
  obtain ⟨gone', hput⟩ := put_held hheld (typedCell c)
  refine ⟨hplaced, h.foreground, h.background, l.put (typedCell c), gone', ?_, hunder, hstart,
    ?_, ?_⟩
  · show Held _ (q.reference.terminal.put (.glyph c q.reference.foreground q.reference.background)
      (.blank q.reference.background)) _ _
    rw [h.foreground, h.background]
    exact hput
  · show l.text ++ [typedCell c] = _
    rw [htext, List.map_append, List.append_assoc]
    rfl
  · show max l.reach (l.text.length + 1) = _
    rw [hreach, htext, List.length_append, List.length_map]
    show max _ (7 + _ + 1) = _
    omega

theorem backspace_echoed (h : Echoed before q text longest) (hlongest : longest ≤ 79)
    (hroom : 88 + columns v ≤ columns v * rows v) (hne : text ≠ []) :
    Echoed before (step q .backspace) text.dropLast longest := by
  obtain ⟨l, gone, hheld, hunder, hstart, htext, hreach⟩ := h.held
  have hplaced := act_placed q h.placed .backspace
  have hmap : text.map typedCell ≠ [] := fun he => hne (List.map_eq_nil_iff.mp he)
  have hline : l.text ≠ [] := by
    rw [htext]
    exact List.append_ne_nil_of_right_ne_nil _ hmap
  have hrows : l.reach + columns v ≤ rows v * columns v := by
    rw [hreach, Nat.mul_comm]
    omega
  refine ⟨hplaced, h.foreground, h.background, l.erase, gone, ?_, hunder, hstart, ?_, hreach⟩
  · show Held _ (q.reference.terminal.erase (.blank q.reference.background)) _ _
    rw [h.background]
    exact erase_held hheld hrows hline
  · show l.text.dropLast = _
    rw [htext, List.dropLast_append_of_ne_nil hmap, List.map_dropLast]

end

def Typing (e : UiEvent) : Prop :=
  (e.type = .keyChar ∧ promptCharacter e.character = true) ∨
    (e.type = .keyDown ∧ e.keyCode = keyBackspace)

def edited (text : List UInt8) (e : UiEvent) : List UInt8 :=
  if e.type = .keyChar then typed promptCharacter 79 text e.character else text.dropLast

def typedText (events : List UiEvent) : List UInt8 := events.foldl edited []

theorem typedText_concat (events : List UiEvent) (e : UiEvent) :
    typedText (events ++ [e]) = edited (typedText events) e := by
  rw [typedText, List.foldl_concat]
  rfl

def typingActs (text : List UInt8) (e : UiEvent) : List ConsoleGrid.Act :=
  if e.type = .keyChar then if text.length < 79 then [.glyph e.character] else []
  else if text = [] then [] else [.backspace]

theorem charActs_printable (c : UInt8) (h : promptCharacter c = true) :
    charActs c = [.glyph c] := by
  have hne : c ≠ 10 ∧ c ≠ 13 ∧ c ≠ 8 ∧ c ≠ 9 := by
    refine ⟨?_, ?_, ?_, ?_⟩ <;>
    · rintro rfl
      exact absurd h (by decide)
  rw [charActs, if_neg hne.1, if_neg hne.2.1, if_neg hne.2.2.1, if_neg hne.2.2.2]

theorem printable_acts (text : List UInt8) (h : ∀ c ∈ text, promptCharacter c = true) :
    text.flatMap charActs = text.map .glyph := by
  induction text with
  | nil => rfl
  | cons c text ih =>
    rw [List.flatMap_cons, charActs_printable c (h c List.mem_cons_self),
      ih fun d hd => h d (List.mem_cons_of_mem c hd)]
    rfl

theorem typing_step (k : Kernel) (e : UiEvent) (htyping : Typing e)
    (hready : k.system.display.console.ready = true) :
    (k.terminalHandleEvent e).system.terminalInput = edited k.system.terminalInput e ∧
    (k.terminalHandleEvent e).system.display =
      run act k.system.display (typingActs k.system.terminalInput e) := by
  rw [Kernel.terminalHandleEvent, edited, typingActs]
  rcases htyping with ⟨hchar, hprintable⟩ | ⟨hdown, hkey⟩
  · have hput : k.system.display.putChar e.character =
        run act k.system.display [.glyph e.character] := by
      rw [putChar_acts _ _ hready, charActs_printable _ hprintable]
    rw [if_pos hchar, if_pos hchar, if_pos hchar, typed, hprintable, Bool.true_and, Kernel.onSystem,
      System.terminalHandleChar]
    by_cases hroom : k.system.terminalInput.length < 79
    · rw [if_neg (by omega), if_pos (decide_eq_true hroom), if_pos hroom]
      exact ⟨rfl, hput⟩
    · rw [if_pos (by omega), if_neg (by rw [decide_eq_true_iff]; exact hroom), if_neg hroom]
      exact ⟨rfl, rfl⟩
  · have hnot : e.type ≠ .keyChar := by
      rw [hdown]
      exact EventType.noConfusion
    rw [if_neg hnot, if_neg hnot, if_neg hnot, if_pos ⟨hdown, hkey⟩, Kernel.onSystem,
      System.terminalHandleBackspace]
    by_cases hempty : k.system.terminalInput = []
    · rw [if_pos hempty, if_pos hempty, hempty]
      exact ⟨rfl, rfl⟩
    · rw [if_neg hempty, if_neg hempty]
      exact ⟨rfl, rfl⟩

/-- The kernel while a line is being typed, beside the terminal. -/
structure Typed {v : Video} (p : Pair v) (k : Kernel) (events : List UiEvent)
    (acts : List ConsoleGrid.Act) (longest : ℕ) : Prop where
  display : (run step p acts).screen = k.system.display
  keeps : ∀ a ∈ acts, ActKeeps terminalBg a
  input : k.system.terminalInput = typedText events
  echoed : Echoed p.reference.terminal (run step p acts) (typedText events) longest
  longest_le : longest ≤ 79
  reached : ∀ front, front <+: events → (typedText front).length ≤ longest

theorem prompt_typed {v : Video} (p : Pair v) (h : Placed p) (k : Kernel)
    (hdisplay : k.system.display = p.screen) (hinput : k.system.terminalInput = []) :
    Typed p (k.onSystem System.terminalPrompt) [] promptActs 0 := by
  have hacts : promptText.flatMap charActs = promptText.map .glyph := by
    apply printable_acts
    decide +kernel
  have hprompt : (k.onSystem System.terminalPrompt).system.display =
      run call p.screen [.setColors terminalAccent terminalBg, .write promptText,
        .setColors terminalFg terminalBg] := by
    rw [← hdisplay]
    simp only [run_cons, run_nil, call, Kernel.onSystem, System.terminalPrompt, System.print,
      promptText]
  refine ⟨?_, ?_, hinput, prompt_echoed p h, Nat.zero_le _, ?_⟩
  · rw [hprompt, calls_acts _ _ h.ready, run_screen]
    simp only [List.flatMap_cons, List.flatMap_nil, ConsoleGrid.Call.acts, hacts, promptActs,
      List.append_nil, List.singleton_append]
  · intro a ha
    simp only [promptActs, List.mem_cons, List.mem_append, List.mem_map, List.not_mem_nil,
      or_false] at ha
    rcases ha with rfl | ⟨c, _, rfl⟩ | rfl
    · rfl
    · trivial
    · rfl
  · intro front hfront
    rw [List.prefix_nil.mp hfront]
    exact Nat.le_refl 0

theorem typed_concat {v : Video} (p : Pair v) (k : Kernel) (events : List UiEvent)
    (acts : List ConsoleGrid.Act) (longest : ℕ) (h : Typed p k events acts longest) (e : UiEvent)
    (htyping : Typing e) (more : List ConsoleGrid.Act) (longest' : ℕ)
    (hmore : typingActs (typedText events) e = more) (hkeeps : ∀ a ∈ more, ActKeeps terminalBg a)
    (hechoed : Echoed p.reference.terminal (run step (run step p acts) more)
      (edited (typedText events) e) longest')
    (hle : longest ≤ longest') (hbound : longest' ≤ 79)
    (hlength : (edited (typedText events) e).length ≤ longest') :
    Typed p (k.terminalHandleEvent e) (events ++ [e]) (acts ++ more) longest' := by
  have hready : k.system.display.console.ready = true := h.display ▸ h.echoed.placed.ready
  obtain ⟨hinput, hdisplay⟩ := typing_step k e htyping hready
  rw [h.input] at hinput hdisplay
  refine ⟨?_, ?_, ?_, ?_, hbound, ?_⟩
  · rw [run_append, run_screen, h.display, hdisplay, hmore]
  · intro a ha
    rcases List.mem_append.mp ha with ha | ha
    · exact h.keeps a ha
    · exact hkeeps a ha
  · rw [hinput, typedText_concat]
  · rw [run_append, typedText_concat]
    exact hechoed
  · intro front hfront
    rcases List.prefix_concat_iff.mp hfront with rfl | hfront
    · rw [typedText_concat]
      exact hlength
    · exact (h.reached front hfront).trans hle

theorem idle_typed {v : Video} (p : Pair v) (k : Kernel) (events : List UiEvent)
    (acts : List ConsoleGrid.Act) (longest : ℕ) (h : Typed p k events acts longest) (e : UiEvent)
    (htyping : Typing e) (hedited : edited (typedText events) e = typedText events)
    (hacts : typingActs (typedText events) e = []) :
    Typed p (k.terminalHandleEvent e) (events ++ [e]) (acts ++ []) longest := by
  apply typed_concat p k events acts longest h e htyping [] longest hacts
  · exact fun a ha => absurd ha List.not_mem_nil
  · rw [hedited]
    exact h.echoed
  · exact Nat.le_refl _
  · exact h.longest_le
  · rw [hedited]
    exact h.reached events (List.prefix_refl _)

theorem char_typed {v : Video} (p : Pair v) (k : Kernel) (events : List UiEvent)
    (acts : List ConsoleGrid.Act) (longest : ℕ) (h : Typed p k events acts longest) (e : UiEvent)
    (hchar : e.type = .keyChar) (hprintable : promptCharacter e.character = true) :
    ∃ acts' longest', Typed p (k.terminalHandleEvent e) (events ++ [e]) acts' longest' := by
  have hlongest := h.longest_le
  have hedited : edited (typedText events) e =
      if (typedText events).length < 79 then typedText events ++ [e.character]
      else typedText events := by
    rw [edited, if_pos hchar, typed, hprintable, Bool.true_and]
    simp only [decide_eq_true_eq]
  have hacts : typingActs (typedText events) e =
      if (typedText events).length < 79 then [.glyph e.character] else [] := if_pos hchar
  by_cases hfits : (typedText events).length < 79
  · rw [if_pos hfits] at hedited hacts
    refine ⟨acts ++ [.glyph e.character], max longest ((typedText events).length + 1), ?_⟩
    apply typed_concat p k events acts longest h e (Or.inl ⟨hchar, hprintable⟩) _ _ hacts
    · intro a ha
      rw [List.mem_singleton.mp ha]
      trivial
    · rw [hedited]
      exact char_echoed h.echoed e.character
    · exact Nat.le_max_left _ _
    · omega
    · rw [hedited, List.length_append, List.length_singleton]
      exact Nat.le_max_right _ _
  · rw [if_neg hfits] at hedited hacts
    exact ⟨acts ++ [], longest, idle_typed p k events acts longest h e
      (Or.inl ⟨hchar, hprintable⟩) hedited hacts⟩

theorem backspace_typed {v : Video} (hroom : 88 + columns v ≤ columns v * rows v) (p : Pair v)
    (k : Kernel) (events : List UiEvent) (acts : List ConsoleGrid.Act) (longest : ℕ)
    (h : Typed p k events acts longest) (e : UiEvent) (htyping : Typing e)
    (hnot : e.type ≠ .keyChar) :
    ∃ acts' longest', Typed p (k.terminalHandleEvent e) (events ++ [e]) acts' longest' := by
  have hlongest := h.longest_le
  have hnow : (typedText events).length ≤ longest := h.reached events (List.prefix_refl _)
  have hedited : edited (typedText events) e = (typedText events).dropLast := if_neg hnot
  have hacts : typingActs (typedText events) e =
      if typedText events = [] then [] else [.backspace] := if_neg hnot
  by_cases hempty : typedText events = []
  · rw [if_pos hempty] at hacts
    rw [hempty, List.dropLast_nil, ← hempty] at hedited
    exact ⟨acts ++ [], longest, idle_typed p k events acts longest h e htyping hedited hacts⟩
  · rw [if_neg hempty] at hacts
    refine ⟨acts ++ [.backspace], longest, ?_⟩
    apply typed_concat p k events acts longest h e htyping _ _ hacts
    · intro a ha
      rw [List.mem_singleton.mp ha]
      trivial
    · rw [hedited]
      exact backspace_echoed h.echoed hlongest hroom hempty
    · exact Nat.le_refl _
    · exact hlongest
    · rw [hedited, List.length_dropLast]
      omega

theorem event_typed {v : Video} (hroom : 88 + columns v ≤ columns v * rows v) (p : Pair v)
    (k : Kernel) (events : List UiEvent) (acts : List ConsoleGrid.Act) (longest : ℕ)
    (h : Typed p k events acts longest) (e : UiEvent) (htyping : Typing e) :
    ∃ acts' longest', Typed p (k.terminalHandleEvent e) (events ++ [e]) acts' longest' := by
  rcases htyping with ⟨hchar, hprintable⟩ | ⟨hdown, hkey⟩
  · exact char_typed p k events acts longest h e hchar hprintable
  · apply backspace_typed hroom p k events acts longest h e (Or.inr ⟨hdown, hkey⟩)
    rw [hdown]
    exact EventType.noConfusion

theorem typing_typed {v : Video} (hroom : 88 + columns v ≤ columns v * rows v) (p : Pair v)
    (h : Placed p) (k : Kernel) (hdisplay : k.system.display = p.screen)
    (hinput : k.system.terminalInput = []) (events : List UiEvent)
    (htyping : ∀ e ∈ events, Typing e) :
    ∃ acts longest, Typed p (run Kernel.terminalHandleEvent (k.onSystem System.terminalPrompt)
      events) events acts longest := by
  induction events using List.reverseRecOn with
  | nil => exact ⟨promptActs, 0, prompt_typed p h k hdisplay hinput⟩
  | append_singleton events e ih =>
    obtain ⟨acts, longest, htyped⟩ := ih fun d hd => htyping d (List.mem_append_left _ hd)
    rw [run_concat]
    exact event_typed hroom p _ events acts longest htyped e (htyping e (by simp))

theorem typedText_printable (events : List UiEvent) (htyping : ∀ e ∈ events, Typing e) :
    ∀ c ∈ typedText events, promptCharacter c = true := by
  induction events using List.reverseRecOn with
  | nil => exact fun c hc => absurd hc List.not_mem_nil
  | append_singleton events e ih =>
    have hearlier := ih fun d hd => htyping d (List.mem_append_left _ hd)
    intro c hc
    rw [typedText_concat, edited, typed] at hc
    split_ifs at hc with hchar hfits
    · rcases List.mem_append.mp hc with hc | hc
      · exact hearlier c hc
      · rw [List.mem_singleton.mp hc]
        exact (Bool.and_eq_true_iff.mp hfits).1
    · exact hearlier c hc
    · exact hearlier c (List.dropLast_subset _ hc)

/-- The line on the grid after these events: it starts where the cursor was
before the prompt, `gone` rows further up. -/
structure LineShown {v : Video} (before after : Terminal Cell (columns v) (rows v))
    (events : List UiEvent) (start gone : ℕ) : Prop where
  origin : start + gone * columns v = place (columns v) before.column before.row
  inside : ∀ front, front <+: events →
    start + 7 + (typedText front).length < rows v * columns v
  earlier : ∀ i < start, cellAt after i = cellAt before (i + gone * columns v)
  line : (List.range (7 + (typedText events).length)).map (fun i => cellAt after (start + i)) =
    promptCells ++ (typedText events).map typedCell
  erased : ∀ front, front <+: events → ∀ i, (typedText events).length ≤ i →
    i < (typedText front).length → cellAt after (start + 7 + i) = .blank terminalBg
  cursor : place (columns v) after.column after.row = start + 7 + (typedText events).length

theorem promptCells_length : promptCells.length = 7 := by
  rw [promptCells, List.length_map, promptText_length]

theorem typed_shown {v : Video} (hroom : 88 + columns v ≤ columns v * rows v) (p : Pair v)
    (k : Kernel) (events : List UiEvent) (acts : List ConsoleGrid.Act) (longest : ℕ)
    (h : Typed p k events acts longest) :
    ∃ start gone, LineShown p.reference.terminal (run step p acts).reference.terminal events
      start gone := by
  obtain ⟨l, gone, hheld, hunder, hstart, htext, hreach⟩ := h.echoed.held
  have hlongest := h.longest_le
  have hnow : (typedText events).length ≤ longest := h.reached events (List.prefix_refl _)
  have hrows : l.reach + columns v ≤ rows v * columns v := by
    rw [hreach, Nat.mul_comm]
    omega
  have hkept := start_kept hheld hrows
  have hinside := hheld.inside
  rw [hreach, Nat.add_mul] at hinside
  have hlength : l.text.length = 7 + (typedText events).length := by
    rw [htext, List.length_append, promptCells_length, List.length_map]
  have hcells (i : ℕ) := held_cells hheld hrows i
  refine ⟨l.start - gone * columns v, gone, ?_, ?_, ?_, ?_, ?_, ?_⟩
  · rw [Nat.sub_add_cancel hkept, hstart]
    rfl
  · intro front hfront
    have hlong := h.reached front hfront
    omega
  · intro i hi
    have hbefore : i + gone * columns v < rows v * columns v := by
      have hplace : place (columns v) p.reference.terminal.column p.reference.terminal.row <
          rows v * columns v := place_lt _ _ _ p.reference.terminal.column_lt
            p.reference.terminal.row_lt
      have hsame : l.start = place (columns v) p.reference.terminal.column
        p.reference.terminal.row := hstart
      omega
    rw [(hcells i).2 hi, hunder]
    exact if_pos hbefore
  · rw [← htext]
    apply List.ext_getElem
    · rw [List.length_map, List.length_range, hlength]
    · intro i hi hline
      rw [List.getElem_map, List.getElem_range, (hcells i).1 (by omega)]
      exact List.getD_eq_getElem _ _ hline
  · intro front hfront i hlo hhi
    have hlong := h.reached front hfront
    rw [Nat.add_assoc, (hcells (7 + i)).1 (by omega)]
    exact List.getD_eq_default _ _ (by omega)
  · have hhead : l.start + l.text.length = place (columns v)
        (run step p acts).reference.terminal.column
        ((run step p acts).reference.terminal.row + gone) := hheld.window.head
    rw [place, Nat.add_mul] at hhead
    rw [place]
    omega

theorem pictured_run {v : Video} (hs : v.Separate) (m : Memory) (hheight : 8 < v.height.toNat)
    (background : Color) (p : Pair v) (h : Placed p) (hb : p.reference.background = background)
    (hp : Pictured m background p) (acts : List ConsoleGrid.Act)
    (ha : ∀ a ∈ acts, ActKeeps background a) :
    (run step p acts).reference.background = background ∧
      Pictured m background (run step p acts) := by
  induction acts generalizing p with
  | nil => exact ⟨hb, hp⟩
  | cons a acts ih =>
    have hkeeps := ha a List.mem_cons_self
    exact ih _ (act_placed p h a) (act_background p.reference a background hb hkeeps)
      (act_pictured hs m hheight background p h hb hp a)
      fun b hb => ha b (List.mem_cons_of_mem a hb)

theorem roomy {v : Video} (h : 88 + columns v ≤ columns v * rows v) :
    8 ≤ v.width.toNat ∧ 16 ≤ v.height.toNat := by
  have hcolumns : 1 ≤ columns v := by
    by_contra hnone
    have hzero : columns v = 0 := by omega
    rw [hzero, Nat.zero_mul] at h
    omega
  have hrows : 2 ≤ rows v := by
    by_contra hfew
    have hmul := Nat.mul_le_mul_left (columns v) (show rows v ≤ 1 by omega)
    omega
  rw [columns] at hcolumns
  rw [rows] at hrows
  omega

def opened (v : Video) (h : 88 + columns v ≤ columns v * rows v) (s : Screen) : Pair v :=
  start v (roomy h).1 (le_trans (by decide) (roomy h).2) s terminalFg terminalBg

theorem opened_pictured {v : Video} (h : 88 + columns v ≤ columns v * rows v) (s : Screen)
    (hs : v.Separate) (m : Memory) (hfb : s.fb = v.toFramebuffer) :
    Pictured m terminalBg (opened v h s) :=
  clear_pictured hs m terminalBg _ (initialised_placed v _ _ s _ _ hs.available hfb) rfl

/-- The buffer and the console agree on what is being typed. However the
console has been used since the screen was opened, after a prompt and any
characters and backspaces the buffer holds the edited line, the grid shows it
behind the prompt, and the return key runs it as a command. -/
theorem typing_echoed (v : Video) (ha : v.available = true)
    (hroom : 88 + columns v ≤ columns v * rows v) (s : Screen) (hfb : s.fb = v.toFramebuffer)
    (calls : List ConsoleGrid.Call) (k : Kernel)
    (hdisplay : k.system.display = run call (opened v hroom s).screen calls)
    (hinput : k.system.terminalInput = []) (events : List UiEvent)
    (htyping : ∀ e ∈ events, Typing e) :
    let p := run step (opened v hroom s) (calls.flatMap ConsoleGrid.Call.acts)
    let k' := run Kernel.terminalHandleEvent (k.onSystem System.terminalPrompt) events
    k'.system.terminalInput = typedText events ∧ (typedText events).length ≤ 79 ∧
    (∃ acts, (run step p acts).screen = k'.system.display ∧
      (∃ start gone, LineShown p.reference.terminal (run step p acts).reference.terminal events
        start gone) ∧
      (v.Separate → (∀ c ∈ calls, CallKeeps terminalBg c) →
        ∀ m, PairShows m (run step p acts))) ∧
    ∀ enter : UiEvent, enter.type = .keyDown → enter.keyCode = keyEnter →
      k'.terminalHandleEvent enter =
        ((k'.onSystem (·.print (·.newline))).executeCommand (typedText events)).onSystem
          System.clearInput := by
  intro p k'
  have hopened : Placed (opened v hroom s) := start_placed v _ _ s _ _ ha hfb
  have hplaced : Placed p :=
    run_invariant_all step Placed (fun q a hq => act_placed q hq a) _ _ hopened
  have hscreen : k.system.display = p.screen := by
    rw [hdisplay, calls_acts _ _ hopened.ready, run_screen]
  obtain ⟨acts, longest, htyped⟩ := typing_typed hroom p hplaced k hscreen hinput events htyping
  refine ⟨htyped.input, ?_, ⟨acts, htyped.display, ?_, ?_⟩, ?_⟩
  · exact (htyped.reached events (List.prefix_refl _)).trans htyped.longest_le
  · exact typed_shown hroom p _ events acts longest htyped
  · intro hs hcalls m
    have hheight : 8 < v.height.toNat := Nat.lt_of_lt_of_le (by decide) (roomy hroom).2
    obtain ⟨hb, hp⟩ := pictured_run hs m hheight terminalBg _ hopened rfl
      (opened_pictured hroom s hs m hfb) _ (calls_keep terminalBg calls hcalls)
    exact (pictured_run hs m hheight terminalBg p hplaced hb hp acts htyped.keeps).2.shows
  · intro enter hdown hkey
    have hchar : enter.type ≠ .keyChar := by
      rw [hdown]
      exact EventType.noConfusion
    have hbackspace : ¬ (enter.type = .keyDown ∧ enter.keyCode = keyBackspace) := by
      rw [hkey]
      exact fun hboth => absurd hboth.2 (by decide)
    have hcommand : cstr k'.system.terminalInput = typedText events := by
      rw [htyped.input]
      apply cstr_self
      intro hzero
      exact absurd (typedText_printable events htyping 0 hzero) (by decide)
    rw [Kernel.terminalHandleEvent, if_neg hchar, if_neg hbackspace, if_pos ⟨hdown, hkey⟩,
      Kernel.submitLine, hcommand]

def greeting : List ConsoleGrid.Call :=
  [.setCursor 4 4, .writeLine (ascii "HNMos Terminal"), .writeLine terminalCommands,
    .writeLine terminalAiCommands, .writeLine (ascii "ESC/back/exit/launcher returns to Launcher"),
    .newline]

theorem opened_screen (v : Video) (ha : v.available = true)
    (hroom : 88 + columns v ≤ columns v * rows v) (d : Screen) (hfb : d.fb = v.toFramebuffer)
    (hready : d.console.ready = true) (hcolumns : d.console.columns = v.width / 8)
    (hrows : d.console.rows = v.height / 8) :
    (opened v hroom d).screen = (d.setColors terminalFg terminalBg).clear := by
  obtain ⟨fb, ⟨cursorX, cursorY, columns, rows, foreground, background, ready⟩, ops⟩ := d
  simp only at hfb hready hcolumns hrows
  subst hfb hready hcolumns hrows
  have hconsole := graphicsInit_console v (roomy hroom).1 (le_trans (by decide) (roomy hroom).2)
    ⟨v.toFramebuffer, ⟨cursorX, cursorY, v.width / 8, v.height / 8, foreground, background, true⟩,
      ops⟩ terminalFg terminalBg ha rfl
  show (graphicsInit _ terminalFg terminalBg).clear = _
  rw [Screen.clear, hconsole, if_pos rfl]
  rfl

theorem showScreen_prompts (v : Video) (ha : v.available = true)
    (hroom : 88 + columns v ≤ columns v * rows v) (s : System)
    (hfb : s.display.fb = v.toFramebuffer) (hready : s.display.console.ready = true)
    (hcolumns : s.display.console.columns = v.width / 8)
    (hrows : s.display.console.rows = v.height / 8) :
    s.terminalShowScreen = System.terminalPrompt { s with
      display := run call (opened v hroom s.display).screen greeting
      terminalInput := [] } := by
  rw [opened_screen v ha hroom s.display hfb hready hcolumns hrows]
  simp only [System.terminalShowScreen, System.writeLine, System.print, greeting, run_cons, run_nil,
    call]

def lettersTyped : List UiEvent :=
  [Events.keyChar 0x26 108, Events.keyChar 0x1F 115, Events.keyDown 0x0E keyBackspace 8]

theorem typing_echoed_letters :
    let k := run Kernel.terminalHandleEvent (powerOn.onSystem System.terminalShowScreen)
      lettersTyped
    k.system.terminalInput = [108] ∧
    ∃ q : Pair bootVideo, q.screen = k.system.display ∧ PairShows (fun _ => 0) q ∧
      ∃ before start gone, LineShown before q.reference.terminal lettersTyped start gone := by
  have hroom : 88 + columns bootVideo ≤ columns bootVideo * rows bootVideo := by decide
  have hshow := showScreen_prompts bootVideo rfl hroom powerOn.system rfl rfl rfl rfl
  have hdrawn (d : Screen) : (powerOn.onSystem fun s => { s with
      display := d, terminalInput := [] }).system.display = d := rfl
  have htyping : ∀ e ∈ lettersTyped, Typing e := by
    intro e he
    simp only [lettersTyped, List.mem_cons, List.not_mem_nil, or_false] at he
    rcases he with rfl | rfl | rfl
    · exact Or.inl ⟨rfl, rfl⟩
    · exact Or.inl ⟨rfl, rfl⟩
    · exact Or.inr ⟨rfl, rfl⟩
  obtain ⟨hinput, _, ⟨acts, hdisplay, ⟨start, gone, hline⟩, hshows⟩, _⟩ :=
    typing_echoed bootVideo rfl hroom powerOn.system.display rfl greeting
      (powerOn.onSystem fun s => { s with
        display := run call (opened bootVideo hroom powerOn.system.display).screen greeting
        terminalInput := [] })
      (hdrawn _) rfl lettersTyped htyping
  rw [Kernel.onSystem, hshow]
  refine ⟨hinput, _, hdisplay, hshows bootVideo_separate ?_ _, _, start, gone, hline⟩
  intro c hc
  simp only [greeting, List.mem_cons, List.not_mem_nil, or_false] at hc
  rcases hc with rfl | rfl | rfl | rfl | rfl | rfl <;> trivial

end Hnmos.TerminalEcho
