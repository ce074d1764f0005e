import Mathlib
import Hnmos.PixelRows
import Hnmos.TerminalGrid
import Hnmos.Transition

/-!
# The graphical console as a terminal

The console and a reference terminal run side by side. The cursors always
agree. The pixels of the text grid stay the rendering of the terminal exactly
as long as no line feed on the last row finds anything but background where
scrolling does not clear: scrolling clears the last eight lines of the screen,
not the last row of the grid, and on a screen of eight lines nothing.
-/

set_option autoImplicit false

namespace Hnmos.ConsoleGrid
open Hnmos.Surface Hnmos.Font Hnmos.PageAllocator Hnmos.Graphics Hnmos.PixelRows
open Hnmos.TerminalGrid Hnmos.Transition

def graphicsInit (s : Screen) (foreground background : Color) : Screen :=
  { s with console :=
      if s.fb.available then
        { cursorX := 0
          cursorY := 0
          columns := s.fb.width / 8
          rows := s.fb.height / 8
          foreground := foreground
          background := background
          ready := decide (s.fb.width / 8 > 0) && decide (s.fb.height / 8 > 0) }
      else ⟨0, 0, 0, 0, foreground, background, false⟩ }

inductive Call where
  | clear
  | setColors (foreground background : Color)
  | setCursor (column row : UInt32)
  | putChar (character : UInt8)
  | write (text : List UInt8)
  | writeLine (text : List UInt8)
  | newline
  | backspace

def call (s : Screen) : Call → Screen
  | .clear => s.clear
  | .setColors foreground background => s.setColors foreground background
  | .setCursor column row => s.setCursor column row
  | .putChar character => s.putChar character
  | .write text => s.write text
  | .writeLine text => s.writeLine text
  | .newline => s.newline
  | .backspace => s.backspace

inductive Act where
  | clear
  | setColors (foreground background : Color)
  | setCursor (column row : UInt32)
  | newline
  | carriageReturn
  | backspace
  | glyph (character : UInt8)

def charActs (character : UInt8) : List Act :=
  if character = 10 then [.newline]
  else if character = 13 then [.carriageReturn]
  else if character = 8 then [.backspace]
  else if character = 9 then List.replicate 4 (.glyph 32)
  else [.glyph character]

def Call.acts : Call → List Act
  | .clear => [.clear]
  | .setColors foreground background => [.setColors foreground background]
  | .setCursor column row => [.setCursor column row]
  | .putChar character => charActs character
  | .write text => text.flatMap charActs
  | .writeLine text => text.flatMap charActs ++ [.newline]
  | .newline => [.newline]
  | .backspace => [.backspace]

def act (s : Screen) : Act → Screen
  | .clear => s.clear
  | .setColors foreground background => s.setColors foreground background
  | .setCursor column row => s.setCursor column row
  | .newline => s.newline
  | .carriageReturn => { s with console := { s.console with cursorX := 0 } }
  | .backspace => s.backspace
  | .glyph character => s.putGlyph character

inductive Cell where
  | blank (background : Color)
  | glyph (character : UInt8) (foreground background : Color)

def Cell.look : Cell → ℕ → ℕ → Color
  | .blank background, _, _ => background
  | .glyph character foreground background, col, row =>
    if glyphBit (Font.glyph character) row col then foreground else background

def columns (v : Video) : ℕ := v.width.toNat / 8

def rows (v : Video) : ℕ := v.height.toNat / 8

/-- The reference terminal with the current colours. -/
structure Reference (v : Video) where
  terminal : Terminal Cell (columns v) (rows v)
  foreground : Color
  background : Color

def Reference.act {v : Video} (t : Reference v) : Act → Reference v
  | .clear => { t with terminal := t.terminal.clear (.blank t.background) }
  | .setColors foreground background =>
    { t with foreground := foreground, background := background }
  | .setCursor column row => { t with terminal := t.terminal.moveTo column.toNat row.toNat }
  | .newline => { t with terminal := t.terminal.lineFeed (.blank t.background) }
  | .carriageReturn => { t with terminal := t.terminal.carriageReturn }
  | .backspace => { t with terminal := t.terminal.erase (.blank t.background) }
  | .glyph character =>
    { t with terminal :=
        t.terminal.put (.glyph character t.foreground t.background) (.blank t.background) }

structure Pair (v : Video) where
  screen : Screen
  reference : Reference v

def step {v : Video} (p : Pair v) (a : Act) : Pair v := ⟨act p.screen a, p.reference.act a⟩

def shownPicture (v : Video) (m : Memory) (s : Screen) : ℕ → ℕ → List UInt8 :=
  picture v (v.draw m s.ops)

def Shows (v : Video) (m : Memory) (s : Screen) (cells : ℕ → ℕ → Cell) : Prop :=
  ∀ x y, x < columns v * 8 → y < rows v * 8 →
    shownPicture v m s x y = v.pixelBytes (rendering 8 8 Cell.look cells x y)

structure Placed {v : Video} (p : Pair v) : Prop where
  fb : p.screen.fb = v.toFramebuffer
  ready : p.screen.console.ready = true
  columns : p.screen.console.columns.toNat = columns v
  rows : p.screen.console.rows.toNat = rows v
  column : p.screen.console.cursorX.toNat = p.reference.terminal.column
  row : p.screen.console.cursorY.toNat = p.reference.terminal.row
  foreground : p.screen.console.foreground = p.reference.foreground
  background : p.screen.console.background = p.reference.background

/-- Whether an act is a line feed on the last row. -/
def Scrolls (s : Screen) : Act → Prop
  | .newline => s.console.cursorY + 1 ≥ s.console.rows
  | .glyph _ =>
    s.console.cursorX + 1 ≥ s.console.columns ∧ s.console.cursorY + 1 ≥ s.console.rows
  | _ => False

instance (s : Screen) : (a : Act) → Decidable (Scrolls s a)
  | .newline => inferInstanceAs (Decidable (_ ≥ _))
  | .glyph _ => inferInstanceAs (Decidable (_ ∧ _))
  | .clear | .setColors _ _ | .setCursor _ _ | .carriageReturn | .backspace =>
    inferInstanceAs (Decidable False)

/-- The lines that move into the last row and are not cleared: those below the
grid, or all of a screen of eight lines. -/
def firstKept (v : Video) : ℕ := if v.height.toNat ≤ 8 then 0 else rows v * 8

def inked (v : Video) (m : Memory) (s : Screen) : Act → ℕ → ℕ → List UInt8
  | .glyph character, x, y =>
    if Within (s.console.cursorX.toNat * 8) (s.console.cursorY.toNat * 8) 8 8 x y then
      v.pixelBytes (Cell.look (.glyph character s.console.foreground s.console.background)
        (x - s.console.cursorX.toNat * 8) (y - s.console.cursorY.toNat * 8))
    else shownPicture v m s x y
  | _, x, y => shownPicture v m s x y

/-- Under the text columns, the lines that are kept show the background. -/
def KeepsBackground (v : Video) (background : Color) (shown : ℕ → ℕ → List UInt8) : Prop :=
  ∀ x y, x < columns v * 8 → firstKept v ≤ y → y < v.height.toNat →
    shown x y = v.pixelBytes background

def Safe {v : Video} (m : Memory) (p : Pair v) (a : Act) : Prop :=
  Scrolls p.screen a → KeepsBackground v p.screen.console.background (inked v m p.screen a)

theorem scroll_console (s : Screen) : s.scroll.console = s.console := by
  rw [Screen.scroll]
  split_ifs <;> rfl

theorem newline_console (s : Screen) (h : s.console.ready = true) :
    s.newline.console = { s.console with
      cursorX := 0
      cursorY := if s.console.cursorY + 1 ≥ s.console.rows then s.console.rows - 1
        else s.console.cursorY + 1 } := by
  rw [Screen.newline, if_pos h]
  simp only [scroll_console]
  split_ifs <;> rfl

theorem newline_ops (s : Screen) (h : s.console.ready = true) :
    s.newline.ops =
      if s.console.cursorY + 1 ≥ s.console.rows then
        (Screen.scroll { s with console := { s.console with cursorX := 0 } }).ops
      else s.ops := by
  rw [Screen.newline, if_pos h]
  simp only
  split_ifs <;> rfl

theorem newline_column (s : Screen) (x : UInt32) (h : s.console.ready = true) :
    Screen.newline { s with console := { s.console with cursorX := x } } = s.newline := by
  unfold Screen.newline
  rw [if_pos h]
  exact (if_pos h).symm

theorem newline_ready (s : Screen) : s.newline.console.ready = s.console.ready := by
  by_cases h : s.console.ready = true
  · rw [newline_console s h]
  · rw [Screen.newline, if_neg h]

theorem backspace_ready (s : Screen) : s.backspace.console.ready = s.console.ready := by
  rw [Screen.backspace]
  simp only
  split_ifs <;> rfl

theorem putGlyph_ready (s : Screen) (c : UInt8) :
    (s.putGlyph c).console.ready = s.console.ready := by
  rw [Screen.putGlyph]
  simp only
  split_ifs <;> simp only [newline_ready] <;> first | rfl | exact newline_ready s

theorem putChar_acts (s : Screen) (c : UInt8) (h : s.console.ready = true) :
    s.putChar c = run act s (charActs c) := by
  rw [Screen.putChar, if_pos h, charActs]
  split_ifs <;> rfl

theorem act_ready (s : Screen) (a : Act) : (act s a).console.ready = s.console.ready := by
  cases a with
  | clear =>
    rw [act, Screen.clear]
    split_ifs <;> rfl
  | setColors foreground background => rfl
  | setCursor column row =>
    rw [act, Screen.setCursor]
    split_ifs <;> rfl
  | newline => exact newline_ready s
  | carriageReturn => rfl
  | backspace => exact backspace_ready s
  | glyph c => exact putGlyph_ready s c

theorem run_ready (s : Screen) (acts : List Act) :
    (run act s acts).console.ready = s.console.ready := by
  induction acts generalizing s with
  | nil => rfl
  | cons a acts ih => rw [run_cons, ih, act_ready]

theorem write_acts (s : Screen) (text : List UInt8) (h : s.console.ready = true) :
    s.write text = run act s (text.flatMap charActs) := by
  induction text generalizing s with
  | nil => rfl
  | cons c text ih =>
    have hnext : (s.putChar c).console.ready = true := by
      rw [putChar_acts s c h, run_ready, h]
    rw [List.flatMap_cons, run_append, ← putChar_acts s c h, ← ih _ hnext]
    rfl

theorem call_acts (s : Screen) (c : Call) (h : s.console.ready = true) :
    call s c = run act s c.acts := by
  cases c with
  | putChar c => exact putChar_acts s c h
  | write text => exact write_acts s text h
  | writeLine text =>
    rw [Call.acts, run_concat, ← write_acts s text h]
    rfl
  | _ => rfl

theorem calls_acts (s : Screen) (calls : List Call) (h : s.console.ready = true) :
    run call s calls = run act s (calls.flatMap Call.acts) := by
  induction calls generalizing s with
  | nil => rfl
  | cons c calls ih =>
    have hnext : (call s c).console.ready = true := by
      rw [call_acts s c h, run_ready, h]
    rw [List.flatMap_cons, run_append, ← call_acts s c h, ← ih _ hnext]
    rfl

theorem run_screen {v : Video} (p : Pair v) (acts : List Act) :
    (run step p acts).screen = run act p.screen acts := by
  induction acts generalizing p with
  | nil => rfl
  | cons a acts ih => exact ih _

theorem add_one_toNat (i bound : UInt32) (h : i.toNat < bound.toNat) :
    (i + 1).toNat = i.toNat + 1 := by
  have hbound := bound.toNat_lt
  rw [UInt32.toNat_add]
  show (i.toNat + 1) % 2 ^ 32 = _
  omega

theorem sub_one_toNat (i : UInt32) (h : 0 < i.toNat) : (i - 1).toNat = i.toNat - 1 := by
  apply UInt32.toNat_sub_of_le
  rw [UInt32.le_iff_toNat_le]
  exact h

section
variable {v : Video} (p : Pair v) (h : Placed p)
include h

theorem cursor_inside : p.screen.console.cursorX.toNat < p.screen.console.columns.toNat ∧
    p.screen.console.cursorY.toNat < p.screen.console.rows.toNat := by
  rw [h.column, h.columns, h.row, h.rows]
  exact ⟨p.reference.terminal.column_lt, p.reference.terminal.row_lt⟩

theorem lastRow_iff : p.screen.console.cursorY + 1 ≥ p.screen.console.rows ↔
    ¬ p.reference.terminal.row + 1 < rows v := by
  rw [ge_iff_le, UInt32.le_iff_toNat_le, add_one_toNat _ _ (cursor_inside p h).2, h.row, h.rows,
    Nat.not_lt]

theorem lastColumn_iff : p.screen.console.cursorX + 1 ≥ p.screen.console.columns ↔
    ¬ p.reference.terminal.column + 1 < columns v := by
  rw [ge_iff_le, UInt32.le_iff_toNat_le, add_one_toNat _ _ (cursor_inside p h).1, h.column,
    h.columns, Nat.not_lt]

theorem newline_placed : Placed (step p .newline) := by
  have hconsole := newline_console p.screen h.ready
  have hlast := lastRow_iff p h
  have hrow := p.reference.terminal.row_lt
  have hinside := (cursor_inside p h).2
  refine ⟨(newline_fb p.screen).trans h.fb, (newline_ready p.screen).trans h.ready, ?_, ?_, ?_, ?_,
    ?_, ?_⟩
  · show p.screen.newline.console.columns.toNat = _
    rw [hconsole]
    exact h.columns
  · show p.screen.newline.console.rows.toNat = _
    rw [hconsole]
    exact h.rows
  · show p.screen.newline.console.cursorX.toNat = _
    rw [hconsole, step, Reference.act, Terminal.lineFeed]
    split_ifs <;> rfl
  · show p.screen.newline.console.cursorY.toNat = _
    rw [hconsole, step, Reference.act]
    by_cases hfeed : p.reference.terminal.row + 1 < rows v
    · rw [lineFeed_next _ _ hfeed]
      simp only [if_neg (fun hge => hlast.mp hge hfeed)]
      rw [add_one_toNat _ _ hinside, h.row]
    · rw [lineFeed_last _ _ hfeed]
      simp only [if_pos (hlast.mpr hfeed)]
      rw [sub_one_toNat _ (by omega), h.rows]
      show rows v - 1 = p.reference.terminal.row
      omega
  · show p.screen.newline.console.foreground = _
    rw [hconsole]
    exact h.foreground
  · show p.screen.newline.console.background = _
    rw [hconsole]
    exact h.background

def ink {v : Video} (p : Pair v) (c : UInt8) : Pair v where
  screen := p.screen.draw [.char p.screen.console.pixelX p.screen.console.pixelY c
    p.screen.console.foreground p.screen.console.background]
  reference := { p.reference with terminal := { p.reference.terminal with
    cells := write p.reference.terminal.cells p.reference.terminal.column p.reference.terminal.row
      (.glyph c p.reference.foreground p.reference.background) } }

theorem ink_placed (c : UInt8) : Placed (ink p c) :=
  ⟨h.fb, h.ready, h.columns, h.rows, h.column, h.row, h.foreground, h.background⟩

theorem putGlyph_screen (c : UInt8) :
    p.screen.putGlyph c =
      if p.screen.console.cursorX + 1 ≥ p.screen.console.columns then (ink p c).screen.newline
      else { (ink p c).screen with console :=
        { p.screen.console with cursorX := p.screen.console.cursorX + 1 } } := by
  have hinside : ¬ p.screen.console.cursorX ≥ p.screen.console.columns := by
    rw [ge_iff_le, UInt32.le_iff_toNat_le]
    exact Nat.not_le_of_lt (cursor_inside p h).1
  rw [Screen.putGlyph, if_neg hinside]
  by_cases hwrap : p.screen.console.cursorX + 1 ≥ p.screen.console.columns
  · rw [if_pos hwrap]
    exact (if_pos hwrap).trans (newline_column (ink p c).screen _ h.ready)
  · rw [if_neg hwrap]
    exact if_neg hwrap

theorem putGlyph_next (c : UInt8) (hnext : p.reference.terminal.column + 1 < columns v) :
    p.screen.putGlyph c = { (ink p c).screen with console :=
      { p.screen.console with cursorX := p.screen.console.cursorX + 1 } } := by
  rw [putGlyph_screen p h]
  exact if_neg fun hge => (lastColumn_iff p h).mp hge hnext

theorem glyph_wraps (c : UInt8)
    (hwrap : ¬ p.reference.terminal.column + 1 < columns v) :
    step p (.glyph c) = step (ink p c) .newline := by
  have hscreen : act p.screen (.glyph c) = act (ink p c).screen .newline := by
    show p.screen.putGlyph c = _
    rw [putGlyph_screen p h, if_pos ((lastColumn_iff p h).mpr hwrap)]
    rfl
  have hreference : p.reference.act (.glyph c) = (ink p c).reference.act .newline :=
    congrArg (fun t => { p.reference with terminal := t }) (put_last _ _ _ hwrap)
  rw [step, step, hscreen, hreference]

theorem glyph_placed (c : UInt8) : Placed (step p (.glyph c)) := by
  by_cases hnext : p.reference.terminal.column + 1 < columns v
  · have hscreen := putGlyph_next p h c hnext
    rw [step, act, hscreen, Reference.act, put_next _ _ _ hnext]
    refine ⟨h.fb, h.ready, h.columns, h.rows, ?_, h.row, h.foreground, h.background⟩
    show (p.screen.console.cursorX + 1).toNat = p.reference.terminal.column + 1
    rw [add_one_toNat _ _ (cursor_inside p h).1, h.column]
  · rw [glyph_wraps p h c hnext]
    exact newline_placed _ (ink_placed p h c)

theorem setCursor_placed (column row : UInt32) : Placed (step p (.setCursor column row)) := by
  have hcolumn := p.reference.terminal.column_lt
  have hrow := p.reference.terminal.row_lt
  have hclamp : ∀ i bound : UInt32, 0 < bound.toNat →
      (if i ≥ bound then bound - 1 else i).toNat = min i.toNat (bound.toNat - 1) := by
    intro i bound hbound
    simp only [ge_iff_le, UInt32.le_iff_toNat_le]
    split_ifs with hge
    · rw [sub_one_toNat _ hbound]
      omega
    · omega
  rw [step, act, Screen.setCursor, if_pos h.ready]
  refine ⟨h.fb, h.ready, h.columns, h.rows, ?_, ?_, h.foreground, h.background⟩
  · show (if column ≥ p.screen.console.columns then _ else _ : UInt32).toNat = _
    rw [hclamp _ _ (by rw [h.columns]; omega), h.columns]
    rfl
  · show (if row ≥ p.screen.console.rows then _ else _ : UInt32).toNat = _
    rw [hclamp _ _ (by rw [h.rows]; omega), h.rows]
    rfl

theorem backspace_screen (hfirst : ¬ (p.reference.terminal.column = 0 ∧
    p.reference.terminal.row = 0)) :
    ∃ column row : UInt32, column.toNat = p.reference.terminal.back.column ∧
      row.toNat = p.reference.terminal.back.row ∧
      p.screen.backspace =
        { p.screen with
          console := { p.screen.console with cursorX := column, cursorY := row }
          ops := p.screen.ops ++
            [.fillRect (column * 8) (row * 8) 8 8 p.screen.console.background] } := by
  have hcolumns := p.reference.terminal.column_lt
  have hx : p.screen.console.cursorX = 0 ↔ p.reference.terminal.column = 0 := by
    rw [← h.column, ← UInt32.toNat_inj]
    rfl
  have hy : p.screen.console.cursorY = 0 ↔ p.reference.terminal.row = 0 := by
    rw [← h.row, ← UInt32.toNat_inj]
    rfl
  rw [← hx, ← hy] at hfirst
  have hready : ¬ (p.screen.console.ready = false ∨
      p.screen.console.cursorX = 0 ∧ p.screen.console.cursorY = 0) := by
    rw [h.ready]
    exact not_or.mpr ⟨Bool.true_eq_false.mp, hfirst⟩
  rw [Screen.backspace, if_neg hready]
  by_cases hzero : p.screen.console.cursorX = 0
  · have hrow : 0 < p.screen.console.cursorY.toNat := by
      have hne : p.screen.console.cursorY.toNat ≠ 0 := fun he =>
        hfirst ⟨hzero, UInt32.toNat_inj.mp he⟩
      omega
    refine ⟨p.screen.console.columns - 1, p.screen.console.cursorY - 1, ?_, ?_, ?_⟩
    · rw [sub_one_toNat _ (by rw [h.columns]; omega), h.columns, back_column,
        if_pos (hx.mp hzero), if_neg (fun he => hfirst ⟨hzero, hy.mpr he⟩)]
    · rw [sub_one_toNat _ hrow, h.row, back_row, if_pos (hx.mp hzero)]
    · simp only [if_pos hzero]
      rfl
  · have hcolumn : 0 < p.screen.console.cursorX.toNat := by
      have hne : p.screen.console.cursorX.toNat ≠ 0 := fun he => hzero (UInt32.toNat_inj.mp he)
      omega
    refine ⟨p.screen.console.cursorX - 1, p.screen.console.cursorY, ?_, ?_, ?_⟩
    · rw [sub_one_toNat _ hcolumn, h.column, back_column, if_neg (fun he => hzero (hx.mpr he))]
    · rw [h.row, back_row, if_neg (fun he => hzero (hx.mpr he))]
    · simp only [if_neg hzero]
      rfl

theorem backspace_first (hfirst : p.reference.terminal.column = 0 ∧ p.reference.terminal.row = 0) :
    step p .backspace = p := by
  have hx : p.screen.console.cursorX = 0 := UInt32.toNat_inj.mp (h.column.trans hfirst.1)
  have hy : p.screen.console.cursorY = 0 := UInt32.toNat_inj.mp (h.row.trans hfirst.2)
  have hscreen : p.screen.backspace = p.screen := by
    rw [Screen.backspace, if_pos (Or.inr ⟨hx, hy⟩)]
  have hterminal : p.reference.terminal.erase (.blank p.reference.background) =
      p.reference.terminal := if_pos hfirst
  show Pair.mk p.screen.backspace { p.reference with terminal := p.reference.terminal.erase _ } = p
  rw [hscreen, hterminal]

theorem backspace_placed : Placed (step p .backspace) := by
  by_cases hfirst : p.reference.terminal.column = 0 ∧ p.reference.terminal.row = 0
  · rw [backspace_first p h hfirst]
    exact h
  · obtain ⟨column, row, hcolumn, hrow, hscreen⟩ := backspace_screen p h hfirst
    show Placed (Pair.mk p.screen.backspace
      { p.reference with terminal := p.reference.terminal.erase _ })
    rw [hscreen, erase_back _ _ hfirst]
    exact ⟨h.fb, h.ready, h.columns, h.rows, hcolumn, hrow, h.foreground, h.background⟩

theorem act_placed (a : Act) : Placed (step p a) := by
  cases a with
  | clear =>
    rw [step, act, Screen.clear, if_pos h.ready]
    exact ⟨h.fb, h.ready, h.columns, h.rows, rfl, rfl, h.foreground, h.background⟩
  | setColors foreground background =>
    exact ⟨h.fb, h.ready, h.columns, h.rows, h.column, h.row, rfl, rfl⟩
  | setCursor column row => exact setCursor_placed p h column row
  | newline => exact newline_placed p h
  | carriageReturn =>
    exact ⟨h.fb, h.ready, h.columns, h.rows, rfl, h.row, h.foreground, h.background⟩
  | backspace => exact backspace_placed p h
  | glyph c => exact glyph_placed p h c

end

def PairShows {v : Video} (m : Memory) (p : Pair v) : Prop :=
  Shows v m p.screen p.reference.terminal.cells

theorem shownPicture_draw (v : Video) (m : Memory) (s : Screen) (op : DrawOp) :
    shownPicture v m (s.draw [op]) = picture v (v.apply (v.draw m s.ops) op) := by
  rw [shownPicture]
  show picture v (v.draw m (s.ops ++ [op])) = _
  rw [Video.draw, List.foldl_concat]
  rfl

theorem grid_bounds (v : Video) (x y : ℕ) (hx : x < columns v * 8) (hy : y < rows v * 8) :
    x < v.width.toNat ∧ y < v.height.toNat := by
  rw [columns] at hx
  rw [rows] at hy
  omega

theorem cell_toNat (i : UInt32) (bound : ℕ) (h : i.toNat < bound) (hbound : bound * 8 < 2 ^ 32) :
    (i * 8).toNat = i.toNat * 8 := by
  rw [UInt32.toNat_mul]
  show i.toNat * 8 % 2 ^ 32 = _
  omega

theorem within_cell (column row x y : ℕ) :
    Within (column * 8) (row * 8) 8 8 x y ↔ x / 8 = column ∧ y / 8 = row := by
  rw [Within, div_eq_iff 8 column x (by decide), div_eq_iff 8 row y (by decide)]

theorem cell_shows {v : Video} (m : Memory) (p : Pair v) (hshows : PairShows m p) (op : DrawOp)
    (column row : ℕ) (cell : Cell)
    (hinside : ∀ x y, x < v.width.toNat → y < v.height.toNat →
      Within (column * 8) (row * 8) 8 8 x y →
        picture v (v.apply (v.draw m p.screen.ops) op) x y =
          v.pixelBytes (cell.look (x - column * 8) (y - row * 8)))
    (houtside : ∀ x y, x < v.width.toNat → y < v.height.toNat →
      ¬ Within (column * 8) (row * 8) 8 8 x y →
        picture v (v.apply (v.draw m p.screen.ops) op) x y = shownPicture v m p.screen x y) :
    Shows v m (p.screen.draw [op]) (write p.reference.terminal.cells column row cell) := by
  intro x y hx hy
  obtain ⟨hwidth, hheight⟩ := grid_bounds v x y hx hy
  rw [shownPicture_draw, rendering_write]
  by_cases hin : x / 8 = column ∧ y / 8 = row
  · rw [if_pos hin, hinside x y hwidth hheight ((within_cell column row x y).mpr hin)]
    have hmodx := Nat.div_add_mod x 8
    have hmody := Nat.div_add_mod y 8
    rw [hin.1] at hmodx
    rw [hin.2] at hmody
    have hcol : x - column * 8 = x % 8 := by omega
    have hrow : y - row * 8 = y % 8 := by omega
    rw [hcol, hrow]
  · rw [if_neg hin,
      houtside x y hwidth hheight fun hw => hin ((within_cell column row x y).mp hw)]
    exact hshows x y hx hy

theorem blank_picture (v : Video) (hs : v.Separate) (m : Memory) (background : Color)
    (column row : UInt32) (hcolumn : column.toNat < columns v) (hrow : row.toNat < rows v) (x y : ℕ)
    (hx : x < v.width.toNat) (hy : y < v.height.toNat) :
    picture v (v.apply m (.fillRect (column * 8) (row * 8) 8 8 background)) x y =
      if Within (column.toNat * 8) (row.toNat * 8) 8 8 x y then v.pixelBytes background
      else picture v m x y := by
  have hwidth := v.width.toNat_lt
  have hheight := v.height.toNat_lt
  have hpx := cell_toNat column _ hcolumn (by rw [columns]; omega)
  have hpy := cell_toNat row _ hrow (by rw [rows]; omega)
  rw [picture_fillRect v hs _ _ _ 8 8 _ x y hx hy, hpx, hpy]
  rfl

section
variable {v : Video} (hs : v.Separate) (m : Memory) (p : Pair v) (h : Placed p)
include hs h

theorem ink_picture (c : UInt8) (x y : ℕ) (hx : x < v.width.toNat) (hy : y < v.height.toNat) :
    shownPicture v m (ink p c).screen x y = inked v m p.screen (.glyph c) x y := by
  have hwidth := v.width.toNat_lt
  have hheight := v.height.toNat_lt
  have hcolumn := h.column ▸ p.reference.terminal.column_lt
  have hrow := h.row ▸ p.reference.terminal.row_lt
  have hpx := cell_toNat p.screen.console.cursorX _ hcolumn (by rw [columns]; omega)
  have hpy := cell_toNat p.screen.console.cursorY _ hrow (by rw [rows]; omega)
  rw [columns] at hcolumn
  rw [rows] at hrow
  rw [ink, shownPicture_draw, Console.pixelX, Console.pixelY,
    picture_char v hs _ _ _ c _ _ x y hx hy (by omega) (by omega), hpx, hpy]
  rfl

theorem ink_shows (hshows : PairShows m p) (c : UInt8) : PairShows m (ink p c) := by
  have hpicture : ∀ x y, x < v.width.toNat → y < v.height.toNat →
      picture v (v.apply (v.draw m p.screen.ops) (.char p.screen.console.pixelX
        p.screen.console.pixelY c p.screen.console.foreground p.screen.console.background)) x y =
        inked v m p.screen (.glyph c) x y := by
    intro x y hx hy
    rw [← ink_picture hs m p h c x y hx hy, ink, shownPicture_draw]
  apply cell_shows m p hshows
  · intro x y hx hy hin
    rw [hpicture x y hx hy, inked, h.column, h.row, if_pos hin, h.foreground, h.background]
  · intro x y hx hy hout
    rw [hpicture x y hx hy, inked, h.column, h.row, if_neg hout]

theorem glyph_keeps (c : UInt8) (background : Color)
    (hnext : p.reference.terminal.column + 1 < columns v) (hmore : 8 < v.height.toNat)
    (hkeeps : KeepsBackground v background (shownPicture v m p.screen)) :
    KeepsBackground v background (shownPicture v m (step p (.glyph c)).screen) := by
  intro x y hx hfirst hy
  have hscreen := putGlyph_next p h c hnext
  have hpicture : shownPicture v m (step p (.glyph c)).screen x y =
      inked v m p.screen (.glyph c) x y := by
    rw [← ink_picture hs m p h c x y (by rw [columns] at hx; omega) hy]
    show picture v (v.draw m (p.screen.putGlyph c).ops) x y = _
    rw [hscreen]
    rfl
  have hrow := h.row ▸ p.reference.terminal.row_lt
  rw [firstKept, if_neg (Nat.not_le_of_lt hmore)] at hfirst
  rw [hpicture, inked, if_neg (fun hin => by have := hin.2.2; omega)]
  exact hkeeps x y hx (by rw [firstKept, if_neg (Nat.not_le_of_lt hmore)]; exact hfirst) hy

theorem backspace_shows (hshows : PairShows m p) : PairShows m (step p .backspace) := by
  by_cases hfirst : p.reference.terminal.column = 0 ∧ p.reference.terminal.row = 0
  · rw [backspace_first p h hfirst]
    exact hshows
  · obtain ⟨column, row, hcolumn, hrow, hscreen⟩ := backspace_screen p h hfirst
    have hcolumns : column.toNat < columns v := hcolumn ▸ p.reference.terminal.back.column_lt
    have hrows : row.toNat < rows v := hrow ▸ p.reference.terminal.back.row_lt
    have hpicture := blank_picture v hs (v.draw m p.screen.ops) p.screen.console.background column row
      hcolumns hrows
    have hcell := cell_shows m p hshows _ column.toNat row.toNat (.blank p.reference.background)
      (fun x y hx hy hin => by rw [hpicture x y hx hy, if_pos hin, h.background]; rfl)
      (fun x y hx hy hout => by rw [hpicture x y hx hy, if_neg hout]; rfl)
    rw [hcolumn, hrow] at hcell
    show Shows v m p.screen.backspace (p.reference.terminal.erase _).cells
    rw [hscreen, erase_back _ _ hfirst]
    exact hcell

theorem clear_shows : PairShows m (step p .clear) := by
  intro x y hx hy
  obtain ⟨hwidth, hheight⟩ := grid_bounds v x y hx hy
  show shownPicture v m p.screen.clear x y = _
  rw [Screen.clear, if_pos h.ready, h.background]
  show shownPicture v m (p.screen.draw [_]) x y = _
  rw [shownPicture_draw, picture_clear v hs _ _ x y hwidth hheight]
  rfl

/-- What a line feed on the last row leaves on the screen. -/
theorem scrolled_picture (hrow : 8 ≤ v.height.toNat) (hlast : Scrolls p.screen .newline) (x y : ℕ)
    (hx : x < v.width.toNat) (hy : y < v.height.toNat) :
    shownPicture v m (step p .newline).screen x y =
      if v.height.toNat ≤ 8 then shownPicture v m p.screen x y
      else if y + 8 < v.height.toNat then shownPicture v m p.screen x (y + 8)
      else v.pixelBytes p.screen.console.background := by
  have hops : (step p .newline).screen.ops =
      (Screen.scroll { p.screen with console := { p.screen.console with cursorX := 0 } }).ops := by
    show p.screen.newline.ops = _
    rw [newline_ops p.screen h.ready]
    exact if_pos hlast
  have hfb : p.screen.fb.height = v.height ∧ p.screen.fb.width = v.width := by
    rw [h.fb]
    exact ⟨rfl, rfl⟩
  by_cases hone : v.height.toNat ≤ 8
  · have hkept : p.screen.console.ready = false ∨ p.screen.fb.height ≤ 8 := by
      rw [hfb.1]
      exact Or.inr (UInt32.le_iff_toNat_le.mpr hone)
    rw [if_pos hone, shownPicture, hops, Screen.scroll, if_pos hkept]
    rfl
  · have hmoves : ¬ (p.screen.console.ready = false ∨ p.screen.fb.height ≤ 8) := by
      rw [hfb.1, h.ready, UInt32.le_iff_toNat_le]
      exact not_or.mpr ⟨Bool.true_eq_false.mp, hone⟩
    have htop : (v.height - 8).toNat = v.height.toNat - 8 :=
      UInt32.toNat_sub_of_le _ _ (UInt32.le_iff_toNat_le.mpr hrow)
    have htwo : shownPicture v m (step p .newline).screen = shownPicture v m
        ((p.screen.draw [.scrollRows 8]).draw
          [.fillRect 0 (v.height - 8) v.width 8 p.screen.console.background]) := by
      rw [shownPicture, hops, Screen.scroll, if_neg hmoves, ← hfb.1, ← hfb.2]
      exact congrArg (fun ops => picture v (v.draw m ops))
        (List.append_assoc p.screen.ops [.scrollRows 8] [_]).symm
    rw [if_neg hone, htwo, shownPicture_draw,
      picture_fillRect v hs _ 0 (v.height - 8) v.width 8 _ x y hx hy, htop]
    have hmoved : picture v (v.draw m (p.screen.draw [.scrollRows 8]).ops) x y =
        if y + 8 < v.height.toNat then shownPicture v m p.screen x (y + 8)
        else shownPicture v m p.screen x y := by
      show shownPicture v m (p.screen.draw [.scrollRows 8]) x y = _
      rw [shownPicture_draw, picture_scroll v hs 8 _ hrow x y hx hy]
      rfl
    rw [hmoved]
    show (if Within 0 (v.height.toNat - 8) v.width.toNat 8 x y then _ else _) = _
    by_cases hbelow : y + 8 < v.height.toNat
    · rw [if_neg (fun hin => by have := hin.2.1; omega), if_pos hbelow, if_pos hbelow]
    · rw [if_pos ⟨⟨Nat.zero_le _, by omega⟩, by omega, by omega⟩, if_neg hbelow]

/-- A line feed keeps the grid exactly when it is safe. -/
theorem newline_shows_iff (hrow : 8 ≤ v.height.toNat) (hshows : PairShows m p) :
    PairShows m (step p .newline) ↔
      (Scrolls p.screen .newline →
        KeepsBackground v p.screen.console.background (shownPicture v m p.screen)) := by
  by_cases hlast : Scrolls p.screen .newline
  · have hfeed := (lastRow_iff p h).mp hlast
    have hcells : (step p .newline).reference.terminal.cells =
        shifted (rows v) p.reference.terminal.cells (.blank p.screen.console.background) := by
      show (p.reference.terminal.lineFeed _).cells = _
      rw [lineFeed_last _ _ hfeed, h.background]
    have hpicture := scrolled_picture hs m p h hrow hlast
    have hsame : PairShows m (step p .newline) ↔ ∀ x y, x < columns v * 8 → y < rows v * 8 →
        (if v.height.toNat ≤ 8 then shownPicture v m p.screen x y
          else if y + 8 < v.height.toNat then shownPicture v m p.screen x (y + 8)
          else v.pixelBytes p.screen.console.background) =
        v.pixelBytes (if y + 8 < rows v * 8 then
          rendering 8 8 Cell.look p.reference.terminal.cells x (y + 8)
          else p.screen.console.background) := by
      rw [PairShows, Shows, hcells]
      refine forall_congr' fun x => forall_congr' fun y => imp_congr_right fun hx =>
        imp_congr_right fun hy => ?_
      obtain ⟨hwidth, hheight⟩ := grid_bounds v x y hx hy
      rw [hpicture x y hwidth hheight, rendering_shifted 8 8 Cell.look _ _ x y (by decide)]
      rfl
    rw [hsame, imp_iff_right hlast, KeepsBackground, firstKept]
    have hdiv := Nat.div_add_mod v.height.toNat 8
    have hmod := Nat.mod_lt v.height.toNat (show 8 > 0 by decide)
    have hrows : rows v = v.height.toNat / 8 := rfl
    by_cases hone : v.height.toNat ≤ 8
    · simp only [if_pos hone]
      constructor
      · intro hall x y hx _ hy
        rw [hall x y hx (by omega), if_neg (by omega)]
      · intro hkeeps x y hx hy
        rw [hkeeps x y hx (Nat.zero_le y) (by omega), if_neg (by omega)]
    · simp only [if_neg hone]
      constructor
      · intro hall x y hx hfirst hy
        have hmoved := hall x (y - 8) hx (by omega)
        have hback : y - 8 + 8 = y := by omega
        rw [hback, if_pos hy, if_neg (by omega)] at hmoved
        exact hmoved
      · intro hkeeps x y hx hy
        by_cases hinside : y + 8 < rows v * 8
        · rw [if_pos (by omega), if_pos hinside]
          exact hshows x (y + 8) hx hinside
        · rw [if_neg hinside]
          by_cases hbelow : y + 8 < v.height.toNat
          · rw [if_pos hbelow]
            exact hkeeps x (y + 8) hx (by omega) hbelow
          · rw [if_neg hbelow]
  · have hfeed : p.reference.terminal.row + 1 < rows v :=
      not_not.mp fun hnot => hlast ((lastRow_iff p h).mpr hnot)
    have hsame : PairShows m (step p .newline) := by
      show Shows v m p.screen.newline (p.reference.terminal.lineFeed _).cells
      rw [lineFeed_next _ _ hfeed, Shows, shownPicture, newline_ops p.screen h.ready]
      rw [show (if p.screen.console.cursorY + 1 ≥ p.screen.console.rows then _ else p.screen.ops) =
        p.screen.ops from if_neg hlast]
      exact hshows
    exact ⟨fun _ hscrolls => absurd hscrolls hlast, fun _ => hsame⟩

/-- An act keeps the grid exactly when it is safe. -/
theorem act_shows_iff (hrow : 8 ≤ v.height.toNat) (hshows : PairShows m p) (a : Act) :
    PairShows m (step p a) ↔ Safe m p a := by
  have hkept : ∀ a, ¬ Scrolls p.screen a → PairShows m (step p a) →
      (PairShows m (step p a) ↔ Safe m p a) :=
    fun a hnot hkeep => ⟨fun _ hscrolls => absurd hscrolls hnot, fun _ => hkeep⟩
  cases a with
  | clear => exact hkept .clear not_false (clear_shows hs m p h)
  | setColors foreground background => exact hkept (.setColors _ _) not_false hshows
  | setCursor column row =>
    apply hkept (.setCursor _ _) not_false
    rw [step, act, Screen.setCursor, if_pos h.ready]
    exact hshows
  | newline => exact newline_shows_iff hs m p h hrow hshows
  | carriageReturn => exact hkept .carriageReturn not_false hshows
  | backspace => exact hkept .backspace not_false (backspace_shows hs m p h hshows)
  | glyph c =>
    have hink := ink_shows hs m p h hshows c
    by_cases hnext : p.reference.terminal.column + 1 < columns v
    · apply hkept (.glyph c)
      · exact fun hscrolls => (lastColumn_iff p h).mp hscrolls.1 hnext
      · have hscreen := putGlyph_next p h c hnext
        show Shows v m (p.screen.putGlyph c) (p.reference.terminal.put _ _).cells
        rw [hscreen, put_next _ _ _ hnext]
        exact hink
    · have hwrap := (lastColumn_iff p h).mpr hnext
      rw [glyph_wraps p h c hnext, newline_shows_iff hs m _ (ink_placed p h c) hrow hink, Safe]
      have hscrolls : Scrolls p.screen (.glyph c) ↔ Scrolls (ink p c).screen .newline :=
        and_iff_right hwrap
      rw [hscrolls]
      refine imp_congr_right fun _ => ?_
      show KeepsBackground v p.screen.console.background _ ↔ _
      rw [KeepsBackground, KeepsBackground]
      refine forall_congr' fun x => forall_congr' fun y => imp_congr_right fun hx =>
        imp_congr_right fun _ => imp_congr_right fun hy => ?_
      rw [ink_picture hs m p h c x y (by rw [columns] at hx; omega) hy]

end

section
variable (v : Video) (hs : v.Separate) (hwidth : 8 ≤ v.width.toNat) (hheight : 8 ≤ v.height.toNat)
variable (m : Memory) (s : Screen) (foreground background : Color)

def initialised : Pair v where
  screen := graphicsInit s foreground background
  reference := {
    terminal := {
      cells := fun _ _ => .blank background
      column := 0
      row := 0
      column_lt := Nat.div_pos hwidth (by decide)
      row_lt := Nat.div_pos hheight (by decide) }
    foreground := foreground
    background := background }

def start : Pair v := step (initialised v hwidth hheight s foreground background) .clear

section
variable (ha : v.available = true)
include hwidth hheight ha

theorem graphicsInit_console (hfb : s.fb = v.toFramebuffer) :
    (graphicsInit s foreground background).console =
      ⟨0, 0, v.width / 8, v.height / 8, foreground, background, true⟩ := by
  have hpositive : ∀ size : UInt32, 8 ≤ size.toNat → size / 8 > 0 := by
    intro size hsize
    rw [gt_iff_lt, UInt32.lt_iff_toNat_lt, UInt32.toNat_div]
    exact Nat.div_pos hsize (by decide)
  simp only [graphicsInit, hfb, ha, if_true, decide_eq_true (hpositive _ hwidth),
    decide_eq_true (hpositive _ hheight), Bool.and_self]

theorem initialised_placed (hfb : s.fb = v.toFramebuffer) :
    Placed (initialised v hwidth hheight s foreground background) := by
  have hconsole := graphicsInit_console v hwidth hheight s foreground background ha hfb
  refine ⟨hfb, ?_, ?_, ?_, ?_, ?_, ?_, ?_⟩ <;>
    simp only [initialised, hconsole, UInt32.toNat_div] <;> rfl

theorem start_placed (hfb : s.fb = v.toFramebuffer) :
    Placed (start v hwidth hheight s foreground background) :=
  act_placed _ (initialised_placed v hwidth hheight s foreground background ha hfb) .clear

end

include hs

theorem start_shows (hfb : s.fb = v.toFramebuffer) :
    PairShows m (start v hwidth hheight s foreground background) :=
  clear_shows hs m _
    (initialised_placed v hwidth hheight s foreground background hs.available hfb)

/-- After any calls on a cleared console the cursor is inside the grid, and the
grid shows the reference terminal in every state of the run exactly when every
line feed on the last row finds background where scrolling does not clear. -/
theorem grid_refined (hfb : s.fb = v.toFramebuffer) (calls : List Call) :
    let p := start v hwidth hheight s foreground background
    let acts := calls.flatMap Call.acts
    run call p.screen calls = (run step p acts).screen ∧
    (∀ front, front <+: acts →
      (run step p front).screen.console.cursorX.toNat < columns v ∧
        (run step p front).screen.console.cursorY.toNat < rows v) ∧
    ((∀ front, front <+: acts → PairShows m (run step p front)) ↔ Along step (Safe m) p acts) := by
  intro p acts
  have hplaced : Placed p :=
    start_placed v hwidth hheight s foreground background hs.available hfb
  have hshows : PairShows m p := start_shows v hs hwidth hheight m s foreground background hfb
  refine ⟨?_, ?_, ?_⟩
  · rw [calls_acts p.screen calls hplaced.ready, run_screen]
  · intro front _
    have hfront : Placed (run step p front) :=
      run_invariant_all step Placed (fun q a hq => act_placed q hq a) p front hplaced
    rw [hfront.column, hfront.row]
    exact ⟨(run step p front).reference.terminal.column_lt,
      (run step p front).reference.terminal.row_lt⟩
  · exact always_iff step Placed (PairShows m) (Safe m) (fun q a hq => act_placed q hq a)
      (fun q a hq hgood => act_shows_iff hs m q hq hheight hgood a) p acts hplaced hshows

end

/-- 1600 by 900 pixels: the grid has 112 rows, and four lines are left over. -/
def wideVideo : Video where
  available := true
  width := 1600
  height := 900
  bpp := 32
  address := 0xE0000000
  pitch := 6400
  redPosition := 16
  redMaskSize := 8
  greenPosition := 8
  greenMaskSize := 8
  bluePosition := 0
  blueMaskSize := 8
  supported := deep_supported true

theorem wideVideo_separate : wideVideo.Separate := ⟨rfl, by decide, by decide⟩

def wideScreen : Screen := ⟨wideVideo.toFramebuffer, ⟨0, 0, 0, 0, 0, 0, false⟩, []⟩

def wideStart : Pair wideVideo :=
  start wideVideo (by decide) (by decide) wideScreen (colorRgb 232 238 245) (colorRgb 6 10 16)

theorem wideStart_placed : Placed wideStart := start_placed _ _ _ wideScreen _ _ rfl rfl

theorem wideStart_picture (x y : ℕ) (hx : x < 1600) (hy : y < 900) :
    shownPicture wideVideo (fun _ => 0) wideStart.screen x y =
      wideVideo.pixelBytes (colorRgb 6 10 16) := by
  show shownPicture wideVideo _ ((initialised wideVideo (by decide) (by decide) wideScreen
    (colorRgb 232 238 245) (colorRgb 6 10 16)).screen.draw [.clear (colorRgb 6 10 16)]) x y = _
  rw [shownPicture_draw, picture_clear wideVideo wideVideo_separate _ _ x y hx hy]

theorem greeting_shown : PairShows (fun _ => 0) (run step wideStart
    ([Call.setCursor 0 111, .writeLine [72, 73]].flatMap Call.acts)) := by
  have h := grid_refined wideVideo wideVideo_separate (by decide) (by decide) (fun _ => 0)
    wideScreen (colorRgb 232 238 245) (colorRgb 6 10 16) rfl [.setCursor 0 111, .writeLine [72, 73]]
  have hinside : ∀ (p : Pair wideVideo) (a : Act), ¬ Scrolls p.screen a → Safe (fun _ => 0) p a :=
    fun p a hnot hscrolls => absurd hscrolls hnot
  have hmoved := act_placed _ wideStart_placed (.setCursor 0 111)
  have hfirst := glyph_keeps wideVideo_separate (fun _ => 0) _ hmoved 72 (colorRgb 6 10 16)
    (by decide) (by decide) fun x y hx _ hy => wideStart_picture x y hx hy
  have hsecond := glyph_keeps wideVideo_separate (fun _ => 0) _ (act_placed _ hmoved (.glyph 72)) 73
    (colorRgb 6 10 16) (by decide) (by decide) hfirst
  refine h.2.2.mpr ?_ _ (List.prefix_refl _)
  exact ⟨hinside _ _ (by decide), hinside _ _ (by decide), hinside _ _ (by decide),
    fun _ => hsecond, trivial⟩

/-- The last row after a line feed there, once the background has changed: its
first four lines are the old background. -/
theorem last_row_stale : ¬ PairShows (fun _ => 0) (run step wideStart
    ([Call.setColors (colorRgb 232 238 245) (colorRgb 15 24 36), .setCursor 0 111,
      .newline].flatMap Call.acts)) := by
  have hshows : PairShows (fun _ => 0) wideStart :=
    start_shows _ wideVideo_separate _ _ _ wideScreen _ _ rfl
  have hcoloured := act_placed _ wideStart_placed (.setColors (colorRgb 232 238 245) (colorRgb 15 24 36))
  have hmoved := act_placed _ hcoloured (.setCursor 0 111)
  intro hlast
  have hsafe := (act_shows_iff wideVideo_separate _ _ hmoved (by decide) hshows .newline).mp hlast
    (by decide) 0 896 (by decide) (by decide) (by decide)
  exact absurd ((wideStart_picture 0 896 (by decide) (by decide)).symm.trans hsafe) (by decide)

end Hnmos.ConsoleGrid
