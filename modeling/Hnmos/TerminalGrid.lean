import Mathlib

/-!
# A reference text terminal

A terminal is a grid of cells with a cursor that is always inside. A line feed
on the last row moves every row up and leaves the last one blank. A rendering
shows each cell as a block of pixels.
-/

set_option autoImplicit false

namespace Hnmos.TerminalGrid

variable {κ π : Type*} {columns rows : ℕ}

structure Terminal (κ : Type*) (columns rows : ℕ) where
  cells : ℕ → ℕ → κ
  column : ℕ
  row : ℕ
  column_lt : column < columns
  row_lt : row < rows

def write (cells : ℕ → ℕ → κ) (column row : ℕ) (cell : κ) : ℕ → ℕ → κ :=
  fun c r => if c = column ∧ r = row then cell else cells c r

/-- The rows moved up by one over a blank last row. -/
def shifted (rows : ℕ) (cells : ℕ → ℕ → κ) (blank : κ) : ℕ → ℕ → κ :=
  fun c r => if r + 1 < rows then cells c (r + 1) else blank

def Terminal.clear (t : Terminal κ columns rows) (blank : κ) : Terminal κ columns rows where
  cells := fun _ _ => blank
  column := 0
  row := 0
  column_lt := Nat.zero_lt_of_lt t.column_lt
  row_lt := Nat.zero_lt_of_lt t.row_lt

def Terminal.moveTo (t : Terminal κ columns rows) (column row : ℕ) : Terminal κ columns rows where
  cells := t.cells
  column := min column (columns - 1)
  row := min row (rows - 1)
  column_lt := by
    have h := t.column_lt
    omega
  row_lt := by
    have h := t.row_lt
    omega

def Terminal.carriageReturn (t : Terminal κ columns rows) : Terminal κ columns rows :=
  { t with column := 0, column_lt := Nat.zero_lt_of_lt t.column_lt }

def Terminal.lineFeed (t : Terminal κ columns rows) (blank : κ) : Terminal κ columns rows :=
  if h : t.row + 1 < rows then
    { t with
      column := 0, row := t.row + 1, column_lt := Nat.zero_lt_of_lt t.column_lt, row_lt := h }
  else
    { t with
      cells := shifted rows t.cells blank
      column := 0
      column_lt := Nat.zero_lt_of_lt t.column_lt }

/-- The cursor moves back over the end of the row above; the first cell is the
end of the way. -/
def Terminal.back (t : Terminal κ columns rows) : Terminal κ columns rows where
  cells := t.cells
  column := if t.column = 0 then if t.row = 0 then 0 else columns - 1 else t.column - 1
  row := if t.column = 0 then t.row - 1 else t.row
  column_lt := by
    have h := t.column_lt
    split_ifs <;> omega
  row_lt := by
    have h := t.row_lt
    split_ifs <;> omega

def Terminal.erase (t : Terminal κ columns rows) (blank : κ) : Terminal κ columns rows :=
  if t.column = 0 ∧ t.row = 0 then t
  else { t.back with cells := write t.cells t.back.column t.back.row blank }

def Terminal.put (t : Terminal κ columns rows) (cell blank : κ) : Terminal κ columns rows :=
  let written := { t with cells := write t.cells t.column t.row cell }
  if h : t.column + 1 < columns then { written with column := t.column + 1, column_lt := h }
  else written.lineFeed blank

section
variable (t : Terminal κ columns rows) (cell blank : κ)

theorem lineFeed_next (h : t.row + 1 < rows) :
    t.lineFeed blank = { t with
      column := 0, row := t.row + 1, column_lt := Nat.zero_lt_of_lt t.column_lt, row_lt := h } :=
  dif_pos h

theorem lineFeed_last (h : ¬ t.row + 1 < rows) :
    t.lineFeed blank = { t with
      cells := shifted rows t.cells blank
      column := 0
      column_lt := Nat.zero_lt_of_lt t.column_lt } :=
  dif_neg h

theorem put_next (h : t.column + 1 < columns) :
    t.put cell blank = { t with
      cells := write t.cells t.column t.row cell, column := t.column + 1, column_lt := h } :=
  dif_pos h

theorem put_last (h : ¬ t.column + 1 < columns) :
    t.put cell blank =
      Terminal.lineFeed { t with cells := write t.cells t.column t.row cell } blank :=
  dif_neg h

theorem back_column : t.back.column =
    if t.column = 0 then if t.row = 0 then 0 else columns - 1 else t.column - 1 := rfl

theorem erase_back (h : ¬ (t.column = 0 ∧ t.row = 0)) :
    t.erase blank = { t.back with cells := write t.cells t.back.column t.back.row blank } :=
  if_neg h

theorem back_row : t.back.row = if t.column = 0 then t.row - 1 else t.row := rfl

end

variable (width height : ℕ) (look : κ → ℕ → ℕ → π)

/-- The pixel at a position: its place in the look of the cell it belongs to. -/
def rendering (cells : ℕ → ℕ → κ) (x y : ℕ) : π :=
  look (cells (x / width) (y / height)) (x % width) (y % height)

theorem rendering_write (cells : ℕ → ℕ → κ) (column row : ℕ) (cell : κ) (x y : ℕ) :
    rendering width height look (write cells column row cell) x y =
      if x / width = column ∧ y / height = row then look cell (x % width) (y % height)
      else rendering width height look cells x y := by
  rw [rendering, write]
  split_ifs <;> rfl

/-- Moving the rows up moves the pixels up by the height of a cell. -/
theorem rendering_shifted (cells : ℕ → ℕ → κ) (blank : κ) (x y : ℕ) (h : 0 < height) :
    rendering width height look (shifted rows cells blank) x y =
      if y + height < rows * height then rendering width height look cells x (y + height)
      else look blank (x % width) (y % height) := by
  have hnext : (y + height) / height = y / height + 1 := Nat.add_div_right y h
  have hrow : y / height + 1 < rows ↔ y + height < rows * height := by
    rw [← hnext, Nat.div_lt_iff_lt_mul h]
  rw [rendering, shifted]
  by_cases hin : y + height < rows * height
  · rw [if_pos (hrow.mpr hin), if_pos hin, rendering, hnext, Nat.add_mod_right]
  · rw [if_neg (fun hlt => hin (hrow.mp hlt)), if_neg hin]

theorem div_eq_iff (size index x : ℕ) (h : 0 < size) :
    x / size = index ↔ index * size ≤ x ∧ x < index * size + size := by
  rw [Nat.div_eq_iff h, Nat.mul_comm]
  constructor
  · intro hx
    omega
  · intro hx
    omega

end Hnmos.TerminalGrid
