import Mathlib
import Hnmos.TerminalGrid

/-!
# The terminal as a window on a tape

Laid out row after row the cells of a terminal are a stretch of an endless
tape. Writing and erasing act on the tape at its head; a line feed on the last
row only moves the window on by one row. A line written from some cell on can
be extended and taken back as long as the window still holds its first cell.
-/

set_option autoImplicit false

namespace Hnmos.TerminalTape
open Hnmos.TerminalGrid

variable {κ : Type*} {columns rows : ℕ}

structure Tape (κ : Type*) where
  cells : ℕ → κ
  head : ℕ

def Tape.put (tape : Tape κ) (cell : κ) : Tape κ where
  cells := Function.update tape.cells tape.head cell
  head := tape.head + 1

def Tape.erase (tape : Tape κ) (blank : κ) : Tape κ where
  cells := Function.update tape.cells (tape.head - 1) blank
  head := tape.head - 1

theorem put_cells (tape : Tape κ) (cell : κ) :
    (tape.put cell).cells = Function.update tape.cells tape.head cell := rfl

theorem erase_cells (tape : Tape κ) (blank : κ) :
    (tape.erase blank).cells = Function.update tape.cells (tape.head - 1) blank := rfl

def place (columns column row : ℕ) : ℕ := row * columns + column

def cellAt (t : Terminal κ columns rows) (i : ℕ) : κ := t.cells (i % columns) (i / columns)

theorem place_mod (column row : ℕ) (h : column < columns) :
    place columns column row % columns = column := by
  rw [place, Nat.mul_comm, Nat.mul_add_mod, Nat.mod_eq_of_lt h]

theorem place_div (column row : ℕ) (h : column < columns) :
    place columns column row / columns = row := by
  rw [place, Nat.mul_comm, Nat.mul_add_div (Nat.zero_lt_of_lt h), Nat.div_eq_of_lt h, Nat.add_zero]

theorem place_inj (column row column' row' : ℕ) (h : column < columns) (h' : column' < columns) :
    place columns column row = place columns column' row' ↔ column = column' ∧ row = row' := by
  constructor
  · intro heq
    have hmod := congrArg (· % columns) heq
    have hdiv := congrArg (· / columns) heq
    simp only [place_mod _ _ h, place_mod _ _ h'] at hmod
    simp only [place_div _ _ h, place_div _ _ h'] at hdiv
    exact ⟨hmod, hdiv⟩
  · rintro ⟨rfl, rfl⟩
    rfl

theorem place_lt (column row bound : ℕ) (h : column < columns) (hrow : row < bound) :
    place columns column row < bound * columns := by
  have hrows : (row + 1) * columns ≤ bound * columns := Nat.mul_le_mul_right columns hrow
  rw [Nat.add_mul, Nat.one_mul] at hrows
  rw [place]
  omega

/-- The grid shows the rows of the tape from `gone` on; below them the tape is
blank. -/
structure Window (blank : κ) (t : Terminal κ columns rows) (tape : Tape κ) (gone : ℕ) : Prop where
  cells : ∀ column row, column < columns → row < rows →
    t.cells column row = tape.cells (place columns column (row + gone))
  head : tape.head = place columns t.column (t.row + gone)
  below : ∀ i, (rows + gone) * columns ≤ i → tape.cells i = blank

section
variable {blank : κ} {t : Terminal κ columns rows} {tape : Tape κ} {gone : ℕ}

theorem head_lt (h : Window blank t tape gone) : tape.head < (rows + gone) * columns := by
  rw [h.head]
  exact place_lt _ _ _ t.column_lt (Nat.add_lt_add_right t.row_lt gone)

theorem window_cellAt (h : Window blank t tape gone) (i : ℕ) (hi : i < rows * columns) :
    cellAt t i = tape.cells (i + gone * columns) := by
  have hpos : 0 < columns := Nat.zero_lt_of_lt t.column_lt
  have hplace : place columns (i % columns) (i / columns + gone) = i + gone * columns := by
    have hdiv := Nat.div_add_mod' i columns
    rw [place, Nat.add_mul]
    omega
  rw [cellAt, h.cells _ _ (Nat.mod_lt i hpos) ((Nat.div_lt_iff_lt_mul hpos).mpr hi), hplace]

theorem write_cells (h : Window blank t tape gone) (cell : κ) (column row : ℕ)
    (hcolumn : column < columns) :
    (row < rows → write t.cells t.column t.row cell column row =
      (tape.put cell).cells (place columns column (row + gone))) ∧
    (rows ≤ row → (tape.put cell).cells (place columns column (row + gone)) = blank) := by
  have hsame := place_inj column (row + gone) t.column (t.row + gone) hcolumn t.column_lt
  rw [Nat.add_right_cancel_iff] at hsame
  rw [put_cells, h.head, write]
  constructor
  · intro hrow
    by_cases hat : column = t.column ∧ row = t.row
    · rw [if_pos hat, hsame.mpr hat, Function.update_self]
    · rw [if_neg hat, Function.update_of_ne (fun heq => hat (hsame.mp heq))]
      exact h.cells column row hcolumn hrow
  · intro hrow
    have hne : ¬ (column = t.column ∧ row = t.row) := by
      have hlt := t.row_lt
      omega
    rw [Function.update_of_ne (fun heq => hne (hsame.mp heq))]
    apply h.below
    rw [place]
    have hrows := Nat.mul_le_mul_right columns (Nat.add_le_add_right hrow gone)
    omega

theorem put_below (h : Window blank t tape gone) (cell : κ) (i : ℕ)
    (hi : (rows + gone) * columns ≤ i) : (tape.put cell).cells i = blank := by
  have hlt := head_lt h
  rw [put_cells, Function.update_of_ne (by omega)]
  exact h.below i hi

theorem put_window (h : Window blank t tape gone) (cell : κ) :
    ∃ gone', Window blank (t.put cell blank) (tape.put cell) gone' ∧
      (gone' = gone ∨ gone' = gone + 1 ∧ (tape.put cell).head = (rows + gone) * columns) := by
  have hhead : (tape.put cell).head = place columns t.column (t.row + gone) + 1 :=
    congrArg (· + 1) h.head
  by_cases hnext : t.column + 1 < columns
  · refine ⟨gone, ?_, Or.inl rfl⟩
    rw [put_next _ _ _ hnext]
    exact ⟨fun column row hc hr => (write_cells h cell column row hc).1 hr, hhead,
      put_below h cell⟩
  · have hlast : t.column + 1 = columns := by
      have hlt := t.column_lt
      omega
    have hfeed : (tape.put cell).head = (t.row + 1 + gone) * columns := by
      rw [hhead, place, Nat.add_assoc, hlast, Nat.add_right_comm, Nat.add_mul _ 1, Nat.one_mul]
    rw [put_last _ _ _ hnext]
    by_cases hdown : t.row + 1 < rows
    · refine ⟨gone, ?_, Or.inl rfl⟩
      rw [lineFeed_next { t with cells := write t.cells t.column t.row cell } _ hdown]
      exact ⟨fun column row hc hr => (write_cells h cell column row hc).1 hr, hfeed,
        put_below h cell⟩
    · have hrows : t.row + 1 = rows := by
        have hlt := t.row_lt
        omega
      refine ⟨gone + 1, ?_, Or.inr ⟨rfl, hrows ▸ hfeed⟩⟩
      rw [lineFeed_last { t with cells := write t.cells t.column t.row cell } _ hdown]
      refine ⟨?_, ?_, ?_⟩
      · intro column row hc hr
        have hshift : place columns column (row + (gone + 1)) =
            place columns column (row + 1 + gone) := by rw [Nat.add_right_comm, Nat.add_assoc]
        rw [hshift]
        show shifted rows _ blank column row = _
        rw [shifted]
        by_cases hrow : row + 1 < rows
        · rw [if_pos hrow]
          exact (write_cells h cell column (row + 1) hc).1 hrow
        · rw [if_neg hrow]
          exact ((write_cells h cell column (row + 1) hc).2 (Nat.not_lt.mp hrow)).symm
      · rw [hfeed, Nat.add_right_comm, Nat.add_assoc]
        rfl
      · intro i hi
        apply put_below h cell
        have hle : (rows + gone) * columns ≤ (rows + (gone + 1)) * columns :=
          Nat.mul_le_mul_right columns (Nat.le_succ _)
        exact hle.trans hi

theorem back_head (h : Window blank t tape gone) (hfirst : ¬ (t.column = 0 ∧ t.row = 0)) :
    tape.head - 1 = place columns t.back.column (t.back.row + gone) := by
  rw [h.head, back_column, back_row, place, place]
  by_cases hzero : t.column = 0
  · have hpos : 0 < t.row := by omega
    obtain ⟨row, hrow⟩ := Nat.exists_eq_add_one_of_ne_zero hpos.ne'
    have hcolumns : 0 < columns := Nat.zero_lt_of_lt t.column_lt
    have hback : (row + 1 + gone) * columns = (row + gone) * columns + columns := by
      rw [Nat.add_right_comm, Nat.add_mul _ 1, Nat.one_mul]
    rw [if_pos hzero, if_pos hzero, if_neg hpos.ne', hzero, hrow, Nat.add_sub_cancel, hback]
    omega
  · rw [if_neg hzero, if_neg hzero]
    omega

theorem erase_window (h : Window blank t tape gone) (hhead : gone * columns < tape.head) :
    Window blank (t.erase blank) (tape.erase blank) gone := by
  have hfirst : ¬ (t.column = 0 ∧ t.row = 0) := by
    rintro ⟨hcolumn, hrow⟩
    rw [h.head, place, hcolumn, hrow, Nat.zero_add, Nat.add_zero] at hhead
    exact absurd hhead (Nat.lt_irrefl _)
  have hback := back_head h hfirst
  have hlt := head_lt h
  rw [erase_back _ _ hfirst]
  refine ⟨?_, hback, ?_⟩
  · intro column row hc hr
    have hsame := place_inj column (row + gone) t.back.column (t.back.row + gone) hc
      t.back.column_lt
    rw [Nat.add_right_cancel_iff] at hsame
    show write t.cells t.back.column t.back.row blank column row = _
    rw [erase_cells, hback, write]
    by_cases hat : column = t.back.column ∧ row = t.back.row
    · rw [if_pos hat, hsame.mpr hat, Function.update_self]
    · rw [if_neg hat, Function.update_of_ne (fun heq => hat (hsame.mp heq))]
      exact h.cells column row hc hr
  · intro i hi
    rw [erase_cells, Function.update_of_ne (by omega)]
    exact h.below i hi

end

/-- A line from some position on, and how far it has ever reached. -/
structure Line (κ : Type*) where
  under : ℕ → κ
  start : ℕ
  text : List κ
  reach : ℕ
  reached : text.length ≤ reach

def Line.tape (l : Line κ) (blank : κ) : Tape κ where
  cells i :=
    if l.start ≤ i ∧ i < l.start + l.reach then l.text.getD (i - l.start) blank else l.under i
  head := l.start + l.text.length

def Line.put (l : Line κ) (cell : κ) : Line κ where
  under := l.under
  start := l.start
  text := l.text ++ [cell]
  reach := max l.reach (l.text.length + 1)
  reached := by rw [List.length_append]; exact Nat.le_max_right _ _

def Line.erase (l : Line κ) : Line κ where
  under := l.under
  start := l.start
  text := l.text.dropLast
  reach := l.reach
  reached := by
    rw [List.length_dropLast]
    exact (Nat.sub_le _ _).trans l.reached

theorem put_text (l : Line κ) (cell : κ) : (l.put cell).text = l.text ++ [cell] := rfl

theorem put_reach (l : Line κ) (cell : κ) :
    (l.put cell).reach = max l.reach (l.text.length + 1) := rfl

theorem tape_put (l : Line κ) (cell blank : κ) :
    (l.put cell).tape blank = (l.tape blank).put cell := by
  have hreached := l.reached
  have hcells : ((l.put cell).tape blank).cells = ((l.tape blank).put cell).cells := by
    ext i
    show (if l.start ≤ i ∧ i < l.start + max l.reach (l.text.length + 1) then
      (l.text ++ [cell]).getD (i - l.start) blank else l.under i) =
        Function.update (l.tape blank).cells (l.start + l.text.length) cell i
    by_cases hat : i = l.start + l.text.length
    · rw [hat, Function.update_self, if_pos (by omega), Nat.add_sub_cancel_left,
        List.getD_append_right _ _ _ _ (Nat.le_refl _), Nat.sub_self, List.getD_cons_zero]
    · rw [Function.update_of_ne hat]
      show _ = if l.start ≤ i ∧ i < l.start + l.reach then _ else _
      by_cases hin : l.start ≤ i ∧ i < l.start + l.reach
      · rw [if_pos hin, if_pos (by omega)]
        by_cases hlt : i - l.start < l.text.length
        · rw [List.getD_append _ _ _ _ hlt]
        · rw [List.getD_eq_default _ _ (by rw [List.length_append, List.length_singleton]; omega),
            List.getD_eq_default _ _ (by omega)]
      · rw [if_neg hin, if_neg (by omega)]
  have hhead : ((l.put cell).tape blank).head = ((l.tape blank).put cell).head := by
    simp only [Line.tape, Line.put, Tape.put, List.length_append, List.length_singleton,
      Nat.add_assoc]
  exact congrArg₂ Tape.mk hcells hhead

theorem tape_erase (l : Line κ) (blank : κ) (h : l.text ≠ []) :
    l.erase.tape blank = (l.tape blank).erase blank := by
  have hreached := l.reached
  have hpos := List.length_pos_iff.mpr h
  have hhead : (l.erase.tape blank).head = ((l.tape blank).erase blank).head := by
    simp only [Line.tape, Line.erase, Tape.erase, List.length_dropLast]
    omega
  have hcells : (l.erase.tape blank).cells = ((l.tape blank).erase blank).cells := by
    ext i
    show (if l.start ≤ i ∧ i < l.start + l.reach then
      l.text.dropLast.getD (i - l.start) blank else l.under i) =
        Function.update (l.tape blank).cells (l.start + l.text.length - 1) blank i
    by_cases hat : i = l.start + l.text.length - 1
    · rw [hat, Function.update_self, if_pos (by omega)]
      exact List.getD_eq_default _ _ (by rw [List.length_dropLast]; omega)
    · rw [Function.update_of_ne hat]
      show _ = if l.start ≤ i ∧ i < l.start + l.reach then _ else _
      by_cases hin : l.start ≤ i ∧ i < l.start + l.reach
      · rw [if_pos hin, if_pos hin]
        by_cases hlt : i - l.start < l.text.length - 1
        · have hdrop : i - l.start < l.text.dropLast.length := by rwa [List.length_dropLast]
          rw [List.getD_eq_getElem _ _ hdrop, List.getD_eq_getElem _ _ (by omega),
            List.getElem_dropLast]
        · rw [List.getD_eq_default _ _ (by rw [List.length_dropLast]; omega),
            List.getD_eq_default _ _ (by omega)]
      · rw [if_neg hin, if_neg hin]
  exact congrArg₂ Tape.mk hcells hhead

/-- The terminal shows the line. A row has gone only where the line was about
to leave the window. -/
structure Held (blank : κ) (t : Terminal κ columns rows) (l : Line κ) (gone : ℕ) : Prop where
  window : Window blank t (l.tape blank) gone
  inside : l.start + l.reach < (rows + gone) * columns
  kept : gone = 0 ∨ (rows + gone) * columns ≤ l.start + l.reach + columns

section
variable {blank : κ} {t : Terminal κ columns rows} {l : Line κ} {gone : ℕ}

/-- With room for the line and one row more its start stays in the window. -/
theorem start_kept (h : Held blank t l gone) (hroom : l.reach + columns ≤ rows * columns) :
    gone * columns ≤ l.start := by
  have hkept := h.kept
  rcases hkept with rfl | hkept
  · rw [Nat.zero_mul]
    exact Nat.zero_le _
  · rw [Nat.add_mul] at hkept
    omega

theorem put_held (h : Held blank t l gone) (cell : κ) :
    ∃ gone', Held blank (t.put cell blank) (l.put cell) gone' := by
  obtain ⟨gone', hwindow, hgone⟩ := put_window h.window cell
  rw [← tape_put] at hwindow hgone
  have hlt : l.start + (l.text ++ [cell]).length < (rows + gone') * columns := head_lt hwindow
  have hinside := h.inside
  have hkept := h.kept
  rw [List.length_append, List.length_singleton] at hlt
  refine ⟨gone', hwindow, ?_, ?_⟩
  · show l.start + max l.reach (l.text.length + 1) < _
    rcases hgone with rfl | ⟨rfl, _⟩
    · omega
    · have hle : (rows + gone) * columns ≤ (rows + (gone + 1)) * columns :=
        Nat.mul_le_mul_right columns (Nat.le_succ _)
      omega
  · show gone' = 0 ∨ _ ≤ l.start + max l.reach (l.text.length + 1) + columns
    rcases hgone with rfl | ⟨rfl, hhead⟩
    · omega
    · have hfeed : l.start + (l.text ++ [cell]).length = (rows + gone) * columns := hhead
      rw [List.length_append, List.length_singleton] at hfeed
      have hmore : (rows + (gone + 1)) * columns = (rows + gone) * columns + columns := by
        rw [← Nat.add_assoc, Nat.add_mul _ 1, Nat.one_mul]
      omega

theorem erase_held (h : Held blank t l gone) (hroom : l.reach + columns ≤ rows * columns)
    (hne : l.text ≠ []) : Held blank (t.erase blank) l.erase gone := by
  have hstart := start_kept h hroom
  have hpos := List.length_pos_iff.mpr hne
  refine ⟨?_, h.inside, h.kept⟩
  rw [tape_erase l blank hne]
  apply erase_window h.window
  show gone * columns < l.start + l.text.length
  omega

def fresh (t : Terminal κ columns rows) (blank : κ) : Line κ where
  under i := if i < rows * columns then cellAt t i else blank
  start := place columns t.column t.row
  text := []
  reach := 0
  reached := Nat.le_refl 0

theorem fresh_held (t : Terminal κ columns rows) (blank : κ) :
    Held blank t (fresh t blank) 0 := by
  have hstart : place columns t.column t.row < rows * columns :=
    place_lt _ _ _ t.column_lt t.row_lt
  have hcells : ∀ i, ((fresh t blank).tape blank).cells i =
      if i < rows * columns then cellAt t i else blank := by
    intro i
    exact if_neg (by show ¬ (_ ∧ i < _ + 0); omega)
  refine ⟨⟨?_, rfl, ?_⟩, by simpa [fresh] using hstart, Or.inl rfl⟩
  · intro column row hc hr
    rw [hcells, Nat.add_zero, if_pos (place_lt _ _ _ hc hr), cellAt, place_mod _ _ hc,
      place_div _ _ hc]
  · intro i hi
    rw [Nat.add_zero] at hi
    rw [hcells, if_neg (Nat.not_lt.mpr hi)]

theorem held_cells (h : Held blank t l gone) (hroom : l.reach + columns ≤ rows * columns) (i : ℕ) :
    (i < l.reach → cellAt t (l.start - gone * columns + i) = l.text.getD i blank) ∧
    (i < l.start - gone * columns → cellAt t i = l.under (i + gone * columns)) := by
  have hstart := start_kept h hroom
  have hinside := h.inside
  rw [Nat.add_mul] at hinside
  constructor
  · intro hi
    rw [window_cellAt h.window _ (by omega)]
    have hposition : l.start - gone * columns + i + gone * columns = l.start + i := by omega
    rw [hposition]
    show (if l.start ≤ l.start + i ∧ _ then _ else _) = _
    rw [if_pos (by omega), Nat.add_sub_cancel_left]
  · intro hi
    rw [window_cellAt h.window _ (by omega)]
    exact if_neg (by omega)

end

end Hnmos.TerminalTape
