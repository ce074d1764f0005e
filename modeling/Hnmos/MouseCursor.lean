import Mathlib
import Hnmos.Graphics
import Hnmos.Transition

/-!
# The mouse cursor

The cursor saves the bytes of a block of twelve by sixteen pixels, draws an
arrow over them and puts them back before the next drawing. In every iteration
the main loop hides the cursor before events are dispatched, but the mouse poll
shows it again before a response may render the screen: what that rendering
draws under the cursor is lost at the next hide.
-/

set_option autoImplicit false

namespace Hnmos.MouseCursor
open Hnmos.CString Hnmos.Surface Hnmos.Graphics Hnmos.Overwrite Hnmos.PageAllocator
open Hnmos.Transition

def arrow : List UInt16 :=
  [0x800, 0xC00, 0xE00, 0xF00, 0xF80, 0xFC0, 0xFE0, 0xFF0, 0xFC0, 0xDC0, 0x8E0, 0x060, 0x030,
    0x030, 0x018, 0x000]

structure Cursor where
  savedPixels : ℕ → UInt8
  savedValid : ℕ → Bool
  x : UInt32
  y : UInt32
  leftButton : Bool
  rightButton : Bool
  middleButton : Bool
  initialized : Bool
  visible : Bool

def bodyPixel (row col : ℤ) : Bool :=
  if row < 0 ∨ row ≥ 16 ∨ col < 0 ∨ col ≥ 12 then false
  else (arrow.getD row.toNat 0).toNat.testBit (11 - col.toNat)

def edgePixel (row col : ℤ) : Bool :=
  bodyPixel row col &&
    [-1, 0, 1].any fun dy => [-1, 0, 1].any fun dx => !bodyPixel (row + dy) (col + dx)

def cells : List ℕ := List.range 192

def Cursor.cellX (c : Cursor) (cell : ℕ) : UInt32 := c.x + UInt32.ofNat (cell % 12)

def Cursor.cellY (c : Cursor) (cell : ℕ) : UInt32 := c.y + UInt32.ofNat (cell / 12)

def Cursor.statusText (c : Cursor) : List UInt8 :=
  let flag (button : Bool) : List UInt8 := if button then [49] else [48]
  let text := appendText 64 (appendText 64 [] (ascii "mouse x:")) (decimal c.x)
  let text := appendText 64 (appendText 64 text (ascii " y:")) (decimal c.y)
  let text := appendText 64 (appendText 64 text (ascii " l:")) (flag c.leftButton)
  let text := appendText 64 (appendText 64 text (ascii " r:")) (flag c.rightButton)
  appendText 64 (appendText 64 text (ascii " m:")) (flag c.middleButton)

def Cursor.statusOps (c : Cursor) (v : Video) : List DrawOp :=
  let background := colorRgb 15 24 36
  let panelX := if v.width > 320 + 8 * 2 then v.width - 320 - 8 else 8
  if v.available then
    fillRect panelX 12 320 20 background ++ drawRect panelX 12 320 20 (colorRgb 67 220 210) ++
      drawString (panelX + 8) 18 c.statusText (colorRgb 232 238 245) background
  else []

/-- Save the bytes of every cell on the screen; the others become invalid. -/
def Cursor.saveBackground (c : Cursor) (v : Video) (m : Memory) : Cursor :=
  if v.available then
    { c with
      savedValid := fun cell => v.onScreen (c.cellX cell) (c.cellY cell)
      savedPixels := fun i =>
        if v.onScreen (c.cellX (i / 4)) (c.cellY (i / 4)) ∧ i % 4 < v.bytesPerPixel.toNat then
          m (v.pixelAddress (c.cellX (i / 4)) (c.cellY (i / 4)) + UInt32.ofNat (i % 4))
        else c.savedPixels i }
  else c

def Cursor.shapePixels (c : Cursor) : List Pixel :=
  (cells.filter fun cell => bodyPixel (cell / 12 : ℕ) (cell % 12 : ℕ)).map fun cell =>
    ⟨c.cellX cell, c.cellY cell,
      if edgePixel (cell / 12 : ℕ) (cell % 12 : ℕ) then colorRgb 5 8 13
      else colorRgb 248 252 255⟩

def Cursor.drawShape (c : Cursor) (v : Video) (m : Memory) : Memory :=
  c.shapePixels.foldl v.putPixel m

def Cursor.restoreCell (c : Cursor) (v : Video) (m : Memory) (cell : ℕ) : Memory :=
  if c.savedValid cell ∧ v.onScreen (c.cellX cell) (c.cellY cell) then
    (List.range v.bytesPerPixel.toNat).foldl (fun m byte =>
      Function.update m (v.pixelAddress (c.cellX cell) (c.cellY cell) + UInt32.ofNat byte)
        (c.savedPixels (4 * cell + byte))) m
  else m

def Cursor.restore (c : Cursor) (v : Video) (m : Memory) : Memory :=
  cells.foldl (c.restoreCell v) m

structure Pointer where
  x : UInt32
  y : UInt32
  leftButton : Bool
  rightButton : Bool
  middleButton : Bool

/-- The memory with the cursor, beside the memory that has seen the same
drawing operations without the arrow. -/
structure Stage where
  memory : Memory
  cursor : Cursor
  plain : Memory

def invalidates (op : DrawOp) : Bool := !paints op

def Stage.draw (s : Stage) (v : Video) (ops : List DrawOp) : Stage where
  memory := v.draw s.memory ops
  cursor := if ops.any invalidates then { s.cursor with visible := false } else s.cursor
  plain := v.draw s.plain ops

def Stage.hide (s : Stage) (v : Video) : Stage :=
  if s.cursor.visible = false ∨ v.available = false then
    { s with cursor := { s.cursor with visible := false } }
  else
    { s with
      memory := s.cursor.restore v s.memory
      cursor := { s.cursor with visible := false } }

def Stage.showCurrent (s : Stage) (v : Video) : Stage :=
  if s.cursor.initialized = false ∨ s.cursor.visible ∨ v.available = false then s
  else
    let s := s.draw v (s.cursor.statusOps v)
    let cursor := s.cursor.saveBackground v s.memory
    { s with
      memory := cursor.drawShape v s.memory
      cursor := { cursor with visible := true } }

def Cursor.place (c : Cursor) (p : Pointer) : Cursor :=
  { c with
    x := p.x
    y := p.y
    leftButton := p.leftButton
    rightButton := p.rightButton
    middleButton := p.middleButton }

def Stage.move (s : Stage) (v : Video) (p : Pointer) : Stage :=
  if s.cursor.initialized = false ∨ v.available = false then s
  else
    let s := s.hide v
    { s with cursor := s.cursor.place p }.showCurrent v

def Stage.mousePoll (s : Stage) (v : Video) (moved : Option Pointer) : Stage :=
  match moved with
  | none => s
  | some p => s.move v p

/-- What an iteration of the main loop draws: the dispatched events, the state
of the mouse when it is dirty and the rendering of the studio for a response. -/
structure Pass where
  drawing : List DrawOp
  moved : Option Pointer
  rerender : List DrawOp
  studio : Painting rerender

def Stage.polled (s : Stage) (v : Video) (pass : Pass) : Stage :=
  ((s.hide v).draw v pass.drawing).mousePoll v pass.moved

def step (v : Video) (s : Stage) (pass : Pass) : Stage :=
  ((s.polled v pass).draw v pass.rerender).showCurrent v

def start (v : Video) (m : Memory) (c : Cursor) (drawing : List DrawOp) : Stage :=
  (Stage.draw ⟨m, { c with visible := false }, m⟩ v drawing).showCurrent v

def Stage.Clean (s : Stage) : Prop := s.memory = s.plain

/-- Clean after each hide of an iteration: at its start and in the mouse poll. -/
def HidesClean (v : Video) (s : Stage) (pass : Pass) : Prop :=
  (s.hide v).Clean ∧ (((s.hide v).draw v pass.drawing).hide v).Clean

/-- Clean after every hide of a run and at the next hide after it. -/
def NeverCorrupted (v : Video) (s : Stage) (passes : List Pass) : Prop :=
  Along (step v) (HidesClean v) s passes ∧ ((run (step v) s passes).hide v).Clean

def Cursor.under (c : Cursor) (v : Video) : Set UInt32 :=
  {a | ∃ cell ∈ cells, a ∈ v.footprint (c.cellX cell) (c.cellY cell)}

/-- A rendering over a shown cursor leaves the bytes it covers as they are. -/
def Spares (v : Video) (s : Stage) (pass : Pass) : Prop :=
  (s.polled v pass).cursor.visible = true →
    ∀ a ∈ (s.polled v pass).cursor.under v,
      v.draw (s.polled v pass).plain pass.rerender a = (s.polled v pass).plain a

theorem bytesPerPixel_le (v : Video) (h : v.available = true) : v.bytesPerPixel.toNat ≤ 4 := by
  rw [Video.bytesPerPixel]
  rcases v.supported h with hbpp | hbpp | hbpp
  · rw [hbpp]
    decide
  · rw [hbpp]
    decide
  · rw [hbpp]
    decide

theorem drawShape_confined (c : Cursor) (v : Video) :
    Confined (c.under v) fun m => c.drawShape v m := by
  apply confined_foldl (c.under v) v.putPixel
  intro p hp
  obtain ⟨cell, hcell, rfl⟩ := List.mem_map.mp hp
  apply confined_mono _ _ _ ?_ (putPixel_confined v _)
  intro a ha
  exact ⟨cell, (List.mem_filter.mp hcell).1, ha⟩

theorem restoreCell_restores (c : Cursor) (v : Video) (m : Memory) (h : v.available = true)
    (cell : ℕ) : Restores (v.footprint (c.cellX cell) (c.cellY cell)) m
      fun n => (c.saveBackground v m).restoreCell v n cell := by
  have hfour := bytesPerPixel_le v h
  simp only [Cursor.restoreCell, Cursor.saveBackground, if_pos h, Cursor.cellX, Cursor.cellY]
  by_cases hscreen : v.onScreen (c.x + UInt32.ofNat (cell % 12)) (c.y + UInt32.ofNat (cell / 12))
  · simp only [hscreen, and_self, if_true]
    have hset : v.footprint (c.x + UInt32.ofNat (cell % 12)) (c.y + UInt32.ofNat (cell / 12)) =
        {a | ∃ i ∈ List.range v.bytesPerPixel.toNat,
          a ∈ ({v.pixelAddress (c.x + UInt32.ofNat (cell % 12)) (c.y + UInt32.ofNat (cell / 12)) +
            UInt32.ofNat i} : Set UInt32)} := by
      ext a
      simp [Video.footprint, hscreen]
    rw [hset]
    apply restores_foldl
    intro i hi
    have hlt := List.mem_range.mp hi
    have hcell : (4 * cell + i) / 4 = cell := by omega
    have hbyte : (4 * cell + i) % 4 = i := by omega
    simp only [hcell, hbyte, hscreen, hlt, and_self, if_true]
    exact restores_update m _
  · simp only [hscreen]
    have hempty : v.footprint (c.x + UInt32.ofNat (cell % 12)) (c.y + UInt32.ofNat (cell / 12)) =
        ∅ := by
      ext a
      simp [Video.footprint, hscreen]
    rw [hempty]
    exact restores_id m

theorem under_saveBackground (c : Cursor) (v : Video) (m : Memory) :
    (c.saveBackground v m).under v = c.under v := by
  rw [Cursor.saveBackground]
  split_ifs <;> rfl

theorem restore_restores (c : Cursor) (v : Video) (m : Memory) (h : v.available = true) :
    Restores (c.under v) m fun n => (c.saveBackground v m).restore v n :=
  restores_foldl _ m _ cells fun cell _ => restoreCell_restores c v m h cell

@[simp] theorem hide_plain (s : Stage) (v : Video) : (s.hide v).plain = s.plain := by
  rw [Stage.hide]
  split_ifs <;> rfl

@[simp] theorem hide_visible (s : Stage) (v : Video) : (s.hide v).cursor.visible = false := by
  rw [Stage.hide]
  split_ifs <;> rfl

theorem hide_hidden (s : Stage) (v : Video) (h : s.cursor.visible = false) : s.hide v = s := by
  rcases s with ⟨memory, ⟨savedPixels, savedValid, x, y, left, right, middle, init, visible⟩, plain⟩
  have hv : visible = false := h
  rw [Stage.hide, if_pos (.inl h), hv]

theorem draw_clean (s : Stage) (v : Video) (ops : List DrawOp) (h : s.Clean) :
    (s.draw v ops).Clean := congrArg (fun m => v.draw m ops) h

theorem draw_hidden (s : Stage) (v : Video) (ops : List DrawOp) (h : s.cursor.visible = false) :
    (s.draw v ops).cursor.visible = false := by
  show (if ops.any invalidates then { s.cursor with visible := false } else s.cursor).visible =
    false
  split_ifs
  · rfl
  · exact h

theorem draw_cursor (s : Stage) (v : Video) (ops : List DrawOp)
    (h : Painting ops) : (s.draw v ops).cursor = s.cursor := by
  apply if_neg
  rw [List.any_eq_true]
  rintro ⟨op, hop, hinvalid⟩
  rw [invalidates, h op hop] at hinvalid
  exact absurd hinvalid Bool.false_ne_true

theorem statusOps_painting (c : Cursor) (v : Video) : Painting (c.statusOps v) := by
  simp only [Cursor.statusOps]
  split_ifs <;> simp

theorem showCurrent_eq (s : Stage) (v : Video) (hi : s.cursor.initialized = true)
    (hv : s.cursor.visible = false) (ha : v.available = true) :
    s.showCurrent v =
      let drawn := s.draw v (s.cursor.statusOps v)
      let cursor := s.cursor.saveBackground v drawn.memory
      ⟨cursor.drawShape v drawn.memory, { cursor with visible := true }, drawn.plain⟩ := by
  rw [Stage.showCurrent, if_neg (by simp [hi, hv, ha])]
  simp only [draw_cursor s v _ (statusOps_painting s.cursor v)]

theorem showCurrent_idle (s : Stage) (v : Video)
    (h : s.cursor.initialized = false ∨ s.cursor.visible = true ∨ v.available = false) :
    s.showCurrent v = s := if_pos h

theorem shown_drawn_iff (s : Stage) (v : Video) (ops : List DrawOp) (hc : s.Clean)
    (hi : s.cursor.initialized = true) (hv : s.cursor.visible = false) (ha : v.available = true)
    (hops : Painting ops) :
    (((s.showCurrent v).draw v ops).hide v).Clean ↔
      ∀ a ∈ (s.showCurrent v).cursor.under v,
        v.draw (s.showCurrent v).plain ops a = (s.showCurrent v).plain a := by
  rw [Stage.Clean] at hc
  have hshown := showCurrent_eq s v hi hv ha
  have hcursor := draw_cursor (s.showCurrent v) v ops hops
  have hvisible : (s.showCurrent v).cursor.visible = true := by rw [hshown]
  rw [Stage.hide, if_neg (by rw [hcursor, hvisible, ha]; simp), hcursor, Stage.Clean]
  simp only [Stage.draw, hshown, hc]
  generalize v.draw s.plain (s.cursor.statusOps v) = m
  have hrestore := restore_restores s.cursor v m ha
  rw [← under_saveBackground s.cursor v m] at hrestore
  generalize s.cursor.saveBackground v m = c at hrestore ⊢
  exact restored_drawn_iff (c.under v) m (fun n => c.drawShape v n) (fun n => v.draw n ops)
    (fun n => c.restore v n) (drawShape_confined c v) (draw_blind v ops hops) hrestore

theorem shown_clean (s : Stage) (v : Video) (hc : s.Clean) (hv : s.cursor.visible = false) :
    ((s.showCurrent v).hide v).Clean := by
  by_cases hready : s.cursor.initialized = true ∧ v.available = true
  · have hiff := shown_drawn_iff s v [] hc hready.1 hv hready.2 (by simp)
    have hsame : (s.showCurrent v).draw v [] = s.showCurrent v := rfl
    rw [hsame] at hiff
    exact hiff.mpr fun _ _ => rfl
  · have hidle : s.cursor.initialized = false ∨ s.cursor.visible = true ∨ v.available = false := by
      rcases not_and_or.mp hready with hi | ha
      · exact .inl (by simpa using hi)
      · exact .inr (.inr (by simpa using ha))
    rw [showCurrent_idle s v hidle, hide_hidden s v hv]
    exact hc

theorem mousePoll_cases (s : Stage) (v : Video) (moved : Option Pointer)
    (hv : s.cursor.visible = false) :
    s.mousePoll v moved = s ∨
      ∃ p, s.cursor.initialized = true ∧ v.available = true ∧
        s.mousePoll v moved = Stage.showCurrent { s with cursor := s.cursor.place p } v := by
  cases moved with
  | none => exact .inl rfl
  | some p =>
    by_cases hidle : s.cursor.initialized = false ∨ v.available = false
    · exact .inl (if_pos hidle)
    · right
      obtain ⟨hi, ha⟩ := not_or.mp hidle
      refine ⟨p, by simpa using hi, by simpa using ha, ?_⟩
      rw [Stage.mousePoll, Stage.move, if_neg hidle, hide_hidden s v hv]

/-- From a state that the next hide cleans, an iteration leads to such a state
exactly when its rendering spares a cursor that is shown. -/
theorem step_clean_iff (v : Video) (s : Stage) (pass : Pass) (h : (s.hide v).Clean) :
    ((step v s pass).hide v).Clean ↔ Spares v s pass := by
  have hv := draw_hidden (s.hide v) v pass.drawing (hide_visible s v)
  have hc := draw_clean (s.hide v) v pass.drawing h
  rw [step, Spares, Stage.polled]
  generalize (s.hide v).draw v pass.drawing = d at hv hc
  rcases mousePoll_cases d v pass.moved hv with hsame | ⟨p, hi, ha, hshown⟩
  · rw [hsame]
    constructor
    · intro _ hvisible
      rw [hv] at hvisible
      exact absurd hvisible Bool.false_ne_true
    · intro _
      exact shown_clean _ v (draw_clean d v _ hc) (draw_hidden d v _ hv)
  · have hiff := shown_drawn_iff { d with cursor := d.cursor.place p } v pass.rerender hc hi hv ha
      pass.studio
    have hcursor := draw_cursor (d.mousePoll v pass.moved) v pass.rerender pass.studio
    have hvisible : (d.mousePoll v pass.moved).cursor.visible = true := by
      rw [hshown, showCurrent_eq { d with cursor := d.cursor.place p } v hi hv ha]
    rw [showCurrent_idle _ v (.inr (.inl (by rw [hcursor, hvisible])))]
    rw [hshown] at hvisible ⊢
    rw [hiff]
    exact ⟨fun hspares _ => hspares, fun hspares => hspares hvisible⟩

theorem hides_clean (v : Video) (s : Stage) (pass : Pass) (h : (s.hide v).Clean) :
    HidesClean v s pass := by
  refine ⟨h, ?_⟩
  rw [hide_hidden _ v (draw_hidden _ v _ (hide_visible s v))]
  exact draw_clean _ v _ h

@[simp] theorem draw_initialized (s : Stage) (v : Video) (ops : List DrawOp) :
    (s.draw v ops).cursor.initialized = s.cursor.initialized := by
  show (if ops.any invalidates then { s.cursor with visible := false }
    else s.cursor).initialized = _
  split_ifs <;> rfl

@[simp] theorem hide_initialized (s : Stage) (v : Video) :
    (s.hide v).cursor.initialized = s.cursor.initialized := by
  rw [Stage.hide]
  split_ifs <;> rfl

theorem polled_moved (s : Stage) (v : Video) (pass : Pass) (p : Pointer)
    (hp : pass.moved = some p) (hi : s.cursor.initialized = true) (ha : v.available = true) :
    (s.polled v pass).cursor.visible = true ∧
      p.x = (s.polled v pass).cursor.x ∧ p.y = (s.polled v pass).cursor.y ∧
      (s.polled v pass).plain = v.draw (v.draw s.plain pass.drawing)
        ((((s.hide v).draw v pass.drawing).cursor.place p).statusOps v) := by
  have hv := draw_hidden (s.hide v) v pass.drawing (hide_visible s v)
  have hinit : ((s.hide v).draw v pass.drawing).cursor.initialized = true := by simpa using hi
  have hplain : ((s.hide v).draw v pass.drawing).plain = v.draw s.plain pass.drawing :=
    congrArg (fun m => v.draw m pass.drawing) (hide_plain s v)
  rw [Stage.polled, hp, Stage.mousePoll, Stage.move, if_neg (by simp [hi, ha]), hide_hidden _ v hv]
  generalize (s.hide v).draw v pass.drawing = d at hv hinit hplain ⊢
  rw [showCurrent_eq { d with cursor := d.cursor.place p } v hinit hv ha, ← hplain]
  refine ⟨rfl, ?_, ?_, rfl⟩
  · simp only [Cursor.saveBackground, if_pos ha]
    rfl
  · simp only [Cursor.saveBackground, if_pos ha]
    rfl

theorem neverCorrupted_iff (v : Video) (s : Stage) (passes : List Pass)
    (hstart : (s.hide v).Clean) :
    NeverCorrupted v s passes ↔ Along (step v) (Spares v) s passes := by
  induction passes generalizing s with
  | nil => exact ⟨fun _ => trivial, fun _ => ⟨trivial, hstart⟩⟩
  | cons pass passes ih =>
    constructor
    · intro h
      have hnext : ((step v s pass).hide v).Clean := by
        cases passes with
        | nil => exact h.2
        | cons next passes => exact h.1.2.1.1
      have hspares := (step_clean_iff v s pass hstart).mp hnext
      exact ⟨hspares, (ih _ hnext).mp ⟨h.1.2, h.2⟩⟩
    · intro h
      have hnext := (step_clean_iff v s pass hstart).mpr h.1
      have hrest := (ih _ hnext).mpr h.2
      exact ⟨⟨hides_clean v s pass hstart, hrest.1⟩, hrest.2⟩

theorem start_clean (v : Video) (m : Memory) (c : Cursor) (drawing : List DrawOp) :
    ((start v m c drawing).hide v).Clean :=
  shown_clean _ v (draw_clean _ v drawing rfl) (draw_hidden _ v drawing rfl)

/-- Whatever is drawn, wherever the mouse goes and whatever the framebuffer
holds: the cursor never corrupts what is drawn exactly when every rendering
over a shown cursor leaves the bytes under it as they are. -/
theorem under_cursor_iff (v : Video) (m : Memory) (c : Cursor) (drawing : List DrawOp)
    (passes : List Pass) :
    NeverCorrupted v (start v m c drawing) passes ↔
      Along (step v) (Spares v) (start v m c drawing) passes :=
  neverCorrupted_iff v (start v m c drawing) passes (start_clean v m c drawing)

end Hnmos.MouseCursor
