import Mathlib
import Hnmos.CString
import Hnmos.PageLayout
import Hnmos.SerialPort

/-!
# The boot log

The log goes to the text screen, which does not scroll, and to the first
serial port. The screen shows the first rows of what was logged and, on its
last row, all the others over one another; the port gets everything that it
takes in time.
-/

set_option autoImplicit false

namespace Hnmos.TextLog
open Hnmos.CString Hnmos.PageLayout Hnmos.SerialPort

def vgaWidth : ℕ := 80
def vgaHeight : ℕ := 25
def vgaBlack : UInt8 := 0
def vgaLightGreen : UInt8 := 10

structure Vga where
  buffer : ℕ → UInt16
  row : ℕ
  column : ℕ
  colorByte : UInt8

def vgaColor (foreground background : UInt8) : UInt8 := foreground ||| background <<< 4

def vgaEntry (character color : UInt8) : UInt16 := character.toUInt16 ||| color.toUInt16 <<< 8

def Vga.store (v : Vga) (row column : ℕ) (entry : UInt16) : Vga :=
  { v with buffer := Function.update v.buffer (row * vgaWidth + column) entry }

def Vga.clearRow (v : Vga) (y : ℕ) : Vga :=
  (List.range vgaWidth).foldl (fun v x => v.store y x (vgaEntry 32 v.colorByte)) v

def Vga.clear (v : Vga) : Vga :=
  { (List.range vgaHeight).foldl Vga.clearRow v with row := 0, column := 0 }

def Vga.newline (v : Vga) : Vga :=
  { v with column := 0, row := if v.row + 1 < vgaHeight then v.row + 1 else v.row }

def Vga.putChar (v : Vga) (character : UInt8) : Vga :=
  if character = 10 then v.newline
  else
    let stored := { v.store v.row v.column (vgaEntry character v.colorByte) with
      column := v.column + 1 }
    if vgaWidth ≤ v.column + 1 then stored.newline else stored

structure Log where
  vga : Vga
  port : Uart

def Log.putChar (l : Log) (character : UInt8) : Log where
  vga := l.vga.putChar character
  port := (if character = 10 then l.port.writeChar 13 else l.port).writeChar character

def Log.init (l : Log) : Log :=
  { l with vga := Vga.clear { l.vga with colorByte := vgaColor vgaLightGreen vgaBlack } }

def Log.write (l : Log) (text : List UInt8) : Log := text.foldl Log.putChar l

def Log.writeLine (l : Log) (text : List UInt8) : Log := (l.write text).putChar 10

def place (l : Layout UInt8) (character : UInt8) : Layout UInt8 :=
  if character = 10 then l.newline else l.put vgaWidth character

def layout (text : List UInt8) : Layout UInt8 := text.foldl place Layout.empty

theorem width_eq : vgaWidth = 80 := rfl

theorem width_pos : 0 < vgaWidth := by decide

/-- The screen shows the rows of the layout, and what is not on the screen is
as it was. -/
structure Drawn (before : ℕ → UInt16) (v : Vga) (l : Layout UInt8) : Prop where
  row : v.row = l.place vgaHeight
  color : v.colorByte = vgaColor vgaLightGreen vgaBlack
  cells : ∀ row < vgaHeight, ∀ column < vgaWidth, v.buffer (row * vgaWidth + column) =
    vgaEntry ((seen vgaHeight l.rows row column).getD 32) (vgaColor vgaLightGreen vgaBlack)
  outside : ∀ i, vgaHeight * vgaWidth ≤ i → v.buffer i = before i

structure Shows (before : ℕ → UInt16) (v : Vga) (l : Layout UInt8) : Prop
    extends Drawn before v l where
  column : v.column = l.current.length
  fits : l.current.length < vgaWidth

theorem clearRow_buffer (v : Vga) (y : ℕ) (i : ℕ) : (v.clearRow y).buffer i =
      (if y * vgaWidth ≤ i ∧ i < y * vgaWidth + vgaWidth then vgaEntry 32 v.colorByte
        else v.buffer i) ∧ (v.clearRow y).colorByte = v.colorByte := by
  have hfold (n : ℕ) : ∀ j, ((List.range n).foldl
        (fun v x => v.store y x (vgaEntry 32 v.colorByte)) v).buffer j =
        (if y * vgaWidth ≤ j ∧ j < y * vgaWidth + n then vgaEntry 32 v.colorByte
          else v.buffer j) ∧ ((List.range n).foldl
        (fun v x => v.store y x (vgaEntry 32 v.colorByte)) v).colorByte = v.colorByte := by
    induction n with
    | zero =>
      intro j
      exact ⟨(if_neg (by omega)).symm, rfl⟩
    | succ n ih =>
      intro j
      rw [List.range_succ, List.foldl_append, List.foldl_cons, List.foldl_nil]
      obtain ⟨hbuffer, hcolor⟩ := ih j
      refine ⟨?_, hcolor⟩
      rw [Vga.store, hcolor]
      show Function.update _ _ _ j = _
      by_cases hj : j = y * vgaWidth + n
      · rw [hj, Function.update_self, if_pos (by omega)]
      · rw [Function.update_of_ne hj, hbuffer]
        congr 1
        rw [eq_iff_iff]
        omega
  exact hfold vgaWidth i

theorem clear_shows (v : Vga) (hcolor : v.colorByte = vgaColor vgaLightGreen vgaBlack) :
    Shows v.buffer v.clear Layout.empty := by
  have hfold (n : ℕ) : ∀ i, ((List.range n).foldl Vga.clearRow v).buffer i =
        (if i < n * vgaWidth then vgaEntry 32 v.colorByte else v.buffer i) ∧
      ((List.range n).foldl Vga.clearRow v).colorByte = v.colorByte := by
    induction n with
    | zero =>
      intro i
      rw [Nat.zero_mul, if_neg (Nat.not_lt_zero i)]
      exact ⟨rfl, rfl⟩
    | succ n ih =>
      intro i
      rw [List.range_succ, List.foldl_append, List.foldl_cons, List.foldl_nil]
      obtain ⟨hbuffer, hcolor⟩ := ih i
      obtain ⟨hrow, hsame⟩ := clearRow_buffer ((List.range n).foldl Vga.clearRow v) n i
      refine ⟨?_, hsame.trans hcolor⟩
      rw [hrow, hbuffer, hcolor, Nat.succ_mul]
      split_ifs <;> first | rfl | omega
  have hscreen := hfold vgaHeight
  unfold Vga.clear
  generalize (List.range vgaHeight).foldl Vga.clearRow v = screen at hscreen
  refine ⟨⟨rfl, (hscreen 0).2.trans hcolor, ?_, ?_⟩, rfl, width_pos⟩
  · intro row hrow column hcolumn
    rw [seen_empty, Option.getD_none, ← hcolor]
    refine (hscreen _).1.trans (if_pos ?_)
    rw [width_eq] at hcolumn ⊢
    omega
  · intro i hi
    exact (hscreen i).1.trans (if_neg (Nat.not_lt.mpr hi))

theorem newline_shows (before : ℕ → UInt16) (v : Vga) (l : Layout UInt8) (h : Drawn before v l) :
    Shows before v.newline l.newline := by
  refine ⟨⟨?_, h.color, ?_, h.outside⟩, rfl, width_pos⟩
  · have hrow := h.row
    unfold Vga.newline Layout.newline
    unfold Layout.place at hrow ⊢
    simp only [List.length_append, List.length_singleton]
    split_ifs <;> omega
  · intro row hrow column hcolumn
    rw [seen_newline]
    exact h.cells row hrow column hcolumn

theorem putChar_shows (before : ℕ → UInt16) (v : Vga) (l : Layout UInt8) (character : UInt8)
    (h : Shows before v l) : Shows before (v.putChar character) (place l character) := by
  have hrow := h.row
  have hfits := h.fits
  have hplace : l.place vgaHeight < vgaHeight := by
    unfold Layout.place
    have hheight : vgaHeight = 25 := rfl
    omega
  unfold Vga.putChar place
  by_cases hnewline : character = 10
  · rw [if_pos hnewline, if_pos hnewline]
    exact newline_shows before v l h.toDrawn
  · rw [if_neg hnewline, if_neg hnewline]
    -- the cell under the cursor is the one in which the layout puts it
    have hcells : ∀ row < vgaHeight, ∀ column < vgaWidth,
        (v.store v.row v.column (vgaEntry character v.colorByte)).buffer
            (row * vgaWidth + column) =
          vgaEntry ((seen vgaHeight (Layout.rows ⟨l.finished, l.current ++ [character]⟩) row
            column).getD 32) (vgaColor vgaLightGreen vgaBlack) := by
      intro row hrow' column hcolumn
      rw [seen_put l character row column hrow', Vga.store, h.row, h.column, h.color]
      show Function.update _ _ _ _ = _
      by_cases hcell : row = l.place vgaHeight ∧ column = l.current.length
      · rw [if_pos hcell, hcell.1, hcell.2, Function.update_self]
        rfl
      · have hother :
            row * vgaWidth + column ≠ l.place vgaHeight * vgaWidth + l.current.length := by
          intro heq
          rw [width_eq] at heq hcolumn hfits
          exact hcell ⟨by omega, by omega⟩
        rw [if_neg hcell, Function.update_of_ne hother]
        exact h.cells row hrow' column hcolumn
    have houtside : ∀ i, vgaHeight * vgaWidth ≤ i →
        (v.store v.row v.column (vgaEntry character v.colorByte)).buffer i = before i := by
      intro i hi
      refine (Function.update_of_ne ?_ _ _).trans (h.outside i hi)
      rw [h.row, h.column]
      rw [width_eq] at hi hfits ⊢
      omega
    have hstored : Drawn before { v.store v.row v.column (vgaEntry character v.colorByte) with
        column := v.column + 1 } ⟨l.finished, l.current ++ [character]⟩ :=
      ⟨hrow, h.color, hcells, houtside⟩
    have hcolumn := h.column
    unfold Layout.put
    dsimp only
    split_ifs with hfull hroom hroom
    · omega
    · exact newline_shows before _ _ hstored
    · refine ⟨hstored, ?_, ?_⟩
      · rw [List.length_append, List.length_singleton]
        exact congrArg (· + 1) hcolumn
      · rw [List.length_append, List.length_singleton]
        exact hroom
    · omega

theorem text_shows (before : ℕ → UInt16) (v : Vga) (l : Layout UInt8) (text : List UInt8)
    (h : Shows before v l) : Shows before (text.foldl Vga.putChar v) (text.foldl place l) := by
  induction text generalizing v l with
  | nil => exact h
  | cons c text ih => exact ih _ _ (putChar_shows before v l c h)

theorem write_vga (l : Log) (text : List UInt8) :
    (l.write text).vga = text.foldl Vga.putChar l.vga := by
  induction text generalizing l with
  | nil => rfl
  | cons c text ih => exact ih (l.putChar c)

theorem log_shows (l : Log) (text : List UInt8) :
    Shows l.vga.buffer (l.init.write text).vga (layout text) := by
  have hclear : Shows l.vga.buffer l.init.vga Layout.empty :=
    clear_shows { l.vga with colorByte := vgaColor vgaLightGreen vgaBlack } rfl
  rw [write_vga]
  exact text_shows _ _ _ text hclear

theorem layout_finished (l : Layout UInt8) (text : List UInt8) :
    l.finished <+: (text.foldl place l).finished := by
  induction text generalizing l with
  | nil => exact List.prefix_rfl
  | cons c text ih =>
    refine List.IsPrefix.trans ?_ (ih (place l c))
    unfold place
    split_ifs
    · exact List.prefix_append _ _
    · exact put_finished l c

theorem layout_whole (l : Layout UInt8) (text : List UInt8) :
    (text.foldl place l).rows.flatten = l.rows.flatten ++ text.filter (· ≠ 10) := by
  induction text generalizing l with
  | nil => exact (List.append_nil _).symm
  | cons c text ih =>
    rw [List.foldl_cons, ih, List.filter_cons]
    unfold place
    by_cases hnewline : c = 10
    · rw [if_pos hnewline, if_neg (by simp [hnewline]), newline_flatten]
    · rw [if_neg hnewline, if_pos (by simp [hnewline]), put_flatten, List.append_assoc]
      rfl

/-- Whatever is logged, the screen shows the rows of its layout, in which no
character is lost: each row that is not the last one as it is, and on the last
row all later ones over one another. A finished row above the last one stays,
and nothing outside the screen is written. -/
theorem screen_shows (l : Log) (text more : List UInt8) :
    let v := (l.init.write text).vga
    (layout text).rows.flatten = text.filter (· ≠ 10) ∧
    (∀ row < vgaHeight, ∀ column < vgaWidth, v.buffer (row * vgaWidth + column) =
      vgaEntry ((seen vgaHeight (layout text).rows row column).getD 32)
        (vgaColor vgaLightGreen vgaBlack)) ∧
    (∀ i, vgaHeight * vgaWidth ≤ i → v.buffer i = l.vga.buffer i) ∧
    ∀ row, row + 1 < vgaHeight → row < (layout text).finished.length → ∀ column < vgaWidth,
      (l.init.write (text ++ more)).vga.buffer (row * vgaWidth + column) =
        v.buffer (row * vgaWidth + column) := by
  intro v
  have hshows := log_shows l text
  refine ⟨layout_whole Layout.empty text, hshows.cells, hshows.outside, ?_⟩
  intro row hrow hfinished column hcolumn
  have hlayout : layout (text ++ more) = more.foldl place (layout text) := List.foldl_append
  obtain ⟨later, hlater⟩ := layout_finished (layout text) more
  have hrows : (layout (text ++ more)).rows = (layout text).finished ++
      (later ++ [(layout (text ++ more)).current]) := by
    rw [Layout.rows, hlayout, ← hlater, List.append_assoc]
  have hrow' : row < vgaHeight := Nat.lt_of_succ_lt hrow
  rw [(log_shows l (text ++ more)).cells row hrow' column hcolumn, hrows,
    seen_finished (layout text) _ row column hrow hfinished]
  exact (hshows.cells row hrow' column hcolumn).symm

def onLine (text : List UInt8) : List UInt8 :=
  text.flatMap fun c => if c = 10 then [13, 10] else [c]

theorem write_port (l : Log) (text : List UInt8) :
    (l.write text).port = l.port.writeText (onLine text) := by
  induction text generalizing l with
  | nil => rfl
  | cons c text ih =>
    have hcons : onLine (c :: text) = (if c = 10 then [13, 10] else [c]) ++ onLine text := rfl
    rw [hcons, writeText_append]
    refine (ih (l.putChar c)).trans (congrArg (Uart.writeText · (onLine text)) ?_)
    unfold Log.putChar
    split_ifs with hnewline
    · rw [hnewline]
      rfl
    · rfl

theorem attemptWrite_sent (attempts : ℕ) (u : Uart) (c : UInt8) :
    ∃ sent, (u.attemptWrite attempts c).written = u.written ++ sent ∧ sent.Sublist [c] ∧
      (u.attemptWrite attempts c).reads ≤ u.reads + attempts := by
  induction attempts generalizing u with
  | zero => exact ⟨[], (List.append_nil _).symm, List.nil_sublist _, Nat.le_refl _⟩
  | succ attempts ih =>
    rw [Uart.attemptWrite]
    split_ifs
    · exact ⟨[c], rfl, List.Sublist.refl _, Nat.add_le_add_left (Nat.succ_pos attempts) _⟩
    · obtain ⟨sent, hwritten, hsent, hreads⟩ := ih { u with reads := u.reads + 1 }
      refine ⟨sent, hwritten, hsent, hreads.trans ?_⟩
      show u.reads + 1 + attempts ≤ _
      omega

theorem writeText_sent (u : Uart) (text : List UInt8) :
    ∃ sent, (u.writeText text).written = u.written ++ sent ∧ sent.Sublist text ∧
      (u.writeText text).reads ≤ u.reads + 100000 * text.length := by
  induction text generalizing u with
  | nil => exact ⟨[], (List.append_nil _).symm, List.nil_sublist _, Nat.le_refl _⟩
  | cons c text ih =>
    obtain ⟨first, hfirst, hone, hreads⟩ := attemptWrite_sent 100000 u c
    obtain ⟨rest, hrest, hmany, hreads'⟩ := ih (u.writeChar c)
    refine ⟨first ++ rest, ?_, hone.append hmany, ?_⟩
    · rw [writeText_cons, hrest, Uart.writeChar, hfirst, List.append_assoc]
    · rw [writeText_cons, List.length_cons]
      have hreads : (u.writeChar c).reads ≤ u.reads + 100000 := hreads
      omega

/-- Whatever the port answers, it gets the characters of the log in their
order, each at most once and with its line ends, after a bounded number of
reads; and all of them if it is ready in time. -/
theorem port_carries (l : Log) (text : List UInt8) :
    ∃ sent, (l.write text).port.written = l.port.written ++ sent ∧ sent.Sublist (onLine text) ∧
      (l.write text).port.reads ≤ l.port.reads + 100000 * (onLine text).length ∧
      (l.port.Reliable → sent = onLine text) := by
  rw [write_port]
  obtain ⟨sent, hwritten, hsent, hreads⟩ := writeText_sent l.port (onLine text)
  refine ⟨sent, hwritten, hsent, hreads, fun hreliable => ?_⟩
  rw [writeText_written l.port (onLine text) hreliable] at hwritten
  exact (List.append_cancel_left hwritten).symm

end Hnmos.TextLog
