import Mathlib

/-!
# Text on a page that does not scroll

Text is laid out in rows of a given width, and a row that is full is finished.
A page of a given height shows the first rows; on its last row it shows all
the others, one written over the other.
-/

set_option autoImplicit false

namespace Hnmos.PageLayout

variable {κ : Type*} {width height : ℕ}

structure Layout (κ : Type*) where
  finished : List (List κ)
  current : List κ

def Layout.empty : Layout κ := ⟨[], []⟩

def Layout.rows (l : Layout κ) : List (List κ) := l.finished ++ [l.current]

def Layout.newline (l : Layout κ) : Layout κ := ⟨l.finished ++ [l.current], []⟩

def Layout.put (width : ℕ) (l : Layout κ) (c : κ) : Layout κ :=
  if l.current.length + 1 < width then ⟨l.finished, l.current ++ [c]⟩
  else Layout.newline ⟨l.finished, l.current ++ [c]⟩

/-- What is seen of rows that are written over one another. -/
def overlaid (rows : List (List κ)) (column : ℕ) : Option κ :=
  rows.foldl (fun seen row => row[column]?.or seen) none

def seen (height : ℕ) (rows : List (List κ)) (row column : ℕ) : Option κ :=
  if row + 1 < height then (rows[row]?.getD [])[column]?
  else overlaid (rows.drop (height - 1)) column

def Layout.place (height : ℕ) (l : Layout κ) : ℕ := min l.finished.length (height - 1)

theorem overlaid_concat (rows : List (List κ)) (row : List κ) (column : ℕ) :
    overlaid (rows ++ [row]) column = row[column]?.or (overlaid rows column) := by
  rw [overlaid, List.foldl_append]
  rfl

theorem seen_empty (row column : ℕ) :
    seen height (Layout.empty : Layout κ).rows row column = none := by
  have hrows : (Layout.empty : Layout κ).rows = [[]] := rfl
  rw [hrows, seen]
  split_ifs
  · cases row <;> rfl
  · cases height - 1 with
    | zero => rfl
    | succ k =>
      rw [List.drop_succ_cons, List.drop_nil]
      rfl

theorem seen_newline (l : Layout κ) (row column : ℕ) :
    seen height l.newline.rows row column = seen height l.rows row column := by
  have hrows : l.newline.rows = l.rows ++ [[]] := rfl
  rw [hrows, seen, seen]
  split_ifs with hrow
  · rcases Nat.lt_trichotomy row l.rows.length with hlt | rfl | hgt
    · rw [List.getElem?_append_left hlt]
    · rw [List.getElem?_concat_length, List.getElem?_eq_none (Nat.le_refl _)]
      rfl
    · have hlong : (l.rows ++ [[]]).length ≤ row := by
        rw [List.length_append, List.length_singleton]
        exact hgt
      rw [List.getElem?_eq_none hgt.le, List.getElem?_eq_none hlong]
  · rcases Nat.le_total (height - 1) l.rows.length with hle | hle
    · rw [List.drop_append_of_le_length hle, overlaid_concat, List.getElem?_nil, Option.none_or]
    · rw [List.drop_eq_nil_of_le hle, List.drop_append, List.drop_eq_nil_of_le hle]
      cases height - 1 - l.rows.length with
      | zero => rfl
      | succ k =>
        rw [List.drop_succ_cons, List.drop_nil]
        rfl

/-- A character is seen in its place and covers what was there. -/
theorem seen_put (l : Layout κ) (c : κ) (row column : ℕ) (hrow : row < height) :
    seen height (Layout.rows ⟨l.finished, l.current ++ [c]⟩) row column =
      if row = l.place height ∧ column = l.current.length then some c
      else seen height l.rows row column := by
  have hcell : (l.current ++ [c])[column]? =
      if column = l.current.length then some c else l.current[column]? := by
    split_ifs with hcolumn
    · rw [hcolumn, List.getElem?_concat_length]
    · rcases Nat.lt_or_gt_of_ne hcolumn with hlt | hgt
      · rw [List.getElem?_append_left hlt]
      · rw [List.getElem?_eq_none hgt.le, List.getElem?_eq_none]
        rw [List.length_append, List.length_singleton]
        exact hgt
  unfold seen Layout.rows Layout.place
  by_cases hupper : row + 1 < height
  · rw [if_pos hupper, if_pos hupper]
    rcases Nat.lt_trichotomy row l.finished.length with hlt | rfl | hgt
    · rw [List.getElem?_append_left hlt, List.getElem?_append_left hlt, if_neg (by omega)]
    · rw [List.getElem?_concat_length, List.getElem?_concat_length, Option.getD_some,
        Option.getD_some, hcell]
      by_cases hcolumn : column = l.current.length
      · rw [if_pos hcolumn, if_pos ⟨by omega, hcolumn⟩]
      · rw [if_neg hcolumn, if_neg fun hn => hcolumn hn.2]
    · have hnone (x : List κ) : (l.finished ++ [x])[row]? = none := by
        apply List.getElem?_eq_none
        rw [List.length_append, List.length_singleton]
        exact hgt
      rw [hnone, hnone, if_neg (by omega)]
  · rw [if_neg hupper, if_neg hupper]
    rcases Nat.lt_or_ge l.finished.length (height - 1) with hlt | hge
    · have hnone (x : List κ) : (l.finished ++ [x]).drop (height - 1) = [] := by
        apply List.drop_eq_nil_of_le
        rw [List.length_append, List.length_singleton]
        exact hlt
      rw [hnone, hnone, if_neg (by omega)]
    · rw [List.drop_append_of_le_length hge, List.drop_append_of_le_length hge, overlaid_concat,
        overlaid_concat, hcell]
      by_cases hcolumn : column = l.current.length
      · rw [if_pos hcolumn, if_pos ⟨by omega, hcolumn⟩]
        rfl
      · rw [if_neg hcolumn, if_neg fun hn => hcolumn hn.2]

/-- A finished row is seen as it is for good, unless it is on the last row. -/
theorem seen_finished (l : Layout κ) (later : List (List κ)) (row column : ℕ)
    (hrow : row + 1 < height) (hfinished : row < l.finished.length) :
    seen height (l.finished ++ later) row column = seen height l.rows row column := by
  unfold seen Layout.rows
  rw [if_pos hrow, if_pos hrow, List.getElem?_append_left hfinished,
    List.getElem?_append_left hfinished]

theorem newline_flatten (l : Layout κ) : l.newline.rows.flatten = l.rows.flatten := by
  have hrows : l.newline.rows = l.rows ++ [[]] := rfl
  rw [hrows, List.flatten_append, List.flatten_singleton, List.append_nil]

theorem put_flatten (l : Layout κ) (c : κ) :
    (l.put width c).rows.flatten = l.rows.flatten ++ [c] := by
  have hput : (Layout.rows ⟨l.finished, l.current ++ [c]⟩).flatten = l.rows.flatten ++ [c] := by
    rw [Layout.rows, Layout.rows, List.flatten_append, List.flatten_append, List.flatten_singleton,
      List.flatten_singleton, List.append_assoc]
  unfold Layout.put
  split_ifs
  · exact hput
  · rw [newline_flatten, hput]

theorem put_finished (l : Layout κ) (c : κ) : l.finished <+: (l.put width c).finished := by
  unfold Layout.put
  split_ifs
  · exact List.prefix_rfl
  · exact List.prefix_append _ _

end Hnmos.PageLayout
