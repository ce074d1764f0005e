import Mathlib

/-!
# Walks that the data guides

A walk follows a function from position to position while the position is
live. It ends exactly when live positions lead, one after another, to one that
is not, and these are the positions it visits.
-/

set_option autoImplicit false

namespace Hnmos.GuidedWalk

variable {α : Type*} (next : α → α) (live : α → Prop)

/-- The positions of a walk that ends within the fuel. -/
def walk [DecidablePred live] : ℕ → α → Option (List α)
  | 0, _ => none
  | fuel + 1, a => if live a then (walk fuel (next a)).map fun rest => a :: rest else some []

inductive Linked : α → List α → α → Prop
  | nil (a : α) : Linked a [] a
  | cons (a b : α) (l : List α) (ha : live a) (h : Linked (next a) l b) : Linked a (a :: l) b

variable {next live} [DecidablePred live]

theorem walk_of_linked (a b : α) (l : List α) (h : Linked next live a l b) (hb : ¬ live b) :
    walk next live (l.length + 1) a = some l := by
  induction h with
  | nil a => exact if_neg hb
  | cons a b l ha h ih => rw [List.length_cons, walk, if_pos ha, ih hb, Option.map_some]

theorem linked_of_walk (fuel : ℕ) (a : α) (l : List α) (h : walk next live fuel a = some l) :
    ∃ b, Linked next live a l b ∧ ¬ live b := by
  induction fuel generalizing a l with
  | zero => exact absurd h nofun
  | succ fuel ih =>
    rw [walk] at h
    by_cases ha : live a
    · rw [if_pos ha] at h
      obtain ⟨rest, hrest, rfl⟩ := Option.map_eq_some_iff.mp h
      obtain ⟨b, hlinked, hb⟩ := ih (next a) rest hrest
      exact ⟨b, .cons a b rest ha hlinked, hb⟩
    · rw [if_neg ha] at h
      obtain rfl := Option.some.inj h
      exact ⟨a, .nil a, ha⟩

theorem walk_stuck (a : α) (ha : live a) (hnext : next a = a) (fuel : ℕ) :
    walk next live fuel a = none := by
  induction fuel with
  | zero => rfl
  | succ fuel ih => rw [walk, if_pos ha, hnext, ih, Option.map_none]

end Hnmos.GuidedWalk
