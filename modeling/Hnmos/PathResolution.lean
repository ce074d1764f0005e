import Mathlib

/-!
# Path resolution

A path is split at the separator; empty components and single dots are ignored,
two dots go up and every other component goes down. The locations of a path are
those passed on the way, the root first.
-/

set_option autoImplicit false

namespace Hnmos.PathResolution

variable {α : Type*} [DecidableEq α]

/-- A location is the list of names from the root. -/
abbrev Location (α : Type*) := List (List α)

def components (separator dot : α) (path : List α) : List (List α) :=
  (path.splitOn separator).filter fun component => component ≠ [] ∧ component ≠ [dot]

def enter (dot : α) (location : Location α) (component : List α) : Location α :=
  if component = [dot, dot] then location.dropLast else location ++ [component]

def locations (separator dot : α) (path : List α) : List (Location α) :=
  (components separator dot path).scanl (enter dot) []

omit [DecidableEq α] in
theorem mem_intersperse (separator : α) (parts : List (List α)) (part : List α)
    (h : part ∈ parts) : part ∈ parts.intersperse [separator] := by
  induction parts with
  | nil => exact absurd h List.not_mem_nil
  | cons first parts ih =>
    cases parts with
    | nil => exact h
    | cons second parts =>
      rw [List.intersperse_cons_cons]
      rcases List.mem_cons.mp h with rfl | hrest
      · exact List.mem_cons_self
      · exact List.mem_cons_of_mem _ (List.mem_cons_of_mem _ (ih hrest))

theorem component_within (separator dot : α) (path component : List α)
    (h : component ∈ components separator dot path) : component <:+: path := by
  have hpart := (List.mem_filter.mp h).1
  have hinfix := List.infix_of_mem_flatten (mem_intersperse separator _ component hpart)
  have hjoin : [separator].intercalate (path.splitOn separator) = path :=
    List.intercalate_splitOn separator
  rw [List.intercalate] at hjoin
  rwa [hjoin] at hinfix

theorem enter_below (dot : α) (base location : Location α) (component : List α)
    (hcomponent : component ≠ [dot, dot]) (h : base <+: location) :
    base <+: enter dot location component := by
  rw [enter, if_neg hcomponent]
  exact h.trans (List.prefix_append _ _)

theorem scan_below (dot : α) (base : Location α) (parts : List (List α))
    (hparts : ∀ part ∈ parts, part ≠ [dot, dot]) (start : Location α) (h : base <+: start) :
    ∀ location ∈ parts.scanl (enter dot) start, base <+: location := by
  induction parts generalizing start with
  | nil =>
    intro location hlocation
    rw [List.scanl_nil, List.mem_singleton] at hlocation
    rwa [hlocation]
  | cons part parts ih =>
    intro location hlocation
    rw [List.scanl_cons, List.mem_cons] at hlocation
    rcases hlocation with rfl | hrest
    · exact h
    · have hpart := hparts part List.mem_cons_self
      exact ih (fun other hother => hparts other (List.mem_cons_of_mem part hother)) _
        (enter_below dot base start part hpart h) location hrest

/-- A path that never names the parent stays below its first component. -/
theorem locations_below (separator dot : α) (path first : List α) (rest : List (List α))
    (hpath : components separator dot path = first :: rest) (hdots : ¬ [dot, dot] <:+: path) :
    ∀ location ∈ (locations separator dot path).tail, [first] <+: location := by
  have hnone : ∀ part ∈ first :: rest, part ≠ [dot, dot] := by
    rintro part hpart rfl
    rw [← hpath] at hpart
    exact hdots (component_within separator dot path _ hpart)
  rw [locations, hpath, List.scanl_cons, List.tail_cons]
  apply scan_below dot [first] rest fun part hpart => hnone part (List.mem_cons_of_mem first hpart)
  rw [enter, if_neg (hnone first List.mem_cons_self), List.nil_append]

end Hnmos.PathResolution
