import Mathlib

/-!
# Lines of a stream that arrives in chunks

A stream is cut into lines at a separator; what follows the last separator is
unfinished. A receiver keeps the unfinished part of what has arrived and takes
the complete lines out of it chunk by chunk. A receiver that drops everything
when a chunk brings too much loses or cuts a line exactly when a separator was
in that chunk or is still to come.
-/

set_option autoImplicit false

namespace Hnmos.LineSplitting

variable {α : Type*} [DecidableEq α]

def lines (sep : α) (stream : List α) : List (List α) := (stream.splitOn sep).dropLast

def unfinished (sep : α) (stream : List α) : List α := (stream.splitOn sep).getLastD []

/-- The lines a bounded receiver takes out of the chunks. -/
def received (sep : α) (limit : ℕ) : List α → List (List α) → List (List α)
  | _, [] => []
  | pending, chunk :: chunks =>
    if limit < (pending ++ chunk).length then received sep limit [] chunks
    else lines sep (pending ++ chunk) ++
      received sep limit (unfinished sep (pending ++ chunk)) chunks

/-- No chunk that a separator is in or follows brings too much. -/
def Roomy (sep : α) (limit : ℕ) (pending : List α) (chunks : List (List α)) : Prop :=
  ∀ front chunk back, chunks = front ++ chunk :: back → sep ∈ (chunk :: back).flatten →
    (unfinished sep (pending ++ front.flatten)).length + chunk.length ≤ limit

def weight (found : List (List α)) : ℕ := (found.map fun line => line.length + 1).sum

theorem lines_of_not_mem (sep : α) (stream : List α) (h : sep ∉ stream) :
    lines sep stream = [] ∧ unfinished sep stream = stream := by
  rw [lines, unfinished, List.splitOn_eq_singleton h]
  exact ⟨rfl, rfl⟩

theorem lines_line (sep : α) (line stream : List α) (h : sep ∉ line) :
    lines sep (line ++ sep :: stream) = line :: lines sep stream ∧
      unfinished sep (line ++ sep :: stream) = unfinished sep stream := by
  obtain ⟨first, rest, hsplit⟩ := List.exists_cons_of_ne_nil (List.splitOn_ne_nil sep stream)
  rw [lines, unfinished, lines, unfinished, List.splitOn_append_cons_self_of_not_mem h, hsplit]
  exact ⟨rfl, rfl⟩

/-- Induction over a stream line by line. -/
theorem line_induction (sep : α) (P : List α → Prop) (hrest : ∀ stream, sep ∉ stream → P stream)
    (hline : ∀ line stream, sep ∉ line → P stream → P (line ++ sep :: stream))
    (stream : List α) : P stream := by
  generalize hn : stream.length = n
  induction n using Nat.strong_induction_on generalizing stream with
  | _ n ih =>
    by_cases hmem : sep ∈ stream
    · obtain ⟨line, rest, rfl, hfree⟩ := List.eq_append_cons_of_mem hmem
      apply hline line rest hfree
      apply ih rest.length _ rest rfl
      rw [← hn, List.length_append, List.length_cons]
      omega
    · exact hrest stream hmem

theorem unfinished_free (sep : α) (stream : List α) : sep ∉ unfinished sep stream := by
  induction stream using line_induction sep with
  | hrest stream h => rwa [(lines_of_not_mem sep stream h).2]
  | hline line stream h ih => rwa [(lines_line sep line stream h).2]

theorem lines_append (sep : α) (stream more : List α) :
    lines sep (stream ++ more) = lines sep stream ++ lines sep (unfinished sep stream ++ more) ∧
      unfinished sep (stream ++ more) = unfinished sep (unfinished sep stream ++ more) := by
  induction stream using line_induction sep with
  | hrest stream h =>
    obtain ⟨hlines, hunfinished⟩ := lines_of_not_mem sep stream h
    rw [hlines, hunfinished]
    exact ⟨rfl, rfl⟩
  | hline line stream h ih =>
    obtain ⟨hlines, hunfinished⟩ := lines_line sep line stream h
    obtain ⟨hall, hend⟩ := lines_line sep line (stream ++ more) h
    rw [List.append_assoc, List.cons_append, hall, hend, hlines, hunfinished, ih.1, ih.2]
    exact ⟨rfl, rfl⟩

omit [DecidableEq α] in
theorem weight_append (found more : List (List α)) :
    weight (found ++ more) = weight found + weight more := by
  rw [weight, List.map_append, List.sum_append]
  rfl

theorem weight_free (sep : α) (front stream : List α) (h : sep ∉ front) :
    weight (lines sep (front ++ stream)) =
      if sep ∈ stream then front.length + weight (lines sep stream) else 0 := by
  by_cases hmem : sep ∈ stream
  · obtain ⟨line, rest, rfl, hfree⟩ := List.eq_append_cons_of_mem hmem
    have hfront : sep ∉ front ++ line := by
      rw [List.mem_append, not_or]
      exact ⟨h, hfree⟩
    rw [if_pos hmem, ← List.append_assoc, (lines_line sep _ rest hfront).1,
      (lines_line sep line rest hfree).1, weight, weight, List.map_cons, List.map_cons,
      List.sum_cons, List.sum_cons, List.length_append]
    omega
  · have hnone : sep ∉ front ++ stream := by
      rw [List.mem_append, not_or]
      exact ⟨h, hmem⟩
    rw [if_neg hmem, (lines_of_not_mem sep _ hnone).1]
    rfl

theorem weight_pos (sep : α) (stream : List α) (h : sep ∈ stream) :
    0 < weight (lines sep stream) := by
  obtain ⟨line, rest, rfl, hfree⟩ := List.eq_append_cons_of_mem h
  rw [(lines_line sep line rest hfree).1, weight, List.map_cons, List.sum_cons]
  omega

theorem weight_drop (sep : α) (front stream : List α) :
    weight (lines sep stream) ≤ weight (lines sep (front ++ stream)) := by
  have hrest := weight_free sep (unfinished sep front) stream (unfinished_free sep front)
  rw [(lines_append sep front stream).1, weight_append, hrest]
  by_cases hmem : sep ∈ stream
  · rw [if_pos hmem]
    omega
  · rw [(lines_of_not_mem sep stream hmem).1]
    exact Nat.zero_le _

theorem weight_drop_lt (sep : α) (front stream : List α) (hne : front ≠ [])
    (hmem : sep ∈ front ++ stream) :
    weight (lines sep stream) < weight (lines sep (front ++ stream)) := by
  have hrest := weight_free sep (unfinished sep front) stream (unfinished_free sep front)
  rw [(lines_append sep front stream).1, weight_append, hrest]
  by_cases hlater : sep ∈ stream
  · rw [if_pos hlater]
    by_cases hfront : sep ∈ front
    · have hpos := weight_pos sep front hfront
      omega
    · have hpos := List.length_pos_iff.mpr hne
      rw [(lines_of_not_mem sep front hfront).2]
      omega
  · have hfront : sep ∈ front := (List.mem_append.mp hmem).resolve_right hlater
    have hpos := weight_pos sep front hfront
    rw [(lines_of_not_mem sep stream hlater).1, if_neg hlater]
    show 0 < _
    omega

theorem received_weight (sep : α) (limit : ℕ) (pending : List α) (chunks : List (List α)) :
    weight (received sep limit pending chunks) ≤
      weight (lines sep (pending ++ chunks.flatten)) := by
  induction chunks generalizing pending with
  | nil => exact Nat.zero_le _
  | cons chunk chunks ih =>
    rw [received, List.flatten_cons, ← List.append_assoc]
    by_cases hover : limit < (pending ++ chunk).length
    · rw [if_pos hover]
      exact (ih []).trans (weight_drop sep (pending ++ chunk) chunks.flatten)
    · rw [if_neg hover, (lines_append sep (pending ++ chunk) chunks.flatten).1, weight_append,
        weight_append]
      exact Nat.add_le_add_left (ih _) _

theorem received_nil (sep : α) (limit : ℕ) (pending : List α) (chunks : List (List α))
    (h : sep ∉ pending ++ chunks.flatten) : received sep limit pending chunks = [] := by
  have hweight := received_weight sep limit pending chunks
  rw [(lines_of_not_mem sep _ h).1] at hweight
  cases hfound : received sep limit pending chunks with
  | nil => rfl
  | cons line rest =>
    rw [hfound, weight, List.map_cons, List.sum_cons] at hweight
    exact absurd hweight (by simp [weight])

theorem roomy_cons (sep : α) (limit : ℕ) (pending chunk : List α) (chunks : List (List α))
    (hp : sep ∉ pending) :
    Roomy sep limit pending (chunk :: chunks) ↔
      (sep ∈ (chunk :: chunks).flatten → (pending ++ chunk).length ≤ limit) ∧
        Roomy sep limit (unfinished sep (pending ++ chunk)) chunks := by
  have hnow : unfinished sep (pending ++ [].flatten) = pending := by
    rw [List.flatten_nil, List.append_nil, (lines_of_not_mem sep pending hp).2]
  have hlater (front : List (List α)) :
      unfinished sep (pending ++ (chunk :: front).flatten) =
        unfinished sep (unfinished sep (pending ++ chunk) ++ front.flatten) := by
    rw [List.flatten_cons, ← List.append_assoc, (lines_append sep _ _).2]
  constructor
  · intro h
    constructor
    · intro hmem
      have hroom := h [] chunk chunks rfl hmem
      rwa [hnow, ← List.length_append] at hroom
    · rintro front next back rfl hmem
      have hroom := h (chunk :: front) next back rfl hmem
      rwa [hlater] at hroom
  · rintro ⟨hfirst, hrest⟩ front next back hsplit hmem
    cases front with
    | nil =>
      obtain ⟨rfl, rfl⟩ := List.cons.inj hsplit
      rw [hnow, ← List.length_append]
      exact hfirst hmem
    | cons first front =>
      obtain ⟨rfl, htail⟩ := List.cons.inj hsplit
      rw [hlater]
      exact hrest front next back htail hmem

/-- A bounded receiver takes exactly the lines of the stream out of its chunks
when none of them brings too much before the last separator, and only then. -/
theorem received_eq_iff (sep : α) (limit : ℕ) (pending : List α) (chunks : List (List α))
    (hp : sep ∉ pending) (hc : ∀ chunk ∈ chunks, chunk ≠ []) :
    received sep limit pending chunks = lines sep (pending ++ chunks.flatten) ↔
      Roomy sep limit pending chunks := by
  induction chunks generalizing pending with
  | nil =>
    rw [List.flatten_nil, List.append_nil, (lines_of_not_mem sep pending hp).1]
    constructor
    · rintro _ front chunk back hsplit
      exact absurd hsplit.symm (List.append_ne_nil_of_right_ne_nil front (List.cons_ne_nil _ _))
    · intro _
      rfl
  | cons chunk chunks ih =>
    have hrest (next : List α) (hn : sep ∉ next) := ih next hn
      fun other hother => hc other (List.mem_cons_of_mem chunk hother)
    rw [roomy_cons sep limit pending chunk chunks hp, received, List.flatten_cons,
      ← List.append_assoc]
    by_cases hover : limit < (pending ++ chunk).length
    · rw [if_pos hover]
      by_cases hmem : sep ∈ (pending ++ chunk) ++ chunks.flatten
      · have hlater : sep ∈ (chunk ++ chunks.flatten) := by
          rw [List.append_assoc, List.mem_append] at hmem
          exact hmem.resolve_left hp
        have hne : pending ++ chunk ≠ [] :=
          List.append_ne_nil_of_right_ne_nil pending (hc chunk List.mem_cons_self)
        constructor
        · intro heq
          have hle := received_weight sep limit [] chunks
          have hlt := weight_drop_lt sep (pending ++ chunk) chunks.flatten hne hmem
          rw [heq, List.nil_append] at hle
          exact absurd hlt (Nat.not_lt.mpr hle)
        · rintro ⟨hfirst, _⟩
          exact absurd hover (Nat.not_lt.mpr (hfirst hlater))
      · have hfree := hmem
        rw [List.mem_append, not_or] at hfree
        rw [(lines_of_not_mem sep _ hmem).1, received_nil sep limit [] chunks hfree.2]
        constructor
        · intro _
          constructor
          · intro hlater
            rw [List.append_assoc, List.mem_append, not_or] at hmem
            exact absurd hlater hmem.2
          · rintro front next back rfl hlater
            apply absurd _ hfree.2
            rw [List.flatten_append]
            exact List.mem_append_right _ hlater
        · intro _
          rfl
    · rw [if_neg hover, (lines_append sep (pending ++ chunk) chunks.flatten).1,
        List.append_right_inj, hrest _ (unfinished_free sep (pending ++ chunk))]
      constructor
      · intro h
        exact ⟨fun _ => Nat.le_of_not_lt hover, h⟩
      · intro h
        exact h.2

end Hnmos.LineSplitting
