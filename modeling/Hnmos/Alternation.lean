import Mathlib

/-!
# A two-valued signal seen through losses

A signal starts low and reports every change. A receiver that misses reports
sees an alternating sequence that ends in the value of the signal exactly when
the losses between two reports it sees, before the first and after the last,
are even in number.
-/

set_option autoImplicit false

namespace Hnmos.Alternation

/-- The reports alternate, starting against `first` and ending in `last`. -/
def Alternates : Bool → List Bool → Bool → Prop
  | first, [], last => first = last
  | first, report :: reports, last => report = !first ∧ Alternates report reports last

def Differing : Bool → List Bool → Prop
  | _, [] => True
  | first, report :: reports => report = !first ∧ Differing report reports

def latest (first : Bool) (reports : List Bool) : Bool := reports.getLastD first

def received (reports : List (Bool × Bool)) : List Bool :=
  (reports.filter Prod.snd).map Prod.fst

/-- `gap` losses since the last arrival; every gap ends even. -/
def EvenGaps : ℕ → List Bool → Prop
  | gap, [] => Even gap
  | gap, true :: arrivals => Even gap ∧ EvenGaps 0 arrivals
  | gap, false :: arrivals => EvenGaps (gap + 1) arrivals

theorem alternates_iff (first last : Bool) (reports : List Bool) :
    Alternates first reports last ↔ latest first reports = last ∧ Differing first reports := by
  induction reports generalizing first with
  | nil => simp [Alternates, latest, Differing]
  | cons report reports ih =>
    rw [Alternates, Differing, ih, latest, latest, List.getLastD_cons]
    tauto

theorem alternates_append (first middle last : Bool) (reports more : List Bool)
    (h : Alternates first reports middle) (hmore : Alternates middle more last) :
    Alternates first (reports ++ more) last := by
  induction reports generalizing first with
  | nil =>
    obtain rfl := h
    exact hmore
  | cons report reports ih => exact ⟨h.1, ih report h.2⟩

theorem received_iff (signal last seen : Bool) (gap : ℕ) (reports : List (Bool × Bool))
    (h : Alternates signal (reports.map Prod.fst) last) (hseen : seen = signal ↔ Even gap) :
    Alternates seen (received reports) last ↔ EvenGaps gap (reports.map Prod.snd) := by
  induction reports generalizing signal seen gap with
  | nil =>
    obtain rfl := h
    exact hseen
  | cons report reports ih =>
    obtain ⟨value, arrived⟩ := report
    obtain ⟨rfl, hrest⟩ := h
    cases arrived with
    | true =>
      have hnext := ih (!signal) (!signal) 0 hrest (by simp)
      have hhead : (!signal) = !seen ↔ Even gap := by
        rw [← hseen, Bool.not_inj_iff, eq_comm]
      show (!signal) = !seen ∧ Alternates (!signal) (received reports) last ↔ _
      rw [hnext, hhead]
      rfl
    | false =>
      apply ih (!signal) seen (gap + 1) hrest
      rw [Nat.even_add_one, ← hseen]
      cases seen <;> cases signal <;> simp

theorem evenGaps_iff (gap : ℕ) (arrivals : List Bool) :
    EvenGaps gap arrivals ↔
      ∃ first rest, arrivals.splitOn true = first :: rest ∧ Even (gap + first.length) ∧
        ∀ stretch ∈ rest, Even stretch.length := by
  induction arrivals generalizing gap with
  | nil => simp [EvenGaps]
  | cons arrival arrivals ih =>
    cases arrival with
    | true =>
      have hsplit : (true :: arrivals).splitOn true = [] :: arrivals.splitOn true :=
        List.splitOn_append_cons_self_of_not_mem List.not_mem_nil arrivals
      rw [EvenGaps, ih, hsplit]
      constructor
      · rintro ⟨hgap, first, rest, hrest, hfirst, hall⟩
        refine ⟨[], _, rfl, hgap, ?_⟩
        rw [hrest]
        intro stretch hstretch
        rcases List.mem_cons.mp hstretch with rfl | hin
        · rwa [Nat.zero_add] at hfirst
        · exact hall stretch hin
      · rintro ⟨first, rest, hcons, hfirst, hall⟩
        obtain ⟨rfl, rfl⟩ := List.cons.inj hcons
        obtain ⟨next, more, hnext⟩ := List.exists_cons_of_ne_nil (List.splitOn_ne_nil true arrivals)
        rw [hnext] at hall
        refine ⟨hfirst, next, more, hnext, ?_, fun s hs => hall s (List.mem_cons_of_mem _ hs)⟩
        rw [Nat.zero_add]
        exact hall next List.mem_cons_self
    | false =>
      obtain ⟨next, more, hnext⟩ := List.exists_cons_of_ne_nil (List.splitOn_ne_nil true arrivals)
      have hsplit : (false :: arrivals).splitOn true = (false :: next) :: more := by
        rw [List.splitOn_cons_eq_if_modifyHead, if_neg (by decide), hnext, List.modifyHead_cons]
      rw [EvenGaps, ih, hsplit, hnext]
      simp only [List.cons.injEq]
      constructor
      · rintro ⟨first, rest, ⟨rfl, rfl⟩, hfirst, hall⟩
        refine ⟨_, _, ⟨rfl, rfl⟩, ?_, hall⟩
        rwa [List.length_cons, Nat.add_comm next.length, ← Nat.add_assoc]
      · rintro ⟨first, rest, ⟨rfl, rfl⟩, hfirst, hall⟩
        refine ⟨_, _, ⟨rfl, rfl⟩, ?_, hall⟩
        rwa [List.length_cons, Nat.add_comm next.length, ← Nat.add_assoc] at hfirst

/-- From a low signal: the receiver sees the changes alternate and ends with the
value of the signal exactly when every stretch of losses is even. -/
theorem tracked_iff (last : Bool) (reports : List (Bool × Bool))
    (h : Alternates false (reports.map Prod.fst) last) :
    (latest false (received reports) = last ∧ Differing false (received reports)) ↔
      ∀ stretch ∈ (reports.map Prod.snd).splitOn true, Even stretch.length := by
  rw [← alternates_iff, received_iff false last false 0 reports h (by simp), evenGaps_iff]
  obtain ⟨first, rest, hsplit⟩ :=
    List.exists_cons_of_ne_nil (List.splitOn_ne_nil true (reports.map Prod.snd))
  simp [hsplit]

end Hnmos.Alternation
