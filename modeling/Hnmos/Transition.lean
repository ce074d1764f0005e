import Mathlib

/-!
# Runs of deterministic machines

A machine is a step function on a state and an input; a run is its fold over
the input list. `Along P` says that every step of a run satisfies `P`. The
rules turn facts about one step into facts about whole runs: an invariant, an
invariant under a side condition on the inputs, the list of what the steps
produce, and a relation between two runs.
-/

set_option autoImplicit false

namespace Hnmos.Transition

variable {σ ε φ : Type*}

def run (step : σ → ε → σ) (s : σ) (es : List ε) : σ := es.foldl step s

@[simp] theorem run_nil (step : σ → ε → σ) (s : σ) : run step s [] = s := rfl

@[simp] theorem run_cons (step : σ → ε → σ) (s : σ) (e : ε) (es : List ε) :
    run step s (e :: es) = run step (step s e) es := rfl

theorem run_append (step : σ → ε → σ) (s : σ) (es fs : List ε) :
    run step s (es ++ fs) = run step (run step s es) fs := List.foldl_append

theorem run_concat (step : σ → ε → σ) (s : σ) (es : List ε) (e : ε) :
    run step s (es ++ [e]) = step (run step s es) e := run_append step s es [e]

def Along (step : σ → ε → σ) (P : σ → ε → Prop) : σ → List ε → Prop
  | _, [] => True
  | s, e :: es => P s e ∧ Along step P (step s e) es

theorem along_append (step : σ → ε → σ) (P : σ → ε → Prop) (s : σ) (es fs : List ε) :
    Along step P s (es ++ fs) ↔ Along step P s es ∧ Along step P (run step s es) fs := by
  induction es generalizing s with
  | nil => simp [Along]
  | cons e es ih => simp [Along, ih, and_assoc]

theorem along_and (step : σ → ε → σ) (P Q : σ → ε → Prop) (s : σ) (es : List ε) :
    Along step (fun s e => P s e ∧ Q s e) s es ↔ Along step P s es ∧ Along step Q s es := by
  induction es generalizing s with
  | nil => simp [Along]
  | cons e es ih => simp only [Along, ih, and_and_and_comm]

/-- An invariant whose step needs a side condition holds after every run
whose steps all meet the condition. -/
theorem run_invariant (step : σ → ε → σ) (P : σ → ε → Prop) (I : σ → Prop)
    (hstep : ∀ s e, I s → P s e → I (step s e)) (s : σ) (es : List ε)
    (hs : I s) (hp : Along step P s es) : I (run step s es) := by
  induction es generalizing s with
  | nil => exact hs
  | cons e es ih => exact ih _ (hstep s e hs hp.1) hp.2

theorem run_back (step : σ → ε → σ) (B : σ → Prop) (hback : ∀ s e, B (step s e) → B s)
    (s : σ) (es : List ε) (hb : B (run step s es)) : B s := by
  induction es generalizing s with
  | nil => exact hb
  | cons e es ih => exact hback s e (ih _ hb)

/-- An invariant that needs a bound which only later states can break: it is
enough that the last state meets the bound. -/
theorem run_invariant_until (step : σ → ε → σ) (P : ε → Prop) (B I : σ → Prop)
    (hback : ∀ s e, B (step s e) → B s)
    (hstep : ∀ s e, I s → P e → B (step s e) → I (step s e)) (s : σ) (es : List ε)
    (hs : I s) (hp : ∀ e ∈ es, P e) (hb : B (run step s es)) : I (run step s es) := by
  induction es generalizing s with
  | nil => exact hs
  | cons e es ih =>
    have hnext := hstep s e hs (hp e List.mem_cons_self) (run_back step B hback _ es hb)
    exact ih _ hnext (fun f hf => hp f (List.mem_cons_of_mem _ hf)) hb

theorem along_of_invariant (step : σ → ε → σ) (P Q : σ → ε → Prop) (I : σ → Prop)
    (hstep : ∀ s e, I s → P s e → I (step s e)) (hq : ∀ s e, I s → P s e → Q s e)
    (s : σ) (es : List ε) (hs : I s) (hp : Along step P s es) : Along step Q s es := by
  induction es generalizing s with
  | nil => trivial
  | cons e es ih => exact ⟨hq s e hs hp.1, ih _ (hstep s e hs hp.1) hp.2⟩

theorem run_invariant_all (step : σ → ε → σ) (I : σ → Prop)
    (hstep : ∀ s e, I s → I (step s e)) (s : σ) (es : List ε) (hs : I s) :
    I (run step s es) := by
  induction es generalizing s with
  | nil => exact hs
  | cons e es ih => exact ih _ (hstep s e hs)

/-- A property that each step keeps exactly under a condition holds in every
state of a run exactly when every step meets the condition. -/
theorem always_iff (step : σ → ε → σ) (I P : σ → Prop) (C : σ → ε → Prop)
    (hinv : ∀ s e, I s → I (step s e)) (hstep : ∀ s e, I s → P s → (P (step s e) ↔ C s e))
    (s : σ) (es : List ε) (hi : I s) (hp : P s) :
    (∀ front, front <+: es → P (run step s front)) ↔ Along step C s es := by
  induction es generalizing s with
  | nil =>
    constructor
    · intro _
      trivial
    · intro _ front hfront
      rw [List.prefix_nil.mp hfront]
      exact hp
  | cons e es ih =>
    constructor
    · intro h
      have hnext : P (step s e) := h [e] ⟨es, rfl⟩
      refine ⟨(hstep s e hi hp).mp hnext, (ih _ (hinv s e hi) hnext).mp ?_⟩
      intro front hfront
      exact h (e :: front) (List.cons_prefix_cons.mpr ⟨rfl, hfront⟩)
    · intro h front hfront
      have hnext := (hstep s e hi hp).mpr h.1
      cases front with
      | nil => exact hp
      | cons f front =>
        obtain ⟨rfl, hrest⟩ := List.cons_prefix_cons.mp hfront
        exact (ih _ (hinv s f hi) hnext).mpr h.2 front hrest

/-- What a run produces when each step produces a list, in the order of the
steps. -/
def translate (step : σ → ε → σ) (tr : σ → ε → List φ) : σ → List ε → List φ
  | _, [] => []
  | s, e :: es => tr s e ++ translate step tr (step s e) es

@[simp] theorem translate_nil (step : σ → ε → σ) (tr : σ → ε → List φ) (s : σ) :
    translate step tr s [] = [] := rfl

@[simp] theorem translate_cons (step : σ → ε → σ) (tr : σ → ε → List φ) (s : σ) (e : ε)
    (es : List ε) :
    translate step tr s (e :: es) = tr s e ++ translate step tr (step s e) es := rfl

theorem translate_append (step : σ → ε → σ) (tr : σ → ε → List φ) (s : σ) (es fs : List ε) :
    translate step tr s (es ++ fs) =
      translate step tr s es ++ translate step tr (run step s es) fs := by
  induction es generalizing s with
  | nil => rfl
  | cons e es ih => simp [translate, ih]

/-- Two input lists related step by step, where the relation between two
inputs may depend on the state the first run has reached. -/
inductive Matched (step : σ → ε → σ) (E : σ → ε → ε → Prop) : σ → List ε → List ε → Prop
  | nil (s : σ) : Matched step E s [] []
  | cons {s : σ} {e f : ε} {es fs : List ε} (head : E s e f)
      (tail : Matched step E (step s e) es fs) : Matched step E s (e :: es) (f :: fs)

/-- The two-run rule: a relation kept by every pair of matched inputs holds
between the final states of two matched runs. -/
theorem run_related (step : σ → ε → σ) (E : σ → ε → ε → Prop) (R : σ → σ → Prop)
    (hstep : ∀ s t e f, R s t → E s e f → R (step s e) (step t f))
    (s t : σ) (es fs : List ε) (hr : R s t) (hm : Matched step E s es fs) :
    R (run step s es) (run step t fs) := by
  induction hm generalizing t with
  | nil s => exact hr
  | cons head tail ih => exact ih _ (hstep _ _ _ _ hr head)

theorem matched_refl (step : σ → ε → σ) (E : σ → ε → ε → Prop) (hrefl : ∀ s e, E s e e) (s : σ)
    (es : List ε) : Matched step E s es es := by
  induction es generalizing s with
  | nil => exact Matched.nil s
  | cons e es ih => exact Matched.cons (hrefl s e) (ih _)

theorem matched_append (step : σ → ε → σ) (E : σ → ε → ε → Prop) (s : σ) (es fs es' fs' : List ε)
    (hm : Matched step E s es fs) (hm' : Matched step E (run step s es) es' fs') :
    Matched step E s (es ++ es') (fs ++ fs') := by
  induction hm with
  | nil s => exact hm'
  | cons head tail ih => exact Matched.cons head (ih hm')

theorem matched_take (step : σ → ε → σ) (E : σ → ε → ε → Prop) (s : σ)
    (es fs : List ε) (hm : Matched step E s es fs) (k : ℕ) :
    Matched step E s (es.take k) (fs.take k) := by
  induction hm generalizing k with
  | nil s => simpa using Matched.nil s
  | cons head tail ih =>
    cases k with
    | zero => exact Matched.nil _
    | succ k => exact Matched.cons head (ih k)

end Hnmos.Transition
