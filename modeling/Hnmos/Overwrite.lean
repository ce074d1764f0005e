import Mathlib

/-!
# Writes into a store

A store maps addresses to values. Three kinds of writes compose: a blind write
puts values that do not depend on the store, a confined write stays within a
set of addresses, and a restoring write puts the values of an earlier store
back on a set. A confined write that is restored on its set leaves no trace,
and a blind write in between survives exactly outside that set.
-/

set_option autoImplicit false

namespace Hnmos.Overwrite

variable {α β ι : Type*}

def Blind (f : (α → β) → α → β) : Prop :=
  ∀ a, (∀ m, f m a = m a) ∨ ∃ value, ∀ m, f m a = value

def Confined (S : Set α) (f : (α → β) → α → β) : Prop := ∀ m, ∀ a ∉ S, f m a = m a

structure Restores (S : Set α) (old : α → β) (f : (α → β) → α → β) : Prop where
  inside : ∀ m, ∀ a ∈ S, f m a = old a
  outside : Confined S f

theorem blind_id : Blind fun m : α → β => m := fun _ => .inl fun _ => rfl

theorem blind_comp (f g : (α → β) → α → β) (hf : Blind f) (hg : Blind g) :
    Blind fun m => g (f m) := by
  intro a
  rcases hg a with hkeep | ⟨value, hvalue⟩
  · rcases hf a with hsame | ⟨value, hvalue⟩
    · exact .inl fun m => (hkeep (f m)).trans (hsame m)
    · exact .inr ⟨value, fun m => (hkeep (f m)).trans (hvalue m)⟩
  · exact .inr ⟨value, fun m => hvalue (f m)⟩

theorem blind_foldl (f : (α → β) → ι → α → β) (is : List ι)
    (h : ∀ i ∈ is, Blind fun m => f m i) : Blind fun m => is.foldl f m := by
  induction is with
  | nil => exact blind_id
  | cons i is ih =>
    have hhead := h i List.mem_cons_self
    exact blind_comp _ _ hhead (ih fun j hj => h j (List.mem_cons_of_mem i hj))

theorem blind_update [DecidableEq α] (address : α) (value : β) :
    Blind fun m => Function.update m address value := by
  intro a
  by_cases ha : a = address
  · subst ha
    exact .inr ⟨value, fun m => Function.update_self a value m⟩
  · exact .inl fun m => Function.update_of_ne ha value m

theorem confined_id (S : Set α) : Confined S fun m : α → β => m := fun _ _ _ => rfl

theorem confined_mono (S T : Set α) (f : (α → β) → α → β) (hsub : S ⊆ T) (h : Confined S f) :
    Confined T f := fun m a ha => h m a fun hin => ha (hsub hin)

theorem confined_comp (S : Set α) (f g : (α → β) → α → β) (hf : Confined S f)
    (hg : Confined S g) : Confined S fun m => g (f m) :=
  fun m a ha => (hg (f m) a ha).trans (hf m a ha)

theorem confined_foldl (S : Set α) (f : (α → β) → ι → α → β) (is : List ι)
    (h : ∀ i ∈ is, Confined S fun m => f m i) : Confined S fun m => is.foldl f m := by
  induction is with
  | nil => exact confined_id S
  | cons i is ih =>
    have hhead := h i List.mem_cons_self
    exact confined_comp S _ _ hhead (ih fun j hj => h j (List.mem_cons_of_mem i hj))

theorem confined_update [DecidableEq α] (S : Set α) (address : α) (value : β)
    (h : address ∈ S) : Confined S fun m => Function.update m address value := by
  intro m a ha
  apply Function.update_of_ne
  rintro rfl
  exact ha h

theorem restores_id (old : α → β) : Restores ∅ old fun m => m :=
  ⟨fun _ _ ha => absurd ha (Set.notMem_empty _), confined_id ∅⟩

theorem restores_comp (S T : Set α) (old : α → β) (f g : (α → β) → α → β)
    (hf : Restores S old f) (hg : Restores T old g) :
    Restores (S ∪ T) old fun m => g (f m) where
  inside := by
    intro m a ha
    by_cases hT : a ∈ T
    · exact hg.inside (f m) a hT
    · have hS : a ∈ S := ha.resolve_right hT
      exact (hg.outside (f m) a hT).trans (hf.inside m a hS)
  outside := by
    intro m a ha
    rw [Set.mem_union, not_or] at ha
    exact (hg.outside (f m) a ha.2).trans (hf.outside m a ha.1)

theorem restores_foldl (S : ι → Set α) (old : α → β) (f : (α → β) → ι → α → β) (is : List ι)
    (h : ∀ i ∈ is, Restores (S i) old fun m => f m i) :
    Restores {a | ∃ i ∈ is, a ∈ S i} old fun m => is.foldl f m := by
  induction is with
  | nil =>
    have hnone : {a | ∃ i ∈ ([] : List ι), a ∈ S i} = ∅ := by simp
    rw [hnone]
    exact restores_id old
  | cons i is ih =>
    have hunion : {a | ∃ j ∈ i :: is, a ∈ S j} = S i ∪ {a | ∃ j ∈ is, a ∈ S j} := by
      ext a
      simp
    rw [hunion]
    exact restores_comp _ _ old _ _ (h i List.mem_cons_self)
      (ih fun j hj => h j (List.mem_cons_of_mem i hj))

theorem restores_update [DecidableEq α] (old : α → β) (address : α) :
    Restores {address} old fun m => Function.update m address (old address) where
  inside := by
    rintro m a rfl
    exact Function.update_self a (old a) m
  outside := confined_update _ address _ rfl

section
variable [DecidableEq α] (dst src : ι → α) (m : α → β)

/-- Copy value after value, each read when its turn comes. -/
def copy (is : List ι) : α → β :=
  is.foldl (fun m i => Function.update m (dst i) (m (src i))) m

theorem copy_snoc (is : List ι) (i : ι) :
    copy dst src m (is ++ [i]) =
      Function.update (copy dst src m is) (dst i) (copy dst src m is (src i)) :=
  List.foldl_concat ..

theorem copy_outside (is : List ι) (a : α) (h : ∀ i ∈ is, dst i ≠ a) :
    copy dst src m is a = m a := by
  induction is using List.reverseRecOn with
  | nil => rfl
  | append_singleton is i ih =>
    have hlast := h i (List.mem_append_right _ List.mem_cons_self)
    rw [copy_snoc, Function.update_of_ne hlast.symm]
    exact ih fun j hj => h j (List.mem_append_left _ hj)

/-- When no later value is read or written where an earlier one went, every
value arrives as it was before the loop. -/
theorem copy_inside (is : List ι) (h : is.Pairwise fun i j => dst i ≠ dst j ∧ dst i ≠ src j)
    (i : ι) (hi : i ∈ is) : copy dst src m is (dst i) = m (src i) := by
  induction is using List.reverseRecOn with
  | nil => exact absurd hi List.not_mem_nil
  | append_singleton is last ih =>
    obtain ⟨hfront, _, hlast⟩ := List.pairwise_append.mp h
    rw [copy_snoc]
    rcases List.mem_append.mp hi with hin | hend
    · rw [Function.update_of_ne (hlast i hin last List.mem_cons_self).1]
      exact ih hfront hin
    · obtain rfl := List.mem_singleton.mp hend
      rw [Function.update_self]
      exact copy_outside dst src m is _ fun j hj => (hlast j hj i List.mem_cons_self).2

end

/-- What is drawn over a mark survives its removal exactly when it leaves the
marked addresses alone. -/
theorem restored_drawn_iff (S : Set α) (m : α → β) (mark draw restore : (α → β) → α → β)
    (hmark : Confined S mark) (hdraw : Blind draw) (hrestore : Restores S m restore) :
    restore (draw (mark m)) = draw m ↔ ∀ a ∈ S, draw m a = m a := by
  constructor
  · intro heq a ha
    rw [← heq]
    exact hrestore.inside _ a ha
  · intro hsame
    ext a
    by_cases ha : a ∈ S
    · exact (hrestore.inside _ a ha).trans (hsame a ha).symm
    · rw [hrestore.outside _ a ha]
      rcases hdraw a with hkeep | ⟨value, hvalue⟩
      · rw [hkeep, hkeep]
        exact hmark m a ha
      · rw [hvalue, hvalue]

end Hnmos.Overwrite
