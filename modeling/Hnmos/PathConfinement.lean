import Mathlib
import Hnmos.PathResolution
import Hnmos.Workspace

/-!
# Allowed paths stay in the workspace

The policy looks at characters only: the front `/workspace/`, two dots in a row
anywhere, the end `.hn`. Resolved component by component, a path it allows
enters the workspace first and never leaves it.
-/

set_option autoImplicit false

namespace Hnmos.PathConfinement
open Hnmos.CString Hnmos.Workspace Hnmos.PathResolution

theorem containsParentReference_iff (path : List UInt8) :
    containsParentReference path = true ↔ [46, 46] <:+: path := by
  induction path with
  | nil => simp [containsParentReference]
  | cons a path ih =>
    cases path with
    | nil => simp [containsParentReference, List.infix_cons_iff]
    | cons b path =>
      have hfront : [46, 46] <+: a :: b :: path ↔ a = 46 ∧ b = 46 := by
        rw [List.cons_prefix_cons, List.cons_prefix_cons, eq_comm, eq_comm (b := b)]
        simp only [List.nil_prefix, and_true]
      rw [containsParentReference, Bool.or_eq_true, ih, List.infix_cons_iff (a := a),
        hfront, Bool.and_eq_true, beq_iff_eq, beq_iff_eq]

theorem hasPrefix_workspace (path : List UInt8) (h : hasPrefix path (ascii "/workspace/") = true) :
    ∃ rest, components 47 46 path = ascii "workspace" :: rest := by
  obtain ⟨rest, hrest⟩ := List.isPrefixOf_iff_prefix.mp h
  have hpath : path = [] ++ 47 :: (ascii "workspace" ++ 47 :: rest) := by
    rw [← hrest]
    rfl
  refine ⟨components 47 46 rest, ?_⟩
  rw [components, hpath, List.splitOn_append_cons_self_of_not_mem List.not_mem_nil,
    List.splitOn_append_cons_self_of_not_mem (by decide)]
  rfl

theorem allowed (capability : Capability) (path : List UInt8)
    (h : policyDecidePath capability path = .allow) :
    hasPrefix path (ascii "/workspace/") = true ∧ containsParentReference path = false ∧
      (capability = .writeHnlangDraft → hasHnlangSuffix path = true) := by
  rw [policyDecidePath] at h
  split_ifs at h with hbase hplace hsuffix
  · exact absurd h hbase
  · push Not at hplace
    refine ⟨by simpa using hplace.1, by simpa using hplace.2, ?_⟩
    intro hcapability
    by_contra hno
    exact hsuffix ⟨hcapability, by simpa using hno⟩

/-- A path the policy allows, for any capability, enters the workspace with its
first component and stays there; to write a draft it ends in `.hn` as well. -/
theorem path_confined (capability : Capability) (path : List UInt8)
    (h : policyDecidePath capability path = .allow) :
    (locations 47 46 path).tail ≠ [] ∧
      (∀ location ∈ (locations 47 46 path).tail, [ascii "workspace"] <+: location) ∧
      (capability = .writeHnlangDraft → ascii ".hn" <:+ path) := by
  obtain ⟨hfront, hdots, hsuffix⟩ := allowed capability path h
  obtain ⟨rest, hrest⟩ := hasPrefix_workspace path hfront
  refine ⟨?_, ?_, ?_⟩
  · rw [locations, hrest, List.scanl_cons, List.tail_cons]
    exact List.scanl_ne_nil
  · apply locations_below 47 46 path _ rest hrest
    rw [← containsParentReference_iff, hdots]
    exact Bool.false_ne_true
  · intro hcapability
    exact List.isSuffixOf_iff_suffix.mp (hsuffix hcapability)

theorem path_confined_dots :
    policyDecidePath .writeHnlangDraft (ascii "/workspace//./a.b/.hn") = .allow ∧
      (locations 47 46 (ascii "/workspace//./a.b/.hn")).tail =
        [[ascii "workspace"], [ascii "workspace", ascii "a.b"],
          [ascii "workspace", ascii "a.b", ascii ".hn"]] ∧
      ∀ location ∈ (locations 47 46 (ascii "/workspace//./a.b/.hn")).tail,
        [ascii "workspace"] <+: location :=
  ⟨by decide, by decide,
    (path_confined .writeHnlangDraft _ (by decide)).2.1⟩

end Hnmos.PathConfinement
