import Mathlib
import Hnmos.Transition
import Hnmos.Workspace

/-!
# The node table and the draft buffer

The file system as it lies in memory: a table of nodes whose sizes are stored
beside their data pointers, and one buffer of 1024 bytes that the draft's node
points to. A write copies into the buffer before it looks the node up, and what
it copies may lie in the buffer itself. The files of the workspace are the
abstraction of this table.
-/

set_option autoImplicit false

namespace Hnmos.FileSystem
open Hnmos.CString Hnmos.Workspace Hnmos.Transition

abbrev Buffer := Vector UInt8 1024

inductive DataPointer where
  | null
  | constant (text : List UInt8)
  | workspaceMain
  deriving DecidableEq

structure Entry where
  name : List UInt8
  path : List UInt8
  type : NodeType
  size : UInt32
  data : DataPointer
  parent : Option (List UInt8)
  deriving DecidableEq

/-- A pointer to a string: to a text of its own or into the draft's buffer. -/
inductive Text where
  | text (bytes : List UInt8)
  | inDraft (offset : ℕ)

def Text.bytes (b : Buffer) : Text → List UInt8
  | .text bytes => bytes
  | .inDraft offset => b.toList.drop offset

def Text.at (b : Buffer) (t : Text) (i : ℕ) : UInt8 := (t.bytes b).getD i 0

def Text.chars (b : Buffer) (t : Text) : List UInt8 := cstr (t.bytes b)

def stringEqual : List UInt8 → List UInt8 → Bool
  | [], [] => true
  | a :: left, b :: right => a == b && stringEqual left right
  | _, _ => false

structure Ramfs where
  workspaceMain : Buffer
  entries : List Entry
  ready : Bool

def readonly : List Entry := [
  ⟨ascii "/", ascii "/", .directory, 0, .null, none⟩,
  ⟨ascii "system", ascii "/system", .directory, 0, .null, some (ascii "/")⟩,
  ⟨ascii "version", ascii "/system/version", .file, UInt32.ofNat version.length,
    .constant version, some (ascii "/system")⟩,
  ⟨ascii "info", ascii "/system/info", .file, UInt32.ofNat systemInfo.length,
    .constant systemInfo, some (ascii "/system")⟩,
  ⟨ascii "readme.txt", ascii "/readme.txt", .file, UInt32.ofNat readme.length,
    .constant readme, some (ascii "/")⟩,
  ⟨ascii "workspace", ascii "/workspace", .directory, 0, .null, some (ascii "/")⟩]

def mainEntry (size : UInt32) : Entry :=
  ⟨ascii "main.hn", mainPath, .file, size, .workspaceMain, some (ascii "/workspace")⟩

/-- The tables as the compiler lays them out. -/
def Ramfs.boot : Ramfs where
  workspaceMain := Vector.ofFn fun i => Workspace.workspaceMain.getD i 0
  entries := readonly ++ [mainEntry 0]
  ready := false

def DataPointer.chars (b : Buffer) : DataPointer → Option (List UInt8)
  | .null => none
  | .constant text => some text
  | .workspaceMain => some (cstr b.toList)

def Entry.node (b : Buffer) (e : Entry) : Node :=
  ⟨e.name, e.path, e.type, e.size, e.data.chars b, e.parent⟩

def Ramfs.nodes (s : Ramfs) : List Node := s.entries.map (Entry.node s.workspaceMain)

def Ramfs.init (s : Ramfs) : Ramfs where
  workspaceMain := s.workspaceMain
  entries := s.entries.map fun e =>
    if stringEqual e.path mainPath then
      { e with size := UInt32.ofNat (cstr s.workspaceMain.toList).length }
    else e
  ready := true

def targetPath (s : Ramfs) (path : Option Text) : List UInt8 :=
  match path with
  | none => ascii "/"
  | some path => target (path.chars s.workspaceMain)

def Ramfs.read (s : Ramfs) (path : Option Text) : Option Node :=
  if s.ready then
    (s.entries.find? fun e => stringEqual e.path (targetPath s path)).map
      (Entry.node s.workspaceMain)
  else none

/-- The copying loop at index `length`, with room for `room` more characters. -/
def copyInto (data : Text) : ℕ → ℕ → Buffer → ℕ × Buffer
  | 0, length, b => (length, b)
  | room + 1, length, b =>
    if data.at b length = 0 then (length, b)
    else copyInto data room (length + 1) (b.setIfInBounds length (data.at b length))

def setDraft (length : ℕ) : List Entry → Option (List Entry)
  | [] => none
  | e :: entries =>
    if stringEqual e.path mainPath then
      some ({ e with size := UInt32.ofNat length, data := .workspaceMain } :: entries)
    else (setDraft length entries).map fun entries => e :: entries

def Ramfs.writeWorkspaceHnlang (s : Ramfs) (path data : Option Text) : Bool × Ramfs :=
  match path, data with
  | some path, some data =>
    if s.ready = false ∨ stringEqual (path.chars s.workspaceMain) mainPath = false then (false, s)
    else
      let copied := copyInto data 1023 0 s.workspaceMain
      let buffer := copied.2.setIfInBounds copied.1 0
      match setDraft copied.1 s.entries with
      | some entries => (true, { s with workspaceMain := buffer, entries := entries })
      | none => (false, { s with workspaceMain := buffer })
  | _, _ => (false, s)

structure Vfs where
  ramfs : Ramfs
  ready : Bool

def Vfs.boot : Vfs := ⟨Ramfs.boot, false⟩

def Vfs.init (s : Vfs) : Vfs := ⟨s.ramfs.init, true⟩

def Vfs.nodes (s : Vfs) : List Node := s.ramfs.nodes

def Vfs.read (s : Vfs) (path : Option Text) : Option Node :=
  if s.ready then s.ramfs.read path else none

def decidePath (s : Ramfs) (capability : Capability) : Option Text → Decision
  | none => if policyDecide capability ≠ .allow then policyDecide capability else .deny
  | some path => policyDecidePath capability (path.chars s.workspaceMain)

def Vfs.writeHnlangDraft (s : Vfs) (path data : Option Text) : Bool × Vfs :=
  if s.ready = false ∨ data.isNone ∨ decidePath s.ramfs .writeHnlangDraft path ≠ .allow then
    (false, s)
  else
    let written := s.ramfs.writeWorkspaceHnlang path data
    (written.1, { s with ramfs := written.2 })

inductive FsCall where
  | init
  | writeHnlangDraft (path data : Option Text)

def step (s : Vfs) : FsCall → Vfs
  | .init => s.init
  | .writeHnlangDraft path data => (s.writeHnlangDraft path data).2

theorem stringEqual_iff (left right : List UInt8) :
    stringEqual left right = true ↔ left = right := by
  induction left generalizing right with
  | nil => cases right <;> simp [stringEqual]
  | cons a left ih => cases right <;> simp [stringEqual, ih]

theorem bytes_drop (data : Text) (b c : Buffer) (n : ℕ)
    (h : b.toList.drop n = c.toList.drop n) :
    (data.bytes b).drop n = (data.bytes c).drop n := by
  cases data with
  | text bytes => rfl
  | inDraft offset =>
    simp only [Text.bytes, List.drop_drop]
    have hmore := congrArg (List.drop offset) h
    simpa only [List.drop_drop, Nat.add_comm] using hmore

theorem at_eq_head (data : Text) (b : Buffer) (n : ℕ) :
    data.at b n = ((data.bytes b).drop n).headD 0 := by
  rw [Text.at, List.getD_eq_getElem?_getD, List.headD_eq_head?_getD, List.head?_drop]

/-- The loop copies what it would copy from an untouched source: a source in
the buffer is read at or above the cell that is written. -/
theorem copyInto_eq (data : Text) (source : Buffer) (room length : ℕ) (b : Buffer)
    (hroom : length + room < 1024) (h : b.toList.drop length = source.toList.drop length) :
    let copied := copyLoop room ((data.bytes source).drop length)
    (copyInto data room length b).1 = length + copied.length ∧
      (copyInto data room length b).2.toList =
        b.toList.take length ++ copied ++ b.toList.drop (length + copied.length) := by
  induction room generalizing length b with
  | zero => simp [copyInto, copyLoop]
  | succ room ih =>
    have hat : data.at b length = ((data.bytes source).drop length).headD 0 := by
      rw [at_eq_head, bytes_drop data b source length h]
    cases hrest : (data.bytes source).drop length with
    | nil =>
      rw [hrest, List.headD_nil] at hat
      simp [copyInto, hat, copyLoop]
    | cons c rest =>
      rw [hrest, List.headD_cons] at hat
      by_cases hc : c = 0
      · simp [copyInto, hat, copyLoop, hc]
      · have hnext : (data.bytes source).drop (length + 1) = rest := by
          rw [← List.drop_drop, hrest, List.drop_one, List.tail_cons]
        have hlength : length < b.toList.length := by
          rw [Vector.length_toList]
          omega
        have hset : (b.setIfInBounds length c).toList =
            b.toList.take length ++ c :: b.toList.drop (length + 1) := by
          rw [Vector.toList_setIfInBounds, List.set_eq_take_append_cons_drop, if_pos hlength]
        have hafter : (b.setIfInBounds length c).toList.drop (length + 1) =
            b.toList.drop (length + 1) := by
          rw [Vector.toList_setIfInBounds, List.drop_set_of_lt (Nat.lt_succ_self length)]
        have hsame : b.toList.drop (length + 1) = source.toList.drop (length + 1) := by
          rw [← List.drop_drop, h, List.drop_drop]
        obtain ⟨hfst, hsnd⟩ := ih (length + 1) (b.setIfInBounds length c) (by omega)
          (hafter.trans hsame)
        rw [hnext] at hfst hsnd
        simp only [copyInto, hat, if_neg hc, copyLoop, List.length_cons]
        refine ⟨by rw [hfst]; omega, ?_⟩
        have htake : (b.setIfInBounds length c).toList.take (length + 1) =
            b.toList.take length ++ [c] := by
          rw [hset, List.take_append, List.take_of_length_le (by simp), List.length_take,
            Nat.min_eq_left hlength.le]
          simp
        have hdrop : (b.setIfInBounds length c).toList.drop
            (length + 1 + (copyLoop room rest).length) =
              b.toList.drop (length + ((copyLoop room rest).length + 1)) := by
          rw [← List.drop_drop, hafter, List.drop_drop]
          congr 1
          omega
        rw [hsnd, htake, hdrop]
        simp

theorem copied_cstr (data : Text) (b : Buffer) :
    let copied := copyInto data 1023 0 b
    copied.1 = ((data.chars b).take 1023).length ∧
      cstr (copied.2.setIfInBounds copied.1 0).toList = (data.chars b).take 1023 := by
  obtain ⟨hfst, hsnd⟩ := copyInto_eq data b 1023 0 b (by decide) rfl
  rw [List.drop_zero, copyLoop_eq, List.take_zero, List.nil_append, Nat.zero_add] at hsnd
  rw [List.drop_zero, copyLoop_eq, Nat.zero_add] at hfst
  have hnul : 0 ∉ (cstr (data.bytes b)).take 1023 :=
    fun hin => cstr_noNul _ (List.mem_of_mem_take hin)
  have hle : ((cstr (data.bytes b)).take 1023).length ≤ 1023 := by
    rw [List.length_take]
    exact Nat.min_le_left _ _
  refine ⟨hfst, ?_⟩
  rw [Vector.toList_setIfInBounds, hsnd, hfst, Text.chars]
  generalize (cstr (data.bytes b)).take 1023 = kept at hnul hle ⊢
  have hlt : kept.length < b.toList.length := by
    rw [Vector.length_toList]
    omega
  have hcell : b.toList.drop kept.length =
      b.toList[kept.length] :: b.toList.drop (kept.length + 1) := List.drop_eq_getElem_cons hlt
  rw [hcell, List.set_append_right _ _ le_rfl, Nat.sub_self, List.set_cons_zero]
  exact cstr_of_noNul kept _ hnul

structure Represents (s : Vfs) (f : Files) : Prop where
  entries : s.ramfs.entries = readonly ++ [mainEntry (UInt32.ofNat f.draft.chars.length)]
  draft : cstr s.ramfs.workspaceMain.toList = f.draft.chars
  ramfsReady : s.ramfs.ready = true
  ready : s.ready = true
  filesReady : f.ready = true

def fileStep (s : Vfs) (f : Files) : FsCall → Bool × Files
  | .writeHnlangDraft (some path) (some data) =>
    f.writeHnlangDraft (path.chars s.ramfs.workspaceMain) (data.chars s.ramfs.workspaceMain)
  | _ => (false, f)

theorem readonly_other : ∀ e ∈ readonly, stringEqual e.path mainPath = false := by
  decide

theorem mainEntry_found (size : UInt32) : stringEqual (mainEntry size).path mainPath = true :=
  (stringEqual_iff _ _).mpr rfl

theorem readonly_nodes (b : Buffer) : readonly.map (Entry.node b) = builtin := rfl

theorem represents_nodes (s : Vfs) (f : Files) (h : Represents s f) : s.nodes = f.nodes := by
  rw [Vfs.nodes, Ramfs.nodes, h.entries, List.map_append, readonly_nodes, Files.nodes]
  simp only [List.map_cons, List.map_nil, mainEntry, Entry.node, DataPointer.chars, h.draft]

theorem setDraft_main (length : ℕ) (size : UInt32) :
    setDraft length (readonly ++ [mainEntry size]) =
      some (readonly ++ [mainEntry (UInt32.ofNat length)]) := by
  have hskip : ∀ entries : List Entry, (∀ e ∈ entries, stringEqual e.path mainPath = false) →
      setDraft length (entries ++ [mainEntry size]) =
        some (entries ++ [mainEntry (UInt32.ofNat length)]) := by
    intro entries hother
    induction entries with
    | nil => rw [List.nil_append, setDraft, if_pos (mainEntry_found size)]; rfl
    | cons e entries ih =>
      have hhead := hother e List.mem_cons_self
      rw [List.cons_append, setDraft, hhead, if_neg Bool.false_ne_true,
        ih fun d hd => hother d (List.mem_cons_of_mem e hd)]
      rfl
  exact hskip readonly readonly_other

theorem init_represents (s : Vfs) (size : UInt32) (f : Files)
    (hentries : s.ramfs.entries = readonly ++ [mainEntry size])
    (hdraft : cstr s.ramfs.workspaceMain.toList = f.draft.chars) (hf : f.ready = true) :
    Represents s.init f := by
  have hsame : (readonly.map fun e => if stringEqual e.path mainPath then
      { e with size := UInt32.ofNat (cstr s.ramfs.workspaceMain.toList).length } else e) =
        readonly := by
    rw [List.map_congr_left (g := id), List.map_id]
    intro e he
    rw [readonly_other e he]
    rfl
  refine ⟨?_, hdraft, rfl, rfl, hf⟩
  simp only [Vfs.init, Ramfs.init, hentries, List.map_append, hsame, List.map_cons, List.map_nil,
    mainEntry_found, if_true, ← hdraft]
  rfl

theorem writeWorkspace_represents (s : Vfs) (f : Files) (path data : Text)
    (h : Represents s f) :
    let written := s.ramfs.writeWorkspaceHnlang (some path) (some data)
    let filed := f.writeWorkspaceHnlang (path.chars s.ramfs.workspaceMain)
      (data.chars s.ramfs.workspaceMain)
    written.1 = filed.1 ∧ Represents { s with ramfs := written.2 } filed.2 := by
  by_cases hpath : path.chars s.ramfs.workspaceMain = mainPath
  · obtain ⟨hlength, hcstr⟩ := copied_cstr data s.ramfs.workspaceMain
    have hequal : stringEqual mainPath mainPath = true := (stringEqual_iff _ _).mpr rfl
    have hchars : (CText.copy (some (data.chars s.ramfs.workspaceMain)) : CText 1024).chars =
        (data.chars s.ramfs.workspaceMain).take 1023 := by
      show copyLoop 1023 (cstr (data.bytes s.ramfs.workspaceMain)) = _
      rw [copyLoop_eq, cstr_self _ (cstr_noNul _)]
      rfl
    simp only [Ramfs.writeWorkspaceHnlang, h.ramfsReady, hequal, h.entries, setDraft_main,
      Files.writeWorkspaceHnlang, h.filesReady, hpath, Bool.true_eq_false, ne_eq, not_true_eq_false,
      or_self, if_false, true_and]
    refine ⟨?_, ?_, rfl, h.ready, rfl⟩
    · rw [hchars, hlength]
    · rw [hchars]
      exact hcstr
  · have hequal : stringEqual (path.chars s.ramfs.workspaceMain) mainPath = false := by
      rw [Bool.eq_false_iff, Ne, stringEqual_iff]
      exact hpath
    simp only [Ramfs.writeWorkspaceHnlang, hequal, Files.writeWorkspaceHnlang, ne_eq, hpath,
      not_false_eq_true, or_true, if_true, true_and]
    exact h

theorem write_represents (s : Vfs) (f : Files) (path data : Option Text) (h : Represents s f) :
    let written := s.writeHnlangDraft path data
    let filed := fileStep s f (.writeHnlangDraft path data)
    written.1 = filed.1 ∧ Represents written.2 filed.2 := by
  cases path with
  | none =>
    have hdeny : decidePath s.ramfs .writeHnlangDraft none ≠ .allow := by
      simp [decidePath, policyDecide]
    rw [Vfs.writeHnlangDraft, if_pos (Or.inr (Or.inr hdeny))]
    exact ⟨rfl, h⟩
  | some path =>
    cases data with
    | none =>
      rw [Vfs.writeHnlangDraft, if_pos (Or.inr (Or.inl Option.isNone_none))]
      exact ⟨rfl, h⟩
    | some data =>
      by_cases hallow :
          policyDecidePath .writeHnlangDraft (path.chars s.ramfs.workspaceMain) = .allow
      · rw [Vfs.writeHnlangDraft, if_neg (by simp [h.ready, decidePath, hallow]), fileStep,
          Files.writeHnlangDraft, if_neg (by simp [h.filesReady, hallow])]
        exact writeWorkspace_represents s f path data h
      · have hdeny : decidePath s.ramfs .writeHnlangDraft (some path) ≠ .allow := hallow
        rw [Vfs.writeHnlangDraft, if_pos (Or.inr (Or.inr hdeny)), fileStep,
          Files.writeHnlangDraft, if_pos (Or.inr hallow)]
        exact ⟨rfl, h⟩

theorem step_represents (s : Vfs) (f : Files) (call : FsCall) (h : Represents s f) :
    Represents (step s call) (fileStep s f call).2 := by
  cases call with
  | init => exact init_represents s _ f h.entries h.draft h.filesReady
  | writeHnlangDraft path data => exact (write_represents s f path data h).2

theorem run_represents (s : Vfs) (f : Files) (calls : List FsCall) (h : Represents s f) :
    ∃ g, Represents (run step s calls) g := by
  induction calls generalizing s f with
  | nil => exact ⟨f, h⟩
  | cons call calls ih => exact ih _ _ (step_represents s f call h)

theorem filled_cstr (text : List UInt8) (hlength : text.length < 1024) (hnul : 0 ∉ text) :
    cstr (Vector.ofFn fun i : Fin 1024 => text.getD i 0).toList = text := by
  have hcells : (Vector.ofFn fun i : Fin 1024 => text.getD i 0).toList =
      text ++ List.replicate (1024 - text.length) 0 := by
    apply List.ext_getElem
    · rw [Vector.length_toList, List.length_append, List.length_replicate]
      omega
    · intro i hi hi'
      rw [Vector.getElem_toList, Vector.getElem_ofFn, List.getD_eq_getElem?_getD]
      show (text[i]?).getD 0 = _
      by_cases hin : i < text.length
      · rw [List.getElem_append_left hin, List.getElem?_eq_getElem hin, Option.getD_some]
      · rw [List.getElem_append_right (by omega), List.getElem_replicate,
          List.getElem?_eq_none (by omega), Option.getD_none]
  have hrest : 1024 - text.length = (1023 - text.length) + 1 := by omega
  rw [hcells, hrest, List.replicate_succ]
  exact cstr_of_noNul text _ hnul

theorem boot_represents : Represents Vfs.boot.init Files.init := by
  apply init_represents Vfs.boot 0 Files.init rfl ?_ rfl
  have hchars : Files.init.draft.chars = Workspace.workspaceMain := by decide
  rw [hchars]
  exact filled_cstr Workspace.workspaceMain (by decide) (by decide)

def draftNode (f : Files) : Node :=
  ⟨ascii "main.hn", mainPath, .file, UInt32.ofNat f.draft.chars.length, some f.draft.chars,
    some (ascii "/workspace")⟩

theorem builtin_other : ∀ node ∈ builtin, node.path ≠ mainPath := by
  decide

def pathChars (b : Buffer) (path : Option Text) : List UInt8 := (path.map (Text.chars b)).getD []

theorem targetPath_eq (s : Ramfs) (path : Option Text) :
    targetPath s path = target (pathChars s.workspaceMain path) := by
  cases path with
  | none => rfl
  | some path => rfl

theorem read_represents (s : Vfs) (f : Files) (path : Option Text) (h : Represents s f) :
    s.read path = f.read (pathChars s.ramfs.workspaceMain path) := by
  have hnodes := represents_nodes s f h
  rw [Vfs.nodes, Ramfs.nodes] at hnodes
  rw [Vfs.read, if_pos h.ready, Ramfs.read, if_pos h.ramfsReady, Files.read, if_pos h.filesReady,
    ← hnodes, targetPath_eq, List.find?_map]
  congr 2
  ext e
  rw [Function.comp_apply, Bool.eq_iff_iff, stringEqual_iff, beq_iff_eq]
  rfl

theorem draft_found (s : Vfs) (f : Files) (h : Represents s f) :
    s.read (some (.text mainPath)) = some (draftNode f) := by
  have htarget : target (cstr mainPath) = mainPath := by decide
  have hnone : builtin.find? (fun node => node.path == mainPath) = none := by
    rw [List.find?_eq_none]
    intro node hnode
    simpa using builtin_other node hnode
  have hlast : [draftNode f].find? (fun node => node.path == mainPath) = some (draftNode f) := by
    apply List.find?_cons_of_pos
    exact beq_self_eq_true mainPath
  rw [read_represents s f _ h]
  show f.read (cstr mainPath) = _
  rw [Files.read, if_pos h.filesReady, htarget]
  show (builtin ++ [draftNode f]).find? _ = _
  rw [List.find?_append, hnone, Option.none_or, hlast]

theorem refused_nodes (s : Vfs) (f : Files) (path data : Option Text) (h : Represents s f)
    (hrefused : (s.writeHnlangDraft path data).1 = false) :
    (s.writeHnlangDraft path data).2.nodes = s.nodes := by
  obtain ⟨hresult, hafter⟩ := write_represents s f path data h
  rw [hresult] at hrefused
  rw [represents_nodes _ _ hafter, represents_nodes s f h]
  have hsame : (fileStep s f (.writeHnlangDraft path data)).2 = f := by
    cases path with
    | none => rfl
    | some path =>
      cases data with
      | none => rfl
      | some data =>
        simp only [fileStep, Files.writeHnlangDraft, Files.writeWorkspaceHnlang] at hrefused ⊢
        split_ifs at hrefused ⊢ <;> rfl
  rw [hsame]

theorem accepted_allowed (s : Vfs) (path data : Option Text)
    (haccepted : (s.writeHnlangDraft path data).1 = true) :
    decidePath s.ramfs .writeHnlangDraft path = .allow := by
  by_contra hdenied
  rw [Vfs.writeHnlangDraft, if_pos (Or.inr (Or.inr hdenied))] at haccepted
  exact Bool.false_ne_true haccepted

/-- After every sequence of writes with any path and data: the other nodes are
as they were, a refused write leaves every node as it was, a write succeeds
only where the policy allows it, and the draft's node carries the length of its
data and is the node a read of its path returns. -/
theorem write_frame (calls : List FsCall) :
    let s := run step Vfs.boot.init calls
    (∀ (i : ℕ) (node : Node), Vfs.boot.init.nodes[i]? = some node → node.path ≠ mainPath →
      s.nodes[i]? = some node) ∧
    s.nodes.map Node.path = Vfs.boot.init.nodes.map Node.path ∧
    (∀ path data, (s.writeHnlangDraft path data).1 = false →
      (s.writeHnlangDraft path data).2.nodes = s.nodes) ∧
    (∀ path data, (s.writeHnlangDraft path data).1 = true →
      decidePath s.ramfs .writeHnlangDraft path = .allow) ∧
    ∃ node text, node ∈ s.nodes ∧ (∀ other ∈ s.nodes, other.path = mainPath ↔ other = node) ∧
      s.read (some (.text mainPath)) = some node ∧ node.data = some text ∧
      node.size.toNat = text.length ∧ text.length ≤ 1023 := by
  intro s
  obtain ⟨f, hs⟩ := run_represents _ _ calls boot_represents
  have hnodes : s.nodes = builtin ++ [draftNode f] := represents_nodes s f hs
  have hboot : Vfs.boot.init.nodes = builtin ++ [draftNode Files.init] :=
    represents_nodes _ _ boot_represents
  refine ⟨?_, ?_, fun path data => refused_nodes s f path data hs,
    fun path data => accepted_allowed s path data, draftNode f, f.draft.chars, ?_, ?_,
    draft_found s f hs, rfl, ?_, Nat.lt_succ_iff.mp f.draft.fits⟩
  · intro i node hi hother
    rw [hboot] at hi
    rw [hnodes]
    rcases Nat.lt_or_ge i builtin.length with hlt | hge
    · rw [List.getElem?_append_left hlt] at hi ⊢
      exact hi
    · rw [List.getElem?_append_right hge] at hi
      have hnode := List.mem_singleton.mp (List.mem_of_getElem? hi)
      exact absurd (congrArg Node.path hnode) hother
  · rw [hnodes, hboot, List.map_append, List.map_append]
    rfl
  · rw [hnodes]
    exact List.mem_append_right _ List.mem_cons_self
  · intro other hmem
    rw [hnodes] at hmem
    constructor
    · intro hpath
      rcases List.mem_append.mp hmem with hin | hlast
      · exact absurd hpath (builtin_other other hin)
      · exact List.mem_singleton.mp hlast
    · rintro rfl
      rfl
  · show (UInt32.ofNat f.draft.chars.length).toNat = _
    have hfits := f.draft.fits
    exact UInt32.toNat_ofNat_of_lt' (by change f.draft.chars.length < 2 ^ 32; omega)

/-- A write stores all of its data, or is refused and keeps every node. The
path and the data are what the pointers led to when the write was called. -/
structure Whole (s : Vfs) (path data : Text) : Prop where
  stored : (s.writeHnlangDraft (some path) (some data)).1 = true →
    ∃ node, (s.writeHnlangDraft (some path) (some data)).2.read
        (some (.text (path.chars s.ramfs.workspaceMain))) = some node ∧
      node.data = some (data.chars s.ramfs.workspaceMain)
  refused : 1023 < (data.chars s.ramfs.workspaceMain).length →
    (s.writeHnlangDraft (some path) (some data)).1 = false ∧
      (s.writeHnlangDraft (some path) (some data)).2.nodes = s.nodes

theorem writeDraft_other (f : Files) (path data : List UInt8) (h : path ≠ mainPath) :
    f.writeHnlangDraft path data = (false, f) := by
  rw [Files.writeHnlangDraft]
  by_cases hrefused : f.ready = false ∨ policyDecidePath .writeHnlangDraft path ≠ .allow
  · rw [if_pos hrefused]
  · rw [if_neg hrefused, Files.writeWorkspaceHnlang, if_pos (Or.inr h)]

theorem writeDraft_main (f : Files) (data : List UInt8) (h : f.ready = true) (hnul : 0 ∉ data) :
    (f.writeHnlangDraft mainPath data).1 = true ∧
      (f.writeHnlangDraft mainPath data).2.draft.chars = data.take 1023 := by
  have hallow : ¬ (f.ready = false ∨ policyDecidePath .writeHnlangDraft mainPath ≠ .allow) := by
    simp [h, draft_allowed]
  have hmain : ¬ (f.ready = false ∨ mainPath ≠ mainPath) := by simp [h]
  rw [Files.writeHnlangDraft, if_neg hallow, Files.writeWorkspaceHnlang, if_neg hmain]
  refine ⟨rfl, ?_⟩
  show copyLoop 1023 data = data.take 1023
  rw [copyLoop_eq, cstr_self data hnul]

theorem whole_iff (s : Vfs) (f : Files) (path data : Text) (h : Represents s f) :
    Whole s path data ↔ (path.chars s.ramfs.workspaceMain = mainPath →
      (data.chars s.ramfs.workspaceMain).length ≤ 1023) := by
  obtain ⟨hresult, hafter⟩ := write_represents s f (some path) (some data) h
  have hnul : 0 ∉ data.chars s.ramfs.workspaceMain := cstr_noNul _
  rw [fileStep] at hresult hafter
  by_cases hpath : path.chars s.ramfs.workspaceMain = mainPath
  · obtain ⟨haccepted, hchars⟩ := writeDraft_main f _ h.filesReady hnul
    rw [hpath] at hresult hafter
    rw [haccepted] at hresult
    constructor
    · intro hwhole _
      by_contra hlong
      have hfalse := (hwhole.refused (Nat.lt_of_not_le hlong)).1
      exact Bool.false_ne_true (hfalse.symm.trans hresult)
    · intro hshort
      have hfits := hshort hpath
      constructor
      · intro _
        rw [List.take_of_length_le hfits] at hchars
        rw [hpath]
        exact ⟨_, draft_found _ _ hafter, congrArg some hchars⟩
      · intro hlong
        exact absurd hfits (Nat.not_le.mpr hlong)
  · rw [writeDraft_other f _ _ hpath] at hresult
    constructor
    · intro _ hmain
      exact absurd hmain hpath
    · intro _
      constructor
      · intro haccepted
        exact absurd (hresult.symm.trans haccepted) Bool.false_ne_true
      · intro _
        exact ⟨hresult, refused_nodes s f _ _ h hresult⟩

theorem idle_write (s : Vfs) (path data : Option Text) (h : s.ready = false) :
    s.writeHnlangDraft path data = (false, s) := by
  rw [Vfs.writeHnlangDraft, if_pos (Or.inl h)]

theorem reached (calls : List FsCall) :
    run step Vfs.boot calls = Vfs.boot ∨ ∃ f, Represents (run step Vfs.boot calls) f := by
  apply run_invariant_all step (fun s => s = Vfs.boot ∨ ∃ f, Represents s f)
  · rintro s call (rfl | ⟨f, h⟩)
    · cases call with
      | init => exact Or.inr ⟨_, boot_represents⟩
      | writeHnlangDraft path data =>
        left
        rw [step, idle_write Vfs.boot path data rfl]
    · exact Or.inr ⟨_, step_represents s f call h⟩
  · exact Or.inl rfl

/-- After any calls, a write stores all of its data or is refused exactly when
it is not a write of more than 1023 characters to the draft. -/
theorem draft_whole_iff (calls : List FsCall) (path data : Text) :
    let s := run step Vfs.boot calls
    Whole s path data ↔ (s.ready = true → path.chars s.ramfs.workspaceMain = mainPath →
      (data.chars s.ramfs.workspaceMain).length ≤ 1023) := by
  intro s
  rcases reached calls with hboot | ⟨f, hs⟩
  · have hidle : s.ready = false := congrArg Vfs.ready hboot
    have hwrite := idle_write s (some path) (some data) hidle
    constructor
    · intro _ hready
      exact absurd (hidle.symm.trans hready) Bool.false_ne_true
    · intro _
      constructor
      · intro haccepted
        rw [hwrite] at haccepted
        exact absurd haccepted Bool.false_ne_true
      · intro _
        rw [hwrite]
        exact ⟨rfl, rfl⟩
  · rw [whole_iff s f path data hs]
    constructor
    · intro h _
      exact h
    · intro h
      exact h hs.ready

/-- One character more than the buffer holds is cut off without notice. -/
theorem draft_cut :
    ¬ Whole (run step Vfs.boot [.init]) (.text mainPath) (.text (List.replicate 1024 65)) := by
  have hpath : cstr mainPath = mainPath := by decide
  have hdata : cstr (List.replicate 1024 65) = List.replicate 1024 (65 : UInt8) := by
    apply cstr_self
    intro hnul
    exact absurd (List.eq_of_mem_replicate hnul) (by decide)
  intro hwhole
  have hshort := (whole_iff _ _ _ _ boot_represents).mp hwhole hpath
  have hlong : (cstr (List.replicate 1024 (65 : UInt8))).length ≤ 1023 := hshort
  rw [hdata, List.length_replicate] at hlong
  omega

end Hnmos.FileSystem
