import Mathlib
import Hnmos.CString

/-!
# The workspace and its policy

The file system is a fixed table of nodes. Only the draft in the workspace
can be written, through a policy that looks at the path; a write keeps at
most 1023 characters. What was stored is recorded beside the contents.
-/

set_option autoImplicit false

namespace Hnmos.Workspace
open Hnmos.CString

inductive Capability where
  | readWorkspace | writeHnlangDraft | readBuildLog | runWorkspaceBuild | useProviderNetwork
  | modifySystem | writeKernel | writeBoot | changePolicy | controlDriver | changeAuditLog
  deriving DecidableEq

inductive Decision where
  | deny | requireApproval | allow
  deriving DecidableEq

def hasPrefix (text front : List UInt8) : Bool := front.isPrefixOf text

def containsParentReference : List UInt8 → Bool
  | a :: b :: path => (a == 46 && b == 46) || containsParentReference (b :: path)
  | _ => false

def hasHnlangSuffix (path : List UInt8) : Bool := (ascii ".hn").isSuffixOf path

def policyDecide : Capability → Decision
  | .readWorkspace | .writeHnlangDraft | .readBuildLog => .allow
  | .runWorkspaceBuild | .useProviderNetwork => .requireApproval
  | _ => .deny

def policyDecidePath (capability : Capability) (path : List UInt8) : Decision :=
  if policyDecide capability ≠ .allow then policyDecide capability
  else if hasPrefix path (ascii "/workspace/") = false ∨ containsParentReference path = true then
    .deny
  else if capability = .writeHnlangDraft ∧ hasHnlangSuffix path = false then .deny
  else .allow

inductive NodeType where
  | directory | file
  deriving DecidableEq

def NodeType.name : NodeType → List UInt8
  | .directory => ascii "dir"
  | .file => ascii "file"

structure Node where
  name : List UInt8
  path : List UInt8
  type : NodeType
  size : UInt32
  data : Option (List UInt8)
  parent : Option (List UInt8)
  deriving DecidableEq

def mainPath : List UInt8 := ascii "/workspace/main.hn"

def version : List UInt8 :=
  ascii ("HNMos Kernel 01\n" ++ "Version: v0.10 filesystem foundation\n" ++
    "Storage: readonly kernel ramfs\n")

def systemInfo : List UInt8 :=
  ascii ("Graphics: framebuffer launcher online\n" ++ "Input: keyboard mouse event queue\n" ++
    "Memory: PMM and early heap online\n" ++
    "Filesystem: readonly system + writable HNLang workspace RAMFS\n")

def readme : List UInt8 :=
  ascii ("Welcome to HNMos.\n" ++ "This is the first built in readonly RAM filesystem.\n" ++
    "Use ls and cat from the graphical terminal.\n")

def workspaceMain : List UInt8 :=
  ascii ("# AI Studio workspace draft\n" ++ "print \"Ready for provider response\"\n")

def builtin : List Node := [
  ⟨ascii "/", ascii "/", .directory, 0, none, none⟩,
  ⟨ascii "system", ascii "/system", .directory, 0, none, some (ascii "/")⟩,
  ⟨ascii "version", ascii "/system/version", .file, UInt32.ofNat version.length, some version,
    some (ascii "/system")⟩,
  ⟨ascii "info", ascii "/system/info", .file, UInt32.ofNat systemInfo.length, some systemInfo,
    some (ascii "/system")⟩,
  ⟨ascii "readme.txt", ascii "/readme.txt", .file, UInt32.ofNat readme.length, some readme,
    some (ascii "/")⟩,
  ⟨ascii "workspace", ascii "/workspace", .directory, 0, none, some (ascii "/")⟩]

/-- The file system: the draft is the only node that changes. -/
structure Files where
  draft : CText 1024
  stored : List (CText 1024)
  ready : Bool

def Files.init : Files where
  draft := CText.copy (some workspaceMain)
  stored := []
  ready := true

def Files.nodes (f : Files) : List Node :=
  builtin ++ [⟨ascii "main.hn", mainPath, .file, UInt32.ofNat f.draft.chars.length,
    some f.draft.chars, some (ascii "/workspace")⟩]

/-- An empty path is the root. -/
def target (path : List UInt8) : List UInt8 := if path = [] then ascii "/" else path

def Files.read (f : Files) (path : List UInt8) : Option Node :=
  if f.ready then f.nodes.find? (fun node => node.path == target path) else none

/-- The children of a directory, at most 16, and whether some were left out. -/
def Files.list (f : Files) (path : List UInt8) : Option (List Node × Bool) :=
  match f.read path with
  | none => none
  | some directory =>
    if directory.type = .directory then
      let children := f.nodes.filter fun node => node.parent == some (target path)
      some (children.take 16, decide (16 < children.length))
    else none

def Files.nodeCount (f : Files) : UInt32 :=
  if f.ready then UInt32.ofNat f.nodes.length else 0

def Files.writeWorkspaceHnlang (f : Files) (path data : List UInt8) : Bool × Files :=
  if f.ready = false ∨ path ≠ mainPath then (false, f)
  else
    let draft := CText.copy (some data)
    (true, { f with draft := draft, stored := f.stored ++ [draft] })

def Files.writeHnlangDraft (f : Files) (path data : List UInt8) : Bool × Files :=
  if f.ready = false ∨ policyDecidePath .writeHnlangDraft path ≠ .allow then (false, f)
  else f.writeWorkspaceHnlang path data

theorem draft_allowed : policyDecidePath .writeHnlangDraft mainPath = .allow := by
  decide

theorem write_main (f : Files) (data : CText 1024) (h : f.ready = true) :
    f.writeHnlangDraft mainPath data.chars =
      (true, { f with draft := data, stored := f.stored ++ [data] }) := by
  simp [Files.writeHnlangDraft, Files.writeWorkspaceHnlang, h, draft_allowed, copy_of_ctext]

end Hnmos.Workspace
