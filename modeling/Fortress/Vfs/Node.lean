/-
The nodes of the virtual file system and the callbacks of its in-memory
filesystems that a rename runs (etcfs.c, runfs_permissions.inc).

A node carries the callback table of its filesystem. Behind `fs_private`
lies that filesystem's own record: an `etc_file_entry_t` for etcfs, an inode
for the disk filesystems, nothing for runfs, whose nodes are instead the
head of a `run_node_t`. The record of another filesystem can still be read
as an `etc_file_entry_t` by code that takes it for one: `record` is what its
bytes say then. Every record that a callback takes for its own is listed in
`Outcome.reads`.

Children are the list that `children` and `next` link. Locks are left out:
each callback runs under its filesystem's lock from its first read to its
last write.
-/
import Fortress.Etcfs.File
import Fortress.Vfs.Permission

namespace Fortress.Vfs

open Etcfs (etcIsProtectedAccount)

abbrev CStr := List Char
abbrev NodeId := Nat

def VFS_MAX_PATH : Nat := 256
def VFS_MAX_NAME : Nat := 64

/-- The filesystems, with what decides which callbacks a directory gets. Two mounts of a disk
filesystem differ in `mount`. -/
inductive Table
  /-- tarfs and devfs nodes: no callbacks at all -/
  | boot
  | etcfs
  | runfs
  | ext4 (mount : Nat) (engine journalMounted : Bool)
  | ext2 (mount : Nat) (readOnly : Bool)
  deriving DecidableEq, Repr

/-- The code that serves a node. -/
inductive Driver
  | boot
  | etcfs
  | runfs
  | ext4
  | ext2
  deriving DecidableEq, Repr

def Table.driver : Table → Driver
  | .boot => .boot
  | .etcfs => .etcfs
  | .runfs => .runfs
  | .ext4 _ _ _ => .ext4
  | .ext2 _ _ => .ext2

/-- `etc_file_entry_t`; `buffer` is whether there is one. -/
structure EtcEntry where
  buffer : Bool
  capacity : Nat
  refs : Nat
  removed : Bool
  isDynamicNode : Bool
  deriving DecidableEq, Repr

/-- What surrounds the node in a `run_node_t`. -/
structure RunState where
  refs : Nat
  used : Bool
  removed : Bool
  legacy : Bool
  bootBytes : Bool
  deriving DecidableEq, Repr

structure Node where
  name : CStr
  path : CStr
  type : NodeType
  value : Metadata
  table : Table
  parent : Option NodeId
  children : List NodeId
  /-- the record behind `fs_private`, read as an `etc_file_entry_t` -/
  record : Option EtcEntry
  run : RunState
  deriving DecidableEq, Repr

/-- A slot of the run pool after `memset`. -/
def Node.zero : Node where
  name := []
  path := []
  type := .file
  value := ⟨0, 0, 0, 0⟩
  table := .boot
  parent := none
  children := []
  record := none
  run := ⟨0, false, false, false, false⟩

structure Store where
  node : NodeId → Node
  /-- no chain of parents or of children is longer -/
  size : Nat
  runPool : List NodeId
  etcfsAllocatedBytes : Nat
  freed : List NodeId

def Store.modify (s : Store) (n : NodeId) (f : Node → Node) : Store :=
  { s with node := Function.update s.node n (f (s.node n)) }

/-- What a callback returns, leaves behind and has read as its own record. -/
structure Outcome where
  rc : Code
  store : Store
  reads : List (Driver × NodeId)

/-- The record of this node is another filesystem's than `d`'s. -/
def Foreign (s : Store) (d : Driver) (n : NodeId) : Prop :=
  (s.node n).table.driver ≠ d ∧ (s.node n).record.isSome = true

instance (s : Store) (d : Driver) (n : NodeId) : Decidable (Foreign s d n) :=
  inferInstanceAs (Decidable (_ ∧ _))

/-! ## etcfs -/

section Etc

variable (s : Store)

def etcRemoved (n : NodeId) : Bool :=
  match (s.node n).record with
  | some e => e.removed
  | none => false

/-- A look at the entry of a node, if it has one. -/
def etcRead (n : NodeId) : List (Driver × NodeId) :=
  if (s.node n).record.isSome then [(.etcfs, n)] else []

def etcAccessLocked (n : NodeId) (mask : Nat) : Option Creds → Code
  | some actor => if etcRemoved s n then some .enoent else permissionAccessValue (s.node n).value mask actor
  | none => if etcRemoved s n then some .enoent else none

/-- The children that `etc_find_locked` looks at: up to the first live one of that name. -/
def etcScan (name : CStr) : List NodeId → List NodeId
  | [] => []
  | n :: rest => if ¬etcRemoved s n ∧ (s.node n).name = name then [n] else n :: etcScan name rest

def etcFindLocked (dir : NodeId) (name : CStr) : Option NodeId :=
  (s.node dir).children.find? fun n => !etcRemoved s n && (s.node n).name == name

/-- The children of a victim that are looked at until a live one is found. -/
def etcScanLive : List NodeId → List NodeId
  | [] => []
  | n :: rest => if etcRemoved s n then n :: etcScanLive rest else [n]

def etcCollect (n : NodeId) : Store :=
  match (s.node n).record with
  | none => s
  | some e =>
    if e.removed ∧ e.refs = 0 then
      let s := { s with etcfsAllocatedBytes := s.etcfsAllocatedBytes - (if e.buffer then e.capacity else 0) }
      let s := s.modify n fun x => { x with record := none }
      if e.isDynamicNode then { s with freed := n :: s.freed } else s
    else s

def joinPath (parent name : CStr) : CStr :=
  if 1 < parent.length then parent ++ '/' :: name else parent ++ name

/-- The node's path and those below it, from its parent's path. -/
def etcUpdatePaths : Nat → Store → NodeId → CStr → Store
  | 0, s, _, _ => s
  | fuel + 1, s, n, parentPath =>
    let s := s.modify n fun x => { x with path := joinPath parentPath x.name }
    (s.node n).children.foldl (fun s c => etcUpdatePaths fuel s c (s.node n).path) s

/-- `source` is `p` or above it. -/
def inAncestry (source : NodeId) : Nat → NodeId → Bool
  | 0, p => p == source
  | fuel + 1, p =>
    p == source ||
      match (s.node p).parent with
      | some q => inAncestry source fuel q
      | none => false

def etcDelete (dir victim : NodeId) : Option Creds → Code
  | some actor => permissionDeleteValue (s.node dir).value (s.node victim).value actor
  | none => none

def etcUnlinkVictim (dest victim : NodeId) : Store :=
  let s := s.modify dest fun d => { d with children := d.children.erase victim }
  let s := s.modify victim fun x => { x with record := x.record.map fun e => { e with removed := true } }
  etcCollect s victim

def etcMove (old dest source : NodeId) (next : CStr) : Store :=
  let s := s.modify old fun d => { d with children := d.children.erase source }
  let s := s.modify source fun x => { x with parent := some dest, name := next }
  let s := s.modify dest fun d => { d with children := source :: d.children }
  etcUpdatePaths s.size s source (s.node dest).path

end Etc

/-- Names that no rename of an in-memory filesystem takes. -/
def dotName (name : CStr) : Bool := name == ".".toList || name == "..".toList

def etcNames (name next : CStr) : Bool :=
  !name.isEmpty && !next.isEmpty && !dotName name && !dotName next && decide (next.length < VFS_MAX_NAME) &&
    !next.contains '/'

section EtcRename

variable (s : Store) (actor : Option Creds)

variable (old dest source : NodeId)

/-- The checks up to the comparison of source and victim. -/
def etcAdmit (victim : Option NodeId) (requireDirectory : Bool) : Code :=
  if etcIsProtectedAccount (s.node source).path ∨ victim.any fun v => etcIsProtectedAccount (s.node v).path then
    some .eperm
  else if requireDirectory ∧ (s.node source).type ≠ .directory then some .enotdir
  else (etcDelete s old source actor).or <| victim.elim none fun v => etcDelete s dest v actor

/-- Source and victim differ in type, or the victim is not empty. -/
def etcReplaces (source : NodeId) : Option NodeId → Code
  | none => none
  | some v =>
    if (s.node source).type ≠ (s.node v).type then
      if (s.node v).type = .directory then some .eisdir else some .enotdir
    else if (s.node v).type = .directory ∧ (s.node v).children.any fun c => !etcRemoved s c then some .enotempty
    else none

/-- A directory that changes its parent must be writable itself. -/
def etcSourceAccess : Code :=
  if (s.node source).type = .directory ∧ old ≠ dest ∧ actor.isSome then
    etcAccessLocked s source VFS_MAY_WRITE actor
  else none

def etcBelow (dest source : NodeId) : Code := if inAncestry s source s.size dest then some .einval else none

/-- What is read of the victim's children, once nothing before has failed. -/
def etcVictimReads : Option NodeId → List (Driver × NodeId)
  | none => []
  | some v =>
    if etcSourceAccess s actor old dest source = none ∧ (s.node source).type = (s.node v).type ∧
        (s.node v).type = .directory then
      (etcScanLive s (s.node v).children).flatMap (etcRead s)
    else []

/-- The part of the rename past a found source. -/
def etcRenameSource (old dest : NodeId) (next : CStr) (requireDirectory : Bool) (source : NodeId)
    (victim : Option NodeId) (reads : List (Driver × NodeId)) : Outcome :=
  match etcAdmit s actor old dest source victim requireDirectory with
  | some e => ⟨some e, s, reads⟩
  | none =>
    if victim = some source then ⟨none, s, reads⟩
    else
      let reads := reads ++ etcVictimReads s actor old dest source victim
      match (etcSourceAccess s actor old dest source).or
          ((etcReplaces s source victim).or (etcBelow s dest source)) with
      | some e => ⟨some e, s, reads⟩
      | none =>
        let s := match victim with
          | some v => etcUnlinkVictim s dest v
          | none => s
        ⟨none, etcMove s old dest source next, reads⟩

def etcDirAccess (dir : NodeId) : Code :=
  if actor.isSome then etcAccessLocked s dir (VFS_MAY_WRITE ||| VFS_MAY_EXEC) actor else none

/-- Both searches run whatever the access checks said. -/
def etcRenameReads (old : NodeId) (name : CStr) (dest : NodeId) (next : CStr) : List (Driver × NodeId) :=
  (if actor.isSome then etcRead s old else []) ++
    (if actor.isSome ∧ etcDirAccess s actor old = none then etcRead s dest else []) ++
    (etcScan s name (s.node old).children).flatMap (etcRead s) ++
    (etcScan s next (s.node dest).children).flatMap (etcRead s)

def etcRenameActor (old : NodeId) (name : CStr) (dest : NodeId) (next : CStr) (requireDirectory : Bool) : Outcome :=
  if ¬etcNames name next then ⟨some .einval, s, []⟩
  else
    let reads := etcRenameReads s actor old name dest next
    match (etcDirAccess s actor old).or (etcDirAccess s actor dest) with
    | some e => ⟨some e, s, reads⟩
    | none =>
      match etcFindLocked s old name with
      | none => ⟨some .enoent, s, reads⟩
      | some source =>
        etcRenameSource s actor old dest next requireDirectory source (etcFindLocked s dest next) reads

end EtcRename

/-! ## runfs -/

section Run

variable (s : Store) (actor : Creds)

def runAccessLocked (n : NodeId) (mask : Nat) : Code :=
  if ¬(s.node n).run.used ∨ (s.node n).run.removed then some .enoent
  else permissionAccessValue (s.node n).value mask actor

def runFindLocked (dir : NodeId) (name : CStr) : Option NodeId :=
  (s.node dir).children.find? fun n => (s.node n).name == name

def runCollect (n : NodeId) : Store :=
  let r := (s.node n).run
  if r.removed ∧ r.refs = 0 ∧ ¬r.legacy then s.modify n fun _ => Node.zero else s

/-- `prior` is the path or a directory above it. -/
def underPath (prior path : CStr) : Bool :=
  prior.isPrefixOf path && ((path.drop prior.length).isEmpty || (path.drop prior.length).head? == some '/')

/-- The pool's nodes whose paths move with `prior`. -/
def runMoved (prior : CStr) : List NodeId :=
  s.runPool.filter fun n => (s.node n).run.used && !(s.node n).run.removed && underPath prior (s.node n).path

/-- The walk up from the destination stays in runfs. -/
def runInAncestry (source : NodeId) : Nat → NodeId → Bool
  | 0, _ => false
  | fuel + 1, p =>
    (s.node p).table == .runfs &&
      (p == source ||
        match (s.node p).parent with
        | some q => runInAncestry source fuel q
        | none => false)

variable (old dest source : NodeId)

def runAdmit (victim : Option NodeId) (requireDirectory : Bool) : Code :=
  if (s.node source).run.bootBytes ∨ victim.any fun v => (s.node v).run.bootBytes then some .erofs
  else if requireDirectory ∧ (s.node source).type ≠ .directory then some .enotdir
  else (permissionDeleteValue (s.node old).value (s.node source).value actor).or <|
    victim.elim none fun v => permissionDeleteValue (s.node dest).value (s.node v).value actor

def runReplaces (source : NodeId) : Option NodeId → Code
  | none => none
  | some v =>
    if (s.node source).type ≠ (s.node v).type then
      if (s.node v).type = .directory then some .eisdir else some .enotdir
    else if (s.node v).children ≠ [] then some .enotempty
    else none

def runSourceAccess : Code :=
  if (s.node source).type = .directory ∧ old ≠ dest then runAccessLocked s actor source VFS_MAY_WRITE else none

/-- Every moved path still fits. -/
def runPathsFit (dest source : NodeId) (next : CStr) : Code :=
  let prior := (s.node source).path
  let updated := (s.node dest).path ++ '/' :: next
  if VFS_MAX_PATH < (s.node dest).path.length + next.length + 2 then some .einval
  else if (runMoved s prior).any fun n =>
      VFS_MAX_PATH ≤ updated.length + ((s.node n).path.drop prior.length).length then some .einval
  else none

def runMove (victim : Option NodeId) (next : CStr) : Store :=
  let prior := (s.node source).path
  let updated := (s.node dest).path ++ '/' :: next
  let s := match victim with
    | none => s
    | some v =>
      let s := s.modify dest fun d => { d with children := d.children.erase v }
      runCollect (s.modify v fun x => { x with run := { x.run with removed := true } }) v
  let s := s.modify old fun d => { d with children := d.children.erase source }
  let s := s.modify source fun x => { x with parent := some dest, name := next }
  let s := s.modify dest fun d => { d with children := source :: d.children }
  (runMoved s prior).foldl
    (fun s n => s.modify n fun x => { x with path := updated ++ x.path.drop prior.length }) s

def runRenameSource (old dest : NodeId) (next : CStr) (requireDirectory : Bool) (source : NodeId)
    (victim : Option NodeId) (reads : List (Driver × NodeId)) : Outcome :=
  match runAdmit s actor old dest source victim requireDirectory with
  | some e => ⟨some e, s, reads⟩
  | none =>
    if victim = some source then ⟨none, s, reads⟩
    else
      match (runSourceAccess s actor old dest source).or ((runReplaces s source victim).or <|
          (if runInAncestry s source s.size dest then some .einval else none : Code).or
            (runPathsFit s dest source next)) with
      | some e => ⟨some e, s, reads⟩
      | none => ⟨none, runMove s old dest source victim next, reads⟩

/-- Unlike etcfs, runfs starts by asking whether the destination is its own. -/
def runRenameActor (old : NodeId) (name : CStr) (dest : NodeId) (next : CStr) (requireDirectory : Bool) : Outcome :=
  if (s.node dest).table.driver ≠ .runfs then ⟨some .eopnotsupp, s, []⟩
  else if name.isEmpty ∨ next.isEmpty ∨ dotName name ∨ dotName next ∨ VFS_MAX_NAME ≤ next.length then
    ⟨some .einval, s, []⟩
  else
    let mask := VFS_MAY_WRITE ||| VFS_MAY_EXEC
    let victim := runFindLocked s dest next
    match runAccessLocked s actor old mask, runAccessLocked s actor dest mask, runFindLocked s old name with
    | some e, _, _ => ⟨some e, s, [(.runfs, old)]⟩
    | none, some e, _ => ⟨some e, s, [(.runfs, old), (.runfs, dest)]⟩
    | none, none, none => ⟨some .enoent, s, [(.runfs, old), (.runfs, dest)]⟩
    | none, none, some source =>
      runRenameSource s actor old dest next requireDirectory source victim
        ((.runfs, old) :: (.runfs, dest) :: (.runfs, source) :: victim.toList.map (Prod.mk .runfs))

end Run

end Fortress.Vfs
