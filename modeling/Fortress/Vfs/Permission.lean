/-
Permission decisions on values (permission_values.c, creds_valid of creds.c):
no node, lock or callback is involved, the filesystems hand in the mode,
owner and mount flags they hold under their own lock.

A decision is `none` when access is granted and the error otherwise, as
every return code of the VFS is modelled.
-/
import Mathlib

namespace Fortress.Vfs

/-- The error codes of vfs.h; `eisdir` is the bare 7 of the rename code. -/
inductive VfsErr
  | eperm
  | enoent
  | eio
  | eisdir
  | eagain
  | enomem
  | eacces
  | eexist
  | enotdir
  | einval
  | efbig
  | enospc
  | erofs
  | enotempty
  | eopnotsupp
  deriving DecidableEq, Repr

/-- The result of a call that returns only a code; `none` is success. -/
abbrev Code := Option VfsErr

inductive NodeType
  | file
  | directory
  | stream
  deriving DecidableEq, Repr

def VFS_MAY_EXEC : Nat := 1
def VFS_MAY_WRITE : Nat := 2
def VFS_MAY_READ : Nat := 4
def VFS_S_IFMT : Nat := 0o170000
def VFS_S_IFREG : Nat := 0o100000
def VFS_S_IFDIR : Nat := 0o040000
def VFS_S_IFLNK : Nat := 0o120000
def VFS_MNT_RDONLY : Nat := 1

def CREDS_MAX_GROUPS : Nat := 16
def CAP_DAC_OVERRIDE : Nat := 1
def CAP_DAC_READ_SEARCH : Nat := 2
def CAP_FOWNER : Nat := 4
def CAP_CHOWN : Nat := 8
def CAP_SETUID : Nat := 16
def CAP_SETGID : Nat := 32
def CAP_FSETID : Nat := 2048
def CAP_ALL : Nat := 2 ^ 12 - 1

structure Creds where
  euid : Nat
  egid : Nat
  /-- the array of 16, unused places zero -/
  groups : List Nat
  ngroups : Nat
  umask : Nat
  reserved : Nat
  capEffective : Nat
  deriving DecidableEq, Repr

def credsValid (v : Creds) : Bool :=
  decide (v.ngroups ≤ CREDS_MAX_GROUPS) && decide (v.reserved = 0) && decide (v.umask ≤ 0o777) &&
    decide (v.capEffective ≤ CAP_ALL) && ((v.groups.take CREDS_MAX_GROUPS).drop v.ngroups).all (· == 0)

def Creds.has (v : Creds) (cap : Nat) : Bool := v.capEffective &&& cap != 0

/-- The part of `vfs_metadata_t` that decisions read. -/
structure Metadata where
  mode : Nat
  uid : Nat
  gid : Nat
  mntFlags : Nat
  deriving DecidableEq, Repr

def permissionGroupMember (actor : Creds) (gid : Nat) : Bool :=
  decide (actor.ngroups ≤ CREDS_MAX_GROUPS) && (actor.egid == gid || (actor.groups.take actor.ngroups).contains gid)

def permissionAccessValue (value : Metadata) (mask : Nat) (actor : Creds) : Code :=
  let type := value.mode &&& VFS_S_IFMT
  let shift := if actor.euid = value.uid then 6 else if permissionGroupMember actor value.gid then 3 else 0
  let readSearch := VFS_MAY_READ ||| (if type = VFS_S_IFDIR then VFS_MAY_EXEC else 0)
  if ¬credsValid actor ∨ 7 < mask then some .einval
  -- device writes do not inherit the read-only policy of files
  else if mask &&& VFS_MAY_WRITE ≠ 0 ∧ (type = VFS_S_IFREG ∨ type = VFS_S_IFDIR ∨ type = VFS_S_IFLNK) ∧
      value.mntFlags &&& VFS_MNT_RDONLY ≠ 0 then some .erofs
  else if type = VFS_S_IFREG ∧ mask &&& VFS_MAY_EXEC ≠ 0 ∧ value.mode &&& 0o111 = 0 then some .eacces
  else if ((value.mode >>> shift) &&& 7) &&& mask = mask then none
  else if actor.has CAP_DAC_OVERRIDE then none
  else if actor.has CAP_DAC_READ_SEARCH ∧ mask ||| readSearch = readSearch then none
  else some .eacces

def permissionDeleteValue (dir victim : Metadata) (actor : Creds) : Code :=
  if ¬credsValid actor then some .einval
  else if dir.mode &&& VFS_S_IFMT ≠ VFS_S_IFDIR then some .enotdir
  else match permissionAccessValue dir (VFS_MAY_WRITE ||| VFS_MAY_EXEC) actor with
    | some e => some e
    | none =>
      if dir.mode &&& 0o1000 ≠ 0 ∧ actor.euid ≠ dir.uid ∧ actor.euid ≠ victim.uid ∧ ¬actor.has CAP_FOWNER then
        some .eperm
      else none

/-- `mode & ~bits`. -/
def without (mode bits : Nat) : Nat := mode ^^^ (mode &&& bits)

/-- `creds_id_change_t`. -/
structure IdChange where
  value : Nat
  keep : Bool

def IdChange.get (c : IdChange) (old : Nat) : Nat := if c.keep then old else c.value

def permissionChmodValue (old : Metadata) (requested : Nat) (actor : Creds) : Except VfsErr Metadata :=
  let mode := (old.mode &&& VFS_S_IFMT) ||| (requested &&& 0o7777)
  if ¬credsValid actor then .error .einval
  else if old.mntFlags &&& VFS_MNT_RDONLY ≠ 0 then .error .erofs
  else if actor.euid ≠ old.uid ∧ ¬actor.has CAP_FOWNER then .error .eperm
  else if ¬permissionGroupMember actor old.gid ∧ ¬actor.has CAP_FSETID then
    .ok { old with mode := without mode 0o2000 }
  else .ok { old with mode }

/-- Every admitted chown clears set-user-ID on non-directories, even when the ids are unchanged. -/
def permissionChownValue (old : Metadata) (uid gid : IdChange) (actor : Creds) : Except VfsErr Metadata :=
  let newUid := uid.get old.uid
  let newGid := gid.get old.gid
  if ¬credsValid actor then .error .einval
  else if old.mntFlags &&& VFS_MNT_RDONLY ≠ 0 then .error .erofs
  else if ¬actor.has CAP_CHOWN ∧ (actor.euid ≠ old.uid ∨ newUid ≠ old.uid ∨
      (newGid ≠ old.gid ∧ ¬permissionGroupMember actor newGid)) then .error .eperm
  else
    let mode :=
      if old.mode &&& VFS_S_IFMT = VFS_S_IFDIR then old.mode
      else if old.mode &&& 0o0010 ≠ 0 ∨ (¬permissionGroupMember actor old.gid ∧ ¬actor.has CAP_FSETID) then
        without (without old.mode 0o4000) 0o2000
      else without old.mode 0o4000
    .ok { old with uid := newUid, gid := newGid, mode }

/-- The mode after a positive write or an admitted truncation. -/
def permissionContentMode (old : Metadata) (actor : Creds) : Nat :=
  let mode := without old.mode 0o4000
  if old.mode &&& VFS_S_IFMT ≠ VFS_S_IFREG then old.mode
  else if credsValid actor ∧ actor.has CAP_FSETID then old.mode
  else if mode &&& 0o0010 ≠ 0 ∨ ¬credsValid actor ∨ ¬permissionGroupMember actor old.gid then without mode 0o2000
  else mode

structure CreateAttrs where
  mode : Nat
  uid : Nat
  gid : Nat

def permissionCreateValue (dir : Metadata) (type : NodeType) (requested : Nat) (actor : Creds) :
    Except VfsErr CreateAttrs :=
  let mode := without requested actor.umask &&& 0o7777
  let gid := if dir.mode &&& 0o2000 ≠ 0 then dir.gid else actor.egid
  if ¬credsValid actor ∨ (type ≠ .file ∧ type ≠ .directory) then .error .einval
  else if dir.mode &&& VFS_S_IFMT ≠ VFS_S_IFDIR then .error .enotdir
  else if type = .file then
    if ¬permissionGroupMember actor gid ∧ ¬actor.has CAP_FSETID then
      .ok { mode := without mode 0o2000, uid := actor.euid, gid }
    else .ok { mode, uid := actor.euid, gid }
  -- inherited set-group-ID stays on directories whoever creates them
  else .ok { mode := if dir.mode &&& 0o2000 ≠ 0 then mode ||| 0o2000 else mode, uid := actor.euid, gid }

end Fortress.Vfs
