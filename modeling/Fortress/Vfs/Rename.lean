/-
Renaming on behalf of a process (rename_common of vfs.c with an actor, and
the `rename_actor` callbacks it hands over to).

The generic layer only asks the source directory's filesystem. Whether the
destination belongs to the same one is each callback's own question: runfs,
ext4 and ext2 ask it first, by comparing `permission_actor`; etcfs does not,
and goes on to read the destination's children as its own and to link its
node among them.

What path resolution answers, what the disk filesystems say of their own
directories and what they do within one mount are inputs (`Kernel`).
Resolution takes and drops references on its way; they cancel out and are
left out, as is its filling of the disk filesystems' node caches.
-/
import Fortress.Vfs.Node

namespace Fortress.Vfs

open Etcfs (etcIsProtectedAccount)

structure BootRoutes where
  published : Bool
  baseRequested : Bool
  /-- parent path, name and the node, if published -/
  base : List (CStr × CStr × Option NodeId)
  root : NodeId
  volatile : List NodeId

/-- The rest of the kernel, as a rename sees it. -/
structure Kernel where
  boot : BootRoutes
  /-- `lookup_common` for this actor -/
  resolve : Store → CStr → Creds → Except VfsErr NodeId
  /-- `vfs_lookup`, which asks no permission -/
  vfsLookup : Store → CStr → Option NodeId
  /-- `permission_actor` of the disk filesystems -/
  diskPermission : Store → NodeId → Nat → Creds → Code
  e4StateAccount : Store → NodeId → Code
  e4AccountName : Store → NodeId → CStr → Bool
  /-- what is left of `e4_jrename_account` within one mount -/
  e4Move : Store → NodeId → CStr → NodeId → CStr → Bool → Option Creds → Outcome
  /-- `e4_rename`, for mounts without a journal -/
  e4Rename : Store → NodeId → CStr → NodeId → CStr → Outcome
  /-- what is left of `ext_rename_common` within one mount -/
  extMove : Store → NodeId → CStr → NodeId → CStr → Bool → Option Creds → Outcome
  /-- the end of `rename_common`, for directories that have only a plain `rename` -/
  legacyMove : Store → NodeId → CStr → NodeId → CStr → Creds → Outcome

/-! ## Paths -/

/-- The copying loop, on the reversed output. -/
def normalizeLoop : CStr → CStr → CStr
  | [], out => out
  | c :: rest, out =>
    if VFS_MAX_PATH ≤ out.length + 1 then out
    else if c = '/' ∧ out.head? = some '/' then normalizeLoop rest out
    else normalizeLoop rest (c :: out)

def normalizePath (path : CStr) : CStr :=
  let lead := if path.head? = some '/' then [] else ['/']
  let start := if "./".toList.isPrefixOf path then 1 else 0
  let out := normalizeLoop (path.drop start) lead
  (if 1 < out.length ∧ out.head? = some '/' then out.tail else out).reverse

/-- The name after the last slash. -/
def lastName (norm : CStr) : CStr := (norm.reverse.takeWhile (· != '/')).reverse

def dirPath (norm : CStr) : CStr :=
  let dir := norm.take (norm.length - (lastName norm).length - 1)
  if dir.isEmpty then "/".toList else dir

def endsInSlash (path : CStr) : Bool := path.getLast? == some '/'

def bootRoute (b : BootRoutes) (s : Store) (dir : NodeId) (name : CStr) : Option NodeId :=
  if ¬b.published then none
  else
    match (if b.baseRequested then b.base.find? fun r =>
        r.2.2.isSome && r.1 == (s.node dir).path && r.2.1 == name else none) with
    | some r => r.2.2
    | none => if dir ≠ b.root then none else b.volatile.find? fun n => (s.node n).name == name

/-! ## The callbacks of the disk filesystems -/

/-- The plain `rename` callbacks, as pointers to compare. -/
inductive RenameFn
  | etcRename
  | e4Rename
  | e4Jrename
  | extRename
  deriving DecidableEq, Repr

def Table.rename : Table → Option RenameFn
  | .etcfs => some .etcRename
  | .ext4 _ true true => some .e4Jrename
  | .ext4 _ true false => some .e4Rename
  | .ext2 _ false => some .extRename
  | _ => none

/-- The directory has the owned-node callback `create_ref`. -/
def Table.createRef : Table → Bool
  | .etcfs | .runfs | .ext4 _ true true | .ext2 _ false => true
  | _ => false

section Callbacks

variable (k : Kernel) (s : Store)

def fail (e : VfsErr) : Outcome := ⟨some e, s, []⟩

def e4NamespaceName (name : CStr) : Bool :=
  !name.isEmpty && !name.contains '/' && decide (name.length < VFS_MAX_NAME) && !dotName name

def e4JrenameCommon (old : NodeId) (name : CStr) (dest : NodeId) (next : CStr) (requireDirectory : Bool)
    (actor : Option Creds) : Outcome :=
  let reads := [(Driver.ext4, old), (Driver.ext4, dest)]
  if ¬e4NamespaceName name ∨ ¬e4NamespaceName next then fail s .einval
  else match (k.e4StateAccount s old).or (k.e4StateAccount s dest) with
    | some e => ⟨some e, s, reads⟩
    | none =>
      if k.e4AccountName s old name ∨ k.e4AccountName s dest next then ⟨some .erofs, s, reads⟩
      -- the mounts the two inodes point to
      else if (s.node old).table ≠ (s.node dest).table then ⟨some .eopnotsupp, s, reads⟩
      else k.e4Move s old name dest next requireDirectory actor

def e4RenameActor (old : NodeId) (name : CStr) (dest : NodeId) (next : CStr) (requireDirectory : Bool)
    (actor : Creds) : Outcome :=
  if (s.node dest).table.driver ≠ .ext4 then fail s .eopnotsupp
  else match (s.node old).table with
    | .ext4 _ _ true => e4JrenameCommon k s old name dest next requireDirectory (some actor)
    | .ext4 _ engine false => ⟨some (if engine then .eopnotsupp else .erofs), s, [(.ext4, old)]⟩
    | _ => fail s .eio

def extRenameCommon (old : NodeId) (name : CStr) (dest : NodeId) (next : CStr) (requireDirectory : Bool)
    (actor : Option Creds) : Outcome :=
  if (s.node old).table ≠ (s.node dest).table then ⟨some .erofs, s, [(.ext2, old), (.ext2, dest)]⟩
  else k.extMove s old name dest next requireDirectory actor

def extRenameActor (old : NodeId) (name : CStr) (dest : NodeId) (next : CStr) (requireDirectory : Bool)
    (actor : Creds) : Outcome :=
  if (s.node dest).table.driver ≠ .ext2 then fail s .eopnotsupp
  else extRenameCommon k s old name dest next requireDirectory (some actor)

def callRename (f : RenameFn) (old : NodeId) (name : CStr) (new : NodeId) (next : CStr) : Outcome :=
  match f with
  | .etcRename => etcRenameActor s none old name new next false
  | .e4Rename => k.e4Rename s old name new next
  | .e4Jrename => e4JrenameCommon k s old name new next false none
  | .extRename => extRenameCommon k s old name new next false none

/-! ## The generic layer -/

def VFS_S_IFCHR : Nat := 0o020000
def VFS_S_IFBLK : Nat := 0o060000
def VFS_MNT_NODEV : Nat := 4
def CAP_SYS_RAWIO : Nat := 2 ^ 9

/-- The node's own filesystem decides; only boot nodes are judged by their fields. -/
def vfsPermission (n : NodeId) (mask : Nat) (actor : Creds) : Code :=
  match (s.node n).table.driver with
  | .etcfs => etcAccessLocked s n mask (some actor)
  | .runfs => runAccessLocked s actor n mask
  | .ext4 | .ext2 => k.diskPermission s n mask actor
  | .boot =>
    let value := (s.node n).value
    let type := value.mode &&& VFS_S_IFMT
    if (type = VFS_S_IFCHR ∨ type = VFS_S_IFBLK) ∧ value.mntFlags &&& VFS_MNT_NODEV ≠ 0 then some .eacces
    else (permissionAccessValue value mask actor).or
      (if type = VFS_S_IFBLK ∧ ¬actor.has CAP_SYS_RAWIO then some .eperm else none)

def vfsMayDelete (dir : NodeId) (actor : Creds) : Code := vfsPermission k s dir (VFS_MAY_WRITE ||| VFS_MAY_EXEC) actor

/-- The destination may be missing, or must be deletable. -/
def destAdmitted (new : NodeId) (normNew : CStr) (actor : Creds) : Code :=
  match k.resolve s normNew actor with
  | .ok _ => vfsMayDelete k s new actor
  | .error e => if e = .enoent then none else some e

variable (old new : NodeId)

def genericAdmit (normOld normNew : CStr) (actor : Creds) : Code :=
  match k.resolve s normOld actor with
  | .error e => some e
  | .ok victim =>
    ((vfsMayDelete k s old actor).or
      (if (s.node victim).type = .directory ∧ old ≠ new then vfsPermission k s victim VFS_MAY_WRITE actor
        else none)).or
    ((vfsPermission k s new (VFS_MAY_WRITE ||| VFS_MAY_EXEC) actor).or (destAdmitted k s new normNew actor))

/-- A file named with a trailing slash. -/
def slashedFile (n : NodeId) (oldpath newpath : CStr) : Bool :=
  (s.node n).type != .directory &&
    ((decide (1 < oldpath.length) && endsInSlash oldpath) || (decide (1 < newpath.length) && endsInSlash newpath))

variable (oldpath newpath : CStr) (actor : Creds)

/-- Source and destination are one path: nothing is moved. -/
def renameNoop : Outcome :=
  match k.resolve s (normalizePath oldpath) actor with
  | .error e => fail s e
  | .ok target => if slashedFile s target oldpath newpath then fail s .enotdir else ⟨none, s, []⟩

def renameOwned : Outcome :=
  match (s.node old).table.rename with
  | none => fail s .erofs
  | some f =>
    if (s.node new).table.rename ≠ some f then fail s .erofs
    else match k.resolve s (normalizePath oldpath) actor with
      | .error e => fail s e
      | .ok target =>
        if slashedFile s target oldpath newpath then fail s .enotdir
        else callRename k s f old (lastName (normalizePath oldpath)) new (lastName (normalizePath newpath))

def renameLegacy : Outcome :=
  match k.vfsLookup s (normalizePath oldpath) with
  | none => fail s .enoent
  | some target =>
    if slashedFile s target oldpath newpath then fail s .enotdir
    else if (s.node old).table.rename = none ∨ (s.node old).table.rename ≠ (s.node new).table.rename then
      fail s .erofs
    else k.legacyMove s old (lastName (normalizePath oldpath)) new (lastName (normalizePath newpath)) actor

/-- For a source directory without `rename_actor`. Permission is asked of each node's own filesystem. -/
def renameGeneric : Outcome :=
  match genericAdmit k s old new (normalizePath oldpath) (normalizePath newpath) actor with
  | some e => fail s e
  | none =>
    if normalizePath oldpath = normalizePath newpath then renameNoop k s oldpath newpath actor
    else if (s.node old).table.createRef ∨ (s.node new).table.createRef then
      renameOwned k s old new oldpath newpath actor
    else renameLegacy k s old new oldpath newpath actor

/-- The two directories are found: over to the source's filesystem. -/
def renameIn : Outcome :=
  let name := lastName (normalizePath oldpath)
  let next := lastName (normalizePath newpath)
  let requireDirectory := endsInSlash oldpath || endsInSlash newpath
  if (s.node old).type ≠ .directory ∨ (s.node new).type ≠ .directory then fail s .enotdir
  else if (bootRoute k.boot s old name).isSome ∨ (bootRoute k.boot s new next).isSome then fail s .eperm
  else match (s.node old).table.driver with
    | .etcfs => etcRenameActor s (some actor) old name new next requireDirectory
    | .runfs => runRenameActor s actor old name new next requireDirectory
    | .ext4 => e4RenameActor k s old name new next requireDirectory actor
    | .ext2 => extRenameActor k s old name new next requireDirectory actor
    | .boot => renameGeneric k s old new oldpath newpath actor

def renameCommon : Outcome :=
  let normOld := normalizePath oldpath
  let normNew := normalizePath newpath
  if VFS_MAX_PATH ≤ oldpath.length ∨ VFS_MAX_PATH ≤ newpath.length then fail s .einval
  else if normOld = "/".toList ∨ normNew = "/".toList then fail s .eperm
  else if (lastName normOld).isEmpty ∨ (lastName normNew).isEmpty then fail s .einval
  else if VFS_MAX_NAME ≤ (lastName normNew).length then fail s .einval
  else match k.resolve s (dirPath normOld) actor, k.resolve s (dirPath normNew) actor with
    | .error e, _ => fail s e
    | .ok _, .error e => fail s e
    | .ok old, .ok new => renameIn k s old new oldpath newpath actor

end Callbacks

/-! ## What separation means -/

/-- The call failed, changed nothing, and took no other filesystem's record for its own. -/
structure Separated (s : Store) (o : Outcome) : Prop where
  failed : o.rc ≠ none
  unchanged : o.store = s
  own : ∀ r ∈ o.reads, ¬Foreign s r.1 r.2

/-- The parents of the two paths, as the rename finds them. -/
structure Resolved (k : Kernel) (s : Store) (oldpath newpath : CStr) (actor : Creds) (old new : NodeId) : Prop where
  old_ok : k.resolve s (dirPath (normalizePath oldpath)) actor = .ok old
  new_ok : k.resolve s (dirPath (normalizePath newpath)) actor = .ok new

/-- The source may leave its directory for that one, as far as owners and modes go. -/
structure EtcPasses (s : Store) (actor : Creds) (old new source : NodeId) (victim : Option NodeId)
    (requireDirectory : Bool) : Prop where
  old_access : etcAccessLocked s old (VFS_MAY_WRITE ||| VFS_MAY_EXEC) (some actor) = none
  new_access : etcAccessLocked s new (VFS_MAY_WRITE ||| VFS_MAY_EXEC) (some actor) = none
  unprotected : ∀ n, n = source ∨ victim = some n → etcIsProtectedAccount (s.node n).path = false
  directory : requireDirectory = true → (s.node source).type = .directory
  deletable : permissionDeleteValue (s.node old).value (s.node source).value actor = none
  replaceable : ∀ v, victim = some v → permissionDeleteValue (s.node new).value (s.node v).value actor = none

/-- A source directory that changes its parent is writable. -/
def EtcMovable (s : Store) (actor : Creds) (old new source : NodeId) : Prop :=
  (s.node source).type = .directory → old ≠ new → etcAccessLocked s source VFS_MAY_WRITE (some actor) = none

/-- The source fits in the victim's place and is not above it. -/
structure EtcFits (s : Store) (actor : Creds) (old new source : NodeId) (victim : Option NodeId) : Prop where
  movable : EtcMovable s actor old new source
  same_type : ∀ v, victim = some v → (s.node source).type = (s.node v).type
  empty : ∀ v, victim = some v → (s.node v).type = .directory → ∀ c ∈ (s.node v).children, etcRemoved s c = true
  not_above : inAncestry s source s.size new = false

/-- A record of another filesystem is in the way of etcfs's checks: that of the destination
itself, of a child it looks at, or of a child of the directory to be replaced. -/
inductive EtcMisreads (s : Store) (actor : Creds) (old : NodeId) (name : CStr) (new : NodeId) (next : CStr)
    (requireDirectory : Bool) : Prop
  | destination (access : etcAccessLocked s old (VFS_MAY_WRITE ||| VFS_MAY_EXEC) (some actor) = none)
      (foreign : Foreign s .etcfs new)
  | child (c : NodeId) (scanned : c ∈ etcScan s name (s.node old).children ∨ c ∈ etcScan s next (s.node new).children)
      (foreign : Foreign s .etcfs c)
  | grandchild (source v c : NodeId) (found : etcFindLocked s old name = some source)
      (victim : etcFindLocked s new next = some v) (differs : v ≠ source)
      (passes : EtcPasses s actor old new source (some v) requireDirectory)
      (movable : EtcMovable s actor old new source)
      (same : (s.node source).type = (s.node v).type) (dir : (s.node v).type = .directory)
      (scanned : c ∈ etcScanLive s (s.node v).children) (foreign : Foreign s .etcfs c)

/-- Everything etcfs asks is answered in favour of the rename. -/
def EtcGrants (s : Store) (actor : Creds) (old : NodeId) (name : CStr) (new : NodeId) (next : CStr)
    (requireDirectory : Bool) : Prop :=
  ∃ source, etcFindLocked s old name = some source ∧
    EtcPasses s actor old new source (etcFindLocked s new next) requireDirectory ∧
    (etcFindLocked s new next = some source ∨ EtcFits s actor old new source (etcFindLocked s new next))

/-- A rename out of an etcfs directory that nothing stops in time. -/
structure Exposed (k : Kernel) (s : Store) (oldpath newpath : CStr) (actor : Creds) (old new : NodeId) : Prop where
  oldpath_len : oldpath.length < VFS_MAX_PATH
  newpath_len : newpath.length < VFS_MAX_PATH
  not_root : normalizePath oldpath ≠ "/".toList ∧ normalizePath newpath ≠ "/".toList
  dirs : (s.node old).type = .directory ∧ (s.node new).type = .directory
  unrouted : bootRoute k.boot s old (lastName (normalizePath oldpath)) = none ∧
    bootRoute k.boot s new (lastName (normalizePath newpath)) = none
  etc : (s.node old).table = .etcfs
  names : etcNames (lastName (normalizePath oldpath)) (lastName (normalizePath newpath)) = true
  harmed : EtcMisreads s actor old (lastName (normalizePath oldpath)) new (lastName (normalizePath newpath))
      (endsInSlash oldpath || endsInSlash newpath) ∨
    EtcGrants s actor old (lastName (normalizePath oldpath)) new (lastName (normalizePath newpath))
      (endsInSlash oldpath || endsInSlash newpath)

/-! ## What etcfs does -/

section Etc

variable {s : Store} {actor : Creds} {old new source : NodeId} {name next : CStr} {requireDirectory : Bool}
  {victim : Option NodeId}

theorem etcDirAccess_some (n : NodeId) :
    etcDirAccess s (some actor) n = etcAccessLocked s n (VFS_MAY_WRITE ||| VFS_MAY_EXEC) (some actor) := by
  simp [etcDirAccess]

theorem etcAdmit_eq_none_iff :
    etcAdmit s (some actor) old new source victim requireDirectory = none ↔
      (∀ n, n = source ∨ victim = some n → etcIsProtectedAccount (s.node n).path = false) ∧
      (requireDirectory = true → (s.node source).type = .directory) ∧
      permissionDeleteValue (s.node old).value (s.node source).value actor = none ∧
      ∀ v, victim = some v → permissionDeleteValue (s.node new).value (s.node v).value actor = none := by
  cases victim with
  | none => simp [etcAdmit, etcDelete, ite_eq_iff]
  | some v => simp [etcAdmit, etcDelete, ite_eq_iff, or_imp, forall_and]

theorem etcSourceAccess_eq_none_iff :
    etcSourceAccess s (some actor) old new source = none ↔ EtcMovable s actor old new source := by
  unfold etcSourceAccess EtcMovable
  by_cases h : (s.node source).type = .directory ∧ old ≠ new
  · simp [h.1, h.2]
  rw [if_neg fun h' => h ⟨h'.1, h'.2.1⟩]
  simp only [true_iff]
  exact fun hd hne => absurd ⟨hd, hne⟩ h

theorem etcReplaces_eq_none_iff :
    etcReplaces s source victim = none ↔
      (∀ v, victim = some v → (s.node source).type = (s.node v).type) ∧
      ∀ v, victim = some v → (s.node v).type = .directory → ∀ c ∈ (s.node v).children, etcRemoved s c = true := by
  cases victim with
  | none => simp [etcReplaces]
  | some v =>
    simp only [etcReplaces, Option.some.injEq, forall_eq']
    by_cases ht : (s.node source).type = (s.node v).type
    · rw [if_neg (by simpa using ht)]
      by_cases hd : (s.node v).type = .directory
      · simp [ht, hd]
      · simp [ht, hd]
    · rw [if_pos ht]
      refine iff_of_false ?_ fun h => ht h.1
      split <;> simp

theorem etcFits_iff : (etcSourceAccess s (some actor) old new source).or
        ((etcReplaces s source victim).or (etcBelow s new source)) = none ↔
      EtcFits s actor old new source victim := by
  rw [Option.or_eq_none_iff, Option.or_eq_none_iff, etcSourceAccess_eq_none_iff, etcReplaces_eq_none_iff]
  have hbelow : etcBelow s new source = none ↔ inAncestry s source s.size new = false := by
    unfold etcBelow
    cases inAncestry s source s.size new <;> simp
  rw [hbelow]
  exact ⟨fun ⟨hm, ⟨ht, he⟩, hb⟩ => ⟨hm, ht, he, hb⟩, fun ⟨hm, ht, he, hb⟩ => ⟨hm, ⟨ht, he⟩, hb⟩⟩

/-- **Everything `etc_rename_actor` can do** once its names are in order: refuse before source
and victim are compared, find them to be one node, refuse afterwards, or move the source. -/
theorem etcRenameActor_cases (hn : etcNames name next = true) :
    let o := etcRenameActor s (some actor) old name new next requireDirectory
    let R := etcRenameReads s (some actor) old name new next
    let victim := etcFindLocked s new next
    (∃ e, o = ⟨some e, s, R⟩ ∧
      ∀ source, etcFindLocked s old name = some source → ¬EtcPasses s actor old new source victim requireDirectory) ∨
    ∃ source, etcFindLocked s old name = some source ∧ EtcPasses s actor old new source victim requireDirectory ∧
      ((victim = some source ∧ o = ⟨none, s, R⟩) ∨
       (victim ≠ some source ∧ ¬EtcFits s actor old new source victim ∧
          ∃ e, o = ⟨some e, s, R ++ etcVictimReads s (some actor) old new source victim⟩) ∨
       (victim ≠ some source ∧ EtcFits s actor old new source victim ∧
          ∃ s', o = ⟨none, s', R ++ etcVictimReads s (some actor) old new source victim⟩)) := by
  intro o R victim
  have ho : o = etcRenameActor s (some actor) old name new next requireDirectory := rfl
  unfold etcRenameActor at ho
  rw [if_neg (by simpa using hn)] at ho
  cases hacc : (etcDirAccess s (some actor) old).or (etcDirAccess s (some actor) new) with
  | some e =>
    rw [hacc] at ho
    refine .inl ⟨e, ho, fun source _ hp => ?_⟩
    rw [etcDirAccess_some, etcDirAccess_some, hp.old_access, hp.new_access] at hacc
    cases hacc
  | none =>
    rw [hacc] at ho
    rw [Option.or_eq_none_iff, etcDirAccess_some, etcDirAccess_some] at hacc
    cases hfind : etcFindLocked s old name with
    | none =>
      rw [hfind] at ho
      exact .inl ⟨.enoent, ho, fun source h => by cases h⟩
    | some source =>
      rw [hfind] at ho
      dsimp only at ho
      unfold etcRenameSource at ho
      have hpasses : etcAdmit s (some actor) old new source victim requireDirectory = none ↔
          EtcPasses s actor old new source victim requireDirectory := by
        rw [etcAdmit_eq_none_iff]
        exact ⟨fun ⟨h1, h2, h3, h4⟩ => ⟨hacc.1, hacc.2, h1, h2, h3, h4⟩, fun h => ⟨h.3, h.4, h.5, h.6⟩⟩
      cases hadm : etcAdmit s (some actor) old new source (etcFindLocked s new next) requireDirectory with
      | some e =>
        rw [hadm] at ho
        refine .inl ⟨e, ho, fun source' h hp => ?_⟩
        cases h
        rw [hpasses.2 hp] at hadm
        cases hadm
      | none =>
        rw [hadm] at ho
        refine .inr ⟨source, rfl, hpasses.1 hadm, ?_⟩
        by_cases hv : etcFindLocked s new next = some source
        · rw [if_pos hv] at ho
          exact .inl ⟨hv, ho⟩
        rw [if_neg hv] at ho
        right
        cases hfit : (etcSourceAccess s (some actor) old new source).or
            ((etcReplaces s source (etcFindLocked s new next)).or (etcBelow s new source)) with
        | some e =>
          rw [hfit] at ho
          refine .inl ⟨hv, fun h => ?_, e, ho⟩
          rw [etcFits_iff.2 h] at hfit
          cases hfit
        | none =>
          rw [hfit] at ho
          exact .inr ⟨hv, etcFits_iff.1 hfit, _, ho⟩

theorem exists_foreign_etcRead {n : NodeId} : (∃ r ∈ etcRead s n, Foreign s r.1 r.2) ↔ Foreign s .etcfs n := by
  unfold etcRead
  by_cases h : (s.node n).record.isSome
  · simp [h]
  · simp [h, Foreign]

theorem exists_foreign_flatMap {l : List NodeId} :
    (∃ r ∈ l.flatMap (etcRead s), Foreign s r.1 r.2) ↔ ∃ c ∈ l, Foreign s .etcfs c := by
  constructor
  · rintro ⟨r, hr, hf⟩
    obtain ⟨c, hc, hr⟩ := List.mem_flatMap.1 hr
    exact ⟨c, hc, exists_foreign_etcRead.1 ⟨r, hr, hf⟩⟩
  · rintro ⟨c, hc, hf⟩
    obtain ⟨r, hr, hf⟩ := exists_foreign_etcRead.2 hf
    exact ⟨r, List.mem_flatMap.2 ⟨c, hc, hr⟩, hf⟩

/-- What the searches and access checks misread. -/
theorem exists_foreign_reads (he : (s.node old).table = .etcfs) :
    (∃ r ∈ etcRenameReads s (some actor) old name new next, Foreign s r.1 r.2) ↔
      (etcAccessLocked s old (VFS_MAY_WRITE ||| VFS_MAY_EXEC) (some actor) = none ∧ Foreign s .etcfs new) ∨
      ∃ c, (c ∈ etcScan s name (s.node old).children ∨ c ∈ etcScan s next (s.node new).children) ∧
        Foreign s .etcfs c := by
  have hold : ¬Foreign s .etcfs old := fun h => h.1 (by rw [he]; rfl)
  unfold etcRenameReads
  simp only [List.mem_append, or_and_right, exists_or, Option.isSome_some, if_true, exists_foreign_etcRead,
    exists_foreign_flatMap, hold, false_or, true_and, etcDirAccess_some]
  by_cases ha : etcAccessLocked s old (VFS_MAY_WRITE ||| VFS_MAY_EXEC) (some actor) = none
  · simp only [ha, if_true, exists_foreign_etcRead, true_and, or_assoc]
  · simp [ha]

/-- What is misread of the victim's children. -/
theorem exists_foreign_victimReads :
    (∃ r ∈ etcVictimReads s (some actor) old new source victim, Foreign s r.1 r.2) ↔
      ∃ v, victim = some v ∧ EtcMovable s actor old new source ∧ (s.node source).type = (s.node v).type ∧
        (s.node v).type = .directory ∧ ∃ c ∈ etcScanLive s (s.node v).children, Foreign s .etcfs c := by
  cases victim with
  | none => simp [etcVictimReads]
  | some v =>
    simp only [etcVictimReads, Option.some.injEq, exists_eq_left']
    rw [← etcSourceAccess_eq_none_iff]
    by_cases h : etcSourceAccess s (some actor) old new source = none ∧
        (s.node source).type = (s.node v).type ∧ (s.node v).type = .directory
    · rw [if_pos h, exists_foreign_flatMap]
      exact ⟨fun hc => ⟨h.1, h.2.1, h.2.2, hc⟩, fun hc => hc.2.2.2⟩
    rw [if_neg h]
    refine iff_of_false (by simp) ?_
    rintro ⟨h1, h2, h3, _⟩
    exact h ⟨h1, h2, h3⟩

theorem separated_error_iff {e : VfsErr} {reads : List (Driver × NodeId)} :
    Separated s ⟨some e, s, reads⟩ ↔ ¬∃ r ∈ reads, Foreign s r.1 r.2 :=
  ⟨fun h ⟨r, hr, hf⟩ => h.own r hr hf, fun h => ⟨by simp, rfl, fun r hr hf => h ⟨r, hr, hf⟩⟩⟩

theorem separated_fail (e : VfsErr) : Separated s (fail s e) :=
  separated_error_iff.2 fun ⟨_, hr, _⟩ => List.not_mem_nil hr

/-- **etcfs alone.** Out of an etcfs directory, the callback stays separate exactly when it
meets no other filesystem's record and does not grant the rename. -/
theorem separated_etcRenameActor_iff (hn : etcNames name next = true) (he : (s.node old).table = .etcfs) :
    Separated s (etcRenameActor s (some actor) old name new next requireDirectory) ↔
      ¬(EtcMisreads s actor old name new next requireDirectory ∨
        EtcGrants s actor old name new next requireDirectory) := by
  have hearly := @exists_foreign_reads s actor old new name next he
  obtain ⟨e, ho, hno⟩ | ⟨source, hfind, hpass, hrest⟩ :=
    @etcRenameActor_cases s actor old new name next requireDirectory hn
  · -- refused early: only the searches and the access checks can have misread
    rw [ho, separated_error_iff, hearly, not_iff_not]
    constructor
    · rintro (⟨ha, hf⟩ | ⟨c, hc, hf⟩)
      · exact .inl (.destination ha hf)
      · exact .inl (.child c hc hf)
    rintro ((⟨ha, hf⟩ | ⟨c, hc, hf⟩ | ⟨source, v, c, hfind, hv, _, hp, _⟩) | ⟨source, hfind, hp, _⟩)
    · exact .inl ⟨ha, hf⟩
    · exact .inr ⟨c, hc, hf⟩
    · rw [← hv] at hp
      exact absurd hp (hno source hfind)
    · exact absurd hp (hno source hfind)
  obtain ⟨hv, ho⟩ | ⟨hv, hfit, e, ho⟩ | ⟨hv, hfit, s', ho⟩ := hrest
  · rw [ho]
    exact iff_of_false (fun h => h.failed rfl) (not_not.2 (.inr ⟨source, hfind, hpass, .inl hv⟩))
  · -- refused late: the victim's children have been looked at too
    rw [ho, separated_error_iff, not_iff_not]
    simp only [List.mem_append, or_and_right, exists_or]
    rw [hearly, exists_foreign_victimReads]
    constructor
    · rintro ((⟨ha, hf⟩ | ⟨c, hc, hf⟩) | ⟨v, hvic, hm, ht, hd, c, hc, hf⟩)
      · exact .inl (.destination ha hf)
      · exact .inl (.child c hc hf)
      rw [hvic] at hpass hv
      exact .inl (.grandchild source v c hfind hvic (fun h => hv (by rw [h])) hpass hm ht hd hc hf)
    rintro ((⟨ha, hf⟩ | ⟨c, hc, hf⟩ | ⟨source', v, c, hfind', hvic, _, _, hm, ht, hd, hc, hf⟩) |
      ⟨source', hfind', _, hg⟩)
    · exact .inl (.inl ⟨ha, hf⟩)
    · exact .inl (.inr ⟨c, hc, hf⟩)
    · cases hfind.symm.trans hfind'
      exact .inr ⟨v, hvic, hm, ht, hd, c, hc, hf⟩
    · cases hfind.symm.trans hfind'
      exact absurd hg (not_or.2 ⟨hv, hfit⟩)
  · rw [ho]
    exact iff_of_false (fun h => h.failed rfl) (not_not.2 (.inr ⟨source, hfind, hpass, .inr hfit⟩))

end Etc

/-! ## Across filesystems -/

section Across

variable {k : Kernel} {s : Store} {actor : Creds} {old new : NodeId} {name next : CStr} {requireDirectory : Bool}

section

variable (hx : (s.node old).table ≠ (s.node new).table)

include hx

theorem separated_runRenameActor (ho : (s.node old).table = .runfs) :
    Separated s (runRenameActor s actor old name new next requireDirectory) := by
  have hne : (s.node new).table.driver ≠ .runfs := by
    intro hn
    rw [ho] at hx
    cases h : (s.node new).table with
    | runfs => exact hx h.symm
    | boot | etcfs | ext4 m e j | ext2 m r => rw [h] at hn; cases hn
  unfold runRenameActor
  rw [if_pos hne]
  exact separated_fail .eopnotsupp

theorem separated_e4JrenameCommon {a : Option Creds} (ho : (s.node old).table.driver = .ext4)
    (hn : (s.node new).table.driver = .ext4) :
    Separated s (e4JrenameCommon k s old name new next requireDirectory a) := by
  have hown : ∀ e, Separated s ⟨some e, s, [(.ext4, old), (.ext4, new)]⟩ := by
    intro e
    exact separated_error_iff.2 (by simp [Foreign, ho, hn])
  unfold e4JrenameCommon
  split
  · exact separated_fail .einval
  split
  · exact hown _
  split
  · exact hown _
  · exact hown _

theorem separated_e4RenameActor (ho : (s.node old).table.driver = .ext4) :
    Separated s (e4RenameActor k s old name new next requireDirectory actor) := by
  unfold e4RenameActor
  by_cases hn : (s.node new).table.driver = .ext4
  · rw [if_neg (not_not.2 hn)]
    split
    · exact separated_e4JrenameCommon hx ho hn
    · exact separated_error_iff.2 (by simp [Foreign, ho])
    · exact separated_fail .eio
  · rw [if_pos hn]
    exact separated_fail .eopnotsupp

theorem separated_extRenameActor (ho : (s.node old).table.driver = .ext2) :
    Separated s (extRenameActor k s old name new next requireDirectory actor) := by
  unfold extRenameActor
  by_cases hn : (s.node new).table.driver = .ext2
  · rw [if_neg (not_not.2 hn), extRenameCommon, if_pos hx]
    exact separated_error_iff.2 (by simp [Foreign, ho, hn])
  · rw [if_pos hn]
    exact separated_fail .eopnotsupp

end

variable {oldpath newpath : CStr}

/-- Out of a boot directory nothing can be renamed: it has no `rename` callback. -/
theorem separated_renameGeneric (ho : (s.node old).table = .boot)
    (hp : normalizePath oldpath ≠ normalizePath newpath) :
    Separated s (renameGeneric k s old new oldpath newpath actor) := by
  have hr : (s.node old).table.rename = none := by rw [ho]; rfl
  unfold renameGeneric
  split
  · exact separated_fail _
  rw [if_neg hp]
  split
  · unfold renameOwned
    rw [hr]
    exact separated_fail _
  unfold renameLegacy
  split
  · exact separated_fail _
  split
  · exact separated_fail _
  rw [if_pos (.inl hr)]
  exact separated_fail _

/-- Out of an etcfs directory, names that etcfs refuses included. -/
theorem separated_etc_iff (he : (s.node old).table = .etcfs) :
    Separated s (etcRenameActor s (some actor) old name new next requireDirectory) ↔
      ¬(etcNames name next = true ∧ (EtcMisreads s actor old name new next requireDirectory ∨
        EtcGrants s actor old name new next requireDirectory)) := by
  by_cases hn : etcNames name next = true
  · rw [separated_etcRenameActor_iff hn he]
    simp [hn]
  refine iff_of_true ?_ fun h => hn h.1
  unfold etcRenameActor
  rw [if_pos hn]
  exact separated_fail .einval

/-- A check that an exposed rename passes. -/
theorem separated_check_iff {p E : Prop} [Decidable p] {e : VfsErr} {o : Outcome} (hp : p → ¬E)
    (h : ¬p → (Separated s o ↔ ¬E)) : Separated s (if p then fail s e else o) ↔ ¬E := by
  split
  · exact iff_of_true (separated_fail e) (hp ‹_›)
  · exact h ‹_›

/-- The parents found, every filesystem but etcfs keeps out by itself. -/
theorem separated_renameIn_iff (hx : (s.node old).table ≠ (s.node new).table)
    (hpath : normalizePath oldpath ≠ normalizePath newpath)
    (hlen : oldpath.length < VFS_MAX_PATH ∧ newpath.length < VFS_MAX_PATH)
    (hroot : normalizePath oldpath ≠ "/".toList ∧ normalizePath newpath ≠ "/".toList) :
    Separated s (renameIn k s old new oldpath newpath actor) ↔ ¬Exposed k s oldpath newpath actor old new := by
  unfold renameIn
  refine separated_check_iff (fun hdir h => hdir.elim (fun hd => hd h.dirs.1) fun hd => hd h.dirs.2) fun hdir => ?_
  refine separated_check_iff (fun hroute h => ?_) fun hroute => ?_
  · rw [h.unrouted.1, h.unrouted.2] at hroute
    simp at hroute
  have hother : (s.node old).table ≠ .etcfs → ¬Exposed k s oldpath newpath actor old new := fun hne h => hne h.etc
  cases htable : (s.node old).table with
  | boot => exact iff_of_true (separated_renameGeneric htable hpath) (hother (by simp [htable]))
  | runfs => exact iff_of_true (separated_runRenameActor hx htable) (hother (by simp [htable]))
  | ext4 m e j =>
    exact iff_of_true (separated_e4RenameActor hx (by rw [htable]; rfl)) (hother (by simp [htable]))
  | ext2 m r =>
    exact iff_of_true (separated_extRenameActor hx (by rw [htable]; rfl)) (hother (by simp [htable]))
  | etcfs =>
    refine (separated_etc_iff htable).trans (not_congr ⟨fun h => ?_, fun h => ⟨h.names, h.harmed⟩⟩)
    push Not at hdir
    simp only [not_or, Option.not_isSome_iff_eq_none] at hroute
    exact ⟨hlen.1, hlen.2, hroot, hdir, hroute, htable, h.1, h.2⟩

/-- **Rename across filesystems.** For any two paths whose parents lie on different filesystems
and any actor, the rename fails, changes nothing and reads no foreign record, exactly when it
is not one out of an etcfs directory that nothing stops in time. -/
theorem rename_separated_iff {oldpath newpath : CStr} (hres : Resolved k s oldpath newpath actor old new)
    (hx : (s.node old).table ≠ (s.node new).table) :
    Separated s (renameCommon k s oldpath newpath actor) ↔ ¬Exposed k s oldpath newpath actor old new := by
  have hpath : normalizePath oldpath ≠ normalizePath newpath := by
    intro h
    have hsame := hres.old_ok
    rw [h, hres.new_ok] at hsame
    cases hsame
    exact hx rfl
  unfold renameCommon
  refine separated_check_iff (fun hlen h => ?_) fun hlen => ?_
  · have := h.oldpath_len
    have := h.newpath_len
    omega
  refine separated_check_iff (fun hroot h => not_or.2 h.not_root hroot) fun hroot => ?_
  -- what the generic layer asks of the names, etcfs asks again
  have hnames : Exposed k s oldpath newpath actor old new → ¬(lastName (normalizePath oldpath)).isEmpty ∧
      ¬(lastName (normalizePath newpath)).isEmpty ∧ (lastName (normalizePath newpath)).length < VFS_MAX_NAME := by
    intro h
    have hn := h.names
    simp only [etcNames, Bool.and_eq_true, Bool.not_eq_true', decide_eq_true_eq] at hn
    obtain ⟨⟨⟨⟨⟨h1, h2⟩, _⟩, _⟩, h3⟩, _⟩ := hn
    exact ⟨by simp [h1], by simp [h2], h3⟩
  refine separated_check_iff (fun hempty h => hempty.elim (hnames h).1 (hnames h).2.1) fun _ => ?_
  refine separated_check_iff (fun hlong h => absurd (hnames h).2.2 (Nat.not_lt.2 hlong)) fun _ => ?_
  rw [hres.old_ok, hres.new_ok]
  exact separated_renameIn_iff hx hpath (by omega) (not_or.1 hroot)

end Across

/-! A booted live system: `/` from the archive, `/etc` with one file, an empty `/run`. -/

def superuser : Creds := ⟨0, 0, List.replicate 16 0, 0, 0o22, 0, CAP_ALL⟩

def liveNode (name path : String) (type : NodeType) (mode : Nat) (table : Table) (parent : Option NodeId)
    (children : List NodeId) (record : Option EtcEntry) : Node :=
  ⟨name.toList, path.toList, type, ⟨mode, 0, 0, 0⟩, table, parent, children, record, ⟨0, true, false, true, false⟩⟩

def liveStore : Store where
  node
    | 0 => liveNode "/" "/" .directory 0o40755 .boot none [1, 3] none
    | 1 => liveNode "etc" "/etc" .directory 0o40755 .etcfs (some 0) [2] (some ⟨false, 0, 0, false, false⟩)
    | 2 => liveNode "motd" "/etc/motd" .file 0o100644 .etcfs (some 1) [] (some ⟨false, 0, 0, false, false⟩)
    | 3 => liveNode "run" "/run" .directory 0o40755 .runfs (some 0) [] none
    | _ => Node.zero
  size := 4
  runPool := [3]
  etcfsAllocatedBytes := 0
  freed := []

def liveKernel : Kernel where
  boot := ⟨false, false, [], 0, []⟩
  resolve s p _ := match [0, 1, 2, 3].find? fun n => (s.node n).path == p with
    | some n => .ok n
    | none => .error .enoent
  vfsLookup s p := [0, 1, 2, 3].find? fun n => (s.node n).path == p
  diskPermission _ _ _ _ := none
  e4StateAccount _ _ := none
  e4AccountName _ _ _ := false
  e4Move s _ _ _ _ _ _ := fail s .eio
  e4Rename s _ _ _ _ := fail s .eio
  extMove s _ _ _ _ _ _ := fail s .eio
  legacyMove s _ _ _ _ _ := fail s .eio

/-- Moving the file of `/etc` into `/run` is granted and links an etcfs node below a runfs
directory. -/
theorem rename_etc_to_run :
    Resolved liveKernel liveStore "/etc/motd".toList "/run/motd".toList superuser 1 3 ∧
      (liveStore.node 1).table ≠ (liveStore.node 3).table ∧
      (renameCommon liveKernel liveStore "/etc/motd".toList "/run/motd".toList superuser).rc = none ∧
      ((renameCommon liveKernel liveStore "/etc/motd".toList "/run/motd".toList superuser).store.node 3).children = [2] ∧
      ((liveStore.node 2).table = .etcfs ∧ (liveStore.node 3).table = .runfs) ∧
      ¬Separated liveStore (renameCommon liveKernel liveStore "/etc/motd".toList "/run/motd".toList superuser) := by
  have hrc : (renameCommon liveKernel liveStore "/etc/motd".toList "/run/motd".toList superuser).rc = none := by
    decide +kernel
  refine ⟨⟨rfl, rfl⟩, by decide, hrc, by decide +kernel, by decide, fun h => h.failed hrc⟩

/-- The other way round, from `/run` into `/etc`, is refused. -/
theorem rename_separated_run_to_etc :
    Resolved liveKernel liveStore "/run/motd".toList "/etc/motd".toList superuser 3 1 ∧
      (liveStore.node 3).table ≠ (liveStore.node 1).table ∧
      Separated liveStore (renameCommon liveKernel liveStore "/run/motd".toList "/etc/motd".toList superuser) := by
  have hres : Resolved liveKernel liveStore "/run/motd".toList "/etc/motd".toList superuser 3 1 := ⟨rfl, rfl⟩
  have hx : (liveStore.node 3).table ≠ (liveStore.node 1).table := by decide
  exact ⟨hres, hx, (rename_separated_iff hres hx).2 fun h => absurd h.etc (by decide)⟩

end Fortress.Vfs
