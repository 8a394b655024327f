/-
Credentials over time (kernel/creds.c) and the files a process can leave
behind: a process without capabilities gains no id, and marks no regular file
set-user-ID or set-group-ID for an owner or a group it does not have.
-/
import Fortress.Lib.Machine
import Fortress.Vfs.Permission

namespace Fortress.Vfs

inductive CredsErr
  | eperm
  | einval

/-- `creds_t`: what decisions read and the ids they do not. -/
structure ProcCreds extends Creds where
  uid : Nat
  suid : Nat
  gid : Nat
  sgid : Nat

namespace ProcCreds

def uids (c : ProcCreds) : List Nat := [c.uid, c.euid, c.suid]

/-- The three group ids and the supplementary groups. -/
def gids (c : ProcCreds) : List Nat := [c.gid, c.egid, c.sgid] ++ c.groups.take c.ngroups

def withGroups (c : ProcCreds) (groups : List Nat) : ProcCreds :=
  { c with ngroups := groups.length, groups := groups ++ List.replicate (CREDS_MAX_GROUPS - groups.length) 0 }

end ProcCreds

variable (old : ProcCreds)

def credsInherit : Except CredsErr ProcCreds :=
  if credsValid old.toCreds then .ok old else .error .einval

def credsServiceIdentity (uid gid : Nat) (groups : List Nat) : Except CredsErr ProcCreds :=
  if ¬credsValid old.toCreds ∨ CREDS_MAX_GROUPS < groups.length then .error .einval
  else if old.capEffective &&& (CAP_SETUID ||| CAP_SETGID) ≠ CAP_SETUID ||| CAP_SETGID then .error .eperm
  else
    let next := old.withGroups groups
    .ok { next with
      uid, euid := uid, suid := uid, gid, egid := gid, sgid := gid
      capEffective := if uid ≠ 0 then 0 else old.capEffective }

def allowed (change : IdChange) (r e s : Nat) : Bool :=
  change.keep || change.value == r || change.value == e || change.value == s

def allAllowed (r e s : IdChange) (a b c : Nat) : Bool := allowed r a b c && allowed e a b c && allowed s a b c

/-- `setids` with `uid` set. -/
def credsSetresuid (r e s : IdChange) : Except CredsErr ProcCreds :=
  if ¬credsValid old.toCreds then .error .einval
  else if ¬old.has CAP_SETUID ∧ ¬allAllowed r e s old.uid old.euid old.suid then .error .eperm
  else
    let next := { old with uid := r.get old.uid, euid := e.get old.euid, suid := s.get old.suid }
    .ok (if next.uid ≠ 0 ∧ next.euid ≠ 0 ∧ next.suid ≠ 0 then { next with capEffective := 0 } else next)

/-- `setids` with `uid` clear. -/
def credsSetresgid (r e s : IdChange) : Except CredsErr ProcCreds :=
  if ¬credsValid old.toCreds then .error .einval
  else if ¬old.has CAP_SETGID ∧ ¬allAllowed r e s old.gid old.egid old.sgid then .error .eperm
  else .ok { old with gid := r.get old.gid, egid := e.get old.egid, sgid := s.get old.sgid }

def credsSetgroups (groups : List Nat) : Except CredsErr ProcCreds :=
  if ¬credsValid old.toCreds ∨ CREDS_MAX_GROUPS < groups.length then .error .einval
  else if ¬old.has CAP_SETGID then .error .eperm
  else .ok (old.withGroups groups)

def credsCapset (mask : Nat) : Except CredsErr ProcCreds :=
  if ¬credsValid old.toCreds ∨ CAP_ALL < mask then .error .einval
  else .ok { old with capEffective := old.capEffective &&& mask }

def credsUmask (mask : Nat) : Except CredsErr ProcCreds :=
  if ¬credsValid old.toCreds then .error .einval else .ok { old with umask := mask &&& 0o777 }

inductive Transition
  | inherit
  | serviceIdentity (uid gid : Nat) (groups : List Nat)
  | setresuid (r e s : IdChange)
  | setresgid (r e s : IdChange)
  | setgroups (groups : List Nat)
  | capset (mask : Nat)
  | umask (mask : Nat)

def ProcCreds.after (c : ProcCreds) : Transition → Except CredsErr ProcCreds
  | .inherit => credsInherit c
  | .serviceIdentity uid gid groups => credsServiceIdentity c uid gid groups
  | .setresuid r e s => credsSetresuid c r e s
  | .setresgid r e s => credsSetresgid c r e s
  | .setgroups groups => credsSetgroups c groups
  | .capset mask => credsCapset c mask
  | .umask mask => credsUmask c mask

/-- `c'` has no id, group or capability that `c` has not. -/
structure ProcCreds.Below (c' c : ProcCreds) : Prop where
  caps : c'.capEffective = 0
  uids : c'.uids ⊆ c.uids
  gids : c'.gids ⊆ c.gids

section
variable {c c' : ProcCreds}

theorem ProcCreds.Below.trans {c0 : ProcCreds} (h : c'.Below c) (h0 : c.Below c0) : c'.Below c0 :=
  ⟨h.caps, List.Subset.trans h.uids h0.uids, List.Subset.trans h.gids h0.gids⟩

theorem has_eq_false {v : Creds} (h : v.capEffective = 0) (cap : Nat) : v.has cap = false := by
  simp [Creds.has, h]

theorem allAllowed_subset {r e s : IdChange} {x y z : Nat} (h : allAllowed r e s x y z = true) :
    [r.get x, e.get y, s.get z] ⊆ [x, y, z] := by
  simp only [allAllowed, allowed, Bool.and_eq_true, Bool.or_eq_true, beq_iff_eq] at h
  simp only [IdChange.get, List.cons_subset, List.mem_cons, List.nil_subset]
  grind

/-- Without capabilities a transition only drops ids. -/
theorem after_below {t : Transition} (hc : c.capEffective = 0) (h : c.after t = .ok c') : c'.Below c := by
  have hkeep : c.Below c := ⟨hc, List.Subset.refl _, List.Subset.refl _⟩
  cases t with
  | inherit =>
    simp only [ProcCreds.after, credsInherit] at h
    split at h
    · cases h
      exact hkeep
    · cases h
  | serviceIdentity uid gid groups =>
    simp [ProcCreds.after, credsServiceIdentity, hc, CAP_SETUID, CAP_SETGID] at h
    split at h <;> cases h
  | setresuid r e s =>
    simp only [ProcCreds.after, credsSetresuid, has_eq_false hc] at h
    split at h
    · cases h
    split at h
    · cases h
    rename_i hall
    have hsub := allAllowed_subset (Decidable.of_not_not fun hn => hall ⟨Bool.false_ne_true, hn⟩)
    split at h <;> cases h
    · exact ⟨rfl, hsub, hkeep.gids⟩
    · exact ⟨hc, hsub, hkeep.gids⟩
  | setresgid r e s =>
    simp only [ProcCreds.after, credsSetresgid, has_eq_false hc] at h
    split at h
    · cases h
    split at h
    · cases h
    rename_i hall
    have hsub := allAllowed_subset (Decidable.of_not_not fun hn => hall ⟨Bool.false_ne_true, hn⟩)
    cases h
    exact ⟨hc, hkeep.uids, List.append_subset.2
      ⟨List.Subset.trans hsub (List.subset_append_left _ _), List.subset_append_right _ _⟩⟩
  | setgroups groups =>
    simp [ProcCreds.after, credsSetgroups, has_eq_false hc] at h
    split at h <;> cases h
  | capset mask =>
    simp only [ProcCreds.after, credsCapset] at h
    split at h <;> cases h
    exact ⟨by simp [hc], hkeep.uids, hkeep.gids⟩
  | umask mask =>
    simp only [ProcCreds.after, credsUmask] at h
    split at h <;> cases h
    exact ⟨hc, hkeep.uids, hkeep.gids⟩

theorem mem_gids_of_member {gid : Nat} (h : permissionGroupMember c.toCreds gid = true) : gid ∈ c.gids := by
  simp only [permissionGroupMember, Bool.and_eq_true, Bool.or_eq_true, beq_iff_eq, List.contains_iff_mem] at h
  simp only [ProcCreds.gids, List.cons_append, List.nil_append, List.mem_cons]
  grind

end

/-! ## What the value functions grant without capabilities -/

section
variable {old new : Metadata} {actor : Creds} {requested : Nat}

theorem without_and (mode bits : Nat) : without mode bits &&& bits = 0 := by
  apply Nat.eq_of_testBit_eq
  simp [without]

theorem without_and_of_and {mode a : Nat} (h : mode &&& a = 0) (bits : Nat) : without mode bits &&& a = 0 := by
  rw [without, Nat.and_xor_distrib_right, h, Nat.and_assoc, Nat.and_comm bits, ← Nat.and_assoc, h]
  simp

theorem chmodValue_spec (hc : actor.capEffective = 0) (h : permissionChmodValue old requested actor = .ok new) :
    new.uid = old.uid ∧ new.gid = old.gid ∧ actor.euid = old.uid ∧
      (new.mode &&& 0o2000 ≠ 0 → permissionGroupMember actor old.gid = true) := by
  simp only [permissionChmodValue, has_eq_false hc] at h
  split at h
  · cases h
  split at h
  · cases h
  split at h
  · cases h
  rename_i howner
  have howner : actor.euid = old.uid := by simpa using howner
  split at h <;> cases h
  · exact ⟨rfl, rfl, howner, fun hset => absurd (without_and _ _) hset⟩
  rename_i hmember
  exact ⟨rfl, rfl, howner, fun _ => by simpa using hmember⟩

theorem chownValue_spec (hc : actor.capEffective = 0) {uid gid : IdChange}
    (h : permissionChownValue old uid gid actor = .ok new) :
    new.uid = old.uid ∧ (new.gid = old.gid ∨ permissionGroupMember actor new.gid = true) := by
  simp only [permissionChownValue, has_eq_false hc] at h
  split at h
  · cases h
  split at h
  · cases h
  split at h
  · cases h
  rename_i hids
  cases h
  simp only [Bool.false_eq_true, not_false_eq_true, true_and, not_or, not_and, Decidable.not_not] at hids
  exact ⟨hids.2.1, Decidable.or_iff_not_imp_left.2 hids.2.2⟩

/-- No bit that would run the new content for its owner or its group is left. -/
theorem contentMode_spec (hc : actor.capEffective = 0) (hreg : old.mode &&& VFS_S_IFMT = VFS_S_IFREG) :
    permissionContentMode old actor &&& 0o4000 = 0 ∧
      (permissionContentMode old actor &&& 0o2000 = 0 ∨ permissionContentMode old actor &&& 0o0010 = 0) := by
  simp only [permissionContentMode, has_eq_false hc, hreg, ne_eq, not_true_eq_false, if_false, Bool.false_eq_true,
    and_false]
  split
  · exact ⟨without_and_of_and (without_and _ _) _, .inl (without_and _ _)⟩
  rename_i hexec
  exact ⟨without_and _ _, .inr (Decidable.of_not_not fun h => hexec (.inl h))⟩

theorem createValue_spec (hc : actor.capEffective = 0) {dir : Metadata} {a : CreateAttrs}
    (h : permissionCreateValue dir .file requested actor = .ok a) :
    a.uid = actor.euid ∧ (a.mode &&& 0o2000 ≠ 0 → permissionGroupMember actor a.gid = true) := by
  simp only [permissionCreateValue, has_eq_false hc, if_true] at h
  split at h
  · cases h
  split at h
  · cases h
  generalize (if dir.mode &&& 0o2000 ≠ 0 then dir.gid else actor.egid) = gid at h
  split at h <;> cases h
  · exact ⟨rfl, fun hset => absurd (without_and _ _) hset⟩
  rename_i hmember
  exact ⟨rfl, fun _ => by simpa using hmember⟩

end

/-! ## A process and its files -/

/-- A file, and whether the process set its set-user-ID bit, or its
set-group-ID bit with group execute, or changed its content and left it set. -/
structure MarkedFile where
  value : Metadata
  setuid : Bool := false
  setgid : Bool := false

namespace MarkedFile

def mark (f : MarkedFile) : MarkedFile :=
  { f with
    setuid := f.setuid || f.value.mode &&& 0o4000 != 0
    setgid := f.setgid || (f.value.mode &&& 0o2000 != 0 && f.value.mode &&& 0o0010 != 0) }

inductive Edit
  | chmod (requested : Nat)
  | chown (uid gid : IdChange)
  /-- a positive write or a truncation; access was decided when the file was opened -/
  | content

def edit (f : MarkedFile) (actor : Creds) : Edit → Except VfsErr MarkedFile
  | .chmod requested => (permissionChmodValue f.value requested actor).map fun value => mark { f with value }
  | .chown uid gid => (permissionChownValue f.value uid gid actor).map fun value => { f with value }
  | .content => .ok (mark { f with value.mode := permissionContentMode f.value actor })

/-- A marked file belongs to the credentials it was marked under. -/
def Within (f : MarkedFile) (c : ProcCreds) : Prop :=
  (f.setuid = true → f.value.uid ∈ c.uids) ∧ (f.setgid = true → f.value.gid ∈ c.gids)

theorem Within.mark {f : MarkedFile} {c : ProcCreds} (h : f.Within c)
    (hu : f.value.mode &&& 0o4000 ≠ 0 → f.value.uid ∈ c.uids)
    (hg : f.value.mode &&& 0o2000 ≠ 0 → f.value.mode &&& 0o0010 ≠ 0 → f.value.gid ∈ c.gids) : f.mark.Within c := by
  constructor
  · intro hm
    exact (Bool.or_eq_true _ _ ▸ hm).elim h.1 fun hb => hu (by simpa using hb)
  intro hm
  exact (Bool.or_eq_true _ _ ▸ hm).elim h.2 fun hb => by
    simp only [Bool.and_eq_true, bne_iff_ne] at hb
    exact hg hb.1 hb.2

end MarkedFile

structure Actor where
  creds : ProcCreds
  files : Nat → Option MarkedFile

inductive Op
  | creds (t : Transition)
  | create (id : Nat) (dir : Metadata) (requested : Nat)
  | edit (id : Nat) (e : MarkedFile.Edit)

namespace Actor

def put (w : Actor) (id : Nat) (f : MarkedFile) : Actor :=
  { w with files := fun i => if i = id then some f else w.files i }

/-- What is refused changes nothing. -/
def step (w : Actor) : Op → Actor
  | .creds t =>
    match w.creds.after t with
    | .ok c => { w with creds := c }
    | .error _ => w
  | .create id dir requested =>
    match w.files id, permissionAccessValue dir (VFS_MAY_WRITE ||| VFS_MAY_EXEC) w.creds.toCreds,
      permissionCreateValue dir .file requested w.creds.toCreds with
    | none, none, .ok a =>
      w.put id (MarkedFile.mark { value :=
        { mode := VFS_S_IFREG ||| (a.mode &&& 0o7777), uid := a.uid, gid := a.gid, mntFlags := dir.mntFlags } })
    | _, _, _ => w
  | .edit id e =>
    match w.files id with
    | none => w
    | some f =>
      if f.value.mode &&& VFS_S_IFMT = VFS_S_IFREG then
        match f.edit w.creds.toCreds e with
        | .ok f' => w.put id f'
        | .error _ => w
      else w

/-- A process that starts with these credentials and has marked nothing yet. -/
def machine (c : ProcCreds) : Machine Actor Op where
  init w := w.creds = c ∧ ∀ id f, w.files id = some f → f.setuid = false ∧ f.setgid = false
  step w op w' := w' = w.step op

/-- The process and its marked files stay within the credentials `c`. -/
structure Confined (c : ProcCreds) (w : Actor) : Prop where
  creds : w.creds.Below c
  files : ∀ id f, w.files id = some f → f.Within c

section
variable {c : ProcCreds} {w : Actor}

theorem Confined.put (h : Confined c w) (id : Nat) {f : MarkedFile} (hf : f.Within c) : Confined c (w.put id f) := by
  refine ⟨h.creds, fun i g hg => ?_⟩
  simp only [Actor.put] at hg
  split at hg
  · cases hg
    exact hf
  · exact h.files i g hg

theorem Confined.euid (h : Confined c w) : w.creds.euid ∈ c.uids := h.creds.uids (by simp [ProcCreds.uids])

theorem Confined.member (h : Confined c w) {gid : Nat} (hm : permissionGroupMember w.creds.toCreds gid = true) :
    gid ∈ c.gids :=
  h.creds.gids (mem_gids_of_member hm)

theorem Confined.edit (h : Confined c w) {f f' : MarkedFile} (hf : f.Within c)
    (hreg : f.value.mode &&& VFS_S_IFMT = VFS_S_IFREG) {e : MarkedFile.Edit}
    (he : f.edit w.creds.toCreds e = .ok f') : f'.Within c := by
  cases e with
  | chmod requested =>
    cases hv : permissionChmodValue f.value requested w.creds.toCreds with
    | error => simp [MarkedFile.edit, hv, Except.map] at he
    | ok m =>
      obtain ⟨huid, hgid, howner, hmember⟩ := chmodValue_spec h.creds.caps hv
      simp only [MarkedFile.edit, hv, Except.map, Except.ok.injEq] at he
      subst he
      have hm : MarkedFile.Within { f with value := m } c := by rwa [MarkedFile.Within, huid, hgid]
      exact hm.mark (fun _ => huid ▸ howner ▸ h.euid) fun hs _ => hgid ▸ h.member (hmember hs)
  | chown uid gid =>
    cases hv : permissionChownValue f.value uid gid w.creds.toCreds with
    | error => simp [MarkedFile.edit, hv, Except.map] at he
    | ok m =>
      obtain ⟨huid, hgid⟩ := chownValue_spec h.creds.caps hv
      simp only [MarkedFile.edit, hv, Except.map, Except.ok.injEq] at he
      subst he
      exact ⟨fun hs => huid ▸ hf.1 hs, fun hs => hgid.elim (fun hg => hg ▸ hf.2 hs) h.member⟩
  | content =>
    obtain ⟨hu, hg⟩ := contentMode_spec h.creds.caps hreg
    cases he
    exact MarkedFile.Within.mark hf (fun hs => absurd hu hs) fun hs hx => (hg.elim hs hx).elim

theorem Confined.step (h : Confined c w) (op : Op) : Confined c (w.step op) := by
  unfold Actor.step
  split
  · split
    · rename_i hafter
      exact ⟨(after_below h.creds.caps hafter).trans h.creds, h.files⟩
    · exact h
  · split
    · rename_i a _ _ hv
      obtain ⟨huid, hmember⟩ := createValue_spec h.creds.caps hv
      refine h.put _ (MarkedFile.Within.mark ⟨by simp, by simp⟩ (fun _ => huid ▸ h.euid) fun hs _ => ?_)
      have hbits : (VFS_S_IFREG ||| (a.mode &&& 0o7777)) &&& 0o2000 = a.mode &&& 0o2000 := by
        rw [Nat.and_or_distrib_right, Nat.and_assoc]
        simp [VFS_S_IFREG]
      exact h.member (hmember (hbits ▸ hs))
    · exact h
  split
  · exact h
  split
  · split
    · rename_i hf hreg _ _ he
      exact h.put _ (h.edit (h.files _ _ hf) hreg he)
    · exact h
  · exact h

/-- **No privilege without capabilities.** Whatever a process without
capabilities does, its ids, groups and marked files stay within the
credentials it started with. -/
theorem no_escalation (hc : c.capEffective = 0) (hw : (machine c).Reach w) : Confined c w := by
  refine hw.invariant (fun w hw => ⟨?_, fun id f hf => ?_⟩) fun w op w' h hs => hs ▸ h.step op
  · rw [hw.1]
    exact ⟨hc, List.Subset.refl _, List.Subset.refl _⟩
  · obtain ⟨hu, hg⟩ := hw.2 id f hf
    exact ⟨fun hs => absurd (hu.symm.trans hs) Bool.false_ne_true, fun hs => absurd (hg.symm.trans hs) Bool.false_ne_true⟩

end

def userCreds : ProcCreds :=
  { uid := 1000, euid := 1000, suid := 1000, gid := 100, egid := 100, sgid := 100, groups := List.replicate 16 0
    ngroups := 0, umask := 0o22, reserved := 0, capEffective := 0 }

/-- A user makes a set-user-ID file of its own. -/
theorem no_escalation_own_file : ∃ w, ((w.files 0).map (·.setuid) = some true ∧ Confined userCreds w) :=
  ⟨step { creds := userCreds, files := fun _ => none } (.create 0 ⟨0o40777, 0, 0, 0⟩ 0o4755), by decide,
    no_escalation rfl (.step (.init ⟨rfl, by simp⟩) rfl)⟩

end Actor

end Fortress.Vfs
