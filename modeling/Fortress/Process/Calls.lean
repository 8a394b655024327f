/-
What the calls of the process table do, said once for groups and for reaping.
Most change nothing that either looks at (`Minor`): flags of no consequence,
times, and events of children that have not ended. A reference to a group
changes a counter of its slot (`Referred`), `setpgid` moves a live record from
one slot to another (`Regroups`), and a creation takes free records (`Begins`).
-/
import Fortress.Process.Table

namespace Fortress.Process

open List

/-- The slot after one more member joins it. -/
def Group.joined (g : Group) (pgid sid : Nat) : Group :=
  if g.occupied then { g with members := g.members + 1 }
  else { g with pgid, sid, generation := g.generation + 1, members := 1 }

/-- The record is of the same process, at the same point of its life. -/
structure Record.Same (r r' : Record) : Prop where
  pid : r'.pid = r.pid
  used : r'.used = r.used
  exited : r'.exited = r.exited
  uncollected : r'.uncollected = r.uncollected
  torn : r'.teardownComplete = r.teardownComplete

/-- The record still belongs to the same child, and a final status is not changed. -/
structure Child.Kept (c c' : Child) : Prop where
  pid : c'.pid = c.pid
  parent : c'.parent = c.parent
  identity : c'.identityGeneration = c.identityGeneration
  final : c.done = true → c'.done = true ∧ c'.code = c.code ∧ c'.signal = c.signal ∧ c'.event = c.event

theorem Record.Same.refl (r : Record) : r.Same r := ⟨rfl, rfl, rfl, rfl, rfl⟩

theorem Child.Kept.refl (c : Child) : c.Kept c := ⟨rfl, rfl, rfl, fun h => ⟨h, rfl, rfl, rfl⟩⟩

theorem Child.Kept.trans {a b c : Child} (h : a.Kept b) (h' : b.Kept c) : a.Kept c := by
  refine ⟨h'.pid.trans h.pid, h'.parent.trans h.parent, h'.identity.trans h.identity, ?_⟩
  intro hd
  obtain ⟨hb, hcode, hsignal, hevent⟩ := h.final hd
  obtain ⟨hc, hcode', hsignal', hevent'⟩ := h'.final hb
  exact ⟨hc, hcode'.trans hcode, hsignal'.trans hsignal, hevent'.trans hevent⟩

/-- As `Kept`, and the child has neither ended nor was its end reported. -/
structure Child.Same (c c' : Child) : Prop extends c.Kept c' where
  used : c'.used = c.used
  done : c'.done = c.done
  seqs : c.reportedSeq ≤ c.eventSeq → c'.reportedSeq ≤ c'.eventSeq
  unreported : c.used = true → c.done = true → c'.eventSeq = c.eventSeq ∧ c'.reportedSeq = c.reportedSeq

theorem Child.Same.refl (c : Child) : c.Same c := ⟨.refl c, rfl, rfl, id, fun _ _ => ⟨rfl, rfl⟩⟩

namespace Table

attribute [local simp] Table.setChild

variable {t t' t₁ t₂ t₃ : Table} {i j k l g pid pgid sid : Nat} {r : Record} {c : Child}

@[grind =] theorem setProcess_processes :
    (t.setProcess i r).processes j = if j = i then r else t.processes j := Function.update_apply ..

@[grind =] theorem setProcess_children : (t.setProcess i r).children k = t.children k := rfl

@[grind =] theorem setChild_children :
    (t.setChild k c).children l = if l = k then c else t.children l := Function.update_apply ..

@[grind =] theorem setProcess_groups : (t.setProcess i r).groups g = t.groups g := rfl

@[grind =] theorem setGroup_groups {x : Group} :
    (t.setGroup g x).groups i = if i = g then x else t.groups i := Function.update_apply ..

@[grind =] theorem setChild_processes : (t.setChild k c).processes i = t.processes i := rfl

@[simp] theorem setProcess_self : (t.setProcess i r).processes i = r := by simp [Table.setProcess]

theorem setProcess_ne (h : j ≠ i) : (t.setProcess i r).processes j = t.processes j := by simp [Table.setProcess, h]

@[simp] theorem setChild_self : (t.setChild k c).children k = c := by simp

theorem setChild_ne (h : l ≠ k) : (t.setChild k c).children l = t.children l := by simp [h]

theorem find_spec {pid : Nat} (h : t.find pid = some i) :
    i < PROCESS_CAPACITY ∧ (t.processes i).used = true ∧ (t.processes i).pid = pid := by
  refine ⟨mem_range.1 (mem_of_find?_eq_some h), ?_⟩
  have := find?_some h
  simpa using this

theorem groupLeave_record (i : Nat) : (t.groupLeave i).processes i = { t.processes i with group := none } := by
  unfold groupLeave
  split
  · rename_i h
    rw [← h]
  · simp [Table.setProcess]

/-! ## Changes of no consequence -/

/-- Every process is at the same point of its life, and no child ended or was reported to have. -/
structure Quiet (t t' : Table) : Prop where
  records : ∀ i, (t.processes i).Same (t'.processes i)
  children : ∀ k, (t.children k).Same (t'.children k)

theorem Quiet.of_eq (hp : t'.processes = t.processes) (hc : t'.children = t.children) : Quiet t t' := by
  refine ⟨fun i => ?_, fun k => ?_⟩
  · rw [hp]
    exact .refl _
  · rw [hc]
    exact .refl _

theorem Quiet.refl (t : Table) : Quiet t t := .of_eq rfl rfl

theorem Quiet.trans (h : Quiet t₁ t₂) (h' : Quiet t₂ t₃) : Quiet t₁ t₃ := by
  refine ⟨fun i => ?_, fun k => ?_⟩
  · have ha := h.records i
    have hb := h'.records i
    exact ⟨hb.pid.trans ha.pid, hb.used.trans ha.used, hb.exited.trans ha.exited, hb.uncollected.trans ha.uncollected,
      hb.torn.trans ha.torn⟩
  have ha := h.children k
  have hb := h'.children k
  refine ⟨ha.toKept.trans hb.toKept, hb.used.trans ha.used, hb.done.trans ha.done, fun hs => hb.seqs (ha.seqs hs), ?_⟩
  intro hu hd
  obtain ⟨he, hr⟩ := ha.unreported hu hd
  obtain ⟨he', hr'⟩ := hb.unreported (ha.used.trans hu) (ha.done.trans hd)
  exact ⟨he'.trans he, hr'.trans hr⟩

theorem Quiet.setProcess (h : (t.processes i).Same r) : Quiet t (t.setProcess i r) :=
  ⟨fun j => by grind -linarith [Record.Same.refl], fun k => .refl _⟩

theorem Quiet.setChild (h : (t.children k).Same c) : Quiet t (t.setChild k c) :=
  ⟨fun j => .refl _, fun l => by grind -linarith [Child.Same.refl]⟩

theorem Quiet.setGroup (t : Table) (g : Nat) (x : Group) : Quiet t (t.setGroup g x) := .of_eq rfl rfl

theorem groupLeave_quiet (t : Table) (i : Nat) : Quiet t (t.groupLeave i) := by
  unfold groupLeave
  split
  · exact .refl t
  rename_i g _
  exact (Quiet.setGroup t g { t.groups g with members := (t.groups g).members - 1 })
    |>.trans (.setProcess ⟨rfl, rfl, rfl, rfl, rfl⟩)

structure Minor (t t' : Table) : Prop extends Quiet t t' where
  groups : t'.groups = t.groups
  grouped : ∀ i, (t'.processes i).group = (t.processes i).group ∧ (t'.processes i).pgid = (t.processes i).pgid ∧
    (t'.processes i).sid = (t.processes i).sid

theorem Minor.refl (t : Table) : Minor t t := ⟨.refl t, rfl, fun _ => ⟨rfl, rfl, rfl⟩⟩

theorem Minor.trans (h : Minor t₁ t₂) (h' : Minor t₂ t₃) : Minor t₁ t₃ := by
  refine ⟨h.toQuiet.trans h'.toQuiet, h'.groups.trans h.groups, fun i => ?_⟩
  obtain ⟨hg, hp, hs⟩ := h.grouped i
  obtain ⟨hg', hp', hs'⟩ := h'.grouped i
  exact ⟨hg'.trans hg, hp'.trans hp, hs'.trans hs⟩

theorem Minor.setProcess (h : (t.processes i).Same r)
    (hg : r.group = (t.processes i).group ∧ r.pgid = (t.processes i).pgid ∧ r.sid = (t.processes i).sid) :
    Minor t (t.setProcess i r) := by
  exact ⟨.setProcess h, rfl, fun j => by grind -linarith⟩

variable (t)

theorem Minor.changed : Minor t t.changed := ⟨.of_eq rfl rfl, rfl, fun _ => ⟨rfl, rfl, rfl⟩⟩

theorem commit_minor (pid : Nat) : Minor t (t.processRecordCommit pid) := by
  unfold processRecordCommit
  split
  · exact .refl t
  · exact .setProcess ⟨rfl, rfl, rfl, rfl, rfl⟩ ⟨rfl, rfl, rfl⟩

theorem addTimes_minor (parent child : Nat) : Minor t (t.addTimes parent child) := by
  unfold addTimes
  split
  · exact .setProcess ⟨rfl, rfl, rfl, rfl, rfl⟩ ⟨rfl, rfl, rfl⟩
  · exact .refl t

theorem publishAll_minor (pid : Nat) (event : ChildEvent) (signal : UInt64) :
    Minor t (t.publishAll pid event signal) := by
  unfold publishAll
  generalize range PROCESS_CAPACITY = ks
  induction ks generalizing t with
  | nil => exact .refl t
  | cons k ks ih =>
    have hone : Minor t (publishOne pid event signal t k) := by
      unfold publishOne
      dsimp only
      split
      · rename_i hc
        simp only [Bool.and_eq_true, Bool.not_eq_true'] at hc
        have hopen : ∀ q : Prop, (t.children k).done = true → q := fun q hd => by simp [hc.2] at hd
        refine Minor.trans ⟨Quiet.setChild ?_, rfl, fun _ => ⟨rfl, rfl, rfl⟩⟩ (.changed _)
        exact ⟨⟨rfl, rfl, rfl, hopen _⟩, rfl, rfl, fun hle => Nat.le_succ_of_le hle, fun _ => hopen _⟩
      · exact .refl t
    exact hone.trans (ih _)

theorem stop_minor (pid : Nat) (signal : UInt64) : Minor t (t.processStop pid signal) := by
  unfold processStop
  split
  · exact .refl t
  split
  · exact .refl t
  rename_i i _ _
  have hset : Minor t (t.setProcess i { t.processes i with stopped := true }) :=
    .setProcess ⟨rfl, rfl, rfl, rfl, rfl⟩ ⟨rfl, rfl, rfl⟩
  exact hset.trans (publishAll_minor ..)

theorem resume_minor (pid : Nat) (killed : Bool) : Minor t (t.processResume pid killed) := by
  unfold processResume
  split
  · exact .refl t
  split
  · exact .refl t
  rename_i i _ _
  have hset : Minor t (t.setProcess i { t.processes i with stopped := false }) :=
    .setProcess ⟨rfl, rfl, rfl, rfl, rfl⟩ ⟨rfl, rfl, rfl⟩
  split
  · exact hset
  · exact hset.trans (publishAll_minor ..)

theorem regroupChildren_minor (pid pgid : Nat) : Minor t (t.regroupChildren pid pgid) := by
  refine ⟨⟨fun _ => .refl _, fun k => ?_⟩, rfl, fun _ => ⟨rfl, rfl, rfl⟩⟩
  unfold regroupChildren
  dsimp only
  split
  · exact ⟨⟨rfl, rfl, rfl, fun h => ⟨h, rfl, rfl, rfl⟩⟩, rfl, rfl, id, fun _ _ => ⟨rfl, rfl⟩⟩
  · exact .refl _

/-! ## Joining a group -/

theorem occupied_of_members {x : Group} (h : x.members ≠ 0) : x.occupied = true := by
  simp [Group.occupied, h]

/-- The scan of `group_join` allows this slot. -/
def Joinable (g pgid sid : Nat) : Prop :=
  g < PROCESS_GROUP_CAPACITY ∧
    (((t.groups g).members ≠ 0 ∧ (t.groups g).pgid = pgid ∧ (t.groups g).sid = sid) ∨
      ((t.groups g).occupied = false ∧ (t.groups g).generation ≠ 0xffffffffffffffff ∧
        ∀ h, h < PROCESS_GROUP_CAPACITY → (t.groups h).occupied = true → (t.groups h).pgid ≠ pgid))

/-- The slot may be given a new identity. -/
def Reusable (i : Nat) : Prop :=
  i < PROCESS_GROUP_CAPACITY ∧ (t.groups i).occupied = false ∧ (t.groups i).generation ≠ 0xffffffffffffffff

variable {t}

/-- The scan finds a group with members, the right id and the right session. -/
theorem joinScan_member {slots : List Nat} {free : Option Nat} (h : t.joinScan pgid sid slots free = .member g) :
    g ∈ slots ∧ (t.groups g).members ≠ 0 ∧ (t.groups g).pgid = pgid ∧ (t.groups g).sid = sid := by
  induction slots generalizing free with
  | nil => simp [joinScan] at h
  | cons i slots ih =>
    unfold joinScan at h
    grind -linarith

/-- The scan finds no occupied slot with the id, and perhaps one that may be reused. -/
theorem joinScan_absent {slots : List Nat} {free free' : Option Nat} (hslots : ∀ i ∈ slots, i < PROCESS_GROUP_CAPACITY)
    (hfree : ∀ i, free = some i → t.Reusable i) (h : t.joinScan pgid sid slots free = .absent free') :
    (∀ i ∈ slots, (t.groups i).occupied = true → (t.groups i).pgid ≠ pgid) ∧ ∀ i, free' = some i → t.Reusable i := by
  induction slots generalizing free with
  | nil =>
    cases h
    exact ⟨by simp, hfree⟩
  | cons i slots ih =>
    have hrest := fun j hj => hslots j (mem_cons_of_mem i hj)
    unfold joinScan at h
    dsimp only at h
    split at h
    · obtain ⟨hids, hnew⟩ := ih hrest (by grind -linarith [Reusable]) h
      grind -linarith
    split at h
    · obtain ⟨hids, hnew⟩ := ih hrest hfree h
      grind -linarith
    · split at h <;> cases h

theorem groupJoin_spec {create : Bool} (h : t.groupJoin pgid sid create = .ok (g, t')) :
    Joinable t g pgid sid ∧ t' = t.setGroup g ((t.groups g).joined pgid sid) := by
  unfold groupJoin at h
  split at h
  · cases h
  · rename_i i hscan
    cases h
    obtain ⟨hmem, hm, hp, hs⟩ := joinScan_member hscan
    refine ⟨⟨mem_range.1 hmem, .inl ⟨hm, hp, hs⟩⟩, ?_⟩
    rw [Group.joined, if_pos (occupied_of_members hm)]
  rename_i free hscan
  obtain ⟨hids, hfree⟩ := joinScan_absent (fun i hi => mem_range.1 hi) (by simp) hscan
  split at h
  · cases h
  split at h
  · cases h
  rename_i i
  cases h
  obtain ⟨hlt, hocc, hgen⟩ := hfree g rfl
  refine ⟨⟨hlt, .inr ⟨hocc, hgen, fun k hk => hids k (mem_range.2 hk)⟩⟩, ?_⟩
  rw [Group.joined, hocc]
  rfl

/-! ## The other calls -/

/-- The references of a slot change, and it is not taken into use by that. -/
def Referred (t t' : Table) : Prop :=
  ∃ g n, t' = t.setGroup g { t.groups g with refs := n } ∧ (n ≠ 0 → (t.groups g).occupied = true)

theorem Referred.refl (t : Table) : Referred t t :=
  ⟨0, (t.groups 0).refs, by simp [Table.setGroup], fun h => by simp [Group.occupied, h]⟩

theorem acquire_referred (t : Table) (sid pgid : Nat) (contended : Bool) :
    Referred t (t.processGroupAcquire sid pgid contended).2 := by
  unfold processGroupAcquire
  split
  · exact .refl t
  split
  · exact .refl t
  rename_i i hf
  dsimp only
  split
  · exact .refl t
  split
  · exact .refl t
  refine ⟨i, _, rfl, fun _ => occupied_of_members ?_⟩
  have := find?_some hf
  simp only [Bool.and_eq_true, bne_iff_ne] at this
  exact this.1

theorem tryRetain_referred (t : Table) (owned : GroupRef) (contended : Bool) :
    Referred t (t.processGroupTryRetain owned contended).2 := by
  unfold processGroupTryRetain
  split
  · exact .refl t
  dsimp only
  split
  · exact .refl t
  rename_i hrefs
  simp only [Bool.or_eq_true, beq_iff_eq, not_or] at hrefs
  exact ⟨_, _, rfl, fun _ => by simp [Group.occupied, hrefs.1.1.2]⟩

theorem releaseRef_referred (t : Table) (ref : GroupRef) : Referred t (t.processGroupReleaseRef ref).2 := by
  unfold processGroupReleaseRef
  split
  · exact .refl t
  rename_i i _
  refine ⟨i, _, rfl, fun hn => ?_⟩
  have hn : (t.groups i).refs ≠ 0 := by omega
  simp [Group.occupied, hn]

/-- `t` with the live record `i` moved to slot `g`, joined before the old slot is left. -/
def regrouped (t : Table) (i g pgid : Nat) : Table :=
  let t₁ := (t.setGroup g ((t.groups g).joined pgid (t.processes i).sid)).groupLeave i
  let t₂ := t₁.setProcess i { t₁.processes i with group := some g }
  t₂.setProcess i { t₂.processes i with pgid := pgid }

inductive Regroups (t : Table) : Table → Prop
  | minor {t' : Table} (h : Minor t t') : Regroups t t'
  | moved {i g pgid : Nat} {t' : Table} (hi : i < PROCESS_CAPACITY) (hu : (t.processes i).used = true)
      (he : (t.processes i).exited = false) (hp : pgid ≠ (t.processes i).pgid)
      (hj : Joinable t g pgid (t.processes i).sid) (h : Minor (t.regrouped i g pgid) t') : Regroups t t'

theorem setpgid_regroups (t : Table) (caller pid pgid : Nat) :
    Regroups t (t.processRecordSetpgid caller pid pgid).2 := by
  unfold processRecordSetpgid
  split
  · exact .minor (.refl t)
  dsimp only
  generalize (if pid = 0 then caller else pid) = pid
  generalize (if pgid = 0 then pid else pgid) = pgid
  split
  · rename_i s i _ hf
    obtain ⟨hi, hu, -⟩ := find_spec hf
    split
    · exact .minor (.refl t)
    rename_i hlive
    split
    · exact .minor (.refl t)
    split
    · exact .minor (.refl t)
    split
    · exact .minor (.refl t)
    split
    · exact .minor (.refl t)
    rename_i u hjoined
    have hlast : ∀ u : Table, Minor u (u.regroupChildren pid pgid).changed := fun u =>
      (regroupChildren_minor u pid pgid).trans (.changed _)
    split at hjoined
    · split at hjoined
      · cases hjoined
      rename_i hp _ g _ hjoin
      cases hjoined
      obtain ⟨hj, rfl⟩ := groupJoin_spec hjoin
      simp only [Bool.or_eq_true, not_or, Bool.not_eq_true] at hlive
      exact .moved hi hu hlive.1 (by simpa using hp) hj (hlast _)
    rename_i hp
    cases hjoined
    have hp : pgid = (t.processes i).pgid := by simpa using hp
    have hset : Minor t (t.setProcess i { t.processes i with pgid := pgid }) :=
      .setProcess ⟨rfl, rfl, rfl, rfl, rfl⟩ ⟨rfl, hp, rfl⟩
    exact .minor (hset.trans (hlast _))
  · exact .minor (.refl t)

/-- A creation is refused, or a free record joins a group and a free child record is reserved if the parent
may wait. -/
inductive Begins (t : Table) (pid parent : Nat) : Table → Prop
  | refused : Begins t pid parent t
  | taken {i g : Nat} {r : Record} {t' : Table} (hi : i < PROCESS_CAPACITY) (hfree : (t.processes i).used = false)
      (hnew : t.find pid = none) (hpos : 0 < pid) (hj : Joinable t g r.pgid r.sid)
      (hr : r = { pid, parent, pgid := r.pgid, sid := r.sid, used := true, group := some g })
      (h : let u := (t.setGroup g ((t.groups g).joined r.pgid r.sid)).setProcess i r
        t' = u ∨ ∃ k, k < PROCESS_CAPACITY ∧ (t.children k).used = false ∧ (t.find parent).isSome = true ∧
          t' = u.reserveChild k pid parent r.pgid) : Begins t pid parent t'

theorem begin_begins (t : Table) (pid parent : Nat) (waitable : Bool) (flags : UInt32) (pgid : Nat) :
    Begins t pid parent (t.processRecordBegin pid parent waitable flags pgid).2 := by
  unfold processRecordBegin
  split
  · exact .refused
  rename_i hargs
  split
  · exact .refused
  rename_i hfind
  dsimp only
  split
  · exact .refused
  rename_i hparent
  split
  · exact .refused
  rename_i i hfree
  split
  · exact .refused
  split
  · exact .refused
  rename_i group sid _
  split
  · exact .refused
  rename_i g u hjoin
  obtain ⟨hj, rfl⟩ := groupJoin_spec hjoin
  have hpos : 0 < pid := by
    simp only [Bool.or_eq_true, beq_iff_eq, not_or] at hargs
    omega
  refine .taken (r := { pid, parent, pgid := group, sid, used := true, group := some g })
    (mem_range.1 (mem_of_find?_eq_some hfree)) (by simpa using find?_some hfree) (by simpa using hfind)
    hpos hj rfl ?_
  split
  · rename_i hw
    cases hch : t.freeChild with
    | none => exact .inl rfl
    | some k =>
      refine .inr ⟨k, mem_range.1 (mem_of_find?_eq_some hch), by simpa using find?_some hch, ?_, rfl⟩
      cases hp : t.find parent with
      | none => simp [hw, record?, hp] at hparent
      | some j => rfl
  · exact .inl rfl

/-- Of what matters, only the flag changes in the record of an exiting process, and its group is left. -/
theorem exitRecord_eq (hf : t.find pid = some i) (ticks utime stime : UInt64) :
    ∃ u, Minor t u ∧ t.exitRecord pid ticks utime stime =
      (u.groupLeave i).setProcess i { (u.groupLeave i).processes i with exited := true } := by
  unfold exitRecord
  rw [hf]
  dsimp only
  generalize (if !(t.processes i).exited && decide (ticks > (t.processes i).cpuTicks) then ticks
    else (t.processes i).cpuTicks) = ticks'
  refine ⟨t.setProcess i { t.processes i with cpuTicks := ticks', utime := utime, stime := stime }, ?_, rfl⟩
  exact .setProcess ⟨rfl, rfl, rfl, rfl, rfl⟩ ⟨rfl, rfl, rfl⟩

theorem exitRecord_none (hf : t.find pid = none) (ticks utime stime : UInt64) :
    t.exitRecord pid ticks utime stime = t := by
  simp [exitRecord, hf]

variable (t)

theorem exit_eq (pid : Nat) (code signal ticks utime stime : UInt64) :
    (t.processRecordExitAccountedTimes pid code signal ticks utime stime).2 =
      ((List.range PROCESS_CAPACITY).foldl (exitChild pid (t.find pid) code signal)
        (t.exitRecord pid ticks utime stime)).changed := rfl

/-- The status of a child is taken or discarded: its child record goes, and its record too if it is torn
down. -/
def discard (k : Nat) : Table :=
  (t.collected (t.children k).pid).setChild k { (t.collected (t.children k).pid).children k with used := false }

theorem collected_children (pid : Nat) : (t.collected pid).children = t.children := by
  unfold collected
  split <;> rfl

/-- The status an exit gives its child record. -/
def ended (c : Child) (code signal : UInt64) : Child :=
  { c with
    code := if signal != 0 then 0 else code, signal, done := true
    event := if signal != 0 then .signaled else .exited, eventSeq := c.eventSeq + 1 }

/-- The first half of a round: the status of the exiting process is published. -/
def publishEnd (p : Option Nat) (code signal : UInt64) (t : Table) (k : Nat) : Table :=
  let t₁ := p.elim t fun i => t.setProcess i { t.processes i with uncollected := true }
  if !(t.children k).done then (t₁.setChild k (ended (t.children k) code signal)).changed else t₁

theorem exitChild_eq (pid : Nat) (p : Option Nat) (code signal : UInt64) (t : Table) (k : Nat) :
    exitChild pid p code signal t k =
      if !(t.children k).used then t
      else
        let t₁ := if (t.children k).pid == pid then publishEnd p code signal t k else t
        if (t.children k).parent == pid then
          (t₁.collected (t.children k).pid).setChild k
            { (t₁.collected (t.children k).pid).children k with used := false }
        else t₁ := rfl

theorem wait_cases (parent : Nat) (selector : Int) (options : UInt32) (legacy : Bool) :
    (t.processRecordWait parent selector options legacy).2 = t ∨
      ∃ k, t.waitScan parent selector options legacy = some k ∧
        (t.processRecordWait parent selector options legacy).2 = t.consume parent k := by
  unfold processRecordWait
  split
  · exact .inl rfl
  split
  · rename_i k hscan
    split
    · exact .inl rfl
    · exact .inr ⟨k, hscan, rfl⟩
  · exact .inl rfl

theorem addTimes_setChild (k : Nat) (c : Child) (parent child : Nat) :
    (t.setChild k c).addTimes parent child = (t.addTimes parent child).setChild k c := by
  unfold addTimes
  rw [show (t.setChild k c).find = t.find from rfl]
  split <;> rfl

theorem collected_setChild (k : Nat) (c : Child) (pid : Nat) :
    (t.setChild k c).collected pid = (t.collected pid).setChild k c := by
  unfold collected
  rw [show (t.setChild k c).find = t.find from rfl]
  split <;> rfl

theorem addTimes_children (parent child : Nat) : (t.addTimes parent child).children = t.children := by
  unfold addTimes
  split <;> rfl

variable {t}

/-- Taking a final status is adding the times and discarding the child record. -/
theorem consume_done (hd : (t.children k).done = true) (parent : Nat) :
    Quiet ((t.addTimes parent (t.children k).pid).discard k) (t.consume parent k) := by
  have heq : t.consume parent k = ((t.addTimes parent (t.children k).pid).discard k).setChild k
      { ((t.addTimes parent (t.children k).pid).discard k).children k with
        reportedSeq := (t.children k).eventSeq } := by
    simp only [consume, hd, if_true, discard, addTimes_setChild, collected_setChild, addTimes_children]
    simp [addTimes_children, collected_children, hd]
  rw [heq]
  refine .setChild ⟨⟨rfl, rfl, rfl, fun h => ⟨h, rfl, rfl, rfl⟩⟩, rfl, rfl, ?_, ?_⟩
  · intro _
    simp [discard, addTimes_children, collected_children]
  · intro hu
    simp [discard] at hu

theorem consume_open (hd : (t.children k).done = false) (parent : Nat) : Quiet t (t.consume parent k) := by
  have hopen : ∀ q : Prop, (t.children k).done = true → q := fun q h => by simp [hd] at h
  have heq : t.consume parent k = t.setChild k { t.children k with reportedSeq := (t.children k).eventSeq } := by
    simp [consume, hd]
  rw [heq]
  exact .setChild ⟨⟨rfl, rfl, rfl, hopen _⟩, rfl, rfl, fun _ => Nat.le_refl _, fun _ => hopen _⟩

end Table

end Fortress.Process
