/-
Process groups. The members of a group slot are the live records in it, no two
occupied slots have one group id, and a slot takes a new identity only when
nobody is in it and nobody holds a reference, with a larger generation.

A record and a slot are changed in two ways only: a record leaves its group,
or it enters one that `group_join` allowed (`Joinable`). `setpgid` joins before
it leaves; the two commute because the slots differ.
-/
import Fortress.Lib.Count
import Fortress.Process.Calls

namespace Fortress.Process

open Function

/-- The identity of a slot stays and it is not taken into use, or nobody was in it or referred to it and
it gets a larger generation. -/
def Group.Kept (x x' : Group) : Prop :=
  (x'.pgid = x.pgid ∧ x'.sid = x.sid ∧ x'.generation = x.generation ∧ (x'.occupied = true → x.occupied = true)) ∨
    (x.occupied = false ∧ x.generation < x'.generation)

theorem Group.Kept.refl (x : Group) : x.Kept x := .inl ⟨rfl, rfl, rfl, id⟩

/-- After any number of changes: generations only grow, and one generation has one identity. -/
def Group.Later (x x' : Group) : Prop :=
  x.generation ≤ x'.generation ∧ (x'.generation = x.generation → x'.pgid = x.pgid ∧ x'.sid = x.sid)

theorem Group.Later.refl (x : Group) : x.Later x := ⟨UInt64.le_refl _, fun _ => ⟨rfl, rfl⟩⟩

theorem Group.Kept.later {x x' : Group} (h : x.Kept x') : x.Later x' := by
  grind -linarith [Group.Kept, Group.Later]

theorem Group.Later.trans {x y z : Group} (h : x.Later y) (h' : y.Later z) : x.Later z := by
  grind -linarith [Group.Later]

/-- What a record's flags say about its group. -/
structure Record.Settled (r : Record) : Prop where
  unused : r.used = false → r.group = none
  live : r.used = true → r.exited = false → r.group ≠ none
  exited : r.exited = true → r.group = none
  uncollected : r.uncollected = true → r.exited = true
  torn : r.teardownComplete = true → r.group = none

namespace Table

attribute [local simp] Table.setGroup Table.setProcess

variable {t t' t1 t2 t3 : Table} {i g pgid sid : Nat} {r : Record} {p : Option Nat}

/-- The records in slot `g`. -/
def memberCount (t : Table) (g : Nat) : Nat :=
  (List.range PROCESS_CAPACITY).countP fun i => (t.processes i).group == some g

/-- What every call keeps about groups. -/
structure GroupInv (t : Table) : Prop where
  settled : ∀ i, (t.processes i).Settled
  bound : ∀ i g, (t.processes i).group = some g → i < PROCESS_CAPACITY ∧ g < PROCESS_GROUP_CAPACITY
  same : ∀ i g, (t.processes i).group = some g →
    (t.groups g).pgid = (t.processes i).pgid ∧ (t.groups g).sid = (t.processes i).sid
  members : ∀ g, (t.groups g).members = t.memberCount g
  unique : ∀ g h, g < PROCESS_GROUP_CAPACITY → h < PROCESS_GROUP_CAPACITY → (t.groups g).occupied = true →
    (t.groups h).occupied = true → (t.groups g).pgid = (t.groups h).pgid → g = h

theorem GroupInv.of_eq (h : GroupInv t) (hp : t'.processes = t.processes) (hg : t'.groups = t.groups) : GroupInv t' := by
  obtain ⟨h1, h2, h3, h4, h5⟩ := h
  refine ⟨?_, ?_, ?_, ?_, ?_⟩
  all_goals simp only [hp, hg, memberCount] at *
  all_goals assumption

theorem memberCount_setProcess (hi : i < PROCESS_CAPACITY) (r : Record) (g : Nat) :
    (t.setProcess i r).memberCount g + ((t.processes i).group == some g).toNat =
      t.memberCount g + (r.group == some g).toNat :=
  countP_range_update (p := fun r : Record => r.group == some g) t.processes hi r

/-! ## Leaving and entering -/

/-- One record changes its group, and the slots follow. -/
theorem GroupInv.move {groups' : Nat → Group} (h : GroupInv t) (hi : i < PROCESS_CAPACITY) (hs : r.Settled)
    (hr : ∀ g, r.group = some g → g < PROCESS_GROUP_CAPACITY ∧ (groups' g).pgid = r.pgid ∧ (groups' g).sid = r.sid)
    (hkeep : ∀ j g, j ≠ i → (t.processes j).group = some g →
      (groups' g).pgid = (t.groups g).pgid ∧ (groups' g).sid = (t.groups g).sid)
    (hm : ∀ g, (groups' g).members + ((t.processes i).group == some g).toNat =
      (t.groups g).members + (r.group == some g).toNat)
    (hu : ∀ g h, g < PROCESS_GROUP_CAPACITY → h < PROCESS_GROUP_CAPACITY → (groups' g).occupied = true →
      (groups' h).occupied = true → (groups' g).pgid = (groups' h).pgid → g = h) :
    GroupInv { t with groups := groups', processes := update t.processes i r } where
  settled := by
    intro j
    have := h.settled j
    grind -linarith [update_apply]
  bound := by
    intro j x
    have := h.bound j x
    grind -linarith [update_apply]
  same := by
    intro j x
    have hold := h.same j x
    have hid := hkeep j x
    grind -linarith [update_apply]
  members := by
    intro x
    have hcount := memberCount_setProcess (t := t) hi r x
    have hslot := hm x
    have hold := h.members x
    have hsame : memberCount { t with groups := groups', processes := update t.processes i r } x =
      (t.setProcess i r).memberCount x := rfl
    rw [hsame]
    dsimp only
    omega
  unique := hu

theorem GroupInv.setProcess (h : GroupInv t) (hi : i < PROCESS_CAPACITY) (hs : r.Settled)
    (hg : r.group = (t.processes i).group) (hp : r.pgid = (t.processes i).pgid) (hsid : r.sid = (t.processes i).sid) :
    GroupInv (t.setProcess i r) := by
  refine h.move hi hs ?_ (fun _ _ _ _ => ⟨rfl, rfl⟩) (fun g => by rw [hg]) h.unique
  intro g hx
  rw [hg] at hx
  obtain ⟨hpg, hsg⟩ := h.same i g hx
  exact ⟨(h.bound i g hx).2, hpg.trans hp.symm, hsg.trans hsid.symm⟩

theorem GroupInv.members_ne_zero (h : GroupInv t) (hx : (t.processes i).group = some g) : (t.groups g).members ≠ 0 := by
  have hi := (h.bound i g hx).1
  have : 0 < t.memberCount g :=
    List.countP_pos_iff.2 ⟨i, List.mem_range.2 hi, by simp [hx]⟩
  have := h.members g
  omega

/-- A record leaves its group and becomes any settled record without one. -/
theorem GroupInv.leave (h : GroupInv t) (hi : i < PROCESS_CAPACITY) (hs : r.Settled)
    (hr : r.group = none) : GroupInv ((t.groupLeave i).setProcess i r) := by
  unfold groupLeave
  split
  · rename_i hnone
    exact h.move hi hs (by simp [hr]) (fun _ _ _ _ => ⟨rfl, rfl⟩) (by simp [hnone, hr]) h.unique
  rename_i x hx
  have hpos := h.members_ne_zero hx
  have heq : ((t.setGroup x { t.groups x with members := (t.groups x).members - 1 }).setProcess i
      { t.processes i with group := none }).setProcess i r =
    { t with
      groups := update t.groups x { t.groups x with members := (t.groups x).members - 1 }
      processes := update t.processes i r } := by
    simp
  rw [heq]
  have hocc : ∀ g, (update t.groups x { t.groups x with members := (t.groups x).members - 1 } g).occupied =
      true → (t.groups g).occupied = true := by
    have := occupied_of_members hpos
    grind -linarith [update_apply]
  have hid : ∀ g, (update t.groups x { t.groups x with members := (t.groups x).members - 1 } g).pgid =
      (t.groups g).pgid ∧
      (update t.groups x { t.groups x with members := (t.groups x).members - 1 } g).sid =
        (t.groups g).sid := by
    grind -linarith [update_apply]
  refine h.move hi hs (by simp [hr]) (fun _ g _ _ => hid g) ?_ ?_
  · intro g
    by_cases hgx : g = x
    · subst hgx
      simp [hx, hr]
      omega
    · simp [hx, hr, hgx, Ne.symm hgx]
  · intro g k hg hk
    have := h.unique g k hg hk
    grind -linarith

/-- The slot's identity and members after a join. -/
theorem Joinable.joined (hj : Joinable t g pgid sid) :
    ((t.groups g).joined pgid sid).pgid = pgid ∧ ((t.groups g).joined pgid sid).sid = sid ∧
      ((t.groups g).joined pgid sid).members = (t.groups g).members + 1 := by
  rcases hj.2 with ⟨hm, hp, hsid⟩ | ⟨hfree, -, -⟩
  · simp [Group.joined, occupied_of_members hm, hp, hsid]
  have hm : (t.groups g).members = 0 := by
    simp only [Group.occupied, Bool.or_eq_false_iff, bne_eq_false_iff_eq] at hfree
    exact hfree.1
  simp [Group.joined, hfree, hm]

/-- Another occupied slot with the id would have been found instead. -/
theorem Joinable.other (hj : Joinable t g pgid sid) (h : GroupInv t) {y : Nat} (hy : y < PROCESS_GROUP_CAPACITY)
    (hne : y ≠ g) (hoy : (t.groups y).occupied = true) : (t.groups y).pgid ≠ pgid := by
  intro he
  rcases hj.2 with ⟨hm, hp, -⟩ | ⟨-, -, hnone⟩
  · exact hne (h.unique y g hy hj.1 hoy (occupied_of_members hm) (by rw [he, hp]))
  · exact hnone y hy hoy he

/-- A record without a group enters a slot it may join. -/
theorem GroupInv.enter (h : GroupInv t) (hi : i < PROCESS_CAPACITY) (hs : r.Settled)
    (hnone : (t.processes i).group = none) (hg : r.group = some g) (hj : Joinable t g r.pgid r.sid) :
    GroupInv ((t.setGroup g ((t.groups g).joined r.pgid r.sid)).setProcess i r) := by
  have hlt := hj.1
  have hid := hj.joined
  have heq : (t.setGroup g ((t.groups g).joined r.pgid r.sid)).setProcess i r =
      { t with
        groups := update t.groups g ((t.groups g).joined r.pgid r.sid)
        processes := update t.processes i r } := rfl
  rw [heq]
  refine h.move hi hs ?_ ?_ ?_ ?_
  · intro x hx
    obtain rfl : g = x := by simpa [hg] using hx
    simp [hlt, hid]
  · intro j x _ hx
    have := occupied_of_members (h.members_ne_zero hx)
    grind -linarith [update_apply, Group.joined]
  · intro x
    by_cases hxg : x = g
    · subst hxg
      simp [hnone, hg, hid]
    · simp [hnone, hg, hxg, Ne.symm hxg]
  intro x y hx hy
  have hold := h.unique x y hx hy
  grind -linarith [update_apply, hj.other h hx, hj.other h hy]

/-! ## What calls do to records -/

/-- A change that leaves the slots alone, and of the records whether they exited. -/
structure Calm (t t' : Table) : Prop where
  inv : GroupInv t'
  groups : t'.groups = t.groups
  exited : ∀ i, (t'.processes i).exited = (t.processes i).exited

theorem Calm.refl (h : GroupInv t) : Calm t t := ⟨h, rfl, fun _ => rfl⟩

theorem Calm.trans (h : Calm t1 t2) (h' : Calm t2 t3) : Calm t1 t3 :=
  ⟨h'.inv, h'.groups.trans h.groups, fun i => (h'.exited i).trans (h.exited i)⟩

/-- Child records and the sequence number do not matter to groups. -/
theorem Calm.of_eq (h : GroupInv t) (hp : t'.processes = t.processes) (hg : t'.groups = t.groups) : Calm t t' :=
  ⟨h.of_eq hp hg, hg, by simp [hp]⟩

theorem Minor.calm (hm : Minor t t') (h : GroupInv t) : Calm t t' := by
  have hr := hm.records
  have hg := hm.grouped
  refine ⟨⟨fun i => ?_, ?_, ?_, ?_, ?_⟩, hm.groups, fun i => (hr i).exited⟩
  · have hs := h.settled i
    constructor <;> simp only [(hr i).used, (hr i).exited, (hr i).uncollected, (hr i).torn, (hg i).1]
    exacts [hs.unused, hs.live, hs.exited, hs.uncollected, hs.torn]
  · intro i g hx
    exact h.bound i g ((hg i).1 ▸ hx)
  · intro i g hx
    rw [hm.groups, (hg i).2.1, (hg i).2.2]
    exact h.same i g ((hg i).1 ▸ hx)
  · intro g
    simp only [hm.groups, h.members g, memberCount, (hg _).1]
  · rw [hm.groups]
    exact h.unique

theorem Calm.setProcess (h : GroupInv t) (hi : i < PROCESS_CAPACITY) (hs : r.Settled)
    (hg : r.group = (t.processes i).group) (hp : r.pgid = (t.processes i).pgid) (hsid : r.sid = (t.processes i).sid)
    (hex : r.exited = (t.processes i).exited) : Calm t (t.setProcess i r) := by
  exact ⟨h.setProcess hi hs hg hp hsid, rfl, fun j => by grind -linarith⟩

theorem collected_calm (h : GroupInv t) (pid : Nat) : Calm t (t.collected pid) := by
  unfold collected
  split
  · exact .refl h
  rename_i i hf
  have hs := h.settled i
  refine .setProcess h (find_spec hf).1 ?_ rfl rfl rfl rfl
  cases hs
  constructor <;> grind -linarith

theorem consume_calm (h : GroupInv t) (parent k : Nat) : Calm t (t.consume parent k) := by
  unfold consume
  dsimp only
  have h1 : Calm t (t.setChild k { t.children k with reportedSeq := (t.children k).eventSeq }) := .of_eq h rfl rfl
  split
  · have h2 := h1.trans ((addTimes_minor _ parent (t.children k).pid).calm h1.inv)
    have h3 := h2.trans (collected_calm h2.inv (t.children k).pid)
    exact h3.trans (.of_eq h3.inv rfl rfl)
  · exact h1

/-- A round of an exit: once the record is marked, its status may be uncollected. -/
theorem exitChild_calm (h : GroupInv t) (pid : Nat) (code signal : UInt64) (k : Nat)
    (hexited : ∀ i, p = some i → i < PROCESS_CAPACITY ∧ (t.processes i).exited = true) :
    Calm t (exitChild pid p code signal t k) := by
  have hmark : Calm t (p.elim t fun i => t.setProcess i { t.processes i with uncollected := true }) := by
    cases p with
    | none => exact .refl h
    | some i =>
      have hs := h.settled i
      obtain ⟨hi, hex⟩ := hexited i rfl
      exact .setProcess h hi { hs with uncollected := fun _ => hex } rfl rfl rfl rfl
  have hpublish : Calm t (if (t.children k).pid == pid then publishEnd p code signal t k else t) := by
    unfold publishEnd
    split
    · split
      · exact hmark.trans (.of_eq hmark.inv rfl rfl)
      · exact hmark
    · exact .refl h
  rw [exitChild_eq]
  split
  · exact .refl h
  dsimp only
  split
  · have hcol := hpublish.trans (collected_calm hpublish.inv (t.children k).pid)
    exact hcol.trans (.of_eq hcol.inv rfl rfl)
  · exact hpublish

theorem exitLoop_calm (h : GroupInv t) (pid : Nat) (code signal : UInt64) (ks : List Nat)
    (hexited : ∀ i, p = some i → i < PROCESS_CAPACITY ∧ (t.processes i).exited = true) :
    Calm t (ks.foldl (exitChild pid p code signal) t) := by
  induction ks generalizing t with
  | nil => exact .refl h
  | cons k ks ih =>
    have hone := exitChild_calm h pid code signal k hexited
    refine hone.trans (ih hone.inv ?_)
    intro i hi
    rw [hone.exited]
    exact hexited i hi

theorem wait_calm (h : GroupInv t) (parent : Nat) (selector : Int) (options : UInt32) (legacy : Bool) :
    Calm t (t.processRecordWait parent selector options legacy).2 := by
  rcases wait_cases t parent selector options legacy with he | ⟨k, -, he⟩
  · rw [he]
    exact .refl h
  · rw [he]
    exact consume_calm h ..

/-! ## What calls do to slots -/

/-- A call keeps the invariant and the identity of slots. -/
structure GroupStep (t t' : Table) : Prop where
  inv : GroupInv t'
  kept : ∀ g, (t.groups g).Kept (t'.groups g)

theorem Calm.step (h : Calm t t') : GroupStep t t' := by
  refine ⟨h.inv, ?_⟩
  intro g
  rw [h.groups]
  exact .refl _

theorem GroupStep.calm (h : GroupStep t1 t2) (h' : Calm t2 t3) : GroupStep t1 t3 := by
  refine ⟨h'.inv, ?_⟩
  intro g
  rw [h'.groups]
  exact h.kept g

theorem groupLeave_groups (i g : Nat) : (t.groups g).Kept ((t.groupLeave i).groups g) := by
  unfold groupLeave
  split
  · exact .refl _
  rename_i x _
  by_cases hg : g = x
  · subst hg
    refine .inl ⟨by simp, by simp,
      by simp, ?_⟩
    simp only [Table.setProcess, Table.setGroup, update_self, Group.occupied, Bool.or_eq_true, bne_iff_ne]
    omega
  · simp [hg, Group.Kept.refl]

theorem Joinable.kept (hj : Joinable t g pgid sid) : (t.groups g).Kept ((t.groups g).joined pgid sid) := by
  rcases hj.2 with ⟨hm, -, -⟩ | ⟨hfree, hgen, -⟩
  · simp [Group.joined, occupied_of_members hm, Group.Kept]
  refine .inr ⟨hfree, ?_⟩
  simp only [Group.joined, hfree, Bool.false_eq_true, if_false]
  have hmax : (t.groups g).generation.toNat ≠ 0xffffffffffffffff := fun hn => hgen (UInt64.toNat.inj hn)
  have := (t.groups g).generation.toNat_lt
  rw [UInt64.lt_iff_toNat_lt, UInt64.toNat_add]
  simp
  omega

/-- A record goes from one slot to another it may join: the join may as well come after the leave. -/
theorem GroupInv.transfer {g0 : Nat} (h : GroupInv t) (hi : i < PROCESS_CAPACITY) (hs : r.Settled)
    (hold : (t.processes i).group = some g0) (hg : r.group = some g) (hne : g ≠ g0) (hj : Joinable t g r.pgid r.sid) :
    GroupInv { t with
      groups := update (update t.groups g ((t.groups g).joined r.pgid r.sid)) g0
        { t.groups g0 with members := (t.groups g0).members - 1 }
      processes := update t.processes i r } := by
  have hleave := h.leave (r := {}) hi ⟨fun _ => rfl, by simp, fun _ => rfl, by simp, fun _ => rfl⟩ rfl
  have hgroups : ((t.groupLeave i).setProcess i {}).groups =
      update t.groups g0 { t.groups g0 with members := (t.groups g0).members - 1 } := by
    simp [groupLeave, hold]
  have hslot : ((t.groupLeave i).setProcess i {}).groups g = t.groups g := by rw [hgroups, update_of_ne hne]
  -- leaving a slot takes none into use
  have hju : Joinable ((t.groupLeave i).setProcess i {}) g r.pgid r.sid := by
    refine ⟨hj.1, ?_⟩
    rw [hslot, hgroups]
    refine hj.2.imp_right fun ⟨hfree, hgen, hnone⟩ => ⟨hfree, hgen, fun x hx hox => ?_⟩
    by_cases hx0 : x = g0
    · subst hx0
      simpa using hnone x hx (occupied_of_members (h.members_ne_zero hold))
    · rw [update_of_ne hx0] at hox ⊢
      exact hnone x hx hox
  have henter := hleave.enter hi hs (by rw [setProcess_self]) hg hju
  rw [hslot] at henter
  convert henter using 1
  simp [groupLeave, hold, update_comm hne]

/-! ## Every call -/

theorem abort_step (h : GroupInv t) (pid : Nat) : GroupStep t (t.processRecordAbort pid) := by
  unfold processRecordAbort
  split
  · exact Calm.step (.of_eq h rfl rfl)
  rename_i i hf
  obtain ⟨hi, -, -⟩ := find_spec hf
  have hs := h.settled i
  have hleave : GroupStep t ((t.groupLeave i).setProcess i { (t.groupLeave i).processes i with used := false }) := by
    refine ⟨h.leave hi ?_ ?_, groupLeave_groups i⟩
    · rw [groupLeave_record]
      exact ⟨fun _ => rfl, by simp, fun _ => rfl, hs.uncollected, fun _ => rfl⟩
    · rw [groupLeave_record]
  exact hleave.calm (.of_eq hleave.inv rfl rfl)

theorem forget_step (h : GroupInv t) (pid : Nat) : GroupStep t (t.processRecordForget pid) := by
  unfold processRecordForget
  split
  · exact (Calm.refl h).step
  rename_i i hf
  obtain ⟨hi, -, -⟩ := find_spec hf
  have hs := h.settled i
  refine ⟨h.leave hi ?_ ?_, groupLeave_groups i⟩
  · -- a record that stays has a status to collect, so it has exited
    rw [groupLeave_record]
    cases hs
    constructor <;> grind -linarith
  · rw [groupLeave_record]

theorem exitRecord_step (h : GroupInv t) (pid : Nat) (ticks utime stime : UInt64) :
    GroupStep t (t.exitRecord pid ticks utime stime) ∧
      ∀ i, t.find pid = some i → ((t.exitRecord pid ticks utime stime).processes i).exited = true := by
  cases hf : t.find pid with
  | none =>
    rw [exitRecord_none hf]
    exact ⟨(Calm.refl h).step, by simp⟩
  | some i =>
    obtain ⟨u, hm, he⟩ := exitRecord_eq hf ticks utime stime
    have hu := hm.calm h
    rw [he, groupLeave_record]
    refine ⟨⟨hu.inv.leave (find_spec hf).1 ?_ rfl, fun g => ?_⟩, ?_⟩
    · exact ⟨fun _ => rfl, by simp, fun _ => rfl, fun _ => rfl, fun _ => rfl⟩
    · rw [← hu.groups]
      exact groupLeave_groups i g
    intro j hj
    cases hj
    rw [setProcess_self]

theorem exit_step (h : GroupInv t) (pid : Nat) (code signal ticks utime stime : UInt64) :
    GroupStep t (t.processRecordExitAccountedTimes pid code signal ticks utime stime).2 := by
  obtain ⟨hrec, hex⟩ := exitRecord_step h pid ticks utime stime
  have hloop := hrec.calm (exitLoop_calm hrec.inv pid code signal (List.range PROCESS_CAPACITY)
    fun i hi => ⟨(find_spec hi).1, hex i hi⟩)
  rw [exit_eq]
  exact hloop.calm ((Minor.changed _).calm hloop.inv)

theorem setGroup_step {x : Group} (h : GroupInv t) (hp : x.pgid = (t.groups g).pgid) (hs : x.sid = (t.groups g).sid)
    (hgen : x.generation = (t.groups g).generation) (hm : x.members = (t.groups g).members)
    (hocc : x.occupied = true → (t.groups g).occupied = true) : GroupStep t (t.setGroup g x) := by
  have hsame : ∀ y, ((t.setGroup g x).groups y).pgid = (t.groups y).pgid ∧
      ((t.setGroup g x).groups y).sid = (t.groups y).sid ∧
      ((t.setGroup g x).groups y).generation = (t.groups y).generation ∧
      ((t.setGroup g x).groups y).members = (t.groups y).members ∧
      (((t.setGroup g x).groups y).occupied = true → (t.groups y).occupied = true) := by
    grind -linarith
  refine ⟨⟨h.settled, h.bound, ?_, ?_, ?_⟩, fun y => .inl ⟨(hsame y).1, (hsame y).2.1, (hsame y).2.2.1, (hsame y).2.2.2.2⟩⟩
  · intro i y hy
    rw [(hsame y).1, (hsame y).2.1]
    exact h.same i y hy
  · intro y
    rw [(hsame y).2.2.2.1]
    exact h.members y
  · intro y z hy hz hoy hoz he
    rw [(hsame y).1, (hsame z).1] at he
    exact h.unique y z hy hz ((hsame y).2.2.2.2 hoy) ((hsame z).2.2.2.2 hoz) he

theorem Referred.step (hr : Referred t t') (h : GroupInv t) : GroupStep t t' := by
  obtain ⟨g, n, rfl, hn⟩ := hr
  refine setGroup_step h rfl rfl rfl rfl fun hocc => ?_
  simp only [Group.occupied, Bool.or_eq_true, bne_iff_ne] at hocc
  exact hocc.elim occupied_of_members hn

theorem begin_step (h : GroupInv t) (pid parent : Nat) (waitable : Bool) (flags : UInt32) (pgid : Nat) :
    GroupStep t (t.processRecordBegin pid parent waitable flags pgid).2 := by
  have hb := begin_begins t pid parent waitable flags pgid
  generalize (t.processRecordBegin pid parent waitable flags pgid).2 = t' at hb ⊢
  cases hb with
  | refused => exact (Calm.refl h).step
  | @taken i g r _ hi hfree _ _ hj hr hend =>
    have hg : r.group = some g := by rw [hr]
    have henter : GroupStep t ((t.setGroup g ((t.groups g).joined r.pgid r.sid)).setProcess i r) := by
      refine ⟨h.enter hi ?_ ((h.settled i).unused hfree) hg hj, ?_⟩
      · rw [hr]
        exact ⟨by simp, by simp, by simp, by simp, by simp⟩
      intro x
      have := hj.kept
      clear hr hend
      grind -linarith [Group.Kept.refl]
    rcases hend with he | ⟨k, -, -, -, he⟩
    · rw [he]
      exact henter
    · rw [he]
      exact henter.calm (.of_eq henter.inv rfl rfl)

/-- The record's new slot is not its old one, whose members have another group id. -/
theorem Joinable.ne_slot {g0 : Nat} (hj : Joinable t g pgid sid) (h : GroupInv t)
    (hold : (t.processes i).group = some g0) (hp : pgid ≠ (t.processes i).pgid) : g ≠ g0 := by
  intro he
  subst he
  rcases hj.2 with ⟨-, hpg, -⟩ | ⟨hfree, -, -⟩
  · exact hp (hpg.symm.trans (h.same i g hold).1)
  rw [occupied_of_members (h.members_ne_zero hold)] at hfree
  cases hfree

theorem regroup_step (h : GroupInv t) (hi : i < PROCESS_CAPACITY) (hu : (t.processes i).used = true)
    (he : (t.processes i).exited = false) (hp : pgid ≠ (t.processes i).pgid)
    (hj : Joinable t g pgid (t.processes i).sid) : GroupStep t (t.regrouped i g pgid) := by
  have hs := h.settled i
  obtain ⟨g0, hold⟩ := Option.ne_none_iff_exists'.1 (hs.live hu he)
  have hne := hj.ne_slot h hold hp
  have heq : t.regrouped i g pgid =
      { t with
        groups := update (update t.groups g ((t.groups g).joined pgid (t.processes i).sid)) g0
          { t.groups g0 with members := (t.groups g0).members - 1 }
        processes := update t.processes i { t.processes i with group := some g, pgid := pgid } } := by
    simp [regrouped, groupLeave, hold, Ne.symm hne]
  rw [heq]
  refine ⟨h.transfer hi ?_ hold rfl hne hj, ?_⟩
  · cases hs
    constructor <;> grind -linarith
  intro x
  have hkept := hj.kept
  have hocc := occupied_of_members (h.members_ne_zero hold)
  grind -linarith [update_apply, Group.Kept]

theorem setpgid_step (h : GroupInv t) (caller pid pgid : Nat) :
    GroupStep t (t.processRecordSetpgid caller pid pgid).2 := by
  have hr := setpgid_regroups t caller pid pgid
  generalize (t.processRecordSetpgid caller pid pgid).2 = t' at hr ⊢
  cases hr with
  | minor hm => exact (hm.calm h).step
  | moved hi hu he hp hj hm =>
    have hre := regroup_step h hi hu he hp hj
    exact hre.calm (hm.calm hre.inv)

theorem step_groups (h : GroupInv t) (call : Call) : GroupStep t (t.step call) := by
  cases call with
  | begin => exact begin_step h ..
  | abort => exact abort_step h ..
  | commit => exact ((commit_minor ..).calm h).step
  | exit => exact exit_step h ..
  | forget => exact forget_step h ..
  | setpgid => exact setpgid_step h ..
  | wait => exact (wait_calm h ..).step
  | stop => exact ((stop_minor ..).calm h).step
  | resume => exact ((resume_minor ..).calm h).step
  | acquire => exact (acquire_referred ..).step h
  | tryRetain => exact (tryRetain_referred ..).step h
  | releaseRef => exact (releaseRef_referred ..).step h

theorem initial_groups : GroupInv {} where
  settled := fun _ => ⟨fun _ => rfl, by simp, fun _ => rfl, by simp, fun _ => rfl⟩
  bound := by simp
  same := by simp
  members := by
    intro g
    simp [memberCount]
  unique := by simp [Group.occupied]

theorem later_groups (h : GroupInv t) (calls : List Call) (g : Nat) :
    (t.groups g).Later ((calls.foldl step t).groups g) := by
  induction calls generalizing t with
  | nil => exact .refl _
  | cons call calls ih =>
    have hone := step_groups h call
    exact (hone.kept g).later.trans (ih hone.inv)

/-- The live processes with a group id. -/
def liveMembers (t : Table) (pgid : Nat) : Nat :=
  (List.range PROCESS_CAPACITY).countP fun i =>
    (t.processes i).used && !(t.processes i).exited && (t.processes i).pgid == pgid

theorem GroupInv.in_slot (h : GroupInv t) (hg : g < PROCESS_GROUP_CAPACITY) (hocc : (t.groups g).occupied = true)
    (i : Nat) : (t.processes i).group = some g ↔
      (t.processes i).used = true ∧ (t.processes i).exited = false ∧ (t.processes i).pgid = (t.groups g).pgid := by
  have hs := h.settled i
  constructor
  · intro hx
    have := (h.same i g hx).1
    grind -linarith [hs.unused, hs.exited]
  intro ⟨hu, he, hp⟩
  obtain ⟨y, hy⟩ := Option.ne_none_iff_exists'.1 (hs.live hu he)
  have hyg : y = g := h.unique y g (h.bound i y hy).2 hg (occupied_of_members (h.members_ne_zero hy)) hocc
    ((h.same i y hy).1.trans hp)
  rw [hy, hyg]

theorem GroupInv.members_live (h : GroupInv t) (hg : g < PROCESS_GROUP_CAPACITY)
    (hocc : (t.groups g).occupied = true) : (t.groups g).members = t.liveMembers (t.groups g).pgid := by
  rw [h.members g]
  refine List.countP_congr ?_
  intro i _
  simp [h.in_slot hg hocc i, and_assoc]

theorem groupRef_spec {ref : GroupRef} (h : t.groupRef ref = some g) :
    g = ref.slot ∧ (t.groups ref.slot).generation = ref.generation := by
  unfold groupRef at h
  split at h
  · cases h
  split at h
  · rename_i hgen
    cases h
    simp only [Bool.and_eq_true, beq_iff_eq] at hgen
    exact ⟨rfl, hgen.1⟩
  · cases h

/-- **The group table after any calls.** The members of an occupied slot are the live processes with its
id, and no other occupied slot has that id. The next call does not touch the identity of a slot with
members or references, and a slot taken into use gets a larger generation. Whatever is called afterwards, a
slot and generation that named a group resolve to that group or to nothing. -/
theorem process_groups (calls : List Call) :
    (∀ g, g < PROCESS_GROUP_CAPACITY → ((run calls).groups g).occupied = true →
      ((run calls).groups g).members = (run calls).liveMembers ((run calls).groups g).pgid) ∧
    (∀ g h, g < PROCESS_GROUP_CAPACITY → h < PROCESS_GROUP_CAPACITY → ((run calls).groups g).occupied = true →
      ((run calls).groups h).occupied = true → ((run calls).groups g).pgid = ((run calls).groups h).pgid → g = h) ∧
    (∀ call g, ((run calls).groups g).occupied = true →
      ((run (calls ++ [call])).groups g).pgid = ((run calls).groups g).pgid ∧
      ((run (calls ++ [call])).groups g).sid = ((run calls).groups g).sid ∧
      ((run (calls ++ [call])).groups g).generation = ((run calls).groups g).generation) ∧
    (∀ call g, ((run calls).groups g).occupied = false → ((run (calls ++ [call])).groups g).occupied = true →
      ((run calls).groups g).generation < ((run (calls ++ [call])).groups g).generation) ∧
    (∀ calls' ref g, ((run calls).groups ref.slot).generation = ref.generation →
      (run (calls ++ calls')).groupRef ref = some g →
      g = ref.slot ∧ ((run (calls ++ calls')).groups g).pgid = ((run calls).groups ref.slot).pgid ∧
        ((run (calls ++ calls')).groups g).sid = ((run calls).groups ref.slot).sid) := by
  have hinv : GroupInv (run calls) :=
    List.foldlRecOn calls step initial_groups fun _ h call _ => (step_groups h call).inv
  have happ : ∀ calls', run (calls ++ calls') = calls'.foldl step (run calls) := fun _ => List.foldl_append
  refine ⟨fun g hg hocc => hinv.members_live hg hocc, hinv.unique, ?_, ?_, ?_⟩
  · intro call g hocc
    rw [happ]
    rcases (step_groups hinv call).kept g with ⟨hp, hs, hgen, -⟩ | ⟨hfree, -⟩
    · exact ⟨hp, hs, hgen⟩
    rw [hocc] at hfree
    cases hfree
  · intro call g hfree hocc
    rw [happ] at hocc ⊢
    rcases (step_groups hinv call).kept g with ⟨-, -, -, hused⟩ | ⟨-, hlt⟩
    · rw [hused hocc] at hfree
      cases hfree
    · exact hlt
  intro calls' ref g hmade hres
  rw [happ] at hres ⊢
  obtain ⟨rfl, hgen⟩ := groupRef_spec hres
  exact ⟨rfl, (later_groups hinv calls' ref.slot).2 (hgen.trans hmade.symm)⟩

end Table

end Fortress.Process
