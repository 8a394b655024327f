/-
The life of an address space: registered, unlinked when idle, torn down. The
three lists that hold a record never overlap (`Inv.nodup`), and a record that
left the registry is out of reach of every call, so it stays idle until its
tables are freed.
-/
import Fortress.Vmm.Space

namespace Fortress.Vmm.Registry

open Function List

variable {s s' s1 s2 s3 : Registry} {i : Nat} {virt cr3 : UInt64}

attribute [local simp] Registry.set

/-- What every call keeps. -/
structure Inv (s : Registry) : Prop where
  made : ∀ i, i ∈ s.spaces ++ (s.detached ++ s.torn) → i < s.made
  nodup : (s.spaces ++ (s.detached ++ s.torn)).Nodup
  deferred : s.deferred.Nodup ∧ ∀ i ∈ s.deferred, i ∈ s.spaces
  queued : ∀ i ∈ s.spaces, ((s.records i).deferredQueued = true ↔ i ∈ s.deferred)
  idle : ∀ i ∈ s.detached, (s.records i).idle = true
  kernel : ∀ i, i < s.made → (s.records i).isKernel = true →
    (s.records i).state = .live ∧ norm (s.records i).cr3 = norm s.kernelPml4 ∧ (s.records i).deferredQueued = false

/-- What no call does: give a reference to a space that is not live, or make it live again. -/
def Wanes (s s' : Registry) : Prop :=
  ∀ i, i < s.made → (s.records i).state ≠ .live →
    (s'.records i).state ≠ .live ∧ (s'.records i).opRefs ≤ (s.records i).opRefs ∧
      (s'.records i).schedRefs ≤ (s.records i).schedRefs

theorem Wanes.of_records (h : s'.records = s.records) : Wanes s s' := by
  intro i _ hs
  rw [h]
  exact ⟨hs, UInt32.le_refl _, UInt32.le_refl _⟩

theorem Wanes.trans (h : Wanes s1 s2) (h' : Wanes s2 s3) (hm : s1.made ≤ s2.made) : Wanes s1 s3 := by
  intro i hi hs
  obtain ⟨hs2, ho, hc⟩ := h i hi hs
  obtain ⟨hs3, ho', hc'⟩ := h' i (Nat.lt_of_lt_of_le hi hm) hs2
  exact ⟨hs3, UInt32.le_trans ho' ho, UInt32.le_trans hc' hc⟩

theorem Wanes.of_record {x : Space} (hr : s'.records = update s.records i x)
    (hx : (s.records i).state ≠ .live → x.state ≠ .live ∧ x.opRefs ≤ (s.records i).opRefs ∧
      x.schedRefs ≤ (s.records i).schedRefs) : Wanes s s' := by
  intro j _ hs
  rw [hr]
  by_cases hj : j = i
  · subst hj
    rw [update_self]
    exact hx hs
  · rw [update_of_ne hj]
    exact ⟨hs, UInt32.le_refl _, UInt32.le_refl _⟩

/-! ## Changes to one record -/

theorem Inv.mem_lt (h : Inv s) (hi : i ∈ s.spaces) : i < s.made := h.made i (mem_append_left _ hi)

theorem Inv.ne_of_detached {j : Nat} (h : Inv s) (hi : i ∈ s.spaces) (hj : j ∈ s.detached) : j ≠ i :=
  fun he => (nodup_append.1 h.nodup).2.2 i hi j (mem_append_left _ hj) he.symm

theorem Inv.not_deferred (h : Inv s) (hi : i ∈ s.spaces) (hq : (s.records i).deferredQueued = false) :
    i ∉ s.deferred := by
  simp [← h.queued i hi, hq]

section

variable (s : Registry) (i : Nat) (x : Space)

@[grind =]
theorem set_records (j : Nat) : (s.set i x).records j = if j = i then x else s.records j := update_apply ..
@[grind =]
theorem set_deferred : (s.set i x).deferred = s.deferred := rfl
@[grind =]
theorem set_kernelPml4 : (s.set i x).kernelPml4 = s.kernelPml4 := rfl

end

theorem Inv.set {x : Space} (h : Inv s) (hi : i ∈ s.spaces) (hq : x.deferredQueued = (s.records i).deferredQueued)
    (hk : x.isKernel = (s.records i).isKernel) (hc : x.cr3 = (s.records i).cr3)
    (hs : x.isKernel = true → x.state = .live) : Inv (s.set i x) where
  made := h.made
  nodup := h.nodup
  deferred := h.deferred
  queued := by
    intro j hj
    grind -linarith [h.queued j hj]
  idle := by
    intro j hj
    grind -linarith [h.ne_of_detached hi hj, h.idle j hj]
  kernel := by
    intro j hj hker
    have := h.kernel j hj
    grind -linarith

theorem findVirt_mem (h : s.findVirt virt = some i) : i ∈ s.spaces := mem_of_find?_eq_some h
theorem findCr3_mem (h : s.findCr3 cr3 = some i) : i ∈ s.spaces := mem_of_find?_eq_some h
theorem findRoot_mem (h : s.findRoot cr3 = some i) : i ∈ s.spaces := mem_of_find?_eq_some h

theorem sub_one_le {n : UInt32} (h : n > 0) : n - 1 ≤ n := by
  have hn : 0 < n.toNat := by simpa [UInt32.lt_iff_toNat_lt] using h
  have hsub : (n - 1).toNat = n.toNat - 1 := UInt32.toNat_sub_of_le _ _ (UInt32.le_iff_toNat_le.2 hn)
  rw [UInt32.le_iff_toNat_le, hsub]
  omega

/-- A call keeps the invariant, gives no reference to a space on its way out, and forgets no record. -/
structure Good (s s' : Registry) : Prop where
  inv : Inv s'
  wanes : Wanes s s'
  made : s.made ≤ s'.made

theorem Good.refl (h : Inv s) : Good s s := ⟨h, .of_records rfl, Nat.le_refl _⟩

theorem Good.trans (h : Good s1 s2) (h' : Good s2 s3) : Good s1 s3 :=
  ⟨h'.inv, h.wanes.trans h'.wanes h.made, Nat.le_trans h.made h'.made⟩

section

variable (h : Inv s)

include h

theorem Good.count {x : Space} (hi : i ∈ s.spaces)
    (hx : (s.records i).state ≠ .live → x.opRefs ≤ (s.records i).opRefs ∧ x.schedRefs ≤ (s.records i).schedRefs)
    (hq : x.deferredQueued = (s.records i).deferredQueued) (hk : x.isKernel = (s.records i).isKernel)
    (hc : x.cr3 = (s.records i).cr3) (hs : x.state = (s.records i).state) : Good s (s.set i x) :=
  ⟨h.set hi hq hk hc fun hker => hs.trans (h.kernel i (h.mem_lt hi) (hk ▸ hker)).1,
    .of_record rfl fun hn => ⟨hs ▸ hn, hx hn⟩, Nat.le_refl _⟩

theorem getOp_good (virt : UInt64) : Good s (s.vmmSpaceGetOp virt).2 := by
  unfold vmmSpaceGetOp
  split
  · exact .refl h
  split
  · exact .refl h
  rename_i i hf
  split
  · exact .refl h
  split
  · exact .refl h
  rename_i hlive
  exact .count h (findVirt_mem hf) (fun hs => absurd hs hlive) rfl rfl rfl rfl

theorem putOp_good (virt : UInt64) : Good s (s.vmmSpacePutOp virt) := by
  unfold vmmSpacePutOp
  split
  · exact .refl h
  split
  · exact .refl h
  rename_i i hf
  split
  · rename_i hpos
    simp only [Bool.and_eq_true, decide_eq_true_eq] at hpos
    exact .count h (findVirt_mem hf) (fun _ => ⟨sub_one_le hpos.2, UInt32.le_refl _⟩) rfl rfl rfl rfl
  · exact .refl h

theorem enter_good (nextCr3 : UInt64) (cpu : UInt32) : Good s (s.vmmSpaceEnter nextCr3 cpu).2 := by
  unfold vmmSpaceEnter
  split
  · exact .refl h
  split
  · exact .refl h
  rename_i i hf
  split
  · exact .refl h
  split
  · exact .count h (findCr3_mem hf) (fun _ => ⟨UInt32.le_refl _, UInt32.le_refl _⟩) rfl rfl rfl rfl
  · exact .refl h

theorem leave_good (oldCr3 : UInt64) (threadTerminated cr3Changed : Bool) (cpu : UInt32) :
    Good s (s.vmmSpaceLeave oldCr3 threadTerminated cr3Changed cpu) := by
  unfold vmmSpaceLeave
  split
  · exact .refl h
  split
  · exact .refl h
  rename_i i hf
  dsimp only
  have hmask : ∀ b : Bool, ∃ m, (if b then
      { s.records i with activeCpusMask := (s.records i).activeCpusMask &&& ~~~((1 : UInt64) <<< cpu.toUInt64) }
      else s.records i) = { s.records i with activeCpusMask := m } := by
    intro b
    cases b
    · exact ⟨_, rfl⟩
    · exact ⟨_, rfl⟩
  obtain ⟨m, hm⟩ := hmask (cr3Changed && decide (cpu < 64))
  rw [hm]
  split
  · rename_i hpos
    simp only [Bool.and_eq_true, decide_eq_true_eq] at hpos
    exact .count h (findCr3_mem hf) (fun _ => ⟨UInt32.le_refl _, sub_one_le hpos.2⟩) rfl rfl rfl rfl
  · exact .count h (findCr3_mem hf) (fun _ => ⟨UInt32.le_refl _, UInt32.le_refl _⟩) rfl rfl rfl rfl

theorem addSchedRef_good (cr3 : UInt64) : Good s (s.vmmSpaceAddSchedRef cr3).2 := by
  unfold vmmSpaceAddSchedRef
  split
  · exact .refl h
  split
  · exact .refl h
  rename_i i hf
  split
  · exact .refl h
  rename_i hlive
  exact .count h (findCr3_mem hf) (fun hs => absurd hs hlive) rfl rfl rfl rfl

theorem subSchedRef_good (cr3 : UInt64) : Good s (s.vmmSpaceSubSchedRef cr3) := by
  unfold vmmSpaceSubSchedRef
  split
  · exact .refl h
  split
  · exact .refl h
  rename_i i hf
  split
  · rename_i hpos
    exact .count h (findCr3_mem hf) (fun _ => ⟨UInt32.le_refl _, sub_one_le hpos⟩) rfl rfl rfl rfl
  · exact .refl h

theorem retire_good (pml4Phys : UInt64) : Good s (s.vmmSpaceRetire pml4Phys).2 := by
  unfold vmmSpaceRetire
  split
  · exact .refl h
  split
  · exact .refl h
  rename_i i hf
  split
  · exact .refl h
  rename_i hker
  split
  · exact .refl h
  · exact .refl h
  refine ⟨h.set (findRoot_mem hf) rfl rfl rfl ?_, .of_record rfl ?_, Nat.le_refl _⟩
  · exact fun hk => absurd hk hker
  · exact fun _ => ⟨by simp, UInt32.le_refl _, UInt32.le_refl _⟩

/-! ## Creation, unlinking and teardown -/

theorem create_good (phys : UInt64) : Good s (s.vmmCreateUserPml4 phys) := by
  unfold vmmCreateUserPml4
  split
  · exact .refl h
  have hne : ∀ j, j < s.made → j ≠ s.made := fun j hj => Nat.ne_of_lt hj
  have hnew : s.made ∉ s.spaces ++ (s.detached ++ s.torn) := fun hm => Nat.lt_irrefl _ (h.made _ hm)
  refine ⟨⟨?_, ?_, ⟨h.deferred.1, ?_⟩, ?_, ?_, ?_⟩, ?_, Nat.le_succ _⟩
  · intro j hj
    rcases mem_cons.1 hj with rfl | hj
    · exact Nat.lt_succ_self _
    · exact Nat.lt_succ_of_lt (h.made j hj)
  · exact nodup_cons.2 ⟨hnew, h.nodup⟩
  · intro j hj
    exact .tail _ (h.deferred.2 j hj)
  · intro j hj
    grind -linarith [update_apply, h.mem_lt, h.deferred.2 j, h.queued j]
  · intro j hj
    grind -linarith [update_apply, h.made j, h.idle j hj]
  · intro j hj hker
    grind -linarith [update_apply, h.kernel j]
  · intro j hj hs
    simp only [update_of_ne (hne j hj)]
    exact ⟨hs, UInt32.le_refl _, UInt32.le_refl _⟩

theorem defer_good (hi : i ∈ s.spaces) (hker : (s.records i).isKernel = false) (free : Bool) :
    Good s (s.defer i free) := by
  have hout : (s.records i).state ≠ .live → SpaceState.dying ≠ .live ∧ (s.records i).opRefs ≤ (s.records i).opRefs ∧
      (s.records i).schedRefs ≤ (s.records i).schedRefs :=
    fun _ => ⟨by simp, UInt32.le_refl _, UInt32.le_refl _⟩
  unfold defer
  dsimp only
  split
  · rename_i hq
    have hq : (s.records i).deferredQueued = false := by simpa using hq
    have hnd := h.not_deferred hi hq
    refine ⟨⟨h.made, h.nodup, ⟨nodup_cons.2 ⟨hnd, h.deferred.1⟩, ?_⟩, ?_, ?_, ?_⟩, .of_record rfl hout, Nat.le_refl _⟩
    · intro j hj
      rcases mem_cons.1 hj with rfl | hj
      · exact hi
      · exact h.deferred.2 j hj
    · intro j hj
      grind -linarith [h.queued j hj]
    · intro j hj
      grind -linarith [h.ne_of_detached hi hj, h.idle j hj]
    · intro j hj hk
      grind -linarith [h.kernel j hj]
  · refine ⟨h.set hi rfl rfl rfl ?_, .of_record rfl hout, Nat.le_refl _⟩
    intro hk
    simp [hker] at hk

end

theorem unlink_good (h : Inv s) (hi : i ∈ s.spaces) (hidle : (s.records i).idle = true)
    (hker : (s.records i).isKernel = false) : Good s (s.unlink i) := by
  have hperm : (s.spaces.erase i ++ (i :: s.detached ++ s.torn)).Perm (s.spaces ++ (s.detached ++ s.torn)) := by
    have hcons : (i :: s.spaces.erase i).Perm s.spaces := (perm_cons_erase hi).symm
    exact perm_middle.trans (hcons.append_right _)
  have hspaces : s.spaces.Nodup := (nodup_append.1 h.nodup).1
  have hmem : ∀ j, j ∈ s.spaces.erase i ↔ j ≠ i ∧ j ∈ s.spaces := fun j => hspaces.mem_erase_iff
  have hdef : ∀ j, j ∈ s.deferred.erase i ↔ j ≠ i ∧ j ∈ s.deferred := fun j => h.deferred.1.mem_erase_iff
  unfold unlink
  refine ⟨⟨?_, ?_, ⟨h.deferred.1.erase i, ?_⟩, ?_, ?_, ?_⟩, .of_record rfl ?_, Nat.le_refl _⟩
  · exact fun j hj => h.made j (hperm.mem_iff.1 hj)
  · exact hperm.nodup_iff.2 h.nodup
  · intro j hj
    exact (hmem j).2 (((hdef j).1 hj).imp_right (h.deferred.2 j))
  · intro j hj
    grind -linarith [h.queued j]
  · intro j hj
    grind -linarith [Space.idle, h.idle j]
  · intro j hj hk
    have := h.kernel j hj
    grind -linarith
  · exact fun _ => ⟨by simp, UInt32.le_refl _, UInt32.le_refl _⟩

theorem Inv.detach_eq (h : Inv s) (hi : i ∈ s.spaces) : s.detach i = s.unlink i := by
  unfold detach unlink
  cases hq : (s.records i).deferredQueued with
  | true => rfl
  | false =>
    simp [erase_of_not_mem (h.not_deferred hi hq)]

/-- The kernel's space is not found under a root that is not the kernel's. -/
theorem Inv.findRoot_user (h : Inv s) {pml4Phys : UInt64} (hf : s.findRoot pml4Phys = some i)
    (hne : norm pml4Phys ≠ norm s.kernelPml4) : (s.records i).isKernel = false := by
  cases hker : (s.records i).isKernel with
  | false => rfl
  | true =>
    have hroot := find?_some hf
    have hk := (h.kernel i (h.mem_lt (findRoot_mem hf)) hker).2.1
    exact absurd ((by simpa using hroot : norm (s.records i).cr3 = norm pml4Phys).symm.trans hk) hne

theorem destroy_good (h : Inv s) (pml4Phys : UInt64) (free : Bool) (current : UInt64) (valid : Bool) :
    Good s (s.vmmDestroyPml4 pml4Phys free current valid).2 := by
  unfold vmmDestroyPml4
  split
  · exact .refl h
  split
  · exact .refl h
  rename_i hkernel
  split
  · exact .refl h
  split
  · exact .refl h
  rename_i i hf
  have hi := findRoot_mem hf
  have hker : (s.records i).isKernel = false := by
    simp only [Bool.or_eq_true, beq_iff_eq, not_or] at hkernel
    exact h.findRoot_user hf hkernel.2
  split
  · exact defer_good h hi hker free
  rename_i hidle
  split
  · exact .refl h
  rw [h.detach_eq hi]
  exact unlink_good h hi (by simpa using hidle) hker

/-- The spaces a drain has yet to look at are still put off. -/
theorem drain_good (h : Inv s) (valid : Nat → Bool) : Good s (s.vmmDrainDeferredDestructions valid) := by
  have hker : ∀ i ∈ s.deferred, (s.records i).isKernel = false := by
    intro i hi
    have hmem := h.deferred.2 i hi
    cases hk : (s.records i).isKernel with
    | false => rfl
    | true =>
      have hq := (h.queued i hmem).2 hi
      rw [(h.kernel i (h.mem_lt hmem) hk).2.2] at hq
      cases hq
  suffices hloop : ∀ (ids : List Nat) (u : Registry), ids.Nodup → Inv u →
      (∀ j ∈ ids, j ∈ u.deferred ∧ (u.records j).isKernel = false) → Good u (ids.foldl (drainOne valid) u) from
    hloop s.deferred s h.deferred.1 h fun j hj => ⟨hj, hker j hj⟩
  intro ids
  induction ids with
  | nil => exact fun u _ hu _ => .refl hu
  | cons j ids ih =>
    intro u hnd hu hall
    obtain ⟨hj, hnd⟩ := nodup_cons.1 hnd
    obtain ⟨hdef, hk⟩ := hall j (.head _)
    have hrest : ∀ l ∈ ids, l ∈ u.deferred ∧ (u.records l).isKernel = false :=
      fun l hl => hall l (.tail _ hl)
    rw [foldl_cons, drainOne]
    split
    · rename_i hok
      simp only [Bool.and_eq_true] at hok
      have hone := unlink_good hu (hu.deferred.2 j hdef) hok.1 hk
      refine hone.trans (ih (u.unlink j) hnd hone.inv ?_)
      intro l hl
      have hlj : l ≠ j := fun he => hj (he ▸ hl)
      refine ⟨hu.deferred.1.mem_erase_iff.2 ⟨hlj, (hrest l hl).1⟩, ?_⟩
      simpa [unlink, hlj] using (hrest l hl).2
    · exact ih u hnd hu hrest

theorem teardown_good (h : Inv s) (i : Nat) : Good s (s.vmmTeardownPml4Tables i) := by
  unfold vmmTeardownPml4Tables
  split
  · rename_i hi
    have hperm : (s.spaces ++ (s.detached.erase i ++ i :: s.torn)).Perm (s.spaces ++ (s.detached ++ s.torn)) := by
      have hcons : (i :: s.detached.erase i).Perm s.detached := (perm_cons_erase hi).symm
      exact List.Perm.append_left _ (perm_middle.trans (hcons.append_right _))
    refine ⟨⟨?_, ?_, h.deferred, h.queued, ?_, h.kernel⟩, .of_records rfl, Nat.le_refl _⟩
    · exact fun j hj => h.made j (hperm.mem_iff.1 hj)
    · exact hperm.nodup_iff.2 h.nodup
    · exact fun j hj => h.idle j (mem_of_mem_erase hj)
  · exact .refl h

/-! ## Runs -/

theorem step_good (h : Inv s) (call : Call) : Good s (s.step call) := by
  cases call with
  | create => exact create_good h _
  | retire => exact retire_good h _
  | getOp => exact getOp_good h _
  | putOp => exact putOp_good h _
  | enter => exact enter_good h ..
  | leave => exact leave_good h ..
  | addSchedRef => exact addSchedRef_good h _
  | subSchedRef => exact subSchedRef_good h _
  | destroy => exact destroy_good h ..
  | drain => exact drain_good h _
  | teardown => exact teardown_good h _

theorem boot_inv (kernelPml4 hhdmOffset : UInt64) : Inv (boot kernelPml4 hhdmOffset) where
  made := by simp [boot]
  nodup := by simp [boot]
  deferred := by simp [boot]
  queued := by simp [boot]
  idle := by simp [boot]
  kernel := fun _ _ _ => ⟨rfl, by simp [boot, norm, UInt64.and_assoc], rfl⟩

theorem run_inv (kernelPml4 hhdmOffset : UInt64) (calls : List Call) : Inv (run kernelPml4 hhdmOffset calls) := by
  exact foldlRecOn calls step (boot_inv ..) fun _ h call _ => (step_good h call).inv

theorem getOp_refused (h : Inv s) (hf : s.findVirt virt = some i) (hs : (s.records i).state ≠ .live) :
    (s.vmmSpaceGetOp virt).1 = .invalidAddr := by
  have hker : (s.records i).isKernel = false := by
    cases hk : (s.records i).isKernel with
    | false => rfl
    | true => exact absurd (h.kernel i (h.mem_lt (findVirt_mem hf)) hk).1 hs
  unfold vmmSpaceGetOp
  split
  · rfl
  · simp [hf, hker, hs]

/-- **The life of an address space, whatever is called in whatever order.** No space is torn down twice: one
whose tables are still to be freed was not torn down before, and is not registered any more. When its tables
are freed no processor has it active, and no thread or operation refers to it. Once a space is dying, the next
call leaves it so, adds no operation or scheduler reference to it, and is refused if it asks for one. -/
theorem space_lifetime (kernelPml4 hhdmOffset : UInt64) (calls : List Call) :
    let s := run kernelPml4 hhdmOffset calls
    s.torn.Nodup ∧
    (∀ i ∈ s.detached, i ∉ s.torn ∧ i ∉ s.spaces ∧
      (s.records i).activeCpusMask = 0 ∧ (s.records i).schedRefs = 0 ∧ (s.records i).opRefs = 0) ∧
    (∀ call i, i < s.made → (s.records i).state ≠ .live →
      let s' := run kernelPml4 hhdmOffset (calls ++ [call])
      (s'.records i).state ≠ .live ∧ (s'.records i).opRefs ≤ (s.records i).opRefs ∧
      (s'.records i).schedRefs ≤ (s.records i).schedRefs) ∧
    (∀ i, (s.records i).state ≠ .live →
      (∀ virt, s.findVirt virt = some i → (s.vmmSpaceGetOp virt).1 = .invalidAddr) ∧
      ∀ cr3, s.uncounted cr3 = false → s.findCr3 cr3 = some i → (s.vmmSpaceAddSchedRef cr3).1 = .invalidAddr) := by
  intro s
  have hinv : Inv s := run_inv kernelPml4 hhdmOffset calls
  have happ : ∀ call, run kernelPml4 hhdmOffset (calls ++ [call]) = s.step call := fun _ => foldl_append
  obtain ⟨-, hrest, hapart⟩ := nodup_append.1 hinv.nodup
  obtain ⟨-, htorn, hdt⟩ := nodup_append.1 hrest
  refine ⟨htorn, ?_, ?_, ?_⟩
  · intro i hi
    have hidle := hinv.idle i hi
    simp only [Space.idle, Bool.and_eq_true, beq_iff_eq] at hidle
    refine ⟨fun ht => hdt i hi i ht rfl, fun hs => ?_, hidle.1.1, hidle.1.2, hidle.2⟩
    exact hapart i hs i (mem_append_left _ hi) rfl
  · intro call i hi hs s'
    rw [show s' = s.step call from happ call]
    exact (step_good hinv call).wanes i hi hs
  · intro i hs
    exact ⟨fun virt hf => getOp_refused hinv hf hs, fun cr3 hu hf => by simp [vmmSpaceAddSchedRef, hu, hf, hs]⟩

end Fortress.Vmm.Registry
