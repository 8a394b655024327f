/-
The lifetime of shared memory objects over every interleaving.

The steps that make objects, tasks and roots come and go keep the ledger too,
so it holds along every run in which the two putting sections find the
reservation they mean. There an object's reference count is what it stands
for, and its frames are freed when no root maps them.
-/
import Fortress.Shm.Steps

namespace Fortress.Shm

open Function List

/-! ## Descriptors and objects -/

attribute [local simp] Task.about

variable {k : Kernel}

theorem Inv.spawn (h : Inv k) : Inv { k with tasks := k.tasks ++ [.idle] } := by
  have hcount (p : Task → Bool) (hp : p .idle = false) : (k.tasks ++ [Task.idle]).countP p = k.tasks.countP p := by
    rw [countP_append_one, hp]
    rfl
  refine ⟨fun s hs => ?_, h.objects, h.frames, h.disjoint, { h.tokens with },
    fun t ht => ?_, fun s hs hf root a i f hi hp => ?_, fun root => ?_⟩
  · exact (h.ledger s hs).recount (hcount _ rfl) (hcount _ rfl) (hcount _ rfl) fun _ _ => hcount _ rfl
  · have : TaskOk k t := by
      rcases mem_append.1 ht with ht | ht
      · exact h.tasks t ht
      rw [mem_singleton.1 ht]
      trivial
    cases t <;> exact this
  · obtain ⟨hd, va, ha, hle⟩ := h.pages s hs hf root a i f hi hp
    refine ⟨hd, va, ha, ?_⟩
    rw [hcount (Task.needs s root va) rfl]
    exact hle
  · rw [hcount (Task.sweeps root) rfl]
    exact h.sweeps root

theorem Inv.fdDup {s : Nat} (h : Inv k) (hs : s < k.created) : Inv (fdDup k s) := by
  unfold Shm.fdDup
  dsimp only
  split
  · exact h
  rename_i hne
  have hpos : 0 < (k.segs s).refCount := Nat.pos_of_ne_zero hne
  have hj : (k.tasks ++ [Task.idle])[k.tasks.length]? = some Task.idle := by simp
  refine h.spawn.call (m := { k.segs s with refCount := (k.segs s).refCount + 1 }) (u := .holding s)
    ⟨⟨rfl, ?_, rfl, fun _ ho => ho⟩, rfl, rfl, rfl⟩ hj hs hs (.file_only ?_ ?_ rfl fun _ _ => rfl)
    (Segment.kept rfl) (fun _ => rfl) rfl rfl
  · simp
  · simp [Task.holds]
  · simp [Task.closes, hpos]

theorem Inv.about_ne_created (h : Inv k) {t : Task} (ht : t ∈ k.tasks) : t.about ≠ some k.created := by
  have hok := h.tasks t ht
  cases t <;> grind -linarith [TaskOk, Task.about]

theorem Inv.ledger_created (h : Inv k) (frames : List Nat) :
    Ledger (k.tasks ++ [.holding k.created]) k.created
      { frames, refs := 1, maps := List.replicate SHM_MAX_MAPPINGS {}, refCount := 1, isOpen := true } := by
  have hnew {p : Task → Bool} (hp : ∀ t : Task, t.about ≠ some k.created → p t = false) :
      (k.tasks ++ [Task.holding k.created]).countP p = (p (.holding k.created)).toNat := by
    rw [countP_append_one, countP_eq_zero.2 fun t ht => by simp [hp t (h.about_ne_created ht)], Nat.zero_add]
  refine ⟨by simp, by simp [Segment.live, countP_replicate], ?_, ?_, ?_, fun _ root va => ?_⟩
  · rw [hnew fun t ht => (t.silent ht).1]
    simp [Task.holds]
  · rw [hnew fun t ht => (t.silent ht).2.1]
    rfl
  · rw [hnew fun t ht => (t.silent ht).2.2.1]
    rfl
  · rw [hnew fun t ht => (t.silent ht).2.2.2 root va]
    exact Nat.zero_le _

theorem Inv.shmCreate {frames : List Nat} (h : Inv k) (hv : (Call.create frames).valid k) :
    Inv (shmCreate k frames) := by
  obtain ⟨hne, hnd, _, hfresh⟩ := hv
  unfold Shm.shmCreate
  split
  swap
  · exact h
  have hcount {p : Task → Bool} (hp : p (.holding k.created) = false) :
      (k.tasks ++ [Task.holding k.created]).countP p = k.tasks.countP p := by
    rw [countP_append_one, hp]
    rfl
  set m : Segment :=
    { frames, refs := 1, maps := replicate SHM_MAX_MAPPINGS {}, refCount := 1, isOpen := true }
  have hlt {s : Nat} (hs : s < k.created + 1) (e : s ≠ k.created) : s < k.created :=
    Nat.lt_of_le_of_ne (Nat.le_of_lt_succ hs) e
  have hshrink : Shrinks k { k with
      segs := update k.segs k.created m, created := k.created + 1, objects := k.created :: k.objects,
      totalPages := k.totalPages + frames.length, tasks := k.tasks ++ [.holding k.created] } := by
    intro s i
    by_cases e : s = k.created
    · subst e
      left
      simp only [Kernel.slot, update_self, Segment.slot, getD_eq_getElem?_getD, m, getElem?_replicate]
      split <;> rfl
    · right
      simp [Kernel.slot, Mapping.same, e]
  refine ⟨fun s hs => ?_, fun o ho => ?_, fun s hs => ?_, fun s s' f ho ho' => ?_, h.tokens.shrink hshrink rfl,
    fun t ht => ?_, fun s hs hf root a i f hi hp => ?_, fun root => ?_⟩
  · dsimp only at hs ⊢
    by_cases e : s = k.created
    · subst e
      rw [update_self]
      exact h.ledger_created frames
    rw [update_of_ne e]
    exact (h.ledger s (hlt hs e)).recount (hcount (beq_eq_false_iff_ne.2 (Ne.symm e))) (hcount rfl) (hcount rfl)
      fun _ _ => hcount rfl
  · rcases mem_cons.1 ho with rfl | ho
    · exact Nat.lt_succ_self _
    · exact Nat.lt_succ_of_lt (h.objects o ho)
  · have := h.frames s
    grind -linarith [update_apply]
  · have := h.disjoint s s' f
    have := hfresh f
    simp only [Kernel.owns, update_apply] at *
    grind -linarith
  · rcases mem_append.1 ht with ht | ht
    · exact (h.tasks t ht).shrink hshrink (Nat.le_succ _) rfl rfl
    rw [mem_singleton.1 ht]
    exact Nat.lt_succ_self _
  · dsimp only at hs hf hi hp ⊢
    by_cases e : s = k.created
    · subst e
      rw [update_self] at hi
      exact absurd hp ((hfresh f (mem_of_getElem? hi)).2 root a)
    rw [update_of_ne e] at hf hi ⊢
    obtain ⟨hd, va, ha, hle⟩ := h.pages s (hlt hs e) hf root a i f hi hp
    refine ⟨hd, va, ha, ?_⟩
    rw [hcount rfl]
    exact hle
  · rw [hcount rfl]
    exact h.sweeps root

/-! ## Roots -/

variable {j root : Nat} {dead : Bool}

theorem Inv.countP_sweeps (h : Inv k) {t : Task} (hj : k.tasks[j]? = some t)
    (ht : t.sweeps root = true) : k.dying root = true ∧ k.tasks.countP (Task.sweeps root) = 1 := by
  grind -linarith [countP_pos_of_getElem? hj ht, h.sweeps root, Bool.toNat]

/-- Task `j` starts or ends the teardown of a root that no call uses and that
maps no object. -/
theorem Inv.setDying {t u : Task} {b : Bool} (h : Inv k) (hj : k.tasks[j]? = some t)
    (ht : t.about = none) (ht' : u.about = none) (huses : ∀ w ∈ k.tasks, w.uses root = false)
    (hpages : ∀ s f a, k.owns s f → k.pages root a ≠ some f)
    (hb : ∀ r, (u.sweeps r).toNat + (k.dying r).toNat =
      (t.sweeps r).toNat + (update k.dying root b r).toNat) :
    Inv (Kernel.setTask { k with dying := update k.dying root b } j u) := by
  have halike (s : Nat) : Alike s t u := by
    cases t <;> cases u <;> first | exact ⟨rfl, rfl, rfl, fun _ _ => rfl⟩ | simp at ht ht'
  have hcount (s root va : Nat) :
      (k.tasks.set j u).countP (Task.needs s root va) = k.tasks.countP (Task.needs s root va) :=
    countP_set_of_eq hj ((halike s).needs root va)
  have hdying {r : Nat} (hne : r ≠ root) : update k.dying root b r = k.dying r :=
    update_of_ne hne b k.dying
  refine ⟨fun s hs => (h.ledger s hs).alike hj (halike s), h.objects, h.frames, h.disjoint,
    { h.tokens with }, fun w hw => ?_, fun s hs hf r a i f hi hp => ?_, fun r => ?_⟩
  · rcases mem_or_eq_of_mem_set hw with hw | rfl
    · have hw' := huses w hw
      have := h.tasks w hw
      cases w <;> simp only [TaskOk, Kernel.setTask, Kernel.slot] at this ⊢ <;> grind -linarith [Task.uses]
    · cases w <;> trivial
  · change k.pages r a = some f at hp
    by_cases hne : r = root
    · subst hne
      exact absurd hp (hpages s f a ⟨hs, hf, mem_of_getElem? hi⟩)
    obtain ⟨hd, va, ha, hle⟩ := h.pages s hs hf r a i f hi hp
    refine ⟨(hdying hne).trans hd, va, ha, ?_⟩
    change (k.tasks.set j u).countP _ + 1 ≤ (k.segs s).slots r va
    rw [hcount]
    exact hle
  have hset := countP_set_add (p := Task.sweeps r) hj u
  have := h.sweeps r
  have := hb r
  change (k.tasks.set j u).countP _ = (update k.dying root b r).toNat
  omega

theorem Inv.teardown (h : Inv k) (hv : (Call.teardown j root).valid k) : Inv (teardown k j root) := by
  obtain ⟨hj, hd, huses⟩ := hv
  have hinv : Inv { k with pages := update k.pages root fun _ => none } := by
    refine h.unmapPages fun s f r a _ hp => ?_
    simp only [update_apply, ite_apply] at hp
    grind -linarith
  refine hinv.setDying hj rfl rfl huses (fun s f a _ => ?_) fun r => ?_
  · simp
  · grind -linarith [Task.sweeps, update_apply, Bool.toNat]

/-! ## Sweeping -/

/-- What a scan does to the slots and the count of one object. -/
structure Swept (root : Nat) (es : List Mapping) (n : UInt32) (es' : List Mapping) (n' : UInt32)
    (dead : Bool) : Prop where
  length : es'.length = es.length
  refs : n'.toNat + es.countP (·.token != 0) = n.toNat + es'.countP (·.token != 0)
  zero : if dead then n ≠ 0 ∧ n' = 0 else (n' == 0) = (n == 0)
  slot : ∀ i, (es'.getD i {}).token = 0 ∨ (es.getD i {}).same (es'.getD i {})
  slots : ∀ r va, r ≠ root → es'.countP (Mapping.isAt r va) = es.countP (Mapping.isAt r va)

theorem Swept.cons {es es' : List Mapping} {refs refs' : UInt32} (e : Mapping)
    (h : Swept root es refs es' refs' dead) : Swept root (e :: es) refs (e :: es') refs' dead := by
  refine ⟨by simp [h.length], ?_, h.zero, fun i => ?_, fun r va hr => ?_⟩
  · have := h.refs
    simp only [countP_cons]
    omega
  · cases i with
    | zero => exact .inr (Mapping.same_refl _)
    | succ i => simpa using h.slot i
  · simp only [countP_cons, h.slots r va hr]

theorem sweepMaps_swept (root : Nat) : ∀ (es : List Mapping) (refs : UInt32), es.countP (·.token != 0) ≤ refs.toNat →
    Swept root es refs (sweepMaps root es refs).1 (sweepMaps root es refs).2.1 (sweepMaps root es refs).2.2
  | [], refs, _ => ⟨rfl, rfl, rfl, fun _ => .inr (Mapping.same_refl _), fun _ _ _ => rfl⟩
  | e :: es, refs, hle => by
    unfold sweepMaps
    by_cases hskip : (e.token == 0 || e.rootPhys != root) = true
    · rw [if_pos hskip]
      refine (sweepMaps_swept root es refs ?_).cons e
      rw [List.countP_cons] at hle
      omega
    rw [if_neg hskip]
    simp only [Bool.or_eq_true, beq_iff_eq, bne_iff_ne, ne_eq, not_or, not_not] at hskip
    have htaken : (e.token != 0) = true := by simpa using hskip.1
    simp only [countP_cons, htaken, if_true] at hle
    have hne : refs ≠ 0 := fun h0 => by simp [h0] at hle
    have hsub := toNat_sub_one (a := refs) (by omega)
    -- the slot was the root's, so other roots keep their count
    have hat (r va : Nat) (hr : r ≠ root) :
        Mapping.isAt r va { e with token := 0 } = false ∧ Mapping.isAt r va e = false := by
      refine ⟨by simp [Mapping.isAt], ?_⟩
      simp [Mapping.isAt, hskip.2, Ne.symm hr]
    by_cases hlast : refs - 1 = 0
    · rw [if_pos (by simpa using hlast)]
      refine ⟨by simp, ?_, ⟨hne, hlast⟩, fun i => ?_, fun r va hr => ?_⟩
      · simp only [countP_cons, htaken, if_true, bne_self_eq_false, Bool.false_eq_true, if_false]
        omega
      · cases i with
        | zero => exact .inl rfl
        | succ i => exact .inr (Mapping.same_refl _)
      · simp only [countP_cons, hat r va hr]
    rw [if_neg (by simpa using hlast)]
    have ih := sweepMaps_swept root es (refs - 1) (by omega)
    generalize sweepMaps root es (refs - 1) = swept at ih ⊢
    obtain ⟨es', refs', dead⟩ := swept
    dsimp only at ih ⊢
    refine ⟨by simp [ih.length], ?_, ?_, fun i => ?_, fun r va hr => ?_⟩
    · have := ih.refs
      simp only [countP_cons, htaken, if_true, bne_self_eq_false, Bool.false_eq_true, if_false]
      omega
    · have hz := ih.zero
      cases dead <;> grind -linarith
    · cases i with
      | zero => exact .inl rfl
      | succ i => simpa using ih.slot i
    · simp only [countP_cons, hat r va hr, ih.slots r va hr]

/-- One object of the scan: its ledger still balances, and with `dead` its
destruction is due. -/
theorem Inv.swept {k' : Kernel} {o : Nat} {maps : List Mapping} {n : UInt32} (h : Inv k)
    (hj : k.tasks[j]? = some (.sweeping root)) (ho : o < k.created)
    (hs : Swept root (k.segs o).maps (k.segs o).refs maps n dead)
    (hm : Move k o { k.segs o with maps, refs := n } j
      (if dead then .destroying o (.sweep root) else .sweeping root) k') : Inv k' := by
  have hl := h.ledger o ho
  obtain ⟨hd, _⟩ := h.countP_sweeps hj (beq_self_eq_true root)
  have huses (va : Nat) : k.tasks.countP (Task.needs o root va) = 0 := by
    rw [countP_eq_zero]
    intro t ht hn
    have hok := h.tasks t ht
    cases t <;> grind -linarith [TaskOk, Task.needs]
  have hslots (r va : Nat) (hr : r ≠ root) :
      ({ k.segs o with maps, refs := n } : Segment).slots r va = (k.segs o).slots r va := hs.slots r va hr
  have hrefs := hs.refs
  refine h.move hm hj rfl id hs.slot ⟨hs.length.trans hl.length, ?_, ?_, ?_, ?_, fun hf r va => ?_⟩
    (fun s' hne => ?_) (fun _ r va hr => ?_) ?_ fun r => ?_
  · have := hl.refs
    change n.toNat = (k.segs o).isOpen.toNat + maps.countP _
    unfold Segment.live at this
    omega
  · rw [countP_set_of_eq hj (by cases dead <;> rfl)]
    exact hl.file
  · rw [countP_set_of_eq hj (by cases dead <;> rfl)]
    exact hl.node
  · have hset := countP_set_add (p := Task.destroys o) hj
      (if dead then .destroying o (.sweep root) else .sweeping root)
    have hdead := hl.dead
    have hz := hs.zero
    cases dead <;> grind -linarith [Task.destroys, Bool.toNat]
  · rw [countP_set_of_eq hj (by cases dead <;> rfl)]
    by_cases hr : r = root
    · subst hr
      rw [huses va]
      exact Nat.zero_le _
    · rw [hslots r va hr]
      exact hl.slots hf r va
  · cases dead <;> exact .of_about hne rfl rfl
  · rw [hslots r va (by grind -linarith)]
    cases dead <;> exact le_rfl
  · cases dead
    · trivial
    · exact ho
  · cases dead <;> rfl

theorem Inv.sweepObjects : ∀ {os : List Nat} {k : Kernel}, Inv k →
    k.tasks[j]? = some (.sweeping root) → (∀ o ∈ os, o < k.created) →
      match sweepObjects root os k with
      | (k', some s) => Inv (k'.setTask j (.destroying s (.sweep root)))
      | (k', none) => Inv k' ∧ k'.tasks = k.tasks ∧ k'.pages = k.pages ∧ k'.dying = k.dying
  | [], k, h, _, _ => ⟨h, rfl, rfl, rfl⟩
  | o :: os, k, h, hj, hos => by
    have ho := hos o (.head _)
    have hlive : (k.segs o).live ≤ (k.segs o).refs.toNat := by
      rw [(h.ledger o ho).refs]
      exact Nat.le_add_left _ _
    have hs := sweepMaps_swept root (k.segs o).maps (k.segs o).refs hlive
    unfold Shm.sweepObjects
    dsimp only
    by_cases hd : (sweepMaps root (k.segs o).maps (k.segs o).refs).2.2 = true
    · rw [if_pos hd]
      rw [hd] at hs
      exact h.swept hj ho hs ⟨⟨rfl, rfl, rfl, fun _ hm => mem_of_mem_erase hm⟩, rfl, rfl, rfl⟩
    rw [if_neg hd]
    rw [Bool.not_eq_true] at hd
    rw [hd] at hs
    have hset : k.tasks.set j (.sweeping root) = k.tasks := by
      obtain ⟨hlt, hget⟩ := List.getElem?_eq_some_iff.1 hj
      rw [← hget]
      exact set_getElem_self hlt
    have hinv : Inv (k.setSeg o { k.segs o with
        maps := (sweepMaps root (k.segs o).maps (k.segs o).refs).1
        refs := (sweepMaps root (k.segs o).maps (k.segs o).refs).2.1 }) :=
      h.swept hj ho hs ⟨⟨rfl, hset.symm, rfl, fun _ hm => hm⟩, rfl, rfl, rfl⟩
    exact Inv.sweepObjects hinv hj fun o' ho' => hos o' (.tail _ ho')

/-- A root being torn down maps no object and has no call. -/
theorem Inv.dying_pages (h : Inv k) (hd : k.dying root = true) (s f a : Nat)
    (ho : k.owns s f) : k.pages root a ≠ some f := by
  intro hp
  obtain ⟨hs, hf, hmem⟩ := ho
  obtain ⟨i, hi⟩ := mem_iff_getElem?.mp hmem
  obtain ⟨hlive, _⟩ := h.pages s hs hf root a i f hi hp
  exact nomatch hlive.symm.trans hd

theorem Inv.dying_uses (h : Inv k) (hd : k.dying root = true) (t : Task)
    (ht : t ∈ k.tasks) : t.uses root = false := by
  have hok := h.tasks t ht
  cases t <;> grind -linarith [TaskOk, Task.uses]

theorem Inv.sweep (h : Inv k) (hj : k.tasks[j]? = some (.sweeping root)) : Inv (sweep k j root) := by
  have hscan := h.sweepObjects hj h.objects
  unfold Shm.sweep
  generalize Shm.sweepObjects root k.objects k = r at hscan ⊢
  obtain ⟨k', _ | s⟩ := r
  · obtain ⟨hinv, htasks, hpages, hdying⟩ := hscan
    obtain ⟨hd, _⟩ := h.countP_sweeps hj (beq_self_eq_true root)
    have hd' : k'.dying root = true := by rw [hdying, hd]
    refine hinv.setDying (by rw [htasks]; exact hj) rfl rfl (hinv.dying_uses hd') (hinv.dying_pages hd') fun r => ?_
    grind -linarith [Task.sweeps, update_apply, Bool.toNat]
  · exact hscan

/-! ## Runs -/

/-- The sections that put a reference for a slot find it as they left it:
`shm_map`'s error section its token in some slot, `shm_unmap`'s last section
the claimed token in the claimed slot. -/
def Call.kept (k : Kernel) : Call → Bool
  | .run j _ =>
    match k.tasks[j]? with
    | some (.mapFailed s _ _ token) => (k.segs s).maps.any (·.token == token)
    | some (.unmapped s i _ _ token) => (k.slot s i).token == token
    | _ => true
  | _ => true

def keptMachine : Machine Kernel Call := shmMachine.restrict fun k c => c.kept k = true

theorem Inv.advance {fails : Bool} (h : Inv k) (hk : (Call.run j fails).kept k = true) :
    Inv (advance k j fails) := by
  unfold Shm.advance
  simp only [Call.kept] at hk
  split
  · exact h
  · exact h
  · exact h.vfsClose ‹_›
  · exact h.mapReserve ‹_›
  · exact h.mapCall ‹_›
  · rename_i s root va token hj
    rw [hj] at hk
    obtain ⟨e, hmem, he⟩ := any_eq_true.1 hk
    obtain ⟨i, hi⟩ := mem_iff_getElem?.mp hmem
    refine h.mapUndo (i := i) hj ?_
    rw [Kernel.slot, Segment.slot_of_getElem? hi]
    simpa using he
  · exact h.unmapCall ‹_›
  · rename_i s i root va token hj
    rw [hj] at hk
    exact h.unmapDone hj (by simpa using hk)
  · exact h.unmapKept ‹_›
  · exact h.shmClose ‹_›
  · exact h.destroy ‹_›
  · exact h.sweep ‹_›

theorem Inv.init : Inv {} := by
  refine ⟨fun s hs => absurd hs (Nat.not_lt_zero s), fun _ ho => absurd ho (by simp),
    fun s hs => absurd hs (Nat.not_lt_zero s), fun s _ _ ho => absurd ho.1 (Nat.not_lt_zero s),
    ⟨Nat.one_pos, fun _ _ => Nat.one_pos, fun _ _ _ _ _ hne => absurd rfl hne⟩, fun _ ht => absurd ht (by simp),
    fun s hs => absurd hs (Nat.not_lt_zero s), fun _ => rfl⟩

theorem reach_inv (h : keptMachine.Reach k) : Inv k := by
  refine h.invariant (fun k hi => ?_) fun k c k' hi hs => ?_
  · obtain rfl : k = {} := hi
    exact .init
  obtain ⟨hk, hv, rfl⟩ := hs
  cases c with
  | spawn => exact hi.spawn
  | create frames => exact hi.shmCreate hv
  | dup s => exact hi.fdDup hv
  | map j s root va => exact hi.mapStart hv.1 hv.2.1 hv.2.2
  | unmap j root va => exact hi.unmapClaim hv.1 hv.2
  | teardown j root => exact hi.teardown hv
  | run j fails => exact hi.advance hk
  | other pages => exact hi.unmapPages fun s f root a ho hp => hv s f root a ho hp

/-- **Shared memory lives as long as it is used.** In every run whose putting
sections find their reservation, an object that is not freed counts one
reference for its open node and one for each slot with a token; and when its
destruction is due, no root maps a frame of it. -/
theorem shm_lifetime {k : Kernel} (h : keptMachine.Reach k) {s : Nat} (hs : s < k.created)
    (hf : (k.segs s).freed = false) :
    (k.segs s).refs.toNat = (if (k.segs s).isOpen then 1 else 0) + (k.segs s).live ∧
      ∀ (j : Nat) (next : Rest), k.tasks[j]? = some (.destroying s next) →
        ∀ root a f, f ∈ (k.segs s).frames → k.pages root a ≠ some f := by
  have hinv := reach_inv h
  have hl := hinv.ledger s hs
  refine ⟨?_, fun j next hj root a f hmem hp => ?_⟩
  · rw [hl.refs]
    cases (k.segs s).isOpen <;> rfl
  obtain ⟨i, hi⟩ := mem_iff_getElem?.mp hmem
  obtain ⟨_, va, _, hslot⟩ := hinv.pages s hs hf root a i f hi hp
  have hlive := (k.segs s).slots_le_live root va
  have hpos : 0 < k.tasks.countP (Task.destroys s) := countP_pos_of_getElem? hj (beq_self_eq_true s)
  have hdead := hl.dead
  have hne : (k.segs s).refs ≠ 0 := by
    intro e
    have := hl.refs
    rw [e] at this
    simp at this
    omega
  rw [beq_eq_false_iff_ne.2 hne, Bool.toNat_false] at hdead
  omega

/-! ## Concrete runs -/

/-- `Call.valid` for the calls that make no object. -/
def Call.checked (k : Kernel) : Call → Bool
  | .spawn | .run _ _ => true
  | .dup s => decide (s < k.created)
  | .map j s root _ => decide (s < k.created) && k.tasks[j]? == some .idle && !k.dying root
  | .unmap j root _ => k.tasks[j]? == some .idle && !k.dying root
  | .teardown j root => k.tasks[j]? == some .idle && !k.dying root && k.tasks.all fun t => !t.uses root
  | .create _ | .other _ => false

theorem Call.valid_of_checked {c : Call} (h : c.checked k = true) : c.valid k := by
  cases c with
  | spawn | run j fails => trivial
  | create frames | other pages => exact absurd h (by simp [Call.checked])
  | dup s | unmap j root va => simpa [Call.checked, Call.valid] using h
  | map j s root va | teardown j root => simpa [Call.checked, Call.valid, and_assoc] using h

/-- A run of checked calls that all pass `g`. -/
def checkedRun (g : Kernel → Call → Bool) (k : Kernel) : List Call → Bool
  | [] => true
  | c :: cs => c.checked k && g k c && checkedRun g (c.apply k) cs

theorem reach_run {g : Kernel → Call → Bool} : ∀ {cs : List Call} {k : Kernel},
    (shmMachine.restrict fun k c => g k c = true).Reach k → checkedRun g k cs = true →
      (shmMachine.restrict fun k c => g k c = true).Reach (cs.foldl Call.apply k)
  | [], _, h, _ => h
  | c :: cs, k, h, hc => by
    simp only [checkedRun, Bool.and_eq_true] at hc
    exact @reach_run g cs _ (.step h ⟨hc.1.2, Call.valid_of_checked hc.1.1, rfl⟩) hc.2

/-- One object of one page, its descriptor and four idle threads. -/
def oneObject : Kernel :=
  [.spawn, .spawn, .spawn, .spawn].foldl Call.apply (Call.apply {} (.create [100]))

theorem oneObject_reach {g : Kernel → Call → Bool} (hg : g {} (.create [100]) = true)
    (hs : checkedRun g (Call.apply {} (.create [100])) [.spawn, .spawn, .spawn, .spawn] = true) :
    (shmMachine.restrict fun k c => g k c = true).Reach oneObject := by
  refine reach_run (.step (.init rfl) ⟨hg, ?_, rfl⟩) hs
  refine ⟨by decide, by decide, by decide, fun f _ => ⟨fun s ho => ?_, fun _ _ => by simp⟩⟩
  exact absurd ho.1 (Nat.not_lt_zero s)

/-- A thread maps the object, and the descriptor is closed. -/
def mappedObject : Kernel :=
  [.map 1 0 1 0x1000000, .run 1 false, .run 1 false, .run 1 false, .run 0 false, .run 0 false].foldl Call.apply
    oneObject

/-- The last unmap makes the destruction of the object due. -/
def unmappedObject : Kernel :=
  [.unmap 2 1 0x1000000, .run 2 false, .run 2 false].foldl Call.apply mappedObject

theorem mappedObject_reach : keptMachine.Reach mappedObject :=
  reach_run (oneObject_reach (by decide +kernel) (by decide +kernel)) (by decide +kernel)

theorem unmappedObject_reach : keptMachine.Reach unmappedObject := reach_run mappedObject_reach (by decide +kernel)

theorem shm_lifetime_last_unmap :
    unmappedObject.tasks[2]? = some (.destroying 0 .done) ∧ unmappedObject.pages 1 0x1000000 ≠ some 100 := by
  have hdue : unmappedObject.tasks[2]? = some (.destroying 0 .done) := by decide +kernel
  exact ⟨hdue, (shm_lifetime unmappedObject_reach (by decide +kernel) (by decide +kernel)).2 2 .done hdue 1 0x1000000 100
    (by decide +kernel)⟩

/-- **Objects are destroyed once, and pages do not outlive their slots.** In the same runs an object is freed, or
due to be freed by one call, exactly when it has no reference left; and a page that maps a frame of an object not
freed is in a live root, where a slot of the object puts that frame, and of no other object. -/
theorem shm_accounted {k : Kernel} (h : keptMachine.Reach k) {s : Nat} (hs : s < k.created) :
    k.tasks.countP (Task.destroys s) + (k.segs s).freed.toNat = (if (k.segs s).refs = 0 then 1 else 0) ∧
      ∀ i f root a, k.owns s f → (k.segs s).frames[i]? = some f → k.pages root a = some f →
        k.dying root = false ∧ (∃ va, a = va + i * PAGE_SIZE ∧ 0 < (k.segs s).slots root va) ∧
          ∀ s', k.owns s' f → s' = s := by
  have hinv := reach_inv h
  refine ⟨?_, fun i f root a ho hi hp => ?_⟩
  · rw [(hinv.ledger s hs).dead]
    simp [Bool.toNat, cond_eq_ite]
  · obtain ⟨hlive, va, ha, hslot⟩ := hinv.pages s hs ho.2.1 root a i f hi hp
    exact ⟨hlive, ⟨va, ha, by omega⟩, fun s' ho' => hinv.disjoint s' s f ho' ho⟩

theorem shm_accounted_last_unmap :
    unmappedObject.tasks.countP (Task.destroys 0) + (unmappedObject.segs 0).freed.toNat =
        (if (unmappedObject.segs 0).refs = 0 then 1 else 0) ∧
      (unmappedObject.segs 0).refs = 0 ∧ mappedObject.pages 1 0x1000000 = some 100 ∧ mappedObject.dying 1 = false ∧
      (∃ va, 0x1000000 = va + 0 * PAGE_SIZE ∧ 0 < (mappedObject.segs 0).slots 1 va) ∧
      ∀ s', mappedObject.owns s' 100 → s' = 0 :=
  ⟨(shm_accounted unmappedObject_reach (by decide +kernel)).1, by decide +kernel, by decide +kernel,
    (shm_accounted mappedObject_reach (s := 0) (by decide +kernel)).2 0 100 1 0x1000000
      ⟨by decide +kernel, by decide +kernel, by decide +kernel⟩ (by decide +kernel) (by decide +kernel)⟩

/-- Two threads map the object at one address and one of them fails; before
it cleans up, an unmap takes its slot for the other's. -/
def racedObject : Kernel :=
  [.map 1 0 1 0x1000000, .map 2 0 1 0x1000000, .run 1 false, .run 2 false, .run 2 false, .run 1 false,
    .unmap 3 1 0x1000000, .run 3 false, .run 3 false, .run 1 false].foldl Call.apply oneObject

/-- A second root then maps the object, the descriptor is closed, and the
first root is torn down. -/
def danglingObject : Kernel :=
  [.run 1 false, .run 2 false, .map 4 0 2 0x1000000, .run 4 false, .run 4 false, .run 4 false, .run 0 false,
    .run 0 false, .teardown 3 1, .run 3 false].foldl Call.apply racedObject

/-- The reference count falls behind the slots, and the frame is about to be
freed while the second root maps it. -/
theorem shm_double_put :
    shmMachine.Reach racedObject ∧ (racedObject.segs 0).freed = false ∧ (racedObject.segs 0).refs = 1 ∧
      (racedObject.segs 0).isOpen = true ∧ (racedObject.segs 0).live = 1 ∧
      shmMachine.Reach danglingObject ∧ danglingObject.tasks[3]? = some (.destroying 0 (.sweep 1)) ∧
      danglingObject.pages 2 0x1000000 = some 100 := by
  have hraced : (shmMachine.restrict fun _ _ => true = true).Reach racedObject :=
    reach_run (oneObject_reach rfl (by decide +kernel)) (by decide +kernel)
  have hdangling : (shmMachine.restrict fun _ _ => true = true).Reach danglingObject :=
    reach_run hraced (by decide +kernel)
  exact ⟨hraced.of_restrict, by decide +kernel, by decide +kernel, by decide +kernel, by decide +kernel,
    hdangling.of_restrict, by decide +kernel, by decide +kernel⟩

end Fortress.Shm
