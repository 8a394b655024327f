/-
Every section of `kernel/shm.c` keeps the ledger.

The two sections that put a reference for a slot, `shm_map`'s error section
and `shm_unmap`'s last one, do so when the slot still holds the reservation
they mean: the first when its token is in some slot, the second when the slot
it claimed has the token it had then.
-/
import Fortress.Shm.Ledger

namespace Fortress.Shm

open Function List

theorem setSeg_setTask_move (k : Kernel) (s : Nat) (m : Segment) (j : Nat) (t : Task) :
    Move k s m j t ((k.setSeg s m).setTask j t) :=
  ⟨⟨rfl, rfl, rfl, fun _ h => h⟩, rfl, rfl, rfl⟩

/-- The objects a task counts for. -/
def Task.about : Task → Option Nat
  | .idle | .sweeping _ => none
  | .holding s | .reserving s _ _ | .mapping s _ _ _ | .mapFailed s _ _ _ | .unmapping s _ _ _ _
  | .unmapped s _ _ _ _ | .unmapFailed s _ _ | .closing s | .destroying s _ => some s

attribute [local simp] Task.closes Task.about Task.needs Task.holds

variable {s : Nat} {t t' : Task}

theorem Task.silent (h : t.about ≠ some s) : t.holds s = false ∧ t.closes s = false ∧ t.destroys s = false ∧
    ∀ root va, t.needs s root va = false := by
  cases t with
  | destroying o next => cases next <;> simp_all [Task.destroys]
  | _ => simp_all [Task.destroys]

theorem Alike.of_about {s' : Nat} (hne : s' ≠ s) (ht : t.about.getD s = s) (ht' : t'.about.getD s = s) :
    Alike s' t t' := by
  have hno {t : Task} (ht : t.about.getD s = s) := t.silent (s := s') fun e => hne (by rwa [e] at ht)
  obtain ⟨h1, h2, h3, h4⟩ := hno ht
  obtain ⟨h1', h2', h3', h4'⟩ := hno ht'
  exact ⟨h1'.trans h1.symm, h2'.trans h2.symm, h3'.trans h3.symm, fun root va => (h4' root va).trans (h4 root va).symm⟩

theorem Mapping.same_refl (e : Mapping) : e.same e := ⟨rfl, rfl, rfl⟩

theorem Segment.kept {m m' : Segment} (h : m.maps = m'.maps) (i : Nat) :
    (m.slot i).token = 0 ∨ (m'.slot i).same (m.slot i) := by
  rw [slot, h]
  exact .inr (Mapping.same_refl _)

theorem Mapping.same_detaching (e : Mapping) (b : Bool) : e.same { e with detaching := b } := ⟨rfl, rfl, rfl⟩

variable {j : Nat} {k k' : Kernel} {m : Segment}

/-- A step of task `j`, which is about `s` before and after. -/
theorem Inv.call {u : Task} (h : Inv k)
    (hm : Move k s m j u k') (hj : k.tasks[j]? = some t) (hs : s < k.created) (htask : TaskOk k u)
    (hb : Balanced s (k.segs s) m t u)
    (hslot : ∀ i, (m.slot i).token = 0 ∨ ((k.segs s).slot i).same (m.slot i))
    (hsweeps : ∀ root, u.sweeps root = t.sweeps root) (ht : t.about.getD s = s) (ht' : u.about.getD s = s) : Inv k' :=
  h.step hm hj hs hb hslot (fun _ hne => .of_about hne ht ht') htask hsweeps

/-! ## The file -/

theorem Balanced.file_only {n : Nat} (file : n + (t.holds s).toNat = m.refCount + (t'.holds s).toNat)
    (node : (t'.closes s).toNat + (decide (0 < n)).toNat = (t.closes s).toNat + (decide (0 < m.refCount)).toNat)
    (dead : t'.destroys s = t.destroys s) (needs : ∀ root va, t'.needs s root va = t.needs s root va) :
    Balanced s m { m with refCount := n } t t' := by
  refine ⟨rfl, id, rfl, id, file, ?_, ?_, fun _ root va => ?_⟩
  · dsimp only
    omega
  · rw [dead]
  · rw [needs]
    exact le_rfl

theorem Inv.vfsClose (h : Inv k) (hj : k.tasks[j]? = some (.holding s)) : Inv (vfsClose k j s) := by
  have hs : s < k.created := h.tasks _ (mem_of_getElem? hj)
  have hpos : 0 < (k.segs s).refCount := by
    rw [(h.ledger s hs).file]
    exact countP_pos_of_getElem? hj (by simp)
  unfold Shm.vfsClose
  dsimp only
  by_cases hlast : (k.segs s).refCount - 1 = 0
  · rw [if_pos hlast]
    refine h.call (setSeg_setTask_move k s _ j _) hj hs hs (.file_only ?_ ?_ rfl fun _ _ => rfl)
      (Segment.kept rfl) (fun _ => rfl) rfl rfl
    · simp only [Task.holds, beq_self_eq_true, Bool.toNat_true, Bool.toNat_false]
      omega
    · simp [hlast, hpos]
  rw [if_neg hlast]
  have hleft : 0 < (k.segs s).refCount - 1 := Nat.pos_of_ne_zero hlast
  refine h.call (setSeg_setTask_move k s _ j _) hj hs trivial (.file_only ?_ ?_ rfl fun _ _ => rfl)
      (Segment.kept rfl) (fun _ => rfl) rfl rfl
  · simp only [Task.holds, beq_self_eq_true, Bool.toNat_true, Bool.toNat_false]
    omega
  · simp [hleft, hpos]

variable {root va : Nat}

theorem Inv.mapStart (h : Inv k) (hs : s < k.created)
    (hj : k.tasks[j]? = some .idle) (hd : k.dying root = false) : Inv (mapStart k j s root va) := by
  unfold Shm.mapStart
  dsimp only
  split
  · exact h
  rename_i hne
  have hpos : 0 < (k.segs s).refCount := Nat.pos_of_ne_zero hne
  split
  · refine h.call (setSeg_setTask_move k s _ j _) hj hs ⟨hs, hd⟩ (.file_only ?_ ?_ rfl fun _ _ => rfl)
      (Segment.kept rfl) (fun _ => rfl) rfl rfl
    · simp
    · simp [hpos]
  · refine h.call (setSeg_setTask_move k s _ j _) hj hs hs (.file_only ?_ ?_ rfl fun _ _ => rfl)
      (Segment.kept rfl) (fun _ => rfl) rfl rfl
    · simp
    · simp [hpos]

/-! ## The detaching flag -/

variable {e : Mapping} {i : Nat} {next : Rest}

/-- Replacing a slot by the same reservation changes no count. -/
theorem Balanced.same (hi : i < m.maps.length)
    (he : (m.slot i).same e) (halike : Alike s t t') : Balanced s m (m.setSlot i e) t t' := by
  refine ⟨rfl, id, by simp [Segment.setSlot], fun hr => ?_, ?_, ?_, ?_, fun _ root va => ?_⟩
  · have hlive := m.live_setSlot hi e
    rw [he.1] at hlive
    change m.refs.toNat = m.isOpen.toNat + _
    omega
  · rw [halike.holds]
    rfl
  · rw [halike.closes]
    rfl
  · rw [halike.destroys]
    rfl
  have hslots := m.slots_setSlot hi e root va
  rw [Mapping.isAt, Mapping.isAt, he.1, he.2.1, he.2.2] at hslots
  rw [halike.needs]
  omega

theorem Segment.setSlot_same (hi : i < m.maps.length)
    (he : (m.slot i).same e) (i' : Nat) : (m.slot i').same ((m.setSlot i e).slot i') := by
  rw [m.slot_setSlot hi]
  split
  · rename_i h
    subst h
    exact he
  · exact Mapping.same_refl _

theorem findClaim_spec {segs : Nat → Segment} :
    ∀ {os : List Nat}, findClaim segs root va os = some (s, i) →
      s ∈ os ∧ i < (segs s).maps.length ∧ claimable root va ((segs s).slot i) = true
  | [], h => by simp [findClaim] at h
  | o :: os, h => by
    unfold findClaim at h
    split at h
    · rename_i i' hi
      cases h
      obtain ⟨hlt, hp, _⟩ := findIdx?_eq_some_iff_getElem.1 hi
      refine ⟨.head _, hlt, ?_⟩
      rwa [Segment.slot_of_getElem? (getElem?_eq_getElem hlt)]
    · obtain ⟨hmem, hrest⟩ := findClaim_spec h
      exact ⟨.tail _ hmem, hrest⟩

theorem Inv.unmapClaim (h : Inv k) (hj : k.tasks[j]? = some .idle)
    (hd : k.dying root = false) : Inv (unmapClaim k j root va) := by
  unfold Shm.unmapClaim
  split
  · exact h
  rename_i s i hfind
  obtain ⟨hmem, hi, hclaim⟩ := findClaim_spec hfind
  have hs := h.objects s hmem
  simp only [claimable, Bool.and_eq_true, bne_iff_ne, ne_eq, beq_iff_eq] at hclaim
  exact h.call (setSeg_setTask_move k s _ j _) hj hs
    ⟨hs, hd, hclaim.1.1.1, h.tokens.lt s i, fun _ => ⟨hclaim.1.2, hclaim.2⟩⟩
    (.same hi (Mapping.same_detaching _ true) ⟨rfl, rfl, rfl, fun _ _ => rfl⟩)
    (fun i' => .inr (Segment.setSlot_same hi (Mapping.same_detaching _ true) i')) (fun _ => rfl) rfl rfl

theorem Inv.unmapKept (h : Inv k) (hj : k.tasks[j]? = some (.unmapFailed s i root)) : Inv (unmapKept k j s i) := by
  have hs : s < k.created := (h.tasks _ (mem_of_getElem? hj)).1
  unfold Shm.unmapKept
  dsimp only
  by_cases hi : i < (k.segs s).maps.length
  · exact h.call (setSeg_setTask_move k s _ j _) hj hs trivial
      (.same hi (Mapping.same_detaching _ false) ⟨rfl, rfl, rfl, fun _ _ => rfl⟩)
      (fun i' => .inr (Segment.setSlot_same hi (Mapping.same_detaching _ false) i')) (fun _ => rfl) rfl rfl
  · rw [Segment.setSlot, set_eq_of_length_le (Nat.le_of_not_lt hi)]
    exact h.call (setSeg_setTask_move k s _ j _) hj hs trivial (.file_only rfl rfl rfl fun _ _ => rfl)
      (Segment.kept rfl) (fun _ => rfl) rfl rfl

/-! ## Putting a reference -/

theorem put_move (k : Kernel) (s : Nat) (m : Segment) (j : Nat) (next : Rest) :
    Move k s { m with refs := m.refs - 1 } j (if m.refs - 1 = 0 then .destroying s next else next.task s)
      (put (k.setSeg s m) s j next) := by
  have hseg : (k.setSeg s m).segs s = m := by simp [Kernel.setSeg]
  unfold put putLocked
  rw [hseg]
  by_cases h0 : m.refs - 1 = 0
  · simp only [h0, bne_self_eq_false, Bool.false_eq_true, if_false, if_true]
    refine ⟨⟨?_, rfl, rfl, fun o ho => mem_of_mem_erase ho⟩, rfl, rfl, rfl⟩
    simp [Kernel.setSeg, Kernel.setTask]
  · simp only [bne_iff_ne, ne_eq, h0, not_false_eq_true, if_true, if_false, Bool.false_eq_true]
    refine ⟨⟨?_, rfl, rfl, fun o ho => ho⟩, rfl, rfl, rfl⟩
    simp [Kernel.setSeg, Kernel.setTask]

theorem Rest.about_task (s : Nat) (next : Rest) : (next.task s).about.getD s = s := by
  cases next <;> rfl

theorem toNat_sub_one {a : UInt32} (h : 0 < a.toNat) : (a - 1).toNat = a.toNat - 1 := by
  rw [UInt32.toNat_sub_of_le]
  · rfl
  rw [UInt32.le_iff_toNat_le]
  exact h

/-- A section that took `m` for the object, one reference fewer to count, and
puts that reference. -/
theorem Inv.put (h : Inv k) (hj : k.tasks[j]? = some t) (hs : s < k.created) (hnext : TaskOk k (next.task s))
    (hsweep : ∀ root, (next.task s).sweeps root = t.sweeps root)
    (hslot : ∀ i, (m.slot i).token = 0 ∨ ((k.segs s).slot i).same (m.slot i))
    (hframes : m.frames = (k.segs s).frames) (hfreed : m.freed = (k.segs s).freed)
    (hlen : m.maps.length = (k.segs s).maps.length) (hrefs : m.refs = (k.segs s).refs)
    (hdrop : m.isOpen.toNat + m.live + 1 = (k.segs s).isOpen.toNat + (k.segs s).live)
    (hfile : m.refCount + (t.holds s).toNat = (k.segs s).refCount + ((next.task s).holds s).toNat)
    (hnode : (decide (0 < m.refCount)).toNat + (k.segs s).isOpen.toNat =
      (t.closes s).toNat + (decide (0 < (k.segs s).refCount)).toNat + m.isOpen.toNat) (hdead : t.destroys s = false)
    (hslack : ∀ root va, (k.segs s).slots root va ≤ m.slots root va + (t.needs s root va).toNat)
    (ht : t.about.getD s = s) : Inv (put (k.setSeg s m) s j next) := by
  have hold := (h.ledger s hs).refs
  rw [← hrefs, ← hdrop] at hold
  have hsub := toNat_sub_one (a := m.refs) (by omega)
  have hne : m.refs ≠ 0 := fun e => by simp [e] at hold
  have hrest : (next.task s).closes s = false ∧ (next.task s).destroys s = false ∧
      ∀ root va, (next.task s).needs s root va = false := by
    cases next <;> exact ⟨rfl, rfl, fun _ _ => rfl⟩
  have hrefs' : m.refs.toNat - 1 = m.isOpen.toNat + m.live := by omega
  by_cases h0 : m.refs - 1 = 0
  · have hm := put_move k s m j next
    rw [if_pos h0] at hm
    refine h.call hm hj hs hs
      ⟨hframes, fun e => hfreed.trans e, hlen, fun _ => hsub.trans hrefs', ?_, ?_, ?_, fun _ root va => ?_⟩
      hslot (fun root => ?_) ht rfl
    · rw [hfile]
      cases next <;> rfl
    · have : (Task.destroying s next).closes s = false := rfl
      simpa [this] using hnode
    · have : (Task.destroying s next).destroys s = true := beq_self_eq_true s
      rw [hrefs] at hne
      simp only [this, hdead, hfreed, beq_eq_false_iff_ne.2 hne, h0, beq_self_eq_true]
      simp [Nat.add_comm]
    · exact hslack root va
    · rw [← hsweep root]
      cases next <;> rfl
  have hm := put_move k s m j next
  rw [if_neg h0] at hm
  refine h.call hm hj hs hnext
    ⟨hframes, fun e => hfreed.trans e, hlen, fun _ => hsub.trans hrefs', hfile, ?_, ?_, fun _ root va => ?_⟩
    hslot hsweep ht (next.about_task s)
  · rw [hrest.1]
    simpa using hnode
  · rw [hrefs] at hne
    simp only [hrest.2.1, hdead, hfreed, beq_eq_false_iff_ne.2 hne, beq_eq_false_iff_ne.2 h0]
  · rw [hrest.2.2]
    exact hslack root va

theorem Inv.shmClose (h : Inv k) (hj : k.tasks[j]? = some (.closing s)) : Inv (shmClose k j s) := by
  have hs : s < k.created := h.tasks _ (mem_of_getElem? hj)
  have hl := h.ledger s hs
  have hpos : 0 < k.tasks.countP (Task.closes s) := countP_pos_of_getElem? hj (by simp)
  -- the node is open, so this is the one close of it and nobody holds the file
  have hopen : (k.segs s).isOpen = true ∧ (k.segs s).refCount = 0 := by grind -linarith [Bool.toNat, hl.node]
  refine h.put hj hs trivial (fun _ => rfl) (fun i => .inr (Mapping.same_refl _))
    rfl rfl rfl rfl ?_ rfl ?_ rfl (fun root va => Nat.le_add_right _ _) rfl
  · simp [hopen, Segment.live, Nat.add_comm]
  · simp [hopen]

/-- A section that frees slot `i` of its object, at the address its call
answers for, and puts the slot's reference. -/
theorem Inv.putSlot (h : Inv k) (hj : k.tasks[j]? = some t) (hs : s < k.created) (hnext : TaskOk k (next.task s))
    (hsweep : ∀ root, (next.task s).sweeps root = t.sweeps root)
    (hfile : (next.task s).holds s = t.holds s) (hclose : t.closes s = false) (hdead : t.destroys s = false)
    (he : e.token = 0) (htaken : ((k.segs s).slot i).token ≠ 0)
    (hat : ((k.segs s).slot i).rootPhys = root ∧ ((k.segs s).slot i).va = va)
    (hneeds : t.needs s root va = true) (ht : t.about.getD s = s) :
    Inv (Shm.put (k.setSeg s ((k.segs s).setSlot i e)) s j next) := by
  have hi : i < (k.segs s).maps.length := by
    by_contra hn
    simp [Segment.slot, getD_eq_getElem?_getD, Nat.le_of_not_lt hn] at htaken
  have hlive := (k.segs s).live_setSlot hi e
  have hne : (((k.segs s).slot i).token != 0) = true := by simpa using htaken
  rw [he, hne] at hlive
  refine h.put hj hs hnext hsweep (fun i' => ?_) rfl rfl (by simp [Segment.setSlot]) rfl ?_ ?_ ?_ hdead
    (fun root' va' => ?_) ht
  · rw [(k.segs s).slot_setSlot hi]
    split
    · exact .inl he
    · exact .inr (Mapping.same_refl _)
  · change (k.segs s).isOpen.toNat + _ + 1 = _
    simp only [bne_self_eq_false, Bool.toNat_false, Bool.toNat_true] at hlive
    omega
  · rw [hfile]
    rfl
  · rw [hclose, Bool.toNat_false, Nat.zero_add]
    rfl
  have hslots := (k.segs s).slots_setSlot hi e root' va'
  grind -linarith [Mapping.isAt, Bool.toNat]

variable {token : Nat} {p : Nat → Nat → Option Nat} {tasks : List Task} {fails : Bool}

theorem Inv.unmapDone (h : Inv k)
    (hj : k.tasks[j]? = some (.unmapped s i root va token)) (hkept : (k.slot s i).token = token) :
    Inv (unmapDone k j s i) := by
  obtain ⟨hs, _, hne, _, hat⟩ := h.tasks _ (mem_of_getElem? hj)
  exact h.putSlot hj hs trivial (fun _ => rfl) rfl rfl rfl rfl
    (hkept.trans_ne hne) (hat hkept) (by simp) rfl

/-- One slot at most has the token, so the error section's loop frees it. -/
theorem clear_eq_setSlot (ht : Tokens k) (hi : (k.slot s i).token = token) (hne : token ≠ 0) :
    { k.segs s with maps := (k.segs s).maps.map fun e => if e.token == token then { e with token := 0 } else e } =
      (k.segs s).setSlot i { (k.segs s).slot i with token := 0 } := by
  have hmaps : ((k.segs s).maps.map fun e => if e.token == token then { e with token := 0 } else e) =
      (k.segs s).maps.set i { (k.segs s).slot i with token := 0 } := by
    refine ext_getElem ?_ fun n h1 h2 => ?_
    · simp
    have hn : n < (k.segs s).maps.length := by simpa using h1
    have hget : (k.segs s).maps[n] = (k.segs s).slot n := by
      simp [Segment.slot, getD_eq_getElem?_getD, hn]
    simp only [getElem_map, getElem_set, hget]
    by_cases e : i = n
    · subst e
      rw [if_pos rfl, if_pos (by rw [beq_iff_eq]; exact hi)]
    rw [if_neg e, if_neg]
    simp only [beq_iff_eq]
    intro hn'
    exact e (ht.inj s i s n (hi.trans hn'.symm) (hi.trans_ne hne)).2
  rw [hmaps]
  rfl

theorem Inv.mapUndo (h : Inv k)
    (hj : k.tasks[j]? = some (.mapFailed s root va token)) (hkept : (k.slot s i).token = token) :
    Inv (mapUndo k j s token) := by
  obtain ⟨hs, _, hne, _, hat⟩ := h.tasks _ (mem_of_getElem? hj)
  unfold Shm.mapUndo
  dsimp only
  rw [clear_eq_setSlot h.tokens hkept hne]
  exact h.putSlot hj hs hs (fun _ => rfl) rfl rfl rfl rfl
    (hkept.trans_ne hne) (hat s i hkept).2 (by simp) rfl

theorem Inv.destroy (h : Inv k) (hj : k.tasks[j]? = some (.destroying s next)) : Inv (destroy k j s next) := by
  have hs : s < k.created := h.tasks _ (mem_of_getElem? hj)
  have hpos : 0 < k.tasks.countP (Task.destroys s) := countP_pos_of_getElem? hj (by simp [Task.destroys])
  have hfreed : (k.segs s).freed = false := by grind -linarith [Bool.toNat, (h.ledger s hs).dead]
  refine h.call ⟨⟨rfl, rfl, rfl, fun _ ho => ho⟩, rfl, rfl, rfl⟩
    hj hs ?_ ⟨rfl, fun _ => rfl, rfl, id, ?_, ?_, ?_, fun hf => absurd hf (by simp)⟩
    (fun _ => .inr (Mapping.same_refl _)) (fun root => ?_) rfl (next.about_task s)
  · cases next with
    | done | sweep root => trivial
    | close => exact hs
  · cases next <;> rfl
  · cases next <;> rfl
  · have : (next.task s).destroys s = false := by cases next <;> rfl
    rw [this, hfreed]
    simp [Task.destroys]
  · cases next <;> rfl

/-! ## Reserving a slot -/

/-- Whoever holds the file keeps the object referenced and the frames unfreed. -/
theorem Ledger.held (h : Ledger tasks s m)
    (hj : tasks[j]? = some t) (hh : t.holds s = true) : m.refs ≠ 0 ∧ m.freed = false := by
  have hzero : m.refs = 0 → m.refs.toNat = 0 := fun e => e ▸ rfl
  obtain ⟨_, hrefs, hfile, hnode, hdead, _⟩ := h
  grind -linarith [Bool.toNat]

theorem Ledger.refs_lt (h : Ledger tasks s m) : m.refs.toNat < 10 := by
  have hlive : m.live ≤ m.maps.length := countP_le_length
  have hlen : m.maps.length = 8 := h.length
  have hle := Bool.toNat_le m.isOpen
  have := h.refs
  omega

theorem free_slot_spec (h : m.maps.findIdx? (·.token == 0) = some i) :
    i < m.maps.length ∧ (m.slot i).token = 0 := by
  obtain ⟨hlt, hp, _⟩ := findIdx?_eq_some_iff_getElem.1 h
  refine ⟨hlt, ?_⟩
  rw [Segment.slot_of_getElem? (getElem?_eq_getElem hlt)]
  simpa using hp

/-- A slot with a token that was never given out. -/
structure Reserved (k : Kernel) (s i : Nat) (e : Mapping) (k' : Kernel) : Prop where
  token : e.token = k.nextToken
  next : k'.nextToken = k.nextToken + 1
  free : (k.slot s i).token = 0
  slot : ∀ s' i', k'.slot s' i' = if s' = s ∧ i' = i then e else k.slot s' i'

theorem Reserved.tokens (hr : Reserved k s i e k') (h : Tokens k) : Tokens k' := by
  obtain ⟨_, hlt, hinj⟩ := h
  cases hr
  refine ⟨by omega, fun s' i' => ?_, fun s1 i1 s2 i2 he hne => ?_⟩
  · grind -linarith [hlt s' i']
  · grind -linarith [hlt s1 i1, hlt s2 i2, hinj s1 i1 s2 i2]

/-- The new reservation is nobody else's. -/
theorem Reserved.taskOk (hr : Reserved k s i e k')
    (hc : k'.created = k.created) (hd : k'.dying = k.dying) (h : TaskOk k t) : TaskOk k' t := by
  cases hr
  cases t <;> simp only [TaskOk, hc, hd] at h ⊢ <;> grind -linarith

theorem setTask_move (k : Kernel) (s j : Nat) (t : Task) : Move k s (k.segs s) j t (k.setTask j t) :=
  ⟨⟨(update_eq_self s k.segs).symm, rfl, rfl, fun _ h => h⟩, rfl, rfl, rfl⟩

/-- One reference more, for the slot taken. -/
theorem Balanced.reserve {r a : Nat} (hi : i < m.maps.length)
    (hfree : (m.slot i).token = 0) (hne : token ≠ 0) (hlt : m.refs.toNat < 10) (hpos : m.refs ≠ 0) :
    Balanced s m { m.setSlot i { rootPhys := r, va := a, token } with refs := m.refs + 1 }
      (.reserving s r a) (.mapping s r a token) := by
  have hadd : (m.refs + 1).toNat = m.refs.toNat + 1 := by
    rw [UInt32.toNat_add]
    exact Nat.mod_eq_of_lt (by change m.refs.toNat + 1 < 2 ^ 32; omega)
  have hpos' : m.refs + 1 ≠ 0 := by
    intro e
    rw [e] at hadd
    simp at hadd
  refine ⟨rfl, id, by simp [Segment.setSlot], fun hr => ?_, rfl, rfl, ?_, fun _ root' va' => ?_⟩
  · have hlive := m.live_setSlot hi { rootPhys := r, va := a, token }
    simp only [hfree, bne_self_eq_false, bne_iff_ne.2 hne, Bool.toNat_false, Bool.toNat_true] at hlive
    change (m.refs + 1).toNat = m.isOpen.toNat + (m.setSlot i _).live
    omega
  · simp only [beq_eq_false_iff_ne.2 hpos, beq_eq_false_iff_ne.2 hpos']
    rfl
  have hslots := m.slots_setSlot hi { rootPhys := r, va := a, token } root' va'
  have hold : (m.slot i).isAt root' va' = false := by simp [Mapping.isAt, hfree]
  rw [hold] at hslots
  have hneed : (Task.mapping s r a token).needs s root' va' =
      ({ rootPhys := r, va := a, token } : Mapping).isAt root' va' := by
    simp [Mapping.isAt, bne_iff_ne.2 hne]
  rw [hneed]
  exact hslots.ge

theorem Inv.mapReserve (h : Inv k) (hj : k.tasks[j]? = some (.reserving s root va)) :
    Inv (mapReserve k j s root va) := by
  obtain ⟨hs, hd⟩ := h.tasks _ (mem_of_getElem? hj)
  have hl := h.ledger s hs
  obtain ⟨hrefs, _⟩ := hl.held hj (by simp)
  unfold Shm.mapReserve
  dsimp only
  split
  · exact h.call (setTask_move k s j _) hj hs hs (.file_only rfl rfl rfl fun _ _ => rfl) (Segment.kept rfl)
      (fun _ => rfl) rfl rfl
  rename_i i hfind
  obtain ⟨hi, hfree⟩ := free_slot_spec hfind
  have hne : k.nextToken ≠ 0 := Nat.ne_of_gt h.tokens.pos
  have hb := Balanced.reserve (s := s) (r := root) (a := va) hi hfree hne hl.refs_lt hrefs
  set m := { (k.segs s).setSlot i { rootPhys := root, va, token := k.nextToken } with
    refs := (k.segs s).refs + 1 } with hm
  set k' := { k.setSeg s m with nextToken := k.nextToken + 1 }.setTask j (.mapping s root va k.nextToken) with hk'
  have hc : Change k s m j (.mapping s root va k.nextToken) k' := ⟨rfl, rfl, rfl, fun _ ho => ho⟩
  have hr : Reserved k s i { rootPhys := root, va, token := k.nextToken } k' := by
    refine ⟨rfl, rfl, hfree, fun s' i' => ?_⟩
    have hslot := (k.segs s).slot_setSlot hi { rootPhys := root, va, token := k.nextToken } i'
    have := hc.segs_apply s'
    grind -linarith [Kernel.slot, Segment.slot]
  have halike (s' : Nat) (hne : s' ≠ s) : Alike s' (.reserving s root va) (.mapping s root va k.nextToken) :=
    .of_about hne rfl rfl
  refine h.change hc hj hb.frames hb.freed (hb.ledger hl hj) halike (hr.tokens h.tokens)
    (fun u hu => hr.taskOk rfl rfl (h.tasks u hu)) ⟨hs, hd, hne, Nat.lt_succ_self _, fun s' i' he => ?_⟩
    (h.pages.change hc hj hb.frames hb.freed halike (fun hf root va _ => hb.slack hf root va) rfl rfl) rfl
    fun _ => rfl
  have := h.tokens.lt s' i'
  grind -linarith [hr.slot s' i']

/-! ## Page tables -/

theorem spanFrame_iff {a f : Nat} :
    spanFrame m va a = some f ↔ ∃ i, m.frames[i]? = some f ∧ a = va + i * PAGE_SIZE := by
  unfold spanFrame
  constructor
  · intro h
    split at h
    · rename_i hc
      refine ⟨(a - va) / PAGE_SIZE, h, ?_⟩
      rw [Nat.div_mul_cancel (Nat.dvd_of_mod_eq_zero hc.2)]
      omega
    · exact absurd h (by simp)
  rintro ⟨i, hi, rfl⟩
  rw [if_pos ⟨Nat.le_add_right _ _, by rw [Nat.add_sub_cancel_left, Nat.mul_mod_left]⟩, Nat.add_sub_cancel_left,
    Nat.mul_div_cancel _ (by decide)]
  exact hi

/-- Page tables are in no invariant but their own. -/
theorem Inv.setPages (h : Inv k) (hp : PagesOk { k with pages := p }) : Inv { k with pages := p } := by
  refine ⟨h.ledger, h.objects, h.frames, h.disjoint, { h.tokens with }, fun t ht => ?_, hp,
    h.sweeps⟩
  have := h.tasks t ht
  cases t <;> exact this

theorem Inv.unmapPages (h : Inv k)
    (hp : ∀ s f root a, k.owns s f → p root a = some f → k.pages root a = some f) : Inv { k with pages := p } := by
  refine h.setPages fun s hs hf root a i f hi hmap => ?_
  exact h.pages s hs hf root a i f hi (hp s f root a ⟨hs, hf, mem_of_getElem? hi⟩ hmap)

theorem vmmMapFrames_some {nomem : Bool} (h : vmmMapFrames k root va m nomem = some k') :
    (∀ i, i < m.pages → k.pages root (va + i * PAGE_SIZE) = none) ∧
      k' = { k with pages := update k.pages root fun a => (spanFrame m va a).or (k.pages root a) } := by
  unfold vmmMapFrames at h
  split at h
  · exact absurd h (by simp)
  rename_i hc
  refine ⟨fun i hi => ?_, (Option.some.inj h).symm⟩
  simp only [Bool.or_eq_true, any_eq_true, mem_range, not_or, not_exists, not_and,
    Bool.not_eq_true, Option.isSome_eq_false_iff, Option.isNone_iff_eq_none] at hc
  exact hc.2 i hi

theorem Inv.mapCall (h : Inv k)
    (hj : k.tasks[j]? = some (.mapping s root va token)) : Inv (mapCall k j s root va token fails) := by
  have hok := h.tasks _ (mem_of_getElem? hj)
  obtain ⟨hs, hd, _, _, _⟩ := id hok
  have hl := h.ledger s hs
  obtain ⟨_, hunfreed⟩ := hl.held hj (by simp)
  unfold Shm.mapCall
  split
  · rename_i k1 hmap
    obtain ⟨_, rfl⟩ := vmmMapFrames_some hmap
    -- the call no longer needs its slot, and the pages take it over
    have hset := countP_set_add (p := Task.needs s root va) hj (.holding s)
    have hle := hl.slots hunfreed root va
    have hinv : Inv (k.setTask j (.holding s)) := by
      exact h.call (setTask_move k s j _) hj hs hs
        ⟨rfl, id, rfl, id, rfl, rfl, rfl, fun _ _ _ => Nat.le_add_right _ _⟩ (Segment.kept rfl) (fun _ => rfl) rfl rfl
    refine hinv.setPages fun s' hs' hf root' a i f hi hp => ?_
    dsimp only at hp
    by_cases hroot : root' = root
    · subst hroot
      rw [update_self] at hp
      rcases Option.or_eq_some_iff.1 hp with hnew | ⟨_, hold⟩
      · obtain ⟨i', hi', rfl⟩ := spanFrame_iff.1 hnew
        obtain rfl : s' = s := h.disjoint s' s f ⟨hs', hf, mem_of_getElem? hi⟩
          ⟨hs, hunfreed, mem_of_getElem? hi'⟩
        obtain rfl := (List.getElem?_inj (List.getElem?_eq_some_iff.1 hi).1 (h.frames s' hs).2).1 (hi.trans hi'.symm)
        refine ⟨hd, va, rfl, ?_⟩
        change (k.tasks.set j (.holding s')).countP _ + 1 ≤ (k.segs s').slots root' va
        simp at hset
        omega
      · exact hinv.pages s' hs' hf root' a i f hi hold
    · rw [update_of_ne hroot] at hp
      exact hinv.pages s' hs' hf root' a i f hi hp
  · exact h.call (setTask_move k s j _) hj hs hok ⟨rfl, id, rfl, id, rfl, rfl, rfl, fun _ root va => le_rfl⟩
      (Segment.kept rfl) (fun _ => rfl) rfl rfl

theorem vmmUnmapFrames_some {refused : Bool} (h : vmmUnmapFrames k root va m refused = some k') :
    (∀ i, i < m.pages → k.pages root (va + i * PAGE_SIZE) = m.frames[i]?) ∧
      k' = { k with
        pages := update k.pages root fun a =>
          if (spanFrame m va a).isSome then none else k.pages root a } := by
  unfold vmmUnmapFrames at h
  split at h
  · exact absurd h (by simp)
  rename_i hc
  refine ⟨fun i hi => ?_, (Option.some.inj h).symm⟩
  simp only [Bool.or_eq_true, Bool.not_eq_true', not_or, Bool.not_eq_false, all_eq_true, mem_range,
    beq_iff_eq] at hc
  exact hc.2 i hi

/-- The mapped span has a slot that no call in flight needs. -/
theorem PagesOk.span_slot (h : PagesOk k) (hs : s < k.created)
    (hf : (k.segs s).freed = false) (hne : (k.segs s).frames ≠ [])
    (hspan : ∀ i, i < (k.segs s).pages → k.pages root (va + i * PAGE_SIZE) = (k.segs s).frames[i]?) :
    k.tasks.countP (Task.needs s root va) + 1 ≤ (k.segs s).slots root va := by
  have hpos : 0 < (k.segs s).frames.length := length_pos_iff.2 hne
  have hfirst := getElem?_eq_getElem hpos
  obtain ⟨_, va', ha, hle⟩ := h s hs hf root (va + 0 * PAGE_SIZE) 0 _ hfirst ((hspan 0 hpos).trans hfirst)
  obtain rfl : va = va' := by omega
  exact hle

theorem Inv.unmapCall (h : Inv k)
    (hj : k.tasks[j]? = some (.unmapping s i root va token)) : Inv (unmapCall k j s i root va token fails) := by
  have hok := h.tasks _ (mem_of_getElem? hj)
  obtain ⟨hs, hd, _, _, _⟩ := id hok
  have hl := h.ledger s hs
  unfold Shm.unmapCall
  split
  · rename_i k1 hmap
    obtain ⟨hspan, rfl⟩ := vmmUnmapFrames_some hmap
    have hc : Change k s (k.segs s) j (.unmapped s i root va token) (Kernel.setTask { k with
        pages := update k.pages root fun a =>
          if (spanFrame (k.segs s) va a).isSome then none else k.pages root a } j (.unmapped s i root va token)) :=
      ⟨(update_eq_self s k.segs).symm, rfl, rfl, fun _ ho => ho⟩
    have halike (s' : Nat) (hne : s' ≠ s) : Alike s' (.unmapping s i root va token) (.unmapped s i root va token) :=
      .of_about hne rfl rfl
    have hneeds (root' va' : Nat) : (k.tasks.set j (.unmapped s i root va token)).countP (Task.needs s root' va') =
        k.tasks.countP (Task.needs s root' va') + (root == root' && va == va').toNat := by
      have hset := countP_set_add (p := Task.needs s root' va') hj (.unmapped s i root va token)
      simpa using hset
    have hsame {p : Task → Bool} (hp : p (.unmapped s i root va token) = p (.unmapping s i root va token)) :=
      countP_set_of_eq hj hp
    refine h.change hc hj rfl id ⟨hl.length, hl.refs, hsame (p := Task.holds s) rfl ▸ hl.file,
      hsame (p := Task.closes s) rfl ▸ hl.node, hsame (p := Task.destroys s) rfl ▸ hl.dead, fun hf root' va' => ?_⟩
      halike { h.tokens with } (fun u hu => ?_) hok (fun s' hs' hf root' a i' f hi hp => ?_) rfl fun _ => rfl
    · have := h.pages.span_slot hs hf (h.frames s hs).1 hspan
      have := hl.slots hf root' va'
      grind -linarith [Bool.toNat]
    · have := h.tasks u hu
      cases u <;> exact this
    -- no page of the span is left
    have hold : k.pages root' a = some f ∧ (root' = root → spanFrame (k.segs s) va a = none) := by
      change update k.pages root _ root' a = some f at hp
      simp only [update_apply, ite_apply] at hp
      cases hspan : spanFrame (k.segs s) va a <;> grind -linarith
    obtain ⟨hd', va', ha, hle⟩ := h.pages s' hs' hf root' a i' f hi hold.1
    refine ⟨hd', va', ha, ?_⟩
    change (k.tasks.set j (.unmapped s i root va token)).countP _ + 1 ≤ (k.segs s').slots root' va'
    by_cases e : s' = s
    · subst e
      have hspan' : va = va' → spanFrame (k.segs s') va a = some f := fun e => spanFrame_iff.2 ⟨i', hi, e ▸ ha⟩
      grind -linarith [Bool.toNat]
    · rwa [countP_set_of_eq hj ((halike s' e).needs root' va')]
  · exact h.call (setTask_move k s j _) hj hs ⟨hs, hd⟩
      ⟨rfl, id, rfl, id, rfl, rfl, rfl, fun _ root va => le_rfl⟩ (Segment.kept rfl) (fun _ => rfl) rfl rfl

end Fortress.Shm
