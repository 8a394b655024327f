/-
What the references of a shared memory object count.

`Ledger` ties an object's counters to the calls in flight: its reference
count to the open node and the taken slots, its file count to the holders,
and its slots to the maps and unmaps that still answer for one. `Tokens`
says a reservation is in one slot at most; `PagesOk` that a mapped page has a
slot to spare.
-/
import Fortress.Lib.Count
import Fortress.Lib.Machine
import Fortress.Shm.Object

namespace Fortress.Shm

/-! ## Runs -/

/-- The root a call works in. -/
def Task.uses (root : Nat) : Task → Bool
  | .reserving _ r _ | .mapping _ r _ _ | .mapFailed _ r _ _ | .unmapping _ _ r _ _
  | .unmapped _ _ r _ _ | .unmapFailed _ _ r => r == root
  | _ => false

variable (k : Kernel)

/-- The next step of task `j`; `fails` is the VMM's answer where nothing else
decides it. -/
def advance (j : Nat) (fails : Bool) : Kernel :=
  match k.tasks[j]? with
  | none | some .idle => k
  | some (.holding s) => vfsClose k j s
  | some (.reserving s root va) => mapReserve k j s root va
  | some (.mapping s root va token) => mapCall k j s root va token fails
  | some (.mapFailed s _ _ token) => mapUndo k j s token
  | some (.unmapping s i root va token) => unmapCall k j s i root va token fails
  | some (.unmapped s i _ _ _) => unmapDone k j s i
  | some (.unmapFailed s i _) => unmapKept k j s i
  | some (.closing s) => shmClose k j s
  | some (.destroying s next) => destroy k j s next
  | some (.sweeping root) => sweep k j root

inductive Call where
  | spawn
  | create (frames : List Nat)
  | dup (s : Nat)
  | map (j s root va : Nat)
  | unmap (j root va : Nat)
  | teardown (j root : Nat)
  | run (j : Nat) (fails : Bool)
  /-- Whatever else changes page tables. -/
  | other (pages : Nat → Nat → Option Nat)

def Call.apply : Call → Kernel
  | .spawn => { k with tasks := k.tasks ++ [.idle] }
  | .create frames => shmCreate k frames
  | .dup s => fdDup k s
  | .map j s root va => mapStart k j s root va
  | .unmap j root va => unmapClaim k j root va
  | .teardown j root => Shm.teardown k j root
  | .run j fails => advance k j fails
  | .other pages => { k with pages }

/-- `f` belongs to an object whose frames are not freed. -/
def Kernel.owns (s f : Nat) : Prop := s < k.created ∧ (k.segs s).freed = false ∧ f ∈ (k.segs s).frames

/-- What the callers promise: the PMM hands out frames that nobody owns or
maps; a call runs on an idle thread of a live root; a root is torn down when
no call uses it; and nobody else maps an object's frames. -/
def Call.valid : Call → Prop
  | .create frames =>
    frames ≠ [] ∧ frames.Nodup ∧ frames.length ≤ SHM_MAX_BYTES / PAGE_SIZE ∧
      ∀ f ∈ frames, (∀ s, ¬ k.owns s f) ∧ ∀ root a, k.pages root a ≠ some f
  | .dup s => s < k.created
  | .map j s root _ => s < k.created ∧ k.tasks[j]? = some .idle ∧ k.dying root = false
  | .unmap j root _ => k.tasks[j]? = some .idle ∧ k.dying root = false
  | .teardown j root =>
    k.tasks[j]? = some .idle ∧ k.dying root = false ∧ ∀ t ∈ k.tasks, t.uses root = false
  | .other pages => ∀ s f root a, k.owns s f → pages root a = some f → k.pages root a = some f
  | _ => True

/-- Any number of concurrent calls on any number of objects. -/
def shmMachine : Machine Kernel Call where
  init k := k = {}
  step k c k' := c.valid k ∧ k' = c.apply k

/-! ## Counts -/

/-- The taken slots. -/
def Segment.live (m : Segment) : Nat := m.maps.countP (·.token != 0)

/-- The taken slots at one address of one root. -/
def Segment.slots (m : Segment) (root va : Nat) : Nat :=
  m.maps.countP fun e => e.token != 0 && e.rootPhys == root && e.va == va

/-- The call holds a reference on the file of `s`. -/
def Task.holds (s : Nat) : Task → Bool
  | .holding s' | .reserving s' _ _ | .mapping s' _ _ _ | .mapFailed s' _ _ _ | .destroying s' .close => s' == s
  | _ => false

def Task.closes (s : Nat) : Task → Bool
  | .closing s' => s' == s
  | _ => false

def Task.destroys (s : Nat) : Task → Bool
  | .destroying s' _ => s' == s
  | _ => false

/-- The call answers for one slot at this address: a map until it is mapped
or undone, an unmap once nothing is mapped. -/
def Task.needs (s root va : Nat) : Task → Bool
  | .mapping s' r v _ | .mapFailed s' r v _ | .unmapped s' _ r v _ => s' == s && r == root && v == va
  | _ => false

/-- The call tears the root down. -/
def Task.sweeps (root : Nat) : Task → Bool
  | .sweeping r | .destroying _ (.sweep r) => r == root
  | _ => false

/-- What object `s` counts. -/
structure Ledger (tasks : List Task) (s : Nat) (m : Segment) : Prop where
  length : m.maps.length = SHM_MAX_MAPPINGS
  refs : m.refs.toNat = m.isOpen.toNat + m.live
  file : m.refCount = tasks.countP (Task.holds s)
  node : tasks.countP (Task.closes s) + (decide (0 < m.refCount)).toNat = m.isOpen.toNat
  dead : tasks.countP (Task.destroys s) + m.freed.toNat = (m.refs == 0).toNat
  slots : m.freed = false → ∀ root va, tasks.countP (Task.needs s root va) ≤ m.slots root va

/-- Two tasks count alike for `s`. -/
structure Alike (s : Nat) (t t' : Task) : Prop where
  holds : t'.holds s = t.holds s
  closes : t'.closes s = t.closes s
  destroys : t'.destroys s = t.destroys s
  needs : ∀ root va, t'.needs s root va = t.needs s root va

variable {j s : Nat} {m : Segment} {t t' : Task} {tasks : List Task}

theorem Ledger.recount {tasks' : List Task} (h : Ledger tasks s m)
    (holds : tasks'.countP (Task.holds s) = tasks.countP (Task.holds s))
    (closes : tasks'.countP (Task.closes s) = tasks.countP (Task.closes s))
    (destroys : tasks'.countP (Task.destroys s) = tasks.countP (Task.destroys s))
    (needs : ∀ root va, tasks'.countP (Task.needs s root va) = tasks.countP (Task.needs s root va)) :
    Ledger tasks' s m :=
  ⟨h.length, h.refs, holds ▸ h.file, closes ▸ h.node, destroys ▸ h.dead,
    fun hf root va => needs root va ▸ h.slots hf root va⟩

theorem Ledger.alike (h : Ledger tasks s m)
    (hj : tasks[j]? = some t) (ha : Alike s t t') : Ledger (tasks.set j t') s m :=
  h.recount (countP_set_of_eq hj ha.holds) (countP_set_of_eq hj ha.closes) (countP_set_of_eq hj ha.destroys)
    fun root va => countP_set_of_eq hj (ha.needs root va)

/-! ## Tokens -/

def Kernel.slot (k : Kernel) (s i : Nat) : Mapping := (k.segs s).slot i

/-- The same reservation, whatever its `detaching` flag. -/
def Mapping.same (e e' : Mapping) : Prop := e'.token = e.token ∧ e'.rootPhys = e.rootPhys ∧ e'.va = e.va

/-- No slot of `k'` holds a reservation that it did not hold in `k`. -/
def Shrinks (k k' : Kernel) : Prop := ∀ s i, (k'.slot s i).token = 0 ∨ (k.slot s i).same (k'.slot s i)

structure Tokens (k : Kernel) : Prop where
  pos : 0 < k.nextToken
  lt : ∀ s i, (k.slot s i).token < k.nextToken
  inj : ∀ s i s' i', (k.slot s i).token = (k.slot s' i').token → (k.slot s i).token ≠ 0 → s = s' ∧ i = i'

variable {k k' : Kernel}

theorem Tokens.shrink (h : Tokens k) (hs : Shrinks k k') (hn : k'.nextToken = k.nextToken) : Tokens k' := by
  refine ⟨by rw [hn]; exact h.pos, fun s i => ?_, fun s i s' i' he hne => ?_⟩
  · grind -linarith [hs s i, h.pos, h.lt s i, Mapping.same]
  · grind -linarith [hs s i, hs s' i', h.inj s i s' i', Mapping.same]

/-- What holds of a call in flight: its object exists, its root is live, and
its token, where a slot still has it, is in the slot it reserved or claimed. -/
def TaskOk (k : Kernel) : Task → Prop
  | .idle | .sweeping _ => True
  | .holding s | .closing s | .destroying s _ => s < k.created
  | .reserving s root _ | .unmapFailed s _ root => s < k.created ∧ k.dying root = false
  | .mapping s root va token | .mapFailed s root va token =>
    s < k.created ∧ k.dying root = false ∧ token ≠ 0 ∧ token < k.nextToken ∧
      ∀ s' i, (k.slot s' i).token = token → s' = s ∧ (k.slot s' i).rootPhys = root ∧ (k.slot s' i).va = va
  | .unmapping s i root va token | .unmapped s i root va token =>
    s < k.created ∧ k.dying root = false ∧ token ≠ 0 ∧ token < k.nextToken ∧
      ((k.slot s i).token = token → (k.slot s i).rootPhys = root ∧ (k.slot s i).va = va)

theorem TaskOk.shrink (h : TaskOk k t) (hs : Shrinks k k')
    (hc : k.created ≤ k'.created) (hn : k'.nextToken = k.nextToken) (hd : k'.dying = k.dying) : TaskOk k' t := by
  cases t <;> simp only [TaskOk, hd, hn] at h ⊢ <;> grind -linarith [Shrinks, Mapping.same]

/-! ## Pages -/

/-- A page that maps frame `i` of object `s` lies in a span with one slot
more than the calls in flight need. -/
def PagesOk (k : Kernel) : Prop :=
  ∀ s, s < k.created → (k.segs s).freed = false → ∀ root a i f,
    (k.segs s).frames[i]? = some f → k.pages root a = some f →
      k.dying root = false ∧ ∃ va, a = va + i * PAGE_SIZE ∧
        k.tasks.countP (Task.needs s root va) + 1 ≤ (k.segs s).slots root va

structure Inv (k : Kernel) : Prop where
  ledger : ∀ s, s < k.created → Ledger k.tasks s (k.segs s)
  objects : ∀ s ∈ k.objects, s < k.created
  frames : ∀ s, s < k.created → (k.segs s).frames ≠ [] ∧ (k.segs s).frames.Nodup
  disjoint : ∀ s s' f, k.owns s f → k.owns s' f → s = s'
  tokens : Tokens k
  tasks : ∀ t ∈ k.tasks, TaskOk k t
  pages : PagesOk k
  sweeps : ∀ root, k.tasks.countP (Task.sweeps root) = (k.dying root).toNat

/-! ## One object and one call -/

/-- `k'` is `k` but for object `s`, now `m`, task `j`, now `t`, and whatever
tokens, roots and pages are; objects may leave the list. -/
structure Change (k : Kernel) (s : Nat) (m : Segment) (j : Nat) (t : Task) (k' : Kernel) : Prop where
  segs : k'.segs = Function.update k.segs s m
  tasks : k'.tasks = k.tasks.set j t
  created : k'.created = k.created
  objects : ∀ o ∈ k'.objects, o ∈ k.objects

theorem Change.segs_apply (h : Change k s m j t k') (s' : Nat) : k'.segs s' = if s' = s then m else k.segs s' := by
  rw [h.segs, Function.update_apply]

theorem Inv.change (h : Inv k) (hm : Change k s m j t' k') (hj : k.tasks[j]? = some t)
    (hframes : m.frames = (k.segs s).frames) (hfreed : (k.segs s).freed = true → m.freed = true)
    (hledger : Ledger (k.tasks.set j t') s m) (halike : ∀ s', s' ≠ s → Alike s' t t')
    (htokens : Tokens k') (htasks : ∀ u ∈ k.tasks, TaskOk k' u) (htask : TaskOk k' t')
    (hpages : PagesOk k') (hdying : k'.dying = k.dying) (hsweeps : ∀ root, t'.sweeps root = t.sweeps root) :
    Inv k' := by
  have hsegs := hm.segs_apply
  obtain ⟨_, htasks', hcreated, hobjects⟩ := hm
  have howns {s' f : Nat} (ho : k'.owns s' f) : k.owns s' f := by
    grind -linarith [Kernel.owns]
  refine ⟨fun s' hs' => ?_, fun o ho => ?_, fun s' hs' => ?_, fun s1 s2 f h1 h2 => ?_,
    htokens, fun u hu => ?_, hpages, fun root => ?_⟩
  · grind -linarith [h.ledger s', halike s', Ledger.alike]
  · exact hcreated ▸ h.objects o (hobjects o ho)
  · grind -linarith [h.frames s']
  · exact h.disjoint s1 s2 f (howns h1) (howns h2)
  · rw [htasks'] at hu
    rcases List.mem_or_eq_of_mem_set hu with hu | rfl
    · exact htasks u hu
    · exact htask
  · rw [htasks', hdying, countP_set_of_eq hj (hsweeps root)]
    exact h.sweeps root

/-- A change that leaves the tokens given out, the roots and the pages
alone. -/
structure Move (k : Kernel) (s : Nat) (m : Segment) (j : Nat) (t : Task) (k' : Kernel) : Prop
    extends Change k s m j t k' where
  nextToken : k'.nextToken = k.nextToken
  dying : k'.dying = k.dying
  pages : k'.pages = k.pages

/-- The pages of a kernel where slots are given up no faster than calls stop
needing them. -/
theorem PagesOk.change (h : PagesOk k) (hm : Change k s m j t' k') (hj : k.tasks[j]? = some t)
    (hframes : m.frames = (k.segs s).frames) (hfreed : (k.segs s).freed = true → m.freed = true)
    (halike : ∀ s', s' ≠ s → Alike s' t t')
    (hslack : m.freed = false → ∀ root va, k.dying root = false →
      (k.segs s).slots root va + (t'.needs s root va).toNat ≤ m.slots root va + (t.needs s root va).toNat)
    (hd : k'.dying = k.dying) (hp : k'.pages = k.pages) : PagesOk k' := by
  intro s' hs' hf root a i f hi hmap
  rw [hm.created] at hs'
  rw [hp] at hmap
  rw [hm.segs_apply] at hf hi ⊢
  rw [hd, hm.tasks]
  obtain ⟨hd, va, ha, hle⟩ := h s' hs' (by grind -linarith) root a i f (by grind -linarith) hmap
  refine ⟨hd, va, ha, ?_⟩
  by_cases e : s' = s
  · subst e
    rw [if_pos rfl] at hf ⊢
    have hset := countP_set_add (p := Task.needs s' root va) hj t'
    have hsl := hslack hf root va hd
    omega
  · rwa [if_neg e, countP_set_of_eq hj ((halike s' e).needs root va)]

/-- The steps of one call on its object. `m` keeps the frames, has no
reservation that was not there, and gives up slots no faster than the call
stops needing them. -/
theorem Inv.move (h : Inv k) (hm : Move k s m j t' k') (hj : k.tasks[j]? = some t)
    (hframes : m.frames = (k.segs s).frames) (hfreed : (k.segs s).freed = true → m.freed = true)
    (hslot : ∀ i, (m.slot i).token = 0 ∨ ((k.segs s).slot i).same (m.slot i))
    (hledger : Ledger (k.tasks.set j t') s m) (halike : ∀ s', s' ≠ s → Alike s' t t')
    (hslack : m.freed = false → ∀ root va, k.dying root = false →
      (k.segs s).slots root va + (t'.needs s root va).toNat ≤ m.slots root va + (t.needs s root va).toNat)
    (htask : TaskOk k t') (hsweeps : ∀ root, t'.sweeps root = t.sweeps root) : Inv k' := by
  have hc := hm.toChange
  have hshrink : Shrinks k k' := by
    intro s' i
    have := hc.segs_apply s'
    grind -linarith [Kernel.slot, Mapping.same, hslot i]
  exact h.change hc hj hframes hfreed hledger halike (h.tokens.shrink hshrink hm.nextToken)
    (fun u hu => (h.tasks u hu).shrink hshrink hm.created.ge hm.nextToken hm.dying)
    (htask.shrink hshrink hm.created.ge hm.nextToken hm.dying)
    (h.pages.change hc hj hframes hfreed halike hslack hm.dying hm.pages) hm.dying hsweeps

/-- What one step changes in the counts of the object `m` it works on. -/
structure Balanced (s : Nat) (m m' : Segment) (t t' : Task) : Prop where
  frames : m'.frames = m.frames
  freed : m.freed = true → m'.freed = true
  length : m'.maps.length = m.maps.length
  refs : m.refs.toNat = m.isOpen.toNat + m.live → m'.refs.toNat = m'.isOpen.toNat + m'.live
  file : m'.refCount + (t.holds s).toNat = m.refCount + (t'.holds s).toNat
  node : (t'.closes s).toNat + (decide (0 < m'.refCount)).toNat + m.isOpen.toNat =
    (t.closes s).toNat + (decide (0 < m.refCount)).toNat + m'.isOpen.toNat
  dead : (t'.destroys s).toNat + m'.freed.toNat + (m.refs == 0).toNat =
    (t.destroys s).toNat + m.freed.toNat + (m'.refs == 0).toNat
  slack : m'.freed = false → ∀ root va,
    m.slots root va + (t'.needs s root va).toNat ≤ m'.slots root va + (t.needs s root va).toNat

theorem Balanced.ledger {m' : Segment}
    (hb : Balanced s m m' t t') (h : Ledger tasks s m) (hj : tasks[j]? = some t) :
    Ledger (tasks.set j t') s m' := by
  refine ⟨hb.length.trans h.length, hb.refs h.refs, ?_, ?_, ?_, fun hf root va => ?_⟩
  · have hset := countP_set_add (p := Task.holds s) hj t'
    have := h.file
    have := hb.file
    omega
  · have hset := countP_set_add (p := Task.closes s) hj t'
    have := h.node
    have := hb.node
    omega
  · have hset := countP_set_add (p := Task.destroys s) hj t'
    have := h.dead
    have := hb.dead
    omega
  have hset := countP_set_add (p := Task.needs s root va) hj t'
  have := h.slots (by grind -linarith [hb.freed]) root va
  have := hb.slack hf root va
  omega

theorem Inv.step (h : Inv k) (hm : Move k s m j t' k') (hj : k.tasks[j]? = some t) (hs : s < k.created)
    (hb : Balanced s (k.segs s) m t t') (hslot : ∀ i, (m.slot i).token = 0 ∨ ((k.segs s).slot i).same (m.slot i))
    (halike : ∀ s', s' ≠ s → Alike s' t t') (htask : TaskOk k t')
    (hsweeps : ∀ root, t'.sweeps root = t.sweeps root) : Inv k' :=
  h.move hm hj hb.frames hb.freed hslot (hb.ledger (h.ledger s hs) hj) halike
    (fun hf root va _ => hb.slack hf root va) htask hsweeps

/-! ## Slots -/

variable {i : Nat}

theorem Segment.getElem?_slot (hi : i < m.maps.length) : m.maps[i]? = some (m.slot i) := by
  simp [Segment.slot, List.getD_eq_getElem?_getD, hi]

theorem Segment.slot_of_getElem? {e : Mapping} (h : m.maps[i]? = some e) : m.slot i = e := by
  simp [Segment.slot, List.getD_eq_getElem?_getD, h]

theorem Segment.slot_setSlot (hi : i < m.maps.length) (e : Mapping) (i' : Nat) :
    (m.setSlot i e).slot i' = if i' = i then e else m.slot i' := by
  simp only [Segment.slot, Segment.setSlot, List.getD_eq_getElem?_getD, List.getElem?_set]
  by_cases h : i' = i
  · subst h
    simp [hi]
  · simp [h, Ne.symm h]

theorem Segment.live_setSlot (hi : i < m.maps.length) (e : Mapping) :
    (m.setSlot i e).live + ((m.slot i).token != 0).toNat = m.live + (e.token != 0).toNat :=
  countP_set_add (m.getElem?_slot hi) e

/-- The slot is taken, at this address of this root. -/
def Mapping.isAt (root va : Nat) (e : Mapping) : Bool := e.token != 0 && e.rootPhys == root && e.va == va

theorem Segment.slots_setSlot (hi : i < m.maps.length) (e : Mapping) (root va : Nat) :
    (m.setSlot i e).slots root va + ((m.slot i).isAt root va).toNat =
      m.slots root va + (e.isAt root va).toNat :=
  countP_set_add (m.getElem?_slot hi) e

theorem Segment.slots_le_live (m : Segment) (root va : Nat) : m.slots root va ≤ m.live := by
  refine List.countP_mono_left fun e _ he => ?_
  simp only [Bool.and_eq_true] at he
  exact he.1.1

end Fortress.Shm
