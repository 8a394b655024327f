/-
The heap and its users: in every run of the five calls in which only live
pointers are freed or resized, every call returns, the heap's own audit
passes after it, and what the users hold does not overlap.

Between the calls the users may store into what they were given.
-/
import Fortress.Lib.Machine
import Fortress.Mm.Realloc

namespace Fortress.Mm

open List

/-! ## The audit -/

section Audit

variable {h : Heap} {bs : List Block} {fl : List Nat} {last : Nat}

def freeBytes (bs : List Block) : Nat := ((bs.filter (·.free)).map (·.size)).sum

/-- What the walk has counted after the blocks `bs`. -/
def Audit.past (acc : Audit) (bs : List Block) : Audit where
  used := acc.used + ((allocs bs).map (·.size)).sum
  free := acc.free + freeBytes bs
  allocatedBlocks := acc.allocatedBlocks + (allocs bs).length
  freeBlocks := acc.freeBlocks + (freeNodes bs).length
  prevWasFree := (bs.getLast?.map (·.free)).getD acc.prevWasFree

theorem Audit.past_cons (acc : Audit) (b : Block) (bs : List Block) :
    acc.past (b :: bs) = (acc.past [b]).past bs := by
  have hlast : ((b :: bs).getLast?.map (·.free)).getD acc.prevWasFree =
      (bs.getLast?.map (·.free)).getD ((([b] : List Block).getLast?.map (·.free)).getD acc.prevWasFree) := by
    cases bs with
    | nil => rfl
    | cons c bs =>
      rw [getLast?_cons_cons]
      simp [getLast?_cons]
  cases hf : b.free <;>
    simp [Audit.past, allocs, freeBytes, freeNodes, hf, Nat.add_assoc, Nat.add_comm 1] at hlast ⊢ <;> exact hlast

/-- **The walk** over a heap in order finds no fault and counts every block. -/
theorem auditWalk_spec (hvalid : ∀ b ∈ bs, isValidBlock h b.addr = true ∧ tagAt h.mem b.addr = b.header ∧ 0 < b.size) :
    ∀ {fuel addr : Nat} {acc : Audit}, bs.length < fuel → Tiles addr bs h.stop → Apart bs →
      (acc.prevWasFree = true → HeadNot bs) → auditWalk h fuel addr acc = some (acc.past bs) := by
  induction bs with
  | nil =>
    intro fuel addr acc hlen ht _ _
    obtain ⟨fuel, rfl⟩ : ∃ k, fuel = k + 1 := ⟨fuel - 1, by simp at hlen; omega⟩
    have ht : addr = h.stop := ht
    unfold auditWalk
    rw [if_pos (Nat.le_of_eq ht.symm), if_pos ht]
    rfl
  | cons b bs ih =>
    intro fuel addr acc hlen ht hap hprev
    obtain ⟨fuel, rfl⟩ : ∃ k, fuel = k + 1 := ⟨fuel - 1, by simp at hlen; omega⟩
    obtain ⟨rfl, ht⟩ := ht
    obtain ⟨hval, hhdr, hpos⟩ := hvalid b (.head _)
    have := ht.le
    obtain ⟨hap, hhead⟩ := apart_cons_iff.1 hap
    have hstep : auditWalk h (fuel + 1) b.addr acc = auditWalk h fuel (b.addr + b.size) (acc.past [b]) := by
      rw [auditWalk]
      simp only [hhdr, Block.header_size]
      rw [if_neg (by omega), if_neg (by simp [hval])]
      by_cases hf : b.free = true
      · rw [if_pos (by simp [Block.header, hf]), if_neg]
        · simp [Audit.past, allocs, freeBytes, freeNodes, hf]
        intro hp
        have := hprev hp b rfl
        simp [this] at hf
      · rw [if_neg (by simp [Block.header, hf])]
        simp [Audit.past, allocs, freeBytes, freeNodes, hf]
    have hflag : (acc.past [b]).prevWasFree = true → HeadNot bs := by simpa [Audit.past] using hhead
    rw [hstep, acc.past_cons b bs]
    exact ih (fun c hc => hvalid c (.tail _ hc)) (by simpa using hlen) ht hap hflag

theorem heapGetFreeBlocks_seg : ∀ {l : List Nat} {fuel prev cur : Nat}, l.length < fuel →
    Seg (nodeAt h.mem) prev l cur last 0 → heapGetFreeBlocks h fuel cur = some l.length
  | [], fuel + 1, _, _, _, hseg => by
    obtain ⟨_, rfl⟩ := hseg
    rfl
  | n :: l, fuel + 1, _, _, hlen, ⟨rfl, hne, _, hseg⟩ => by
    unfold heapGetFreeBlocks
    rw [if_neg hne, heapGetFreeBlocks_seg (by simpa using hlen) hseg]
    rfl

theorem used_add_free (bs : List Block) : ((allocs bs).map (·.size)).sum + freeBytes bs = (bs.map (·.size)).sum := by
  induction bs with
  | nil => rfl
  | cons b bs ih =>
    unfold freeBytes at *
    cases hf : b.free <;> simp [allocs, hf] at ih ⊢ <;> omega

/-- **A heap in order passes its audit.** -/
theorem heapVerifyIntegrity_true (hi : Inv h bs fl) (hready : h.ready = true) : heapVerifyIntegrity h = true := by
  have hvalid : ∀ b ∈ bs, isValidBlock h b.addr = true ∧ tagAt h.mem b.addr = b.header ∧ 0 < b.size := by
    intro b hb
    have := (hi.layout.good b hb).min
    exact ⟨isValidBlock_true hi.listed hi.layout (List.Sublist.refl _) hb (hi.tagged b hb), (hi.tagged b hb).header,
      by omega⟩
  have hwalk : auditWalk h h.rounds h.start ⟨0, 0, 0, 0, false⟩ = _ :=
    auditWalk_spec hvalid hi.layout.length_lt hi.layout.tiles hi.apart nofun
  obtain ⟨last, hseg⟩ := hi.listed.chain
  have hlist := heapGetFreeBlocks_seg (hi.listed.length_lt hi.layout) hseg
  have hsum := used_add_free bs
  rw [hi.layout.tiles.total] at hsum
  unfold heapVerifyIntegrity
  rw [hready, hwalk, hlist]
  simp [Audit.past, hi.listed.perm.length_eq, hsum, hi.counted.bytes, hi.counted.blocks]

end Audit

/-! ## The users -/

/-- A call, or a store into memory that a user holds. -/
inductive Op
  | kmalloc (size : Nat)
  | kmallocLarge (size : Nat)
  | kcalloc (num size : Nat)
  | krealloc (ptr size : Nat)
  | kfree (ptr : Nat)
  | store (addr : Nat) (data : Bytes)

/-- The heap with what its users hold: pointers with the bytes asked for. -/
structure Use where
  heap : Heap
  live : List (Nat × Nat)

variable (live : List (Nat × Nat))

/-- Only NULL or live pointers are freed or resized, and stores stay within what was asked for. -/
def Op.Admissible : Op → Prop
  | .kmalloc _ | .kmallocLarge _ | .kcalloc _ _ => True
  | .krealloc ptr _ | .kfree ptr => ptr = 0 ∨ ptr ∈ live.map Prod.fst
  | .store addr data => ∃ pr ∈ live, pr.1 ≤ addr ∧ addr + data.length ≤ pr.1 + pr.2

def Op.call (env : Pages) (h : Heap) : Op → Option (Heap × Nat)
  | .kmalloc size => Mm.kmalloc env h size
  | .kmallocLarge size => Mm.kmallocLarge env h size
  | .kcalloc num size => Mm.kcalloc env h num size
  | .krealloc ptr size => Mm.krealloc env h ptr size
  | .kfree ptr => (Mm.kfree h ptr).map fun h => (h, 0)
  | .store addr data => some ({ h with mem := h.mem.write addr data }, 0)

def grant (p size : Nat) : List (Nat × Nat) := if p = 0 then live else (p, size) :: live

def drop (ptr : Nat) : List (Nat × Nat) := live.filter (·.1 != ptr)

/-- What is live after a call that gave `p`. -/
def Op.after (p : Nat) : Op → List (Nat × Nat)
  | .kmalloc size | .kmallocLarge size => grant live p size
  | .kcalloc num size => grant live p (num * size)
  | .krealloc ptr size =>
    if ptr = 0 then grant live p size
    else if size = 0 then drop live ptr
    else if p = 0 then live
    else (p, size) :: drop live ptr
  | .kfree ptr => drop live ptr
  | .store _ _ => live

/-- From a heap just set up, calls in any order, each with pages of its own behind an expansion. -/
def useMachine : Machine Use (Pages × Op) where
  init u := ∃ env m, heapInit env m = some u.heap ∧ u.live = []
  step u i u' := i.2.Admissible u.live ∧
    ∃ p, i.2.call i.1 u.heap = some (u'.heap, p) ∧ u'.live = i.2.after u.live p

/-! ## What the users hold -/

/-- The live pointers are the allocated blocks' payloads, each with room for what was asked for. -/
structure Owned (l : List Block) (live : List (Nat × Nat)) : Prop where
  perm : (live.map Prod.fst).Perm (l.map (·.node))
  room : ∀ pr ∈ live, ∃ b ∈ l, b.node = pr.1 ∧ pr.2 + 32 ≤ b.size

section Owned

variable {h : Heap} {bs l l' : List Block} {fl : List Nat} {live : List (Nat × Nat)} {b nb : Block} {p size : Nat}
  {env : Pages}

theorem Owned.of_perm (ho : Owned l live) (hp : l'.Perm l) : Owned l' live := by
  refine ⟨ho.perm.trans (hp.map _).symm, fun pr hpr => ?_⟩
  obtain ⟨b, hb, hroom⟩ := ho.room pr hpr
  exact ⟨b, hp.mem_iff.2 hb, hroom⟩

theorem Owned.cons (ho : Owned l live) (hn : nb.node = p) (hroom : size + 32 ≤ nb.size) :
    Owned (nb :: l) ((p, size) :: live) := by
  subst hn
  refine ⟨(perm_cons _).2 ho.perm, fun pr hpr => ?_⟩
  rcases mem_cons.1 hpr with rfl | hpr
  · exact ⟨nb, mem_cons_self .., rfl, hroom⟩
  obtain ⟨b, hb, h⟩ := ho.room pr hpr
  exact ⟨b, .tail _ hb, h⟩

theorem Owned.drop (ho : Owned (b :: l) live) (hnd : ((b :: l).map (·.node)).Nodup) : Owned l (drop live b.node) := by
  have hne : ∀ x ∈ l.map (·.node), x ≠ b.node := by
    rintro x hx rfl
    exact (nodup_cons.1 hnd).1 hx
  refine ⟨?_, fun pr hpr => ?_⟩
  · have hperm := ho.perm.filter (· != b.node)
    have hrest : (l.map (·.node)).filter (· != b.node) = l.map (·.node) :=
      filter_eq_self.2 fun x hx => by simpa using hne x hx
    rw [map_cons, filter_cons_of_neg (by simp), hrest, filter_map] at hperm
    exact hperm
  obtain ⟨hpr, hp⟩ := mem_filter.1 hpr
  obtain ⟨c, hc, hnode, hroom⟩ := ho.room pr hpr
  rcases mem_cons.1 hc with rfl | hc
  · simp [hnode] at hp
  · exact ⟨c, hc, hnode, hroom⟩

theorem Owned.mem (ho : Owned l live) (hp : p ∈ live.map Prod.fst) : ∃ b ∈ l, b.node = p := by
  simpa using ho.perm.mem_iff.1 hp

theorem Owned.grant (ho : Owned l live) (ha : Adds size l l' p) : Owned l' (grant live p size) := by
  unfold Mm.grant
  obtain ⟨rfl, hperm⟩ | ⟨nb, hnode, hroom, hperm⟩ := ha
  · rw [if_pos rfl]
    exact ho.of_perm hperm
  · rw [if_neg (by unfold Block.node at hnode; omega)]
    exact (ho.cons hnode hroom).of_perm hperm

theorem Layout.nodup_allocs (hl : Layout h bs) : ((allocs bs).map (·.node)).Nodup :=
  (hl.tiles.nodup_addr hl.good).sublist (filter_sublist.map _)

/-- **The invariant of heap and users.** -/
def InUse (u : Use) : Prop := ∃ bs fl, Inv u.heap bs fl ∧ u.heap.ready = true ∧ Owned (allocs bs) u.live

variable {u : Use}

theorem inUse_init {m : Mem} (hx : heapInit env m = some u.heap) (hl : u.live = []) : InUse u := by
  have hs : Sound ⟨m, KERNEL_HEAP_START, KERNEL_HEAP_START, 0, false, 0, 0⟩ [] [] := by
    refine ⟨⟨?_, ?_, ?_, rfl, by simp⟩, by simp, isChain_nil, ⟨⟨0, rfl, rfl⟩, List.Perm.refl _⟩⟩
    · show 0 < KERNEL_HEAP_START
      decide
    · show KERNEL_HEAP_START % 16 = 0
      decide
    · show KERNEL_HEAP_START ≤ KERNEL_HEAP_MAX
      decide
  unfold heapInit at hx
  dsimp only at hx
  cases hexp : heapExpand env ⟨m, KERNEL_HEAP_START, KERNEL_HEAP_START, 0, false, 0, 0⟩ (4 * PAGE_SIZE) with
  | none =>
    rw [hexp] at hx
    cases hx
  | some h1 =>
    rw [hexp] at hx
    obtain ⟨bs, fl, hs1, hgrown, -⟩ := heapExpand_spec hs hexp
    have hu : u.heap = { h1 with ready := true } := (Option.some.inj hx).symm
    have hnone : allocs bs = [] := hgrown.allocs
    refine ⟨bs, fl, ?_, by rw [hu], ?_⟩
    · rw [hu]
      refine ⟨hs1.of_eq rfl rfl rfl rfl, ?_, ?_⟩
      · rw [hnone]
        exact hgrown.bytes
      · rw [hnone]
        exact hgrown.blocks
    · rw [hl, hnone]
      exact ⟨List.Perm.refl _, fun pr hpr => by cases hpr⟩

/-- What a call does to heap and users, whatever the pages behind an expansion are. -/
def Returns (env : Pages) (u : Use) (op : Op) : Prop :=
  ∃ h' p, op.call env u.heap = some (h', p) ∧ InUse ⟨h', op.after u.live p⟩

theorem returns_kfree {ptr : Nat} (hu : InUse u) (hp : ptr = 0 ∨ ptr ∈ u.live.map Prod.fst) :
    ∃ h', kfree u.heap ptr = some h' ∧ InUse ⟨h', Mm.drop u.live ptr⟩ := by
  obtain ⟨bs, fl, hi, hready, ho⟩ := hu
  rcases hp with rfl | hp
  · -- no live pointer is NULL
    refine ⟨u.heap, rfl, bs, fl, hi, hready, ?_⟩
    have hsame : Mm.drop u.live 0 = u.live := by
      refine filter_eq_self.2 fun pr hpr => ?_
      obtain ⟨b, _, hnode, _⟩ := ho.room pr hpr
      unfold Block.node at hnode
      simp
      omega
    rw [hsame]
    exact ho
  obtain ⟨b, hb, rfl⟩ := ho.mem hp
  obtain ⟨h', bs', fl', heq, hi', hready', hperm, -⟩ := kfree_perm hi hb
  have ho' := ho.of_perm hperm.symm
  exact ⟨h', heq, bs', fl', hi', hready'.trans hready,
    ho'.drop ((hperm.map _).nodup_iff.1 hi.layout.nodup_allocs)⟩

theorem returns_krealloc {ptr size : Nat} (hu : InUse u) (hp : ptr = 0 ∨ ptr ∈ u.live.map Prod.fst) :
    Returns env u (.krealloc ptr size) := by
  obtain ⟨bs, fl, hi, hready, ho⟩ := hu
  by_cases h0 : ptr = 0
  · subst h0
    obtain ⟨h', p, bs', fl', heq, hi', hready', hadds, -⟩ := kmallocImpl_spec env size false hi
    refine ⟨h', p, ?_, bs', fl', hi', hready'.trans hready, ?_⟩
    · simp only [Op.call, krealloc, if_true]
      exact heq
    · simp only [Op.after, if_true]
      exact ho.grant hadds
  have hp := hp.resolve_left h0
  by_cases hs : size = 0
  · obtain ⟨h', heq, hu'⟩ := returns_kfree ⟨bs, fl, hi, hready, ho⟩ (.inr hp)
    refine ⟨h', 0, ?_, ?_⟩
    · simp [Op.call, krealloc, if_neg h0, if_pos hs, heq]
    simp only [Op.after, if_neg h0, if_pos hs]
    exact hu'
  obtain ⟨b, hb, rfl⟩ := ho.mem hp
  obtain ⟨h', p, bs', fl', heq, hi', hready', hswap, -⟩ := krealloc_spec env hi hb hs
  refine ⟨h', p, heq, bs', fl', hi', hready'.trans hready, ?_⟩
  simp only [Op.after, if_neg h0, if_neg hs]
  obtain ⟨rfl, hperm⟩ | ⟨nb, rest, hnode, hroom, hbefore, hafter⟩ := hswap
  · rw [if_pos rfl]
    exact ho.of_perm hperm
  rw [if_neg (by unfold Block.node at hnode; omega)]
  have hrest := (ho.of_perm hbefore.symm).drop ((hbefore.map _).nodup_iff.1 hi.layout.nodup_allocs)
  exact (hrest.cons hnode hroom).of_perm hafter

theorem returns_store {addr : Nat} {data : Bytes} (hu : InUse u)
    (ha : (Op.store addr data).Admissible u.live) : Returns env u (.store addr data) := by
  obtain ⟨bs, fl, hi, hready, ho⟩ := hu
  obtain ⟨pr, hpr, hlo, hhi⟩ := ha
  obtain ⟨b, hb, hnode, hroom⟩ := ho.room pr hpr
  have hend := b.payload_end hroom
  exact ⟨_, 0, rfl, bs, fl, hi.store data hb (by omega) (by omega), hready, ho⟩

/-- A call that allocates returns and leaves heap and users in order. -/
theorem InUse.alloc {r : Option (Heap × Nat)} (hu : InUse u)
    (hspec : ∀ bs fl, Inv u.heap bs fl → Gives u.heap bs size r) :
    ∃ h' p, r = some (h', p) ∧ InUse ⟨h', Mm.grant u.live p size⟩ := by
  obtain ⟨bs, fl, hi, hready, ho⟩ := hu
  obtain ⟨h', p, bs', fl', heq, hi', hready', hadds, -⟩ := hspec bs fl hi
  exact ⟨h', p, heq, bs', fl', hi', hready'.trans hready, ho.grant hadds⟩

/-- **Every admissible call returns** and leaves heap and users in order. -/
theorem InUse.returns {op : Op} (hu : InUse u) (env : Pages) (ha : op.Admissible u.live) : Returns env u op := by
  cases op with
  | kmalloc size => exact hu.alloc fun _ _ hi => kmallocImpl_spec env size false hi
  | kmallocLarge size => exact hu.alloc fun _ _ hi => kmallocImpl_spec env size true hi
  | kcalloc num size => exact hu.alloc fun _ _ hi => kcalloc_spec env num size hi
  | krealloc ptr size => exact returns_krealloc hu ha
  | kfree ptr =>
    obtain ⟨h', heq, hu'⟩ := returns_kfree hu ha
    exact ⟨h', 0, by simp [Op.call, heq], hu'⟩
  | store addr data => exact returns_store hu ha

theorem inUse_reach (hr : useMachine.Reach u) : InUse u := by
  refine hr.invariant ?_ ?_
  · rintro u ⟨env, m, hx, hl⟩
    exact inUse_init hx hl
  rintro u ⟨env, op⟩ u' hu ⟨ha, p, heq, hl⟩
  obtain ⟨h', p', heq', hu'⟩ := hu.returns env ha
  obtain ⟨rfl, rfl⟩ : u'.heap = h' ∧ p = p' := by simpa using heq.symm.trans heq'
  rw [← hl] at hu'
  exact hu'

end Owned

/-! ## The properties -/

/-- How many bytes a payload has, by its block's header. -/
def payloadLen (h : Heap) (ptr : Nat) : Nat := (tagAt h.mem (ptr - 16)).size - 16 - 16

/-- The blocks tile the heap with no two free ones side by side, the free list is exactly the free
blocks, and the counters are those of the allocated ones. -/
structure InOrder (h : Heap) (bs : List Block) (fl : List Nat) : Prop where
  tiles : Tiles h.start bs h.stop
  tagged : ∀ b ∈ bs, Tagged h.mem b
  apart : Apart bs
  chain : Chain (nodeAt h.mem) fl h.freeListHead
  perm : fl.Perm (freeNodes bs)
  bytes : h.allocatedBytes = ((allocs bs).map (·.size)).sum
  blocks : h.allocatedBlocks = (allocs bs).length

/-- Payloads that are in use at the same time. -/
structure Payloads (h : Heap) (live : List (Nat × Nat)) : Prop where
  disjoint : live.Pairwise fun x y => x.1 + payloadLen h x.1 ≤ y.1 ∨ y.1 + payloadLen h y.1 ≤ x.1
  aligned : ∀ x ∈ live, x.1 % 16 = 0
  long : ∀ x ∈ live, x.2 ≤ payloadLen h x.1

section Payloads

variable {h : Heap} {bs : List Block} {fl : List Nat} {live : List (Nat × Nat)} {b : Block}

theorem Inv.payloadLen_node (hi : Inv h bs fl) (hb : b ∈ bs) : payloadLen h b.node = b.size - 32 := by
  have hsub : b.node - 16 = b.addr := by unfold Block.node; omega
  unfold payloadLen
  rw [hsub, (hi.tagged b hb).header, Block.header_size]
  omega

/-- Live payloads lie between the tags of different blocks. -/
theorem Owned.payloads (hi : Inv h bs fl) (ho : Owned (allocs bs) live) : Payloads h live := by
  have hblock : ∀ x ∈ live, ∃ b ∈ bs, b.node = x.1 ∧ x.2 + 32 ≤ b.size ∧ payloadLen h x.1 = b.size - 32 := by
    intro x hx
    obtain ⟨b, hb, hnode, hroom⟩ := ho.room x hx
    have hb := (mem_allocs.1 hb).1
    exact ⟨b, hb, hnode, hroom, by rw [← hnode, hi.payloadLen_node hb]⟩
  refine ⟨?_, fun x hx => ?_, fun x hx => ?_⟩
  · have hnd : (live.map Prod.fst).Nodup := ho.perm.nodup_iff.2 hi.layout.nodup_allocs
    have hpair : live.Pairwise fun x y => x.1 ≠ y.1 := pairwise_map.1 hnd
    refine hpair.imp_of_mem fun {x y} hx hy hne => ?_
    obtain ⟨b, hb, hbn, _, hbl⟩ := hblock x hx
    obtain ⟨c, hc, hcn, _, hcl⟩ := hblock y hy
    have hbc : b ≠ c := by
      rintro rfl
      exact hne (hbn.symm.trans hcn)
    have hd := hi.layout.apart hb hc hbc
    have := (hi.layout.good b hb).min
    have := (hi.layout.good c hc).min
    unfold Block.node at hbn hcn
    omega
  · obtain ⟨b, hb, hbn, _⟩ := hblock x hx
    rw [← hbn]
    exact (hi.layout.good b hb).node_al
  · obtain ⟨b, hb, _, hroom, hbl⟩ := hblock x hx
    omega

end Payloads

/-- **The kernel heap**: in every state that calls on live pointers lead to, the audit passes, the
blocks, the free list and the counters are in order, the live payloads are apart, aligned and as
long as asked for, and the next such call returns. -/
theorem heap_integrity {u : Use} (hr : useMachine.Reach u) :
    heapVerifyIntegrity u.heap = true ∧ (∃ bs fl, InOrder u.heap bs fl) ∧ Payloads u.heap u.live ∧
      ∀ (env : Pages) (op : Op), op.Admissible u.live → (op.call env u.heap).isSome := by
  obtain ⟨bs, fl, hi, hready, ho⟩ := inUse_reach hr
  refine ⟨heapVerifyIntegrity_true hi hready, ⟨bs, fl, ?_⟩, ho.payloads hi, fun env op ha => ?_⟩
  · exact ⟨hi.layout.tiles, hi.tagged, hi.apart, hi.listed.chain, hi.listed.perm, hi.counted.bytes,
      hi.counted.blocks⟩
  obtain ⟨h', p, heq, _⟩ := (inUse_reach hr).returns env ha
  rw [heq]
  rfl

/-- **kmalloc_large misses nothing**: on a heap in order it refuses a request within the maximum only if the request
is empty, or no free block fits and the expansion it attempts cannot be had, with all full batches before it added. -/
theorem kmalloc_large_complete {h : Heap} {bs : List Block} {fl : List Nat} (hi : Inv h bs fl)
    (hready : h.ready = true) (env : Pages) {size : Nat} (hmax : size ≤ requestMax) :
    ∃ h' p, kmallocLarge env h size = some (h', p) ∧ (p = 0 → size = 0 ∨
      (∀ b ∈ bs, b.free = true → b.size < totalFor size) ∧ Starved env (totalFor size) h h') := by
  unfold kmallocLarge kmallocImpl
  by_cases hzero : size = 0
  · rw [if_pos (.inl hzero)]
    exact ⟨h, 0, rfl, fun _ => .inl hzero⟩
  rw [if_neg (by simp [hzero, hready]), if_neg (by omega)]
  have hmin := (totalFor_spec size).2.1
  obtain ⟨h', r, _, _, hfind, -, -, -, hnone⟩ := findBlock_spec env true hi.toSound (show 0 < totalFor size by omega)
  rw [hfind]
  cases r with
  | none =>
    obtain ⟨hmiss, hstarved⟩ := hnone rfl rfl
    refine ⟨h', 0, rfl, fun _ => .inr ⟨fun b hb hf => ?_, hstarved⟩⟩
    exact Nat.lt_of_not_le fun hle => hmiss _ ⟨b, hb, hf, rfl, hle⟩
  | some hdr => exact ⟨_, hdr + 16, rfl, fun h0 => absurd h0 (by omega)⟩

theorem inv_init {env : Pages} {m : Mem} {h : Heap} (hinit : heapInit env m = some h) :
    ∃ bs fl, Inv h bs fl ∧ h.ready = true := by
  obtain ⟨bs, fl, hi, hready, -⟩ := inUse_init (u := ⟨h, []⟩) hinit rfl
  exact ⟨bs, fl, hi, hready⟩

/-- Pages for the first expansion of a fresh heap, and for no other. -/
def onePiece : Pages := fun a _ => if a ≤ KERNEL_HEAP_START + 4 * PAGE_SIZE then some fun _ => 0 else none

/-- A request of three batches: the first one is had, the second is refused. -/
theorem kmalloc_large_complete_fresh : ∃ h bs fl, Inv h bs fl ∧ h.ready = true ∧
    ∃ h', kmallocLarge onePiece h 5000000 = some (h', 0) ∧ h'.stop = h.stop + batchCap ∧
      (∀ b ∈ bs, b.free = true → b.size < totalFor 5000000) ∧ Starved onePiece (totalFor 5000000) h h' := by
  obtain ⟨h, hinit, hx⟩ := Option.bind_eq_some_iff.1 (by decide +kernel :
    ((heapInit onePiece fun _ => 0).bind fun h => (kmallocLarge onePiece h 5000000).map fun r =>
      (r.2, r.1.stop - h.stop)) = some (0, batchCap))
  obtain ⟨bs, fl, hi, hready⟩ := inv_init hinit
  obtain ⟨h', p, hcall, hnull⟩ := kmalloc_large_complete hi hready onePiece (show 5000000 ≤ requestMax by decide +kernel)
  simp only [hcall, Option.map_some, Option.some.injEq, Prod.mk.injEq] at hx
  obtain ⟨rfl, hstop⟩ := hx
  have hcap : 0 < batchCap := by decide
  exact ⟨h, bs, fl, hi, hready, h', hcall, by omega, (hnull rfl).resolve_left (by decide)⟩

/-- An empty request is refused although the heap could grow: no expansion is attempted. -/
theorem kmalloc_large_empty : ∃ h bs fl, Inv h bs fl ∧ h.ready = true ∧
    kmallocLarge (fun _ _ => some fun _ => 0) h 0 = some (h, 0) ∧
      ¬Starved (fun _ _ => some fun _ => 0) (totalFor 0) h h := by
  obtain ⟨h, hinit, hstop⟩ := Option.map_eq_some_iff.1 (by decide +kernel :
    (heapInit (fun _ _ => some fun _ => 0) fun _ => 0).map Heap.stop = some (KERNEL_HEAP_START + 4 * PAGE_SIZE))
  obtain ⟨bs, fl, hi, hready⟩ := inv_init hinit
  refine ⟨h, bs, fl, hi, hready, by simp [kmallocLarge, kmallocImpl], fun hst => ?_⟩
  cases hst with
  | refused _ href =>
    simp only [Refused, hstop, reduceCtorEq, or_false] at href
    exact absurd href (by decide +kernel)
  | batch hlt => exact absurd hlt (by decide +kernel)

instance (live : List (Nat × Nat)) : (op : Op) → Decidable (op.Admissible live)
  | .kmalloc _ | .kmallocLarge _ | .kcalloc _ _ => inferInstanceAs (Decidable True)
  | .krealloc ptr _ | .kfree ptr => inferInstanceAs (Decidable (ptr = 0 ∨ ptr ∈ live.map Prod.fst))
  | .store addr data =>
    inferInstanceAs (Decidable (∃ pr ∈ live, pr.1 ≤ addr ∧ addr + data.length ≤ pr.1 + pr.2))

/-- A run of admissible calls on a heap whose pages are always there and zero. -/
def runUse : List Op → Use → Option Use
  | [], u => some u
  | op :: ops, u =>
    if op.Admissible u.live then
      match op.call (fun _ _ => some fun _ => 0) u.heap with
      | none => none
      | some (h, p) => runUse ops ⟨h, op.after u.live p⟩
    else none

theorem reach_runUse : ∀ {ops : List Op} {u u' : Use}, useMachine.Reach u → runUse ops u = some u' →
    useMachine.Reach u'
  | [], u, u', hr, hx => by
    obtain rfl : u = u' := Option.some.inj hx
    exact hr
  | op :: ops, u, u', hr, hx => by
    unfold runUse at hx
    split at hx
    next ha =>
      split at hx
      next => cases hx
      next h p hcall =>
        have hstep : useMachine.step u (fun _ _ => some fun _ => 0, op) ⟨h, op.after u.live p⟩ :=
          ⟨ha, p, hcall, rfl⟩
        exact reach_runUse (.step hr hstep) hx
    next => cases hx

/-- A block of 24 bytes, one of 100 behind it, the first freed and the second resized to 300. -/
def fourCalls : List Op :=
  [.kmalloc 24, .kcalloc 2 50, .kfree (KERNEL_HEAP_START + 16), .krealloc (KERNEL_HEAP_START + 80) 300]

theorem reach_fourCalls : ∃ u, useMachine.Reach u ∧ u.live = [(KERNEL_HEAP_START + 80, 300)] := by
  have hlive : (do
      let h ← heapInit (fun _ _ => some fun _ => 0) fun _ => 0
      let u ← runUse fourCalls ⟨h, []⟩
      pure u.live) = some [(KERNEL_HEAP_START + 80, 300)] := by decide +kernel
  simp only [Option.bind_eq_bind, Option.bind_eq_some_iff, Option.pure_def, Option.some.injEq] at hlive
  obtain ⟨h, hinit, u, hrun, hlive⟩ := hlive
  exact ⟨u, reach_runUse (.init ⟨_, _, hinit, rfl⟩) hrun, hlive⟩

theorem heap_integrity_four_calls : ∃ u, useMachine.Reach u ∧ u.live = [(KERNEL_HEAP_START + 80, 300)] ∧
    heapVerifyIntegrity u.heap = true ∧ Payloads u.heap u.live := by
  obtain ⟨u, hreach, hlive⟩ := reach_fourCalls
  obtain ⟨haudit, _, hpay, _⟩ := heap_integrity hreach
  exact ⟨u, hreach, hlive, haudit, hpay⟩

/-! ## Contents over krealloc -/

section Contents

variable {h : Heap} {bs : List Block} {fl : List Nat} {b : Block}

theorem krealloc_zero (env : Pages) : krealloc env h b.node 0 = (kfree h b.node).map fun h => (h, 0) := by
  unfold krealloc
  rw [if_neg (by unfold Block.node; omega), if_pos rfl]

/-- **krealloc and the contents**: whatever it does, the payloads of the other blocks stay. If it gives a pointer, a
block with room for the request is there in place of the old one, and begins with the old payload as far as both
reach. If it gives NULL, the old block is freed for a request of nothing, and else live with its contents. -/
theorem krealloc_contents (hi : Inv h bs fl) (hb : b ∈ allocs bs) (env : Pages) (size : Nat) :
    ∃ h' p bs' fl', krealloc env h b.node size = some (h', p) ∧ Inv h' bs' fl' ∧
      Keeps ((allocs bs).erase b) h.mem h'.mem ∧
      (p ≠ 0 → (∃ nb, nb.node = p ∧ size + 32 ≤ nb.size ∧ (allocs bs').Perm (nb :: (allocs bs).erase b)) ∧
        h'.mem.read p (min (payloadLen h b.node) size) = h.mem.read b.node (min (payloadLen h b.node) size)) ∧
      (p = 0 → if size = 0 then (allocs bs').Perm ((allocs bs).erase b)
        else (allocs bs').Perm (allocs bs) ∧ Keeps (allocs bs) h.mem h'.mem) := by
  by_cases hs : size = 0
  · obtain ⟨h', bs', fl', heq, hi', -, hperm, hk⟩ := kfree_perm hi hb
    have hrest := (cons_perm_iff_perm_erase.1 hperm.symm).2
    refine ⟨h', 0, bs', fl', ?_, hi', hk.mono hrest.symm.subset, absurd rfl, fun _ => by rwa [if_pos hs]⟩
    rw [hs, krealloc_zero, heq, Option.map_some]
  obtain ⟨h', p, bs', fl', heq, hi', -, hswap, hc⟩ := krealloc_spec env hi hb hs
  refine ⟨h', p, bs', fl', heq, hi', hc.others, fun hp => ⟨?_, ?_⟩, fun hp => ?_⟩
  · obtain ⟨h0, _⟩ | ⟨nb, rest, hnode, hroom, hbefore, hafter⟩ := hswap
    · exact absurd h0 hp
    have hrest := (cons_perm_iff_perm_erase.1 hbefore.symm).2
    exact ⟨nb, hnode, hroom, hafter.trans ((perm_cons _).2 hrest)⟩
  · rw [hi.payloadLen_node (mem_allocs.1 hb).1]
    exact hc.moved hp
  rw [if_neg hs]
  obtain ⟨_, hperm⟩ | ⟨nb, _, hnode, _⟩ := hswap
  · exact ⟨hperm, hc.failed hp⟩
  unfold Block.node at hnode
  omega

theorem allocated_heap : ∃ h bs fl b, Inv h bs fl ∧ b ∈ allocs bs := by
  obtain ⟨u, hreach, hlive⟩ := reach_fourCalls
  obtain ⟨bs, fl, hi, -, ho⟩ := inUse_reach hreach
  obtain ⟨b, hb, -⟩ := ho.room _ (hlive ▸ mem_singleton_self _)
  exact ⟨u.heap, bs, fl, b, hi, hb⟩

theorem krealloc_contents_hundred : ∃ h bs fl b, Inv h bs fl ∧ b ∈ allocs bs ∧ ∃ h' p,
    krealloc (fun _ _ => none) h b.node 100 = some (h', p) ∧ Keeps ((allocs bs).erase b) h.mem h'.mem := by
  obtain ⟨h, bs, fl, b, hi, hb⟩ := allocated_heap
  obtain ⟨h', p, _, _, heq, _, hk, _⟩ := krealloc_contents hi hb (fun _ _ => none) 100
  exact ⟨h, bs, fl, b, hi, hb, h', p, heq, hk⟩

/-- NULL for a request of nothing, and the block is gone. -/
theorem krealloc_nothing : ∃ h bs fl b, Inv h bs fl ∧ b ∈ allocs bs ∧ ∃ h' bs' fl',
    krealloc (fun _ _ => none) h b.node 0 = some (h', 0) ∧ Inv h' bs' fl' ∧ b ∉ allocs bs' := by
  obtain ⟨h, bs, fl, b, hi, hb⟩ := allocated_heap
  obtain ⟨h', bs', fl', heq, hi', -, hperm, -⟩ := kfree_perm hi hb
  refine ⟨h, bs, fl, b, hi, hb, h', bs', fl', ?_, hi', fun hm => ?_⟩
  · rw [krealloc_zero, heq, Option.map_some]
  · exact (nodup_cons.1 (hperm.nodup_iff.1 hi.layout.nodup_allocs.of_map)).1 hm

end Contents

end Fortress.Mm
