/-
Where memory comes from: the expansion of the heap, the search for a block
that fits, and the calls that allocate.
-/
import Fortress.Mm.Calls

namespace Fortress.Mm

open List

/-! ## Expansion -/

section Expand

variable {h h' : Heap} {bs : List Block} {fl : List Nat} {pages : Nat} {env : Pages}

theorem freeListRemove_stop (h : Heap) (hdr e : Nat) :
    freeListRemove { h with stop := e } hdr = { freeListRemove h hdr with stop := e } := by
  unfold freeListRemove
  by_cases hp : (nodeAt h.mem (hdr + 16)).prev = 0 <;> by_cases hn : (nodeAt h.mem (hdr + 16)).next = 0 <;>
    simp [hp, hn, Heap.setNode]

theorem freeListInsert_stop (h : Heap) (hdr e : Nat) :
    freeListInsert { h with stop := e } hdr = { freeListInsert h hdr with stop := e } := by
  unfold freeListInsert
  by_cases hh : h.freeListHead = 0 <;> simp [hh, Heap.setNode]

theorem Tiles.aligned : ∀ {l : List Block} {a e : Nat}, Tiles a l e → (∀ b ∈ l, b.Good) → a % 16 = 0 → e % 16 = 0
  | [], _, _, h, _, ha => h ▸ ha
  | b :: l, a, e, ⟨_, ht⟩, hg, ha => by
    have := (hg b (.head _)).size
    exact ht.aligned (fun c hc => hg c (.tail _ hc)) (by omega)

theorem Layout.stop_al (hl : Layout h bs) : h.stop % 16 = 0 := hl.tiles.aligned hl.good hl.start_al

theorem touches_mapped (pages : Nat) (content : Mem) (hal : h.stop % 16 = 0) :
    Touches h.mem (mapped h pages content).mem (Within h.stop (pages * PAGE_SIZE)) := by
  intro a ha hn
  have hn : ¬(h.stop ≤ a ∧ a < h.stop + pages * PAGE_SIZE) := hn
  have hpage : pages * PAGE_SIZE % 16 = 0 := by unfold PAGE_SIZE; omega
  refine Mem.read_congr fun x h1 h2 => ?_
  exact if_neg (by omega)

/-- **The new pages in hand**: a block behind the old end that is in nobody's list. -/
theorem Sound.extend (hs : Sound h bs fl) (hpages : 0 < pages) (hmax : h.stop + pages * PAGE_SIZE ≤ KERNEL_HEAP_MAX)
    (content : Mem) :
    Sound (mapped h pages content) bs fl ∧
      Held { mapped h pages content with stop := h.stop + pages * PAGE_SIZE } bs h.stop (pages * PAGE_SIZE) [] fl := by
  have hal := hs.layout.stop_al
  have ht := touches_mapped pages content hal
  have hmaxlt : KERNEL_HEAP_MAX < 2 ^ 64 := by decide
  have hsize : 4096 ≤ pages * PAGE_SIZE ∧ pages * PAGE_SIZE % 16 = 0 := by unfold PAGE_SIZE; omega
  have hout := fun b hb => (hs.layout.good b hb).outside h.stop (pages * PAGE_SIZE)
    (.inl (hs.layout.tiles.bounds b hb).2)
  have htag : ∀ b ∈ bs, Tagged (mapped h pages content).mem b := fun b hb =>
    (hs.tagged b hb).touches (hs.layout.good b hb) ht ((hout b hb).1 _ (.inl rfl)) ((hout b hb).1 _ (.inr rfl))
  have hlist := hs.listed.touches hs.layout (List.Sublist.refl _) ht fun b hb => (hout b hb).2
  refine ⟨⟨hs.layout.of_eq rfl rfl, htag, hs.apart, hlist.chain, hlist.perm⟩, ?_, by simpa using htag, hs.apart,
    isChain_nil, hlist.chain, by simpa using hlist.perm⟩
  refine ⟨hs.layout.start_pos, hs.layout.start_al, hmax, ?_, fun b hb => ?_⟩
  · exact Tiles.append.2 ⟨h.stop, hs.layout.tiles, rfl, rfl⟩
  rcases mem_append.1 hb with hb | hb
  · exact hs.layout.good b hb
  rw [mem_singleton] at hb
  subst hb
  exact ⟨hal, hsize.2, by dsimp only; omega, by dsimp only; omega⟩

/-- The heap with a batch of pages more, its list rewritten. -/
abbrev Heap.grown (h : Heap) (pages : Nat) (m : Mem) (head : Nat) : Heap :=
  { h.relinked m head with stop := h.stop + pages * PAGE_SIZE }

/-- A batch behind a free block is added to it. -/
theorem heapCommit_behind {pre : List Block} {pb : Block} (hs : Sound h (pre ++ [pb]) fl) (hf : pb.free = true)
    (hheld : Held { h with stop := h.stop + pages * PAGE_SIZE } (pre ++ [pb]) h.stop (pages * PAGE_SIZE) [] fl) :
    ∃ m' head' fl', heapCommit h pages = h.grown pages m' head' ∧
      Sound (h.grown pages m' head') (pre ++ [⟨pb.addr, pb.size + pages * PAGE_SIZE, true⟩]) fl' ∧
      Keeps (allocs pre) h.mem m' := by
  have hend : pb.addr + pb.size = h.stop := hs.layout.tiles.around.2
  have hbefore := freeBefore_eq hs.layout (List.Sublist.refl _) hs.listed (by simp) (hs.tagged pb (by simp)) hend
  rw [if_pos hf] at hbefore
  obtain ⟨m1, head1, heq1, _, htag1, hheld1, hk1⟩ := hheld.absorb_left hf
  have hrem : freeListRemove h pb.addr = h.relinked m1 head1 := by
    have hback := freeListRemove_stop { h with stop := h.stop + pages * PAGE_SIZE } pb.addr h.stop
    rwa [heq1] at hback
  have hpre : LastNot pre := ((apart_middle_iff.1 hs.apart).2.2 hf).1
  obtain ⟨m2, heq2, hsound, hk2⟩ := hheld1.close hpre headNot_nil
  have hleft := subset_append_left (allocs pre)
  refine ⟨m2, _, _, ?_, hsound, (hk1.mono (hleft _)).trans (hk2.mono (hleft _))⟩
  unfold heapCommit
  simp only [hbefore, hrem, Heap.setTag, htag1, Block.header_size]
  have hend' : h.stop + pages * PAGE_SIZE - 16 = pb.addr + (pb.size + pages * PAGE_SIZE) - 16 := by omega
  rw [← freeListInsert_stop, hend']
  simp only [Block.header, hf, if_true]
  exact heq2

/-- The free bytes right before the end of the heap. -/
def tailFree (bs : List Block) : Nat := bs.getLast?.elim 0 fun b => if b.free then b.size else 0

@[simp] theorem tailFree_concat (bs : List Block) (b : Block) :
    tailFree (bs ++ [b]) = if b.free then b.size else 0 := by
  simp [tailFree]

theorem LastNot.tailFree (hlast : LastNot bs) : tailFree bs = 0 := by
  rcases eq_nil_or_concat bs with rfl | ⟨pre, b, rfl⟩
  · rfl
  · simp_all

/-- **The batch becomes heap.** -/
theorem heapCommit_spec (hs : Sound h bs fl) (hpages : 0 < pages)
    (hmax : h.stop + pages * PAGE_SIZE ≤ KERNEL_HEAP_MAX) (content : Mem) :
    ∃ m' head' bs' fl', heapCommit (mapped h pages content) pages = h.grown pages m' head' ∧
      Sound (h.grown pages m' head') bs' fl' ∧ allocs bs' = allocs bs ∧
      tailFree bs' = tailFree bs + pages * PAGE_SIZE ∧ Keeps (allocs bs) h.mem m' := by
  obtain ⟨hs1, hheld⟩ := hs.extend hpages hmax content
  have hmap := (hheld.layout.keeps (touches_mapped pages content hs.layout.stop_al)).mono (subset_append_left ..)
  obtain ⟨pre, pb, rfl, hf⟩ | ⟨hlast, hbefore⟩ : (∃ pre pb, bs = pre ++ [pb] ∧ pb.free = true) ∨
      LastNot bs ∧ freeBefore (mapped h pages content) h.stop = none := by
    rcases eq_nil_or_concat bs with rfl | ⟨pre, pb, rfl⟩
    · exact .inr ⟨lastNot_nil, freeBefore_start hs.layout.tiles⟩
    rw [concat_eq_append] at *
    by_cases hf : pb.free = true
    · exact .inl ⟨pre, pb, rfl, hf⟩
    have hend : pb.addr + pb.size = h.stop := hs.layout.tiles.around.2
    refine .inr ⟨by simpa using hf, ?_⟩
    rw [freeBefore_eq hs1.layout (List.Sublist.refl _) hs1.listed (by simp) (hs1.tagged pb (by simp)) hend, if_neg hf]
  · obtain ⟨m', head', fl', heq, hsound, hk⟩ := heapCommit_behind hs1 hf hheld
    exact ⟨m', head', _, fl', heq, hsound, by simp [allocs_cons, hf], by simp [hf],
      hmap.trans (by simpa [allocs, hf] using hk)⟩
  -- a block of its own, when nothing free ends where the heap does
  have hbefore : freeBefore (mapped h pages content) (mapped h pages content).stop = none := hbefore
  obtain ⟨m', heq, hsound, hk⟩ := hheld.close hlast headNot_nil
  refine ⟨m', _, _, _, ?_, hsound, by simp [allocs], by simp [hlast.tailFree],
    hmap.trans (hk.mono (subset_append_left ..))⟩
  unfold heapCommit
  simp only [hbefore, Heap.setTag]
  rw [← freeListInsert_stop]
  exact heq

/-- What an expansion leaves as it was. -/
structure Grown (h h' : Heap) (bs bs' : List Block) : Prop where
  allocs : allocs bs' = allocs bs
  ready : h'.ready = h.ready
  bytes : h'.allocatedBytes = h.allocatedBytes
  blocks : h'.allocatedBlocks = h.allocatedBlocks
  kept : Keeps (Mm.allocs bs) h.mem h'.mem

theorem Grown.refl (h : Heap) (bs : List Block) : Grown h h bs bs := ⟨rfl, rfl, rfl, rfl, .refl _ _⟩

theorem Grown.trans {h'' : Heap} {bs' bs'' : List Block} (h1 : Grown h h' bs bs') (h2 : Grown h' h'' bs' bs'') :
    Grown h h'' bs bs'' :=
  ⟨h2.allocs.trans h1.allocs, h2.ready.trans h1.ready, h2.bytes.trans h1.bytes, h2.blocks.trans h1.blocks,
    h1.kept.trans (h1.allocs ▸ h2.kept)⟩

theorem heapExpand_spec {n : Nat} (hs : Sound h bs fl) (hx : heapExpand env h n = some h') :
    ∃ bs' fl', Sound h' bs' fl' ∧ Grown h h' bs bs' ∧ tailFree bs + n ≤ tailFree bs' := by
  unfold heapExpand at hx
  dsimp only at hx
  split at hx
  · cases hx
  split at hx
  · cases hx
  split at hx
  · cases hx
  rename_i content _
  have hpos : 0 < pagesFor n := by unfold pagesFor; omega
  obtain ⟨m', head', bs', fl', heq, hsound, hal, htail, hk⟩ := heapCommit_spec hs hpos (by omega) content
  cases hx
  rw [heq]
  refine ⟨bs', fl', hsound, ⟨hal, rfl, rfl, rfl, hk⟩, ?_⟩
  unfold pagesFor PAGE_SIZE at htail
  omega

/-- An expansion by so many pages cannot be had. -/
def Refused (env : Pages) (h : Heap) (pages : Nat) : Prop :=
  KERNEL_HEAP_MAX < h.stop + pages * PAGE_SIZE ∨ env h.stop pages = none

theorem heapExpand_none {n : Nat} (hn : n ≤ batchCap) (hx : heapExpand env h n = none) : Refused env h (pagesFor n) := by
  have hbatch : pagesFor n ≤ MAX_EXPANSION_BATCH_PAGES := by
    unfold pagesFor PAGE_SIZE MAX_EXPANSION_BATCH_PAGES
    unfold batchCap MAX_EXPANSION_BATCH_PAGES PAGE_SIZE at hn
    omega
  unfold heapExpand at hx
  dsimp only at hx
  split at hx
  · omega
  split at hx
  · exact .inl ‹_›
  split at hx
  · exact .inr ‹_›
  · cases hx

end Expand

/-! ## The search -/

section Search

variable {h : Heap} {bs : List Block} {fl l : List Nat} {fuel total prev cur last : Nat} {checked : Bool} {env : Pages}

theorem Tiles.length_le : ∀ {l : List Block} {a e : Nat}, Tiles a l e → (∀ b ∈ l, b.Good) → l.length * 16 ≤ e - a
  | [], _, _, _, _ => by simp
  | b :: l, a, e, ⟨_, ht⟩, hg => by
    have := (hg b (.head _)).min
    have := ht.length_le fun c hc => hg c (.tail _ hc)
    have := ht.le
    simp only [length_cons]
    omega

theorem Layout.length_lt (hl : Layout h bs) : bs.length < h.rounds := by
  have := hl.tiles.length_le hl.good
  unfold Heap.rounds
  omega

theorem Listed.length_lt (hlist : Listed h bs fl) (hl : Layout h bs) : fl.length < h.rounds := by
  have h1 : fl.length ≤ bs.length := by
    rw [hlist.perm.length_eq, freeNodes, length_map]
    exact length_filter_le _ _
  have := hl.length_lt
  omega

/-- There is a free block at `hdr` that fits. -/
def Fits (bs : List Block) (total hdr : Nat) : Prop := ∃ b ∈ bs, b.free = true ∧ b.addr = hdr ∧ total ≤ b.size

theorem fits_of_tailFree (hpos : 0 < total) (hle : total ≤ tailFree bs) : ∃ hdr, Fits bs total hdr := by
  rcases eq_nil_or_concat bs with rfl | ⟨pre, b, rfl⟩
  · exact absurd hle (Nat.not_le.2 hpos)
  rw [concat_eq_append, tailFree_concat] at hle
  split at hle
  · exact ⟨_, b, by simp, ‹_›, rfl, hle⟩
  · omega

/-- Along the list from any of its nodes: the search ends, what it finds is a free block that fits, and it passes
none that does. -/
theorem firstFit_seg (hs : Sound h bs fl) : ∀ {l : List Nat} {fuel prev cur : Nat}, l.length < fuel →
    (∀ x ∈ l, x ∈ fl) → Seg (nodeAt h.mem) prev l cur last 0 →
    ∃ r, firstFit h checked total fuel cur = some r ∧ (∀ hdr ∈ r, Fits bs total hdr) ∧
      (r = none → ∀ x ∈ l, (tagAt h.mem (x - 16)).size < total)
  | [], fuel + 1, _, _, _, _, hseg => by
    obtain ⟨_, rfl⟩ := hseg
    refine ⟨none, ?_, by simp, by simp⟩
    unfold firstFit
    rw [if_pos rfl]
  | n :: l, fuel + 1, _, _, hlen, hsub, ⟨rfl, hne, _, hseg⟩ => by
    obtain ⟨b, hb, hf, hnode⟩ := hs.listed.mem_node (hsub _ (.head _))
    have haddr : b.node - 16 = b.addr := by unfold Block.node; omega
    have htag := hs.tagged b hb
    have hval := isValidBlock_true hs.listed hs.layout (List.Sublist.refl _) hb htag
    subst hnode
    unfold firstFit
    simp only [haddr, htag.header, Block.header_size]
    rw [if_neg hne, if_neg (by simp [hval, Block.header, hf])]
    by_cases hfit : total ≤ b.size
    · rw [if_pos hfit]
      refine ⟨some b.addr, rfl, fun hdr hh => ?_, by simp⟩
      cases hh
      exact ⟨b, hb, hf, rfl, hfit⟩
    rw [if_neg hfit]
    obtain ⟨r, heq, hr, hnone⟩ :=
      firstFit_seg hs (by simpa using hlen) (fun x hx => hsub x (.tail _ hx)) hseg
    refine ⟨r, heq, hr, fun h0 => forall_mem_cons.2 ⟨?_, hnone h0⟩⟩
    rw [haddr, htag.header, Block.header_size]
    omega

theorem firstFit_spec (hs : Sound h bs fl) (checked : Bool) (total : Nat) :
    ∃ r, firstFit h checked total h.rounds h.freeListHead = some r ∧ (∀ hdr ∈ r, Fits bs total hdr) ∧
      (r = none → ∀ hdr, ¬Fits bs total hdr) := by
  obtain ⟨last, hseg⟩ := hs.listed.chain
  obtain ⟨r, heq, hr, hnone⟩ := firstFit_seg hs (hs.listed.length_lt hs.layout) (fun _ hx => hx) hseg
  refine ⟨r, heq, hr, ?_⟩
  rintro h0 _ ⟨b, hb, hf, rfl, hfit⟩
  have hlt := hnone h0 _ (hs.listed.node_mem hb hf)
  rw [Block.node, Nat.add_sub_cancel, (hs.tagged b hb).header, Block.header_size] at hlt
  omega

/-- What the search of a heap with no block that fits ends with: full batches are had, and the next one, a batch of
what is left of the request, is refused at the heap `h'`. -/
inductive Starved (env : Pages) : Nat → Heap → Heap → Prop
  | refused {remaining : Nat} {h : Heap} (hx : heapExpand env h (min batchCap remaining) = none)
      (href : Refused env h (pagesFor (min batchCap remaining))) : Starved env remaining h h
  | batch {remaining : Nat} {h h1 h' : Heap} (hlt : batchCap < remaining) (hx : heapExpand env h batchCap = some h1)
      (hrest : Starved env (remaining - batchCap) h1 h') : Starved env remaining h h'

/-- Expansion in batches: as many rounds as the request has batches are enough, and if nothing fits then the
last expansion was refused. -/
theorem growUntil_spec (htpos : 0 < total) : ∀ {fuel remaining : Nat} {h : Heap} {bs : List Block} {fl : List Nat},
    Sound h bs fl → 0 < remaining → remaining ≤ fuel * batchCap → total ≤ tailFree bs + remaining →
    ∃ h' r bs' fl', growUntil env total fuel remaining h = some (h', r) ∧ Sound h' bs' fl' ∧ Grown h h' bs bs' ∧
      (∀ hdr ∈ r, Fits bs' total hdr) ∧ (r = none → Starved env remaining h h')
  | 0, remaining, h, bs, fl, _, hpos, hle, _ => by omega
  | fuel + 1, remaining, h, bs, fl, hs, hpos, hle, htotal => by
    have hstep : (if batchCap < remaining then batchCap else remaining) = min batchCap remaining := by split <;> omega
    unfold growUntil
    dsimp only
    rw [hstep]
    cases hx : heapExpand env h (min batchCap remaining) with
    | none =>
      exact ⟨h, none, bs, fl, rfl, hs, Grown.refl _ _, by simp,
        fun _ => .refused hx (heapExpand_none (Nat.min_le_left ..) hx)⟩
    | some h1 =>
      obtain ⟨bs1, fl1, hs1, hgrown, htail⟩ := heapExpand_spec hs hx
      obtain ⟨r, hfit, hr, hnone⟩ := firstFit_spec hs1 false total
      dsimp only
      rw [hfit]
      cases r with
      | some hdr => exact ⟨h1, some hdr, bs1, fl1, rfl, hs1, hgrown, hr, nofun⟩
      | none =>
        -- the last batch makes the tail large enough
        have hlack : ¬total ≤ tailFree bs1 := fun hle => by
          obtain ⟨hdr, hfits⟩ := fits_of_tailFree htpos hle
          exact hnone rfl hdr hfits
        -- so a full batch was taken off
        have hlt : batchCap < remaining := by omega
        rw [Nat.min_eq_left (Nat.le_of_lt hlt)] at hx ⊢
        have hmul : (fuel + 1) * batchCap = fuel * batchCap + batchCap := Nat.succ_mul _ _
        have hleft : remaining - batchCap ≤ fuel * batchCap := by omega
        rw [if_pos hlt, if_neg (by omega)]
        obtain ⟨h2, r2, bs2, fl2, heq, hs2, hgrown2, hr2, hnone2⟩ :=
          growUntil_spec htpos hs1 (by omega) hleft (by omega)
        exact ⟨h2, r2, bs2, fl2, heq, hs2, hgrown.trans hgrown2, hr2, fun h0 => .batch hlt hx (hnone2 h0)⟩

/-- **Finding a block**, in the heap or in what it can grow to. -/
theorem findBlock_spec (env : Pages) (multiBatch : Bool) (hs : Sound h bs fl) (hpos : 0 < total) :
    ∃ h' r bs' fl', findBlock env h total multiBatch = some (h', r) ∧ Sound h' bs' fl' ∧ Grown h h' bs bs' ∧
      (∀ hdr ∈ r, Fits bs' total hdr) ∧
      (r = none → multiBatch → (∀ hdr, ¬Fits bs total hdr) ∧ Starved env total h h') := by
  obtain ⟨r, hfit, hr, hmiss⟩ := firstFit_spec hs true total
  unfold findBlock
  rw [hfit]
  cases r with
  | some hdr => exact ⟨h, some hdr, bs, fl, rfl, hs, Grown.refl _ _, hr, nofun⟩
  | none =>
    by_cases hone : ¬multiBatch ∧ batchCap < total
    · rw [if_pos hone]
      exact ⟨h, none, bs, fl, rfl, hs, Grown.refl _ _, hr, fun _ hm => absurd hm hone.1⟩
    rw [if_neg hone]
    have hcap := Nat.lt_div_mul_add (a := total) (show 0 < batchCap by decide)
    have hfuel : total ≤ (total / batchCap + 1) * batchCap := by rw [Nat.succ_mul]; omega
    obtain ⟨h', r, bs', fl', heq, hs', hgrown, hr, hnone⟩ := growUntil_spec hpos hs hpos hfuel (Nat.le_add_left ..)
    exact ⟨h', r, bs', fl', heq, hs', hgrown, hr, fun h0 _ => ⟨hmiss rfl, hnone h0⟩⟩

end Search

/-! ## The calls that allocate -/

section Alloc

variable {h : Heap} {bs : List Block} {fl : List Nat} {b : Block} {m' : Mem} {env : Pages} {size x : Nat}

/-- The block for a request is in whole granules, holds its tags and has room for the request. -/
theorem totalFor_spec (size : Nat) : totalFor size % 16 = 0 ∧ 48 ≤ totalFor size ∧ size + 32 ≤ totalFor size := by
  unfold totalFor alignUp HEAP_ALIGNMENT
  omega

/-- What a call that allocates does to the allocated blocks: nothing when it gives NULL, and else it
adds one with room for the request. -/
def Adds (size : Nat) (before after : List Block) (p : Nat) : Prop :=
  (p = 0 ∧ after.Perm before) ∨ ∃ nb, nb.node = p ∧ size + 32 ≤ nb.size ∧ after.Perm (nb :: before)

/-- A call that allocates returns, leaves the heap in order and adds a block at most. -/
def Gives (h : Heap) (bs : List Block) (size : Nat) (r : Option (Heap × Nat)) : Prop :=
  ∃ h' p bs' fl', r = some (h', p) ∧ Inv h' bs' fl' ∧ h'.ready = h.ready ∧ Adds size (allocs bs) (allocs bs') p ∧
    Keeps (allocs bs) h.mem h'.mem

theorem Inv.gives_zero (hi : Inv h bs fl) (size : Nat) : Gives h bs size (some (h, 0)) :=
  ⟨h, 0, bs, fl, rfl, hi, rfl, .inl ⟨rfl, List.Perm.refl _⟩, .refl _ _⟩

theorem Counted.of_perm {l : List Block} (hb : h.allocatedBytes = (l.map (·.size)).sum)
    (hc : h.allocatedBlocks = l.length) (hp : (allocs bs).Perm l) : Counted h bs :=
  ⟨by rw [hb, (hp.map _).sum_nat], by rw [hc, hp.length_eq]⟩

theorem kmallocImpl_spec (env : Pages) (size : Nat) (multiBatch : Bool) (hi : Inv h bs fl) :
    Gives h bs size (kmallocImpl env h size multiBatch) := by
  unfold kmallocImpl
  by_cases hzero : size = 0 ∨ ¬h.ready
  · rw [if_pos hzero]
    exact hi.gives_zero size
  rw [if_neg hzero]
  by_cases hmax : requestMax < size
  · rw [if_pos hmax]
    exact hi.gives_zero size
  rw [if_neg hmax]
  obtain ⟨hal, hmin, hroom⟩ := totalFor_spec size
  obtain ⟨h1, r, bs1, fl1, hfind, hs1, hgrown, hr, -⟩ :=
    findBlock_spec env multiBatch hi.toSound (show 0 < totalFor size by omega)
  rw [hfind]
  cases r with
  | none =>
    refine ⟨h1, 0, bs1, fl1, rfl, ⟨hs1, ?_, ?_⟩, hgrown.ready, .inl ⟨rfl, by rw [hgrown.allocs]⟩, hgrown.kept⟩
    · rw [hgrown.bytes, hgrown.allocs, hi.counted.bytes]
    · rw [hgrown.blocks, hgrown.allocs, hi.counted.blocks]
  | some hdr =>
    obtain ⟨b, hb, hf, rfl, hfit⟩ := hr hdr rfl
    obtain ⟨pre, post, rfl⟩ := append_of_mem hb
    obtain ⟨m2, head2, bs2, fl2, nb, htake, hs2, haddr, hnf, hsize, hallocs, hk⟩ := takeBlock_spec hs1 hf hal hmin hfit
    have hold : allocs bs = allocs pre ++ allocs post := by
      rw [← hgrown.allocs]
      simp [allocs_cons, hf]
    have hperm : (allocs bs2).Perm (nb :: allocs bs) := by
      rw [hallocs, hold]
      exact perm_middle
    dsimp only
    rw [htake]
    refine ⟨_, _, bs2, fl2, rfl, ⟨hs2.of_eq rfl rfl rfl rfl, Counted.of_perm ?_ ?_ hperm⟩, hgrown.ready,
      .inr ⟨nb, by unfold Block.node; rw [haddr], by omega, hperm⟩, hgrown.kept.trans (hold ▸ hk)⟩
    · simp only [hgrown.bytes, hi.counted.bytes, map_cons, sum_cons]
      omega
    · simp [hgrown.blocks, hi.counted.blocks]

/-- A write between the tags of a block. -/
theorem touches_payload {m : Mem} {data : Bytes} (hg : b.Good) (hlo : b.node ≤ x) (hhi : x + data.length ≤ b.last) :
    Touches m (m.write x data) (Within b.node (b.size - 32)) := by
  intro a ha hn
  have hn : ¬(b.node ≤ a ∧ a < b.node + (b.size - 32)) := hn
  have := hg.node_al
  have := hg.last_al
  have := hg.min
  refine Mem.read_write_of_disjoint ?_
  unfold Block.last at *
  unfold Block.node at *
  omega

/-- Payloads of allocated blocks are no concern of the heap. -/
theorem Inv.payload (hi : Inv h bs fl) (hb : b ∈ bs) (hf : b.free = false)
    (hm : Touches h.mem m' (Within b.node (b.size - 32))) : Inv { h with mem := m' } bs fl := by
  obtain ⟨pre, post, rfl⟩ := append_of_mem hb
  have hg := hi.layout.good b hb
  have := hg.min
  have hb' : (⟨b.addr, b.size, false⟩ : Block) = b := by rw [← hf]
  have hwithin : Within b.node (b.size - 32) ⊆ Within b.addr b.size := by
    rintro x ⟨h1, h2⟩
    unfold Block.node at h1 h2
    exact ⟨by omega, by omega⟩
  have htag : Tagged m' b := by
    refine (hi.tagged b hb).touches hg hm ?_ ?_
    · rintro ⟨h1, _⟩
      unfold Block.node at h1
      omega
    · rintro ⟨_, h2⟩
      unfold Block.node Block.last at h2
      omega
  have hs := ((hi.toSound.hold hf).toHeld.write (hm.mono hwithin)).give (by rw [hb']; exact htag)
  rw [hb'] at hs
  exact ⟨hs, hi.counted.bytes, hi.counted.blocks⟩

theorem Inv.store (data : Bytes) (hi : Inv h bs fl) (hb : b ∈ allocs bs) (hlo : b.node ≤ x)
    (hhi : x + data.length ≤ b.last) : Inv { h with mem := h.mem.write x data } bs fl := by
  obtain ⟨hb, hf⟩ := mem_allocs.1 hb
  exact hi.payload hb hf (touches_payload (hi.layout.good b hb) hlo hhi)

theorem Block.payload_end (hroom : size + 32 ≤ b.size) : b.node + size ≤ b.last := by
  unfold Block.node Block.last
  omega

/-- A store into one payload does not change the others. -/
theorem Inv.store_keeps {l : List Block} (data : Bytes) (hi : Inv h bs fl) (hp : (allocs bs).Perm (b :: l))
    (hlo : b.node ≤ x) (hhi : x + data.length ≤ b.last) : Keeps l h.mem (h.mem.write x data) := by
  obtain ⟨hb, hf⟩ := mem_allocs.1 (hp.mem_iff.2 (.head _))
  obtain ⟨pre, post, rfl⟩ := append_of_mem hb
  rw [allocs_middle hf] at hp
  have hg := hi.layout.good b hb
  have := hg.min
  refine (hi.layout.keeps ((touches_payload hg hlo hhi).mono ?_)).mono
    ((perm_cons b).1 (hp.symm.trans perm_middle)).subset
  rintro y ⟨h1, h2⟩
  unfold Block.node at h1 h2
  exact ⟨by omega, by omega⟩

theorem kcalloc_spec (env : Pages) (num size : Nat) (hi : Inv h bs fl) :
    Gives h bs (num * size) (kcalloc env h num size) := by
  unfold kcalloc
  by_cases hzero : num = 0 ∨ size = 0
  · rw [if_pos hzero]
    exact hi.gives_zero _
  rw [if_neg hzero]
  by_cases hover : (2 ^ 64 - 1) / num < size
  · rw [if_pos hover]
    exact hi.gives_zero _
  rw [if_neg hover]
  obtain ⟨h', p, bs', fl', heq, hi', hready, hadds, hk⟩ := kmallocImpl_spec env (num * size) false hi
  unfold kmalloc
  rw [heq]
  dsimp only
  by_cases hp : p = 0
  · rw [if_pos hp]
    exact ⟨h', 0, bs', fl', rfl, hi', hready, hp ▸ hadds, hk⟩
  rw [if_neg hp]
  obtain ⟨h0, _⟩ | ⟨nb, hnode, hroom, hperm⟩ := id hadds
  · exact absurd h0 hp
  have hend : p + (replicate (num * size) (0 : UInt8)).length ≤ nb.last := by
    rw [length_replicate, ← hnode]
    exact nb.payload_end hroom
  exact ⟨_, p, bs', fl', rfl, hi'.store _ (hperm.mem_iff.2 (.head _)) (Nat.le_of_eq hnode) hend, hready,
    hadds, hk.trans (hi'.store_keeps _ hperm (Nat.le_of_eq hnode) hend)⟩

end Alloc

end Fortress.Mm
