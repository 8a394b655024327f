/-
krealloc: a block shrinks in place, grows into the free block behind it, or
is moved. In each case one allocated block stands where the old one stood.
-/
import Fortress.Mm.Alloc

namespace Fortress.Mm

open List

section Resize

variable {h : Heap} {pre post bs : List Block} {a size t : Nat} {fl : List Nat} {b nb : Block} {m' : Mem} {env : Pages}

theorem Block.header_resize (hf : b.free = false) (t : Nat) :
    ({ b.header with size := t } : Tag) = (⟨b.addr, t, false⟩ : Block).header := by
  simp [Block.header, hf]

theorem kfree_perm (hi : Inv h bs fl) (hb : b ∈ allocs bs) :
    ∃ h' bs' fl', kfree h b.node = some h' ∧ Inv h' bs' fl' ∧ h'.ready = h.ready ∧
      (allocs bs).Perm (b :: allocs bs') ∧ Keeps (allocs bs') h.mem h'.mem := by
  obtain ⟨hb, hf⟩ := mem_allocs.1 hb
  obtain ⟨pre, post, rfl⟩ := append_of_mem hb
  obtain ⟨h', bs', fl', heq, hi', hallocs, hready, hk⟩ := kfree_spec hi hf
  refine ⟨h', bs', fl', heq, hi', hready, ?_, hk⟩
  rw [hallocs, allocs_middle hf]
  exact perm_middle

/-- The tail of a block in hand becomes an allocated block of its own. -/
theorem Held.cut_allocated (ho : Held h pre a size post fl) (ht : t % 16 = 0) (hmin : 48 ≤ t) (hrem : t + 48 ≤ size)
    (hhead : Tagged h.mem ⟨a, t, false⟩) (htail : Tagged h.mem ⟨a + t, size - t, false⟩) :
    Sound h (pre ++ ⟨a, t, false⟩ :: ⟨a + t, size - t, false⟩ :: post) fl := by
  refine ⟨ho.layout.split ht hmin hrem, forall_middle (forall_middle ho.tagged htail) hhead, ?_, ho.listed.chain, ?_⟩
  · have htailApart : Apart (⟨a + t, size - t, false⟩ :: post) :=
      apart_cons_iff.2 ⟨ho.apart_post, nofun⟩
    exact apart_middle_iff.2 ⟨ho.apart_pre, htailApart, nofun⟩
  · simpa [freeNodes_cons] using ho.listed.perm

/-- A block of at least `t` bytes is in the place of `b`, the payload kept as far as one of `n` bytes has it. -/
def InPlace (h : Heap) (pre : List Block) (b : Block) (post : List Block) (t n : Nat) (h' : Heap) : Prop :=
  ∃ bs' fl' nb, Inv h' bs' fl' ∧ h'.ready = h.ready ∧ nb.addr = b.addr ∧ t ≤ nb.size ∧
    allocs bs' = allocs pre ++ nb :: allocs post ∧ Keeps (allocs pre ++ ⟨b.addr, n, false⟩ :: allocs post) h.mem h'.mem

theorem shrinkInPlace_spec (hi : Inv h (pre ++ b :: post) fl) (hf : b.free = false) (ht : t % 16 = 0) (hmin : 48 ≤ t)
    (hle : t ≤ b.size) : ∃ h', shrinkInPlace h b.addr t = some h' ∧ InPlace h pre b post t t h' := by
  have hhdr := (hi.tagged b (by simp)).header
  unfold shrinkInPlace
  simp only [hhdr, Block.header_size]
  by_cases hrem : t + 48 ≤ b.size
  · rw [if_pos (minBlock_le_sub.2 hrem)]
    have ho := (hi.toSound.hold hf).toHeld
    obtain ⟨m2, hm2⟩ : ∃ m2, m2 = cutTags h.mem b.addr t b.size HEAP_MAGIC_ALLOC 0 := ⟨_, rfl⟩
    obtain ⟨htouch, hta, htf, htr, htrf, hk⟩ := ho.cut ht hmin hrem (by decide) (by decide) hm2
    rw [cutTags, hhdr, Block.header_resize hf] at hm2
    rw [hhdr, Block.header_resize hf] at hta
    have hs := (ho.write htouch).cut_allocated ht hmin hrem ⟨hta, htf⟩ ⟨htr, htrf⟩
    have hi2 : Inv { h with mem := m2, allocatedBlocks := h.allocatedBlocks + 1 }
        ((pre ++ [⟨b.addr, t, false⟩]) ++ ⟨b.addr + t, b.size - t, false⟩ :: post) fl := by
      have hbytes := hi.counted.bytes
      have hblocks := hi.counted.blocks
      rw [allocs_middle hf] at hbytes hblocks
      rw [append_assoc, singleton_append]
      refine ⟨hs.of_eq rfl rfl rfl rfl, ?_, ?_⟩
      · simp only [allocs_append, allocs_cons, map_append, map_cons, sum_append, sum_cons,
          Bool.false_eq_true, if_false] at hbytes ⊢
        omega
      · simp only [allocs_append, allocs_cons, length_append, length_cons, Bool.false_eq_true,
          if_false] at hblocks ⊢
        omega
    obtain ⟨h', bs', fl', heq, hi', hallocs, hready, hk'⟩ := kfree_spec hi2 rfl
    have hallocs : allocs bs' = allocs pre ++ ⟨b.addr, t, false⟩ :: allocs post := by
      rw [hallocs]
      simp [allocs]
    refine ⟨h', ?_, bs', fl', ⟨b.addr, t, false⟩, hi', hready, rfl, le_rfl, hallocs, hk.trans (hallocs ▸ hk')⟩
    rw [← heq, hm2, Block.header_resize hf]
    rfl
  · rw [if_neg (mt minBlock_le_sub.1 hrem)]
    exact ⟨h, rfl, _, fl, b, hi, rfl, rfl, hle, allocs_middle hf, .refl _ _⟩

theorem Keeps.shrink {l1 l2 : List Block} {m : Mem} (h : Keeps (l1 ++ ⟨a, t, false⟩ :: l2) m m') (hle : size ≤ t) :
    Keeps (l1 ++ ⟨a, size, false⟩ :: l2) m m' := by
  refine forall_middle (h.mono (sublist_middle _ _ _).subset) fun x hlo hhi => h ⟨a, t, false⟩ (by simp) x hlo ?_
  dsimp only [Block.last] at *
  omega

/-- The block has grown to `n` bytes by some of what was free behind it. -/
theorem Inv.grown {rest : List Block} {fl' : List Nat} {head' n : Nat} (hi : Inv h (pre ++ b :: nb :: post) fl)
    (hf : b.free = false) (hnf : nb.free = true) (hn : b.size ≤ n) (hle : t ≤ n) (hrest : allocs rest = allocs post)
    (hs : Sound (h.relinked m' head') (pre ++ ⟨b.addr, n, false⟩ :: rest) fl')
    (hk : Keeps (allocs pre ++ ⟨b.addr, b.size, false⟩ :: allocs post) h.mem m') :
    InPlace h pre b post t b.size
      { h.relinked m' head' with allocatedBytes := h.allocatedBytes + (n - b.size) } := by
  have hall : allocs (pre ++ ⟨b.addr, n, false⟩ :: rest) = allocs pre ++ ⟨b.addr, n, false⟩ :: allocs post := by
    rw [allocs_middle rfl, hrest]
  have hcb := hi.counted.bytes
  have hcn := hi.counted.blocks
  rw [allocs_middle hf, allocs_cons, if_pos hnf] at hcb hcn
  refine ⟨_, fl', ⟨b.addr, n, false⟩, ⟨hs.of_eq rfl rfl rfl rfl, ?_, ?_⟩, rfl, rfl, hle, hall, hk⟩
  · simp only [hall, hcb, map_append, map_cons, sum_append, sum_cons]
    omega
  · simpa [hall] using hcn

/-- **Growing into the free block behind.** -/
theorem growInPlace_spec (hi : Inv h (pre ++ b :: nb :: post) fl) (hf : b.free = false) (hnf : nb.free = true)
    (ht : t % 16 = 0) (hmin : 48 ≤ t) (hgt : b.size < t) (hle : t ≤ b.size + nb.size) :
    InPlace h pre b post t b.size (growInPlace h b.addr t) := by
  have hhdr := (hi.tagged b (by simp)).header
  have hadj : nb.addr = b.addr + b.size := hi.layout.tiles.around.2.1
  have hnhdr : tagAt h.mem (b.addr + b.size) = nb.header := hadj ▸ (hi.tagged nb (by simp)).header
  have ho := hi.toSound.hold hf
  have hpost : HeadNot post := (apart_cons_iff.1 ho.apart_post).2 hnf
  obtain ⟨m1, head1, heq1, hta1, _, hheld1, hk1⟩ := ho.toHeld.absorb_right hnf
  rw [hhdr] at hta1
  rw [hadj] at heq1
  have hg := hheld1.good
  obtain ⟨hal, hsz, _, hbd⟩ := hheld1.bounds
  unfold growInPlace
  simp only [hhdr, hnhdr, Block.header_size, heq1]
  by_cases hrem : t + 48 ≤ b.size + nb.size
  · rw [if_pos (minBlock_le_sub.2 hrem)]
    obtain ⟨m2, hm2⟩ : ∃ m2, m2 = cutTags m1 b.addr t (b.size + nb.size) HEAP_MAGIC_FREE 1 := ⟨_, rfl⟩
    obtain ⟨htouch, hta, htf, htr, htrf, hk2⟩ := hheld1.cut ht hmin hrem (by decide) (by decide) hm2
    obtain ⟨m3, heq3, hta3, htf3, hheld3, hk3⟩ := (hheld1.write htouch).split ht hmin hrem ⟨htr, htrf⟩ hpost
    have htag : Tagged m3 ⟨b.addr, t, false⟩ := by
      refine ⟨?_, htf3.trans htf⟩
      rw [← Block.header_resize hf, ← hta1]
      exact hta3.trans hta
    have hgrown := hi.grown hf hnf (Nat.le_of_lt hgt) (Nat.le_refl t) (by simp [allocs_cons]) (hheld3.give htag)
      (hk1.trans ((hk2.trans hk3).shrink (Nat.le_of_lt hgt)))
    unfold cutTags at hm2
    simpa only [Heap.setTag, ← hm2, heq3] using hgrown
  rw [if_neg (mt minBlock_le_sub.1 hrem)]
  have hlast : (b.addr + (b.size + nb.size) - 16) % 16 = 0 := by omega
  obtain ⟨m2, hm2⟩ : ∃ m2, m2 = putTag m1 b.addr { tagAt m1 b.addr with size := b.size + nb.size } := ⟨_, rfl⟩
  have hta2 : tagAt m2 b.addr = (⟨b.addr, b.size + nb.size, false⟩ : Block).header := by
    rw [hm2, tagAt_putSize (by omega), hta1, Block.header_resize hf]
  obtain ⟨m3, hm3⟩ : ∃ m3, m3 = putTag m2 (b.addr + (b.size + nb.size) - 16)
    ⟨HEAP_MAGIC_FOOTER, 0, b.size + nb.size⟩ := ⟨_, rfl⟩
  have htouch : Touches m1 m3 (Within b.addr (b.size + nb.size)) := by
    rw [hm3, hm2]
    exact ((Touches.refl _ _).put hal (by omega)).put hlast (by omega)
  have htag : Tagged m3 ⟨b.addr, b.size + nb.size, false⟩ := by
    rw [hm3]
    exact tagged_put (b := ⟨b.addr, b.size + nb.size, false⟩) hg hta2
  have hput : ∀ {m : Mem} {x : Nat} {tag : Tag}, x % 16 = 0 → b.addr ≤ x ∧ x < b.addr + (b.size + nb.size) →
      x < b.addr + 16 ∨ b.addr + b.size - 16 ≤ x →
      Keeps (allocs pre ++ ⟨b.addr, b.size, false⟩ :: allocs post) m (putTag m x tag) :=
    fun hx => hheld1.layout.keeps_tag ho.good hx
  have hkept : Keeps (allocs pre ++ ⟨b.addr, b.size, false⟩ :: allocs post) h.mem m3 := by
    rw [hm3, hm2]
    exact (hk1.trans (hput hal (by omega) (by omega))).trans (hput hlast (by omega) (by omega))
  have hgrown := hi.grown hf hnf (Nat.le_add_right ..) hle rfl ((hheld1.write htouch).give htag) hkept
  simpa only [Heap.setTag, ← hm2, ← hm3] using hgrown

/-- What a call that resizes does to the allocated blocks: nothing when it gives NULL, and else a block
with room for the request takes the old one's place. -/
def Swaps (b : Block) (size : Nat) (before after : List Block) (p : Nat) : Prop :=
  (p = 0 ∧ after.Perm before) ∨
    ∃ nb rest, nb.node = p ∧ size + 32 ≤ nb.size ∧ before.Perm (b :: rest) ∧ after.Perm (nb :: rest)

/-- What it does to the contents: those of the other blocks stay, those of the block too when it gives NULL, and
else they are in the new one as far as both reach. -/
structure Carries (b : Block) (size : Nat) (l : List Block) (m m' : Mem) (p : Nat) : Prop where
  others : Keeps (l.erase b) m m'
  failed : p = 0 → Keeps l m m'
  moved : p ≠ 0 → m'.read p (min (b.size - 32) size) = m.read b.node (min (b.size - 32) size)

/-- A call that resizes `b` returns and leaves the heap in order. -/
def Resizes (h : Heap) (bs : List Block) (b : Block) (size : Nat) (r : Option (Heap × Nat)) : Prop :=
  ∃ h' p bs' fl', r = some (h', p) ∧ Inv h' bs' fl' ∧ h'.ready = h.ready ∧
    Swaps b size (allocs bs) (allocs bs') p ∧ Carries b size (allocs bs) h.mem h'.mem p

theorem InPlace.resizes {h' : Heap} {n : Nat} (hip : InPlace h pre b post (totalFor size) n h')
    (hold : allocs bs = allocs pre ++ b :: allocs post) (hn : min (b.size - 32) size + 32 ≤ n) :
    Resizes h bs b size (some (h', b.node)) := by
  obtain ⟨bs', fl', nb, hi', hready, haddr, hfit, hnew, hk⟩ := hip
  have hroom := (totalFor_spec size).2.2
  refine ⟨h', b.node, bs', fl', rfl, hi', hready,
    .inr ⟨nb, allocs pre ++ allocs post, by unfold Block.node; rw [haddr], by omega, ?_, ?_⟩, ?_,
    fun h0 => by unfold Block.node at h0; omega, fun _ => ?_⟩
  · rw [hold]
    exact perm_middle
  · rw [hnew]
    exact perm_middle
  · exact (hk.mono (sublist_middle _ _ _).subset).mono (perm_erase_middle (.of_eq hold)).subset
  refine Mem.read_congr fun x hlo hhi => hk ⟨b.addr, n, false⟩ (by simp) x hlo ?_
  unfold Block.node at hhi
  dsimp only [Block.last]
  omega

theorem moveBlock_spec (env : Pages) (size : Nat) (hi : Inv h bs fl) (hb : b ∈ allocs bs) :
    Resizes h bs b size (moveBlock env h b.node (b.size - 16 - 16) size) := by
  obtain ⟨h₁, p, bs1, fl1, heq1, hi1, hready1, hadds, hk1⟩ := kmallocImpl_spec env size false hi
  unfold moveBlock kmalloc
  rw [heq1]
  dsimp only
  by_cases hp : p = 0
  · rw [if_pos hp]
    refine ⟨h₁, 0, bs1, fl1, rfl, hi1, hready1, .inl ⟨rfl, ?_⟩, hk1.mono erase_subset, fun _ => hk1, absurd rfl⟩
    obtain ⟨_, hperm⟩ | ⟨nb, hnode, _⟩ := hadds
    · exact hperm
    unfold Block.node at hnode
    omega
  rw [if_neg hp]
  obtain ⟨h0, _⟩ | ⟨nb, hnode, hroom, hperm⟩ := hadds
  · exact absurd h0 hp
  have hnb : nb ∈ allocs bs1 := hperm.mem_iff.2 (.head _)
  have hb1 : b ∈ allocs bs1 := hperm.mem_iff.2 (.tail _ hb)
  obtain ⟨k, hk⟩ : ∃ k, min (b.size - 32) size = k := ⟨_, rfl⟩
  have hend : p + (h₁.mem.read b.node k).length ≤ nb.last := by
    have := nb.payload_end hroom
    rw [Mem.length_read]
    omega
  have hi2 := hi1.store _ hnb (Nat.le_of_eq hnode) hend
  have hk2 := hi1.store_keeps _ hperm (Nat.le_of_eq hnode) hend
  rw [Nat.sub_sub, hk]
  obtain ⟨h3, bs3, fl3, heq3, hi3, hready3, hperm3, hk3⟩ := kfree_perm hi2 hb1
  rw [heq3]
  -- the old block is the one that went, the new one the one that came
  have h1 : (b :: allocs bs3).Perm (nb :: b :: (allocs bs).erase b) :=
    hperm3.symm.trans (hperm.trans ((perm_cons _).2 (perm_cons_erase hb)))
  have hnew : (allocs bs3).Perm (nb :: (allocs bs).erase b) := (perm_cons _).1 (h1.trans (List.Perm.swap _ _ _))
  refine ⟨h3, p, bs3, fl3, rfl, hi3, hready3.trans hready1,
    .inr ⟨nb, (allocs bs).erase b, hnode, hroom, perm_cons_erase hb, hnew⟩, ?_, fun h0 => absurd h0 hp, fun _ => ?_⟩
  · exact ((hk1.trans hk2).mono erase_subset).trans
      (hk3.mono fun c hc => hnew.mem_iff.2 (.tail _ hc))
  rw [hk]
  calc h3.mem.read p k = (h₁.mem.write p (h₁.mem.read b.node k)).read p k := by
        refine Mem.read_congr fun x hlo hhi => hk3 nb (hnew.mem_iff.2 (.head _)) x (by omega) ?_
        rw [Mem.length_read] at hend
        omega
    _ = h₁.mem.read b.node k := by
        have := Mem.read_write h₁.mem p (h₁.mem.read b.node k)
        rwa [Mem.length_read] at this
    _ = h.mem.read b.node k := by
        refine Mem.read_congr fun x hlo hhi => hk1 b hb x hlo ?_
        unfold Block.node at hlo hhi
        unfold Block.last
        omega

/-- **krealloc** of an allocated block to a size that is not zero. -/
theorem krealloc_spec (env : Pages) (hi : Inv h bs fl) (hb : b ∈ allocs bs) (hne : size ≠ 0) :
    Resizes h bs b size (krealloc env h b.node size) := by
  obtain ⟨hmem, hf⟩ := mem_allocs.1 hb
  have hg := hi.layout.good b hmem
  obtain ⟨hlo, hhi⟩ := hi.layout.tiles.bounds b hmem
  have hgmin := hg.min
  have hval := isValidBlock_true hi.listed hi.layout (List.Sublist.refl _) hmem (hi.tagged b hmem)
  have hhdr := (hi.tagged b hmem).header
  have hsub : b.node - 16 = b.addr := by unfold Block.node; omega
  obtain ⟨hal, hmin, hroom⟩ := totalFor_spec size
  unfold krealloc
  simp only [hsub, hhdr, Block.header_size, hval]
  rw [if_neg (by unfold Block.node; omega), if_neg hne, if_neg (by unfold Block.node; omega),
    if_neg (by simp [Block.header, hf])]
  by_cases hmax : requestMax < size
  · rw [if_pos hmax]
    exact ⟨h, 0, bs, fl, rfl, hi, rfl, .inl ⟨rfl, List.Perm.refl _⟩, .refl _ _, fun _ => .refl _ _, absurd rfl⟩
  rw [if_neg hmax]
  obtain ⟨pre, post, rfl⟩ := append_of_mem hmem
  by_cases hfit : totalFor size ≤ b.size
  · rw [if_pos hfit]
    obtain ⟨h', heq, hip⟩ := shrinkInPlace_spec hi hf hal hmin hfit
    rw [heq]
    exact hip.resizes (allocs_middle hf) (by omega)
  rw [if_neg hfit]
  by_cases hgrow : b.addr + b.size < h.stop ∧ isValidBlock h (b.addr + b.size) ∧
      (tagAt h.mem (b.addr + b.size)).isFree = 1 ∧ totalFor size ≤ b.size + (tagAt h.mem (b.addr + b.size)).size
  · rw [if_pos hgrow]
    obtain ⟨hlt, _, hfree, hle⟩ := hgrow
    cases post with
    | nil =>
      have hend : b.addr + b.size = h.stop := hi.layout.tiles.around.2
      omega
    | cons nb post =>
      have hadj : nb.addr = b.addr + b.size := hi.layout.tiles.around.2.1
      have hnhdr : tagAt h.mem (b.addr + b.size) = nb.header := hadj ▸ (hi.tagged nb (by simp)).header
      rw [hnhdr] at hfree hle
      have hnf : nb.free = true := by
        by_contra hc
        simp [Block.header, hc] at hfree
      refine (growInPlace_spec hi hf hnf hal hmin (by omega) hle).resizes ?_ (by omega)
      rw [allocs_middle hf, allocs_cons, if_pos hnf]
  · rw [if_neg hgrow]
    exact moveBlock_spec env size hi hb

end Resize

end Fortress.Mm
