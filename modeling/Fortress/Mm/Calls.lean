/-
The calls of the heap, one lemma each: in a heap in order a call returns, the
heap is in order again, and the allocated blocks are those from before with
the one that was asked for or given back.
-/
import Fortress.Mm.Blocks

namespace Fortress.Mm

section Tags

variable {m m' : Mem} {a size x y : Nat} {t : Tag} {b : Block}

theorem tagAt_putTag_ne (hx : x % 16 = 0) (hy : y % 16 = 0) (hne : y ≠ x) : tagAt (putTag m x t) y = tagAt m y :=
  (touches_putTag hx).tag hy hne

theorem Touches.put (h : Touches m m' (Within a size)) (hx : x % 16 = 0) (hin : a ≤ x ∧ x < a + size) :
    Touches m (putTag m' x t) (Within a size) := by
  refine (h.trans (touches_putTag hx)).mono ?_
  rintro z (hz | rfl)
  · exact hz
  · exact hin

theorem tagged_put (hg : b.Good) (hh : tagAt m b.addr = b.header) : Tagged (putTag m b.last b.footer) b := by
  have := hg.min
  refine ⟨?_, tagAt_putTag (Block.footer_fits hg)⟩
  rw [tagAt_putTag_ne hg.last_al hg.addr (by unfold Block.last; omega), hh]

end Tags

section Free

variable {h h' : Heap} {pre post : List Block} {a size : Nat} {fl : List Nat} {b : Block}

/-- Soundness is about the memory, the ends and the list only. -/
theorem Sound.of_eq {bs : List Block} (hs : Sound h bs fl) (hm : h'.mem = h.mem) (h1 : h'.start = h.start)
    (h2 : h'.stop = h.stop) (h3 : h'.freeListHead = h.freeListHead) : Sound h' bs fl :=
  ⟨hs.layout.of_eq h1 h2, by rw [hm]; exact hs.tagged, hs.apart, by rw [hm, h3]; exact hs.listed.chain,
    hs.listed.perm⟩

/-- **Closing a block as free** with both its tags written first. -/
theorem Held.close (ho : Held h pre a size post fl) (hpre : LastNot pre) (hpost : HeadNot post) :
    ∃ m', freeListInsert { h with
        mem := putTag (putTag h.mem a ⟨HEAP_MAGIC_FREE, 1, size⟩) (a + size - 16) ⟨HEAP_MAGIC_FOOTER, 1, size⟩ } a =
          h.relinked m' (a + 16) ∧
      Sound (h.relinked m' (a + 16)) (pre ++ ⟨a, size, true⟩ :: post) ((a + 16) :: fl) ∧
      Keeps (allocs pre ++ allocs post) h.mem m' := by
  have hg : (⟨a, size, true⟩ : Block).Good := { ho.good with }
  obtain ⟨hal, hsz, hmin, _⟩ := ho.bounds
  obtain ⟨m1, hm1⟩ : ∃ m1, m1 = putTag h.mem a ⟨HEAP_MAGIC_FREE, 1, size⟩ := ⟨_, rfl⟩
  obtain ⟨m2, hm2⟩ : ∃ m2, m2 = putTag m1 (a + size - 16) ⟨HEAP_MAGIC_FOOTER, 1, size⟩ := ⟨_, rfl⟩
  have hm : Touches h.mem m2 (Within a size) := by
    rw [hm2, hm1]
    exact ((Touches.refl _ _).put hal (by omega)).put (by omega) (by omega)
  have htag : Tagged m2 ⟨a, size, true⟩ := by
    rw [hm2]
    refine tagged_put (b := ⟨a, size, true⟩) hg ?_
    rw [hm1]
    exact tagAt_putTag (Block.header_fits hg)
  obtain ⟨m', heq, hsound, hk⟩ := (ho.write hm).give_free htag hpre hpost
  refine ⟨m', ?_, hsound, (ho.layout.keeps hm).trans hk⟩
  rw [← hm1, ← hm2, heq]

theorem sealFree_spec (ho : Open h pre a size post fl) (hpre : LastNot pre) (hpost : HeadNot post) :
    ∃ m', sealFree h a = h.relinked m' (a + 16) ∧
      Sound (h.relinked m' (a + 16)) (pre ++ ⟨a, size, true⟩ :: post) ((a + 16) :: fl) ∧
      Keeps (allocs pre ++ allocs post) h.mem m' := by
  obtain ⟨m', heq, hsound⟩ := ho.close hpre hpost
  refine ⟨m', ?_, hsound⟩
  rw [← heq]
  unfold sealFree
  simp only [Heap.setTag]
  rw [tagAt_putState (by decide) (by decide)]
  simp only [ho.header]

theorem allocs_middle (hb : b.free = false) : allocs (pre ++ b :: post) = allocs pre ++ b :: allocs post := by
  simp [allocs_cons, hb]

theorem kfree_spec (hi : Inv h (pre ++ b :: post) fl) (hb : b.free = false) :
    ∃ h' bs' fl', kfree h b.node = some h' ∧ Inv h' bs' fl' ∧ allocs bs' = allocs pre ++ allocs post ∧
      h'.ready = h.ready ∧ Keeps (allocs bs') h.mem h'.mem := by
  have hmem : b ∈ pre ++ b :: post := by simp
  have hg := hi.layout.good b hmem
  obtain ⟨hlo, hhi⟩ := hi.layout.tiles.bounds b hmem
  have := hg.min
  have hval := isValidBlock_true hi.listed hi.layout (List.Sublist.refl _) hmem (hi.tagged b hmem)
  have hhdr := (hi.tagged b hmem).header
  set h0 : Heap := { h with
    allocatedBytes := h.allocatedBytes - b.size, allocatedBlocks := h.allocatedBlocks - 1 } with hh0
  have hs0 : Sound h0 (pre ++ b :: post) fl := hi.toSound.of_eq rfl rfl rfl rfl
  obtain ⟨m1, head1, size1, post1, fl1, heq1, ho1, hpost1, hal1, hk1⟩ := absorbRight_spec (hs0.hold hb)
  obtain ⟨m2, head2, pre2, a2, size2, fl2, heq2, ho2, hpre2, hal2, hk2⟩ := absorbLeft_spec ho1
  obtain ⟨m3, heq3, hs3, hk3⟩ := sealFree_spec ho2 hpre2 hpost1
  rw [hal1] at hk2
  rw [hal2, hal1] at hk3
  have hallocs : allocs (pre2 ++ ⟨a2, size2, true⟩ :: post1) = allocs pre ++ allocs post := by
    simp [allocs_cons, hal1, hal2]
  refine ⟨_, _, _, ?_, ⟨hs3, ?_, ?_⟩, hallocs, rfl, hallocs ▸ (hk1.trans hk2).trans hk3⟩
  · have hsub : b.node - 16 = b.addr := by unfold Block.node; omega
    have hal : b.node % HEAP_ALIGNMENT = 0 := hg.node_al
    unfold kfree
    simp only [hsub, hhdr, Block.header_size, hval]
    rw [if_neg (by unfold Block.node; omega), if_neg (by unfold Block.node; omega), if_neg (not_not.2 hal),
      if_neg (by simp), if_neg (by simp [Block.header, hb]), ← hh0, heq1, heq2]
    simp only [heq3]
  · have hc := hi.counted.bytes
    rw [allocs_middle hb] at hc
    simp only [hallocs, hh0, hc, List.map_append, List.map_cons, List.sum_append, List.sum_cons]
    omega
  have hc := hi.counted.blocks
  rw [allocs_middle hb] at hc
  simp only [hallocs, hh0, hc, List.length_append, List.length_cons]
  omega

end Free

/-! ## kmalloc -/

section Alloc

variable {h : Heap} {pre post bs : List Block} {a size t : Nat} {fl : List Nat} {b : Block} {env : Pages}

/-- The writes that cut a block in two, the front one's state apart. -/
def cutTags (m : Mem) (a t size magic free : Nat) : Mem :=
  putTag (putTag (putTag (putTag m a { tagAt m a with size := t }) (a + t - 16) ⟨HEAP_MAGIC_FOOTER, 0, t⟩) (a + t)
    ⟨magic, free, size - t⟩) (a + t + (size - t) - 16) ⟨HEAP_MAGIC_FOOTER, free, size - t⟩

theorem minBlock_le_sub : HEAP_MIN_BLOCK_SZ ≤ size - t ↔ t + 48 ≤ size := by
  unfold HEAP_MIN_BLOCK_SZ
  omega

/-- The tags of a block in hand that is cut in two. -/
theorem Held.cut (ho : Held h pre a size post fl) (ht : t % 16 = 0) (hmin : 48 ≤ t) (hrem : t + 48 ≤ size)
    {x y : Nat} (hx : x < 2 ^ 32) (hy : y < 2 ^ 32) {m' : Mem} (hm' : m' = cutTags h.mem a t size x y) :
    Touches h.mem m' (Within a size) ∧ tagAt m' a = { tagAt h.mem a with size := t } ∧
      tagAt m' (a + t - 16) = ⟨HEAP_MAGIC_FOOTER, 0, t⟩ ∧ tagAt m' (a + t) = ⟨x, y, size - t⟩ ∧
      tagAt m' (a + t + (size - t) - 16) = ⟨HEAP_MAGIC_FOOTER, y, size - t⟩ ∧
      Keeps (allocs pre ++ ⟨a, t, false⟩ :: allocs post) h.mem m' := by
  obtain ⟨hal, hsz, _, hbd⟩ := ho.bounds
  have h1 : (a + t - 16) % 16 = 0 := by omega
  have h2 : (a + t) % 16 = 0 := by omega
  have h3 : (a + t + (size - t) - 16) % 16 = 0 := by omega
  have hfm : HEAP_MAGIC_FOOTER < 2 ^ 32 := by decide
  subst hm'
  unfold cutTags
  have hk : ∀ {m : Mem} {x : Nat} {tag : Tag}, x % 16 = 0 → a ≤ x ∧ x < a + size → x < a + 16 ∨ a + t - 16 ≤ x →
      Keeps (allocs pre ++ ⟨a, t, false⟩ :: allocs post) m (putTag m x tag) :=
    fun hx => ho.layout.keeps_tag ⟨hal, ht, hmin, by dsimp only; omega⟩ hx
  refine ⟨?_, ?_, ?_, ?_, ?_, (((hk hal ?_ ?_).trans (hk h1 ?_ ?_)).trans (hk h2 ?_ ?_)).trans (hk h3 ?_ ?_)⟩
  · exact ((((Touches.refl _ _).put hal (by omega)).put h1 (by omega)).put h2 (by omega)).put h3 (by omega)
  · rw [tagAt_putTag_ne h3 hal (by omega), tagAt_putTag_ne h2 hal (by omega), tagAt_putTag_ne h1 hal (by omega),
      tagAt_putSize (by omega)]
  · rw [tagAt_putTag_ne h3 h1 (by omega), tagAt_putTag_ne h2 h1 (by omega),
      tagAt_putTag ⟨hfm, Nat.two_pow_pos 32, by dsimp only; omega⟩]
  · rw [tagAt_putTag_ne h3 h2 (by omega), tagAt_putTag ⟨hx, hy, by dsimp only; omega⟩]
  · rw [tagAt_putTag ⟨hfm, hy, by dsimp only; omega⟩]
  all_goals omega

/-- Header and footer of a block in hand say that it is allocated. -/
theorem Held.mark (ho : Held h pre a size post fl) (hh : (tagAt h.mem a).size = size)
    (hf : tagAt h.mem (a + size - 16) = ⟨HEAP_MAGIC_FOOTER, 0, size⟩) :
    Sound { h with mem := putTag h.mem a { tagAt h.mem a with magic := HEAP_MAGIC_ALLOC, isFree := 0 } }
      (pre ++ ⟨a, size, false⟩ :: post) fl := by
  obtain ⟨hal, hsz, hmin, _⟩ := ho.bounds
  refine (ho.write ((Touches.refl _ _).put hal (by omega))).give ⟨?_, ?_⟩
  · rw [tagAt_putState (by decide) (by decide)]
    simp [Block.header, hh]
  show tagAt _ (a + size - 16) = _
  rw [tagAt_putTag_ne hal (by omega) (by omega), hf]
  rfl

theorem takeBlock_spec (hs : Sound h (pre ++ b :: post) fl) (hb : b.free = true) (ht : t % 16 = 0) (hmin : 48 ≤ t)
    (hle : t ≤ b.size) :
    ∃ m' head' bs' fl' nb, takeBlock h b.addr t = { h with
        mem := m', freeListHead := head', allocatedBytes := h.allocatedBytes + nb.size,
        allocatedBlocks := h.allocatedBlocks + 1 } ∧
      Sound (h.relinked m' head') bs' fl' ∧
      nb.addr = b.addr ∧ nb.free = false ∧ t ≤ nb.size ∧ allocs bs' = allocs pre ++ nb :: allocs post ∧
      Keeps (allocs pre ++ allocs post) h.mem m' := by
  obtain ⟨m1, head1, heq1, htag1, ho, hpre, hpost, hk⟩ := hs.take hb
  obtain ⟨hal, hsz, _, hbd⟩ := ho.bounds
  have hsize : (tagAt m1 b.addr).size = b.size := ho.header
  by_cases hrem : t + 48 ≤ b.size
  · -- cut in two, the tail back on the list
    obtain ⟨m2, hm2⟩ : ∃ m2, m2 = cutTags m1 b.addr t b.size HEAP_MAGIC_FREE 1 := ⟨_, rfl⟩
    obtain ⟨htouch, hta, htf, htr, htrf, hk2⟩ := ho.toHeld.cut ht hmin hrem (by decide) (by decide) hm2
    obtain ⟨m3, heq3, hta3, htf3, hheld, hk3⟩ := (ho.toHeld.write htouch).split ht hmin hrem ⟨htr, htrf⟩ hpost
    have hsound := hheld.mark (by rw [hta3, hta]) (by rw [htf3, htf])
    have hkept := hk.trans ((hk2.trans hk3).mono (sublist_middle _ _ _).subset)
    refine ⟨_, _, _, _, ⟨b.addr, t, false⟩, ?_, hsound, rfl, rfl, le_rfl, ?_,
      hkept.trans (ho.layout.keeps ((Touches.refl _ _).put hal (by dsimp only; omega)))⟩
    · unfold cutTags at hm2
      unfold takeBlock
      simp only [heq1, hsize, if_pos (minBlock_le_sub.2 hrem), Heap.setTag, ← hm2, heq3]
      rw [tagAt_putState (by decide) (by decide), hta3, hta]
    · simp [allocs_cons]
  -- whole
  have hlast : (b.addr + b.size - 16) % 16 = 0 := by omega
  have hfoot : tagAt m1 (b.addr + b.size - 16) = ⟨HEAP_MAGIC_FOOTER, 1, b.size⟩ := by
    have := htag1.footer
    simpa [Block.last, Block.footer, hb] using this
  set m2 := putTag m1 (b.addr + b.size - 16) { tagAt m1 (b.addr + b.size - 16) with isFree := 0 } with hm2
  have hta : tagAt m2 b.addr = tagAt m1 b.addr := tagAt_putTag_ne hlast hal (by omega)
  have htf : tagAt m2 (b.addr + b.size - 16) = ⟨HEAP_MAGIC_FOOTER, 0, b.size⟩ := by
    rw [hm2, hfoot]
    exact tagAt_putTag
      ⟨by show HEAP_MAGIC_FOOTER < 2 ^ 32; decide, by show 0 < 2 ^ 32; decide, by dsimp only; omega⟩
  have htouch : Touches m1 m2 (Within b.addr b.size) := (Touches.refl _ _).put hlast (by omega)
  have hsound := (ho.toHeld.write htouch).mark (by rw [hta, hsize]) htf
  refine ⟨_, _, _, _, ⟨b.addr, b.size, false⟩, ?_, hsound, rfl, rfl, hle, ?_,
    hk.trans (ho.layout.keeps (htouch.put hal (by omega)))⟩
  · unfold takeBlock
    simp only [heq1, hsize, if_neg (mt minBlock_le_sub.1 hrem), Heap.setTag, ← hm2]
    rw [tagAt_putState (by decide) (by decide), hta, hsize]
  · simp [allocs_cons]

end Alloc

end Fortress.Mm
