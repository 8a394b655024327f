/-
What the parts of the allocator do to the blocks: the two list operations,
the check of a block, and the steps a call takes between having a block in
its hands (`Open`) and leaving the heap in order (`Inv`).
-/
import Fortress.Mm.Tiling

namespace Fortress.Mm

open List

/-! ## List operations -/

section Lists

variable {h : Heap} {fl : List Nat} {hdr : Nat} {m : Mem}

/-- The nodes of a list that can be addressed. -/
def Addressed (fl : List Nat) : Prop := ∀ x ∈ fl, x % 16 = 0 ∧ x < 2 ^ 64

/-- The heap after the list, and with it the memory, was rewritten. -/
abbrev Heap.relinked (h : Heap) (m : Mem) (head : Nat) : Heap := { h with mem := m, freeListHead := head }

theorem nodeAt_putNode_eq {a x : Nat} {l : Link} (ha : a % 16 = 0) (hx : x % 16 = 0)
    (hn : l.next < 2 ^ 64) (hp : l.prev < 2 ^ 64) : nodeAt (putNode m a l) x = if x = a then l else nodeAt m x := by
  by_cases he : x = a
  · rw [if_pos he, he, nodeAt_putNode hn hp]
  rw [if_neg he]
  exact (touches_putNode ha).node hx he

theorem nodeAt_setPrev {a x v : Nat} (ha : a % 16 = 0) (hx : x % 16 = 0) (hv : v < 2 ^ 64) :
    nodeAt (putNode m a { nodeAt m a with prev := v }) x =
      ⟨(nodeAt m x).next, if x = a then v else (nodeAt m x).prev⟩ := by
  rw [nodeAt_putNode_eq (l := ⟨(nodeAt m a).next, v⟩) ha hx (nodeAt_lt m a).1 hv]
  split <;> simp_all

theorem freeListInsert_spec (hc : Chain (nodeAt h.mem) fl h.freeListHead) (hnd : fl.Nodup) (hal : Addressed fl)
    (hn : hdr + 16 ∉ fl) (ha : (hdr + 16) % 16 = 0) (hlt : hdr + 16 < 2 ^ 64) :
    ∃ m', freeListInsert h hdr = h.relinked m' (hdr + 16) ∧
      Chain (nodeAt m') ((hdr + 16) :: fl) (hdr + 16) ∧ Touches h.mem m' {x | x = hdr + 16 ∨ x ∈ fl} := by
  have hne : ∀ x ∈ fl, x ≠ hdr + 16 := fun x hx he => hn (he ▸ hx)
  set m1 := putNode h.mem (hdr + 16) ⟨h.freeListHead, 0⟩ with hm1
  have ht1 : Touches h.mem m1 {hdr + 16} := touches_putNode ha
  have hhead : h.freeListHead < 2 ^ 64 := by
    by_cases hh : h.freeListHead = 0
    · omega
    · exact (hal _ (hc.head_mem hh)).2
  have hnew : nodeAt m1 (hdr + 16) = ⟨h.freeListHead, 0⟩ := nodeAt_putNode hhead (Nat.two_pow_pos 64)
  have hold : ∀ x ∈ fl, nodeAt m1 x = nodeAt h.mem x := fun x hx => ht1.node (hal x hx).1 (hne x hx)
  by_cases hh : h.freeListHead = 0
  · refine ⟨m1, by simp [freeListInsert, hh, Heap.setNode, hm1], ?_, ht1.mono fun x hx => .inl hx⟩
    refine hc.cons (by omega) hn hnew (fun x hx => ?_) hnd
    rw [if_neg fun he => hc.ne_zero hx (he.trans hh), hold x hx]
  have hmem : h.freeListHead ∈ fl := hc.head_mem hh
  have hha := (hal _ hmem).1
  refine ⟨putNode m1 h.freeListHead { nodeAt m1 h.freeListHead with prev := hdr + 16 },
    by simp [freeListInsert, hh, Heap.setNode, hm1], ?_, ?_⟩
  · refine hc.cons (by omega) hn ?_ (fun x hx => ?_) hnd
    · rw [nodeAt_setPrev hha ha hlt, if_neg (hne _ hmem).symm, hnew]
    rw [nodeAt_setPrev hha (hal x hx).1 hlt, hold x hx]
    by_cases he : x = h.freeListHead
    · rw [if_pos he, if_pos he]
    · rw [if_neg he, if_neg he]
  refine (ht1.trans (touches_putNode hha)).mono ?_
  rintro x (hx | hx)
  · exact .inl hx
  · exact .inr (hx ▸ hmem)

theorem freeListRemove_links {l : Link} {m1 m2 : Mem} (hp : l.prev ≠ 0 → l.prev % 16 = 0)
    (hn : l.next ≠ 0 → l.next % 16 = 0) (hlt : l.next < 2 ^ 64 ∧ l.prev < 2 ^ 64)
    (hm1 : m1 = if l.prev = 0 then m else putNode m l.prev { nodeAt m l.prev with next := l.next })
    (hm2 : m2 = if l.next = 0 then m1 else putNode m1 l.next { nodeAt m1 l.next with prev := l.prev })
    {x : Nat} (hx : x % 16 = 0) (hx0 : x ≠ 0) :
    nodeAt m2 x = ⟨if x = l.prev then l.next else (nodeAt m x).next,
      if x = l.next then l.prev else (nodeAt m x).prev⟩ := by
  have h1 : nodeAt m1 x = ⟨if x = l.prev then l.next else (nodeAt m x).next, (nodeAt m x).prev⟩ := by
    by_cases h0 : l.prev = 0
    · rw [hm1, if_pos h0, if_neg (fun he => hx0 (he.trans h0))]
    have hprev := (nodeAt_lt m l.prev).2
    rw [hm1, if_neg h0, nodeAt_putNode_eq (l := ⟨l.next, (nodeAt m l.prev).prev⟩) (hp h0) hx hlt.1 hprev]
    split <;> simp_all
  by_cases h0 : l.next = 0
  · rw [hm2, if_pos h0, h1, if_neg (fun he : x = l.next => hx0 (he.trans h0))]
  · rw [hm2, if_neg h0, nodeAt_setPrev (hn h0) hx hlt.2, h1]

theorem freeListRemove_spec (hc : Chain (nodeAt h.mem) fl h.freeListHead) (hnd : fl.Nodup) (hal : Addressed fl)
    (hn : hdr + 16 ∈ fl) :
    ∃ m' head', freeListRemove h hdr = h.relinked m' head' ∧
      Chain (nodeAt m') (fl.erase (hdr + 16)) head' ∧ Touches h.mem m' {x | x ∈ fl} := by
  obtain ⟨hnext, hprev, _⟩ := hc.neighbours hn
  have ha := (hal _ hn).1
  have hlt := nodeAt_lt h.mem (hdr + 16)
  obtain ⟨l, hl⟩ : ∃ l, nodeAt h.mem (hdr + 16) = l := ⟨_, rfl⟩
  rw [hl] at hnext hprev hlt
  have hpa : l.prev ≠ 0 → l.prev % 16 = 0 := fun h0 => (hal _ (hprev h0).1).1
  have hna : l.next ≠ 0 → l.next % 16 = 0 := fun h0 => (hal _ (hnext h0).1).1
  obtain ⟨m1, hm1⟩ : ∃ m1, m1 = if l.prev = 0 then h.mem
    else putNode h.mem l.prev { nodeAt h.mem l.prev with next := l.next } := ⟨_, rfl⟩
  obtain ⟨m2, hm2⟩ : ∃ m2, m2 = if l.next = 0 then m1
    else putNode m1 l.next { nodeAt m1 l.next with prev := l.prev } := ⟨_, rfl⟩
  have heq : freeListRemove h hdr = { h with
      mem := putNode m2 (hdr + 16) ⟨0, 0⟩, freeListHead := if l.prev = 0 then l.next else h.freeListHead } := by
    simp only [freeListRemove, hl, Heap.setNode]
    by_cases hp : l.prev = 0 <;> by_cases hx : l.next = 0 <;> simp [hm1, hm2, hp, hx]
  refine ⟨_, _, heq, ?_, ?_⟩
  · have hlink : ∀ x ∈ fl, x ≠ hdr + 16 → nodeAt (putNode m2 (hdr + 16) ⟨0, 0⟩) x =
        ⟨if x = (nodeAt h.mem (hdr + 16)).prev then (nodeAt h.mem (hdr + 16)).next else (nodeAt h.mem x).next,
          if x = (nodeAt h.mem (hdr + 16)).next then (nodeAt h.mem (hdr + 16)).prev else (nodeAt h.mem x).prev⟩ := by
      intro x hx hxn
      rw [nodeAt_putNode_eq ha (hal x hx).1 (Nat.two_pow_pos 64) (Nat.two_pow_pos 64), if_neg hxn, hl]
      exact freeListRemove_links hpa hna hlt hm1 hm2 (hal x hx).1 (hc.ne_zero hx)
    have herase := hc.erase hn hnd hlink
    rw [hl] at herase
    exact herase
  have ht1 : Touches h.mem m1 {x | x ∈ fl} := by
    by_cases hp : l.prev = 0
    · rw [hm1, if_pos hp]
      exact .refl _ _
    · rw [hm1, if_neg hp]
      exact (touches_putNode (hpa hp)).mono fun x hx => hx ▸ (hprev hp).1
  have ht2 : Touches m1 m2 {x | x ∈ fl} := by
    by_cases hp : l.next = 0
    · rw [hm2, if_pos hp]
      exact .refl _ _
    · rw [hm2, if_neg hp]
      exact (touches_putNode (hna hp)).mono fun x hx => hx ▸ (hnext hp).1
  refine ((ht1.trans ht2).trans (touches_putNode ha)).mono ?_
  rintro x ((hx | hx) | hx)
  · exact hx
  · exact hx
  · exact hx ▸ hn

end Lists

/-! ## One list, one layout -/

section Listed

variable {h h' : Heap} {L bs pre post : List Block} {fl : List Nat} {b c : Block} {m m' : Mem} {S : Set Nat}

theorem Layout.of_eq (hl : Layout h L) (hs : h'.start = h.start) (he : h'.stop = h.stop) : Layout h' L :=
  ⟨hs ▸ hl.start_pos, hs ▸ hl.start_al, he ▸ hl.stop_le, hs ▸ he ▸ hl.tiles, hl.good⟩

theorem Listed.mem_node (hlist : Listed h bs fl) {x : Nat} (hx : x ∈ fl) : ∃ b ∈ bs, b.free = true ∧ b.node = x :=
  mem_freeNodes.1 (hlist.perm.mem_iff.1 hx)

theorem Listed.node_mem (hlist : Listed h bs fl) (hb : b ∈ bs) (hf : b.free = true) : b.node ∈ fl :=
  hlist.perm.mem_iff.2 (mem_freeNodes.2 ⟨b, hb, hf, rfl⟩)

theorem Listed.nodup (hlist : Listed h bs fl) (hl : Layout h L) (hsub : bs.Sublist L) : fl.Nodup := by
  refine hlist.perm.nodup_iff.2 ?_
  have hall := hl.tiles.nodup_addr hl.good
  exact hall.sublist ((filter_sublist.trans hsub).map _)

theorem Listed.addressed (hlist : Listed h bs fl) (hl : Layout h L) (hsub : bs.Sublist L) : Addressed fl := by
  intro x hx
  obtain ⟨b, hb, _, rfl⟩ := hlist.mem_node hx
  have hg := hl.good b (hsub.subset hb)
  have := hg.bound
  have := hg.min
  refine ⟨hg.node_al, ?_⟩
  unfold Block.node
  omega

/-- What a change of the list leaves alone in a layout: the tags, and the payloads of allocated blocks. -/
structure Framed (L : List Block) (m m' : Mem) : Prop where
  tags : ∀ c ∈ L, ∀ x, c.Mark x → tagAt m' x = tagAt m x
  kept : Keeps (allocs L) m m'

theorem Framed.tagged (hfr : Framed L m m') (hc : c ∈ L) (ht : Tagged m c) : Tagged m' c :=
  ⟨(hfr.tags c hc _ (.inl rfl)).trans ht.header, (hfr.tags c hc _ (.inr rfl)).trans ht.footer⟩

theorem Listed.framed (hlist : Listed h' bs fl) (hl : Layout h L) (hsub : bs ⊆ L) (hm : Touches m m' {x | x ∈ fl}) :
    Framed L m m' := by
  refine ⟨fun c hc x hx => hm.tag ?_ fun hxf => ?_, hm.keeps (fun b hb => hl.good b (mem_allocs.1 hb).1) ?_⟩
  · rcases hx with rfl | rfl
    · exact (hl.good c hc).addr
    · exact (hl.good c hc).last_al
  · obtain ⟨b, hb, _, rfl⟩ := hlist.mem_node hxf
    exact hl.mark_ne_node hc (hsub hb) hx rfl
  intro b hb x hx
  obtain ⟨c, hc, hcf, rfl⟩ := hlist.mem_node hx
  obtain ⟨hb, hf⟩ := mem_allocs.1 hb
  have hd := hl.apart hb (hsub hc) (by rintro rfl; simp [hf] at hcf)
  have := (hl.good c (hsub hc)).min
  unfold Block.node Block.last
  omega

theorem sublist_middle (pre post : List Block) (b : Block) : (pre ++ post).Sublist (pre ++ b :: post) :=
  (sublist_cons_self b post).append_left pre

theorem forall_middle {P : Block → Prop} (hp : ∀ c ∈ pre ++ post, P c) (hb : P b) : ∀ c ∈ pre ++ b :: post, P c := by
  simp only [forall_mem_append, forall_mem_cons] at *
  exact ⟨hp.1, hb, hp.2⟩

theorem perm_erase_middle {α : Type} [DecidableEq α] {n : α} {l l1 l2 : List α} (hp : l.Perm (l1 ++ n :: l2)) :
    (l.erase n).Perm (l1 ++ l2) := by
  have h1 : (n :: (l1 ++ l2)).Perm l := (hp.trans perm_middle).symm
  exact ((cons_perm_iff_perm_erase.1 h1).2).symm

theorem Listed.remove (hlist : Listed h (pre ++ b :: post) fl) (hf : b.free = true) (hl : Layout h L)
    (hsub : (pre ++ b :: post).Sublist L) :
    ∃ m' head', freeListRemove h b.addr = h.relinked m' head' ∧
      Listed (h.relinked m' head') (pre ++ post) (fl.erase b.node) ∧ Framed L h.mem m' := by
  have hmem : b.addr + 16 ∈ fl := hlist.node_mem (by simp) hf
  obtain ⟨m', head', heq, hchain, ht⟩ :=
    freeListRemove_spec hlist.chain (hlist.nodup hl hsub) (hlist.addressed hl hsub) hmem
  refine ⟨m', head', heq, ⟨hchain, ?_⟩, hlist.framed hl hsub.subset ht⟩
  have hp := hlist.perm
  rw [freeNodes_append, freeNodes_cons, if_pos hf] at hp
  rw [freeNodes_append]
  exact perm_erase_middle hp

theorem Listed.insert (hlist : Listed h (pre ++ post) fl) (hf : b.free = true) (hl : Layout h L)
    (hsub : (pre ++ b :: post).Sublist L) :
    ∃ m', freeListInsert h b.addr = h.relinked m' b.node ∧
      Listed (h.relinked m' b.node) (pre ++ b :: post) (b.node :: fl) ∧ Framed L h.mem m' := by
  have hg := hl.good b (hsub.subset (by simp))
  have := hg.bound
  have := hg.min
  have hsub' := (sublist_middle pre post b).trans hsub
  have hn : b.node ∉ fl := by
    intro hx
    obtain ⟨c, hc, _, he⟩ := hlist.mem_node hx
    have hnd := (hl.tiles.nodup_addr hl.good).sublist (hsub.map _)
    rw [map_append, map_cons, nodup_middle, ← map_append] at hnd
    exact (nodup_cons.1 hnd).1 (mem_map.2 ⟨c, hc, he⟩)
  obtain ⟨m', heq, hchain, ht⟩ := freeListInsert_spec hlist.chain (hlist.nodup hl hsub') (hlist.addressed hl hsub')
    hn hg.node_al (show b.addr + 16 < 2 ^ 64 by omega)
  have hlist' : Listed (h.relinked m' b.node) (pre ++ b :: post) (b.node :: fl) := by
    refine ⟨hchain, ?_⟩
    rw [freeNodes_append, freeNodes_cons, if_pos hf]
    refine List.Perm.trans ?_ perm_middle.symm
    exact (perm_cons _).2 (by simpa using hlist.perm)
  exact ⟨m', heq, hlist', hlist'.framed hl hsub.subset (ht.mono fun x hx => mem_cons.2 hx)⟩

theorem Listed.touches (hlist : Listed h bs fl) (hl : Layout h L) (hsub : bs.Sublist L) (hm : Touches h.mem m' S)
    (hS : ∀ b ∈ bs, b.node ∉ S) : Listed { h with mem := m' } bs fl := by
  refine ⟨hlist.chain.congr fun x hx => ?_, hlist.perm⟩
  obtain ⟨b, hb, _, rfl⟩ := hlist.mem_node hx
  exact hm.node (hl.good b (hsub.subset hb)).node_al (hS b hb)

theorem validLinks_true {n : Nat} (hc : Chain (nodeAt h.mem) fl h.freeListHead) (hn : n ∈ fl)
    (hrange : ∀ x ∈ fl, h.start ≤ x ∧ x < h.stop) : validLinks h n = true := by
  obtain ⟨hnext, hprev, hhead⟩ := hc.neighbours hn
  unfold validLinks
  generalize nodeAt h.mem n = l at hnext hprev hhead
  rw [Bool.and_eq_true]
  constructor
  · by_cases h0 : l.next = 0
    · simp [h0]
    obtain ⟨hm, hback⟩ := hnext h0
    simp [hrange _ hm, hback]
  by_cases h0 : l.prev = 0
  · rw [if_pos h0]
    simp [hhead h0]
  rw [if_neg h0]
  obtain ⟨hm, hback⟩ := hprev h0
  simp [hrange _ hm, hback]

/-- **The check of a block** accepts every block that is in order. -/
theorem isValidBlock_true (hlist : Listed h bs fl) (hl : Layout h L) (hsub : bs.Sublist L) (hb : b ∈ bs)
    (ht : Tagged h.mem b) : isValidBlock h b.addr = true := by
  have hbL := hsub.subset hb
  have hg := hl.good b hbL
  obtain ⟨hlo, hhi⟩ := hl.tiles.bounds b hbL
  have := hg.min
  have := hl.start_pos
  have hfoot : tagAt h.mem (b.addr + b.size - 16) = b.footer := ht.footer
  have hrange : ∀ x ∈ fl, h.start ≤ x ∧ x < h.stop := by
    intro x hx
    obtain ⟨c, hc, _, rfl⟩ := hlist.mem_node hx
    have hcb := hl.tiles.bounds c (hsub.subset hc)
    have := (hl.good c (hsub.subset hc)).min
    unfold Block.node
    omega
  unfold isValidBlock
  simp only [ht.header, Block.header_size, hfoot]
  have hal : b.addr % HEAP_ALIGNMENT = 0 := hg.addr
  have hsize : ¬(b.size < HEAP_MIN_BLOCK_SZ ∨ b.size % HEAP_ALIGNMENT ≠ 0) :=
    not_or.2 ⟨Nat.not_lt.2 hg.min, not_not.2 hg.size⟩
  rw [if_neg (by omega), if_neg (by omega), if_neg (not_not.2 hal), if_neg (by omega), if_neg hsize,
    if_neg (by omega)]
  rw [if_neg (by unfold Block.header; cases b.free <;> simp), if_neg (by unfold Block.header; cases b.free <;> simp),
    if_neg (by simp [Block.footer]), if_neg (by simp [Block.footer]), if_neg (by simp [Block.footer, Block.header])]
  by_cases hf : b.free = true
  · rw [if_pos (by simp [Block.header, hf])]
    exact validLinks_true hlist.chain (hlist.node_mem hb hf) hrange
  · rw [if_neg (by simp [Block.header, hf])]

end Listed

/-! ## A block in hand -/

section Layouts

variable {h : Heap} {pre post : List Block} {a size t : Nat} {b nb : Block} {f f' : Bool}

/-- Part of a layout is laid out anew. -/
theorem Layout.replace (mid mid' : List Block) (hl : Layout h (pre ++ (mid ++ post)))
    (hmid : ∀ x y, Tiles x mid y → Tiles x mid' y) (hg : ∀ b ∈ mid', b.Good) : Layout h (pre ++ (mid' ++ post)) := by
  have hgood := hl.good
  simp only [forall_mem_append] at hgood
  refine ⟨hl.start_pos, hl.start_al, hl.stop_le, ?_, by simpa only [forall_mem_append] using ⟨hgood.1, hg, hgood.2.2⟩⟩
  obtain ⟨x, hpre, hrest⟩ := Tiles.append.1 hl.tiles
  obtain ⟨y, hm, hpost⟩ := Tiles.append.1 hrest
  exact Tiles.append.2 ⟨x, hpre, Tiles.append.2 ⟨y, hmid x y hm, hpost⟩⟩

theorem Layout.merge (hl : Layout h (pre ++ ⟨a, size, f⟩ :: nb :: post)) :
    Layout h (pre ++ ⟨a, size + nb.size, f'⟩ :: post) := by
  have hga := hl.good ⟨a, size, f⟩ (by simp)
  have hgn := hl.good nb (by simp)
  have hadj : nb.addr = a + size := hl.tiles.around.2.1
  have h1 : size % 16 = 0 := hga.size
  have h2 := hgn.size
  have h3 : 48 ≤ size := hga.min
  have h4 := hgn.bound
  refine Layout.replace [⟨a, size, f⟩, nb] [⟨a, size + nb.size, f'⟩] hl ?_
    (forall_mem_singleton.2 ⟨hga.addr, ?_, ?_, ?_⟩)
  · rintro x y ⟨hx, _, hy⟩
    exact ⟨hx, by simpa [Tiles, Nat.add_assoc] using hy⟩
  all_goals dsimp only
  all_goals omega

theorem Layout.split {f f1 f2 : Bool} (hl : Layout h (pre ++ ⟨a, size, f⟩ :: post)) (ht : t % 16 = 0) (hmin : 48 ≤ t)
    (hrem : t + 48 ≤ size) : Layout h (pre ++ ⟨a, t, f1⟩ :: ⟨a + t, size - t, f2⟩ :: post) := by
  have hga := hl.good ⟨a, size, f⟩ (by simp)
  have h0 : a % 16 = 0 := hga.addr
  have h1 : size % 16 = 0 := hga.size
  have h2 : a + size < 2 ^ 64 := hga.bound
  refine Layout.replace [⟨a, size, f⟩] [⟨a, t, f1⟩, ⟨a + t, size - t, f2⟩] hl ?_ (forall_mem_cons.2
    ⟨⟨h0, ht, hmin, ?_⟩, forall_mem_singleton.2 ⟨?_, ?_, ?_, ?_⟩⟩)
  · rintro x y ⟨hx, hy⟩
    simp only [Tiles] at hx hy ⊢
    omega
  all_goals dsimp only
  all_goals omega

/-- The state of a block does not matter for the layout. -/
theorem Layout.flag (hl : Layout h (pre ++ ⟨a, size, f⟩ :: post)) : Layout h (pre ++ ⟨a, size, f'⟩ :: post) :=
  have hg := hl.good ⟨a, size, f⟩ (by simp)
  Layout.replace [⟨a, size, f⟩] [⟨a, size, f'⟩] hl (fun _ _ h => h) (forall_mem_singleton.2 { hg with })

end Layouts

section Open

variable {h : Heap} {pre post : List Block} {a size t : Nat} {fl : List Nat} {b nb pb : Block} {m' : Mem}

/-- The granules of a stretch of memory. -/
def Within (a size : Nat) : Set Nat := {x | a ≤ x ∧ x < a + size}

/-- Nothing of a block lies in memory that it does not overlap. -/
theorem Block.Good.outside (hg : b.Good) (a size : Nat) (hd : b.addr + b.size ≤ a ∨ a + size ≤ b.addr) :
    (∀ x, b.Mark x → x ∉ Within a size) ∧ b.node ∉ Within a size := by
  have := hg.min
  unfold Block.Mark Block.last Block.node Within
  refine ⟨?_, fun ⟨h1, h2⟩ => by omega⟩
  rintro x (rfl | rfl) ⟨h1, h2⟩ <;> omega

theorem Held.good (ho : Held h pre a size post fl) : (⟨a, size, false⟩ : Block).Good := ho.layout.good _ (by simp)

theorem Held.bounds (ho : Held h pre a size post fl) : a % 16 = 0 ∧ size % 16 = 0 ∧ 48 ≤ size ∧ a + size < 2 ^ 64 :=
  ⟨ho.good.addr, ho.good.size, ho.good.min, ho.good.bound⟩

/-- Writing within the block in hand leaves the others and the list as they are. -/
theorem Held.write (ho : Held h pre a size post fl) (hm : Touches h.mem m' (Within a size)) :
    Held { h with mem := m' } pre a size post fl := by
  have hgood : ∀ c ∈ pre ++ post, c.Good := fun c hc => ho.layout.good c ((sublist_middle pre post _).subset hc)
  have hout := fun c hc => (hgood c hc).outside a size (ho.layout.disjoint hc)
  refine ⟨ho.layout.of_eq rfl rfl, fun c hc => ?_, ho.apart_pre, ho.apart_post,
    ho.listed.touches ho.layout (sublist_middle pre post _) hm fun c hc => (hout c hc).2⟩
  exact (ho.tagged c hc).touches (hgood c hc) hm ((hout c hc).1 _ (.inl rfl)) ((hout c hc).1 _ (.inr rfl))

/-- Writing within a block leaves the payloads of the others alone. -/
theorem Layout.keeps {m : Mem} (hl : Layout h (pre ++ b :: post)) (hm : Touches m m' (Within b.addr b.size)) :
    Keeps (allocs pre ++ allocs post) m m' := by
  rw [← allocs_append]
  have hmem : ∀ c ∈ allocs (pre ++ post), c ∈ pre ++ post := fun c hc => (mem_allocs.1 hc).1
  refine hm.keeps (fun c hc => hl.good c ((sublist_middle pre post _).subset (hmem c hc))) fun c hc x ⟨h1, h2⟩ => ?_
  have hd := hl.disjoint (hmem c hc)
  unfold Block.node Block.last
  omega

/-- A tag written within a block, but not within the payload of one of size `t` in its place. -/
theorem Layout.keeps_tag {m : Mem} {x : Nat} {tag : Tag} (hl : Layout h (pre ++ ⟨a, size, false⟩ :: post))
    (hg : (⟨a, t, false⟩ : Block).Good) (hx : x % 16 = 0) (hin : a ≤ x ∧ x < a + size)
    (hout : x < a + 16 ∨ a + t - 16 ≤ x) : Keeps (allocs pre ++ ⟨a, t, false⟩ :: allocs post) m (putTag m x tag) := by
  have hm : Touches m (putTag m x tag) {x} := touches_putTag hx
  refine forall_middle (hl.keeps (hm.mono (by rintro y rfl; exact hin)))
    (hm.keeps (l := [⟨a, t, false⟩]) ?_ ?_ _ (by simp))
  · simpa using hg
  · rintro b hb y rfl
    rwa [mem_singleton.1 hb]

theorem Held.resize (ho : Held h pre a size post fl) :
    ∃ m', m' = putTag h.mem a { tagAt h.mem a with size := size } ∧ Open { h with mem := m' } pre a size post fl ∧
      Keeps (allocs pre ++ allocs post) h.mem m' := by
  obtain ⟨hal, _, _, _⟩ := ho.bounds
  have hm := (touches_putTag (m := h.mem) (t := { tagAt h.mem a with size := size }) hal).mono
    (T := Within a size) (by rintro x rfl; exact ⟨le_rfl, by omega⟩)
  exact ⟨_, rfl, ⟨ho.write hm, by rw [tagAt_putSize (by omega)]⟩, ho.layout.keeps hm⟩

/-- The free block behind is taken off the list and becomes part of the block in hand. -/
theorem Held.absorb_right (ho : Held h pre a size (nb :: post) fl) (hf : nb.free = true) :
    ∃ m' head', freeListRemove h nb.addr = h.relinked m' head' ∧
      tagAt m' a = tagAt h.mem a ∧ tagAt m' nb.addr = nb.header ∧
      Held (h.relinked m' head') pre a (size + nb.size) post (fl.erase nb.node) ∧
      Keeps (allocs pre ++ ⟨a, size, false⟩ :: allocs post) h.mem m' := by
  have hsub := sublist_middle pre (nb :: post) ⟨a, size, false⟩
  obtain ⟨m', head', heq, hlist, hfr⟩ := ho.listed.remove hf ho.layout hsub
  have htag : ∀ c ∈ pre ++ nb :: post, Tagged m' c := fun c hc => hfr.tagged (hsub.subset hc) (ho.tagged c hc)
  refine ⟨m', head', heq, hfr.tags ⟨a, size, false⟩ (by simp) _ (.inl rfl), (htag nb (by simp)).header, ?_⟩
  have hpost : Apart post := (apart_cons_iff.1 ho.apart_post).1
  exact ⟨⟨ho.layout.merge.of_eq rfl rfl, fun c hc => htag c ((sublist_middle pre post nb).subset hc),
    ho.apart_pre, hpost, hlist⟩, by simpa [allocs_cons, hf] using hfr.kept⟩

/-- The free block before is taken off the list and takes the block in hand in. -/
theorem Held.absorb_left (ho : Held h (pre ++ [pb]) a size post fl) (hf : pb.free = true) :
    ∃ m' head', freeListRemove h pb.addr = h.relinked m' head' ∧
      tagAt m' a = tagAt h.mem a ∧ tagAt m' pb.addr = pb.header ∧
      Held (h.relinked m' head') pre pb.addr (pb.size + size) post (fl.erase pb.node) ∧
      Keeps (allocs pre ++ ⟨a, size, false⟩ :: allocs post) h.mem m' := by
  have hsub : (pre ++ pb :: post).Sublist (pre ++ pb :: ⟨a, size, false⟩ :: post) := by simp
  have hlisted := ho.listed
  have hlay := ho.layout
  rw [append_assoc, singleton_append] at hlisted hlay
  obtain ⟨m', head', heq, hlist, hfr⟩ := hlisted.remove hf hlay hsub
  have htag : ∀ c ∈ pre ++ pb :: post, Tagged m' c := fun c hc =>
    hfr.tagged (hsub.subset hc) (ho.tagged c (by simpa using hc))
  refine ⟨m', head', heq, hfr.tags ⟨a, size, false⟩ (by simp) _ (.inl rfl), (htag pb (by simp)).header, ?_⟩
  have hpre : Apart pre := (apart_middle_iff.1 ho.apart_pre).1
  have hmerge : Layout h (pre ++ ⟨pb.addr, pb.size + size, false⟩ :: post) :=
    @Layout.merge h pre post pb.addr pb.size ⟨a, size, false⟩ pb.free false hlay
  exact ⟨⟨hmerge.of_eq rfl rfl, fun c hc => htag c ((sublist_middle pre post pb).subset hc), hpre, ho.apart_post,
    hlist⟩, by simpa [allocs_cons, hf] using hfr.kept⟩

/-- **Taking in what is free behind.** -/
theorem absorbRight_spec (ho : Open h pre a size post fl) :
    ∃ m' head' size' post' fl', absorbRight h a = h.relinked m' head' ∧
      Open (h.relinked m' head') pre a size' post' fl' ∧ HeadNot post' ∧
      allocs post' = allocs post ∧ Keeps (allocs pre ++ allocs post) h.mem m' := by
  cases post with
  | nil =>
    have hend : a + size = h.stop := ho.layout.tiles.around.2
    refine ⟨h.mem, h.freeListHead, size, [], fl, ?_, ho, headNot_nil, rfl, .refl _ _⟩
    unfold absorbRight
    rw [ho.header, if_neg (by omega)]
  | cons nb post =>
    have hadj : nb.addr = a + size := ho.layout.tiles.around.2.1
    have hnb : nb ∈ pre ++ nb :: post := by simp
    have htag := ho.tagged nb hnb
    have hval : isValidBlock h (a + size) = true :=
      hadj ▸ isValidBlock_true ho.listed ho.layout (sublist_middle pre (nb :: post) _) hnb htag
    have hhdr : tagAt h.mem (a + size) = nb.header := hadj ▸ htag.header
    have hin := (ho.layout.tiles.bounds nb (by simp)).2
    have := (ho.layout.good nb (by simp)).min
    by_cases hf : nb.free = true
    · obtain ⟨m', head', heq, hta, htn, hheld, hk⟩ := ho.toHeld.absorb_right hf
      obtain ⟨m'', rfl, hopen, hk'⟩ := hheld.resize
      rw [hadj] at heq htn
      have hallocs : allocs (nb :: post) = allocs post := by rw [allocs_cons, if_pos hf]
      refine ⟨_, head', size + nb.size, post, _, ?_, hopen, (apart_cons_iff.1 ho.apart_post).2 hf, hallocs.symm, ?_⟩
      · unfold absorbRight
        rw [ho.header, if_pos ⟨by omega, hval, by rw [hhdr]; simp [Block.header, hf]⟩, heq]
        simp only [Heap.setTag, htn, Block.header_size]
      · rw [hallocs]
        exact (hk.mono (sublist_middle _ _ _).subset).trans hk'
    refine ⟨h.mem, h.freeListHead, size, nb :: post, fl, ?_, ho, by simpa using hf, rfl, .refl _ _⟩
    unfold absorbRight
    rw [ho.header, if_neg]
    rintro ⟨_, _, h1⟩
    rw [hhdr] at h1
    simp [Block.header, hf] at h1

/-- The block that ends at `a`, if it is free. -/
theorem freeBefore_eq {L bs : List Block} (hl : Layout h L) (hsub : bs.Sublist L) (hlist : Listed h bs fl)
    (hpb : pb ∈ bs) (ht : Tagged h.mem pb) (ha : pb.addr + pb.size = a) :
    freeBefore h a = if pb.free then some pb.addr else none := by
  have hg := hl.good pb (hsub.subset hpb)
  have hlo := (hl.tiles.bounds pb (hsub.subset hpb)).1
  have := hg.min
  have hfoot : tagAt h.mem (a - 16) = pb.footer := by
    have := ht.footer
    rwa [Block.last, ha] at this
  have hsub' : a - pb.size = pb.addr := by omega
  unfold freeBefore
  simp only [hfoot]
  by_cases hf : pb.free = true
  · have hmin : HEAP_MIN_BLOCK_SZ ≤ pb.size := hg.min
    have hal : pb.size % HEAP_ALIGNMENT = 0 := hg.size
    have hval := isValidBlock_true hlist hl hsub hpb ht
    rw [if_pos hf, if_pos]
    · show some (a - pb.size) = some pb.addr
      rw [hsub']
    · simp only [Block.footer, hf, if_true, hsub', ht.header, hval, Block.header]
      exact ⟨by omega, by omega, trivial, trivial, hmin, hal, by omega, trivial, trivial, trivial⟩
  · rw [if_neg hf, if_neg]
    rintro ⟨_, _, _, h1, _⟩
    simp [Block.footer, hf] at h1

theorem freeBefore_start (ha : h.start = a) : freeBefore h a = none := by
  unfold freeBefore
  rw [if_neg]
  rintro ⟨h1, _⟩
  omega

/-- **Being taken in by what is free before.** -/
theorem absorbLeft_spec (ho : Open h pre a size post fl) :
    ∃ m' head' pre' a' size' fl', absorbLeft h a = (h.relinked m' head', a') ∧
      Open (h.relinked m' head') pre' a' size' post fl' ∧ LastNot pre' ∧
      allocs pre' = allocs pre ∧ Keeps (allocs pre ++ allocs post) h.mem m' := by
  rcases eq_nil_or_concat pre with rfl | ⟨pre, pb, rfl⟩
  · have hstart : h.start = a := ho.layout.tiles.around.1
    refine ⟨h.mem, h.freeListHead, [], a, size, fl, ?_, ho, lastNot_nil, rfl, .refl _ _⟩
    unfold absorbLeft
    rw [freeBefore_start hstart]
  rw [concat_eq_append] at ho ⊢
  have hadj : pb.addr + pb.size = a := by
    obtain ⟨x, _, hx, hx'⟩ := Tiles.append.1 ho.layout.tiles.around.1
    have hx' : x + pb.size = a := hx'
    omega
  have hpb : pb ∈ pre ++ [pb] ++ post := by simp
  have hbefore := freeBefore_eq ho.layout (sublist_middle (pre ++ [pb]) post _) ho.listed hpb (ho.tagged pb hpb) hadj
  by_cases hf : pb.free = true
  · obtain ⟨m', head', heq, hta, htp, hheld, hk⟩ := ho.toHeld.absorb_left hf
    obtain ⟨m'', rfl, hopen, hk'⟩ := hheld.resize
    have hallocs : allocs (pre ++ [pb]) = allocs pre := by simp [hf, allocs]
    rw [hallocs]
    refine ⟨_, head', pre, pb.addr, pb.size + size, _, ?_, hopen, ?_, rfl,
      (hk.mono (sublist_middle _ _ _).subset).trans hk'⟩
    · unfold absorbLeft
      rw [hbefore, if_pos hf]
      dsimp only
      rw [heq]
      simp only [Heap.setTag, htp, hta, Block.header_size, ho.header]
    · exact ((apart_middle_iff.1 ho.apart_pre).2.2 hf).1
  · refine ⟨h.mem, h.freeListHead, pre ++ [pb], a, size, fl, ?_, ho, by simpa using hf, rfl, .refl _ _⟩
    unfold absorbLeft
    rw [hbefore, if_neg hf]

/-- **Closing a block as allocated.** -/
theorem Held.give (ho : Held h pre a size post fl) (ht : Tagged h.mem ⟨a, size, false⟩) :
    Sound h (pre ++ ⟨a, size, false⟩ :: post) fl := by
  refine ⟨ho.layout, forall_middle ho.tagged ht, ?_, ho.listed.chain, ?_⟩
  · exact apart_middle_iff.2 ⟨ho.apart_pre, ho.apart_post, nofun⟩
  · simpa [freeNodes_cons] using ho.listed.perm

/-- **Closing a block as free.** -/
theorem Held.give_free (ho : Held h pre a size post fl) (ht : Tagged h.mem ⟨a, size, true⟩) (hpre : LastNot pre)
    (hpost : HeadNot post) :
    ∃ m', freeListInsert h a = h.relinked m' (a + 16) ∧
      Sound (h.relinked m' (a + 16)) (pre ++ ⟨a, size, true⟩ :: post) ((a + 16) :: fl) ∧
      Keeps (allocs pre ++ allocs post) h.mem m' := by
  have hlay : Layout h (pre ++ ⟨a, size, true⟩ :: post) := ho.layout.flag
  obtain ⟨m', heq, hlist, hfr⟩ := ho.listed.insert rfl hlay (List.Sublist.refl _)
  refine ⟨m', heq, ⟨hlay.of_eq rfl rfl, fun c hc => ?_, ?_, hlist⟩, by simpa [allocs_cons] using hfr.kept⟩
  · exact hfr.tagged hc (forall_middle ho.tagged ht c hc)
  · exact apart_middle_iff.2 ⟨ho.apart_pre, ho.apart_post, fun _ => ⟨hpre, hpost⟩⟩

/-- The tail of the block in hand is split off and put on the list. -/
theorem Held.split (ho : Held h pre a size post fl) (ht : t % 16 = 0) (hmin : 48 ≤ t) (hrem : t + 48 ≤ size)
    (htag : Tagged h.mem ⟨a + t, size - t, true⟩) (hpost : HeadNot post) :
    ∃ m', freeListInsert h (a + t) = h.relinked m' (a + t + 16) ∧
      tagAt m' a = tagAt h.mem a ∧ tagAt m' (a + t - 16) = tagAt h.mem (a + t - 16) ∧
      Held (h.relinked m' (a + t + 16)) pre a t (⟨a + t, size - t, true⟩ :: post)
        ((a + t + 16) :: fl) ∧ Keeps (allocs pre ++ ⟨a, t, false⟩ :: allocs post) h.mem m' := by
  set rem : Block := ⟨a + t, size - t, true⟩ with hremdef
  have hlay : Layout h (pre ++ ⟨a, t, false⟩ :: rem :: post) := ho.layout.split ht hmin hrem
  have hsub : (pre ++ rem :: post).Sublist (pre ++ ⟨a, t, false⟩ :: rem :: post) := sublist_middle _ _ _
  obtain ⟨m', heq, hlist, hfr⟩ := ho.listed.insert rfl hlay hsub
  have hkept := hfr.tags ⟨a, t, false⟩ (by simp)
  refine ⟨m', heq, hkept _ (.inl rfl), hkept _ (.inr rfl), ⟨hlay.of_eq rfl rfl, fun c hc => ?_, ho.apart_pre, ?_, hlist⟩,
    by simpa [allocs_cons, hremdef] using hfr.kept⟩
  · exact hfr.tagged (hsub.subset hc) (forall_middle ho.tagged htag c hc)
  · exact apart_cons_iff.2 ⟨ho.apart_post, fun _ => hpost⟩

/-- An allocated block is taken in hand. -/
theorem Sound.hold (hs : Sound h (pre ++ b :: post) fl) (hb : b.free = false) : Open h pre b.addr b.size post fl := by
  obtain ⟨hap, hapo, _⟩ := apart_middle_iff.1 hs.apart
  have hb' : (⟨b.addr, b.size, false⟩ : Block) = b := by rw [← hb]
  refine ⟨⟨by rw [hb']; exact hs.layout, fun c hc => hs.tagged c ((sublist_middle pre post b).subset hc), hap, hapo,
    hs.listed.chain, ?_⟩, ?_⟩
  · simpa [freeNodes_cons, hb] using hs.listed.perm
  · rw [(hs.tagged b (by simp)).header, Block.header_size]

/-- A free block is taken off the list and in hand. -/
theorem Sound.take (hs : Sound h (pre ++ b :: post) fl) (hb : b.free = true) :
    ∃ m' head', freeListRemove h b.addr = h.relinked m' head' ∧
      Tagged m' b ∧ Open (h.relinked m' head') pre b.addr b.size post (fl.erase b.node) ∧
      LastNot pre ∧ HeadNot post ∧ Keeps (allocs pre ++ allocs post) h.mem m' := by
  obtain ⟨hap, hapo, hboth⟩ := apart_middle_iff.1 hs.apart
  obtain ⟨m', head', heq, hlist, hfr⟩ := hs.listed.remove hb hs.layout (List.Sublist.refl _)
  have htag : ∀ c ∈ pre ++ b :: post, Tagged m' c := fun c hc => hfr.tagged hc (hs.tagged c hc)
  have hlay : Layout h (pre ++ ⟨b.addr, b.size, false⟩ :: post) := Layout.flag hs.layout
  refine ⟨m', head', heq, htag b (by simp), ⟨⟨hlay.of_eq rfl rfl,
    fun c hc => htag c ((sublist_middle pre post b).subset hc), hap, hapo, hlist⟩, ?_⟩, (hboth hb).1, (hboth hb).2,
    by simpa [allocs_cons, hb] using hfr.kept⟩
  rw [(htag b (by simp)).header, Block.header_size]

end Open

end Fortress.Mm
