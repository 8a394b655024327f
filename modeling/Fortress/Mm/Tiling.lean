/-
The heap seen as blocks: a list of blocks that lie end to end from the start
of the heap to its end, each with its tags, and the list that the links
spell out.

Everything the allocator writes is a tag or a list node, 16 bytes at an
address divisible by 16 (a granule). So what a call leaves alone is said by
granules (`Touches`), and a block is intact as long as its two tag granules
were not touched.
-/
import Fortress.Mm.Heap

namespace Fortress.Mm

open Codec List

/-! ## Granules -/

section Granules

variable {m m' m'' : Mem} {a b : Nat} {S T : Set Nat}

/-- A tag whose fields fit their widths. -/
structure Tag.Fits (t : Tag) : Prop where
  magic : t.magic < 2 ^ 32
  isFree : t.isFree < 2 ^ 32
  size : t.size < 2 ^ 64

theorem tagAt_putTag {t : Tag} (ht : t.Fits) : tagAt (putTag m a t) a = t := by
  have hread : (putTag m a t).read a 16 = le t.magic 4 ++ le t.isFree 4 ++ le t.size 8 := by
    have := Mem.read_write m a (le t.magic 4 ++ le t.isFree 4 ++ le t.size 8)
    simpa [putTag] using this
  have hfield : ∀ k n, k + n ≤ 16 → (putTag m a t).read (a + k) n =
      slice (le t.magic 4 ++ le t.isFree 4 ++ le t.size 8) k n := by
    intro k n hk
    rw [Mem.read_slice _ hk, hread]
  have h1 : (putTag m a t).read a 4 = le t.magic 4 := by
    have := hfield 0 4 (by omega)
    rw [Nat.add_zero] at this
    rw [this, append_assoc, slice_append_left (by simp), slice_self (by simp)]
  have h2 : (putTag m a t).read (a + 4) 4 = le t.isFree 4 := by
    rw [hfield 4 4 (by omega), append_assoc]
    exact slice_field (by simp) (by simp)
  have h3 : (putTag m a t).read (a + 8) 8 = le t.size 8 := by
    rw [hfield 8 8 (by omega), slice_append_right (m := 0) (by simp), slice_self (by simp)]
  unfold tagAt
  rw [h1, h2, h3, fromLe_le_of_lt ht.magic, fromLe_le_of_lt ht.isFree, fromLe_le_of_lt ht.size]

theorem nodeAt_putNode {l : Link} (hn : l.next < 2 ^ 64) (hp : l.prev < 2 ^ 64) : nodeAt (putNode m a l) a = l := by
  have hread : (putNode m a l).read a 16 = le l.next 8 ++ le l.prev 8 := by
    have := Mem.read_write m a (le l.next 8 ++ le l.prev 8)
    simpa [putNode] using this
  have h1 : (putNode m a l).read a 8 = le l.next 8 := by
    have := Mem.read_slice (putNode m a l) (a := a) (k := 0) (n := 8) (w := 16) (by omega)
    rw [Nat.add_zero] at this
    rw [this, hread, slice_append_left (by simp), slice_self (by simp)]
  have h2 : (putNode m a l).read (a + 8) 8 = le l.prev 8 := by
    rw [Mem.read_slice _ (show 8 + 8 ≤ 16 by omega), hread, slice_append_right (m := 0) (by simp),
      slice_self (by simp)]
  unfold nodeAt
  rw [h1, h2, fromLe_le_of_lt hn, fromLe_le_of_lt hp]

theorem tagAt_fits (m : Mem) (a : Nat) : (tagAt m a).Fits := by
  have h4 : ∀ b, fromLe (m.read b 4) < 2 ^ 32 := by
    intro b
    simpa using fromLe_lt (m.read b 4)
  have h8 : ∀ b, fromLe (m.read b 8) < 2 ^ 64 := by
    intro b
    simpa using fromLe_lt (m.read b 8)
  exact ⟨h4 _, h4 _, h8 _⟩

theorem tagAt_putSize {v : Nat} (hv : v < 2 ^ 64) :
    tagAt (putTag m a { tagAt m a with size := v }) a = { tagAt m a with size := v } :=
  tagAt_putTag
    ⟨(tagAt_fits m a).magic, (tagAt_fits m a).isFree, hv⟩

theorem tagAt_putState {x y : Nat} (hx : x < 2 ^ 32) (hy : y < 2 ^ 32) :
    tagAt (putTag m a { tagAt m a with magic := x, isFree := y }) a = { tagAt m a with magic := x, isFree := y } :=
  tagAt_putTag ⟨hx, hy, (tagAt_fits m a).size⟩

theorem nodeAt_lt (m : Mem) (a : Nat) : (nodeAt m a).next < 2 ^ 64 ∧ (nodeAt m a).prev < 2 ^ 64 := by
  have h8 : ∀ b, fromLe (m.read b 8) < 2 ^ 64 := by
    intro b
    simpa using fromLe_lt (m.read b 8)
  exact ⟨h8 _, h8 _⟩

/-- Granules outside `S` are as they were. -/
def Touches (m m' : Mem) (S : Set Nat) : Prop := ∀ a, a % 16 = 0 → a ∉ S → m'.read a 16 = m.read a 16

theorem Touches.refl (m : Mem) (S : Set Nat) : Touches m m S := fun _ _ _ => rfl

theorem Touches.trans (h : Touches m m' S) (h' : Touches m' m'' T) : Touches m m'' (S ∪ T) := by
  intro a ha hn
  rw [h' a ha fun hm => hn (.inr hm), h a ha fun hm => hn (.inl hm)]

theorem Touches.mono (h : Touches m m' S) (hst : S ⊆ T) : Touches m m' T :=
  fun a ha hn => h a ha fun hm => hn (hst hm)

theorem Touches.tag (h : Touches m m' S) (ha : a % 16 = 0) (hn : a ∉ S) : tagAt m' a = tagAt m a := by
  have hr := h a ha hn
  unfold tagAt
  rw [Mem.read_part hr (show 4 + 4 ≤ 16 by omega), Mem.read_part hr (show 8 + 8 ≤ 16 by omega),
    show m'.read a 4 = m.read a 4 from Mem.read_part hr (show 0 + 4 ≤ 16 by omega)]

theorem Touches.node (h : Touches m m' S) (ha : a % 16 = 0) (hn : a ∉ S) : nodeAt m' a = nodeAt m a := by
  have hr := h a ha hn
  unfold nodeAt
  rw [Mem.read_part hr (show 8 + 8 ≤ 16 by omega),
    show m'.read a 8 = m.read a 8 from Mem.read_part hr (show 0 + 8 ≤ 16 by omega)]

/-- A write of 16 bytes at a granule touches only that. -/
theorem touches_write {bs : Bytes} (ha : a % 16 = 0) (hlen : bs.length = 16) : Touches m (m.write a bs) {a} := by
  intro b hb hne
  have hne : b ≠ a := hne
  exact Mem.read_write_of_disjoint (by omega)

theorem touches_putTag {t : Tag} (ha : a % 16 = 0) : Touches m (putTag m a t) {a} :=
  touches_write ha (by simp)

theorem touches_putNode {l : Link} (ha : a % 16 = 0) : Touches m (putNode m a l) {a} :=
  touches_write ha (by simp)

end Granules

/-! ## Blocks -/

structure Block where
  addr : Nat
  size : Nat
  free : Bool
  deriving DecidableEq, Repr

namespace Block

/-- Where its list node and its payload begin. -/
def node (b : Block) : Nat := b.addr + 16

/-- Where its footer is. -/
def last (b : Block) : Nat := b.addr + b.size - 16

def header (b : Block) : Tag :=
  ⟨if b.free then HEAP_MAGIC_FREE else HEAP_MAGIC_ALLOC, if b.free then 1 else 0, b.size⟩

def footer (b : Block) : Tag := ⟨HEAP_MAGIC_FOOTER, if b.free then 1 else 0, b.size⟩

/-- Large enough for its tags and a list node, in whole granules. -/
structure Good (b : Block) : Prop where
  addr : b.addr % 16 = 0
  size : b.size % 16 = 0
  min : 48 ≤ b.size
  bound : b.addr + b.size < 2 ^ 64

variable {b : Block}

theorem Good.node_al (h : b.Good) : b.node % 16 = 0 := by
  have := h.addr
  unfold node
  omega

theorem Good.last_al (h : b.Good) : b.last % 16 = 0 := by
  have := h.addr
  have := h.size
  unfold last
  omega

theorem header_fits (h : b.Good) : b.header.Fits := by
  have := h.bound
  unfold header
  constructor
  · dsimp only
    split <;> decide
  · dsimp only
    split <;> decide
  · dsimp only
    omega

theorem footer_fits (h : b.Good) : b.footer.Fits := by
  have := h.bound
  unfold footer
  constructor
  · show HEAP_MAGIC_FOOTER < 2 ^ 32
    decide
  · dsimp only
    split <;> decide
  · dsimp only
    omega

@[simp] theorem header_size (b : Block) : b.header.size = b.size := rfl

end Block

/-- The payloads of the blocks are as they were. -/
def Keeps (l : List Block) (m m' : Mem) : Prop := ∀ b ∈ l, ∀ x, b.node ≤ x → x < b.last → m' x = m x

section Keeps

variable {l L : List Block} {m m' m'' : Mem}

theorem Keeps.refl (l : List Block) (m : Mem) : Keeps l m m := fun _ _ _ _ _ => rfl

theorem Keeps.mono (h : Keeps L m m') (hs : l ⊆ L) : Keeps l m m' := fun b hb => h b (hs hb)

theorem Keeps.trans (h : Keeps l m m') (h' : Keeps l m' m'') : Keeps l m m'' :=
  fun b hb x hlo hhi => (h' b hb x hlo hhi).trans (h b hb x hlo hhi)

theorem Touches.keeps {S : Set Nat} (hm : Touches m m' S) (hg : ∀ b ∈ l, b.Good)
    (hS : ∀ b ∈ l, ∀ x ∈ S, x < b.node ∨ b.last ≤ x) : Keeps l m m' := by
  intro b hb x hlo hhi
  have := (hg b hb).node_al
  -- the granule of the byte
  have hread := hm (x / 16 * 16) (Nat.mul_mod_left ..) fun hx => by have := hS b hb _ hx; omega
  have hbyte := map_inj_left.1 hread (x % 16) (mem_range.2 (Nat.mod_lt x (by decide)))
  rwa [Nat.div_add_mod'] at hbyte

end Keeps

/-- The block's tags are in memory. -/
structure Tagged (m : Mem) (b : Block) : Prop where
  header : tagAt m b.addr = b.header
  footer : tagAt m b.last = b.footer

theorem Tagged.touches {m m' : Mem} {S : Set Nat} {b : Block} (h : Tagged m b) (hg : b.Good) (ht : Touches m m' S)
    (ha : b.addr ∉ S) (hl : b.last ∉ S) : Tagged m' b :=
  ⟨by rw [ht.tag hg.addr ha]; exact h.header, by rw [ht.tag hg.last_al hl]; exact h.footer⟩

/-- The blocks lie end to end from `a` to `e`. -/
def Tiles : Nat → List Block → Nat → Prop
  | a, [], e => a = e
  | a, b :: bs, e => b.addr = a ∧ Tiles (a + b.size) bs e

namespace Tiles

theorem append : ∀ {l1 l2 : List Block} {a e : Nat}, Tiles a (l1 ++ l2) e ↔ ∃ m, Tiles a l1 m ∧ Tiles m l2 e
  | [], _, _, _ => by simp [Tiles]
  | b :: l1, l2, a, e => by
    simp only [List.cons_append, Tiles, append]
    constructor
    · rintro ⟨hb, m, h1, h2⟩
      exact ⟨m, ⟨hb, h1⟩, h2⟩
    · rintro ⟨m, ⟨hb, h1⟩, h2⟩
      exact ⟨hb, m, h1, h2⟩

theorem le : ∀ {l : List Block} {a e : Nat}, Tiles a l e → a ≤ e
  | [], _, _, h => Nat.le_of_eq h
  | _ :: _, _, _, ⟨_, h⟩ => by have := le h; omega

theorem bounds : ∀ {l : List Block} {a e : Nat}, Tiles a l e → ∀ b ∈ l, a ≤ b.addr ∧ b.addr + b.size ≤ e
  | _ :: _, _, _, ⟨hb, h⟩, _, .head _ => by
    have := le h
    omega
  | _ :: _, _, _, ⟨_, h⟩, c, .tail _ hc => by
    have := bounds h c hc
    omega

/-- Around a block: what comes before ends at it, what comes after begins behind it. -/
theorem around {pre post : List Block} {b : Block} {a e : Nat} (h : Tiles a (pre ++ b :: post) e) :
    Tiles a pre b.addr ∧ Tiles (b.addr + b.size) post e := by
  obtain ⟨m, h1, hb, h2⟩ := append.1 h
  subst hb
  exact ⟨h1, h2⟩

theorem total : ∀ {l : List Block} {a e : Nat}, Tiles a l e → (l.map (·.size)).sum = e - a
  | [], _, _, h => by simp [Tiles] at h; simp [h]
  | b :: l, a, e, ⟨_, h⟩ => by
    have := le h
    simp only [map_cons, sum_cons, total h]
    omega

end Tiles

/-- The blocks and the ends of the heap fit together. -/
structure Layout (h : Heap) (bs : List Block) : Prop where
  start_pos : 0 < h.start
  start_al : h.start % 16 = 0
  stop_le : h.stop ≤ KERNEL_HEAP_MAX
  tiles : Tiles h.start bs h.stop
  good : ∀ b ∈ bs, b.Good

/-- The granules that hold the tags of a block. -/
def Block.Mark (b : Block) (x : Nat) : Prop := x = b.addr ∨ x = b.last

section Layout

variable {h : Heap} {bs pre post : List Block} {b c : Block}

/-- Different blocks of a layout do not overlap. -/
theorem Layout.disjoint (hl : Layout h (pre ++ b :: post)) (hc : c ∈ pre ++ post) :
    c.addr + c.size ≤ b.addr ∨ b.addr + b.size ≤ c.addr := by
  obtain ⟨h1, h2⟩ := hl.tiles.around
  rcases mem_append.1 hc with hc | hc
  · exact .inl (h1.bounds c hc).2
  · exact .inr (h2.bounds c hc).1

theorem Layout.apart (hl : Layout h bs) (hb : b ∈ bs) (hc : c ∈ bs) (hne : b ≠ c) :
    c.addr + c.size ≤ b.addr ∨ b.addr + b.size ≤ c.addr := by
  obtain ⟨pre, post, rfl⟩ := append_of_mem hb
  refine hl.disjoint ?_
  rcases mem_append.1 hc with hc | hc
  · exact mem_append_left _ hc
  rcases mem_cons.1 hc with rfl | hc
  · exact absurd rfl hne
  · exact mem_append_right _ hc

/-- No tag lies where a list node does. -/
theorem Layout.mark_ne_node (hl : Layout h bs) (hb : b ∈ bs) (hc : c ∈ bs) {x : Nat} (hx : b.Mark x) :
    x ≠ c.node := by
  have hgc := hl.good c hc
  have := hgc.min
  by_cases hbc : b = c
  · subst hbc
    rcases hx with rfl | rfl <;> unfold Block.node
    · omega
    unfold Block.last
    omega
  have hd := hl.apart hb hc hbc
  rcases hx with rfl | rfl <;> unfold Block.node
  · omega
  unfold Block.last
  omega

theorem Tiles.nodup_addr : ∀ {l : List Block} {a e : Nat}, Tiles a l e → (∀ b ∈ l, b.Good) → (l.map (·.node)).Nodup
  | [], _, _, _, _ => List.nodup_nil
  | b :: l, a, e, ⟨hb, ht⟩, hg => by
    refine List.nodup_cons.2 ⟨?_, nodup_addr ht fun c hc => hg c (.tail _ hc)⟩
    intro hm
    obtain ⟨c, hc, he⟩ := mem_map.1 hm
    have := (ht.bounds c hc).1
    have := (hg b (.head _)).min
    simp only [Block.node] at he
    omega

end Layout

/-! ## The free list and the counters -/

def freeNodes (bs : List Block) : List Nat := (bs.filter (·.free)).map (·.node)

def allocs (bs : List Block) : List Block := bs.filter (!·.free)

@[simp] theorem freeNodes_append (l1 l2 : List Block) : freeNodes (l1 ++ l2) = freeNodes l1 ++ freeNodes l2 := by
  simp [freeNodes]

@[simp] theorem allocs_append (l1 l2 : List Block) : allocs (l1 ++ l2) = allocs l1 ++ allocs l2 := by
  simp [allocs]

theorem freeNodes_cons (b : Block) (l : List Block) :
    freeNodes (b :: l) = if b.free then b.node :: freeNodes l else freeNodes l := by
  cases h : b.free <;> simp [freeNodes, h]

theorem allocs_cons (b : Block) (l : List Block) :
    allocs (b :: l) = if b.free then allocs l else b :: allocs l := by
  cases h : b.free <;> simp [allocs, h]

theorem mem_freeNodes {bs : List Block} {x : Nat} : x ∈ freeNodes bs ↔ ∃ b ∈ bs, b.free = true ∧ b.node = x := by
  simp [freeNodes, and_assoc]

theorem mem_allocs {bs : List Block} {b : Block} : b ∈ allocs bs ↔ b ∈ bs ∧ b.free = false := by
  simp [allocs]

/-- The links spell out `fl`, and `fl` holds exactly the free blocks' nodes. -/
structure Listed (h : Heap) (bs : List Block) (fl : List Nat) : Prop where
  chain : Chain (nodeAt h.mem) fl h.freeListHead
  perm : fl.Perm (freeNodes bs)

/-- The counters are those of the allocated blocks. -/
structure Counted (h : Heap) (bs : List Block) : Prop where
  bytes : h.allocatedBytes = ((allocs bs).map (·.size)).sum
  blocks : h.allocatedBlocks = (allocs bs).length

/-- No two neighbours are both free. -/
def Apart (bs : List Block) : Prop := bs.IsChain fun a b => ¬(a.free = true ∧ b.free = true)

/-- The blocks, their tags and the list are in order. -/
structure Sound (h : Heap) (bs : List Block) (fl : List Nat) : Prop where
  layout : Layout h bs
  tagged : ∀ b ∈ bs, Tagged h.mem b
  apart : Apart bs
  listed : Listed h bs fl

/-- **The invariant of the heap** between calls. -/
structure Inv (h : Heap) (bs : List Block) (fl : List Nat) : Prop extends Sound h bs fl where
  counted : Counted h bs

/-- A call has a block in its hands: it is laid out but not on the list, and its marks are out
of date. -/
structure Held (h : Heap) (pre : List Block) (a size : Nat) (post : List Block) (fl : List Nat) : Prop where
  layout : Layout h (pre ++ ⟨a, size, false⟩ :: post)
  tagged : ∀ b ∈ pre ++ post, Tagged h.mem b
  apart_pre : Apart pre
  apart_post : Apart post
  listed : Listed h (pre ++ post) fl

/-- The header of the block in hand gives its size. -/
structure Open (h : Heap) (pre : List Block) (a size : Nat) (post : List Block) (fl : List Nat) : Prop
    extends Held h pre a size post fl where
  header : (tagAt h.mem a).size = size

/-- The last block is not free. -/
def LastNot (pre : List Block) : Prop := ∀ c ∈ pre.getLast?, c.free = false

/-- The first block is not free. -/
def HeadNot (post : List Block) : Prop := ∀ c ∈ post.head?, c.free = false

section Apart

variable {pre post : List Block} {b : Block}

@[simp] theorem lastNot_nil : LastNot [] := by simp [LastNot]

@[simp] theorem lastNot_concat : LastNot (pre ++ [b]) ↔ b.free = false := by simp [LastNot]

@[simp] theorem headNot_nil : HeadNot [] := by simp [HeadNot]

@[simp] theorem headNot_cons : HeadNot (b :: post) ↔ b.free = false := by simp [HeadNot]

theorem apart_middle_iff : Apart (pre ++ b :: post) ↔
    Apart pre ∧ Apart post ∧ (b.free = true → LastNot pre ∧ HeadNot post) := by
  unfold Apart LastNot HeadNot
  rw [isChain_append, isChain_cons]
  constructor
  · rintro ⟨h1, ⟨h2, h3⟩, h4⟩
    refine ⟨h1, h3, fun hb => ⟨fun c hc => ?_, fun c hc => ?_⟩⟩
    · have := h4 c hc b rfl
      simpa [hb] using this
    · have := h2 c hc
      simpa [hb] using this
  rintro ⟨h1, h3, hb⟩
  refine ⟨h1, ⟨fun c hc hf => ?_, h3⟩, fun c hc d hd hf => ?_⟩
  · have := (hb hf.1).2 c hc
    simp [this] at hf
  cases hd
  have := (hb hf.2).1 c hc
  simp [this] at hf

theorem apart_cons_iff : Apart (b :: post) ↔ Apart post ∧ (b.free = true → HeadNot post) := by
  have hmid : Apart ([] ++ b :: post) ↔ _ := apart_middle_iff
  rw [nil_append] at hmid
  rw [hmid]
  exact ⟨fun ⟨_, hp, hb⟩ => ⟨hp, fun hf => (hb hf).2⟩,
    fun ⟨hp, hb⟩ => ⟨isChain_nil, hp, fun hf => ⟨lastNot_nil, hb hf⟩⟩⟩

end Apart

end Fortress.Mm
