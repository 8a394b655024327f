/-
The pending extents of a write (ext4_write.inc, `e4_initialize` and
`e4_merge_pending`): one block of an unwritten extent is initialized by splitting
the extent around it, and neighbours that continue each other are joined.

The array is the list of its entries. Both passes replace a few neighbours by
others that cover the same blocks, which is all that the order of the list needs
(`Ordered.replace`).
-/
import Mathlib

namespace Fortress.Ext4

open List

def E4_MAP_MAX : Nat := 4096

/-- `e4_extent_t`. Block numbers are below 2 ^ 32, and a sum that can pass that is taken modulo it. -/
structure Extent where
  logical : Nat
  physical : Nat
  len : Nat
  unwritten : Bool

/-- The first block behind the extent, as the 64-bit sum. -/
def Extent.stop (x : Extent) : Nat := x.logical + x.len

/-- What a call answers and leaves behind: the block, the pending list, what `*zero` is set to, if it is, and
whether the error is `VFS_EFBIG`. -/
structure Initialized where
  block : Nat
  pending : List Extent
  zero : Option Bool := none
  efbig : Bool := false

/-- An extent in pieces around a block of it. -/
def Extent.pieces (x : Extent) (logical block : Nat) : List Extent :=
  let before := logical - x.logical
  let after := x.len - before - 1
  (if before ≠ 0 then [{ x with len := before }] else []) ++ ⟨logical, block, 1, false⟩ ::
    if after ≠ 0 then [⟨(logical + 1) % 2 ^ 32, (block + 1) % 2 ^ 32, after, true⟩] else []

/-- The end of `e4_initialize`: `gone` entries behind `skipped` make room for `pieces`. -/
def place (pending skipped pieces rest : List Extent) (gone block : Nat) : Initialized :=
  if pieces.length - gone > E4_MAP_MAX - pending.length then { block := 0, pending, efbig := true }
  else if block = 0 then { block, pending }
  else { block, pending := skipped ++ pieces ++ rest, zero := some true }

/-- `e4_initialize`, where `e4_allocate` would answer `allocate`. -/
def e4Initialize (pending : List Extent) (logical allocate : Nat) : Initialized :=
  let skipped := pending.takeWhile fun x => x.stop ≤ logical
  match pending.dropWhile fun x => x.stop ≤ logical with
  | x :: rest =>
    let block := (x.physical + (logical - x.logical)) % 2 ^ 32
    if x.logical ≤ logical then
      if x.unwritten then place pending skipped (x.pieces logical block) rest 1 block
      else { block, pending, zero := some false }
    else place pending skipped [⟨logical, allocate, 1, false⟩] (x :: rest) 0 allocate
  | [] => place pending skipped [⟨logical, allocate, 1, false⟩] [] 0 allocate

/-- The longest extent the format has. -/
def Extent.limit (x : Extent) : Nat := if x.unwritten then 32767 else 32768

/-- A round of `e4_merge_pending`, with the entries kept so far in reverse: an extent that continues the one
before it is joined to it. -/
def mergeOne : List Extent → Extent → List Extent
  | y :: kept, x =>
    if y.unwritten = x.unwritten ∧ y.stop = x.logical ∧ (y.physical + y.len) % 2 ^ 32 = x.physical ∧
        (y.len + x.len) % 2 ^ 32 ≤ x.limit then
      { y with len := (y.len + x.len) % 2 ^ 32 } :: kept
    else x :: y :: kept
  | [], x => [x]

def e4MergePending (pending : List Extent) : List Extent := (pending.foldl mergeOne []).reverse

/-! ## What a list says of a block -/

def Extent.Covers (x : Extent) (b : Nat) : Prop := x.logical ≤ b ∧ b < x.stop

/-- Block `b` lies at `p`, initialized or not. -/
def Maps (l : List Extent) (b p : Nat) (unwritten : Bool) : Prop :=
  ∃ x ∈ l, x.Covers b ∧ (x.physical + (b - x.logical)) % 2 ^ 32 = p ∧ x.unwritten = unwritten

/-- Sorted and disjoint, every extent among the blocks there are and no longer than the format allows. -/
structure Ordered (l : List Extent) : Prop where
  sorted : l.Pairwise fun x y => x.stop ≤ y.logical
  within : ∀ x ∈ l, x.stop ≤ 2 ^ 32 ∧ x.len ≤ x.limit

variable {l pre mid mid' post : List Extent} {x y : Extent} {b p logical : Nat} {u : Bool}

theorem maps_append : Maps (pre ++ post) b p u ↔ Maps pre b p u ∨ Maps post b p u := by
  simp [Maps, or_and_right, exists_or]

/-- Neighbours are replaced by others within their bounds. -/
theorem Ordered.replace (h : Ordered (pre ++ mid ++ post)) (hm : Ordered mid')
    (hin : ∀ y ∈ mid', (∃ x ∈ mid, x.logical ≤ y.logical) ∧ ∃ x ∈ mid, y.stop ≤ x.stop) :
    Ordered (pre ++ mid' ++ post) := by
  obtain ⟨hs, hw⟩ := h
  obtain ⟨hs', hw'⟩ := hm
  simp only [pairwise_append, mem_append] at hs
  refine ⟨?_, ?_⟩
  · simp only [pairwise_append, mem_append]
    grind
  · grind

/-- No other extent of an ordered list covers a block of `x`. -/
theorem Ordered.alone (h : Ordered (pre ++ [x] ++ post)) (hx : x.Covers b) :
    ¬ Maps pre b p u ∧ ¬ Maps post b p u := by
  have hs := h.sorted
  simp only [pairwise_append, mem_append, mem_singleton] at hs
  constructor
  · rintro ⟨w, hw, hc, -⟩
    have hle := hs.1.2.2 w hw x rfl
    exact absurd (hc.2.trans_le hle) hx.1.not_gt
  · rintro ⟨w, hw, hc, -⟩
    have hle := hs.2.2 x (.inr rfl) w hw
    exact absurd (hx.2.trans_le hle) hc.1.not_gt

theorem maps_pieces (hx : x.stop ≤ 2 ^ 32) (hc : x.Covers logical) (hu : x.unwritten = true) :
    Maps (x.pieces logical ((x.physical + (logical - x.logical)) % 2 ^ 32)) b p u ↔
    if b = logical then u = false ∧ Maps [x] b p true else Maps [x] b p u := by
  obtain ⟨hfrom, hto⟩ := hc
  simp only [Extent.stop] at hx hto
  simp only [Maps, Extent.pieces, Extent.Covers, Extent.stop, mem_append, mem_cons, mem_ite_nil_right, not_mem_nil,
    or_false, or_and_right, exists_or, and_assoc, exists_and_left, exists_eq_left, hu]
  split
  · next h =>
    subst h
    cases u <;> simp <;> omega
  · cases u <;> simp <;> omega

theorem pieces_ordered (hx : x.stop ≤ 2 ^ 32 ∧ x.len ≤ x.limit) (hc : x.Covers logical) (hu : x.unwritten = true) :
    Ordered (x.pieces logical b) ∧ ∀ y ∈ x.pieces logical b, x.logical ≤ y.logical ∧ y.stop ≤ x.stop := by
  simp only [Extent.pieces, Extent.Covers, Extent.stop, Extent.limit, hu, if_true] at *
  refine ⟨⟨?_, ?_⟩, ?_⟩
  · simp only [pairwise_append, pairwise_cons]
    grind [Extent.stop]
  · grind [Extent.stop, Extent.limit]
  · grind [Extent.stop]

theorem mergeOne_step (kept rest : List Extent) (h : Ordered (kept.reverse ++ x :: rest)) :
    Ordered ((mergeOne kept x).reverse ++ rest) ∧
      ∀ b p u, Maps ((mergeOne kept x).reverse ++ rest) b p u ↔ Maps (kept.reverse ++ x :: rest) b p u := by
  cases kept with
  | nil => exact ⟨h, fun _ _ _ => .rfl⟩
  | cons y kept =>
    simp only [mergeOne]
    split
    · next hjoin =>
      obtain ⟨hu, hstop, hp, hlim⟩ := hjoin
      have hlist : (y :: kept).reverse ++ x :: rest = kept.reverse ++ [y, x] ++ rest := by simp
      rw [hlist] at h ⊢
      obtain ⟨-, hy⟩ := h.within y (by simp)
      obtain ⟨hx, hxlim⟩ := h.within x (by simp)
      have hlen : (y.len + x.len) % 2 ^ 32 = y.len + x.len := by
        simp only [Extent.limit] at hy hxlim
        split at hy <;> split at hxlim <;> omega
      simp only [hlen, reverse_cons, Extent.limit, ← hu] at hlim ⊢
      simp only [Extent.stop] at hstop hx
      constructor
      · refine h.replace ⟨by simp, ?_⟩ ?_ <;> simp [Extent.stop, Extent.limit, hlim] <;> omega
      · intro b p u
        rw [maps_append, maps_append, maps_append, maps_append]
        have hcut : Maps [{ y with len := y.len + x.len }] b p u ↔ Maps [y, x] b p u := by
          simp [Maps, Extent.Covers, Extent.stop, ← hu, ← hp, ← hstop, or_and_right, exists_or]
          cases u <;> cases y.unwritten <;> simp <;> omega
        rw [hcut]
    · simpa using h

theorem e4MergePending_ordered (h : Ordered l) :
    Ordered (e4MergePending l) ∧ ∀ b p u, Maps (e4MergePending l) b p u ↔ Maps l b p u := by
  suffices hrun : ∀ (rest kept : List Extent), Ordered (kept.reverse ++ rest) →
      Ordered (rest.foldl mergeOne kept).reverse ∧
        ∀ b p u, Maps (rest.foldl mergeOne kept).reverse b p u ↔ Maps (kept.reverse ++ rest) b p u from hrun l [] h
  intro rest
  induction rest with
  | nil =>
    intro kept hk
    simpa using hk
  | cons x rest ih =>
    intro kept hk
    obtain ⟨hord, hmaps⟩ := mergeOne_step kept rest hk
    obtain ⟨hrest, hsame⟩ := ih _ hord
    exact ⟨hrest, fun b p u => (hsame b p u).trans (hmaps b p u)⟩

/-! ## The call -/

section Call

variable {block : Nat} (hc : x.Covers logical) (hu : x.unwritten = true)
  (hb : (x.physical + (logical - x.logical)) % 2 ^ 32 = block)

include hc hu hb in
/-- The extent of the block is the first one that ends behind it. -/
theorem e4Initialize_covered (h : Ordered l) (hx : x ∈ l) (allocate : Nat) : ∃ pre post, l = pre ++ [x] ++ post ∧
    e4Initialize l logical allocate = place l pre (x.pieces logical block) post 1 block := by
  obtain ⟨pre, post, rfl⟩ := append_of_mem hx
  have hpre : ∀ w ∈ pre, decide (w.stop ≤ logical) = true := by
    intro w hw
    have hle := (pairwise_append.1 h.sorted).2.2 w hw x (by simp)
    simpa using hle.trans hc.1
  have hnot : decide (x.stop ≤ logical) = false := by simpa using hc.2
  refine ⟨pre, post, by simp, ?_⟩
  simp [e4Initialize, takeWhile_append_of_pos hpre, dropWhile_append_of_pos hpre, hnot, hc.1, hu, ← hb]

include hc hu hb in
/-- **One block is initialized.** For a block of an unwritten extent the list stays sorted and disjoint within the
limits of the format, every block stays where it is, and exactly this block becomes written, if it does not lie at 0
and the map has room for the pieces; otherwise nothing changes. -/
theorem e4_initialize_pending (h : Ordered l) (hx : x ∈ l) (allocate : Nat) :
    Ordered (e4MergePending (e4Initialize l logical allocate).pending) ∧
      ∀ b p u, Maps (e4MergePending (e4Initialize l logical allocate).pending) b p u ↔
        if b = logical ∧ block ≠ 0 ∧ (x.pieces logical block).length - 1 ≤ E4_MAP_MAX - l.length then
          u = false ∧ Maps l b p true
        else Maps l b p u := by
  obtain ⟨pre, post, hl, hcall⟩ := e4Initialize_covered hc hu hb h hx allocate
  have hsame := e4MergePending_ordered h
  rw [hcall, place]
  split
  · next hfull => simpa only [not_le.2 hfull, and_false, if_false] using hsame
  · next hroom =>
    split
    · next hzero => simpa only [hzero, ne_eq, not_true_eq_false, false_and, and_false, if_false] using hsame
    · next hblock =>
      obtain ⟨hin, hlim⟩ := h.within x hx
      obtain ⟨hpieces, hwithin⟩ := pieces_ordered (b := block) ⟨hin, hlim⟩ hc hu
      simp only [not_lt.1 hroom, hblock, ne_eq, not_false_eq_true, and_true]
      subst hl hb
      obtain ⟨hord, hmaps⟩ := e4MergePending_ordered (h.replace hpieces (by simpa using hwithin))
      refine ⟨hord, fun b p u => (hmaps b p u).trans ?_⟩
      simp only [maps_append, maps_pieces hin hc hu]
      split
      · next hb =>
        subst hb
        simp [h.alone hc]
      · rfl

end Call

theorem e4_initialize_pending_three :
    Ordered (e4MergePending (e4Initialize [⟨5, 10, 3, true⟩] 6 0).pending) ∧
      ∀ b p u, Maps (e4MergePending (e4Initialize [⟨5, 10, 3, true⟩] 6 0).pending) b p u ↔
        if b = 6 ∧ 11 ≠ 0 ∧ 3 - 1 ≤ E4_MAP_MAX - 1 then u = false ∧ Maps [⟨5, 10, 3, true⟩] b p true
        else Maps [⟨5, 10, 3, true⟩] b p u :=
  e4_initialize_pending (x := ⟨5, 10, 3, true⟩) ⟨by decide, by decide⟩ rfl rfl ⟨by simp, by simp; decide⟩ (by simp) 0

/-- A full map has no room for the pieces, and the block stays unwritten. -/
theorem e4_initialize_full : ∃ l x, Ordered l ∧ l.length ≤ E4_MAP_MAX ∧ x ∈ l ∧ x.Covers 1 ∧ x.unwritten = true ∧
    ∀ allocate p, ¬ Maps (e4MergePending (e4Initialize l 1 allocate).pending) 1 p false := by
  let l := (range 4096).map fun i => (⟨3 * i, 3 * i + 100, 3, true⟩ : Extent)
  have h : Ordered l := by
    refine ⟨pairwise_map.2 (pairwise_lt_range.imp fun hlt => ?_), ?_⟩
    · simp only [Extent.stop]
      omega
    · simp [l, Extent.stop, Extent.limit]
      omega
  have hx : ⟨0, 100, 3, true⟩ ∈ l := mem_map.2 ⟨0, by simp, rfl⟩
  have hc : (⟨0, 100, 3, true⟩ : Extent).Covers 1 := ⟨by decide, by decide⟩
  refine ⟨l, _, h, by simp [l, E4_MAP_MAX], hx, hc, rfl, fun allocate p => ?_⟩
  obtain ⟨pre, post, -, hcall⟩ := e4Initialize_covered hc rfl rfl h hx allocate
  rw [hcall, place, if_pos (by simp [l, E4_MAP_MAX, Extent.pieces]), (e4MergePending_ordered h).2]
  simp [Maps, l]

end Fortress.Ext4
