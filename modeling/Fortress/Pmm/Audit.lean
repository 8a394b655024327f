/-
The audit of the physical memory manager counts the frames in use a byte at a
time and compares with the counters. It never fails: what it checks holds
after any sequence of calls.
-/
import Fortress.Pmm.Accounts

namespace Fortress.Pmm

open List

theorem bitCount_eq (b : UInt8) : Frames.bitCount b = (List.range 8).countP fun k => b.toBitVec.getLsbD k := by
  have hall : ∀ n : Fin 256, Frames.bitCount (UInt8.ofNat n) =
      (range 8).countP fun k => (UInt8.ofNat n).toBitVec.getLsbD k := by decide +kernel
  have := hall ⟨b.toNat, b.toNat_lt⟩
  simpa using this

theorem card_frames (m : Nat → UInt8) (n : Nat) : (Bitmap.frames m n).card = (List.range n).countP (Bitmap.get m) := by
  induction n with
  | zero => rfl
  | succ n ih =>
    rw [range_succ, countP_append, ← ih, Bitmap.frames, Finset.range_add_one, Finset.filter_insert]
    by_cases h : Bitmap.get m n = true
    · rw [if_pos h, Finset.card_insert_of_notMem (by simp)]
      simp [Bitmap.frames, h]
    · rw [if_neg h]
      simp [Bitmap.frames, h]

namespace Frames

variable {p : Frames} {n : Nat}

/-- The mask of a byte has the bits of the managed frames. -/
theorem getLsbD_auditMask {n k : Nat} (hn : n * 8 < p.totalPages) (hk : k < 8) :
    (p.auditMask n).toBitVec.getLsbD k = decide (n * 8 + k < p.totalPages) := by
  unfold auditMask
  split
  · rename_i hlast
    obtain ⟨r, hr⟩ : ∃ r, p.totalPages - n * 8 = r := ⟨_, rfl⟩
    have hiff : n * 8 + k < p.totalPages ↔ k < r := by omega
    rw [hr] at hlast ⊢
    simp only [hiff]
    interval_cases r <;> interval_cases k <;> decide
  · have hlt : n * 8 + k < p.totalPages := by omega
    simp only [hlt, decide_true]
    interval_cases k <;> decide

theorem bitCount_managed (hn : n * 8 < p.totalPages) :
    bitCount (p.bitmap n &&& p.auditMask n) + (Bitmap.frames p.bitmap (n * 8)).card =
      (Bitmap.frames p.bitmap (min (n * 8 + 8) p.totalPages)).card := by
  obtain ⟨r, hr⟩ : ∃ r, min (n * 8 + 8) p.totalPages = n * 8 + r := ⟨min 8 (p.totalPages - n * 8), by omega⟩
  have hr8 : r ≤ 8 := by omega
  rw [hr, card_frames, card_frames, range_add, countP_append, countP_map, Nat.add_comm, bitCount_eq]
  congr 1
  obtain ⟨d, hd⟩ := Nat.exists_eq_add_of_le hr8
  have hbit : ∀ k, k < 8 → (p.bitmap n &&& p.auditMask n).toBitVec.getLsbD k =
      (Bitmap.get p.bitmap (n * 8 + k) && decide (n * 8 + k < p.totalPages)) := by
    intro k hk
    rw [UInt8.toBitVec_and, BitVec.getLsbD_and, getLsbD_auditMask hn hk, Bitmap.get_eq,
      show (n * 8 + k) / 8 = n by omega, show (n * 8 + k) % 8 = k by omega]
  have hrange : range 8 = range r ++ (range d).map (r + ·) := by rw [hd, range_add]
  rw [hrange, countP_append, countP_map]
  have htail : (range d).countP ((fun k => (p.bitmap n &&& p.auditMask n).toBitVec.getLsbD k) ∘ (r + ·)) = 0 := by
    rw [countP_eq_zero]
    intro k hk
    have hkd := mem_range.1 hk
    have hout : ¬ n * 8 + (r + k) < p.totalPages := by omega
    rw [Function.comp_apply, hbit (r + k) (by omega)]
    simp [hout]
  rw [htail, Nat.add_zero]
  refine countP_congr ?_
  intro k hk
  have hkr := mem_range.1 hk
  have hin : n * 8 + k < p.totalPages := by omega
  rw [hbit k (by omega)]
  simp [hin]

/-- Reserved frames are in use, read off a byte. -/
theorem reserved_byte (h : ∀ i, i < p.totalPages → p.frameReserved i = true → p.bitmapTest i = true)
    (hn : n * 8 < p.totalPages) :
    p.reservedBitmap n &&& p.auditMask n &&& (p.bitmap n &&& p.auditMask n) = p.reservedBitmap n &&& p.auditMask n := by
  rw [← UInt8.toBitVec_inj]
  refine BitVec.eq_of_getLsbD_eq ?_
  intro k hk
  have hdiv : (n * 8 + k) / 8 = n := by omega
  have hmod : (n * 8 + k) % 8 = k := by omega
  simp only [UInt8.toBitVec_and, BitVec.getLsbD_and, getLsbD_auditMask hn hk]
  by_cases hlt : n * 8 + k < p.totalPages
  · have := h _ hlt
    rw [frameReserved, bitmapTest, Bitmap.get_eq, Bitmap.get_eq, hdiv, hmod] at this
    simp only [hlt, decide_true, Bool.and_true]
    cases hres : (p.reservedBitmap n).toBitVec.getLsbD k with
    | false => rfl
    | true => rw [this hres]; rfl
  · simp [hlt]

theorem auditBytes_eq (h : ∀ i, i < p.totalPages → p.frameReserved i = true → p.bitmapTest i = true)
    (hn : n ≤ (p.totalPages + 7) / 8) :
    p.auditBytes n = some (Bitmap.frames p.bitmap (min (n * 8) p.totalPages)).card := by
  induction n with
  | zero => simp [auditBytes, Bitmap.frames]
  | succ n ih =>
    have hlt : n * 8 < p.totalPages := by omega
    rw [auditBytes, ih (by omega)]
    simp only [reserved_byte h hlt, ne_eq, not_true_eq_false, if_false, Option.some.injEq]
    have := bitCount_managed hlt
    rw [Nat.min_eq_left (Nat.le_of_lt hlt), Nat.succ_mul]
    omega

theorem Sound.audit (h : Sound p) : p.pmmAudit = none := by
  unfold pmmAudit
  have hp := h.placed
  have hzero := h.reserved 0 h.positive h.zero
  have hlow := hp.low
  have hboot := hp.boot
  have hmanaged := hp.managed
  have hne := hp.nonempty
  have hal := hp.aligned
  rw [if_neg, if_neg, if_neg, if_neg]
  · rw [auditBytes_eq h.reserved le_rfl, Nat.min_eq_right (by omega), h.used]
    have := h.total
    simp only [ne_eq, not_true_eq_false, false_or]
    rw [if_neg (by omega)]
  · simp only [any_eq_true, not_exists, not_and, mem_range]
    intro i hi
    have hres := hp.backing i hi
    have hlt : p.bitmapPhysAddr / PAGE_SIZE + i < p.totalPages := by
      simp only [PAGE_SIZE] at *
      omega
    simp [h.reserved _ hlt hres, hres]
  · simp [hzero, h.zero]
  · simp only [PAGE_SIZE] at *
    omega
  have := h.limit
  have := hp.capacity
  have := h.positive
  omega

end Frames

/-- **Accounting.** After boot marking of any memory map and any sequence of calls with any
arguments: the set bits are counted by `used`, and `used` and `free` add up to the total; the
reservations of boot stay and stay in use; frames that callers hold are in use and not reserved, and
no two allocations hold the same frame; a free of any run is rejected and changes nothing but the
count of rejections, or clears exactly the frames of the run, all of them in use and none reserved;
and the audit passes. -/
theorem pmm_accounts {memmap : List (Option Region)} {p : Frames} (h : Frames.pmmInit memmap = some p)
    (calls : List Call) :
    let s := System.run p calls
    (Bitmap.frames s.frames.bitmap s.frames.totalPages).card = s.frames.usedPages ∧
    s.frames.usedPages + s.frames.freePages = s.frames.totalPages ∧
    s.frames.reservedBitmap = p.reservedBitmap ∧
    (∀ f, f < s.frames.totalPages → s.frames.frameReserved f = true → s.frames.bitmapTest f = true) ∧
    (∀ a ∈ s.live, ∀ f ∈ a, f < s.frames.totalPages ∧ s.frames.bitmapTest f = true ∧
      s.frames.frameReserved f = false) ∧
    s.live.Pairwise List.Disjoint ∧
    (∀ physAddr n, s.frames.pmmFreePages physAddr n = s.frames.rejectFree ∨
      ((∀ f, (s.frames.pmmFreePages physAddr n).bitmapTest f =
          if physAddr / PAGE_SIZE ≤ f ∧ f < physAddr / PAGE_SIZE + n then false else s.frames.bitmapTest f) ∧
        ∀ f, physAddr / PAGE_SIZE ≤ f → f < physAddr / PAGE_SIZE + n →
          s.frames.bitmapTest f = true ∧ s.frames.frameReserved f = false)) ∧
    s.frames.pmmAudit = none := by
  have hinv := System.run_inv h calls
  refine ⟨hinv.used, hinv.total, (System.boot_inv h).foldl.2, hinv.reserved, hinv.held, hinv.disjoint, ?_,
    hinv.toSound.audit⟩
  intro physAddr n
  rcases (System.run p calls).frames.pmmFreePages_cases physAddr n with hr | ⟨hc, -, -, hset⟩
  · exact .inl hr
  refine .inr ⟨?_, hset⟩
  intro f
  rw [Frames.bitmapTest, (Frames.core_fields hc).2.1]
  exact Frames.bitmapTest_drop _ _ f

/-- A frame is freed, freed again, and given to another caller, beside one that is held throughout. -/
theorem pmm_accounts_reused_frame :
    let s := System.run smallFrames
      [.allocPage, .allocPage, .freePage 0x101000, .freePage 0x101000, .allocPages 1, .freePages 0x100000 2]
    s.live = [[257], [258], []] ∧ s.frames.rejectedFrees = 2 ∧
      (Bitmap.frames s.frames.bitmap s.frames.totalPages).card = s.frames.usedPages ∧
      s.frames.usedPages + s.frames.freePages = s.frames.totalPages ∧
      s.frames.reservedBitmap = smallFrames.reservedBitmap ∧
      (∀ a ∈ s.live, ∀ f ∈ a, f < s.frames.totalPages ∧ s.frames.bitmapTest f = true ∧
        s.frames.frameReserved f = false) ∧
      s.live.Pairwise List.Disjoint ∧ s.frames.pmmAudit = none := by
  intro s
  obtain ⟨hused, htotal, hreserved, -, hheld, hdisjoint, -, haudit⟩ := pmm_accounts pmmInit_smallMap
    [.allocPage, .allocPage, .freePage 0x101000, .freePage 0x101000, .allocPages 1, .freePages 0x100000 2]
  exact ⟨by decide +kernel, by decide +kernel, hused, htotal, hreserved, hheld, hdisjoint, haudit⟩

end Fortress.Pmm
