/-
The counters, the bitmap and the reservations of the physical memory manager
agree after any sequence of calls, with any arguments.

What a call may do to the frames is said once: it takes a run of clear frames
below the limit (`AllocSpec`), frees a run of set ones, or leaves them alone.
The search hint and the statistics are not part of the `core` of the state,
so that none of the invariants can depend on them.
-/
import Fortress.Pmm.Frames

namespace Fortress.Pmm.Frames

open List

variable {p q : Frames} {memmap : List (Option Region)}

/-- The state without the search hint and the statistics. -/
def core (p : Frames) : Frames :=
  { p with lastAllocatedIndex := 0, rejectedFrees := 0, allocationFailures := 0, maxScanSteps := 0 }

/-- States that differ in the hint and the statistics only have the same frames. -/
theorem core_fields (h : q.core = p.core) :
    q.totalPages = p.totalPages ∧ q.bitmap = p.bitmap ∧ q.reservedBitmap = p.reservedBitmap :=
  ⟨(congrArg totalPages h : q.core.totalPages = p.core.totalPages),
    (congrArg bitmap h : q.core.bitmap = p.core.bitmap),
    (congrArg reservedBitmap h : q.core.reservedBitmap = p.core.reservedBitmap)⟩

/-- The counters are right. -/
structure Counts (p : Frames) : Prop where
  used : (Bitmap.frames p.bitmap p.totalPages).card = p.usedPages
  total : p.usedPages + p.freePages = p.totalPages

/-- The bitmap lies in frames of its own, above 1 MiB and below the boot limit. -/
structure Placed (p : Frames) : Prop where
  low : LOW_MEMORY ≤ p.bitmapPhysAddr
  aligned : p.bitmapPhysAddr % PAGE_SIZE = 0
  nonempty : 0 < p.bitmapTotalPages
  boot : p.bitmapPhysAddr + p.bitmapTotalPages * PAGE_SIZE ≤ PMM_BOOT_ALLOC_LIMIT
  managed : p.bitmapPhysAddr + p.bitmapTotalPages * PAGE_SIZE ≤ p.totalPages * PAGE_SIZE
  capacity : p.totalPages ≤ PMM_BITMAP_MAX_RAM_BYTES / PAGE_SIZE
  backing : ∀ i, i < p.bitmapTotalPages → p.frameReserved (p.bitmapPhysAddr / PAGE_SIZE + i) = true

/-- What every call keeps. -/
structure Sound (p : Frames) : Prop extends Counts p where
  reserved : ∀ i, i < p.totalPages → p.frameReserved i = true → p.bitmapTest i = true
  zero : p.frameReserved 0 = true
  limit : p.allocLimitPages ≤ p.totalPages
  positive : 0 < p.totalPages
  placed : Placed p

theorem sound_core : Sound p.core ↔ Sound p :=
  ⟨fun h => { h with placed := { h.placed with } }, fun h => { h with placed := { h.placed with } }⟩

theorem Sound.congr (h : Sound p) (hc : q.core = p.core) : Sound q := by
  rw [← sound_core, hc, sound_core]
  exact h

variable {i : Nat}

theorem Sound.pos_of_clear (h : Sound p) (hi : p.bitmapTest i = false) : 0 < i := by
  rcases Nat.eq_zero_or_pos i with rfl | hpos
  · rw [h.reserved 0 h.positive h.zero] at hi
    cases hi
  · exact hpos

/-! ## Taking and freeing runs -/

/-- A run of frames is taken. -/
def take (p : Frames) (start n : Nat) : Frames :=
  { p with
    bitmap := Bitmap.setRun p.bitmap start n true
    usedPages := p.usedPages + n
    freePages := p.freePages - n }

/-- A run of frames is freed. -/
def drop (p : Frames) (start n : Nat) : Frames :=
  { p with
    bitmap := Bitmap.setRun p.bitmap start n false
    usedPages := p.usedPages - n
    freePages := p.freePages + n }

theorem bitmapTest_take (start n i : Nat) :
    (p.take start n).bitmapTest i = if start ≤ i ∧ i < start + n then true else p.bitmapTest i :=
  Bitmap.get_setRun ..

theorem bitmapTest_drop (start n i : Nat) :
    (p.drop start n).bitmapTest i = if start ≤ i ∧ i < start + n then false else p.bitmapTest i :=
  Bitmap.get_setRun ..

variable {n start fuel steps idx : Nat} {r : Nat × Frames}

theorem Counts.take (h : Counts p) (hn : start + n ≤ p.totalPages)
    (hclear : ∀ i, start ≤ i → i < start + n → p.bitmapTest i = false) : Counts (p.take start n) := by
  have hcard := Bitmap.card_frames_setRun hn hclear
  have hle := Bitmap.card_frames_le (Bitmap.setRun p.bitmap start n true) p.totalPages
  have hu := h.used
  have ht := h.total
  refine ⟨?_, ?_⟩
  · simp only [Frames.take]
    omega
  · simp only [Frames.take]
    omega

theorem Counts.drop (h : Counts p) (hn : start + n ≤ p.totalPages)
    (hset : ∀ i, start ≤ i → i < start + n → p.bitmapTest i = true) : Counts (p.drop start n) := by
  have hcard := Bitmap.card_frames_clearRun hn hset
  have hu := h.used
  have ht := h.total
  refine ⟨?_, ?_⟩
  · simp only [Frames.drop]
    omega
  · simp only [Frames.drop]
    omega

theorem Sound.take (h : Sound p) (hn : start + n ≤ p.allocLimitPages)
    (hclear : ∀ i, start ≤ i → i < start + n → p.bitmapTest i = false) : Sound (p.take start n) :=
  { h with
    toCounts := h.toCounts.take (Nat.le_trans hn h.limit) hclear
    reserved := by
      intro i hi hr
      rw [bitmapTest_take]
      split
      · rfl
      · exact h.reserved i hi hr
    placed := { h.placed with } }

theorem Sound.drop (h : Sound p) (hn : start + n ≤ p.totalPages)
    (hset : ∀ i, start ≤ i → i < start + n → p.bitmapTest i = true ∧ p.frameReserved i = false) :
    Sound (p.drop start n) :=
  { h with
    toCounts := h.toCounts.drop hn fun i hlo hhi => (hset i hlo hhi).1
    reserved := by
      intro i hi hr
      rw [bitmapTest_drop]
      split
      · rename_i hrun
        exact absurd hr (Bool.eq_false_iff.1 (hset i hrun.1 hrun.2).2)
      · exact h.reserved i hi hr
    placed := { h.placed with } }

/-! ## Boot -/

theorem offerFrame_eq (i : Nat) : p.offerFrame i = if p.bitmapTest i then p.drop i 1 else p := by
  simp only [offerFrame, Bitmap.set_eq_setRun, drop]

theorem protectFrame_eq (i : Nat) : p.protectFrame i = if p.bitmapTest i then p else p.take i 1 := by
  simp only [protectFrame, Bitmap.set_eq_setRun, take]
  cases p.bitmapTest i <;> rfl

/-- What the boot loops do not touch. -/
structure SameLayout (p q : Frames) : Prop where
  totalPages : q.totalPages = p.totalPages
  allocLimitPages : q.allocLimitPages = p.allocLimitPages
  bitmapPhysAddr : q.bitmapPhysAddr = p.bitmapPhysAddr
  bitmapTotalPages : q.bitmapTotalPages = p.bitmapTotalPages

theorem SameLayout.refl (p : Frames) : SameLayout p p := ⟨rfl, rfl, rfl, rfl⟩

theorem SameLayout.trans {r : Frames} (h : SameLayout p q) (h' : SameLayout q r) : SameLayout p r :=
  ⟨h'.1.trans h.1, h'.2.trans h.2, h'.3.trans h.3, h'.4.trans h.4⟩

theorem offerFrame_counts (h : Counts p) (hi : i < p.totalPages) :
    Counts (p.offerFrame i) ∧ SameLayout p (p.offerFrame i) := by
  rw [offerFrame_eq]
  split
  · rename_i ht
    refine ⟨h.drop hi ?_, rfl, rfl, rfl, rfl⟩
    intro j hlo hhi
    obtain rfl : j = i := by omega
    exact ht
  · exact ⟨h, .refl p⟩

theorem protectFrame_counts (h : Counts p) (hi : i < p.totalPages) :
    Counts (p.protectFrame i) ∧ SameLayout p (p.protectFrame i) := by
  rw [protectFrame_eq]
  split
  · exact ⟨h, .refl p⟩
  rename_i ht
  refine ⟨h.take hi ?_, rfl, rfl, rfl, rfl⟩
  intro j hlo hhi
  obtain rfl : j = i := by omega
  simpa using ht

/-- A loop each of whose rounds keeps the counters right. -/
theorem foldl_counts {α : Type} {f : Frames → α → Frames} {l : List α} (hstep : ∀ q, Counts q →
    q.totalPages = p.totalPages → ∀ a ∈ l, Counts (f q a) ∧ SameLayout q (f q a)) (h : Counts p) :
    Counts (l.foldl f p) ∧ SameLayout p (l.foldl f p) := by
  induction l generalizing p with
  | nil => exact ⟨h, .refl p⟩
  | cons a l ih =>
    obtain ⟨hc, hl⟩ := hstep p h rfl a (by simp)
    obtain ⟨hc', hl'⟩ := ih (fun q hq ht b hb => hstep q hq (ht.trans hl.totalPages) b (by simp [hb])) hc
    exact ⟨hc', hl.trans hl'⟩

theorem offerRegion_counts (h : Counts p) (entry : Option Region) :
    Counts (p.offerRegion entry) ∧ SameLayout p (p.offerRegion entry) := by
  unfold offerRegion
  split
  · exact ⟨h, .refl p⟩
  split
  · split
    · exact ⟨h, .refl p⟩
    rename_i r _ _ top _
    refine foldl_counts (fun q hq ht i hi => offerFrame_counts hq ?_) h
    have hstop : (if top > p.totalPages * PAGE_SIZE then p.totalPages * PAGE_SIZE else top) / PAGE_SIZE ≤
        p.totalPages := by
      split
      · rw [Nat.mul_div_cancel _ (by decide)]
      rename_i htop
      have : top / PAGE_SIZE ≤ p.totalPages * PAGE_SIZE / PAGE_SIZE := Nat.div_le_div_right (by omega)
      rwa [Nat.mul_div_cancel _ (by decide)] at this
    rw [mem_range'_1] at hi
    omega
  · exact ⟨h, .refl p⟩

theorem protectFrame_test (i j : Nat) : (p.protectFrame i).bitmapTest j = (p.bitmapTest j || decide (j = i)) := by
  rw [protectFrame_eq]
  by_cases hj : j = i
  · subst hj
    cases ht : p.bitmapTest j <;> simp [bitmapTest_take, ht]
  have hrun : ¬ (i ≤ j ∧ j < i + 1) := by omega
  have htake : (p.take i 1).bitmapTest j = p.bitmapTest j := by rw [bitmapTest_take, if_neg hrun]
  split <;> simp [htake, hj]

theorem protectManaged_counts (frames : List Nat) (h : Counts p) :
    Counts (frames.foldl protectManaged p) ∧ SameLayout p (frames.foldl protectManaged p) := by
  refine foldl_counts (fun q hq _ i _ => ?_) h
  unfold protectManaged
  split
  · exact protectFrame_counts hq ‹_›
  · exact ⟨hq, .refl q⟩

/-- The loop sets every managed frame of the list and clears none. -/
theorem protectManaged_test {frames : List Nat} {j : Nat}
    (h : p.bitmapTest j = true ∨ (j ∈ frames ∧ j < p.totalPages)) :
    (frames.foldl protectManaged p).bitmapTest j = true := by
  induction frames generalizing p with
  | nil => simpa using h
  | cons i frames ih =>
    rw [foldl_cons]
    apply ih
    unfold protectManaged
    split
    · rename_i hi
      have htotal : (p.protectFrame i).totalPages = p.totalPages := by
        rw [protectFrame_eq]
        split <;> rfl
      rw [protectFrame_test, htotal]
      rcases h with h | ⟨hmem, hj⟩
      · simp [h]
      rcases mem_cons.1 hmem with rfl | hmem
      · simp
      · exact .inr ⟨hmem, hj⟩
    rename_i hi
    rcases h with h | ⟨hmem, hj⟩
    · exact .inl h
    rcases mem_cons.1 hmem with rfl | hmem
    · exact absurd hj hi
    · exact .inr ⟨hmem, hj⟩

theorem placeIn_spec {bytes size phys : Nat} {r : Region} (h : placeIn bytes size r = some phys) :
    LOW_MEMORY ≤ phys ∧ phys % PAGE_SIZE = 0 ∧ phys + size ≤ bytes := by
  unfold placeIn at h
  split at h
  · cases h
  obtain ⟨top, -, hfit⟩ := Option.bind_eq_some_iff.1 h
  dsimp only at hfit
  split at hfit
  · rename_i hle
    cases hfit
    refine ⟨?_, Nat.mul_mod_left _ _, by omega⟩
    refine Nat.le_trans (Nat.le_max_right r.base.toNat _) ?_
    simp only [alignUp, PAGE_SIZE]
    omega
  · cases hfit

theorem placeBitmap_spec {limit size phys : Nat} (h : placeBitmap memmap limit size = some phys) :
    LOW_MEMORY ≤ phys ∧ phys % PAGE_SIZE = 0 ∧ phys + size ≤ limit * PAGE_SIZE := by
  obtain ⟨entry, -, he⟩ := exists_of_findSome?_eq_some h
  obtain ⟨r, -, hr⟩ := Option.bind_eq_some_iff.1 he
  exact placeIn_spec hr

theorem markBoot_sound (h : Counts p) (hlow : LOW_MEMORY ≤ p.bitmapPhysAddr) (haligned : p.bitmapPhysAddr % PAGE_SIZE = 0)
    (hne : 0 < p.bitmapTotalPages)
    (hfit : p.bitmapPhysAddr + p.bitmapTotalPages * PAGE_SIZE ≤ p.allocLimitPages * PAGE_SIZE)
    (hlimit : p.allocLimitPages ≤ p.totalPages) (hboot : p.allocLimitPages ≤ PMM_BOOT_ALLOC_LIMIT / PAGE_SIZE)
    (hcap : p.totalPages ≤ PMM_BITMAP_MAX_RAM_BYTES / PAGE_SIZE) : Sound (p.markBoot memmap) := by
  simp only [PAGE_SIZE] at *
  have hpos : 0 < p.totalPages := by omega
  obtain ⟨hc1, hl1⟩ := foldl_counts (fun _ hq _ entry _ => offerRegion_counts hq entry) h
  unfold markBoot
  dsimp only
  generalize memmap.foldl offerRegion p = q1 at hc1 hl1
  obtain ⟨hc2, hl2⟩ := protectFrame_counts hc1 (by rw [hl1.totalPages]; exact hpos)
  have hzero : (q1.protectFrame 0).bitmapTest 0 = true := by simp [protectFrame_test]
  replace hl2 := hl1.trans hl2
  generalize q1.protectFrame 0 = q2 at hc2 hl2 hzero
  obtain ⟨hc3, hl3⟩ := protectManaged_counts (range' (q2.bitmapPhysAddr / 4096) q2.bitmapTotalPages) hc2
  have hkeep : ∀ j, q2.bitmapTest j = true ∨
      (j ∈ range' (q2.bitmapPhysAddr / 4096) q2.bitmapTotalPages ∧ j < q2.totalPages) →
      ((range' (q2.bitmapPhysAddr / 4096) q2.bitmapTotalPages).foldl protectManaged q2).bitmapTest j = true :=
    fun j => protectManaged_test
  generalize (range' (q2.bitmapPhysAddr / 4096) q2.bitmapTotalPages).foldl protectManaged q2 = q3 at *
  have hl := hl2.trans hl3
  refine ⟨⟨hc3.used, hc3.total⟩, fun i _ hi => hi, hkeep 0 (.inl hzero), ?_, ?_, ?_, ?_, ?_, ?_, ?_, ?_, ?_⟩
  all_goals simp only [hl.totalPages, hl.allocLimitPages, hl.bitmapPhysAddr, hl.bitmapTotalPages, PAGE_SIZE]
  · exact hlimit
  · exact hpos
  · exact hlow
  · exact haligned
  · exact hne
  · have hmul := Nat.mul_le_mul_right 4096 hboot
    rw [Nat.div_mul_cancel (by decide)] at hmul
    exact Nat.le_trans hfit hmul
  · exact Nat.le_trans hfit (Nat.mul_le_mul_right _ hlimit)
  · exact hcap
  intro i hi
  refine hkeep _ (.inr ⟨?_, ?_⟩)
  · rw [mem_range'_1, hl2.bitmapPhysAddr, hl2.bitmapTotalPages]
    omega
  · rw [hl2.totalPages]
    omega

theorem frames_full (n : Nat) : (Bitmap.frames (fun _ => 0xff) n).card = n := by
  have : Bitmap.frames (fun _ => 0xff) n = Finset.range n := by
    ext i
    simp [Bitmap.mem_frames, Bitmap.get_of_full]
  rw [this, Finset.card_range]

theorem pmmInit_sound (h : pmmInit memmap = some p) : Sound p := by
  unfold pmmInit at h
  dsimp only at h
  split at h
  · cases h
  generalize hhigh : (if highestAddr memmap > PMM_BITMAP_MAX_RAM_BYTES then PMM_BITMAP_MAX_RAM_BYTES
    else highestAddr memmap) = highest at h
  have hmax : highest ≤ PMM_BITMAP_MAX_RAM_BYTES := by
    rw [← hhigh]
    split <;> omega
  split at h
  · cases h
  rename_i hpos
  generalize hlimit : (if highest / PAGE_SIZE > PMM_BOOT_ALLOC_LIMIT / PAGE_SIZE then PMM_BOOT_ALLOC_LIMIT / PAGE_SIZE
    else highest / PAGE_SIZE) = limit at h
  have hle : limit ≤ highest / PAGE_SIZE ∧ limit ≤ PMM_BOOT_ALLOC_LIMIT / PAGE_SIZE := by
    rw [← hlimit]
    split <;> omega
  split at h
  · cases h
  rename_i phys hplace
  obtain ⟨hlow, haligned, hfit⟩ := placeBitmap_spec hplace
  cases h
  have hsize : alignUp ((highest / PAGE_SIZE + 7) / 8) / PAGE_SIZE * PAGE_SIZE =
      alignUp ((highest / PAGE_SIZE + 7) / 8) := by
    simp only [alignUp]
    rw [Nat.mul_div_cancel _ (by decide)]
  refine markBoot_sound ⟨frames_full _, rfl⟩ hlow haligned ?_ ?_ hle.1 hle.2 (Nat.div_le_div_right hmax)
  · simp only [alignUp, PAGE_SIZE] at *
    omega
  rw [hsize]
  exact hfit

/-! ## Allocating -/

theorem scanAbove_spec (h : (p.scanAbove fuel i steps).1 = some idx) :
    idx < p.allocLimitPages ∧ p.bitmapTest idx = false := by
  induction fuel generalizing i steps with
  | zero => cases h
  | succ fuel ih =>
    unfold scanAbove at h
    split at h
    · rename_i hi
      split at h
      · rename_i hclear
        cases h
        exact ⟨hi, by simpa using hclear⟩
      · exact ih h
    · cases h

theorem scanPage_spec (h : (p.scanPage fuel i steps).1 = some idx) :
    idx < p.allocLimitPages ∧ p.bitmapTest idx = false := by
  induction fuel generalizing i steps with
  | zero => cases h
  | succ fuel ih =>
    unfold scanPage at h
    split at h
    · rename_i hi
      dsimp only at h
      split at h
      · exact ih h
      split at h
      · rename_i hclear
        cases h
        exact ⟨Nat.mod_lt _ (by omega), by simpa using hclear⟩
      · exact ih h
    · cases h

/-- The loop keeps that the last `consecutive` frames, from `startIdx`, are clear. -/
theorem scanRun_spec {count fuel consecutive startIdx steps : Nat}
    (hrun : consecutive = 0 ∨ startIdx + consecutive = i)
    (hclear : ∀ j, startIdx ≤ j → j < startIdx + consecutive → p.bitmapTest j = false)
    (h : (p.scanRun count fuel i consecutive startIdx steps).1 = some start) :
    start + count ≤ p.allocLimitPages ∧ ∀ j, start ≤ j → j < start + count → p.bitmapTest j = false := by
  induction fuel generalizing i consecutive startIdx steps with
  | zero => cases h
  | succ fuel ih =>
    unfold scanRun at h
    split at h
    · rename_i hi
      split at h
      · rename_i hnow
        have hnow : p.bitmapTest i = false := by simpa using hnow
        have hstart : (if consecutive = 0 then i else startIdx) + consecutive = i := by
          split <;> omega
        have hclear' : ∀ j, (if consecutive = 0 then i else startIdx) ≤ j →
            j < (if consecutive = 0 then i else startIdx) + (consecutive + 1) → p.bitmapTest j = false := by
          intro j hlo hhi
          by_cases hj : j = i
          · rw [hj]
            exact hnow
          split at hlo
          · omega
          rename_i hne
          rw [if_neg hne] at hhi hstart
          exact hclear j hlo (by omega)
        generalize (if consecutive = 0 then i else startIdx) = s at h hstart hclear'
        split at h
        · rename_i hcount
          cases h
          subst hcount
          exact ⟨by omega, hclear'⟩
        · exact ih (.inr (by omega)) hclear' h
      · exact ih (.inl rfl) (by intro j hlo hhi; omega) h
    · cases h

/-- What an allocation of `n` frames may do: nothing, returning 0, or take a run of clear frames
below the limit and return its address. -/
def AllocSpec (p : Frames) (n : Nat) (r : Nat × Frames) : Prop :=
  (r.1 = 0 ∧ r.2.core = p.core) ∨
    ∃ start, r.1 = start * PAGE_SIZE ∧ 0 < start ∧ start + n ≤ p.allocLimitPages ∧
      (∀ i, start ≤ i → i < start + n → p.bitmapTest i = false) ∧ r.2.core = (p.take start n).core

theorem recordScan_core (steps : Nat) : (p.recordScan steps).core = p.core := by
  unfold recordScan
  split <;> rfl

theorem counted_snd_core (addr : Nat) : (p.counted addr).2.core = p.core := by
  unfold counted
  split <;> rfl

theorem AllocSpec.counted (h : AllocSpec p n r) : AllocSpec p n (r.2.counted r.1) := by
  rcases h with ⟨h0, hc⟩ | ⟨start, ha, hpos, hn, hclear, hc⟩
  · exact .inl ⟨h0, by rw [counted_snd_core, hc]⟩
  · exact .inr ⟨start, ha, hpos, hn, hclear, by rw [counted_snd_core, hc]⟩

theorem AllocSpec.one (h : Sound p) (hi : i < p.allocLimitPages) (hclear : p.bitmapTest i = false)
    (hc : q.core = (p.takeFrame i).core) : AllocSpec p 1 (i * PAGE_SIZE, q) := by
  refine .inr ⟨i, rfl, h.pos_of_clear hclear, hi, ?_, ?_⟩
  · intro j hlo hhi
    obtain rfl : j = i := by omega
    exact hclear
  · rw [hc]
    simp only [takeFrame, take, Bitmap.set_eq_setRun]

theorem pmmAllocPageAbove_spec (h : Sound p) (minPhys : UInt64) : AllocSpec p 1 (p.pmmAllocPageAbove minPhys) := by
  unfold pmmAllocPageAbove
  dsimp only
  split
  · rename_i i steps hs
    obtain ⟨hi, hclear⟩ := scanAbove_spec (congrArg Prod.fst hs)
    exact (AllocSpec.one h hi hclear (recordScan_core steps)).counted
  · rename_i steps hs
    exact AllocSpec.counted (r := (0, p.recordScan steps)) (.inl ⟨rfl, recordScan_core steps⟩)

theorem pmmAllocPageUnlocked_spec (h : Sound p) : AllocSpec p 1 p.pmmAllocPageUnlocked := by
  unfold pmmAllocPageUnlocked
  split
  · rename_i i steps hs
    obtain ⟨hi, hclear⟩ := scanPage_spec (congrArg Prod.fst hs)
    refine AllocSpec.one h hi hclear ?_
    rw [recordScan_core]
    rfl
  · rename_i steps hs
    exact .inl ⟨rfl, recordScan_core steps⟩

theorem pmmAllocPage_spec (h : Sound p) : AllocSpec p 1 p.pmmAllocPage := (pmmAllocPageUnlocked_spec h).counted

theorem pmmAllocPages_spec (h : Sound p) (count : Nat) : AllocSpec p count (p.pmmAllocPages count) := by
  refine AllocSpec.counted (r := p.pmmAllocPagesUnlocked count) ?_
  unfold pmmAllocPagesUnlocked
  split
  · exact .inl ⟨rfl, rfl⟩
  split
  · rename_i hone
    rw [hone]
    exact pmmAllocPageUnlocked_spec h
  rename_i hzero hone
  split
  · rename_i start steps hs
    obtain ⟨hn, hclear⟩ := scanRun_spec (.inl rfl) (by intro j hlo hhi; omega) (congrArg Prod.fst hs)
    refine .inr ⟨start, rfl, h.pos_of_clear (hclear start le_rfl (by omega)), hn, hclear, ?_⟩
    rw [recordScan_core]
    rfl
  · rename_i steps hs
    exact .inl ⟨rfl, recordScan_core steps⟩

theorem AllocSpec.sound (h : Sound p) (hr : AllocSpec p n r) : Sound r.2 := by
  rcases hr with ⟨-, hc⟩ | ⟨start, -, -, hn, hclear, hc⟩
  · exact h.congr hc
  · exact (h.take hn hclear).congr hc

/-! ## Freeing -/

/-- A free is rejected, or frees the run it names, which was in use and not reserved. -/
theorem pmmFreePages_cases (p : Frames) (physAddr count : Nat) :
    p.pmmFreePages physAddr count = p.rejectFree ∨
      ((p.pmmFreePages physAddr count).core = (p.drop (physAddr / PAGE_SIZE) count).core ∧
        (p.pmmFreePages physAddr count).rejectedFrees = p.rejectedFrees ∧
        physAddr / PAGE_SIZE + count ≤ p.totalPages ∧
        ∀ i, physAddr / PAGE_SIZE ≤ i → i < physAddr / PAGE_SIZE + count →
          p.bitmapTest i = true ∧ p.frameReserved i = false) := by
  unfold pmmFreePages
  dsimp only
  split
  · exact .inl rfl
  rename_i hargs
  split
  · exact .inl rfl
  rename_i hrun
  refine .inr ⟨rfl, rfl, by omega, ?_⟩
  intro i hlo hhi
  simp only [any_eq_true, not_exists, not_and, mem_range] at hrun
  have := hrun (i - physAddr / PAGE_SIZE) (by omega)
  rw [Nat.add_sub_cancel' hlo] at this
  simpa [and_comm] using this

theorem pmmFreePages_sound (h : Sound p) (physAddr count : Nat) : Sound (p.pmmFreePages physAddr count) := by
  rcases p.pmmFreePages_cases physAddr count with hr | ⟨hc, -, hn, hset⟩
  · rw [hr]
    exact h.congr rfl
  · exact (h.drop hn hset).congr hc

theorem pmmUnlockHighMemory_cases (p : Frames) (ready : Bool) :
    (p.pmmUnlockHighMemory ready).2 = p ∨
      (p.pmmUnlockHighMemory ready).2 = { p with allocLimitPages := p.totalPages, highMemoryEnabled := true } := by
  unfold pmmUnlockHighMemory
  split
  · exact .inl rfl
  split
  · exact .inl rfl
  · exact .inr rfl

end Fortress.Pmm.Frames

namespace Fortress.Pmm

/-! ## Runs -/

/-- The manager, and what its callers hold: for each allocation the frames of it that have not
been freed. -/
structure System where
  frames : Frames
  live : List (List Nat) := []

namespace System

/-- A caller notes the run it was given, if any. -/
def given (s : System) (n : Nat) (r : Nat × Frames) : System :=
  ⟨r.2, if r.1 = 0 then s.live else List.range' (r.1 / PAGE_SIZE) n :: s.live⟩

/-- A free that was not rejected ends what it names, whoever holds it. -/
def freed (s : System) (physAddr n : Nat) (p : Frames) : System :=
  ⟨p, if p.rejectedFrees = s.frames.rejectedFrees then
      s.live.map fun a => a.filter fun f => !decide (physAddr / PAGE_SIZE ≤ f ∧ f < physAddr / PAGE_SIZE + n)
    else s.live⟩

def step (s : System) : Call → System
  | .allocPage => s.given 1 s.frames.pmmAllocPage
  | .allocPages n => s.given n (s.frames.pmmAllocPages n)
  | .allocPageAbove minPhys => s.given 1 (s.frames.pmmAllocPageAbove minPhys)
  | .freePage physAddr => s.freed physAddr 1 (s.frames.pmmFreePage physAddr)
  | .freePages physAddr n => s.freed physAddr n (s.frames.pmmFreePages physAddr n)
  | .unlockHighMemory ready => { s with frames := (s.frames.pmmUnlockHighMemory ready).2 }

/-- The calls made after boot, by anyone. -/
def run (p : Frames) (calls : List Call) : System := calls.foldl step ⟨p, []⟩

/-- Frames that are held are in use and not reserved, and no two allocations hold the same. -/
structure Inv (s : System) : Prop extends Frames.Sound s.frames where
  held : ∀ a ∈ s.live, ∀ f ∈ a, f < s.frames.totalPages ∧ s.frames.bitmapTest f = true ∧
    s.frames.frameReserved f = false
  disjoint : s.live.Pairwise List.Disjoint

variable {s : System} {r : Nat × Frames} {p : Frames}

/-- Nothing changes hands. -/
theorem Inv.kept (h : Inv s) (hp : p.Sound) (hc : p.totalPages = s.frames.totalPages ∧ p.bitmap = s.frames.bitmap ∧
    p.reservedBitmap = s.frames.reservedBitmap) :
    Inv ⟨p, s.live⟩ ∧ p.reservedBitmap = s.frames.reservedBitmap := by
  refine ⟨⟨hp, ?_, h.disjoint⟩, hc.2.2⟩
  simpa [Frames.bitmapTest, Frames.frameReserved, hc] using h.held

theorem Inv.given {n : Nat} (h : Inv s) (hr : s.frames.AllocSpec n r) :
    Inv (s.given n r) ∧ r.2.reservedBitmap = s.frames.reservedBitmap := by
  have hsound := hr.sound h.toSound
  rcases hr with ⟨h0, hc⟩ | ⟨start, ha, hpos, hn, hclear, hc⟩
  · rw [System.given, if_pos h0]
    exact h.kept hsound (Frames.core_fields hc)
  obtain ⟨htotal, hbitmap, hres⟩ := Frames.core_fields hc
  replace htotal : r.2.totalPages = s.frames.totalPages := htotal
  replace hres : r.2.reservedBitmap = s.frames.reservedBitmap := hres
  have hlimit := h.limit
  have hne : r.1 ≠ 0 := by
    rw [ha]
    exact Nat.mul_ne_zero (by omega) (by decide)
  have hstart : r.1 / PAGE_SIZE = start := by
    rw [ha]
    exact Nat.mul_div_cancel _ (by decide)
  have htest : ∀ i, r.2.bitmapTest i = if start ≤ i ∧ i < start + n then true else s.frames.bitmapTest i := by
    intro i
    rw [← Frames.bitmapTest_take, Frames.bitmapTest, hbitmap]
    rfl
  rw [System.given, if_neg hne, hstart]
  refine ⟨⟨hsound, ?_, List.pairwise_cons.2 ⟨?_, h.disjoint⟩⟩, hres⟩
  · intro a ha f hf
    simp only [htotal, htest, Frames.frameReserved, hres]
    rcases List.mem_cons.1 ha with rfl | ha
    · rw [List.mem_range'_1] at hf
      refine ⟨by omega, by rw [if_pos hf], ?_⟩
      by_contra hreserved
      have := h.reserved f (by omega) (by simpa [Frames.frameReserved] using hreserved)
      rw [hclear f hf.1 hf.2] at this
      cases this
    · obtain ⟨hlt, ht, hr⟩ := h.held a ha f hf
      exact ⟨hlt, by split <;> simp [ht], hr⟩
  intro a ha f hf hfa
  rw [List.mem_range'_1] at hf
  have := (h.held a ha f hfa).2.1
  rw [hclear f hf.1 hf.2] at this
  cases this

theorem Inv.freed (h : Inv s) (physAddr n : Nat) :
    Inv (s.freed physAddr n (s.frames.pmmFreePages physAddr n)) ∧
      (s.frames.pmmFreePages physAddr n).reservedBitmap = s.frames.reservedBitmap := by
  have hsound := Frames.pmmFreePages_sound h.toSound physAddr n
  rcases s.frames.pmmFreePages_cases physAddr n with hr | ⟨hc, hrej, hn, hset⟩
  · rw [hr] at hsound ⊢
    rw [System.freed, if_neg (by simp [Frames.rejectFree])]
    exact h.kept hsound ⟨rfl, rfl, rfl⟩
  generalize s.frames.pmmFreePages physAddr n = q at hsound hc hrej ⊢
  obtain ⟨htotal, hbitmap, hres⟩ := Frames.core_fields hc
  replace htotal : q.totalPages = s.frames.totalPages := htotal
  replace hres : q.reservedBitmap = s.frames.reservedBitmap := hres
  rw [System.freed, if_pos hrej]
  refine ⟨⟨hsound, ?_, List.Pairwise.map _ ?_ h.disjoint⟩, hres⟩
  · intro a ha f hf
    obtain ⟨b, hb, rfl⟩ := List.mem_map.1 ha
    simp only [List.mem_filter, Bool.not_eq_true', decide_eq_false_iff_not] at hf
    obtain ⟨hlt, ht, hr⟩ := h.held b hb f hf.1
    simp only [htotal, Frames.frameReserved, hres]
    refine ⟨hlt, ?_, hr⟩
    rw [Frames.bitmapTest, hbitmap]
    exact (Frames.bitmapTest_drop _ _ f).trans (by rw [if_neg hf.2, ht])
  intro a b hab f hfa hfb
  exact hab (List.mem_filter.1 hfa).1 (List.mem_filter.1 hfb).1

/-- Every call keeps the invariant, and the reservations of boot. -/
theorem Inv.step (h : Inv s) (c : Call) :
    Inv (s.step c) ∧ (s.step c).frames.reservedBitmap = s.frames.reservedBitmap := by
  cases c with
  | allocPage => exact h.given (Frames.pmmAllocPage_spec h.toSound)
  | allocPages n => exact h.given (Frames.pmmAllocPages_spec h.toSound n)
  | allocPageAbove minPhys => exact h.given (Frames.pmmAllocPageAbove_spec h.toSound minPhys)
  | freePage physAddr => exact h.freed physAddr 1
  | freePages physAddr n => exact h.freed physAddr n
  | unlockHighMemory ready =>
    rw [System.step]
    rcases s.frames.pmmUnlockHighMemory_cases ready with he | he
    · rw [he]
      exact ⟨h, rfl⟩
    · rw [he]
      exact h.kept { h.toSound with limit := le_rfl, placed := { h.placed with } } ⟨rfl, rfl, rfl⟩

variable {memmap : List (Option Region)}

theorem Inv.foldl {calls : List Call} (h : Inv s) :
    Inv (calls.foldl System.step s) ∧ (calls.foldl System.step s).frames.reservedBitmap = s.frames.reservedBitmap := by
  induction calls generalizing s with
  | nil => exact ⟨h, rfl⟩
  | cons c calls ih =>
    obtain ⟨hinv, hres⟩ := ih (h.step c).1
    exact ⟨hinv, hres.trans (h.step c).2⟩

theorem boot_inv (h : Frames.pmmInit memmap = some p) : Inv ⟨p, []⟩ :=
  ⟨Frames.pmmInit_sound h, by simp, .nil⟩

theorem run_inv (h : Frames.pmmInit memmap = some p) (calls : List Call) :
    Inv (run p calls) := (boot_inv h).foldl.1

end System

/-! ## Nothing that is free is missed -/

namespace Frames

variable {p : Frames} {i : Nat}

/-- `n` clear frames in a row below the limit. -/
def HasRun (p : Frames) (n : Nat) : Prop :=
  ∃ start, start + n ≤ p.allocLimitPages ∧ ∀ i, start ≤ i → i < start + n → p.bitmapTest i = false

/-- The rounds before `i` saw set frames only; those that are left see the rest of the circle. -/
theorem scanPage_none {fuel steps : Nat} (hfuel : p.allocLimitPages ≤ i + fuel)
    (hseen : ∀ j < i, p.bitmapTest ((p.lastAllocatedIndex + j) % p.allocLimitPages) = true)
    (h : (p.scanPage fuel i steps).1 = none) :
    ∀ j < p.allocLimitPages, p.bitmapTest ((p.lastAllocatedIndex + j) % p.allocLimitPages) = true := by
  induction fuel generalizing i steps with
  | zero => exact fun j hj => hseen j (by omega)
  | succ fuel ih =>
    unfold scanPage at h
    split at h
    · rename_i hi
      dsimp only at h
      generalize hidx : (p.lastAllocatedIndex + i) % p.allocLimitPages = idx at h
      split at h
      · rename_i hskip
        refine ih (by omega) (fun j hj => ?_) h
        by_cases hji : j < i
        · exact hseen j hji
        -- the eight frames of a full byte
        have hmod : (p.lastAllocatedIndex + j) % p.allocLimitPages = idx + (j - i) := by
          rw [show p.lastAllocatedIndex + j = p.lastAllocatedIndex + i + (j - i) by omega, Nat.add_mod, hidx,
            Nat.mod_eq_of_lt (show j - i < _ by omega), Nat.mod_eq_of_lt (by omega)]
        rw [hmod]
        refine Bitmap.get_of_full ?_
        rw [show (idx + (j - i)) / 8 = idx / 8 by omega]
        exact hskip.2.2.2
      split at h
      · cases h
      rename_i hset
      refine ih (by omega) (fun j hj => ?_) h
      by_cases hji : j < i
      · exact hseen j hji
      obtain rfl : j = i := by omega
      rw [hidx]
      simpa using hset
    · exact fun j hj => hseen j (by omega)

theorem scanPage_complete {steps : Nat} (h : (p.scanPage p.allocLimitPages 0 steps).1 = none)
    (hi : i < p.allocLimitPages) : p.bitmapTest i = true := by
  have hall := scanPage_none (by omega) (fun j hj => by omega) h
  obtain ⟨j, hj, he⟩ : ∃ j < p.allocLimitPages, (p.lastAllocatedIndex + j) % p.allocLimitPages = i := by
    have hlast := Nat.mod_lt p.lastAllocatedIndex (show 0 < p.allocLimitPages by omega)
    rcases Nat.lt_or_ge i (p.lastAllocatedIndex % p.allocLimitPages) with hl | hl
    · refine ⟨i + p.allocLimitPages - p.lastAllocatedIndex % p.allocLimitPages, by omega, ?_⟩
      rw [← Nat.mod_add_mod, Nat.add_sub_cancel' (by omega), Nat.add_mod_right, Nat.mod_eq_of_lt hi]
    · refine ⟨i - p.lastAllocatedIndex % p.allocLimitPages, by omega, ?_⟩
      rw [← Nat.mod_add_mod, Nat.add_sub_cancel' hl, Nat.mod_eq_of_lt hi]
  exact he ▸ hall j hj

/-- No run ends before `i`, and the run that ends there is too short. -/
theorem scanRun_none {count fuel consecutive startIdx steps : Nat} (hfuel : p.allocLimitPages ≤ i + fuel)
    (hshort : consecutive < count) (hlast : consecutive < i → p.bitmapTest (i - consecutive - 1) = true)
    (hseen : ∀ s, s + count ≤ i → ∃ j, s ≤ j ∧ j < s + count ∧ p.bitmapTest j = true)
    (h : (p.scanRun count fuel i consecutive startIdx steps).1 = none) (s : Nat)
    (hs : s + count ≤ p.allocLimitPages) : ∃ j, s ≤ j ∧ j < s + count ∧ p.bitmapTest j = true := by
  induction fuel generalizing i consecutive startIdx steps with
  | zero => exact hseen s (by omega)
  | succ fuel ih =>
    unfold scanRun at h
    split at h
    · split at h
      · dsimp only at h
        split at h
        · cases h
        refine ih (by omega) (by omega) (fun hc => ?_) (fun s hs => ?_) h
        · rw [show i + 1 - (consecutive + 1) - 1 = i - consecutive - 1 by omega]
          exact hlast (by omega)
        · by_cases hsi : s + count ≤ i
          · exact hseen s hsi
          · exact ⟨i - consecutive - 1, by omega, by omega, hlast (by omega)⟩
      rename_i hset
      have hset : p.bitmapTest i = true := by simpa using hset
      refine ih (by omega) (by omega) (fun _ => show p.bitmapTest (i + 1 - 0 - 1) = true from hset) (fun s hs => ?_) h
      by_cases hsi : s + count ≤ i
      · exact hseen s hsi
      · exact ⟨i, by omega, by omega, hset⟩
    · exact hseen s (by omega)

theorem pmmAllocPageUnlocked_zero_iff (h : Sound p) :
    p.pmmAllocPageUnlocked.1 = 0 ↔ ∀ i < p.allocLimitPages, p.bitmapTest i = true := by
  constructor
  · unfold pmmAllocPageUnlocked
    split
    · rename_i idx steps hs
      intro h0
      have := h.pos_of_clear (scanPage_spec (congrArg Prod.fst hs)).2
      simp at h0
      omega
    · rename_i steps hs
      exact fun _ i hi => scanPage_complete (congrArg Prod.fst hs) hi
  intro hall
  obtain ⟨h0, -⟩ | ⟨start, -, -, hn, hclear, -⟩ := pmmAllocPageUnlocked_spec h
  · exact h0
  · have := hclear start le_rfl (by omega)
    rw [hall start (by omega)] at this
    cases this

theorem pmmAllocPagesUnlocked_zero_iff (h : Sound p) (count : Nat) :
    (p.pmmAllocPagesUnlocked count).1 = 0 ↔ count = 0 ∨ ¬p.HasRun count := by
  unfold pmmAllocPagesUnlocked
  split
  · rename_i hc
    refine iff_of_true rfl (hc.imp_right fun hc => ?_)
    rintro ⟨s, hs, -⟩
    omega
  rename_i hc
  rw [or_iff_right (by omega)]
  split
  · rename_i hone
    rw [pmmAllocPageUnlocked_zero_iff h, hone]
    constructor
    · rintro hall ⟨s, hs, hclear⟩
      have := hclear s le_rfl (by omega)
      rw [hall s hs] at this
      cases this
    intro hno i hi
    by_contra hi'
    refine hno ⟨i, hi, fun j hlo hhi => ?_⟩
    obtain rfl : j = i := by omega
    simpa using hi'
  split
  · rename_i start steps hs
    obtain ⟨hn, hclear⟩ := scanRun_spec (.inl rfl) (by intro j hlo hhi; omega) (congrArg Prod.fst hs)
    have hpos := h.pos_of_clear (hclear start le_rfl (by omega))
    exact iff_of_false (Nat.mul_ne_zero (by omega) (by decide)) (not_not.2 ⟨start, hn, hclear⟩)
  rename_i steps hs
  refine iff_of_true rfl ?_
  rintro ⟨s, hs', hclear⟩
  obtain ⟨j, hlo, hhi, hset⟩ :=
    scanRun_none (by omega) (by omega) (by omega) (fun s hs => by omega) (congrArg Prod.fst hs) s hs'
  rw [hclear j hlo hhi] at hset
  cases hset

end Frames

/-- **The allocator misses nothing**: after boot and any calls, wherever the search for one frame starts, a frame is
refused only if every frame below the limit is in use, and a run only if it is empty or no run of that length is
free below the limit. -/
theorem pmm_alloc_complete {memmap : List (Option Region)} {p : Frames} (h : Frames.pmmInit memmap = some p)
    (calls : List Call) (hint count : Nat) :
    let q := { (System.run p calls).frames with lastAllocatedIndex := hint }
    (q.pmmAllocPageUnlocked.1 = 0 ↔ ∀ i < q.allocLimitPages, q.bitmapTest i = true) ∧
      ((q.pmmAllocPagesUnlocked count).1 = 0 ↔ count = 0 ∨ ¬q.HasRun count) := by
  have hs : Frames.Sound { (System.run p calls).frames with lastAllocatedIndex := hint } :=
    (System.run_inv h calls).toSound.congr rfl
  exact ⟨Frames.pmmAllocPageUnlocked_zero_iff hs, Frames.pmmAllocPagesUnlocked_zero_iff hs count⟩

/-- Four frames at 1 MiB, the first of them for the bitmap. -/
def smallMap : List (Option Region) := [some ⟨0x100000, 0x4000, .usable⟩]

/-- Nine frames at 1 MiB, all for the bitmap, and two that cannot be allocated before high memory is unlocked. -/
def highMap : List (Option Region) := [some ⟨0x100000, 0x9000, .usable⟩, some ⟨0x40000000, 0x2000, .usable⟩]

/-- What a memory map that can be used is booted to. -/
def booted (memmap : List (Option Region)) (h : (Frames.pmmInit memmap).isSome = true) : Frames :=
  (Frames.pmmInit memmap).get h

theorem pmmInit_booted {memmap : List (Option Region)} (h : (Frames.pmmInit memmap).isSome = true) :
    Frames.pmmInit memmap = some (booted memmap h) :=
  (Option.some_get h).symm

def smallFrames : Frames := booted smallMap (by decide +kernel)

def highFrames : Frames := booted highMap (by decide +kernel)

theorem pmmInit_smallMap : Frames.pmmInit smallMap = some smallFrames := pmmInit_booted _

theorem pmmInit_highMap : Frames.pmmInit highMap = some highFrames := pmmInit_booted _

/-- The hint is at the last frame of the only free run. -/
theorem pmm_alloc_complete_hint :
    let q := { (System.run smallFrames [.allocPage]).frames with lastAllocatedIndex := 259 }
    q.bitmapTest 257 = true ∧ q.pmmAllocPageUnlocked.1 ≠ 0 ∧ (q.pmmAllocPagesUnlocked 2).1 ≠ 0 := by
  intro q
  obtain ⟨hpage, hpages⟩ := pmm_alloc_complete pmmInit_smallMap [.allocPage] 259 2
  have hrun : q.HasRun 2 := ⟨258, by decide +kernel, fun i hi hlt => by
    interval_cases i <;> decide +kernel⟩
  exact ⟨by decide +kernel, fun h => absurd (hpage.1 h 258 (by decide +kernel)) (by decide +kernel),
    fun h => (hpages.1 h).elim (by decide) (absurd hrun)⟩

/-- An empty run is free everywhere, and refused; and a run above the limit is not looked at. -/
theorem pmm_alloc_empty_or_high_run :
    ((highFrames.pmmAllocPagesUnlocked 0).1 = 0 ∧ highFrames.HasRun 0) ∧
    (highFrames.pmmAllocPagesUnlocked 2).1 = 0 ∧ highFrames.totalPages = 262146 ∧
      highFrames.bitmapTest 262144 = false ∧ highFrames.bitmapTest 262145 = false := by
  have hs : highFrames.Sound := (System.run_inv pmmInit_highMap []).toSound
  have hcount : highFrames.totalPages = 262146 ∧ highFrames.usedPages = 262144 ∧
    highFrames.allocLimitPages = 262144 := by decide +kernel
  have hhigh : highFrames.bitmapTest 262144 = false ∧ highFrames.bitmapTest 262145 = false := by decide +kernel
  refine ⟨⟨by simp [Frames.pmmAllocPagesUnlocked], 0, Nat.zero_le _, fun i _ _ => by omega⟩, ?_, hcount.1, hhigh⟩
  -- A free frame below the limit would be a third one, and there are two.
  refine (Frames.pmmAllocPagesUnlocked_zero_iff hs 2).2 (.inr fun ⟨i, hle, hfree⟩ => ?_)
  have hone : (Bitmap.frames (Bitmap.setRun highFrames.bitmap i 1 true) highFrames.totalPages).card = _ :=
    Bitmap.card_frames_setRun (by omega) fun j hj hlt => hfree j hj (by omega)
  have hthree : (Bitmap.frames (Bitmap.setRun (Bitmap.setRun highFrames.bitmap i 1 true) 262144 2 true)
      highFrames.totalPages).card = _ := Bitmap.card_frames_setRun (by omega) fun j hj hlt => by
    rw [Bitmap.get_setRun, if_neg (by omega)]
    obtain rfl | rfl : j = 262144 ∨ j = 262145 := by omega
    · exact hhigh.1
    · exact hhigh.2
  have hall := Bitmap.card_frames_le (Bitmap.setRun (Bitmap.setRun highFrames.bitmap i 1 true) 262144 2 true)
    highFrames.totalPages
  have hused := hs.used
  omega

end Fortress.Pmm
