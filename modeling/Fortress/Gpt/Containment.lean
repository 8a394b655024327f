/-
What a successful parse guarantees. The published partitions are disjoint,
inside the usable range of the chosen header and clear of LBA 0, the primary
header and the chosen entry array; every request on a partition device stays
between its first and last sector. The backup header at the last sector is
another matter: a backup header is refused when the usable range reaches it
(its array has to fit in between), but the same range in the primary header
passes, and the disk is then read in degraded mode with a partition that may
run over the backup header. And the CRC of a header longer than the record
depends on the stack.
-/
import Fortress.Gpt.Table

namespace Fortress.Gpt

open Codec Block List

/-! ## Headers that pass -/

/-- What the checks say of where a side's header puts things. -/
structure Placed (d : Disk) (isPrimary : Bool) (h : Header) : Prop where
  current : h.currentLba = d.headerLba isPrimary
  usable : h.firstUsableLba ≤ h.lastUsableLba
  last : h.lastUsableLba < d.dev.sectorCount
  first : 1 < h.firstUsableLba
  array : match isPrimary with
    | true => h.partitionEntryLba + h.arraySectors d.dev.sectorSize ≤ h.firstUsableLba
    | false => h.lastUsableLba < h.partitionEntryLba ∧
        h.partitionEntryLba + h.arraySectors d.dev.sectorSize ≤ h.currentLba

variable {h : Header}

theorem arraySectors_lt {size : Nat} (hb : ¬h.arrayBytes > GPT_MAX_ARRAY_BYTES) : h.arraySectors size < 2 ^ 64 := by
  rcases Nat.eq_zero_or_pos size with rfl | hs
  · simp [Header.arraySectors]
  have : h.arraySectors size ≤ h.arrayBytes := by
    refine Nat.le_of_lt_succ ((Nat.div_lt_iff_lt_mul hs).2 ?_)
    have : h.arrayBytes ≤ h.arrayBytes * size := Nat.le_mul_of_pos_right _ hs
    rw [Nat.succ_mul]
    omega
  have : GPT_MAX_ARRAY_BYTES < 2 ^ 64 := by decide
  omega

variable {d : Disk} {isPrimary : Bool}

theorem placed_of_valid {stack : Bytes} (he : h.partitionEntryLba < 2 ^ 64)
    (hv : gptValidateHeader h (d.headerLba isPrimary) d.dev.sectorCount d.dev.sectorSize isPrimary stack = true) :
    Placed d isPrimary h := by
  unfold gptValidateHeader at hv
  simp only [Bool.if_false_left, Bool.and_eq_true, Bool.not_eq_true', decide_eq_false_iff_not, not_or] at hv
  obtain ⟨-, -, -, hcur, ⟨hfl, hlast⟩, hfirst, -, -, hbytes, ⟨hwrap, -⟩, hplaced, -⟩ := hv
  have hlt := @arraySectors_lt h d.dev.sectorSize hbytes
  have hsum : add64 h.partitionEntryLba (h.arraySectors d.dev.sectorSize) =
      h.partitionEntryLba + h.arraySectors d.dev.sectorSize := by
    unfold add64 at *
    omega
  refine ⟨not_not.1 hcur, by omega, by omega, by omega, ?_⟩
  cases isPrimary with
  | true | false =>
    simp only [Header.arrayPlaced, hsum, Bool.and_eq_false_iff, not_or] at hplaced
    simp at hplaced ⊢
    omega

theorem placed_of_header (hh : d.header isPrimary = some h) : Placed d isPrimary h := by
  unfold Disk.header at hh
  cases hs : d.sector (d.headerLba isPrimary) with
  | none => simp [hs] at hh
  | some b =>
    simp only [hs, Option.ite_none_right_eq_some, Option.some.injEq] at hh
    obtain ⟨hv, rfl⟩ := hh
    exact placed_of_valid (Nat.lt_of_lt_of_le (fromLe_lt _) (Nat.pow_le_pow_right (by decide) (length_take_le ..))) hv

/-! ## The policy matrix -/

variable {c : Chosen} {policy : Policy}

/-- Where a chosen table came from. -/
theorem resolve_cases (h : resolve d = (policy, some c)) :
    d.header c.isPrimary = some c.hdr ∧ d.gptReadAndVerifyArray c.hdr c.isPrimary = some c.array ∧
      (c.isPrimary = true → ∀ b, d.header false = some b → gptHeadersConsistent c.hdr b = true) := by
  unfold resolve at h
  cases hp : d.header true with
  | none =>
    cases hb : d.header false with
    | none => simp [hp, hb] at h
    | some b =>
      cases hab : d.gptReadAndVerifyArray b false with
      | none => simp [hp, hb, hab] at h
      | some buf =>
        simp only [hp, hb, hab] at h
        cases h
        exact ⟨hb, hab, nofun⟩
  | some p =>
    cases hap : d.gptReadAndVerifyArray p true with
    | some buf =>
      cases hb : d.header false with
      | none =>
        simp only [hp, hb, hap] at h
        cases h
        exact ⟨hp, hap, nofun⟩
      | some b =>
        cases hc : gptHeadersConsistent p b with
        | false => simp [hp, hb, hc] at h
        | true =>
          simp only [hp, hb, hc, hap, Bool.true_eq_false, if_false] at h
          cases h
          refine ⟨hp, hap, ?_⟩
          rintro - b' hb'
          cases hb'
          exact hc
    | none =>
      cases hb : d.header false with
      | none => simp [hp, hb, hap] at h
      | some b =>
        cases hc : gptHeadersConsistent p b with
        | false => simp [hp, hb, hc] at h
        | true =>
          cases hab : d.gptReadAndVerifyArray b false with
          | none => simp [hp, hb, hc, hap, hab] at h
          | some buf =>
            simp only [hp, hb, hc, hap, hab, Bool.true_eq_false, if_false] at h
            cases h
            exact ⟨hb, hab, nofun⟩

variable {ps : List Partition}

theorem parse_cases (h : gptParseEx d = (policy, some (c, ps))) :
    resolve d = (policy, some c) ∧ stage c [] 0 c.hdr.numPartitionEntries = some ps := by
  unfold gptParseEx at h
  split at h
  · cases h
  cases hr : resolve d with
  | mk policy' c' =>
    cases c' with
    | none => simp [hr] at h
    | some c' =>
      simp only [hr, Prod.mk.injEq, Option.map_eq_some_iff] at h
      obtain ⟨rfl, ps', hs, rfl, rfl⟩ := h
      exact ⟨rfl, hs⟩

theorem last_lt_backup (hh : d.header false = some h) : h.lastUsableLba < d.backupAt := by
  have hp := placed_of_header hh
  have hc : h.currentLba = d.backupAt := hp.current
  have := hp.array
  simp only at this
  omega

/-! ## Staging -/

def Partition.Covers (p : Partition) (l : Nat) : Prop := p.startingLba ≤ l ∧ l ≤ p.endingLba

instance (p : Partition) (l : Nat) : Decidable (p.Covers l) := by
  unfold Partition.Covers
  infer_instance

def Partition.Apart (p q : Partition) : Prop := ∀ l, ¬(p.Covers l ∧ q.Covers l)

/-- The entry is in use. -/
def Chosen.Used (c : Chosen) (i : Nat) : Prop := gptGuidIsZero (c.entry i).typeGuid = false

/-- The staged list after the entries below `i`. -/
structure Staged (c : Chosen) (i : Nat) (ps : List Partition) : Prop where
  apart : ps.Pairwise Partition.Apart
  usable : ∀ p ∈ ps, c.hdr.firstUsableLba ≤ p.startingLba ∧ p.startingLba ≤ p.endingLba ∧
    p.endingLba ≤ c.hdr.lastUsableLba
  entry : ∀ p ∈ ps, ∃ j < i, c.Used j ∧ (c.entry j).endingLba = p.endingLba
  staged : ∀ j < i, c.Used j → ∃ p ∈ ps, p.endingLba = (c.entry j).endingLba

variable {i : Nat} {ps' : List Partition} {e : Entry}

theorem Staged.skip (h : Staged c i ps) (hu : ¬c.Used i) :
    Staged c (i + 1) ps where
  apart := h.apart
  usable := h.usable
  entry := by
    intro p hp
    obtain ⟨j, hj, he⟩ := h.entry p hp
    exact ⟨j, by omega, he⟩
  staged := by
    intro j hj hused
    rcases Nat.lt_succ_iff_lt_or_eq.1 hj with hlt | rfl
    · exact h.staged j hlt hused
    · exact absurd hused hu

theorem stageEntry_cases (hs : stageEntry h ps i e = some ps') :
    ∃ p : Partition, ps' = ps ++ [p] ∧ p.startingLba = e.startingLba ∧ p.endingLba = e.endingLba ∧
      h.firstUsableLba ≤ p.startingLba ∧ p.startingLba ≤ p.endingLba ∧ p.endingLba ≤ h.lastUsableLba ∧
      ∀ q ∈ ps, overlaps e q = false := by
  unfold stageEntry at hs
  simp only [Option.ite_none_left_eq_some, Option.some.injEq, not_or] at hs
  obtain ⟨⟨h1, h2, h3⟩, -, hany, -, rfl⟩ := hs
  refine ⟨_, rfl, rfl, rfl, by simp; omega, by simp; omega, by simp; omega, ?_⟩
  simpa using hany

variable {p : Partition}

theorem Staged.add (h : Staged c i ps) (hu : c.Used i)
    (hs : stageEntry c.hdr ps i (c.entry i) = some ps') : Staged c (i + 1) ps' := by
  obtain ⟨p, rfl, hstart, hend, h1, h2, h3, hno⟩ := stageEntry_cases hs
  refine ⟨?_, ?_, ?_, ?_⟩
  · rw [pairwise_append]
    refine ⟨h.apart, pairwise_singleton _ _, ?_⟩
    intro q hq r hr
    cases mem_singleton.1 hr
    intro l hl
    have hno := hno q hq
    simp only [Partition.Covers] at hl
    simp [overlaps] at hno
    omega
  · intro q hq
    rcases mem_append.1 hq with hq | hq
    · exact h.usable q hq
    cases mem_singleton.1 hq
    exact ⟨h1, h2, h3⟩
  · intro q hq
    rcases mem_append.1 hq with hq | hq
    · obtain ⟨j, hj, hje⟩ := h.entry q hq
      exact ⟨j, by omega, hje⟩
    · cases mem_singleton.1 hq
      exact ⟨i, by omega, hu, hend.symm⟩
  intro j hj hused
  rcases Nat.lt_succ_iff_lt_or_eq.1 hj with hlt | rfl
  · obtain ⟨q, hq, hqe⟩ := h.staged j hlt hused
    exact ⟨q, mem_append_left _ hq, hqe⟩
  · exact ⟨p, by simp, hend⟩

theorem stage_staged {n : Nat} (h : Staged c i ps) (hs : stage c ps i n = some ps') : Staged c (i + n) ps' := by
  induction n generalizing i ps with
  | zero =>
    cases hs
    exact h
  | succ n ih =>
    rw [show i + (n + 1) = i + 1 + n by omega]
    unfold stage at hs
    cases hz : gptGuidIsZero (c.entry i).typeGuid with
    | true =>
      simp only [hz, if_true] at hs
      exact ih (h.skip (by simp [Chosen.Used, hz])) hs
    | false =>
      simp only [hz, Bool.false_eq_true, if_false] at hs
      cases he : stageEntry c.hdr ps i (c.entry i) with
      | none => simp [he] at hs
      | some ps1 =>
        simp only [he] at hs
        exact ih (h.add hz he) hs

/-! ## Partition devices -/

variable {lba : Nat}

theorem parentLba_within {l : Nat} (h : parentLba p lba = some l) : p.startingLba ≤ l ∧ l ≤ p.endingLba := by
  unfold parentLba at h
  simp only [Option.ite_none_left_eq_some, Option.some.injEq] at h
  omega

theorem gptRunRange_within {n l : Nat} (h : gptRunRange p lba n = some l) :
    p.startingLba ≤ l ∧ l + n ≤ p.endingLba + 1 := by
  unfold gptRunRange at h
  simp only [Option.ite_none_left_eq_some, Option.ite_none_right_eq_some, Option.some.injEq] at h
  omega

/-- The sectors of a partition are the only ones a call reaches. -/
abbrev Partition.Holds (p : Partition) : Call → Prop := Call.Within p.startingLba p.endingLba

theorem readSector_holds (v : Driver) (policy : Policy) (p : Partition) (lba : Nat) :
    (blockReadSector (p.blockDev v.dev policy) lba).Only p.Holds := by
  refine blockReadSector_only fun f hf => ?_
  cases hf
  unfold gptPartitionReadSector
  cases hr : v.dev.readSector with
  | none => exact Ask.only_ret _
  | some g =>
    obtain ⟨-, rfl⟩ := present_eq_some hr
    cases hl : parentLba p lba with
    | none => exact Ask.only_ret _
    | some l => exact Ask.only_request (parentLba_within hl)

theorem writeSector_holds (v : Driver) (policy : Policy) (p : Partition) (lba : Nat) (buf : Bytes) :
    (blockWriteSector (p.blockDev v.dev policy) lba buf).Only p.Holds := by
  refine blockWriteSector_only fun f hf => ?_
  obtain ⟨-, rfl⟩ := present_eq_some hf
  unfold gptPartitionWriteSector
  cases hr : v.dev.writeSector with
  | none => exact Ask.only_ret _
  | some g =>
    obtain ⟨-, rfl⟩ := present_eq_some hr
    cases hl : parentLba p lba with
    | none => exact Ask.only_ret _
    | some l => exact Ask.only_request (parentLba_within hl)

theorem readSectors_holds (v : Driver) (policy : Policy) (p : Partition) (lba n : Nat) :
    (blockReadSectors (p.blockDev v.dev policy) lba n).Only p.Holds := by
  refine Ask.only_ite ?_
  show (gptPartitionReadSectors v.dev p lba n).Only p.Holds
  unfold gptPartitionReadSectors
  cases hl : gptRunRange p lba n with
  | none => exact Ask.only_ret _
  | some l =>
    obtain ⟨h1, h2⟩ := gptRunRange_within hl
    exact v.readSectors_within h1 h2

theorem writeSectors_holds (v : Driver) (policy : Policy) (p : Partition) (lba n : Nat) (buf : Bytes) :
    (blockWriteSectors (p.blockDev v.dev policy) lba n buf).Only p.Holds := by
  refine Ask.only_ite ?_
  cases hw : (p.blockDev v.dev policy).writeSectors with
  | none =>
    exact writeEach_only fun x b _ _ => writeSector_holds v policy p x b
  | some f =>
    obtain ⟨-, rfl⟩ := present_eq_some hw
    show (gptPartitionWriteSectors v.dev p lba n buf).Only p.Holds
    unfold gptPartitionWriteSectors
    cases hl : gptRunRange p lba n with
    | none => exact Ask.only_ret _
    | some l =>
      obtain ⟨h1, h2⟩ := gptRunRange_within hl
      exact v.writeSectors_within h1 h2

/-! ## Containment -/

/-- The published partitions against the table they came from, and what their devices can do. -/
structure Contained (d : Disk) (policy : Policy) (c : Chosen) (ps : List Partition) : Prop where
  apart : ps.Pairwise Partition.Apart
  usable : ∀ p ∈ ps, ∀ l, p.Covers l → c.hdr.firstUsableLba ≤ l ∧ l ≤ c.hdr.lastUsableLba
  mbr : ∀ p ∈ ps, ¬p.Covers 0
  primaryHeader : ∀ p ∈ ps, ¬p.Covers 1
  backupHeader : ∀ p ∈ ps, ¬p.Covers d.backupAt
  array : ∀ p ∈ ps, ∀ l, c.hdr.partitionEntryLba ≤ l →
    l < c.hdr.partitionEntryLba + c.hdr.arraySectors d.dev.sectorSize → ¬p.Covers l
  reads : ∀ p ∈ ps, ∀ lba n, (blockReadSector (p.blockDev d.dev.dev policy) lba).Only p.Holds ∧
    (blockReadSectors (p.blockDev d.dev.dev policy) lba n).Only p.Holds
  writes : ∀ p ∈ ps, ∀ lba n buf, (blockWriteSector (p.blockDev d.dev.dev policy) lba buf).Only p.Holds ∧
    (blockWriteSectors (p.blockDev d.dev.dev policy) lba n buf).Only p.Holds
  writable : ∀ p ∈ ps, ∀ lba n buf, (blockWriteSector (p.blockDev d.dev.dev policy) lba buf).Yields true ∨
    (blockWriteSectors (p.blockDev d.dev.dev policy) lba n buf).Yields true → policy = .primaryConsistent

/-- With no valid backup header, no entry in use of the primary's array ends at the last sector. -/
def BackupClear (d : Disk) : Prop :=
  d.header false = none → ∀ h, d.header true = some h → ∀ buf, d.gptReadAndVerifyArray h true = some buf →
    ∀ i < h.numPartitionEntries, (Chosen.mk h true buf).Used i →
      ((Chosen.mk h true buf).entry i).endingLba ≠ d.backupAt

/-- The usable range of a chosen table reaches the last sector only in degraded mode. -/
theorem last_lt_of_backup (hr : resolve d = (policy, some c)) {b : Header}
    (hb : d.header false = some b) : c.hdr.lastUsableLba < d.backupAt := by
  obtain ⟨hh, -, hcons⟩ := resolve_cases hr
  cases hp : c.isPrimary with
  | false =>
    rw [hp] at hh
    exact last_lt_backup hh
  | true =>
    have hlast := last_lt_backup hb
    have hc := hcons hp b hb
    simp only [gptHeadersConsistent, Bool.and_eq_true, beq_iff_eq] at hc
    omega

theorem chosen_primary (hr : resolve d = (policy, some c))
    (hb : d.header false = none) : c = ⟨c.hdr, true, c.array⟩ := by
  obtain ⟨hh, -, -⟩ := resolve_cases hr
  obtain ⟨hdr, side, buf⟩ := c
  cases side with
  | true => rfl
  | false =>
    rw [hb] at hh
    cases hh

theorem array_clear (hp : Placed d c.isPrimary c.hdr)
    (hu : c.hdr.firstUsableLba ≤ p.startingLba ∧ p.startingLba ≤ p.endingLba ∧ p.endingLba ≤ c.hdr.lastUsableLba)
    {l : Nat} (h1 : c.hdr.partitionEntryLba ≤ l)
    (h2 : l < c.hdr.partitionEntryLba + c.hdr.arraySectors d.dev.sectorSize) : ¬p.Covers l := by
  intro hl
  have ha := hp.array
  simp only [Partition.Covers] at hl
  obtain ⟨hdr, side, buf⟩ := c
  cases side <;> simp only at ha hu h1 h2 <;> omega

theorem covers_backup_iff (hp : Placed d c.isPrimary c.hdr)
    (hu : c.hdr.firstUsableLba ≤ p.startingLba ∧ p.startingLba ≤ p.endingLba ∧ p.endingLba ≤ c.hdr.lastUsableLba) :
    p.Covers d.backupAt ↔ p.endingLba = d.backupAt := by
  have := hp.last
  simp only [Partition.Covers, Disk.backupAt]
  omega

/-- **Containment of a parsed disk.** A successful parse publishes partitions that are disjoint, usable
and clear of LBA 0, both headers and the entry array, with devices that stay inside them, exactly when a
missing backup header is not what a partition ends on. -/
theorem gptParseEx_contained_iff {d : Disk} {policy : Policy} {c : Chosen} {ps : List Partition}
    (h : gptParseEx d = (policy, some (c, ps))) : Contained d policy c ps ↔ BackupClear d := by
  obtain ⟨hr, hs⟩ := parse_cases h
  obtain ⟨hh, ha, -⟩ := resolve_cases hr
  have hp := placed_of_header hh
  have hst : Staged c c.hdr.numPartitionEntries ps := by
    have := stage_staged ⟨.nil, nofun, nofun, fun j hj => absurd hj (Nat.not_lt_zero j)⟩ hs
    rwa [Nat.zero_add] at this
  constructor
  · intro hc hnone h₁ hh₁ buf hbuf i hi hused heq
    -- Without a backup header the primary was chosen, so its entries are the staged ones.
    have hc₁ := chosen_primary hr hnone
    rw [hc₁] at hh ha
    obtain rfl : c.hdr = h₁ := Option.some.inj (hh.symm.trans hh₁)
    obtain rfl : c.array = buf := Option.some.inj (ha.symm.trans hbuf)
    rw [← hc₁] at hused heq
    obtain ⟨p, hmem, hend⟩ := hst.staged i hi hused
    exact hc.backupHeader p hmem ((covers_backup_iff hp (hst.usable p hmem)).2 (hend.trans heq))
  intro hclear
  refine ⟨hst.apart, ?_, ?_, ?_, ?_, ?_, ?_, ?_, ?_⟩
  · intro p hmem l hl
    have := hst.usable p hmem
    simp only [Partition.Covers] at hl
    omega
  · intro p hmem hl
    have := hst.usable p hmem
    have := hp.first
    simp only [Partition.Covers] at hl
    omega
  · intro p hmem hl
    have := hst.usable p hmem
    have := hp.first
    simp only [Partition.Covers] at hl
    omega
  · intro p hmem hl
    have hu := hst.usable p hmem
    have hend := (covers_backup_iff hp hu).1 hl
    cases hb : d.header false with
    | some b =>
      have := last_lt_of_backup hr hb
      omega
    | none =>
      have hc₁ := chosen_primary hr hb
      obtain ⟨i, hi, hused, he⟩ := hst.entry p hmem
      rw [hc₁] at hh ha hused he
      exact hclear hb c.hdr hh c.array ha i hi hused (he.trans hend)
  · intro p hmem l h₁ h₂
    exact array_clear hp (hst.usable p hmem) h₁ h₂
  · intro p _ lba n
    exact ⟨readSector_holds d.dev policy p lba, readSectors_holds d.dev policy p lba n⟩
  · intro p _ lba n buf
    exact ⟨writeSector_holds d.dev policy p lba buf, writeSectors_holds d.dev policy p lba n buf⟩
  · intro p _ lba n buf hy
    by_contra hne
    simp [blockWriteSector, blockWriteSectors, Partition.blockDev, beq_false_of_ne hne, present, Ask.Yields] at hy

/-! ## Two small disks -/

/-- A header record of one 128-byte entry, usable from sector 3 to `last`. -/
def headerBytes (crc current backup last entryLba arrayCrc : Nat) : Bytes :=
  le GPT_SIGNATURE_MAGIC 8 ++ le GPT_REVISION_1_0 4 ++ le 92 4 ++ le crc 4 ++ le 0 4 ++ le current 8 ++
    le backup 8 ++ le 3 8 ++ le last 8 ++ List.replicate 16 0 ++ le entryLba 8 ++ le 1 4 ++ le 128 4 ++ le arrayCrc 4

def wholeSector (b : Bytes) : Bytes := b ++ List.replicate (512 - b.length) 0

/-- A disk of 68 sectors with one partition from sector 3 to `last`. -/
def onePartition (last arrayCrc primaryCrc backupCrc : Nat) : Disk where
  dev := { sectorSize := 512, sectorCount := 68, maxRunBytes := 4096 }
  sector := fun l =>
    match l with
    | 0 => some (List.replicate 450 0 ++ [0xEE] ++ List.replicate 59 0 ++ [0x55, 0xAA])
    | 1 => some (wholeSector (headerBytes primaryCrc 1 67 last 2 arrayCrc))
    | 2 | 66 => some (wholeSector ([0xAF] ++ List.replicate 31 0 ++ le 3 8 ++ le last 8))
    | 67 => some (wholeSector (headerBytes backupCrc 67 1 last 66 arrayCrc))
    | _ => some (wholeSector [])

/-- The usable range ends before the backup array. -/
def tidyDisk : Disk := onePartition 65 0x819e58ed 0x90bf55eb 0x6e35e71c

/-- Both headers put the backup header inside the usable range. -/
def overrunDisk : Disk := onePartition 67 0x2e14c8df 0xe4db634d 0x1a51d1ba

theorem gptParseEx_contained_tidy : ∃ policy c ps, gptParseEx tidyDisk = (policy, some (c, ps)) ∧ ps ≠ [] ∧
    Contained tidyDisk policy c ps := by
  have hparse : ((gptParseEx tidyDisk).2.any fun out => !out.2.isEmpty) = true := by decide +kernel
  cases h : gptParseEx tidyDisk with
  | mk policy out =>
    cases out with
    | none => simp [h] at hparse
    | some out =>
      have hback : (tidyDisk.header false).isSome = true := by decide +kernel
      refine ⟨policy, out.1, out.2, rfl, by simpa [h] using hparse, ?_⟩
      refine (gptParseEx_contained_iff h).2 fun hnone => ?_
      simp [hnone] at hback

/-- The primary header passes, the backup header is refused for the range both name, and the published
partition covers it. -/
theorem gptParseEx_covers_backup : ∃ c ps, gptParseEx overrunDisk = (.degradedPrimary, some (c, ps)) ∧
    (∃ p ∈ ps, p.Covers overrunDisk.backupAt) ∧ ¬Contained overrunDisk .degradedPrimary c ps := by
  have hparse : ((gptParseEx overrunDisk).2.any fun out => out.2.any (·.Covers overrunDisk.backupAt)) = true := by
    decide +kernel
  have hpolicy : (gptParseEx overrunDisk).1 = .degradedPrimary := by decide +kernel
  cases h : gptParseEx overrunDisk with
  | mk policy out =>
    cases out with
    | none => simp [h] at hparse
    | some out =>
      obtain rfl : policy = .degradedPrimary := by simpa [h] using hpolicy
      obtain ⟨p, hp, hc⟩ : ∃ p ∈ out.2, p.Covers overrunDisk.backupAt := by simpa [h] using hparse
      exact ⟨out.1, out.2, rfl, ⟨p, hp, hc⟩, fun hcont => hcont.backupHeader p hp hc⟩

/-! ## The header checksum -/

theorem crcLoop_append_one (c : Nat) (bs : Bytes) (x : UInt8) :
    crcLoop c (bs ++ [x]) = crcTable ((crcLoop c bs ^^^ x.toNat) % 256) ^^^ (crcLoop c bs >>> 8) := by
  induction bs generalizing c with
  | nil => rfl
  | cons b bs ih => exact ih _

/-- The last byte always matters to the sum. -/
theorem exists_crc32_ne (bs : Bytes) : ∃ x y, crc32 0 (bs ++ [x]) ≠ crc32 0 (bs ++ [y]) := by
  let c := crcLoop (0 ^^^ 0xFFFFFFFF) bs
  refine ⟨UInt8.ofNat c, UInt8.ofNat c ^^^ 1, fun he => ?_⟩
  have hx : (c ^^^ (UInt8.ofNat c).toNat) % 256 = 0 := by
    rw [UInt8.toNat_ofNat', Nat.xor_mod_two_pow (n := 8), Nat.mod_mod, Nat.xor_self]
  have hy : (c ^^^ (UInt8.ofNat c ^^^ 1).toNat) % 256 = 1 := by
    rw [UInt8.toNat_xor, UInt8.toNat_ofNat', Nat.xor_mod_two_pow (n := 8), Nat.xor_mod_two_pow (n := 8), Nat.mod_mod,
      ← Nat.xor_assoc, Nat.xor_self]
    rfl
  unfold crc32 at he
  rw [crcLoop_append_one, crcLoop_append_one, hx, hy] at he
  have hcancel : ∀ a b k : Nat, a ^^^ k = b ^^^ k → a = b := fun a b k h => by
    simpa [Nat.xor_assoc] using congrArg (· ^^^ k) h
  exact nomatch hcancel _ _ _ (hcancel _ _ _ he)

/-- The first `headerSize` bytes of a header sector with the CRC field zero. -/
def onDisk (b : Bytes) : Bytes :=
  let h := b.take (Header.ofSector b).headerSize
  h.take 16 ++ [0, 0, 0, 0] ++ h.drop 20

/-- **The header checksum.** A header is accepted only if its stored CRC is that of its record and what the stack
holds behind it. If the stored CRC is that of its bytes on disk, this is so for every stack exactly when the header
is no longer than the record. -/
theorem header_crc_passes_iff {b : Bytes} {h : Header} (hh : Header.ofSector b = h) (hb : 512 ≤ b.length)
    (hmin : 92 ≤ h.headerSize) (hmax : h.headerSize ≤ 512) (hcrc : crc32 0 (onDisk b) = h.headerCrc32) :
    (∀ lba count size isPrimary stack, gptValidateHeader h lba count size isPrimary stack = true →
      crc32 0 (h.summed stack) = h.headerCrc32) ∧
    ((∀ stack : Bytes, h.headerSize ≤ 92 + stack.length → crc32 0 (h.summed stack) = h.headerCrc32) ↔
      h.headerSize = 92) := by
  refine ⟨fun lba count size isPrimary stack hv => ?_, fun hpass => ?_, fun hsize stack _ => ?_⟩
  · simp only [gptValidateHeader, Bool.if_false_left, Bool.and_eq_true, beq_iff_eq] at hv
    exact hv.2.2.2.2.2.2.2.2.2.2.2.2
  · by_contra hne
    obtain ⟨k, hk⟩ : ∃ k, h.headerSize = 92 + (k + 1) := ⟨h.headerSize - 93, by omega⟩
    have hraw : h.raw.length = 92 := by
      simp only [← hh, Header.ofSector, length_take]
      omega
    let pre := h.raw ++ replicate k 0
    have hlen : pre.length = 92 + k := by simp [pre, hraw]
    have hsum : ∀ x, h.summed (replicate k 0 ++ [x]) = pre.take 16 ++ [0, 0, 0, 0] ++ pre.drop 20 ++ [x] := by
      intro x
      have hall : (h.raw ++ (replicate k 0 ++ [x])).take (92 + (k + 1)) = pre ++ [x] := by
        rw [← append_assoc, take_of_length_le (by simp [hraw])]
      rw [Header.summed, hk, hall]
      rw [take_append_of_le_length (by omega), drop_append_of_le_length (by omega), append_assoc _ _ [x]]
    obtain ⟨x, y, hxy⟩ := exists_crc32_ne (pre.take 16 ++ [0, 0, 0, 0] ++ pre.drop 20)
    have hx := hpass (replicate k 0 ++ [x]) (by simp [hk])
    have hy := hpass (replicate k 0 ++ [y]) (by simp [hk])
    rw [hsum] at hx hy
    exact hxy (hx.trans hy.symm)
  · subst hh
    rw [← hcrc, Header.summed, hsize, onDisk, hsize, take_left' (by simp [Header.ofSector]; omega)]
    rfl

/-- A header that passes is no longer than the record. -/
theorem header_crc_passes_tidy : ∃ h,
    Header.ofSector (wholeSector (headerBytes 0x90bf55eb 1 67 65 2 0x819e58ed)) = h ∧
      crc32 0 (h.summed []) = h.headerCrc32 :=
  ⟨_, rfl, (header_crc_passes_iff rfl (by decide +kernel) (by decide +kernel) (by decide +kernel) (by decide +kernel)).2.2
    (by decide +kernel) [] (by decide +kernel)⟩

/-- A valid header of 93 bytes. -/
def longHeader : Bytes :=
  let h := headerBytes 0x8363b088 1 67 65 2 0
  wholeSector (h.take 12 ++ le 93 4 ++ h.drop 16)

/-- It passes if the stack goes on as the sector does, and not otherwise. -/
theorem header_crc_reads_stack : crc32 0 (onDisk longHeader) = (Header.ofSector longHeader).headerCrc32 ∧
    gptValidateHeader (Header.ofSector longHeader) 1 68 512 true (longHeader.drop 92) = true ∧
    gptValidateHeader (Header.ofSector longHeader) 1 68 512 true (List.replicate 420 1) = false := by
  decide +kernel

end Fortress.Gpt
