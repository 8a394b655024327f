/-
The physical memory manager (`mm/pmm.c`): one bit a frame, set while the frame
is in use, with counters beside it. Every call holds the manager's lock for
its whole length, so calls are atomic steps.

`pmm_init` stops the machine on a memory map it cannot use; the model returns
`none` there. Messages, lock statistics and the count of managed RAM (which
nothing here reads) are left out. Whether the kernel's page tables are ready
when high memory is unlocked is an argument.
-/
import Fortress.Lib.Bitmap
import Fortress.Lib.Memory

namespace Fortress.Pmm

def PMM_BOOT_ALLOC_LIMIT : Nat := 0x40000000
def PMM_BITMAP_CAPACITY_BYTES : Nat := 1024 * 1024
def PMM_BITMAP_MAX_RAM_BYTES : Nat := PMM_BITMAP_CAPACITY_BYTES * 8 * PAGE_SIZE

/-- Nothing is placed in the first megabyte. -/
def LOW_MEMORY : Nat := 0x100000

def alignUp (x : Nat) : Nat := (x + (PAGE_SIZE - 1)) / PAGE_SIZE * PAGE_SIZE

/-- The kinds of memory map entries that are told apart. -/
inductive Kind where
  | usable | bootloaderReclaimable | other
deriving DecidableEq

structure Region where
  base : UInt64
  length : UInt64
  kind : Kind
deriving DecidableEq

/-- The end of a region that does not run past the address space. -/
def Region.top? (r : Region) : Option Nat :=
  if r.length > 0xffffffffffffffff - r.base then none else some (r.base.toNat + r.length.toNat)

structure Frames where
  bitmap : Nat → UInt8
  bitmapPhysAddr : Nat
  bitmapTotalPages : Nat
  totalPages : Nat
  usedPages : Nat
  freePages : Nat
  lastAllocatedIndex : Nat := 0
  allocLimitPages : Nat
  highMemoryEnabled : Bool := false
  reservedBitmap : Nat → UInt8
  rejectedFrees : Nat := 0
  allocationFailures : Nat := 0
  maxScanSteps : Nat := 0

namespace Frames

variable (p : Frames)

def bitmapTest (i : Nat) : Bool := Bitmap.get p.bitmap i

def frameReserved (i : Nat) : Bool := Bitmap.get p.reservedBitmap i

def recordScan (steps : Nat) : Frames := if steps > p.maxScanSteps then { p with maxScanSteps := steps } else p

/-! ## Boot -/

variable (memmap : List (Option Region))

/-- The end of the highest region that will ever be allocated from. -/
def highestAddr : Nat :=
  memmap.foldl (fun highest entry =>
    match entry with
    | none => highest
    | some r =>
      if r.kind = .usable ∨ r.kind = .bootloaderReclaimable then
        match r.top? with
        | none => highest
        | some top => if top > highest then top else highest
      else highest) 0

/-- Where a usable region holds the bitmap: above 1 MiB and below the allocation limit. -/
def placeIn (limitBytes size : Nat) (r : Region) : Option Nat :=
  if r.kind ≠ .usable ∨ r.base.toNat ≥ limitBytes then none
  else
    r.top?.bind fun top =>
      let stop := min top limitBytes
      let start := alignUp (max r.base.toNat LOW_MEMORY)
      if start ≤ stop ∧ size ≤ stop - start then some start else none

/-- The bitmap goes into the first region that holds it. -/
def placeBitmap (allocLimit size : Nat) : Option Nat :=
  memmap.findSome? fun entry => entry.bind (placeIn (allocLimit * PAGE_SIZE) size)

/-- A frame of a usable region is given to the allocator. -/
def offerFrame (frame : Nat) : Frames :=
  if p.bitmapTest frame then
    { p with bitmap := Bitmap.set p.bitmap frame false, usedPages := p.usedPages - 1, freePages := p.freePages + 1 }
  else p

/-- A frame is taken back before anything is allocated. -/
def protectFrame (frame : Nat) : Frames :=
  if !p.bitmapTest frame then
    { p with bitmap := Bitmap.set p.bitmap frame true, usedPages := p.usedPages + 1, freePages := p.freePages - 1 }
  else p

def offerRegion (entry : Option Region) : Frames :=
  match entry with
  | none => p
  | some r =>
    if r.kind = .usable ∧ r.base.toNat < p.totalPages * PAGE_SIZE then
      match r.top? with
      | none => p
      | some top =>
        let stop := if top > p.totalPages * PAGE_SIZE then p.totalPages * PAGE_SIZE else top
        let startFrame := alignUp r.base.toNat / PAGE_SIZE
        (List.range' startFrame (stop / PAGE_SIZE - startFrame)).foldl offerFrame p
    else p

/-- The bitmap's own frames may not lie in managed memory. -/
def protectManaged (frame : Nat) : Frames := if frame < p.totalPages then p.protectFrame frame else p

/-- Steps 6 to 8 of `pmm_init`: usable regions are offered, frame 0 and the bitmap's own frames
taken back, and what is then in use is reserved for good. -/
def markBoot : Frames :=
  let p := memmap.foldl offerRegion p
  let p := p.protectFrame 0
  let p := (List.range' (p.bitmapPhysAddr / PAGE_SIZE) p.bitmapTotalPages).foldl protectManaged p
  { p with reservedBitmap := p.bitmap }

def pmmInit : Option Frames :=
  if memmap.isEmpty then none
  else
    let highest := highestAddr memmap
    let highest := if highest > PMM_BITMAP_MAX_RAM_BYTES then PMM_BITMAP_MAX_RAM_BYTES else highest
    let totalPages := highest / PAGE_SIZE
    if totalPages = 0 then none
    else
      let limit := if totalPages > PMM_BOOT_ALLOC_LIMIT / PAGE_SIZE then PMM_BOOT_ALLOC_LIMIT / PAGE_SIZE else totalPages
      let size := alignUp ((totalPages + 7) / 8)
      match placeBitmap memmap limit size with
      | none => none
      | some phys =>
        let p : Frames :=
          { bitmap := fun _ => 0xff, bitmapPhysAddr := phys, bitmapTotalPages := size / PAGE_SIZE, totalPages
            usedPages := totalPages, freePages := 0, allocLimitPages := limit, reservedBitmap := fun _ => 0 }
        some (p.markBoot memmap)

/-! ## Calls -/

/-- `ready`: the kernel's own page tables are complete and in use. -/
def pmmUnlockHighMemory (ready : Bool) : Bool × Frames :=
  if p.highMemoryEnabled then (true, p)
  else if !ready then (false, p)
  else (true, { p with allocLimitPages := p.totalPages, highMemoryEnabled := true })

/-- One frame is taken. -/
def takeFrame (i : Nat) : Frames :=
  { p with bitmap := Bitmap.set p.bitmap i true, usedPages := p.usedPages + 1, freePages := p.freePages - 1 }

/-- The loop of `pmm_alloc_page_above`: the first clear frame from `i`, and the rounds made. -/
def scanAbove (p : Frames) : Nat → Nat → Nat → Option Nat × Nat
  | 0, _, steps => (none, steps)
  | fuel + 1, i, steps =>
    if i < p.allocLimitPages then
      if !p.bitmapTest i then (some i, steps + 1) else scanAbove p fuel (i + 1) (steps + 1)
    else (none, steps)

/-- An address is returned for a frame; the caller reads 0 as failure. -/
def counted (addr : Nat) : Nat × Frames :=
  (addr, if addr = 0 then { p with allocationFailures := p.allocationFailures + 1 } else p)

def pmmAllocPageAbove (minPhys : UInt64) : Nat × Frames :=
  let start := if minPhys.toNat ≤ 0xffffffffffffffff - (PAGE_SIZE - 1) then alignUp minPhys.toNat / PAGE_SIZE
    else p.allocLimitPages
  match p.scanAbove p.allocLimitPages start 0 with
  | (some i, steps) => ((p.takeFrame i).recordScan steps).counted (i * PAGE_SIZE)
  | (none, steps) => (p.recordScan steps).counted 0

/-- The loop of `pmm_alloc_page_unlocked`: from the hint round, a byte at a time where all eight
frames of it are in use. -/
def scanPage (p : Frames) : Nat → Nat → Nat → Option Nat × Nat
  | 0, _, steps => (none, steps)
  | fuel + 1, i, steps =>
    if i < p.allocLimitPages then
      let idx := (p.lastAllocatedIndex + i) % p.allocLimitPages
      if idx % 8 = 0 ∧ p.allocLimitPages - idx ≥ 8 ∧ p.allocLimitPages - i ≥ 8 ∧ p.bitmap (idx / 8) = 0xff then
        scanPage p fuel (i + 8) (steps + 1)
      else if !p.bitmapTest idx then (some idx, steps + 1)
      else scanPage p fuel (i + 1) (steps + 1)
    else (none, steps)

def pmmAllocPageUnlocked : Nat × Frames :=
  match p.scanPage p.allocLimitPages 0 0 with
  | (some idx, steps) =>
    (idx * PAGE_SIZE,
      recordScan { p.takeFrame idx with lastAllocatedIndex := (idx + 1) % p.allocLimitPages } steps)
  | (none, steps) => (0, p.recordScan steps)

def pmmAllocPage : Nat × Frames :=
  let (addr, p) := p.pmmAllocPageUnlocked
  p.counted addr

/-- The loop of `pmm_alloc_pages_unlocked`: the first run of `count` clear frames. -/
def scanRun (p : Frames) (count : Nat) : Nat → Nat → Nat → Nat → Nat → Option Nat × Nat
  | 0, _, _, _, steps => (none, steps)
  | fuel + 1, i, consecutive, startIdx, steps =>
    if i < p.allocLimitPages then
      if !p.bitmapTest i then
        let startIdx := if consecutive = 0 then i else startIdx
        if consecutive + 1 = count then (some startIdx, steps + 1)
        else scanRun p count fuel (i + 1) (consecutive + 1) startIdx (steps + 1)
      else scanRun p count fuel (i + 1) 0 startIdx (steps + 1)
    else (none, steps)

def pmmAllocPagesUnlocked (count : Nat) : Nat × Frames :=
  if count = 0 ∨ count > p.allocLimitPages then (0, p)
  else if count = 1 then p.pmmAllocPageUnlocked
  else
    match p.scanRun count p.allocLimitPages 0 0 0 0 with
    | (some start, steps) =>
      (start * PAGE_SIZE,
        recordScan { p with
          bitmap := Bitmap.setRun p.bitmap start count true
          usedPages := p.usedPages + count
          freePages := p.freePages - count } steps)
    | (none, steps) => (0, p.recordScan steps)

def pmmAllocPages (count : Nat) : Nat × Frames :=
  let (addr, p) := p.pmmAllocPagesUnlocked count
  p.counted addr

def rejectFree : Frames := { p with rejectedFrees := p.rejectedFrees + 1 }

/-- The whole run is checked before any frame of it is freed. -/
def pmmFreePages (physAddr count : Nat) : Frames :=
  let start := physAddr / PAGE_SIZE
  if physAddr = 0 ∨ physAddr % PAGE_SIZE ≠ 0 ∨ count = 0 ∨ start ≥ p.totalPages ∨ count > p.totalPages - start then
    p.rejectFree
  else if (List.range count).any fun i => p.frameReserved (start + i) || !p.bitmapTest (start + i) then p.rejectFree
  else
    { p with
      bitmap := Bitmap.setRun p.bitmap start count false
      usedPages := p.usedPages - count
      freePages := p.freePages + count
      lastAllocatedIndex := if start < p.lastAllocatedIndex then start else p.lastAllocatedIndex }

def pmmFreePage (physAddr : Nat) : Frames := p.pmmFreePages physAddr 1

/-! ## The audit -/

/-- The frames of byte `i` that are managed. -/
def auditMask (i : Nat) : UInt8 :=
  if p.totalPages - i * 8 < 8 then (1 <<< UInt8.ofNat (p.totalPages - i * 8)) - 1 else 0xff

def bitCount (b : UInt8) : Nat := ((List.range 8).map fun bit => ((b >>> UInt8.ofNat bit) &&& 1).toNat).sum

/-- The loop over the bytes of the bitmap: the frames in use, unless a reserved one is free. -/
def auditBytes (p : Frames) : Nat → Option Nat
  | 0 => some 0
  | n + 1 =>
    match p.auditBytes n with
    | none => none
    | some used =>
      let allocated := p.bitmap n &&& p.auditMask n
      if p.reservedBitmap n &&& p.auditMask n &&& allocated ≠ p.reservedBitmap n &&& p.auditMask n then none
      else some (used + bitCount allocated)

inductive AuditFailure where
  | capacity | backingRange | frameZero | backingFrame | reservedFree | accounting
deriving DecidableEq

def pmmAudit : Option AuditFailure :=
  let bmStart := p.bitmapPhysAddr / PAGE_SIZE
  if p.totalPages = 0 ∨ p.totalPages > PMM_BITMAP_MAX_RAM_BYTES / PAGE_SIZE ∨ p.allocLimitPages > p.totalPages then
    some .capacity
  else if p.bitmapPhysAddr < LOW_MEMORY ∨ p.bitmapPhysAddr % PAGE_SIZE ≠ 0 ∨ p.bitmapPhysAddr ≥ PMM_BOOT_ALLOC_LIMIT ∨
      p.bitmapTotalPages > (PMM_BOOT_ALLOC_LIMIT - p.bitmapPhysAddr) / PAGE_SIZE ∨ bmStart ≥ p.totalPages ∨
      p.bitmapTotalPages > p.totalPages - bmStart then
    some .backingRange
  else if !p.bitmapTest 0 || !p.frameReserved 0 then some .frameZero
  else if (List.range p.bitmapTotalPages).any fun i => !p.bitmapTest (bmStart + i) || !p.frameReserved (bmStart + i) then
    some .backingFrame
  else
    match p.auditBytes ((p.totalPages + 7) / 8) with
    | none => some .reservedFree
    | some used => if used ≠ p.usedPages ∨ p.freePages ≠ p.totalPages - used then some .accounting else none

end Frames

/-- The calls of the manager, with any arguments. -/
inductive Call where
  | allocPage
  | allocPages (count : Nat)
  | allocPageAbove (minPhys : UInt64)
  | freePage (physAddr : Nat)
  | freePages (physAddr count : Nat)
  | unlockHighMemory (ready : Bool)

end Fortress.Pmm
