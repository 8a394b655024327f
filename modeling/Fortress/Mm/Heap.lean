/-
The kernel heap (heap.c): blocks with a tag of 16 bytes at either end, the
free ones on a doubly linked list whose links lie in their payloads.

Everything is in one byte memory, so a tag written over a link or a payload
is seen as such. A call that halts the machine (`heap_panic`) is `none`, and
so is a loop that does not end within as many rounds as the heap has
granules of 16 bytes. The pages behind an expansion are an input (`Pages`):
either all of a batch could be mapped, and then they hold anything, or the
expansion failed and was rolled back.
-/
import Fortress.Lib.Chain
import Fortress.Lib.Memory

namespace Fortress.Mm

open Codec

def KERNEL_HEAP_START : Nat := 0xFFFFFFFFB0000000
def KERNEL_HEAP_MAX : Nat := 0xFFFFFFFFD0000000
def HEAP_MAGIC_ALLOC : Nat := 0x414C4F43
def HEAP_MAGIC_FREE : Nat := 0x46524545
def HEAP_MAGIC_FOOTER : Nat := 0x464F4F54
def HEAP_ALIGNMENT : Nat := 16
def HEAP_MIN_BLOCK_SZ : Nat := 48
def MAX_EXPANSION_BATCH_PAGES : Nat := 512

/-- A header or a footer. -/
structure Tag where
  magic : Nat
  isFree : Nat
  size : Nat
  deriving DecidableEq, Repr

def tagAt (m : Mem) (a : Nat) : Tag := ⟨fromLe (m.read a 4), fromLe (m.read (a + 4) 4), fromLe (m.read (a + 8) 8)⟩

def putTag (m : Mem) (a : Nat) (t : Tag) : Mem := m.write a (le t.magic 4 ++ le t.isFree 4 ++ le t.size 8)

/-- The list node in the payload of a free block. -/
def nodeAt (m : Mem) (a : Nat) : Link := ⟨fromLe (m.read a 8), fromLe (m.read (a + 8) 8)⟩

def putNode (m : Mem) (a : Nat) (l : Link) : Mem := m.write a (le l.next 8 ++ le l.prev 8)

structure Heap where
  mem : Mem
  start : Nat
  /-- `g_heap_end` -/
  stop : Nat
  freeListHead : Nat
  ready : Bool
  allocatedBytes : Nat
  allocatedBlocks : Nat

variable (h : Heap)

def Heap.setTag (a : Nat) (t : Tag) : Heap := { h with mem := putTag h.mem a t }

def Heap.setNode (a : Nat) (l : Link) : Heap := { h with mem := putNode h.mem a l }

/-- More rounds than any list or walk in the heap has. -/
def Heap.rounds : Nat := (h.stop - h.start) / 16 + 1

/-! ## Checking one block -/

def validLinks (node : Nat) : Bool :=
  let l := nodeAt h.mem node
  (l.next == 0 || (decide (h.start ≤ l.next) && decide (l.next < h.stop) && (nodeAt h.mem l.next).prev == node)) &&
    (if l.prev = 0 then h.freeListHead == node
      else decide (h.start ≤ l.prev) && decide (l.prev < h.stop) && (nodeAt h.mem l.prev).next == node)

def isValidBlock (hdr : Nat) : Bool :=
  let t := tagAt h.mem hdr
  let f := tagAt h.mem (hdr + t.size - 16)
  if hdr = 0 then false
  else if hdr < h.start ∨ h.stop ≤ hdr then false
  else if hdr % HEAP_ALIGNMENT ≠ 0 then false
  else if h.stop - hdr < 16 then false
  else if t.size < HEAP_MIN_BLOCK_SZ ∨ t.size % HEAP_ALIGNMENT ≠ 0 then false
  else if h.stop - hdr < t.size then false
  else if t.magic ≠ HEAP_MAGIC_ALLOC ∧ t.magic ≠ HEAP_MAGIC_FREE then false
  else if t.isFree ≠ 0 ∧ t.isFree ≠ 1 then false
  else if f.magic ≠ HEAP_MAGIC_FOOTER then false
  else if f.size ≠ t.size then false
  else if f.isFree ≠ t.isFree then false
  else if t.isFree = 1 then validLinks h (hdr + 16)
  else true

/-! ## The free list -/

def freeListInsert (hdr : Nat) : Heap :=
  let node := hdr + 16
  let h₁ := h.setNode node ⟨h.freeListHead, 0⟩
  let h₂ := if h.freeListHead = 0 then h₁
    else h₁.setNode h.freeListHead { nodeAt h₁.mem h.freeListHead with prev := node }
  { h₂ with freeListHead := node }

def freeListRemove (hdr : Nat) : Heap :=
  let node := hdr + 16
  let l := nodeAt h.mem node
  let h₁ := if l.prev = 0 then { h with freeListHead := l.next }
    else h.setNode l.prev { nodeAt h.mem l.prev with next := l.next }
  let h₂ := if l.next = 0 then h₁ else h₁.setNode l.next { nodeAt h₁.mem l.next with prev := l.prev }
  h₂.setNode node ⟨0, 0⟩

/-! ## Expansion -/

/-- For the end of the heap and a number of pages: what the pages hold once mapped, or that they
could not all be mapped. -/
abbrev Pages := Nat → Nat → Option Mem

/-- The free block that ends where the heap does, by its footer. -/
def freeBefore (a : Nat) : Option Nat :=
  let f := tagAt h.mem (a - 16)
  if h.start < a ∧ 16 ≤ a - h.start ∧ f.magic = HEAP_MAGIC_FOOTER ∧ f.isFree = 1 ∧ HEAP_MIN_BLOCK_SZ ≤ f.size ∧
      f.size % HEAP_ALIGNMENT = 0 ∧ f.size ≤ a - h.start ∧ isValidBlock h (a - f.size) ∧
      (tagAt h.mem (a - f.size)).isFree = 1 ∧ (tagAt h.mem (a - f.size)).size = f.size then
    some (a - f.size)
  else none

/-- The mapped batch becomes heap: part of the free block before it, or one of its own. -/
def heapCommit (pages : Nat) : Heap :=
  let newBytes := pages * PAGE_SIZE
  let newEnd := h.stop + newBytes
  match freeBefore h h.stop with
  | some prev =>
    let h₁ := freeListRemove h prev
    let combined := (tagAt h₁.mem prev).size + newBytes
    let h₂ := h₁.setTag prev { tagAt h₁.mem prev with size := combined }
    let h₃ := h₂.setTag (newEnd - 16) ⟨HEAP_MAGIC_FOOTER, 1, combined⟩
    { freeListInsert h₃ prev with stop := newEnd }
  | none =>
    let h₁ := h.setTag h.stop ⟨HEAP_MAGIC_FREE, 1, newBytes⟩
    let h₂ := h₁.setTag (newEnd - 16) ⟨HEAP_MAGIC_FOOTER, 1, newBytes⟩
    { freeListInsert h₂ h.stop with stop := newEnd }

def pagesFor (bytesNeeded : Nat) : Nat := max 1 ((bytesNeeded + PAGE_SIZE - 1) / PAGE_SIZE)

/-- The new pages' contents appear behind the old end. -/
def mapped (pages : Nat) (content : Mem) : Heap :=
  { h with mem := fun x => if h.stop ≤ x ∧ x < h.stop + pages * PAGE_SIZE then content x else h.mem x }

variable (env : Pages)

def heapExpand (h : Heap) (bytesNeeded : Nat) : Option Heap :=
  let pages := pagesFor bytesNeeded
  if MAX_EXPANSION_BATCH_PAGES < pages then none
  else if KERNEL_HEAP_MAX < h.stop + pages * PAGE_SIZE then none
  else match env h.stop pages with
    | none => none
    | some content => some (heapCommit (mapped h pages content) pages)

def heapInit (m : Mem) : Option Heap :=
  let h : Heap := ⟨m, KERNEL_HEAP_START, KERNEL_HEAP_START, 0, false, 0, 0⟩
  match heapExpand env h (4 * PAGE_SIZE) with
  | none => none
  | some h => some { h with ready := true }

/-! ## kmalloc -/

def alignUp (x a : Nat) : Nat := (x + (a - 1)) / a * a

/-- The block size for a request. -/
def totalFor (size : Nat) : Nat := alignUp (16 + max (alignUp size HEAP_ALIGNMENT) 16 + 16) HEAP_ALIGNMENT

def requestMax : Nat := KERNEL_HEAP_MAX - KERNEL_HEAP_START - 16 - 16

/-- First fit from `cur` on; the first search also checks every block it passes. -/
def firstFit (h : Heap) (checked : Bool) (total : Nat) : Nat → Nat → Option (Option Nat)
  | 0, _ => none
  | fuel + 1, cur =>
    let hdr := cur - 16
    if cur = 0 then some none
    else if checked ∧ (¬isValidBlock h hdr ∨ (tagAt h.mem hdr).isFree ≠ 1) then none
    else if total ≤ (tagAt h.mem hdr).size then some (some hdr)
    else firstFit h checked total fuel (nodeAt h.mem cur).next

def batchCap : Nat := MAX_EXPANSION_BATCH_PAGES * PAGE_SIZE

/-- Expansion in batches until a block fits. -/
def growUntil (env : Pages) (total : Nat) : Nat → Nat → Heap → Option (Heap × Option Nat)
  | 0, _, _ => none
  | fuel + 1, remaining, h =>
    let step := if batchCap < remaining then batchCap else remaining
    match heapExpand env h step with
    | none => some (h, none)
    | some h =>
      let remaining := remaining - (if step < remaining then step else remaining)
      match firstFit h false total h.rounds h.freeListHead with
      | none => none
      | some (some hdr) => some (h, some hdr)
      | some none => if remaining = 0 then some (h, none) else growUntil env total fuel remaining h

/-- The matched block is taken off the list, split if enough is left over, and marked. -/
def takeBlock (hdr total : Nat) : Heap :=
  let h := freeListRemove h hdr
  let size := (tagAt h.mem hdr).size
  let excess := size - total
  let h :=
    if HEAP_MIN_BLOCK_SZ ≤ excess then
      let h := h.setTag hdr { tagAt h.mem hdr with size := total }
      let h := h.setTag (hdr + total - 16) ⟨HEAP_MAGIC_FOOTER, 0, total⟩
      let h := h.setTag (hdr + total) ⟨HEAP_MAGIC_FREE, 1, excess⟩
      let h := h.setTag (hdr + total + excess - 16) ⟨HEAP_MAGIC_FOOTER, 1, excess⟩
      freeListInsert h (hdr + total)
    else h.setTag (hdr + size - 16) { tagAt h.mem (hdr + size - 16) with isFree := 0 }
  let h := h.setTag hdr { tagAt h.mem hdr with magic := HEAP_MAGIC_ALLOC, isFree := 0 }
  { h with
    allocatedBytes := h.allocatedBytes + (tagAt h.mem hdr).size
    allocatedBlocks := h.allocatedBlocks + 1 }

def findBlock (h : Heap) (total : Nat) (multiBatch : Bool) : Option (Heap × Option Nat) :=
  match firstFit h true total h.rounds h.freeListHead with
  | none => none
  | some (some hdr) => some (h, some hdr)
  | some none =>
    if ¬multiBatch ∧ batchCap < total then some (h, none)
    else growUntil env total (total / batchCap + 1) total h

/-- The pointer is 0 when there is no memory. -/
def kmallocImpl (h : Heap) (size : Nat) (multiBatch : Bool) : Option (Heap × Nat) :=
  if size = 0 ∨ ¬h.ready then some (h, 0)
  else if requestMax < size then some (h, 0)
  else match findBlock env h (totalFor size) multiBatch with
    | none => none
    | some (h, none) => some (h, 0)
    | some (h, some hdr) => some (takeBlock h hdr (totalFor size), hdr + 16)

def kmalloc (h : Heap) (size : Nat) : Option (Heap × Nat) := kmallocImpl env h size false

def kmallocLarge (h : Heap) (size : Nat) : Option (Heap × Nat) := kmallocImpl env h size true

/-- The product must fit in 64 bits. -/
def kcalloc (h : Heap) (num size : Nat) : Option (Heap × Nat) :=
  if num = 0 ∨ size = 0 then some (h, 0)
  else if (2 ^ 64 - 1) / num < size then some (h, 0)
  else match kmalloc env h (num * size) with
    | none => none
    | some (h, p) =>
      if p = 0 then some (h, 0)
      else some ({ h with mem := h.mem.write p (List.replicate (num * size) 0) }, p)

/-! ## kfree -/

/-- The free block right behind the one at `hdr` becomes part of it. -/
def absorbRight (hdr : Nat) : Heap :=
  let size := (tagAt h.mem hdr).size
  if size < h.stop - hdr ∧ isValidBlock h (hdr + size) ∧ (tagAt h.mem (hdr + size)).isFree = 1 then
    let h := freeListRemove h (hdr + size)
    h.setTag hdr { tagAt h.mem hdr with size := size + (tagAt h.mem (hdr + size)).size }
  else h

/-- The block at `hdr` becomes part of the free block right before it. -/
def absorbLeft (hdr : Nat) : Heap × Nat :=
  match freeBefore h hdr with
  | none => (h, hdr)
  | some prev =>
    let h := freeListRemove h prev
    (h.setTag prev { tagAt h.mem prev with size := (tagAt h.mem prev).size + (tagAt h.mem hdr).size }, prev)

def sealFree (hdr : Nat) : Heap :=
  let h := h.setTag hdr { tagAt h.mem hdr with magic := HEAP_MAGIC_FREE, isFree := 1 }
  let size := (tagAt h.mem hdr).size
  let h := h.setTag (hdr + size - 16) ⟨HEAP_MAGIC_FOOTER, 1, size⟩
  freeListInsert h hdr

def kfree (ptr : Nat) : Option Heap :=
  let hdr := ptr - 16
  if ptr = 0 then some h
  else if ptr < h.start + 16 ∨ h.stop ≤ ptr then none
  else if ptr % HEAP_ALIGNMENT ≠ 0 then none
  else if ¬isValidBlock h hdr then none
  else if (tagAt h.mem hdr).isFree ≠ 0 then none
  else
    let h := { h with
      allocatedBytes := h.allocatedBytes - (tagAt h.mem hdr).size
      allocatedBlocks := h.allocatedBlocks - 1 }
    let (h, hdr) := absorbLeft (absorbRight h hdr) hdr
    some (sealFree h hdr)

/-! ## krealloc -/

/-- The tail of an allocated block is cut off as a block of its own and freed. -/
def shrinkInPlace (hdr total : Nat) : Option Heap :=
  let excess := (tagAt h.mem hdr).size - total
  if HEAP_MIN_BLOCK_SZ ≤ excess then
    let h := h.setTag hdr { tagAt h.mem hdr with size := total }
    let h := h.setTag (hdr + total - 16) ⟨HEAP_MAGIC_FOOTER, 0, total⟩
    let h := h.setTag (hdr + total) ⟨HEAP_MAGIC_ALLOC, 0, excess⟩
    let h := h.setTag (hdr + total + excess - 16) ⟨HEAP_MAGIC_FOOTER, 0, excess⟩
    kfree { h with allocatedBlocks := h.allocatedBlocks + 1 } (hdr + total + 16)
  else some h

/-- The free block behind is taken in, and what is left over of it split off again. -/
def growInPlace (hdr total : Nat) : Heap :=
  let oldSize := (tagAt h.mem hdr).size
  let next := hdr + oldSize
  let combined := oldSize + (tagAt h.mem next).size
  let h := freeListRemove h next
  let excess := combined - total
  if HEAP_MIN_BLOCK_SZ ≤ excess then
    let h := h.setTag hdr { tagAt h.mem hdr with size := total }
    let h := h.setTag (hdr + total - 16) ⟨HEAP_MAGIC_FOOTER, 0, total⟩
    let h := h.setTag (hdr + total) ⟨HEAP_MAGIC_FREE, 1, excess⟩
    let h := h.setTag (hdr + total + excess - 16) ⟨HEAP_MAGIC_FOOTER, 1, excess⟩
    let h := freeListInsert h (hdr + total)
    { h with allocatedBytes := h.allocatedBytes + (total - oldSize) }
  else
    let h := h.setTag hdr { tagAt h.mem hdr with size := combined }
    let h := h.setTag (hdr + combined - 16) ⟨HEAP_MAGIC_FOOTER, 0, combined⟩
    { h with allocatedBytes := h.allocatedBytes + (combined - oldSize) }

/-- A new block, the old contents, and the old block freed. -/
def moveBlock (h : Heap) (ptr oldPayload newSize : Nat) : Option (Heap × Nat) :=
  match kmalloc env h newSize with
  | none => none
  | some (h, p) =>
    if p = 0 then some (h, 0)
    else
      let h := { h with mem := h.mem.write p (h.mem.read ptr (min oldPayload newSize)) }
      match kfree h ptr with
      | none => none
      | some h => some (h, p)

def krealloc (h : Heap) (ptr newSize : Nat) : Option (Heap × Nat) :=
  let hdr := ptr - 16
  let size := (tagAt h.mem hdr).size
  if ptr = 0 then kmalloc env h newSize
  else if newSize = 0 then (kfree h ptr).map fun h => (h, 0)
  else if ptr < h.start + 16 ∨ h.stop ≤ ptr then none
  else if ¬isValidBlock h hdr ∨ (tagAt h.mem hdr).isFree ≠ 0 then none
  else if requestMax < newSize then some (h, 0)
  else if totalFor newSize ≤ size then (shrinkInPlace h hdr (totalFor newSize)).map fun h => (h, ptr)
  else if hdr + size < h.stop ∧ isValidBlock h (hdr + size) ∧ (tagAt h.mem (hdr + size)).isFree = 1 ∧
      totalFor newSize ≤ size + (tagAt h.mem (hdr + size)).size then
    some (growInPlace h hdr (totalFor newSize), ptr)
  else moveBlock env h ptr (size - 16 - 16) newSize

/-! ## The audit -/

structure Audit where
  used : Nat
  free : Nat
  allocatedBlocks : Nat
  freeBlocks : Nat
  prevWasFree : Bool
  deriving DecidableEq, Repr

/-- The walk over the blocks; `none` when it finds a fault. -/
def auditWalk (h : Heap) : Nat → Nat → Audit → Option Audit
  | 0, _, _ => none
  | fuel + 1, addr, acc =>
    let t := tagAt h.mem addr
    if h.stop ≤ addr then if addr = h.stop then some acc else none
    else if ¬isValidBlock h addr then none
    else if t.isFree = 1 then
      if acc.prevWasFree then none
      else auditWalk h fuel (addr + t.size)
        { acc with free := acc.free + t.size, freeBlocks := acc.freeBlocks + 1, prevWasFree := true }
    else auditWalk h fuel (addr + t.size)
      { acc with used := acc.used + t.size, allocatedBlocks := acc.allocatedBlocks + 1, prevWasFree := false }

/-- The length of the free list. -/
def heapGetFreeBlocks (h : Heap) : Nat → Nat → Option Nat
  | 0, _ => none
  | fuel + 1, cur => if cur = 0 then some 0 else (heapGetFreeBlocks h fuel (nodeAt h.mem cur).next).map (· + 1)

def heapVerifyIntegrity : Bool :=
  h.ready &&
    match auditWalk h h.rounds h.start ⟨0, 0, 0, 0, false⟩, heapGetFreeBlocks h h.rounds h.freeListHead with
    | some a, some listCount =>
      listCount == a.freeBlocks && a.used + a.free == h.stop - h.start && a.used == h.allocatedBytes &&
        a.allocatedBlocks == h.allocatedBlocks
    | _, _ => false

end Fortress.Mm
