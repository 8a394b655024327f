/-
Shared memory objects of `kernel/shm.c`, with every operation cut where the
source drops `shm_lock` or calls the VMM.

A task is one call in flight (or one descriptor, which is a call of
`vfs_close` to come), and its constructor says what it does next. Objects are
numbered as they are created and a number is never reused. Page tables are
functions from a root and an address to the frame mapped there; the VMM calls
are atomic, since the source makes each under the VMM lock and rolls a failed
map back. `shm_create`'s own failures leave nothing behind and are left out.
-/
import Fortress.Lib.Memory

namespace Fortress.Shm

abbrev SHM_MAX_BYTES : Nat := 32 * 1024 * 1024
abbrev SHM_TOTAL_BYTES_MAX : Nat := 256 * 1024 * 1024
abbrev SHM_MAX_MAPPINGS : Nat := 8
abbrev USER_SIGRESTORER_VIRT : Nat := 0x00007fffefffb000

/-! ## Objects -/

structure Mapping where
  rootPhys : Nat := 0
  va : Nat := 0
  /-- One reservation; zero is a free slot. -/
  token : Nat := 0
  detaching : Bool := false
deriving DecidableEq, Repr

/-- `shm_t`, with the count of its one `file_t`. -/
structure Segment where
  frames : List Nat := []
  refs : UInt32 := 0
  maps : List Mapping := []
  refCount : Nat := 0
  /-- `shm_close` has not run on the node. -/
  isOpen : Bool := false
  /-- `destroy` has given the frames back. -/
  freed : Bool := false
deriving Repr

def Segment.pages (m : Segment) : Nat := m.frames.length

def Segment.slot (m : Segment) (i : Nat) : Mapping := m.maps.getD i {}

def Segment.setSlot (m : Segment) (i : Nat) (e : Mapping) : Segment := { m with maps := m.maps.set i e }

/-- What a call does after `destroy`. -/
inductive Rest where
  | done
  | close
  | sweep (root : Nat)
deriving DecidableEq, Repr

/-- A call in flight, by what it does next. -/
inductive Task where
  | idle
  /-- `vfs_close`, from a descriptor or at the end of `shm_map`. -/
  | holding (s : Nat)
  /-- `shm_map`'s reservation. -/
  | reserving (s root va : Nat)
  /-- `shm_map`'s `vmm_map_frames`. -/
  | mapping (s root va token : Nat)
  /-- `shm_map`'s error section. -/
  | mapFailed (s root va token : Nat)
  /-- `shm_unmap`'s `vmm_unmap_frames`; the source keeps no token, it is the
  one the slot had when it was claimed. -/
  | unmapping (s index root va token : Nat)
  /-- `shm_unmap`'s last section, after `VMM_OK`. -/
  | unmapped (s index root va token : Nat)
  /-- `shm_unmap`'s last section, after an error. -/
  | unmapFailed (s index root : Nat)
  /-- `shm_close`. -/
  | closing (s : Nat)
  /-- `destroy`, then the rest of the call. -/
  | destroying (s : Nat) (next : Rest)
  /-- `shm_space_destroyed`'s next scan. -/
  | sweeping (root : Nat)
deriving DecidableEq, Repr

def Rest.task (s : Nat) : Rest → Task
  | .done => .idle
  | .close => .holding s
  | .sweep root => .sweeping root

structure Kernel where
  segs : Nat → Segment := fun _ => {}
  created : Nat := 0
  /-- The object list, newest first. -/
  objects : List Nat := []
  totalPages : Nat := 0
  /-- One more for each call of `shm_map`, of which there are fewer than its 64 bits count. -/
  nextToken : Nat := 1
  /-- `pages root address` is the frame mapped there. -/
  pages : Nat → Nat → Option Nat := fun _ _ => none
  /-- The leaves of the root are gone and `shm_space_destroyed` runs. -/
  dying : Nat → Bool := fun _ => false
  tasks : List Task := []

variable (k : Kernel) (j s : Nat)

def Kernel.setSeg (s : Nat) (m : Segment) : Kernel := { k with segs := Function.update k.segs s m }

def Kernel.setTask (j : Nat) (t : Task) : Kernel := { k with tasks := k.tasks.set j t }

/-- `put_locked`; true when the caller must `destroy`. -/
def putLocked (s : Nat) : Bool × Kernel :=
  let m := k.segs s
  let k := k.setSeg s { m with refs := m.refs - 1 }
  if m.refs - 1 != 0 then (false, k) else (true, { k with objects := k.objects.erase s })

/-- The end of a section that put a reference: `destroy` before the rest when
it was the last. -/
def put (s j : Nat) (next : Rest) : Kernel :=
  let (dead, k) := putLocked k s
  k.setTask j (if dead then .destroying s next else next.task s)

/-! ## Calls -/

/-- `shm_create`, once every allocation succeeded; the descriptor holds the
file. -/
def shmCreate (frames : List Nat) : Kernel :=
  if k.totalPages + frames.length ≤ SHM_TOTAL_BYTES_MAX / PAGE_SIZE then
    { k with
      segs := Function.update k.segs k.created
        { frames, refs := 1, maps := List.replicate SHM_MAX_MAPPINGS {}, refCount := 1, isOpen := true }
      created := k.created + 1
      objects := k.created :: k.objects
      totalPages := k.totalPages + frames.length
      tasks := k.tasks ++ [.holding k.created] }
  else k

/-- A descriptor of `s` is duplicated or inherited. -/
def fdDup (s : Nat) : Kernel :=
  let m := k.segs s
  if m.refCount = 0 then k
  else { k.setSeg s { m with refCount := m.refCount + 1 } with tasks := k.tasks ++ [.holding s] }

/-- The address check of `shm_map`. -/
def vaOk (va pages : Nat) : Bool :=
  va % PAGE_SIZE == 0 && decide (0x1000000 ≤ va) && decide (va < USER_SIGRESTORER_VIRT) &&
    decide (pages * PAGE_SIZE ≤ USER_SIGRESTORER_VIRT - va)

/-- `shm_map` up to its first section: the operation reference and the
address check. -/
def mapStart (j s root va : Nat) : Kernel :=
  let m := k.segs s
  if m.refCount = 0 then k
  else
    (k.setSeg s { m with refCount := m.refCount + 1 }).setTask j
      (if vaOk va m.pages then .reserving s root va else .holding s)

/-- `shm_map`'s first section. -/
def mapReserve (j s root va : Nat) : Kernel :=
  let m := k.segs s
  match m.maps.findIdx? (·.token == 0) with
  | none => k.setTask j (.holding s)
  | some i =>
    let k' := k.setSeg s { m.setSlot i { rootPhys := root, va, token := k.nextToken } with refs := m.refs + 1 }
    { k' with nextToken := k.nextToken + 1 }.setTask j (.mapping s root va k.nextToken)

/-- The frame that address `a` gets when the object is mapped at `va`. -/
def spanFrame (m : Segment) (va a : Nat) : Option Nat :=
  if va ≤ a ∧ (a - va) % PAGE_SIZE = 0 then m.frames[(a - va) / PAGE_SIZE]? else none

/-- `vmm_map_frames`: it fails where anything is mapped, and may fail for
want of memory. -/
def vmmMapFrames (root va : Nat) (m : Segment) (nomem : Bool) : Option Kernel :=
  if nomem || (List.range m.pages).any fun i => (k.pages root (va + i * PAGE_SIZE)).isSome then none
  else
    some { k with
      pages := Function.update k.pages root fun a => (spanFrame m va a).or (k.pages root a) }

def mapCall (j s root va token : Nat) (nomem : Bool) : Kernel :=
  match vmmMapFrames k root va (k.segs s) nomem with
  | some k => k.setTask j (.holding s)
  | none => k.setTask j (.mapFailed s root va token)

/-- `shm_map`'s error section: whatever slot has the token is free again, and
the reference goes. -/
def mapUndo (j s token : Nat) : Kernel :=
  let m := k.segs s
  let maps := m.maps.map fun e => if e.token == token then { e with token := 0 } else e
  put (k.setSeg s { m with maps }) s j .close

/-- A slot `shm_unmap` may claim. -/
def claimable (root va : Nat) (e : Mapping) : Bool :=
  e.token != 0 && !e.detaching && e.rootPhys == root && e.va == va

/-- `shm_unmap`'s search, newest object first. -/
def findClaim (segs : Nat → Segment) (root va : Nat) : List Nat → Option (Nat × Nat)
  | [] => none
  | o :: os =>
    match (segs o).maps.findIdx? (claimable root va) with
    | some i => some (o, i)
    | none => findClaim segs root va os

/-- `shm_unmap`'s first section. -/
def unmapClaim (j root va : Nat) : Kernel :=
  match findClaim k.segs root va k.objects with
  | none => k
  | some (s, i) =>
    let m := k.segs s
    (k.setSeg s (m.setSlot i { m.slot i with detaching := true })).setTask j
      (.unmapping s i root va (m.slot i).token)

/-- `vmm_unmap_frames`: all or nothing, and only where the span maps exactly
these frames; it may also be refused. -/
def vmmUnmapFrames (root va : Nat) (m : Segment) (refused : Bool) : Option Kernel :=
  if refused || !(List.range m.pages).all fun i => k.pages root (va + i * PAGE_SIZE) == m.frames[i]? then none
  else
    some { k with
      pages := Function.update k.pages root fun a =>
        if (spanFrame m va a).isSome then none else k.pages root a }

def unmapCall (j s index root va token : Nat) (refused : Bool) : Kernel :=
  match vmmUnmapFrames k root va (k.segs s) refused with
  | some k => k.setTask j (.unmapped s index root va token)
  | none => k.setTask j (.unmapFailed s index root)

/-- `shm_unmap`'s last section after `VMM_OK`. -/
def unmapDone (j s index : Nat) : Kernel :=
  let m := k.segs s
  put (k.setSeg s (m.setSlot index { m.slot index with detaching := false, token := 0 })) s j .done

/-- `shm_unmap`'s last section after an error: the record stays. -/
def unmapKept (j s index : Nat) : Kernel :=
  let m := k.segs s
  (k.setSeg s (m.setSlot index { m.slot index with detaching := false })).setTask j .idle

/-- `vfs_close` on the object's file. -/
def vfsClose : Kernel :=
  let m := k.segs s
  (k.setSeg s { m with refCount := m.refCount - 1 }).setTask j
    (if m.refCount - 1 = 0 then .closing s else .idle)

def shmClose : Kernel :=
  put (k.setSeg s { k.segs s with isOpen := false }) s j .done

/-- `destroy`: the frames return to the PMM. -/
def destroy (next : Rest) : Kernel :=
  let m := k.segs s
  { k.setSeg s { m with freed := true } with totalPages := k.totalPages - m.pages }.setTask j (next.task s)

/-- The VMM's teardown of a root, up to `shm_space_destroyed`. -/
def teardown (j root : Nat) : Kernel :=
  { k with
    pages := Function.update k.pages root fun _ => none
    dying := Function.update k.dying root true }.setTask j (.sweeping root)

/-- One object in `shm_space_destroyed`'s scan: its slots of the root go, one
reference each, until the last reference went. -/
def sweepMaps (root : Nat) : List Mapping → UInt32 → List Mapping × UInt32 × Bool
  | [], refs => ([], refs, false)
  | e :: es, refs =>
    if e.token == 0 || e.rootPhys != root then
      let (es, refs, dead) := sweepMaps root es refs
      (e :: es, refs, dead)
    else if refs - 1 == 0 then ({ e with token := 0 } :: es, refs - 1, true)
    else
      let (es, refs, dead) := sweepMaps root es (refs - 1)
      ({ e with token := 0 } :: es, refs, dead)

/-- The scan, up to the first object whose last reference went. -/
def sweepObjects (root : Nat) : List Nat → Kernel → Kernel × Option Nat
  | [], k => (k, none)
  | o :: os, k =>
    let m := k.segs o
    let (maps, refs, dead) := sweepMaps root m.maps m.refs
    let k := k.setSeg o { m with maps, refs }
    if dead then ({ k with objects := k.objects.erase o }, some o) else sweepObjects root os k

/-- `shm_space_destroyed`'s next scan; when nothing died the root is free. -/
def sweep (j root : Nat) : Kernel :=
  match sweepObjects root k.objects k with
  | (k, some s) => k.setTask j (.destroying s (.sweep root))
  | (k, none) => { k with dying := Function.update k.dying root false }.setTask j .idle

end Fortress.Shm
