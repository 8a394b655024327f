/-
Address spaces and their registry (`mm/vmm.c`). Every entry point works on the
registry in one section under the VMM lock, so it is one step here. The tables
of a space are freed after that section, by whoever unlinked it: a space
waits in `detached` until a step of its own tears it down, in any order with
the calls of other processors.

Records are numbered as they are made, and lists hold these numbers where the
source links records. Page tables are left out; whether they pass the checks
before a teardown is an argument of the calls that check it. The mark that a
root was ever loaded only decides on a TLB flush and is left out too.
-/
import Fortress.Lib.Memory

namespace Fortress.Vmm

def PTE_ADDR_MASK : UInt64 := 0x000FFFFFFFFFF000

def norm (cr3 : UInt64) : UInt64 := cr3 &&& PTE_ADDR_MASK

/-- `vmm_space_state_t`. -/
inductive SpaceState where
  | live | dying | dead
deriving DecidableEq

/-- `vmm_space_t`. -/
structure Space where
  cr3 : UInt64
  pml4Virt : UInt64
  state : SpaceState := .live
  isKernel : Bool := false
  freeUserFrames : Bool := false
  deferredQueued : Bool := false
  schedRefs : UInt32 := 0
  opRefs : UInt32 := 0
  activeCpusMask : UInt64 := 0
deriving DecidableEq

/-- No processor, thread or operation uses the space. -/
def Space.idle (x : Space) : Bool := x.activeCpusMask == 0 && x.schedRefs == 0 && x.opRefs == 0

inductive Status where
  | ok | invalidAddr | busy
deriving DecidableEq

structure Registry where
  kernelPml4 : UInt64
  hhdmOffset : UInt64
  records : Nat → Space
  /-- The records made so far. -/
  made : Nat
  /-- `g_vmm_spaces_list` and `g_vmm_deferred_list`. -/
  spaces : List Nat
  deferred : List Nat
  /-- Unlinked spaces whose tables are still to be freed, and those whose tables were. -/
  detached : List Nat
  torn : List Nat

namespace Registry

/-- The registry `vmm_init` leaves: the kernel's space alone. -/
def boot (kernelPml4 hhdmOffset : UInt64) : Registry where
  kernelPml4
  hhdmOffset
  records _ := { cr3 := norm kernelPml4, pml4Virt := kernelPml4 + hhdmOffset, isKernel := true }
  made := 1
  spaces := [0]
  deferred := []
  detached := []
  torn := []

variable (s : Registry) (cr3 : UInt64)

def set (i : Nat) (x : Space) : Registry := { s with records := Function.update s.records i x }

/-- Roots the reference calls have nothing to count for. -/
def uncounted : Bool := norm cr3 == 0 || norm cr3 == norm s.kernelPml4

/-- The space with this root, as `vmm_space_retire` and `vmm_destroy_pml4` look it up. -/
def findRoot : Option Nat := s.spaces.find? fun i => norm (s.records i).cr3 == norm cr3

/-- The space with this root, as the reference calls look it up. -/
def findCr3 : Option Nat := s.spaces.find? fun i => (s.records i).cr3 == norm cr3

def findVirt (pml4Virt : UInt64) : Option Nat := s.spaces.find? fun i => (s.records i).pml4Virt == pml4Virt

/-- `phys` is the root frame the allocator gave, zero when it or the record could not be had. -/
def vmmCreateUserPml4 (phys : UInt64) : Registry :=
  if phys = 0 then s
  else
    { s with
      records := Function.update s.records s.made { cr3 := norm phys, pml4Virt := phys + s.hhdmOffset }
      made := s.made + 1
      spaces := s.made :: s.spaces }

def vmmSpaceRetire (pml4Phys : UInt64) : Status × Registry :=
  if norm pml4Phys == norm s.kernelPml4 || norm pml4Phys == 0 then (.invalidAddr, s)
  else
    match s.findRoot pml4Phys with
    | none => (.invalidAddr, s)
    | some i =>
      if (s.records i).isKernel then (.invalidAddr, s)
      else
        match (s.records i).state with
        | .dead => (.invalidAddr, s)
        | .dying => (.ok, s)
        | .live => (.ok, s.set i { s.records i with state := .dying })

def vmmSpaceGetOp (pml4Virt : UInt64) : Status × Registry :=
  if pml4Virt = 0 then (.invalidAddr, s)
  else
    match s.findVirt pml4Virt with
    | none => (.invalidAddr, s)
    | some i =>
      if (s.records i).isKernel then (.ok, s)
      else if (s.records i).state ≠ .live then (.invalidAddr, s)
      else (.ok, s.set i { s.records i with opRefs := (s.records i).opRefs + 1 })

def vmmSpacePutOp (pml4Virt : UInt64) : Registry :=
  if pml4Virt = 0 then s
  else
    match s.findVirt pml4Virt with
    | none => s
    | some i =>
      if !(s.records i).isKernel && decide ((s.records i).opRefs > 0) then
        s.set i { s.records i with opRefs := (s.records i).opRefs - 1 }
      else s

def vmmSpaceEnter (nextCr3 : UInt64) (cpu : UInt32) : Status × Registry :=
  if s.uncounted nextCr3 then (.ok, s)
  else
    match s.findCr3 nextCr3 with
    | none => (.invalidAddr, s)
    | some i =>
      if (s.records i).state = .dead then (.invalidAddr, s)
      else if cpu < 64 then
        (.ok, s.set i { s.records i with
          activeCpusMask := (s.records i).activeCpusMask ||| ((1 : UInt64) <<< cpu.toUInt64) })
      else (.ok, s)

def vmmSpaceLeave (oldCr3 : UInt64) (threadTerminated cr3Changed : Bool) (cpu : UInt32) : Registry :=
  if s.uncounted oldCr3 then s
  else
    match s.findCr3 oldCr3 with
    | none => s
    | some i =>
      let x := s.records i
      let x := if cr3Changed && decide (cpu < 64) then
        { x with activeCpusMask := x.activeCpusMask &&& ~~~((1 : UInt64) <<< cpu.toUInt64) } else x
      let x := if threadTerminated && decide (x.schedRefs > 0) then { x with schedRefs := x.schedRefs - 1 } else x
      s.set i x

def vmmSpaceAddSchedRef : Status × Registry :=
  if s.uncounted cr3 then (.ok, s)
  else
    match s.findCr3 cr3 with
    | none => (.invalidAddr, s)
    | some i =>
      if (s.records i).state ≠ .live then (.invalidAddr, s)
      else (.ok, s.set i { s.records i with schedRefs := (s.records i).schedRefs + 1 })

def vmmSpaceSubSchedRef : Registry :=
  if s.uncounted cr3 then s
  else
    match s.findCr3 cr3 with
    | none => s
    | some i =>
      if (s.records i).schedRefs > 0 then s.set i { s.records i with schedRefs := (s.records i).schedRefs - 1 } else s

/-- The space is put off until it is idle. -/
def defer (i : Nat) (freeUserFrames : Bool) : Registry :=
  let x := { s.records i with state := .dying, freeUserFrames }
  if !x.deferredQueued then { s.set i { x with deferredQueued := true } with deferred := i :: s.deferred }
  else s.set i x

/-- The space is unlinked; its tables are its caller's now. -/
def detach (i : Nat) : Registry :=
  { s.set i { s.records i with state := .dead, deferredQueued := false } with
    deferred := if (s.records i).deferredQueued then s.deferred.erase i else s.deferred
    spaces := s.spaces.erase i
    detached := i :: s.detached }

/-- The part of `vmm_destroy_pml4` under the lock. `current` is the root the processor runs on, `valid`
whether the tables passed `vmm_validate_teardown`. -/
def vmmDestroyPml4 (pml4Phys : UInt64) (freeUserFrames : Bool) (current : UInt64) (valid : Bool) :
    Status × Registry :=
  if pml4Phys == 0 || pml4Phys % UInt64.ofNat PAGE_SIZE != 0 then (.invalidAddr, s)
  else if pml4Phys == s.kernelPml4 || norm pml4Phys == norm s.kernelPml4 then (.invalidAddr, s)
  else if pml4Phys == norm current then (.invalidAddr, s)
  else
    match s.findRoot pml4Phys with
    | none => (.invalidAddr, s)
    | some i =>
      if !(s.records i).idle then (.busy, s.defer i freeUserFrames)
      else if !valid then (.invalidAddr, s)
      else (.ok, s.detach i)

/-- A space leaves the registry and the list of those put off. -/
def unlink (i : Nat) : Registry :=
  { s.set i { s.records i with state := .dead, deferredQueued := false } with
    deferred := s.deferred.erase i
    spaces := s.spaces.erase i
    detached := i :: s.detached }

/-- A round of the loop of `vmm_drain_deferred_destructions`. -/
def drainOne (valid : Nat → Bool) (s : Registry) (i : Nat) : Registry :=
  if (s.records i).idle && valid i then s.unlink i else s

/-- The part of `vmm_drain_deferred_destructions` under the lock; `valid` says of which spaces the tables
pass. -/
def vmmDrainDeferredDestructions (valid : Nat → Bool) : Registry :=
  s.deferred.foldl (drainOne valid) s

/-- The tables of an unlinked space are freed, and its record. -/
def vmmTeardownPml4Tables (i : Nat) : Registry :=
  if i ∈ s.detached then { s with detached := s.detached.erase i, torn := i :: s.torn } else s

end Registry

/-- The calls of all processors, with any arguments, and the teardowns they go on to. -/
inductive Call where
  | create (phys : UInt64)
  | retire (pml4Phys : UInt64)
  | getOp (pml4Virt : UInt64)
  | putOp (pml4Virt : UInt64)
  | enter (nextCr3 : UInt64) (cpu : UInt32)
  | leave (oldCr3 : UInt64) (threadTerminated cr3Changed : Bool) (cpu : UInt32)
  | addSchedRef (cr3 : UInt64)
  | subSchedRef (cr3 : UInt64)
  | destroy (pml4Phys : UInt64) (freeUserFrames : Bool) (current : UInt64) (valid : Bool)
  | drain (valid : Nat → Bool)
  | teardown (i : Nat)

namespace Registry

def step (s : Registry) : Call → Registry
  | .create phys => s.vmmCreateUserPml4 phys
  | .retire pml4Phys => (s.vmmSpaceRetire pml4Phys).2
  | .getOp pml4Virt => (s.vmmSpaceGetOp pml4Virt).2
  | .putOp pml4Virt => s.vmmSpacePutOp pml4Virt
  | .enter nextCr3 cpu => (s.vmmSpaceEnter nextCr3 cpu).2
  | .leave oldCr3 threadTerminated cr3Changed cpu => s.vmmSpaceLeave oldCr3 threadTerminated cr3Changed cpu
  | .addSchedRef cr3 => (s.vmmSpaceAddSchedRef cr3).2
  | .subSchedRef cr3 => s.vmmSpaceSubSchedRef cr3
  | .destroy pml4Phys freeUserFrames current valid => (s.vmmDestroyPml4 pml4Phys freeUserFrames current valid).2
  | .drain valid => s.vmmDrainDeferredDestructions valid
  | .teardown i => s.vmmTeardownPml4Tables i

def run (kernelPml4 hhdmOffset : UInt64) (calls : List Call) : Registry := calls.foldl step (boot kernelPml4 hhdmOffset)

end Registry

end Fortress.Vmm
