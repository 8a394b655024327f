/-
The CPU-0 handoff ledger (`kernel/handoff.c`): 64 slots through which actors
pass requests to the one service that runs on CPU 0. Every call is one section
under the ledger's lock, so the calls here are atomic steps.

Wake-ups are not modelled; what the service waits on is the flag `work`.
Registrations belong to callers and are passed in and out. `handoff_stats` and
the admission snapshot only read and are left out, as is fault injection.
-/
import Fortress.Lib.Scan

namespace Fortress.Handoff

abbrev HANDOFF_SLOTS : Nat := 64
abbrev HANDOFF_CREDITS : UInt32 := 32
abbrev HANDOFF_DATA_CREDITS : UInt32 := 24

structure Token where
  generation : UInt64 := 0
  slot : Nat := 0
deriving DecidableEq

structure Registration where
  token : Token := {}
  active : Bool := false
deriving DecidableEq

structure Request where
  actor : UInt64 := 0
  value : UInt64 := 0
  deadline : UInt64 := 0
  cancelStatus : Int := 0
  kind : UInt32 := 0
  control : Bool := false
  retained : Bool := false
deriving DecidableEq

structure Reply where
  status : Int := 0
  value : UInt64 := 0
deriving DecidableEq

inductive SlotState where
  | free | prepared | queued | claimed | pending | completed | retired
deriving DecidableEq

inductive Result where
  | ok | wait | stale | unavailable | exhausted
deriving DecidableEq

/-- `request_slot_t`. -/
structure Slot where
  generation : UInt64 := 0
  ticket : UInt64 := 0
  state : SlotState := .free
  caller : Bool := false
  cancel : Bool := false
  cleaned : Bool := false
  request : Request := {}
  reply : Reply := {}

/-- The slot holds a request. -/
def Slot.live (s : Slot) : Bool := s.state != .free && s.state != .retired

/-- Queued and not cancelled. -/
def Slot.claimable (s : Slot) : Bool := s.state == .queued && !s.cancel

structure Ledger where
  slots : Nat → Slot := fun _ => {}
  nextTicket : UInt64 := 0
  reclaimed : UInt64 := 0
  queued : UInt32 := 0
  data : UInt32 := 0
  claimCursor : Nat := 0
  pendingCursor : UInt32 := 0
  ackCursor : UInt32 := 0
  inspectCursor : UInt32 := 0
  online : Bool := false
  started : Bool := false
  preferControl : Bool := true
  work : Bool := false
  admissionSequence : UInt64 := 0

namespace Ledger

variable (l : Ledger) (t : Token)

def set (i : Nat) (s : Slot) : Ledger := { l with slots := Function.update l.slots i s }

/-- `matches`. -/
def matchesToken : Bool :=
  decide (t.slot < HANDOFF_SLOTS) && t.generation != 0 && (l.slots t.slot).generation == t.generation &&
    (l.slots t.slot).live

def hint : Ledger := { l with work := true }

/-- The token of the request in slot `i`. -/
def token (i : Nat) : Token := ⟨(l.slots i).generation, i⟩

variable (s : Slot)

def takeCredit : Ledger :=
  { l with queued := l.queued + 1, data := if s.request.control then l.data else l.data + 1 }

def dropCredit : Ledger :=
  { l with
    queued := l.queued - 1
    data := if s.request.control then l.data else l.data - 1
    admissionSequence := l.admissionSequence + 1 }

/-- A request that waits to be queued: it has a ticket and its caller still wants it. -/
def waiting : Bool := s.state == .prepared && s.ticket != 0 && s.caller && !s.cancel

/-- There is credit, and no request of the class waits with a smaller ticket. -/
def eligible : Bool :=
  !(decide (l.queued ≥ HANDOFF_CREDITS) || (!s.request.control && decide (l.data ≥ HANDOFF_DATA_CREDITS))) &&
    (List.range HANDOFF_SLOTS).all fun i =>
      !(waiting (l.slots i) && (l.slots i).request.control == s.request.control &&
        decide ((l.slots i).ticket < s.ticket))

def handoffNotify : Ledger := l.hint

def handoffStart : Ledger := if l.started then l else { l with online := true, started := true }

/-- Every request that is not completed is cancelled. -/
def handoffFail : Ledger :=
  hint { l with
    online := false
    admissionSequence := l.admissionSequence + 1
    slots := fun i =>
      if i < HANDOFF_SLOTS && (l.slots i).live && (l.slots i).state != .completed then
        { l.slots i with cancel := true }
      else l.slots i }

def handoffBegin (r : Registration) (req : Request) : Result × Registration × Ledger :=
  if r.active || req.actor == 0 then (.stale, r, l)
  else if !l.online then (.unavailable, r, l)
  else if l.nextTicket == 0xffffffffffffffff then (.exhausted, r, l)
  else if (List.range HANDOFF_SLOTS).any fun i => (l.slots i).live && (l.slots i).request.actor == req.actor then
    (.wait, r, l)
  else
    match (List.range HANDOFF_SLOTS).find? fun i => (l.slots i).state == .free with
    | none => (.wait, r, l)
    | some i =>
      let s := l.slots i
      let s := { s with
        generation := if s.generation == 0 then 1 else s.generation
        request := req, ticket := 0, caller := true, cancel := false, cleaned := !req.retained
        reply := {}, state := .prepared }
      (.ok, ⟨⟨s.generation, i⟩, true⟩, l.set i s)

/-- A ticket, if the request has none yet. -/
def giveTicket (i : Nat) : Ledger :=
  if (l.slots i).ticket == 0 then
    { l.set i { l.slots i with ticket := l.nextTicket + 1 } with nextTicket := l.nextTicket + 1 }
  else l

/-- A prepared request takes a credit and is queued. -/
def enqueue (i : Nat) : Ledger := (l.takeCredit (l.slots i)).set i { l.slots i with state := .queued }

def handoffPublish : Result × Ledger :=
  if !l.matchesToken t then (.stale, l)
  else
    let s := l.slots t.slot
    if s.state == .prepared && s.caller && !s.cancel then
      if s.ticket == 0 && l.nextTicket == 0xffffffffffffffff then
        (if l.online then .exhausted else .unavailable, l)
      else if !l.online then (.unavailable, l)
      else
        let l := (l.giveTicket t.slot).hint
        if l.eligible (l.slots t.slot) then (.ok, (l.enqueue t.slot).hint) else (.wait, l)
    else if s.ticket != 0 && s.caller then (.ok, l)
    else (.stale, l)

/-- The queued request of a class with the smallest ticket, scanning `order`. -/
def candidate (control : Bool) (order : List Nat) : Option Nat :=
  scanBest (fun i => (l.slots i).claimable && (l.slots i).request.control == control)
    (fun i b => decide ((l.slots i).ticket < (l.slots b).ticket)) order

/-- The slots from the claim cursor round. -/
def claimOrder : List Nat := (List.range HANDOFF_SLOTS).map fun j => (l.claimCursor + j) % HANDOFF_SLOTS

/-- Classes take turns; within a class the smallest ticket comes first. -/
def claimChoice : Option Nat :=
  let control := l.candidate true l.claimOrder
  let ordinary := l.candidate false l.claimOrder
  if control.isSome && ordinary.isSome then (if l.preferControl then control else ordinary)
  else if control.isSome then control else ordinary

def handoffClaim : Option (Token × Request) × Ledger :=
  match l.claimChoice with
  | none => (none, l)
  | some i =>
    let s := l.slots i
    let l := (l.dropCredit s).set i { s with state := .claimed }
    (some (⟨s.generation, i⟩, s.request),
      { l with claimCursor := (i + 1) % HANDOFF_SLOTS, preferControl := !s.request.control })

/-- `handoff_pending`'s loop: the next pending request is claimed again. -/
def pendingLoop (l : Ledger) : Nat → Option (Token × Request) × Ledger
  | 0 => (none, l)
  | n + 1 =>
    let i := l.pendingCursor.toNat % HANDOFF_SLOTS
    let l := { l with pendingCursor := l.pendingCursor + 1 }
    if (l.slots i).state != .pending then pendingLoop l n
    else (some (l.token i, (l.slots i).request), l.set i { l.slots i with state := .claimed })

def handoffPending : Option (Token × Request) × Ledger := l.pendingLoop HANDOFF_SLOTS

def handoffFinish (reply : Reply) (pending : Bool) : Bool × Ledger :=
  let s := l.slots t.slot
  if l.matchesToken t && s.state == .claimed then
    if pending then
      let l := l.set t.slot { s with state := .pending }
      (true, if s.cancel then l.hint else l)
    else (true, (l.set t.slot { s with reply, state := .completed }).hint)
  else (false, l)

def handoffCancel : Ledger :=
  if l.matchesToken t then (l.set t.slot { l.slots t.slot with cancel := true }).hint else l

def handoffRelease (r : Registration) : Registration × Ledger :=
  if !r.active then (r, l)
  else
    let l :=
      if l.matchesToken r.token then
        let s := l.slots r.token.slot
        (l.set r.token.slot { s with caller := false, cancel := s.cancel || s.state != .completed }).hint
      else l
    ({ r with active := false }, l)

def handoffCollect : Result × Option Reply :=
  if l.matchesToken t && (l.slots t.slot).caller then
    if (l.slots t.slot).state == .completed then (.ok, some (l.slots t.slot).reply) else (.wait, none)
  else (.stale, none)

/-- The reply of a request that was cancelled before it was claimed. -/
def cancelReply (r : Request) : Reply := { status := if r.cancelStatus != 0 then r.cancelStatus else -4 }

/-- Cancelled before it was claimed. -/
def expires : Bool := (s.state == .prepared || s.state == .queued) && s.cancel

/-- The first half of an acknowledgement: a cancelled request that was not claimed is completed. -/
def expireSlot (i : Nat) : Ledger :=
  let s := l.slots i
  if expires s then
    let l := if s.state == .queued then l.dropCredit s else l
    l.set i { s with reply := cancelReply s.request, state := .completed }
  else l

/-- The second half: a completed request that nobody wants is recycled. -/
def recycleSlot (i : Nat) : Ledger :=
  let s := l.slots i
  if s.state == .completed && !s.caller && s.cleaned then
    let s :=
      if s.generation == 0xffffffffffffffff then { s with state := .retired }
      else { s with generation := s.generation + 1, state := .free }
    { l.set i s with reclaimed := l.reclaimed + 1, admissionSequence := l.admissionSequence + 1 }
  else l

/-- The slot the next acknowledgement looks at. -/
def ackIndex : Nat := l.ackCursor.toNat % HANDOFF_SLOTS

def ackNext : Ledger :=
  let i := l.ackIndex
  (expireSlot { l with ackCursor := l.ackCursor + 1 } i).recycleSlot i

/-- The request to be queued next: control before data, then the smallest ticket. -/
def promoteChoice : Option Nat :=
  scanBest (fun i => waiting (l.slots i) && l.eligible (l.slots i))
    (fun i b =>
      ((l.slots i).request.control && !(l.slots b).request.control) ||
        ((l.slots i).request.control == (l.slots b).request.control && decide ((l.slots i).ticket < (l.slots b).ticket)))
    (List.range HANDOFF_SLOTS)

/-- Waiting requests are queued while there is credit. -/
def promoteLoop (l : Ledger) : Nat → Ledger
  | 0 => l
  | n + 1 =>
    if !l.online then l
    else
      match l.promoteChoice with
      | none => l
      | some i =>
        promoteLoop { l.enqueue i with admissionSequence := l.admissionSequence + 1 } n

/-- A slot the service has something to do for. -/
def runnable : Bool :=
  s.state == .queued || (s.state == .pending && s.cancel) ||
    ((s.state == .prepared && (s.cancel || s.ticket != 0)) || (s.state == .completed && !s.caller))

/-- The flag is set again if anything is left to do. -/
def rescan : Ledger :=
  if (List.range HANDOFF_SLOTS).any fun i => runnable (l.slots i) then l.hint else l

/-- At most eight slots are looked at and at most eight requests queued. The count is
of the requests completed here. -/
def handoffAcknowledge : Nat × Ledger :=
  let l := { l with work := false }
  (((List.range 8).filter fun n => let k := Nat.iterate ackNext n l; expires (k.slots k.ackIndex)).length,
    ((Nat.iterate ackNext 8 l).promoteLoop 8).rescan)

def handoffInspect : Option (Token × Request × SlotState × Bool) × Ledger :=
  let i := l.inspectCursor.toNat % HANDOFF_SLOTS
  let s := l.slots i
  (if s.request.retained && s.live then some (l.token i, s.request, s.state, s.caller) else none,
    { l with inspectCursor := l.inspectCursor + 1 })

def handoffCleaned : Ledger :=
  let s := l.slots t.slot
  hint (if l.matchesToken t && s.state == .completed && !s.caller then l.set t.slot { s with cleaned := true } else l)

/-- What the service sleeps on. -/
def handoffOwnerReady : Bool := l.work

end Ledger

/-- The calls of the interface. A registration is named by the caller that holds it. -/
inductive Call where
  | notify
  | start
  | fail
  | begin (caller : Nat) (req : Request)
  | publish (t : Token)
  | claim
  | pending
  | finish (t : Token) (reply : Reply) (pending : Bool)
  | cancel (t : Token)
  | release (caller : Nat)
  | collect (t : Token)
  | acknowledge
  | inspect
  | cleaned (t : Token)

/-- The ledger and the registrations of its callers. -/
structure System where
  ledger : Ledger := {}
  regs : Nat → Registration := fun _ => {}

namespace System

/-- One call, made by anyone at any time. Any token may be passed. -/
def step (s : System) : Call → System
  | .notify => { s with ledger := s.ledger.handoffNotify }
  | .start => { s with ledger := s.ledger.handoffStart }
  | .fail => { s with ledger := s.ledger.handoffFail }
  | .begin k req =>
    let (_, r, l) := s.ledger.handoffBegin (s.regs k) req
    ⟨l, Function.update s.regs k r⟩
  | .publish t => { s with ledger := (s.ledger.handoffPublish t).2 }
  | .claim => { s with ledger := s.ledger.handoffClaim.2 }
  | .pending => { s with ledger := s.ledger.handoffPending.2 }
  | .finish t reply p => { s with ledger := (s.ledger.handoffFinish t reply p).2 }
  | .cancel t => { s with ledger := s.ledger.handoffCancel t }
  | .release k =>
    let (r, l) := s.ledger.handoffRelease (s.regs k)
    ⟨l, Function.update s.regs k r⟩
  | .collect _ => s
  | .acknowledge => { s with ledger := s.ledger.handoffAcknowledge.2 }
  | .inspect => { s with ledger := s.ledger.handoffInspect.2 }
  | .cleaned t => { s with ledger := s.ledger.handoffCleaned t }

/-- A run from the zeroed ledger. -/
def run (calls : List Call) : System := calls.foldl step {}

end System

end Fortress.Handoff
