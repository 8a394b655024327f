/-
The process table (`kernel/process_table.c`): 64 process records, 64 child
records that hold the status a parent may wait for, and 128 group slots. Every
call is one section under the table's lock, so calls are atomic steps; only a
clone of a group reference works without the lock, by one compare-and-swap,
and an argument says whether another processor wins that race.

Signal and credential state lives outside the table, so pending masks, the
orphan policy that only sets them, names and snapshots are left out. Sequence
numbers stop the machine before they wrap and are natural numbers here.
-/
import Mathlib

namespace Fortress.Process

abbrev PROCESS_CAPACITY : Nat := 64
abbrev PROCESS_GROUP_CAPACITY : Nat := PROCESS_CAPACITY * 2

def PID_MAX : Nat := 0x7fffffffffffffff
def REFS_MAX : Nat := 0xffffffff

def SPAWN_SETPGROUP : UInt32 := 1
def SPAWN_SETSID : UInt32 := 4
def SPAWN_V2_FLAGS : UInt32 := 7

def WNOHANG : UInt32 := 1
def WUNTRACED : UInt32 := 2
def WNOWAIT : UInt32 := 4
def WCONTINUED : UInt32 := 8

inductive Errno where
  | einval | enomem | echild | esrch | eperm
deriving DecidableEq

/-- A bit of a flag word. -/
def has (flags bit : UInt32) : Bool := flags &&& bit != 0

/-- `process_group_t`. -/
structure Group where
  pgid : Nat := 0
  sid : Nat := 0
  generation : UInt64 := 0
  members : Nat := 0
  refs : Nat := 0
deriving DecidableEq

/-- A slot with members or references keeps its identity. -/
def Group.occupied (g : Group) : Bool := g.members != 0 || g.refs != 0

/-- `process_record_t`. -/
structure Record where
  pid : Nat := 0
  parent : Nat := 0
  pgid : Nat := 0
  sid : Nat := 0
  used : Bool := false
  published : Bool := false
  exited : Bool := false
  stopped : Bool := false
  uncollected : Bool := false
  teardownComplete : Bool := false
  cpuTicks : UInt64 := 0
  utime : UInt64 := 0
  stime : UInt64 := 0
  cutime : UInt64 := 0
  cstime : UInt64 := 0
  group : Option Nat := none
deriving DecidableEq

inductive ChildEvent where
  | none | stopped | continued | exited | signaled
deriving DecidableEq

/-- `child_record_t`. -/
structure Child where
  pid : Nat := 0
  parent : Nat := 0
  pgid : Nat := 0
  code : UInt64 := 0
  identityGeneration : Nat := 0
  eventSeq : Nat := 0
  reportedSeq : Nat := 0
  used : Bool := false
  done : Bool := false
  signal : UInt64 := 0
  event : ChildEvent := .none
deriving DecidableEq

structure Table where
  processes : Nat → Record := fun _ => {}
  children : Nat → Child := fun _ => {}
  groups : Nat → Group := fun _ => {}
  sequence : Nat := 0

/-- `process_group_ref_t`. -/
structure GroupRef where
  generation : UInt64 := 0
  slot : Nat := 0
deriving DecidableEq

namespace Table

variable (t : Table) (pid : Nat)

def setProcess (i : Nat) (p : Record) : Table := { t with processes := Function.update t.processes i p }
def setChild (i : Nat) (c : Child) : Table := { t with children := Function.update t.children i c }
def setGroup (i : Nat) (g : Group) : Table := { t with groups := Function.update t.groups i g }

def changed : Table := { t with sequence := t.sequence + 1 }

def find : Option Nat :=
  (List.range PROCESS_CAPACITY).find? fun i => (t.processes i).used && (t.processes i).pid == pid

/-- The record of a process, if it has one. -/
def record? : Option Record := (t.find pid).map t.processes

/-- The status of `pid` was consumed or discarded. -/
def collected : Table :=
  match t.find pid with
  | none => t
  | some i =>
    let p := t.processes i
    t.setProcess i { p with uncollected := false, used := if p.teardownComplete then false else p.used }

/-! ## Groups -/

def groupExists (pgid sid : Nat) : Bool :=
  (List.range PROCESS_GROUP_CAPACITY).any fun i =>
    (t.groups i).members != 0 && (t.groups i).pgid == pgid && (t.groups i).sid == sid

/-- What the scan of `group_join` ends with. -/
inductive Join where
  | refused
  | member (slot : Nat)
  | absent (free : Option Nat)

/-- The loop of `group_join`; `free` is the first slot that may be reused. -/
def joinScan (t : Table) (pgid sid : Nat) : List Nat → Option Nat → Join
  | [], free => .absent free
  | i :: slots, free =>
    let g := t.groups i
    if !g.occupied then
      joinScan t pgid sid slots (if free.isNone && g.generation != 0xffffffffffffffff then some i else free)
    else if g.pgid != pgid then joinScan t pgid sid slots free
    else if g.sid != sid || g.members == 0 then .refused
    else .member i

def groupJoin (pgid sid : Nat) (create : Bool) : Except Errno (Nat × Table) :=
  match t.joinScan pgid sid (List.range PROCESS_GROUP_CAPACITY) none with
  | .refused => .error .eperm
  | .member i => .ok (i, t.setGroup i { t.groups i with members := (t.groups i).members + 1 })
  | .absent free =>
    if !create then .error .eperm
    else
      match free with
      | none => .error .enomem
      | some i =>
        .ok (i, t.setGroup i { t.groups i with
          pgid, sid, generation := (t.groups i).generation + 1, members := 1 })

/-- The record in slot `i` leaves its group. The source stops the machine if the group is empty. -/
def groupLeave (i : Nat) : Table :=
  match (t.processes i).group with
  | none => t
  | some g =>
    (t.setGroup g { t.groups g with members := (t.groups g).members - 1 }).setProcess i
      { t.processes i with group := none }

/-- `group_ref_locked`: the slot a reference names now. -/
def groupRef (ref : GroupRef) : Option Nat :=
  if ref.generation == 0 || decide (ref.slot ≥ PROCESS_GROUP_CAPACITY) then none
  else if (t.groups ref.slot).generation == ref.generation && (t.groups ref.slot).refs != 0 then some ref.slot
  else none

/-- `contended`: a clone made elsewhere wins the race for the counter. -/
def processGroupAcquire (sid pgid : Nat) (contended : Bool) : Except Errno GroupRef × Table :=
  if sid == 0 || pgid == 0 then (.error .einval, t)
  else
    match (List.range PROCESS_GROUP_CAPACITY).find? fun i =>
      (t.groups i).members != 0 && (t.groups i).pgid == pgid with
    | none => (.error .esrch, t)
    | some i =>
      let g := t.groups i
      if g.sid != sid then (.error .eperm, t)
      else if g.refs == REFS_MAX || contended then (.error .enomem, t)
      else (.ok ⟨g.generation, i⟩, t.setGroup i { g with refs := g.refs + 1 })

def processGroupTryRetain (owned : GroupRef) (contended : Bool) : Option GroupRef × Table :=
  if owned.generation == 0 || decide (owned.slot ≥ PROCESS_GROUP_CAPACITY) then (none, t)
  else
    let g := t.groups owned.slot
    if g.generation != owned.generation || g.refs == 0 || g.refs == REFS_MAX || contended then (none, t)
    else (some owned, t.setGroup owned.slot { g with refs := g.refs + 1 })

def processGroupReleaseRef (ref : GroupRef) : Bool × Table :=
  match t.groupRef ref with
  | none => (false, t)
  | some i => (true, t.setGroup i { t.groups i with refs := (t.groups i).refs - 1 })

/-! ## Records -/

/-- The group and session a new process asks for. -/
def beginGroup (par : Option Record) (flags : UInt32) (pgid : Nat) : Except Errno (Nat × Nat) :=
  let sid := (par.map (·.sid)).getD pid
  let group := (par.map (·.pgid)).getD pid
  if has flags SPAWN_SETSID then .ok (pid, pid)
  else if has flags SPAWN_SETPGROUP then
    let group := if pgid != 0 then pgid else pid
    if group != pid && !t.groupExists group sid then .error .eperm else .ok (group, sid)
  else .ok (group, sid)

def freeProcess : Option Nat := (List.range PROCESS_CAPACITY).find? fun i => !(t.processes i).used
def freeChild : Option Nat := (List.range PROCESS_CAPACITY).find? fun i => !(t.children i).used

/-- The reservation of a child's status. -/
def reserveChild (k pid parent pgid : Nat) : Table :=
  t.setChild k { pid, parent, pgid, used := true, identityGeneration := (t.children k).identityGeneration + 1 }

def processRecordBegin (pid parent : Nat) (waitable : Bool) (flags : UInt32) (pgid : Nat) :
    Except Errno Unit × Table :=
  if pid == 0 || decide (pid > PID_MAX) || has flags (~~~SPAWN_V2_FLAGS) ||
      (!has flags SPAWN_SETPGROUP && pgid != 0) || decide (pgid > PID_MAX) then (.error .einval, t)
  else if (t.find pid).isSome then (.error .einval, t)
  else
    let par := t.record? parent
    if waitable && (par.map (·.exited)).getD true then (.error .echild, t)
    else
      match t.freeProcess with
      | none => (.error .enomem, t)
      | some i =>
        let ch := t.freeChild
        if waitable && ch.isNone then (.error .enomem, t)
        else
          match t.beginGroup pid par flags pgid with
          | .error e => (.error e, t)
          | .ok (group, sid) =>
            match t.groupJoin group sid (group == pid) with
            | .error e => (.error e, t)
            | .ok (identity, t) =>
              let t := t.setProcess i { pid, parent, pgid := group, sid, used := true, group := some identity }
              (.ok (), if waitable then ch.elim t fun k => t.reserveChild k pid parent group else t)

/-- Drops the child records of `pid`. -/
def dropChildren : Table :=
  { t with children := fun i =>
      if i < PROCESS_CAPACITY ∧ (t.children i).used = true ∧ (t.children i).pid = pid then
        { t.children i with used := false }
      else t.children i }

def processRecordAbort : Table :=
  let t :=
    match t.find pid with
    | none => t
    | some i =>
      let t := t.groupLeave i
      t.setProcess i { t.processes i with used := false }
  (t.dropChildren pid).changed

def processRecordCommit : Table :=
  match t.find pid with
  | none => t
  | some i => t.setProcess i { t.processes i with published := true }

/-- An event of a child is published to its parent. -/
def childPublish (k : Nat) (c : Child) : Table :=
  (t.setChild k { c with eventSeq := c.eventSeq + 1 }).changed

/-- One round of the loop over the child records in `process_record_exit_accounted_times`: the status
of `pid`, whose record is `p`, is published, and what it could have waited for is discarded. -/
def exitChild (pid : Nat) (p : Option Nat) (code signal : UInt64) (t : Table) (k : Nat) : Table :=
  let c := t.children k
  if !c.used then t
  else
    let t :=
      if c.pid == pid then
        let t := p.elim t fun i => t.setProcess i { t.processes i with uncollected := true }
        if !c.done then
          t.childPublish k { c with
            code := if signal != 0 then 0 else code, signal, done := true
            event := if signal != 0 then .signaled else .exited }
        else t
      else t
    if c.parent == pid then
      let t := t.collected c.pid
      t.setChild k { t.children k with used := false }
    else t

/-- The record of an exiting process: its group is left and its times are final. -/
def exitRecord (ticks utime stime : UInt64) : Table :=
  match t.find pid with
  | none => t
  | some i =>
    let p := t.processes i
    let t := t.setProcess i { p with
      cpuTicks := if !p.exited && decide (ticks > p.cpuTicks) then ticks else p.cpuTicks, utime, stime }
    let t := t.groupLeave i
    t.setProcess i { t.processes i with exited := true }

def processRecordExitAccountedTimes (code signal ticks utime stime : UInt64) : Bool × Table :=
  let recorded := (List.range PROCESS_CAPACITY).any fun k => (t.children k).used && (t.children k).pid == pid
  (recorded, ((List.range PROCESS_CAPACITY).foldl (exitChild pid (t.find pid) code signal)
    (t.exitRecord pid ticks utime stime)).changed)

/-- The process is torn down; its record stays while its status may be waited for. -/
def processRecordForget : Table :=
  match t.find pid with
  | none => t
  | some i =>
    let t := t.groupLeave i
    let p := t.processes i
    t.setProcess i { p with teardownComplete := true, used := if !p.uncollected then false else p.used }

/-- The child records of `pid` follow it to its new group. -/
def regroupChildren (pid pgid : Nat) : Table :=
  { t with children := fun k =>
      if k < PROCESS_CAPACITY ∧ (t.children k).used = true ∧ (t.children k).pid = pid then
        { t.children k with pgid := pgid }
      else t.children k }

def processRecordSetpgid (caller pid pgid : Nat) : Except Errno Unit × Table :=
  if pid > PID_MAX ∨ pgid > PID_MAX then (.error .einval, t)
  else
    let pid := if pid = 0 then caller else pid
    let pgid := if pgid = 0 then pid else pgid
    match t.find caller, t.find pid with
    | some s, some i =>
      let self := t.processes s
      let p := t.processes i
      if p.exited || (pid != caller && p.parent != caller) then (.error .esrch, t)
      else if p.sid != self.sid || p.sid == p.pid then (.error .eperm, t)
      else if pid != caller && p.published then (.error .eperm, t)
      else if pgid != pid && !t.groupExists pgid p.sid then (.error .eperm, t)
      else
        let joined : Except Errno Table :=
          if pgid != p.pgid then
            match t.groupJoin pgid p.sid (pgid == pid) with
            | .error e => .error e
            | .ok (identity, t) =>
              let t := t.groupLeave i
              .ok (t.setProcess i { t.processes i with group := some identity })
          else .ok t
        match joined with
        | .error e => (.error e, t)
        | .ok t =>
          let t := t.setProcess i { t.processes i with pgid := pgid }
          (.ok (), (t.regroupChildren pid pgid).changed)
    | _, _ => (.error .esrch, t)

/-! ## Waiting -/

/-- The child is one the selector asks for. -/
def selects (p : Option Record) (selector : Int) (c : Child) : Bool :=
  !(decide (selector > 0) && (c.pid : Int) != selector) &&
    !(selector == 0 && (p.map (fun p => c.pgid != p.pgid)).getD true) &&
    !(decide (selector < -1) && (c.pgid : Int) != -selector)

/-- It has an event the caller wants and has not been told of. -/
def reportable (options : UInt32) (legacy : Bool) (c : Child) : Bool :=
  c.eventSeq != c.reportedSeq &&
    !(!c.done && (legacy || (c.event == .stopped && !has options WUNTRACED) ||
      (c.event == .continued && !has options WCONTINUED)))

/-- How the event reads in the caller's status word. -/
def statusWord (legacy : Bool) (c : Child) : UInt64 :=
  match c.event with
  | .stopped => (c.signal <<< 8) ||| 0x7f
  | .continued => 0xffff
  | _ =>
    if c.signal != 0 then (if legacy then 128 + c.signal else c.signal)
    else (if legacy then c.code else (c.code &&& 255) <<< 8)

/-- A child the caller may wait for. -/
def waitCandidate (parent : Nat) (selector : Int) (k : Nat) : Bool :=
  (t.children k).used && (t.children k).parent == parent && selects (t.record? parent) selector (t.children k)

/-- The first candidate with something to report. -/
def waitScan (parent : Nat) (selector : Int) (options : UInt32) (legacy : Bool) : Option Nat :=
  (List.range PROCESS_CAPACITY).find? fun k =>
    t.waitCandidate parent selector k && reportable options legacy (t.children k)

/-- The times of a collected child are added to its parent's. -/
def addTimes (parent child : Nat) : Table :=
  match t.find parent, t.find child with
  | some p, some c =>
    t.setProcess p { t.processes p with
      cutime := (t.processes p).cutime + ((t.processes c).utime + (t.processes c).cutime)
      cstime := (t.processes p).cstime + ((t.processes c).stime + (t.processes c).cstime) }
  | _, _ => t

/-- A report that is not only peeked at is consumed, and a final one frees the child record. -/
def consume (parent k : Nat) : Table :=
  let c := t.children k
  let t := t.setChild k { c with reportedSeq := c.eventSeq }
  if c.done then
    let t := (t.addTimes parent c.pid).collected c.pid
    t.setChild k { t.children k with used := false }
  else t

/-- What a wait returns: a child and its status word, or that there is nothing yet. -/
inductive WaitResult where
  | error (e : Errno)
  | nothing
  | child (pid : Nat) (status : UInt64)
deriving DecidableEq

def processRecordWait (parent : Nat) (selector : Int) (options : UInt32) (legacy : Bool) :
    WaitResult × Table :=
  if has options (~~~(WNOHANG ||| WUNTRACED ||| WCONTINUED ||| WNOWAIT)) || selector == -0x8000000000000000 then
    (.error .einval, t)
  else
    match t.waitScan parent selector options legacy with
    | some k =>
      (.child (t.children k).pid (statusWord legacy (t.children k)),
        if has options WNOWAIT then t else t.consume parent k)
    | none =>
      (if (List.range PROCESS_CAPACITY).any (t.waitCandidate parent selector) then .nothing else .error .echild, t)

/-! ## Stopping -/

/-- One child record of `pid` gets an event. -/
def publishOne (pid : Nat) (event : ChildEvent) (signal : UInt64) (t : Table) (k : Nat) : Table :=
  let c := t.children k
  if c.used && c.pid == pid && !c.done then t.childPublish k { c with event := event, signal := signal } else t

/-- Publishes an event to the parents of `pid` that still wait for its end. -/
def publishAll (event : ChildEvent) (signal : UInt64) : Table :=
  (List.range PROCESS_CAPACITY).foldl (publishOne pid event signal) t

/-- `stopped_locked`, for a process that takes a stop signal. -/
def processStop (signal : UInt64) : Table :=
  match t.find pid with
  | none => t
  | some i =>
    if (t.processes i).exited || (t.processes i).stopped then t
    else (t.setProcess i { t.processes i with stopped := true }).publishAll pid .stopped signal

/-- `process_record_resume`, for a process that was asked to continue, or killed. -/
def processResume (killed : Bool) : Table :=
  match t.find pid with
  | none => t
  | some i =>
    if (t.processes i).exited || !(t.processes i).stopped then t
    else
      let t := t.setProcess i { t.processes i with stopped := false }
      if killed then t else t.publishAll pid .continued 0

end Table

/-- The calls of the table, with any arguments. -/
inductive Call where
  | begin (pid parent : Nat) (waitable : Bool) (flags : UInt32) (pgid : Nat)
  | abort (pid : Nat)
  | commit (pid : Nat)
  | exit (pid : Nat) (code signal ticks utime stime : UInt64)
  | forget (pid : Nat)
  | setpgid (caller pid pgid : Nat)
  | wait (parent : Nat) (selector : Int) (options : UInt32) (legacy : Bool)
  | stop (pid : Nat) (signal : UInt64)
  | resume (pid : Nat) (killed : Bool)
  | acquire (sid pgid : Nat) (contended : Bool)
  | tryRetain (owned : GroupRef) (contended : Bool)
  | releaseRef (ref : GroupRef)

namespace Table

def step (t : Table) : Call → Table
  | .begin pid parent waitable flags pgid => (t.processRecordBegin pid parent waitable flags pgid).2
  | .abort pid => t.processRecordAbort pid
  | .commit pid => t.processRecordCommit pid
  | .exit pid code signal ticks utime stime => (t.processRecordExitAccountedTimes pid code signal ticks utime stime).2
  | .forget pid => t.processRecordForget pid
  | .setpgid caller pid pgid => (t.processRecordSetpgid caller pid pgid).2
  | .wait parent selector options legacy => (t.processRecordWait parent selector options legacy).2
  | .stop pid signal => t.processStop pid signal
  | .resume pid killed => t.processResume pid killed
  | .acquire sid pgid contended => (t.processGroupAcquire sid pgid contended).2
  | .tryRetain owned contended => (t.processGroupTryRetain owned contended).2
  | .releaseRef ref => (t.processGroupReleaseRef ref).2

/-- A run from the zeroed table. -/
def run (calls : List Call) : Table := calls.foldl step {}

end Table

end Fortress.Process
