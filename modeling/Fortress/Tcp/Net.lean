/-
The socket layer over the TCP pool (`net/net_tcp.c`). An endpoint holds a
block of the pool; a listener also queues the blocks of its children until
they are accepted.

Every call runs on the network worker, save `net_tcp_close`, which may come
from another processor and only takes the endpoint lock; so each step here is
one lock section, a tick is the list of its sections (`netTcpTick`), and a run
(`Worker`) is a sequence of worker calls with closes between any two sections.
Slots come from live handles and are below `NET_SOCKET_MAX`. What the layer
reads of the machine is an argument: the clocks, the initial sequence number,
whether a route exists, whether a prepared segment left the device.
-/
import Fortress.Tcp.Pool

namespace Fortress.Tcp

abbrev NET_SOCKET_MAX : Nat := 16
abbrev NET_TCP_BACKLOG_MAX : Nat := 4

abbrev SYSCALL_EINVAL : Int := -1
abbrev SYSCALL_EBADF : Int := -3
abbrev SYSCALL_EIO : Int := -9
abbrev SYSCALL_ENOSPC : Int := -13
abbrev SYSCALL_EPIPE : Int := -20
abbrev SYSCALL_EAGAIN : Int := -21
abbrev SYSCALL_ECONNREFUSED : Int := -26
abbrev SYSCALL_ECONNRESET : Int := -27
abbrev SYSCALL_ENOTCONN : Int := -28
abbrev SYSCALL_EADDRINUSE : Int := -29
abbrev SYSCALL_ETIMEDOUT : Int := -30
abbrev SYSCALL_EISCONN : Int := -31

abbrev SlotId := Fin NET_SOCKET_MAX

instance : NeZero NET_SOCKET_MAX := ⟨by decide⟩

/-- `net_tcp_child_t`; no block is -1. -/
structure Child where
  block : Option Nat := none
  generation : UInt64 := 0
deriving DecidableEq

structure Endpoint where
  generation : UInt64 := 0
  event : UInt64 := 0
  observed : UInt64 := 0
  wakeDeadlineTicks : UInt64 := 0
  wakeDeadlineSet : Bool := false
  block : Option Nat := none
  error : Int := 0
  port : UInt16 := 0
  used : Bool := false
  started : Bool := false
  detach : Bool := false
  cancel : Bool := false
  wake : Bool := false
  listening : Bool := false
  passive : Bool := false
  backlog : Nat := 0
  pending : Fin NET_TCP_BACKLOG_MAX → Child := fun _ => {}

structure Net where
  endpoints : SlotId → Endpoint := fun _ => {}
  pool : Pool := {}
  passiveTw : Nat → Bool := fun _ => false
  /-- The device's MTU, if there is a device. -/
  mtu : Option UInt16 := none
  localIp : UInt32 := 0
  ephemeral : UInt16 := 49152
  clockMs : UInt64 := 0
  cursor : Nat := 0
  twPending : Bool := false
  deadlineClockLast : UInt64 := 0
  deadlineClockFailed : Bool := false

def netTcpInit (mtu : UInt16) (localIp : UInt32) (now ticks : UInt64) : Net :=
  { mtu := some mtu, localIp, clockMs := now, deadlineClockLast := ticks }

variable (n : Net) (slot : SlotId)

def Net.setEndpoint (e : Endpoint) : Net :=
  { n with endpoints := Function.update n.endpoints slot e }

def Net.setBlock (b : Nat) (c : Conn) : Net :=
  { n with pool := { n.pool with blocks := Function.update n.pool.blocks b c } }

/-- An event that cannot be counted ends the endpoint. -/
def publish (e : Endpoint) : Endpoint :=
  if e.event == 0xffffffffffffffff then
    { e with wakeDeadlineSet := false, error := SYSCALL_EIO, generation := 0, wake := true }
  else { e with event := e.event + 1, wake := true }

/-- `connection`: the block of an endpoint, if it is used. -/
def connection (p : Pool) (e : Endpoint) : Option Nat := e.block.filter p.used

def pendingConnection (p : Pool) (child : Child) : Option Nat :=
  child.block.filter fun b => decide (b < TCP_CB_MAX) && p.used b && (p.blocks b).generation == child.generation

def errorCode (c : Conn) (connecting : Bool) : Int :=
  if c.error == TCP_RESET then (if connecting then SYSCALL_ECONNREFUSED else SYSCALL_ECONNRESET)
  else if c.error == TCP_TIMEOUT then SYSCALL_ETIMEDOUT
  else SYSCALL_ENOTCONN

/-! ## Sockets -/

def netTcpCreate : Int × Net :=
  match n.mtu with
  | none => ( SYSCALL_EIO, n)
  | some mtu =>
    let e := n.endpoints slot
    if e.used || e.detach then (SYSCALL_ENOSPC, n)
    else
      -- a placeholder that is never demultiplexed: its remote address is 0
      let tuple : Tuple := { localIp := n.localIp, localPort := UInt16.ofNat (slot.val + 1), remotePort := 1 }
      let r := tcpPoolOpen n.pool tuple 0 mtu false n.clockMs
      if r.1 < 0 then (SYSCALL_ENOSPC, n)
      else
        let b := r.1.toNat
        let n := { n with pool := r.2, passiveTw := Function.update n.passiveTw (r.2.twSlot b) false }
        let n := n.setBlock b { n.pool.blocks b with state := .closed }
        let e := { e with
          block := some b, used := true, started := false, cancel := false, detach := false, port := 0, error := 0
          observed := 0xffffffffffffffff, wakeDeadlineSet := false, wakeDeadlineTicks := 0
          listening := false, passive := false, backlog := 0, event := 0
          generation := (n.pool.blocks b).generation }
        (0, n.setEndpoint slot (publish e))

def netTcpStage : Int × Net :=
  let e := n.endpoints slot
  if e.used || e.detach then (SYSCALL_ENOSPC, n)
  else
    (0, n.setEndpoint slot { e with
      used := true, block := none, started := false, listening := false, wake := false, passive := false
      port := 0, error := 0, backlog := 0, wakeDeadlineSet := false, wakeDeadlineTicks := 0 })

/-- The reservation of an accept is given up; any other endpoint traps. -/
def netTcpUnstage : Net :=
  let e := n.endpoints slot
  if !e.used || e.block.isSome || e.started || e.generation != 0 then n
  else n.setEndpoint slot { e with used := false }

def netTcpListen (backlog : Nat) : Int × Net :=
  let e := n.endpoints slot
  match connection n.pool e with
  | none => (SYSCALL_EINVAL, n)
  | some b =>
    if backlog == 0 || decide (backlog > NET_TCP_BACKLOG_MAX) || e.port == 0 || e.started then (SYSCALL_EINVAL, n)
    else
      let c := n.pool.blocks b
      let n := n.setBlock b { c with tuple := { c.tuple with localPort := e.port }, state := .listen }
      (0, n.setEndpoint slot (publish { e with started := true, listening := true, backlog }))

/-- Another endpoint, or a record of an active connection, holds the port. -/
def portUsed (port : UInt16) (self : SlotId) : Bool :=
  (List.finRange NET_SOCKET_MAX).any (fun i =>
    i != self && (n.endpoints i).used && !(n.endpoints i).passive && (n.endpoints i).port == port) ||
  (List.range TCP_TIMEWAIT_MAX).any fun i =>
    (n.pool.timewait i).used && !n.passiveTw i && (n.pool.timewait i).tuple.remoteIp != 0 &&
      (n.pool.timewait i).tuple.localPort == port &&
      ((connection n.pool (n.endpoints self)).isNone ||
        (n.pool.timewait i).generation != (n.endpoints self).generation)

def nextEphemeral (port : UInt16) : UInt16 := if port == 65535 then 49152 else port + 1

/-- The first free port from `ephemeral` on, and the cursor after it. -/
def pickPort (n : Net) (self : SlotId) : Nat → UInt16 → Option UInt16 × UInt16
  | 0, port => (none, port)
  | fuel + 1, port =>
    if portUsed n port self then pickPort n self fuel (nextEphemeral port) else (some port, nextEphemeral port)

def netTcpBind (port : UInt16) : Int × Net :=
  let e := n.endpoints slot
  if e.port != 0 || e.started then (SYSCALL_EINVAL, n)
  else if port != 0 then
    if portUsed n port slot then (SYSCALL_EADDRINUSE, n) else (0, n.setEndpoint slot { e with port })
  else
    match pickPort n slot 16384 n.ephemeral with
    | (none, ephemeral) => (SYSCALL_ENOSPC, { n with ephemeral })
    | (some port, ephemeral) => (0, Net.setEndpoint { n with ephemeral } slot { e with port })

/-- `connect_start`: `expired` is a deadline that has passed, `isn` and `now` what the connection starts with. -/
def connectStart (ip : UInt32) (port : UInt16) (routed expired : Bool) (isn : UInt32)
    (now : UInt64) : Int × Net :=
  if !routed then (SYSCALL_EINVAL, n)
  else
    let e := n.endpoints slot
    match connection n.pool e, n.mtu with
    | some b, some mtu =>
      if !e.used then (SYSCALL_ENOTCONN, n)
      else if e.started then (SYSCALL_EISCONN, n)
      else if expired then (SYSCALL_ETIMEDOUT, n)
      else
        let bound := if e.port == 0 then netTcpBind n slot 0 else (0, n)
        if bound.1 != 0 then bound
        else
          let n := bound.2
          let e := n.endpoints slot
          let tuple : Tuple := ⟨n.localIp, ip, e.port, port⟩
          let tw := n.pool.twSlot b
          if (List.range TCP_TIMEWAIT_MAX).any fun i =>
              i != tw && (n.pool.timewait i).used && (n.pool.timewait i).tuple == tuple then (SYSCALL_EADDRINUSE, n)
          else
            match tcpConnInit tuple e.generation isn mtu true now with
            | none => (TCP_INVALID, n)
            | some c =>
              let n := n.setBlock b c
              let n := { n with pool := { n.pool with
                timewait := Function.update n.pool.timewait tw { n.pool.timewait tw with tuple } } }
              (0, n.setEndpoint slot (publish { e with started := true }))
    | _, _ => (SYSCALL_ENOTCONN, n)

def netTcpCancelConnect (generation : UInt64) : Net :=
  let e := n.endpoints slot
  if e.used && e.generation == generation then
    n.setEndpoint slot (publish { e with cancel := true, error := SYSCALL_ENOTCONN })
  else n

def netTcpClose : Net :=
  n.setEndpoint slot (publish { n.endpoints slot with
    used := false, detach := true, wakeDeadlineSet := false, wakeDeadlineTicks := 0, generation := 0 })

/-! ## Accepting -/

/-- A child the listener can hand out. -/
def ready (c : Conn) : Bool := c.state == .established || c.state == .closeWait

/-- The first child that is ready and not excluded, or why there is none. -/
def netTcpAcceptOffer (excluded : Nat) : Except Int Child :=
  let e := n.endpoints slot
  if !e.used || !e.listening then .error SYSCALL_EINVAL
  else if e.error != 0 then .error e.error
  else
    match (List.finRange NET_TCP_BACKLOG_MAX).find? fun j =>
        decide (j.val < e.backlog) && (pendingConnection n.pool (e.pending j)).any fun b =>
          !excluded.testBit b && ready (n.pool.blocks b) with
    | none => .error SYSCALL_EAGAIN
    | some j => .ok (e.pending j)

def netTcpAcceptCommit (listener target : SlotId) (child : Child) : Int × Net :=
  let e := n.endpoints listener
  let accepted := n.endpoints target
  let found := (List.finRange NET_TCP_BACKLOG_MAX).find? fun j =>
    decide (j.val < e.backlog) && (e.pending j).block == child.block && (e.pending j).generation == child.generation
  match found, pendingConnection n.pool child with
  | some j, some b =>
    if !e.used || !e.listening || e.error != 0 || !accepted.used || accepted.block.isSome ||
        accepted.generation != 0 || !ready (n.pool.blocks b) then
      (if e.error != 0 then e.error else SYSCALL_EBADF, n)
    else
      let accepted := { accepted with
        block := some b, port := (n.pool.blocks b).tuple.localPort, passive := true, started := true
        observed := 0xffffffffffffffff, wakeDeadlineSet := false, wakeDeadlineTicks := 0, event := 0
        generation := child.generation }
      let e := { e with pending := Function.update e.pending j { e.pending j with block := none } }
      (0, (n.setEndpoint listener (publish e)).setEndpoint target (publish accepted))
  | _, _ => (if e.error != 0 then e.error else SYSCALL_EBADF, n)

/-! ## Data -/

/-- The block of a started endpoint past its handshake, or the error of the call. -/
def transferBlock : Except Int Nat :=
  let e := n.endpoints slot
  if e.error != 0 then .error e.error
  else
    match connection n.pool e with
    | none => .error SYSCALL_ENOTCONN
    | some b =>
      let c := n.pool.blocks b
      if !e.started || c.state == .synSent || c.state == .synRcvd then .error SYSCALL_ENOTCONN else .ok b

/-- What a nonblocking read or write could do now: bytes, end of file or an error. -/
def netTcpProbe (receive : Bool) : Int :=
  match transferBlock n slot with
  | .error e => e
  | .ok b =>
    let c := n.pool.blocks b
    if receive then
      if c.rcv.rxCount != 0 then c.rcv.rxCount
      else if c.error != 0 then errorCode c false
      else if c.rcv.eof then 0 else SYSCALL_EAGAIN
    else if c.snd.wantFin then SYSCALL_EPIPE
    else if c.state == .closed then errorCode c false
    else if c.snd.txCount < TCP_TXBUF_MAX then (TCP_TXBUF_MAX - c.snd.txCount : Nat) else SYSCALL_EAGAIN

/-- The counters change: the next sample is news. -/
def Net.touched : Net :=
  n.setEndpoint slot (publish { n.endpoints slot with observed := 0xffffffffffffffff })

def netTcpSend (data : List UInt8) : Int × Net :=
  match transferBlock n slot with
  | .error e => (e, n)
  | .ok b =>
    let c := n.pool.blocks b
    if c.snd.wantFin then (SYSCALL_EPIPE, n)
    else if c.state == .closed then (errorCode c false, n)
    else
      let r := tcpConnQueue c data
      if r.1 == TCP_WOULD_BLOCK then (SYSCALL_EAGAIN, n.setBlock b r.2)
      else if r.1 < 0 then (SYSCALL_ENOTCONN, n.setBlock b r.2)
      else (r.1, (n.setBlock b r.2).touched slot)

/-- The bytes a nonblocking read gets, or its error. -/
def netTcpPeek (capacity : Nat) : Except Int (List UInt8) :=
  match transferBlock n slot with
  | .error e => .error e
  | .ok b =>
    let c := n.pool.blocks b
    let r := tcpConnPeek c capacity
    if r.1 == TCP_WOULD_BLOCK then .error SYSCALL_EAGAIN
    else if r.1 < 0 then .error (errorCode c false)
    else .ok r.2

def netTcpConsume (len : Nat) : Int × Net :=
  match connection n.pool (n.endpoints slot) with
  | none => (TCP_INVALID, n.touched slot)
  | some b =>
    let r := tcpConnConsume (n.pool.blocks b) len
    (r.1, (n.setBlock b r.2).touched slot)

def netTcpShutdown : Int × Net :=
  match connection n.pool (n.endpoints slot) with
  | none => (SYSCALL_ENOTCONN, n)
  | some b =>
    let r := tcpConnShutdown (n.pool.blocks b)
    (if r.1 != 0 then SYSCALL_ENOTCONN else 0, n.setBlock b r.2)

/-! ## Input -/

/-- A decoded segment, and what the layer reads when it comes in. -/
structure Inbound where
  source : UInt32
  header : Header
  data : List UInt8
  now : UInt64
  isn : UInt32
  unicast : Bool

/-- `tcp_pool_timewait_input`: whether a record answered, and the pool. -/
def tcpPoolTimewaitInput (p : Pool) (tuple : Tuple) (h : Header) (len : Nat) (now : UInt64) : Bool × Pool :=
  if decide (len > TCP_IPV4_SEGMENT_MAX) || has h.flags TCP_RST || h.source != tuple.remotePort ||
      h.destination != tuple.localPort || (len == 0 && !has h.flags (TCP_SYN ||| TCP_FIN)) then (false, p)
  else
    match (List.range TCP_TIMEWAIT_MAX).find? fun i =>
        (p.timewait i).active && decide (now < (p.timewait i).expiresMs) && (p.timewait i).tuple == tuple with
    | none => (false, p)
    | some i =>
      let tw := p.timewait i
      let expires := deadline now TCP_TIMEWAIT_MS
      if has h.flags TCP_FIN && h.sequence + UInt32.ofNat len == tw.rcvNxt - 1 && decide (expires > tw.expiresMs) then
        (true, { p with timewait := Function.update p.timewait i { tw with expiresMs := expires } })
      else (true, p)

abbrev TCP_ECE : UInt8 := 0x40
abbrev TCP_CWR : UInt8 := 0x80

/-- A SYN to a listener with a free place in its queue. -/
def admitSyn (tuple : Tuple) (s : Inbound) : Net :=
  let e := n.endpoints slot
  match (List.finRange NET_TCP_BACKLOG_MAX).find? (fun j =>
      decide (j.val < e.backlog) && (e.pending j).block.isNone), n.mtu with
  | some j, some mtu =>
    let r := tcpPoolOpen n.pool tuple s.isn mtu false s.now
    if r.1 < 0 then n
    else
      let b := r.1.toNat
      let n := { n with pool := r.2, passiveTw := Function.update n.passiveTw (r.2.twSlot b) true }
      let child : Child := ⟨some b, (n.pool.blocks b).generation⟩
      let n := n.setBlock b (tcpConnInput (n.pool.blocks b) s.header s.data s.now)
      n.setEndpoint slot (publish { e with pending := Function.update e.pending j child })
  | _, _ => n

def netTcpInput (s : Inbound) : Net :=
  let h := s.header
  let tuple : Tuple := ⟨n.localIp, s.source, h.destination, h.source⟩
  match (List.range TCP_CB_MAX).find? fun i =>
      n.pool.used i && (n.pool.blocks i).tuple.remoteIp != 0 && (n.pool.blocks i).tuple == tuple with
  | some i => n.setBlock i (tcpConnInput (n.pool.blocks i) h s.data s.now)
  | none =>
    let r := tcpPoolTimewaitInput n.pool tuple h s.data.length s.now
    if !n.twPending && r.1 then { n with pool := r.2, twPending := true }
    else if h.flags &&& ~~~(TCP_ECE ||| TCP_CWR) == TCP_SYN && s.data.length == 0 && s.unicast && h.source != 0 &&
        h.destination != 0 then
      match (List.finRange NET_SOCKET_MAX).find? fun i =>
          (n.endpoints i).used && (n.endpoints i).listening && (n.endpoints i).error == 0 &&
            (n.endpoints i).port == h.destination with
      | some i => admitSyn n i tuple s
      | none => n
    else n

/-! ## The tick -/

/-- The clock only goes forward; a timer that went back is noted. -/
def tickBegin (now fresh : UInt64) : Net :=
  { n with deadlineClockLast := fresh, clockMs := if now > n.clockMs then now else n.clockMs }

/-- Every child of the queue is detached and taken off it. -/
def dropPending (n : Net) (slot : SlotId) : List (Fin NET_TCP_BACKLOG_MAX) → Net
  | [] => n
  | j :: js =>
    let e := n.endpoints slot
    let n :=
      match pendingConnection n.pool (e.pending j) with
      | some b => n.setBlock b (tcpConnDetach (n.pool.blocks b) n.clockMs)
      | none => n
    dropPending (n.setEndpoint slot
      { e with pending := Function.update e.pending j { e.pending j with block := none } }) slot js

/-- The places of a queue. -/
def queue (e : Endpoint) : List (Fin NET_TCP_BACKLOG_MAX) :=
  (List.finRange NET_TCP_BACKLOG_MAX).filter fun j => decide (j.val < e.backlog)

def tickDetach : Net :=
  let c := connection n.pool (n.endpoints slot)
  let n := dropPending n slot (queue (n.endpoints slot))
  let n :=
    match c with
    | some b => n.setBlock b (tcpConnDetach (n.pool.blocks b) n.clockMs)
    | none => n
  n.setEndpoint slot (publish { n.endpoints slot with
    listening := false, backlog := 0, block := none, detach := false, cancel := false })

/-- The children of a listener are ticked; a closed one is let go. Which are ready is noted in `mask`. -/
def tickPending (n : Net) (slot : SlotId) (mask : UInt64) : List (Fin NET_TCP_BACKLOG_MAX) → Net × UInt64
  | [] => (n, mask)
  | j :: js =>
    let e := n.endpoints slot
    match pendingConnection n.pool (e.pending j) with
    | none =>
      tickPending (n.setEndpoint slot
        { e with pending := Function.update e.pending j { e.pending j with block := none } }) slot mask js
    | some b =>
      let c := tcpConnTick (n.pool.blocks b) n.clockMs
      if c.state == .closed then
        tickPending ((n.setBlock b { c with orphan := true }).setEndpoint slot (publish
          { e with pending := Function.update e.pending j { e.pending j with block := none } })) slot mask js
      else tickPending (n.setBlock b c) slot (if ready c then mask ||| (1 <<< UInt64.ofNat j.val) else mask) js

def stateCode : State → UInt64
  | .closed => 0 | .listen => 1 | .synSent => 2 | .synRcvd => 3 | .established => 4 | .finWait1 => 5
  | .finWait2 => 6 | .closeWait => 7 | .closing => 8 | .lastAck => 9 | .timeWait => 10

/-- The sample of a connection that pollers wait on. -/
def observe (c : Conn) (error : Int) (mask : UInt64) : UInt64 :=
  let rx := UInt64.ofNat c.rcv.rxCount
  ((rx &&& (0xffff : UInt64)) ^^^ (rx >>> 16)) ||| (UInt64.ofNat c.snd.txCount <<< 16) ||| (stateCode c.state <<< 32) |||
    ((UInt64.ofNat (-c.error).toNat &&& (0xff : UInt64)) <<< 40) ||| ((if c.rcv.eof then (1 : UInt64) else 0) <<< 48) |||
    ((if c.snd.wantFin then (1 : UInt64) else 0) <<< 49) ||| ((UInt64.ofNat (-error).toNat &&& (0xff : UInt64)) <<< 50) |||
    (mask <<< 58)

def tickLive (b : Nat) (online : Bool) : Net :=
  let r := tickPending n slot 0 (queue (n.endpoints slot))
  let c := tcpConnTick (r.1.pool.blocks b) r.1.clockMs
  let n := r.1.setBlock b c
  let e := n.endpoints slot
  -- carrier loss is latched
  let e := if !online && e.error == 0 then { e with error := SYSCALL_EIO } else e
  let observed := observe c e.error r.2
  n.setEndpoint slot (if observed != e.observed then publish { e with observed } else e)

/-- One endpoint is let go, or ticked. -/
def turn (online : Bool) : Net :=
  let e := n.endpoints slot
  if e.detach || e.cancel then tickDetach n slot
  else
    match connection n.pool e with
    | some b => if e.started then tickLive n slot b online else n
    | none => n

/-- One endpoint's turn; `ticks` is the timer, `backwards` that it went back. -/
def tickSlot (online backwards : Bool) (ticks : UInt64) : Net :=
  let n := { n with
    deadlineClockFailed := n.deadlineClockFailed || (backwards && (n.endpoints slot).wakeDeadlineSet) }
  let n := turn n slot online
  let e := n.endpoints slot
  let e :=
    if e.wakeDeadlineSet && (n.deadlineClockFailed || decide (ticks ≥ e.wakeDeadlineTicks)) then
      publish { e with wakeDeadlineSet := false }
    else e
  n.setEndpoint slot { e with wake := false }

/-- One block's turn: its timers, and one segment if the link is up. -/
def sweepBlock (b : Nat) (online sent : Bool) : Net :=
  if !n.pool.used b || (n.pool.blocks b).tuple.remoteIp == 0 then n
  else
    let c := tcpConnTick (n.pool.blocks b) n.clockMs
    let c := if c.orphan && c.rcv.rxCount != 0 then (tcpConnConsume c c.rcv.rxCount).2 else c
    let c :=
      if !online then c
      else
        let r := tcpConnPrepare c (some TCP_MSS_MAX.toNat)
        match r.2.1 with
        | none => r.2.2
        | some a => (tcpConnCommit r.2.2 a.1 sent).2
    n.setBlock b c

def tickEnd : Net :=
  { n with pool := tcpPoolTick n.pool n.clockMs, twPending := false, cursor := (n.cursor + 1) % NET_SOCKET_MAX }

/-! ## Calls -/

/-- The lock sections of the layer. -/
inductive Call where
  | create (slot : SlotId)
  | stage (slot : SlotId)
  | unstage (slot : SlotId)
  | bind (slot : SlotId) (port : UInt16)
  | listen (slot : SlotId) (backlog : Nat)
  | connect (slot : SlotId) (ip : UInt32) (port : UInt16) (routed expired : Bool) (isn : UInt32) (now : UInt64)
  | cancelConnect (slot : SlotId) (generation : UInt64)
  | acceptOffer (slot : SlotId) (excluded : Nat)
  | acceptCommit (listener target : SlotId) (child : Child)
  | close (slot : SlotId)
  | send (slot : SlotId) (data : List UInt8)
  | consume (slot : SlotId) (len : Nat)
  | shutdown (slot : SlotId)
  | input (s : Inbound)
  | tickBegin (now fresh : UInt64)
  | tickSlot (slot : SlotId) (online backwards : Bool) (ticks : UInt64)
  | sweepBlock (b : Nat) (online sent : Bool)
  | tickEnd

def Net.step : Call → Net
  | .create slot => (netTcpCreate n slot).2
  | .stage slot => (netTcpStage n slot).2
  | .unstage slot => netTcpUnstage n slot
  | .bind slot port => (netTcpBind n slot port).2
  | .listen slot backlog => (netTcpListen n slot backlog).2
  | .connect slot ip port routed expired isn now => (connectStart n slot ip port routed expired isn now).2
  | .cancelConnect slot generation => netTcpCancelConnect n slot generation
  | .acceptOffer _ _ => n
  | .acceptCommit listener target child => (netTcpAcceptCommit n listener target child).2
  | .close slot => netTcpClose n slot
  | .send slot data => (netTcpSend n slot data).2
  | .consume slot len => (netTcpConsume n slot len).2
  | .shutdown slot => (netTcpShutdown n slot).2
  | .input s => netTcpInput n s
  | .tickBegin now fresh => Tcp.tickBegin n now fresh
  | .tickSlot slot online backwards ticks => Tcp.tickSlot n slot online backwards ticks
  | .sweepBlock b online sent => Tcp.sweepBlock n b online sent
  | .tickEnd => Tcp.tickEnd n

/-- `net_tcp_tick`: the sections of one pass, from the cursor round. -/
def netTcpTick (now ticks : UInt64) (online : Bool) (sent : Nat → Bool) : List Call :=
  .tickBegin now ticks ::
    ((List.range NET_SOCKET_MAX).map fun k =>
      .tickSlot (Fin.ofNat NET_SOCKET_MAX (n.cursor + k)) online (decide (ticks < n.deadlineClockLast)) ticks) ++
    ((List.range TCP_CB_MAX).map fun k =>
      let b := (n.cursor + k) % TCP_CB_MAX
      .sweepBlock b online (sent b)) ++
    [.tickEnd]

/-! ## The worker -/

/-- The layer, the timer in milliseconds, and what is left of the tick that is running. -/
structure Worker where
  net : Net
  nowMs : UInt64
  todo : List Call := []

/-- The call with the clock as it is read in it, unless the call is a section of a tick. -/
def Call.stamped (now : UInt64) : Call → Option Call
  | .connect slot ip port routed expired isn _ => some (.connect slot ip port routed expired isn now)
  | .input s => some (.input { s with now })
  | .tickBegin _ _ | .tickSlot _ _ _ _ | .sweepBlock _ _ _ | .tickEnd => none
  | c => some c

/-- What can happen next. The timer goes forward and handles are closed at any time; the worker runs one call
after the other, a tick section by section. -/
inductive Event where
  | timer (ms : UInt64)
  | close (slot : SlotId)
  | request (c : Call)
  | tick (ticks : UInt64) (online : Bool) (sent : Nat → Bool)
  | resume

def Worker.step (w : Worker) : Event → Worker
  | .timer ms => if w.nowMs ≤ ms then { w with nowMs := ms } else w
  | .close slot => { w with net := w.net.step (.close slot) }
  | .request c =>
    match w.todo, c.stamped w.nowMs with
    | [], some c => { w with net := w.net.step c }
    | _, _ => w
  | .tick ticks online sent =>
    match w.todo, netTcpTick w.net w.nowMs ticks online sent with
    | [], c :: cs => { w with net := w.net.step c, todo := cs }
    | _, _ => w
  | .resume =>
    match w.todo with
    | [] => w
    | c :: cs => { w with net := w.net.step c, todo := cs }

def Worker.run (w : Worker) (events : List Event) : Worker := events.foldl Worker.step w

/-- The worker after `net_tcp_init`. -/
def Worker.start (mtu : UInt16) (localIp : UInt32) (nowMs ticks : UInt64) : Worker :=
  { net := netTcpInit mtu localIp nowMs ticks, nowMs }

end Fortress.Tcp
