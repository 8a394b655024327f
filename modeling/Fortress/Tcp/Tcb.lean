/-
The TCP engine of `net/tcp_tcb.c`: one control block, its handlers, and the
pool that owns the blocks.

The block has the source's fields, grouped by what reads them: the send and
receive sides, the deadlines, the flow control, the pending output. Sequence
numbers, clocks and congestion state keep their machine width; ring heads,
counts and record lengths are naturals, since the code keeps each far below
its width. The retransmission records are the list of the live ones
(`retx_count` is its length), and a buffer is a function from its index,
always taken modulo the buffer size.
-/
import Fortress.Lib.Bitmap
import Fortress.Lib.Ring

namespace Fortress.Tcp

/-! ## Constants -/

abbrev TCP_CB_MAX : Nat := 8
abbrev TCP_TIMEWAIT_MAX : Nat := 16
abbrev TCP_TXBUF_MAX : Nat := 8192
abbrev TCP_RXBUF_MAX : Nat := 65536
abbrev TCP_WINDOW_MAX : Nat := 65535
abbrev TCP_RETX_MAX : Nat := 32
abbrev TCP_MSS_MAX : UInt32 := 1460
abbrev TCP_TIMEWAIT_MS : UInt32 := 240000
abbrev TCP_HANDSHAKE_MS : UInt32 := 30000
abbrev TCP_ORPHAN_MS : UInt32 := 120000
abbrev TCP_FINWAIT2_MS : UInt32 := 60000
abbrev TCP_IPV4_SEGMENT_MAX : Nat := 65515

abbrev TCP_FIN : UInt8 := 0x01
abbrev TCP_SYN : UInt8 := 0x02
abbrev TCP_RST : UInt8 := 0x04
abbrev TCP_PSH : UInt8 := 0x08
abbrev TCP_ACK : UInt8 := 0x10
abbrev TCP_URG : UInt8 := 0x20

abbrev TCP_WOULD_BLOCK : Int := -1
abbrev TCP_INVALID : Int := -2
abbrev TCP_RESET : Int := -3
abbrev TCP_TIMEOUT : Int := -4
abbrev TCP_NOT_CONNECTED : Int := -5
abbrev TCP_WRITE_CLOSED : Int := -6
abbrev TCP_NO_SPACE : Int := -7

/-! ## The control block -/

inductive State where
  | closed | listen | synSent | synRcvd | established
  | finWait1 | finWait2 | closeWait | closing
  | lastAck | timeWait
deriving DecidableEq, Repr

structure Tuple where
  localIp : UInt32 := 0
  remoteIp : UInt32 := 0
  localPort : UInt16 := 0
  remotePort : UInt16 := 0
deriving DecidableEq, Repr

structure Header where
  source : UInt16 := 0
  destination : UInt16 := 0
  sequence : UInt32 := 0
  acknowledgment : UInt32 := 0
  window : UInt16 := 0
  urgent : UInt16 := 0
  flags : UInt8 := 0
  headerLength : UInt8 := 0
  hasMss : Bool := false
  hasWscale : Bool := false
  mss : UInt16 := 0
  wscale : UInt8 := 0
deriving DecidableEq, Repr

/-- `flags & mask` is nonzero. -/
def has (flags mask : UInt8) : Bool := flags &&& mask != 0

/-- A sent segment awaiting its acknowledgement; `length` counts sequence
numbers, SYN and FIN taking one each. -/
structure Retx where
  sentMs : UInt64
  sequence : UInt32
  length : Nat
  flags : UInt8
  retransmitted : Bool := false
deriving DecidableEq, Repr

inductive ActionKind where
  | ack | new | retx | probe | reset
deriving DecidableEq, Repr

structure Action where
  generation : UInt64 := 0
  revision : UInt64 := 0
  header : Header := {}
  dataLen : Nat := 0
  kind : ActionKind := .ack
  timeout : Bool := false
deriving DecidableEq, Repr

/-- The send side: sequence numbers, the transmit ring and the records of
what is in flight. -/
structure SendSide where
  iss : UInt32 := 0
  sndUna : UInt32 := 0
  sndNxt : UInt32 := 0
  txSequence : UInt32 := 0
  finSequence : UInt32 := 0
  localMss : UInt16 := 0
  peerMss : UInt16 := 0
  mss : UInt16 := 0
  txHead : Nat := 0
  txCount : Nat := 0
  tx : Nat → UInt8 := fun _ => 0
  retx : List Retx := []
  synSent : Bool := false
  wantFin : Bool := false
  finSent : Bool := false
  finAcked : Bool := false

/-- The receive side: sequence numbers, the receive ring and its occupancy. -/
structure RecvSide where
  irs : UInt32 := 0
  rcvNxt : UInt32 := 0
  rxSequence : UInt32 := 0
  remoteFinSequence : UInt32 := 0
  rxHead : Nat := 0
  rxCount : Nat := 0
  rx : Nat → UInt8 := fun _ => 0
  rxValid : Nat → UInt8 := fun _ => 0
  remoteFinPending : Bool := false
  eof : Bool := false

/-- The deadlines; zero is none. -/
structure Timers where
  rto : UInt64 := 0
  persist : UInt64 := 0
  handshake : UInt64 := 0
  user : UInt64 := 0
  finwait2 : UInt64 := 0
  timewait : UInt64 := 0
deriving DecidableEq, Repr

/-- The peer's window, congestion control and the round-trip estimate. -/
structure Flow where
  sndWnd : UInt32 := 0
  sndWl1 : UInt32 := 0
  sndWl2 : UInt32 := 0
  cwnd : UInt32 := 0
  ssthresh : UInt32 := 0
  caAcked : UInt32 := 0
  srttMs : UInt32 := 0
  rttvarMs : UInt32 := 0
  rtoMs : UInt32 := 0
  retries : Nat := 0
  dupacks : Nat := 0
  persistBackoff : Nat := 0
  fastRecovery : Bool := false
  haveRtt : Bool := false
  retransmitPending : Bool := false
  retransmitTimeout : Bool := false
deriving DecidableEq, Repr

/-- What waits to be sent, and the one action prepared from it. -/
structure Output where
  ackPending : Bool := false
  resetPending : Bool := false
  resetHeader : Header := {}
  actionPending : Bool := false
  action : Action := {}
deriving DecidableEq, Repr

/-- `tcp_conn_t`. Every field's default is the zero `memset` leaves. -/
structure Conn where
  tuple : Tuple := {}
  generation : UInt64 := 0
  revision : UInt64 := 0
  nowMs : UInt64 := 0
  state : State := .closed
  error : Int := 0
  synAck : Bool := false
  orphan : Bool := false
  snd : SendSide := {}
  rcv : RecvSide := {}
  timers : Timers := {}
  flow : Flow := {}
  out : Output := {}

/-! ## Clocks, sequence numbers and the segments the block builds -/

def min32 (a b : UInt32) : UInt32 := if a < b then a else b

def deadline (now : UInt64) (delay : UInt32) : UInt64 :=
  if now > 0xffffffffffffffff - delay.toUInt64 then 0xffffffffffffffff else now + delay.toUInt64

def tcpSeqBefore (a b : UInt32) : Bool := a - b > 0x80000000

/-- The signed distance from `b` to `a`. -/
def offset (a b : UInt32) : Int :=
  let d := a - b
  if d ≤ 0x7fffffff then (d.toNat : Int) else -((b - a).toNat : Int)

variable (c : Conn) (h : Header)

def changed : Conn := { c with revision := c.revision + 1, out.actionPending := false }

variable (r : RecvSide)

def window : UInt16 :=
  let free := TCP_RXBUF_MAX - r.rxCount
  let free := if free > TCP_WINDOW_MAX then TCP_WINDOW_MAX else free
  if r.eof then 0 else UInt16.ofNat free

def header : Header :=
  { source := c.tuple.localPort, destination := c.tuple.remotePort,
    sequence := c.snd.sndNxt, acknowledgment := c.rcv.rcvNxt, flags := TCP_ACK, window := window c.rcv }

/-- What SYN and FIN add to a segment's length. -/
def flagSpace (flags : UInt8) : UInt32 :=
  (if has flags TCP_SYN then 1 else 0) + (if has flags TCP_FIN then 1 else 0)

/-- The reset that answers a segment. -/
def resetFor (len : Nat) : Header :=
  { header c with
    window := 0
    flags := if has h.flags TCP_ACK then TCP_RST else TCP_RST ||| TCP_ACK
    sequence := if has h.flags TCP_ACK then h.acknowledgment else 0
    acknowledgment := if has h.flags TCP_ACK then 0
      else h.sequence + UInt32.ofNat len + flagSpace h.flags }

def resetReply (len : Nat) : Conn :=
  { c with
    out := { c.out with resetHeader := resetFor c h len, resetPending := true }
    timers.user :=
      if c.state == .closed && c.timers.user == 0 then deadline c.nowMs 1000 else c.timers.user }

def fail (error : Int) (reset : Bool) : Conn :=
  { c with
    out := { c.out with
      resetHeader := if reset then { header c with flags := TCP_RST ||| TCP_ACK } else c.out.resetHeader
      resetPending := reset, ackPending := false }
    state := .closed, error
    snd := { c.snd with retx := [], txCount := 0 }
    timers := { c.timers with
      rto := 0, persist := 0, handshake := 0, finwait2 := 0
      -- A best-effort reset must not pin an orphan: it is given one second.
      user := if reset then deadline c.nowMs 1000 else 0 }
    flow.retransmitPending := false }

def timewait (c : Conn) : Conn :=
  { c with
    state := .timeWait
    timers := { c.timers with
      timewait := deadline c.nowMs TCP_TIMEWAIT_MS, rto := 0, persist := 0, finwait2 := 0, user := 0 } }

/-- `tcp_conn_init`; `none` is `TCP_INVALID`, which leaves the block alone. -/
def tcpConnInit (tuple : Tuple) (generation : UInt64) (isn : UInt32) (mtu : UInt16)
    (active : Bool) (now : UInt64) : Option Conn :=
  if generation == 0 || tuple.localPort == 0 || tuple.remotePort == 0 || mtu < 44 then none
  else
    let localMss := (min32 (mtu.toUInt32 - 40) TCP_MSS_MAX).toUInt16
    let mss := (min32 localMss.toUInt32 536).toUInt16
    some {
      tuple, generation, revision := 1, nowMs := now
      snd := {
        iss := isn, sndUna := isn, sndNxt := isn, txSequence := isn + 1
        localMss, peerMss := 536, mss }
      flow := { cwnd := mss.toUInt32, ssthresh := UInt32.ofNat TCP_TXBUF_MAX, rtoMs := 1000 }
      state := if active then .synSent else .listen
      timers := { handshake := if active then deadline now TCP_HANDSHAKE_MS else 0 } }

def receiveSyn : Conn :=
  let peerMss := if h.hasMss then h.mss else 536
  let mss := (min32 c.snd.localMss.toUInt32 peerMss.toUInt32).toUInt16
  { c with
    rcv := { c.rcv with irs := h.sequence, rcvNxt := h.sequence + 1, rxSequence := h.sequence + 1 }
    snd := { c.snd with peerMss, mss }
    flow := { c.flow with
      sndWnd := h.window.toUInt32, sndWl1 := h.sequence, sndWl2 := h.acknowledgment
      cwnd := mss.toUInt32 } }

/-! ## Acknowledgements -/

def rtt (f : Flow) (elapsed : UInt64) : Flow :=
  let sample : UInt32 := if elapsed > 60000 then 60000 else elapsed.toUInt32
  let sample := if sample == 0 then 1 else sample
  let f :=
    if !f.haveRtt then { f with srttMs := sample, rttvarMs := sample / 2, haveRtt := true }
    else
      let diff := if sample > f.srttMs then sample - f.srttMs else f.srttMs - sample
      { f with rttvarMs := (3 * f.rttvarMs + diff) / 4, srttMs := (7 * f.srttMs + sample) / 8 }
  let variance := 4 * f.rttvarMs
  let rto := min32 60000 (f.srttMs + (if variance != 0 then variance else 1))
  { f with rtoMs := if rto < 1000 then 1000 else rto }

/-- What `ack_new`'s first loop learns from the records an ack reaches. -/
structure AckScan where
  ambiguous : Bool := false
  sample : Bool := false
  synRetry : Bool := false
  elapsed : UInt64 := 0

def ackScan (now : UInt64) (ack : UInt32) (retx : List Retx) : AckScan :=
  retx.foldl (fun s r =>
    if tcpSeqBefore r.sequence ack then
      let s := if r.retransmitted then { s with ambiguous := true } else s
      let s := if r.retransmitted && has r.flags TCP_SYN then { s with synRetry := true } else s
      if !s.sample && decide ((ack - r.sequence).toNat ≥ r.length) then
        { s with elapsed := now - r.sentMs, sample := true }
      else s
    else s) {}

/-- `ack_new`'s second loop: drop the records the ack covers and cut the one
it ends in. -/
def trimRetx (ack : UInt32) : List Retx → List Retx
  | [] => []
  | r :: rs =>
    let n := ack - r.sequence
    if tcpSeqBefore ack r.sequence || n == 0 then r :: rs
    else if n.toNat < r.length then
      { r with sequence := r.sequence + n, length := r.length - n.toNat } :: rs
    else trimRetx ack rs

variable (s : SendSide)

/-- How many buffered bytes an ack covers. -/
def ackedBytes (ack : UInt32) : Nat :=
  if !tcpSeqBefore ack s.txSequence then min (ack - s.txSequence).toNat s.txCount else 0

/-- `ack_new` on the transmit ring and the records. -/
def ackSend (ack : UInt32) : SendSide :=
  let bytes := ackedBytes s ack
  { s with
    txHead := (s.txHead + bytes) % TCP_TXBUF_MAX, txCount := s.txCount - bytes
    txSequence := s.txSequence + UInt32.ofNat bytes, retx := trimRetx ack s.retx
    sndUna := ack, finAcked := s.finAcked || (s.finSent && ack == s.finSequence + 1) }

/-- `ack_new` on the congestion window. -/
def ackCwnd (f : Flow) (mss : UInt32) (bytes : Nat) : Flow :=
  if bytes == 0 then f
  else
    let f :=
      if f.fastRecovery then { f with cwnd := f.ssthresh, fastRecovery := false }
      else if f.cwnd < f.ssthresh then { f with cwnd := f.cwnd + min32 (UInt32.ofNat bytes) mss }
      else
        let f := { f with caAcked := f.caAcked + UInt32.ofNat bytes }
        if f.caAcked ≥ f.cwnd then { f with caAcked := f.caAcked - f.cwnd, cwnd := f.cwnd + mss } else f
    { f with cwnd := min32 f.cwnd (UInt32.ofNat TCP_TXBUF_MAX) }

/-- `ack_new` on the retry counters and the round-trip estimate. -/
def ackRtt (f : Flow) (s : AckScan) : Flow :=
  let f := { f with retries := 0, dupacks := 0, retransmitPending := false, retransmitTimeout := false }
  let f := if s.sample && !s.ambiguous then rtt f s.elapsed else f
  if s.synRetry && decide (f.rtoMs < 3000) then { f with rtoMs := 3000 } else f

/-- `ack_new` where the ack is of our FIN. -/
def ackFin : Conn :=
  match c.state with
  | .finWait1 =>
    { c with
      state := .finWait2
      timers.finwait2 :=
        if c.orphan then deadline c.nowMs TCP_FINWAIT2_MS else c.timers.finwait2 }
  | .closing => timewait c
  | .lastAck => { c with state := .closed }
  | _ => c

def ackNew (ack : UInt32) : Conn :=
  let flow := ackRtt c.flow (ackScan c.nowMs ack c.snd.retx)
  let snd := ackSend c.snd ack
  let c' := { c with
    snd
    flow := ackCwnd flow c.snd.mss.toUInt32 (ackedBytes c.snd ack)
    timers.rto := if snd.retx.isEmpty then 0 else deadline c.nowMs flow.rtoMs }
  if c.snd.finSent && ack == c.snd.finSequence + 1 then ackFin c' else c'

/-- `process_ack`'s window update, tested against the last update's numbers. -/
def updateWindow : Conn :=
  if tcpSeqBefore c.flow.sndWl1 h.sequence ||
      (c.flow.sndWl1 == h.sequence && !tcpSeqBefore h.acknowledgment c.flow.sndWl2) then
    let flow := { c.flow with
      sndWnd := h.window.toUInt32, sndWl1 := h.sequence, sndWl2 := h.acknowledgment }
    if flow.sndWnd != 0 then
      { c with
        flow := { flow with persistBackoff := 0 }
        timers := { c.timers with
          persist := 0
          rto := if c.flow.sndWnd == 0 && !c.snd.retx.isEmpty then deadline c.nowMs flow.rtoMs
            else c.timers.rto } }
    else { c with flow }
  else c

/-- The flags of the oldest record. -/
def firstFlags : UInt8 := (s.retx.head?.map (·.flags)).getD 0

def duplicateAck (f : Flow) (s : SendSide) : Flow :=
  let f := if f.dupacks < 255 then { f with dupacks := f.dupacks + 1 } else f
  if f.dupacks == 3 && !f.fastRecovery && !has (firstFlags s) (TCP_SYN ||| TCP_FIN) then
    let half := (s.sndNxt - s.sndUna) / 2
    let twice := 2 * s.mss.toUInt32
    let ssthresh := if half > twice then half else twice
    { f with
      ssthresh, cwnd := min32 (ssthresh + 3 * s.mss.toUInt32) (UInt32.ofNat TCP_TXBUF_MAX)
      fastRecovery := true, retransmitPending := true, retransmitTimeout := false }
  else if f.dupacks > 3 && f.fastRecovery then
    { f with cwnd := min32 (f.cwnd + s.mss.toUInt32) (UInt32.ofNat TCP_TXBUF_MAX) }
  else f

variable (len : Nat)

def processAck : Conn :=
  let old := c.flow.sndWnd
  let c := updateWindow c h
  if tcpSeqBefore c.snd.sndUna h.acknowledgment then ackNew c h.acknowledgment
  else if h.acknowledgment == c.snd.sndUna && !c.snd.retx.isEmpty && len == 0 &&
      !has h.flags (TCP_SYN ||| TCP_FIN) && old == c.flow.sndWnd then
    { c with flow := duplicateAck c.flow c.snd }
  else c

/-! ## Receiving -/

/-- Byte `i` of the receive ring holds stream data. -/
def bit (i : Nat) : Bool := Bitmap.get r.rxValid i

def setbit (i : Nat) (value : Bool) : RecvSide :=
  { r with rxValid := Bitmap.set r.rxValid i value }

def receivedFin : Conn :=
  if !c.rcv.remoteFinPending || c.rcv.eof || c.rcv.rcvNxt != c.rcv.remoteFinSequence then c
  else
    let c := { c with
      rcv := { c.rcv with eof := true, rcvNxt := c.rcv.rcvNxt + 1 }
      out.ackPending := true }
    match c.state with
    | .established => { c with state := .closeWait }
    | .finWait1 => { c with state := .closing }
    | .finWait2 => timewait c
    | _ => c

/-- One byte of a segment, at ring distance `pos` from the read point. -/
def storeByte (pos : Nat) (b : UInt8) : RecvSide :=
  let index := (r.rxHead + pos) % TCP_RXBUF_MAX
  if bit r index then r else setbit { r with rx := Function.update r.rx index b } index true

/-- `receive_data`'s copy loop. -/
def storeBytes (r : RecvSide) (sequence : UInt32) (pos : Nat) : List UInt8 → RecvSide
  | [] => r
  | b :: bs =>
    if r.remoteFinPending && !tcpSeqBefore sequence r.remoteFinSequence then r
    else storeBytes (storeByte r pos b) (sequence + 1) (pos + 1) bs

/-- The part of a segment that falls inside the ring. -/
def storeData (h : Header) (data : List UInt8) : RecvSide :=
  let start := offset h.sequence r.rxSequence
  let skip := (-start).toNat
  if skip < data.length && decide (start + skip < TCP_RXBUF_MAX) then
    let pos := (start + skip).toNat
    let n := min (data.length - skip) (TCP_RXBUF_MAX - pos)
    storeBytes r (h.sequence + UInt32.ofNat skip) pos ((data.drop skip).take n)
  else r

def noteFin (h : Header) (len : Nat) : RecvSide :=
  if has h.flags TCP_FIN && !r.remoteFinPending then
    let fin := h.sequence + UInt32.ofNat len
    if fin - r.rcvNxt < (window r).toUInt32 then
      { r with remoteFinSequence := fin, remoteFinPending := true }
    else r
  else r

/-- `receive_data`'s loop over the bytes that became contiguous. Each turn
takes one ring slot, so a ring of fuel is enough. -/
def advanceLoop : Nat → RecvSide → RecvSide
  | 0, r => r
  | fuel + 1, r =>
    if decide (r.rxCount < TCP_RXBUF_MAX) &&
        (!r.remoteFinPending || r.rcvNxt != r.remoteFinSequence) &&
        bit r ((r.rxHead + r.rxCount) % TCP_RXBUF_MAX) then
      advanceLoop fuel { r with rxCount := r.rxCount + 1, rcvNxt := r.rcvNxt + 1 }
    else r

def advance : RecvSide := advanceLoop (TCP_RXBUF_MAX - r.rxCount) r

variable (data : List UInt8)

def receiveData : Conn :=
  if c.rcv.eof then c
  else
    let c := receivedFin { c with rcv := advance (noteFin (storeData c.rcv h data) h data.length) }
    if data.length != 0 || has h.flags TCP_FIN then { c with out.ackPending := true } else c

/-! ## Timers and input -/

/-- A deadline that is set and has come. -/
def due (d now : UInt64) : Bool := d != 0 && decide (now ≥ d)

/-- The three deadlines that end a live connection. -/
def expired (t : Timers) (now : UInt64) : Bool := due t.handshake now || due t.user now || due t.finwait2 now

def persists : Bool :=
  c.flow.sndWnd == 0 && c.state != .synSent && c.state != .synRcvd &&
    (c.snd.txCount != 0 || (c.snd.wantFin && !c.snd.finAcked))

/-- The send timers of a live connection. -/
def tickSend : Conn :=
  let persist := persists c
  let c := { c with
    timers.persist :=
      if !persist then 0
      else if c.timers.persist == 0 then deadline c.nowMs c.flow.rtoMs
      else c.timers.persist }
  if !persist && !c.snd.retx.isEmpty && due c.timers.rto c.nowMs then
    if c.flow.retries ≥ 8 then fail c TCP_TIMEOUT true
    else { c with flow := { c.flow with retransmitPending := true, retransmitTimeout := true } }
  else c

variable (now : UInt64)

def tcpConnTick : Conn :=
  if now < c.nowMs then c
  else
    let c := { changed c with nowMs := now }
    if c.state == .closed then
      if c.out.resetPending && due c.timers.user now then { c with out.resetPending := false } else c
    else if c.state == .timeWait then
      if now ≥ c.timers.timewait then { c with state := .closed, out.ackPending := false } else c
    else if expired c.timers now then fail c TCP_TIMEOUT true
    else tickSend c

def inputTimeWait : Conn :=
  if !has h.flags TCP_RST && (len != 0 || has h.flags (TCP_SYN ||| TCP_FIN)) then
    { c with
      out.ackPending := true
      timers.timewait :=
        if has h.flags TCP_FIN && h.sequence + UInt32.ofNat len == c.rcv.rcvNxt - 1 then
          deadline now TCP_TIMEWAIT_MS
        else c.timers.timewait }
  else c

def inputListen : Conn :=
  if has h.flags TCP_RST then c
  else if has h.flags TCP_ACK then resetReply c h len
  else if has h.flags TCP_SYN && len == 0 && !has h.flags TCP_FIN then
    { receiveSyn c h with
      state := .synRcvd, synAck := true
      timers := { c.timers with handshake := deadline now TCP_HANDSHAKE_MS } }
  else c

/-- The handshake's end: the peer's ack of our SYN. -/
def establish (ack : UInt32) : Conn :=
  let c := ackNew c ack
  { c with state := .established, timers.handshake := 0 }

/-- A simultaneous open: the SYN already sent goes out again as SYN-ACK. -/
def simultaneousOpen : Conn :=
  let c := { c with state := .synRcvd, synAck := true }
  if c.snd.synSent then
    { c with
      snd.retx := c.snd.retx.modifyHead fun r => { r with flags := TCP_SYN ||| TCP_ACK }
      flow := { c.flow with retransmitPending := true, retransmitTimeout := false } }
  else c

/-- The segment acknowledges our SYN. -/
def acksSyn : Bool :=
  has h.flags TCP_ACK && c.snd.synSent && h.acknowledgment == c.snd.sndNxt

def inputSynSent : Conn :=
  if has h.flags TCP_RST then
    if acksSyn c h then fail c TCP_RESET false else c
  else if has h.flags TCP_ACK && !acksSyn c h then resetReply c h len
  else if !has h.flags TCP_SYN || has h.flags TCP_FIN || len != 0 then c
  else if acksSyn c h then
    let c := establish (receiveSyn c h) h.acknowledgment
    { c with out.ackPending := true }
  else simultaneousOpen (receiveSyn c h)

/-- `SYN_RCVD` and the peer's SYN again. -/
def isSynAgain : Bool :=
  c.state == .synRcvd && has h.flags TCP_SYN && h.sequence == c.rcv.irs &&
    !has h.flags (TCP_RST ||| TCP_FIN) && len == 0

def inputSynAgain : Conn :=
  if acksSyn c h then
    let c := establish c h.acknowledgment
    { c with out.ackPending := true }
  else if !has h.flags TCP_ACK && c.snd.synSent then
    { c with flow := { c.flow with retransmitPending := true, retransmitTimeout := false } }
  else c

/-- The peer's FIN again, after it was taken. -/
def isFinAgain : Bool :=
  c.rcv.eof && has h.flags TCP_FIN && !has h.flags (TCP_RST ||| TCP_SYN) &&
    h.sequence + UInt32.ofNat len == c.rcv.rcvNxt - 1

def inputFinAgain : Conn :=
  let c :=
    if has h.flags TCP_ACK &&
        decide (h.acknowledgment - c.snd.sndUna ≤ c.snd.sndNxt - c.snd.sndUna) then
      processAck c h len
    else c
  { c with out.ackPending := true }

def acceptable (h : Header) (len : Nat) : Bool :=
  let space := UInt32.ofNat len + flagSpace h.flags
  let wnd := (window r).toUInt32
  let off := h.sequence - r.rcvNxt
  if space != 0 then
    wnd != 0 && (decide (off < wnd) || decide (h.sequence + space - 1 - r.rcvNxt < wnd))
  else if wnd != 0 then decide (off < wnd)
  else off == 0

/-- The ack of an acceptable segment. -/
def inputAck : Conn :=
  if c.state == .synRcvd then processAck (establish c h.acknowledgment) h len
  else if !tcpSeqBefore h.acknowledgment c.snd.sndUna then processAck c h len
  else c

/-- An acceptable segment whose ack is in range: its ack, then its bytes. -/
def acceptSegment : Conn :=
  let c := inputAck c h data.length
  if c.state != .closed then receiveData c h data else c

def inputSegment : Conn :=
  let len := data.length
  if !acceptable c.rcv h len then
    if !has h.flags TCP_RST then { c with out.ackPending := true } else c
  else if has h.flags TCP_RST then
    if h.sequence == c.rcv.rcvNxt then fail c TCP_RESET false else { c with out.ackPending := true }
  else if has h.flags TCP_SYN then { c with out.ackPending := true }
  else if !has h.flags TCP_ACK || has h.flags TCP_URG then c
  else if c.state == .synRcvd && (!c.snd.synSent || h.acknowledgment != c.snd.sndNxt) then resetReply c h len
  else if tcpSeqBefore c.snd.sndNxt h.acknowledgment ||
      h.acknowledgment - c.snd.sndUna == 0x80000000 then
    { c with out.ackPending := true }
  else acceptSegment c h data

/-- The segments `tcp_conn_input` looks at. -/
def admits : Bool :=
  decide (len ≤ TCP_IPV4_SEGMENT_MAX) && h.source == c.tuple.remotePort &&
    h.destination == c.tuple.localPort && !(h.hasMss && h.mss == 0) && decide (c.nowMs ≤ now)

/-- `tcp_conn_input` after its guard and its tick. -/
def inputState : Conn :=
  match c.state with
  | .closed => if !has h.flags TCP_RST then resetReply c h data.length else c
  | .timeWait => inputTimeWait c h data.length now
  | .listen => inputListen c h data.length now
  | .synSent => inputSynSent c h data.length
  | _ =>
    if isSynAgain c h data.length then inputSynAgain c h
    else if isFinAgain c h data.length then inputFinAgain c h data.length
    else inputSegment c h data

def tcpConnInput : Conn :=
  if admits c h data.length now then inputState (tcpConnTick c now) h data now else c

/-! ## The socket side -/

def tcpConnQueue : Int × Conn :=
  if c.error != 0 then (c.error, c)
  else if c.snd.wantFin then (TCP_WRITE_CLOSED, c)
  else if c.state != .established && c.state != .closeWait then (TCP_NOT_CONNECTED, c)
  else if data.length == 0 then (0, c)
  else
    let n := min (TCP_TXBUF_MAX - c.snd.txCount) data.length
    if n == 0 then (TCP_WOULD_BLOCK, c)
    else
      (n, { changed c with
        snd := { c.snd with
          tx := Ring.write TCP_TXBUF_MAX c.snd.tx (c.snd.txHead + c.snd.txCount) (data.take n)
          txCount := c.snd.txCount + n } })

/-- `tcp_conn_peek`: the result and the bytes copied out. -/
def tcpConnPeek (capacity : Nat) : Int × List UInt8 :=
  if capacity == 0 then (0, [])
  else
    let n := min c.rcv.rxCount capacity
    if n == 0 then (if c.error != 0 then c.error else if c.rcv.eof then 0 else TCP_WOULD_BLOCK, [])
    else (n, Ring.read TCP_RXBUF_MAX c.rcv.rx c.rcv.rxHead n)

/-- `tcp_conn_consume`'s loop: the first `n` ring slots are free again. -/
def clearBits (r : RecvSide) : Nat → RecvSide
  | 0 => r
  | n + 1 => setbit (clearBits r n) ((r.rxHead + n) % TCP_RXBUF_MAX) false

def tcpConnConsume : Int × Conn :=
  if len > c.rcv.rxCount then (TCP_INVALID, c)
  else if len == 0 then (0, c)
  else
    let r := clearBits c.rcv len
    let c := { changed c with
      rcv := { r with
        rxHead := (r.rxHead + len) % TCP_RXBUF_MAX, rxCount := r.rxCount - len
        rxSequence := r.rxSequence + UInt32.ofNat len } }
    (0, if !c.rcv.eof && c.state != .closed then { c with out.ackPending := true } else c)

def tcpConnShutdown : Int × Conn :=
  if c.snd.wantFin then (0, c)
  else if c.state != .established && c.state != .closeWait then (TCP_NOT_CONNECTED, c)
  else (0, { changed c with snd.wantFin := true })

def detachState : Conn :=
  match c.state with
  | .listen => { c with state := .closed }
  | .synSent | .synRcvd => fail c TCP_RESET c.snd.synSent
  | .closed | .timeWait => c
  | .established | .closeWait =>
    { c with snd.wantFin := true, timers.user := deadline now TCP_ORPHAN_MS }
  | .finWait2 =>
    { c with timers := { c.timers with
        user := deadline now TCP_ORPHAN_MS, finwait2 := deadline now TCP_FINWAIT2_MS } }
  | _ => { c with timers.user := deadline now TCP_ORPHAN_MS }

def tcpConnDetach : Conn :=
  if now < c.nowMs then c else detachState { tcpConnTick c now with orphan := true } now

/-! ## Output -/

def copyTx (seq : UInt32) (n : Nat) : List UInt8 :=
  let off := (seq - s.txSequence).toNat
  Ring.read TCP_TXBUF_MAX s.tx (s.txHead + off) n

/-- The action every choice of `tcp_conn_prepare` starts from. -/
def ackAction : Action :=
  { generation := c.generation, revision := c.revision, header := header c, kind := .ack }

def synAction : Action :=
  { ackAction c with
    kind := .new
    header := { header c with
      sequence := c.snd.iss, flags := TCP_SYN ||| (if c.synAck then TCP_ACK else 0)
      hasMss := true, mss := c.snd.localMss } }

def retxAction (r : Retx) : Action :=
  { ackAction c with
    kind := .retx, timeout := c.flow.retransmitTimeout
    header := { header c with
      sequence := r.sequence, flags := r.flags
      hasMss := has r.flags TCP_SYN, mss := if has r.flags TCP_SYN then c.snd.localMss else 0 }
    dataLen := if has r.flags (TCP_SYN ||| TCP_FIN) then 0 else r.length }

def probeAction : Action :=
  { ackAction c with
    kind := .probe
    header := { header c with sequence := if c.snd.txCount != 0 then c.snd.sndUna else c.snd.sndUna - 1 }
    dataLen := if c.snd.txCount != 0 then 1 else 0 }

def dataAction (n : Nat) : Action :=
  { ackAction c with kind := .new, dataLen := n, header := { header c with flags := TCP_ACK ||| TCP_PSH } }

def finAction : Action :=
  { ackAction c with kind := .new, header := { header c with flags := TCP_FIN ||| TCP_ACK } }

/-- How much the peer's window and `cwnd` let be in flight. -/
def sendLimit (f : Flow) : UInt32 := min32 f.sndWnd f.cwnd

/-- New data or the FIN, when the window, `cwnd` and the record table allow. -/
def newAction : Option Action :=
  if c.state != .established && c.state != .closeWait then none
  else
    let flight := c.snd.sndNxt - c.snd.sndUna
    let limit := sendLimit c.flow
    if limit ≤ flight || c.snd.retx.length == TCP_RETX_MAX then none
    else
      let sent := c.snd.sndNxt - c.snd.txSequence
      if sent.toNat < c.snd.txCount then
        let n := min32 (UInt32.ofNat c.snd.txCount - sent) (min32 c.snd.mss.toUInt32 (limit - flight))
        some (dataAction c n.toUInt16.toNat)
      else if c.snd.wantFin && !c.snd.finSent && flight == 0 && c.snd.txCount == 0 then some (finAction c)
      else none

/-- What `tcp_conn_prepare` decides to send; `none` is `TCP_WOULD_BLOCK`. -/
def nextAction : Option Action :=
  if c.out.resetPending then some { ackAction c with kind := .reset, header := c.out.resetHeader }
  else if c.state == .closed || c.state == .listen then none
  else if (c.state == .synSent || c.state == .synRcvd) && !c.snd.synSent then some (synAction c)
  else
    match c.flow.retransmitPending, c.snd.retx with
    | true, r :: _ => some (retxAction c r)
    | _, _ =>
      -- An ACK or window update takes precedence over new bytes.
      if c.out.ackPending then some (ackAction c)
      else if due c.timers.persist c.nowMs then some (probeAction c)
      else newAction c

/-- `tcp_conn_prepare` into a scratch buffer (`none` is a null one): the
result, the action with the bytes copied, and the block. -/
def tcpConnPrepare (scratch : Option Nat) : Int × Option (Action × List UInt8) × Conn :=
  if c.out.actionPending then (TCP_INVALID, none, c)
  else
    match nextAction c with
    | none => (TCP_WOULD_BLOCK, none, c)
    | some a =>
      if a.dataLen != 0 && scratch.all (· < a.dataLen) then (TCP_NO_SPACE, none, c)
      else
        (0, some (a, copyTx c.snd a.header.sequence a.dataLen),
          { c with out := { c.out with action := a, actionPending := true } })

def sameAction (a b : Action) : Bool :=
  let x := a.header
  let y := b.header
  a.kind == b.kind && a.timeout == b.timeout && a.dataLen == b.dataLen &&
    x.source == y.source && x.destination == y.destination && x.sequence == y.sequence &&
    x.acknowledgment == y.acknowledgment && x.window == y.window && x.urgent == y.urgent &&
    x.flags == y.flags && x.headerLength == y.headerLength && x.hasMss == y.hasMss &&
    x.hasWscale == y.hasWscale && x.mss == y.mss && x.wscale == y.wscale

/-- The oldest record has been sent again. -/
def markRetransmitted : SendSide :=
  { s with retx := s.retx.modifyHead fun r => { r with retransmitted := true } }

/-- A retransmission's charge to the congestion state. -/
def chargeRetx (f : Flow) (s : SendSide) (timeout : Bool) : Flow :=
  let f :=
    if timeout then
      let half := (s.sndNxt - s.sndUna) / 2
      { f with
        ssthresh := if half < 2 * s.mss.toUInt32 then 2 * s.mss.toUInt32 else half
        cwnd := s.mss.toUInt32, caAcked := 0, fastRecovery := false, dupacks := 0
        rtoMs := min32 60000 (f.rtoMs * 2), retries := f.retries + 1 }
    else f
  { f with retransmitPending := false, retransmitTimeout := false }

variable (a : Action)

def commitRetx : Conn :=
  let flow := chargeRetx c.flow c.snd a.timeout
  { c with snd := markRetransmitted c.snd, flow, timers.rto := deadline c.nowMs flow.rtoMs }

/-- The sequence numbers a sent action takes. -/
def Action.space : Nat := if has a.header.flags (TCP_SYN ||| TCP_FIN) then 1 else a.dataLen

/-- The record of a sent action. -/
def Action.record (now : UInt64) : Retx :=
  { sentMs := now, sequence := a.header.sequence, length := a.space, flags := a.header.flags }

/-- A sent segment becomes a record and moves `snd_nxt`. -/
def pushRetx (now : UInt64) : SendSide :=
  { s with
    retx := s.retx ++ [a.record now]
    sndNxt := s.sndNxt + UInt32.ofNat a.space
    synSent := s.synSent || has a.header.flags TCP_SYN
    finSent := s.finSent || has a.header.flags TCP_FIN
    finSequence := if has a.header.flags TCP_FIN then a.header.sequence else s.finSequence }

def commitNew : Conn :=
  { c with
    snd := pushRetx c.snd a c.nowMs
    timers.rto := if c.timers.rto == 0 then deadline c.nowMs c.flow.rtoMs else c.timers.rto
    state :=
      if has a.header.flags TCP_FIN then (if c.state == .closeWait then .lastAck else .finWait1)
      else c.state }

/-- The persist timer's doubling. -/
def backoff : Nat → UInt32 → UInt32
  | 0, interval => interval
  | n + 1, interval => if interval < 60000 then backoff n (min32 (interval * 2) 60000) else interval

def commitProbe : Conn :=
  let n := if c.flow.persistBackoff < 6 then c.flow.persistBackoff + 1 else c.flow.persistBackoff
  { c with
    -- Karn: an ack after a probe is ambiguous.
    snd := markRetransmitted c.snd
    flow.persistBackoff := n
    timers.persist := deadline c.nowMs (backoff n c.flow.rtoMs) }

def commitReset : Conn :=
  { c with
    out.resetPending := false
    timers.user := if c.state == .closed then 0 else c.timers.user }

/-- A segment with the ACK flag carries the pending ack. -/
def ackSent : Conn :=
  { c with out.ackPending := !has a.header.flags TCP_ACK && c.out.ackPending }

/-- `tcp_conn_commit` of a submitted action, past the checks. -/
def commitSubmitted : Bool × Conn :=
  if a.kind == .reset then (true, commitReset c)
  else
    let c := ackSent c a
    if a.kind == .retx then (true, commitRetx c a)
    else
      let newProbe := a.kind == .probe && a.dataLen != 0 && a.header.sequence == c.snd.sndNxt
      if (a.kind == .new || newProbe) && decide (c.snd.retx.length ≥ TCP_RETX_MAX) then (false, c)
      else
        let c := if a.kind == .new || newProbe then commitNew c a else c
        (true, if a.kind == .probe then commitProbe c else c)

def tcpConnCommit (submitted : Bool) : Bool × Conn :=
  if !c.out.actionPending || a.generation != c.generation || a.revision != c.revision ||
      !sameAction a c.out.action then (false, c)
  else
    let c := changed c
    if !submitted then (true, c) else commitSubmitted c a

/-! ## The pool -/

structure Timewait where
  tuple : Tuple := {}
  generation : UInt64 := 0
  expiresMs : UInt64 := 0
  sndNxt : UInt32 := 0
  rcvNxt : UInt32 := 0
  used : Bool := false
  active : Bool := false
deriving DecidableEq, Repr

/-- `tcp_pool_t`; the arrays are read and written below their bounds only. -/
structure Pool where
  blocks : Nat → Conn := fun _ => {}
  timewait : Nat → Timewait := fun _ => {}
  generation : UInt64 := 0
  used : Nat → Bool := fun _ => false
  twSlot : Nat → Nat := fun _ => 0

def tcpPoolInit : Pool := {}

/-- `tcp_pool_open`; the result is the block's index or an error. -/
def tcpPoolOpen (p : Pool) (tuple : Tuple) (isn : UInt32) (mtu : UInt16) (active : Bool)
    (now : UInt64) : Int × Pool :=
  if (List.range TCP_TIMEWAIT_MAX).any fun i => (p.timewait i).used && (p.timewait i).tuple == tuple then
    (TCP_NO_SPACE, p)
  else
    match (List.range TCP_CB_MAX).find? fun i => !p.used i,
        (List.range TCP_TIMEWAIT_MAX).find? fun i => !(p.timewait i).used with
    | some slot, some tw =>
      if p.generation == 0xffffffffffffffff then (TCP_NO_SPACE, p)
      else
        match tcpConnInit tuple (p.generation + 1) isn mtu active now with
        | none => (TCP_INVALID, p)
        | some c =>
          (slot, { p with
            blocks := Function.update p.blocks slot c
            generation := p.generation + 1
            used := Function.update p.used slot true
            twSlot := Function.update p.twSlot slot tw
            timewait := Function.update p.timewait tw { tuple, generation := p.generation + 1, used := true } })
    | _, _ => (TCP_NO_SPACE, p)

/-- `tcp_pool_tick`'s first loop: exported records past their time go. -/
def expireTimewait (p : Pool) (now : UInt64) : Pool :=
  { p with timewait := fun i =>
      if i < TCP_TIMEWAIT_MAX && (p.timewait i).active && decide (now ≥ (p.timewait i).expiresMs) then {}
      else p.timewait i }

/-- `tcp_pool_tick`'s second loop, at one block. -/
def poolTickBlock (p : Pool) (i : Nat) : Pool :=
  if !p.used i then p
  else
    let c := tcpConnTick (p.blocks i) now
    let p := { p with blocks := Function.update p.blocks i c }
    if !c.orphan || c.out.actionPending || c.out.resetPending || c.out.ackPending then p
    else
      let tw := p.timewait (p.twSlot i)
      let release (tw : Timewait) : Pool := { p with
        timewait := Function.update p.timewait (p.twSlot i) tw
        blocks := Function.update p.blocks i {}
        used := Function.update p.used i false }
      match c.state with
      | .timeWait =>
        release { tw with
          active := true, expiresMs := c.timers.timewait
          sndNxt := c.snd.sndNxt, rcvNxt := c.rcv.rcvNxt }
      | .closed => release {}
      | _ => p

def tcpPoolTick (p : Pool) (now : UInt64) : Pool :=
  (List.range TCP_CB_MAX).foldl (poolTickBlock now) (expireTimewait p now)

end Fortress.Tcp
