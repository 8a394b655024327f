/-
`net_tcp_poll` against the nonblocking calls. Poll and the calls each look at
the endpoint for themselves: poll reports a listener by the places of its
queue, accept by the children that are ready; poll reports a connection in
some of its states only. `PollClear` is where the two agree.
-/
import Fortress.Tcp.Owner

namespace Fortress.Tcp

/-- `POLLIN` and the others, as a set. -/
structure PollSet where
  pollIn : Bool := false
  pollOut : Bool := false
  pollErr : Bool := false
  pollHup : Bool := false
  pollNval : Bool := false
deriving DecidableEq

/-- `net_tcp_poll` for a connection, on top of what is reported already. -/
def pollConnection (c : Conn) (events revents : PollSet) : PollSet :=
  if c.state == .closed || c.state == .closeWait || c.state == .timeWait then
    { revents with pollHup := true, pollIn := decide (0 < c.rcv.rxCount) }
  else if c.state == .established then
    let input := events.pollIn && (decide (0 < c.rcv.rxCount) || c.rcv.eof)
    { revents with
      pollIn := input
      pollHup := input && c.rcv.eof
      pollOut := events.pollOut && !c.snd.wantFin && decide (c.snd.txCount < TCP_TXBUF_MAX) }
  else revents

variable (n : Net) (slot : SlotId)

def netTcpPoll (events : PollSet) : PollSet :=
  let e := n.endpoints slot
  if !e.used || e.detach || e.generation == 0 then { pollNval := true }
  else
    let revents : PollSet := { pollErr := e.error != 0 }
    if e.listening then
      { revents with pollIn := events.pollIn && (queue e).any fun j => (e.pending j).block.isSome }
    else
      match connection n.pool e with
      | some b => pollConnection (n.pool.blocks b) events revents
      | none => revents

/-! ## Agreement -/

/-- The states after the handshake. -/
def State.synchronized : State → Bool
  | .established | .closeWait | .finWait1 | .finWait2 | .closing | .lastAck | .timeWait => true
  | _ => false

/-- The endpoint is an open listener. -/
def Net.listens : Prop :=
  (n.endpoints slot).used = true ∧ (n.endpoints slot).listening = true

/-- The endpoint is an open connection on block `b`, past its handshake. -/
structure Net.Connected (n : Net) (slot : SlotId) (b : Nat) : Prop where
  used : (n.endpoints slot).used = true
  started : (n.endpoints slot).started = true
  passive : (n.endpoints slot).listening = false
  block : (n.endpoints slot).block = some b
  state : (n.pool.blocks b).state.synchronized = true

/-- A nonblocking read would return data or the end of the file. -/
def Readable : Prop := ∃ capacity data, 0 < capacity ∧ netTcpPeek n slot capacity = .ok data

/-- A nonblocking write would take at least one byte. -/
def Writable : Prop := 0 < netTcpProbe n slot false

/-- What poll answers to `events` is what the calls would do. -/
structure PollAgrees (n : Net) (slot : SlotId) (events : PollSet) : Prop where
  accept : n.listens slot → events.pollIn = true →
    ((netTcpPoll n slot events).pollIn = true ↔ ∃ child, netTcpAcceptOffer n slot 0 = .ok child)
  read : ∀ b, n.Connected slot b → events.pollIn = true → Readable n slot →
    (netTcpPoll n slot events).pollIn = true ∨ (netTcpPoll n slot events).pollHup = true
  write : ∀ b, n.Connected slot b → events.pollOut = true → Writable n slot → (netTcpPoll n slot events).pollOut = true

/-- A listener with children has a ready one and no error; a connection that is closing down has nothing left to
read, and one that is not established cannot be written. -/
structure PollClear (n : Net) (slot : SlotId) : Prop where
  accept : n.listens slot → (n.endpoints slot).generation ≠ 0 → (∃ j b, ((n.endpoints slot).pending j).block = some b) →
    (n.endpoints slot).error = 0 ∧
      ∃ j b, ((n.endpoints slot).pending j).block = some b ∧ ready (n.pool.blocks b) = true
  read : ∀ b, n.Connected slot b → (n.pool.blocks b).state ∈ [.finWait1, .finWait2, .closing, .lastAck] →
    (n.endpoints slot).error = 0 →
      (n.pool.blocks b).rcv.rxCount = 0 ∧ ((n.pool.blocks b).rcv.eof = true → (n.pool.blocks b).error ≠ 0)
  write : ∀ b, n.Connected slot b → (n.pool.blocks b).state ≠ .established → (n.endpoints slot).error = 0 →
    (n.pool.blocks b).snd.wantFin = true ∨ TCP_TXBUF_MAX ≤ (n.pool.blocks b).snd.txCount

/-! ## What the calls do -/

theorem tcpConnPeek_nonneg {c : Conn} (he : ErrorOk c) {capacity : Nat} (hcap : 0 < capacity) :
    ¬(tcpConnPeek c capacity).1 < 0 ↔ c.rcv.rxCount ≠ 0 ∨ c.rcv.eof = true ∧ c.error = 0 := by
  unfold ErrorOk at he
  unfold tcpConnPeek
  rw [if_neg (by simpa using Nat.pos_iff_ne_zero.1 hcap)]
  by_cases hn : min c.rcv.rxCount capacity = 0
  · have hrx : c.rcv.rxCount = 0 := by omega
    rw [if_pos (by simpa using hn)]
    by_cases herr : c.error = 0
    · by_cases heof : c.rcv.eof = true <;> simp [herr, heof, hrx, TCP_WOULD_BLOCK]
    have hneg : c.error < 0 := by omega
    simp [herr, hrx, hneg]
  · have hrx : c.rcv.rxCount ≠ 0 := by omega
    rw [if_neg (by simpa using hn)]
    omega

theorem transferBlock_error {n : Net} {slot : SlotId} (he : (n.endpoints slot).error ≠ 0) :
    transferBlock n slot = .error (n.endpoints slot).error := by
  unfold transferBlock
  simp [he]

section Calls

variable {n : Net} (h : NetInv n) {slot : SlotId} {b : Nat}
include h

/-- An endpoint with a block and no error can be polled. -/
theorem NetInv.generation_ne (hu : (n.endpoints slot).used = true) (hb : (n.endpoints slot).block = some b)
    (he : (n.endpoints slot).error = 0) : (n.endpoints slot).generation ≠ 0 := by
  rcases (h.current slot).own b hb with hg | hg
  · rw [hg]
    exact h.positive b (h.custody.live (.endpoint slot) b hb).1
  · exact absurd he (hg.2 hu)

theorem NetInv.transferBlock_eq (hc : n.Connected slot b) (he : (n.endpoints slot).error = 0) :
    transferBlock n slot = .ok b := by
  have hs := hc.state
  unfold transferBlock
  simp only [he, bne_self_eq_false, Bool.false_eq_true, if_false, h.connection_eq slot, hc.block, hc.started]
  cases hst : (n.pool.blocks b).state <;> simp_all [State.synchronized]

theorem NetInv.readable_iff (hc : n.Connected slot b) : Readable n slot ↔ (n.endpoints slot).error = 0 ∧
    ((n.pool.blocks b).rcv.rxCount ≠ 0 ∨ (n.pool.blocks b).rcv.eof = true ∧ (n.pool.blocks b).error = 0) := by
  unfold Readable netTcpPeek
  by_cases he : (n.endpoints slot).error = 0
  · rw [h.transferBlock_eq hc he]
    dsimp only
    have hpeek : ∀ capacity, 0 < capacity → (¬(tcpConnPeek (n.pool.blocks b) capacity).1 < 0 ↔ _) :=
      fun _ hcap => tcpConnPeek_nonneg (h.errors b) hcap
    refine ⟨?_, ?_⟩
    · rintro ⟨capacity, data, hcap, hok⟩
      refine ⟨he, (hpeek capacity hcap).1 fun hneg => ?_⟩
      rw [if_pos hneg] at hok
      split at hok <;> cases hok
    rintro ⟨-, hr⟩
    have hpos := (hpeek 1 Nat.one_pos).2 hr
    refine ⟨1, (tcpConnPeek (n.pool.blocks b) 1).2, Nat.one_pos, ?_⟩
    have hwb : ¬((tcpConnPeek (n.pool.blocks b) 1).1 == TCP_WOULD_BLOCK) = true := by
      simp only [beq_iff_eq]
      intro hw
      exact hpos (hw ▸ by decide)
    rw [if_neg hwb, if_neg hpos]
  · rw [transferBlock_error he]
    simp [he]

theorem NetInv.writable_iff (hc : n.Connected slot b) : Writable n slot ↔ (n.endpoints slot).error = 0 ∧
    (n.pool.blocks b).snd.wantFin = false ∧ (n.pool.blocks b).snd.txCount < TCP_TXBUF_MAX := by
  unfold Writable netTcpProbe
  by_cases he : (n.endpoints slot).error = 0
  · rw [h.transferBlock_eq hc he]
    have hst : (n.pool.blocks b).state ≠ .closed := by
      intro hcl
      have hs := hc.state
      rw [hcl] at hs
      cases hs
    by_cases hf : (n.pool.blocks b).snd.wantFin = true
    · simp [hf, SYSCALL_EPIPE]
    by_cases ht : (n.pool.blocks b).snd.txCount < TCP_TXBUF_MAX
    · simp [he, hf, hst, ht]
    · simp [he, hf, hst, ht, SYSCALL_EAGAIN]
  · rw [transferBlock_error he]
    simp only [he, false_and, iff_false]
    exact Int.not_lt.2 (h.shape slot).error

end Calls

/-! ## The two sides -/

section Poll

variable {n : Net} (h : NetInv n) {slot : SlotId} {b : Nat} {events : PollSet}
include h

theorem NetInv.poll_listener (hl : n.listens slot) : (netTcpPoll n slot events).pollIn = true ↔
    (n.endpoints slot).generation ≠ 0 ∧ events.pollIn = true ∧ ∃ j b, ((n.endpoints slot).pending j).block = some b := by
  have hd := (h.shape slot).attached hl.1
  unfold netTcpPoll
  simp only [hl.1, hl.2, hd]
  by_cases hg : (n.endpoints slot).generation = 0
  · simp [hg]
  have hany : ((queue (n.endpoints slot)).any fun j => ((n.endpoints slot).pending j).block.isSome) = true ↔
      ∃ j b, ((n.endpoints slot).pending j).block = some b := by
    simp only [List.any_eq_true, Option.isSome_iff_exists, queue, List.mem_filter, List.mem_finRange, true_and,
      decide_eq_true_eq]
    constructor
    · rintro ⟨j, _, b, hb⟩
      exact ⟨j, b, hb⟩
    · rintro ⟨j, b, hb⟩
      exact ⟨j, (h.shape slot).queued j b hb, b, hb⟩
  simp [hg, ← hany]

theorem NetInv.offer_iff (hl : n.listens slot) : (∃ child, netTcpAcceptOffer n slot 0 = .ok child) ↔
    (n.endpoints slot).error = 0 ∧
      ∃ j b, ((n.endpoints slot).pending j).block = some b ∧ ready (n.pool.blocks b) = true := by
  unfold netTcpAcceptOffer
  simp only [hl.1, hl.2]
  by_cases he : (n.endpoints slot).error = 0
  · simp only [he, Bool.not_true, Bool.or_self, Bool.false_eq_true, if_false, bne_self_eq_false, true_and]
    split
    · rename_i hnone
      rw [List.find?_eq_none] at hnone
      simp only [reduceCtorEq, exists_false, false_iff]
      rintro ⟨j, b, hb, hr⟩
      refine hnone j (List.mem_finRange j) ?_
      have hj := (h.shape slot).queued j b hb
      have hp := (h.pendingConnection_eq slot j).trans hb
      simp [hj, hp, hr]
    rename_i j hj
    have hj := List.find?_some hj
    simp only [Bool.and_eq_true, decide_eq_true_eq] at hj
    rw [h.pendingConnection_eq slot j] at hj
    refine iff_of_true ⟨_, rfl⟩ ?_
    cases hb : ((n.endpoints slot).pending j).block with
    | none => simp [hb] at hj
    | some b =>
      rw [hb] at hj
      exact ⟨j, b, hb, by simpa using hj.2⟩
  · simp [he]

/-- A connection without an error is polled by its block's state. -/
theorem NetInv.poll_connected (hc : n.Connected slot b) (he : (n.endpoints slot).error = 0) :
    netTcpPoll n slot events = pollConnection (n.pool.blocks b) events {} := by
  have hd := (h.shape slot).attached hc.used
  have hg := h.generation_ne hc.used hc.block he
  unfold netTcpPoll
  simp [hc.used, hd, hg, hc.passive, he, h.connection_eq slot, hc.block]

theorem NetInv.agrees (hclear : PollClear n slot) (events : PollSet) : PollAgrees n slot events := by
  refine ⟨fun hl hin => ?_, fun b hc hin hr => ?_, fun b hc hout hw => ?_⟩
  · rw [h.poll_listener hl, h.offer_iff hl]
    refine ⟨fun ⟨hg, _, hj⟩ => hclear.accept hl hg hj, fun ⟨he, j, b, hb, _⟩ => ?_⟩
    -- a listener with a child has a block of its own
    have hj := (h.shape slot).queued j b hb
    obtain ⟨x, hx⟩ : ∃ x, (n.endpoints slot).block = some x := by
      refine Option.ne_none_iff_exists'.1 fun hnone => ?_
      have := (h.shape slot).empty hnone
      omega
    exact ⟨h.generation_ne hl.1 hx he, hin, j, b, hb⟩
  · obtain ⟨he, hr⟩ := (h.readable_iff hc).1 hr
    rw [h.poll_connected hc he]
    have hstate := hc.state
    have hread := hclear.read b hc
    unfold pollConnection
    cases hs : (n.pool.blocks b).state <;> rw [hs] at hstate hread <;> simp only [State.synchronized] at hstate
    case closeWait | timeWait => exact .inr rfl
    case established =>
      refine .inl ?_
      rcases hr with hrx | ⟨heof, -⟩
      · simp [hin, Nat.pos_of_ne_zero hrx]
      · simp [hin, heof]
    case finWait1 | finWait2 | closing | lastAck =>
      obtain ⟨hrx, heof⟩ := hread (by simp) he
      rcases hr with hr | ⟨hr, herr⟩
      · exact absurd hrx hr
      · exact absurd herr (heof hr)
    all_goals cases hstate
  obtain ⟨he, hfin, htx⟩ := (h.writable_iff hc).1 hw
  by_cases hs : (n.pool.blocks b).state = .established
  · rw [h.poll_connected hc he]
    unfold pollConnection
    simp [hs, hout, hfin, htx]
  · rcases hclear.write b hc hs he with hf | hf
    · exact absurd (hfin.symm.trans hf) nofun
    · omega

/-- What poll with both events requested says is enough. -/
theorem NetInv.clear (hagree : PollAgrees n slot { pollIn := true, pollOut := true }) : PollClear n slot := by
  refine ⟨fun hl hg hj => ?_, fun b hc hs he => ?_, fun b hc hs he => ?_⟩
  · refine (h.offer_iff hl).1 ((hagree.accept hl rfl).1 ?_)
    exact (h.poll_listener hl).2 ⟨hg, rfl, hj⟩
  · have hquiet : pollConnection (n.pool.blocks b) { pollIn := true, pollOut := true } {} = {} := by
      unfold pollConnection
      simp only [List.mem_cons, List.not_mem_nil, or_false] at hs
      rcases hs with hs | hs | hs | hs <;> simp [hs]
    have hnot : ¬Readable n slot := by
      intro hr
      have hrep := hagree.read b hc rfl hr
      rw [h.poll_connected hc he, hquiet] at hrep
      rcases hrep with hrep | hrep <;> cases hrep
    rw [h.readable_iff hc] at hnot
    refine ⟨?_, fun heof herr => hnot ⟨he, .inr ⟨heof, herr⟩⟩⟩
    by_contra hrx
    exact hnot ⟨he, .inl hrx⟩
  have hout : (pollConnection (n.pool.blocks b) { pollIn := true, pollOut := true } {}).pollOut = false := by
    unfold pollConnection
    split
    · rfl
    · simp [hs]
  have hnot : ¬Writable n slot := by
    intro hw
    have hrep := hagree.write b hc rfl hw
    rw [h.poll_connected hc he, hout] at hrep
    cases hrep
  rw [h.writable_iff hc] at hnot
  cases hf : (n.pool.blocks b).snd.wantFin with
  | true => exact .inl rfl
  | false =>
    refine .inr (Nat.le_of_not_lt fun htx => hnot ⟨he, hf, htx⟩)

end Poll

/-- **In every reachable state poll agrees with accept, read and write at an endpoint exactly when `PollClear` holds
of it.** -/
theorem poll_agrees_iff (mtu : UInt16) (localIp : UInt32) (nowMs ticks : UInt64) (run : List Event) (slot : SlotId) :
    (∀ events, PollAgrees ((Worker.start mtu localIp nowMs ticks).run run).net slot events) ↔
      PollClear ((Worker.start mtu localIp nowMs ticks).run run).net slot := by
  have h := (Worker.run_inv (Worker.start_inv mtu localIp nowMs ticks) run).net
  exact ⟨fun ha => h.clear (ha _), fun hc events => h.agrees hc events⟩

/-- A segment of one peer to port 80. -/
def peerSegment (flags : UInt8) (sequence acknowledgment : UInt32) : Event :=
  .request (.input {
    source := 0x0a000001, data := [], now := 0, isn := 7, unicast := true
    header := { source := 5000, destination := 80, sequence, acknowledgment, window := 1000, flags } })

/-- A listener and a peer's SYN. -/
def halfOpen : List Event :=
  [.request (.create 0), .request (.bind 0 80), .request (.listen 0 1), peerSegment TCP_SYN 100 0]

/-- The peer finishes its handshake over one tick, is accepted, and ends its side. -/
def halfClosed : List Event :=
  halfOpen ++ .tick 0 true (fun _ => true) :: List.replicate 25 .resume ++
    [peerSegment TCP_ACK 101 8, .request (.stage 1), .request (.acceptCommit 0 1 ⟨some 1, 2⟩),
      peerSegment (TCP_FIN ||| TCP_ACK) 101 8]

/-- A listener with a half-open child is reported to have one to accept; a connection that the peer ended is not
reported writable. -/
theorem poll_disagrees :
    ¬PollAgrees ((Worker.start 1500 0x0a000002 0 0).run halfOpen).net 0 { pollIn := true } ∧
      ¬PollAgrees ((Worker.start 1500 0x0a000002 0 0).run halfClosed).net 1 { pollOut := true } := by
  refine ⟨fun h => ?_, fun h => ?_⟩
  · obtain ⟨child, hchild⟩ := (h.accept ⟨by decide +kernel, by decide +kernel⟩ rfl).1 (by decide +kernel)
    have herr : (netTcpAcceptOffer ((Worker.start 1500 0x0a000002 0 0).run halfOpen).net 0 0).isOk = false := by
      decide +kernel
    rw [hchild] at herr
    cases herr
  · have hout := h.write 1 ⟨by decide +kernel, by decide +kernel, by decide +kernel, by decide +kernel,
      by decide +kernel⟩ rfl (show 0 < netTcpProbe _ 1 false by decide +kernel)
    exact absurd hout (by decide +kernel)

end Fortress.Tcp
