/-
The bytes a connection sends are the bytes it was given.

A run carries the concatenation of everything `tcp_conn_queue` accepted. The
transmit ring is always the end of that stream that no acknowledgement has
covered yet, so every segment built from the ring (new, retransmitted or a
probe) carries the bytes its sequence number says.
-/
import Fortress.Tcp.Output

namespace Fortress.Tcp

open Serial (pos)

/-- A block and all the bytes `tcp_conn_queue` accepted for it. -/
structure Sender where
  conn : Conn
  queued : List UInt8

/-- The bytes an operation adds to the stream. -/
def accepted (c : Conn) : Op → List UInt8
  | .queue data => data.take (tcpConnQueue c data).1.toNat
  | _ => []

def Sender.apply (t : Sender) (op : Op) : Sender := ⟨op.apply t.conn, t.queued ++ accepted t.conn op⟩

/-- A connection from `tcp_conn_init` on, with the stream it was given. -/
def sendMachine : Machine Sender Op where
  init t := Initial t.conn ∧ t.queued = []
  step t op t' := t' = t.apply op

/-- The bytes in the transmit ring. -/
def ringBytes (s : SendSide) : List UInt8 := Ring.read TCP_TXBUF_MAX s.tx s.txHead s.txCount

/-- How many bytes of the stream have left the ring. -/
def Sender.released (t : Sender) : Nat := t.queued.length - t.conn.snd.txCount

/-- The ring is what is left of the stream, numbered from `iss + 1` on. -/
structure RingOk (s : SendSide) (queued : List UInt8) : Prop where
  count : s.txCount ≤ queued.length
  bytes : ringBytes s = queued.drop (queued.length - s.txCount)
  sequence : s.txSequence = pos (s.iss + 1) (queued.length - s.txCount)

variable {q : List UInt8} {s : SendSide}

theorem RingOk.congr {s' : SendSide} (h : RingOk s q) (hv : s'.view = s.view) : RingOk s' q := by
  simp only [SendSide.view, TxView.mk.injEq] at hv
  obtain ⟨h1, h2, h3, h4, h5⟩ := hv
  obtain ⟨hc, hb, hs⟩ := h
  unfold ringBytes at hb
  rw [← h3, ← h4, ← h5] at hb
  rw [← h1, ← h2, ← h4] at hs
  exact ⟨h4 ▸ hc, hb, hs⟩

theorem ackedBytes_le_txCount (s : SendSide) (ack : UInt32) : ackedBytes s ack ≤ s.txCount := by
  unfold ackedBytes
  split
  · exact Nat.min_le_right _ _
  · exact Nat.zero_le _

theorem RingOk.ack (h : RingOk s q) (ack : UInt32) : RingOk (ackSend s ack) q := by
  have hk := ackedBytes_le_txCount s ack
  have hc := h.count
  have hrel : q.length - (s.txCount - ackedBytes s ack) = q.length - s.txCount + ackedBytes s ack := by
    omega
  refine ⟨?_, ?_, ?_⟩
  · exact (Nat.sub_le _ _).trans hc
  · simp only [ringBytes, ackSend]
    rw [Ring.read_mod, ← Ring.drop_read, ← ringBytes, h.bytes, List.drop_drop, hrel]
  · simp only [ackSend]
    rw [h.sequence, Serial.pos_add, hrel]

theorem RingOk.queue {data : List UInt8} (h : RingOk s q) (hroom : s.txCount + data.length ≤ TCP_TXBUF_MAX) :
    RingOk { s with
      tx := Ring.write TCP_TXBUF_MAX s.tx (s.txHead + s.txCount) data
      txCount := s.txCount + data.length } (q ++ data) := by
  have hc := h.count
  have hrel : (q ++ data).length - (s.txCount + data.length) = q.length - s.txCount := by
    rw [List.length_append]
    omega
  refine ⟨?_, ?_, ?_⟩
  · rw [List.length_append]
    exact Nat.add_le_add_right hc _
  · rw [hrel, List.drop_append_of_le_length (Nat.sub_le _ _), ← h.bytes]
    exact Ring.read_write hroom
  · rw [hrel]
    exact h.sequence

/-- What is copied from the ring at a sequence number is the stream at that
number. -/
theorem RingOk.copyTx (h : RingOk s q) {seq : UInt32} {n : Nat}
    (hfit : (seq - s.txSequence).toNat + n ≤ s.txCount) (hcap : s.txCount ≤ TCP_TXBUF_MAX) {i : Nat} (hi : i < n) :
    ∃ k < q.length, q.length ≤ k + TCP_TXBUF_MAX ∧
      k % 2 ^ 32 = (seq + UInt32.ofNat i - (s.iss + 1)).toNat ∧ (copyTx s seq n)[i]? = q[k]? := by
  have hc := h.count
  have hseq : seq = pos s.txSequence (seq - s.txSequence).toNat := Serial.eq_pos _ _
  rw [h.sequence, Serial.pos_pos, ← h.sequence] at hseq
  refine ⟨q.length - s.txCount + (seq - s.txSequence).toNat + i, by omega, by omega, ?_, ?_⟩
  · rw [hseq, Serial.pos_add, Serial.toNat_sub_self_pos, ← hseq]
  have hread : (ringBytes s)[(seq - s.txSequence).toNat + i]? =
      q[q.length - s.txCount + (seq - s.txSequence).toNat + i]? := by
    rw [h.bytes, List.getElem?_drop, Nat.add_assoc]
  rw [← hread, Tcp.copyTx, Ring.getElem?_read hi, ringBytes, Ring.getElem?_read (by omega), Nat.add_assoc]

/-! ## Steps -/

/-- What an operation does to the ring and the stream. -/
inductive SendStep (t : Sender) (op : Op) (t' : Sender) : Prop
  | closed (state : t'.conn.state = .closed)
  | keep (view : t'.conn.snd.view = t.conn.snd.view) (queued : t'.queued = t.queued)
  | queue {data : List UInt8} (room : t.conn.snd.txCount + data.length ≤ TCP_TXBUF_MAX)
      (snd : t'.conn.snd = { t.conn.snd with
        tx := Ring.write TCP_TXBUF_MAX t.conn.snd.tx (t.conn.snd.txHead + t.conn.snd.txCount) data
        txCount := t.conn.snd.txCount + data.length })
      (queued : t'.queued = t.queued ++ data)
  | ack {h : Header} {data : List UInt8} {now : UInt64} (op : op = .input h data now)
      (flag : has h.flags TCP_ACK = true) (ok : AckOk t.conn.snd h.acknowledgment)
      (view : t'.conn.snd.view = (ackSend t.conn.snd h.acknowledgment).view) (queued : t'.queued = t.queued)

variable {t : Sender}

theorem SendStep.of_queue (h : SendInv t.conn) (he : ErrorOk t.conn) (data : List UInt8) :
    SendStep t (.queue data) (t.apply (.queue data)) := by
  have none {n : Int} (hn : n.toNat = 0) : t.queued ++ data.take n.toNat = t.queued := by
    rw [hn, List.take_zero, List.append_nil]
  simp only [Sender.apply, Op.apply, accepted, tcpConnQueue]
  split_ifs with h1 h2 h3 h4 h5
  · exact .keep rfl (none (Int.toNat_of_nonpos he))
  · exact .keep rfl (none rfl)
  · exact .keep rfl (none rfl)
  · exact .keep rfl (none rfl)
  · exact .keep rfl (none rfl)
  have hst : t.conn.state = .established ∨ t.conn.state = .closeWait := by
    simp only [Bool.and_eq_true, bne_iff_ne, ne_eq, not_and, not_not] at h3
    exact Decidable.or_iff_not_imp_left.2 h3
  have hcap := ((phase_iff_data hst).1 h.ok.phase).txCount
  have hlen : (data.take (min (TCP_TXBUF_MAX - t.conn.snd.txCount) data.length)).length =
      min (TCP_TXBUF_MAX - t.conn.snd.txCount) data.length := by
    rw [List.length_take]
    exact Nat.min_eq_left (Nat.min_le_right _ _)
  refine @SendStep.queue _ _ _ (data.take (min (TCP_TXBUF_MAX - t.conn.snd.txCount) data.length)) ?_ ?_ rfl
  · rw [hlen]
    omega
  · rw [hlen]

theorem SendStep.of_acts {op : Op} {c' : Conn} (h : SendInv t.conn) (hact : op.Acts t.conn c')
    (hq : ∀ data, op ≠ .queue data) : SendStep t op ⟨c', t.queued⟩ := by
  cases hact with
  | idle | consume | shutdown | prepare | abandon => exact .keep rfl rfl
  | queue => exact absurd rfl (hq _)
  | @input hdr data now admitted =>
    have hin := (tcpConnInput_send h.ok h.fresh hdr data now).moved
    rw [tcpConnInput, if_pos admitted] at hin
    cases hin with
    | keep _ view => exact .keep view rfl
    | closed _ state => exact .closed state
    | acked flag ok _ view => exact .ack rfl flag ok view rfl
  | tick now =>
    rcases (tcpConnTick_send h.ok now).2.2 with hs | ⟨_, hs⟩
    · exact .closed hs
    · exact .keep (congrArg SendSide.view hs) rfl
  | @detach now =>
    have hview (c : Conn) : (detachState c now).state = .closed ∨ (detachState c now).snd.view = c.snd.view := by
      unfold detachState
      split <;> first | exact .inr rfl | exact .inl rfl
    rcases hview { tcpConnTick t.conn now with orphan := true } with hs | hs
    · exact .closed hs
    rcases (tcpConnTick_send h.ok now).2.2 with ht | ⟨_, ht⟩
    · -- a block the tick closed stays closed
      refine .closed ?_
      rcases detachState_state ({ tcpConnTick t.conn now with orphan := true }) now with hd | hd
      · exact hd
      · exact hd.trans ht
    · exact .keep (hs.trans (congrArg SendSide.view ht)) rfl
  | sent own => exact .keep (commitSubmitted_send (h.choice own) h.ok).2 rfl

theorem Sender.apply_cases (h : SendInv t.conn) (he : ErrorOk t.conn) (op : Op) : SendStep t op (t.apply op) := by
  cases op with
  | queue data => exact .of_queue h he data
  | input _ _ _ | tick _ | consume _ | shutdown | detach _ | prepare _ | commit _ _ =>
    simpa [Sender.apply, accepted] using SendStep.of_acts h (Op.acts t.conn _) (by simp)

/-! ## Runs -/

/-- What holds of a sender between operations. -/
structure StreamInv (t : Sender) : Prop where
  send : SendInv t.conn
  error : ErrorOk t.conn
  ring : t.conn.state ≠ .closed → RingOk t.conn.snd t.queued

theorem StreamInv.apply (h : StreamInv t) (op : Op) : StreamInv (t.apply op) := by
  refine ⟨h.send.apply op, h.error.apply op, fun hlive => ?_⟩
  have hring := h.ring fun e => hlive (h.send.closed_apply e op)
  cases Sender.apply_cases h.send h.error op with
  | closed state => exact absurd state hlive
  | keep view queued => exact queued ▸ hring.congr view
  | queue room snd queued => exact snd ▸ queued ▸ hring.queue room
  | ack _ _ _ view queued => exact queued ▸ (hring.ack _).congr view

theorem sender_inv (h : sendMachine.Reach t) : StreamInv t := by
  refine h.invariant (fun t hi => ?_) fun t op t' hi hs => ?_
  · obtain ⟨hinit, hq⟩ := hi
    refine ⟨hinit.sendInv, ?_, fun _ => ?_⟩
    all_goals
      obtain ⟨tuple, generation, isn, mtu, active, now, hinit⟩ := hinit
      simp only [tcpConnInit, Option.ite_none_left_eq_some, Option.some.injEq] at hinit
      have hc := hinit.2
    · rw [ErrorOk, ← hc]
    rw [hq, ← hc]
    exact ⟨le_refl _, rfl, (Serial.pos_zero _).symm⟩
  · obtain rfl : t' = t.apply op := hs
    exact hi.apply op

theorem ackedBytes_le {st : State} {ack : UInt32} (h : SendOk st s) (hst : st ≠ .closed)
    (ha : AckOk s ack) (hb : 0 < ackedBytes s ack) :
    ackedBytes s ack ≤ (ack - s.txSequence).toNat ∧ ack - s.txSequence ≤ s.sndNxt - s.txSequence := by
  have hc : s.txCount ≠ 0 := by
    intro e
    unfold ackedBytes at hb
    rw [e, Nat.min_zero, ite_self] at hb
    exact absurd hb (Nat.lt_irrefl 0)
  obtain ⟨hd, _⟩ := h.data_of_txCount hst hc
  rw [hd.ackedBytes ha, hd.txSequence]
  exact ⟨le_refl _, ha.2⟩

/-- A prepared action is the block's choice, with its bytes from the ring. -/
theorem tcpConnPrepare_ok {c c' : Conn} {scratch : Option Nat} {a : Action} {bytes : List UInt8}
    (h : tcpConnPrepare c scratch = (0, some (a, bytes), c')) :
    nextAction c = some a ∧ bytes = copyTx c.snd a.header.sequence a.dataLen := by
  unfold tcpConnPrepare at h
  split at h
  · simp at h
  split at h
  · simp at h
  rename_i b hb
  split at h
  · simp at h
  obtain ⟨_, ⟨rfl, rfl⟩, _⟩ := h
  exact ⟨hb, rfl⟩

/-- **The bytes sent are the bytes queued.** In every run from
`tcp_conn_init`: (1) when `tcp_conn_prepare` succeeds with data, the `i`-th
byte copied out is byte number `header.sequence + i - (iss + 1)` (modulo
`2 ^ 32`; of the bytes with that number, the one among the last 8192 queued)
of the concatenation of all bytes `tcp_conn_queue` accepted; (2) the transmit
ring holds exactly the end of that stream; and (3) an operation that does not
close the connection takes bytes out of the ring only if it is the input of a
segment whose ack covers them. -/
theorem send_stream {t : Sender} (h : sendMachine.Reach t) :
    (∀ scratch a bytes c', tcpConnPrepare t.conn scratch = (0, some (a, bytes), c') → 0 < a.dataLen →
      bytes.length = a.dataLen ∧ ∀ i < a.dataLen, ∃ k < t.queued.length,
        t.queued.length ≤ k + TCP_TXBUF_MAX ∧
        k % 2 ^ 32 = (a.header.sequence + UInt32.ofNat i - (t.conn.snd.iss + 1)).toNat ∧
        bytes[i]? = t.queued[k]?) ∧
    (t.conn.state ≠ .closed → ringBytes t.conn.snd = t.queued.drop t.released) ∧
    ∀ op, (t.apply op).conn.state ≠ .closed →
      t.released ≤ (t.apply op).released ∧
      (t.released < (t.apply op).released → ∃ hdr data now, op = .input hdr data now ∧
        has hdr.flags TCP_ACK = true ∧
        (t.apply op).released - t.released ≤ (hdr.acknowledgment - t.conn.snd.txSequence).toNat ∧
        hdr.acknowledgment - t.conn.snd.txSequence ≤ t.conn.snd.sndNxt - t.conn.snd.txSequence) := by
  have hinv := sender_inv h
  refine ⟨fun scratch a bytes c' hprep hlen => ?_, fun hst => (hinv.ring hst).bytes, fun op hlive => ?_⟩
  · obtain ⟨hnext, rfl⟩ := tcpConnPrepare_ok hprep
    have hchoice := nextAction_cases hinv.send.ok hnext
    obtain ⟨hfit, hcap⟩ := hchoice.fits hinv.send.ok hlen.ne'
    have hring := hinv.ring (hchoice.live hlen.ne')
    exact ⟨by simp [copyTx], fun i hi => hring.copyTx hfit hcap hi⟩
  have hst : t.conn.state ≠ .closed := fun e => hlive (hinv.send.closed_apply e op)
  unfold Sender.released
  cases Sender.apply_cases hinv.send hinv.error op with
  | closed state => exact absurd state hlive
  | keep view queued =>
    have htx : (t.apply op).conn.snd.txCount = t.conn.snd.txCount := congrArg TxView.txCount view
    rw [htx, queued]
    exact ⟨le_refl _, fun hlt => absurd hlt (Nat.lt_irrefl _)⟩
  | queue room snd queued =>
    have htx := congrArg SendSide.txCount snd
    dsimp only at htx
    rw [htx, queued, List.length_append]
    omega
  | @ack hdr data now hop flag ok view queued =>
    have htx : (t.apply op).conn.snd.txCount =
        t.conn.snd.txCount - ackedBytes t.conn.snd hdr.acknowledgment := congrArg TxView.txCount view
    rw [htx, queued]
    refine ⟨by omega, fun hlt => ⟨hdr, data, now, hop, flag, ?_⟩⟩
    have hcover := ackedBytes_le hinv.send.ok hst ok (by omega)
    exact ⟨by omega, hcover.2⟩

/-- A passive opener past its handshake, with three bytes to send. -/
def queuedSender : Sender :=
  let t : Sender := ⟨(tcpConnInit { localPort := 1, remotePort := 2 } 1 0xffffffff 1500 false 0).getD {}, []⟩
  let t := t.apply (.input { source := 2, destination := 1, sequence := 500, flags := TCP_SYN, window := 90 } [] 5)
  let t := t.apply (.prepare none)
  let t := t.apply (.commit t.conn.out.action true)
  let t := t.apply (.input { source := 2, destination := 1, sequence := 501, flags := TCP_ACK, window := 90 } [] 6)
  t.apply (.queue [7, 8, 9])

theorem queuedSender_reach : sendMachine.Reach queuedSender := by
  refine .step (.step (.step (.step
    (.step (.init ⟨?_, rfl⟩) rfl) rfl) rfl) rfl) rfl
  exact ⟨{ localPort := 1, remotePort := 2 }, 1, 0xffffffff, 1500, false, 0, rfl⟩

theorem send_stream_three_bytes :
    ∃ a bytes c', tcpConnPrepare queuedSender.conn (some 100) = (0, some (a, bytes), c') ∧
      bytes = [7, 8, 9] ∧ ∀ i < a.dataLen, ∃ k < 3,
        k % 2 ^ 32 = (a.header.sequence + UInt32.ofNat i - (queuedSender.conn.snd.iss + 1)).toNat ∧
        bytes[i]? = [7, 8, 9][k]? := by
  refine ⟨_, _, _, rfl, by decide, fun i hi => ?_⟩
  obtain ⟨k, hk, _, hnum, hbyte⟩ := ((send_stream queuedSender_reach).1 (some 100) _ _ _ rfl (by decide)).2 i hi
  exact ⟨k, hk, hnum, hbyte⟩

end Fortress.Tcp
