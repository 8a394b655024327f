/-
The bytes a reader gets are the peer's stream.

A run carries what its reader has taken: the bytes of the last
`tcp_conn_peek`, less those consumed since, and everything
`tcp_conn_consume` removed. Whatever the order of the segments, as long as
their bytes agree with one stream, what was removed is a prefix of it, what
was peeked comes next, and end of file is reported when it is all read.
-/
import Fortress.Tcp.Output
import Fortress.Tcp.Recv

namespace Fortress.Tcp

open List
open Serial (pos)

/-! ## What an operation does to the receive side -/

/-- The peer's SYN is still to come. -/
def State.opening : State → Bool
  | .listen | .synSent => true
  | _ => false

/-- How an operation moves the receive side when `n` bytes are consumed. -/
inductive RecvMove (stream : List UInt8) (n : Nat) (c c' : Conn) : Prop
  | same (rcv : c'.rcv = c.rcv) (state : c'.state = .closed ∨ c'.state = c.state ∨
      c.state.synced = true ∧ c'.state.synced = true)
  | syn (h : Header) (opening : c.state.opening = true) (state : c'.state.synced = true)
      (rcv : c'.rcv = (receiveSyn c h).rcv)
  | data (state : c.state.synced = true) (state' : c'.state.synced = true) (ok : RecvOk stream n c'.rcv)
      (count : c.rcv.rxCount ≤ c'.rcv.rxCount)

variable {stream : List UInt8} {n : Nat} {st : State}

theorem handshake_of_opening (h : st.opening = true) : st.handshake = true := by
  cases st <;> simp_all [State.opening, State.handshake]

theorem synced_finAckState (h : st.synced = true) : finAckState st = .closed ∨ (finAckState st).synced = true := by
  cases st <;> simp_all [finAckState, State.synced]

theorem synced_finState (h : st.synced = true) : (finState st).synced = true := by
  cases st <;> simp_all [finState, State.synced]

variable {c c' : Conn} {a : Action} {data : List UInt8} {h : Header}

/-- An ack closes an open connection or leaves it open. -/
theorem processAck_synced (h : c.state.synced = true) (hdr : Header) (len : Nat) :
    (processAck c hdr len).state = .closed ∨ (processAck c hdr len).state.synced = true := by
  rw [processAck_state]
  split
  · exact synced_finAckState h
  · exact .inr h

theorem inputAck_synced (h : c.state.synced = true) (hdr : Header) (len : Nat) :
    (inputAck c hdr len).state = .closed ∨ (inputAck c hdr len).state.synced = true := by
  unfold inputAck
  split_ifs
  · exact processAck_synced rfl hdr len
  · exact processAck_synced h hdr len
  · exact .inr h

theorem RecvMove.input (hok : c.state.synced = true → RecvOk stream n c.rcv)
    (ha : c.state.synced = true → Agrees stream n c.rcv.irs h data) (now : UInt64) :
    RecvMove stream n c (inputState c h data now) := by
  refine inputState_cases c h data now fun c' hin => ?_
  cases hin with
  | stay | answer | timeWait | synAgain | finAgain => exact .same rfl (.inr (.inl rfl))
  | syn hs => exact .syn h (by rw [hs]; rfl) rfl rfl
  | refused => exact .same rfl (.inl rfl)
  | opens hs => exact .syn h (by rw [hs]; rfl) rfl (establish_frame _ _).rcv
  | crosses hs => exact .syn h (by rw [hs]; rfl) (by rw [simultaneousOpen_state]; rfl) (simultaneousOpen_rcv _)
  | synAcked hs => exact .same (establish_frame _ _).rcv (.inr (.inr ⟨by rw [hs]; rfl, rfl⟩))
  | finAcked hs =>
    exact .same (processAck_frame c h _).rcv ((processAck_synced hs h _).imp id fun e => .inr ⟨hs, e⟩)
  | segment hst seg =>
    cases seg with
    | quiet | refuse => exact .same rfl (.inr (.inl rfl))
    | reset => exact .same rfl (.inl rfl)
    | accept =>
      have hrcv := (inputAck_frame c h data.length).rcv
      have hack := inputAck_synced hst h data.length
      unfold acceptSegment
      dsimp only
      split
      · rename_i hopen
        have hack := hack.resolve_left (by simpa using hopen)
        have hok' : RecvOk stream n (inputAck c h data.length).rcv := hrcv.symm ▸ hok hst
        obtain ⟨hdata, hcount⟩ := hok'.receiveData (hrcv.symm ▸ ha hst)
        refine .data hst ?_ hdata (hrcv ▸ hcount)
        rcases receiveData_state (inputAck c h data.length) h data with e | e <;> rw [e]
        · exact hack
        · exact synced_finState hack
      · exact .same hrcv (hack.imp id fun e => .inr ⟨hst, e⟩)

theorem RecvMove.tcpConnInput (hok : c.state.synced = true → RecvOk stream n c.rcv)
    (ha : c.state.synced = true → Agrees stream n c.rcv.irs h data) (now : UInt64) :
    RecvMove stream n c (tcpConnInput c h data now) := by
  unfold Tcp.tcpConnInput
  split
  · have hrcv := tcpConnTick_rcv c now
    rcases tcpConnTick_state c now with hs | hs
    · -- the tick closed the connection, and a closed block takes nothing
      refine .same ?_ (.inl ?_)
      all_goals
        unfold inputState
        rw [hs]
        dsimp only
        split
      · exact hrcv
      · exact hrcv
      · exact hs
      · exact hs
    have hm : RecvMove stream n (tcpConnTick c now) (inputState (tcpConnTick c now) h data now) :=
      RecvMove.input (by rwa [hs, hrcv]) (by rwa [hs, hrcv]) now
    cases hm with
    | same rcv state => exact .same (rcv.trans hrcv) (hs ▸ state)
    | syn h' opening state rcv =>
      exact .syn h' (hs ▸ opening) state (rcv.trans (by simp only [receiveSyn, hrcv]))
    | data state state' ok count => exact .data (hs ▸ state) state' ok (hrcv ▸ count)
  · exact .same rfl (.inr (.inl rfl))

/-- Only a FIN moves the state when it is booked. -/
theorem Booked.state (h : Booked c a c') (hf : has a.header.flags TCP_FIN = false) : c'.state = c.state := by
  cases h with
  | reset | ack | retx | probe => rfl
  | new | newProbe => exact commitNew_state hf

theorem Booked.synced (h : Booked c a c') (hs : c.state.synced = true) : c'.state.synced = true := by
  have new : (commitNew (ackSent c a) a).state.synced = true := by
    unfold commitNew
    dsimp only
    split_ifs
    · rfl
    · rfl
    · exact hs
  cases h with
  | reset | ack | retx | probe => exact hs
  | new | newProbe => exact new

/-- Booking an action leaves the state alone, or sends our FIN from an open
connection. -/
theorem Choice.commit_state (h : Choice c a) : (commitSubmitted (changed c) a).2.state = c.state ∨
      c.state.synced = true ∧ (commitSubmitted (changed c) a).2.state.synced = true := by
  have hb := commitSubmitted_cases (changed c) a
  cases h with
  | reset | ack | retx _ _ => exact .inl rfl
  | syn _ _ =>
    refine .inl (hb.state ?_)
    simp only [synAction]
    cases c.synAck <;> decide
  | data _ _ _ _ => exact .inl (hb.state (by decide : has (TCP_ACK ||| TCP_PSH) TCP_FIN = false))
  | probe _ => exact .inl (hb.state (by decide : has TCP_ACK TCP_FIN = false))
  | fin hst _ _ _ =>
    have hs : c.state.synced = true := by rcases hst with e | e <;> rw [e] <;> rfl
    exact .inr ⟨hs, hb.synced hs⟩

/-- Every operation but input and consume leaves the receive side alone. -/
theorem RecvMove.apply (h : SendInv c) (op : Op) (hin : ∀ h data now, op ≠ .input h data now)
    (hcon : ∀ len, op ≠ .consume len) : RecvMove stream n c (op.apply c) := by
  refine op.apply_cases c fun c' hact => ?_
  cases hact with
  | input => exact absurd rfl (hin _ _ _)
  | consume => exact absurd rfl (hcon _)
  | idle | queue | shutdown | prepare | abandon => exact .same rfl (.inr (.inl rfl))
  | tick now => exact .same (tcpConnTick_rcv c now) ((tcpConnTick_state c now).imp id .inl)
  | @detach now =>
    refine .same ((detachState_rcv ..).trans (tcpConnTick_rcv c now)) ?_
    rcases detachState_state { tcpConnTick c now with orphan := true } now with hs | hs
    · exact .inl hs
    · exact (tcpConnTick_state c now).imp hs.trans fun e => .inl (hs.trans e)
  | sent own => exact .same (commitSubmitted_rcv ..) (.inr (h.choice own).commit_state)

/-! ## Runs -/

/-- A block, the bytes its reader peeked and did not consume yet, and all the
bytes consumed. -/
structure Receiver where
  conn : Conn
  peeked : List UInt8
  delivered : List UInt8

inductive RecvOp where
  | op (op : Op)
  | peek (capacity : Nat)

/-- A consume that succeeds removes what a peek of its length shows. -/
def Receiver.apply (t : Receiver) : RecvOp → Receiver
  | .peek capacity => { t with peeked := (tcpConnPeek t.conn capacity).2 }
  | .op (.consume len) =>
    if (tcpConnConsume t.conn len).1 = 0 then
      ⟨(tcpConnConsume t.conn len).2, t.peeked.drop len, t.delivered ++ (tcpConnPeek t.conn len).2⟩
    else t
  | .op op => { t with conn := op.apply t.conn }

/-- Segments that arrive once the peer's SYN was taken agree with `stream`,
counted from the number after the SYN's. -/
def Receiver.Admits (stream : List UInt8) (t : Receiver) : RecvOp → Prop
  | .op (.input h data _) =>
    t.conn.state.synced = true → Agrees stream t.delivered.length t.conn.rcv.irs h data
  | _ => True

/-- A connection from `tcp_conn_init` on, fed from one peer stream. -/
def recvMachine (stream : List UInt8) : Machine Receiver RecvOp where
  init t := Initial t.conn ∧ t.peeked = [] ∧ t.delivered = []
  step t op t' := t.Admits stream op ∧ t' = t.apply op

/-- What holds of a receiver between operations. -/
structure RecvInv (stream : List UInt8) (t : Receiver) : Prop where
  send : SendInv t.conn
  opening : t.conn.state.opening = true → t.delivered = []
  synced : t.conn.state.synced = true → RecvOk stream t.delivered.length t.conn.rcv
  side : Fresh t.conn.rcv ∨ RecvOk stream t.delivered.length t.conn.rcv
  delivered : t.delivered <+: stream
  peeked : t.peeked <+: stream.drop t.delivered.length
  buffered : t.peeked.length ≤ t.conn.rcv.rxCount

theorem RecvOk.receiveSyn (hf : Fresh c.rcv) (h : Header) : RecvOk stream 0 (receiveSyn c h).rcv := by
  have hbit (i : Nat) : bit (Tcp.receiveSyn c h).rcv i = false := by
    simp [bit, Tcp.receiveSyn, hf.rxValid, Bitmap.get]
  have hcount : (Tcp.receiveSyn c h).rcv.rxCount = 0 := hf.rxCount
  have heof : (Tcp.receiveSyn c h).rcv.eof = false := hf.eof
  have hpend : (Tcp.receiveSyn c h).rcv.remoteFinPending = false := hf.remoteFinPending
  refine ⟨?_, ?_, ?_, fun i hi => ?_, fun i _ hb => ?_, ?_, fun hp => ?_, fun he => ?_⟩
  · exact (Serial.pos_zero _).symm
  · rw [hcount, heof]
    exact (Serial.pos_zero _).symm
  · rw [hcount]
    exact Nat.zero_le _
  · rw [hcount] at hi
    exact absurd hi (Nat.not_lt_zero i)
  · exact absurd ((hbit _).symm.trans hb) Bool.false_ne_true
  · rw [hcount]
    exact Nat.zero_le _
  · exact absurd (hpend.symm.trans hp) Bool.false_ne_true
  · exact absurd (heof.symm.trans he) Bool.false_ne_true

variable {t : Receiver}

theorem RecvInv.move (h : RecvInv stream t) (hsend : SendInv c')
    (hm : RecvMove stream t.delivered.length t.conn c') : RecvInv stream { t with conn := c' } := by
  have closed {st : State} (h1 : st.synced = true) (h2 : st.opening = true) : False := by
    cases st <;> simp_all [State.synced, State.opening]
  cases hm with
  | same rcv state =>
    refine ⟨hsend, fun ho => ?_, fun hs => ?_, rcv.symm ▸ h.side, h.delivered, h.peeked, rcv.symm ▸ h.buffered⟩
    · rcases state with e | e | ⟨_, e⟩
      · rw [e] at ho
        cases ho
      · exact h.opening (e ▸ ho)
      · exact (closed e ho).elim
    rw [rcv]
    rcases state with e | e | ⟨e, _⟩
    · rw [e] at hs
      cases hs
    · exact h.synced (e ▸ hs)
    · exact h.synced e
  | syn hdr opening state rcv =>
    have hf : Fresh t.conn.rcv := h.send.fresh (handshake_of_opening opening)
    have hok : RecvOk stream t.delivered.length c'.rcv := by
      rw [h.opening opening, rcv]
      exact .receiveSyn hf hdr
    refine ⟨hsend, fun ho => (closed state ho).elim, fun _ => hok, .inr hok, h.delivered, h.peeked, ?_⟩
    have hbuf := h.buffered
    rw [hf.rxCount] at hbuf
    exact hbuf.trans (Nat.zero_le _)
  | data state state' ok count =>
    exact ⟨hsend, fun ho => (closed state' ho).elim, fun _ => ok, .inr ok, h.delivered, h.peeked,
      h.buffered.trans count⟩

theorem tcpConnConsume_cases (c : Conn) (len : Nat) :
    (tcpConnConsume c len).1 ≠ 0 ∧ (tcpConnConsume c len).2 = c ∧ c.rcv.rxCount < len ∨
      (tcpConnConsume c len).1 = 0 ∧ len ≤ c.rcv.rxCount ∧
        ((tcpConnConsume c len).2.rcv = c.rcv ∧ len = 0 ∨ (tcpConnConsume c len).2.rcv = consumed c.rcv len) := by
  unfold tcpConnConsume
  split
  · rename_i hlt
    exact .inl ⟨by simp, rfl, hlt⟩
  rename_i hle
  have hle : len ≤ c.rcv.rxCount := Nat.le_of_not_lt hle
  split
  · rename_i h0
    exact .inr ⟨rfl, hle, .inl ⟨rfl, by simpa using h0⟩⟩
  refine .inr ⟨rfl, hle, .inr ?_⟩
  have hclear := clearBits_frame c.rcv len
  have hr : { clearBits c.rcv len with
      rxHead := ((clearBits c.rcv len).rxHead + len) % TCP_RXBUF_MAX
      rxCount := (clearBits c.rcv len).rxCount - len
      rxSequence := (clearBits c.rcv len).rxSequence + UInt32.ofNat len } = consumed c.rcv len := by
    unfold consumed
    rw [hclear]
  dsimp only
  split <;> exact hr

/-- What a peek shows of an open connection's stream. -/
theorem RecvOk.peek (h : RecvOk stream n c.rcv) (capacity : Nat) :
    (tcpConnPeek c capacity).2 = (stream.drop n).take (min c.rcv.rxCount capacity) := by
  unfold tcpConnPeek
  split
  · rename_i h0
    simp [show capacity = 0 by simpa using h0]
  dsimp only
  split
  · rename_i h0
    simp [show min c.rcv.rxCount capacity = 0 by simpa using h0]
  · exact h.read (Nat.min_le_left _ _)

theorem Fresh.peek (h : Fresh c.rcv) (capacity : Nat) : (tcpConnPeek c capacity).2 = [] := by
  unfold tcpConnPeek
  split
  · rfl
  rw [h.rxCount, Nat.zero_min]
  rfl

theorem RecvInv.consume (h : RecvInv stream t) (len : Nat) : RecvInv stream (t.apply (.op (.consume len))) := by
  have hsend := h.send.apply (.consume len)
  have hstate : (tcpConnConsume t.conn len).2.state = t.conn.state := by
    unfold tcpConnConsume
    dsimp only
    split_ifs <;> rfl
  simp only [Receiver.apply]
  rcases tcpConnConsume_cases t.conn len with ⟨hne, _, _⟩ | ⟨h0, hle, hrcv⟩
  · rw [if_neg hne]
    exact h
  rw [if_pos h0]
  rcases h.side with hf | hok
  · -- nothing was received, so nothing is consumed
    have hlen : len = 0 := by
      rw [hf.rxCount] at hle
      exact Nat.le_zero.1 hle
    have hrcv' : (tcpConnConsume t.conn len).2.rcv = t.conn.rcv := by simp [hlen, tcpConnConsume]
    have hdel : t.delivered ++ (tcpConnPeek t.conn len).2 = t.delivered := by
      rw [hf.peek, append_nil]
    rw [hdel, hlen, drop_zero, ← hlen]
    exact ⟨hsend, hstate ▸ h.opening, by rw [hstate, hrcv']; exact h.synced, .inl (hrcv' ▸ hf), h.delivered,
      h.peeked, hrcv' ▸ h.buffered⟩
  have hpeek := hok.peek len
  rw [Nat.min_eq_right hle] at hpeek
  have hlength : (t.delivered ++ (tcpConnPeek t.conn len).2).length = t.delivered.length + len := by
    have := hok.within
    rw [length_append, hpeek, length_take, length_drop]
    omega
  have hok' : RecvOk stream (t.delivered.length + len) (tcpConnConsume t.conn len).2.rcv := by
    rcases hrcv with ⟨e, rfl⟩ | e
    · rwa [e]
    rw [e]
    exact hok.consumed hle
  refine ⟨hsend, fun ho => ?_, fun _ => ?_, .inr ?_, ?_, ?_, ?_⟩
  · -- before the SYN nothing is buffered
    rw [hstate] at ho
    have hf := h.send.fresh (handshake_of_opening ho)
    rw [hf.peek, append_nil]
    exact h.opening ho
  · rwa [hlength]
  · rwa [hlength]
  · have hpre := prefix_iff_eq_take.1 h.delivered
    rw [hpeek]
    nth_rewrite 1 [hpre]
    rw [← take_add]
    exact take_prefix _ _
  · rw [hlength, ← drop_drop]
    exact h.peeked.drop len
  have hbuf := h.buffered
  rw [length_drop]
  rcases hrcv with ⟨e, rfl⟩ | e <;> rw [e]
  · exact hbuf
  · exact Nat.sub_le_sub_right hbuf len

theorem RecvInv.apply (h : RecvInv stream t) {op : RecvOp} (ha : t.Admits stream op) :
    RecvInv stream (t.apply op) := by
  cases op with
  | peek capacity =>
    refine ⟨h.send, h.opening, h.synced, h.side, h.delivered, ?_, ?_⟩
    all_goals
      simp only [Receiver.apply]
      rcases h.side with hf | hok
    · rw [hf.peek]
      exact nil_prefix
    · rw [hok.peek]
      exact take_prefix _ _
    · rw [hf.peek]
      exact Nat.zero_le _
    · rw [hok.peek, length_take]
      exact (Nat.min_le_left _ _).trans (Nat.min_le_left _ _)
  | op op =>
    cases op with
    | consume len => exact h.consume len
    | input hdr data now => exact h.move (h.send.apply _) (.tcpConnInput h.synced ha now)
    | tick _ | queue _ | shutdown | detach _ | prepare _ | commit _ _ =>
      exact h.move (h.send.apply _) (.apply h.send _ (by simp) (by simp))

theorem receiver_inv (h : (recvMachine stream).Reach t) : RecvInv stream t := by
  refine h.invariant (fun t hi => ?_) fun t op t' hi hs => ?_
  · obtain ⟨hinit, hp, hd⟩ := hi
    have hsend := Initial.sendInv hinit
    have hst : t.conn.state.opening = true := by
      obtain ⟨tuple, generation, isn, mtu, active, now, hinit⟩ := hinit
      simp only [tcpConnInit, Option.ite_none_left_eq_some, Option.some.injEq] at hinit
      rw [← hinit.2]
      cases active <;> rfl
    have hf := hsend.fresh (handshake_of_opening hst)
    refine ⟨hsend, fun _ => hd, fun hs => ?_, .inl hf, ?_, ?_, ?_⟩
    · cases e : t.conn.state <;> simp_all [State.opening, State.synced]
    · rw [hd]
      exact nil_prefix
    · rw [hp]
      exact nil_prefix
    · rw [hp]
      exact Nat.zero_le _
  · obtain ⟨hadm, rfl⟩ := hs
    exact hi.apply hadm

/-- A peek with room returns zero at end of file only. -/
theorem tcpConnPeek_eof {capacity : Nat} (hcap : 0 < capacity)
    (h : (tcpConnPeek c capacity).1 = 0) : c.rcv.rxCount = 0 ∧ c.rcv.eof = true := by
  unfold tcpConnPeek at h
  rw [if_neg (by simpa using hcap.ne')] at h
  dsimp only at h
  split at h
  · rename_i hn
    have hn : min c.rcv.rxCount capacity = 0 := by simpa using hn
    refine ⟨by omega, ?_⟩
    split at h
    · rename_i he
      exact absurd h (by simpa using he)
    split at h
    · assumption
    · cases h
  · rename_i hn
    exact absurd (Int.ofNat_eq_zero.1 h) (by simpa using hn)

/-- **The bytes read are the peer's stream.** Fix the bytes the peer sends,
with its FIN after the last one, and take any run from `tcp_conn_init` whose
segments, once the peer's SYN was taken, carry bytes and FINs of that stream
only (in any order, overlapping, repeated, outside the window, across the
wrap). Then everything consumed is a prefix of the stream, whose first byte
is numbered `irs + 1`; a consume of no more than was peeked and not consumed
yet succeeds and removes exactly those bytes; and a peek with room returns
zero only when the whole stream has been consumed. -/
theorem recv_stream {stream : List UInt8} {t : Receiver} (h : (recvMachine stream).Reach t) :
    t.delivered <+: stream ∧
    (∀ len ≤ t.peeked.length, (tcpConnConsume t.conn len).1 = 0 ∧
      (t.apply (.op (.consume len))).delivered = t.delivered ++ t.peeked.take len) ∧
    ∀ capacity, 0 < capacity → (tcpConnPeek t.conn capacity).1 = 0 → t.delivered = stream := by
  have hinv := receiver_inv h
  refine ⟨hinv.delivered, fun len hlen => ?_, fun capacity hcap hpeek => ?_⟩
  · rcases tcpConnConsume_cases t.conn len with ⟨_, _, hlt⟩ | ⟨h0, hle, _⟩
    · exact absurd (hlen.trans hinv.buffered) (Nat.not_le.2 hlt)
    refine ⟨h0, ?_⟩
    simp only [Receiver.apply]
    rw [if_pos h0]
    rcases hinv.side with hf | hok
    · have hp : t.peeked = [] := by
        have hbuf := hinv.buffered
        rw [hf.rxCount] at hbuf
        exact length_eq_zero_iff.1 (Nat.le_zero.1 hbuf)
      rw [hf.peek, hp, take_nil]
    · rw [hok.peek, Nat.min_eq_right hle]
      have hpre := prefix_iff_eq_take.1 hinv.peeked
      rw [hpre, take_take, Nat.min_eq_left hlen]
  obtain ⟨hcount, heof⟩ := tcpConnPeek_eof hcap hpeek
  rcases hinv.side with hf | hok
  · exact nomatch hf.eof.symm.trans heof
  have hend := hok.eof heof
  rw [hcount] at hend
  exact hinv.delivered.eq_of_length hend

theorem Receiver.reach_apply (h : (recvMachine stream).Reach t) (op : RecvOp)
    (ha : t.Admits stream op) : (recvMachine stream).Reach (t.apply op) :=
  .step h ⟨ha, rfl⟩

/-- A segment of the sample peer. -/
def peerHeader (sequence : UInt32) (flags : UInt8) : Header :=
  { source := 2, destination := 1, sequence, acknowledgment := 1, flags }

/-- An active opener past its handshake, the peer's initial number `500`. -/
def openedReceiver : Receiver :=
  let c := (tcpConnInit { localPort := 1, remotePort := 2 } 1 0 1500 true 0).getD {}
  ((Receiver.apply ⟨c, [], []⟩ (.op (.prepare none))).apply (.op (.commit (synAction c) true))).apply
    (.op (.input (peerHeader 500 (TCP_SYN ||| TCP_ACK)) [] 5))

theorem openedReceiver_reach (stream : List UInt8) : (recvMachine stream).Reach openedReceiver := by
  unfold openedReceiver
  refine Receiver.reach_apply (Receiver.reach_apply (Receiver.reach_apply (.init ⟨?_, rfl, rfl⟩) _ ?_) _ ?_) _ ?_
  · exact ⟨{ localPort := 1, remotePort := 2 }, 1, 0, 1500, true, 0, rfl⟩
  · trivial
  · trivial
  -- the SYN-ACK itself comes before the stream
  exact fun hs => absurd hs (by decide +kernel)

/-- It receives the stream `10, 11, 12`: the last two bytes and the FIN come
first, then the first two. -/
def filledReceiver : Receiver :=
  (openedReceiver.apply (.op (.input (peerHeader 502 (TCP_ACK ||| TCP_FIN)) [11, 12] 6))).apply
    (.op (.input (peerHeader 501 TCP_ACK) [10, 11] 7))

theorem filledReceiver_reach : (recvMachine [10, 11, 12]).Reach filledReceiver := by
  refine Receiver.reach_apply (Receiver.reach_apply (openedReceiver_reach _) _ ?_) _ ?_
  · intro _
    refine .of_segment (p := 1) (by decide +kernel) (by decide) (by decide) (fun i b hb => ?_) (fun _ => rfl)
    rw [Nat.add_comm]
    exact hb
  intro _
  refine .of_segment (p := 0) (by decide +kernel) (by decide +kernel) (by decide +kernel) (fun i b hb => ?_)
    (nofun)
  rw [Nat.zero_add]
  rcases i with _ | _ | i
  · exact hb
  · exact hb
  · simp at hb

/-- The reader takes them in two goes. -/
def readReceiver : Receiver :=
  (((filledReceiver.apply (.peek 2)).apply (.op (.consume 2))).apply (.peek 9)).apply (.op (.consume 1))

theorem readReceiver_reach : (recvMachine [10, 11, 12]).Reach readReceiver :=
  Receiver.reach_apply (Receiver.reach_apply (Receiver.reach_apply (Receiver.reach_apply filledReceiver_reach
    (.peek 2) trivial) (.op (.consume 2)) trivial) (.peek 9) trivial) (.op (.consume 1)) trivial

theorem recv_stream_three_bytes :
    (tcpConnPeek readReceiver.conn 1).1 = 0 ∧ readReceiver.delivered = [10, 11, 12] := by
  have heof : (tcpConnPeek readReceiver.conn 1).1 = 0 := by
    decide +kernel
  exact ⟨heof, (recv_stream readReceiver_reach).2.2 1 (by decide) heof⟩

end Fortress.Tcp
