/-
What each handler of the TCP engine leaves alone, and the operations of a
connection as one step function.

The frame lemmas are simp lemmas: a proof about the send side never looks
into the receive path, nor one about the receive side into the congestion
control.
-/
import Fortress.Lib.Machine
import Fortress.Tcp.Tcb

namespace Fortress.Tcp

/-! ## Flags -/

theorem has_or (f a b : UInt8) : has f (a ||| b) = (has f a || has f b) := by
  unfold has
  rw [Bool.eq_iff_iff]
  simp only [bne_iff_ne, Bool.or_eq_true, ne_eq, ← UInt8.toBitVec_inj, UInt8.toBitVec_and,
    UInt8.toBitVec_or, BitVec.and_or_distrib_left]
  rw [← not_and_or]
  simp [BitVec.or_eq_zero_iff]

/-! ## The send side -/

variable (c : Conn) (h : Header) {P : Conn → Prop} {now : UInt64} {c1 c2 c3 : Conn}

@[simp] theorem changed_snd : (changed c).snd = c.snd := rfl
@[simp] theorem changed_state : (changed c).state = c.state := rfl
@[simp] theorem changed_rcv : (changed c).rcv = c.rcv := rfl
@[simp] theorem changed_actionPending : (changed c).out.actionPending = false := rfl

variable (len : Nat)

@[simp] theorem resetReply_snd : (resetReply c h len).snd = c.snd := rfl
@[simp] theorem resetReply_state :
    (resetReply c h len).state = c.state := rfl

@[simp] theorem fail_state (e : Int) (b : Bool) : (fail c e b).state = .closed := rfl

@[simp] theorem timewait_snd : (timewait c).snd = c.snd := rfl
@[simp] theorem timewait_state : (timewait c).state = .timeWait := rfl

@[simp] theorem updateWindow_snd : (updateWindow c h).snd = c.snd := by
  unfold updateWindow
  dsimp only
  split_ifs <;> rfl

@[simp] theorem updateWindow_state : (updateWindow c h).state = c.state := by
  unfold updateWindow
  dsimp only
  split_ifs <;> rfl

/-- Where the ack of our FIN leads. -/
def finAckState : State → State
  | .finWait1 => .finWait2
  | .closing => .timeWait
  | .lastAck => .closed
  | st => st

@[simp] theorem ackFin_snd : (ackFin c).snd = c.snd := by
  unfold ackFin
  split <;> rfl

@[simp] theorem ackFin_state : (ackFin c).state = finAckState c.state := by
  unfold ackFin
  cases hs : c.state <;> simp [finAckState, hs]

@[simp] theorem ackNew_snd (ack : UInt32) : (ackNew c ack).snd = ackSend c.snd ack := by
  unfold ackNew
  split <;> simp

theorem ackNew_state (ack : UInt32) : (ackNew c ack).state =
      if c.snd.finSent && ack == c.snd.finSequence + 1 then finAckState c.state else c.state := by
  unfold ackNew
  split <;> simp

/-- The ack moves the send side exactly when it is past `snd_una`. -/
theorem processAck_snd : (processAck c h len).snd =
      if tcpSeqBefore c.snd.sndUna h.acknowledgment then ackSend c.snd h.acknowledgment else c.snd := by
  unfold processAck
  simp only [updateWindow_snd]
  split_ifs <;> simp

theorem processAck_state : (processAck c h len).state =
      if tcpSeqBefore c.snd.sndUna h.acknowledgment && c.snd.finSent &&
          h.acknowledgment == c.snd.finSequence + 1 then finAckState c.state else c.state := by
  unfold processAck
  simp only [updateWindow_snd]
  by_cases hb : tcpSeqBefore c.snd.sndUna h.acknowledgment = true
  · rw [if_pos hb, ackNew_state]
    simp [hb]
  · simp only [hb, Bool.false_and, Bool.false_eq_true, if_false]
    split_ifs <;> simp

/-- Where the peer's FIN leads. -/
def finState : State → State
  | .established => .closeWait
  | .finWait1 => .closing
  | .finWait2 => .timeWait
  | st => st

@[simp] theorem receivedFin_snd : (receivedFin c).snd = c.snd := by
  unfold receivedFin
  dsimp only
  split
  · rfl
  · split <;> rfl

theorem receivedFin_state : (receivedFin c).state = c.state ∨ (receivedFin c).state = finState c.state := by
  unfold receivedFin
  split
  · exact .inl rfl
  right
  cases c.state <;> simp [finState]

variable (data : List UInt8)

@[simp] theorem receiveData_snd : (receiveData c h data).snd = c.snd := by
  unfold receiveData
  split_ifs <;> simp

theorem receiveData_state :
    (receiveData c h data).state = c.state ∨ (receiveData c h data).state = finState c.state := by
  unfold receiveData
  split_ifs
  · exact .inl rfl
  all_goals exact receivedFin_state _

@[simp] theorem inputTimeWait_state (now : UInt64) : (inputTimeWait c h len now).state = c.state := by
  unfold inputTimeWait
  split <;> rfl

/-! ## States -/

/-- The states before the handshake ends. -/
def State.handshake : State → Bool
  | .listen | .synSent | .synRcvd => true
  | _ => false

@[simp] theorem handshake_finAckState (st : State) : (finAckState st).handshake = st.handshake := by
  cases st <;> rfl

@[simp] theorem handshake_finState (st : State) : (finState st).handshake = st.handshake := by
  cases st <;> rfl

/-- The peer's SYN was taken, and the connection is open. -/
def State.synced : State → Bool
  | .closed | .listen | .synSent => false
  | _ => true

theorem State.synced_cases {st : State} (h : st.synced = true) :
    st ≠ .closed ∧ st ≠ .listen ∧ (st = .synRcvd ∨ st.handshake = false) := by
  cases st <;> simp_all [State.synced, State.handshake]

/-- Our FIN was sent, and the connection is not closed yet. -/
def State.finishing : State → Bool
  | .finWait1 | .finWait2 | .closing | .lastAck | .timeWait => true
  | _ => false

/-! ## Segments -/

/-- What `tcp_conn_input` makes of a segment once the connection is past its
special cases. -/
inductive Segment (c : Conn) (h : Header) (data : List UInt8) : Conn → Prop
  | quiet (b : Bool) : Segment c h data { c with out.ackPending := b }
  | reset : Segment c h data (fail c TCP_RESET false)
  | refuse (state : c.state = .synRcvd) : Segment c h data (resetReply c h data.length)
  | accept (acceptable : acceptable c.rcv h data.length = true)
      (plain : has h.flags (TCP_RST ||| TCP_SYN ||| TCP_URG) = false) (ack : has h.flags TCP_ACK = true)
      (syn : c.state = .synRcvd → c.snd.synSent = true ∧ h.acknowledgment = c.snd.sndNxt)
      (nxt : tcpSeqBefore c.snd.sndNxt h.acknowledgment = false) : Segment c h data (acceptSegment c h data)

theorem inputSegment_cases : Segment c h data (inputSegment c h data) := by
  unfold inputSegment
  dsimp only
  split_ifs with h1 h2 h3 h4 h5 h6 h7 h8
  · exact .quiet true
  · exact .quiet c.out.ackPending
  · exact .reset
  · exact .quiet true
  · exact .quiet true
  · exact .quiet c.out.ackPending
  · simp only [Bool.and_eq_true, beq_iff_eq] at h7
    exact .refuse h7.1
  · exact .quiet true
  simp only [Bool.or_eq_true, Bool.not_eq_true', not_or, Bool.not_eq_false, Bool.not_eq_true] at h3 h5 h6
  refine .accept (by simpa using h1) ?_ h6.1 (fun hs => ?_) ?_
  · rw [has_or, has_or, h3, h5, h6.2]
    rfl
  · simpa [hs] using h7
  · simp only [Bool.or_eq_true, not_or, Bool.not_eq_true] at h8
    exact h8.1

/-- What `tcp_conn_input` makes of a segment past its guard and its tick, by the state it meets. -/
inductive Inputs (c : Conn) (h : Header) (data : List UInt8) (now : UInt64) : Conn → Prop
  | stay : Inputs c h data now c
  | answer (state : c.state = .closed ∨ c.state = .listen ∨ c.state = .synSent) :
      Inputs c h data now (resetReply c h data.length)
  | timeWait (state : c.state = .timeWait) {d : UInt64}
      (deadline : d = deadline now TCP_TIMEWAIT_MS ∨ d = c.timers.timewait) :
      Inputs c h data now { c with out.ackPending := true, timers.timewait := d }
  | syn (state : c.state = .listen) : Inputs c h data now { receiveSyn c h with
      state := .synRcvd, synAck := true
      timers := { c.timers with handshake := Tcp.deadline now TCP_HANDSHAKE_MS } }
  | refused (state : c.state = .synSent) : Inputs c h data now (fail c TCP_RESET false)
  | opens (state : c.state = .synSent) (acks : acksSyn c h = true) :
      Inputs c h data now { establish (receiveSyn c h) h.acknowledgment with out.ackPending := true }
  | crosses (state : c.state = .synSent) : Inputs c h data now (simultaneousOpen (receiveSyn c h))
  | synAcked (state : c.state = .synRcvd) (acks : acksSyn c h = true) :
      Inputs c h data now { establish c h.acknowledgment with out.ackPending := true }
  | synAgain (state : c.state = .synRcvd) : Inputs c h data now
      { c with flow := { c.flow with retransmitPending := true, retransmitTimeout := false } }
  | finAcked (state : c.state.synced = true) (again : isFinAgain c h data.length = true)
      (ack : has h.flags TCP_ACK = true) (flight : h.acknowledgment - c.snd.sndUna ≤ c.snd.sndNxt - c.snd.sndUna) :
      Inputs c h data now { processAck c h data.length with out.ackPending := true }
  | finAgain (state : c.state.synced = true) : Inputs c h data now { c with out.ackPending := true }
  | segment {c' : Conn} (state : c.state.synced = true) (seg : Segment c h data c') : Inputs c h data now c'

theorem inputState_inputs (now : UInt64) : Inputs c h data now (inputState c h data now) := by
  unfold inputState
  split
  · rename_i hs
    split
    · exact .answer (.inl hs)
    · exact .stay
  · rename_i hs
    unfold inputTimeWait
    split
    · refine .timeWait hs ?_
      split
      · exact .inl rfl
      · exact .inr rfl
    · exact .stay
  · rename_i hs
    unfold inputListen
    split_ifs
    · exact .stay
    · exact .answer (.inr (.inl hs))
    · exact .syn hs
    · exact .stay
  · rename_i hs
    unfold inputSynSent
    split_ifs with h1 h2 h3 h4 h5
    · exact .refused hs
    · exact .stay
    · exact .answer (.inr (.inr hs))
    · exact .stay
    · exact .opens hs h5
    · exact .crosses hs
  have hst : c.state.synced = true := by
    cases hs : c.state <;> simp_all [State.synced]
  split_ifs with h1 h2
  · simp only [isSynAgain, Bool.and_eq_true, beq_iff_eq] at h1
    have hs : c.state = .synRcvd := h1.1.1.1.1
    unfold inputSynAgain
    split_ifs with h3 h4
    · exact .synAcked hs h3
    · exact .synAgain hs
    · exact .stay
  · unfold inputFinAgain
    split
    · rename_i hack
      rw [Bool.and_eq_true, decide_eq_true_eq] at hack
      exact .finAcked hst h2 hack.1 hack.2
    · exact .finAgain hst
  · exact .segment hst (inputSegment_cases c h data)

theorem inputState_cases (c : Conn) (h : Header) (data : List UInt8) (now : UInt64)
    (hp : ∀ c', Inputs c h data now c' → P c') : P (inputState c h data now) :=
  hp _ (inputState_inputs c h data now)

/-- What booking a sent action does to the block. -/
inductive Booked (c : Conn) (a : Action) : Conn → Prop
  | reset : Booked c a (commitReset c)
  | ack : Booked c a (ackSent c a)
  | retx : Booked c a (commitRetx (ackSent c a) a)
  | new (kind : a.kind = .new) : Booked c a (commitNew (ackSent c a) a)
  | probe : Booked c a (commitProbe (ackSent c a))
  | newProbe (kind : a.kind = .probe) : Booked c a (commitProbe (commitNew (ackSent c a) a))

theorem commitSubmitted_cases (a : Action) : Booked c a (commitSubmitted c a).2 := by
  unfold commitSubmitted
  dsimp only
  split
  · exact .reset
  split
  · exact .retx
  split
  · exact .ack
  cases hk : a.kind with
  | probe =>
    generalize (ActionKind.probe == .new || _) = new
    cases new
    · exact .probe
    · exact .newProbe hk
  | new => exact .new hk
  | ack | retx | reset => exact .ack

/-- What a tick makes of the block, by the state it meets. -/
inductive Ticks (c : Conn) (now : UInt64) : Conn → Prop
  | late (clock : now < c.nowMs) : Ticks c now c
  | rests (state : c.state = .closed ∨ c.state = .timeWait)
      (quiet : c.state = .closed → (c.out.resetPending && due c.timers.user now) = false) :
      Ticks c now { changed c with nowMs := now }
  | drops (state : c.state = .closed) (due : due c.timers.user now = true) :
      Ticks c now { changed c with nowMs := now, out := { (changed c).out with resetPending := false } }
  | leaves (state : c.state = .timeWait) (due : c.timers.timewait ≤ now) : Ticks c now
      { changed c with nowMs := now, state := .closed, out := { (changed c).out with ackPending := false } }
  | expires (persist : UInt64) (live : c.state ≠ .closed ∧ c.state ≠ .timeWait) : Ticks c now
      (fail { changed c with nowMs := now, timers := { c.timers with persist } } TCP_TIMEOUT true)
  | runs (persist : UInt64) (pending timeout : Bool) (live : c.state ≠ .closed ∧ c.state ≠ .timeWait) :
      Ticks c now { changed c with
        nowMs := now, timers := { c.timers with persist }
        flow := { c.flow with retransmitPending := pending, retransmitTimeout := timeout } }

theorem tcpConnTick_ticks (now : UInt64) : Ticks c now (tcpConnTick c now) := by
  unfold tcpConnTick
  dsimp only [changed_state]
  split_ifs with h1 h2 h3 h4 h5 h6
  · exact .late h1
  · rw [Bool.and_eq_true] at h3
    exact .drops (by simpa using h2) h3.2
  · exact .rests (.inl (by simpa using h2)) fun _ => Bool.eq_false_iff.2 h3
  · exact .leaves (by simpa using h4) h5
  · have hs : c.state = .timeWait := by simpa using h4
    exact .rests (.inr hs) fun e => State.noConfusion (hs.symm.trans e)
  all_goals have hlive : c.state ≠ .closed ∧ c.state ≠ .timeWait := ⟨by simpa using h2, by simpa using h4⟩
  · exact .expires c.timers.persist hlive
  unfold tickSend
  dsimp only
  split
  · split
    · exact .expires _ hlive
    · exact .runs _ true true hlive
  · exact .runs _ c.flow.retransmitPending c.flow.retransmitTimeout hlive

theorem tcpConnTick_cases (c : Conn) (now : UInt64) (hp : ∀ c', Ticks c now c' → P c') : P (tcpConnTick c now) :=
  hp _ (tcpConnTick_ticks c now)

/-! ## Edits -/

/-- One change a handler makes to a block at the clock reading `now`, with the state it is made in. -/
inductive Edit (now : UInt64) (c : Conn) : Conn → Prop
  | ack (b : Bool) (state : c.state ≠ .listen) : Edit now c { c with out.ackPending := b }
  | reply (h : Header) (len : Nat) (state : c.state.finishing = false) : Edit now c (resetReply c h len)
  | dropReset : Edit now c { c with out.resetPending := false }
  | wait {d : UInt64} (deadline : d = deadline now TCP_TIMEWAIT_MS ∨ d = c.timers.timewait) :
      Edit now c { c with timers.timewait := d }
  | syn (h : Header) (d : UInt64) (state : c.state = .listen) :
      Edit now c { receiveSyn c h with state := .synRcvd, synAck := true, timers := { c.timers with handshake := d } }
  | peer (h : Header) (state : c.state = .synSent) : Edit now c (receiveSyn c h)
  | crosses (state : c.state = .synSent) : Edit now c { c with state := .synRcvd, synAck := true }
  | synAck : Edit now c
      { c with snd.retx := c.snd.retx.modifyHead fun r => { r with flags := TCP_SYN ||| TCP_ACK } }
  | fail {e : Int} (b : Bool) (neg : e < 0) : Edit now c (fail c e b)
  | pace (flow : Flow) (persist rto : UInt64) :
      Edit now c { c with flow, timers := { c.timers with persist, rto } }
  | acked (ack : UInt32) (flow : Flow) (rto : UInt64) :
      Edit now c { c with snd := ackSend c.snd ack, flow, timers := { c.timers with rto } }
  | finAcked (d : UInt64) (state : c.state = .finWait1) :
      Edit now c { c with state := .finWait2, timers.finwait2 := d }
  | waits (state : c.state = .closing ∨ c.state = .finWait2) : Edit now c (timewait c)
  | closes (b : Bool) : Edit now c { c with state := .closed, out.ackPending := b }
  | opens : Edit now c { c with state := .established, timers.handshake := 0 }
  | receive (rcv : RecvSide) : Edit now c { c with rcv }
  | finReceived {st : State}
      (state : c.state = .established ∧ st = .closeWait ∨ c.state = .finWait1 ∧ st = .closing) :
      Edit now c { c with state := st }
  | user (wantFin : Bool) (d finwait2 : UInt64) (state : c.state ≠ .timeWait) :
      Edit now c { c with snd.wantFin := wantFin, timers := { c.timers with user := d, finwait2 } }

abbrev Edits (now : UInt64) : Conn → Conn → Prop := Relation.ReflTransGen (Edit now)

section Edits

variable {now : UInt64} {c c' : Conn}

theorem Edits.ne_listen (h : Edits now c c') (hst : c.state ≠ .listen) : c'.state ≠ .listen := by
  induction h with
  | refl => exact hst
  | tail _ e ih =>
    cases e with
    | ack | reply | dropReset | wait | peer | synAck | pace | acked | receive | user => exact ih
    | syn | crosses | fail | finAcked | waits | closes | opens => exact State.noConfusion
    | finReceived hs => rcases hs with ⟨_, rfl⟩ | ⟨_, rfl⟩ <;> exact State.noConfusion

theorem updateWindow_edits (c : Conn) (h : Header) : Edits now c (updateWindow c h) := by
  unfold updateWindow
  dsimp only
  split
  · split
    · exact .single (.pace ..)
    · exact .single (.pace _ c.timers.persist c.timers.rto)
  · exact .refl

theorem ackFin_edits (c : Conn) : Edits now c (ackFin c) := by
  unfold ackFin
  split
  · exact .single (.finAcked _ ‹_›)
  · exact .single (.waits (.inl ‹_›))
  · exact .single (.closes c.out.ackPending)
  · exact .refl

theorem ackNew_edits (c : Conn) (ack : UInt32) : Edits now c (ackNew c ack) := by
  unfold ackNew
  split
  · exact .head (.acked ack _ _) (ackFin_edits _)
  · exact .single (.acked ack _ _)

theorem processAck_edits (c : Conn) (h : Header) (len : Nat) : Edits now c (processAck c h len) := by
  have hw : Edits now c (updateWindow c h) := updateWindow_edits c h
  unfold processAck
  dsimp only
  split_ifs
  · exact hw.trans (ackNew_edits _ _)
  · exact hw.tail (.pace _ (updateWindow c h).timers.persist (updateWindow c h).timers.rto)
  · exact hw

theorem establish_edits (c : Conn) (ack : UInt32) : Edits now c (establish c ack) :=
  (ackNew_edits c ack).tail .opens

theorem inputAck_edits (c : Conn) (h : Header) (len : Nat) : Edits now c (inputAck c h len) := by
  unfold inputAck
  split_ifs
  · exact (establish_edits c _).trans (processAck_edits _ h len)
  · exact processAck_edits c h len
  · exact .refl

theorem receivedFin_edits (hst : c.state ≠ .listen) : Edits now c (receivedFin c) := by
  unfold receivedFin
  dsimp only
  split
  · exact .refl
  have htaken (r : RecvSide) : Edits now c { c with rcv := r, out.ackPending := true } :=
    .head (.ack true hst) (.single (.receive r))
  split
  · exact (htaken _).tail (.finReceived (.inl ⟨‹_›, rfl⟩))
  · exact (htaken _).tail (.finReceived (.inr ⟨‹_›, rfl⟩))
  · exact (htaken _).tail (.waits (.inr ‹_›))
  · exact htaken _

theorem receiveData_edits (hst : c.state ≠ .listen) (h : Header) (data : List UInt8) :
    Edits now c (receiveData c h data) := by
  have hfin (r : RecvSide) : Edits now c (receivedFin { c with rcv := r }) :=
    .head (.receive r) (receivedFin_edits hst)
  unfold receiveData
  split_ifs
  · exact .refl
  · exact (hfin _).tail (.ack true ((hfin _).ne_listen hst))
  · exact hfin _

theorem simultaneousOpen_edits (hs : c.state = .synSent) : Edits now c (simultaneousOpen c) := by
  unfold simultaneousOpen
  dsimp only
  split
  · exact ((Relation.ReflTransGen.single (.crosses hs)).tail .synAck).tail
      (.pace _ c.timers.persist c.timers.rto)
  · exact .single (.crosses hs)

theorem inputState_edits (c : Conn) (h : Header) (data : List UInt8) (now : UInt64) :
    Edits now c (inputState c h data now) := by
  refine inputState_cases c h data now fun c' hin => ?_
  cases hin with
  | stay => exact .refl
  | answer hs => exact .single (.reply h _ (by rcases hs with hs | hs | hs <;> rw [hs] <;> rfl))
  | timeWait hs hd => exact .tail (.single (.wait hd)) (.ack true (by simp [hs]))
  | syn hs => exact .single (.syn h _ hs)
  | refused => exact .single (.fail false (by decide))
  | opens hs => exact .tail (.head (.peer h hs) (establish_edits _ _)) (.ack true State.noConfusion)
  | crosses hs => exact .head (.peer h hs) (simultaneousOpen_edits hs)
  | synAcked => exact .tail (establish_edits c _) (.ack true State.noConfusion)
  | synAgain => exact .single (.pace _ c.timers.persist c.timers.rto)
  | finAcked hs =>
    have hack : Edits now c (processAck c h data.length) := processAck_edits ..
    exact hack.tail (.ack true (hack.ne_listen (State.synced_cases hs).2.1))
  | finAgain hs => exact .single (.ack true (State.synced_cases hs).2.1)
  | segment hs seg =>
    have hst := (State.synced_cases hs).2.1
    cases seg with
    | quiet b => exact .single (.ack b hst)
    | reset => exact .single (.fail false (by decide))
    | refuse hs => exact .single (.reply h _ (by rw [hs]; rfl))
    | accept =>
      have hack : Edits now c (inputAck c h data.length) := inputAck_edits ..
      unfold acceptSegment
      dsimp only
      split
      · exact hack.trans (receiveData_edits (hack.ne_listen hst) h data)
      · exact hack

/-- A tick that the clock admits drops the prepared action, sets the clock, and edits. -/
theorem tcpConnTick_edits (hn : c.nowMs ≤ now) : Edits now { changed c with nowMs := now } (tcpConnTick c now) := by
  refine tcpConnTick_cases c now fun c' ht => ?_
  cases ht with
  | late clock => exact absurd clock (UInt64.not_lt.2 hn)
  | rests => exact .refl
  | drops => exact .single .dropReset
  | leaves => exact .single (.closes false)
  | expires persist => exact .head (.pace c.flow persist c.timers.rto) (.single (.fail true (by decide)))
  | runs persist => exact .single (.pace _ persist c.timers.rto)

theorem detachState_edits (c : Conn) (now : UInt64) : Edits now c (detachState c now) := by
  unfold detachState
  split
  · exact .single (.closes c.out.ackPending)
  · exact .single (.fail _ (by decide))
  · exact .single (.fail _ (by decide))
  · exact .refl
  · exact .refl
  · exact .single (.user true _ c.timers.finwait2 (by simp [*]))
  · exact .single (.user true _ c.timers.finwait2 (by simp [*]))
  · exact .single (.user c.snd.wantFin _ _ (by simp [*]))
  · exact .single (.user c.snd.wantFin _ c.timers.finwait2 (by simp_all))

end Edits

/-! ## Frames -/

/-- Two blocks that differ in what an ack may touch only: the send side, the
flow control, the timers and the state. -/
structure AckFrame (c c' : Conn) : Prop where
  rcv : c'.rcv = c.rcv
  out : c'.out = c.out
  error : c'.error = c.error
  nowMs : c'.nowMs = c.nowMs
  orphan : c'.orphan = c.orphan

theorem AckFrame.trans (h : AckFrame c1 c2) (h' : AckFrame c2 c3) : AckFrame c1 c3 :=
  ⟨h'.rcv.trans h.rcv, h'.out.trans h.out, h'.error.trans h.error, h'.nowMs.trans h.nowMs,
    h'.orphan.trans h.orphan⟩

theorem updateWindow_frame : AckFrame c (updateWindow c h) := by
  unfold updateWindow
  dsimp only
  split_ifs <;> exact ⟨rfl, rfl, rfl, rfl, rfl⟩

theorem ackFin_frame : AckFrame c (ackFin c) := by
  unfold ackFin
  split <;> exact ⟨rfl, rfl, rfl, rfl, rfl⟩

theorem ackNew_frame (ack : UInt32) : AckFrame c (ackNew c ack) := by
  unfold ackNew
  split
  · refine AckFrame.trans ?_ (ackFin_frame _)
    exact ⟨rfl, rfl, rfl, rfl, rfl⟩
  · exact ⟨rfl, rfl, rfl, rfl, rfl⟩

theorem processAck_frame : AckFrame c (processAck c h len) := by
  have hw := updateWindow_frame c h
  unfold processAck
  dsimp only
  split_ifs
  · exact hw.trans (ackNew_frame _ _)
  · exact hw.trans ⟨rfl, rfl, rfl, rfl, rfl⟩
  · exact hw

theorem establish_frame (ack : UInt32) : AckFrame c (establish c ack) :=
  (ackNew_frame c ack).trans ⟨rfl, rfl, rfl, rfl, rfl⟩

theorem inputAck_frame : AckFrame c (inputAck c h len) := by
  unfold inputAck
  split_ifs
  · exact (establish_frame c _).trans (processAck_frame _ h len)
  · exact processAck_frame c h len
  · exact ⟨rfl, rfl, rfl, rfl, rfl⟩

@[simp] theorem establish_state (ack : UInt32) : (establish c ack).state = .established := rfl

/-- What no handler touches once the clock has been set, and the sign of the
error. -/
structure Keeps (c c' : Conn) : Prop where
  actionPending : c'.out.actionPending = c.out.actionPending
  error : c'.error = c.error ∨ c'.error < 0
  nowMs : c'.nowMs = c.nowMs
  orphan : c'.orphan = c.orphan

theorem Keeps.trans (h : Keeps c1 c2) (h' : Keeps c2 c3) : Keeps c1 c3 := by
  refine ⟨h'.actionPending.trans h.actionPending, ?_, h'.nowMs.trans h.nowMs, h'.orphan.trans h.orphan⟩
  rcases h'.error with e | e
  · rw [e]
    exact h.error
  · exact .inr e

theorem Keeps.refl : Keeps c c := ⟨rfl, .inl rfl, rfl, rfl⟩

theorem Edits.keeps {c c' : Conn} (h : Edits now c c') : Keeps c c' := by
  induction h with
  | refl => exact .refl c
  | tail _ e ih =>
    refine ih.trans ?_
    cases e with
    | fail _ neg => exact ⟨rfl, .inr neg, rfl, rfl⟩
    | _ => exact ⟨rfl, .inl rfl, rfl, rfl⟩

theorem inputState_keeps (now : UInt64) :
    Keeps c (inputState c h data now) := (inputState_edits c h data now).keeps

/-- A tick that the clock admits drops the prepared action and sets the
clock. -/
theorem tcpConnTick_keeps {c : Conn} (h : c.nowMs ≤ now) :
    Keeps { changed c with nowMs := now } (tcpConnTick c now) := (tcpConnTick_edits h).keeps

theorem tcpConnTick_of_lt {c : Conn} (h : ¬ c.nowMs ≤ now) : tcpConnTick c now = c := by
  rw [tcpConnTick, if_pos (by simpa using h)]

theorem detachState_keeps (now : UInt64) : Keeps c (detachState c now) :=
  (detachState_edits c now).keeps

theorem commitSubmitted_keeps (a : Action) : Keeps c (commitSubmitted c a).2 := by
  have hb := commitSubmitted_cases c a
  generalize (commitSubmitted c a).2 = c' at hb ⊢
  cases hb <;> exact ⟨rfl, .inl rfl, rfl, rfl⟩

/-! ## The receive side -/

@[simp] theorem simultaneousOpen_rcv : (simultaneousOpen c).rcv = c.rcv := by
  unfold simultaneousOpen
  dsimp only
  split <;> rfl

@[simp] theorem simultaneousOpen_state : (simultaneousOpen c).state = .synRcvd := by
  unfold simultaneousOpen
  dsimp only
  split <;> rfl

@[simp] theorem tcpConnTick_rcv (now : UInt64) : (tcpConnTick c now).rcv = c.rcv := by
  refine tcpConnTick_cases (P := fun c' => c'.rcv = c.rcv) c now fun c' ht => ?_
  cases ht <;> rfl

@[simp] theorem detachState_rcv (now : UInt64) : (detachState c now).rcv = c.rcv := by
  unfold detachState
  split <;> rfl

@[simp] theorem commitSubmitted_rcv (a : Action) : (commitSubmitted c a).2.rcv = c.rcv := by
  have hb := commitSubmitted_cases c a
  generalize (commitSubmitted c a).2 = c' at hb ⊢
  cases hb <;> rfl

/-! ## Runs of one connection -/

/-- What the owner of a block may do to it. -/
inductive Op where
  | input (h : Header) (data : List UInt8) (now : UInt64)
  | tick (now : UInt64)
  | queue (data : List UInt8)
  | consume (len : Nat)
  | shutdown
  | detach (now : UInt64)
  | prepare (scratch : Option Nat)
  | commit (a : Action) (submitted : Bool)

def Op.apply : Op → Conn
  | .input h data now => tcpConnInput c h data now
  | .tick now => tcpConnTick c now
  | .queue data => (tcpConnQueue c data).2
  | .consume len => (tcpConnConsume c len).2
  | .shutdown => (tcpConnShutdown c).2
  | .detach now => tcpConnDetach c now
  | .prepare scratch => (tcpConnPrepare c scratch).2.2
  | .commit a submitted => (tcpConnCommit c a submitted).2

/-- The clock reading an operation is given. -/
def Op.reading : Op → Option UInt64
  | .input _ _ now | .tick now | .detach now => some now
  | _ => none

/-- The action is the one prepared last, at this revision of the block. -/
structure Matches (c : Conn) (a : Action) : Prop where
  pending : c.out.actionPending = true
  generation : a.generation = c.generation
  revision : a.revision = c.revision
  same : sameAction a c.out.action = true

/-- What an operation makes of a block. Where it is refused, or has nothing to do, the block stays. -/
inductive Op.Acts (c : Conn) : Op → Conn → Prop
  | idle (op : Op) : Acts c op c
  | input {h : Header} {data : List UInt8} {now : UInt64} (admitted : admits c h data.length now = true)
      (clock : c.nowMs ≤ now) : Acts c (.input h data now) (inputState (tcpConnTick c now) h data now)
  | tick (now : UInt64) : Acts c (.tick now) (tcpConnTick c now)
  | queue (data : List UInt8) (tx : Nat → UInt8) (n : Nat) (state : c.state = .established ∨ c.state = .closeWait)
      (room : n ≤ TCP_TXBUF_MAX - c.snd.txCount) : Acts c (.queue data)
        { changed c with snd := { c.snd with tx, txCount := c.snd.txCount + n } }
  | consume (len : Nat) (rcv : RecvSide) (ack : Bool) (some : 0 < c.rcv.rxCount)
      (quiet : ack = c.out.ackPending ∨ c.state ≠ .closed) :
      Acts c (.consume len) { changed c with rcv, out := { (changed c).out with ackPending := ack } }
  | shutdown (state : c.state = .established ∨ c.state = .closeWait) :
      Acts c .shutdown { changed c with snd.wantFin := true }
  | detach {now : UInt64} (clock : c.nowMs ≤ now) :
      Acts c (.detach now) (detachState { tcpConnTick c now with orphan := true } now)
  | prepare (scratch : Option Nat) {a : Action} (free : c.out.actionPending = false) (next : nextAction c = .some a) :
      Acts c (.prepare scratch) { c with out := { c.out with action := a, actionPending := true } }
  | abandon (a : Action) : Acts c (.commit a false) (changed c)
  | sent {a : Action} (own : Matches c a) : Acts c (.commit a true) (commitSubmitted (changed c) a).2

theorem Op.acts (op : Op) : Op.Acts c op (op.apply c) := by
  have live (h : ¬(c.state != .established && c.state != .closeWait) = true) :
      c.state = .established ∨ c.state = .closeWait := by
    simpa [Decidable.or_iff_not_imp_left] using h
  cases op with
  | input h data now =>
    simp only [Op.apply, tcpConnInput]
    split
    · rename_i hadm
      refine .input hadm ?_
      simp only [admits, Bool.and_eq_true, decide_eq_true_eq] at hadm
      exact hadm.2
    · exact .idle _
  | tick now => exact .tick now
  | queue data =>
    simp only [Op.apply, tcpConnQueue]
    split_ifs
    all_goals first | exact .idle _ | exact .queue data _ _ (live ‹_›) (Nat.min_le_left _ _)
  | consume len =>
    simp only [Op.apply, tcpConnConsume]
    split_ifs with h1 h2 h3
    · exact .idle _
    · exact .idle _
    · simp only [beq_iff_eq] at h2
      refine .consume len _ true (by omega) (.inr ?_)
      simp only [Bool.and_eq_true, bne_iff_ne] at h3
      exact h3.2
    · simp only [beq_iff_eq] at h2
      exact .consume len _ c.out.ackPending (by omega) (.inl rfl)
  | shutdown =>
    simp only [Op.apply, tcpConnShutdown]
    split_ifs
    · exact .idle _
    · exact .idle _
    · exact .shutdown (live ‹_›)
  | detach now =>
    simp only [Op.apply, tcpConnDetach]
    split
    · exact .idle _
    · exact .detach (UInt64.not_lt.1 ‹_›)
  | prepare scratch =>
    simp only [Op.apply, tcpConnPrepare]
    split
    · exact .idle _
    split
    · exact .idle _
    split
    · exact .idle _
    rename_i hp _ a ha _
    exact .prepare scratch (by simpa using hp) ha
  | commit a submitted =>
    simp only [Op.apply, tcpConnCommit]
    split
    · exact .idle _
    rename_i hown
    simp only [Bool.or_eq_true, Bool.not_eq_true', bne_iff_ne, ne_eq, not_or, Bool.not_eq_false, not_not] at hown
    obtain ⟨⟨⟨hp, hg⟩, hr⟩, hs⟩ := hown
    cases submitted with
    | false => exact .abandon a
    | true => exact .sent ⟨hp, hg, hr, hs⟩

theorem Op.apply_cases (c : Conn) (op : Op) (h : ∀ c', Op.Acts c op c' → P c') : P (op.apply c) :=
  h _ (op.acts c)

/-- `tcp_conn_init` made the block. -/
def Initial : Prop :=
  ∃ tuple generation isn mtu active now, tcpConnInit tuple generation isn mtu active now = some c

/-- A connection under any sequence of operations. -/
def connMachine : Machine Conn Op where
  init := Initial
  step c op c' := c' = op.apply c

/-- The error of a block is none or negative. -/
def ErrorOk : Prop := c.error ≤ 0

theorem ErrorOk.keeps {c c' : Conn} (h : ErrorOk c) (hk : Keeps c c') : ErrorOk c' := by
  unfold ErrorOk at h ⊢
  rcases hk.error with e | e
  · rwa [e]
  · exact e.le

theorem ErrorOk.tick {c : Conn} (h : ErrorOk c) (now : UInt64) : ErrorOk (tcpConnTick c now) := by
  by_cases hn : c.nowMs ≤ now
  · exact ErrorOk.keeps (c := { changed c with nowMs := now }) h (tcpConnTick_keeps hn)
  · rwa [tcpConnTick_of_lt hn]

theorem ErrorOk.apply {c : Conn} (h : ErrorOk c) (op : Op) : ErrorOk (op.apply c) := by
  refine op.apply_cases c fun c' hact => ?_
  cases hact with
  | input => exact (h.tick _).keeps (inputState_keeps ..)
  | tick now => exact h.tick now
  | detach => exact ErrorOk.keeps (c := { tcpConnTick c _ with orphan := true }) (h.tick _) (detachState_keeps ..)
  | sent => exact ErrorOk.keeps (c := changed c) h (commitSubmitted_keeps ..)
  | idle | queue | consume | shutdown | prepare | abandon => exact h

/-- The next action, prepared and sent. -/
def Conn.sent : Conn :=
  let c := Op.apply c (.prepare (some TCP_TXBUF_MAX))
  Op.apply c (.commit c.out.action true)

theorem Conn.sent_reach {c : Conn} (h : connMachine.Reach c) : connMachine.Reach c.sent :=
  .step (i := .commit _ true) (.step (i := .prepare _) h rfl) rfl

/-- An active opener that sent its SYN and took the peer's SYN-ACK, with
initial sequence numbers `0xffffffff` and `500`. -/
def openedConn : Conn :=
  let c := (tcpConnInit { localPort := 1, remotePort := 2 } 1 0xffffffff 1500 true 0).getD {}
  Op.apply c.sent
    (.input { source := 2, destination := 1, sequence := 500, flags := TCP_SYN ||| TCP_ACK, window := 1000 } [] 5)

theorem openedConn_reach : connMachine.Reach openedConn :=
  .step (i := .input ..) (Conn.sent_reach
    (.init ⟨{ localPort := 1, remotePort := 2 }, 1, 0xffffffff, 1500, true, 0, rfl⟩)) rfl

end Fortress.Tcp
