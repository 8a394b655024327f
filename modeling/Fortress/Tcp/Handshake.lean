/-
Until the handshake ends nothing is received: the receive side of a block in
`LISTEN`, `SYN_SENT` or `SYN_RCVD` is as `tcp_conn_init` left it, but for the
peer's initial sequence number.
-/
import Fortress.Tcp.Frame

namespace Fortress.Tcp

/-- Nothing received yet. -/
structure Fresh (r : RecvSide) : Prop where
  rxHead : r.rxHead = 0
  rxCount : r.rxCount = 0
  rxValid : r.rxValid = fun _ => 0
  remoteFinPending : r.remoteFinPending = false
  eof : r.eof = false

/-- The receive side is untouched until the handshake ends. -/
def HandshakeFresh (c : Conn) : Prop := c.state.handshake = true → Fresh c.rcv

variable {c : Conn} {h : Header}

theorem Fresh.receiveSyn (hf : Fresh c.rcv) : Fresh (receiveSyn c h).rcv :=
  { hf with }

theorem HandshakeFresh.of_eq {c' : Conn} (h : HandshakeFresh c) (hrcv : c'.rcv = c.rcv)
    (hst : c'.state.handshake = true → c.state.handshake = true) : HandshakeFresh c' :=
  fun hs => hrcv ▸ h (hst hs)

theorem HandshakeFresh.of_state (h : c.state.handshake = false) : HandshakeFresh c :=
  fun hs => absurd (h.symm.trans hs) Bool.false_ne_true

theorem tcpConnTick_state (c : Conn) (now : UInt64) :
    (tcpConnTick c now).state = .closed ∨ (tcpConnTick c now).state = c.state := by
  refine tcpConnTick_cases (P := fun c' => c'.state = .closed ∨ c'.state = c.state) c now fun c' ht => ?_
  cases ht with
  | late | rests | drops | runs => exact .inr rfl
  | leaves | expires => exact .inl rfl

theorem HandshakeFresh.tick (h : HandshakeFresh c) (now : UInt64) : HandshakeFresh (tcpConnTick c now) := by
  rcases tcpConnTick_state c now with hs | hs
  · exact .of_state (hs ▸ rfl)
  · exact h.of_eq (tcpConnTick_rcv c now) fun e => hs ▸ e

theorem processAck_handshake (c : Conn) (h : Header) (len : Nat) :
    (processAck c h len).state.handshake = c.state.handshake := by
  rw [processAck_state]
  split <;> simp

theorem receiveData_handshake (c : Conn) (h : Header) (data : List UInt8) :
    (receiveData c h data).state.handshake = c.state.handshake := by
  rcases receiveData_state c h data with hs | hs <;> simp [hs]

theorem inputAck_handshake {len : Nat} (hst : c.state = .synRcvd ∨ c.state.handshake = false) :
    (inputAck c h len).state.handshake = false := by
  unfold inputAck
  split_ifs with h1 h2
  · rw [processAck_handshake]
    rfl
  · rw [processAck_handshake]
    exact hst.resolve_left fun e => h1 (by simp [e])
  · exact hst.resolve_left fun e => h1 (by simp [e])

theorem HandshakeFresh.input (hc : HandshakeFresh c) (h : Header) (data : List UInt8)
    (now : UInt64) : HandshakeFresh (inputState c h data now) := by
  refine inputState_cases c h data now fun c' hin => ?_
  cases hin with
  | stay | answer | synAgain | finAgain => exact hc
  | timeWait hs => exact .of_state (by rw [hs]; rfl)
  | syn hs =>
    intro _
    exact (hc (by rw [hs]; rfl)).receiveSyn
  | refused | opens | synAcked => exact .of_state rfl
  | crosses hs =>
    intro _
    rw [simultaneousOpen_rcv]
    exact (hc (by rw [hs]; rfl)).receiveSyn
  | finAcked => exact hc.of_eq (processAck_frame c h _).rcv fun e => processAck_handshake c h _ ▸ e
  | segment hs seg =>
    have hst := (State.synced_cases hs).2.2
    cases seg with
    | quiet | refuse => exact hc
    | reset => exact .of_state rfl
    | accept =>
      unfold acceptSegment
      dsimp only
      split
      · exact .of_state ((receiveData_handshake _ _ _).trans (inputAck_handshake hst))
      · exact .of_state (inputAck_handshake hst)

theorem detachState_state (c : Conn) (now : UInt64) :
    (detachState c now).state = .closed ∨ (detachState c now).state = c.state := by
  unfold detachState
  split <;> simp_all

theorem commitNew_state_cases (c : Conn) (a : Action) :
    (commitNew c a).state = c.state ∨ (commitNew c a).state.handshake = false := by
  unfold commitNew
  dsimp only
  split_ifs
  · exact .inr rfl
  · exact .inr rfl
  · exact .inl rfl

/-- A committed action moves the state when it is our FIN, and then past the
handshake. -/
theorem commitSubmitted_state (c : Conn) (a : Action) :
    (commitSubmitted c a).2.state = c.state ∨ (commitSubmitted c a).2.state.handshake = false := by
  have hb := commitSubmitted_cases c a
  generalize (commitSubmitted c a).2 = c' at hb ⊢
  cases hb with
  | reset | ack | retx | probe => exact .inl rfl
  | new | newProbe => exact commitNew_state_cases (ackSent c a) a

/-- Every operation keeps the receive side untouched until the handshake
ends. -/
theorem HandshakeFresh.apply (hc : HandshakeFresh c) (op : Op) : HandshakeFresh (op.apply c) := by
  refine op.apply_cases c fun c' hact => ?_
  cases hact with
  | idle | queue | shutdown | prepare | abandon => exact hc
  | input => exact (hc.tick _).input _ _ _
  | tick now => exact hc.tick now
  | consume _ _ _ some =>
    intro hs
    rw [(hc hs).rxCount] at some
    cases some
  | @detach now =>
    rcases detachState_state { tcpConnTick c now with orphan := true } now with hs | hs
    · exact .of_state (by rw [hs]; rfl)
    · exact (hc.tick now).of_eq (detachState_rcv ..) fun e => hs ▸ e
  | @sent a =>
    rcases commitSubmitted_state (changed c) a with hs | hs
    · exact hc.of_eq (commitSubmitted_rcv ..) fun e => hs ▸ e
    · exact .of_state hs

theorem Initial.handshakeFresh (h : Initial c) : HandshakeFresh c := by
  obtain ⟨tuple, generation, isn, mtu, active, now, h⟩ := h
  simp only [tcpConnInit, Option.ite_none_left_eq_some, Option.some.injEq] at h
  obtain ⟨-, rfl⟩ := h
  exact fun _ => ⟨rfl, rfl, rfl, rfl, rfl⟩

end Fortress.Tcp
