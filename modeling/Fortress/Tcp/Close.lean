/-
How a connection closes, and what it still has to send when it has.

`FlagInv` says which pending output a state excludes. A block that enters
`CLOSED` with no ack pending, and with a reset pending only under a deadline
of one second, stays so until a segment comes in: `CloseOk`. Two paths break
it, an ack of our FIN that leaves an ACK pending and the detach of a listener
with a reset queued; `Op.leaks` names them.
-/
import Fortress.Tcp.Output

namespace Fortress.Tcp

/-! ## Pending output by state -/

structure FlagInv (c : Conn) : Prop where
  listen : c.state = .listen → c.out.ackPending = false
  reset : c.state.finishing = true → c.out.resetPending = false
  user : c.state = .timeWait → c.timers.user = 0

variable {c c' : Conn}

theorem FlagInv.congr (h : FlagInv c) (hst : c'.state = c.state)
    (hack : c.state = .listen → c'.out.ackPending = c.out.ackPending)
    (hreset : c.state.finishing = true → c'.out.resetPending = c.out.resetPending)
    (huser : c'.timers.user = c.timers.user) : FlagInv c' := by
  refine ⟨fun e => ?_, fun e => ?_, fun e => ?_⟩ <;> rw [hst] at e
  · exact (hack e).trans (h.listen e)
  · exact (hreset e).trans (h.reset e)
  · exact huser.trans (h.user e)

theorem FlagInv.of_state (h1 : c.state ≠ .listen) (h2 : c.state.finishing = false) : FlagInv c := by
  refine ⟨fun e => absurd e h1, fun e => ?_, fun e => ?_⟩
  · exact nomatch h2.symm.trans e
  rw [e] at h2
  cases h2

theorem FlagInv.edits {now : UInt64} (h : FlagInv c) (he : Edits now c c') : FlagInv c' := by
  induction he with
  | refl => exact h
  | tail _ e ih =>
    cases e with
    | ack _ hst => exact ⟨fun e => absurd e hst, ih.reset, ih.user⟩
    | reply _ _ hst =>
      refine ⟨ih.listen, fun e => absurd (hst.symm.trans e) Bool.false_ne_true, fun e => ?_⟩
      rw [resetReply_state] at e
      rw [e] at hst
      cases hst
    | dropReset => exact ⟨ih.listen, fun _ => rfl, ih.user⟩
    | wait | peer | synAck | pace | acked | receive => exact { ih with }
    | syn | crosses | fail | closes | opens => exact .of_state State.noConfusion rfl
    | finAcked _ hs => exact ⟨State.noConfusion, fun _ => ih.reset (by rw [hs]; rfl), State.noConfusion⟩
    | waits hs =>
      exact ⟨State.noConfusion, fun _ => ih.reset (by rcases hs with hs | hs <;> rw [hs] <;> rfl), fun _ => rfl⟩
    | finReceived hs =>
      rcases hs with ⟨_, rfl⟩ | ⟨hs, rfl⟩
      · exact .of_state State.noConfusion rfl
      · exact ⟨State.noConfusion, fun _ => ih.reset (by rw [hs]; rfl), State.noConfusion⟩
    | user _ _ _ hst => exact ⟨ih.listen, ih.reset, fun e => absurd e hst⟩

theorem FlagInv.tick (h : FlagInv c) (now : UInt64) : FlagInv (tcpConnTick c now) := by
  by_cases hn : c.nowMs ≤ now
  · exact FlagInv.edits (c := { changed c with nowMs := now }) { h with } (tcpConnTick_edits hn)
  · rwa [tcpConnTick_of_lt hn]

theorem commitRetx_timers (c : Conn) (a : Action) :
    ∃ d, (commitRetx c a).timers = { c.timers with rto := d } := ⟨_, rfl⟩

theorem commitProbe_timers (c : Conn) : ∃ d, (commitProbe c).timers = { c.timers with persist := d } := ⟨_, rfl⟩

variable {a : Action}

/-- Among the new segments the FIN alone carries the flag. -/
theorem Choice.fin_of_flag (h : Choice c a) (hk : a.kind = .new ∨ a.kind = .probe)
    (hf : has a.header.flags TCP_FIN = true) :
    (c.state = .established ∨ c.state = .closeWait) ∧ c.out.resetPending = false := by
  cases h with
  | fin hst hreset _ _ => exact ⟨hst, hreset⟩
  | reset | retx _ _ | ack => simp [ackAction, retxAction] at hk
  | syn hst _ =>
    cases hs : c.synAck <;> simp only [synAction, hs] at hf <;> cases hf
  | probe _ => exact absurd hf (by decide : ¬ has TCP_ACK TCP_FIN = true)
  | data _ _ _ _ => exact absurd hf (by decide : ¬ has (TCP_ACK ||| TCP_PSH) TCP_FIN = true)

/-- A sent FIN is the one way into the finishing states, and it is not chosen
while a reset waits. -/
theorem FlagInv.commitNew (h : FlagInv c) (hc : Choice c a)
    (hk : a.kind = .new ∨ a.kind = .probe) : FlagInv (commitNew (ackSent (changed c) a) a) := by
  by_cases hf : has a.header.flags TCP_FIN = true
  · obtain ⟨_, hreset⟩ := hc.fin_of_flag hk hf
    have hst : ∀ st, (Tcp.commitNew (ackSent (changed c) a) a).state = st → st = .lastAck ∨ st = .finWait1 := by
      rintro _ rfl
      simp only [Tcp.commitNew, hf, if_true]
      split
      · exact .inl rfl
      · exact .inr rfl
    refine ⟨fun e => ?_, fun _ => hreset, fun e => ?_⟩
    · exact absurd (hst _ e) (by decide)
    · exact absurd (hst _ e) (by decide)
  have hst := commitNew_state (c := ackSent (changed c) a) (Bool.eq_false_iff.2 hf)
  refine FlagInv.congr (c := ackSent (changed c) a) ⟨?_, h.reset, h.user⟩ hst (fun _ => rfl) (fun _ => rfl) rfl
  intro e
  simp [ackSent, changed, h.listen e]

theorem FlagInv.booked (h : FlagInv c) (hc : Choice c a) (hb : Booked (changed c) a c') : FlagInv c' := by
  have hack : c.state = .listen → (ackSent (changed c) a).out.ackPending = false := by
    intro e
    simp [ackSent, changed, h.listen e]
  cases hb with
  | reset =>
    refine ⟨h.listen, fun _ => rfl, fun e => ?_⟩
    have e : c.state = .timeWait := e
    simp [commitReset, changed, e, h.user e]
  | ack => exact ⟨hack, h.reset, h.user⟩
  | retx =>
    refine ⟨hack, h.reset, fun e => ?_⟩
    obtain ⟨d, ht⟩ := commitRetx_timers (ackSent (changed c) a) a
    rw [ht]
    exact h.user e
  | probe =>
    refine ⟨hack, h.reset, fun e => ?_⟩
    obtain ⟨d, ht⟩ := commitProbe_timers (ackSent (changed c) a)
    rw [ht]
    exact h.user e
  | new hk => exact h.commitNew hc (.inl hk)
  | newProbe hk =>
    have hnew := h.commitNew hc (.inr hk)
    refine ⟨hnew.listen, hnew.reset, fun e => ?_⟩
    obtain ⟨d, ht⟩ := commitProbe_timers (Tcp.commitNew (ackSent (changed c) a) a)
    rw [ht]
    exact hnew.user e

/-- **Every operation keeps the flags in step with the state.** -/
theorem FlagInv.apply (h : FlagInv c) (hs : SendInv c) (op : Op) : FlagInv (op.apply c) := by
  refine op.apply_cases c fun c' hact => ?_
  cases hact with
  | idle => exact h
  | @input hdr data now => exact (h.tick now).edits (inputState_edits _ hdr data now)
  | tick now => exact h.tick now
  | queue | shutdown | prepare | abandon => exact { h with }
  | consume _ _ _ some =>
    refine h.congr rfl (fun e => ?_) (fun _ => rfl) rfl
    -- a listener has received nothing, so there is nothing to consume
    rw [(hs.fresh (by rw [e]; rfl)).rxCount] at some
    cases some
  | @detach now =>
    have ht := h.tick now
    exact FlagInv.edits (c := { tcpConnTick c now with orphan := true }) { ht with }
      (detachState_edits _ now)
  | sent own => exact h.booked (hs.choice own) (commitSubmitted_cases _ _)

theorem Initial.flagInv (h : Initial c) : FlagInv c := by
  obtain ⟨tuple, generation, isn, mtu, active, now, h⟩ := h
  simp only [tcpConnInit, Option.ite_none_left_eq_some, Option.some.injEq] at h
  obtain ⟨-, rfl⟩ := h
  exact ⟨fun _ => rfl, fun _ => rfl, fun _ => rfl⟩

/-! ## What a closed block may still hold -/

/-- A block closed at `t` has no ack to send, and a reset for one second. -/
structure CloseOk (t : Nat) (c : Conn) : Prop where
  ack : c.out.ackPending = false
  reset : c.out.resetPending = true →
    c.timers.user ≠ 0 ∧ c.timers.user.toNat ≤ t + 1000 ∧ c.nowMs ≤ c.timers.user

theorem deadline_second (now : UInt64) :
    deadline now 1000 ≠ 0 ∧ (deadline now 1000).toNat ≤ now.toNat + 1000 ∧ now ≤ deadline now 1000 := by
  unfold deadline
  have hlt := now.toNat_lt
  have hmax : (0xffffffffffffffff - (1000 : UInt32).toUInt64 : UInt64).toNat = 2 ^ 64 - 1001 := by decide
  have hsec : ((1000 : UInt32).toUInt64).toNat = 1000 := by decide
  split
  · rename_i h
    rw [gt_iff_lt, UInt64.lt_iff_toNat_lt, hmax] at h
    refine ⟨by decide, ?_, ?_⟩
    · change 2 ^ 64 - 1 ≤ _
      omega
    rw [UInt64.le_iff_toNat_le]
    change _ ≤ 2 ^ 64 - 1
    omega
  rename_i h
  rw [gt_iff_lt, UInt64.lt_iff_toNat_lt, hmax] at h
  have hadd : (now + (1000 : UInt32).toUInt64).toNat = now.toNat + 1000 := by
    rw [UInt64.toNat_add, hsec, Nat.mod_eq_of_lt (by omega)]
  refine ⟨fun e => ?_, hadd.le, ?_⟩
  · rw [e] at hadd
    exact absurd hadd.symm (Nat.succ_ne_zero _)
  · rw [UInt64.le_iff_toNat_le, hadd]
    omega

/-- What a failure or the end of `TIME_WAIT` leaves: a reset comes with its
second, and otherwise no user deadline is set. -/
structure Ended (c : Conn) : Prop where
  ack : c.out.ackPending = false
  timer : c.out.resetPending = false ∧ c.timers.user = 0 ∨ c.timers.user = deadline c.nowMs 1000

theorem Ended.closeOk (h : Ended c) : CloseOk c.nowMs.toNat c := by
  refine ⟨h.ack, fun hr => ?_⟩
  rcases h.timer with ⟨hf, _⟩ | hu
  · exact nomatch hf.symm.trans hr
  rw [hu]
  exact deadline_second c.nowMs

theorem Ended.fail (c : Conn) (e : Int) (b : Bool) : Ended (fail c e b) := by
  refine ⟨rfl, ?_⟩
  cases b
  · exact .inl ⟨rfl, rfl⟩
  · exact .inr rfl

/-- A segment to a block that has just ended arms the second. -/
theorem Ended.resetReply (h : Ended c) (hst : c.state = .closed) (hdr : Header) (len : Nat) :
    Ended (resetReply c hdr len) := by
  refine ⟨h.ack, .inr ?_⟩
  unfold Tcp.resetReply
  rw [hst]
  rcases h.timer with ⟨_, hu⟩ | hu
  · simp [hu]
  have := (deadline_second c.nowMs).1
  simp [hu, this]

variable {now : UInt64}

theorem Ended.tick (hf : FlagInv c) (hst : c.state ≠ .closed)
    (h : (tcpConnTick c now).state = .closed) : Ended (tcpConnTick c now) := by
  revert h
  refine tcpConnTick_cases (P := fun c' => c'.state = .closed → Ended c') c now fun c' ht h => ?_
  cases ht with
  | late | rests | drops | runs => exact absurd h hst
  | leaves hw => exact ⟨rfl, .inl ⟨hf.reset (by rw [hw]; rfl), hf.user hw⟩⟩
  | expires => exact .fail _ _ _

/-! ## The steps that leave output behind -/

/-- The segment acknowledges the FIN sent in `LAST_ACK`. -/
def acksFin (c : Conn) (h : Header) : Bool :=
  c.state == .lastAck && has h.flags TCP_ACK && h.acknowledgment == c.snd.sndNxt

/-- The segment closes the block with an ACK still to send: the peer's FIN
again, whose path sets the flag after the ack, or any other segment that is
taken while the flag is set. -/
def leaksAck (c : Conn) (h : Header) (len : Nat) : Bool :=
  acksFin c h &&
    (isFinAgain c h len ||
      (c.out.ackPending && acceptable c.rcv h len && !has h.flags (TCP_RST ||| TCP_SYN ||| TCP_URG)))

/-- The step closes the block with output that no deadline bounds. -/
def Op.leaks (c : Conn) : Op → Bool
  | .input h data now => admits c h data.length now && leaksAck c h data.length
  | .detach now => decide (c.nowMs ≤ now) && c.state == .listen && c.out.resetPending
  | _ => false

/-- What a tick that leaves the block open leaves alone. -/
structure Open (c c' : Conn) : Prop where
  state : c'.state = c.state
  snd : c'.snd = c.snd
  rcv : c'.rcv = c.rcv
  ack : c'.out.ackPending = c.out.ackPending
  reset : c'.out.resetPending = c.out.resetPending

theorem tcpConnTick_open (h : (tcpConnTick c now).state ≠ .closed) : Open c (tcpConnTick c now) := by
  revert h
  refine tcpConnTick_cases (P := fun c' => c'.state ≠ .closed → Open c c') c now fun c' ht h => ?_
  cases ht with
  | late | rests | runs => exact ⟨rfl, rfl, rfl, rfl, rfl⟩
  | drops hs => exact absurd hs h
  | leaves | expires => exact absurd rfl h

theorem Open.leaksAck (h : Open c c') (hdr : Header) (len : Nat) : leaksAck c' hdr len = leaksAck c hdr len := by
  simp only [Tcp.leaksAck, acksFin, isFinAgain, h.state, h.snd, h.rcv, h.ack]

variable {h : Header} {len : Nat} {data : List UInt8}

/-- An ack closes a block only from `LAST_ACK`, as the ack of its FIN. -/
theorem processAck_closed (hok : SendOk c.state c.snd)
    (hst : c.state ≠ .closed) (hc : (processAck c h len).state = .closed) :
    c.state = .lastAck ∧ h.acknowledgment = c.snd.sndNxt := by
  rw [processAck_state] at hc
  split at hc
  · rename_i hb
    simp only [Bool.and_eq_true, beq_iff_eq] at hb
    have hlast : c.state = .lastAck := by
      cases hs : c.state <;> simp_all [finAckState]
    have hfin : FinOut c.snd := by
      have := hok.phase
      rwa [hlast] at this
    exact ⟨hlast, hb.2.trans hfin.nxt.symm⟩
  · exact absurd hc hst

theorem inputAck_closed (hok : SendOk c.state c.snd)
    (hst : c.state ≠ .closed) (hc : (inputAck c h len).state = .closed) :
    c.state = .lastAck ∧ h.acknowledgment = c.snd.sndNxt := by
  unfold inputAck at hc
  split_ifs at hc
  · rw [processAck_state] at hc
    split at hc <;> simp [finAckState] at hc
  · exact processAck_closed hok hst hc
  · exact absurd hc hst

/-- An accepted segment that closes the block leaves the pending output as it
was. -/
theorem acceptSegment_closed (hok : SendOk c.state c.snd)
    (hst : c.state ≠ .closed) (hc : (acceptSegment c h data).state = .closed) :
    c.state = .lastAck ∧ h.acknowledgment = c.snd.sndNxt ∧ (acceptSegment c h data).out = c.out := by
  have hfin {st : State} (he : finState st = .closed) : st = .closed := by
    cases st <;> simp_all [finState]
  by_cases hack : (inputAck c h data.length).state = .closed
  · obtain ⟨hlast, hnum⟩ := inputAck_closed hok hst hack
    refine ⟨hlast, hnum, ?_⟩
    simp only [acceptSegment, hack, bne_self_eq_false, Bool.false_eq_true, if_false]
    exact (inputAck_frame c h data.length).out
  have hrecv : (receiveData (inputAck c h data.length) h data).state = .closed := by
    simpa [acceptSegment, hack] using hc
  rcases receiveData_state (inputAck c h data.length) h data with e | e
  · exact absurd (e.symm.trans hrecv) hack
  · exact absurd (hfin (e.symm.trans hrecv)) hack

/-- An input that closes a live block, short of the leaks. -/
theorem inputState_closes (hf : FlagInv c)
    (hok : SendOk c.state c.snd) (hst : c.state ≠ .closed) (hleak : leaksAck c h data.length = false)
    (hc : (inputState c h data now).state = .closed) : CloseOk c.nowMs.toNat (inputState c h data now) := by
  revert hc
  refine inputState_cases (P := fun c' => c'.state = .closed → CloseOk c.nowMs.toNat c') c h data now fun c' hin hc => ?_
  cases hin with
  | stay | answer | timeWait | synAgain | finAgain => exact absurd hc hst
  | syn | opens | synAcked => exact State.noConfusion hc
  | refused => exact (Ended.fail c _ _).closeOk
  | crosses =>
    rw [simultaneousOpen_state] at hc
    exact State.noConfusion hc
  | finAcked _ again hflag =>
    -- the peer's FIN again closes the block only as a leak
    obtain ⟨hlast, hnum⟩ := processAck_closed hok hst hc
    simp [leaksAck, acksFin, hlast, hnum, hflag, again] at hleak
  | segment _ seg =>
    cases seg with
    | quiet | refuse => exact absurd hc hst
    | reset => exact (Ended.fail c _ _).closeOk
    | accept hacc hplain hflag _ _ =>
      obtain ⟨hlast, hnum, hout⟩ := acceptSegment_closed hok hst hc
      have hreset : c.out.resetPending = false := hf.reset (by rw [hlast]; rfl)
      have hack : isFinAgain c h data.length = false ∧ c.out.ackPending = false := by
        simpa [leaksAck, acksFin, hlast, hflag, hnum, hacc, hplain] using hleak
      refine ⟨by rw [hout, hack.2], fun hr => ?_⟩
      rw [hout, hreset] at hr
      cases hr

theorem detachState_closes (hf : FlagInv c)
    (hst : c.state ≠ .closed) (hleak : c.state = .listen → c.out.resetPending = false)
    (hc : (detachState c now).state = .closed) : CloseOk c.nowMs.toNat (detachState c now) := by
  revert hc
  unfold detachState
  split
  · rename_i hs
    refine fun _ => ⟨hf.listen hs, fun hr => ?_⟩
    exact nomatch (hleak hs).symm.trans hr
  · exact fun _ => (Ended.fail c _ _).closeOk
  · exact fun _ => (Ended.fail c _ _).closeOk
  all_goals exact fun hc => absurd hc hst

theorem commitNew_ne_closed (hst : c.state ≠ .closed) (a : Action) : (commitNew c a).state ≠ .closed := by
  unfold commitNew
  dsimp only
  split_ifs
  · exact State.noConfusion
  · exact State.noConfusion
  · exact hst

theorem Booked.ne_closed (h : Booked c a c') (hst : c.state ≠ .closed) : c'.state ≠ .closed := by
  cases h with
  | reset | ack | retx | probe => exact hst
  | new _ | newProbe _ => exact commitNew_ne_closed hst a

/-- **A block closes clean.** Whatever step closes it, other than a leak, it
has no ack to send then, and a reset under its deadline only. -/
theorem CloseOk.of_closes {op : Op} (hf : FlagInv c) (hs : SendInv c) (hst : c.state ≠ .closed)
    (hleak : op.leaks c = false) (hc : (op.apply c).state = .closed) :
    CloseOk (op.apply c).nowMs.toNat (op.apply c) := by
  revert hc
  refine op.apply_cases (P := fun c => c.state = .closed → CloseOk c.nowMs.toNat c) c fun c' hact hc => ?_
  cases hact with
  | idle | queue | consume | shutdown | prepare | abandon => exact absurd hc hst
  | @input h data now admitted =>
    rw [(inputState_keeps _ h data now).nowMs]
    simp only [Op.leaks, admitted, Bool.true_and] at hleak
    by_cases ht : (tcpConnTick c now).state = .closed
    · have hend := Ended.tick hf hst ht
      unfold inputState
      rw [ht]
      dsimp only
      split
      · exact (hend.resetReply ht h _).closeOk
      · exact hend.closeOk
    · rw [← (tcpConnTick_open ht).leaksAck] at hleak
      exact inputState_closes (hf.tick now) (tcpConnTick_send hs.ok now).1 ht hleak hc
  | tick now => exact (Ended.tick hf hst hc).closeOk
  | @detach now clock =>
    rw [(detachState_keeps _ now).nowMs]
    by_cases ht : (tcpConnTick c now).state = .closed
    · have hend := Ended.tick hf hst ht
      simp only [detachState, ht]
      exact ⟨hend.ack, hend.closeOk.reset⟩
    have hft := hf.tick now
    refine detachState_closes
      { hft with } ht (fun hl => ?_) hc
    have hopen := tcpConnTick_open ht
    have hl : c.state = .listen := hopen.state.symm.trans hl
    refine hopen.reset.trans ?_
    simpa [Op.leaks, clock, hl] using hleak
  | sent => exact absurd hc ((commitSubmitted_cases _ _).ne_closed hst)

/-- The block's clock at a closed tick. -/
theorem CloseOk.tick {t : Nat} (h : CloseOk t c) (hst : c.state = .closed) (now : UInt64) :
    CloseOk t (tcpConnTick c now) := by
  refine tcpConnTick_cases c now fun c' ht => ?_
  cases ht with
  | late => exact h
  | rests _ quiet =>
    refine ⟨h.ack, fun hr => ?_⟩
    obtain ⟨hne, hle, _⟩ := h.reset hr
    have hr : c.out.resetPending = true := hr
    have hlt : now < c.timers.user := by simpa [hr, due, hne] using quiet hst
    exact ⟨hne, hle, UInt64.le_of_lt hlt⟩
  | drops => exact ⟨h.ack, nofun⟩
  | leaves hs => exact absurd (hst.symm.trans hs) State.noConfusion
  | expires _ live | runs _ _ _ live => exact absurd hst live.1

/-- **A closed block stays clean** as long as no segment comes in. -/
theorem CloseOk.apply {t : Nat} {op : Op} (h : CloseOk t c) (hs : SendInv c)
    (hst : c.state = .closed) (hop : ∀ hdr data now, op ≠ .input hdr data now) : CloseOk t (op.apply c) := by
  refine op.apply_cases c fun c' hact => ?_
  cases hact with
  | idle => exact h
  | input => exact absurd rfl (hop _ _ _)
  | tick now => exact h.tick hst now
  | queue _ _ _ state | shutdown state => rcases state with e | e <;> exact absurd (hst.symm.trans e) (by decide)
  | consume _ _ _ _ quiet =>
    obtain rfl := quiet.resolve_right (fun hne => hne hst)
    exact ⟨h.ack, h.reset⟩
  | @detach now =>
    have ht := h.tick hst now
    have hc : (tcpConnTick c now).state = .closed := by
      rcases tcpConnTick_state c now with e | e
      · exact e
      · exact e.trans hst
    simp only [detachState, hc]
    exact ⟨ht.ack, ht.reset⟩
  | prepare | abandon => exact ⟨h.ack, h.reset⟩
  | sent own =>
    cases hs.choice own with
    | reset => exact ⟨h.ack, by simp [commitSubmitted, commitReset]⟩
    | ack => exact ⟨by simp [commitSubmitted, ackAction, ackSent, changed, h.ack], h.reset⟩
    | retx live _ => exact absurd hst live
    | probe live => exact absurd hst live
    | syn hs _ | data hs _ _ _ | fin hs _ _ _ => rcases hs with e | e <;> exact absurd (hst.symm.trans e) (by decide)

end Fortress.Tcp
