/-
Congestion control and the retransmission timer (`net/tcp_tcb.c`). What they
compute is bounded in every reachable state: the segment size, the congestion
window, the round-trip estimate and the timeout. The bounds are inductive once
two facts are added: a connection in fast recovery has a threshold of at least
one segment, and no connection is in fast recovery before its handshake ends,
when the peer's SYN may still change the segment size.
-/
import Fortress.Tcp.SendStream

namespace Fortress.Tcp

/-! ## Bounds -/

/-- The numbers congestion control works on. -/
structure Rates where
  cwnd : UInt32
  ssthresh : UInt32
  srttMs : UInt32
  rttvarMs : UInt32
  rtoMs : UInt32
  fastRecovery : Bool
  mss : UInt16
  localMss : UInt16

variable (f : Flow)

def rates (s : SendSide) : Rates :=
  ⟨f.cwnd, f.ssthresh, f.srttMs, f.rttvarMs, f.rtoMs, f.fastRecovery, s.mss, s.localMss⟩

def Conn.rates (c : Conn) : Rates := Tcp.rates c.flow c.snd

structure Bounded (r : Rates) : Prop where
  mss : 1 ≤ r.mss.toNat ∧ r.mss.toNat ≤ 1460
  localMss : 1 ≤ r.localMss.toNat ∧ r.localMss.toNat ≤ 1460
  cwnd : r.mss.toNat ≤ r.cwnd.toNat ∧ r.cwnd.toNat ≤ 8192
  rto : 1000 ≤ r.rtoMs.toNat ∧ r.rtoMs.toNat ≤ 60000
  srtt : r.srttMs.toNat ≤ 60000
  rttvar : r.rttvarMs.toNat ≤ 60000
  recovery : r.fastRecovery = true → r.mss.toNat ≤ r.ssthresh.toNat

theorem toNat_txbuf : (UInt32.ofNat TCP_TXBUF_MAX).toNat = 8192 := by decide

theorem toNat_mul_add {k x y : UInt32} (h : k.toNat * x.toNat + y.toNat < 2 ^ 32) :
    (k * x + y).toNat = k.toNat * x.toNat + y.toNat := by
  have hmul : k.toNat * x.toNat < 2 ^ 32 := Nat.lt_of_le_of_lt (Nat.le_add_right ..) h
  rw [UInt32.toNat_add, UInt32.toNat_mul, Nat.mod_eq_of_lt hmul, Nat.mod_eq_of_lt h]

/-! ## The round-trip estimate -/

variable (elapsed : UInt64)

/-- The sample `rtt` takes of an elapsed time. -/
def rttSample : UInt32 :=
  let sample : UInt32 := if elapsed > 60000 then 60000 else elapsed.toUInt32
  if sample == 0 then 1 else sample

theorem rttSample_bounds : 1 ≤ (rttSample elapsed).toNat ∧ (rttSample elapsed).toNat ≤ 60000 := by
  have hcap : (if elapsed > 60000 then (60000 : UInt32) else elapsed.toUInt32).toNat ≤ 60000 := by
    split
    · decide
    rename_i h
    have hle : elapsed.toNat ≤ 60000 := UInt64.le_iff_toNat_le.1 (UInt64.not_lt.1 h)
    rw [UInt64.toNat_toUInt32]
    omega
  unfold rttSample
  dsimp only
  generalize (if elapsed > 60000 then (60000 : UInt32) else elapsed.toUInt32) = sample at hcap ⊢
  split
  · decide
  rename_i h
  have hne : sample ≠ 0 := by simpa using h
  have hpos : sample.toNat ≠ 0 := fun e => hne (UInt32.toNat_inj.1 e)
  omega

/-- The distance between a sample and the estimate. -/
def rttDiff (sample : UInt32) : UInt32 :=
  if sample > f.srttMs then sample - f.srttMs else f.srttMs - sample

theorem toNat_rttDiff (sample : UInt32) :
    (rttDiff f sample).toNat = (sample.toNat - f.srttMs.toNat) + (f.srttMs.toNat - sample.toNat) := by
  unfold rttDiff
  split
  · rename_i h
    have h := UInt32.lt_iff_toNat_lt.1 h
    rw [UInt32.toNat_sub_of_le _ _ (UInt32.le_iff_toNat_le.2 h.le)]
    omega
  rename_i h
  have h := UInt32.le_iff_toNat_le.1 (UInt32.not_lt.1 h)
  rw [UInt32.toNat_sub_of_le _ _ (UInt32.le_iff_toNat_le.2 h)]
  omega

/-- The values `rtt` computes on the way, in naturals: both updates of the
estimate, the variance term and the timeout before it is clamped. -/
def rttIntermediates : List Nat :=
  let sample := (rttSample elapsed).toNat
  let diff := (rttDiff f (rttSample elapsed)).toNat
  let f' := rtt f elapsed
  [3 * f.rttvarMs.toNat, 3 * f.rttvarMs.toNat + diff, 7 * f.srttMs.toNat, 7 * f.srttMs.toNat + sample,
    4 * f'.rttvarMs.toNat, f'.srttMs.toNat + max (4 * f'.rttvarMs.toNat) 1]

/-- The estimate after a sample. -/
def rttEstimate (sample : UInt32) : Flow :=
  if !f.haveRtt then { f with srttMs := sample, rttvarMs := sample / 2, haveRtt := true }
  else { f with rttvarMs := (3 * f.rttvarMs + rttDiff f sample) / 4, srttMs := (7 * f.srttMs + sample) / 8 }

/-- The timeout of an estimate. -/
def rttTimeout : UInt32 :=
  let variance := 4 * f.rttvarMs
  let rto := min32 60000 (f.srttMs + (if variance != 0 then variance else 1))
  if rto < 1000 then 1000 else rto

theorem rtt_eq :
    rtt f elapsed = { rttEstimate f (rttSample elapsed) with
      rtoMs := rttTimeout (rttEstimate f (rttSample elapsed)) } := rfl

variable {f : Flow}

theorem rttEstimate_bounds {sample : UInt32} (hs : f.srttMs.toNat ≤ 60000)
    (hv : f.rttvarMs.toNat ≤ 60000) (h : sample.toNat ≤ 60000) :
    (rttEstimate f sample).srttMs.toNat ≤ 60000 ∧ (rttEstimate f sample).rttvarMs.toNat ≤ 60000 := by
  have hd := toNat_rttDiff f sample
  unfold rttEstimate
  split
  · refine ⟨h, ?_⟩
    simp only [UInt32.toNat_div, UInt32.reduceToNat]
    omega
  have h7 : (7 * f.srttMs + sample).toNat = 7 * f.srttMs.toNat + sample.toNat :=
    toNat_mul_add (by change 7 * _ + _ < _; omega)
  have h3 : (3 * f.rttvarMs + rttDiff f sample).toNat = 3 * f.rttvarMs.toNat + (rttDiff f sample).toNat :=
    toNat_mul_add (by change 3 * _ + _ < _; omega)
  simp only [UInt32.toNat_div, h7, h3, UInt32.reduceToNat]
  omega

theorem rttTimeout_bounds (f : Flow) : 1000 ≤ (rttTimeout f).toNat ∧ (rttTimeout f).toNat ≤ 60000 := by
  unfold rttTimeout
  dsimp only
  generalize f.srttMs + _ = rto
  have hle : (min32 60000 rto).toNat ≤ 60000 := by
    rw [toNat_min32]
    exact Nat.min_le_left ..
  split
  · decide
  rename_i h
  exact ⟨UInt32.le_iff_toNat_le.1 (UInt32.not_lt.1 h), hle⟩

theorem rtt_keeps (f : Flow) (elapsed : UInt64) :
    (rtt f elapsed).cwnd = f.cwnd ∧ (rtt f elapsed).ssthresh = f.ssthresh ∧
      (rtt f elapsed).fastRecovery = f.fastRecovery := by
  rw [rtt_eq]
  unfold rttEstimate
  split <;> exact ⟨rfl, rfl, rfl⟩

/-- No product or sum of the update leaves 32 bits. -/
theorem rttIntermediates_lt (hs : f.srttMs.toNat ≤ 60000) (hv : f.rttvarMs.toNat ≤ 60000)
    (elapsed : UInt64) : ∀ n ∈ rttIntermediates f elapsed, n < 2 ^ 32 := by
  have hsample := rttSample_bounds elapsed
  have hdiff := toNat_rttDiff f (rttSample elapsed)
  have hest := rttEstimate_bounds hs hv hsample.2
  simp only [rttIntermediates, List.forall_mem_cons, rtt_eq]
  refine ⟨?_, ?_, ?_, ?_, ?_, ?_, fun n hn => absurd hn List.not_mem_nil⟩ <;> omega

/-! ## Acknowledgements -/

variable {s : SendSide}

theorem Bounded.rtt (h : Bounded (rates f s)) (elapsed : UInt64) : Bounded (rates (rtt f elapsed) s) := by
  obtain ⟨hc, ht, hf⟩ := rtt_keeps f elapsed
  have hest := rttEstimate_bounds h.srtt h.rttvar (rttSample_bounds elapsed).2
  have hrto := rttTimeout_bounds (rttEstimate f (rttSample elapsed))
  simp only [rates, hc, ht, hf]
  simp only [rtt_eq]
  generalize rttTimeout (rttEstimate f (rttSample elapsed)) = rto at hrto ⊢
  generalize rttEstimate f (rttSample elapsed) = e at hest ⊢
  exact ⟨h.mss, h.localMss, h.cwnd, hrto, hest.1, hest.2, h.recovery⟩

theorem Bounded.ackRtt (h : Bounded (rates f s)) (scan : AckScan) : Bounded (rates (ackRtt f scan) s) := by
  unfold Tcp.ackRtt
  dsimp only
  generalize hf : ({ f with retries := 0, dupacks := 0, retransmitPending := false, retransmitTimeout := false } : Flow)
    = f1
  have h1 : Bounded (rates f1 s) := hf ▸ h
  have h2 : Bounded (rates (if scan.sample && !scan.ambiguous then Tcp.rtt f1 scan.elapsed else f1) s) := by
    split
    · exact h1.rtt _
    · exact h1
  generalize (if scan.sample && !scan.ambiguous then Tcp.rtt f1 scan.elapsed else f1) = f2 at h2 ⊢
  split
  · exact { h2 with rto := (by decide : 1000 ≤ (3000 : UInt32).toNat ∧ (3000 : UInt32).toNat ≤ 60000) }
  · exact h2

theorem Bounded.ackCwnd (h : Bounded (rates f s)) (bytes : Nat) :
    Bounded (rates (ackCwnd f s.mss.toUInt32 bytes) s) := by
  have hmss := h.mss
  have hcwnd := h.cwnd
  simp only [rates] at hmss hcwnd
  -- whatever the window grew to, it is cut at the ring's size
  have cut {f' : Flow} (hlow : s.mss.toNat ≤ f'.cwnd.toNat) (hr : f'.rtoMs = f.rtoMs) (hs : f'.srttMs = f.srttMs)
      (hv : f'.rttvarMs = f.rttvarMs) (ht : f'.ssthresh = f.ssthresh)
      (hf : f'.fastRecovery = true → f.fastRecovery = true) :
      Bounded (rates { f' with cwnd := min32 f'.cwnd (UInt32.ofNat TCP_TXBUF_MAX) } s) := by
    refine ⟨h.mss, h.localMss, ?_, ?_, ?_, ?_, ?_⟩
    · simp only [rates, toNat_min32, toNat_txbuf]
      omega
    · simp only [rates, hr]
      exact h.rto
    · simp only [rates, hs]
      exact h.srtt
    · simp only [rates, hv]
      exact h.rttvar
    · simp only [rates, ht]
      exact fun e => h.recovery (hf e)
  unfold Tcp.ackCwnd
  split
  · exact h
  dsimp only
  split
  · rename_i hfast
    exact cut (h.recovery hfast) rfl rfl rfl rfl (nofun)
  split
  · refine cut ?_ rfl rfl rfl rfl id
    rw [UInt32.toNat_add, toNat_min32, UInt16.toNat_toUInt32]
    omega
  split
  · refine cut ?_ rfl rfl rfl rfl id
    rw [UInt32.toNat_add, UInt16.toNat_toUInt32]
    omega
  · exact cut hcwnd.1 rfl rfl rfl rfl id

theorem ackFin_rates (c : Conn) : (ackFin c).rates = c.rates := by
  unfold ackFin
  split <;> rfl

variable {c c' : Conn}

theorem Bounded.ackNew (h : Bounded c.rates) (ack : UInt32) : Bounded (ackNew c ack).rates := by
  have hflow : Bounded (rates (Tcp.ackCwnd (Tcp.ackRtt c.flow (ackScan c.nowMs ack c.snd.retx)) c.snd.mss.toUInt32
      (ackedBytes c.snd ack)) c.snd) := (Bounded.ackRtt h _).ackCwnd _
  unfold Tcp.ackNew
  split
  · rw [ackFin_rates]
    exact hflow
  · exact hflow

theorem updateWindow_rates (c : Conn) (h : Header) : (updateWindow c h).rates = c.rates := by
  unfold updateWindow
  split
  · dsimp only
    split <;> rfl
  · rfl

theorem Bounded.duplicateAck (h : Bounded (rates f s)) : Bounded (rates (duplicateAck f s) s) := by
  have hmss := h.mss
  have hcwnd := h.cwnd
  unfold Tcp.duplicateAck
  dsimp only
  generalize hf : (if f.dupacks < 255 then { f with dupacks := f.dupacks + 1 } else f) = f1
  have h1 : Bounded (rates f1 s) := by
    subst hf
    split <;> exact h
  have hle : f1.cwnd.toNat ≤ 8192 := h1.cwnd.2
  have hlow : s.mss.toNat ≤ f1.cwnd.toNat := h1.cwnd.1
  split
  · generalize hhalf : (s.sndNxt - s.sndUna) / 2 = half
    have hhalf' : half.toNat < 2 ^ 31 := by
      have := (s.sndNxt - s.sndUna).toNat_lt
      rw [← hhalf, UInt32.toNat_div]
      exact Nat.div_lt_of_lt_mul this
    have htwice : (2 * s.mss.toUInt32).toNat = 2 * s.mss.toNat := by
      have hmul := toNat_mul_add (k := 2) (x := s.mss.toUInt32) (y := 0)
      rw [UInt16.toNat_toUInt32] at hmul
      rw [← add_zero (2 * s.mss.toUInt32)]
      exact hmul (by change 2 * _ + 0 < _; omega)
    generalize hth : (if half > 2 * s.mss.toUInt32 then half else 2 * s.mss.toUInt32) = thresh
    have hthresh : 2 * s.mss.toNat ≤ thresh.toNat ∧ thresh.toNat < 2 ^ 31 := by
      subst hth
      split
      · rename_i hgt
        have hgt := UInt32.lt_iff_toNat_lt.1 hgt
        omega
      · omega
    refine ⟨h1.mss, h1.localMss, ?_, h1.rto, h1.srtt, h1.rttvar, fun _ => ?_⟩
    · have hsum : (thresh + 3 * s.mss.toUInt32).toNat = thresh.toNat + 3 * s.mss.toNat := by
        rw [add_comm, toNat_mul_add, UInt16.toNat_toUInt32]
        · exact Nat.add_comm ..
        rw [UInt16.toNat_toUInt32]
        change 3 * _ + _ < _
        omega
      simp only [rates, toNat_min32, toNat_txbuf, hsum]
      omega
    · simp only [rates]
      omega
  split
  · refine { h1 with cwnd := ?_ }
    have hsum : (f1.cwnd + s.mss.toUInt32).toNat = f1.cwnd.toNat + s.mss.toNat := by
      rw [UInt32.toNat_add, UInt16.toNat_toUInt32, Nat.mod_eq_of_lt (by omega)]
    simp only [rates, toNat_min32, toNat_txbuf, hsum]
    omega
  · exact h1

theorem Bounded.processAck (h : Bounded c.rates) (hdr : Header) (len : Nat) :
    Bounded (processAck c hdr len).rates := by
  have h1 : Bounded (updateWindow c hdr).rates := by rwa [updateWindow_rates]
  unfold Tcp.processAck
  dsimp only
  split
  · exact h1.ackNew _
  split
  · exact Bounded.duplicateAck h1
  · exact h1

/-! ## The invariant -/

structure Paced (c : Conn) : Prop where
  bounded : Bounded c.rates
  quiet : c.state.handshake = true → c.flow.fastRecovery = false

theorem Paced.congr (h : Paced c) (hr : c'.rates = c.rates)
    (hst : c'.state.handshake = true → c.state.handshake = true) : Paced c' := by
  refine ⟨hr ▸ h.bounded, fun hs => ?_⟩
  have hf : c'.flow.fastRecovery = c.flow.fastRecovery := congrArg Rates.fastRecovery hr
  exact hf.trans (h.quiet (hst hs))

theorem Paced.of_done (h : Bounded c.rates) (hst : c.state.handshake = false) : Paced c :=
  ⟨h, fun hs => absurd (hst.symm.trans hs) Bool.false_ne_true⟩

theorem Paced.same (h : Paced c) (hr : c'.rates = c.rates) (hst : c'.state = c.state) : Paced c' :=
  h.congr hr fun hs => hst ▸ hs

theorem Paced.fail (h : Paced c) (e : Int) (b : Bool) : Paced (fail c e b) := .of_done h.bounded rfl

theorem Paced.resetReply (h : Paced c) (hdr : Header) (len : Nat) : Paced (resetReply c hdr len) :=
  h.same rfl rfl

theorem Paced.processAck (h : Paced c) (hst : c.state.handshake = false) (hdr : Header) (len : Nat) :
    Paced (processAck c hdr len) :=
  .of_done (h.bounded.processAck hdr len) ((processAck_handshake c hdr len).trans hst)

theorem Paced.establish (h : Bounded c.rates) (ack : UInt32) : Paced (establish c ack) :=
  .of_done (h.ackNew ack) rfl

theorem receivedFin_rates (c : Conn) : (receivedFin c).rates = c.rates := by
  unfold receivedFin
  split
  · rfl
  dsimp only
  split <;> rfl

theorem receiveData_rates (c : Conn) (h : Header) (data : List UInt8) : (receiveData c h data).rates = c.rates := by
  unfold receiveData
  split
  · rfl
  split
  · exact receivedFin_rates _
  · exact receivedFin_rates _

theorem Paced.receiveData (h : Paced c) (hdr : Header) (data : List UInt8) : Paced (receiveData c hdr data) :=
  h.congr (receiveData_rates c hdr data) fun hs => (receiveData_handshake c hdr data).symm.trans hs

variable {hdr : Header} {a : Action}

/-- The peer's SYN sets the segment size, and the window with it. -/
theorem Bounded.receiveSyn (h : Bounded c.rates) (hf : c.flow.fastRecovery = false)
    (hmss : (hdr.hasMss && hdr.mss == 0) = false) : Bounded (receiveSyn c hdr).rates := by
  have hl := h.localMss
  simp only [Conn.rates, rates] at hl
  have hpeer : 1 ≤ (if hdr.hasMss then hdr.mss else 536).toNat := by
    split
    · rename_i hm
      have hne : hdr.mss ≠ 0 := by simpa [hm] using hmss
      exact Nat.one_le_iff_ne_zero.2 fun e => hne (UInt16.toNat_inj.1 e)
    · decide
  generalize hp : (if hdr.hasMss then hdr.mss else 536) = peer at hpeer
  have hval : (min32 c.snd.localMss.toUInt32 peer.toUInt32).toUInt16.toNat
      = min c.snd.localMss.toNat peer.toNat := by
    rw [UInt32.toNat_toUInt16, toNat_min32, UInt16.toNat_toUInt32, UInt16.toNat_toUInt32, Nat.mod_eq_of_lt (by omega)]
  have hm : 1 ≤ (min32 c.snd.localMss.toUInt32 peer.toUInt32).toUInt16.toNat ∧
      (min32 c.snd.localMss.toUInt32 peer.toUInt32).toUInt16.toNat ≤ 1460 := by
    omega
  refine ⟨?_, h.localMss, ?_, h.rto, h.srtt, h.rttvar, fun e => ?_⟩
  · simpa only [Conn.rates, rates, Tcp.receiveSyn, hp] using hm
  · simp only [Conn.rates, rates, Tcp.receiveSyn, hp, UInt16.toNat_toUInt32]
    omega
  · exact absurd (hf.symm.trans e) Bool.false_ne_true

theorem simultaneousOpen_rates (c : Conn) : (simultaneousOpen c).rates = c.rates := by
  unfold simultaneousOpen
  dsimp only
  split <;> rfl

theorem Paced.inputAck (h : Paced c) (hst : c.state.handshake = true → c.state = .synRcvd)
    (hdr : Header) (len : Nat) : Paced (inputAck c hdr len) := by
  unfold Tcp.inputAck
  split
  · exact (Paced.establish h.bounded _).processAck rfl hdr len
  rename_i hs
  have hdone : c.state.handshake = false := by
    rw [← Bool.not_eq_true]
    exact fun e => hs (by simp [hst e])
  split
  · exact h.processAck hdone hdr len
  · exact h

theorem Paced.tick (h : Paced c) (now : UInt64) : Paced (tcpConnTick c now) := by
  refine tcpConnTick_cases c now fun c' ht => ?_
  cases ht with
  | late => exact h
  | rests | drops | runs => exact h.same rfl rfl
  | leaves | expires => exact .of_done h.bounded rfl

theorem Paced.input (h : Paced c) (hfresh : HandshakeFresh c)
    (hmss : (hdr.hasMss && hdr.mss == 0) = false) (data : List UInt8) (now : UInt64) :
    Paced (inputState c hdr data now) := by
  have hsyn (hs : c.state.handshake = true) := h.bounded.receiveSyn (h.quiet hs) hmss
  refine inputState_cases c hdr data now fun c' hin => ?_
  cases hin with
  | stay => exact h
  | answer => exact h.resetReply hdr _
  | timeWait | synAgain | finAgain => exact h.same rfl rfl
  | syn hs =>
    have hs : c.state.handshake = true := by rw [hs]; rfl
    exact ⟨hsyn hs, fun _ => h.quiet hs⟩
  | refused => exact h.fail _ _
  | opens hs => exact (Paced.establish (hsyn (by rw [hs]; rfl)) hdr.acknowledgment).same rfl rfl
  | crosses hs =>
    have hs : c.state.handshake = true := by rw [hs]; rfl
    have hr := simultaneousOpen_rates (Tcp.receiveSyn c hdr)
    refine ⟨hr ▸ hsyn hs, fun _ => ?_⟩
    exact (congrArg Rates.fastRecovery hr).trans (h.quiet hs)
  | synAcked => exact (Paced.establish h.bounded hdr.acknowledgment).same rfl rfl
  | finAcked _ again =>
    have hdone : c.state.handshake = false := by
      rw [← Bool.not_eq_true]
      intro hs
      simp [isFinAgain, (hfresh hs).eof] at again
    have hp := h.processAck hdone hdr data.length
    generalize Tcp.processAck c hdr data.length = c1 at hp ⊢
    exact hp.same rfl rfl
  | segment hs seg =>
    cases seg with
    | quiet => exact h.same rfl rfl
    | reset => exact h.fail _ _
    | refuse => exact h.resetReply hdr _
    | accept =>
      -- past the handshake's first states only SYN_RCVD is left of it
      have ha := h.inputAck (fun e => (State.synced_cases hs).2.2.resolve_right (by simp [e])) hdr data.length
      unfold acceptSegment
      dsimp only
      split
      · exact ha.receiveData hdr data
      · exact ha

theorem Paced.detachState (h : Paced c) (now : UInt64) : Paced (detachState c now) := by
  unfold Tcp.detachState
  split
  · exact .of_done h.bounded rfl
  · exact h.fail _ _
  · exact h.fail _ _
  all_goals exact h.same rfl rfl

theorem Bounded.chargeRetx (h : Bounded (rates f s)) (timeout : Bool) :
    Bounded (rates (chargeRetx f s timeout) s) := by
  have hmss := h.mss
  have hrto := h.rto
  simp only [rates] at hmss hrto
  cases timeout with
  | false => exact { h with }
  | true =>
    refine ⟨h.mss, h.localMss, ?_, ?_, h.srtt, h.rttvar, nofun⟩
    · simp only [rates, Tcp.chargeRetx, if_true, UInt16.toNat_toUInt32]
      omega
    have hdouble : (f.rtoMs * 2).toNat = f.rtoMs.toNat * 2 := by
      rw [UInt32.toNat_mul]
      exact Nat.mod_eq_of_lt (by change _ * 2 < _; omega)
    simp only [rates, Tcp.chargeRetx, if_true, toNat_min32, hdouble, UInt32.reduceToNat]
    omega

theorem Paced.booked (h : Paced c) (hb : Booked c a c') : Paced c' := by
  have hnew (c : Conn) (hc : Paced c) : Paced (commitNew c a) := by
    refine hc.congr rfl fun hs => ?_
    rcases commitNew_state_cases c a with e | e
    · rwa [e] at hs
    · exact nomatch e.symm.trans hs
  cases hb with
  | reset | ack | probe => exact h.same rfl rfl
  | retx =>
    have hr := Bounded.chargeRetx h.bounded a.timeout
    refine ⟨hr, fun hs => ?_⟩
    have hf := h.quiet hs
    change (Tcp.chargeRetx c.flow c.snd a.timeout).fastRecovery = false
    unfold Tcp.chargeRetx
    split <;> simp [hf]
  | new _ => exact hnew _ (h.same rfl rfl)
  | newProbe _ => exact (hnew (ackSent c a) (h.same rfl rfl)).same rfl rfl

theorem Paced.apply (h : Paced c) (hs : SendInv c) (op : Op) : Paced (op.apply c) := by
  refine op.apply_cases c fun c' hact => ?_
  cases hact with
  | idle => exact h
  | @input hdr data now admitted =>
    simp only [admits, Bool.and_eq_true, Bool.not_eq_true'] at admitted
    exact (h.tick now).input (hs.fresh.tick now) admitted.1.2 data now
  | tick now => exact h.tick now
  | queue | consume | shutdown | prepare | abandon => exact h.same rfl rfl
  | @detach now =>
    exact Paced.detachState (c := { tcpConnTick c now with orphan := true }) ((h.tick now).same rfl rfl) now
  | sent =>
    have hc : Paced (changed c) := h.same rfl rfl
    exact hc.booked (commitSubmitted_cases _ _)

theorem Initial.paced (h : Initial c) : Paced c := by
  have hs := h.sendInv.ok
  obtain ⟨tuple, generation, isn, mtu, active, now, h⟩ := h
  simp only [tcpConnInit, Option.ite_none_left_eq_some, Option.some.injEq] at h
  obtain ⟨-, rfl⟩ := h
  have hpos := UInt16.lt_iff_toNat_lt.1 hs.mss
  have hlocal := UInt16.lt_iff_toNat_lt.1 hs.localMss
  have cap (a b : UInt32) (hb : b.toNat ≤ 1460) : (min32 a b).toUInt16.toNat ≤ 1460 := by
    rw [UInt32.toNat_toUInt16, toNat_min32]
    omega
  refine ⟨⟨⟨hpos, cap _ 536 (by decide)⟩, ⟨hlocal, cap _ TCP_MSS_MAX (by decide)⟩, ?_, by simp [Conn.rates, rates],
    by simp [Conn.rates, rates], by simp [Conn.rates, rates], by simp [Conn.rates, rates]⟩, fun _ => rfl⟩
  exact ⟨le_rfl, (cap _ 536 (by decide)).trans (by decide)⟩

theorem reach_paced (h : connMachine.Reach c) : Paced c := by
  have hboth : SendInv c ∧ Paced c := by
    refine h.invariant (I := fun c => SendInv c ∧ Paced c) (fun _ hi => ⟨Initial.sendInv hi, Initial.paced hi⟩)
      fun s op s' hi hs => ?_
    obtain rfl : s' = op.apply s := hs
    exact ⟨hi.1.apply op, hi.2.apply hi.1 op⟩
  exact hboth.2

/-! ## New data -/

/-- A new data segment fits what the window and `cwnd` leave, and one segment. -/
theorem newAction_limit (h : newAction c = some a) (hlen : a.dataLen ≠ 0) :
    (c.snd.sndNxt - c.snd.sndUna).toNat + a.dataLen ≤ min c.flow.sndWnd.toNat c.flow.cwnd.toNat ∧
      a.dataLen ≤ c.snd.mss.toNat := by
  unfold newAction at h
  dsimp only at h
  split_ifs at h with h1 h2 h3 h4
  · simp only [Bool.or_eq_true, decide_eq_true_eq, beq_iff_eq, not_or, UInt32.not_le] at h2
    cases h
    have hlt := UInt32.lt_iff_toNat_lt.1 h2.1
    have hsub : (sendLimit c.flow - (c.snd.sndNxt - c.snd.sndUna)).toNat
        = (sendLimit c.flow).toNat - (c.snd.sndNxt - c.snd.sndUna).toNat :=
      UInt32.toNat_sub_of_le _ _ (UInt32.le_iff_toNat_le.2 hlt.le)
    have hmss := c.snd.mss.toNat_lt
    have hlim : (sendLimit c.flow).toNat = min c.flow.sndWnd.toNat c.flow.cwnd.toNat := toNat_min32 ..
    simp only [dataAction, UInt32.toNat_toUInt16, toNat_min32, hsub, UInt16.toNat_toUInt32]
    rw [Nat.mod_eq_of_lt (by omega)]
    omega
  · cases h
    exact absurd rfl hlen

/-- The only new segments with data are those of `newAction`. -/
theorem nextAction_newData (h : nextAction c = some a) (hk : a.kind = .new)
    (hlen : a.dataLen ≠ 0) : newAction c = some a := by
  unfold nextAction at h
  split at h
  · cases h
    exact absurd hk (by simp)
  split at h
  · exact absurd h (by simp)
  split at h
  · cases h
    exact absurd rfl hlen
  split at h
  · cases h
    exact absurd hk (by simp [retxAction])
  split at h
  · cases h
    exact absurd hk (by simp [ackAction])
  split at h
  · cases h
    exact absurd hk (by simp [probeAction])
  · exact h

/-- **The bounds of congestion control.** In every reachable state the segment
size, the congestion window and the timeout are in their ranges; whatever time
elapsed, no value the round-trip update computes leaves 32 bits; and a new data
segment that `tcp_conn_prepare` returns leaves at most `min(snd_wnd, cwnd)` in
flight. -/
theorem congestion_bounds {c : Conn} (h : connMachine.Reach c) :
    (1 ≤ c.snd.mss.toNat ∧ c.snd.mss.toNat ≤ 1460) ∧
      (c.snd.mss.toNat ≤ c.flow.cwnd.toNat ∧ c.flow.cwnd.toNat ≤ 8192) ∧
      (1000 ≤ c.flow.rtoMs.toNat ∧ c.flow.rtoMs.toNat ≤ 60000) ∧
      (∀ elapsed, ∀ n ∈ rttIntermediates c.flow elapsed, n < 2 ^ 32) ∧
      ∀ scratch a bytes c', tcpConnPrepare c scratch = (0, some (a, bytes), c') → a.kind = .new → a.dataLen ≠ 0 →
        (c.snd.sndNxt - c.snd.sndUna).toNat + a.dataLen ≤ min c.flow.sndWnd.toNat c.flow.cwnd.toNat := by
  have hb := (reach_paced h).bounded
  refine ⟨hb.mss, hb.cwnd, hb.rto, fun elapsed => rttIntermediates_lt hb.srtt hb.rttvar elapsed, ?_⟩
  intro scratch a bytes c' hprep hk hlen
  have hnext := (tcpConnPrepare_ok hprep).1
  exact (newAction_limit (nextAction_newData hnext hk hlen) hlen).1

/-- Three bytes queued behind nothing in flight. -/
def threeQueued : Conn := Op.apply openedConn.sent (.queue [7, 8, 9])

theorem threeQueued_reach : connMachine.Reach threeQueued :=
  .step (Conn.sent_reach openedConn_reach) rfl

theorem congestion_bounds_three_bytes :
    ∃ a bytes c', tcpConnPrepare threeQueued (some 1460) = (0, some (a, bytes), c') ∧ a.dataLen = 3 ∧
      (threeQueued.snd.sndNxt - threeQueued.snd.sndUna).toNat + a.dataLen
        ≤ min threeQueued.flow.sndWnd.toNat threeQueued.flow.cwnd.toNat := by
  refine ⟨_, _, _, rfl, by decide +kernel, ?_⟩
  exact (congestion_bounds threeQueued_reach).2.2.2.2 (some 1460) _ _ _ rfl (by decide +kernel) (by decide +kernel)

end Fortress.Tcp
