/-
The send side of a connection: what is in flight, in every state the block
can be in.

The records of sent segments tile `[snd_una, snd_nxt)`. What they may hold
depends on how far the connection is: nothing before the SYN, the SYN alone,
plain data while established, the FIN alone, nothing after it is
acknowledged. `Phase` says so per state; each handler is shown to keep it,
and to move `snd_una` by an acknowledgement of something in flight only.
-/
import Fortress.Lib.Serial
import Fortress.Tcp.Handshake

namespace Fortress.Tcp

open Serial (pos)

/-! ## Records -/

/-- The records tile `[a, b)`: each is nonempty and starts where the one
before it ends. -/
def Tiles : List Retx → UInt32 → UInt32 → Prop
  | [], a, b => a = b
  | r :: rs, a, b => r.sequence = a ∧ 0 < r.length ∧ Tiles rs (a + UInt32.ofNat r.length) b

/-- How many sequence numbers the records take. -/
def spanLen : List Retx → Nat
  | [] => 0
  | r :: rs => r.length + spanLen rs

theorem Tiles.end_eq : ∀ {l : List Retx} {a b : UInt32}, Tiles l a b → b = pos a (spanLen l)
  | [], _, _, h => by simpa [spanLen] using h.symm
  | r :: rs, a, b, ⟨_, _, ht⟩ => by
    rw [ht.end_eq, spanLen, ← Serial.pos_pos]
    rfl

variable {l : List Retx} {a b : UInt32}

/-- The distance between the ends, when the records span less than a wrap. -/
theorem Tiles.toNat_sub (h : Tiles l a b) (hl : spanLen l < 2 ^ 32) : (b - a).toNat = spanLen l := by
  rw [h.end_eq, Serial.toNat_sub_self_pos, Nat.mod_eq_of_lt hl]

theorem Tiles.nil_of_span : ∀ {l : List Retx} {a b : UInt32}, Tiles l a b → spanLen l = 0 → l = []
  | [], _, _, _, _ => rfl
  | r :: rs, _, _, ⟨_, hr, _⟩, h => by
    simp only [spanLen] at h
    omega

theorem Tiles.concat {r : Retx} : ∀ {l : List Retx} {a b : UInt32}, Tiles l a b → r.sequence = b →
    0 < r.length → Tiles (l ++ [r]) a (b + UInt32.ofNat r.length)
  | [], a, b, h, hr, hl => by
    have hab : a = b := h
    exact ⟨hr.trans hab.symm, hl, by rw [hab]; rfl⟩
  | _ :: _, _, _, ⟨h1, h2, ht⟩, hr, hl => ⟨h1, h2, ht.concat hr hl⟩

theorem spanLen_concat (r : Retx) : ∀ l : List Retx, spanLen (l ++ [r]) = spanLen l + r.length
  | [] => by simp [spanLen]
  | s :: l => by
    simp only [List.cons_append, spanLen, spanLen_concat r l]
    omega

variable {f : Retx → Retx}

/-- Changing flags or marks of the oldest record moves no sequence number. -/
theorem Tiles.modifyHead (hs : ∀ r, (f r).sequence = r.sequence)
    (hl : ∀ r, (f r).length = r.length) (h : Tiles l a b) : Tiles (l.modifyHead f) a b := by
  cases l with
  | nil => exact h
  | cons r rs =>
    obtain ⟨h1, h2, h3⟩ := h
    exact ⟨(hs r).trans h1, by rwa [hl], by rwa [hl]⟩

/-- **An ack of `k` numbers in flight leaves records that tile the rest.** -/
theorem Tiles.trim : ∀ {l : List Retx} {a b : UInt32} {k : Nat}, Tiles l a b → k ≤ spanLen l →
    spanLen l < 2 ^ 31 →
    Tiles (trimRetx (pos a k) l) (pos a k) b ∧ spanLen (trimRetx (pos a k) l) + k = spanLen l
  | [], a, b, k, h, hk, _ => by
    obtain rfl : k = 0 := by simpa [spanLen] using hk
    simpa [trimRetx, Tiles, spanLen] using h
  | r :: rs, a, b, k, ⟨hseq, hpos, ht⟩, hk, hl => by
    simp only [spanLen] at hk hl
    have hn : (pos a k - r.sequence).toNat = k := by
      rw [hseq, Serial.toNat_sub_self_pos, Nat.mod_eq_of_lt (by omega)]
    have hb : tcpSeqBefore (pos a k) r.sequence = false := by
      rw [hseq, ← Bool.not_eq_true]
      intro hb
      have := Serial.before_iff.1 hb
      rw [Serial.toNat_sub_self_pos] at this
      omega
    simp only [trimRetx, hb, Bool.false_or]
    by_cases h0 : k = 0
    · subst h0
      rw [if_pos (by simp [hseq])]
      simpa [spanLen] using ⟨hseq, hpos, ht⟩
    have hne : ¬ (pos a k - r.sequence == 0) = true := by
      intro e
      rw [beq_iff_eq] at e
      rw [e] at hn
      exact h0 hn.symm
    rw [if_neg hne]
    by_cases hlt : k < r.length
    · -- the ack ends inside this record: its rest starts at the ack
      rw [if_pos (by rwa [hn]), hn]
      refine ⟨⟨?_, ?_, ?_⟩, ?_⟩
      · simp
      · exact Nat.sub_pos_of_lt hlt
      · have : pos a k + UInt32.ofNat (r.length - k) = a + UInt32.ofNat r.length := by
          rw [Serial.pos_add, Nat.add_sub_cancel' hlt.le]
          rfl
        rwa [this]
      · simp only [spanLen]
        omega
    -- the record is covered: go on from its end
    rw [if_neg (by rwa [hn])]
    have hk' : pos a k = pos (a + UInt32.ofNat r.length) (k - r.length) := by
      rw [show a + UInt32.ofNat r.length = pos a r.length from rfl, Serial.pos_pos,
        Nat.add_sub_cancel' (by omega)]
    rw [hk']
    obtain ⟨h1, h2⟩ := ht.trim (k := k - r.length) (by omega) (by omega)
    exact ⟨h1, by simp only [spanLen]; omega⟩

theorem length_trimRetx (ack : UInt32) : ∀ l : List Retx, (trimRetx ack l).length ≤ l.length
  | [] => le_refl _
  | r :: rs => by
    simp only [trimRetx]
    have := length_trimRetx ack rs
    split_ifs <;> simp only [List.length_cons] <;> omega

theorem flags_trimRetx {P : UInt8 → Prop} (ack : UInt32) : ∀ {l : List Retx}, (∀ r ∈ l, P r.flags) →
    ∀ r ∈ trimRetx ack l, P r.flags
  | [], h => h
  | r :: rs, h => by
    simp only [trimRetx]
    split_ifs
    · exact h
    · intro q hq
      rcases List.mem_cons.1 hq with rfl | hq
      · exact h r (by simp)
      · exact h q (by simp [hq])
    · exact flags_trimRetx ack fun q hq => h q (by simp [hq])

/-! ## Phases -/

/-- Before our SYN: nothing sent, nothing buffered. -/
structure PreSyn (s : SendSide) : Prop where
  una : s.sndUna = s.iss
  nxt : s.sndNxt = s.iss
  txSequence : s.txSequence = s.iss + 1
  txCount : s.txCount = 0
  retx : s.retx = []
  synSent : s.synSent = false
  finSent : s.finSent = false

/-- Our SYN is in flight, and nothing else. -/
structure SynOut (s : SendSide) : Prop where
  una : s.sndUna = s.iss
  nxt : s.sndNxt = s.iss + 1
  txSequence : s.txSequence = s.iss + 1
  txCount : s.txCount = 0
  retx : ∃ r, s.retx = [r] ∧ r.sequence = s.iss ∧ r.length = 1 ∧ has r.flags TCP_SYN = true
  synSent : s.synSent = true
  finSent : s.finSent = false

/-- Data flows: what is in flight is the front of the transmit ring. -/
structure Data (s : SendSide) : Prop where
  txSequence : s.txSequence = s.sndUna
  tiles : Tiles s.retx s.sndUna s.sndNxt
  span : spanLen s.retx ≤ s.txCount
  txCount : s.txCount ≤ TCP_TXBUF_MAX
  plain : ∀ r ∈ s.retx, has r.flags (TCP_SYN ||| TCP_FIN) = false
  synSent : s.synSent = true
  finSent : s.finSent = false

/-- Our FIN is in flight, and nothing else. -/
structure FinOut (s : SendSide) : Prop where
  una : s.sndUna = s.finSequence
  nxt : s.sndNxt = s.finSequence + 1
  txCount : s.txCount = 0
  retx : ∃ r, s.retx = [r] ∧ r.sequence = s.finSequence ∧ r.length = 1 ∧ has r.flags TCP_FIN = true
  finSent : s.finSent = true

/-- Our FIN is acknowledged. -/
structure FinDone (s : SendSide) : Prop where
  una : s.sndUna = s.sndNxt
  txCount : s.txCount = 0
  retx : s.retx = []

/-- What the send side looks like in each state. -/
def Phase : State → SendSide → Prop
  | .closed, _ => True
  | .listen, s => PreSyn s
  | .synSent, s | .synRcvd, s => PreSyn s ∨ SynOut s
  | .established, s | .closeWait, s => Data s
  | .finWait1, s | .closing, s | .lastAck, s => FinOut s
  | .finWait2, s | .timeWait, s => FinDone s

/-- The send side is in order: it fits its state, its records fit their
table, and a segment can carry something. -/
structure SendOk (st : State) (s : SendSide) : Prop where
  phase : Phase st s
  records : s.retx.length ≤ TCP_RETX_MAX
  mss : 0 < s.mss
  localMss : 0 < s.localMss

/-- `ack` acknowledges something in flight. -/
def AckOk (s : SendSide) (ack : UInt32) : Prop :=
  0 < ack - s.sndUna ∧ ack - s.sndUna ≤ s.sndNxt - s.sndUna

variable {s : SendSide}

theorem Data.flight (h : Data s) : (s.sndNxt - s.sndUna).toNat = spanLen s.retx := by
  have hs := h.span
  have hc : s.txCount ≤ 8192 := h.txCount
  exact h.tiles.toNat_sub (by omega)

theorem Data.nil_of_flight (h : Data s) (hf : s.sndNxt = s.sndUna) : s.retx = [] := by
  have hl := h.flight
  rw [hf, sub_self] at hl
  exact h.tiles.nil_of_span hl.symm

/-- Everything an acceptable ack covers is in the ring. -/
theorem Data.ackedBytes {ack : UInt32} (h : Data s) (ha : AckOk s ack) :
    ackedBytes s ack = (ack - s.sndUna).toNat := by
  have hle : (ack - s.sndUna).toNat ≤ spanLen s.retx := by
    rw [← h.flight]
    exact UInt32.le_iff_toNat_le.1 ha.2
  have hs := h.span
  have hc : s.txCount ≤ 8192 := h.txCount
  have hb : tcpSeqBefore ack s.txSequence = false := by
    rw [← Bool.not_eq_true]
    intro hb
    have := Serial.before_iff.1 hb
    rw [h.txSequence] at this
    omega
  unfold Tcp.ackedBytes
  rw [hb, h.txSequence]
  simp only [Bool.not_false, if_true]
  omega

theorem Data.ack {ack : UInt32} (h : Data s) (ha : AckOk s ack) : Data (ackSend s ack) := by
  have hle : (ack - s.sndUna).toNat ≤ spanLen s.retx := by
    rw [← h.flight]
    exact UInt32.le_iff_toNat_le.1 ha.2
  have hs := h.span
  have hc : s.txCount ≤ 8192 := h.txCount
  have hack : ack = pos s.sndUna (ack - s.sndUna).toNat := Serial.eq_pos _ _
  obtain ⟨ht, hl⟩ := h.tiles.trim hle (by omega)
  rw [← hack] at ht hl
  have hbytes := h.ackedBytes ha
  refine ⟨?_, ht, ?_, ?_, flags_trimRetx (P := fun f => has f _ = false) ack h.plain, h.synSent, h.finSent⟩
  · simp only [ackSend, hbytes, h.txSequence]
    exact hack.symm
  · simp only [ackSend, hbytes]
    omega
  · exact (Nat.sub_le _ _).trans h.txCount

/-- The handshake's ack empties the records and starts the data phase. -/
theorem SynOut.ack (h : SynOut s) : Data (ackSend s s.sndNxt) := by
  obtain ⟨r, hr, hseq, hlen, hflags⟩ := h.retx
  have htrim : trimRetx s.sndNxt s.retx = [] := by
    rw [hr, trimRetx, h.nxt, hseq]
    simp [hlen, tcpSeqBefore, trimRetx]
  have hbytes : Tcp.ackedBytes s s.sndNxt = 0 := by
    unfold Tcp.ackedBytes
    rw [h.txCount, Nat.min_zero, ite_self]
  refine ⟨?_, ?_, ?_, ?_, ?_, h.synSent, h.finSent⟩
  · simp only [ackSend, hbytes, h.txSequence]
    simp [h.nxt]
  · simp only [ackSend, htrim]
    rfl
  · simp [ackSend, htrim, spanLen]
  · simp [ackSend, h.txCount]
  · simp [ackSend, htrim]

theorem SynOut.ackOk (h : SynOut s) : AckOk s s.sndNxt := by
  unfold AckOk
  rw [h.una, h.nxt, add_sub_cancel_left]
  exact ⟨by decide, by decide⟩

/-- Only the FIN is in flight, so an acceptable ack is the FIN's. -/
theorem FinOut.ack {ack : UInt32} (h : FinOut s) (ha : AckOk s ack) :
    ack = s.finSequence + 1 ∧ FinDone (ackSend s ack) := by
  obtain ⟨r, hr, hseq, hlen, hflags⟩ := h.retx
  have hack : ack = s.finSequence + 1 := by
    unfold AckOk at ha
    rw [h.una, h.nxt, add_sub_cancel_left] at ha
    grind
  have htrim : trimRetx ack s.retx = [] := by
    rw [hr, trimRetx, hack, hseq]
    simp [hlen, tcpSeqBefore, trimRetx]
  exact ⟨hack, hack.trans h.nxt.symm, by simp [ackSend, h.txCount], htrim⟩

theorem FinDone.not_ackOk {ack : UInt32} (h : FinDone s) : ¬ AckOk s ack := by
  unfold AckOk
  rw [h.una, sub_self]
  grind

variable {st : State}

/-- In every state but `CLOSED` the records tile what is in flight, and span
no more than the ring holds. -/
theorem Phase.tiles_span (h : Phase st s) (hst : st ≠ .closed) :
    Tiles s.retx s.sndUna s.sndNxt ∧ spanLen s.retx ≤ TCP_TXBUF_MAX := by
  have one {seq : UInt32} {flag : UInt8}
      (hr : ∃ r, s.retx = [r] ∧ r.sequence = seq ∧ r.length = 1 ∧ has r.flags flag = true)
      (hu : s.sndUna = seq) (hn : s.sndNxt = seq + 1) :
      Tiles s.retx s.sndUna s.sndNxt ∧ spanLen s.retx ≤ TCP_TXBUF_MAX := by
    obtain ⟨r, hr, hseq, hlen, _⟩ := hr
    rw [hr, hu, hn]
    refine ⟨⟨hseq, by simp [hlen], by rw [hlen]; rfl⟩, ?_⟩
    rw [spanLen, spanLen, hlen]
    decide
  have none (hr : s.retx = []) (hu : s.sndUna = s.sndNxt) :
      Tiles s.retx s.sndUna s.sndNxt ∧ spanLen s.retx ≤ TCP_TXBUF_MAX := by
    rw [hr]
    exact ⟨hu, Nat.zero_le _⟩
  have pre (h : PreSyn s) := none h.retx (h.una.trans h.nxt.symm)
  have syn (h : SynOut s) := one h.retx h.una h.nxt
  have data (h : Data s) := And.intro h.tiles (h.span.trans h.txCount)
  have fin (h : FinOut s) := one h.retx h.una h.nxt
  have done (h : FinDone s) := none h.retx h.una
  cases st with
  | closed => exact absurd rfl hst
  | listen => exact pre h
  | synSent | synRcvd => exact h.elim pre syn
  | established | closeWait => exact data h
  | finWait1 | closing | lastAck => exact fin h
  | finWait2 | timeWait => exact done h

theorem Phase.flight (h : Phase st s) (hst : st ≠ .closed) : (s.sndNxt - s.sndUna).toNat = spanLen s.retx := by
  obtain ⟨ht, hl⟩ := h.tiles_span hst
  exact ht.toNat_sub (Nat.lt_of_le_of_lt hl (by decide))

theorem Phase.flight_le (h : Phase st s) (hst : st ≠ .closed) : (s.sndNxt - s.sndUna).toNat ≤ TCP_TXBUF_MAX :=
  (h.flight hst).trans_le (h.tiles_span hst).2

/-! ## Input -/

/-- The part of the send side that says which bytes of the stream it holds. -/
structure TxView where
  iss : UInt32
  txSequence : UInt32
  txHead : Nat
  txCount : Nat
  tx : Nat → UInt8

def SendSide.view (s : SendSide) : TxView := ⟨s.iss, s.txSequence, s.txHead, s.txCount, s.tx⟩

/-- What an input with header `h` may do to the send side. -/
inductive Moved (h : Header) (s : SendSide) (st' : State) (s' : SendSide) : Prop
  | keep (una : s'.sndUna = s.sndUna) (view : s'.view = s.view)
  | closed (una : s'.sndUna = s.sndUna) (state : st' = .closed)
  | acked (flag : has h.flags TCP_ACK = true) (ok : AckOk s h.acknowledgment)
      (una : s'.sndUna = h.acknowledgment) (view : s'.view = (ackSend s h.acknowledgment).view)

variable {h : Header}

/-- The state may still move when the send side does not, unless it closes. -/
theorem Moved.state {s s' : SendSide} {st st' : State} (hm : Moved h s st s')
    (hst : st = .closed → st' = .closed) : Moved h s st' s' := by
  cases hm with
  | keep una view => exact .keep una view
  | closed una state => exact .closed una (hst state)
  | acked flag ok una view => exact .acked flag ok una view

/-- The send side after `c'` is in order, and moved as an input may move it. -/
structure InputOk (h : Header) (s : SendSide) (c' : Conn) : Prop where
  ok : SendOk c'.state c'.snd
  moved : Moved h s c'.state c'.snd

theorem InputOk.same {c c' : Conn} (hok : SendOk c.state c.snd) (hst : c'.state = c.state)
    (hsnd : c'.snd = c.snd) : InputOk h c.snd c' :=
  ⟨hst ▸ hsnd ▸ hok, .keep (by rw [hsnd]) (by rw [hsnd])⟩

variable {c : Conn} {len : Nat}

theorem SendOk.fail {e : Int} {b : Bool} (h : SendOk c.state c.snd) :
    SendOk (Tcp.fail c e b).state (Tcp.fail c e b).snd :=
  ⟨trivial, Nat.zero_le _, h.mss, h.localMss⟩

theorem InputOk.fail {e : Int} {b : Bool} (hok : SendOk c.state c.snd) : InputOk h c.snd (Tcp.fail c e b) :=
  ⟨hok.fail, .closed rfl rfl⟩

theorem SendOk.ackSend {st st' : State} {ack : UInt32} (h : SendOk st s)
    (hp : Phase st' (ackSend s ack)) : SendOk st' (ackSend s ack) :=
  ⟨hp, (length_trimRetx _ _).trans h.records, h.mss, h.localMss⟩

theorem SendOk.receiveSyn (hok : SendOk c.state c.snd)
    (hmss : (h.hasMss && h.mss == 0) = false) (hp : Phase st (receiveSyn c h).snd) :
    SendOk st (receiveSyn c h).snd := by
  refine ⟨hp, hok.records, ?_, hok.localMss⟩
  have hl := hok.localMss
  have hp0 : 0 < if h.hasMss then h.mss else 536 := by
    split
    · rename_i hm
      rw [hm, Bool.true_and, beq_eq_false_iff_ne] at hmss
      exact UInt16.pos_iff_ne_zero.2 hmss
    · decide
  simp only [Tcp.receiveSyn, min32]
  generalize (if h.hasMss then h.mss else 536) = peerMss at hp0 ⊢
  split_ifs
  · simpa using hl
  · simpa using hp0

/-- After the handshake, `process_ack` with an acceptable ack. -/
theorem InputOk.processAck (hok : SendOk c.state c.snd) (hpre : c.state.handshake = false)
    (hflag : has h.flags TCP_ACK = true)
    (hack : tcpSeqBefore c.snd.sndUna h.acknowledgment = true → AckOk c.snd h.acknowledgment) :
    InputOk h c.snd (processAck c h len) := by
  by_cases hb : tcpSeqBefore c.snd.sndUna h.acknowledgment = true
  · have ha := hack hb
    have hsnd : (Tcp.processAck c h len).snd = Tcp.ackSend c.snd h.acknowledgment := by
      rw [processAck_snd, if_pos hb]
    refine ⟨?_, .acked hflag ha (by rw [hsnd]; rfl) (by rw [hsnd])⟩
    rw [hsnd, processAck_state, hb, Bool.true_and]
    refine hok.ackSend ?_
    have hph := hok.phase
    cases hst : c.state <;> rw [hst] at hph hpre
    case closed => split <;> trivial
    case established | closeWait =>
      have hd : Data c.snd := hph
      rw [hd.finSent, Bool.false_and, if_neg Bool.false_ne_true]
      exact hd.ack ha
    case finWait1 | closing | lastAck =>
      obtain ⟨he, hdone⟩ := FinOut.ack hph ha
      rw [if_pos (by simp [(show FinOut c.snd from hph).finSent, he])]
      first | exact hdone | trivial
    case finWait2 | timeWait => exact absurd ha (FinDone.not_ackOk hph)
    all_goals cases hpre
  · refine .same hok ?_ ?_
    · simp [processAck_state, hb]
    · simp [processAck_snd, hb]

theorem InputOk.congr {c c' : Conn} (hc : InputOk h s c)
    (hst : c'.state = c.state) (hsnd : c'.snd = c.snd) : InputOk h s c' :=
  ⟨hst ▸ hsnd ▸ hc.ok, hst ▸ hsnd ▸ hc.moved⟩

theorem SendOk.finState (h : SendOk st s) : SendOk (finState st) s := by
  refine ⟨?_, h.records, h.mss, h.localMss⟩
  have hp := h.phase
  cases st <;> exact hp

theorem InputOk.receiveData (hc : InputOk h s c)
    (hst : c.state ≠ .closed) (data : List UInt8) : InputOk h s (receiveData c h data) := by
  have hsnd := receiveData_snd c h data
  rcases receiveData_state c h data with hs | hs
  · exact hc.congr hs hsnd
  refine ⟨?_, ?_⟩
  · rw [hs, hsnd]
    exact hc.ok.finState
  · rw [hs, hsnd]
    exact hc.moved.state fun e => absurd e hst

theorem InputOk.establish (hok : SendOk c.state c.snd)
    (hs : SynOut c.snd) (hflag : has h.flags TCP_ACK = true) (hack : h.acknowledgment = c.snd.sndNxt)
    (huna : c.snd.sndUna = s.sndUna) (hnxt : c.snd.sndNxt = s.sndNxt) (hview : c.snd.view = s.view) :
    InputOk h s (establish c h.acknowledgment) := by
  rw [hack]
  have hsnd : (Tcp.establish c c.snd.sndNxt).snd = Tcp.ackSend c.snd c.snd.sndNxt := ackNew_snd _ _
  have hd : Phase .established (Tcp.ackSend c.snd c.snd.sndNxt) := hs.ack
  have hackOk : AckOk s h.acknowledgment := by
    have := hs.ackOk
    unfold AckOk at this ⊢
    rwa [hack, ← huna, ← hnxt]
  refine ⟨?_, .acked hflag hackOk ?_ ?_⟩
  · rw [hsnd]
    exact hok.ackSend hd
  · rw [hsnd, hack]
    rfl
  -- the ring moves by the same view, so by the same bytes
  rw [hsnd, hack]
  simp only [SendSide.view, TxView.mk.injEq] at hview
  obtain ⟨h1, h2, h3, h4, h5⟩ := hview
  simp only [SendSide.view, Tcp.ackSend, ackedBytes, h1, h2, h3, h4, h5]

/-- The half-space tests of the normal path admit acks of something in
flight only, since at most a ring's worth is in flight. -/
theorem ackOk_of_tests {ack : UInt32} (hf : (s.sndNxt - s.sndUna).toNat ≤ TCP_TXBUF_MAX)
    (h1 : tcpSeqBefore s.sndNxt ack = false) (h2 : tcpSeqBefore s.sndUna ack = true) : AckOk s ack := by
  have hnb := mt Serial.before_iff.2 (Bool.not_eq_true _ ▸ h1)
  have hb := Serial.before_iff.1 h2
  unfold AckOk
  rw [UInt32.lt_iff_toNat_lt, UInt32.le_iff_toNat_le]
  have hu := s.sndUna.toNat_lt
  have ha := ack.toNat_lt
  change _ ≤ 8192 at hf
  simp only [UInt32.toNat_sub, UInt32.toNat_zero] at *
  omega

theorem ackOk_of_le {ack : UInt32} (h1 : ack - s.sndUna ≤ s.sndNxt - s.sndUna)
    (h2 : tcpSeqBefore s.sndUna ack = true) : AckOk s ack := by
  refine ⟨?_, h1⟩
  rw [UInt32.pos_iff_ne_zero]
  intro e
  rw [sub_eq_zero.1 e, show tcpSeqBefore = Serial.before from rfl, Serial.before_self] at h2
  exact Bool.false_ne_true h2

/-- In `SYN_RCVD` with the SYN out, an ack of it. -/
theorem SendOk.synOut (h : SendOk st s) (hst : st = .synSent ∨ st = .synRcvd)
    (hs : s.synSent = true) : SynOut s := by
  have hp : PreSyn s ∨ SynOut s := by
    rcases hst with rfl | rfl <;> exact h.phase
  rcases hp with hp | hp
  · rw [hp.synSent] at hs
    cases hs
  · exact hp

/-- A simultaneous open turns the SYN in flight into a SYN-ACK. -/
theorem Phase.simultaneousOpen (hp : PreSyn c.snd ∨ SynOut c.snd) : Phase .synRcvd (simultaneousOpen c).snd := by
  unfold Tcp.simultaneousOpen
  dsimp only
  split
  · rename_i hs
    rcases hp with hp | hp
    · rw [hp.synSent] at hs
      cases hs
    obtain ⟨r, hr, hseq, hlen, _⟩ := hp.retx
    refine .inr { hp with retx := ?_ }
    exact ⟨{ r with flags := TCP_SYN ||| TCP_ACK }, by simp [hr], hseq, hlen,
      (by decide : has (TCP_SYN ||| TCP_ACK) TCP_SYN = true)⟩
  · exact hp

theorem InputOk.simultaneousOpen (hok : SendOk st c.snd) (hp : PreSyn c.snd ∨ SynOut c.snd)
    (huna : c.snd.sndUna = s.sndUna) (hview : c.snd.view = s.view) : InputOk h s (simultaneousOpen c) := by
  have hlen : (Tcp.simultaneousOpen c).snd.retx.length = c.snd.retx.length := by
    unfold Tcp.simultaneousOpen
    dsimp only
    split <;> simp
  have hsnd : (Tcp.simultaneousOpen c).snd.sndUna = c.snd.sndUna ∧ (Tcp.simultaneousOpen c).snd.view = c.snd.view ∧
      (Tcp.simultaneousOpen c).snd.mss = c.snd.mss ∧ (Tcp.simultaneousOpen c).snd.localMss = c.snd.localMss := by
    unfold Tcp.simultaneousOpen
    dsimp only
    split <;> exact ⟨rfl, rfl, rfl, rfl⟩
  obtain ⟨h1, h2, h3, h4⟩ := hsnd
  refine ⟨⟨?_, ?_, ?_, ?_⟩, .keep (h1.trans huna) (h2.trans hview)⟩
  · rw [simultaneousOpen_state]
    exact Phase.simultaneousOpen hp
  · rw [hlen]
    exact hok.records
  · rw [h3]
    exact hok.mss
  · rw [h4]
    exact hok.localMss

theorem InputOk.ack (hok : SendOk c.state c.snd)
    (hlive : c.state ≠ .closed) (hst : c.state = .synRcvd ∨ c.state.handshake = false)
    (hflag : has h.flags TCP_ACK = true)
    (hsyn : c.state = .synRcvd → c.snd.synSent = true ∧ h.acknowledgment = c.snd.sndNxt)
    (hnxt : tcpSeqBefore c.snd.sndNxt h.acknowledgment = false) : InputOk h c.snd (inputAck c h len) := by
  unfold inputAck
  split_ifs with h1 h2
  · -- `SYN_RCVD`: the handshake ends, and the same ack changes nothing more
    have hs : c.state = .synRcvd := by simpa using h1
    obtain ⟨hsent, hack⟩ := hsyn hs
    have hest : InputOk h c.snd (Tcp.establish c h.acknowledgment) :=
      .establish hok (hok.synOut (.inr hs) hsent) hflag hack rfl rfl rfl
    have huna : tcpSeqBefore (Tcp.establish c h.acknowledgment).snd.sndUna h.acknowledgment = false := by
      have : (Tcp.establish c h.acknowledgment).snd = Tcp.ackSend c.snd h.acknowledgment := ackNew_snd _ _
      rw [this]
      exact Serial.before_self _
    refine hest.congr ?_ ?_
    · rw [processAck_state, huna]
      rfl
    · rw [processAck_snd, huna]
      rfl
  · have hpre := hst.resolve_left fun e => h1 (by simp [e])
    exact .processAck hok hpre hflag fun hb => ackOk_of_tests (hok.phase.flight_le hlive) hnxt hb
  · exact .same hok rfl rfl

theorem InputOk.state (hok : SendOk c.state c.snd) (hfresh : HandshakeFresh c)
    (hmss : (h.hasMss && h.mss == 0) = false) (data : List UInt8) (now : UInt64) :
    InputOk h c.snd (inputState c h data now) := by
  -- the peer's SYN changes only what a segment may carry
  have pre {s : SendSide} (hp : PreSyn s) (peerMss mss : UInt16) : PreSyn { s with peerMss, mss } :=
    { hp with }
  have syn (hs : c.state = .synSent) : PreSyn (receiveSyn c h).snd ∨ SynOut (receiveSyn c h).snd := by
    have hp : PreSyn c.snd ∨ SynOut c.snd := by
      have := hok.phase
      rwa [hs] at this
    rcases hp with hp | hp
    · exact .inl (pre hp _ _)
    · exact .inr { hp with }
  refine inputState_cases c h data now fun c' hin => ?_
  cases hin with
  | stay | answer | timeWait | synAgain | finAgain => exact .same hok rfl rfl
  | syn hs =>
    have hp : PreSyn c.snd := by
      have := hok.phase
      rwa [hs] at this
    have hp' : Phase .synRcvd (receiveSyn c h).snd := .inl (pre hp _ _)
    exact ⟨hok.receiveSyn hmss hp', .keep rfl rfl⟩
  | refused => exact .fail hok
  | opens hs acks =>
    have hok' : SendOk .synSent (receiveSyn c h).snd := hok.receiveSyn hmss (syn hs)
    have hst' : (receiveSyn c h).state = .synSent := hs
    simp only [acksSyn, Bool.and_eq_true, beq_iff_eq] at acks
    obtain ⟨⟨hflag, hsyn⟩, hack⟩ := acks
    have hest := InputOk.establish (s := c.snd) (hst'.symm ▸ hok') (hok'.synOut (.inl rfl) hsyn) hflag hack
      rfl rfl rfl
    exact hest.congr rfl rfl
  | crosses hs =>
    have hok' : SendOk .synSent (receiveSyn c h).snd := hok.receiveSyn hmss (syn hs)
    exact .simultaneousOpen hok' (syn hs) rfl rfl
  | synAcked hs acks =>
    simp only [acksSyn, Bool.and_eq_true, beq_iff_eq] at acks
    obtain ⟨⟨hflag, hsyn⟩, hack⟩ := acks
    exact (InputOk.establish hok (hok.synOut (.inr hs) hsyn) hflag hack rfl rfl rfl).congr rfl rfl
  | finAcked hs again hflag flight =>
    -- the peer's FIN was taken, so the handshake is over
    have hpre : c.state.handshake = false := by
      refine (State.synced_cases hs).2.2.resolve_left fun e => ?_
      have hf := (hfresh (by rw [e]; rfl)).eof
      simp [isFinAgain, hf] at again
    exact (InputOk.processAck hok hpre hflag (ackOk_of_le flight)).congr rfl rfl
  | segment hs seg =>
    obtain ⟨hlive, _, hst⟩ := State.synced_cases hs
    cases seg with
    | quiet | refuse => exact .same hok rfl rfl
    | reset => exact .fail hok
    | accept _ _ hflag hsyn hnxt =>
      have hack : InputOk h c.snd (inputAck c h data.length) := .ack hok hlive hst hflag hsyn hnxt
      unfold acceptSegment
      dsimp only
      split
      · rename_i hopen
        exact hack.receiveData (by simpa using hopen) data
      · exact hack

theorem tcpConnTick_send (hok : SendOk c.state c.snd) (now : UInt64) :
    SendOk (tcpConnTick c now).state (tcpConnTick c now).snd ∧
      (tcpConnTick c now).snd.sndUna = c.snd.sndUna ∧
      ((tcpConnTick c now).state = .closed ∨
        (tcpConnTick c now).state = c.state ∧ (tcpConnTick c now).snd = c.snd) := by
  refine tcpConnTick_cases (P := fun c' => SendOk c'.state c'.snd ∧ c'.snd.sndUna = c.snd.sndUna ∧
    (c'.state = .closed ∨ c'.state = c.state ∧ c'.snd = c.snd)) c now fun c' ht => ?_
  cases ht with
  | late | rests | drops | runs => exact ⟨hok, rfl, .inr ⟨rfl, rfl⟩⟩
  | leaves => exact ⟨⟨trivial, hok.records, hok.mss, hok.localMss⟩, rfl, .inl rfl⟩
  | expires persist =>
    exact ⟨SendOk.fail hok, rfl, .inl rfl⟩

/-- **Input keeps the send side in order, and moves it by an ack of
something in flight or not at all.** -/
theorem tcpConnInput_send (hok : SendOk c.state c.snd) (hfresh : HandshakeFresh c) (h : Header)
    (data : List UInt8) (now : UInt64) : InputOk h c.snd (tcpConnInput c h data now) := by
  unfold tcpConnInput
  split
  · rename_i hadm
    simp only [admits, Bool.and_eq_true, Bool.not_eq_true'] at hadm
    obtain ⟨htick, huna, hcase⟩ := tcpConnTick_send hok now
    have hin := InputOk.state htick (hfresh.tick now) hadm.1.2 data now
    rcases hcase with hcl | ⟨hst, hsnd⟩
    · -- the tick closed the connection: a closed block only answers
      have hsame : (inputState (tcpConnTick c now) h data now).state = .closed ∧
          (inputState (tcpConnTick c now) h data now).snd = (tcpConnTick c now).snd := by
        unfold inputState
        rw [hcl]
        dsimp only
        split
        · exact ⟨hcl, rfl⟩
        · exact ⟨hcl, rfl⟩
      exact ⟨hin.ok, .closed ((congrArg SendSide.sndUna hsame.2).trans huna) hsame.1⟩
    · rwa [hsnd] at hin
  · exact .same hok rfl rfl

end Fortress.Tcp
