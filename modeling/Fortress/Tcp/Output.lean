/-
What a connection sends. `tcp_conn_prepare` chooses an action, and
`tcp_conn_commit` books the action it is given only if nothing changed since,
so what is booked is what the block would choose now. Each choice keeps the
send side in order; with the input lemmas this makes the sequence-space
invariant hold in every reachable state.
-/
import Fortress.Tcp.Send

namespace Fortress.Tcp

open Serial (pos)

theorem toNat_min32 (a b : UInt32) : (min32 a b).toNat = min a.toNat b.toNat := by
  unfold min32
  split <;> rename_i h <;> rw [UInt32.lt_iff_toNat_lt] at h <;> omega

variable {s : SendSide} {st : State}

theorem phase_iff_data (hst : st = .established ∨ st = .closeWait) : Phase st s ↔ Data s := by
  rcases hst with rfl | rfl <;> exact Iff.rfl

/-! ## Choices -/

/-- The actions a block may choose, with what each says about the block. -/
inductive Choice (c : Conn) : Action → Prop
  | reset : Choice c { ackAction c with kind := .reset, header := c.out.resetHeader }
  | syn (state : c.state = .synSent ∨ c.state = .synRcvd) (unsent : c.snd.synSent = false) :
      Choice c (synAction c)
  | retx {r : Retx} {rs : List Retx} (live : c.state ≠ .closed) (head : c.snd.retx = r :: rs) :
      Choice c (retxAction c r)
  | ack : Choice c (ackAction c)
  | probe (live : c.state ≠ .closed) : Choice c (probeAction c)
  | data {n : Nat} (state : c.state = .established ∨ c.state = .closeWait)
      (room : c.snd.retx.length < TCP_RETX_MAX) (pos : 0 < n)
      (fits : (c.snd.sndNxt - c.snd.txSequence).toNat + n ≤ c.snd.txCount) : Choice c (dataAction c n)
  | fin (state : c.state = .established ∨ c.state = .closeWait) (noReset : c.out.resetPending = false)
      (idle : c.snd.sndNxt = c.snd.sndUna) (empty : c.snd.txCount = 0) : Choice c (finAction c)

theorem newLength {count sent limit flight : UInt32} {mss : UInt16} (hs : sent < count)
    (hm : 0 < mss) (hl : flight < limit) :
    0 < (min32 (count - sent) (min32 mss.toUInt32 (limit - flight))).toUInt16.toNat ∧
      sent.toNat + (min32 (count - sent) (min32 mss.toUInt32 (limit - flight))).toUInt16.toNat ≤ count.toNat := by
  rw [UInt32.lt_iff_toNat_lt] at hs hl
  rw [UInt16.lt_iff_toNat_lt] at hm
  have hmss := mss.toNat_lt
  have h1 : (count - sent).toNat = count.toNat - sent.toNat :=
    UInt32.toNat_sub_of_le _ _ (UInt32.le_iff_toNat_le.2 hs.le)
  have h2 : (limit - flight).toNat = limit.toNat - flight.toNat :=
    UInt32.toNat_sub_of_le _ _ (UInt32.le_iff_toNat_le.2 hl.le)
  rw [UInt32.toNat_toUInt16, toNat_min32, toNat_min32, h1, h2, UInt16.toNat_toUInt32]
  rw [Nat.mod_eq_of_lt (by omega)]
  omega

variable {a : Action} {c : Conn} {now : UInt64}

theorem newAction_cases (hok : SendOk c.state c.snd)
    (hreset : c.out.resetPending = false) (h : newAction c = some a) : Choice c a := by
  unfold newAction at h
  dsimp only at h
  split_ifs at h with h1 h2 h3 h4
  · have hst : c.state = .established ∨ c.state = .closeWait := by
      simp only [Bool.and_eq_true, bne_iff_ne, ne_eq, not_and, not_not] at h1
      exact Decidable.or_iff_not_imp_left.2 h1
    have hd : Data c.snd := (phase_iff_data hst).1 hok.phase
    simp only [Bool.or_eq_true, decide_eq_true_eq, beq_iff_eq, not_or, UInt32.not_le] at h2
    have hcount : (UInt32.ofNat c.snd.txCount).toNat = c.snd.txCount := by
      exact UInt32.toNat_ofNat_of_lt' (Nat.lt_of_le_of_lt hd.txCount (by decide))
    have hlt : c.snd.sndNxt - c.snd.txSequence < UInt32.ofNat c.snd.txCount := by
      rw [UInt32.lt_iff_toNat_lt, hcount]
      exact h3
    obtain ⟨hn, hfit⟩ := newLength hlt hok.mss h2.1
    rw [hcount] at hfit
    cases h
    exact .data hst (Nat.lt_of_le_of_ne hok.records h2.2) hn hfit
  have hst : c.state = .established ∨ c.state = .closeWait := by
    simp only [Bool.and_eq_true, bne_iff_ne, ne_eq, not_and, not_not] at h1
    exact Decidable.or_iff_not_imp_left.2 h1
  simp only [Bool.and_eq_true, beq_iff_eq] at h4
  cases h
  exact .fin hst hreset (sub_eq_zero.1 h4.1.2) h4.2

theorem nextAction_cases (hok : SendOk c.state c.snd) (h : nextAction c = some a) : Choice c a := by
  unfold nextAction at h
  split at h
  · cases h
    exact .reset
  rename_i h1
  split at h
  · exact absurd h (by simp)
  rename_i h2
  have hlive : c.state ≠ .closed := fun e => h2 (by simp [e])
  split at h
  · rename_i h3
    cases h
    simp only [Bool.and_eq_true, Bool.or_eq_true, beq_iff_eq, Bool.not_eq_true'] at h3
    exact .syn h3.1 h3.2
  split at h
  · rename_i r rs _ hr
    cases h
    exact .retx hlive hr
  split at h
  · cases h
    exact .ack
  split at h
  · cases h
    exact .probe hlive
  · exact newAction_cases hok (by simpa using h1) h

/-- A buffered byte means the connection is in its data phase. -/
theorem SendOk.data_of_txCount (h : SendOk st s) (hst : st ≠ .closed)
    (hc : s.txCount ≠ 0) : Data s ∧ (st = .established ∨ st = .closeWait) := by
  have hp := h.phase
  cases st with
  | closed => exact absurd rfl hst
  | listen => exact absurd (PreSyn.txCount hp) hc
  | synSent | synRcvd => exact absurd (hp.elim PreSyn.txCount SynOut.txCount) hc
  | established => exact ⟨hp, .inl rfl⟩
  | closeWait => exact ⟨hp, .inr rfl⟩
  | finWait1 | closing | lastAck => exact absurd (FinOut.txCount hp) hc
  | finWait2 | timeWait => exact absurd (FinDone.txCount hp) hc

/-- A record in flight that carries data is the front of the ring. -/
theorem SendOk.data_of_record {r : Retx} {rs : List Retx} (h : SendOk st s)
    (hst : st ≠ .closed) (hr : s.retx = r :: rs) (hf : has r.flags (TCP_SYN ||| TCP_FIN) = false) : Data s := by
  rw [has_or, Bool.or_eq_false_iff] at hf
  have syn (hs : SynOut s) : False := by
    obtain ⟨q, hq, _, _, hflags⟩ := hs.retx
    obtain ⟨rfl, _⟩ := List.cons.inj (hr.symm.trans hq)
    exact Bool.false_ne_true (hf.1.symm.trans hflags)
  have fin (hs : FinOut s) : False := by
    obtain ⟨q, hq, _, _, hflags⟩ := hs.retx
    obtain ⟨rfl, _⟩ := List.cons.inj (hr.symm.trans hq)
    exact Bool.false_ne_true (hf.2.symm.trans hflags)
  have none (hs : s.retx = []) : False := by
    rw [hs] at hr
    exact List.cons_ne_nil _ _ hr.symm
  have hp := h.phase
  cases st with
  | closed => exact absurd rfl hst
  | listen => exact (none (PreSyn.retx hp)).elim
  | synSent | synRcvd => exact (hp.elim (fun hp => none hp.retx) syn).elim
  | established | closeWait => exact hp
  | finWait1 | closing | lastAck => exact (fin hp).elim
  | finWait2 | timeWait => exact (none (FinDone.retx hp)).elim

/-- A closed block has no data to send. -/
theorem Choice.live (h : Choice c a) (hlen : a.dataLen ≠ 0) : c.state ≠ .closed := by
  cases h with
  | reset | ack => exact absurd rfl hlen
  | syn _ _ => exact absurd rfl hlen
  | retx live _ => exact live
  | probe live => exact live
  | data hs _ _ _ | fin hs _ _ _ =>
    rcases hs with e | e <;> rw [e] <;> decide

/-- **Every byte an action carries is in the transmit ring.** -/
theorem Choice.fits (h : Choice c a) (hok : SendOk c.state c.snd) (hlen : a.dataLen ≠ 0) :
    (a.header.sequence - c.snd.txSequence).toNat + a.dataLen ≤ c.snd.txCount ∧ c.snd.txCount ≤ TCP_TXBUF_MAX := by
  cases h with
  | reset | ack | syn _ _ | fin _ _ _ _ => exact absurd rfl hlen
  | @retx r rs hlive hr =>
    have hf : has r.flags (TCP_SYN ||| TCP_FIN) = false := by
      rw [← Bool.not_eq_true]
      intro e
      exact hlen (by simp [retxAction, e])
    have hd := hok.data_of_record hlive hr hf
    have hspan := hd.span
    have htiles := hd.tiles
    rw [hr] at hspan htiles
    simp only [retxAction, hf, Bool.false_eq_true, if_false, hd.txSequence, htiles.1, sub_self]
    simp only [spanLen] at hspan
    exact ⟨by simp only [UInt32.toNat_zero]; omega, hd.txCount⟩
  | probe hlive =>
    have hc : c.snd.txCount ≠ 0 := by
      intro e
      exact hlen (by simp [probeAction, e])
    obtain ⟨hd, _⟩ := hok.data_of_txCount hlive hc
    have hb : (c.snd.txCount != 0) = true := by simpa using hc
    simp only [probeAction, hb, if_true, hd.txSequence, sub_self, UInt32.toNat_zero]
    exact ⟨by omega, hd.txCount⟩
  | data hst _ _ hfit =>
    have hd : Data c.snd := (phase_iff_data hst).1 hok.phase
    exact ⟨hfit, hd.txCount⟩

/-! ## Booking an action -/

theorem SendOk.mark (h : SendOk st s) : SendOk st (markRetransmitted s) := by
  have one {seq : UInt32} {flag : UInt8}
      (hr : ∃ r, s.retx = [r] ∧ r.sequence = seq ∧ r.length = 1 ∧ has r.flags flag = true) :
      ∃ r, (markRetransmitted s).retx = [r] ∧ r.sequence = seq ∧ r.length = 1 ∧ has r.flags flag = true := by
    obtain ⟨r, hr, h1, h2, h3⟩ := hr
    exact ⟨{ r with retransmitted := true }, by simp [markRetransmitted, hr], h1, h2, h3⟩
  have none (hr : s.retx = []) : (markRetransmitted s).retx = [] := by simp [markRetransmitted, hr]
  have pre (hp : PreSyn s) : PreSyn (markRetransmitted s) :=
    { hp with retx := none hp.retx }
  have syn (hp : SynOut s) : SynOut (markRetransmitted s) :=
    { hp with retx := one hp.retx }
  have data (hp : Data s) : Data (markRetransmitted s) := by
    let f : Retx → Retx := fun r => { r with retransmitted := true }
    refine ⟨hp.txSequence, hp.tiles.modifyHead (fun _ => rfl) (fun _ => rfl), ?_, hp.txCount, ?_,
      hp.synSent, hp.finSent⟩
    · refine Eq.trans_le ?_ hp.span
      cases hr : s.retx <;> simp [markRetransmitted, hr, spanLen]
    intro r hr
    simp only [markRetransmitted] at hr
    cases hrs : s.retx with
    | nil => simp [hrs] at hr
    | cons q rs =>
      have hplain := hp.plain
      rw [hrs] at hr hplain
      rcases List.mem_cons.1 hr with rfl | hr
      · exact hplain q (by simp)
      · exact hplain r (by simp [hr])
  have fin (hp : FinOut s) : FinOut (markRetransmitted s) :=
    ⟨hp.una, hp.nxt, hp.txCount, one hp.retx, hp.finSent⟩
  have done (hp : FinDone s) : FinDone (markRetransmitted s) := ⟨hp.una, hp.txCount, none hp.retx⟩
  refine ⟨?_, ?_, h.mss, h.localMss⟩
  · have hp := h.phase
    cases st with
    | closed => trivial
    | listen => exact pre hp
    | synSent | synRcvd => exact hp.imp pre syn
    | established | closeWait => exact data hp
    | finWait1 | closing | lastAck => exact fin hp
    | finWait2 | timeWait => exact done hp
  · simpa [markRetransmitted] using h.records

theorem Data.push (h : Data s) (now : UInt64)
    (hseq : a.header.sequence = s.sndNxt) (hflags : has a.header.flags (TCP_SYN ||| TCP_FIN) = false)
    (hpos : 0 < a.dataLen) (hfit : (s.sndNxt - s.txSequence).toNat + a.dataLen ≤ s.txCount) :
    Data (pushRetx s a now) := by
  have hspace : a.space = a.dataLen := by simp [Action.space, hflags]
  have hf : has a.header.flags TCP_SYN = false ∧ has a.header.flags TCP_FIN = false := by
    rwa [has_or, Bool.or_eq_false_iff] at hflags
  rw [h.txSequence, h.flight] at hfit
  refine ⟨h.txSequence, ?_, ?_, h.txCount, ?_, ?_, ?_⟩
  · refine h.tiles.concat hseq ?_
    rwa [Action.record, hspace]
  · simp only [pushRetx, spanLen_concat, Action.record, hspace]
    exact hfit
  · intro r hr
    rcases List.mem_append.1 hr with hr | hr
    · exact h.plain r hr
    rw [List.mem_singleton.1 hr]
    exact hflags
  · simp [pushRetx, hf.1, h.synSent]
  · simp [pushRetx, hf.2, h.finSent]

theorem PreSyn.push (h : PreSyn s) (hseq : a.header.sequence = s.iss) (hsyn : has a.header.flags TCP_SYN = true)
    (hfin : has a.header.flags TCP_FIN = false) : SynOut (pushRetx s a now) := by
  have hspace : a.space = 1 := by simp [Action.space, has_or, hsyn]
  refine ⟨h.una, ?_, h.txSequence, h.txCount, ?_, ?_, ?_⟩
  · simp only [pushRetx, hspace, h.nxt]
    rfl
  · exact ⟨a.record now, by simp [pushRetx, h.retx], hseq, hspace, hsyn⟩
  · simp [pushRetx, hsyn]
  · simp [pushRetx, hfin, h.finSent]

theorem Data.pushFin (h : Data s) (now : UInt64)
    (hidle : s.sndNxt = s.sndUna) (hempty : s.txCount = 0) (hseq : a.header.sequence = s.sndNxt)
    (hfin : has a.header.flags TCP_FIN = true) : FinOut (pushRetx s a now) := by
  have hspace : a.space = 1 := by simp [Action.space, has_or, hfin]
  have hretx := h.nil_of_flight hidle
  have hfs : (pushRetx s a now).finSequence = s.sndNxt := by simp [pushRetx, hfin, hseq]
  refine ⟨?_, ?_, hempty, ?_, ?_⟩
  · rw [hfs, hidle]
    rfl
  · rw [hfs]
    simp only [pushRetx, hspace]
    rfl
  · rw [hfs]
    exact ⟨a.record now, by simp [pushRetx, hretx], hseq, hspace, hfin⟩
  · simp [pushRetx, hfin]

theorem SendOk.push {st' : State} (h : SendOk st s)
    (hroom : s.retx.length < TCP_RETX_MAX) (hp : Phase st' (pushRetx s a now)) : SendOk st' (pushRetx s a now) :=
  ⟨hp, by rw [pushRetx, List.length_append]; exact hroom, h.mss, h.localMss⟩

theorem commitNew_state (h : has a.header.flags TCP_FIN = false) : (commitNew c a).state = c.state := by
  simp [commitNew, h]

theorem commitSubmitted_new (hk : a.kind = .new)
    (hroom : c.snd.retx.length < TCP_RETX_MAX) : (commitSubmitted c a).2 = commitNew (ackSent c a) a := by
  have hlt : ¬ TCP_RETX_MAX ≤ (ackSent c a).snd.retx.length := Nat.not_le.2 hroom
  unfold commitSubmitted
  simp [hk, hlt]

/-- A probe takes a record if its byte was never sent. -/
theorem commitSubmitted_newProbe (hk : a.kind = .probe) (hlen : a.dataLen ≠ 0)
    (hseq : a.header.sequence = c.snd.sndNxt) (hroom : c.snd.retx.length < TCP_RETX_MAX) :
    (commitSubmitted c a).2 = commitProbe (commitNew (ackSent c a) a) := by
  have hlt : ¬ TCP_RETX_MAX ≤ (ackSent c a).snd.retx.length := Nat.not_le.2 hroom
  have hseq : a.header.sequence = (ackSent c a).snd.sndNxt := hseq
  unfold commitSubmitted
  simp [hk, hlt, hlen, hseq]

theorem commitSubmitted_oldProbe (hk : a.kind = .probe) (hold : a.dataLen = 0 ∨ a.header.sequence ≠ c.snd.sndNxt) :
    (commitSubmitted c a).2 = commitProbe (ackSent c a) := by
  have hb : (a.dataLen != 0 && a.header.sequence == (ackSent c a).snd.sndNxt) = false := by
    rw [Bool.and_eq_false_iff, bne_eq_false_iff_eq, beq_eq_false_iff_ne]
    exact hold
  unfold commitSubmitted
  simp [hk, hb]

/-- Booking a choice keeps the send side in order and the ring as it was. -/
theorem commitSubmitted_send (h : Choice c a) (hok : SendOk c.state c.snd) :
    SendOk (commitSubmitted (changed c) a).2.state (commitSubmitted (changed c) a).2.snd ∧
      (commitSubmitted (changed c) a).2.snd.view = c.snd.view := by
  cases h with
  | reset => exact ⟨hok, rfl⟩
  | ack => exact ⟨hok, rfl⟩
  | retx _ _ => exact ⟨hok.mark, rfl⟩
  | syn hst hunsent =>
    have hph : PreSyn c.snd ∨ SynOut c.snd := by
      have := hok.phase
      rcases hst with e | e <;> rwa [e] at this
    have hp : PreSyn c.snd := hph.resolve_right fun hp => by simp [hp.synSent] at hunsent
    have hflags : has (synAction c).header.flags TCP_SYN = true ∧
        has (synAction c).header.flags TCP_FIN = false := by
      simp only [synAction]
      cases c.synAck <;> decide
    have hroom : c.snd.retx.length < TCP_RETX_MAX := by simp [hp.retx]
    rw [commitSubmitted_new (c := changed c) (a := synAction c) rfl hroom]
    refine ⟨hok.push hroom ?_, rfl⟩
    rw [commitNew_state hflags.2]
    have hsyn : SynOut (pushRetx c.snd (synAction c) c.nowMs) := hp.push rfl hflags.1 hflags.2
    rcases hst with e | e
    all_goals
      change Phase c.state _
      rw [e]
      exact .inr hsyn
  | data hst hroom hpos hfit =>
    have hd : Data c.snd := (phase_iff_data hst).1 hok.phase
    have hd' := hd.push (a := dataAction c _) c.nowMs rfl
      (by decide : has (TCP_ACK ||| TCP_PSH) (TCP_SYN ||| TCP_FIN) = false) hpos hfit
    rw [commitSubmitted_new (c := changed c) rfl hroom]
    refine ⟨hok.push hroom ?_, rfl⟩
    rw [commitNew_state (by decide : has (TCP_ACK ||| TCP_PSH) TCP_FIN = false)]
    exact (phase_iff_data hst).2 hd'
  | fin hst _ hidle hempty =>
    have hd : Data c.snd := (phase_iff_data hst).1 hok.phase
    have hroom : c.snd.retx.length < TCP_RETX_MAX := by simp [hd.nil_of_flight hidle]
    have hf := hd.pushFin (a := finAction c) c.nowMs hidle hempty rfl
      (by decide : has (TCP_FIN ||| TCP_ACK) TCP_FIN = true)
    rw [commitSubmitted_new (c := changed c) (a := finAction c) rfl hroom]
    refine ⟨hok.push hroom ?_, rfl⟩
    rcases hst with e | e
    all_goals
      simp only [commitNew, ackSent, finAction, changed_state, e]
      exact hf
  | probe hlive =>
    by_cases hc : c.snd.txCount = 0
    · -- no byte to probe with: the segment repeats an old number
      have hlen : (probeAction c).dataLen = 0 := by simp [probeAction, hc]
      rw [commitSubmitted_oldProbe rfl (.inl hlen)]
      exact ⟨hok.mark, rfl⟩
    obtain ⟨hd, hst⟩ := hok.data_of_txCount hlive hc
    have hseq : (probeAction c).header.sequence = c.snd.sndUna := by simp [probeAction, hc]
    have hlen : (probeAction c).dataLen = 1 := by simp [probeAction, hc]
    by_cases hidle : c.snd.sndUna = c.snd.sndNxt
    · have hroom : c.snd.retx.length < TCP_RETX_MAX := by simp [hd.nil_of_flight hidle.symm]
      rw [commitSubmitted_newProbe (c := changed c) (a := probeAction c) rfl (by simp [hlen])
        (hseq.trans hidle) hroom]
      have hfit : (c.snd.sndNxt - c.snd.txSequence).toNat + (probeAction c).dataLen ≤ c.snd.txCount := by
        rw [hd.txSequence, hidle, sub_self, hlen]
        exact Nat.one_le_iff_ne_zero.2 hc
      have hd' := hd.push c.nowMs (hseq.trans hidle)
        (by decide : has TCP_ACK (TCP_SYN ||| TCP_FIN) = false) (by simp [hlen]) hfit
      refine ⟨(hok.push hroom ?_).mark, rfl⟩
      change Phase (commitNew (ackSent (changed c) (probeAction c)) (probeAction c)).state _
      rw [commitNew_state (by decide : has TCP_ACK TCP_FIN = false)]
      exact (phase_iff_data hst).2 hd'
    · have hold : (probeAction c).header.sequence ≠ c.snd.sndNxt := fun e => hidle (hseq.symm.trans e)
      rw [commitSubmitted_oldProbe (c := changed c) (a := probeAction c) rfl (.inr hold)]
      exact ⟨hok.mark, rfl⟩

theorem eq_of_sameAction {b : Action} (h : sameAction a b = true) (hg : a.generation = b.generation)
    (hr : a.revision = b.revision) : a = b := by
  obtain ⟨ag, ar, ⟨⟩, ad, ak, at'⟩ := a
  obtain ⟨bg, br, ⟨⟩, bd, bk, bt⟩ := b
  simp only [sameAction, Bool.and_eq_true, beq_iff_eq] at h hg hr
  simp_all

/-- The prepared action is the one the block would choose now. -/
def ActionOk (c : Conn) : Prop := c.out.actionPending = true → nextAction c = some c.out.action

/-- Every choice carries the block's generation and revision. -/
theorem nextAction_stamp (hok : SendOk c.state c.snd) (h : nextAction c = some a) :
    a.generation = c.generation ∧ a.revision = c.revision := by
  cases nextAction_cases hok h <;> exact ⟨rfl, rfl⟩

/-- What is committed is what the block would choose now. -/
theorem Matches.next (h : Matches c a) (hok : SendOk c.state c.snd) (hact : ActionOk c) : nextAction c = some a := by
  have hnext := hact h.pending
  obtain ⟨hg, hr⟩ := nextAction_stamp hok hnext
  rwa [eq_of_sameAction h.same (h.generation.trans hg.symm) (h.revision.trans hr.symm)]

/-! ## The invariant -/

/-- What holds of a block between operations. -/
structure SendInv (c : Conn) : Prop where
  ok : SendOk c.state c.snd
  fresh : HandshakeFresh c
  action : ActionOk c

theorem SendInv.choice (h : SendInv c) (own : Matches c a) : Choice c a :=
  nextAction_cases h.ok (own.next h.ok h.action)

theorem SendOk.wantFin (h : SendOk st s)
    (hst : st = .established ∨ st = .closeWait) : SendOk st { s with wantFin := true } := by
  have hd : Data s := (phase_iff_data hst).1 h.phase
  exact ⟨(phase_iff_data hst).2 { hd with }, h.records, h.mss, h.localMss⟩

theorem SendOk.detach (hok : SendOk c.state c.snd) (now : UInt64) :
    SendOk (detachState c now).state (detachState c now).snd := by
  unfold detachState
  split
  · exact ⟨trivial, hok.records, hok.mss, hok.localMss⟩
  · exact hok.fail
  · exact hok.fail
  · exact hok
  · exact hok
  · rename_i hs
    exact hok.wantFin (.inl hs)
  · rename_i hs
    exact hok.wantFin (.inr hs)
  · exact hok
  · exact hok

/-- Bytes accepted go behind those buffered. -/
theorem SendOk.queue (hok : SendOk c.state c.snd) (hst : c.state = .established ∨ c.state = .closeWait) {n : Nat}
    (hn : n ≤ TCP_TXBUF_MAX - c.snd.txCount) (tx : Nat → UInt8) :
    SendOk c.state { c.snd with tx, txCount := c.snd.txCount + n } := by
  have hd : Data c.snd := (phase_iff_data hst).1 hok.phase
  have hspan := hd.span
  have hcount := hd.txCount
  refine ⟨(phase_iff_data hst).2 ⟨hd.txSequence, hd.tiles, ?_, ?_, hd.plain, hd.synSent, hd.finSent⟩,
    hok.records, hok.mss, hok.localMss⟩
  · dsimp only
    omega
  · dsimp only
    omega

/-- **Every operation keeps the send side in order.** -/
theorem SendInv.sendOk_apply (h : SendInv c) (op : Op) : SendOk (op.apply c).state (op.apply c).snd := by
  refine op.apply_cases (P := fun c => SendOk c.state c.snd) c fun c' hact => ?_
  cases hact with
  | idle | consume | prepare | abandon => exact h.ok
  | @input hdr data now admitted =>
    simpa [tcpConnInput, admitted] using (tcpConnInput_send h.ok h.fresh hdr data now).ok
  | tick now => exact (tcpConnTick_send h.ok now).1
  | queue _ tx _ state room => exact h.ok.queue state room tx
  | shutdown state => exact h.ok.wantFin state
  | @detach now => exact SendOk.detach (c := { tcpConnTick c now with orphan := true }) (tcpConnTick_send h.ok now).1 now
  | sent own => exact (commitSubmitted_send (h.choice own) h.ok).1

/-- Whatever changes the block drops the prepared action. -/
theorem ActionOk.of_not_pending (h : c.out.actionPending = false) : ActionOk c :=
  fun hp => absurd (h.symm.trans hp) Bool.false_ne_true

theorem ActionOk.apply (h : ActionOk c) (op : Op) : ActionOk (op.apply c) := by
  refine op.apply_cases c fun c' hact => ?_
  cases hact with
  | idle => exact h
  | @input hdr data now _ clock =>
    refine .of_not_pending ?_
    rw [(inputState_keeps _ hdr data now).actionPending]
    exact (tcpConnTick_keeps clock).actionPending
  | tick now =>
    by_cases hn : c.nowMs ≤ now
    · exact .of_not_pending (tcpConnTick_keeps hn).actionPending
    rw [tcpConnTick_of_lt hn]
    exact h
  | queue | consume | shutdown | abandon => exact .of_not_pending rfl
  | @detach now clock =>
    refine .of_not_pending ?_
    rw [(detachState_keeps _ now).actionPending]
    exact (tcpConnTick_keeps clock).actionPending
  | prepare _ _ next => exact fun _ => next
  | @sent a => exact .of_not_pending (commitSubmitted_keeps (changed c) a).actionPending

theorem SendInv.apply (h : SendInv c) (op : Op) : SendInv (op.apply c) :=
  ⟨h.sendOk_apply op, h.fresh.apply op, h.action.apply op⟩

theorem SendInv.closed_apply (h : SendInv c) (hst : c.state = .closed) (op : Op) :
    (op.apply c).state = .closed := by
  have tick (now : UInt64) : (tcpConnTick c now).state = .closed := by
    rcases tcpConnTick_state c now with hs | hs
    · exact hs
    · exact hs.trans hst
  refine op.apply_cases (P := fun c => c.state = .closed) c fun c' hact => ?_
  cases hact with
  | idle | queue | consume | shutdown | prepare | abandon => exact hst
  | @input hdr data now =>
    unfold inputState
    rw [tick now]
    dsimp only
    split
    · exact tick now
    · exact tick now
  | tick now => exact tick now
  | @detach now =>
    rcases detachState_state { tcpConnTick c now with orphan := true } now with hs | hs
    · exact hs
    · exact hs.trans (tick now)
  | sent own =>
    -- a closed block chooses nothing but a reset
    cases h.choice own with
    | reset | ack => exact hst
    | retx live _ => exact absurd hst live
    | probe live => exact absurd hst live
    | syn hs _ | data hs _ _ _ | fin hs _ _ _ => rcases hs with e | e <;> exact nomatch hst.symm.trans e

theorem pos_toUInt16_min32 {a b : UInt32} (ha : 0 < a) (hb : 0 < b) (h16 : b.toNat < 2 ^ 16) :
    0 < (min32 a b).toUInt16 := by
  rw [UInt32.lt_iff_toNat_lt] at ha hb
  rw [UInt16.lt_iff_toNat_lt, UInt32.toNat_toUInt16, toNat_min32, Nat.mod_eq_of_lt (by omega)]
  exact Nat.lt_min.2 ⟨ha, hb⟩

theorem Initial.sendInv (h : Initial c) : SendInv c := by
  refine ⟨?_, h.handshakeFresh, ?_⟩
  all_goals
    obtain ⟨tuple, generation, isn, mtu, active, now, h⟩ := h
    simp only [tcpConnInit, Option.ite_none_left_eq_some, Option.some.injEq] at h
    obtain ⟨hmtu, rfl⟩ := h
  · simp only [Bool.or_eq_true, decide_eq_true_eq, not_or, UInt16.not_lt] at hmtu
    have hpos : 0 < mtu.toUInt32 - 40 := by
      have h44 := UInt16.le_iff_toNat_le.1 hmtu.2
      rw [UInt32.lt_iff_toNat_lt, UInt32.toNat_sub_of_le, UInt16.toNat_toUInt32]
      · change 0 < mtu.toNat - 40
        change 44 ≤ mtu.toNat at h44
        omega
      · rw [UInt32.le_iff_toNat_le, UInt16.toNat_toUInt32]
        exact (by decide : 40 ≤ 44).trans h44
    have hlocal : 0 < (min32 (mtu.toUInt32 - 40) TCP_MSS_MAX).toUInt16 :=
      pos_toUInt16_min32 hpos (by decide) (by decide)
    have hmss : 0 < (min32 (min32 (mtu.toUInt32 - 40) TCP_MSS_MAX).toUInt16.toUInt32 536).toUInt16 := by
      refine pos_toUInt16_min32 ?_ (by decide) (by decide)
      rw [UInt16.lt_iff_toNat_lt] at hlocal
      rwa [UInt32.lt_iff_toNat_lt, UInt16.toNat_toUInt32]
    refine ⟨?_, Nat.zero_le _, hmss, hlocal⟩
    cases active
    · exact ⟨rfl, rfl, rfl, rfl, rfl, rfl, rfl⟩
    · exact .inl ⟨rfl, rfl, rfl, rfl, rfl, rfl, rfl⟩
  · exact .of_not_pending rfl

theorem reach_sendInv (h : connMachine.Reach c) : SendInv c := by
  refine h.invariant (I := SendInv) (fun _ hi => Initial.sendInv hi) fun s op s' hi hs => ?_
  obtain rfl : s' = op.apply s := hs
  exact hi.apply op

/-- **The sequence space of a connection.** In every reachable state that is
not `CLOSED` the records tile `[snd_una, snd_nxt)`, each number once; there
are at most 32 of them and at most 8193 numbers in flight; and an input moves
`snd_una` only to its own acknowledgement number, when that is ahead of
`snd_una` and not past `snd_nxt`. -/
theorem sequence_space {c : Conn} (h : connMachine.Reach c) (hst : c.state ≠ .closed) :
    Tiles c.snd.retx c.snd.sndUna c.snd.sndNxt ∧
      spanLen c.snd.retx = (c.snd.sndNxt - c.snd.sndUna).toNat ∧
      c.snd.retx.length ≤ TCP_RETX_MAX ∧ c.snd.sndNxt - c.snd.sndUna ≤ 8193 ∧
      ∀ (hdr : Header) (data : List UInt8) (now : UInt64),
        (tcpConnInput c hdr data now).snd.sndUna = c.snd.sndUna ∨
          (tcpConnInput c hdr data now).snd.sndUna = hdr.acknowledgment ∧
            0 < hdr.acknowledgment - c.snd.sndUna ∧
            hdr.acknowledgment - c.snd.sndUna ≤ c.snd.sndNxt - c.snd.sndUna := by
  have hinv := reach_sendInv h
  have hphase := hinv.ok.phase
  refine ⟨(hphase.tiles_span hst).1, (hphase.flight hst).symm, hinv.ok.records, ?_, fun hdr data now => ?_⟩
  · rw [UInt32.le_iff_toNat_le]
    exact (hphase.flight_le hst).trans (by decide)
  cases (tcpConnInput_send hinv.ok hinv.fresh hdr data now).moved with
  | keep una _ => exact .inl una
  | closed una _ => exact .inl una
  | acked _ ok una _ => exact .inr ⟨una, ok.1, ok.2⟩

/-- Three bytes and the ack before them sent, with the first byte numbered
just after the wrap. -/
def sentConn : Conn := (Op.apply openedConn.sent (.queue [7, 8, 9])).sent

theorem sentConn_reach : connMachine.Reach sentConn :=
  Conn.sent_reach (.step (Conn.sent_reach openedConn_reach) rfl)

theorem sequence_space_three_bytes :
    sentConn.state = .established ∧ sentConn.snd.retx.length = 1 ∧ spanLen sentConn.snd.retx = 3 ∧
      Tiles sentConn.snd.retx sentConn.snd.sndUna sentConn.snd.sndNxt :=
  ⟨by decide, by decide, by decide, (sequence_space sentConn_reach (by decide)).1⟩

end Fortress.Tcp
