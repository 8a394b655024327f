/-
The protocol of prepared actions (`net/tcp_tcb.c`): `tcp_conn_prepare` fixes
what is to be sent, `tcp_conn_commit` books it, and the block's revision tells
the two apart from everything else. Every operation that changes a block counts
its revision up and drops the prepared action, so an action is either the one
the block would still choose, and then its commit succeeds, or it is stale.
-/
import Fortress.Tcp.Congestion

namespace Fortress.Tcp

/-! ## Who a block is -/

/-- What no handler touches: whose block it is, and its revision. -/
structure Ident where
  tuple : Tuple
  generation : UInt64
  revision : UInt64

def Conn.ident (c : Conn) : Ident := ⟨c.tuple, c.generation, c.revision⟩

variable {now : UInt64}

theorem Edits.ident {c c' : Conn} (h : Edits now c c') : c'.ident = c.ident := by
  induction h with
  | refl => rfl
  | tail _ e ih => cases e <;> exact ih

theorem inputState_ident (c : Conn) (h : Header) (data : List UInt8) (now : UInt64) :
    (inputState c h data now).ident = c.ident := (inputState_edits c h data now).ident

variable {c : Conn}

theorem tcpConnTick_ident (h : c.nowMs ≤ now) :
    (tcpConnTick c now).ident = (changed c).ident := (tcpConnTick_edits h).ident

theorem detachState_ident (c : Conn) (now : UInt64) : (detachState c now).ident = c.ident :=
  (detachState_edits c now).ident

theorem commitSubmitted_ident (c : Conn) (a : Action) : (commitSubmitted c a).2.ident = c.ident := by
  have hb := commitSubmitted_cases c a
  generalize (commitSubmitted c a).2 = c' at hb ⊢
  cases hb <;> rfl

/-! ## Revisions -/

/-- What an operation does to a block's standing: nothing, an action prepared
where there was none, or a new revision without an action. -/
inductive Moves (c c' : Conn) : Prop
  | same (eq : c' = c)
  | prepared (none : c.out.actionPending = false) (ident : c'.ident = c.ident)
  | revised (ident : c'.ident = (changed c).ident) (none : c'.out.actionPending = false)

theorem Moves.tick (c : Conn) (now : UInt64) : Moves c (tcpConnTick c now) := by
  by_cases hn : c.nowMs ≤ now
  · exact .revised (tcpConnTick_ident hn) (tcpConnTick_keeps hn).actionPending
  · exact .same (tcpConnTick_of_lt hn)

/-- **Every operation moves a block so.** -/
theorem Op.moves (c : Conn) (op : Op) : Moves c (op.apply c) := by
  refine op.apply_cases c fun c' hact => ?_
  cases hact with
  | idle => exact .same rfl
  | @input h data now _ clock =>
    refine .revised ((inputState_ident _ h data now).trans (tcpConnTick_ident clock)) ?_
    rw [(inputState_keeps _ h data now).actionPending]
    exact (tcpConnTick_keeps clock).actionPending
  | tick now => exact .tick c now
  | queue | consume | shutdown | abandon => exact .revised rfl rfl
  | @detach now clock =>
    refine .revised ((detachState_ident _ now).trans (tcpConnTick_ident clock)) ?_
    rw [(detachState_keeps _ now).actionPending]
    exact (tcpConnTick_keeps clock).actionPending
  | prepare _ free => exact .prepared free rfl
  | @sent a => exact .revised (commitSubmitted_ident (changed c) a) (commitSubmitted_keeps (changed c) a).actionPending

theorem revision_foldl (ops : List Op) (c : Conn) :
    ∃ k ≤ ops.length, (ops.foldl Op.apply c).revision = c.revision + UInt64.ofNat k := by
  induction ops generalizing c with
  | nil => exact ⟨0, le_rfl, by simp⟩
  | cons op ops ih =>
    obtain ⟨k, hk, he⟩ := ih (op.apply c)
    rw [List.foldl_cons, List.length_cons]
    have hop : (op.apply c).revision = c.revision ∨ (op.apply c).revision = c.revision + 1 := by
      cases op.moves c with
      | same e => exact .inl (by rw [e])
      | prepared _ hi => exact .inl (congrArg Ident.revision hi)
      | revised hi _ => exact .inr (congrArg Ident.revision hi)
    rcases hop with e | e
    · exact ⟨k, Nat.le_succ_of_le hk, by rw [he, e]⟩
    refine ⟨k + 1, Nat.succ_le_succ hk, ?_⟩
    rw [he, e, UInt64.ofNat_add, add_assoc]
    exact congrArg _ (add_comm _ _)

/-- From a block with a prepared action, a run leaves the block as it is or
gives it another revision. -/
theorem foldl_revised {ops : List Op} (hlen : ops.length < 2 ^ 64) (hp : c.out.actionPending = true)
    (hne : ops.foldl Op.apply c ≠ c) : (ops.foldl Op.apply c).revision ≠ c.revision := by
  induction ops with
  | nil => exact absurd rfl hne
  | cons op ops ih =>
    rw [List.foldl_cons] at hne ⊢
    rw [List.length_cons] at hlen
    cases op.moves c with
    | same e =>
      rw [e] at hne ⊢
      exact ih (Nat.lt_of_succ_lt hlen) hne
    | prepared hn _ => exact nomatch hn.symm.trans hp
    | revised hi _ =>
      obtain ⟨k, hk, he⟩ := revision_foldl ops (op.apply c)
      have hone : (op.apply c).revision = c.revision + 1 := congrArg Ident.revision hi
      rw [he, hone]
      intro e
      have hzero : (1 : UInt64) + UInt64.ofNat k = 0 := by
        rw [add_assoc] at e
        exact add_eq_left.1 e
      have hnat := congrArg UInt64.toNat hzero
      rw [UInt64.toNat_add, UInt64.toNat_ofNat_of_lt' (Nat.lt_of_le_of_lt hk (Nat.lt_of_succ_lt hlen))] at hnat
      change (1 + k) % 2 ^ 64 = 0 at hnat
      rw [Nat.mod_eq_of_lt (by omega)] at hnat
      omega

variable {a : Action}

/-! ## The size of a segment -/

/-- No record of `s'` is longer than some record of `s`. -/
def Shorter (s s' : SendSide) : Prop := ∀ r' ∈ s'.retx, ∃ r ∈ s.retx, r'.length ≤ r.length

variable {s s' : SendSide} {c' : Conn}

theorem Shorter.of_eq (h : s'.retx = s.retx) : Shorter s s' :=
  fun r hr => ⟨r, h ▸ hr, le_rfl⟩

theorem Shorter.of_nil (h : s'.retx = []) : Shorter s s' :=
  fun _ hr => absurd (h ▸ hr) List.not_mem_nil

theorem Shorter.trans {s1 s2 s3 : SendSide} (h : Shorter s1 s2) (h' : Shorter s2 s3) : Shorter s1 s3 := by
  intro r3 hr3
  obtain ⟨r2, hr2, hle2⟩ := h' r3 hr3
  obtain ⟨r1, hr1, hle1⟩ := h r2 hr2
  exact ⟨r1, hr1, hle2.trans hle1⟩

theorem Shorter.modifyHead {f : Retx → Retx} (h : s'.retx = s.retx.modifyHead f)
    (hf : ∀ r, (f r).length = r.length) : Shorter s s' := by
  intro r' hr'
  rw [h] at hr'
  cases hs : s.retx with
  | nil =>
    rw [hs] at hr'
    exact absurd hr' List.not_mem_nil
  | cons r rs =>
    rw [hs, List.modifyHead_cons] at hr'
    rcases List.mem_cons.1 hr' with rfl | hr'
    · exact ⟨r, List.mem_cons_self .., (hf r).le⟩
    · exact ⟨r', .tail _ hr', le_rfl⟩

theorem mem_trimRetx {ack : UInt32} {r' : Retx} : ∀ {l : List Retx}, r' ∈ trimRetx ack l →
    ∃ r ∈ l, r'.length ≤ r.length
  | [], h => absurd h List.not_mem_nil
  | r :: rs, h => by
    unfold trimRetx at h
    dsimp only at h
    split at h
    · exact ⟨r', h, le_rfl⟩
    split at h
    · rcases List.mem_cons.1 h with rfl | h
      · exact ⟨r, List.mem_cons_self .., Nat.sub_le ..⟩
      · exact ⟨r', .tail _ h, le_rfl⟩
    · obtain ⟨q, hq, hle⟩ := mem_trimRetx h
      exact ⟨q, .tail _ hq, hle⟩

theorem Shorter.ackSend (s : SendSide) (ack : UInt32) : Shorter s (ackSend s ack) := fun _ h => mem_trimRetx h

theorem Shorter.edits (h : Edits now c c') : Shorter c.snd c'.snd := by
  induction h with
  | refl => exact .of_eq rfl
  | tail _ e ih =>
    refine ih.trans ?_
    cases e with
    | fail => exact .of_nil rfl
    | acked => exact .ackSend _ _
    | synAck => exact .modifyHead rfl fun _ => rfl
    | _ => exact .of_eq rfl

theorem Shorter.input (c : Conn) (h : Header) (data : List UInt8) (now : UInt64) :
    Shorter c.snd (inputState c h data now).snd := .edits (inputState_edits c h data now)

theorem Shorter.tick (c : Conn) (now : UInt64) : Shorter c.snd (tcpConnTick c now).snd := by
  by_cases hn : c.nowMs ≤ now
  · exact Shorter.edits (c := { changed c with nowMs := now }) (tcpConnTick_edits hn)
  · rw [tcpConnTick_of_lt hn]
    exact .of_eq rfl

/-- Every record fits the largest segment. -/
def Fits (s : SendSide) : Prop := ∀ r ∈ s.retx, r.length ≤ 1460

theorem Fits.shorter (h : Fits s) (hs : Shorter s s') : Fits s' := by
  intro r' hr'
  obtain ⟨r, hr, hle⟩ := hs r' hr'
  exact hle.trans (h r hr)

theorem dataLen_le (hp : Paced c) (hf : Fits c.snd) (h : nextAction c = some a) : a.dataLen ≤ 1460 := by
  have hmss : c.snd.mss.toNat ≤ 1460 := hp.bounded.mss.2
  unfold nextAction at h
  split at h
  · cases h
    exact Nat.zero_le _
  split at h
  · exact absurd h (by simp)
  split at h
  · cases h
    exact Nat.zero_le _
  split at h
  · rename_i r rs _ hr
    cases h
    have hlen : r.length ≤ 1460 := hf r (by rw [hr]; exact List.mem_cons_self ..)
    simp only [retxAction]
    split
    · exact Nat.zero_le _
    · exact hlen
  split at h
  · cases h
    exact Nat.zero_le _
  split at h
  · cases h
    simp only [probeAction]
    split <;> decide
  · by_cases hz : a.dataLen = 0
    · omega
    · exact (newAction_limit h hz).2.trans hmss

theorem Fits.booked (hf : Fits c.snd) (hlen : a.dataLen ≤ 1460) (hb : Booked c a c') : Fits c'.snd := by
  have hmark (s : SendSide) (hs : Fits s) : Fits (markRetransmitted s) :=
    hs.shorter (.modifyHead rfl fun _ => rfl)
  have hpush : Fits (pushRetx c.snd a c.nowMs) := by
    intro r hr
    rcases List.mem_append.1 hr with hr | hr
    · exact hf r hr
    obtain rfl := List.mem_singleton.1 hr
    simp only [Action.record, Action.space]
    split
    · decide
    · exact hlen
  cases hb with
  | reset | ack => exact hf
  | retx => exact hmark _ hf
  | new _ => exact hpush
  | probe => exact hmark _ hf
  | newProbe _ => exact hmark _ hpush

theorem Fits.apply (hf : Fits c.snd) (hs : SendInv c) (hp : Paced c) (op : Op) : Fits (op.apply c).snd := by
  refine op.apply_cases (P := fun c => Fits c.snd) c fun c' hact => ?_
  cases hact with
  | idle | queue | consume | shutdown | prepare | abandon => exact hf
  | @input h data now => exact hf.shorter ((Shorter.tick c now).trans (.input _ h data now))
  | tick now => exact hf.shorter (.tick c now)
  | @detach now =>
    refine (hf.shorter (.tick c now)).shorter ?_
    unfold detachState
    split
    · exact .of_eq rfl
    · exact .of_nil rfl
    · exact .of_nil rfl
    all_goals exact .of_eq rfl
  | sent own =>
    exact Fits.booked (c := changed c) hf (dataLen_le hp hf (own.next hs.ok hs.action)) (commitSubmitted_cases _ _)

theorem reach_fits (h : connMachine.Reach c) : Fits c.snd := by
  have hall : SendInv c ∧ Paced c ∧ Fits c.snd := by
    refine h.invariant (I := fun c => SendInv c ∧ Paced c ∧ Fits c.snd) (fun c hi => ?_) fun s op s' hi hs => ?_
    · refine ⟨Initial.sendInv hi, Initial.paced hi, ?_⟩
      obtain ⟨tuple, generation, isn, mtu, active, now, hi⟩ := hi
      simp only [tcpConnInit, Option.ite_none_left_eq_some, Option.some.injEq] at hi
      obtain ⟨-, rfl⟩ := hi
      exact fun r hr => absurd hr List.not_mem_nil
    · obtain rfl : s' = op.apply s := hs
      exact ⟨hi.1.apply op, hi.2.1.apply hi.1 op, hi.2.2.apply hi.1 hi.2.1 op⟩
  exact hall.2.2

/-! ## The protocol -/

/-- How `tcp_conn_prepare` ends. -/
inductive Prepares (c : Conn) (scratch : Option Nat) : Int × Option (Action × List UInt8) × Conn → Prop
  | invalid : Prepares c scratch (TCP_INVALID, none, c)
  | wouldBlock : Prepares c scratch (TCP_WOULD_BLOCK, none, c)
  | noSpace {a : Action} (next : nextAction c = some a) (small : scratch.all (· < a.dataLen) = true) :
      Prepares c scratch (TCP_NO_SPACE, none, c)
  | ok {a : Action} (next : nextAction c = some a) : Prepares c scratch
      (0, some (a, copyTx c.snd a.header.sequence a.dataLen),
        { c with out := { c.out with action := a, actionPending := true } })

theorem tcpConnPrepare_cases (c : Conn) (scratch : Option Nat) : Prepares c scratch (tcpConnPrepare c scratch) := by
  unfold tcpConnPrepare
  split
  · exact .invalid
  split
  · exact .wouldBlock
  rename_i a ha
  split
  · rename_i hsmall
    simp only [Bool.and_eq_true] at hsmall
    exact .noSpace ha hsmall.2
  · exact .ok ha

theorem commitSubmitted_ok {d : Conn} (hok : SendOk c.state c.snd) (h : Choice c a)
    (hd : d.snd = c.snd) : (commitSubmitted d a).1 = true := by
  have hroom (hk : a.kind = .new ∨ a.kind = .probe ∧ a.dataLen ≠ 0 ∧ a.header.sequence = c.snd.sndNxt) :
      c.snd.retx.length < TCP_RETX_MAX := by
    cases h with
    | reset | ack => simp [ackAction] at hk
    | retx _ _ => simp [retxAction, ackAction] at hk
    | syn hst hun =>
      have hph : PreSyn c.snd ∨ SynOut c.snd := by
        have := hok.phase
        rcases hst with e | e <;> rwa [e] at this
      have hp : PreSyn c.snd := hph.resolve_right fun hp => by simp [hp.synSent] at hun
      simp [hp.retx]
    | data _ room _ _ => exact room
    | fin hst _ idle _ =>
      have hd : Data c.snd := (phase_iff_data hst).1 hok.phase
      simp [hd.nil_of_flight idle]
    | probe live =>
      rcases hk with hk | ⟨_, hlen, hseq⟩
      · simp [probeAction, ackAction] at hk
      have hc : c.snd.txCount ≠ 0 := fun e => hlen (by simp [probeAction, e])
      obtain ⟨hd, _⟩ := hok.data_of_txCount live hc
      have hidle : c.snd.sndUna = c.snd.sndNxt := by
        rw [← hseq]
        simp [probeAction, hc]
      simp [hd.nil_of_flight hidle.symm]
  unfold commitSubmitted
  dsimp only
  split
  · rfl
  split
  · rfl
  split
  · rename_i hfull
    simp only [ackSent, hd, Bool.and_eq_true, Bool.or_eq_true, beq_iff_eq, bne_iff_ne, ne_eq,
      decide_eq_true_eq] at hfull
    exact absurd (hroom (hfull.1.imp id fun h => ⟨h.1.1, h.1.2, h.2⟩)) (Nat.not_lt.2 hfull.2)
  · rfl

/-- **The protocol of actions.** From every reachable connection: (1) with a
scratch of 1460 bytes `tcp_conn_prepare` never answers `TCP_NO_SPACE`; (2) when
it returns an action, committing that action at once succeeds, and after any
operation that changed the block, or any run of fewer than `2 ^ 64` operations
that did, the commit is refused; (3) a commit with `submitted` false leaves the
block alone or changes its revision and its pending flag and nothing else. -/
theorem action_protocol {c : Conn} (h : connMachine.Reach c) :
    (tcpConnPrepare c (some 1460)).1 ≠ TCP_NO_SPACE ∧
      ((tcpConnPrepare c (some 1460)).1 = 0 → ∃ a bytes c', tcpConnPrepare c (some 1460) = (0, some (a, bytes), c') ∧
        (∀ sent, (tcpConnCommit c' a sent).1 = true) ∧
        (∀ op sent, Op.apply c' op ≠ c' → (tcpConnCommit (Op.apply c' op) a sent).1 = false) ∧
        ∀ (ops : List Op) (sent : Bool), ops.length < 2 ^ 64 → ops.foldl Op.apply c' ≠ c' →
          (tcpConnCommit (ops.foldl Op.apply c') a sent).1 = false) ∧
      ∀ a, (tcpConnCommit c a false).2 = c ∨
        (tcpConnCommit c a false).2 =
          { c with revision := c.revision + 1, out := { c.out with actionPending := false } } := by
  have hs := reach_sendInv h
  have hp := reach_paced h
  have hf := reach_fits h
  refine ⟨?_, fun hzero => ?_, fun a => ?_⟩
  · have hprep := tcpConnPrepare_cases c (some 1460)
    generalize tcpConnPrepare c (some 1460) = result at hprep
    cases hprep with
    | invalid => exact (by decide : TCP_INVALID ≠ TCP_NO_SPACE)
    | wouldBlock => exact (by decide : TCP_WOULD_BLOCK ≠ TCP_NO_SPACE)
    | ok _ => exact (by decide : 0 ≠ TCP_NO_SPACE)
    | noSpace next small =>
      have hlen := dataLen_le hp hf next
      rw [Option.all_some, decide_eq_true_eq] at small
      omega
  · have hprep := tcpConnPrepare_cases c (some 1460)
    generalize tcpConnPrepare c (some 1460) = result at hprep hzero ⊢
    cases hprep with
    | invalid => exact absurd hzero (by decide : TCP_INVALID ≠ 0)
    | wouldBlock => exact absurd hzero (by decide : TCP_WOULD_BLOCK ≠ 0)
    | noSpace _ _ => exact absurd hzero (by decide : TCP_NO_SPACE ≠ 0)
    | @ok a next =>
      obtain ⟨hg, hr⟩ := nextAction_stamp hs.ok next
      have stale (ops : List Op) (hlen : ops.length < 2 ^ 64) {d : Conn}
          (hne : ops.foldl Op.apply d ≠ d) (hd : d.revision = c.revision) (pending : d.out.actionPending = true)
          (sent : Bool) : (tcpConnCommit (ops.foldl Op.apply d) a sent).1 = false := by
        have hrev : a.revision ≠ (ops.foldl Op.apply d).revision := by
          rw [hr, ← hd]
          exact (foldl_revised hlen pending hne).symm
        simp [tcpConnCommit, hrev]
      refine ⟨a, _, _, rfl, fun sent => ?_, fun op sent hne => ?_, fun ops sent hlen hne => ?_⟩
      · unfold tcpConnCommit
        simp only [hg, hr, sameAction, beq_self_eq_true, bne_self_eq_false, Bool.and_self, Bool.not_true, Bool.or_self,
          Bool.false_eq_true, if_false]
        cases sent with
        | false => rfl
        | true => exact commitSubmitted_ok hs.ok (nextAction_cases hs.ok next) rfl
      · have hone : [op].length < 2 ^ 64 := by simp
        exact stale [op] hone hne rfl rfl sent
      · exact stale ops hlen hne rfl rfl sent
  unfold tcpConnCommit
  split
  · exact .inl rfl
  · exact .inr rfl

/-- Three bytes queued on a fresh connection are prepared, and the action
commits at once. -/
theorem action_protocol_three_bytes :
    ∃ a bytes c', tcpConnPrepare threeQueued (some 1460) = (0, some (a, bytes), c') ∧
      (tcpConnCommit c' a true).1 = true := by
  have hzero : (tcpConnPrepare threeQueued (some 1460)).1 = 0 := by decide +kernel
  obtain ⟨a, bytes, c', he, hcommit, _⟩ := (action_protocol threeQueued_reach).2.1 hzero
  exact ⟨a, bytes, c', he, hcommit true⟩

end Fortress.Tcp
