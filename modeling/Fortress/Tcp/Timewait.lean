/-
`TIME_WAIT` in the pool of `net/tcp_tcb.c`. A connection that ends there is
kept by its block while the owner holds it and by the block's record after
that, and in both places until a clock reading reaches its expiry. While it is
kept its tuple cannot be opened again, and a duplicate FIN moves the expiry
later. The records outlive the blocks, so the invariant says which record
belongs to which block, and that no tuple has two.
-/
import Fortress.Tcp.Net
import Fortress.Tcp.Actions

namespace Fortress.Tcp

open Function (update update_of_ne update_self)

/-! ## The deadline of a block -/

theorem deadline_mono {a b : UInt64} (h : a ≤ b) (delay : UInt32) : deadline a delay ≤ deadline b delay := by
  have hd := delay.toUInt64.toNat_lt
  have hmax : (0xffffffffffffffff : UInt64).toNat = 2 ^ 64 - 1 := rfl
  have hsub : (0xffffffffffffffff - delay.toUInt64).toNat = 2 ^ 64 - 1 - delay.toUInt64.toNat := by
    rw [UInt64.toNat_sub_of_le _ _ (UInt64.le_iff_toNat_le.2 (by omega)), hmax]
  rw [UInt64.le_iff_toNat_le] at h ⊢
  unfold deadline
  split
  · rename_i hlate
    rw [gt_iff_lt, UInt64.lt_iff_toNat_lt, hsub] at hlate
    have hlate' : b > 0xffffffffffffffff - delay.toUInt64 := by
      rw [gt_iff_lt, UInt64.lt_iff_toNat_lt, hsub]
      omega
    rw [if_pos hlate']
  rename_i hearly
  rw [gt_iff_lt, UInt64.lt_iff_toNat_lt, hsub] at hearly
  have hadd : (a + delay.toUInt64).toNat = a.toNat + delay.toUInt64.toNat := by
    rw [UInt64.toNat_add, Nat.mod_eq_of_lt (by omega)]
  rw [hadd]
  split
  · omega
  rename_i hb'
  rw [gt_iff_lt, UInt64.lt_iff_toNat_lt, hsub] at hb'
  rw [UInt64.toNat_add, Nat.mod_eq_of_lt (by omega)]
  omega

/-- From `c` to `c'` at one reading of the clock: whoever is in `TIME_WAIT`
then entered it now, or was there with the same deadline. -/
structure Enters (c c' : Conn) : Prop where
  nowMs : c'.nowMs = c.nowMs
  deadline : c'.state = .timeWait → c'.timers.timewait = deadline c.nowMs TCP_TIMEWAIT_MS ∨
    c.state = .timeWait ∧ c'.timers.timewait = c.timers.timewait

variable {c c' : Conn}

theorem Enters.same (hn : c'.nowMs = c.nowMs) (hst : c'.state = c.state)
    (ht : c'.timers.timewait = c.timers.timewait) : Enters c c' :=
  ⟨hn, fun h => .inr ⟨hst ▸ h, ht⟩⟩

theorem Enters.of_ne (hn : c'.nowMs = c.nowMs) (hst : c'.state ≠ .timeWait) : Enters c c' :=
  ⟨hn, fun h => absurd h hst⟩

theorem Enters.trans {c1 c2 c3 : Conn} (h : Enters c1 c2) (h' : Enters c2 c3) : Enters c1 c3 := by
  refine ⟨h'.nowMs.trans h.nowMs, fun hst => ?_⟩
  rcases h'.deadline hst with e | ⟨hst', e⟩
  · rw [h.nowMs] at e
    exact .inl e
  · rw [e]
    exact h.deadline hst'

variable {now : UInt64}

theorem Edits.enters (h : Edits now c c') (hn : now = c.nowMs) : Enters c c' := by
  induction h with
  | refl => exact .same rfl rfl rfl
  | tail h e ih =>
    refine ih.trans ?_
    cases e with
    | wait hd =>
      rw [hn, ← (Edits.keeps h).nowMs] at hd
      exact ⟨rfl, fun hst => hd.imp id fun e => ⟨hst, e⟩⟩
    | waits => exact ⟨rfl, fun _ => .inl rfl⟩
    | syn | crosses | fail | finAcked | closes | opens => exact .of_ne rfl State.noConfusion
    | finReceived hs => exact .of_ne rfl (by rcases hs with ⟨_, rfl⟩ | ⟨_, rfl⟩ <;> exact State.noConfusion)
    | _ => exact .same rfl rfl rfl

variable (c)

theorem Enters.ackSent (a : Action) : Enters c (ackSent (changed c) a) := .same rfl rfl rfl

theorem commitRetx_timewait (a : Action) : (commitRetx c a).timers.timewait = c.timers.timewait := by
  obtain ⟨d, hd⟩ := commitRetx_timers c a
  rw [hd]

theorem commitProbe_timewait : (commitProbe c).timers.timewait = c.timers.timewait := by
  obtain ⟨d, hd⟩ := commitProbe_timers c
  rw [hd]

theorem commitNew_timewait (a : Action) : (commitNew c a).timers.timewait = c.timers.timewait := by
  obtain ⟨d, hd⟩ : ∃ d, (commitNew c a).timers = { c.timers with rto := d } := ⟨_, rfl⟩
  rw [hd]

theorem Enters.commitProbe : Enters c (commitProbe c) := .same rfl rfl (commitProbe_timewait c)

theorem Enters.commitNew (a : Action) : Enters c (commitNew c a) := by
  by_cases hf : has a.header.flags TCP_FIN = true
  · refine .of_ne rfl ?_
    simp only [Tcp.commitNew, hf, if_true]
    split <;> exact State.noConfusion
  · refine .same rfl ?_ (commitNew_timewait c a)
    simp [Tcp.commitNew, hf]

/-- The deadline of a block in `TIME_WAIT` lies no further ahead than one set now. -/
def InTime : Prop :=
  c.state = .timeWait → c.timers.timewait ≤ deadline c.nowMs TCP_TIMEWAIT_MS

variable {c}

theorem InTime.enters (h : InTime c) (he : Enters c c') : InTime c' := by
  intro hst
  rw [he.nowMs]
  rcases he.deadline hst with e | ⟨hst', e⟩
  · rw [e]
    exact UInt64.le_refl _
  · rw [e]
    exact h hst'

theorem InTime.tick (h : InTime c) (now : UInt64) : InTime (tcpConnTick c now) := by
  by_cases hn : c.nowMs ≤ now
  · have hlater : InTime { changed c with nowMs := now } :=
      fun hst => UInt64.le_trans (h hst) (deadline_mono hn _)
    exact hlater.enters ((tcpConnTick_edits hn).enters rfl)
  · rwa [tcpConnTick_of_lt hn]

theorem InTime.apply (h : InTime c) (op : Op) : InTime (op.apply c) := by
  refine op.apply_cases c fun c' hact => ?_
  cases hact with
  | idle => exact h
  | @input hdr data now _ clock =>
    have hnow : (tcpConnTick c now).nowMs = now := (tcpConnTick_keeps clock).nowMs
    exact (h.tick now).enters ((inputState_edits _ hdr data now).enters hnow.symm)
  | tick now => exact h.tick now
  | queue | consume | shutdown | prepare | abandon => exact h.enters (.same rfl rfl rfl)
  | @detach now clock =>
    have htick : InTime { tcpConnTick c now with orphan := true } := (h.tick now).enters (.same rfl rfl rfl)
    exact htick.enters ((detachState_edits _ now).enters (tcpConnTick_keeps clock).nowMs.symm)
  | @sent a =>
    refine h.enters ?_
    have hb := commitSubmitted_cases (changed c) a
    generalize (commitSubmitted (changed c) a).2 = c' at hb ⊢
    cases hb with
    | reset | ack => exact .same rfl rfl rfl
    | retx => exact (Enters.ackSent c a).trans (.same rfl rfl (commitRetx_timewait _ a))
    | probe => exact (Enters.ackSent c a).trans (.commitProbe _)
    | new _ => exact (Enters.ackSent c a).trans (.commitNew _ a)
    | newProbe _ => exact (Enters.ackSent c a).trans ((Enters.commitNew _ a).trans (.commitProbe _))

theorem reach_inTime (h : connMachine.Reach c) : InTime c := by
  refine h.invariant (fun c hi hst => ?_) (fun c op c' hc hstep => ?_)
  · rcases Initial.state hi with e | e <;> exact State.noConfusion (e.symm.trans hst)
  · obtain rfl := hstep
    exact hc.apply op

/-! ## A block in `TIME_WAIT` -/

theorem tick_waits (hst : c.state = .timeWait) (now : UInt64) :
    (tcpConnTick c now).state = .timeWait ∧ (tcpConnTick c now).timers.timewait = c.timers.timewait ∨
      (tcpConnTick c now).state = .closed ∧ c.timers.timewait ≤ now := by
  refine tcpConnTick_cases (P := fun c' => c'.state = .timeWait ∧ c'.timers.timewait = c.timers.timewait ∨
    c'.state = .closed ∧ c.timers.timewait ≤ now) c now fun c' ht => ?_
  cases ht with
  | late | rests => exact .inl ⟨hst, rfl⟩
  | drops hs => exact absurd (hst.symm.trans hs) State.noConfusion
  | leaves _ due => exact .inr ⟨rfl, due⟩
  | expires _ live | runs _ _ _ live => exact absurd hst live.2

/-- A segment that comes in at `now` moves the deadline to one set at `now`, or leaves it. -/
theorem inputTimeWait_timewait (c : Conn) (h : Header) (len : Nat) (now : UInt64) :
    (inputTimeWait c h len now).timers.timewait = deadline now TCP_TIMEWAIT_MS ∨
      (inputTimeWait c h len now).timers.timewait = c.timers.timewait := by
  unfold inputTimeWait
  split
  · dsimp only
    split
    · exact .inl rfl
    · exact .inr rfl
  · exact .inr rfl

/-- **A block in `TIME_WAIT` stays there, with its deadline no earlier, until an
operation reads a clock that has reached it.** -/
theorem Op.waits (h : connMachine.Reach c) (hst : c.state = .timeWait) (op : Op) :
    (op.apply c).state = .timeWait ∧ c.timers.timewait ≤ (op.apply c).timers.timewait ∨
      (op.apply c).state = .closed ∧ ∃ now, op.reading = some now ∧ c.timers.timewait ≤ now := by
  have stay {c' : Conn} (hs : c'.state = c.state) (ht : c'.timers.timewait = c.timers.timewait) :
      c'.state = .timeWait ∧ c.timers.timewait ≤ c'.timers.timewait := by
    refine ⟨hs.trans hst, ?_⟩
    rewrite [ht]
    exact UInt64.le_refl _
  refine op.apply_cases (P := fun c' => c'.state = .timeWait ∧ c.timers.timewait ≤ c'.timers.timewait ∨
    c'.state = .closed ∧ ∃ now, op.reading = some now ∧ c.timers.timewait ≤ now) c fun c' hact => ?_
  cases hact with
  | idle | queue | consume | shutdown | prepare | abandon => exact .inl (stay rfl rfl)
  | @input hdr data now _ clock =>
    rcases tick_waits hst now with ⟨hs, ht⟩ | ⟨hs, hdue⟩
    · left
      simp only [inputState, hs]
      refine ⟨(inputTimeWait_state _ hdr _ now).trans hs, ?_⟩
      rcases inputTimeWait_timewait (tcpConnTick c now) hdr data.length now with e | e
      · rw [e]
        exact UInt64.le_trans (reach_inTime h hst) (deadline_mono clock _)
      · rewrite [e, ht]
        exact UInt64.le_refl _
    right
    refine ⟨?_, now, rfl, hdue⟩
    simp only [inputState, hs]
    split
    · exact hs
    · exact hs
  | tick now =>
    rcases tick_waits hst now with ⟨hs, ht⟩ | ⟨hs, hdue⟩
    · exact .inl (stay (hs.trans hst.symm) ht)
    · exact .inr ⟨hs, now, rfl, hdue⟩
  | @detach now =>
    have hstay (hs : (tcpConnTick c now).state = .timeWait ∨ (tcpConnTick c now).state = .closed) :
        detachState { tcpConnTick c now with orphan := true } now = { tcpConnTick c now with orphan := true } := by
      rcases hs with hs | hs <;> simp only [detachState, hs]
    rcases tick_waits hst now with ⟨hs, ht⟩ | ⟨hs, hdue⟩
    · rw [hstay (.inl hs)]
      exact .inl (stay (hs.trans hst.symm) ht)
    · rw [hstay (.inr hs)]
      exact .inr ⟨hs, now, rfl, hdue⟩
  | @sent a own =>
    left
    have hc := (reach_sendInv h).choice own
    have hb := commitSubmitted_cases (changed c) a
    generalize (commitSubmitted (changed c) a).2 = c' at hb ⊢
    -- Booking a FIN leaves the state, but no FIN is chosen in `TIME_WAIT`.
    have hnew (hk : a.kind = .new ∨ a.kind = .probe) : (commitNew (ackSent (changed c) a) a).state = c.state := by
      have hfin : ¬ has a.header.flags TCP_FIN = true := by
        intro hf
        rcases (hc.fin_of_flag hk hf).1 with e | e <;> exact State.noConfusion (hst.symm.trans e)
      simp only [commitNew, hfin, Bool.false_eq_true, if_false]
      rfl
    cases hb with
    | reset | ack => exact stay rfl rfl
    | retx => exact stay rfl (commitRetx_timewait _ a)
    | probe => exact stay rfl (commitProbe_timewait _)
    | new hk => exact stay (hnew (.inl hk)) (commitNew_timewait _ a)
    | newProbe hk => exact stay (hnew (.inr hk)) ((commitProbe_timewait _).trans (commitNew_timewait _ a))

/-! ## Blocks and records -/

/-- Which records the pool's blocks hold: each used block one of its own, with
its generation and its tuple; and a tuple has one record at most. -/
structure Tracked (p : Pool) : Prop where
  records : Records p
  reach : ∀ i, i < TCP_CB_MAX → p.used i = true → connMachine.Reach (p.blocks i)
  index : ∀ i, i < TCP_CB_MAX → p.used i = true → p.twSlot i < TCP_TIMEWAIT_MAX
  generation : ∀ i, i < TCP_CB_MAX → p.used i = true →
    (p.timewait (p.twSlot i)).generation = (p.blocks i).generation
  tuple : ∀ i, i < TCP_CB_MAX → p.used i = true → (p.timewait (p.twSlot i)).tuple = (p.blocks i).tuple
  tuples : ∀ r s, r < TCP_TIMEWAIT_MAX → s < TCP_TIMEWAIT_MAX → (p.timewait r).used = true →
    (p.timewait s).used = true → (p.timewait r).tuple = (p.timewait s).tuple → r = s
  active : ∀ r, (p.timewait r).active = true → (p.timewait r).used = true

variable {p : Pool} {r i : Nat}

/-- A used block and the record it holds. -/
structure Holds (s : Slot) : Prop where
  reach : connMachine.Reach s.block
  generation : s.record.generation = s.block.generation
  tuple : s.record.tuple = s.block.tuple

theorem Holds.apply {s : Slot} (h : Holds s) (op : Op) : Holds { s with block := op.apply s.block } := by
  have hid : (op.apply s.block).tuple = s.block.tuple ∧ (op.apply s.block).generation = s.block.generation := by
    cases op.moves s.block with
    | same e => rw [e]; exact ⟨rfl, rfl⟩
    | prepared _ e | revised e _ => exact ⟨congrArg Ident.tuple e, congrArg Ident.generation e⟩
  exact ⟨.step h.reach rfl, h.generation.trans hid.2.symm, h.tuple.trans hid.1.symm⟩

theorem Tracked.holds (h : Tracked p) (hi : i < TCP_CB_MAX) (hu : p.used i = true) : Holds (p.slot i) :=
  ⟨h.reach i hi hu, h.generation i hi hu, h.tuple i hi hu⟩

theorem Tracked.of_holds (hr : Records p)
    (hs : ∀ i, i < TCP_CB_MAX → p.used i = true → p.twSlot i < TCP_TIMEWAIT_MAX ∧ Holds (p.slot i))
    (ht : ∀ r s, r < TCP_TIMEWAIT_MAX → s < TCP_TIMEWAIT_MAX → (p.timewait r).used = true →
      (p.timewait s).used = true → (p.timewait r).tuple = (p.timewait s).tuple → r = s)
    (ha : ∀ r, (p.timewait r).active = true → (p.timewait r).used = true) : Tracked p :=
  ⟨hr, fun i hi hu => (hs i hi hu).2.reach, fun i hi hu => (hs i hi hu).1, fun i hi hu => (hs i hi hu).2.generation,
    fun i hi hu => (hs i hi hu).2.tuple, ht, ha⟩

variable {tuple : Tuple} {j : Nat}

theorem Tracked.init : Tracked tcpPoolInit := by
  have hno (i : Nat) : ¬ tcpPoolInit.used i = true := Bool.false_ne_true
  have hfree (r : Nat) : ¬ (tcpPoolInit.timewait r).used = true := Bool.false_ne_true
  exact ⟨⟨fun i _ _ _ h => absurd h (hno i), fun i _ h => absurd h (hno i), fun i _ h => absurd h (hno i)⟩,
    fun i _ h => absurd h (hno i), fun i _ h => absurd h (hno i), fun i _ h => absurd h (hno i),
    fun i _ h => absurd h (hno i), fun r _ _ _ h => absurd h (hfree r), fun _ h => absurd h Bool.false_ne_true⟩

theorem Tracked.connect (h : Tracked p) {r : Int × Pool} (ho : Opens p tuple r) : Tracked r.2 := by
  cases ho with
  | refused _ => exact h
  | @opened slot tw c _ slot_lt tw_lt slot_free tw_free fresh initial tuple_eq generation_eq =>
    refine .of_holds (h.records.opened tw_free) (fun i hi hu => ?_) (fun r s hr hs hur hus e => ?_) fun r ha => ?_
    · rcases h.records.opened_slot tw_free hi hu with rfl | ⟨hu', _, htw, e⟩
      · refine ⟨by simpa [Pool.opened] using tw_lt, (?_ : Holds ((p.opened tuple i tw c).slot i))⟩
        rw [Pool.opened_self]
        exact ⟨.init initial, generation_eq.symm, tuple_eq.symm⟩
      · exact ⟨htw ▸ h.index i hi hu', e ▸ h.holds hi hu'⟩
    · simp only [Pool.opened, Function.update_apply] at hur hus e
      grind -linarith [fresh s hs, fresh r hr, h.tuples r s hr hs]
    · simp only [Pool.opened, Function.update_apply] at ha ⊢
      grind -linarith [h.active r]

/-- Operations on blocks leave the records alone, and each block its tuple and generation. -/
theorem Tracked.op (h : Tracked p) (j : Nat) (op : Op) :
    Tracked { p with blocks := update p.blocks j (op.apply (p.blocks j)) } := by
  refine .of_holds { h.records with } (fun i hi hu => ⟨h.index i hi hu, ?_⟩)
    h.tuples h.active
  by_cases e : i = j
  · subst e
    simpa [Pool.slot] using (h.holds hi hu).apply op
  · simpa [Pool.slot, e] using h.holds hi hu

/-! ## The tick -/

/-- How `tcp_pool_tick` leaves a used slot. -/
inductive Ticked (s : Slot) (c : Conn) : Slot → Prop
  | stays : Ticked s c { s with block := c }
  | exported (state : c.state = .timeWait) : Ticked s c ⟨false, {}, { s.record with
      active := true, expiresMs := c.timers.timewait, sndNxt := c.snd.sndNxt, rcvNxt := c.rcv.rcvNxt }⟩
  | released (state : c.state = .closed) : Ticked s c ⟨false, {}, {}⟩

theorem Slot.ticked {s : Slot} (hu : s.used = true) (now : UInt64) :
    Ticked s (tcpConnTick s.block now) (s.tick now) := by
  have hn : ¬ (!s.used) = true := by simp [hu]
  unfold Slot.tick
  rw [if_neg hn]
  dsimp only
  split
  · exact .stays
  split
  · rename_i hst
    exact .exported hst
  · rename_i hst
    exact .released hst
  · exact .stays

theorem poolTickBlock_timewait (h : p.used j = true → p.twSlot j ≠ r) :
    (poolTickBlock now p j).timewait r = p.timewait r := by
  unfold poolTickBlock
  dsimp only
  split
  · rfl
  rename_i hu
  have hne : r ≠ p.twSlot j := (h (by simpa using hu)).symm
  split
  · rfl
  · split <;> simp [hne]

/-- Where no used block holds the record, the tick only looks at its expiry. -/
theorem tcpPoolTick_timewait (h : ∀ i, i < TCP_CB_MAX → p.used i = true → p.twSlot i ≠ r)
    (now : UInt64) : (tcpPoolTick p now).timewait r = (expireTimewait p now).timewait r := by
  have hfold (l : List Nat) (hl : ∀ j ∈ l, j < TCP_CB_MAX) (q : Pool) (hq : Ticking p q) :
      (l.foldl (poolTickBlock now) q).timewait r = q.timewait r := by
    induction l generalizing q with
    | nil => rfl
    | cons j l ih =>
      rw [List.foldl_cons, ih (fun k hk => hl k (.tail _ hk)) _ (hq.block now j)]
      refine poolTickBlock_timewait fun hu => ?_
      rw [hq.twSlot]
      exact h j (hl j (.head _)) (hq.used j hu)
  exact hfold _ (fun j hj => List.mem_range.1 hj) _ ⟨rfl, fun _ h => h⟩

theorem expireTimewait_timewait (p : Pool) (now : UInt64) (hr : r < TCP_TIMEWAIT_MAX) :
    (expireTimewait p now).timewait r = {} ∧ (p.timewait r).active = true ∧ (p.timewait r).expiresMs ≤ now ∨
      (expireTimewait p now).timewait r = p.timewait r ∧
        ((p.timewait r).active = true → now < (p.timewait r).expiresMs) := by
  unfold expireTimewait
  dsimp only
  split
  · rename_i hc
    simp only [Bool.and_eq_true, decide_eq_true_eq] at hc
    exact .inl ⟨rfl, hc.1.2, hc.2⟩
  rename_i hc
  refine .inr ⟨rfl, fun ha => ?_⟩
  simp only [hr, ha, decide_true, Bool.and_self, Bool.true_and, decide_eq_true_eq] at hc
  exact UInt64.not_le.1 hc

/-- Every record in use was in use before, for the same tuple. -/
def Shrinks (p p' : Pool) : Prop :=
  ∀ r, r < TCP_TIMEWAIT_MAX → (p'.timewait r).used = true →
    (p.timewait r).used = true ∧ (p'.timewait r).tuple = (p.timewait r).tuple

theorem tcpPoolTick_owned (h : Records p) (now : UInt64) (hi : i < TCP_CB_MAX) (hu : p.used i = true) :
    (tcpPoolTick p now).timewait (p.twSlot i) = ((p.slot i).tick now).record := by
  have hslot := tcpPoolTick_slot h now hi hu
  rw [← hslot, ← (tcpPoolTick_ticking p now).twSlot]
  rfl

/-- A record after the tick is cleared, or in use as it was, for the same tuple. -/
theorem tcpPoolTick_record (h : Tracked p) (now : UInt64) (r : Nat) : (tcpPoolTick p now).timewait r = {} ∨
      ((tcpPoolTick p now).timewait r).used = (p.timewait r).used ∧
        ((tcpPoolTick p now).timewait r).tuple = (p.timewait r).tuple ∧
        (((tcpPoolTick p now).timewait r).active = true → (p.timewait r).used = true) := by
  by_cases howned : ∃ i, i < TCP_CB_MAX ∧ p.used i = true ∧ p.twSlot i = r
  · obtain ⟨i, hi, hui, rfl⟩ := howned
    have hrec := tcpPoolTick_owned h.records now hi hui
    have ht := Slot.ticked (s := p.slot i) hui now
    rw [hrec]
    generalize (p.slot i).tick now = s' at ht ⊢
    cases ht with
    | stays | exported _ => exact .inr ⟨rfl, rfl, fun _ => h.records.used i hi hui⟩
    | released _ => exact .inl rfl
  rw [tcpPoolTick_timewait (fun i hi hui e => howned ⟨i, hi, hui, e⟩) now]
  unfold expireTimewait
  dsimp only
  split
  · exact .inl rfl
  · exact .inr ⟨rfl, rfl, h.active r⟩

theorem tcpPoolTick_shrinks (h : Tracked p) (now : UInt64) : Shrinks p (tcpPoolTick p now) := by
  intro r hr hu
  rcases tcpPoolTick_record h now r with e | ⟨hused, ht, _⟩
  · rw [e] at hu
    cases hu
  · exact ⟨hused ▸ hu, ht⟩

theorem Tracked.tick (h : Tracked p) (now : UInt64) : Tracked (tcpPoolTick p now) := by
  refine .of_holds (h.records.tick now) (fun i hi hu => ?_) (fun r s hr hs hur hus e => ?_) fun r ha => ?_
  · obtain ⟨hui, hs⟩ := tcpPoolTick_used h.records hi hu
    rw [(tcpPoolTick_ticking p now).twSlot, hs]
    exact ⟨h.index i hi hui, (h.holds hi hui).apply (.tick now)⟩
  · obtain ⟨hur', er⟩ := tcpPoolTick_shrinks h now r hr hur
    obtain ⟨hus', es⟩ := tcpPoolTick_shrinks h now s hs hus
    rw [er, es] at e
    exact h.tuples r s hr hs hur' hus' e
  rcases tcpPoolTick_record h now r with e | ⟨hused, _, hact⟩
  · rw [e] at ha
    cases ha
  · rw [hused]
    exact hact ha

/-! ## Expiries -/

/-- When the connection of a tuple leaves `TIME_WAIT`: its exported record
says so, or its block. -/
def Pool.expiry (p : Pool) (t : Tuple) : Option UInt64 :=
  match (List.range TCP_TIMEWAIT_MAX).find? fun r => (p.timewait r).active && (p.timewait r).tuple == t with
  | some r => some (p.timewait r).expiresMs
  | none =>
    ((List.range TCP_CB_MAX).find? fun i =>
      p.used i && (p.blocks i).state == .timeWait && (p.blocks i).tuple == t).map
        fun i => (p.blocks i).timers.timewait

/-- The connection of `t` is in `TIME_WAIT` until the given time. -/
inductive Waits (p : Pool) (t : Tuple) : UInt64 → Prop
  | block {i : Nat} (lt : i < TCP_CB_MAX) (used : p.used i = true) (state : (p.blocks i).state = .timeWait)
      (tuple : (p.blocks i).tuple = t) : Waits p t (p.blocks i).timers.timewait
  | record {r : Nat} (lt : r < TCP_TIMEWAIT_MAX) (active : (p.timewait r).active = true)
      (tuple : (p.timewait r).tuple = t) : Waits p t (p.timewait r).expiresMs

variable {e e' : UInt64} {t : Tuple}

/-- While it waits, a record in use has its tuple. -/
theorem Waits.taken (hk : Tracked p) (h : Waits p t e) :
    ∃ r, r < TCP_TIMEWAIT_MAX ∧ (p.timewait r).used = true ∧ (p.timewait r).tuple = t := by
  cases h with
  | @block i lt used state tuple =>
    exact ⟨p.twSlot i, hk.index i lt used, hk.records.used i lt used, (hk.tuple i lt used).trans tuple⟩
  | @record r lt active tuple => exact ⟨r, lt, hk.active r active, tuple⟩

/-- A used block owns the only record with its tuple, and no other used block has the tuple. -/
theorem Tracked.owner (hk : Tracked p) (hi : i < TCP_CB_MAX) (hu : p.used i = true)
    (hr : r < TCP_TIMEWAIT_MAX) (hur : (p.timewait r).used = true)
    (ht : (p.timewait r).tuple = (p.blocks i).tuple) : r = p.twSlot i :=
  hk.tuples r (p.twSlot i) hr (hk.index i hi hu) hur (hk.records.used i hi hu) (ht.trans (hk.tuple i hi hu).symm)

theorem Tracked.same_block (hk : Tracked p) (hi : i < TCP_CB_MAX) (hj : j < TCP_CB_MAX)
    (hui : p.used i = true) (huj : p.used j = true) (ht : (p.blocks i).tuple = (p.blocks j).tuple) : i = j :=
  hk.records.distinct i j hi hj hui huj
    (hk.owner hj huj (hk.index i hi hui) (hk.records.used i hi hui) ((hk.tuple i hi hui).trans ht))

theorem Tracked.not_active (hk : Tracked p) (hi : i < TCP_CB_MAX) (hu : p.used i = true)
    (hr : r < TCP_TIMEWAIT_MAX) (ha : (p.timewait r).active = true) : (p.timewait r).tuple ≠ (p.blocks i).tuple := by
  intro ht
  obtain rfl := hk.owner hi hu hr (hk.active r ha) ht
  exact Bool.false_ne_true ((hk.records.active i hi hu).symm.trans ha)

theorem Waits.unique (hk : Tracked p) (h : Waits p t e) (h' : Waits p t e') : e = e' := by
  cases h with
  | @block i lt used state tuple =>
    cases h' with
    | @block j lt' used' state' tuple' =>
      obtain rfl := hk.same_block lt lt' used used' (tuple.trans tuple'.symm)
      rfl
    | @record r lt' active' tuple' => exact absurd (tuple'.trans tuple.symm) (hk.not_active lt used lt' active')
  | @record r lt active tuple =>
    cases h' with
    | @block j lt' used' state' tuple' => exact absurd (tuple.trans tuple'.symm) (hk.not_active lt' used' lt active)
    | @record s lt' active' tuple' =>
      obtain rfl := hk.tuples r s lt lt' (hk.active r active) (hk.active s active') (tuple.trans tuple'.symm)
      rfl

theorem Pool.expiry_iff (hk : Tracked p) (t : Tuple) (e : UInt64) : p.expiry t = some e ↔ Waits p t e := by
  have sound {e : UInt64} (h : p.expiry t = some e) : Waits p t e := by
    unfold Pool.expiry at h
    split at h
    · rename_i r hr
      have hc := List.find?_some hr
      simp only [Bool.and_eq_true, beq_iff_eq] at hc
      cases h
      exact .record (List.mem_range.1 (List.mem_of_find?_eq_some hr)) hc.1 hc.2
    obtain ⟨i, hi, rfl⟩ := Option.map_eq_some_iff.1 h
    have hc := List.find?_some hi
    simp only [Bool.and_eq_true, beq_iff_eq] at hc
    exact .block (List.mem_range.1 (List.mem_of_find?_eq_some hi)) hc.1.1 hc.1.2 hc.2
  refine ⟨sound, fun h => ?_⟩
  -- The searches find something, and what they find waits until the same time.
  have hsome : (p.expiry t).isSome = true := by
    unfold Pool.expiry
    split
    · rfl
    rename_i hnone
    rw [Option.isSome_map, List.find?_isSome]
    cases h with
    | @block i lt used state tuple => exact ⟨i, List.mem_range.2 lt, by simp [used, state, tuple]⟩
    | @record r lt active tuple =>
      have := List.find?_eq_none.1 hnone r (List.mem_range.2 lt)
      simp [active, tuple] at this
  obtain ⟨e', he'⟩ := Option.isSome_iff_exists.1 hsome
  rw [he', h.unique hk (sound he')]

/-! ## Runs -/

/-- What is done to a pool: an open, a tick, an operation on a block, or a
segment for a record. -/
inductive TimewaitOp where
  | pool (op : PoolOp)
  | input (tuple : Tuple) (h : Header) (len : Nat) (now : UInt64)

def TimewaitOp.valid (p : Pool) : TimewaitOp → Prop
  | .pool op => op.valid p
  | .input _ _ _ _ => True

def TimewaitOp.apply (p : Pool) : TimewaitOp → Pool
  | .pool op => op.apply p
  | .input tuple h len now => (tcpPoolTimewaitInput p tuple h len now).2

def TimewaitOp.reading : TimewaitOp → Option UInt64
  | .pool (.connect _ _ _ _ now) | .pool (.tick now) | .input _ _ _ now => some now
  | .pool (.block _ op) => op.reading

/-- `tcp_pool_timewait_input` leaves the pool, or moves the expiry of an exported record to a later one. -/
theorem tcpPoolTimewaitInput_cases (p : Pool) (tuple : Tuple) (h : Header) (len : Nat) (now : UInt64) :
    (tcpPoolTimewaitInput p tuple h len now).2 = p ∨
      ∃ r e, (p.timewait r).expiresMs < e ∧ (tcpPoolTimewaitInput p tuple h len now).2 =
        { p with timewait := update p.timewait r { p.timewait r with expiresMs := e } } := by
  unfold tcpPoolTimewaitInput
  split
  · exact .inl rfl
  split
  · exact .inl rfl
  rename_i r _
  dsimp only
  split
  · rename_i hc
    simp only [Bool.and_eq_true, decide_eq_true_eq] at hc
    exact .inr ⟨r, _, hc.2, rfl⟩
  · exact .inl rfl

theorem Tracked.expires (h : Tracked p) (r : Nat) (e : UInt64) :
    Tracked { p with timewait := update p.timewait r { p.timewait r with expiresMs := e } } := by
  refine ⟨⟨h.records.distinct, fun i hi hu => ?_, fun i hi hu => ?_⟩, h.reach, h.index, fun i hi hu => ?_,
    fun i hi hu => ?_, fun s s' hs hs' hus hus' ht => ?_, fun s ha => ?_⟩
  · grind -linarith [Function.update_apply, h.records.used i hi hu]
  · grind -linarith [Function.update_apply, h.records.active i hi hu]
  · grind -linarith [Function.update_apply, h.generation i hi hu]
  · grind -linarith [Function.update_apply, h.tuple i hi hu]
  · grind -linarith [Function.update_apply, h.tuples s s' hs hs']
  · grind -linarith [Function.update_apply, h.active s]

theorem Tracked.apply (h : Tracked p) (op : TimewaitOp) : Tracked (op.apply p) := by
  cases op with
  | pool op =>
    cases op with
    | connect tuple isn mtu active now => exact h.connect (tcpPoolOpen_opens p tuple isn mtu active now)
    | block j op => exact h.op j op
    | tick now => exact h.tick now
  | input tuple hdr len now =>
    rcases tcpPoolTimewaitInput_cases p tuple hdr len now with e | ⟨r, e', _, e⟩
    · simpa only [TimewaitOp.apply, e] using h
    · simpa only [TimewaitOp.apply, e] using h.expires r e'

/-- A used block with the tuple that is not in `TIME_WAIT`: nobody waits. -/
theorem Tracked.gone_block (hk : Tracked p) (hi : i < TCP_CB_MAX) (hu : p.used i = true)
    (hst : (p.blocks i).state ≠ .timeWait) (e : UInt64) : ¬ Waits p (p.blocks i).tuple e := by
  intro h
  generalize ht : (p.blocks i).tuple = t at h
  cases h with
  | @block j lt used state tuple =>
    obtain rfl := hk.same_block hi lt hu used (ht.trans tuple.symm)
    exact hst state
  | @record r lt active tuple => exact hk.not_active hi hu lt active (tuple.trans ht.symm)

/-- The record in use with the tuple is let go: nobody waits. -/
theorem Tracked.gone_record {p' : Pool} (hk : Tracked p) (hk' : Tracked p') (hs : Shrinks p p')
    (hr : r < TCP_TIMEWAIT_MAX) (hu : (p.timewait r).used = true) (hfree : (p'.timewait r).used = false)
    (e : UInt64) : ¬ Waits p' (p.timewait r).tuple e := by
  intro h
  obtain ⟨s, hs', hus, hts⟩ := h.taken hk'
  obtain ⟨hus0, ht⟩ := hs s hs' hus
  obtain rfl := hk.tuples s r hs' hr hus0 hu (ht.symm.trans hts)
  exact Bool.false_ne_true (hfree.symm.trans hus)

/-- What becomes of a wait until `e`: it goes on, until `e` or later, or it is
over and the clock read `e` or later. -/
inductive Goes (p' : Pool) (t : Tuple) (e : UInt64) (reading : Option UInt64) : Prop
  | on {e' : UInt64} (waits : Waits p' t e') (le : e ≤ e')
  | «over» {now : UInt64} (gone : ∀ e', ¬ Waits p' t e') (read : reading = some now) (le : e ≤ now)

theorem Waits.of_block (lt : i < TCP_CB_MAX)
    (used : p.used i = true) (hc : p.blocks i = c) (state : c.state = .timeWait) (tuple : c.tuple = t)
    (he : c.timers.timewait = e) : Waits p t e := by
  subst hc he
  exact .block lt used state tuple

theorem Waits.of_record {tw : Timewait} (lt : r < TCP_TIMEWAIT_MAX)
    (htw : p.timewait r = tw) (active : tw.active = true) (tuple : tw.tuple = t) (he : tw.expiresMs = e) :
    Waits p t e := by
  subst htw he
  exact .record lt active tuple

theorem Waits.connect (hk : Tracked p) (h : Waits p t e) {r : Int × Pool}
    (ho : Opens p tuple r) : Waits r.2 t e := by
  cases ho with
  | refused _ => exact h
  | @opened slot tw c _ slot_lt tw_lt slot_free tw_free fresh initial tuple_eq generation_eq =>
    cases h with
    | @block i lt used state ht =>
      have hne : i ≠ slot := by
        rintro rfl
        exact Bool.false_ne_true (slot_free.symm.trans used)
      have hu : update p.used slot true i = true := by rwa [update_of_ne hne]
      exact .of_block lt hu (update_of_ne hne ..) state ht rfl
    | @record s lt active ht =>
      have hne : s ≠ tw := by
        rintro rfl
        exact Bool.false_ne_true (tw_free.symm.trans (hk.active s active))
      exact .of_record lt (update_of_ne hne ..) active ht rfl

theorem Goes.block (hk : Tracked p) (h : Waits p t e) (op : Op) :
    Goes { p with blocks := update p.blocks j (op.apply (p.blocks j)) } t e op.reading := by
  have hk' := hk.op j op
  cases h with
  | @block i lt used state ht =>
    by_cases hij : i = j
    · subst hij
      have hself : update p.blocks i (op.apply (p.blocks i)) i = op.apply (p.blocks i) :=
        update_self ..
      have htuple : (op.apply (p.blocks i)).tuple = t := by
        rw [← hself, ← hk'.tuple i lt used]
        exact (hk.tuple i lt used).trans ht
      rcases Op.waits (hk.reach i lt used) state op with ⟨hst, hle⟩ | ⟨hst, now, hread, hle⟩
      · exact .on (.of_block lt used hself hst htuple rfl) hle
      refine .over (fun e' hw => ?_) hread hle
      have hst' : (update p.blocks i (op.apply (p.blocks i)) i).state ≠ .timeWait := by
        rw [hself, hst]
        exact State.noConfusion
      refine hk'.gone_block lt used hst' e' ?_
      dsimp only
      rw [hself, htuple]
      exact hw
    · exact .on (.of_block lt used (update_of_ne hij ..) state ht rfl) (UInt64.le_refl _)
  | @record r lt active ht => exact .on (.of_record lt rfl active ht rfl) (UInt64.le_refl _)

theorem Goes.tick (hk : Tracked p) (h : Waits p t e) (now : UInt64) : Goes (tcpPoolTick p now) t e (some now) := by
  have hk' := hk.tick now
  have hs := tcpPoolTick_shrinks hk now
  cases h with
  | @block i lt used state ht =>
    have hslot := tcpPoolTick_slot hk.records now lt used
    have hrec := tcpPoolTick_owned hk.records now lt used
    have hrt : (p.slot i).record.tuple = t := (hk.tuple i lt used).trans ht
    have hticked := Slot.ticked (s := p.slot i) used now
    have hwaits : (tcpConnTick (p.slot i).block now).state = .timeWait ∧
        (tcpConnTick (p.slot i).block now).timers.timewait = (p.blocks i).timers.timewait ∨
        (tcpConnTick (p.slot i).block now).state = .closed ∧ (p.blocks i).timers.timewait ≤ now := tick_waits state now
    generalize (p.slot i).tick now = s' at hticked hslot hrec
    cases hticked with
    | stays =>
      have hu : (tcpPoolTick p now).used i = true := (congrArg Slot.used hslot).trans used
      have hb : (tcpPoolTick p now).blocks i = tcpConnTick (p.slot i).block now := congrArg Slot.block hslot
      have htuple : (tcpConnTick (p.slot i).block now).tuple = t := by
        rw [← hb, ← hk'.tuple i lt hu, (tcpPoolTick_ticking p now).twSlot, hrec]
        exact hrt
      rcases hwaits with ⟨hst, he⟩ | ⟨hst, hle⟩
      · exact .on (.of_block lt hu hb hst htuple he) (UInt64.le_refl _)
      refine .over (fun e' hw => ?_) rfl hle
      have hst' : ((tcpPoolTick p now).blocks i).state ≠ .timeWait := by
        rw [hb, hst]
        exact State.noConfusion
      refine hk'.gone_block lt hu hst' e' ?_
      rw [hb, htuple]
      exact hw
    | exported hst =>
      rcases hwaits with ⟨_, he⟩ | ⟨hst', _⟩
      · exact .on (.of_record (hk.index i lt used) hrec rfl hrt he) (UInt64.le_refl _)
      · exact State.noConfusion (hst.symm.trans hst')
    | released hst =>
      rcases hwaits with ⟨hst', _⟩ | ⟨_, hle⟩
      · exact State.noConfusion (hst.symm.trans hst')
      have hfree : ((tcpPoolTick p now).timewait (p.twSlot i)).used = false := by rw [hrec]
      refine .over (fun e' hw => ?_) rfl hle
      refine hk.gone_record hk' hs (hk.index i lt used) (hk.records.used i lt used) hfree e' ?_
      rw [hk.tuple i lt used, ht]
      exact hw
  | @record r lt active ht =>
    -- An exported record is no used block's, so only its expiry counts.
    have hno : ∀ i, i < TCP_CB_MAX → p.used i = true → p.twSlot i ≠ r := by
      rintro i hi hu rfl
      exact Bool.false_ne_true ((hk.records.active i hi hu).symm.trans active)
    have hrec := tcpPoolTick_timewait hno now
    rcases expireTimewait_timewait p now lt with ⟨he, _, hle⟩ | ⟨he, _⟩
    · have hfree : ((tcpPoolTick p now).timewait r).used = false := by rw [hrec, he]
      refine .over (fun e' hw => ?_) rfl hle
      refine hk.gone_record hk' hs lt (hk.active r active) hfree e' ?_
      rw [ht]
      exact hw
    · exact .on (.of_record lt (hrec.trans he) active ht rfl) (UInt64.le_refl _)

theorem Goes.expires (h : Waits p t e) (hlt : (p.timewait r).expiresMs < e') (reading : Option UInt64) :
    Goes { p with timewait := update p.timewait r { p.timewait r with expiresMs := e' } } t e reading := by
  cases h with
  | @block i lt used state ht => exact .on (.of_block lt used rfl state ht rfl) (UInt64.le_refl _)
  | @record s lt active ht =>
    by_cases hs : s = r
    · subst hs
      exact .on (.of_record lt (update_self ..) active ht rfl) (UInt64.le_of_lt hlt)
    · exact .on (.of_record lt (update_of_ne hs ..) active ht rfl) (UInt64.le_refl _)

/-- **One step of the pool and a wait.** -/
theorem TimewaitOp.goes (hk : Tracked p) (h : Waits p t e) (op : TimewaitOp) :
    Goes (op.apply p) t e op.reading := by
  cases op with
  | pool op =>
    cases op with
    | connect tuple isn mtu active now =>
      exact .on (h.connect hk (tcpPoolOpen_opens p tuple isn mtu active now)) (UInt64.le_refl _)
    | block j op => exact .block hk h op
    | tick now => exact .tick hk h now
  | input tuple hdr len now =>
    rcases tcpPoolTimewaitInput_cases p tuple hdr len now with e' | ⟨r, e', hlt, heq⟩
    · simp only [TimewaitOp.apply, e']
      exact .on h (UInt64.le_refl _)
    · simp only [TimewaitOp.apply, heq]
      exact .expires h hlt _

/-- A pool, the highest clock reading it was given, and for each tuple the
last expiry its connection had in `TIME_WAIT`. -/
structure Watch where
  pool : Pool := tcpPoolInit
  clock : UInt64 := 0
  latest : Tuple → UInt64 := fun _ => 0

def Watch.apply (w : Watch) (op : TimewaitOp) : Watch :=
  let p := op.apply w.pool
  { pool := p
    clock := match op.reading with
      | some now => if w.clock < now then now else w.clock
      | none => w.clock
    latest := fun t => (p.expiry t).getD (w.latest t) }

/-- Any sequence of opens, ticks, segments for records and operations on the blocks in use. -/
def timewaitMachine : Machine Watch TimewaitOp where
  init w := w = {}
  step w op w' := op.valid w.pool ∧ w' = w.apply op

/-- The bookkeeping, and that who waits beyond every reading so far is still there. -/
structure WatchInv (w : Watch) : Prop where
  kept : Tracked w.pool
  waits : ∀ t, w.clock < w.latest t → Waits w.pool t (w.latest t)

theorem Watch.clock_le (w : Watch) (op : TimewaitOp) :
    w.clock ≤ (w.apply op).clock ∧ ∀ now, op.reading = some now → now ≤ (w.apply op).clock := by
  unfold Watch.apply
  cases op.reading with
  | none => exact ⟨UInt64.le_refl _, fun _ h => absurd h (by simp)⟩
  | some n =>
    dsimp only
    split
    · rename_i hlt
      refine ⟨UInt64.le_of_lt hlt, fun now h => ?_⟩
      cases h
      exact UInt64.le_refl _
    rename_i hle
    refine ⟨UInt64.le_refl _, fun now h => ?_⟩
    cases h
    exact UInt64.not_lt.1 hle

variable {w : Watch}

theorem WatchInv.apply (h : WatchInv w) (op : TimewaitOp) : WatchInv (w.apply op) := by
  have hk' := h.kept.apply op
  refine ⟨hk', fun t hclock => ?_⟩
  obtain ⟨hle, hread⟩ := w.clock_le op
  cases hexp : (op.apply w.pool).expiry t with
  | some e =>
    have hlatest : (w.apply op).latest t = e := by simp [Watch.apply, hexp]
    rw [hlatest]
    exact (Pool.expiry_iff hk' t e).1 hexp
  | none =>
    have hlatest : (w.apply op).latest t = w.latest t := by simp [Watch.apply, hexp]
    rw [hlatest] at hclock
    -- It waited before, so it waits on: the reading did not reach its expiry.
    cases op.goes h.kept (h.waits t (UInt64.lt_of_le_of_lt hle hclock)) with
    | @on e' hw _ =>
      rw [(Pool.expiry_iff hk' t e').2 hw] at hexp
      exact absurd hexp (by simp)
    | «over» _ hr hdue => exact absurd (UInt64.le_trans hdue (hread _ hr)) (UInt64.not_le.2 hclock)

theorem reach_watchInv (h : timewaitMachine.Reach w) : WatchInv w := by
  refine h.invariant (fun w hi => ?_) (fun w op w' hw hstep => ?_)
  · obtain rfl := hi
    exact ⟨.init, fun _ hlt => absurd hlt (by decide : ¬ (0 : UInt64) < 0)⟩
  · obtain ⟨_, rfl⟩ := hstep
    exact hw.apply op

/-- **The `TIME_WAIT` bookkeeping.** After every run of opens, ticks, segments
for records and operations on blocks, with any clock readings: (1) used blocks
have different records; (2) the record of a used block is in use, with the
block's generation and tuple; (3) no two records in use have one tuple; (4)
while no reading has reached the latest expiry of a tuple, the tuple cannot be
opened; (5) a step that leaves a connection in `TIME_WAIT` there leaves its
expiry or moves it later. -/
theorem timewait_bookkeeping {w : Watch} (h : timewaitMachine.Reach w) :
    (∀ i j, i < TCP_CB_MAX → j < TCP_CB_MAX → w.pool.used i = true → w.pool.used j = true →
        w.pool.twSlot i = w.pool.twSlot j → i = j) ∧
      (∀ i, i < TCP_CB_MAX → w.pool.used i = true →
        w.pool.twSlot i < TCP_TIMEWAIT_MAX ∧ (w.pool.timewait (w.pool.twSlot i)).used = true ∧
          (w.pool.timewait (w.pool.twSlot i)).generation = (w.pool.blocks i).generation ∧
          (w.pool.timewait (w.pool.twSlot i)).tuple = (w.pool.blocks i).tuple) ∧
      (∀ r s, r < TCP_TIMEWAIT_MAX → s < TCP_TIMEWAIT_MAX → (w.pool.timewait r).used = true →
        (w.pool.timewait s).used = true → (w.pool.timewait r).tuple = (w.pool.timewait s).tuple → r = s) ∧
      (∀ t isn mtu active now, w.clock < w.latest t →
        tcpPoolOpen w.pool t isn mtu active now = (TCP_NO_SPACE, w.pool)) ∧
      ∀ (op : TimewaitOp) t e e', op.valid w.pool → w.pool.expiry t = some e →
        (op.apply w.pool).expiry t = some e' → e ≤ e' := by
  obtain ⟨hk, hw⟩ := reach_watchInv h
  refine ⟨hk.records.distinct, fun i hi hu => ?_, hk.tuples, fun t isn mtu active now hclock => ?_,
    fun op t e e' _ he he' => ?_⟩
  · exact ⟨hk.index i hi hu, hk.records.used i hi hu, hk.generation i hi hu, hk.tuple i hi hu⟩
  · obtain ⟨r, hr, hu, ht⟩ := (hw t hclock).taken hk
    unfold tcpPoolOpen
    rw [if_pos]
    exact List.any_eq_true.2 ⟨r, List.mem_range.2 hr, by simp [hu, ht]⟩
  have hk' := hk.apply op
  have hafter := (Pool.expiry_iff hk' t e').1 he'
  cases op.goes hk ((Pool.expiry_iff hk t e).1 he) with
  | on hwait hle =>
    rw [hafter.unique hk' hwait]
    exact hle
  | «over» hgone _ _ => exact absurd hafter (hgone e')

/-! ## A connection closed from this side -/

def Watch.block (w : Watch) (op : Op) : Watch := w.apply (.pool (.block 0 op))

theorem Watch.block_reach (h : timewaitMachine.Reach w) (hu : w.pool.used 0 = true) (op : Op) :
    timewaitMachine.Reach (w.block op) :=
  .step (i := .pool (.block 0 op)) h ⟨⟨by decide, hu⟩, rfl⟩

/-- The block's next action is prepared and sent. -/
def Watch.send (w : Watch) : Watch :=
  let w := w.block (.prepare none)
  w.block (.commit (w.pool.blocks 0).out.action true)

theorem Watch.send_reach (h : timewaitMachine.Reach w) (hu : w.pool.used 0 = true) : timewaitMachine.Reach w.send :=
  Watch.block_reach (Watch.block_reach h hu _) hu _

/-- Opened, the SYN answered at 5, and the FIN sent. -/
def finSentWatch : Watch :=
  let w : Watch := Watch.apply {} (.pool (.connect { localPort := 1, remotePort := 2 } 7 1500 true 0))
  let w := w.send.block (.input
    { source := 2, destination := 1, sequence := 500, acknowledgment := 8, flags := TCP_SYN ||| TCP_ACK, window := 1000 }
    [] 5)
  (w.block .shutdown).send.send

/-- The peer's FIN came with its ack at 9, and again at 12. -/
def waitingWatch : Watch :=
  let fin : Header :=
    { source := 2, destination := 1, sequence := 501, acknowledgment := 9, flags := TCP_FIN ||| TCP_ACK, window := 1000 }
  (finSentWatch.block (.input fin [] 9)).block (.input fin [] 12)

theorem waitingWatch_reach : timewaitMachine.Reach waitingWatch := by
  have h1 : timewaitMachine.Reach (Watch.apply {} (.pool (.connect { localPort := 1, remotePort := 2 } 7 1500 true 0))) :=
    .step (i := .pool (.connect ..)) (.init rfl) ⟨trivial, rfl⟩
  have h2 := Watch.block_reach (Watch.send_reach h1 (by decide +kernel)) (by decide +kernel) (.input
    { source := 2, destination := 1, sequence := 500, acknowledgment := 8, flags := TCP_SYN ||| TCP_ACK, window := 1000 }
    [] 5)
  have h3 : timewaitMachine.Reach finSentWatch := Watch.send_reach (Watch.send_reach
    (Watch.block_reach h2 (by decide +kernel) .shutdown) (by decide +kernel)) (by decide +kernel)
  exact Watch.block_reach (Watch.block_reach h3 (by decide +kernel) _) (by decide +kernel) _

/-- The second FIN moved the expiry from 240009 to 240012, and until then the
tuple cannot be opened. -/
theorem timewait_bookkeeping_fin_again :
    (waitingWatch.pool.blocks 0).state = .timeWait ∧
      waitingWatch.latest { localPort := 1, remotePort := 2 } = 240012 ∧
      (tcpPoolOpen waitingWatch.pool { localPort := 1, remotePort := 2 } 7 1500 true 240011).1 = TCP_NO_SPACE := by
  refine ⟨by decide +kernel, by decide +kernel, ?_⟩
  have hlater : waitingWatch.clock < waitingWatch.latest { localPort := 1, remotePort := 2 } := by decide +kernel
  rw [(timewait_bookkeeping waitingWatch_reach).2.2.2.1 _ 7 1500 true 240011 hlater]

end Fortress.Tcp
