/-
The pool of `net/tcp_tcb.c` over whole runs: when a detached connection's
block comes back.

The pool is seen as independent slots: a block, whether it is used, and the
`TIME_WAIT` record it reserved. `tcp_pool_tick` ticks each slot on its own,
and each used slot keeps the invariants of its connection. A ghost per slot
remembers when its block closed and whether a segment came in since.
-/
import Fortress.Tcp.Close

namespace Fortress.Tcp

open List

/-! ## Slots -/

/-- What the pool holds for one block. -/
structure Slot where
  used : Bool
  block : Conn
  record : Timewait

def Pool.slot (p : Pool) (i : Nat) : Slot := ⟨p.used i, p.blocks i, p.timewait (p.twSlot i)⟩

/-- `tcp_pool_tick` at one slot. -/
def Slot.tick (now : UInt64) (s : Slot) : Slot :=
  if !s.used then s
  else
    let c := tcpConnTick s.block now
    if !c.orphan || c.out.actionPending || c.out.resetPending || c.out.ackPending then { s with block := c }
    else
      match c.state with
      | .timeWait =>
        ⟨false, {}, { s.record with
          active := true, expiresMs := c.timers.timewait
          sndNxt := c.snd.sndNxt, rcvNxt := c.rcv.rcvNxt }⟩
      | .closed => ⟨false, {}, {}⟩
      | _ => { s with block := c }

variable {now : UInt64}

/-- A slot that is still used was ticked and nothing else. -/
theorem Slot.tick_used {s : Slot} (h : (s.tick now).used = true) :
    s.used = true ∧ s.tick now = { s with block := tcpConnTick s.block now } := by
  revert h
  unfold Slot.tick
  dsimp only
  split
  · rename_i hu
    intro h
    rw [h] at hu
    cases hu
  rename_i hu
  have hu : s.used = true := by simpa using hu
  split
  · exact fun _ => ⟨hu, rfl⟩
  split
  · exact nofun
  · exact nofun
  · exact fun _ => ⟨hu, rfl⟩

/-- Used blocks have records of their own, taken and not exported. -/
structure Records (p : Pool) : Prop where
  distinct : ∀ i j, i < TCP_CB_MAX → j < TCP_CB_MAX → p.used i = true → p.used j = true →
    p.twSlot i = p.twSlot j → i = j
  used : ∀ i, i < TCP_CB_MAX → p.used i = true → (p.timewait (p.twSlot i)).used = true
  active : ∀ i, i < TCP_CB_MAX → p.used i = true → (p.timewait (p.twSlot i)).active = false

theorem poolTickBlock_self (now : UInt64) (p : Pool) (i : Nat) :
    (poolTickBlock now p i).slot i = (p.slot i).tick now := by
  unfold poolTickBlock Slot.tick
  by_cases hu : p.used i = true
  · have hn : ¬ (!p.used i) = true := by simp [hu]
    have hn' : ¬ (!(p.slot i).used) = true := hn
    rw [if_neg hn, if_neg hn']
    dsimp only [Pool.slot]
    generalize tcpConnTick (p.blocks i) now = c
    split_ifs
    · simp
    · cases hs : c.state <;> simp
  · have hn : (!p.used i) = true := by simpa using hu
    have hn' : (!(p.slot i).used) = true := hn
    rw [if_pos hn, if_pos hn']

theorem poolTickBlock_twSlot (now : UInt64) (p : Pool) (i : Nat) : (poolTickBlock now p i).twSlot = p.twSlot := by
  unfold poolTickBlock
  dsimp only
  split
  · rfl
  split
  · rfl
  · split <;> rfl

variable {p : Pool}

/-- Another slot, unless it shares a record with a used block. -/
theorem poolTickBlock_other {i j : Nat} (hij : i ≠ j)
    (hrec : p.used j = true → p.twSlot i ≠ p.twSlot j) : (poolTickBlock now p j).slot i = p.slot i := by
  unfold poolTickBlock
  simp only [Pool.slot]
  split
  · rfl
  rename_i hu
  have hne := hrec (by simpa using hu)
  split
  · simp [hij]
  · split <;> simp [hij, hne]

/-- What `tcp_pool_tick`'s second loop keeps true of the pool `p` it started
from: the record numbers stand, and no slot becomes used. -/
structure Ticking (p q : Pool) : Prop where
  twSlot : q.twSlot = p.twSlot
  used : ∀ i, q.used i = true → p.used i = true

theorem Ticking.block {q : Pool} (h : Ticking p q) (now : UInt64) (j : Nat) :
    Ticking p (poolTickBlock now q j) := by
  refine ⟨(poolTickBlock_twSlot now q j).trans h.twSlot, fun i hi => ?_⟩
  by_cases hij : i = j
  · subst hij
    have hs := poolTickBlock_self now q i
    have hu : ((q.slot i).tick now).used = true := by
      rw [← hs]
      exact hi
    exact h.used i (Slot.tick_used hu).1
  refine h.used i ?_
  revert hi
  unfold poolTickBlock
  dsimp only
  split
  · exact id
  split
  · exact id
  · split <;> simp [hij]

/-- The loop ticks each slot it visits, and each on its own. -/
theorem Ticking.foldl (hd : Records p) (now : UInt64) {i : Nat} (hi : i < TCP_CB_MAX)
    (hu : p.used i = true) (l : List Nat) (hnd : l.Nodup) (hl : ∀ j ∈ l, j < TCP_CB_MAX) (q : Pool)
    (hq : Ticking p q) :
    (l.foldl (poolTickBlock now) q).slot i = if i ∈ l then (q.slot i).tick now else q.slot i := by
  induction l generalizing q with
  | nil => simp
  | cons j l ih =>
    obtain ⟨hj, hnd⟩ := nodup_cons.1 hnd
    rw [foldl_cons, ih hnd (fun k hk => hl k (.tail _ hk)) _ (hq.block now j)]
    by_cases hij : i = j
    · subst hij
      simp [hj, poolTickBlock_self]
    have hne : q.used j = true → q.twSlot i ≠ q.twSlot j := by
      intro huj e
      rw [hq.twSlot] at e
      exact hij (hd.distinct i j hi (hl j (.head _)) hu (hq.used j huj) e)
    rw [poolTickBlock_other hij hne]
    simp [hij]

/-- **`tcp_pool_tick` ticks every used slot.** -/
theorem tcpPoolTick_slot (hd : Records p) (now : UInt64) {i : Nat} (hi : i < TCP_CB_MAX)
    (hu : p.used i = true) : (tcpPoolTick p now).slot i = (p.slot i).tick now := by
  have hexp : (expireTimewait p now).slot i = p.slot i := by
    simp [expireTimewait, Pool.slot, hd.active i hi hu]
  have hfold := Ticking.foldl hd now hi hu (range TCP_CB_MAX) nodup_range
    (fun j hj => mem_range.1 hj) (expireTimewait p now) ⟨rfl, fun _ h => h⟩
  rw [if_pos (mem_range.2 hi), hexp] at hfold
  exact hfold

theorem tcpPoolTick_ticking (p : Pool) (now : UInt64) : Ticking p (tcpPoolTick p now) := by
  exact foldlRecOn _ _ ⟨rfl, fun _ h => h⟩ fun _ hq j _ => hq.block now j

variable {i : Nat}

theorem tcpPoolTick_used (h : Records p) (hi : i < TCP_CB_MAX) (hu : (tcpPoolTick p now).used i = true) :
    p.used i = true ∧ (tcpPoolTick p now).slot i = { p.slot i with block := tcpConnTick (p.blocks i) now } := by
  have hui := (tcpPoolTick_ticking p now).used i hu
  have hs := tcpPoolTick_slot h now hi hui
  have hu' : ((p.slot i).tick now).used = true := by
    rw [← hs]
    exact hu
  exact ⟨hui, hs.trans (Slot.tick_used hu').2⟩

theorem Records.tick (h : Records p) (now : UInt64) : Records (tcpPoolTick p now) := by
  have ht := tcpPoolTick_ticking p now
  refine ⟨fun i j hi hj hui huj e => ?_, fun i hi hu => ?_, fun i hi hu => ?_⟩
  · rw [ht.twSlot] at e
    exact h.distinct i j hi hj (ht.used i hui) (ht.used j huj) e
  · obtain ⟨hu0, hs⟩ := tcpPoolTick_used h hi hu
    exact (congrArg (·.record.used) hs).trans (h.used i hi hu0)
  · obtain ⟨hu0, hs⟩ := tcpPoolTick_used h hi hu
    exact (congrArg (·.record.active) hs).trans (h.active i hi hu0)

/-! ## Opening -/

/-- The pool with a new block and its record. -/
def Pool.opened (p : Pool) (tuple : Tuple) (slot tw : Nat) (c : Conn) : Pool := { p with
  blocks := Function.update p.blocks slot c
  generation := p.generation + 1
  used := Function.update p.used slot true
  twSlot := Function.update p.twSlot slot tw
  timewait := Function.update p.timewait tw { tuple, generation := p.generation + 1, used := true } }

/-- How `tcp_pool_open` ends: without a block, or with a new one in a free slot
that takes a free record, when no record in use has the tuple. -/
inductive Opens (p : Pool) (tuple : Tuple) : Int × Pool → Prop
  | refused (r : Int) : Opens p tuple (r, p)
  | opened {slot tw : Nat} {c : Conn} {r : Int} (slot_lt : slot < TCP_CB_MAX) (tw_lt : tw < TCP_TIMEWAIT_MAX)
      (slot_free : p.used slot = false) (tw_free : (p.timewait tw).used = false)
      (fresh : ∀ r, r < TCP_TIMEWAIT_MAX → (p.timewait r).used = true → (p.timewait r).tuple ≠ tuple)
      (initial : Initial c) (tuple_eq : c.tuple = tuple) (generation_eq : c.generation = p.generation + 1) :
      Opens p tuple (r, p.opened tuple slot tw c)

variable {c : Conn} {tuple : Tuple}

theorem tcpConnInit_ident {generation : UInt64} {isn : UInt32} {mtu : UInt16} {active : Bool}
    (h : tcpConnInit tuple generation isn mtu active now = some c) :
    c.tuple = tuple ∧ c.generation = generation := by
  simp only [tcpConnInit, Option.ite_none_left_eq_some, Option.some.injEq] at h
  obtain ⟨-, rfl⟩ := h
  exact ⟨rfl, rfl⟩

theorem tcpPoolOpen_opens (p : Pool) (tuple : Tuple) (isn : UInt32) (mtu : UInt16) (active : Bool) (now : UInt64) :
    Opens p tuple (tcpPoolOpen p tuple isn mtu active now) := by
  unfold tcpPoolOpen
  split
  · exact .refused _
  rename_i hany
  split
  · rename_i slot tw hslot htw
    split
    · exact .refused _
    split
    · exact .refused _
    rename_i c hc
    refine .opened (mem_range.1 (mem_of_find?_eq_some hslot))
      (mem_range.1 (mem_of_find?_eq_some htw)) (by simpa using find?_some hslot)
      (by simpa using find?_some htw) (fun r hr hu e => hany ?_) ⟨tuple, _, isn, mtu, active, now, hc⟩
      (tcpConnInit_ident hc).1 (tcpConnInit_ident hc).2
    exact any_eq_true.2 ⟨r, mem_range.2 hr, by simp [hu, e]⟩
  · exact .refused _

theorem Initial.state (h : Initial c) : c.state = .listen ∨ c.state = .synSent := by
  obtain ⟨tuple, generation, isn, mtu, active, now, h⟩ := h
  simp only [tcpConnInit, Option.ite_none_left_eq_some, Option.some.injEq] at h
  obtain ⟨-, rfl⟩ := h
  cases active
  · exact .inl rfl
  · exact .inr rfl

variable {slot tw : Nat}

theorem Pool.opened_self : (p.opened tuple slot tw c).slot slot =
    ⟨true, c, { tuple, generation := p.generation + 1, used := true }⟩ := by
  simp [Pool.opened, Pool.slot]

/-- A slot in use is the new one, or it was in use and stands: its record is not the free one that was taken. -/
theorem Records.opened_slot (h : Records p) (ht : (p.timewait tw).used = false) (hi : i < TCP_CB_MAX)
    (hu : (p.opened tuple slot tw c).used i = true) :
    i = slot ∨ p.used i = true ∧ p.twSlot i ≠ tw ∧ (p.opened tuple slot tw c).twSlot i = p.twSlot i ∧
      (p.opened tuple slot tw c).slot i = p.slot i := by
  by_cases e : i = slot
  · exact .inl e
  have hui : p.used i = true := by simpa [Pool.opened, e] using hu
  have hne : p.twSlot i ≠ tw := by
    rintro rfl
    exact Bool.false_ne_true (ht.symm.trans (h.used i hi hui))
  exact .inr ⟨hui, hne, by simp [Pool.opened, e], by simp [Pool.opened, Pool.slot, e, hne]⟩

theorem Records.opened (h : Records p) (ht : (p.timewait tw).used = false) : Records (p.opened tuple slot tw c) := by
  have htw : (p.opened tuple slot tw c).twSlot slot = tw := by simp [Pool.opened]
  refine ⟨fun i j hi hj hui huj e => ?_, fun i hi hu => ?_, fun i hi hu => ?_⟩
  · rcases h.opened_slot ht hi hui with rfl | ⟨hui', hni, ei, _⟩ <;>
      rcases h.opened_slot ht hj huj with rfl | ⟨huj', hnj, ej, _⟩
    · rfl
    · exact absurd (ej.symm.trans (e.symm.trans htw)) hnj
    · exact absurd (ei.symm.trans (e.trans htw)) hni
    · exact h.distinct i j hi hj hui' huj' (ei.symm.trans (e.trans ej))
  · rcases h.opened_slot ht hi hu with rfl | ⟨hu', _, _, e⟩
    · exact congrArg (·.record.used) Pool.opened_self
    · exact (congrArg (·.record.used) e).trans (h.used i hi hu')
  · rcases h.opened_slot ht hi hu with rfl | ⟨hu', _, _, e⟩
    · exact congrArg (·.record.active) Pool.opened_self
    · exact (congrArg (·.record.active) e).trans (h.active i hi hu')

/-! ## Runs of the pool -/

/-- When the block closed, and whether no segment came in since. -/
structure Closing where
  closedAt : UInt64 := 0
  quiet : Bool := false

def Closing.next (g : Closing) (c c' : Conn) (input : Bool) : Closing :=
  if c'.state != .closed then g
  else if c.state != .closed then ⟨c'.nowMs, true⟩
  else { g with quiet := g.quiet && !input }

/-- The pool, with what its blocks' closing is remembered by. -/
structure Owner where
  pool : Pool := tcpPoolInit
  closing : Nat → Closing := fun _ => {}

inductive PoolOp where
  | connect (tuple : Tuple) (isn : UInt32) (mtu : UInt16) (active : Bool) (now : UInt64)
  | block (i : Nat) (op : Op)
  | tick (now : UInt64)

def Op.isInput : Op → Bool
  | .input _ _ _ => true
  | _ => false

/-- The step delivers a segment to block `i`. -/
def PoolOp.inputs (i : Nat) : PoolOp → Bool
  | .block j op => decide (i = j) && op.isInput
  | _ => false

/-- Only blocks in use are operated on. -/
def PoolOp.valid (p : Pool) : PoolOp → Prop
  | .block i _ => i < TCP_CB_MAX ∧ p.used i = true
  | _ => True

def PoolOp.apply (p : Pool) : PoolOp → Pool
  | .connect tuple isn mtu active now => (tcpPoolOpen p tuple isn mtu active now).2
  | .block i op => { p with blocks := Function.update p.blocks i (op.apply (p.blocks i)) }
  | .tick now => tcpPoolTick p now

def Owner.apply (o : Owner) (op : PoolOp) : Owner :=
  let p := op.apply o.pool
  { pool := p, closing := fun i => (o.closing i).next (o.pool.blocks i) (p.blocks i) (op.inputs i) }

/-- A pool under any sequence of opens, ticks and operations on its blocks. -/
def poolMachine : Machine Owner PoolOp where
  init o := o = {}
  step o op o' := op.valid o.pool ∧ o' = o.apply op

variable {o : Owner}

theorem poolMachine_apply (h : poolMachine.Reach o) (op : PoolOp) (hv : op.valid o.pool) :
    poolMachine.Reach (o.apply op) :=
  .step h ⟨hv, rfl⟩

/-- The step leaves a closed block with output that no deadline bounds. -/
def PoolOp.leaks (o : Owner) : PoolOp → Bool
  | .block i op => op.leaks (o.pool.blocks i)
  | _ => false

/-! ## The invariant -/

/-- What holds of a used block and its closing. -/
structure BlockInv (g : Closing) (c : Conn) : Prop where
  send : SendInv c
  flags : FlagInv c
  clean : c.state = .closed → g.quiet = true → CloseOk g.closedAt.toNat c

theorem BlockInv.apply {g : Closing} (h : BlockInv g c) (op : Op) (hleak : op.leaks c = false) :
    BlockInv (g.next c (op.apply c) op.isInput) (op.apply c) := by
  refine ⟨h.send.apply op, h.flags.apply h.send op, fun hst hq => ?_⟩
  by_cases hc : c.state = .closed
  · simp only [Closing.next, hst, hc, bne_self_eq_false, Bool.false_eq_true, if_false, Bool.and_eq_true,
      Bool.not_eq_true'] at hq ⊢
    refine (h.clean hc hq.1).apply h.send hc fun hdr data now e => ?_
    rw [e] at hq
    exact absurd hq.2 (by simp [Op.isInput])
  have hnext : g.next c (op.apply c) op.isInput = ⟨(op.apply c).nowMs, true⟩ := by
    simp [Closing.next, hst, hc]
  rw [hnext]
  exact .of_closes h.flags h.send hc hleak hst

theorem Closing.next_self (g : Closing) (c : Conn) : g.next c c false = g := by
  unfold Closing.next
  cases hs : c.state <;> simp

structure PoolInv (o : Owner) : Prop where
  records : Records o.pool
  block : ∀ i, i < TCP_CB_MAX → o.pool.used i = true → BlockInv (o.closing i) (o.pool.blocks i)

theorem PoolInv.connect (h : PoolInv o) (tuple : Tuple) (isn : UInt32) (mtu : UInt16)
    (active : Bool) (now : UInt64) : PoolInv (o.apply (.connect tuple isn mtu active now)) := by
  have ho := tcpPoolOpen_opens o.pool tuple isn mtu active now
  simp only [Owner.apply, PoolOp.apply]
  generalize tcpPoolOpen o.pool tuple isn mtu active now = r at ho ⊢
  cases ho with
  | refused =>
    refine ⟨h.records, fun i hi hu => ?_⟩
    dsimp only [PoolOp.inputs]
    rw [Closing.next_self]
    exact h.block i hi hu
  | @opened slot tw c _ _ _ _ tw_free _ initial =>
    refine ⟨h.records.opened tw_free, fun i hi hu => ?_⟩
    dsimp only [PoolOp.inputs, Pool.opened]
    rcases h.records.opened_slot tw_free hi hu with rfl | ⟨hu', _, _, e⟩
    · rw [Function.update_self]
      refine ⟨initial.sendInv, initial.flagInv, fun e => ?_⟩
      rcases initial.state with hst | hst <;> exact State.noConfusion (hst.symm.trans e)
    · have hb : Function.update o.pool.blocks slot c i = o.pool.blocks i := congrArg Slot.block e
      rw [hb, Closing.next_self]
      exact h.block i hi hu'

theorem PoolInv.op (h : PoolInv o) {j : Nat} {op : Op} (hleak : op.leaks (o.pool.blocks j) = false) :
    PoolInv (o.apply (.block j op)) := by
  refine ⟨{ h.records with }, fun i hi hu => ?_⟩
  have hb := h.block i hi hu
  simp only [Owner.apply, PoolOp.apply, PoolOp.inputs]
  by_cases hij : i = j
  · subst hij
    simpa using hb.apply op hleak
  · simp only [Function.update_of_ne hij, hij, decide_false, Bool.false_and, Closing.next_self]
    exact hb

theorem PoolInv.tick (h : PoolInv o) (now : UInt64) : PoolInv (o.apply (.tick now)) := by
  refine ⟨h.records.tick now, fun i hi hu => ?_⟩
  obtain ⟨hu0, hs⟩ := tcpPoolTick_used h.records hi hu
  have hb : (tcpPoolTick o.pool now).blocks i = tcpConnTick (o.pool.blocks i) now := congrArg Slot.block hs
  simp only [Owner.apply, PoolOp.apply, PoolOp.inputs, hb]
  exact (h.block i hi hu0).apply (.tick now) rfl

/-- The pool under steps that leak nothing. -/
def cleanMachine : Machine Owner PoolOp := poolMachine.restrict fun o op => op.leaks o = false

theorem cleanMachine_apply (h : cleanMachine.Reach o) (op : PoolOp) (hv : op.valid o.pool)
    (hleak : op.leaks o = false) : cleanMachine.Reach (o.apply op) :=
  .step h ⟨hleak, hv, rfl⟩

theorem reach_poolInv (h : cleanMachine.Reach o) : PoolInv o := by
  refine h.invariant (fun o hi => ?_) fun o op o' hi hs => ?_
  · obtain rfl : o = {} := hi
    have hfree {P : Prop} {i : Nat} (hu : ({} : Owner).pool.used i = true) : P := absurd hu Bool.false_ne_true
    exact ⟨⟨fun _ _ _ _ hu => hfree hu, fun _ _ hu => hfree hu, fun _ _ hu => hfree hu⟩, fun _ _ hu => hfree hu⟩
  obtain ⟨hleak, _, rfl⟩ := hs
  cases op with
  | connect tuple isn mtu active now => exact hi.connect tuple isn mtu active now
  | block i op => exact hi.op hleak
  | tick now => exact hi.tick now

/-! ## Reclamation -/

theorem tcpConnTick_reset (hst : c.state = .closed) (hn : c.nowMs ≤ now) :
    (tcpConnTick c now).out.resetPending = (c.out.resetPending && !due c.timers.user now) := by
  unfold tcpConnTick
  rw [if_neg (by simpa using hn)]
  rw [if_pos (by simp [hst] : ((changed c).state == .closed) = true)]
  by_cases hr : c.out.resetPending = true
  · by_cases hd : due c.timers.user now = true <;> simp [changed, hr, hd]
  · simp [changed, hr]

/-- A clean closed orphan whose second is over. -/
theorem Slot.tick_reclaims {s : Slot} {t : Nat} (hu : s.used = true) (hc : CloseOk t s.block)
    (horphan : s.block.orphan = true) (hst : s.block.state = .closed) (hact : s.block.out.actionPending = false)
    (hnow : t + 1000 ≤ now.toNat) : s.tick now = ⟨false, {}, {}⟩ := by
  have hstate : (tcpConnTick s.block now).state = .closed := by
    rcases tcpConnTick_state s.block now with e | e
    · exact e
    · exact e.trans hst
  have htick := hc.tick hst now
  have hreset : (tcpConnTick s.block now).out.resetPending = false := by
    cases hr : s.block.out.resetPending with
    | false =>
      by_cases hn : s.block.nowMs ≤ now
      · rw [tcpConnTick_reset hst hn, hr]
        rfl
      · rw [tcpConnTick_of_lt hn, hr]
    | true =>
      obtain ⟨hne, hle, hlt⟩ := hc.reset hr
      rw [UInt64.le_iff_toNat_le] at hlt
      have hu : s.block.timers.user ≤ now := by
        rw [UInt64.le_iff_toNat_le]
        omega
      rw [tcpConnTick_reset hst (by rw [UInt64.le_iff_toNat_le]; omega)]
      simp [due, hne, hu]
  have hkeep : (tcpConnTick s.block now).orphan = true ∧ (tcpConnTick s.block now).out.actionPending = false := by
    by_cases hn : s.block.nowMs ≤ now
    · have hk := tcpConnTick_keeps hn
      exact ⟨hk.orphan.trans horphan, hk.actionPending⟩
    · rw [tcpConnTick_of_lt hn]
      exact ⟨horphan, hact⟩
  simp [Slot.tick, hu, hkeep.1, hkeep.2, hreset, htick.ack, hstate]

/-- **The pool takes back what is closed.** In every run whose steps leak
nothing, a tick at least one second after a detached block closed, with no
segment since and no action prepared, frees the block and clears its
`TIME_WAIT` record. -/
theorem pool_reclaims {o : Owner} (h : cleanMachine.Reach o) {i : Nat} (hi : i < TCP_CB_MAX)
    (hu : o.pool.used i = true) (horphan : (o.pool.blocks i).orphan = true)
    (hst : (o.pool.blocks i).state = .closed) (hquiet : (o.closing i).quiet = true)
    (hact : (o.pool.blocks i).out.actionPending = false) {now : UInt64}
    (hnow : (o.closing i).closedAt.toNat + 1000 ≤ now.toNat) :
    (tcpPoolTick o.pool now).used i = false ∧ (tcpPoolTick o.pool now).timewait (o.pool.twSlot i) = {} := by
  have hinv := reach_poolInv h
  have hslot := tcpPoolTick_slot hinv.records now hi hu
  rw [Slot.tick_reclaims hu ((hinv.block i hi hu).clean hst hquiet) horphan hst hact hnow]
    at hslot
  refine ⟨congrArg Slot.used hslot, ?_⟩
  rw [← (tcpPoolTick_ticking o.pool now).twSlot]
  exact congrArg Slot.record hslot

/-- An active opener with its SYN prepared. -/
def preparedOwner : Owner :=
  (Owner.apply {} (.connect { localPort := 1, remotePort := 2 } 7 1500 true 0)).apply (.block 0 (.prepare none))

/-- The SYN sent and the connection detached: its reset has a second. -/
def resetOwner : Owner :=
  (preparedOwner.apply (.block 0 (.commit (preparedOwner.pool.blocks 0).out.action true))).apply
    (.block 0 (.detach 10))

theorem resetOwner_reach : cleanMachine.Reach resetOwner := by
  have h1 := cleanMachine_apply (.init rfl) (.connect { localPort := 1, remotePort := 2 } 7 1500 true 0) trivial rfl
  have h2 : cleanMachine.Reach preparedOwner :=
    cleanMachine_apply h1 (.block 0 (.prepare none)) ⟨by decide, by decide +kernel⟩ rfl
  have h3 := cleanMachine_apply h2 (.block 0 (.commit (preparedOwner.pool.blocks 0).out.action true))
    ⟨by decide, by decide +kernel⟩ rfl
  exact cleanMachine_apply h3 (.block 0 (.detach 10)) ⟨by decide, by decide +kernel⟩ (by decide +kernel)

theorem pool_reclaims_reset :
    (resetOwner.pool.blocks 0).out.resetPending = true ∧
      (tcpPoolTick resetOwner.pool 1010).used 0 = false ∧
      (tcpPoolTick resetOwner.pool 1010).timewait (resetOwner.pool.twSlot 0) = {} :=
  ⟨by decide +kernel,
    pool_reclaims resetOwner_reach (by decide) (by decide +kernel) (by decide +kernel) (by decide +kernel)
      (by decide +kernel) (by decide +kernel) (by decide +kernel)⟩

/-- A listener that owes a reset and is detached. -/
def listenOwner : Owner :=
  let o := Owner.apply {} (.connect { localPort := 1, remotePort := 2 } 7 1500 false 0)
  let o := o.apply (.block 0 (.input { source := 2, destination := 1, flags := TCP_ACK } [] 5))
  o.apply (.block 0 (.detach 10))

/-- The detached listener keeps its block: the reset it owes has no deadline. -/
theorem pool_pins_listener :
    poolMachine.Reach listenOwner ∧ listenOwner.pool.used 0 = true ∧ (listenOwner.pool.blocks 0).orphan = true ∧
      (listenOwner.pool.blocks 0).state = .closed ∧ (listenOwner.closing 0).quiet = true ∧
      (listenOwner.pool.blocks 0).out.actionPending = false ∧ (listenOwner.closing 0).closedAt = 10 ∧
      (tcpPoolTick listenOwner.pool 5000).used 0 = true ∧
      (tcpPoolTick listenOwner.pool 0xffffffffffffffff).used 0 = true := by
  refine ⟨?_, by decide +kernel, by decide +kernel, by decide +kernel, by decide +kernel, by decide +kernel,
    by decide +kernel, by decide +kernel, by decide +kernel⟩
  have h₁ := poolMachine_apply (.init rfl) (.connect { localPort := 1, remotePort := 2 } 7 1500 false 0) trivial
  have h₂ := poolMachine_apply h₁ (.block 0 (.input { source := 2, destination := 1, flags := TCP_ACK } [] 5))
    ⟨by decide, by decide +kernel⟩
  exact poolMachine_apply h₂ (.block 0 (.detach 10)) ⟨by decide, by decide +kernel⟩

end Fortress.Tcp
