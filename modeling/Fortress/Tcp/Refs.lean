/-
References to the blocks of the TCP pool, and the calls that move none. An
endpoint refers to its block until its tick detaches it, a listener's queue to
the children it has not handed out.
-/
import Fortress.Lib.Custody
import Fortress.Tcp.Handlers
import Fortress.Tcp.Net

namespace Fortress.Tcp

open Function

/-! ## References -/

/-- What can refer to a block. -/
inductive Ref where
  | endpoint (slot : SlotId)
  | pending (slot : SlotId) (j : Fin NET_TCP_BACKLOG_MAX)
deriving DecidableEq

/-- The endpoint a reference is kept in. -/
def Ref.slot : Ref → SlotId
  | .endpoint slot => slot
  | .pending slot _ => slot

def Endpoint.ref (e : Endpoint) : Ref → Option Nat
  | .endpoint _ => e.block
  | .pending _ j => (e.pending j).block

def Net.ref (n : Net) : Ref → Option Nat
  | .endpoint slot => (n.endpoints slot).block
  | .pending slot j => ((n.endpoints slot).pending j).block

def Pool.inUse (p : Pool) (b : Nat) : Prop := b < TCP_CB_MAX ∧ p.used b = true

def Pool.isOrphan (p : Pool) (b : Nat) : Prop := (p.blocks b).orphan = true

theorem Net.ref_eq (n : Net) (t : Ref) : n.ref t = (n.endpoints t.slot).ref t := by
  cases t <;> rfl

/-- **Every used block has one owner or is an orphan, and no reference is stale.** An endpoint that refers to a
block is open, or closed and waiting for the tick that detaches it. -/
structure Owned (n : Net) : Prop where
  custody : Custody n.ref n.pool.inUse n.pool.isOrphan
  /-- The endpoint's generation, unless it was cleared, and the child's are the block's. -/
  endpoint : ∀ slot b, n.ref (.endpoint slot) = some b →
    ((n.endpoints slot).used = true ∨ (n.endpoints slot).detach = true) ∧
      ((n.endpoints slot).generation = 0 ∨ (n.endpoints slot).generation = (n.pool.blocks b).generation)
  pending : ∀ slot j b, n.ref (.pending slot j) = some b →
    (n.endpoints slot).listening = true ∧ j.val < (n.endpoints slot).backlog ∧
      ((n.endpoints slot).pending j).generation = (n.pool.blocks b).generation

/-- No reference that outlasts a step had its block reopened under it. -/
def KeepsBlocks (n n' : Net) : Prop :=
  ∀ r b, n.ref r = some b → n'.ref r = some b → (n'.pool.blocks b).generation = (n.pool.blocks b).generation

/-! ## The invariant -/

/-- What holds of an endpoint by itself. -/
structure Endpoint.Shape (e : Endpoint) : Prop where
  idle : e.used = false → e.detach = false → e.block = none
  attached : e.used = true → e.detach = false
  empty : e.block = none → e.backlog = 0
  unstarted : e.started = false → e.backlog = 0
  listening : e.backlog ≠ 0 → e.listening = true
  queued : ∀ j b, (e.pending j).block = some b → j.val < e.backlog
  error : e.error ≤ 0

/-- The generations of an endpoint in the pool. -/
structure Endpoint.Current (p : Pool) (e : Endpoint) : Prop where
  own : ∀ b, e.block = some b →
    e.generation = (p.blocks b).generation ∨ e.generation = 0 ∧ (e.used = true → e.error ≠ 0)
  child : ∀ j b, (e.pending j).block = some b → (e.pending j).generation = (p.blocks b).generation

structure NetInv (n : Net) : Prop where
  custody : Custody n.ref n.pool.inUse n.pool.isOrphan
  shape : ∀ slot, (n.endpoints slot).Shape
  current : ∀ slot, (n.endpoints slot).Current n.pool
  positive : ∀ b, n.pool.inUse b → (n.pool.blocks b).generation ≠ 0
  errors : ∀ b, ErrorOk (n.pool.blocks b)

variable {n : Net}

theorem NetInv.owned (h : NetInv n) : Owned n := by
  refine ⟨h.custody, ?_, ?_⟩
  · intro slot b hb
    have hidle := (h.shape slot).idle
    have hown := (h.current slot).own b hb
    grind -linarith [Net.ref]
  intro slot j b hb
  have hs := h.shape slot
  have hj := hs.queued j b hb
  exact ⟨hs.listening (by omega), hj, (h.current slot).child j b hb⟩

/-! ### Publishing -/

@[simp] theorem publish_block (e : Endpoint) : (publish e).block = e.block := by
  unfold publish
  split <;> rfl

@[simp] theorem publish_pending (e : Endpoint) : (publish e).pending = e.pending := by
  unfold publish
  split <;> rfl

variable {e : Endpoint}

theorem Endpoint.Shape.publish (h : e.Shape) : (publish e).Shape := by
  unfold Tcp.publish
  split
  · exact { h with error := show SYSCALL_EIO ≤ 0 by decide }
  · exact { h with }

theorem Endpoint.Current.publish {p : Pool} (h : e.Current p) : (publish e).Current p := by
  unfold Tcp.publish
  split
  · exact ⟨fun b _ => .inr ⟨rfl, fun _ => show SYSCALL_EIO ≠ 0 by decide⟩, h.child⟩
  · exact ⟨h.own, h.child⟩

/-- One place of the queue changes. -/
def Endpoint.setPending (e : Endpoint) (j : Fin NET_TCP_BACKLOG_MAX) (child : Child) : Endpoint :=
  { e with pending := Function.update e.pending j child }

variable {j : Fin NET_TCP_BACKLOG_MAX} {child : Child}

theorem Endpoint.Shape.setPending (h : e.Shape)
    (hj : child.block ≠ none → j.val < e.backlog) : (e.setPending j child).Shape := by
  refine { h with queued := fun i b hb => ?_ }
  simp only [Endpoint.setPending, update_apply] at hb ⊢
  have := h.queued i b
  grind -linarith

theorem Endpoint.Current.setPending {p : Pool} (h : e.Current p)
    (hc : ∀ b, child.block = some b → child.generation = (p.blocks b).generation) :
    (e.setPending j child).Current p := by
  refine ⟨h.own, fun i b => ?_⟩
  simp only [Endpoint.setPending, update_apply]
  split
  · exact hc b
  · exact h.child i b

theorem Endpoint.ref_setPending {t : Ref}
    (ht : t ≠ .pending t.slot j) : (e.setPending j child).ref t = e.ref t := by
  cases t with
  | endpoint s => rfl
  | pending s i =>
    have hij : i ≠ j := fun hij => ht (congrArg _ hij)
    simp [Endpoint.ref, Endpoint.setPending, hij]

theorem Endpoint.ref_publish (e : Endpoint) (t : Ref) : (publish e).ref t = e.ref t := by
  cases t <;> simp [Endpoint.ref]

/-! ### Steps that move no reference -/

/-- The invariant; no block in use since `n₀` was reopened; no clock is past `T`, and the layer's not back. -/
structure Kept (n₀ : Net) (T : UInt64) (n : Net) : Prop extends NetInv n where
  generation : ∀ b, n₀.pool.inUse b → n.pool.inUse b →
    (n.pool.blocks b).generation = (n₀.pool.blocks b).generation
  behind : ∀ b, (n.pool.blocks b).nowMs ≤ T
  clock : n.clockMs ≤ T
  since : n₀.clockMs ≤ n.clockMs

variable {T : UInt64} {n₀ : Net}

theorem Kept.sane (h : Kept n₀ T n) (b : Nat) : (n.pool.blocks b).Sane T :=
  ⟨h.behind b, h.errors b⟩

/-- Blocks are as they were, seen by their owners. -/
structure SameBlocks (p p' : Pool) : Prop where
  used : p'.used = p.used
  orphan : ∀ b, p.inUse b → (p'.blocks b).orphan = (p.blocks b).orphan
  generation : ∀ b, p.inUse b → (p'.blocks b).generation = (p.blocks b).generation

theorem SameBlocks.refl (p : Pool) : SameBlocks p p := ⟨rfl, fun _ _ => rfl, fun _ _ => rfl⟩

theorem SameBlocks.inUse {p p' : Pool} (h : SameBlocks p p') (b : Nat) : p'.inUse b ↔ p.inUse b := by
  unfold Pool.inUse
  rw [h.used]

/-- Generations are seen through references, so only blocks with an owner matter. -/
theorem NetInv.current_of {p' : Pool} (h : NetInv n)
    (hs : ∀ b, n.pool.inUse b → ¬n.pool.isOrphan b → (p'.blocks b).generation = (n.pool.blocks b).generation)
    {slot : SlotId} (hblock : e.block = (n.endpoints slot).block) (hpending : e.pending = (n.endpoints slot).pending)
    (he : e.Current n.pool) : e.Current p' := by
  refine ⟨fun b hb => ?_, fun j b hb => ?_⟩
  · obtain ⟨hu, ho⟩ := h.custody.live (.endpoint slot) b (hblock.symm.trans hb)
    rw [hs b hu ho]
    exact he.own b hb
  · obtain ⟨hu, ho⟩ := h.custody.live (.pending slot j) b (by rw [Net.ref, ← hpending]; exact hb)
    rw [hs b hu ho]
    exact he.child j b hb

/-- A step that changes endpoints but none of their references, and blocks but nothing owners see of them. -/
theorem Kept.same {n' : Net} (h : Kept n₀ T n) (hs : SameBlocks n.pool n'.pool)
    (hblock : ∀ slot, (n'.endpoints slot).block = (n.endpoints slot).block)
    (hpending : ∀ slot, (n'.endpoints slot).pending = (n.endpoints slot).pending)
    (hshape : ∀ slot, (n'.endpoints slot).Shape) (hcur : ∀ slot, (n'.endpoints slot).Current n.pool)
    (hsane : ∀ b, (n'.pool.blocks b).Sane T) (hclock : n'.clockMs = n.clockMs) : Kept n₀ T n' := by
  refine ⟨⟨h.custody.congr ?_ hs.inUse ?_, hshape, ?_, ?_, fun b => (hsane b).error⟩,
    ?_, fun b => (hsane b).clock, hclock.trans_le h.clock, h.since.trans_eq hclock.symm⟩
  · intro r
    cases r with
    | endpoint slot => exact hblock slot
    | pending slot j => exact congrArg (fun p => (p j).block) (hpending slot)
  · intro b hb
    unfold Pool.isOrphan
    rw [hs.orphan b hb]
  · intro slot
    exact h.current_of (fun b hb _ => hs.generation b hb) (hblock slot) (hpending slot) (hcur slot)
  · intro b hb
    have hb := (hs.inUse b).1 hb
    rw [hs.generation b hb]
    exact h.positive b hb
  intro b hb0 hb
  have hb := (hs.inUse b).1 hb
  rw [hs.generation b hb]
  exact h.generation b hb0 hb

theorem Net.setEndpoint_at (n : Net) (slot : SlotId) (e : Endpoint) (s : SlotId) :
    (n.setEndpoint slot e).endpoints s = if s = slot then e else n.endpoints s := by
  simp only [Net.setEndpoint, update_apply]

theorem Kept.setEndpoint (h : Kept n₀ T n) {slot : SlotId}
    (hblock : e.block = (n.endpoints slot).block) (hpending : e.pending = (n.endpoints slot).pending)
    (hshape : e.Shape) (hcur : e.Current n.pool) : Kept n₀ T (n.setEndpoint slot e) := by
  refine h.same (.refl _) ?_ ?_ ?_ ?_ h.sane rfl <;> intro s <;> rw [Net.setEndpoint_at] <;>
    grind -linarith [h.shape s, h.current s]

variable {c : Conn}

theorem sameBlocks_setBlock {b : Nat} (ho : c.orphan = (n.pool.blocks b).orphan)
    (hg : c.generation = (n.pool.blocks b).generation) : SameBlocks n.pool (n.setBlock b c).pool := by
  refine ⟨rfl, ?_, ?_⟩ <;> intro x _ <;> simp only [Net.setBlock, update_apply] <;> grind -linarith

theorem Kept.setBlock_sane (h : Kept n₀ T n) (b : Nat) (hn : c.Sane T)
    (x : Nat) : ((n.setBlock b c).pool.blocks x).Sane T := by
  simp only [Net.setBlock, update_apply]
  split
  · exact hn
  · exact h.sane x

theorem Kept.setBlock (h : Kept n₀ T n) {b : Nat} (ho : c.orphan = (n.pool.blocks b).orphan)
    (hg : c.generation = (n.pool.blocks b).generation) (hn : c.Sane T) : Kept n₀ T (n.setBlock b c) :=
  h.same (sameBlocks_setBlock ho hg) (fun _ => rfl) (fun _ => rfl) h.shape h.current (h.setBlock_sane b hn) rfl

theorem Kept.setOp (h : Kept n₀ T n) (b : Nat) (op : Op) (hop : op.reading = none) :
    Kept n₀ T (n.setBlock b (op.apply (n.pool.blocks b))) :=
  have hsame := Op.same (n.pool.blocks b) op hop
  h.setBlock hsame.2.1 hsame.1 ((h.sane b).apply op hop)

/-! ### Calls on one endpoint -/

theorem netTcpBind_same (n : Net) (slot : SlotId) (port : UInt16) :
    ((netTcpBind n slot port).2.endpoints slot).block = (n.endpoints slot).block ∧
      ((netTcpBind n slot port).2.endpoints slot).generation = (n.endpoints slot).generation ∧
      (netTcpBind n slot port).2.pool = n.pool := by
  unfold netTcpBind
  dsimp only
  split_ifs <;> try split
  all_goals simp [Net.setEndpoint]

theorem tcpConnInit_some {tuple : Tuple} {generation : UInt64} {isn : UInt32} {mtu : UInt16} {active : Bool}
    {now : UInt64} (h : tcpConnInit tuple generation isn mtu active now = some c) :
    c.generation = generation ∧ generation ≠ 0 ∧ c.orphan = false ∧ c.nowMs = now ∧ ErrorOk c := by
  simp only [tcpConnInit, Option.ite_none_left_eq_some, Option.some.injEq] at h
  obtain ⟨hok, rfl⟩ := h
  simp only [Bool.or_eq_true, not_or, beq_iff_eq] at hok
  exact ⟨rfl, hok.1.1.1, rfl, rfl, Int.le_refl 0⟩

section Calls

variable {n₀ : Net} {T : UInt64} {n : Net} (h : Kept n₀ T n)
include h

theorem Kept.touched (slot : SlotId) : Kept n₀ T (n.touched slot) := by
  have hs := h.shape slot
  have hc := h.current slot
  refine h.setEndpoint (by simp) (by simp) (Endpoint.Shape.publish ?_) (Endpoint.Current.publish ?_)
  · exact { hs with }
  · exact ⟨hc.own, hc.child⟩

variable {slot : SlotId}

theorem Kept.no_pending (hb : (n.endpoints slot).backlog = 0) (j : Fin NET_TCP_BACKLOG_MAX) :
    ((n.endpoints slot).pending j).block = none := by
  cases hp : ((n.endpoints slot).pending j).block with
  | none => rfl
  | some b =>
    have := (h.shape slot).queued j b hp
    omega

theorem netTcpStage_kept (slot : SlotId) : Kept n₀ T (netTcpStage n slot).2 := by
  unfold netTcpStage
  dsimp only
  split
  · exact h
  rename_i hfree
  simp only [Bool.or_eq_true, not_or, Bool.not_eq_true] at hfree
  have hnone := (h.shape slot).idle hfree.1 hfree.2
  have hempty := h.no_pending ((h.shape slot).empty hnone)
  refine h.setEndpoint hnone.symm rfl ⟨nofun, fun _ => hfree.2, fun _ => rfl, fun _ => rfl, nofun, ?_, Int.le_refl 0⟩
    ⟨nofun, ?_⟩ <;>
  · intro j b hb
    rw [hempty j] at hb
    cases hb

theorem netTcpUnstage_kept (slot : SlotId) : Kept n₀ T (netTcpUnstage n slot) := by
  unfold netTcpUnstage
  dsimp only
  split
  · exact h
  rename_i htrap
  simp only [Bool.or_eq_true, not_or, Bool.not_eq_true, Option.isSome_eq_false_iff, Option.isNone_iff_eq_none] at htrap
  have hs := h.shape slot
  have hnone : (n.endpoints slot).block = none := htrap.1.1.2
  refine h.setEndpoint rfl rfl ⟨fun _ _ => hnone, nofun, hs.empty, hs.unstarted, hs.listening, hs.queued, hs.error⟩
    ⟨?_, ?_⟩
  · intro b hb
    rw [hnone] at hb
    cases hb
  · exact (h.current slot).child

theorem Kept.setPort (slot : SlotId) (port : UInt16) (eph : UInt16) :
    Kept n₀ T (Net.setEndpoint { n with ephemeral := eph } slot { n.endpoints slot with port }) := by
  have hs := h.shape slot
  have hc := h.current slot
  have h' : Kept n₀ T { n with ephemeral := eph } := ⟨{ h with }, h.generation, h.behind, h.clock, h.since⟩
  exact h'.setEndpoint rfl rfl { hs with } ⟨hc.own, hc.child⟩

theorem netTcpBind_kept (slot : SlotId) (port : UInt16) : Kept n₀ T (netTcpBind n slot port).2 := by
  unfold netTcpBind
  dsimp only
  split
  · exact h
  split
  · split
    · exact h
    · exact h.setPort slot port n.ephemeral
  · split
    · exact ⟨{ h with }, h.generation, h.behind, h.clock, h.since⟩
    · exact h.setPort slot _ _

theorem Kept.connection_some {b : Nat} (hc : connection n.pool (n.endpoints slot) = some b) :
    (n.endpoints slot).block = some b ∧ n.pool.inUse b ∧ (n.pool.blocks b).orphan = false := by
  have hb : (n.endpoints slot).block = some b := (Option.filter_eq_some_iff.1 hc).1
  obtain ⟨hu, ho⟩ := h.custody.live (.endpoint slot) b hb
  exact ⟨hb, hu, by simpa [Pool.isOrphan] using ho⟩

variable (slot)

theorem netTcpListen_kept (backlog : Nat) : Kept n₀ T (netTcpListen n slot backlog).2 := by
  unfold netTcpListen
  dsimp only
  split
  · exact h
  rename_i b hconn
  split
  · exact h
  rename_i hok
  simp only [Bool.or_eq_true, not_or, Bool.not_eq_true, beq_eq_false_iff_ne] at hok
  have hblock := (h.connection_some hconn).1
  have hs := h.shape slot
  have hempty := h.no_pending (hs.unstarted hok.2)
  have h' := h.setBlock (c := { n.pool.blocks b with
    tuple := { (n.pool.blocks b).tuple with localPort := (n.endpoints slot).port }, state := .listen }) rfl rfl
    ⟨h.behind b, h.errors b⟩
  have hcur := h'.current slot
  refine h'.setEndpoint (by simp [Net.setBlock]) (by simp [Net.setBlock]) (Endpoint.Shape.publish ?_)
    (Endpoint.Current.publish ⟨hcur.own, hcur.child⟩)
  refine ⟨hs.idle, hs.attached, fun hn => ?_, nofun, fun _ => rfl, fun j x hx => ?_, hs.error⟩
  · rw [hblock] at hn
    cases hn
  · rw [hempty j] at hx
    cases hx

theorem netTcpCancelConnect_kept (generation : UInt64) :
    Kept n₀ T (netTcpCancelConnect n slot generation) := by
  unfold netTcpCancelConnect
  dsimp only
  split
  · have hs := h.shape slot
    have hc := h.current slot
    refine h.setEndpoint (by simp) (by simp) (Endpoint.Shape.publish ?_)
      (Endpoint.Current.publish ⟨fun b hb => ?_, hc.child⟩)
    · exact { hs with error := show SYSCALL_ENOTCONN ≤ 0 by decide }
    rcases hc.own b hb with hg | hg
    · exact .inl hg
    · exact .inr ⟨hg.1, fun _ => show SYSCALL_ENOTCONN ≠ 0 by decide⟩
  · exact h

theorem netTcpClose_kept : Kept n₀ T (netTcpClose n slot) := by
  have hs := h.shape slot
  have hc := h.current slot
  refine h.setEndpoint (by simp) (by simp) (Endpoint.Shape.publish ?_)
    (Endpoint.Current.publish ⟨fun b _ => .inr ⟨rfl, nofun⟩, hc.child⟩)
  exact ⟨nofun, nofun, hs.empty, hs.unstarted, hs.listening, hs.queued, hs.error⟩

theorem netTcpSend_kept (data : List UInt8) : Kept n₀ T (netTcpSend n slot data).2 := by
  unfold netTcpSend
  dsimp only
  split
  · exact h
  rename_i b _
  have h' := h.setOp b (.queue data) rfl
  split_ifs
  · exact h
  · exact h
  · exact h'
  · exact h'
  · exact h'.touched slot

theorem netTcpConsume_kept (len : Nat) : Kept n₀ T (netTcpConsume n slot len).2 := by
  unfold netTcpConsume
  split
  · exact h.touched slot
  rename_i b _
  exact (h.setOp b (.consume len) rfl).touched slot

theorem netTcpShutdown_kept : Kept n₀ T (netTcpShutdown n slot).2 := by
  unfold netTcpShutdown
  split
  · exact h
  rename_i b _
  exact h.setOp b .shutdown rfl

variable {slot}

variable {now : UInt64}

theorem tickBegin_kept (fresh : UInt64) (hn : now ≤ T) : Kept n₀ T (tickBegin n now fresh) := by
  refine ⟨{ h with }, h.generation, h.behind, ?_, ?_⟩ <;> unfold tickBegin <;>
    dsimp only <;> split
  · exact hn
  · exact h.clock
  · rename_i hlt
    exact UInt64.le_trans h.since (UInt64.le_of_lt hlt)
  · exact h.since

theorem sweepBlock_kept (b : Nat) (online sent : Bool) : Kept n₀ T (sweepBlock n b online sent) := by
  unfold sweepBlock
  split
  · exact h
  have hc := (h.sane b).tick n.clockMs h.clock
  have hconsume : ∀ c : Conn, c.Sane T → ∀ p : Bool,
      (if p then (tcpConnConsume c c.rcv.rxCount).2 else c).generation = c.generation ∧
      (if p then (tcpConnConsume c c.rcv.rxCount).2 else c).orphan = c.orphan ∧
      (if p then (tcpConnConsume c c.rcv.rxCount).2 else c).Sane T := by
    intro c hc p
    cases p
    · exact ⟨rfl, rfl, hc⟩
    · obtain ⟨hg, ho, -⟩ := Op.same c (.consume c.rcv.rxCount) rfl
      exact ⟨hg, ho, hc.apply (.consume _) rfl⟩
  obtain ⟨hg, ho, hn⟩ := hconsume _ hc ((tcpConnTick (n.pool.blocks b) n.clockMs).orphan &&
    (tcpConnTick (n.pool.blocks b) n.clockMs).rcv.rxCount != 0)
  have hg := hg.trans (tcpConnTick_generation _ _)
  have ho := ho.trans (tcpConnTick_orphan _ _)
  dsimp only
  generalize (if ((tcpConnTick (n.pool.blocks b) n.clockMs).orphan &&
    (tcpConnTick (n.pool.blocks b) n.clockMs).rcv.rxCount != 0) = true then _ else _) = c at hg ho hn ⊢
  split
  · exact h.setBlock ho hg hn
  obtain ⟨hg1, ho1, -⟩ := Op.same c (.prepare (some TCP_MSS_MAX.toNat)) rfl
  have hn1 := hn.apply (.prepare (some TCP_MSS_MAX.toNat)) rfl
  split
  · exact h.setBlock (ho1.trans ho) (hg1.trans hg) hn1
  rename_i a _
  obtain ⟨hg2, ho2, -⟩ := Op.same (tcpConnPrepare c (some TCP_MSS_MAX.toNat)).2.2 (.commit a.1 sent) rfl
  exact h.setBlock (ho2.trans (ho1.trans ho)) (hg2.trans (hg1.trans hg)) (hn1.apply (.commit a.1 sent) rfl)

/-- What `connect_start` does once its checks have passed. -/
theorem Kept.connect {b tw : Nat} {c : Conn} {record : Timewait}
    (ho : c.orphan = (n.pool.blocks b).orphan) (hg : c.generation = (n.pool.blocks b).generation) (hn : c.Sane T) :
    Kept n₀ T (Net.setEndpoint { n.setBlock b c with pool := { (n.setBlock b c).pool with
        timewait := update n.pool.timewait tw record } } slot
      (publish { n.endpoints slot with started := true })) := by
  have h1 := h.setBlock ho hg hn
  have h2 : Kept n₀ T { n.setBlock b c with pool := { (n.setBlock b c).pool with
      timewait := update n.pool.timewait tw record } } :=
    ⟨⟨h1.custody, h1.shape, fun s => ⟨(h1.current s).own, (h1.current s).child⟩, h1.positive, h1.errors⟩,
      h1.generation, h1.behind, h1.clock, h1.since⟩
  have hs := h2.shape slot
  have hc := h2.current slot
  refine h2.setEndpoint (by simp [Net.setBlock]) (by simp [Net.setBlock]) (Endpoint.Shape.publish ?_)
    (Endpoint.Current.publish ⟨hc.own, hc.child⟩)
  exact { hs with unstarted := nofun }

theorem connectStart_kept (slot : SlotId) (ip : UInt32) (port : UInt16) (routed expired : Bool) (isn : UInt32)
    (hn : now ≤ T) : Kept n₀ T (connectStart n slot ip port routed expired isn now).2 := by
  unfold connectStart
  split
  · exact h
  dsimp only
  split
  · rename_i b mtu hconn _
    split
    · exact h
    split
    · exact h
    split
    · exact h
    have hbound : ∃ r : Int × Net, (if (n.endpoints slot).port == 0 then netTcpBind n slot 0 else (0, n)) = r ∧
        Kept n₀ T r.2 ∧ (r.2.endpoints slot).block = (n.endpoints slot).block ∧
        (r.2.endpoints slot).generation = (n.endpoints slot).generation ∧ r.2.pool = n.pool := by
      split
      · exact ⟨_, rfl, netTcpBind_kept h slot 0, netTcpBind_same n slot 0⟩
      · exact ⟨_, rfl, h, rfl, rfl, rfl⟩
    obtain ⟨r, hr, hk, hblock, -, hpool⟩ := hbound
    rw [hr]
    split
    · exact hk
    split
    · exact hk
    split
    · exact hk
    rename_i c hinit
    obtain ⟨hgen, hpos, horphan, hnow, herr⟩ := tcpConnInit_some hinit
    obtain ⟨hb, hu, ho⟩ := h.connection_some hconn
    have hown := (hk.current slot).own b (hblock.trans hb)
    refine hk.connect ?_ ?_ ⟨hnow.trans_le hn, herr⟩
    · rw [horphan, hpool, ho]
    rcases hown with hg | hg
    · exact hgen.trans hg
    · exact absurd hg.1 hpos
  · exact h

end Calls

end Fortress.Tcp
