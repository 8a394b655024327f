/-
Who owns the blocks of the TCP pool: a block is opened for an endpoint or a
place of a queue, handed from a queue to the endpoint that accepts it, let go
as an orphan, and freed by the pool's tick.

A tick detaches at the layer's clock, and `tcp_conn_detach` does nothing when
that clock is behind the block's; the reference goes all the same. A run never
comes there: the timer goes forward and a tick reads it before it detaches
anything, with no call of the worker between.
-/
import Fortress.Tcp.Refs

namespace Fortress.Tcp

open Function

/-! ### A block is opened -/

variable {now : UInt64} {p : Pool}

theorem tcpPoolOpen_opened {tuple : Tuple} {isn : UInt32} {mtu : UInt16} {active : Bool}
    (h : ¬(tcpPoolOpen p tuple isn mtu active now).1 < 0) :
    ∃ b tw c, b < TCP_CB_MAX ∧ p.used b = false ∧ c.generation ≠ 0 ∧ c.orphan = false ∧ c.nowMs = now ∧ ErrorOk c ∧
      tcpPoolOpen p tuple isn mtu active now = ((b : Int), p.opened tuple b tw c) := by
  revert h
  unfold tcpPoolOpen
  split
  · exact fun h => absurd (by decide : TCP_NO_SPACE < 0) h
  split
  · rename_i b tw hb _
    split
    · exact fun h => absurd (by decide : TCP_NO_SPACE < 0) h
    split
    · exact fun h => absurd (by decide : TCP_INVALID < 0) h
    rename_i c hinit
    intro _
    obtain ⟨hgen, hpos, horphan, hnow, herr⟩ := tcpConnInit_some hinit
    have hlt := List.mem_range.1 (List.mem_of_find?_eq_some hb)
    have hfree := List.find?_some hb
    exact ⟨b, tw, c, hlt, by simpa using hfree, hgen ▸ hpos, horphan, hnow, herr, rfl⟩
  · exact fun h => absurd (by decide : TCP_NO_SPACE < 0) h

attribute [local simp] Endpoint.ref Endpoint.setPending Net.setBlock Net.setEndpoint Pool.opened

variable {e : Endpoint} {n n' : Net} {slot : SlotId}

theorem Net.ref_of_update (he : n'.endpoints = update n.endpoints slot e) (t : Ref) :
    n'.ref t = if t.slot = slot then e.ref t else n.ref t := by
  cases t with
  | endpoint s | pending s j => by_cases hs : s = slot <;> simp [Net.ref, Ref.slot, he, hs]

theorem NetInv.shape_of_update (h : NetInv n)
    (he : n'.endpoints = update n.endpoints slot e) (hs : e.Shape) (s : SlotId) : (n'.endpoints s).Shape := by
  rw [he, update_apply]
  split
  · exact hs
  · exact h.shape s

theorem NetInv.current_of_update (h : NetInv n)
    (he : n'.endpoints = update n.endpoints slot e) (hc : e.Current n'.pool)
    (hg : ∀ b, n.pool.inUse b → (n'.pool.blocks b).generation = (n.pool.blocks b).generation) (s : SlotId) :
    (n'.endpoints s).Current n'.pool := by
  rw [he, update_apply]
  split
  · exact hc
  · exact h.current_of (fun b hb _ => hg b hb) rfl rfl (h.current s)

variable {T : UInt64} {b : Nat} {s : Inbound}

/-- A fresh block for an empty reference of one endpoint. -/
theorem Kept.acquire (h : Kept n T n) {r : Ref} (hlt : b < TCP_CB_MAX)
    (hfree : n.pool.used b = false) (hused : n'.pool.used = update n.pool.used b true)
    (hblocks : ∀ x, x ≠ b → n'.pool.blocks x = n.pool.blocks x) (horphan : (n'.pool.blocks b).orphan = false)
    (hgen : (n'.pool.blocks b).generation ≠ 0) (he : n'.endpoints = update n.endpoints r.slot e)
    (hself : e.ref r = some b) (hother : ∀ t, t.slot = r.slot → t ≠ r → e.ref t = n.ref t) (hempty : n.ref r = none)
    (hshape : e.Shape) (hcur : e.Current n'.pool) (hn : (n'.pool.blocks b).Sane T) (hclock : n'.clockMs = n.clockMs) :
    Kept n T n' := by
  have hnot : ¬n.pool.inUse b := fun hb => Bool.noConfusion (hfree.symm.trans hb.2)
  have hne : ∀ x, n.pool.inUse x → x ≠ b := by
    rintro x hx rfl
    exact hnot hx
  have huse (x : Nat) : n'.pool.inUse x ↔ x = b ∨ n.pool.inUse x := by
    simp only [Pool.inUse, hused, update_apply]
    grind -linarith
  have hkeep (x : Nat) (hx : n.pool.inUse x) : (n'.pool.blocks x).generation = (n.pool.blocks x).generation := by
    rw [hblocks x (hne x hx)]
  have hsane (x : Nat) : (n'.pool.blocks x).Sane T := by grind -linarith [h.sane x]
  refine ⟨⟨?_, h.shape_of_update he hshape, h.current_of_update he hcur hkeep, ?_, fun x => (hsane x).error⟩,
    fun x hx _ => hkeep x hx, fun x => (hsane x).clock, hclock.trans_le h.clock, hclock ▸ UInt64.le_refl _⟩
  · refine h.custody.acquire hnot ?_ ?_ hempty huse (by simp [Pool.isOrphan, horphan]) ?_
    · rw [Net.ref_of_update he, if_pos rfl, hself]
    · grind -linarith [Net.ref_of_update he]
    · intro x hx
      unfold Pool.isOrphan
      rw [hblocks x (hne x hx)]
  · intro x hx
    grind -linarith [h.positive x]

theorem netTcpCreate_kept (h : Kept n T n) (slot : SlotId) : Kept n T (netTcpCreate n slot).2 := by
  unfold netTcpCreate
  split
  · exact h
  dsimp only
  split
  · exact h
  rename_i mtu _ hidle
  split
  · exact h
  rename_i hopen
  obtain ⟨b, tw, c, hlt, hfree, hgen, horphan, hnow, herr, hr⟩ := tcpPoolOpen_opened hopen
  simp only [Bool.or_eq_true, not_or, Bool.not_eq_true] at hidle
  have hnone := (h.shape slot).idle hidle.1 hidle.2
  have hempty := h.no_pending ((h.shape slot).empty hnone)
  rw [hr]
  refine h.acquire (r := .endpoint slot) hlt hfree rfl ?_ ?_ ?_ rfl ?_ ?_ hnone (Endpoint.Shape.publish ?_)
    (Endpoint.Current.publish ?_) ?_ rfl
  · intro x hx
    simp [hx]
  · simpa using horphan
  · simpa using hgen
  · simp
  · intro t hs ht
    cases t with
    | endpoint s => exact absurd (congrArg Ref.endpoint hs) ht
    | pending s j =>
      obtain rfl : s = slot := hs
      simp [Net.ref]
  · refine ⟨by simp, fun _ => rfl, by simp, fun _ => rfl, by simp, fun j x hx => ?_, Int.le_refl 0⟩
    exact absurd ((hempty j).symm.trans hx) (by simp)
  · refine ⟨fun x hx => .inl ?_, fun j x hx => ?_⟩
    · cases hx
      simp
    · exact absurd ((hempty j).symm.trans hx) (by simp)
  · have hs : Conn.Sane T { c with state := .closed } := ⟨hnow.trans_le h.clock, herr⟩
    simpa using hs

theorem admitSyn_kept (h : Kept n T n) (slot : SlotId) (tuple : Tuple) (hn : s.now ≤ T) :
    Kept n T (admitSyn n slot tuple s) := by
  unfold admitSyn
  dsimp only
  split
  · rename_i j mtu hj _
    split
    · exact h
    rename_i hopen
    obtain ⟨b, tw, c, hlt, hfree, hgen, horphan, hnow, herr, hr⟩ := tcpPoolOpen_opened hopen
    have hplace := List.find?_some hj
    simp only [Bool.and_eq_true, decide_eq_true_eq, Option.isNone_iff_eq_none] at hplace
    rw [hr]
    have hkeep : ∀ c' x, n.pool.inUse x →
        (update (update n.pool.blocks b c) b c' x).generation = (n.pool.blocks x).generation := by
      intro c' x hx
      have hxb : x ≠ b := by
        rintro rfl
        exact Bool.noConfusion (hfree.symm.trans hx.2)
      simp [hxb]
    refine h.acquire (r := .pending slot j) hlt hfree rfl ?_ ?_ ?_ rfl ?_ ?_ hplace.2
      ((h.shape slot).setPending fun _ => hplace.1).publish (Endpoint.Current.publish (Endpoint.Current.setPending ?_ ?_))
      ?_ rfl
    · intro x hx
      simp [hx]
    · simpa using horphan
    · simpa using hgen
    · simp
    · rintro t ht hne
      have hs : t.slot = slot := ht
      rw [Net.ref_eq, hs]
      exact (Endpoint.ref_publish _ t).trans (Endpoint.ref_setPending (hs ▸ hne))
    · exact h.current_of (fun b hb _ => hkeep _ b hb) rfl rfl (h.current slot)
    · intro x hx
      cases hx
      simp
    · simpa using
        Conn.Sane.input s.header s.data s.now ⟨hnow.trans_le hn, herr⟩ hn
  · exact h

/-! ### A block changes hands -/

theorem pendingConnection_some {child : Child} (h : pendingConnection p child = some b) :
    child.block = some b ∧ p.inUse b ∧ (p.blocks b).generation = child.generation := by
  obtain ⟨hb, hc⟩ := Option.filter_eq_some_iff.1 h
  simp only [Bool.and_eq_true, decide_eq_true_eq, beq_iff_eq] at hc
  exact ⟨hb, ⟨hc.1.1, hc.1.2⟩, hc.2⟩

variable {j : Fin NET_TCP_BACKLOG_MAX} {n₀ : Net} {generation : UInt64}

/-- A child goes from the queue of one endpoint to another endpoint. -/
theorem Kept.move (h : Kept n₀ T n) {listener target : SlotId} (hne : target ≠ listener)
    (hb : n.ref (.pending listener j) = some b) (hempty : n.ref (.endpoint target) = none) (hblock : e.block = some b)
    (hpending : e.pending = (n.endpoints target).pending) (hshape : e.Shape) (hcur : e.Current n.pool) :
    Kept n₀ T ((n.setEndpoint listener (publish ((n.endpoints listener).setPending j ⟨none, generation⟩))).setEndpoint
      target e) := by
  set e1 := (n.endpoints listener).setPending j ⟨none, generation⟩ with he1
  set n1 := n.setEndpoint listener (publish e1) with hn1
  have h1 : ∀ t, n1.ref t = if t.slot = listener then (publish e1).ref t else n.ref t := Net.ref_of_update rfl
  have h2 : ∀ t, (n1.setEndpoint target e).ref t = if t.slot = target then e.ref t else n1.ref t :=
    Net.ref_of_update rfl
  refine ⟨⟨h.custody.move hb hempty ?_ ?_ ?_ (fun _ => Iff.rfl) fun _ _ => Iff.rfl,
    ?_, ?_, h.positive, h.errors⟩, h.generation, h.behind, h.clock, h.since⟩
  · have hs : ¬(Ref.pending listener j).slot = target := Ne.symm hne
    rw [h2, if_neg hs, h1, if_pos (show (Ref.pending listener j).slot = listener from rfl), Endpoint.ref_publish, he1]
    simp
  · rw [h2, if_pos (show (Ref.endpoint target).slot = target from rfl)]
    exact hblock
  · intro t htr htt
    rw [h2, h1, Endpoint.ref_publish, Net.ref_eq]
    split
    · cases t <;> grind -linarith [Endpoint.ref, Ref.slot]
    · grind -linarith [Endpoint.ref_setPending]
  · intro s
    rw [Net.setEndpoint_at]
    split
    · exact hshape
    · exact h.shape_of_update rfl ((h.shape listener).setPending (absurd rfl)).publish s
  intro s
  rw [Net.setEndpoint_at]
  split
  · exact hcur
  have hc : (publish e1).Current n.pool := Endpoint.Current.publish ((h.current listener).setPending (by rintro _ ⟨⟩))
  have hk : ∀ s, (n1.endpoints s).Current n1.pool := h.current_of_update rfl hc fun _ _ => rfl
  exact hk s

theorem netTcpAcceptCommit_kept (h : Kept n₀ T n) (listener target : SlotId) (child : Child) :
    Kept n₀ T (netTcpAcceptCommit n listener target child).2 := by
  unfold netTcpAcceptCommit
  dsimp only
  split
  · rename_i j b hj hconn
    split
    · exact h
    rename_i hok
    simp only [Bool.or_eq_true, not_or, Bool.not_eq_true, Bool.not_eq_true', bne_iff_ne, ne_eq, not_not,
      Option.isSome_eq_false_iff, Option.isNone_iff_eq_none, Bool.not_eq_false] at hok
    obtain ⟨⟨⟨⟨⟨⟨hused, hlist⟩, herr⟩, htused⟩, htnone⟩, htgen⟩, -⟩ := hok
    have hplace := List.find?_some hj
    simp only [Bool.and_eq_true, decide_eq_true_eq, beq_iff_eq] at hplace
    obtain ⟨hblock, huse, hgen⟩ := pendingConnection_some hconn
    -- a listener has a block, so it is not the endpoint that takes one
    have hne : target ≠ listener := by
      rintro rfl
      have := (h.shape target).empty htnone
      omega
    have hempty := h.no_pending ((h.shape target).empty htnone)
    have hs := h.shape target
    refine h.move hne (hplace.1.2.trans hblock) htnone (publish_block _) (publish_pending _)
      (Endpoint.Shape.publish ⟨fun hu => ?_, hs.attached, nofun, nofun, hs.listening, hs.queued, hs.error⟩)
      (Endpoint.Current.publish ⟨fun x hx => .inl ?_, fun i x hx => ?_⟩)
    · exact absurd (hu.symm.trans htused) nofun
    · cases hx
      exact hgen.symm
    · exact absurd ((hempty i).symm.trans hx) nofun
  · exact h

/-! ### A reference lets its block go -/

/-- An endpoint gives up a reference, and its block is an orphan from then on. -/
theorem Kept.drop (h : Kept n₀ T n) {r : Ref} {c : Conn}
    (hb : n.ref r = some b) (ho : c.orphan = true) (hg : c.generation = (n.pool.blocks b).generation)
    (hself : e.ref r = none) (hother : ∀ t, t.slot = r.slot → t ≠ r → e.ref t = n.ref t) (hshape : e.Shape)
    (hcur : e.Current n.pool) (hn : c.Sane T) : Kept n₀ T ((n.setBlock b c).setEndpoint r.slot e) := by
  have hkeep : ∀ x, (((n.setBlock b c).setEndpoint r.slot e).pool.blocks x).generation =
      (n.pool.blocks x).generation := by
    intro x
    simp only [Net.setEndpoint, Net.setBlock, update_apply]
    grind -linarith
  have hend : ((n.setBlock b c).setEndpoint r.slot e).endpoints = update n.endpoints r.slot e := rfl
  refine ⟨⟨?_, h.shape_of_update hend hshape, ?_, ?_, fun x => (h.setBlock_sane b hn x).error⟩, ?_,
    fun x => (h.setBlock_sane b hn x).clock, h.clock, h.since⟩
  · refine h.custody.drop hb ?_ ?_ (fun _ => Iff.rfl) ?_ ?_
    · rw [Net.ref_of_update hend, if_pos rfl]
      exact hself
    · grind -linarith [Net.ref_of_update hend]
    · simpa [Pool.isOrphan] using ho
    · intro x hx _
      simp [Pool.isOrphan, hx]
  · exact h.current_of_update hend ⟨fun x hx => (hkeep x).symm ▸ hcur.own x hx, fun j x hx =>
      (hkeep x).symm ▸ hcur.child j x hx⟩ fun x _ => hkeep x
  · intro x hx
    rw [hkeep x]
    exact h.positive x hx
  · intro x hx0 hx
    rw [hkeep x]
    exact h.generation x hx0 hx

theorem Kept.dropChild (h : Kept n₀ T n) {c : Conn} (hb : n.ref (.pending slot j) = some b) (ho : c.orphan = true)
    (hg : c.generation = (n.pool.blocks b).generation) (hn : c.Sane T) :
    Kept n₀ T ((n.setBlock b c).setEndpoint slot ((n.endpoints slot).setPending j ⟨none, generation⟩)) := by
  refine h.drop hb ho hg ?_ ?_ ((h.shape slot).setPending (absurd rfl))
    ((h.current slot).setPending (by rintro _ ⟨⟩)) hn
  · simp
  intro t ht hne
  have hs : t.slot = slot := ht
  rw [Net.ref_eq, hs]
  exact Endpoint.ref_setPending (hs ▸ hne)

theorem Endpoint.setPending_none (hb : (e.pending j).block = none) :
    e.setPending j ⟨none, (e.pending j).generation⟩ = e := by
  have he : (⟨none, (e.pending j).generation⟩ : Child) = e.pending j := by rw [← hb]
  rw [he, Endpoint.setPending, update_eq_self]

theorem Net.setEndpoint_self (n : Net) (slot : SlotId) : n.setEndpoint slot (n.endpoints slot) = n := by
  rw [Net.setEndpoint, update_eq_self]

/-- The queue holds live children only. -/
theorem NetInv.pendingConnection_eq (h : NetInv n) (slot : SlotId) (j : Fin NET_TCP_BACKLOG_MAX) :
    pendingConnection n.pool ((n.endpoints slot).pending j) = ((n.endpoints slot).pending j).block := by
  cases hb : ((n.endpoints slot).pending j).block with
  | none => simp [pendingConnection, hb]
  | some b =>
    obtain ⟨hu, -⟩ := h.custody.live (.pending slot j) b hb
    have hg := (h.current slot).child j b hb
    simp [pendingConnection, hb, hu.1, hu.2, hg]

theorem NetInv.connection_eq (h : NetInv n) (slot : SlotId) :
    connection n.pool (n.endpoints slot) = (n.endpoints slot).block := by
  cases hb : (n.endpoints slot).block with
  | none => simp [connection, hb]
  | some b =>
    obtain ⟨hu, -⟩ := h.custody.live (.endpoint slot) b hb
    simp [connection, hb, hu.2]

/-! ## The tick -/

theorem Kept.publish (h : Kept n₀ T n) (slot : SlotId) :
    Kept n₀ T (n.setEndpoint slot (publish (n.endpoints slot))) :=
  h.setEndpoint (by simp) (by simp) (h.shape slot).publish (h.current slot).publish

theorem Net.setEndpoint_same (n : Net) (slot : SlotId) (e : Endpoint) : (n.setEndpoint slot e).endpoints slot = e := by
  rw [Net.setEndpoint_at, if_pos rfl]

/-- The children of a listener are ticked, the closed ones orphaned. -/
theorem tickPending_kept (h : Kept n₀ T n) (slot : SlotId) (mask : UInt64)
    (js : List (Fin NET_TCP_BACKLOG_MAX)) : Kept n₀ T (tickPending n slot mask js).1 := by
  induction js generalizing n mask with
  | nil => exact h
  | cons j js ih =>
    unfold tickPending
    dsimp only
    have hconn := h.pendingConnection_eq slot j
    split
    · rename_i hnone
      have he := Endpoint.setPending_none (hconn.symm.trans hnone)
      rw [Endpoint.setPending] at he
      rw [he, Net.setEndpoint_self]
      exact ih h mask
    rename_i b hb
    split
    · refine ih ?_ mask
      have hd : Kept n₀ T ((n.setBlock b { tcpConnTick (n.pool.blocks b) n.clockMs with orphan := true }).setEndpoint
          slot ((n.endpoints slot).setPending j ⟨none, ((n.endpoints slot).pending j).generation⟩)) :=
        h.dropChild (hconn.symm.trans hb) rfl (tcpConnTick_generation _ _)
          ⟨((h.sane b).tick _ h.clock).clock, ((h.sane b).tick _ h.clock).error⟩
      have hp := hd.publish slot
      rwa [Net.setEndpoint_same, Net.setEndpoint, Net.setEndpoint, update_idem] at hp
    · exact ih (h.setBlock (tcpConnTick_orphan _ _) (tcpConnTick_generation _ _) ((h.sane b).tick _ h.clock)) _

theorem tickLive_kept (h : Kept n₀ T n) (slot : SlotId) (b : Nat) (online : Bool) :
    Kept n₀ T (tickLive n slot b online) := by
  unfold tickLive
  dsimp only
  have h1 := tickPending_kept h slot 0 (queue (n.endpoints slot))
  generalize tickPending n slot 0 (queue (n.endpoints slot)) = r at h1 ⊢
  have h2 := h1.setBlock (tcpConnTick_orphan _ r.1.clockMs) (tcpConnTick_generation _ _)
    ((h1.sane b).tick _ h1.clock)
  generalize r.1.setBlock b (tcpConnTick (r.1.pool.blocks b) r.1.clockMs) = m at h2 ⊢
  have hs := h2.shape slot
  have hc := h2.current slot
  -- the latched error leaves the endpoint's references and generations alone
  have hlatch : ∃ e, (if (!online && (m.endpoints slot).error == 0) = true then
      { m.endpoints slot with error := SYSCALL_EIO } else m.endpoints slot) = e ∧ e.block = (m.endpoints slot).block ∧
      e.pending = (m.endpoints slot).pending ∧ e.Shape ∧ e.Current m.pool := by
    split
    · refine ⟨_, rfl, rfl, rfl, { hs with error := show SYSCALL_EIO ≤ 0 by decide }, ?_, hc.child⟩
      intro x hx
      exact (hc.own x hx).imp_right fun hg => ⟨hg.1, fun _ => show SYSCALL_EIO ≠ 0 by decide⟩
    · exact ⟨_, rfl, rfl, rfl, hs, hc⟩
  obtain ⟨e, he, hblock, hpending, hs, hc⟩ := hlatch
  rw [he]
  split
  · refine h2.setEndpoint ((publish_block _).trans hblock) ((publish_pending _).trans hpending)
      (Endpoint.Shape.publish ?_) (Endpoint.Current.publish ⟨hc.own, hc.child⟩)
    exact { hs with }
  · exact h2.setEndpoint hblock hpending hs hc

/-! ### Detaching -/

/-- No reference of the endpoint is to a block ahead of the layer's clock. -/
def Net.Due (n : Net) (slot : SlotId) : Prop :=
  ∀ r b, r.slot = slot → n.ref r = some b → (n.pool.blocks b).nowMs ≤ n.clockMs

/-- What emptying places `js` of a queue does, whatever the clocks say. -/
structure Dropped (n n' : Net) (slot : SlotId) (js : List (Fin NET_TCP_BACKLOG_MAX)) : Prop where
  other : ∀ s, s ≠ slot → n'.endpoints s = n.endpoints s
  block : (n'.endpoints slot).block = (n.endpoints slot).block
  cleared : ∀ j ∈ js, ((n'.endpoints slot).pending j).block = none
  absent : ∀ j, ((n.endpoints slot).pending j).block = none → ((n'.endpoints slot).pending j).block = none
  used : n'.pool.used = n.pool.used
  clock : n'.clockMs = n.clockMs
  future : ∀ b, n.clockMs < (n.pool.blocks b).nowMs → n'.pool.blocks b = n.pool.blocks b

/-- Place `j` is emptied, perhaps with a detach, and then the others. -/
theorem Dropped.cons {m : Net} {js : List (Fin NET_TCP_BACKLOG_MAX)}
    (hend : m.endpoints = n.endpoints) (hused : m.pool.used = n.pool.used) (hclock : m.clockMs = n.clockMs)
    (hfuture : ∀ x, n.clockMs < (n.pool.blocks x).nowMs → m.pool.blocks x = n.pool.blocks x)
    (hd : Dropped (m.setEndpoint slot ((n.endpoints slot).setPending j ⟨none, generation⟩)) n' slot js) :
    Dropped n n' slot (j :: js) := by
  obtain ⟨hother, hblock, hcleared, habsent, hused', hclock', hfuture'⟩ := hd
  simp only [Net.setEndpoint, Endpoint.setPending, update_apply] at *
  constructor <;> grind -linarith

theorem dropPending_dropped (n : Net) (slot : SlotId) (js : List (Fin NET_TCP_BACKLOG_MAX)) :
    Dropped n (dropPending n slot js) slot js := by
  induction js generalizing n with
  | nil => exact ⟨fun _ _ => rfl, rfl, nofun, fun _ => id, rfl, rfl, fun _ _ => rfl⟩
  | cons j js ih =>
    unfold dropPending
    dsimp only
    split
    · rename_i b _
      refine .cons (m := n.setBlock b _) rfl rfl rfl (fun x hx => ?_) (ih _)
      by_cases hxb : x = b
      · simp [hxb ▸ hx, tcpConnDetach, hxb]
      · simp [hxb]
    · exact .cons rfl rfl rfl (fun _ _ => rfl) (ih _)

/-- After the queue is emptied no place of it has a child. -/
theorem NetInv.queue_empty (h : NetInv n)
    (hd : Dropped n n' slot (queue (n.endpoints slot))) (j : Fin NET_TCP_BACKLOG_MAX) :
    ((n'.endpoints slot).pending j).block = none := by
  by_cases hj : j.val < (n.endpoints slot).backlog
  · exact hd.cleared j (by simp [queue, hj])
  refine hd.absent j ?_
  cases hb : ((n.endpoints slot).pending j).block with
  | none => rfl
  | some b => exact absurd ((h.shape slot).queued j b hb) hj

theorem dropPending_kept (h : Kept n₀ T n) (hd : n.Due slot)
    (js : List (Fin NET_TCP_BACKLOG_MAX)) : Kept n₀ T (dropPending n slot js) ∧ (dropPending n slot js).Due slot := by
  induction js generalizing n with
  | nil => exact ⟨h, hd⟩
  | cons j js ih =>
    unfold dropPending
    dsimp only
    have hconn := h.pendingConnection_eq slot j
    split
    · rename_i b hb
      have href : n.ref (.pending slot j) = some b := hconn.symm.trans hb
      have horphan : (tcpConnDetach (n.pool.blocks b) n.clockMs).orphan = true := by
        rw [tcpConnDetach_orphan, if_pos (hd _ b rfl href)]
      refine ih (h.dropChild href horphan (tcpConnDetach_generation _ _) ((h.sane b).detach _ h.clock)) ?_
      -- what the endpoint still refers to are other blocks
      intro r x hr hx
      rw [Net.ref_of_update rfl, if_pos hr] at hx
      have hne : r ≠ .pending slot j := by
        rintro rfl
        simp at hx
      have hold : n.ref r = some x := by
        rw [Net.ref_eq, hr]
        exact (Endpoint.ref_setPending (hr.symm ▸ hne)).symm.trans hx
      have hxb : x ≠ b := by
        rintro rfl
        exact hne (h.custody.unique r _ x hold href)
      have hdue := hd r x hr hold
      simpa [hxb] using hdue
    rename_i hnone
    have he := Endpoint.setPending_none (hconn.symm.trans hnone)
    rw [Endpoint.setPending] at he
    rw [he, Net.setEndpoint_self]
    exact ih h hd

theorem tickDetach_kept (h : Kept n₀ T n) (hd : n.Due slot) : Kept n₀ T (tickDetach n slot) := by
  unfold tickDetach
  dsimp only
  obtain ⟨hk, hdue⟩ := dropPending_kept h hd (queue (n.endpoints slot))
  have hdrop := dropPending_dropped n slot (queue (n.endpoints slot))
  have hempty := h.queue_empty hdrop
  rw [h.connection_eq slot, ← hdrop.block]
  generalize dropPending n slot (queue (n.endpoints slot)) = m at hk hdue hempty
  have hshape : (publish { m.endpoints slot with
      listening := false, backlog := 0, block := none, detach := false, cancel := false }).Shape := by
    refine Endpoint.Shape.publish ⟨fun _ _ => rfl, fun _ => rfl, fun _ => rfl, fun _ => rfl, nofun, fun j x hx => ?_,
      (hk.shape slot).error⟩
    exact absurd ((hempty j).symm.trans hx) nofun
  have hcur : (publish { m.endpoints slot with
      listening := false, backlog := 0, block := none, detach := false, cancel := false }).Current m.pool :=
    Endpoint.Current.publish ⟨nofun, (hk.current slot).child⟩
  split
  · rename_i b hb
    have horphan : (tcpConnDetach (m.pool.blocks b) m.clockMs).orphan = true := by
      rw [tcpConnDetach_orphan, if_pos (hdue (.endpoint slot) b rfl hb)]
    refine hk.drop (r := .endpoint slot) hb horphan (tcpConnDetach_generation _ _) (publish_block _) ?_ hshape hcur
      ((hk.sane b).detach _ hk.clock)
    intro t hs ht
    cases t with
    | endpoint s => exact absurd (congrArg Ref.endpoint hs) ht
    | pending s j =>
      obtain rfl : s = slot := hs
      simp [Net.ref]
  · rename_i hb
    exact hk.setEndpoint ((publish_block _).trans hb.symm) (publish_pending _) hshape hcur

theorem turn_kept (h : Kept n₀ T n) (online : Bool)
    (hd : ((n.endpoints slot).detach || (n.endpoints slot).cancel) = true → n.Due slot) :
    Kept n₀ T (turn n slot online) := by
  unfold turn
  dsimp only
  split
  · rename_i hdet
    exact tickDetach_kept h (hd hdet)
  split
  · split
    · exact tickLive_kept h slot _ online
    · exact h
  · exact h

/-- What follows a turn moves no reference. -/
theorem tickSlot_eq (n : Net) (slot : SlotId) (online backwards : Bool) (ticks : UInt64) :
    ∃ failed e, tickSlot n slot online backwards ticks =
        (turn { n with deadlineClockFailed := failed } slot online).setEndpoint slot { e with wake := false } ∧
      (e = (turn { n with deadlineClockFailed := failed } slot online).endpoints slot ∨
        e = publish { (turn { n with deadlineClockFailed := failed } slot online).endpoints slot with
          wakeDeadlineSet := false }) := by
  refine ⟨n.deadlineClockFailed || (backwards && (n.endpoints slot).wakeDeadlineSet), _, rfl, ?_⟩
  split
  · exact .inr rfl
  · exact .inl rfl

theorem tickSlot_kept (h : Kept n₀ T n) (online backwards : Bool) (ticks : UInt64)
    (hd : ((n.endpoints slot).detach || (n.endpoints slot).cancel) = true → n.Due slot) :
    Kept n₀ T (tickSlot n slot online backwards ticks) := by
  obtain ⟨failed, e, heq, he⟩ := tickSlot_eq n slot online backwards ticks
  have h0 : Kept n₀ T { n with deadlineClockFailed := failed } :=
    ⟨{ h with }, h.generation, h.behind, h.clock, h.since⟩
  have hk : Kept n₀ T (turn { n with deadlineClockFailed := failed } slot online) := turn_kept h0 online hd
  rw [heq]
  generalize turn { n with deadlineClockFailed := failed } slot online = m at hk he
  have hs := hk.shape slot
  have hc := hk.current slot
  have hsame : e.block = (m.endpoints slot).block ∧ e.pending = (m.endpoints slot).pending ∧ e.Shape ∧
      e.Current m.pool := by
    rcases he with rfl | rfl
    · exact ⟨rfl, rfl, hs, hc⟩
    refine ⟨publish_block _, publish_pending _, Endpoint.Shape.publish ?_, Endpoint.Current.publish ⟨hc.own, hc.child⟩⟩
    exact { hs with }
  obtain ⟨hblock, hpending, hs, hc⟩ := hsame
  exact hk.setEndpoint hblock hpending { hs with }
    ⟨hc.own, hc.child⟩

/-! ### The end of a tick -/

/-- The pool's tick frees orphans and leaves the rest as it was, seen by owners. -/
structure Reclaims (now : UInt64) (p p' : Pool) : Prop where
  used : ∀ b, p'.used b = true → p.used b = true ∧ (p'.blocks b).generation = (p.blocks b).generation ∧
    (p'.blocks b).orphan = (p.blocks b).orphan
  freed : ∀ b, p.used b = true → p'.used b = false → (p.blocks b).orphan = true
  sane : ∀ T, now ≤ T → (∀ b, (p.blocks b).Sane T) → ∀ b, (p'.blocks b).Sane T

theorem Reclaims.of_eq {p' : Pool} (hu : p'.used = p.used) (hb : p'.blocks = p.blocks) : Reclaims now p p' := by
  constructor <;> simp +contextual [hu, hb]

theorem Reclaims.trans {q r : Pool} (h : Reclaims now p q) (h' : Reclaims now q r) : Reclaims now p r := by
  refine ⟨fun b hb => ?_, fun b hb hr => ?_, fun T hn hp => h'.sane T hn (h.sane T hn hp)⟩
  · grind -linarith [h'.used b, h.used b]
  · grind -linarith [h.freed b, h.used b, h'.freed b]

theorem Reclaims.tick (now : UInt64) (p : Pool) (i : Nat) :
    Reclaims now p { p with blocks := update p.blocks i (tcpConnTick (p.blocks i) now) } := by
  refine ⟨fun b hb => ⟨hb, ?_⟩, fun b hb hr => absurd (hb.symm.trans hr) nofun, fun T hn hp b => ?_⟩ <;>
    by_cases hbi : b = i
  · simp [hbi]
  · simp [hbi]
  · simpa [hbi] using (hp i).tick now hn
  · simpa [hbi] using hp b

theorem Reclaims.free (now : UInt64) {i : Nat} (ho : (p.blocks i).orphan = true) (tw : Nat → Timewait) :
    Reclaims now p { p with
      timewait := tw
      blocks := update (update p.blocks i (tcpConnTick (p.blocks i) now)) i ({} : Conn)
      used := update p.used i false } := by
  refine ⟨fun b hb => ?_, fun b hb hr => ?_, fun T hn hp b => ?_⟩ <;> by_cases hbi : b = i
  · simp [hbi] at hb
  · simpa [hbi] using hb
  · exact hbi ▸ ho
  · simp [hbi, hb] at hr
  · have hs : Conn.Sane T ({} : Conn) := ⟨UInt64.le_iff_toNat_le.2 (Nat.zero_le _), Int.le_refl 0⟩
    simpa [hbi] using hs
  · simpa [hbi] using hp b

theorem poolTickBlock_reclaims (now : UInt64) (p : Pool) (i : Nat) : Reclaims now p (poolTickBlock now p i) := by
  unfold poolTickBlock
  split
  · exact .of_eq rfl rfl
  dsimp only
  split
  · exact .tick now p i
  rename_i hbusy
  have horphan : (p.blocks i).orphan = true := by
    simp only [Bool.or_eq_true, not_or, Bool.not_eq_true, Bool.not_eq_false', tcpConnTick_orphan] at hbusy
    exact hbusy.1.1.1
  split
  · exact .free now horphan _
  · exact .free now horphan _
  · exact .tick now p i

theorem tcpPoolTick_reclaims (p : Pool) (now : UInt64) : Reclaims now p (tcpPoolTick p now) := by
  have hexpire : Reclaims now p (expireTimewait p now) := .of_eq rfl rfl
  exact List.foldlRecOn _ _ hexpire fun q h i _ => h.trans (poolTickBlock_reclaims now q i)

theorem tickEnd_kept (h : Kept n₀ T n) : Kept n₀ T (tickEnd n) := by
  have hr := tcpPoolTick_reclaims n.pool n.clockMs
  have huse : ∀ b, (tcpPoolTick n.pool n.clockMs).inUse b → n.pool.inUse b := fun b hb => ⟨hb.1, (hr.used b hb.2).1⟩
  have hfreed (b : Nat) (hb : n.pool.inUse b) (hn : ¬(tcpPoolTick n.pool n.clockMs).inUse b) : n.pool.isOrphan b :=
    hr.freed b hb.2 (by grind -linarith [Pool.inUse])
  have hsane := hr.sane T h.clock h.sane
  refine ⟨⟨?_, h.shape, fun s => h.current_of ?_ rfl rfl (h.current s), ?_, fun b => (hsane b).error⟩, ?_,
    fun b => (hsane b).clock, h.clock, h.since⟩
  · refine h.custody.reclaim (fun _ => rfl) huse hfreed ?_
    intro b hb
    exact iff_of_eq (congrArg (· = true) (hr.used b hb.2).2.2)
  · intro b hb ho
    have hb' : (tcpPoolTick n.pool n.clockMs).inUse b := Classical.byContradiction fun hn => ho (hfreed b hb hn)
    exact (hr.used b hb'.2).2.1
  · intro b hb
    show ((tcpPoolTick n.pool n.clockMs).blocks b).generation ≠ 0
    rw [(hr.used b hb.2).2.1]
    exact h.positive b (huse b hb)
  intro b hb0 hb
  show ((tcpPoolTick n.pool n.clockMs).blocks b).generation = _
  rw [(hr.used b hb.2).2.1]
  exact h.generation b hb0 (huse b hb)

/-! ## Calls -/

theorem netTcpInput_kept (h : Kept n T n) (hn : s.now ≤ T) : Kept n T (netTcpInput n s) := by
  unfold netTcpInput
  dsimp only
  split
  · exact h.setBlock (tcpConnInput_orphan _ _ _ _) (tcpConnInput_generation _ _ _ _) ((h.sane _).input _ _ _ hn)
  split
  · have htw : (tcpPoolTimewaitInput n.pool ⟨n.localIp, s.source, s.header.destination,
        s.header.source⟩ s.header s.data.length s.now).2.used = n.pool.used ∧
        (tcpPoolTimewaitInput n.pool ⟨n.localIp, s.source, s.header.destination,
        s.header.source⟩ s.header s.data.length s.now).2.blocks = n.pool.blocks := by
      unfold tcpPoolTimewaitInput
      dsimp only
      split
      · exact ⟨rfl, rfl⟩
      split
      · exact ⟨rfl, rfl⟩
      · split <;> exact ⟨rfl, rfl⟩
    refine h.same ⟨htw.1, fun b _ => ?_, fun b _ => ?_⟩ (fun _ => rfl) (fun _ => rfl) h.shape h.current (fun b => ?_) rfl
    · rw [htw.2]
    · rw [htw.2]
    show (_ : Conn).Sane T
    rw [htw.2]
    exact h.sane b
  split
  · split
    · exact admitSyn_kept h _ _ hn
    · exact h
  · exact h

/-- A tick that lets go of an endpoint is not behind its blocks. -/
def Net.Clear (n : Net) : Call → Prop
  | .tickSlot slot _ _ _ => ((n.endpoints slot).detach || (n.endpoints slot).cancel) = true → n.Due slot
  | _ => True

/-- The clock that is read in a call is not past `T`. -/
def Call.Within (T : UInt64) : Call → Prop
  | .connect _ _ _ _ _ _ now => now ≤ T
  | .input s => s.now ≤ T
  | .tickBegin now _ => now ≤ T
  | _ => True

theorem Net.step_kept (h : Kept n T n) {call : Call} (hc : n.Clear call)
    (hn : call.Within T) : Kept n T (n.step call) := by
  cases call with
  | create slot => exact netTcpCreate_kept h slot
  | stage slot => exact netTcpStage_kept h slot
  | unstage slot => exact netTcpUnstage_kept h slot
  | bind slot port => exact netTcpBind_kept h slot port
  | listen slot backlog => exact netTcpListen_kept h slot backlog
  | connect slot ip port routed expired isn now => exact connectStart_kept h slot ip port routed expired isn hn
  | cancelConnect slot generation => exact netTcpCancelConnect_kept h slot generation
  | acceptOffer slot excluded => exact h
  | acceptCommit listener target child => exact netTcpAcceptCommit_kept h listener target child
  | close slot => exact netTcpClose_kept h slot
  | send slot data => exact netTcpSend_kept h slot data
  | consume slot len => exact netTcpConsume_kept h slot len
  | shutdown slot => exact netTcpShutdown_kept h slot
  | input s => exact netTcpInput_kept h hn
  | tickBegin now fresh => exact tickBegin_kept h fresh hn
  | tickSlot slot online backwards ticks => exact tickSlot_kept h online backwards ticks hc
  | sweepBlock b online sent => exact sweepBlock_kept h b online sent
  | tickEnd => exact tickEnd_kept h

/-! ## Runs -/

/-- A section of a tick after its first. -/
def Call.isSection : Call → Bool
  | .tickSlot _ _ _ _ | .sweepBlock _ _ _ | .tickEnd => true
  | _ => false

/-- Clocks are behind the timer, and during a tick behind the layer's clock, which the tick has just set. -/
structure Worker.Inv (w : Worker) : Prop where
  net : NetInv w.net
  clock : w.net.clockMs ≤ w.nowMs
  behind : ∀ b, (w.net.pool.blocks b).nowMs ≤ w.nowMs
  ticking : w.todo ≠ [] → ∀ b, (w.net.pool.blocks b).nowMs ≤ w.net.clockMs
  sections : ∀ c ∈ w.todo, c.isSection = true

theorem netTcpTick_eq (n : Net) (now ticks : UInt64) (online : Bool) (sent : Nat → Bool) :
    ∃ cs, netTcpTick n now ticks online sent = .tickBegin now ticks :: cs ∧ ∀ c ∈ cs, c.isSection = true := by
  refine ⟨_, rfl, fun c hc => ?_⟩
  simp only [List.append_eq, List.mem_append, List.mem_map, List.mem_singleton] at hc
  rcases hc with (⟨_, _, rfl⟩ | ⟨_, _, rfl⟩) | rfl <;> rfl

variable {c : Call}

theorem Call.stamped_within {c' : Call} (h : c.stamped now = some c') : c'.Within now ∧ ∀ n : Net, n.Clear c' := by
  cases c <;> simp only [Call.stamped, reduceCtorEq, Option.some.injEq] at h <;> subst h <;>
    exact ⟨by first | exact UInt64.le_refl _ | trivial, fun _ => trivial⟩

theorem Kept.keepsBlocks (h : NetInv n) (hk : Kept n T n') : KeepsBlocks n n' :=
  fun r b hb hb' => hk.generation b (h.custody.live r b hb).1 (hk.custody.live r b hb').1

theorem KeepsBlocks.refl (n : Net) : KeepsBlocks n n := fun _ _ _ _ => rfl

variable {w : Worker}

theorem Worker.Inv.idle (h : w.Inv) (hc : w.net.Clear c) (hn : c.Within w.nowMs) :
    Kept w.net w.nowMs (w.net.step c) :=
  Net.step_kept ⟨h.net, fun _ _ _ => rfl, h.behind, h.clock, UInt64.le_refl _⟩ hc hn

/-- A section of a tick, or a close in the midst of one. -/
theorem Worker.Inv.busy (h : w.Inv) (ht : w.todo ≠ []) (hc : w.net.Clear c)
    (hn : c.Within w.net.clockMs) : Kept w.net w.net.clockMs (w.net.step c) :=
  Net.step_kept ⟨h.net, fun _ _ _ => rfl, h.ticking ht, UInt64.le_refl _, UInt64.le_refl _⟩ hc hn

theorem Worker.Inv.of_busy (h : w.Inv) {todo : List Call} (hk : Kept w.net w.net.clockMs n)
    (hs : ∀ c ∈ todo, c.isSection = true) : Worker.Inv { w with net := n, todo } :=
  ⟨hk.toNetInv, UInt64.le_trans hk.clock h.clock, fun b => UInt64.le_trans (hk.behind b) h.clock,
    fun _ b => UInt64.le_trans (hk.behind b) hk.since, hs⟩

theorem Worker.step_inv (h : w.Inv) (e : Event) : (w.step e).Inv ∧ KeepsBlocks w.net (w.step e).net := by
  cases e with
  | timer ms =>
    unfold Worker.step
    dsimp only
    split
    · rename_i hle
      exact ⟨⟨h.net, UInt64.le_trans h.clock hle, fun b => UInt64.le_trans (h.behind b) hle, h.ticking, h.sections⟩,
        .refl _⟩
    · exact ⟨h, .refl _⟩
  | close slot =>
    by_cases ht : w.todo = []
    · have hk := h.idle (c := .close slot) trivial trivial
      exact ⟨⟨hk.toNetInv, hk.clock, hk.behind, fun hn => absurd ht hn, h.sections⟩, hk.keepsBlocks h.net⟩
    · have hk := h.busy ht (c := .close slot) trivial trivial
      exact ⟨h.of_busy hk h.sections, hk.keepsBlocks h.net⟩
  | request c =>
    unfold Worker.step
    dsimp only
    split
    · rename_i c' ht hc'
      obtain ⟨hn, hc⟩ := Call.stamped_within hc'
      have hk := h.idle (hc w.net) hn
      exact ⟨⟨hk.toNetInv, hk.clock, hk.behind, fun hn => absurd ht hn, h.sections⟩, hk.keepsBlocks h.net⟩
    · exact ⟨h, .refl _⟩
  | tick ticks online sent =>
    unfold Worker.step
    dsimp only
    obtain ⟨cs, hcs, hsec⟩ := netTcpTick_eq w.net w.nowMs ticks online sent
    rw [hcs]
    split
    · rename_i c cs' ht hc
      obtain ⟨rfl, rfl⟩ := List.cons.inj hc
      have hk := h.idle (c := .tickBegin w.nowMs ticks) trivial (UInt64.le_refl _)
      -- the tick's clock is the timer's
      have hclock : w.nowMs ≤ (w.net.step (.tickBegin w.nowMs ticks)).clockMs := by
        show w.nowMs ≤ if w.nowMs > w.net.clockMs then w.nowMs else w.net.clockMs
        split
        · exact UInt64.le_refl _
        rename_i hle
        exact UInt64.not_lt.1 hle
      exact ⟨⟨hk.toNetInv, hk.clock, hk.behind, fun _ b => UInt64.le_trans (hk.behind b) hclock, hsec⟩,
        hk.keepsBlocks h.net⟩
    · exact ⟨h, .refl _⟩
  | resume =>
    unfold Worker.step
    dsimp only
    split
    · exact ⟨h, .refl _⟩
    rename_i c cs ht
    have hne : w.todo ≠ [] := by simp [ht]
    have hsec : c.isSection = true := h.sections c (by simp [ht])
    have hclear : w.net.Clear c := by
      cases c with
      | tickSlot slot online backwards ticks => exact fun _ r b _ _ => h.ticking hne b
      | _ => trivial
    have hk := h.busy hne hclear (by cases c <;> trivial)
    exact ⟨h.of_busy hk fun c hc => h.sections c (by simp [ht, hc]), hk.keepsBlocks h.net⟩

theorem Worker.start_inv (mtu : UInt16) (localIp : UInt32) (nowMs ticks : UInt64) :
    (Worker.start mtu localIp nowMs ticks).Inv := by
  refine ⟨⟨⟨?_, ?_, ?_⟩, ?_, ?_, ?_, fun _ => Int.le_refl 0⟩, UInt64.le_refl _, ?_, nofun, nofun⟩
  · rintro (slot | ⟨slot, j⟩) b hb <;> cases hb
  · rintro (slot | ⟨slot, j⟩) t b hb <;> cases hb
  · rintro b ⟨-, hu⟩
    cases hu
  · exact fun _ => ⟨fun _ _ => rfl, nofun, fun _ => rfl, fun _ => rfl, nofun, nofun, Int.le_refl 0⟩
  · exact fun _ => ⟨nofun, nofun⟩
  · rintro b ⟨-, hu⟩
    cases hu
  · exact fun b => UInt64.le_iff_toNat_le.2 (Nat.zero_le _)

theorem Worker.run_inv (h : w.Inv) (events : List Event) : (w.run events).Inv := by
  induction events generalizing w with
  | nil => exact h
  | cons e events ih => exact ih (Worker.step_inv h e).1

/-- **At every moment of every run, each used block has one owner or is an orphan, no reference is stale, and the
next event reopens no block that is still referred to.** -/
theorem blocks_owned (mtu : UInt16) (localIp : UInt32) (nowMs ticks : UInt64) (events : List Event) (e : Event) :
    Owned ((Worker.start mtu localIp nowMs ticks).run events).net ∧
      KeepsBlocks ((Worker.start mtu localIp nowMs ticks).run events).net
        (((Worker.start mtu localIp nowMs ticks).run events).step e).net := by
  have h := Worker.run_inv (Worker.start_inv mtu localIp nowMs ticks) events
  exact ⟨h.net.owned, (Worker.step_inv h e).2⟩

/-- Between a close and the tick that detaches it, a block is neither an orphan nor with an open endpoint. -/
theorem closed_endpoint_refers :
    ∃ events b, (fun n : Net => n.pool.inUse b ∧ ¬n.pool.isOrphan b ∧
      (∀ slot, (n.endpoints slot).used = true → n.ref (.endpoint slot) ≠ some b) ∧
      ∀ slot j, n.ref (.pending slot j) ≠ some b) ((Worker.start 1500 0x0a000002 0 0).run events).net := by
  refine ⟨[.request (.create 0), .close 0], 0, ⟨by decide, by decide⟩, ?_, ?_, ?_⟩
  · show ¬(_ : Bool) = true
    decide
  · simp only [Net.ref]
    decide
  · simp only [Net.ref]
    decide

end Fortress.Tcp
