/-
What the handlers of `net/tcp_tcb.c` leave alone of a block: its generation
always, its owner's mark unless they detach it, and its clock unless they are
given a later time.
-/
import Fortress.Tcp.Actions
import Fortress.Tcp.Pool

namespace Fortress.Tcp

section Generation

variable (c : Conn) (h : Header) (data : List UInt8) (now : UInt64)

@[simp] theorem inputState_generation : (inputState c h data now).generation = c.generation :=
  congrArg Ident.generation (inputState_ident c h data now)

@[simp] theorem tcpConnTick_generation : (tcpConnTick c now).generation = c.generation := by
  refine tcpConnTick_cases (P := fun c' => c'.generation = c.generation) c now fun c' ht => ?_
  cases ht <;> rfl

@[simp] theorem tcpConnTick_orphan : (tcpConnTick c now).orphan = c.orphan := by
  by_cases hn : c.nowMs ≤ now
  · exact (tcpConnTick_keeps hn).orphan
  · rw [tcpConnTick_of_lt hn]

@[simp] theorem tcpConnInput_generation : (tcpConnInput c h data now).generation = c.generation := by
  unfold tcpConnInput
  split <;> simp

@[simp] theorem tcpConnInput_orphan : (tcpConnInput c h data now).orphan = c.orphan := by
  unfold tcpConnInput
  split
  · exact (inputState_keeps _ h data now).orphan.trans (tcpConnTick_orphan c now)
  · rfl

@[simp] theorem tcpConnDetach_generation : (tcpConnDetach c now).generation = c.generation := by
  unfold tcpConnDetach
  split
  · rfl
  · exact (congrArg Ident.generation (detachState_ident _ now)).trans (tcpConnTick_generation c now)

/-- A detach from before the block's own clock does nothing. -/
theorem tcpConnDetach_orphan : (tcpConnDetach c now).orphan = if c.nowMs ≤ now then true else c.orphan := by
  unfold tcpConnDetach
  by_cases hn : c.nowMs ≤ now
  · rw [if_neg (by simpa using hn), if_pos hn]
    exact (detachState_keeps { tcpConnTick c now with orphan := true } now).orphan
  · rw [if_pos (by simpa using hn), if_neg hn]

/-- An operation that reads no clock leaves all three alone. -/
theorem Op.same (op : Op) (h : op.reading = none) : (op.apply c).generation = c.generation ∧
    (op.apply c).orphan = c.orphan ∧ (op.apply c).nowMs = c.nowMs := by
  refine op.apply_cases (P := fun c' => c'.generation = c.generation ∧ c'.orphan = c.orphan ∧
    c'.nowMs = c.nowMs) c fun c' hact => ?_
  cases hact with
  | input | tick | detach => cases h
  | @sent a =>
    have hk := commitSubmitted_keeps (changed c) a
    exact ⟨congrArg Ident.generation (commitSubmitted_ident (changed c) a), hk.orphan, hk.nowMs⟩
  | _ => exact ⟨rfl, rfl, rfl⟩

/-- No handler sets a block's clock past the time it is given. -/
theorem tcpConnTick_nowMs {T : UInt64} (hc : c.nowMs ≤ T) (hn : now ≤ T) : (tcpConnTick c now).nowMs ≤ T := by
  by_cases h : c.nowMs ≤ now
  · rw [(tcpConnTick_keeps h).nowMs]
    exact hn
  · rw [tcpConnTick_of_lt h]
    exact hc

theorem tcpConnInput_nowMs {T : UInt64} (hc : c.nowMs ≤ T) (hn : now ≤ T) : (tcpConnInput c h data now).nowMs ≤ T := by
  unfold tcpConnInput
  split
  · rw [(inputState_keeps _ h data now).nowMs]
    exact tcpConnTick_nowMs c now hc hn
  · exact hc

theorem tcpConnDetach_nowMs {T : UInt64} (hc : c.nowMs ≤ T) (hn : now ≤ T) : (tcpConnDetach c now).nowMs ≤ T := by
  unfold tcpConnDetach
  split
  · exact hc
  rw [(detachState_keeps { tcpConnTick c now with orphan := true } now).nowMs]
  exact tcpConnTick_nowMs c now hc hn

/-- A block whose clock is not past `T` and whose error, if any, is one of the codes. -/
structure Conn.Sane (T : UInt64) (c : Conn) : Prop where
  clock : c.nowMs ≤ T
  error : ErrorOk c

variable {c} {T : UInt64}

theorem Conn.Sane.tick (hc : c.Sane T) (hn : now ≤ T) : (tcpConnTick c now).Sane T :=
  ⟨tcpConnTick_nowMs c now hc.clock hn, hc.error.tick now⟩

theorem Conn.Sane.input (hc : c.Sane T) (hn : now ≤ T) : (tcpConnInput c h data now).Sane T :=
  ⟨tcpConnInput_nowMs c h data now hc.clock hn, hc.error.apply (.input h data now)⟩

theorem Conn.Sane.detach (hc : c.Sane T) (hn : now ≤ T) : (tcpConnDetach c now).Sane T :=
  ⟨tcpConnDetach_nowMs c now hc.clock hn, hc.error.apply (.detach now)⟩

theorem Conn.Sane.apply (hc : c.Sane T) (op : Op) (h : op.reading = none) : (op.apply c).Sane T :=
  ⟨(Op.same c op h).2.2 ▸ hc.clock, hc.error.apply op⟩

end Generation

end Fortress.Tcp
