/-
A timed FUTEX_WAIT under the scheduler and the timer (kernel/thread.c, time.c,
apic.c).

The call is followed from its registration on. Where it finds the predicate of
`sched_wait_event` false its thread is blocked on the address it waits at, and
runs again only after `sched_wake_all` of that channel or for a signal. The
timer interrupt counts its ticks and wakes channels of the kernel's own. What
other calls do to the slot is an event; the tick counter is taken not to wrap.
-/
import Fortress.Thread.Futex

namespace Fortress.Futex

/-- The objects whose addresses the timer interrupt wakes, all but `sleep` under conditions of their own. -/
inductive TimerChannel
  | terminal | input | handoffOwner | handoffAdmission | sleep | childWait

/-- Where they are: in the kernel's half. -/
structure Layout where
  addr : TimerChannel → UInt64
  upper : ∀ ch, 0x0000800000000000 ≤ addr ch

/-- A call, its slot and its thread. -/
structure Wait where
  uaddr : UInt64
  slot : Waiter
  deadline : Nat
  phase : Phase := .looping
  /-- the `wait_channel` of the thread, if it is blocked -/
  blocked : Option UInt64 := none
  /-- `g_bsp_timer_ticks` -/
  bspTicks : Nat

def timeoutTicks (hz sec nsec : Nat) : Nat := (sec * hz + nsec * hz % 2 ^ 64 / 1000000000) % 2 ^ 64

/-- The call as it is registered at tick `now`. -/
def Wait.start (hz now tid : Nat) (uaddr : UInt64) (val : UInt32) (sec nsec : Nat) : Wait where
  uaddr := uaddr
  slot := { uaddr, tid, expected := val, active := true }
  deadline := (now + timeoutTicks hz sec nsec) % 2 ^ 64
  bspTicks := now

inductive Event
  /-- The thread runs its next section; whether it finds a signal pending. -/
  | run (pending : Bool)
  /-- A timer interrupt on the boot CPU, and what else it finds reason to wake. -/
  | tick (wakes : List TimerChannel)
  /-- Any other `sched_wake_all`. -/
  | wakeAll (channel : UInt64)
  /-- Another call rewrites the slot: a FUTEX_WAKE, or one that had the slot before. -/
  | slot (w : Waiter)
  /-- A signal wakes the thread. -/
  | signal

namespace Wait

variable (L : Layout) (s : Wait)

def schedWakeAll (channel : UInt64) : Wait :=
  if channel ≠ 0 ∧ s.blocked = some channel then { s with blocked := none } else s

def tick (wakes : List TimerChannel) : Wait :=
  (.sleep :: wakes).foldl (fun s ch => s.schedWakeAll (L.addr ch)) { s with bspTicks := s.bspTicks + 1 }

/-- The next section of the call. -/
def advance (pending : Bool) : Wait :=
  match s.phase with
  | .looping => { s with phase := if futexReadyPredicate s.slot then .finishing else .polled }
  | .polled =>
    if s.deadline ≤ s.bspTicks then { s with phase := .expiring .etimedout }
    else if pending then { s with phase := .expiring .eintr }
    else { s with phase := .sleeping }
  | .sleeping =>
    if pending || futexReadyPredicate s.slot then { s with phase := .looping } else { s with blocked := some s.uaddr }
  | .expiring e => { s with phase := .returned (some e), slot.active := false }
  | .finishing => { s with phase := .returned none, slot.active := false }
  | .returned _ => s

def apply : Event → Wait
  | .run pending => if s.blocked = none then s.advance pending else s
  | .tick wakes => s.tick L wakes
  | .wakeAll channel => s.schedWakeAll channel
  | .slot w => { s with slot := w }
  | .signal => { s with blocked := none }

def run (evs : List Event) : Wait := evs.foldl (apply L) s

end Wait

/-- Neither a signal nor anything that makes the predicate true. -/
def Event.quiet : Event → Bool
  | .run pending => !pending
  | .slot w => !futexReadyPredicate w
  | .signal => false
  | .tick _ | .wakeAll _ => true

/-- Wherever a quiet run leaves the call blocked past its deadline, some later ticks make its thread runnable, and
it then returns `SYSCALL_ETIMEDOUT` after some sections of its own. -/
def Wait.Ends (L : Layout) (s : Wait) : Prop :=
  ∀ evs : List Event, (∀ e ∈ evs, e.quiet = true) → (s.run L evs).blocked ≠ none →
    (s.run L evs).deadline ≤ (s.run L evs).bspTicks →
    ∃ (ticks : List (List TimerChannel)) (n : Nat), ((s.run L evs).run L (ticks.map .tick)).blocked = none ∧
      (((s.run L evs).run L (ticks.map .tick)).run L (List.replicate n (.run false))).phase =
        .returned (some .etimedout)

variable {L : Layout} {s : Wait}

/-- A tick is counted, and leaves a thread blocked at an address of a process. -/
theorem Wait.tick_blocked (hu : s.uaddr < 0x0000800000000000) (h : s.blocked = some s.uaddr)
    (wakes : List TimerChannel) : s.tick L wakes = { s with bspTicks := s.bspTicks + 1 } := by
  refine List.foldlRecOn (motive := fun s' : Wait => s' = { s with bspTicks := s.bspTicks + 1 }) _ _ rfl
    fun s' hs ch _ => ?_
  have hne : s.uaddr ≠ L.addr ch := fun e => absurd (e ▸ L.upper ch) (UInt64.not_le.2 hu)
  rw [hs, schedWakeAll, if_neg fun hw => hne (Option.some.inj (h.symm.trans hw.2))]

/-- **The timer never reaches a futex wait**: it wakes channels of the kernel only. -/
theorem Wait.run_ticks (ticks : List (List TimerChannel)) {s : Wait} (hu : s.uaddr < 0x0000800000000000)
    (h : s.blocked = some s.uaddr) :
    s.run L (ticks.map .tick) = { s with bspTicks := s.bspTicks + ticks.length } := by
  induction ticks generalizing s with
  | nil => rfl
  | cons wakes ticks ih =>
    change (s.tick L wakes).run L _ = _
    rw [tick_blocked hu h, List.length_cons, Nat.add_comm ticks.length, ← Nat.add_assoc]
    exact ih hu h

/-- The call is awake with its deadline reached. -/
structure Due (s : Wait) : Prop where
  awake : s.phase ≠ .sleeping
  reached : s.deadline ≤ s.bspTicks
  runs : s.blocked = none

theorem Due.schedWakeAll (h : Due s) (channel : UInt64) : Due (s.schedWakeAll channel) := by
  rw [Wait.schedWakeAll, if_neg (by simp [h.runs])]
  exact h

theorem Due.apply (h : Due s) (e : Event) : Due (s.apply L e) := by
  cases e with
  | run pending =>
    rw [Wait.apply, if_pos h.runs]
    unfold Wait.advance
    split
    · refine { h with awake := ?_ }
      split <;> simp
    · rw [if_pos h.reached]
      exact { h with awake := nofun }
    · exact absurd ‹_› h.awake
    · exact { h with awake := nofun }
    · exact { h with awake := nofun }
    · exact h
  | tick wakes =>
    refine List.foldlRecOn (motive := Due) _ _ ?_ fun s hs ch _ => hs.schedWakeAll _
    exact { h with reached := Nat.le_succ_of_le h.reached }
  | wakeAll channel => exact h.schedWakeAll channel
  | slot w => exact { h with }
  | signal => exact { h with runs := rfl }

/-- A call whose deadline is ahead is blocked, and stays so when the ticks come up to its deadline. -/
theorem Wait.not_ends (hp : s.phase = .looping) (hb : s.blocked = none) (hr : futexReadyPredicate s.slot = false)
    (hd : s.bspTicks < s.deadline) (hu : s.uaddr < 0x0000800000000000) : ¬s.Ends L := by
  have hblock : s.run L (List.replicate 3 (.run false)) = { s with phase := .sleeping, blocked := some s.uaddr } := by
    simp [run, apply, advance, List.replicate, hp, hb, hr, Nat.not_le.2 hd]
  obtain ⟨evs, hquiet, hpast⟩ : ∃ evs : List Event, (∀ e ∈ evs, e.quiet = true) ∧
      s.run L evs = { s with phase := .sleeping, blocked := some s.uaddr, bspTicks := s.deadline } := by
    refine ⟨List.replicate 3 (.run false) ++ (List.replicate (s.deadline - s.bspTicks) []).map .tick,
      by simp [Event.quiet], ?_⟩
    rw [run, List.foldl_append]
    change (s.run L _).run L _ = _
    rw [hblock, run_ticks _ (by exact hu) rfl, List.length_replicate, Nat.add_sub_cancel' (Nat.le_of_lt hd)]
  intro hends
  obtain ⟨ticks, n, hfree, -⟩ := hends evs hquiet (by simp [hpast]) (by simp [hpast])
  rw [hpast, run_ticks ticks (by exact hu) rfl] at hfree
  cases hfree

/-- **A timed wait ends exactly if its deadline is reached when it starts.** Otherwise a run without a wake or a
signal leaves it blocked past the deadline, where no tick makes it runnable. -/
theorem timed_wait_ends_iff (L : Layout) (hz now tid : Nat) (uaddr : UInt64) (val : UInt32) (sec nsec : Nat)
    (hu : uaddr < 0x0000800000000000) :
    (Wait.start hz now tid uaddr val sec nsec).Ends L ↔ (now + timeoutTicks hz sec nsec) % 2 ^ 64 ≤ now := by
  constructor
  · intro hends
    by_contra hlate
    exact Wait.not_ends rfl rfl rfl (Nat.lt_of_not_le hlate) hu hends
  intro hreached evs _ hb
  have hstart : Due (.start hz now tid uaddr val sec nsec) := ⟨nofun, hreached, rfl⟩
  have hrun : Due (Wait.run L _ evs) := List.foldlRecOn evs _ hstart fun s h e _ => h.apply e
  exact absurd hrun.runs hb

def upperLayout : Layout := ⟨fun _ => 0xFFFF800000000000, fun _ => by decide⟩

theorem timed_wait_ends_zero : (Wait.start 100 1 7 0x400000 0 0 0).Ends upperLayout :=
  (timed_wait_ends_iff upperLayout 100 1 7 0x400000 0 0 0 (by decide)).2 (by decide)

/-- A second of timeout at 100 ticks a second. -/
theorem timed_wait_one_second : ¬(Wait.start 100 1 7 0x400000 0 1 0).Ends upperLayout :=
  Wait.not_ends rfl rfl rfl (by decide) (by decide)

end Fortress.Futex
