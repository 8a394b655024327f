/-
`sys_futex` of kernel/thread.c. A wait that registered is a call with a phase;
its steps are the sections under `g_futex_lock` and each evaluation of
`futex_ready_predicate`, taken in any order between the calls of any threads
of any address spaces. `owner` and `marks` are ghosts: which call registered a
slot last, and which calls a wake counted.
-/
import Fortress.Lib.Machine

namespace Fortress.Futex

open Function List

def MAX_FUTEX_WAITERS : Nat := 64

structure Waiter where
  uaddr : UInt64 := 0
  tid : Nat := 0
  expected : UInt32 := 0
  woken : Bool := false
  active : Bool := false
  owner : Nat := 0

inductive Errno
  | einval | efault | eagain | enomem | etimedout | eintr
  deriving DecidableEq

/-- Where a call that registered is. -/
inductive Phase
  /-- At the condition of the loop. -/
  | looping
  /-- The condition was false: the deadline and the signals come next. -/
  | polled
  /-- In `sched_wait_until`, blocked or about to evaluate the predicate. -/
  | sleeping
  /-- Left the loop for an error; its last section has not run. -/
  | expiring (e : Errno)
  /-- Left the loop; its last section has not run. -/
  | finishing
  /-- Returned, `none` being 0. -/
  | returned (e : Option Errno)
  deriving DecidableEq

/-- The call still refers to its slot. -/
def Phase.pending : Phase → Bool
  | .returned _ => false
  | _ => true

def Phase.expires : Phase → Bool
  | .expiring _ => true
  | _ => false

/-- The calling thread and its address space. -/
structure Caller where
  tid : Nat
  space : Nat
  isUser : Bool := true

structure Call where
  caller : Caller
  uaddr : UInt64
  slot : Nat
  hasTimeout : Bool
  phase : Phase

/-- One waiter counted: the waker's address space and the call. -/
structure Mark where
  space : Nat
  call : Nat
  deriving DecidableEq

structure Kernel where
  slots : Nat → Waiter := fun _ => {}
  calls : List Call := []
  marks : List Mark := []

variable (k : Kernel)

def Kernel.setSlot (i : Nat) (w : Waiter) : Kernel :=
  { k with slots := Function.update k.slots i w }

def Kernel.setPhase (i : Nat) (p : Phase) : Kernel :=
  { k with calls := k.calls.modify i fun c => { c with phase := p } }

def futexReadyPredicate (w : Waiter) : Bool := w.woken || !w.active

/-! ## FUTEX_WAKE -/

/-- One turn of the scan; the pair is the kernel and `count`. -/
def wakeSlot (space : Nat) (uaddr : UInt64) (toWake : Nat) (r : Kernel × Nat) (i : Nat) : Kernel × Nat :=
  let w := r.1.slots i
  if r.2 < toWake ∧ w.active = true ∧ w.uaddr = uaddr then
    ({ r.1.setSlot i { w with woken := true, active := false } with
        marks := r.1.marks ++ [{ space, call := w.owner }] }, r.2 + 1)
  else r

def futexWake (space : Nat) (uaddr : UInt64) (val : UInt32) : Kernel × Nat :=
  (List.range MAX_FUTEX_WAITERS).foldl (wakeSlot space uaddr (if val = 0 then 1 else val.toNat)) (k, 0)

/-! ## FUTEX_WAIT -/

def freeSlot : Option Nat :=
  (List.range MAX_FUTEX_WAITERS).find? fun i => !(k.slots i).active

/-- The first section: `cur` is the word found at `uaddr`. -/
def futexRegister (c : Caller) (uaddr : UInt64) (val cur : UInt32) (hasTimeout : Bool) :
    Kernel × Option Errno :=
  if cur ≠ val then (k, some .eagain)
  else
    match freeSlot k with
    | none => (k, some .enomem)
    | some slot =>
      let w : Waiter :=
        { uaddr, tid := c.tid, expected := val, woken := false, active := true, owner := k.calls.length }
      ({ k.setSlot slot w with
          calls := k.calls ++ [{ caller := c, uaddr, slot, hasTimeout, phase := .looping }] }, none)

/-- The section every return of a registered call ends with. -/
def clearActive (slot : Nat) : Kernel := k.setSlot slot { k.slots slot with active := false }

/-- The checks before either operation; `mapped` is the answer of `vmm_validate_user_range`. -/
def checkArgs (c : Caller) (uaddr : UInt64) (mapped : Bool) : Option Errno :=
  if c.isUser = false ∨ uaddr = 0 then some .einval
  else if uaddr % 4 ≠ 0 then some .einval
  else if mapped = false then some .efault
  else none

/-- The `timeout` argument of a wait. -/
inductive Timeout
  | absent
  | unmapped
  | spec (sec nsec : Int)

/-- Whether the wait has a deadline, or why the argument is refused. -/
def checkTimeout : Timeout → Except Errno Bool
  | .absent => .ok false
  | .unmapped => .error .efault
  | .spec sec nsec => if nsec < 0 ∨ nsec ≥ 1000000000 ∨ sec < 0 then .error .einval else .ok true

/-! ## Steps -/

inductive Op
  | wake (c : Caller) (uaddr : UInt64) (val : UInt32) (mapped : Bool)
  | wait (c : Caller) (uaddr : UInt64) (val cur : UInt32) (timeout : Timeout) (mapped : Bool)
  /-- The loop's condition. -/
  | check (i : Nat)
  /-- The deadline has passed, or a signal is pending. -/
  | expire (i : Nat) (e : Errno)
  /-- Neither: into `sched_wait_until`. -/
  | sleep (i : Nat)
  /-- `sched_wait_event` evaluates the predicate; a false one blocks. -/
  | recheck (i : Nat)
  /-- `sched_wait_event` returns for a signal. -/
  | interrupt (i : Nat)
  /-- The last section. -/
  | leave (i : Nat)

/-- The part of call `i` that runs in the given step. -/
def Call.advance (i : Nat) (c : Call) : Op → Kernel
  | .check _ =>
    match c.phase with
    | .looping => k.setPhase i (if futexReadyPredicate (k.slots c.slot) then .finishing else .polled)
    | _ => k
  | .expire _ e =>
    match c.phase with
    | .polled =>
      if (e = .etimedout ∧ c.hasTimeout = true) ∨ e = .eintr then k.setPhase i (.expiring e) else k
    | _ => k
  | .sleep _ =>
    match c.phase with
    | .polled => k.setPhase i .sleeping
    | _ => k
  | .recheck _ =>
    match c.phase with
    | .sleeping => if futexReadyPredicate (k.slots c.slot) then k.setPhase i .looping else k
    | _ => k
  | .interrupt _ =>
    match c.phase with
    | .sleeping => k.setPhase i .looping
    | _ => k
  | .leave _ =>
    match c.phase with
    | .expiring e => (clearActive k c.slot).setPhase i (.returned (some e))
    | .finishing => (clearActive k c.slot).setPhase i (.returned none)
    | _ => k
  | _ => k

def Op.apply (op : Op) : Kernel :=
  match op with
  | .wake c uaddr val mapped =>
    match checkArgs c uaddr mapped with
    | some _ => k
    | none => (futexWake k c.space uaddr val).1
  | .wait c uaddr val cur timeout mapped =>
    match checkArgs c uaddr mapped, checkTimeout timeout with
    | none, .ok hasTimeout => (futexRegister k c uaddr val cur hasTimeout).1
    | _, _ => k
  | .check i | .expire i _ | .sleep i | .recheck i | .interrupt i | .leave i =>
    match k.calls[i]? with
    | some c => c.advance k i op
    | none => k

def futexMachine : Machine Kernel Op where
  init k := k = {}
  step k op k' := k' = op.apply k

/-! ## Steps that keep waiters apart -/

/-- The call that registered slot `s` belongs to `space` and has not given up. -/
def ownedBy (space s : Nat) : Bool :=
  match k.calls[(k.slots s).owner]? with
  | some c => c.caller.space == space && !c.phase.expires
  | none => false

/-- No call that is still on its way refers to slot `s`. -/
def unused (s : Nat) : Bool := k.calls.all fun c => !(c.phase.pending && c.slot == s)

/-- A wake finds at its address only waiters of its own space that have not
given up yet, a wait takes a slot nobody refers to, and a call gives up only
while its slot is not woken. -/
def Op.sound : Op → Bool
  | .wake c uaddr _ _ =>
    (List.range MAX_FUTEX_WAITERS).all fun s =>
      !((k.slots s).active && (k.slots s).uaddr == uaddr) || ownedBy k c.space s
  | .wait .. =>
    match freeSlot k with
    | some s => unused k s
    | none => true
  | .expire i _ =>
    match k.calls[i]? with
    | some c => !(k.slots c.slot).woken
    | none => true
  | _ => true

def soundMachine : Machine Kernel Op := futexMachine.restrict fun k op => op.sound k = true

/-! ## The invariant -/

/-- Some wake counted call `i`. -/
def Counted (i : Nat) : Prop := ∃ m ∈ k.marks, m.call = i

/-- While a call refers to its slot, the slot is its own, and is woken exactly
when the call was counted. -/
def CallOk (i : Nat) (c : Call) : Prop :=
  match c.phase with
  | .looping | .polled | .sleeping =>
    (k.slots c.slot).owner = i ∧ (k.slots c.slot).woken = !(k.slots c.slot).active ∧
      ((k.slots c.slot).woken = true ↔ Counted k i)
  | .expiring _ => (k.slots c.slot).owner = i ∧ (k.slots c.slot).woken = false ∧ ¬ Counted k i
  | .finishing => (k.slots c.slot).owner = i ∧ (k.slots c.slot).active = false ∧ Counted k i
  | .returned none => Counted k i
  | .returned (some _) => ¬ Counted k i

structure Inv (k : Kernel) : Prop where
  calls : ∀ i c, k.calls[i]? = some c → CallOk k i c
  active : ∀ s, (k.slots s).active = true →
    ∃ c, k.calls[(k.slots s).owner]? = some c ∧ c.slot = s ∧ c.phase.pending = true
  marks : ∀ m ∈ k.marks, ∃ c, k.calls[m.call]? = some c ∧ c.caller.space = m.space

variable {c : Call} {i : Nat} {k : Kernel} {p : Phase}

theorem CallOk.owner (h : CallOk k i c) (hp : c.phase.pending = true) : (k.slots c.slot).owner = i := by
  cases hph : c.phase <;> grind -linarith [CallOk, Phase.pending]

/-- What a call says about the kernel depends on its slot and on being counted only. -/
theorem CallOk.congr {k' : Kernel} (h : CallOk k i c)
    (hs : c.phase.pending = true → k'.slots c.slot = k.slots c.slot) (hm : Counted k' i ↔ Counted k i) :
    CallOk k' i c := by
  unfold CallOk at h ⊢
  cases hp : c.phase with
  | looping | polled | sleeping | expiring | finishing =>
    rw [hp] at h hs
    rw [hs rfl, hm]
    exact h
  | returned e =>
    rw [hp] at h
    cases e <;> simpa only [hm] using h

theorem Inv.counted_lt (h : Inv k) (hc : Counted k i) : i < k.calls.length := by
  obtain ⟨m, hm, rfl⟩ := hc
  obtain ⟨c, hc, _⟩ := h.marks m hm
  exact (List.getElem?_eq_some_iff.1 hc).1

theorem getElem?_setPhase_self (hc : k.calls[i]? = some c) (p : Phase) :
    (k.setPhase i p).calls[i]? = some { c with phase := p } := by
  simp [Kernel.setPhase, hc]

@[grind =] theorem getElem?_setPhase (k : Kernel) (i j : Nat) (p : Phase) :
    (k.setPhase i p).calls[j]? = if j = i then k.calls[j]?.map fun c => { c with phase := p } else k.calls[j]? := by
  rw [Kernel.setPhase, getElem?_modify]
  grind -linarith

@[grind =] theorem setPhase_slots (k : Kernel) (i s : Nat) (p : Phase) : (k.setPhase i p).slots s = k.slots s := rfl

@[grind =] theorem setSlot_slots (k : Kernel) (s t : Nat) (w : Waiter) :
    (k.setSlot s w).slots t = if t = s then w else k.slots t := update_apply ..

@[grind =] theorem setSlot_calls (k : Kernel) (s : Nat) (w : Waiter) : (k.setSlot s w).calls = k.calls := rfl

/-! ## A call's own steps -/

/-- Call `i` moves to phase `p` and rewrites its slot. -/
theorem Inv.move {w : Waiter} (h : Inv k)
    (hc : k.calls[i]? = some c) (hpend : c.phase.pending = true) (howner : w.owner = i)
    (hok : CallOk (k.setSlot c.slot w) i { c with phase := p }) (hact : w.active = true → p.pending = true) :
    Inv ((k.setSlot c.slot w).setPhase i p) := by
  have hself := getElem?_setPhase_self (k := k.setSlot c.slot w) hc p
  refine ⟨fun j d hj => ?_, fun s hs => ?_, fun m hm => ?_⟩
  · by_cases hji : j = i
    · subst hji
      rw [hself, Option.some.injEq] at hj
      subst hj
      exact hok
    have hd := h.calls j d (by grind -linarith)
    refine hd.congr (fun hp => ?_) Iff.rfl
    -- Two calls on their way never share a slot: a slot has one owner.
    have howned := (h.calls i c hc).owner hpend
    grind -linarith [hd.owner hp]
  · have hold := h.active s
    by_cases hsc : s = c.slot
    · exact ⟨{ c with phase := p }, by grind -linarith⟩
    obtain ⟨d, hd⟩ := hold (by grind -linarith)
    exact ⟨d, by grind -linarith⟩
  obtain ⟨d, hd, hsp⟩ := h.marks m hm
  by_cases hmi : m.call = i
  · exact ⟨{ c with phase := p }, by grind -linarith⟩
  · exact ⟨d, by grind -linarith⟩

theorem Inv.phase (h : Inv k) (hc : k.calls[i]? = some c)
    (hpend : c.phase.pending = true) (hok : CallOk k i { c with phase := p }) (hp : p.pending = true) :
    Inv (k.setPhase i p) := by
  have hsame : k.setSlot c.slot (k.slots c.slot) = k := by
    simp [Kernel.setSlot]
  have := h.move hc hpend ((h.calls i c hc).owner hpend) (by rwa [hsame]) fun _ => hp
  rwa [hsame] at this

/-- The last section after the loop: the slot is given back. -/
theorem Inv.clear {e : Option Errno} (h : Inv k) (hc : k.calls[i]? = some c)
    (hpend : c.phase.pending = true) (hok : CallOk k i { c with phase := .returned e }) :
    Inv ((clearActive k c.slot).setPhase i (.returned e)) :=
  h.move hc hpend ((h.calls i c hc).owner hpend) (hok.congr (by simp [Phase.pending]) Iff.rfl) (by simp)

theorem Inv.advance (h : Inv k) (hc : k.calls[i]? = some c) (op : Op)
    (hsound : ∀ e, op = .expire i e → (k.slots c.slot).woken = false)
    (hop : ∀ j e, op = .expire j e → j = i) : Inv (c.advance k i op) := by
  have hok := h.calls i c hc
  unfold CallOk at hok
  cases op with
  | wake | wait => exact h
  | check j =>
    cases hp : c.phase with
    | looping =>
      rw [hp] at hok
      obtain ⟨ho, hw, hm⟩ := hok
      have hpend : c.phase.pending = true := by rw [hp]; rfl
      simp only [Call.advance, hp]
      cases hr : futexReadyPredicate (k.slots c.slot) with
      | false => exact h.phase hc hpend ⟨ho, hw, hm⟩ rfl
      | true =>
        -- Ready means woken here: the slot is still the call's own.
        have hwoken : (k.slots c.slot).woken = true := by
          rw [futexReadyPredicate, ← hw, Bool.or_self] at hr
          exact hr
        refine h.phase hc hpend ⟨ho, ?_, hm.1 hwoken⟩ rfl
        rwa [hwoken, Eq.comm, Bool.not_eq_true'] at hw
    | _ => simpa only [Call.advance, hp] using h
  | expire j e =>
    cases hp : c.phase with
    | polled =>
      rw [hp] at hok
      obtain ⟨ho, _, hm⟩ := hok
      obtain rfl := hop j e rfl
      have hwoken := hsound e rfl
      simp only [Call.advance, hp]
      split
      · refine h.phase hc (by rw [hp]; rfl) ⟨ho, hwoken, fun hcount => ?_⟩ rfl
        rw [hm.2 hcount] at hwoken
        cases hwoken
      · exact h
    | _ => simpa only [Call.advance, hp] using h
  | sleep j =>
    cases hp : c.phase with
    | polled =>
      rw [hp] at hok
      simpa only [Call.advance, hp] using h.phase hc (by rw [hp]; rfl) (p := .sleeping) hok rfl
    | _ => simpa only [Call.advance, hp] using h
  | recheck j =>
    cases hp : c.phase with
    | sleeping =>
      rw [hp] at hok
      simp only [Call.advance, hp]
      split
      · exact h.phase hc (by rw [hp]; rfl) hok rfl
      · exact h
    | _ => simpa only [Call.advance, hp] using h
  | interrupt j =>
    cases hp : c.phase with
    | sleeping =>
      rw [hp] at hok
      simpa only [Call.advance, hp] using h.phase hc (by rw [hp]; rfl) (p := .looping) hok rfl
    | _ => simpa only [Call.advance, hp] using h
  | leave j =>
    cases hp : c.phase with
    | expiring e =>
      rw [hp] at hok
      simpa only [Call.advance, hp] using h.clear hc (by rw [hp]; rfl) (e := some e) hok.2.2
    | finishing =>
      rw [hp] at hok
      simpa only [Call.advance, hp] using h.clear hc (by rw [hp]; rfl) (e := none) hok.2.2
    | _ => simpa only [Call.advance, hp] using h

/-! ## Registering -/

theorem Inv.register (h : Inv k) (c : Caller) (uaddr : UInt64) (val cur : UInt32) (hasTimeout : Bool)
    (hunused : ∀ s, freeSlot k = some s → unused k s = true) :
    Inv (futexRegister k c uaddr val cur hasTimeout).1 := by
  unfold futexRegister
  split
  · exact h
  split
  · exact h
  rename_i slot hfree
  have hun : ∀ d ∈ k.calls, d.phase.pending = true → d.slot ≠ slot := by
    intro d hd hp e
    have := all_eq_true.1 (hunused slot hfree) d hd
    simp [hp, e] at this
  refine ⟨fun j d hj => ?_, fun s hs => ?_, fun m hm => ?_⟩
  · change (k.calls ++ [_])[j]? = some d at hj
    rcases Nat.lt_or_ge j k.calls.length with hlt | hge
    · rw [getElem?_append_left hlt] at hj
      refine (h.calls j d hj).congr (fun hp => ?_) Iff.rfl
      exact update_of_ne (hun d (mem_of_getElem? hj) hp) _ k.slots
    rw [getElem?_append_right hge] at hj
    obtain ⟨hz, rfl⟩ := List.getElem?_eq_some_iff.1 hj
    have hj' : j = k.calls.length := by
      simp at hz
      omega
    subst hj'
    simp only [Nat.sub_self, getElem_cons_zero, CallOk, Kernel.setSlot, update_self]
    refine ⟨trivial, rfl, ?_⟩
    -- Nobody counted a call that did not exist.
    exact ⟨nofun, fun hc => absurd (h.counted_lt hc) (Nat.lt_irrefl _)⟩
  · change (update k.slots slot _ s).active = true at hs
    change ∃ d, (k.calls ++ [_])[(update k.slots slot _ s).owner]? = some d ∧
      d.slot = s ∧ d.phase.pending = true
    by_cases hss : s = slot
    · subst hss
      rw [update_self]
      exact ⟨_, getElem?_concat_length, rfl, rfl⟩
    rw [update_of_ne hss] at hs ⊢
    obtain ⟨d, hd⟩ := h.active s hs
    exact ⟨d, by grind -linarith⟩
  · obtain ⟨d, hd⟩ := h.marks m hm
    exact ⟨d, by grind -linarith⟩

/-! ## Waking -/

/-- What a sound wake finds at its address. -/
def WakeOk (k : Kernel) (space : Nat) (uaddr : UInt64) : Prop :=
  ∀ s, s < MAX_FUTEX_WAITERS → (k.slots s).active = true → (k.slots s).uaddr = uaddr → ownedBy k space s = true

variable {space : Nat} {uaddr : UInt64} {r : Kernel × Nat}

/-- Marking an active slot whose call is of the waker's space and still waiting. -/
theorem Inv.mark {s : Nat} (h : Inv k) (hact : (k.slots s).active = true) (hown : ownedBy k space s = true) :
    Inv { k.setSlot s { k.slots s with woken := true, active := false } with
      marks := k.marks ++ [{ space, call := (k.slots s).owner }] } := by
  obtain ⟨c, hc, hcs, hcp⟩ := h.active s hact
  simp only [ownedBy, hc, Bool.and_eq_true, beq_iff_eq, Bool.not_eq_true'] at hown
  obtain ⟨hspace, hexp⟩ := hown
  refine ⟨fun j d hj => ?_, fun t ht => ?_, fun m hm => ?_⟩
  · change k.calls[j]? = some d at hj
    have hd := h.calls j d hj
    by_cases hjo : j = (k.slots s).owner
    · rw [hjo, hc, Option.some.injEq] at hj
      subst hj hcs
      have hcount : Counted { k.setSlot c.slot { k.slots c.slot with woken := true, active := false } with
          marks := k.marks ++ [{ space, call := (k.slots c.slot).owner }] } j :=
        ⟨_, mem_append_right _ (mem_singleton_self _), hjo.symm⟩
      unfold CallOk at hd ⊢
      cases hp : c.phase with
      | looping | polled | sleeping =>
        simp only [Kernel.setSlot, update_self]
        exact ⟨hjo.symm, rfl, fun _ => hcount, fun _ => trivial⟩
      | expiring e =>
        rw [hp] at hexp
        cases hexp
      | finishing =>
        rw [hp] at hd
        rw [hd.2.1] at hact
        cases hact
      | returned e =>
        rw [hp] at hcp
        cases hcp
    refine hd.congr (fun hp => update_of_ne ?_ _ k.slots) ?_
    · intro e
      exact hjo (e ▸ (hd.owner hp).symm)
    grind -linarith [Counted]
  · change (update k.slots s _ t).active = true at ht
    change ∃ d, k.calls[(update k.slots s _ t).owner]? = some d ∧ _
    have := h.active t
    grind -linarith [update_apply]
  rcases mem_append.1 hm with hm | hm
  · exact h.marks m hm
  rw [mem_singleton.1 hm]
  exact ⟨c, hc, hspace⟩

theorem WakeOk.wakeSlot (h : WakeOk r.1 space uaddr)
    (n i : Nat) : WakeOk (wakeSlot space uaddr n r i).1 space uaddr := by
  unfold Futex.wakeSlot
  dsimp only
  split
  · intro t ht hact haddr
    change (update r.1.slots i _ t).active = true at hact
    change (update r.1.slots i _ t).uaddr = uaddr at haddr
    by_cases hti : t = i
    · subst hti
      rw [update_self] at hact
      cases hact
    · rw [update_of_ne hti] at hact haddr
      have := h t ht hact haddr
      simpa only [ownedBy, Kernel.setSlot, update_of_ne hti] using this
  · exact h

theorem Inv.wakeSlot (h : Inv r.1) (hw : WakeOk r.1 space uaddr)
    (n : Nat) (hi : i < MAX_FUTEX_WAITERS) : Inv (wakeSlot space uaddr n r i).1 := by
  unfold Futex.wakeSlot
  dsimp only
  split
  · rename_i hcond
    exact h.mark hcond.2.1 (hw i hi hcond.2.1 hcond.2.2)
  · exact h

theorem Inv.wakeSlots {n : Nat} : ∀ (l : List Nat) {r : Kernel × Nat},
    (∀ i ∈ l, i < MAX_FUTEX_WAITERS) → Inv r.1 → WakeOk r.1 space uaddr →
      Inv (l.foldl (Futex.wakeSlot space uaddr n) r).1
  | [], _, _, h, _ => h
  | i :: l, _, hl, h, hw =>
    Inv.wakeSlots l (fun j hj => hl j (List.mem_cons_of_mem i hj))
      (h.wakeSlot hw n (hl i (.head _))) (hw.wakeSlot n i)

/-! ## Runs -/

theorem Inv.apply (h : Inv k) {op : Op} (hs : op.sound k = true) : Inv (op.apply k) := by
  -- A step of call `i` that finds no such call does nothing.
  have own (i : Nat) (op : Op) (hsound : ∀ c e, k.calls[i]? = some c → op = .expire i e → (k.slots c.slot).woken = false)
      (hop : ∀ j e, op = .expire j e → j = i) :
      Inv (match k.calls[i]? with | some c => c.advance k i op | none => k) := by
    split
    · rename_i c hc
      exact h.advance hc op (fun e => hsound c e hc) hop
    · exact h
  cases op with
  | wake c uaddr val mapped =>
    simp only [Op.apply]
    split
    · exact h
    have hwake : WakeOk k c.space uaddr := by
      intro s hlt hact haddr
      have := all_eq_true.1 hs s (mem_range.2 hlt)
      simpa [hact, haddr] using this
    exact Inv.wakeSlots _ (fun i hi => mem_range.1 hi) h hwake
  | wait c uaddr val cur timeout mapped =>
    simp only [Op.apply]
    split
    · refine h.register c uaddr val cur _ fun s hfree => ?_
      simpa [Op.sound, hfree] using hs
    · exact h
  | expire i e =>
    refine own i (.expire i e) (fun c e' hc _ => ?_) fun j e' he => ?_
    · simpa [Op.sound, hc] using hs
    cases he
    rfl
  | check i => exact own i (.check i) (fun _ _ _ he => nomatch he) fun _ _ he => nomatch he
  | sleep i => exact own i (.sleep i) (fun _ _ _ he => nomatch he) fun _ _ he => nomatch he
  | recheck i => exact own i (.recheck i) (fun _ _ _ he => nomatch he) fun _ _ he => nomatch he
  | interrupt i => exact own i (.interrupt i) (fun _ _ _ he => nomatch he) fun _ _ he => nomatch he
  | leave i => exact own i (.leave i) (fun _ _ _ he => nomatch he) fun _ _ he => nomatch he

theorem Inv.init : Inv {} where
  calls _ _ h := by cases h
  active _ h := by cases h
  marks _ h := by cases h

theorem reach_inv (h : soundMachine.Reach k) : Inv k := by
  refine h.invariant (fun k hi => ?_) fun k op k' hi hs => ?_
  · obtain rfl : k = {} := hi
    exact .init
  · obtain ⟨hsound, rfl⟩ := hs
    exact hi.apply hsound

/-- What call `i` does when it runs again and nobody else steps in: through the
predicate checks to its last section. -/
def settle (k : Kernel) (i : Nat) : Kernel :=
  [Op.sleep i, .recheck i, .check i, .leave i].foldl Op.apply k

def phaseOf (k : Kernel) (i : Nat) : Option Phase := k.calls[i]?.map Call.phase

/-- A counted call that runs again returns 0. -/
theorem Inv.settle (h : Inv k) (hcount : Counted k i) : phaseOf (settle k i) i = some (.returned none) := by
  obtain ⟨c, hc⟩ : ∃ c, k.calls[i]? = some c := ⟨_, getElem?_eq_getElem (h.counted_lt hcount)⟩
  have hready (hw : (k.slots c.slot).woken = true ↔ Counted k i) : futexReadyPredicate (k.slots c.slot) = true := by
    simp [futexReadyPredicate, hw.2 hcount]
  have hok := h.calls i c hc
  unfold CallOk at hok
  have hrun := @getElem?_setPhase
  cases hp : c.phase with
  | looping | polled | sleeping =>
    rw [hp] at hok
    simp [Futex.settle, Op.apply, Call.advance, phaseOf, hrun, setPhase_slots, clearActive, setSlot_calls, hc, hp,
      hready hok.2.2]
  | expiring e =>
    rw [hp] at hok
    exact absurd hcount hok.2.2
  | finishing => simp [Futex.settle, Op.apply, Call.advance, phaseOf, hrun, clearActive, setSlot_calls, hc, hp]
  | returned e =>
    rw [hp] at hok
    cases e with
    | some e => exact absurd hcount hok
    | none => simp [Futex.settle, Op.apply, Call.advance, phaseOf, hc, hp]

/-- **Wakeups are exact and isolated** in every run of sound steps: a wake
counts calls of its own address space only; a counted call has not returned an
error and returns 0 as soon as it runs again; and a call that returned 0 was
counted. -/
theorem futex_exact {k : Kernel} (h : soundMachine.Reach k) :
    (∀ m ∈ k.marks, (∃ c, k.calls[m.call]? = some c ∧ c.caller.space = m.space) ∧
      (∀ e, phaseOf k m.call ≠ some (.returned (some e))) ∧
      phaseOf (settle k m.call) m.call = some (.returned none)) ∧
    ∀ i, phaseOf k i = some (.returned none) → ∃ m ∈ k.marks, m.call = i := by
  have hinv := reach_inv h
  refine ⟨fun m hm => ⟨hinv.marks m hm, fun e he => ?_, hinv.settle ⟨m, hm, rfl⟩⟩, fun i hi => ?_⟩
  · obtain ⟨c, hc, hp⟩ := Option.map_eq_some_iff.1 he
    have hok := hinv.calls _ c hc
    rw [CallOk, hp] at hok
    exact hok ⟨m, hm, rfl⟩
  obtain ⟨c, hc, hp⟩ := Option.map_eq_some_iff.1 hi
  have hok := hinv.calls i c hc
  rw [CallOk, hp] at hok
  exact hok

/-- A run of the given steps, and whether all of them are sound. -/
def soundRun (k : Kernel) : List Op → Bool
  | [] => true
  | op :: ops => op.sound k && soundRun (op.apply k) ops

theorem reach_run : ∀ {ops : List Op} {k : Kernel},
    soundMachine.Reach k → soundRun k ops = true → soundMachine.Reach (ops.foldl Op.apply k)
  | [], _, h, _ => h
  | op :: ops, k, h, hr => by
    simp only [soundRun, Bool.and_eq_true] at hr
    exact @reach_run ops _ (.step h ⟨hr.1, rfl⟩) hr.2

/-- A thread of one process that waits at an address and is blocked there. -/
def blockAt (tid space : Nat) (uaddr : UInt64) (i : Nat) : List Op :=
  [.wait { tid, space } uaddr 0 0 .absent true, .check i, .sleep i, .recheck i]

def wakeAt (tid space : Nat) (uaddr : UInt64) : Op := .wake { tid, space } uaddr 1 true

def wokenRun : List Op := blockAt 1 7 0x1000 0 ++ [wakeAt 2 7 0x1000]

def wokenKernel : Kernel := wokenRun.foldl Op.apply {}

theorem futex_exact_one_waiter :
    wokenKernel.marks = [{ space := 7, call := 0 }] ∧
      phaseOf (settle wokenKernel 0) 0 = some (.returned none) :=
  ⟨by decide +kernel,
    ((futex_exact (reach_run (.init rfl) (by decide +kernel : soundRun {} wokenRun = true))).1
      { space := 7, call := 0 } (by decide +kernel)).2.2⟩

/-- The woken waiter's slot is taken by a wait elsewhere before it runs. -/
def reusedKernel : Kernel := (wokenRun ++ blockAt 3 8 0x2000 1).foldl Op.apply {}

/-- The other order: the first waiter is on its way out when its slot is taken. -/
def clearedKernel : Kernel :=
  (wokenRun ++ [Op.recheck 0, .check 0] ++ blockAt 3 8 0x2000 1 ++
    [Op.leave 0, .recheck 1, .check 1, .leave 1]).foldl Op.apply {}

/-- A process wakes another one's waiter at the same address. -/
def foreignKernel : Kernel := (blockAt 1 7 0x1000 0 ++ [wakeAt 2 8 0x1000]).foldl Op.apply {}

theorem reach_foldl : ∀ (ops : List Op) {k : Kernel},
    futexMachine.Reach k → futexMachine.Reach (ops.foldl Op.apply k)
  | [], _, h => h
  | _ :: ops, _, h => reach_foldl ops (.step h rfl)

/-- Slots are released by the waker and know no address space: a counted waiter
sleeps on, a wait nobody counted returns 0, and a wake counts a foreign waiter. -/
theorem futex_slot_reuse :
    (futexMachine.Reach reusedKernel ∧ { space := 7, call := 0 } ∈ reusedKernel.marks ∧
      phaseOf (settle reusedKernel 0) 0 = some .sleeping) ∧
    (futexMachine.Reach clearedKernel ∧ phaseOf clearedKernel 1 = some (.returned none) ∧
      ∀ m ∈ clearedKernel.marks, m.call ≠ 1) ∧
    (futexMachine.Reach foreignKernel ∧ { space := 8, call := 0 } ∈ foreignKernel.marks ∧
      (foreignKernel.calls[0]?.map fun c => c.caller.space) = some 7) :=
  ⟨⟨reach_foldl _ (.init rfl), by decide +kernel, by decide +kernel⟩,
    ⟨reach_foldl _ (.init rfl), by decide +kernel, by decide +kernel⟩,
    ⟨reach_foldl _ (.init rfl), by decide +kernel, by decide +kernel⟩⟩

end Fortress.Futex
