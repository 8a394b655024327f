/-
First come, first served, and no lost work. Tickets order the published
requests of a class; the stage of a request (prepared, queued, claimed) never
gets ahead of that of an earlier one, as long as neither is cancelled. And the
flag the service sleeps on is set whenever a slot needs the service.
-/
import Fortress.Handoff.Edits

namespace Fortress.Handoff

open Function

/-- The slot holds a request that has its ticket. -/
def Slot.published (s : Slot) : Bool := s.live && s.ticket != 0

/-- How far a request has come. -/
def Slot.stage (s : Slot) : Nat :=
  match s.state with
  | .free | .retired | .prepared => 0
  | .queued => 1
  | .claimed | .pending | .completed => 2

/-- The caller of a request in progress is there unless the request is cancelled. -/
def Slot.wanted (s : Slot) : Prop :=
  s.live = true → s.state ≠ .completed → s.cancel = false → s.caller = true

attribute [local simp] View.set Slot.live Slot.published Slot.stage Slot.wanted

/-- What edits keep about tickets. -/
structure Fifo (v : View) : Prop where
  bound : ∀ i, i < HANDOFF_SLOTS → (v.slots i).published = true → (v.slots i).ticket ≤ v.nextTicket
  wanted : ∀ i, i < HANDOFF_SLOTS → (v.slots i).wanted
  distinct : ∀ i j, i < HANDOFF_SLOTS → j < HANDOFF_SLOTS → (v.slots i).published = true →
    (v.slots j).published = true → (v.slots i).ticket = (v.slots j).ticket → i = j
  order : ∀ i j, i < HANDOFF_SLOTS → j < HANDOFF_SLOTS → (v.slots i).published = true →
    (v.slots j).published = true → (v.slots i).cancel = false → (v.slots j).cancel = false →
    (v.slots i).request.control = (v.slots j).request.control → (v.slots i).ticket < (v.slots j).ticket →
    (v.slots j).stage ≤ (v.slots i).stage

/-- A change of a slot that does not move a request ahead: what is still published and not
cancelled afterwards was so before, with the same ticket, class and stage. -/
structure Slot.Mild (s s' : Slot) : Prop where
  published : s'.published = true → s.published = true ∧ s'.ticket = s.ticket ∧
    s'.request.control = s.request.control
  stage : s'.published = true → s'.cancel = false → s.cancel = false ∧ s'.stage = s.stage
  wanted : s.wanted → s'.wanted

theorem Slot.Mild.refl (s : Slot) : s.Mild s := ⟨fun h => ⟨h, rfl, rfl⟩, fun _ h => ⟨h, rfl⟩, id⟩

theorem Slot.Mild.of_unpublished {s s' : Slot} (h : s'.published = false) (hw : s'.wanted) : s.Mild s' :=
  ⟨fun h' => absurd (h.symm.trans h') (by decide), fun h' => absurd (h.symm.trans h') (by decide), fun _ => hw⟩

theorem Slot.Mild.cancel (s : Slot) : s.Mild { s with cancel := true } := by
  refine ⟨?_, ?_, ?_⟩ <;> simp

namespace Fifo

variable {v v' : View} {i : Nat}

theorem mild (h : Fifo v) (hn : v'.nextTicket = v.nextTicket)
    (hm : ∀ i, i < HANDOFF_SLOTS → (v.slots i).Mild (v'.slots i)) : Fifo v' where
  bound := by
    intro i hi hp
    obtain ⟨hp', ht, -⟩ := (hm i hi).published hp
    rw [ht, hn]
    exact h.bound i hi hp'
  wanted := fun i hi => (hm i hi).wanted (h.wanted i hi)
  distinct := by
    intro i j hi hj
    have := h.distinct i j hi hj
    grind -linarith [(hm i hi).published, (hm j hj).published]
  order := by
    intro i j hi hj
    have := h.order i j hi hj
    grind -linarith [(hm i hi).published, (hm j hj).published, (hm i hi).stage, (hm j hj).stage]

theorem set {s : Slot} (h : Fifo v) (hm : (v.slots i).Mild s) : Fifo (v.set i s) := by
  refine h.mild rfl fun j _ => ?_
  have := Slot.Mild.refl (v.slots j)
  grind -linarith

/-- One request moves up, and no request of its class waits behind where it was with a smaller ticket. -/
theorem advance {s : Slot} (h : Fifo v) (ht : s.ticket = (v.slots i).ticket)
    (hk : s.request.control = (v.slots i).request.control) (hp : s.published = true → (v.slots i).published = true)
    (hc : s.cancel = false → (v.slots i).cancel = false) (hw : s.wanted) (hup : (v.slots i).stage ≤ s.stage)
    (hfirst : ∀ j, j < HANDOFF_SLOTS → (v.slots j).published = true → (v.slots j).cancel = false →
      (v.slots j).request.control = (v.slots i).request.control → (v.slots j).ticket < (v.slots i).ticket →
      s.stage ≤ (v.slots j).stage) : Fifo (v.set i s) where
  bound := by
    intro j hj
    have := h.bound j hj
    grind -linarith
  wanted := by
    intro j hj
    have := h.wanted j hj
    grind -linarith
  distinct := by
    intro a b ha hb
    have := h.distinct a b ha hb
    grind -linarith
  order := by
    intro a b ha hb
    have hle := h.order a b ha hb
    have hle' := hfirst a ha
    grind -linarith

theorem ticket (h : Fifo v) (hp : (v.slots i).state = .prepared) (hn : v.nextTicket ≠ 0xffffffffffffffff) :
    Fifo { v.set i { v.slots i with ticket := v.nextTicket + 1 } with nextTicket := v.nextTicket + 1 } := by
  have hlt := lt_succ_of_ne_max hn
  have hnew : ∀ j, j < HANDOFF_SLOTS → (v.slots j).published = true → (v.slots j).ticket < v.nextTicket + 1 :=
    fun j hj hpj => UInt64.lt_of_le_of_lt (h.bound j hj hpj) hlt
  refine ⟨fun j hj => ?_, fun j hj => ?_, fun a b ha hb => ?_, fun a b ha hb => ?_⟩
  · have := hnew j hj
    grind -linarith
  · have := h.wanted j hj
    grind -linarith [Slot.wanted, Slot.live]
  · have := h.distinct a b ha hb
    grind -linarith
  · -- nobody has a larger ticket than the new one
    have := h.order a b ha hb
    grind -linarith [Slot.stage]

theorem edit {e : Option Entry} (h : Fifo v) (he : Edit v e v') : Fifo v' := by
  cases he with
  | begin hi hfree hactor hone =>
    refine h.set (.of_unpublished ?_ ?_)
    · simp [Slot.fresh]
    · simp [Slot.fresh]
  | ticket hi hp hz hn => exact h.ticket hp hn
  | @queue i hi hw hfirst =>
    simp only [Ledger.waiting, Bool.and_eq_true, beq_iff_eq, bne_iff_ne, Bool.not_eq_true'] at hw
    obtain ⟨⟨⟨hp, hz⟩, hcaller⟩, hcancel⟩ := hw
    refine h.advance rfl rfl ?_ id ?_ ?_ ?_
    · simp [hp]
    · simp [hcaller]
    · simp [hp]
    -- an earlier request of the class that is only prepared would be waiting
    intro j hj hpj hcj hclass hlt
    have hne : (v.slots j).state ≠ .prepared := by
      intro hs
      refine hfirst j hj ?_ hclass hlt
      have hl : (v.slots j).live = true := by simp [hs]
      have hcallerj := h.wanted j hj hl (by simp [hs]) hcj
      simp only [Slot.published, Bool.and_eq_true] at hpj
      simp [Ledger.waiting, hs, hcallerj, hcj, hpj.2]
    cases hs : (v.slots j).state <;> simp_all
  | @claim i hi hc hfirst =>
    simp only [Slot.claimable, Bool.and_eq_true, beq_iff_eq, Bool.not_eq_true'] at hc
    obtain ⟨hq, hcancel⟩ := hc
    have hlive : (v.slots i).live = true := by simp [hq]
    refine h.advance rfl rfl ?_ id ?_ ?_ ?_
    · simp [hq]
    · simpa [hcancel] using h.wanted i hi hlive (by simp [hq])
    · simp [hq]
    -- an earlier request of the class has been queued, and if it were still queued it would come first
    intro j hj hpj hcj hclass hlt
    have hpi : (v.slots i).published = true := by
      have hz : (v.slots i).ticket ≠ 0 := fun h0 => UInt64.not_lt_zero (h0 ▸ hlt)
      simp [hq, hz]
    have hle := h.order j i hj hi hpj hpi hcj hcancel hclass hlt
    have hne : (v.slots j).state ≠ .queued := fun hs => hfirst j hj (by simp [Slot.claimable, hs, hcj]) hclass hlt
    cases hs : (v.slots j).state <;> simp_all
  | resume hi hs | pend hi hs | finish hi hs | clean hi hs hc =>
    refine h.set ⟨?_, ?_, ?_⟩ <;> simp [hs]
  | cancel hi hl => exact h.set (.cancel _)
  | fail =>
    refine h.mild rfl ?_
    intro i hi
    simp only [hi, if_true, Slot.failed]
    split
    · exact .cancel _
    · exact .refl _
  | release hi hl =>
    refine h.set ⟨?_, ?_, ?_⟩
    · simp [Slot.released]
    · intro _ hc
      simp only [Slot.released, Bool.or_eq_false_iff] at hc
      exact ⟨hc.1, rfl⟩
    · intro _ _ hs hc
      simp_all [Slot.released]
  | collect hi hs hc => exact h
  | @expire i hi hx =>
    have hc : (v.slots i).cancel = true := by
      simp only [Ledger.expires, Bool.and_eq_true] at hx
      exact hx.2
    refine h.set ⟨?_, ?_, ?_⟩
    · rcases Ledger.expires_state hx with hs | hs <;> simp [hs]
    · simp [hc]
    · simp
  | recycle hi hs hc hcl =>
    have hl := Ledger.recycled_live
    refine h.set (.of_unpublished ?_ ?_)
    · simp only [Slot.published, hl, Bool.false_and]
    · exact fun hlive => absurd ((hl _).symm.trans hlive) Bool.false_ne_true

end Fifo

theorem run_fifo (calls : List Call) : Fifo (System.run calls).ledger.view := by
  refine List.foldlRecOn (motive := fun s : System => Fifo s.ledger.view) calls _ ⟨?_, ?_, ?_, ?_⟩ ?_
  · intro i _ hp
    simp [Ledger.view] at hp
  · intro i _ hl
    simp [Ledger.view] at hl
  · intro i j _ _ hp
    simp [Ledger.view] at hp
  · intro i j _ _ hp
    simp [Ledger.view] at hp
  · intro s h c _
    exact Edits.invariant (fun v _ _ _ h he => Fifo.edit h he) (s.step_edits c []) h

/-! ## The work flag -/

/-- The service has to look at this slot. -/
def Slot.needsOwner (s : Slot) : Prop :=
  s.state = .queued ∨ (s.cancel = true ∧ (s.state = .prepared ∨ s.state = .pending)) ∨
    (s.state = .completed ∧ s.caller = false)

attribute [local simp] Slot.needsOwner

/-- The flag is set if any slot needs the service. -/
def Ledger.Attended (l : Ledger) : Prop :=
  ∀ i, i < HANDOFF_SLOTS → (l.slots i).needsOwner → l.handoffOwnerReady = true

namespace Ledger

variable {l l' : Ledger}

theorem Attended.of_work (h : l.work = true) : l.Attended := fun _ _ _ => h

/-- No slot starts to need the service, and the flag stays. -/
theorem Attended.mono (h : l.Attended) (hw : l'.work = l.work)
    (hs : ∀ i, i < HANDOFF_SLOTS → (l'.slots i).needsOwner → (l.slots i).needsOwner) : l'.Attended := by
  intro i hi hn
  rw [handoffOwnerReady, hw]
  exact h i hi (hs i hi hn)

theorem Attended.set {i : Nat} {s : Slot} (h : l.Attended) (hw : l'.work = l.work)
    (hl : l'.slots = update l.slots i s) (hs : ¬ s.needsOwner) : l'.Attended := by
  refine h.mono hw ?_
  intro j _ hn
  rw [hl] at hn
  by_cases hij : j = i
  · subst hij
    exact absurd (by simpa using hn) hs
  · simpa [hij] using hn

/-- The scan at the end of an acknowledgement finds every such slot. -/
theorem rescan_attended (l : Ledger) : l.rescan.Attended := by
  unfold rescan
  split
  · exact .of_work rfl
  rename_i hnone
  intro i hi hn
  apply absurd _ hnone
  simp only [List.any_eq_true, List.mem_range]
  refine ⟨i, hi, ?_⟩
  rcases hn with h | ⟨hc, h | h⟩ | ⟨h, hc⟩
  · simp [runnable, h]
  · simp [runnable, h, hc]
  · simp [runnable, h, hc]
  · simp [runnable, h, hc]

theorem pendingLoop_attended (n : Nat) (h : l.Attended) : (l.pendingLoop n).2.Attended := by
  induction n generalizing l with
  | zero => exact h
  | succ n ih =>
    unfold pendingLoop
    dsimp only
    split
    · exact ih h
    · exact h.set rfl rfl (by simp)

end Ledger

theorem System.step_attended (s : System) (c : Call) (h : s.ledger.Attended) : (s.step c).ledger.Attended := by
  cases c with
  | notify | fail | cleaned t => exact .of_work rfl
  | start =>
    simp only [step, Ledger.handoffStart]
    split <;> exact h
  | begin k req =>
    simp only [step, Ledger.handoffBegin]
    repeat (split; · exact h)
    exact h.set rfl rfl (by simp)
  | publish t =>
    simp only [step, Ledger.handoffPublish]
    split
    · exact h
    split
    · split
      · exact h
      split
      · exact h
      split <;> exact .of_work rfl
    · split <;> exact h
  | claim =>
    simp only [step, Ledger.handoffClaim]
    split
    · exact h
    · exact h.set rfl rfl (by simp)
  | pending =>
    exact Ledger.pendingLoop_attended _ h
  | finish t reply p =>
    simp only [step, Ledger.handoffFinish]
    split
    · split
      · split
        · exact .of_work rfl
        rename_i hc
        exact h.set rfl rfl (by simp [hc])
      · exact .of_work rfl
    · exact h
  | cancel t =>
    simp only [step, Ledger.handoffCancel]
    split
    · exact .of_work rfl
    · exact h
  | release k =>
    simp only [step, Ledger.handoffRelease]
    split
    · exact h
    split
    · exact .of_work rfl
    · exact h
  | collect t => exact h
  | acknowledge =>
    simp only [step, Ledger.handoffAcknowledge]
    exact Ledger.rescan_attended _
  | inspect => exact h

theorem run_attended (calls : List Call) : (System.run calls).ledger.Attended := by
  refine List.foldlRecOn (motive := fun s : System => s.ledger.Attended) calls _ ?_ fun s h c _ => s.step_attended c h
  intro i _ hn
  simp at hn

/-- **First come, first served, and no lost work.** After any sequence of calls, published requests
have different tickets; of two of one class that are not cancelled, the one with the larger ticket
is not queued before the other is and not claimed before the other was; and the flag the service
sleeps on is set whenever a slot is queued, is cancelled while prepared or pending, or is completed
and abandoned. -/
theorem handoff_fifo_attended (calls : List Call) :
    let l := (System.run calls).ledger
    (∀ i j, i < HANDOFF_SLOTS → j < HANDOFF_SLOTS → (l.slots i).published = true → (l.slots j).published = true →
      (l.slots i).ticket = (l.slots j).ticket → i = j) ∧
    (∀ i j, i < HANDOFF_SLOTS → j < HANDOFF_SLOTS → (l.slots i).published = true → (l.slots j).published = true →
      (l.slots i).cancel = false → (l.slots j).cancel = false →
      (l.slots i).request.control = (l.slots j).request.control → (l.slots i).ticket < (l.slots j).ticket →
      (l.slots j).stage ≤ (l.slots i).stage) ∧
    (∀ i, i < HANDOFF_SLOTS → (l.slots i).needsOwner → l.handoffOwnerReady = true) := by
  have h := run_fifo calls
  exact ⟨h.distinct, h.order, run_attended calls⟩

end Fortress.Handoff
