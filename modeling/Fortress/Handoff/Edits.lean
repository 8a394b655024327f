/-
The handoff ledger as a protocol. What matters of the ledger are its slots and
the ticket counter; an edit is one change of them, labelled with what an
observer of the calls may log. Credits, cursors and the work flag are not
part of it. Every call of the interface is a sequence of edits, so what edits
keep, every run keeps.
-/
import Fortress.Handoff.Ledger

namespace Fortress.Handoff

open Function

/-- What the interface lets an observer see. -/
inductive Entry where
  | began (t : Token) (req : Request)
  | claimed (t : Token) (req : Request)
  | finished (t : Token) (reply : Reply)
  | expired (t : Token) (reply : Reply)
  | cancelled (t : Token)
  | failed
  | released (t : Token)
  | cleaned (t : Token)
  | collected (t : Token) (reply : Reply)
  | recycled (t : Token)
deriving DecidableEq

def Entry.token : Entry → Option Token
  | .began t _ | .claimed t _ | .finished t _ | .expired t _ | .cancelled t => some t
  | .released t | .cleaned t | .collected t _ | .recycled t => some t
  | .failed => none

structure View where
  slots : Nat → Slot
  nextTicket : UInt64

def Ledger.view (l : Ledger) : View := ⟨l.slots, l.nextTicket⟩

namespace View

def set (v : View) (i : Nat) (s : Slot) : View := { v with slots := Function.update v.slots i s }

def token (v : View) (i : Nat) : Token := ⟨(v.slots i).generation, i⟩

@[grind =] theorem set_slots (v : View) (i : Nat) (s : Slot) (j : Nat) :
    (v.set i s).slots j = if j = i then s else v.slots j := update_apply ..

@[grind =] theorem set_nextTicket (v : View) (i : Nat) (s : Slot) : (v.set i s).nextTicket = v.nextTicket := rfl

end View

/-- The slot after `handoff_begin`. -/
def Slot.fresh (s : Slot) (req : Request) : Slot :=
  { generation := if s.generation == 0 then 1 else s.generation
    request := req, ticket := 0, caller := true, cancel := false, cleaned := !req.retained
    reply := {}, state := .prepared }

def Slot.released (s : Slot) : Slot := { s with caller := false, cancel := s.cancel || s.state != .completed }

def Slot.failed (s : Slot) : Slot := if s.live && s.state != .completed then { s with cancel := true } else s

def Slot.recycled (s : Slot) : Slot :=
  if s.generation == 0xffffffffffffffff then { s with state := .retired }
  else { s with generation := s.generation + 1, state := .free }

attribute [local simp] View.set

/-- Nobody of the class of `i` with property `p` has a smaller ticket. -/
def View.First (v : View) (p : Slot → Bool) (i : Nat) : Prop :=
  ∀ j, j < HANDOFF_SLOTS → p (v.slots j) = true → (v.slots j).request.control = (v.slots i).request.control →
    ¬ (v.slots j).ticket < (v.slots i).ticket

/-- One change of the slots, with its label. -/
inductive Edit (v : View) : Option Entry → View → Prop
  | begin {i req} : i < HANDOFF_SLOTS → (v.slots i).state = .free → req.actor ≠ 0 →
      (∀ j, j < HANDOFF_SLOTS → (v.slots j).live = true → (v.slots j).request.actor ≠ req.actor) →
      Edit v (some (.began ⟨((v.slots i).fresh req).generation, i⟩ req)) (v.set i ((v.slots i).fresh req))
  | ticket {i} : i < HANDOFF_SLOTS → (v.slots i).state = .prepared → (v.slots i).ticket = 0 →
      v.nextTicket ≠ 0xffffffffffffffff →
      Edit v none { v.set i { v.slots i with ticket := v.nextTicket + 1 } with nextTicket := v.nextTicket + 1 }
  | queue {i} : i < HANDOFF_SLOTS → Ledger.waiting (v.slots i) = true → v.First Ledger.waiting i →
      Edit v none (v.set i { v.slots i with state := .queued })
  | claim {i} : i < HANDOFF_SLOTS → (v.slots i).claimable = true → v.First Slot.claimable i →
      Edit v (some (.claimed (v.token i) (v.slots i).request)) (v.set i { v.slots i with state := .claimed })
  | resume {i} : i < HANDOFF_SLOTS → (v.slots i).state = .pending →
      Edit v (some (.claimed (v.token i) (v.slots i).request)) (v.set i { v.slots i with state := .claimed })
  | pend {i} : i < HANDOFF_SLOTS → (v.slots i).state = .claimed →
      Edit v none (v.set i { v.slots i with state := .pending })
  | finish {i reply} : i < HANDOFF_SLOTS → (v.slots i).state = .claimed →
      Edit v (some (.finished (v.token i) reply)) (v.set i { v.slots i with reply, state := .completed })
  | cancel {i} : i < HANDOFF_SLOTS → (v.slots i).live = true →
      Edit v (some (.cancelled (v.token i))) (v.set i { v.slots i with cancel := true })
  | fail : Edit v (some .failed)
      { v with slots := fun i => if i < HANDOFF_SLOTS then (v.slots i).failed else v.slots i }
  | release {i} : i < HANDOFF_SLOTS → (v.slots i).live = true →
      Edit v (some (.released (v.token i))) (v.set i (v.slots i).released)
  | collect {i} : i < HANDOFF_SLOTS → (v.slots i).state = .completed → (v.slots i).caller = true →
      Edit v (some (.collected (v.token i) (v.slots i).reply)) v
  | expire {i} : i < HANDOFF_SLOTS → Ledger.expires (v.slots i) = true →
      Edit v (some (.expired (v.token i) (Ledger.cancelReply (v.slots i).request)))
        (v.set i { v.slots i with reply := Ledger.cancelReply (v.slots i).request, state := .completed })
  | clean {i} : i < HANDOFF_SLOTS → (v.slots i).state = .completed → (v.slots i).caller = false →
      Edit v (some (.cleaned (v.token i))) (v.set i { v.slots i with cleaned := true })
  | recycle {i} : i < HANDOFF_SLOTS → (v.slots i).state = .completed → (v.slots i).caller = false →
      (v.slots i).cleaned = true → Edit v (some (.recycled (v.token i))) (v.set i (v.slots i).recycled)

/-- A sequence of edits, with the log it adds to (newest entry first). -/
def Edits : View × List Entry → View × List Entry → Prop :=
  Relation.ReflTransGen fun a b => ∃ e, Edit a.1 e b.1 ∧ b.2 = e.toList ++ a.2

theorem Edits.refl (a : View × List Entry) : Edits a a := Relation.ReflTransGen.refl

theorem Edits.trans {a b c : View × List Entry} (h : Edits a b) (h' : Edits b c) : Edits a c :=
  Relation.ReflTransGen.trans h h'

theorem Edits.quiet {v v' : View} (log : List Entry) (h : Edit v none v') : Edits (v, log) (v', log) :=
  Relation.ReflTransGen.single ⟨none, h, rfl⟩

theorem Edits.logged {v v' : View} {e e' : Entry} (log : List Entry) (h : Edit v (some e) v') (he : e = e' := by rfl) :
    Edits (v, log) (v', e' :: log) :=
  he ▸ Relation.ReflTransGen.single ⟨some e, h, rfl⟩

/-- What every edit keeps, every sequence of edits keeps. -/
theorem Edits.invariant {I : View → List Entry → Prop}
    (hstep : ∀ v log e v', I v log → Edit v e v' → I v' (e.toList ++ log)) {a b : View × List Entry}
    (h : Edits a b) (ha : I a.1 a.2) : I b.1 b.2 := by
  induction h with
  | refl => exact ha
  | tail _ hst ih =>
    obtain ⟨e, he, hlog⟩ := hst
    rw [hlog]
    exact hstep _ _ _ _ ih he

theorem lt_succ_of_ne_max {n : UInt64} (h : n ≠ 0xffffffffffffffff) : n < n + 1 := by
  have hmax : n.toNat ≠ 0xffffffffffffffff := fun hn => h (UInt64.toNat.inj hn)
  have := n.toNat_lt
  rw [UInt64.lt_iff_toNat_lt, UInt64.toNat_add]
  simp
  omega

/-! ## What the calls log -/

namespace Ledger

/-- What an acknowledgement shows of a slot `s` that becomes `s'`: that it was completed, and then
that it was recycled. -/
def ackShown (t : Token) (s s' : Slot) : List Entry :=
  (if s.live && !s'.live then [.recycled t] else []) ++
    (if (s.state == .prepared || s.state == .queued) && s'.state != s.state then [.expired t s'.reply] else [])

/-- What `handoff_acknowledge` does to the slot it looks at. -/
def ackEntries (l : Ledger) : List Entry :=
  ackShown (l.token l.ackIndex) (l.slots l.ackIndex) (l.ackNext.slots l.ackIndex)

def ackLog (l : Ledger) : Nat → List Entry
  | 0 => []
  | n + 1 => ackLog l.ackNext n ++ l.ackEntries

end Ledger

/-- The entries a call adds, from its arguments and results. Those of a call without a result
are the calls that took effect. -/
def System.observe (s : System) : Call → List Entry
  | .fail => [.failed]
  | .begin k req =>
    match s.ledger.handoffBegin (s.regs k) req with
    | (.ok, r, _) => [.began r.token req]
    | _ => []
  | .claim => s.ledger.handoffClaim.1.elim [] fun c => [.claimed c.1 c.2]
  | .pending => s.ledger.handoffPending.1.elim [] fun c => [.claimed c.1 c.2]
  | .finish t reply p => if (s.ledger.handoffFinish t reply p).1 && !p then [.finished t reply] else []
  | .cancel t => if s.ledger.matchesToken t then [.cancelled t] else []
  | .release k =>
    if (s.regs k).active && s.ledger.matchesToken (s.regs k).token then [.released (s.regs k).token] else []
  | .collect t =>
    match s.ledger.handoffCollect t with
    | (.ok, some reply) => [.collected t reply]
    | _ => []
  | .cleaned t =>
    if s.ledger.matchesToken t && (s.ledger.slots t.slot).state == .completed && !(s.ledger.slots t.slot).caller then
      [.cleaned t]
    else []
  | .acknowledge => Ledger.ackLog { s.ledger with work := false } 8
  | .notify | .start | .publish _ | .inspect => []

/-! ## Every call is a sequence of edits -/

namespace Ledger

variable {l : Ledger} {log : List Entry} {t : Token}

@[simp] theorem view_slots : l.view.slots = l.slots := rfl

theorem matches_token (h : l.matchesToken t = true) :
    t.slot < HANDOFF_SLOTS ∧ (l.slots t.slot).live = true ∧ l.view.token t.slot = t ∧ t.generation ≠ 0 := by
  simp only [matchesToken, Bool.and_eq_true, decide_eq_true_eq, bne_iff_ne, beq_iff_eq] at h
  obtain ⟨⟨⟨hs, hg⟩, he⟩, hl⟩ := h
  refine ⟨hs, hl, ?_, hg⟩
  obtain ⟨g, i⟩ := t
  exact congrArg (Token.mk · i) he

variable {i : Nat}

theorem eligible_first (h : l.eligible (l.slots i) = true) : l.view.First waiting i := by
  intro j hj hw hc hlt
  simp only [eligible, Bool.and_eq_true, List.all_eq_true, List.mem_range] at h
  have := h.2 j hj
  simp only [view_slots] at hw hc hlt
  simp [hw, hc, hlt] at this

theorem handoffFail_edits : Edits (l.view, log) (l.handoffFail.view, .failed :: log) := by
  have hv : l.handoffFail.view =
      { l.view with slots := fun i => if i < HANDOFF_SLOTS then (l.view.slots i).failed else l.view.slots i } := by
    simp only [handoffFail, hint, view, View.mk.injEq, and_true]
    funext i
    by_cases hi : i < HANDOFF_SLOTS <;> simp [hi, Slot.failed]
  rw [hv]
  exact Edits.logged log .fail

theorem handoffBegin_edits (r : Registration) (req : Request) :
    Edits (l.view, log) ((l.handoffBegin r req).2.2.view,
      (match l.handoffBegin r req with
        | (.ok, r, _) => [.began r.token req]
        | _ => []) ++ log) := by
  unfold handoffBegin
  split
  · exact .refl _
  rename_i hr
  split
  · exact .refl _
  split
  · exact .refl _
  split
  · exact .refl _
  rename_i hactor
  split
  · exact .refl _
  rename_i i hi
  have hmem := List.mem_range.1 (List.mem_of_find?_eq_some hi)
  have hfree : (l.slots i).state = .free := by simpa using List.find?_some hi
  refine Edits.logged log (.begin hmem hfree ?_ ?_)
  · simp only [Bool.or_eq_true, beq_iff_eq, not_or] at hr
    exact hr.2
  intro j hj hl he
  apply hactor
  simp only [List.any_eq_true, List.mem_range, Bool.and_eq_true, beq_iff_eq]
  exact ⟨j, hj, hl, he⟩

theorem enqueue_edits (hi : i < HANDOFF_SLOTS) (hw : waiting (l.slots i) = true)
    (he : l.eligible (l.slots i) = true) : Edits (l.view, log) ((l.enqueue i).view, log) :=
  Edits.quiet log (.queue hi hw (eligible_first he))

/-- A prepared request that gets its ticket waits for its turn. -/
theorem giveTicket_edits (hi : i < HANDOFF_SLOTS) (hp : (l.slots i).state = .prepared)
    (hcaller : (l.slots i).caller = true) (hcancel : (l.slots i).cancel = false)
    (hn : (l.slots i).ticket = 0 → l.nextTicket ≠ 0xffffffffffffffff) :
    Edits (l.view, log) ((l.giveTicket i).view, log) ∧ waiting ((l.giveTicket i).slots i) = true := by
  unfold giveTicket
  split
  · rename_i hz
    have hz : (l.slots i).ticket = 0 := by simpa using hz
    have hsucc : l.nextTicket + 1 ≠ 0 := by
      intro h
      have := lt_succ_of_ne_max (hn hz)
      rw [h] at this
      exact UInt64.not_lt_zero this
    refine ⟨Edits.quiet log (.ticket hi hp hz (hn hz)), ?_⟩
    simp [waiting, set, hp, hcaller, hcancel, hsucc]
  · rename_i hz
    exact ⟨.refl _, by simp [waiting, hp, hcaller, hcancel] at hz ⊢; exact hz⟩

theorem handoffPublish_edits : Edits (l.view, log) ((l.handoffPublish t).2.view, log) := by
  unfold handoffPublish
  split
  · exact .refl _
  rename_i hm
  obtain ⟨hi, -, -, -⟩ := matches_token (by simpa using hm)
  dsimp only
  split
  · rename_i hp
    simp only [Bool.and_eq_true, beq_iff_eq, Bool.not_eq_true'] at hp
    obtain ⟨⟨hp, hcaller⟩, hcancel⟩ := hp
    split
    · exact .refl _
    rename_i hmax
    split
    · exact .refl _
    have hn : (l.slots t.slot).ticket = 0 → l.nextTicket ≠ 0xffffffffffffffff := by
      intro hz
      simpa [hz] using hmax
    obtain ⟨hgive, hw⟩ := giveTicket_edits hi hp hcaller hcancel hn
    split
    · rename_i he
      exact hgive.trans (enqueue_edits (l := (l.giveTicket t.slot).hint) hi hw he)
    · exact hgive
  · split <;> exact .refl _

/-! ### Claiming -/

theorem mem_claimOrder (hi : i < HANDOFF_SLOTS) : i ∈ l.claimOrder := by
  simp only [claimOrder, List.mem_map, List.mem_range]
  simp only [HANDOFF_SLOTS] at *
  exact ⟨(i + 64 - l.claimCursor % 64) % 64, by omega, by omega⟩

theorem lt_of_mem_claimOrder (hi : i ∈ l.claimOrder) : i < HANDOFF_SLOTS := by
  simp only [claimOrder, List.mem_map, List.mem_range] at hi
  obtain ⟨j, -, rfl⟩ := hi
  exact Nat.mod_lt _ (by decide)

theorem candidate_first {control : Bool} (h : l.candidate control l.claimOrder = some i) :
    i < HANDOFF_SLOTS ∧ (l.slots i).claimable = true ∧ l.view.First Slot.claimable i := by
  obtain ⟨hmem, hok⟩ := scanBest_mem h
  simp only [Bool.and_eq_true, beq_iff_eq] at hok
  refine ⟨lt_of_mem_claimOrder hmem, hok.1, ?_⟩
  intro j hj hc hcontrol hlt
  have hirr : ∀ a, decide ((l.slots a).ticket < (l.slots a).ticket) = false := by
    intro a
    simp
  have htrans : ∀ a b c, decide ((l.slots a).ticket < (l.slots b).ticket) = true →
      decide ((l.slots b).ticket < (l.slots c).ticket) = true →
      decide ((l.slots a).ticket < (l.slots c).ticket) = true := by
    intro a b c hab hbc
    simp only [decide_eq_true_eq] at *
    exact UInt64.lt_trans hab hbc
  simp only [view_slots] at hc hcontrol hlt
  have hle := scanBest_le hirr htrans h j (mem_claimOrder hj) (by simp [hc, hcontrol, hok.2])
  simp [hlt] at hle

theorem claimChoice_first (h : l.claimChoice = some i) :
    i < HANDOFF_SLOTS ∧ (l.slots i).claimable = true ∧ l.view.First Slot.claimable i := by
  unfold claimChoice at h
  dsimp only at h
  split at h
  · split at h <;> exact candidate_first h
  · split at h <;> exact candidate_first h

theorem handoffClaim_edits :
    Edits (l.view, log) (l.handoffClaim.2.view, l.handoffClaim.1.elim [] (fun c => [.claimed c.1 c.2]) ++ log) := by
  unfold handoffClaim
  split
  · exact .refl _
  rename_i i hi
  obtain ⟨hlt, hc, hfirst⟩ := claimChoice_first hi
  exact Edits.logged log (.claim hlt hc hfirst)

theorem pendingLoop_edits (n : Nat) (l : Ledger) :
    Edits (l.view, log)
      ((l.pendingLoop n).2.view, (l.pendingLoop n).1.elim [] (fun c => [.claimed c.1 c.2]) ++ log) := by
  induction n generalizing l with
  | zero => exact .refl _
  | succ n ih =>
    unfold pendingLoop
    dsimp only
    split
    · exact ih { l with pendingCursor := l.pendingCursor + 1 }
    rename_i hp
    have hp : (l.slots (l.pendingCursor.toNat % HANDOFF_SLOTS)).state = .pending := by simpa using hp
    exact Edits.logged log (.resume (Nat.mod_lt _ (by decide)) hp)

/-! ### Calls with a token -/

theorem handoffFinish_edits (reply : Reply) (p : Bool) :
    Edits (l.view, log) ((l.handoffFinish t reply p).2.view,
      (if (l.handoffFinish t reply p).1 && !p then [.finished t reply] else []) ++ log) := by
  unfold handoffFinish
  dsimp only
  split
  · rename_i h
    simp only [Bool.and_eq_true, beq_iff_eq] at h
    obtain ⟨hi, -, ht, -⟩ := matches_token h.1
    cases p with
    | true =>
      have := Edits.quiet log (Edit.pend (v := l.view) hi h.2)
      simp only [if_true, Bool.not_true, Bool.and_false, Bool.false_eq_true, if_false, List.nil_append]
      split <;> exact this
    | false =>
      exact Edits.logged log (Edit.finish hi h.2) (by rw [ht])
  · exact .refl _

theorem handoffCancel_edits :
    Edits (l.view, log) ((l.handoffCancel t).view, (if l.matchesToken t then [.cancelled t] else []) ++ log) := by
  unfold handoffCancel
  split
  · rename_i h
    obtain ⟨hi, hl, ht, -⟩ := matches_token h
    exact Edits.logged log (Edit.cancel hi hl) (by rw [ht])
  · exact .refl _

theorem handoffRelease_edits (r : Registration) :
    Edits (l.view, log) ((l.handoffRelease r).2.view,
      (if r.active && l.matchesToken r.token then [.released r.token] else []) ++ log) := by
  unfold handoffRelease
  cases hr : r.active with
  | false => exact .refl _
  | true =>
    simp only [Bool.not_true, Bool.false_eq_true, if_false, Bool.true_and]
    split
    · rename_i h
      obtain ⟨hi, hl, ht, -⟩ := matches_token h
      exact Edits.logged log (Edit.release hi hl) (by rw [ht])
    · exact .refl _

theorem handoffCollect_edits :
    Edits (l.view, log) (l.view,
      (match l.handoffCollect t with
        | (.ok, some reply) => [.collected t reply]
        | _ => []) ++ log) := by
  unfold handoffCollect
  by_cases h : (l.matchesToken t && (l.slots t.slot).caller) = true
  · rw [if_pos h]
    simp only [Bool.and_eq_true] at h
    obtain ⟨hi, -, ht, -⟩ := matches_token h.1
    by_cases hs : (l.slots t.slot).state = .completed
    · simpa [hs] using Edits.logged log (Edit.collect hi hs h.2) (by rw [ht, view_slots])
    · simpa [hs] using Edits.refl (l.view, log)
  · rw [if_neg h]
    exact .refl _

theorem handoffCleaned_edits :
    Edits (l.view, log) ((l.handoffCleaned t).view,
      (if l.matchesToken t && (l.slots t.slot).state == .completed && !(l.slots t.slot).caller then [.cleaned t]
        else []) ++ log) := by
  unfold handoffCleaned
  dsimp only
  split
  · rename_i h
    simp only [Bool.and_eq_true, beq_iff_eq, Bool.not_eq_true'] at h
    obtain ⟨hi, -, ht, -⟩ := matches_token h.1.1
    exact Edits.logged log (Edit.clean hi h.1.2 h.2) (by rw [ht])
  · exact .refl _

/-! ### Acknowledging -/

theorem promoteLoop_edits (n : Nat) (l : Ledger) : Edits (l.view, log) ((l.promoteLoop n).view, log) := by
  induction n generalizing l with
  | zero => exact .refl _
  | succ n ih =>
    unfold promoteLoop
    split
    · exact .refl _
    split
    · exact .refl _
    rename_i i hi
    obtain ⟨hmem, hok⟩ := scanBest_mem hi
    simp only [Bool.and_eq_true] at hok
    exact (enqueue_edits (List.mem_range.1 hmem) hok.1 hok.2).trans
      (ih { l.enqueue i with admissionSequence := l.admissionSequence + 1 })

/-- The slot once it is completed by a cancellation. -/
def expired (s : Slot) : Slot :=
  if expires s then { s with reply := cancelReply s.request, state := .completed } else s

def disposable (s : Slot) : Bool := s.state == .completed && !s.caller && s.cleaned

theorem expireSlot_view (i : Nat) : (l.expireSlot i).view = l.view.set i (expired (l.slots i)) := by
  unfold expireSlot expired
  dsimp only
  split
  · split <;> rfl
  · simp [view]

theorem recycleSlot_view (i : Nat) :
    (l.recycleSlot i).view = if disposable (l.slots i) then l.view.set i (l.slots i).recycled else l.view := by
  unfold recycleSlot disposable
  dsimp only
  split <;> rfl

theorem expired_edits (hi : i < HANDOFF_SLOTS) :
    Edits (l.view, log) (l.view.set i (expired (l.slots i)),
      (if expires (l.slots i) then [.expired (l.token i) (cancelReply (l.slots i).request)] else []) ++ log) := by
  unfold expired
  split
  · rename_i he
    exact Edits.logged log (.expire hi he)
  · rw [View.set, view_slots, update_eq_self]
    exact .refl _

theorem ackNext_view :
    l.ackNext.view =
      if disposable (expired (l.slots l.ackIndex)) then l.view.set l.ackIndex (expired (l.slots l.ackIndex)).recycled
      else l.view.set l.ackIndex (expired (l.slots l.ackIndex)) := by
  have hv := expireSlot_view (l := { l with ackCursor := l.ackCursor + 1 }) l.ackIndex
  have hs : (expireSlot { l with ackCursor := l.ackCursor + 1 } l.ackIndex).slots l.ackIndex =
      expired (l.slots l.ackIndex) := by
    rw [← view_slots, hv]
    simp
  unfold ackNext
  rw [recycleSlot_view, hs, hv]
  split
  · simp [view]
  · rfl

theorem expires_state {s : Slot} (h : expires s = true) : s.state = .prepared ∨ s.state = .queued := by
  simp only [expires, Bool.and_eq_true, Bool.or_eq_true, beq_iff_eq] at h
  exact h.1

theorem recycled_live (s : Slot) : s.recycled.live = false := by
  unfold Slot.recycled
  split <;> rfl

theorem recycled_reply (s : Slot) : s.recycled.reply = s.reply := by
  unfold Slot.recycled
  split <;> rfl

theorem disposable_state {s : Slot} (h : disposable s = true) :
    s.state = .completed ∧ s.caller = false ∧ s.cleaned = true := by
  simp only [disposable, Bool.and_eq_true, beq_iff_eq, Bool.not_eq_true'] at h
  exact ⟨h.1.1, h.1.2, h.2⟩

theorem ackShown_expired (t : Token) (s : Slot) :
    ackShown t s (expired s) = if expires s then [.expired t (cancelReply s.request)] else [] := by
  unfold expired
  split
  · rename_i he
    rcases expires_state he with h | h <;> simp [ackShown, Slot.live, h]
  · simp [ackShown]

theorem ackShown_recycled (t : Token) (s : Slot) (hd : disposable (expired s) = true) :
    ackShown t s (expired s).recycled =
      .recycled t :: if expires s then [.expired t (cancelReply s.request)] else [] := by
  have hlive : s.live = true := by
    unfold expired at hd
    split at hd
    · rename_i he
      rcases expires_state he with h | h <;> simp [Slot.live, h]
    · simp [Slot.live, (disposable_state hd).1]
  have hstate : (expired s).recycled.state = .free ∨ (expired s).recycled.state = .retired := by
    unfold Slot.recycled
    split
    · exact .inr rfl
    · exact .inl rfl
  unfold ackShown
  rw [recycled_live, recycled_reply]
  by_cases he : expires s = true
  · have hreply : (expired s).reply = cancelReply s.request := by simp [expired, he]
    rcases expires_state he with h | h <;> rcases hstate with h' | h' <;> simp [hlive, h, h', he, hreply]
  have hs : expired s = s := by simp [expired, he]
  have := (disposable_state (hs ▸ hd)).1
  simp [hlive, he, this]

theorem ackNext_edits : Edits (l.view, log) (l.ackNext.view, l.ackEntries ++ log) := by
  have hi : l.ackIndex < HANDOFF_SLOTS := Nat.mod_lt _ (by decide)
  have hfirst : Edits (l.view, log) _ := expired_edits hi
  have hslot : l.ackNext.slots l.ackIndex = l.ackNext.view.slots l.ackIndex := rfl
  rw [ackEntries, hslot, ackNext_view]
  split
  · rename_i hd
    obtain ⟨hs, hcaller, hcleaned⟩ := disposable_state hd
    simp only [View.set, update_self, ackShown_recycled _ _ hd]
    refine hfirst.trans ?_
    have hrec := Edit.recycle (v := l.view.set l.ackIndex (expired (l.slots l.ackIndex))) hi
      (by simpa using hs) (by simpa using hcaller) (by simpa using hcleaned)
    have hgen : (expired (l.slots l.ackIndex)).generation = (l.slots l.ackIndex).generation := by
      unfold expired; split <;> rfl
    simp only [View.set, View.token, update_self, update_idem, view_slots, hgen] at hrec
    exact Edits.logged _ hrec
  · simpa [ackShown_expired] using hfirst

theorem ackLog_edits (n : Nat) (l : Ledger) :
    Edits (l.view, log) ((Nat.iterate ackNext n l).view, l.ackLog n ++ log) := by
  induction n generalizing l log with
  | zero => exact .refl _
  | succ n ih =>
    rw [ackLog, List.append_assoc]
    exact ackNext_edits.trans (ih l.ackNext)

theorem handoffAcknowledge_edits :
    Edits (l.view, log) (l.handoffAcknowledge.2.view, Ledger.ackLog { l with work := false } 8 ++ log) := by
  unfold handoffAcknowledge
  have hscan : ∀ l : Ledger, l.rescan.view = l.view := fun l => by unfold rescan; split <;> rfl
  rw [hscan]
  exact (ackLog_edits 8 { l with work := false }).trans (promoteLoop_edits 8 _)

end Ledger

/-- **Every call is a sequence of edits**, and they log what the call shows. -/
theorem System.step_edits (s : System) (c : Call) (log : List Entry) :
    Edits (s.ledger.view, log) ((s.step c).ledger.view, s.observe c ++ log) := by
  cases c with
  | notify => exact .refl _
  | start =>
    simp only [step, Ledger.handoffStart]
    split <;> exact .refl _
  | fail => exact Ledger.handoffFail_edits
  | begin k req => exact Ledger.handoffBegin_edits (s.regs k) req
  | publish t => exact Ledger.handoffPublish_edits
  | claim => exact Ledger.handoffClaim_edits
  | pending =>
    exact Ledger.pendingLoop_edits _ _
  | finish t reply p => exact Ledger.handoffFinish_edits reply p
  | cancel t => exact Ledger.handoffCancel_edits
  | release k => exact Ledger.handoffRelease_edits (s.regs k)
  | collect t => exact Ledger.handoffCollect_edits
  | acknowledge =>
    simp only [step, observe]
    exact Ledger.handoffAcknowledge_edits
  | inspect => exact .refl _
  | cleaned t => exact Ledger.handoffCleaned_edits

end Fortress.Handoff
