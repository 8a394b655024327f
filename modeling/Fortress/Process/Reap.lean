/-
Reaping. A process has a record, and if its parent may wait for it also a child
record with the status to come. The child record goes when the parent takes the
final status, when the parent exits, or when the creation is undone. The
process record goes when the process is torn down and the child record is gone,
whichever comes last.

That a torn down process keeps its record until the status is taken rests on
one order: its exit is published before it is forgotten. The scheduler's reaper
makes the two calls in that order (`Orderly`).

Calls either leave everything that matters here alone (`Quiet`), or take
records away (`Shrink`), or create a process.
-/
import Fortress.Lib.Machine
import Fortress.Process.Calls

namespace Fortress.Process

open List

namespace Table

variable {t t' t₁ t₂ t₃ : Table} {i k pid : Nat} {r : Record} {c : Child}

/-- Record `i` is the process `pid`. -/
def Holds (t : Table) (i pid : Nat) : Prop := (t.processes i).used = true ∧ (t.processes i).pid = pid

/-- Child record `k` is about the process `pid`. -/
def Awaits (t : Table) (k pid : Nat) : Prop := (t.children k).used = true ∧ (t.children k).pid = pid

/-- Records and child records after any calls in the right order. `P` exempts the child records an exit
has yet to visit. -/
structure ReapInv (P : Nat → Nat → Prop) (t : Table) : Prop where
  recordRange : ∀ i, (t.processes i).used = true → i < PROCESS_CAPACITY
  childRange : ∀ k, (t.children k).used = true → k < PROCESS_CAPACITY
  pids : ∀ i j pid, t.Holds i pid → t.Holds j pid → i = j
  kids : ∀ k l pid, t.Awaits k pid → t.Awaits l pid → k = l
  held : ∀ k pid, t.Awaits k pid → ∃ i, t.Holds i pid
  parents : ∀ k pid, t.Awaits k pid → 0 < pid ∧ (t.children k).parent ≠ pid
  seqs : ∀ k, (t.children k).used = true → (t.children k).reportedSeq ≤ (t.children k).eventSeq ∧
    ((t.children k).done = true → (t.children k).reportedSeq < (t.children k).eventSeq)
  marked : ∀ k i pid, t.Awaits k pid → ¬ P k pid → t.Holds i pid → (t.processes i).exited = true →
    (t.processes i).uncollected = true
  torn : ∀ i, (t.processes i).used = true → (t.processes i).teardownComplete = true →
    (t.processes i).uncollected = true
  waited : ∀ i pid, t.Holds i pid → (t.processes i).uncollected = true → ∃ k, t.Awaits k pid

/-- The invariant between calls. -/
abbrev Reaping : Table → Prop := ReapInv fun _ _ => False

variable {P Q : Nat → Nat → Prop}

theorem ReapInv.mono (h : ReapInv P t) (hpq : ∀ k pid, t.Awaits k pid → P k pid → Q k pid) : ReapInv Q t :=
  { h with marked := fun k i pid hk hq => h.marked k i pid hk fun hp => hq (hpq k pid hk hp) }

theorem ReapInv.find_eq (h : ReapInv P t) : t.find pid = some i ↔ t.Holds i pid := by
  constructor
  · intro hf
    exact (find_spec hf).2
  intro hi
  cases hf : t.find pid with
  | none =>
    have := find?_eq_none.1 hf i (mem_range.2 (h.recordRange i hi.1))
    simp [hi.1, hi.2] at this
  | some j =>
    rw [h.pids i j pid hi (find_spec hf).2]

/-- Records and child records that stay are of the processes they were of, and a process that is waited for
keeps its record. -/
theorem ReapInv.kept (h : ReapInv P t) (hh : ∀ i q, t'.Holds i q → t.Holds i q)
    (ha : ∀ k q, t'.Awaits k q → t.Awaits k q ∧ (t'.children k).parent = (t.children k).parent)
    (hheld : ∀ k i q, t'.Awaits k q → t.Holds i q → t'.Holds i q)
    (hseqs : ∀ k, (t'.children k).used = true → (t'.children k).reportedSeq ≤ (t'.children k).eventSeq ∧
      ((t'.children k).done = true → (t'.children k).reportedSeq < (t'.children k).eventSeq))
    (hmarked : ∀ k i q, t'.Awaits k q → ¬ Q k q → t'.Holds i q → (t'.processes i).exited = true →
      (t'.processes i).uncollected = true)
    (htorn : ∀ i, (t'.processes i).used = true → (t'.processes i).teardownComplete = true →
      (t'.processes i).uncollected = true)
    (hwaited : ∀ i q, t'.Holds i q → (t'.processes i).uncollected = true → ∃ k, t'.Awaits k q) : ReapInv Q t' where
  recordRange := fun i hu => h.recordRange i (hh i _ ⟨hu, rfl⟩).1
  childRange := fun k hu => h.childRange k (ha k _ ⟨hu, rfl⟩).1.1
  pids := fun i j q hi hj => h.pids i j q (hh i q hi) (hh j q hj)
  kids := fun k l q hk hl => h.kids k l q (ha k q hk).1 (ha l q hl).1
  held := by
    intro k q hk
    obtain ⟨i, hi⟩ := h.held k q (ha k q hk).1
    exact ⟨i, hheld k i q hk hi⟩
  parents := by
    intro k q hk
    rw [(ha k q hk).2]
    exact h.parents k q (ha k q hk).1
  seqs := hseqs
  marked := hmarked
  torn := htorn
  waited := hwaited

/-- One process is settled: nobody waits for it, and its record is gone or without a mark. All else stays. -/
theorem ReapInv.settle (h : ReapInv P t) (pid : Nat) (hh : ∀ i q, t'.Holds i q → t.Holds i q)
    (hsame : ∀ i q, t.Holds i q → q ≠ pid → (t.processes i).Same (t'.processes i))
    (hkids : ∀ k q, t'.Awaits k q → t.Awaits k q ∧ q ≠ pid ∧ t'.children k = t.children k)
    (hstay : ∀ k q, t.Awaits k q → q ≠ pid → t'.Awaits k q)
    (hown : ∀ i, t'.Holds i pid → (t'.processes i).uncollected = false ∧ (t'.processes i).teardownComplete = false) :
    ReapInv P t' := by
  refine h.kept hh (fun k q hk => ⟨(hkids k q hk).1, by rw [(hkids k q hk).2.2]⟩) ?_ ?_ ?_ ?_ ?_
  · intro k i q hk hi
    have hs := hsame i q hi (hkids k q hk).2.1
    exact ⟨hs.used.trans hi.1, hs.pid.trans hi.2⟩
  · intro k hu
    have hk := (hkids k _ ⟨hu, rfl⟩).2.2
    rw [hk] at hu ⊢
    exact h.seqs k hu
  · intro k i q hk hp hi hex
    obtain ⟨hk0, hq, -⟩ := hkids k q hk
    have hs := hsame i q (hh i q hi) hq
    rw [hs.uncollected]
    exact h.marked k i q hk0 hp (hh i q hi) (hs.exited ▸ hex)
  · intro i hu ht
    by_cases hq : (t'.processes i).pid = pid
    · rw [(hown i ⟨hu, hq⟩).2] at ht
      cases ht
    have hi := hh i _ ⟨hu, rfl⟩
    have hs := hsame i _ hi hq
    rw [hs.uncollected]
    exact h.torn i hi.1 (hs.torn ▸ ht)
  intro i q hi hu
  by_cases hq : q = pid
  · rw [(hown i (hq ▸ hi)).1] at hu
    cases hu
  have hs := hsame i q (hh i q hi) hq
  obtain ⟨k, hk⟩ := h.waited i q (hh i q hi) (hs.uncollected ▸ hu)
  exact ⟨k, hstay k q hk hq⟩

theorem Quiet.holds (h : Quiet t t') : t'.Holds i pid ↔ t.Holds i pid := by
  rw [Holds, Holds, (h.records i).used, (h.records i).pid]

theorem Quiet.awaits (h : Quiet t t') : t'.Awaits k pid ↔ t.Awaits k pid := by
  rw [Awaits, Awaits, (h.children k).used, (h.children k).pid]

theorem Quiet.reap (h : Quiet t t') (hi : ReapInv P t) : ReapInv P t' := by
  refine hi.kept (fun _ _ => h.holds.1) (fun k _ hk => ⟨h.awaits.1 hk, (h.children k).parent⟩)
    (fun _ _ _ _ => h.holds.2) ?_ ?_ ?_ ?_
  · intro k hu
    have hu : (t.children k).used = true := (h.children k).used ▸ hu
    obtain ⟨hle, hlt⟩ := hi.seqs k hu
    refine ⟨(h.children k).seqs hle, ?_⟩
    intro hd
    have hd : (t.children k).done = true := (h.children k).done ▸ hd
    obtain ⟨he, hr⟩ := (h.children k).unreported hu hd
    rw [he, hr]
    exact hlt hd
  · intro k i pid hk hp hr hex
    rw [(h.records i).uncollected]
    exact hi.marked k i pid (h.awaits.1 hk) hp (h.holds.1 hr) ((h.records i).exited ▸ hex)
  · intro i hu ht
    rw [(h.records i).uncollected]
    exact hi.torn i ((h.records i).used ▸ hu) ((h.records i).torn ▸ ht)
  · intro i pid hr hu
    obtain ⟨k, hk⟩ := hi.waited i pid (h.holds.1 hr) ((h.records i).uncollected ▸ hu)
    exact ⟨k, h.awaits.2 hk⟩

theorem Referred.quiet (h : Referred t t') : Quiet t t' := by
  obtain ⟨g, n, rfl, -⟩ := h
  exact .setGroup ..

theorem setpgid_quiet (t : Table) (caller pid pgid : Nat) : Quiet t (t.processRecordSetpgid caller pid pgid).2 := by
  have hr := setpgid_regroups t caller pid pgid
  generalize (t.processRecordSetpgid caller pid pgid).2 = t' at hr ⊢
  cases hr with
  | minor hm => exact hm.toQuiet
  | @moved i g pgid _ _ _ _ _ _ hm =>
    refine Quiet.trans ?_ hm.toQuiet
    have hjoin := (Quiet.setGroup t g ((t.groups g).joined pgid (t.processes i).sid)).trans (groupLeave_quiet _ i)
    refine Quiet.trans (hjoin.trans ?_) (.setProcess ⟨rfl, rfl, rfl, rfl, rfl⟩)
    exact .setProcess ⟨rfl, rfl, rfl, rfl, rfl⟩

/-! ## Calls that take records away -/

/-- Nothing new: records and child records stay those of the same processes or go, and only child records
in `D` go. -/
structure Shrink (D : Nat → Prop) (t t' : Table) : Prop where
  records : ∀ i, (t'.processes i).pid = (t.processes i).pid ∧
    ((t'.processes i).used = true → (t.processes i).used = true) ∧
    ((t.processes i).exited = true → (t'.processes i).exited = true) ∧
    ((t.processes i).teardownComplete = true → (t'.processes i).teardownComplete = true)
  identity : ∀ k, (t'.children k).identityGeneration = (t.children k).identityGeneration
  children : ∀ k, (t'.children k).used = true → (t.children k).used = true ∧ (t.children k).Kept (t'.children k)
  dropped : ∀ k, (t.children k).used = true → (t'.children k).used = false → D k

variable {D E : Nat → Prop}

theorem Quiet.shrink (h : Quiet t t') : Shrink D t t' where
  records := by
    intro i
    rw [(h.records i).used, (h.records i).exited, (h.records i).torn]
    exact ⟨(h.records i).pid, id, id, id⟩
  identity := fun k => (h.children k).identity
  children := fun k hu => ⟨(h.children k).used ▸ hu, (h.children k).toKept⟩
  dropped := by
    intro k hu hn
    rw [(h.children k).used, hu] at hn
    cases hn

theorem Shrink.refl (t : Table) : Shrink D t t := (Quiet.refl t).shrink

theorem Shrink.trans (h : Shrink D t₁ t₂) (h' : Shrink D t₂ t₃) : Shrink D t₁ t₃ where
  records := by
    intro i
    obtain ⟨hp, hu, he, ht⟩ := h.records i
    obtain ⟨hp', hu', he', ht'⟩ := h'.records i
    exact ⟨hp'.trans hp, fun hused => hu (hu' hused), fun hex => he' (he hex), fun htorn => ht' (ht htorn)⟩
  identity := fun k => (h'.identity k).trans (h.identity k)
  children := by
    intro k hu
    obtain ⟨hu2, hk2⟩ := h'.children k hu
    obtain ⟨hu1, hk1⟩ := h.children k hu2
    exact ⟨hu1, hk1.trans hk2⟩
  dropped := by
    intro k hu hn
    cases hm : (t₂.children k).used with
    | true => exact h'.dropped k hm hn
    | false => exact h.dropped k hu hm

theorem Shrink.mono (h : Shrink D t t') (hde : ∀ k, (t.children k).used = true → D k → E k) : Shrink E t t' :=
  { h with dropped := fun k hu hn => hde k hu (h.dropped k hu hn) }

theorem Shrink.awaits (h : Shrink D t t') (hk : t'.Awaits k pid) : t.Awaits k pid := by
  obtain ⟨hu, hkept⟩ := h.children k hk.1
  exact ⟨hu, hkept.pid.symm.trans hk.2⟩

theorem Shrink.holds (h : Shrink D t t') (hi : t'.Holds i pid) : t.Holds i pid := by
  obtain ⟨hp, hu, -, -⟩ := h.records i
  exact ⟨hu hi.1, hp.symm.trans hi.2⟩

theorem Shrink.setProcess (hp : r.pid = (t.processes i).pid)
    (hu : r.used = true → (t.processes i).used = true) (he : (t.processes i).exited = true → r.exited = true)
    (ht : (t.processes i).teardownComplete = true → r.teardownComplete = true) : Shrink D t (t.setProcess i r) where
  records := fun j => by grind -linarith
  identity := fun _ => rfl
  children := fun _ hu => ⟨hu, .refl _⟩
  dropped := fun k hu hn => nomatch hu.symm.trans hn

theorem collected_shrink (t : Table) (pid : Nat) : Shrink D t (t.collected pid) := by
  unfold collected
  split
  · exact .refl t
  refine .setProcess rfl ?_ id id
  intro hu
  split at hu
  · cases hu
  · exact hu

theorem Shrink.setChild (hid : c.identityGeneration = (t.children k).identityGeneration)
    (hc : c.used = true → (t.children k).used = true ∧ (t.children k).Kept c)
    (hd : (t.children k).used = true → c.used = false → D k) : Shrink D t (t.setChild k c) where
  records := fun _ => ⟨rfl, id, id, id⟩
  identity := fun l => by grind -linarith
  children := fun l => by grind -linarith [Child.Kept.refl]
  dropped := fun l => by grind -linarith

theorem Shrink.drop (t : Table) (k : Nat) : Shrink (· = k) t (t.setChild k { t.children k with used := false }) :=
  .setChild rfl (nofun) fun _ _ => rfl

/-- A record that went was torn down, and no child record of its process is left. -/
def Freed (t t' : Table) : Prop :=
  ∀ i, (t.processes i).used = true → (t'.processes i).used = false →
    (t'.processes i).teardownComplete = true ∧ ∀ k, ¬ t'.Awaits k (t.processes i).pid

theorem ReapInv.collected_other (h : ReapInv P t) (hr : ¬ t.Holds i pid) :
    (t.collected pid).processes i = t.processes i := by
  unfold collected
  split
  · rfl
  rename_i j hf
  refine setProcess_ne fun he => ?_
  subst he
  exact hr (h.find_eq.1 hf)

theorem discard_shrink (t : Table) (k : Nat) : Shrink (· = k) t (t.discard k) :=
  (collected_shrink t _).trans (Shrink.drop _ k)

theorem discard_reap (h : ReapInv P t) (hk : (t.children k).used = true) :
    ReapInv P (t.discard k) ∧ Freed t (t.discard k) := by
  have hs := discard_shrink t k
  have hprocs : (t.discard k).processes = (t.collected (t.children k).pid).processes := rfl
  have hkids : ∀ l, l ≠ k → (t.discard k).children l = t.children l := by
    intro l hl
    rw [discard, setChild_ne hl, collected_children]
  have hgone : ∀ l pid, (t.discard k).Awaits l pid → l ≠ k := by
    intro l pid hl he
    subst he
    simp [Awaits, discard] at hl
  -- the child record that goes is the only one of its process
  have hother : ∀ l pid, (t.discard k).Awaits l pid → pid ≠ (t.children k).pid := by
    intro l pid hl he
    exact hgone l pid hl (h.kids l k pid (hs.awaits hl) ⟨hk, he.symm⟩)
  have hrecord : ∀ i pid, t.Holds i pid → pid ≠ (t.children k).pid →
      (t.discard k).processes i = t.processes i := by
    intro i pid hi hne
    rw [hprocs]
    refine h.collected_other ?_
    intro hi'
    exact hne (hi.2.symm.trans hi'.2)
  have hown : ∀ i, t.Holds i (t.children k).pid → (t.discard k).processes i = { t.processes i with
      uncollected := false, used := if (t.processes i).teardownComplete then false else (t.processes i).used } := by
    intro i hi
    rw [hprocs]
    simp [collected, h.find_eq.2 hi]
  refine ⟨h.settle _ (fun _ _ => hs.holds) ?_ (fun l q hl => ⟨hs.awaits hl, hother l q hl, hkids l (hgone l q hl)⟩)
    ?_ ?_, ?_⟩
  · intro i q hi hq
    rw [hrecord i q hi hq]
    exact .refl _
  · intro l q hl hq
    have := hkids l
    grind -linarith +splitImp [Awaits]
  · intro i hi
    have := hown i (hs.holds hi)
    grind -linarith [Holds]
  intro i hu hn
  by_cases hi : t.Holds i (t.children k).pid
  · have := hown i hi
    exact ⟨by grind -linarith, fun l hl => hother l _ hl hi.2⟩
  · rw [hprocs, h.collected_other hi, hu] at hn
    cases hn

theorem Freed.of_used (h : ∀ i, (t'.processes i).used = (t.processes i).used) : Freed t t' := by
  intro i hu hn
  rw [h, hu] at hn
  cases hn

theorem Quiet.freed (h : Quiet t t') : Freed t t' := .of_used fun i => (h.records i).used

theorem Freed.refl (t : Table) : Freed t t := (Quiet.refl t).freed

theorem Freed.changed (h : Freed t t') : Freed t t'.changed := h

theorem setProcess_used (h : r.used = (t.processes i).used) (j : Nat) :
    ((t.setProcess i r).processes j).used = (t.processes j).used := by grind -linarith

theorem Freed.trans (h : Freed t₁ t₂) (hs : Shrink D t₁ t₂) (h' : Freed t₂ t₃) (hs' : Shrink E t₂ t₃) :
    Freed t₁ t₃ := by
  intro i hu hn
  cases hm : (t₂.processes i).used with
  | true =>
    rw [← (hs.records i).1]
    exact h' i hm hn
  | false =>
    obtain ⟨htorn, hnone⟩ := h i hu hm
    exact ⟨(hs'.records i).2.2.2 htorn, fun k hk => hnone k (hs'.awaits hk)⟩

/-! ## Exit -/

theorem ReapInv.setProcess (h : ReapInv P t) (hi : t.Holds i pid)
    (hr : r.used = true ∧ r.pid = pid) (hpq : ∀ l q, q ≠ pid → P l q → Q l q)
    (hmarked : ∀ l, t.Awaits l pid → ¬ Q l pid → r.exited = true → r.uncollected = true)
    (htorn : r.teardownComplete = true → r.uncollected = true)
    (hwaited : r.uncollected = true → ∃ k, t.Awaits k pid) : ReapInv Q (t.setProcess i r) := by
  have hholds : ∀ j q, (t.setProcess i r).Holds j q ↔ t.Holds j q := by grind -linarith [Holds]
  refine h.kept (fun j q => (hholds j q).1) (fun _ _ hk => ⟨hk, rfl⟩) (fun _ j q _ => (hholds j q).2) h.seqs ?_ ?_ ?_
  · intro l j q (hl : t.Awaits l q)
    have hone := h.pids j i pid
    have hold := h.marked l j q hl
    grind -linarith [Holds]
  · intro j
    have := h.torn j
    grind -linarith
  · intro j q hj hu
    change ∃ k, t.Awaits k q
    have := h.waited j q
    grind -linarith [Holds]

theorem ReapInv.free (h : ReapInv P t) (hi : t.Holds i pid) (hr : r.used = false)
    (hnone : ∀ k, ¬ t.Awaits k pid) : ReapInv P (t.setProcess i r) := by
  have hholds : ∀ j q, (t.setProcess i r).Holds j q → t.Holds j q := by grind -linarith [Holds]
  refine h.settle pid hholds ?_ (fun k q hk => ⟨hk, fun he => hnone k (he ▸ hk), rfl⟩) (fun _ _ hk _ => hk) ?_
  · grind -linarith [Holds, Record.Same.refl]
  · intro j
    have := h.pids j i pid
    grind -linarith [Holds]

theorem setChild_reap (h : ReapInv P t) (hu : c.used = (t.children k).used)
    (hp : c.pid = (t.children k).pid) (hpar : c.parent = (t.children k).parent)
    (hseq : c.used = true → c.reportedSeq ≤ c.eventSeq ∧ (c.done = true → c.reportedSeq < c.eventSeq)) :
    ReapInv P (t.setChild k c) := by
  have hawaits : ∀ l q, (t.setChild k c).Awaits l q ↔ t.Awaits l q := by grind -linarith [Awaits]
  refine h.kept (fun _ _ => id) (fun l q hl => ⟨(hawaits l q).1 hl, by grind -linarith⟩) (fun _ _ _ _ => id) ?_
    (fun l i q hl => h.marked l i q ((hawaits l q).1 hl)) h.torn ?_
  · intro l
    have := h.seqs l
    grind -linarith
  · intro i q hi hunc
    obtain ⟨l, hl⟩ := h.waited i q hi hunc
    exact ⟨l, (hawaits l q).2 hl⟩

theorem publishEnd_shrink (p : Option Nat) (code signal : UInt64) (t : Table) (k : Nat) :
    Shrink D t (publishEnd p code signal t k) := by
  have hmark : Shrink D t (p.elim t fun i => t.setProcess i { t.processes i with uncollected := true }) := by
    cases p with
    | none => exact .refl t
    | some i => exact .setProcess rfl id id id
  have hkid : (p.elim t fun i => t.setProcess i { t.processes i with uncollected := true }).children k =
      t.children k := by
    cases p <;> rfl
  unfold publishEnd
  split
  · rename_i hd
    have hkept : (t.children k).Kept (ended (t.children k) code signal) := ⟨rfl, rfl, rfl, fun he => by simp [he] at hd⟩
    rw [← hkid] at hkept ⊢
    have hset : Shrink D _ _ := hmark.trans (.setChild (c := ended _ code signal) rfl (fun hu => ⟨hu, hkept⟩)
      fun hu hn => nomatch hu.symm.trans hn)
    exact hset.trans (Minor.changed _).shrink
  · exact hmark

theorem exitChild_shrink (pid : Nat) (p : Option Nat) (code signal : UInt64) (t : Table) (k : Nat) :
    Shrink (fun l => (t.children l).parent = pid) t (exitChild pid p code signal t k) := by
  have hpub : Shrink (fun l => (t.children l).parent = pid) t
      (if (t.children k).pid == pid then publishEnd p code signal t k else t) := by
    split
    · exact publishEnd_shrink ..
    · exact .refl t
  rw [exitChild_eq]
  split
  · exact .refl t
  dsimp only
  split
  · rename_i hpar
    refine hpub.trans ((collected_shrink _ _).trans ((Shrink.drop _ k).mono ?_))
    intro l _ hl
    subst hl
    simpa using hpar
  · exact hpub

/-- What the loop of an exit knows about the record of the process. -/
structure Exiting (pid : Nat) (p : Option Nat) (t : Table) : Prop where
  found : ∀ i, t.Holds i pid → p = some i
  own : ∀ i, p = some i → (t.processes i).pid = pid ∧ (t.processes i).exited = true

variable {p : Option Nat}

theorem Exiting.shrink (h : Exiting pid p t) (hs : Shrink D t t') : Exiting pid p t' := by
  refine ⟨fun i hi => h.found i (hs.holds hi), ?_⟩
  intro i hi
  obtain ⟨hp, he⟩ := h.own i hi
  exact ⟨(hs.records i).1.trans hp, (hs.records i).2.2.1 he⟩

theorem publishEnd_reap (code signal : UInt64) (h : ReapInv P t) (hx : Exiting pid p t) (hk : t.Awaits k pid) :
    ReapInv (fun l q => P l q ∧ q ≠ pid) (publishEnd p code signal t k) ∧ Freed t (publishEnd p code signal t k) := by
  obtain ⟨i, hi⟩ := h.held k pid hk
  obtain rfl := hx.found i hi
  have hmark : ReapInv (fun l q => P l q ∧ q ≠ pid) (t.setProcess i { t.processes i with uncollected := true }) :=
    h.setProcess hi hi (fun _ _ hq hp => ⟨hp, hq⟩) (fun _ _ _ _ => rfl) (fun _ => rfl) fun _ => ⟨k, hk⟩
  have hused := setProcess_used (t := t) (i := i) (r := { t.processes i with uncollected := true }) rfl
  unfold publishEnd
  split
  · rename_i hd
    refine ⟨(Minor.changed _).reap (setChild_reap hmark rfl rfl rfl ?_), .of_used hused⟩
    intro _
    have hseq := (h.seqs k hk.1).1
    simp only [ended]
    omega
  · exact ⟨hmark, .of_used hused⟩

variable {ks : List Nat} {call : Call} {options : UInt32}

theorem exitChild_reap (code signal : UInt64)
    (h : ReapInv (fun l q => l ∈ k :: ks ∧ q = pid) t) (hx : Exiting pid p t) :
    ReapInv (fun l q => l ∈ ks ∧ q = pid) (exitChild pid p code signal t k) ∧
      Freed t (exitChild pid p code signal t k) := by
  rw [exitChild_eq]
  split
  · rename_i hu
    exact ⟨h.mono fun l q hl hp => by grind -linarith [Awaits], .refl t⟩
  rename_i hu
  have hu : (t.children k).used = true := by simpa using hu
  by_cases hpid : (t.children k).pid = pid
  · -- the process's own child record: published, and not also a child of the process
    have hpar := (h.parents k pid ⟨hu, hpid⟩).2
    obtain ⟨hr, hf⟩ := publishEnd_reap code signal h hx ⟨hu, hpid⟩
    simp only [hpid, beq_self_eq_true, if_true, beq_eq_false_iff_ne.2 hpar, Bool.false_eq_true, if_false]
    exact ⟨hr.mono fun l q _ hp => absurd hp.1.2 hp.2, hf⟩
  have hrest : ReapInv (fun l q => l ∈ ks ∧ q = pid) t := h.mono fun l q hl hp => by grind -linarith [Awaits]
  simp only [beq_eq_false_iff_ne.2 hpid, Bool.false_eq_true, if_false]
  split
  · exact discard_reap hrest hu
  · exact ⟨hrest, .refl t⟩

theorem exitLoop_shrink (pid : Nat) (p : Option Nat) (code signal : UInt64) (ks : List Nat) (t : Table) :
    Shrink (fun l => (t.children l).parent = pid) t (ks.foldl (exitChild pid p code signal) t) := by
  induction ks generalizing t with
  | nil => exact .refl t
  | cons k ks ih =>
    have hone := exitChild_shrink pid p code signal t k
    have hrest := ih (exitChild pid p code signal t k)
    refine hone.trans (hrest.mono ?_)
    intro l hl hpar
    exact (hone.children l hl).2.parent.symm.trans hpar

theorem exitLoop_reap (code signal : UInt64) (h : ReapInv (fun l q => l ∈ ks ∧ q = pid) t) (hx : Exiting pid p t) :
    Reaping (ks.foldl (exitChild pid p code signal) t) ∧
      Freed t (ks.foldl (exitChild pid p code signal) t) := by
  induction ks generalizing t with
  | nil => exact ⟨h.mono fun l q _ hp => by simp at hp, .refl t⟩
  | cons k ks ih =>
    have hs := exitChild_shrink pid p code signal t k
    obtain ⟨hr, hf⟩ := exitChild_reap code signal h hx
    obtain ⟨hr', hf'⟩ := ih hr (hx.shrink hs)
    exact ⟨hr', hf.trans hs hf' (exitLoop_shrink pid p code signal ks _)⟩

theorem exitRecord_quiet (hf : t.find pid = some i) (ticks utime stime : UInt64) :
    ∃ u, Quiet t u ∧ t.exitRecord pid ticks utime stime = u.setProcess i { u.processes i with exited := true } := by
  obtain ⟨u, hm, he⟩ := exitRecord_eq hf ticks utime stime
  exact ⟨_, hm.toQuiet.trans (groupLeave_quiet u i), he⟩

theorem exitRecord_shrink (t : Table) (pid : Nat) (ticks utime stime : UInt64) :
    Shrink D t (t.exitRecord pid ticks utime stime) := by
  cases hf : t.find pid with
  | none =>
    rw [exitRecord_none hf]
    exact .refl t
  | some i =>
    obtain ⟨u, hq, he⟩ := exitRecord_quiet hf ticks utime stime
    rw [he]
    exact hq.shrink.trans (.setProcess rfl id (fun _ => rfl) id)

/-- Marking a record as exited exempts its child record until the loop reaches it. -/
theorem exitRecord_reap (h : Reaping t) (pid : Nat) (ticks utime stime : UInt64) :
    ReapInv (fun _ q => q = pid) (t.exitRecord pid ticks utime stime) ∧ Freed t (t.exitRecord pid ticks utime stime) ∧
      Exiting pid (t.find pid) (t.exitRecord pid ticks utime stime) := by
  have hs := exitRecord_shrink (D := fun _ => False) t pid ticks utime stime
  cases hf : t.find pid with
  | none =>
    have hnone : ∀ i, ¬ t.Holds i pid := by
      intro i hi
      rw [h.find_eq.2 hi] at hf
      cases hf
    rw [exitRecord_none hf]
    exact ⟨h.mono (by simp), .refl t, fun i hi => absurd hi (hnone i), by simp⟩
  | some i =>
    obtain ⟨u, hq, he⟩ := exitRecord_quiet hf ticks utime stime
    rw [he] at hs ⊢
    have hi := h.find_eq.1 hf
    have hu := hq.reap h
    have hiu := hq.holds.2 hi
    have hused : ∀ j, ((u.setProcess i { u.processes i with exited := true }).processes j).used =
        (t.processes j).used := by
      intro j
      rw [setProcess_used (by rfl), (hq.records j).used]
    refine ⟨hu.setProcess hiu hiu (by simp) (by simp) (hu.torn i hiu.1) (hu.waited i pid hiu), .of_used hused, ?_, ?_⟩
    · intro j hj
      rw [h.pids i j pid hi (hs.holds hj)]
    intro j hj
    cases hj
    simpa using hiu.2

theorem exit_shrink (t : Table) (pid : Nat) (code signal ticks utime stime : UInt64) :
    Shrink (fun l => (t.children l).parent = pid) t
      (t.processRecordExitAccountedTimes pid code signal ticks utime stime).2 := by
  have hs := exitRecord_shrink (D := fun l => (t.children l).parent = pid) t pid ticks utime stime
  have hloop := exitLoop_shrink pid (t.find pid) code signal (range PROCESS_CAPACITY)
    (t.exitRecord pid ticks utime stime)
  rw [exit_eq]
  refine (hs.trans (hloop.mono ?_)).trans (Minor.changed _).shrink
  intro l hl hpar
  exact (hs.children l hl).2.parent.symm.trans hpar

theorem exit_reap (h : Reaping t) (pid : Nat) (code signal ticks utime stime : UInt64) :
    Reaping (t.processRecordExitAccountedTimes pid code signal ticks utime stime).2 ∧
      Freed t (t.processRecordExitAccountedTimes pid code signal ticks utime stime).2 := by
  obtain ⟨hr, hf, hx⟩ := exitRecord_reap h pid ticks utime stime
  have hs := exitRecord_shrink (D := fun _ => False) t pid ticks utime stime
  have hvisit : ReapInv (fun l q => l ∈ range PROCESS_CAPACITY ∧ q = pid) (t.exitRecord pid ticks utime stime) :=
    hr.mono fun l q hl hq => ⟨mem_range.2 (hr.childRange l hl.1), hq⟩
  obtain ⟨hr', hf'⟩ := exitLoop_reap code signal hvisit hx
  have hboth := hf.trans hs hf' (exitLoop_shrink ..)
  rw [exit_eq]
  exact ⟨(Minor.changed _).reap hr', hboth.changed⟩

/-! ## Forgetting and undoing -/

/-- The call comes in the order the scheduler makes it: a process is forgotten after its exit. -/
def Orderly (t : Table) : Call → Prop
  | .forget pid => ∀ i, t.Holds i pid → (t.processes i).exited = true
  | _ => True

theorem forget_eq (hf : t.find pid = some i) :
    ∃ u, Quiet t u ∧ t.processRecordForget pid = u.setProcess i { u.processes i with
      teardownComplete := true, used := if !(u.processes i).uncollected then false else (u.processes i).used } := by
  unfold processRecordForget
  rw [hf]
  exact ⟨_, groupLeave_quiet t i, rfl⟩

theorem forget_shrink (t : Table) (pid : Nat) : Shrink D t (t.processRecordForget pid) := by
  cases hf : t.find pid with
  | none =>
    simp only [processRecordForget, hf]
    exact .refl t
  | some i =>
    obtain ⟨u, hq, he⟩ := forget_eq hf
    rw [he]
    refine hq.shrink.trans (.setProcess rfl ?_ id fun _ => rfl)
    intro hu
    split at hu
    · cases hu
    · exact hu

theorem forget_reap (h : Reaping t) (ho : t.Orderly (.forget pid)) :
    Reaping (t.processRecordForget pid) ∧ Freed t (t.processRecordForget pid) := by
  cases hf : t.find pid with
  | none =>
    simp only [processRecordForget, hf]
    exact ⟨h, .refl t⟩
  | some i =>
    obtain ⟨u, hq, he⟩ := forget_eq hf
    have hi := h.find_eq.1 hf
    have hu := hq.reap h
    have hiu := hq.holds.2 hi
    have hex : (u.processes i).exited = true := (hq.records i).exited.trans (ho i hi)
    have hfreed : ∀ r : Record, (r.used = false → r.teardownComplete = true ∧ ∀ k, ¬ u.Awaits k pid) →
        Freed t (u.setProcess i r) := by
      intro r hr j huj hn
      have hji : j = i := by grind -linarith [(hq.records j).used]
      rw [hji, setProcess_self] at hn ⊢
      rw [hi.2]
      exact hr hn
    rw [he]
    cases hunc : (u.processes i).uncollected with
    | true =>
      refine ⟨hu.setProcess hiu hiu (by simp) (fun _ _ _ _ => hunc) (fun _ => hunc) fun _ => hu.waited i pid hiu hunc, ?_⟩
      exact hfreed _ fun hn => nomatch hiu.1.symm.trans hn
    | false =>
      -- an exited process with a child record would have its status to collect
      have hnone : ∀ k, ¬ u.Awaits k pid := by
        intro k hk
        rw [hu.marked k i pid hk id hiu hex] at hunc
        cases hunc
      exact ⟨hu.free hiu rfl hnone, hfreed _ fun _ => ⟨rfl, hnone⟩⟩

theorem dropChildren_child (h : ∀ k, (t.children k).used = true → k < PROCESS_CAPACITY) {q : Nat} :
    (t.dropChildren pid).Awaits k q ↔ t.Awaits k q ∧ q ≠ pid := by
  have := h k
  unfold dropChildren
  grind -linarith [Awaits]

theorem dropChildren_shrink (t : Table) (pid : Nat) :
    Shrink (fun l => (t.children l).pid = pid) t (t.dropChildren pid) where
  records := fun _ => ⟨rfl, id, id, id⟩
  identity := by grind -linarith [dropChildren]
  children := by grind -linarith [dropChildren, Child.Kept.refl]
  dropped := by grind -linarith [dropChildren]

/-- The record an undone creation leaves behind. -/
def undone (t : Table) (pid : Nat) : Table :=
  match t.find pid with
  | none => t
  | some i => (t.groupLeave i).setProcess i { (t.groupLeave i).processes i with used := false }

theorem abort_eq (t : Table) (pid : Nat) : t.processRecordAbort pid = ((t.undone pid).dropChildren pid).changed := by
  cases t.find pid <;> rfl

theorem undone_shrink (t : Table) (pid : Nat) : Shrink D t (t.undone pid) := by
  unfold undone
  split
  · exact .refl t
  rename_i i _
  exact (groupLeave_quiet t i).shrink.trans (.setProcess rfl (fun hu => by simp at hu) id id)

theorem undone_children (t : Table) (pid : Nat) : (t.undone pid).children = t.children := by
  unfold undone groupLeave
  split
  · rfl
  · split <;> rfl

/-- Only the record of the process goes. -/
theorem ReapInv.undone_record (h : ReapInv P t) {j q : Nat} (hj : t.Holds j q) (hq : q ≠ pid) :
    (t.processes j).Same ((t.undone pid).processes j) := by
  unfold undone
  split
  · exact .refl _
  rename_i i hf
  rw [setProcess_ne (by grind -linarith [Holds, (h.find_eq.1 hf).2])]
  exact (groupLeave_quiet t i).records j

theorem ReapInv.undone_gone (h : ReapInv P t) {j : Nat} : ¬ (t.undone pid).Holds j pid := by
  intro hj
  have hj0 := (undone_shrink (D := fun _ => False) t pid).holds hj
  unfold undone at hj
  rw [h.find_eq.2 hj0] at hj
  simp [Holds] at hj

theorem abort_shrink (t : Table) (pid : Nat) :
    Shrink (fun l => (t.children l).pid = pid) t (t.processRecordAbort pid) := by
  have hdrop := dropChildren_shrink (t.undone pid) pid
  rw [undone_children] at hdrop
  rw [abort_eq]
  exact ((undone_shrink t pid).trans hdrop).trans (Minor.changed _).shrink

theorem abort_reap (h : Reaping t) (pid : Nat) : Reaping (t.processRecordAbort pid) := by
  rw [abort_eq]
  refine (Minor.changed _).reap ?_
  have hrange : ∀ k, ((t.undone pid).children k).used = true → k < PROCESS_CAPACITY := by
    rw [undone_children]
    exact h.childRange
  have hs := (undone_shrink t pid).trans
    (by simpa only [undone_children] using dropChildren_shrink (t.undone pid) pid)
  have hkid : ∀ k q, ((t.undone pid).dropChildren pid).Awaits k q → t.Awaits k q ∧ q ≠ pid := by
    intro k q hk
    obtain ⟨hk, hq⟩ := (dropChildren_child hrange).1 hk
    rw [Awaits, undone_children] at hk
    exact ⟨hk, hq⟩
  have hstays : ∀ k q, t.Awaits k q → q ≠ pid → ((t.undone pid).dropChildren pid).Awaits k q := by
    intro k q hk hq
    refine (dropChildren_child hrange).2 ⟨?_, hq⟩
    rw [Awaits, undone_children]
    exact hk
  have hsame : ∀ k q, ((t.undone pid).dropChildren pid).Awaits k q →
      ((t.undone pid).dropChildren pid).children k = t.children k := by
    intro k q hk
    rw [← undone_children t pid]
    unfold dropChildren at hk ⊢
    grind -linarith [Awaits]
  exact h.settle pid (fun _ _ => hs.holds) (fun _ _ hi hq => h.undone_record hi hq)
    (fun k q hk => ⟨(hkid k q hk).1, (hkid k q hk).2, hsame k q hk⟩) hstays fun _ hi => absurd hi h.undone_gone

/-! ## Waiting -/

theorem consume_shrink (t : Table) (parent k : Nat) :
    Shrink (fun l => l = k ∧ (t.children k).done = true) t (t.consume parent k) := by
  cases hd : (t.children k).done with
  | false => exact (consume_open hd parent).shrink
  | true =>
    have hdrop := discard_shrink (t.addTimes parent (t.children k).pid) k
    refine ((addTimes_minor t parent _).shrink.trans (hdrop.mono ?_)).trans (consume_done hd parent).shrink
    exact fun l _ hl => ⟨hl, rfl⟩

theorem consume_reap (h : Reaping t) (hu : (t.children k).used = true) (parent : Nat) :
    Reaping (t.consume parent k) ∧ Freed t (t.consume parent k) := by
  cases hd : (t.children k).done with
  | false =>
    have hq := consume_open hd parent
    exact ⟨hq.reap h, hq.freed⟩
  | true =>
    have hq := (addTimes_minor t parent (t.children k).pid).toQuiet
    have hq' := consume_done hd parent
    obtain ⟨hr, hf⟩ := discard_reap (hq.reap h) ((hq.children k).used.trans hu)
    have hs := discard_shrink (t.addTimes parent (t.children k).pid) k
    have hfreed := hq.freed.trans (D := (· = k)) hq.shrink hf hs
    exact ⟨hq'.reap hr, hfreed.trans (E := (· = k)) (hq.shrink.trans hs) hq'.freed hq'.shrink⟩

theorem waitScan_spec {parent : Nat} {selector : Int} {legacy : Bool}
    (h : t.waitScan parent selector options legacy = some k) :
    (t.children k).used = true ∧ (t.children k).parent = parent := by
  have := find?_some h
  simp only [waitCandidate, Bool.and_eq_true, beq_iff_eq] at this
  exact this.1.1

/-- The options and the selector are ones a wait accepts. -/
def waitValid (selector : Int) (options : UInt32) : Bool :=
  !(has options (~~~(WNOHANG ||| WUNTRACED ||| WCONTINUED ||| WNOWAIT)) || selector == -0x8000000000000000)

/-- The child record whose final status a call takes. -/
def reaps (t : Table) : Call → Option Nat
  | .wait parent selector options legacy =>
    if waitValid selector options && !has options WNOWAIT then
      (t.waitScan parent selector options legacy).filter fun k => (t.children k).done
    else none
  | _ => none

theorem reaps_spec (h : t.reaps call = some k) :
    (t.children k).used = true ∧ (t.children k).done = true ∧ ∃ parent selector options legacy,
      call = .wait parent selector options legacy ∧ (t.children k).parent = parent ∧
        (t.processRecordWait parent selector options legacy).1 =
          .child (t.children k).pid (statusWord legacy (t.children k)) ∧
        t.step call = t.consume parent k := by
  cases call with
  | wait parent selector options legacy =>
    simp only [reaps] at h
    split at h
    · rename_i hvalid
      obtain ⟨hscan, hdone⟩ := Option.filter_eq_some_iff.1 h
      obtain ⟨hu, hpar⟩ := waitScan_spec hscan
      simp only [waitValid, Bool.and_eq_true, Bool.not_eq_true'] at hvalid
      refine ⟨hu, hdone, parent, selector, options, legacy, rfl, hpar, ?_, ?_⟩
      · simp [processRecordWait, hvalid.1, hscan]
      · simp [step, processRecordWait, hvalid.1, hvalid.2, hscan]
    · cases h
  | _ => simp [reaps] at h

theorem wait_shrink (t : Table) (parent : Nat) (selector : Int) (options : UInt32) (legacy : Bool) :
    Shrink (fun l => t.reaps (.wait parent selector options legacy) = some l) t
      (t.processRecordWait parent selector options legacy).2 := by
  unfold processRecordWait
  split
  · exact .refl t
  rename_i hvalid
  split
  · rename_i k hscan
    split
    · exact .refl t
    rename_i hpeek
    refine (consume_shrink t parent k).mono ?_
    intro l _ hl
    obtain ⟨rfl, hdone⟩ := hl
    simp [reaps, waitValid, hvalid, hpeek, hscan, Option.filter, hdone]
  · exact .refl t

theorem wait_reap (h : Reaping t) (parent : Nat) (selector : Int) (options : UInt32) (legacy : Bool) :
    Reaping (t.processRecordWait parent selector options legacy).2 ∧
      Freed t (t.processRecordWait parent selector options legacy).2 := by
  rcases wait_cases t parent selector options legacy with he | ⟨k, hscan, he⟩
  · rw [he]
    exact ⟨h, .refl t⟩
  · rw [he]
    exact consume_reap h (waitScan_spec hscan).1 parent

theorem selects_pid (p : Option Record) (h : 0 < c.pid) : selects p c.pid c = true := by
  have hzero : ((c.pid : Int) == 0) = false := beq_eq_false_iff_ne.2 (by omega)
  have hneg : decide ((c.pid : Int) < -1) = false := decide_eq_false (by omega)
  simp [selects, hzero, hneg]

/-- The status of a child that ended is there for its parent. -/
theorem wait_returns (h : ReapInv P t) (hu : (t.children k).used = true)
    (hd : (t.children k).done = true) (hv : waitValid (t.children k).pid options = true) (legacy : Bool) :
    (t.processRecordWait (t.children k).parent (t.children k).pid options legacy).1 =
      .child (t.children k).pid (statusWord legacy (t.children k)) := by
  have hpos := (h.parents k _ ⟨hu, rfl⟩).1
  have hseq := (h.seqs k hu).2 hd
  have hscan : t.waitScan (t.children k).parent (t.children k).pid options legacy = some k := by
    have hgood : (t.waitCandidate (t.children k).parent (t.children k).pid k &&
        reportable options legacy (t.children k)) = true := by
      have hseq : (t.children k).eventSeq ≠ (t.children k).reportedSeq := by omega
      simp [waitCandidate, selects_pid _ hpos, reportable, hu, hd, hseq]
    cases hf : t.waitScan (t.children k).parent (t.children k).pid options legacy with
    | none =>
      have := find?_eq_none.1 hf k (mem_range.2 (h.childRange k hu))
      exact absurd hgood this
    | some l =>
      -- the selector picks the child, and a process has one child record
      have hl := find?_some hf
      simp only [waitCandidate, selects, Bool.and_eq_true, Bool.not_eq_true', Bool.and_eq_false_iff,
        decide_eq_false_iff_not, bne_eq_false_iff_eq] at hl
      have hpid : ((t.children l).pid : Int) = (t.children k).pid := by
        rcases hl.1.2.1.1 with hbad | heq
        · omega
        · exact heq
      have hpid : (t.children l).pid = (t.children k).pid := by omega
      rw [h.kids l k _ ⟨hl.1.1.1, hpid⟩ ⟨hu, rfl⟩]
  simp only [waitValid, Bool.not_eq_true'] at hv
  simp [processRecordWait, hv, hscan]

/-! ## Creation -/

theorem ReapInv.create (h : Reaping t) (hi : i < PROCESS_CAPACITY)
    (hfree : (t.processes i).used = false) (hnew : ∀ j, ¬ t.Holds j r.pid)
    (hunc : r.uncollected = false) (ht : r.teardownComplete = false) : Reaping (t.setProcess i r) := by
  have hnone : ∀ k, ¬ t.Awaits k r.pid := by
    intro k hk
    obtain ⟨j, hj⟩ := h.held k _ hk
    exact hnew j hj
  refine ⟨?_, h.childRange, ?_, h.kids, ?_, h.parents, h.seqs, ?_, ?_, ?_⟩
  · intro j
    have := h.recordRange j
    grind -linarith
  · intro j l q
    have := h.pids j l q
    grind -linarith [Holds]
  · intro k q hk
    obtain ⟨j, hj⟩ := h.held k q hk
    exact ⟨j, by grind -linarith [Holds]⟩
  · intro k j q (hk : t.Awaits k q)
    have := h.marked k j q hk
    grind -linarith [Holds]
  · intro j
    have := h.torn j
    grind -linarith
  · intro j q hj hu
    change ∃ k, t.Awaits k q
    have := h.waited j q
    grind -linarith [Holds]

theorem ReapInv.reserve (h : Reaping t) (hk : k < PROCESS_CAPACITY)
    (hfree : (t.children k).used = false) (hi : t.Holds i c.pid) (hex : (t.processes i).exited = false)
    (hnone : ∀ l, ¬ t.Awaits l c.pid) (hpos : 0 < c.pid) (hpar : c.parent ≠ c.pid) (hd : c.done = false)
    (hseq : c.reportedSeq ≤ c.eventSeq) : Reaping (t.setChild k c) := by
  refine ⟨h.recordRange, ?_, h.pids, ?_, ?_, ?_, ?_, ?_, h.torn, ?_⟩
  · intro l
    have := h.childRange l
    grind -linarith
  · intro l m q
    have := h.kids l m q
    grind -linarith [Awaits, hnone l, hnone m]
  · intro l q hl
    change ∃ j, t.Holds j q
    have := h.held l q
    grind -linarith [Awaits]
  · intro l q
    have := h.parents l q
    grind -linarith [Awaits]
  · intro l
    have := h.seqs l
    grind -linarith
  · intro l j q
    have hone := h.pids i j q
    have hold := h.marked l j q
    grind -linarith [Awaits, Holds]
  · intro j q hj hu
    obtain ⟨l, hl⟩ := h.waited j q hj hu
    exact ⟨l, by grind -linarith [Awaits]⟩

/-- Creation touches free records only; a child record it takes gets a new identity. -/
structure Grow (t t' : Table) : Prop where
  records : ∀ i, (t.processes i).used = true → t'.processes i = t.processes i
  children : ∀ k, (t'.children k = t.children k) ∨
    ((t.children k).used = false ∧ (t.children k).identityGeneration < (t'.children k).identityGeneration)

theorem Grow.refl (t : Table) : Grow t t := ⟨fun _ _ => rfl, fun _ => .inl rfl⟩

theorem begin_grow (t : Table) (pid parent : Nat) (waitable : Bool) (flags : UInt32) (pgid : Nat) :
    Grow t (t.processRecordBegin pid parent waitable flags pgid).2 := by
  have hb := begin_begins t pid parent waitable flags pgid
  generalize (t.processRecordBegin pid parent waitable flags pgid).2 = t' at hb ⊢
  cases hb with
  | refused => exact .refl t
  | @taken i g r _ _ hfree _ _ _ _ hend =>
    have hrecords : ∀ j, (t.processes j).used = true →
        ((t.setGroup g ((t.groups g).joined r.pgid r.sid)).setProcess i r).processes j = t.processes j := by
      intro j hj
      refine setProcess_ne fun he => ?_
      rw [he, hfree] at hj
      cases hj
    rcases hend with he | ⟨k, -, hkfree, -, he⟩
    · rw [he]
      exact ⟨hrecords, fun k => .inl rfl⟩
    rw [he]
    refine ⟨hrecords, fun l => ?_⟩
    by_cases hl : l = k
    · subst hl
      refine .inr ⟨hkfree, ?_⟩
      rw [reserveChild, setChild_self]
      exact Nat.lt_succ_self _
    · exact .inl (setChild_ne hl)

theorem begin_reap (h : Reaping t) (pid parent : Nat) (waitable : Bool) (flags : UInt32)
    (pgid : Nat) : Reaping (t.processRecordBegin pid parent waitable flags pgid).2 := by
  have hb := begin_begins t pid parent waitable flags pgid
  generalize (t.processRecordBegin pid parent waitable flags pgid).2 = t' at hb ⊢
  cases hb with
  | refused => exact h
  | @taken i g r _ hi hfree hnew hpos _ hr hend =>
    have hq := Quiet.setGroup t g ((t.groups g).joined r.pgid r.sid)
    have hnone : ∀ j, ¬ t.Holds j pid := by
      intro j hj
      rw [h.find_eq.2 hj] at hnew
      cases hnew
    have hpid : r.pid = pid := by rw [hr]
    have hcreated := (hq.reap h).create hi hfree (fun j hj => hnone j (hpid ▸ hj)) (by rw [hr]) (by rw [hr])
    rcases hend with he | ⟨k, hk, hkfree, hpar, he⟩
    · rw [he]
      exact hcreated
    rw [he]
    refine hcreated.reserve (i := i) hk hkfree ?_ ?_ ?_ hpos ?_ rfl (Nat.le_refl _)
    · rw [Holds, setProcess_self, hr]
      exact ⟨rfl, rfl⟩
    · rw [setProcess_self, hr]
    · intro l hl
      obtain ⟨j, hj⟩ := h.held l pid hl
      exact hnone j hj
    -- the parent has a record, the new process had none
    intro hsame
    obtain ⟨j, hj⟩ := Option.isSome_iff_exists.1 hpar
    dsimp only at hsame
    rw [hsame] at hj
    exact hnone j (h.find_eq.1 hj)

/-! ## Every call -/

/-- Why a child record may go: its creation is undone, its parent exits, or its final status is taken. -/
def Dropped (t : Table) (call : Call) (k : Nat) : Prop :=
  call = .abort (t.children k).pid ∨
    (∃ code signal ticks utime stime, call = .exit (t.children k).parent code signal ticks utime stime) ∨
    t.reaps call = some k

theorem step_shape (t : Table) (call : Call) : Shrink (t.Dropped call) t (t.step call) ∨ Grow t (t.step call) := by
  cases call with
  | begin => exact .inr (begin_grow ..)
  | abort pid => exact .inl ((abort_shrink t pid).mono fun k _ hk => .inl (by rw [hk]))
  | commit => exact .inl (commit_minor ..).shrink
  | exit pid code signal ticks utime stime =>
    refine .inl ((exit_shrink t pid code signal ticks utime stime).mono ?_)
    intro k _ hk
    exact .inr (.inl ⟨code, signal, ticks, utime, stime, by rw [hk]⟩)
  | forget => exact .inl (forget_shrink ..)
  | setpgid => exact .inl (setpgid_quiet ..).shrink
  | wait => exact .inl ((wait_shrink t ..).mono fun k _ hk => .inr (.inr hk))
  | stop => exact .inl (stop_minor ..).shrink
  | resume => exact .inl (resume_minor ..).shrink
  | acquire => exact .inl (acquire_referred ..).quiet.shrink
  | tryRetain => exact .inl (tryRetain_referred ..).quiet.shrink
  | releaseRef => exact .inl (releaseRef_referred ..).quiet.shrink

/-- A child record stays with its child, or goes for a reason. -/
theorem step_child (call : Call) (hu : (t.children k).used = true) :
    (((t.step call).children k).used = true ∧ (t.children k).Kept ((t.step call).children k)) ∨ t.Dropped call k := by
  rcases step_shape t call with hs | hg
  · cases hn : ((t.step call).children k).used with
    | true => exact .inl ⟨rfl, (hs.children k hn).2⟩
    | false => exact .inr (hs.dropped k hu hn)
  rcases hg.children k with he | ⟨hfree, -⟩
  · rw [he]
    exact .inl ⟨hu, .refl _⟩
  · rw [hu] at hfree
    cases hfree

/-- The identity of a child record changes only upwards, and only when it is given to a new child. -/
theorem step_identity (t : Table) (call : Call) (k : Nat) :
    (t.children k).identityGeneration ≤ ((t.step call).children k).identityGeneration ∧
      (((t.step call).children k).used = true →
        ((t.step call).children k).identityGeneration = (t.children k).identityGeneration →
        (t.children k).used = true) := by
  rcases step_shape t call with hs | hg
  · exact ⟨Nat.le_of_eq (hs.identity k).symm, fun hu _ => (hs.children k hu).1⟩
  rcases hg.children k with he | ⟨-, hlt⟩
  · rw [he]
    exact ⟨Nat.le_refl _, fun hu _ => hu⟩
  · exact ⟨Nat.le_of_lt hlt, fun _ he => by omega⟩

theorem step_reap (h : Reaping t) (ho : t.Orderly call) :
    Reaping (t.step call) ∧
      ∀ i, (t.processes i).used = true → ((t.step call).processes i).used = false →
        call ≠ .abort (t.processes i).pid →
        ((t.step call).processes i).teardownComplete = true ∧ ∀ k, ¬ (t.step call).Awaits k (t.processes i).pid := by
  have quiet : ∀ u, Quiet t u → Reaping u ∧
      ∀ i, (t.processes i).used = true → (u.processes i).used = false → call ≠ .abort (t.processes i).pid →
        (u.processes i).teardownComplete = true ∧ ∀ k, ¬ u.Awaits k (t.processes i).pid :=
    fun u hq => ⟨hq.reap h, fun i hu hn _ => hq.freed i hu hn⟩
  cases call with
  | begin pid parent waitable flags pgid =>
    refine ⟨begin_reap h .., ?_⟩
    intro i hu hn
    rw [step, (begin_grow t pid parent waitable flags pgid).records i hu, hu] at hn
    cases hn
  | abort pid =>
    refine ⟨abort_reap h pid, ?_⟩
    intro i hu hn hne
    have hr : (t.processes i).Same ((t.undone pid).processes i) := h.undone_record ⟨hu, rfl⟩ fun he => hne (by rw [he])
    rw [step, abort_eq] at hn
    rw [show (((t.undone pid).dropChildren pid).changed.processes i).used = ((t.undone pid).processes i).used from rfl,
      hr.used, hu] at hn
    cases hn
  | commit => exact quiet _ (commit_minor ..).toQuiet
  | exit =>
    obtain ⟨hr, hf⟩ := exit_reap h ..
    exact ⟨hr, fun i hu hn _ => hf i hu hn⟩
  | forget =>
    obtain ⟨hr, hf⟩ := forget_reap h ho
    exact ⟨hr, fun i hu hn _ => hf i hu hn⟩
  | setpgid => exact quiet _ (setpgid_quiet ..)
  | wait =>
    obtain ⟨hr, hf⟩ := wait_reap h ..
    exact ⟨hr, fun i hu hn _ => hf i hu hn⟩
  | stop => exact quiet _ (stop_minor ..).toQuiet
  | resume => exact quiet _ (resume_minor ..).toQuiet
  | acquire => exact quiet _ (acquire_referred ..).quiet
  | tryRetain => exact quiet _ (tryRetain_referred ..).quiet
  | releaseRef => exact quiet _ (releaseRef_referred ..).quiet

/-! ## Whole runs -/

/-- The table under any calls. -/
def machine : Machine Table Call where
  init t := t = {}
  step t call t' := t' = t.step call

/-- The table under calls in the scheduler's order. -/
def orderly : Machine Table Call := machine.restrict Orderly

theorem orderly_reap (h : orderly.Reach t) : Reaping t := by
  refine h.invariant ?_ ?_
  · intro s hs
    subst hs
    constructor <;> simp [Holds, Awaits]
  · intro s call s' hs hstep
    obtain ⟨ho, rfl⟩ := hstep
    exact (step_reap hs ho).1

/-- The child records, with their identities, whose final status the calls of a run take. -/
def reaped (t : Table) : List Call → List (Nat × Nat)
  | [] => []
  | call :: calls =>
    ((t.reaps call).map fun k => (k, (t.children k).identityGeneration)).toList ++ reaped (t.step call) calls

/-- What is taken later was there before, or is newer. -/
theorem reaped_later {calls : List Call} {g : Nat} (h : (k, g) ∈ reaped t calls) :
    (t.children k).identityGeneration ≤ g ∧ (g = (t.children k).identityGeneration → (t.children k).used = true) := by
  induction calls generalizing t with
  | nil => simp [reaped] at h
  | cons call calls ih =>
    rw [reaped, mem_append] at h
    rcases h with hnow | hlater
    · obtain ⟨l, hl, he⟩ := Option.map_eq_some_iff.1 (Option.mem_toList.1 hnow)
      cases he
      exact ⟨Nat.le_refl _, fun _ => (reaps_spec hl).1⟩
    obtain ⟨hle, hused⟩ := ih hlater
    obtain ⟨hmono, hback⟩ := step_identity t call k
    refine ⟨Nat.le_trans hmono hle, ?_⟩
    intro he
    have hsame : ((t.step call).children k).identityGeneration = (t.children k).identityGeneration := by omega
    exact hback (hused (he.trans hsame.symm)) hsame

theorem reaps_frees (h : t.reaps call = some k) : ((t.step call).children k).used = false ∧
      ((t.step call).children k).identityGeneration = (t.children k).identityGeneration := by
  obtain ⟨-, hd, parent, _, _, _, rfl, -, -, hstep⟩ := reaps_spec h
  rw [hstep]
  have hq := consume_done hd parent
  have hq' := (addTimes_minor t parent (t.children k).pid).toQuiet
  have hs := discard_shrink (t.addTimes parent (t.children k).pid) k
  refine ⟨(hq.children k).used.trans ?_, (hq.children k).identity.trans ((hs.identity k).trans (hq'.children k).identity)⟩
  simp [discard, Table.setChild]

theorem reaped_nodup (calls : List Call) (t : Table) : (reaped t calls).Nodup := by
  induction calls generalizing t with
  | nil => exact nodup_nil
  | cons call calls ih =>
    rw [reaped]
    cases hr : t.reaps call with
    | none => exact ih _
    | some k =>
      refine nodup_cons.2 ⟨?_, ih _⟩
      intro hmem
      obtain ⟨hfree, hsame⟩ := reaps_frees hr
      rw [(reaped_later hmem).2 hsame.symm] at hfree
      cases hfree

/-! ## What an exit publishes -/

theorem publishEnd_child (p : Option Nat) (code signal : UInt64) (t : Table) (k l : Nat) :
    (publishEnd p code signal t k).children l =
      if l = k ∧ (t.children k).done = false then ended (t.children k) code signal else t.children l := by
  have hkids : (p.elim t fun i => t.setProcess i { t.processes i with uncollected := true }).children =
      t.children := by
    cases p <;> rfl
  unfold publishEnd
  cases hd : (t.children k).done with
  | true => simp [hkids]
  | false =>
    by_cases hl : l = k
    · subst hl
      simp [changed, Table.setChild]
    · simp [changed, Table.setChild, hl, hkids]

theorem exitChild_other {l : Nat} (hl : l ≠ k) (p : Option Nat) (code signal : UInt64) :
    (exitChild pid p code signal t k).children l = t.children l := by
  have hpub : (if (t.children k).pid == pid then publishEnd p code signal t k else t).children l = t.children l := by
    split
    · simp [publishEnd_child, hl]
    · rfl
  rw [exitChild_eq]
  split
  · rfl
  dsimp only
  split
  · simpa only [Table.setChild, Function.update_of_ne hl, collected_children] using hpub
  · exact hpub

/-- The child record of the exiting process gets its final status, once. -/
theorem exitChild_self (p : Option Nat) (code signal : UInt64) (hk : t.Awaits k pid)
    (hpar : (t.children k).parent ≠ pid) : (exitChild pid p code signal t k).children k =
      if (t.children k).done then t.children k else ended (t.children k) code signal := by
  simp only [exitChild_eq, hk.1, hk.2, beq_self_eq_true, beq_eq_false_iff_ne.2 hpar, Bool.not_true,
    Bool.false_eq_true, if_true, if_false, publishEnd_child]
  cases (t.children k).done <;> simp

theorem exitLoop_other {l : Nat} (hl : l ∉ ks) (p : Option Nat) (code signal : UInt64) :
    (ks.foldl (exitChild pid p code signal) t).children l = t.children l := by
  induction ks generalizing t with
  | nil => rfl
  | cons k ks ih =>
    rw [mem_cons, not_or] at hl
    rw [foldl_cons, ih hl.2, exitChild_other hl.1]

theorem exitLoop_self (hks : ks.Nodup) (hmem : k ∈ ks) (p : Option Nat) (code signal : UInt64)
    (hk : t.Awaits k pid) (hpar : (t.children k).parent ≠ pid) :
    (ks.foldl (exitChild pid p code signal) t).children k =
      if (t.children k).done then t.children k else ended (t.children k) code signal := by
  induction ks generalizing t with
  | nil => simp at hmem
  | cons j ks ih =>
    obtain ⟨hj, hks⟩ := nodup_cons.1 hks
    rw [foldl_cons]
    by_cases hjk : k = j
    · subst hjk
      rw [exitLoop_other hj, exitChild_self p code signal hk hpar]
    have hsame : (exitChild pid p code signal t j).children k = t.children k := exitChild_other hjk p code signal
    have hmem : k ∈ ks := (mem_cons.1 hmem).resolve_left hjk
    rw [ih hks hmem (by rw [Awaits, hsame]; exact hk) (by rw [hsame]; exact hpar), hsame]

theorem exit_publishes (h : ReapInv P t) (hu : (t.children k).used = true)
    (code signal ticks utime stime : UInt64) :
    ((t.processRecordExitAccountedTimes (t.children k).pid code signal ticks utime stime).2.children k) =
      if (t.children k).done then t.children k else ended (t.children k) code signal := by
  have hkids : (t.exitRecord (t.children k).pid ticks utime stime).children = t.children := by
    unfold exitRecord groupLeave
    split
    · rfl
    dsimp only
    split <;> rfl
  have hpar := (h.parents k _ ⟨hu, rfl⟩).2
  have hk : (t.exitRecord (t.children k).pid ticks utime stime).Awaits k (t.children k).pid := by
    rw [Awaits, hkids]
    exact ⟨hu, rfl⟩
  have hloop := exitLoop_self nodup_range (mem_range.2 (h.childRange k hu)) (t.find (t.children k).pid)
    code signal hk (by rw [hkids]; exact hpar)
  rw [hkids] at hloop
  rw [exit_eq, show ∀ t : Table, t.changed.children = t.children from fun _ => rfl, hloop]

/-! ## The result -/

/-- **Reaping.** No final status is taken twice from one child record, in any run of calls. In runs in the
scheduler's order:

* an exit gives the child record of the process its status, and only the first one does;
* from then on a wait of the parent for that child returns this status;
* until the creation is undone, the parent exits, or the status is taken, the child record stays with its
  status;
* a process record goes exactly when it is torn down and no child record of the process is left, unless the
  creation is undone. -/
theorem process_reaping :
    (∀ calls, (reaped {} calls).Nodup) ∧
    ∀ t, orderly.Reach t →
      (∀ k code signal ticks utime stime, (t.children k).used = true →
        (t.processRecordExitAccountedTimes (t.children k).pid code signal ticks utime stime).2.children k =
          if (t.children k).done then t.children k else ended (t.children k) code signal) ∧
      (∀ k options legacy, (t.children k).used = true → (t.children k).done = true →
        waitValid (t.children k).pid options = true →
        (t.processRecordWait (t.children k).parent (t.children k).pid options legacy).1 =
          .child (t.children k).pid (statusWord legacy (t.children k))) ∧
      (∀ call k, (t.children k).used = true →
        (((t.step call).children k).used = true ∧ (t.children k).Kept ((t.step call).children k)) ∨
          t.Dropped call k) ∧
      (∀ call i, t.Orderly call → (t.processes i).used = true → call ≠ .abort (t.processes i).pid →
        (((t.step call).processes i).used = false ↔
          ((t.step call).processes i).teardownComplete = true ∧
            ∀ k, ¬ (t.step call).Awaits k (t.processes i).pid)) := by
  refine ⟨fun calls => reaped_nodup calls {}, ?_⟩
  intro t ht
  have hinv := orderly_reap ht
  refine ⟨?_, ?_, ?_, ?_⟩
  · intro k code signal ticks utime stime hu
    exact exit_publishes hinv hu code signal ticks utime stime
  · intro k options legacy hu hd hv
    exact wait_returns hinv hu hd hv legacy
  · intro call k hu
    exact step_child call hu
  intro call i ho hu hne
  obtain ⟨hinv', hfreed⟩ := step_reap hinv ho
  refine ⟨fun hn => hfreed i hu hn hne, ?_⟩
  intro ⟨htorn, hnone⟩
  cases hu' : ((t.step call).processes i).used with
  | false => rfl
  | true =>
    -- a torn down record that stayed has a status to collect, so a child record
    have hpid : ((t.step call).processes i).pid = (t.processes i).pid := by
      rcases step_shape t call with hs | hg
      · exact (hs.records i).1
      · rw [hg.records i hu]
    obtain ⟨k, hk⟩ := hinv'.waited i _ ⟨hu', hpid⟩ (hinv'.torn i hu' htorn)
    exact absurd hk (hnone k)

theorem run_concat (calls : List Call) (call : Call) : run (calls ++ [call]) = (run calls).step call := foldl_append

/-- A parent, its child, and the child's exit. -/
def childExited : List Call := [.begin 1 0 false 0 0, .begin 2 1 true 0 0, .exit 2 7 0 0 0 0]

theorem childExited_reach : orderly.Reach (run childExited) :=
  .step (i := .exit 2 7 0 0 0 0)
    (.step (i := .begin 2 1 true 0 0) (.step (i := .begin 1 0 false 0 0) (.init rfl) ⟨trivial, rfl⟩) ⟨trivial, rfl⟩)
    ⟨trivial, rfl⟩

/-- Then a wait of the parent, which takes the status. -/
def childTaken : List Call := childExited ++ [.wait 1 2 0 false]

/-- The record of the child goes with the forget that follows. -/
theorem process_reaping_taken :
    ((run childExited).processRecordWait 1 2 0 false).1 = .child 2 0x700 ∧
      ((run (childTaken ++ [.forget 2])).processes 1).used = false ∧
      ((run (childTaken ++ [.forget 2])).processes 1).teardownComplete = true ∧
      ∀ k, ¬ (run (childTaken ++ [.forget 2])).Awaits k ((run childTaken).processes 1).pid := by
  have hchild : ((run childExited).children 0).pid = 2 ∧ ((run childExited).children 0).parent = 1 ∧
    statusWord false ((run childExited).children 0) = 0x700 := by decide +kernel
  have hwait := (process_reaping.2 _ childExited_reach).2.1 0 0 false (by decide +kernel) (by decide +kernel)
    (by decide +kernel)
  rw [hchild.1, hchild.2.1, hchild.2.2] at hwait
  have hreach : orderly.Reach (run childTaken) := .step (i := .wait 1 2 0 false) childExited_reach ⟨trivial, rfl⟩
  have hheld : (run childTaken).Holds 1 2 ∧ ((run childTaken).processes 1).exited = true := by
    unfold Holds
    decide +kernel
  have horder : (run childTaken).Orderly (.forget 2) := fun i hi => by
    rw [(orderly_reap hreach).pids i 1 2 hi hheld.1]
    exact hheld.2
  have hgone : ((run (childTaken ++ [.forget 2])).processes 1).used = false := by decide +kernel
  have hfreed := (process_reaping.2 _ hreach).2.2.2 (.forget 2) 1 horder hheld.1.1 nofun
  rw [← run_concat] at hfreed
  exact ⟨hwait, hgone, hfreed.1 hgone⟩

/-- A parent, its child, and the child forgotten before its exit. -/
def childForgotten : List Call := [.begin 1 0 false 0 0, .begin 2 1 true 0 0, .forget 2]

/-- A wait that only peeks returns the final status again and again, and a process that is forgotten before
its exit loses its record while its parent may still wait for the status to come. -/
theorem reaping_peeked_or_early :
    (((run childExited).processRecordWait 1 2 WNOWAIT false).1 = .child 2 0x700 ∧
      (((run childExited).processRecordWait 1 2 WNOWAIT false).2.processRecordWait 1 2 WNOWAIT false).1 =
        .child 2 0x700) ∧
    ((run childForgotten).find 2 = none ∧ (run childForgotten).Awaits 0 2 ∧
      ((run (childForgotten ++ [.exit 2 7 0 0 0 0])).processRecordWait 1 2 0 false).1 = .child 2 0x700) := by
  refine ⟨⟨by decide +kernel, by decide +kernel⟩, by decide +kernel, ⟨by decide +kernel, by decide +kernel⟩,
    by decide +kernel⟩

end Table

end Fortress.Process
