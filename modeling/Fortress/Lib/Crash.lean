/-
Programs over storage that can lose power. A device is the state that is
durable and the operations issued since the last flush; a cut keeps an
arbitrary subset of those. Programs are trees of reads, operations and
flushes, and `Safe C Q` is their logic: every cut on the way leaves a state
in `C`, and the end meets `Q`.
-/
import Mathlib

namespace Fortress.Crash

variable {σ ω ε α β : Type}

structure Dev (σ ω : Type) where
  durable : σ
  pending : List ω := []

variable (ap : σ → ω → σ) (d : Dev σ ω)

/-- What a read sees: the durable state under all operations issued. -/
def Dev.view : σ := d.pending.foldl ap d.durable

def Dev.issue (d : Dev σ ω) (o : ω) : Dev σ ω := { d with pending := d.pending ++ [o] }

def Dev.flush : Dev σ ω := { durable := d.view ap }

/-- A power cut on `d` can leave `t`. -/
def Cut (t : σ) : Prop :=
  ∃ l : List ω, l.Sublist d.pending ∧ t = l.foldl ap d.durable

variable {d : Dev σ ω} {t : σ}

theorem Cut.issue {ap : σ → ω → σ} (h : Cut ap d t) (o : ω) : Cut ap (d.issue o) t := by
  obtain ⟨l, hl, ht⟩ := h
  exact ⟨l, hl.trans (List.sublist_append_left _ _), ht⟩

theorem cut_of_nil {ap : σ → ω → σ} {s t : σ} : Cut ap { durable := s } t ↔ t = s := by
  constructor
  · rintro ⟨l, hl, rfl⟩
    rw [List.sublist_nil.1 hl]
    rfl
  · rintro rfl
    exact ⟨[], List.Sublist.refl _, rfl⟩

variable {o : ω}

theorem cut_of_singleton {ap : σ → ω → σ} {s t : σ} :
    Cut ap { durable := s, pending := [o] } t ↔ t = s ∨ t = ap s o := by
  constructor
  · rintro ⟨l, hl, rfl⟩
    rcases List.sublist_singleton.1 hl with rfl | rfl
    · exact .inl rfl
    · exact .inr rfl
  · rintro (rfl | rfl)
    · exact ⟨[], List.nil_sublist _, rfl⟩
    · exact ⟨[o], List.Sublist.refl _, rfl⟩

/-- What no outstanding operation changes, no cut changes. -/
theorem Cut.induct {ap : σ → ω → σ} {P : σ → Prop} (h : Cut ap d t) (h0 : P d.durable)
    (hs : ∀ s, ∀ o ∈ d.pending, P s → P (ap s o)) : P t := by
  obtain ⟨l, hl, rfl⟩ := h
  have hmem : ∀ o ∈ l, o ∈ d.pending := fun o ho => hl.subset ho
  clear hl
  generalize d.durable = s at h0
  induction l generalizing s with
  | nil => exact h0
  | cons o l ih =>
    exact ih (fun p hp => hmem p (List.mem_cons_of_mem o hp)) _ (hs _ o (hmem o (.head _)) h0)

/-! ## Programs -/

/-- A program that ends with a value or an error. -/
inductive Prog (σ ω ε α : Type) where
  | ret (a : α)
  | fail (e : ε)
  | get (k : σ → Prog σ ω ε α)
  | put (o : ω) (k : Prog σ ω ε α)
  | sync (k : Prog σ ω ε α)

namespace Prog

def bind : Prog σ ω ε α → (α → Prog σ ω ε β) → Prog σ ω ε β
  | .ret a, f => f a
  | .fail e, _ => .fail e
  | .get k, f => .get fun s => (k s).bind f
  | .put o k, f => .put o (k.bind f)
  | .sync k, f => .sync (k.bind f)

instance : Monad (Prog σ ω ε) where
  pure := .ret
  bind := bind

def read (f : σ → α) : Prog σ ω ε α := .get fun s => .ret (f s)

def issue (o : ω) : Prog σ ω ε Unit := .put o (.ret ())

def flush : Prog σ ω ε Unit := .sync (.ret ())

variable (ap : σ → ω → σ)

def run : Prog σ ω ε α → Dev σ ω → Except ε α × Dev σ ω
  | .ret a, d => (.ok a, d)
  | .fail e, d => (.error e, d)
  | .get k, d => run (k (d.view ap)) d
  | .put o k, d => run k (d.issue o)
  | .sync k, d => run k (d.flush ap)

/-- A power cut at some point of the run, its end included, leaves `t`. -/
def Crashes : Prog σ ω ε α → Dev σ ω → σ → Prop
  | .ret _, d, t => Cut ap d t
  | .fail _, d, t => Cut ap d t
  | .get k, d, t => Crashes (k (d.view ap)) d t
  | .put o k, d, t => Cut ap d t ∨ Crashes k (d.issue o) t
  | .sync k, d, t => Cut ap d t ∨ Crashes k (d.flush ap) t

end Prog

/-! ## The logic -/

variable {ap : σ → ω → σ} {C : σ → Prop} {Q : Except ε α → Dev σ ω → Prop}

/-- Every cut of the program from `d` is in `C` and its end is in `Q`. -/
def Safe (ap : σ → ω → σ) (C : σ → Prop) (Q : Except ε α → Dev σ ω → Prop) (p : Prog σ ω ε α) (d : Dev σ ω) : Prop :=
  (∀ t, p.Crashes ap d t → C t) ∧ Q (p.run ap d).1 (p.run ap d).2

variable {p : Prog σ ω ε α}

theorem Prog.crashes_of_cut (h : Cut ap d t) : p.Crashes ap d t := by
  induction p with
  | ret | fail => exact h
  | get k ih => exact ih _
  | put | sync => exact .inl h

theorem safe_ret {a : α} (hc : ∀ t, Cut ap d t → C t) (hq : Q (.ok a) d) : Safe ap C Q (.ret a) d :=
  ⟨hc, hq⟩

theorem safe_fail {e : ε} (hc : ∀ t, Cut ap d t → C t) (hq : Q (.error e) d) : Safe ap C Q (.fail e) d :=
  ⟨hc, hq⟩

/-- An operation adds nothing to show: its cuts are among those of what follows. -/
theorem safe_put {k : Prog σ ω ε α} (h : Safe ap C Q k (d.issue o)) : Safe ap C Q (.put o k) d := by
  refine ⟨fun t ht => ?_, h.2⟩
  rcases ht with ht | ht
  · exact h.1 t (Prog.crashes_of_cut (ht.issue o))
  · exact h.1 t ht

theorem safe_sync {k : Prog σ ω ε α} (hc : ∀ t, Cut ap d t → C t) (h : Safe ap C Q k (d.flush ap)) :
    Safe ap C Q (.sync k) d :=
  ⟨fun t ht => ht.elim (hc t) (h.1 t), h.2⟩

theorem Safe.mono {C' : σ → Prop} {Q' : Except ε α → Dev σ ω → Prop}
    (h : Safe ap C Q p d) (hc : ∀ t, C t → C' t) (hq : ∀ r d', Q r d' → Q' r d') : Safe ap C' Q' p d :=
  ⟨fun t ht => hc t (h.1 t ht), hq _ _ h.2⟩

/-- What follows a program is reasoned about from where it ends. -/
def Then (ap : σ → ω → σ) (C : σ → Prop) (Q : Except ε β → Dev σ ω → Prop) (f : α → Prog σ ω ε β) :
    Except ε α → Dev σ ω → Prop
  | .ok a, d => Safe ap C Q (f a) d
  | .error e, d => Q (.error e) d

variable {Q : Except ε β → Dev σ ω → Prop}

theorem safe_bind {f : α → Prog σ ω ε β} (h : Safe ap C (Then ap C Q f) p d) : Safe ap C Q (p >>= f) d := by
  induction p generalizing d with
  | ret a => exact h.2
  | fail e => exact h
  | get k ih => exact ih _ h
  | put o k ih => exact safe_put (ih ⟨fun t ht => h.1 t (.inr ht), h.2⟩)
  | sync k ih => exact safe_sync (fun t ht => h.1 t (.inl ht)) (ih ⟨fun t ht => h.1 t (.inr ht), h.2⟩)

theorem safe_read {f : σ → α} {k : α → Prog σ ω ε β} :
    Safe ap C Q (Prog.read f >>= k) d ↔ Safe ap C Q (k (f (d.view ap))) d :=
  Iff.rfl

variable {k : Unit → Prog σ ω ε β}

theorem safe_issue (h : Safe ap C Q (k ()) (d.issue o)) : Safe ap C Q (Prog.issue o >>= k) d :=
  safe_put h

theorem safe_flush (hc : ∀ t, Cut ap d t → C t) (h : Safe ap C Q (k ()) { durable := d.view ap }) :
    Safe ap C Q (Prog.flush >>= k) d :=
  safe_sync hc h

end Fortress.Crash
