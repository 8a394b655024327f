/-
Doubly linked lists: nodes are numbers, zero is the null pointer, and the
links of all nodes are a map. The list that a chain of links spells out is
said by `Seg`, from a first node with what comes before it to a last node
with what comes after it.
-/
import Mathlib

namespace Fortress

@[grind ext]
structure Link where
  next : Nat
  prev : Nat
  deriving DecidableEq, Repr

/-- From `cur`, reached from `prev`, the links run through `l` and stop at `last`, going on to `stop`. -/
def Seg (link : Nat → Link) : Nat → List Nat → Nat → Nat → Nat → Prop
  | prev, [], cur, last, stop => prev = last ∧ cur = stop
  | prev, n :: l, cur, last, stop => cur = n ∧ n ≠ 0 ∧ (link n).prev = prev ∧ Seg link n l (link n).next last stop

/-- The whole list from `head`. -/
def Chain (link : Nat → Link) (l : List Nat) (head : Nat) : Prop := ∃ last, Seg link 0 l head last 0

namespace Seg

variable {link link' : Nat → Link} {prev cur last stop n : Nat} {l l₁ l₂ : List Nat}

theorem append : ∀ {l₁ : List Nat} {prev cur : Nat}, Seg link prev (l₁ ++ l₂) cur last stop ↔
    ∃ mid at', Seg link prev l₁ cur mid at' ∧ Seg link mid l₂ at' last stop
  | [], prev, cur => by simp [Seg]
  | n :: l₁, prev, cur => by
    simp only [List.cons_append, Seg, append]
    grind

/-- Only the links of the list's own nodes matter. -/
theorem congr : ∀ {l : List Nat} {prev cur : Nat}, (∀ n ∈ l, link' n = link n) → Seg link prev l cur last stop →
    Seg link' prev l cur last stop
  | [], _, _, _, h => h
  | n :: l, _, _, heq, ⟨hc, hn, hp, h⟩ => by
    rw [Seg, heq n (.head _)]
    exact ⟨hc, hn, hp, congr (fun x hx => heq x (.tail _ hx)) h⟩

theorem ne_zero : ∀ {l : List Nat} {prev cur : Nat}, Seg link prev l cur last stop → ∀ n ∈ l, n ≠ 0
  | _ :: _, _, _, ⟨_, hn, _, _⟩, _, .head _ => hn
  | _ :: _, _, _, ⟨_, _, _, h⟩, _, .tail _ hm => ne_zero h _ hm

/-- The last node is the one before, or one of the list. -/
theorem last_mem : ∀ {l : List Nat} {prev cur : Nat}, Seg link prev l cur last stop → last = prev ∨ last ∈ l
  | [], _, _, h => .inl h.1.symm
  | n :: l, _, _, ⟨_, _, _, h⟩ => by
    exact .inr (List.mem_cons.2 (last_mem h))

theorem last_mem_of_ne_nil (hl : l ≠ []) (h : Seg link prev l cur last stop) : last ∈ l := by
  cases l with
  | nil => exact absurd rfl hl
  | cons n l =>
    obtain ⟨_, _, _, h⟩ := h
    exact List.mem_cons.2 h.last_mem

/-- The node after an empty list's start is where it stops. -/
theorem cur_mem : ∀ {l : List Nat} {prev cur : Nat}, Seg link prev l cur last stop → cur = stop ∨ cur ∈ l
  | [], _, _, h => .inl h.2
  | _ :: _, _, _, ⟨hc, _, _, _⟩ => .inr (hc ▸ List.mem_cons_self ..)

theorem set_next : ∀ {l : List Nat} {prev cur x : Nat}, l ≠ [] → l.Nodup →
    Seg link prev l cur last stop → (∀ n ∈ l, link' n = if n = last then { link n with next := x } else link n) →
    Seg link' prev l cur last x
  | [n], prev, cur, x, _, _, ⟨hc, hn, hp, hlast, _⟩, heq => by
    have hl := heq n (.head _)
    rw [if_pos hlast] at hl
    exact ⟨hc, hn, by rw [hl]; exact hp, hlast, by rw [hl]⟩
  | n :: k :: l, prev, cur, x, _, hnd, ⟨hc, hn, hp, h⟩, heq => by
    have hne : n ≠ last := by
      rintro rfl
      -- the last node is further on
      exact (List.nodup_cons.1 hnd).1 (h.last_mem_of_ne_nil (by simp))
    have hl := heq n (.head _)
    rw [if_neg hne] at hl
    refine ⟨hc, hn, by rw [hl]; exact hp, ?_⟩
    rw [hl]
    exact set_next (by simp) (List.nodup_cons.1 hnd).2 h fun y hy => heq y (.tail _ hy)

theorem set_prev {x : Nat} (h : Seg link prev (n :: l) cur last stop)
    (hfirst : link' n = { link n with prev := x }) (hrest : ∀ y ∈ l, link' y = link y) :
    Seg link' x (n :: l) cur last stop := by
  obtain ⟨hc, hn, _, h⟩ := h
  refine ⟨hc, hn, by rw [hfirst], ?_⟩
  rw [hfirst]
  exact h.congr hrest

end Seg

namespace Chain

variable {link link' : Nat → Link} {l : List Nat} {head n : Nat}

theorem congr (heq : ∀ n ∈ l, link' n = link n) (h : Chain link l head) : Chain link' l head :=
  h.imp fun _ h => Seg.congr heq h

theorem ne_zero (h : Chain link l head) (hn : n ∈ l) : n ≠ 0 :=
  let ⟨_, h⟩ := h
  h.ne_zero n hn

theorem head_mem (h : Chain link l head) (hh : head ≠ 0) : head ∈ l := by
  obtain ⟨_, h⟩ := h
  exact h.cur_mem.resolve_left hh

/-- Around a node: its neighbours are in the list and point back at it. -/
theorem neighbours (h : Chain link l head) (hn : n ∈ l) :
    ((link n).next ≠ 0 → (link n).next ∈ l ∧ (link (link n).next).prev = n) ∧
    ((link n).prev ≠ 0 → (link n).prev ∈ l ∧ (link (link n).prev).next = n) ∧
    ((link n).prev = 0 → head = n) := by
  obtain ⟨last, h⟩ := h
  obtain ⟨l₁, l₂, rfl⟩ := List.append_of_mem hn
  obtain ⟨mid, at', h1, hat, hne, hprev, h2⟩ := Seg.append.1 h
  subst hat
  refine ⟨fun hnext => ?_, fun hp => ?_, fun hp => ?_⟩
  · cases l₂ with
    | nil => exact absurd h2.2 hnext
    | cons k l₂ =>
      obtain ⟨hk, _, hkp, _⟩ := h2
      rw [hk]
      exact ⟨by simp, hkp⟩
  · rw [hprev] at hp ⊢
    rcases List.eq_nil_or_concat l₁ with rfl | ⟨l₁, p, rfl⟩
    · exact absurd h1.1.symm hp
    obtain ⟨m', a', _, ha', _, _, hm, hnext⟩ := Seg.append.1 (by simpa using h1)
    subst hm
    exact ⟨by simp, hnext⟩
  by_cases hl1 : l₁ = []
  · subst hl1
    exact h1.2
  · exact absurd (hprev.symm.trans hp) (h1.ne_zero _ (h1.last_mem_of_ne_nil hl1))

theorem cons (h : Chain link l head) (hn : n ≠ 0) (hnl : n ∉ l) (hnew : link' n = ⟨head, 0⟩)
    (hold : ∀ x ∈ l, link' x = if x = head then { link x with prev := n } else link x) (hnd : l.Nodup) :
    Chain link' (n :: l) n := by
  obtain ⟨last, h⟩ := h
  cases l with
  | nil =>
    refine ⟨n, rfl, hn, by rw [hnew], rfl, ?_⟩
    rw [hnew]
    exact h.2
  | cons k l =>
    have hk : head = k := h.1
    refine ⟨last, rfl, hn, by rw [hnew], ?_⟩
    rw [hnew]
    exact h.set_prev (by grind) fun y hy => by grind

/-- Taking a node out: its neighbours are linked to each other. -/
theorem erase (h : Chain link l head) (hn : n ∈ l) (hnd : l.Nodup)
    (hlink : ∀ x ∈ l, x ≠ n → link' x =
      ⟨if x = (link n).prev then (link n).next else (link x).next,
        if x = (link n).next then (link n).prev else (link x).prev⟩) :
    Chain link' (l.erase n) (if (link n).prev = 0 then (link n).next else head) := by
  obtain ⟨last, h⟩ := h
  obtain ⟨l₁, l₂, rfl⟩ := List.append_of_mem hn
  obtain ⟨hnd1, hnd2, hdisj⟩ := List.nodup_append.1 hnd
  obtain ⟨hn2, hnd2⟩ := List.nodup_cons.1 hnd2
  have hn1 : n ∉ l₁ := fun hm => hdisj n hm n (.head _) rfl
  obtain ⟨mid, at', h1, hat, hne, hprev, h2⟩ := Seg.append.1 h
  rw [hat] at h1
  have herase : (l₁ ++ n :: l₂).erase n = l₁ ++ l₂ := by
    rw [List.erase_append_right _ hn1, List.erase_cons_head]
  rw [herase]
  have hcross : ∀ x ∈ l₁, ∀ y ∈ l₂, x ≠ y := fun x hx y hy => hdisj x hx y (.tail _ hy)
  -- what follows the node, now reached from what came before it
  have hsecond : Seg link' mid l₂ (link n).next (if l₂ = [] then mid else last) 0 := by
    cases l₂ with
    | nil => exact ⟨by simp, h2.2⟩
    | cons k l₂ =>
      rw [if_neg (by simp)]
      have hk : (link n).next = k := h2.1
      have hmid : ∀ y ∈ k :: l₂, y ≠ mid := by
        rintro y hy rfl
        rcases h1.last_mem with h0 | hm
        · exact Seg.ne_zero h2 y hy h0
        · exact hcross y hm y hy rfl
      have := hmid k (.head _)
      refine h2.set_prev ?_ fun y hy => ?_
      · grind
      · have := hmid y (.tail _ hy)
        grind
  have hfirst : Seg link' 0 l₁ (if (link n).prev = 0 then (link n).next else head) mid (link n).next := by
    have hnext : ∀ x ∈ l₁, x ≠ (link n).next := by
      rintro x hx rfl
      rcases h2.cur_mem with h0 | hm
      · exact Seg.ne_zero h1 _ hx h0
      · exact hcross _ hx _ hm rfl
    by_cases hl1 : l₁ = []
    · subst hl1
      have hm0 : 0 = mid := h1.1
      rw [hprev, if_pos hm0.symm]
      exact ⟨hm0, rfl⟩
    have hmid : mid ≠ 0 := h1.ne_zero _ (h1.last_mem_of_ne_nil hl1)
    rw [hprev, if_neg hmid]
    exact h1.set_next hl1 hnd1 fun x hx => by grind
  exact ⟨_, Seg.append.2 ⟨mid, _, hfirst, hsecond⟩⟩

end Chain

end Fortress
