/-
Physical frames and user address spaces as the loader uses them (mm/pmm.c,
mm/vmm.c). The allocator answers from a script: an answer that is no aligned
free frame is a failure, so every pattern of failures and every choice of
frames is some script. An address space is its root, its page tables by level
and index, and its leaves; the bytes of the tables themselves are not modelled.
A free of a frame that is not in use is recorded (`badFree`), and what the
loader gives back is read off the list of frames in use.
-/
import Fortress.Elf.Layout
import Fortress.Lib.Memory

namespace Fortress.Elf

open List

structure Flags where
  writable : Bool
  noExec : Bool
  deriving DecidableEq

/-- A present leaf entry: user pages only. -/
structure Leaf where
  page : Nat
  frame : Nat
  flags : Flags

/-- A page table of level 0 (PDPT), 1 (PD) or 2 (PT), by the address bits above it. -/
structure Table where
  index : Nat × Nat
  frame : Nat

structure Space where
  root : Nat
  tables : List Table := []
  leaves : List Leaf := []

structure Vm where
  mem : Mem
  /-- The frames in use. -/
  used : List Nat
  /-- The roots of the registered address spaces. -/
  spaces : List Nat
  /-- What the frame allocator will answer. -/
  answers : List (Option Nat)
  /-- Which of the coming address space and map requests fail for another reason. -/
  refusals : List Bool := []
  badFree : Bool := false

namespace Vm

def alloc (v : Vm) : Option Nat × Vm :=
  match v.answers with
  | [] => (none, v)
  | none :: rest => (none, { v with answers := rest })
  | some f :: rest =>
    if f = 0 ∨ f % PAGE_SIZE ≠ 0 ∨ f ∈ v.used then (none, { v with answers := rest })
    else (some f, { v with answers := rest, used := f :: v.used })

def free (v : Vm) (f : Nat) : Vm :=
  if f ∈ v.used then { v with used := v.used.erase f } else { v with badFree := true }

def freeAll (v : Vm) (fs : List Nat) : Vm := fs.foldl free v

def refuse (v : Vm) : Bool × Vm :=
  match v.refusals with
  | [] => (false, v)
  | r :: rest => (r, { v with refusals := rest })

/-- A fresh user address space: nothing mapped below the kernel half. -/
def createUserPml4 (v : Vm) : Option Space × Vm :=
  match v.refuse with
  | (true, v) => (none, v)
  | (false, v) =>
    match v.alloc with
    | (none, v) => (none, v)
    | (some root, v) => (some { root := root }, { v with spaces := root :: v.spaces })

/-- Up to `n` frames for page tables; stops at the first failure. -/
def spares (v : Vm) : Nat → List Nat × Vm
  | 0 => ([], v)
  | n + 1 =>
    match v.alloc with
    | (none, v) => ([], v)
    | (some f, v) => let r := v.spares n; (f :: r.1, r.2)

end Vm

/-- The tables above a page, by level. -/
def tableIndices (page : Nat) : List (Nat × Nat) := [(0, page / 2 ^ 39), (1, page / 2 ^ 30), (2, page / 2 ^ 21)]

/-- The tables a mapping still needs: from the first missing level down. -/
def Space.missingTables (sp : Space) (page : Nat) : List (Nat × Nat) :=
  (tableIndices page).dropWhile fun i => sp.tables.any fun t => t.index == i

def isCanonical (a : Nat) : Bool := a / 2 ^ 47 == 0 || a / 2 ^ 47 == 0x1FFFF

def mapRefused (page frame : Nat) : Bool :=
  page % PAGE_SIZE ≠ 0 || frame % PAGE_SIZE ≠ 0 || !isCanonical page || page ≥ 0xFFFF800000000000

/-- `vmm_map_page` of a user page: whether it succeeded. A page already mapped keeps the new tables. -/
def Vm.mapPage (v : Vm) (sp : Space) (page frame : Nat) (flags : Flags) : Bool × Space × Vm :=
  match v.refuse with
  | (true, v) => (false, sp, v)
  | (false, v) =>
    if mapRefused page frame then (false, sp, v)
    else
      let needed := sp.missingTables page
      let r := v.spares needed.length
      if r.1.length < needed.length then (false, sp, r.2.freeAll r.1.reverse)
      else
        let sp := { sp with tables := sp.tables ++ List.zipWith Table.mk needed r.1.reverse }
        if sp.leaves.any fun l => l.page == page then (false, sp, r.2)
        else (true, { sp with leaves := sp.leaves ++ [⟨page, frame, flags⟩] }, r.2)

def Space.tableFrames (sp : Space) : List Nat := sp.tables.map Table.frame

/-- Everything a space holds: data frames, tables and the root. -/
def Space.frames (sp : Space) : List Nat := sp.leaves.map Leaf.frame ++ (sp.tableFrames ++ [sp.root])

/-- `vmm_destroy_pml4` with the user frames. Frees go by address; their order is of no matter here. -/
def Vm.destroyPml4 (v : Vm) (sp : Space) : Vm :=
  let v := v.freeAll sp.frames
  { v with spaces := v.spaces.erase sp.root }

/-! ## The ledger -/

/-- What `v'` holds beyond `v`, with nothing freed twice on the way and nothing else changed but memory. -/
structure Holds (v v' : Vm) (extra : List Nat) : Prop where
  used : v'.used.Perm (extra ++ v.used)
  badFree : v'.badFree = v.badFree
  spaces : v'.spaces = v.spaces

theorem Holds.refl (v : Vm) : Holds v v [] := ⟨List.Perm.refl _, rfl, rfl⟩

variable {v v' : Vm} {needed : List (Nat × Nat)} {a b fs : List Nat}

theorem Holds.mono (h : Holds v v' a) (hab : a.Perm b) : Holds v v' b :=
  ⟨h.used.trans (hab.append_right _), h.badFree, h.spaces⟩

theorem Holds.trans {v1 v2 v3 : Vm} (h1 : Holds v1 v2 a) (h2 : Holds v2 v3 b) : Holds v1 v3 (b ++ a) := by
  refine ⟨?_, h2.badFree.trans h1.badFree, h2.spaces.trans h1.spaces⟩
  rw [append_assoc]
  exact h2.used.trans (h1.used.append_left b)

theorem Vm.alloc_none (h : v.alloc = (none, v')) : Holds v v' [] ∧ v'.mem = v.mem := by
  unfold alloc at h
  split at h
  · cases h
    exact ⟨.refl v, rfl⟩
  · cases h
    exact ⟨⟨List.Perm.refl _, rfl, rfl⟩, rfl⟩
  split at h
  · cases h
    exact ⟨⟨List.Perm.refl _, rfl, rfl⟩, rfl⟩
  · cases h

/-- A frame the allocator hands out is aligned and was free. -/
theorem Vm.alloc_some {f : Nat} (h : v.alloc = (some f, v')) :
    f % PAGE_SIZE = 0 ∧ f ∉ v.used ∧ Holds v v' [f] ∧ v'.mem = v.mem := by
  unfold alloc at h
  split at h
  · cases h
  · cases h
  split at h
  · cases h
  rename_i hf
  simp only [not_or, not_not] at hf
  cases h
  exact ⟨hf.2.1, hf.2.2, ⟨List.Perm.refl _, rfl, rfl⟩, rfl⟩

theorem Vm.freeAll_holds {fs rest : List Nat} (h : Holds v v' (fs ++ rest)) :
    Holds v (v'.freeAll fs) rest ∧ (v'.freeAll fs).mem = v'.mem := by
  induction fs generalizing v' with
  | nil => exact ⟨h, rfl⟩
  | cons f fs ih =>
    have hmem : f ∈ v'.used := h.used.symm.subset (by simp)
    have hfree : v'.free f = { v' with used := v'.used.erase f } := if_pos hmem
    have hstep : Holds v (v'.free f) (fs ++ rest) := by
      rw [hfree]
      refine ⟨?_, h.badFree, h.spaces⟩
      have := h.used.erase f
      simpa using this
    obtain ⟨h1, h2⟩ := ih hstep
    refine ⟨h1, h2.trans ?_⟩
    rw [hfree]

theorem Vm.refuse_holds (v : Vm) : Holds v v.refuse.2 [] ∧ v.refuse.2.mem = v.mem ∧ v.refuse.2.used = v.used := by
  unfold refuse
  split <;> exact ⟨⟨List.Perm.refl _, rfl, rfl⟩, rfl, rfl⟩

theorem Vm.spares_holds (v : Vm) (n : Nat) :
    Holds v (v.spares n).2 (v.spares n).1 ∧ (v.spares n).2.mem = v.mem ∧ (v.spares n).1.length ≤ n := by
  induction n generalizing v with
  | zero => exact ⟨.refl v, rfl, Nat.le_refl _⟩
  | succ n ih =>
    unfold spares
    cases ha : v.alloc with
    | mk a v1 =>
      cases a with
      | none =>
        obtain ⟨hh, hm⟩ := Vm.alloc_none ha
        exact ⟨hh, hm, Nat.zero_le _⟩
      | some f =>
        obtain ⟨-, -, hh, hm⟩ := Vm.alloc_some ha
        obtain ⟨h1, h2, h3⟩ := ih v1
        exact ⟨(hh.trans h1).mono (perm_append_singleton f _), h2.trans hm, Nat.succ_le_succ h3⟩

/-! ## Mapping and unmapping -/

theorem map_frame_zipWith (h : fs.length = needed.length) :
    (List.zipWith Table.mk needed fs).map Table.frame = fs := by
  induction needed generalizing fs with
  | nil => simpa using h
  | cons i needed ih =>
    cases fs with
    | nil => simp at h
    | cons f fs => simp [ih (by simpa using h)]

theorem tableFrames_append (sp : Space) (h : fs.length = needed.length) :
    Space.tableFrames { sp with tables := sp.tables ++ List.zipWith Table.mk needed fs } |>.Perm
      (fs ++ sp.tableFrames) := by
  unfold Space.tableFrames
  rw [map_append, map_frame_zipWith h]
  exact perm_append_comm

/-- What a mapping request did: it allocated `extra`, all of it now in the tables of `sp'`, and on success added
its leaf. -/
structure Mapped (v : Vm) (sp : Space) (l : Leaf) (ok : Bool) (sp' : Space) (v' : Vm) : Prop where
  ledger : ∃ extra, Holds v v' extra ∧ sp'.tableFrames.Perm (extra ++ sp.tableFrames)
  mem : v'.mem = v.mem
  root : sp'.root = sp.root
  leaves : sp'.leaves = sp.leaves ++ if ok then [l] else []

variable {sp sp' : Space} {ok : Bool}

/-- The page was not mapped and the space is as it was. -/
theorem mapped_unchanged {l : Leaf} (h : Holds v v' []) (hm : v'.mem = v.mem) : Mapped v sp l false sp v' :=
  ⟨⟨[], h, List.Perm.refl _⟩, hm, rfl, (append_nil _).symm⟩

theorem Vm.mapPage_mapped {page frame : Nat} {flags : Flags}
    (h : v.mapPage sp page frame flags = (ok, sp', v')) : Mapped v sp ⟨page, frame, flags⟩ ok sp' v' := by
  unfold mapPage at h
  have hrefuse := v.refuse_holds
  cases hr : v.refuse with
  | mk refused v1 =>
    rw [hr] at h hrefuse
    obtain ⟨hh, hm, -⟩ := hrefuse
    cases refused with
    | true =>
      cases h
      exact mapped_unchanged hh hm
    | false =>
      simp only at h
      have hspares := v1.spares_holds (sp.missingTables page).length
      cases hsp : v1.spares (sp.missingTables page).length with
      | mk fresh v2 =>
        simp only [hsp] at h hspares
        obtain ⟨hs, hsm, hlen⟩ := hspares
        have hmem := hsm.trans hm
        split at h
        · cases h
          exact mapped_unchanged hh hm
        split at h
        · -- not enough frames for the tables: those obtained go back
          cases h
          have hrev : fresh.Perm (fresh.reverse ++ []) := by
            rw [append_nil]
            exact (reverse_perm fresh).symm
          have hback := Vm.freeAll_holds (hs.mono hrev)
          exact mapped_unchanged (hh.trans hback.1) (hback.2.trans hmem)
        have htables := tableFrames_append sp (show fresh.reverse.length = (sp.missingTables page).length by
          rw [length_reverse]
          omega)
        have hperm := htables.trans ((reverse_perm fresh).append_right _)
        have hall := (hh.trans hs).mono (List.Perm.of_eq (append_nil fresh))
        split at h
        · cases h
          exact ⟨⟨fresh, hall, hperm⟩, hmem, rfl, (append_nil _).symm⟩
        · cases h
          exact ⟨⟨fresh, hall, hperm⟩, hmem, rfl, rfl⟩

/-! ## An address space under construction -/

/-- Since `v`, exactly the frames of `sp` were taken and its root registered. -/
structure Owns (v w : Vm) (sp : Space) : Prop where
  used : w.used.Perm (sp.frames ++ v.used)
  badFree : w.badFree = v.badFree
  spaces : w.spaces = sp.root :: v.spaces

theorem Vm.createUserPml4_holds (v : Vm) : match v.createUserPml4 with
    | (none, v') => Holds v v' []
    | (some sp, v') => Owns v v' sp ∧ sp.leaves = [] := by
  unfold createUserPml4
  have hrefuse := v.refuse_holds
  cases hr : v.refuse with
  | mk refused v1 =>
    rw [hr] at hrefuse
    cases refused with
    | true => exact hrefuse.1
    | false =>
      cases ha : v1.alloc with
      | mk a v2 =>
        simp only [ha]
        cases a with
        | none => exact hrefuse.1.trans (Vm.alloc_none ha).1
        | some f =>
          have hall := hrefuse.1.trans (Vm.alloc_some ha).2.2.1
          exact ⟨⟨hall.used, hall.badFree, congrArg _ hall.spaces⟩, rfl⟩

/-- Destroying the space gives back all of it, each frame once. -/
theorem Owns.destroyPml4 {w : Vm} (h : Owns v w sp) : Holds v (w.destroyPml4 sp) [] := by
  have hstart : Holds { v with spaces := w.spaces } w (sp.frames ++ []) := by
    rw [append_nil]
    exact ⟨h.used, h.badFree, rfl⟩
  have hback := Vm.freeAll_holds hstart
  refine ⟨hback.1.used, hback.1.badFree, ?_⟩
  show (w.freeAll sp.frames).spaces.erase sp.root = v.spaces
  rw [hback.1.spaces]
  show w.spaces.erase sp.root = v.spaces
  rw [h.spaces, erase_cons_head]

/-- A frame taken for a page of the space, written and offered for mapping: the space then owns it, or it is
freed and the space owns whatever tables were built. -/
theorem Owns.mapped {w w1 w2 : Vm} {l : Leaf} (h : Owns v w sp)
    (ha : Holds w w1 [l.frame]) (hm : Mapped w1 sp l ok sp' w2) :
    if ok then Owns v w2 sp' else Owns v (w2.free l.frame) sp' := by
  obtain ⟨extra, hh, htables⟩ := hm.ledger
  have hspaces : w2.spaces = sp'.root :: v.spaces := by rw [hh.spaces, ha.spaces, h.spaces, hm.root]
  have hbad : w2.badFree = v.badFree := by rw [hh.badFree, ha.badFree, h.badFree]
  -- count every frame through the four ledgers
  have hused : ∀ f, w2.used.count f = [l.frame].count f + (sp.leaves.map Leaf.frame).count f +
      sp'.tableFrames.count f + [sp.root].count f + v.used.count f := by
    intro f
    have h1 := hh.used.count_eq f
    have h2 := ha.used.count_eq f
    have h3 := h.used.count_eq f
    have h4 := htables.count_eq f
    simp only [count_append, Space.frames] at h1 h2 h3 h4
    omega
  cases ok with
  | true =>
    refine ⟨perm_iff_count.2 fun f => ?_, hbad, hspaces⟩
    have := hused f
    simp only [Space.frames, hm.leaves, hm.root, map_append, count_append,
      if_true, map_cons, map_nil]
    omega
  | false =>
    have hstart : Holds { v with spaces := w2.spaces } w2 ([l.frame] ++ sp'.frames) := by
      refine ⟨perm_iff_count.2 fun f => ?_, hbad, rfl⟩
      have := hused f
      simp only [Space.frames, hm.leaves, hm.root, count_append, append_nil, Bool.false_eq_true, if_false]
      omega
    have hfree := (Vm.freeAll_holds hstart).1
    exact ⟨hfree.used, hfree.badFree, hfree.spaces.trans hspaces⟩

end Fortress.Elf
