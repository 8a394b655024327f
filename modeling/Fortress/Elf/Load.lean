/-
The loading pass of the ELF loader (kernel/elf.c): an address space is made,
then every page of every segment, the signal restorer's page and the stack
pages are allocated, filled and mapped. Any failure destroys the space.
The restorer stub is linked into the kernel, so its bytes are a parameter.
-/
import Fortress.Elf.Image
import Fortress.Elf.Vm

namespace Fortress.Elf

open Codec List

/-- The loader's state between two pages. -/
structure Work where
  vm : Vm
  space : Space

/-- A failed load: why, and the state it leaves. -/
abbrev Loading := Except (Stop × Vm)

/-- A page of zeros but for `source` at `offset`. -/
def pageBytes (offset : Nat) (source : Bytes) : Bytes :=
  List.replicate offset 0 ++ source ++ List.replicate (PAGE_SIZE - offset - source.length) 0

def elfPageInit (v : Vm) (frame offset : Nat) (source : Bytes) : Vm :=
  { v with mem := v.mem.write frame (pageBytes offset source) }

/-- One page: allocate, fill, map; the frame it got. The source is read only once there is a frame. -/
def installPage (w : Work) (page : Nat) (flags : Flags) (offset : Nat) (source : Except Stop Bytes) :
    Loading (Nat × Work) :=
  match w.vm.alloc with
  | (none, v) => .error (.error .nomem, v.destroyPml4 w.space)
  | (some frame, v) =>
    match source with
    | .error e => .error (e, v)
    | .ok bytes =>
      match (elfPageInit v frame offset bytes).mapPage w.space page frame flags with
      | (false, sp, v) => .error (.error .nomem, (v.free frame).destroyPml4 sp)
      | (true, sp, v) => .ok (frame, ⟨v, sp⟩)

/-! ## Segments -/

variable (p : Phdr) (page : Nat)

def Phdr.pageFlags : Flags := ⟨p.writable, !p.executable⟩

/-- The part of the page that comes from the file, by address: `[fileStart, fileEnd)`. -/
def Phdr.fileStart : Nat := if page < p.vaddr then p.vaddr else page

def Phdr.fileEnd : Nat :=
  if page + PAGE_SIZE < p.vaddr + p.filesz then page + PAGE_SIZE else p.vaddr + p.filesz

def Phdr.copyLen : Nat :=
  if p.fileEnd page > p.fileStart page then p.fileEnd page - p.fileStart page else 0

def Phdr.destOffset : Nat := if p.copyLen page ≠ 0 then p.fileStart page - page else 0

def Phdr.sourceOffset : Nat :=
  if p.copyLen page ≠ 0 then p.offset + (p.fileStart page - p.vaddr) else 0

/-- The pages of a segment from `page`, `n` to go. -/
def loadPages (img : Bytes) (p : Phdr) (page : Nat) (w : Work) : Nat → Loading Work
  | 0 => .ok w
  | n + 1 => do
    let r ← installPage w page p.pageFlags (p.destOffset page) (fetch img (p.sourceOffset page) (p.copyLen page))
    loadPages img p (page + PAGE_SIZE) r.2 n

/-- The program headers again, from number `i`, `n` to go. -/
def loadSegments (img : Bytes) (h : Ehdr) (i : Nat) (w : Work) : Nat → Loading Work
  | 0 => .ok w
  | n + 1 =>
    match readPhdr img h i with
    | .error e => .error (e, w.vm)
    | .ok p =>
      if p.Loads then do
        let w ← loadPages img p p.start w p.pages
        loadSegments img h (i + 1) w n
      else loadSegments img h (i + 1) w n

/-! ## Restorer and stack -/

def loadRestorer (stub : Bytes) (w : Work) : Loading Work :=
  if stub.length = 0 ∨ stub.length > PAGE_SIZE then .error (.error .invalid, w.vm.destroyPml4 w.space)
  else do
    let r ← installPage w USER_SIGRESTORER_VIRT ⟨false, false⟩ 0 (.ok stub)
    return r.2

def stackPage (i : Nat) : Nat := USER_STACK_TOP_VIRT - (i + 1) * PAGE_SIZE

/-- The stack pages from number `i`, `n` to go, with the frame of the topmost page once it is known. -/
def loadStack (i : Nat) (stackPhys : Nat) (w : Work) : Nat → Loading (Nat × Work)
  | 0 => .ok (stackPhys, w)
  | n + 1 => do
    let r ← installPage w (stackPage i) ⟨true, true⟩ 0 (.ok [])
    loadStack (i + 1) (if stackPage i = USER_STACK_PAGE_VIRT then r.1 else stackPhys) r.2 n

/-- The descriptor published on success. -/
structure LoadedProcess where
  pml4Phys : Nat
  stackPhys : Nat
  entryPoint : Nat
  userStackTop : Nat
  totalPages : Nat

/-- `elf_load_executable_profile`: the descriptor with the space and state, or the error and the state. -/
def loadExecutable (stub img : Bytes) (v : Vm) : Loading (LoadedProcess × Work) :=
  match validate img with
  | .error e => .error (e, v)
  | .ok (h, s) =>
    match v.createUserPml4 with
    | (none, v) => .error (.error .nomem, v)
    | (some sp, v) => do
      let w ← loadSegments img h 0 ⟨v, sp⟩ h.phnum
      let w ← loadRestorer stub w
      let r ← loadStack 0 0 w USER_STACK_PAGES
      return ({ pml4Phys := sp.root, stackPhys := r.1, entryPoint := h.entry,
                userStackTop := USER_STACK_TOP_VIRT, totalPages := s.totalPages + 1 + USER_STACK_PAGES }, r.2)

/-! ## The pages a load installs -/

/-- What a page is to be. -/
structure PageSpec where
  page : Nat
  flags : Flags
  bytes : Bytes

/-- The leaf and its frame are as the specification says. -/
structure Leaf.Meets (m : Mem) (l : Leaf) (s : PageSpec) : Prop where
  page : l.page = s.page
  flags : l.flags = s.flags
  aligned : l.frame % PAGE_SIZE = 0
  bytes : m.read l.frame PAGE_SIZE = s.bytes

/-- The space under construction holds exactly the pages of `specs`, and nothing else was taken since `v`. -/
structure Built (v : Vm) (specs : List PageSpec) (w : Work) : Prop where
  owns : Owns v w.vm w.space
  leaves : List.Forall₂ (Leaf.Meets w.vm.mem) w.space.leaves specs

/-- A run that succeeds with `P`, or fails inside the image with everything since `v` given back. -/
def Ends {α : Type} (v : Vm) (P : α → Prop) : Loading α → Prop
  | .ok a => P a
  | .error e => e.1 ≠ .outOfBounds ∧ Holds v e.2 []

variable {v : Vm} {α β : Type}

theorem Ends.bind {P : α → Prop} {Q : β → Prop} {r : Loading α} {k : α → Loading β}
    (h : Ends v P r) (hk : ∀ a, P a → Ends v Q (k a)) : Ends v Q (r >>= k) := by
  cases r with
  | ok a => exact hk a h
  | error e => exact h

/-- Filling a free frame leaves the pages already built as they are. -/
theorem Leaf.Meets.write {m : Mem} {l : Leaf} {s : PageSpec} {f : Nat} {bs : Bytes} (h : l.Meets m s)
    (hf : f % PAGE_SIZE = 0) (hne : l.frame ≠ f) (hlen : bs.length = PAGE_SIZE) : l.Meets (m.write f bs) s := by
  refine ⟨h.page, h.flags, h.aligned, ?_⟩
  rw [Mem.read_write_of_disjoint, h.bytes]
  have hg := h.aligned
  rw [hlen]
  unfold PAGE_SIZE at *
  omega

variable {specs : List PageSpec} {w : Work} {img : Bytes}

theorem forall₂_imp_mem {R S : α → β → Prop} {as : List α} {bs : List β} (h : List.Forall₂ R as bs)
    (hi : ∀ a ∈ as, ∀ b, R a b → S a b) : List.Forall₂ S as bs := by
  induction h with
  | nil => exact .nil
  | cons hab _ ih => exact .cons (hi _ (by simp) _ hab) (ih fun a ha => hi a (by simp [ha]))

theorem installPage_ends {page offset : Nat} {flags : Flags}
    {bytes : Bytes} (h : Built v specs w) (hlen : offset + bytes.length ≤ PAGE_SIZE) :
    Ends v (fun r : Nat × Work => Built v (specs ++ [⟨page, flags, pageBytes offset bytes⟩]) r.2)
      (installPage w page flags offset (.ok bytes)) := by
  unfold installPage
  cases ha : w.vm.alloc with
  | mk a v1 =>
    cases a with
    | none =>
      obtain ⟨hh, -⟩ := Vm.alloc_none ha
      refine ⟨by simp, Owns.destroyPml4 ⟨?_, ?_, ?_⟩⟩
      · exact hh.used.trans h.owns.used
      · exact hh.badFree.trans h.owns.badFree
      · exact hh.spaces.trans h.owns.spaces
    | some f =>
      obtain ⟨hal, hfree, hh, hmem⟩ := Vm.alloc_some ha
      have hinit : Holds w.vm (elfPageInit v1 f offset bytes) [f] := { hh with }
      simp only
      cases hm : (elfPageInit v1 f offset bytes).mapPage w.space page f flags with
      | mk ok rest =>
        obtain ⟨sp, v2⟩ := rest
        have hmapped := Vm.mapPage_mapped hm
        have howns := h.owns.mapped hinit hmapped
        cases ok with
        | false => exact ⟨by simp, Owns.destroyPml4 howns⟩
        | true =>
          refine ⟨howns, ?_⟩
          show List.Forall₂ (Leaf.Meets v2.mem) sp.leaves _
          have hbytes : (pageBytes offset bytes).length = PAGE_SIZE := by simp [pageBytes]; omega
          rw [hmapped.leaves, hmapped.mem]
          show List.Forall₂ (Leaf.Meets (v1.mem.write f (pageBytes offset bytes))) (w.space.leaves ++ [⟨page, f, flags⟩]) _
          rw [hmem]
          refine rel_append ?_ (.cons ⟨rfl, rfl, hal, ?_⟩ .nil)
          · refine forall₂_imp_mem h.leaves fun l hl s hs => hs.write hal ?_ hbytes
            intro he
            refine hfree (he ▸ h.owns.used.symm.subset ?_)
            exact mem_append_left _ (mem_append_left _ (mem_map_of_mem hl))
          · rw [← hbytes]
            exact Mem.read_write _ _ _

/-! ## The whole layout -/

/-- A page of a segment: its slice of the file, zeros around it. -/
def Phdr.pageSpec (img : Bytes) (p : Phdr) (page : Nat) : PageSpec where
  page := page
  flags := p.pageFlags
  bytes := pageBytes (p.destOffset page) (slice img (p.sourceOffset page) (p.copyLen page))

def Phdr.pageSpecs (img : Bytes) (p : Phdr) (page n : Nat) : List PageSpec :=
  (List.range n).map fun i => p.pageSpec img (page + i * PAGE_SIZE)

/-- The segments of an image, in the order of their headers. -/
def segments (img : Bytes) (h : Ehdr) (i n : Nat) : List Phdr :=
  ((List.range n).map fun k => Phdr.ofBytes (slice img (h.phoff + 56 * (i + k)) 56)).filter fun p => p.Loads

def restorerSpec (stub : Bytes) : PageSpec := ⟨USER_SIGRESTORER_VIRT, ⟨false, false⟩, pageBytes 0 stub⟩

def stackSpec (i : Nat) : PageSpec := ⟨stackPage i, ⟨true, true⟩, pageBytes 0 []⟩

def stackSpecs (i n : Nat) : List PageSpec := (List.range n).map fun k => stackSpec (i + k)

/-- Every page of a loaded program. -/
def layout (stub img : Bytes) (segs : List Phdr) : List PageSpec :=
  segs.flatMap (fun p => p.pageSpecs img p.start p.pages) ++ (restorerSpec stub :: stackSpecs 0 USER_STACK_PAGES)

theorem Phdr.pageSpecs_succ (img : Bytes) (p : Phdr) (page n : Nat) :
    p.pageSpecs img page (n + 1) = p.pageSpec img page :: p.pageSpecs img (page + PAGE_SIZE) n := by
  simp only [pageSpecs, range_succ_eq_map, map_cons, map_map, Nat.zero_mul, Nat.add_zero]
  refine congrArg _ (map_congr_left fun i _ => ?_)
  simp only [Function.comp_apply]
  rw [show page + i.succ * PAGE_SIZE = page + PAGE_SIZE + i * PAGE_SIZE by rw [Nat.succ_mul]; omega]

theorem segments_succ (img : Bytes) (h : Ehdr) (i n : Nat) :
    segments img h i (n + 1) =
      (if (Phdr.ofBytes (slice img (h.phoff + 56 * i) 56)).Loads then [Phdr.ofBytes (slice img (h.phoff + 56 * i) 56)]
        else []) ++ segments img h (i + 1) n := by
  have hrest : (range n).map ((fun k => Phdr.ofBytes (slice img (h.phoff + 56 * (i + k)) 56)) ∘ Nat.succ) =
      (range n).map fun k => Phdr.ofBytes (slice img (h.phoff + 56 * (i + 1 + k)) 56) := by
    refine map_congr_left fun k _ => ?_
    simp only [Function.comp_apply]
    rw [show i + k.succ = i + 1 + k by omega]
  simp only [segments, range_succ_eq_map, map_cons, map_map, Nat.add_zero, filter_cons, hrest]
  by_cases hl : (Phdr.ofBytes (slice img (h.phoff + 56 * i) 56)).Loads <;> simp [hl]

theorem stackSpecs_succ (i n : Nat) : stackSpecs i (n + 1) = stackSpec i :: stackSpecs (i + 1) n := by
  simp only [stackSpecs, range_succ_eq_map, map_cons, map_map, Nat.add_zero]
  refine congrArg _ (map_congr_left fun k _ => ?_)
  simp only [Function.comp_apply]
  rw [show i + k.succ = i + 1 + k by omega]

/-- The slice copied to a page lies in the segment's part of the file and in the page. -/
theorem Phdr.copy_bounds {page : Nat} (hpage : p.start ≤ page) :
    p.sourceOffset page + p.copyLen page ≤ p.offset + p.filesz ∧ p.destOffset page + p.copyLen page ≤ PAGE_SIZE := by
  have hstart : p.vaddr < p.start + PAGE_SIZE := by
    unfold Phdr.start pageOf PAGE_SIZE
    omega
  unfold sourceOffset destOffset copyLen fileEnd fileStart
  split_ifs <;> omega

theorem loadPages_ends {p : Phdr} (hfile : p.offset + p.filesz ≤ img.length) {n page : Nat}
    (hpage : p.start ≤ page) (h : Built v specs w) :
    Ends v (Built v (specs ++ p.pageSpecs img page n)) (loadPages img p page w n) := by
  induction n generalizing page specs w with
  | zero => simpa [loadPages, Phdr.pageSpecs, Ends] using h
  | succ n ih =>
    obtain ⟨hsrc, hdst⟩ := p.copy_bounds hpage
    have hin : p.sourceOffset page + p.copyLen page ≤ img.length := Nat.le_trans hsrc hfile
    unfold loadPages
    rw [fetch_ok hin, Phdr.pageSpecs_succ, append_cons]
    refine Ends.bind (installPage_ends h (by rw [length_slice_of_le hin]; exact hdst)) fun r hr => ?_
    exact ih (Nat.le_trans hpage (Nat.le_add_right _ _)) hr

theorem loadSegments_ends {h : Ehdr} (ht : h.phoff + 56 * h.phnum ≤ img.length) {n i : Nat}
    (hi : i + n ≤ h.phnum) (hsegs : ∀ p ∈ segments img h i n, p.offset + p.filesz ≤ img.length)
    (hw : Built v specs w) :
    Ends v (Built v (specs ++ (segments img h i n).flatMap fun p => p.pageSpecs img p.start p.pages))
      (loadSegments img h i w n) := by
  induction n generalizing i specs w with
  | zero => simpa [loadSegments, segments, Ends] using hw
  | succ n ih =>
    unfold loadSegments
    rw [readPhdr_ok ht (by omega)]
    simp only
    rw [segments_succ] at hsegs ⊢
    split
    · rename_i hl
      rw [if_pos hl] at hsegs
      refine Ends.bind (loadPages_ends (hsegs _ (by simp)) le_rfl hw) fun w' hw' => ?_
      have := ih (by omega) (fun p hp => hsegs p (mem_append_right _ hp)) hw'
      simpa [append_assoc] using this
    · rename_i hl
      rw [if_neg hl] at hsegs
      exact ih (by omega) hsegs hw

theorem loadRestorer_ends {stub : Bytes} (h : Built v specs w) :
    Ends v (Built v (specs ++ [restorerSpec stub])) (loadRestorer stub w) := by
  unfold loadRestorer
  split
  · exact ⟨by simp, h.owns.destroyPml4⟩
  rename_i hsize
  refine Ends.bind (installPage_ends h (show 0 + stub.length ≤ PAGE_SIZE by omega)) fun r hr => ?_
  exact hr

theorem loadStack_ends {n i phys : Nat} (h : Built v specs w) :
    Ends v (fun r : Nat × Work => Built v (specs ++ stackSpecs i n) r.2) (loadStack i phys w n) := by
  induction n generalizing i phys specs w with
  | zero => simpa [loadStack, stackSpecs, Ends] using h
  | succ n ih =>
    rw [stackSpecs_succ, append_cons]
    refine Ends.bind (installPage_ends h (show 0 + ([] : Bytes).length ≤ PAGE_SIZE by decide)) fun r hr => ?_
    exact ih hr

end Fortress.Elf
