/-
The validation pass of the ELF loader (kernel/elf.c). The image is only read
through `fetch`, which fails outside it, so a read out of bounds is an outcome
of its own (`Stop.outOfBounds`) and can be shown not to happen. Each sum is
formed after the check that bounds it and each difference after the check that
orders it, so natural numbers stand for the 64-bit words.
-/
import Fortress.Elf.Layout

namespace Fortress.Elf

open Codec

/-- The error codes of the loader. -/
inductive ElfError where
  | invalid
  | bounds
  | perm
  | nomem
  | overlap
  deriving DecidableEq, Repr

/-- Why a pass stops: with an error code, or by reading outside the image. -/
inductive Stop where
  | error (e : ElfError)
  | outOfBounds
  deriving DecidableEq, Repr

/-- `n` bytes of the image from `off`. -/
def fetch (img : Bytes) (off n : Nat) : Except Stop Bytes :=
  if off + n ≤ img.length then .ok (slice img off n) else .error .outOfBounds

structure Ehdr where
  ident : Bytes
  type : Nat
  machine : Nat
  version : Nat
  entry : Nat
  phoff : Nat
  ehsize : Nat
  phentsize : Nat
  phnum : Nat

def Ehdr.ofBytes (b : Bytes) : Ehdr where
  ident := slice b 0 16
  type := fromLe (slice b 16 2)
  machine := fromLe (slice b 18 2)
  version := fromLe (slice b 20 4)
  entry := fromLe (slice b 24 8)
  phoff := fromLe (slice b 32 8)
  ehsize := fromLe (slice b 52 2)
  phentsize := fromLe (slice b 54 2)
  phnum := fromLe (slice b 56 2)

/-- Magic, class, encoding and version of the identification bytes. -/
def identOk (ident : Bytes) : Bool := slice ident 0 7 == [0x7F, 0x45, 0x4C, 0x46, 2, 1, 1]

/-- The header checks: format first, then the bounds of the program header table. -/
def checkHeader (h : Ehdr) (imageSize : Nat) : Option ElfError :=
  if identOk h.ident = false ∨ h.version ≠ EV_CURRENT then some .invalid
  else if h.type ≠ ET_EXEC ∨ h.machine ≠ EM_X86_64 then some .invalid
  else if h.ehsize ≠ 64 ∨ h.phentsize ≠ 56 then some .invalid
  else if h.phnum = 0 ∨ h.phnum > MAX_ELF_PHNUM then some .invalid
  else if h.phoff > imageSize ∨ h.phnum * 56 > imageSize - h.phoff then some .bounds
  else none

def readHeader (img : Bytes) : Except Stop Ehdr :=
  if img.length < 64 then .error (.error .invalid)
  else
    match fetch img 0 64 with
    | .error e => .error e
    | .ok b =>
      match checkHeader (Ehdr.ofBytes b) img.length with
      | some e => .error (.error e)
      | none => .ok (Ehdr.ofBytes b)

def readPhdr (img : Bytes) (h : Ehdr) (i : Nat) : Except Stop Phdr :=
  match fetch img (h.phoff + 56 * i) 56 with
  | .error e => .error e
  | .ok b => .ok (Phdr.ofBytes b)

variable (p : Phdr)

/-- The segment is one that is loaded. -/
def Phdr.Loads : Prop := p.type = PT_LOAD ∧ p.memsz ≠ 0

instance (p : Phdr) : Decidable p.Loads := by
  unfold Phdr.Loads
  infer_instance

def Phdr.writable : Bool := p.flags &&& PF_W != 0
def Phdr.executable : Bool := p.flags &&& PF_X != 0

/-- The checks of one loaded segment against the image and the address space. -/
def checkSegment (imageSize : Nat) : Option ElfError :=
  if p.flags &&& (PF_W ||| PF_X) = PF_W ||| PF_X then some .perm
  else if p.offset > imageSize ∨ p.filesz > imageSize - p.offset then some .bounds
  else if p.filesz > p.memsz then some .bounds
  else if p.vaddr < PAGE_SIZE then some .perm
  else if p.vaddr ≥ USER_SPACE_LIMIT ∨ p.memsz > USER_SPACE_LIMIT - p.vaddr then some .bounds
  else if p.vaddr % PAGE_SIZE ≠ p.offset % PAGE_SIZE then some .bounds
  else if p.end ≥ USER_STACK_GUARD_VIRT ∧ p.start < USER_STACK_TOP_VIRT then some .overlap
  else if ¬(p.end < USER_SIGRESTORER_VIRT ∨ p.start > USER_SIGRESTORER_VIRT + USER_SIGRESTORER_SIZE - 1) then
    some .overlap
  else none

/-- The accumulators of the validation loop. -/
structure Scan where
  /-- The loaded segments so far. -/
  loaded : List Phdr := []
  totalPages : Nat := 0
  entryInExecSeg : Bool := false

def Phdr.pages : Nat := (p.end - p.start) / PAGE_SIZE + 1

def Phdr.overlaps (p q : Phdr) : Bool := !(p.end < q.start || p.start > q.end)

def Phdr.covers (entry : Nat) : Bool := p.executable && p.vaddr ≤ entry && entry < p.vaddr + p.memsz

def scanSegment (entry imageSize : Nat) (s : Scan) (p : Phdr) : Except Stop Scan :=
  if p.type = PT_INTERP then .error (.error .invalid)
  else if ¬p.Loads then .ok s
  else
    match checkSegment p imageSize with
    | some e => .error (.error e)
    | none =>
      if s.loaded.any p.overlaps then .error (.error .overlap)
      else if p.pages > MAX_ELF_PAGES - s.totalPages then .error (.error .nomem)
      else .ok { loaded := s.loaded ++ [p], totalPages := s.totalPages + p.pages,
                 entryInExecSeg := s.entryInExecSeg || p.covers entry }

/-- The loop over the program headers from number `i`, `n` to go. -/
def scanSegments (img : Bytes) (h : Ehdr) (i : Nat) (s : Scan) : Nat → Except Stop Scan
  | 0 => .ok s
  | n + 1 =>
    match readPhdr img h i with
    | .error e => .error e
    | .ok p =>
      match scanSegment h.entry img.length s p with
      | .error e => .error e
      | .ok s => scanSegments img h (i + 1) s n

/-- The whole validation: the header and the segments to load. -/
def validate (img : Bytes) : Except Stop (Ehdr × Scan) :=
  match readHeader img with
  | .error e => .error e
  | .ok h =>
    match scanSegments img h 0 {} h.phnum with
    | .error e => .error e
    | .ok s =>
      if s.loaded = [] then .error (.error .invalid)
      else if s.entryInExecSeg = false then .error (.error .perm)
      else .ok (h, s)

/-! ## What a valid image guarantees -/

/-- A segment that passed. -/
structure SegmentOk (p : Phdr) (imageSize : Nat) : Prop where
  wx : ¬(p.writable = true ∧ p.executable = true)
  file : p.offset + p.filesz ≤ imageSize
  filesz : p.filesz ≤ p.memsz
  low : PAGE_SIZE ≤ p.vaddr
  high : p.vaddr + p.memsz ≤ USER_SPACE_LIMIT
  mem : 0 < p.memsz
  stack : p.end < USER_STACK_GUARD_VIRT ∨ USER_STACK_TOP_VIRT ≤ p.start
  restorer : p.end < USER_SIGRESTORER_VIRT ∨ USER_SIGRESTORER_VIRT + USER_SIGRESTORER_SIZE ≤ p.start

theorem wx_of_flags {flags : Nat} (h : flags &&& (PF_W ||| PF_X) ≠ PF_W ||| PF_X) :
    ¬(flags &&& PF_W ≠ 0 ∧ flags &&& PF_X ≠ 0) := by
  rintro ⟨hw, hx⟩
  refine h (Nat.eq_of_testBit_eq fun i => ?_)
  have hw' : flags.testBit 1 = true := by
    have hand : flags &&& PF_W = _ := Nat.and_two_pow flags 1
    cases hb : flags.testBit 1 with
    | true => rfl
    | false => exact absurd (by rw [hand, hb]; rfl) hw
  have hx' : flags.testBit 0 = true := by
    have hand : flags &&& PF_X = _ := Nat.and_two_pow flags 0
    cases hb : flags.testBit 0 with
    | true => rfl
    | false => exact absurd (by rw [hand, hb]; rfl) hx
  rw [Nat.testBit_and]
  match i with
  | 0 => simp [hx', PF_W, PF_X]
  | 1 => simp [hw', PF_W, PF_X]
  | i + 2 => simp [PF_W, PF_X, Nat.testBit_succ]

theorem check_eq_none {c : Prop} [Decidable c] {e : ElfError} {rest : Option ElfError} :
    (if c then some e else rest) = none ↔ ¬c ∧ rest = none := by
  by_cases hc : c <;> simp [hc]

variable {n : Nat}

theorem segmentOk_of_check {p : Phdr} (hl : p.Loads) (h : checkSegment p n = none) : SegmentOk p n := by
  simp only [checkSegment, check_eq_none, not_or, not_and, not_not] at h
  obtain ⟨hwx, ⟨hoff, hsize⟩, hfm, hlow, ⟨hv, hm⟩, -, hstack, hrest, -⟩ := h
  have hmem := Nat.pos_of_ne_zero hl.2
  refine ⟨?_, by omega, by omega, by omega, by omega, hmem, by omega, ?_⟩
  · have := wx_of_flags hwx
    simpa [Phdr.writable, Phdr.executable] using this
  · have : 0 < USER_SIGRESTORER_SIZE := by decide
    omega

variable {img : Bytes}

theorem fetch_ok {off : Nat} (h : off + n ≤ img.length) : fetch img off n = .ok (slice img off n) :=
  if_pos h

variable {h : Ehdr} {i : Nat}

/-- The header table lies inside the image. -/
theorem readHeader_cases (hr : readHeader img = .ok h) : h.phoff + 56 * h.phnum ≤ img.length := by
  unfold readHeader at hr
  split at hr
  · cases hr
  rename_i hlen
  rw [fetch_ok (by omega)] at hr
  simp only at hr
  split at hr
  · cases hr
  rename_i hc
  cases hr
  simp only [checkHeader, check_eq_none, not_or] at hc
  obtain ⟨-, -, -, -, ⟨h1, h2⟩, -⟩ := hc
  omega

theorem readHeader_inside (img : Bytes) : readHeader img ≠ .error .outOfBounds := by
  unfold readHeader
  split
  · simp
  rw [fetch_ok (by omega)]
  simp only
  split <;> simp

theorem readPhdr_ok (ht : h.phoff + 56 * h.phnum ≤ img.length) (hi : i < h.phnum) :
    readPhdr img h i = .ok (Phdr.ofBytes (slice img (h.phoff + 56 * i) 56)) := by
  unfold readPhdr
  rw [fetch_ok (by omega)]

/-- The segments kept by the scan, and what the other accumulators say of them. -/
structure Scanned (entry imageSize : Nat) (s : Scan) : Prop where
  segments : ∀ p ∈ s.loaded, SegmentOk p imageSize
  apart : s.loaded.Pairwise fun p q => q.overlaps p = false
  entry : s.entryInExecSeg = true → ∃ p ∈ s.loaded, p.covers entry = true

variable {s s' : Scan}

theorem scanSegment_scanned {entry imageSize : Nat} {p : Phdr} (hs : Scanned entry imageSize s)
    (h : scanSegment entry imageSize s p = .ok s') : Scanned entry imageSize s' := by
  unfold scanSegment at h
  split at h
  · cases h
  split at h
  · cases h
    exact hs
  rename_i hl
  rw [not_not] at hl
  cases hc : checkSegment p imageSize with
  | some e => simp [hc] at h
  | none =>
    simp only [hc] at h
    split at h
    · cases h
    rename_i hover
    split at h
    · cases h
    cases h
    refine ⟨?_, ?_, ?_⟩
    · intro q hq
      rcases List.mem_append.1 hq with hq | hq
      · exact hs.segments q hq
      cases List.mem_singleton.1 hq
      exact segmentOk_of_check hl hc
    · refine List.pairwise_append.2 ⟨hs.apart, List.pairwise_singleton _ _, ?_⟩
      intro q hq r hr
      cases List.mem_singleton.1 hr
      simp only [List.any_eq_true, not_exists, not_and, Bool.not_eq_true] at hover
      exact hover q hq
    intro he
    rcases Bool.or_eq_true_iff.1 he with he | he
    · obtain ⟨q, hq, hcov⟩ := hs.entry he
      exact ⟨q, List.mem_append_left _ hq, hcov⟩
    · exact ⟨p, by simp, he⟩

theorem scanSegment_inside (entry imageSize : Nat) (s : Scan) (p : Phdr) :
    scanSegment entry imageSize s p ≠ .error .outOfBounds := by
  unfold scanSegment
  split
  · simp
  split
  · simp
  split
  · simp
  split
  · simp
  split <;> simp

theorem scanSegments_scanned (hs : Scanned h.entry img.length s)
    (hr : scanSegments img h i s n = .ok s') : Scanned h.entry img.length s' := by
  induction n generalizing i s with
  | zero =>
    cases hr
    exact hs
  | succ n ih =>
    unfold scanSegments at hr
    cases hp : readPhdr img h i with
    | error e => simp [hp] at hr
    | ok p =>
      cases hq : scanSegment h.entry img.length s p with
      | error e => simp [hp, hq] at hr
      | ok s1 =>
        simp only [hp, hq] at hr
        exact ih (scanSegment_scanned hs hq) hr

theorem scanSegments_inside (ht : h.phoff + 56 * h.phnum ≤ img.length) (hi : i + n ≤ h.phnum) :
    scanSegments img h i s n ≠ .error .outOfBounds := by
  induction n generalizing i s with
  | zero => simp [scanSegments]
  | succ n ih =>
    unfold scanSegments
    rw [readPhdr_ok ht (by omega)]
    simp only
    cases hq : scanSegment h.entry img.length s (Phdr.ofBytes (slice img (h.phoff + 56 * i) 56)) with
    | error e =>
      intro he
      cases he
      exact scanSegment_inside _ _ _ _ hq
    | ok s1 => exact ih (by omega)

theorem validate_inside (img : Bytes) : validate img ≠ .error .outOfBounds := by
  unfold validate
  cases hr : readHeader img with
  | error e =>
    intro he
    cases he
    exact readHeader_inside img hr
  | ok h =>
    simp only
    cases hs : scanSegments img h 0 {} h.phnum with
    | error e =>
      intro he
      cases he
      exact scanSegments_inside (readHeader_cases hr) (by omega) hs
    | ok s =>
      simp only
      split
      · simp
      split <;> simp

theorem validate_ok (hv : validate img = .ok (h, s)) :
    readHeader img = .ok h ∧ scanSegments img h 0 {} h.phnum = .ok s ∧ s.entryInExecSeg = true := by
  unfold validate at hv
  cases hr : readHeader img with
  | error e => simp [hr] at hv
  | ok h1 =>
    cases hs : scanSegments img h1 0 {} h1.phnum with
    | error e => simp [hr, hs] at hv
    | ok s1 =>
      simp only [hr, hs] at hv
      split at hv
      · cases hv
      split at hv
      · cases hv
      rename_i hentry
      cases hv
      exact ⟨rfl, hs, by simpa using hentry⟩

/-- A valid image has checked segments, apart from each other, one of which covers the entry point. -/
theorem validate_scanned (hv : validate img = .ok (h, s)) :
    Scanned h.entry img.length s ∧ ∃ p ∈ s.loaded, p.covers h.entry = true := by
  obtain ⟨-, hs, hentry⟩ := validate_ok hv
  have hsc := scanSegments_scanned ⟨by simp, .nil, by simp⟩ hs
  exact ⟨hsc, hsc.entry hentry⟩

end Fortress.Elf
