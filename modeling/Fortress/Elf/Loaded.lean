/-
What a load leaves: a program laid out as its headers say, or nothing at all.
The layout is a list of page specifications (Elf/Load.lean), so the facts about
a loaded program are arithmetic on that list: validation keeps the segments
apart from each other, from the restorer and from the stack with its guard.
-/
import Fortress.Elf.Load

namespace Fortress.Elf

open Codec List

/-! ## The scanned segments are the segments -/

variable {p : Phdr} {s s' : Scan}

theorem scanSegment_loaded {entry imageSize : Nat} (h : scanSegment entry imageSize s p = .ok s') :
    s'.loaded = s.loaded ++ if p.Loads then [p] else [] := by
  unfold scanSegment at h
  split at h
  · cases h
  split at h
  · rename_i hl
    cases h
    rw [if_neg hl, append_nil]
  rename_i hl
  rw [not_not] at hl
  cases hc : checkSegment p imageSize with
  | some e => simp [hc] at h
  | none =>
    simp only [hc] at h
    split at h
    · cases h
    split at h
    · cases h
    cases h
    rw [if_pos hl]

variable {img : Bytes} {n : Nat}

theorem scanSegments_loaded {h : Ehdr} (ht : h.phoff + 56 * h.phnum ≤ img.length) {i : Nat}
    (hi : i + n ≤ h.phnum) (hr : scanSegments img h i s n = .ok s') :
    s'.loaded = s.loaded ++ segments img h i n := by
  induction n generalizing i s with
  | zero =>
    cases hr
    simp [segments]
  | succ n ih =>
    unfold scanSegments at hr
    rw [readPhdr_ok ht (by omega)] at hr
    simp only at hr
    cases hq : scanSegment h.entry img.length s (Phdr.ofBytes (slice img (h.phoff + 56 * i) 56)) with
    | error e => simp [hq] at hr
    | ok s1 =>
      simp only [hq] at hr
      rw [ih (by omega) hr, scanSegment_loaded hq, segments_succ, append_assoc]

theorem validate_segments {h : Ehdr} (hv : validate img = .ok (h, s)) :
    readHeader img = .ok h ∧ s.loaded = segments img h 0 h.phnum := by
  obtain ⟨hr, hs, -⟩ := validate_ok hv
  exact ⟨hr, by rw [scanSegments_loaded (readHeader_cases hr) (by omega) hs, nil_append]⟩

/-- A load builds the whole layout or fails with everything given back. -/
theorem loadExecutable_ends (stub img : Bytes) (v : Vm) :
    Ends v (fun r : LoadedProcess × Work => ∃ h s, validate img = .ok (h, s) ∧ r.1.entryPoint = h.entry ∧
      Built v (layout stub img s.loaded) r.2) (loadExecutable stub img v) := by
  unfold loadExecutable
  cases hv : validate img with
  | error e =>
    refine ⟨?_, .refl v⟩
    intro he
    cases he
    exact validate_inside img hv
  | ok hs =>
    obtain ⟨h, s⟩ := hs
    simp only
    obtain ⟨hhdr, hloaded⟩ := validate_segments hv
    have hscan := (validate_scanned hv).1
    have hcreate := v.createUserPml4_holds
    cases hc : v.createUserPml4 with
    | mk sp v1 =>
      rw [hc] at hcreate
      cases sp with
      | none => exact ⟨by simp, hcreate⟩
      | some sp =>
        obtain ⟨howns, hleaves⟩ := hcreate
        have hstart : Built v [] ⟨v1, sp⟩ := ⟨howns, by simp [hleaves]⟩
        have hfiles : ∀ p ∈ segments img h 0 h.phnum, p.offset + p.filesz ≤ img.length := by
          intro p hp
          exact (hscan.segments p (hloaded ▸ hp)).file
        refine Ends.bind (loadSegments_ends (readHeader_cases hhdr) (by omega) hfiles hstart) fun w hw => ?_
        refine Ends.bind (loadRestorer_ends hw) fun w hw => ?_
        refine Ends.bind (loadStack_ends hw) fun r hr => ?_
        refine ⟨h, s, rfl, rfl, ?_⟩
        rw [hloaded]
        simpa [layout, append_assoc] using hr

/-! ## Pages -/

/-- The pages of a segment. -/
def Phdr.pageList (p : Phdr) : List Nat := (List.range p.pages).map fun i => p.start + i * PAGE_SIZE

def stackPages : List Nat := (List.range USER_STACK_PAGES).map stackPage

/-- The pages of a loaded program. -/
def layoutPages (segs : List Phdr) : List Nat :=
  segs.flatMap Phdr.pageList ++ (USER_SIGRESTORER_VIRT :: stackPages)

theorem layout_pages (stub img : Bytes) (segs : List Phdr) :
    (layout stub img segs).map PageSpec.page = layoutPages segs := by
  simp only [layout, layoutPages, map_append, map_flatMap, map_cons, Phdr.pageSpecs, stackSpecs,
    map_map]
  have hstack : (range USER_STACK_PAGES).map (PageSpec.page ∘ fun k => stackSpec (0 + k)) = stackPages := by
    refine map_congr_left fun k _ => ?_
    rw [Function.comp_apply, Nat.zero_add, stackSpec]
  rw [hstack]
  rfl

variable {page : Nat}

theorem Phdr.mem_pageList (hmem : 0 < p.memsz) (h : page ∈ p.pageList) :
    p.start ≤ page ∧ page ≤ p.end ∧ page % PAGE_SIZE = 0 := by
  obtain ⟨i, hi, rfl⟩ := mem_map.1 h
  have hi' := mem_range.1 hi
  unfold Phdr.pages Phdr.start Phdr.end pageOf PAGE_SIZE at *
  omega

theorem Phdr.pageList_nodup (p : Phdr) : p.pageList.Nodup := by
  refine List.Nodup.map_on ?_ nodup_range
  intro i _ j _ hij
  unfold PAGE_SIZE at hij
  omega

variable {a : Nat}

theorem Phdr.mem_pageList_of_address (hlo : p.start ≤ a) (hhi : a < p.end + PAGE_SIZE) : pageOf a ∈ p.pageList := by
  refine mem_map.2 ⟨(pageOf a - p.start) / PAGE_SIZE, mem_range.2 ?_, ?_⟩
  · unfold Phdr.pages Phdr.start Phdr.end pageOf PAGE_SIZE at *
    omega
  · unfold Phdr.start pageOf PAGE_SIZE at *
    omega

theorem mem_stackPages (h : page ∈ stackPages) :
    USER_STACK_BOTTOM_VIRT ≤ page ∧ page + PAGE_SIZE ≤ USER_STACK_TOP_VIRT ∧ page % PAGE_SIZE = 0 := by
  have hall : ∀ q ∈ stackPages, USER_STACK_BOTTOM_VIRT ≤ q ∧ q + PAGE_SIZE ≤ USER_STACK_TOP_VIRT ∧
      q % PAGE_SIZE = 0 := by decide
  exact hall page h

variable {segs : List Phdr} {specs : List PageSpec} {stub : Bytes}

theorem layoutPages_range (hs : ∀ p ∈ segs, SegmentOk p n) (h : page ∈ layoutPages segs) :
    PAGE_SIZE ≤ page ∧ page + PAGE_SIZE ≤ USER_SPACE_LIMIT ∧ page ≠ USER_STACK_GUARD_VIRT := by
  rcases mem_append.1 h with h | h
  · obtain ⟨p, hp, hpage⟩ := mem_flatMap.1 h
    have hok := hs p hp
    obtain ⟨h1, h2, h3⟩ := Phdr.mem_pageList hok.mem hpage
    have hlow := hok.low
    have hhigh := hok.high
    have hstack := hok.stack
    unfold Phdr.start Phdr.end pageOf USER_SPACE_LIMIT USER_STACK_GUARD_VIRT USER_STACK_BOTTOM_VIRT
      USER_STACK_TOP_VIRT USER_STACK_PAGES PAGE_SIZE at *
    omega
  rcases mem_cons.1 h with rfl | h
  · decide
  obtain ⟨h1, h2, h3⟩ := mem_stackPages h
  unfold USER_SPACE_LIMIT USER_STACK_GUARD_VIRT USER_STACK_BOTTOM_VIRT USER_STACK_TOP_VIRT USER_STACK_PAGES
    PAGE_SIZE at *
  omega

theorem layoutPages_nodup (hs : ∀ p ∈ segs, SegmentOk p n)
    (hap : segs.Pairwise fun p q => q.overlaps p = false) : (layoutPages segs).Nodup := by
  refine nodup_append'.2 ⟨?_, by decide, ?_⟩
  · refine nodup_flatMap.2 ⟨fun p _ => p.pageList_nodup, ?_⟩
    refine (List.Pairwise.and_mem.1 hap).imp ?_
    rintro p q ⟨hp, hq, hpq⟩ page h1 h2
    have hp' := Phdr.mem_pageList (hs p hp).mem h1
    have hq' := Phdr.mem_pageList (hs q hq).mem h2
    simp only [Phdr.overlaps, Bool.not_eq_false', Bool.or_eq_true, decide_eq_true_eq] at hpq
    omega
  intro page h1 h2
  obtain ⟨p, hp, hpage⟩ := mem_flatMap.1 h1
  have hok := hs p hp
  obtain ⟨hlo, hhi, -⟩ := Phdr.mem_pageList hok.mem hpage
  have hrest := hok.restorer
  have hstack := hok.stack
  rcases mem_cons.1 h2 with rfl | h2
  · unfold USER_SIGRESTORER_SIZE at hrest
    omega
  obtain ⟨h3, h4, -⟩ := mem_stackPages h2
  unfold USER_STACK_GUARD_VIRT USER_STACK_BOTTOM_VIRT USER_STACK_TOP_VIRT USER_STACK_PAGES PAGE_SIZE at *
  omega

/-! ## Bytes -/

/-- The byte a user address reads. -/
def Work.byteAt (w : Work) (a : Nat) : Option UInt8 :=
  (w.space.leaves.find? fun l => l.page == pageOf a).map fun l => w.vm.mem (l.frame + a % PAGE_SIZE)

theorem Leaf.Meets.byte {m : Mem} {l : Leaf} {s : PageSpec} (h : l.Meets m s) {k : Nat} (hk : k < PAGE_SIZE) :
    s.bytes[k]? = some (m (l.frame + k)) := by
  rw [← h.bytes]
  simp [Mem.read, hk]

theorem exists_spec {m : Mem} {leaves : List Leaf} (h : List.Forall₂ (Leaf.Meets m) leaves specs)
    {l : Leaf} (hl : l ∈ leaves) : ∃ s ∈ specs, l.Meets m s := by
  induction h with
  | nil => cases hl
  | @cons l' s leaves specs hm _ ih =>
    rcases mem_cons.1 hl with rfl | hl
    · exact ⟨s, .head _, hm⟩
    obtain ⟨t, ht, hm'⟩ := ih hl
    exact ⟨t, .tail _ ht, hm'⟩

theorem byteAt_of_spec {w : Work} (h : List.Forall₂ (Leaf.Meets w.vm.mem) w.space.leaves specs)
    (hnd : (specs.map PageSpec.page).Nodup)
    {s : PageSpec} (hs : s ∈ specs) (ha : pageOf a = s.page) : w.byteAt a = s.bytes[a % PAGE_SIZE]? := by
  unfold Work.byteAt
  generalize w.space.leaves = leaves at h
  induction h with
  | nil => cases hs
  | @cons l t leaves specs hlt _ ih =>
    simp only [map_cons, nodup_cons] at hnd
    rcases mem_cons.1 hs with rfl | hs
    · rw [find?_cons_of_pos (by simp [hlt.page, ha]), Option.map_some,
        hlt.byte (Nat.mod_lt _ (by decide))]
    rw [find?_cons_of_neg, ih hnd.2 hs]
    intro he
    refine hnd.1 ?_
    rw [← hlt.page, beq_iff_eq.1 he, ha]
    exact mem_map_of_mem hs

theorem getElem?_pageBytes {offset : Nat} {source : Bytes} {k : Nat} (hk : k < PAGE_SIZE)
    (hlen : offset + source.length ≤ PAGE_SIZE) :
    (pageBytes offset source)[k]? =
      if offset ≤ k ∧ k < offset + source.length then source[k - offset]? else some 0 := by
  unfold pageBytes
  rcases Nat.lt_or_ge k offset with h | h
  · rw [if_neg (by omega), getElem?_append_left (by simp; omega), getElem?_append_left (by simpa using h),
      getElem?_replicate, if_pos h]
  rcases Nat.lt_or_ge k (offset + source.length) with h' | h'
  · rw [if_pos ⟨h, h'⟩, getElem?_append_left (by simpa using h'),
      getElem?_append_right (by simpa using h), length_replicate]
  rw [if_neg (by omega), getElem?_append_right (by simpa using h'), getElem?_replicate, if_pos]
  simp only [length_append, length_replicate]
  omega

/-- The byte of a segment at an address: from the file where the segment has file bytes, zero elsewhere. -/
def Phdr.byte (img : Bytes) (p : Phdr) (a : Nat) : Option UInt8 :=
  if p.vaddr ≤ a ∧ a < p.vaddr + p.filesz then img[p.offset + (a - p.vaddr)]? else some 0

theorem pageSpec_byte (hok : SegmentOk p n) (hn : n = img.length)
    (hlo : p.start ≤ a) : (p.pageSpec img (pageOf a)).bytes[a % PAGE_SIZE]? = p.byte img a := by
  have hpage : p.start ≤ pageOf a := by
    unfold Phdr.start pageOf PAGE_SIZE at *
    omega
  have hsplit : pageOf a + a % PAGE_SIZE = a ∧ a % PAGE_SIZE < PAGE_SIZE := by
    unfold pageOf PAGE_SIZE
    omega
  obtain ⟨hsrc, hdst⟩ := p.copy_bounds hpage
  have hfile := hok.file
  have hlen : (slice img (p.sourceOffset (pageOf a)) (p.copyLen (pageOf a))).length = p.copyLen (pageOf a) :=
    length_slice_of_le (by omega)
  simp only [Phdr.pageSpec]
  rw [getElem?_pageBytes hsplit.2 (by rw [hlen]; exact hdst), hlen]
  have hstart : p.vaddr < p.start + PAGE_SIZE := by
    unfold Phdr.start pageOf PAGE_SIZE
    omega
  have hiff : (p.destOffset (pageOf a) ≤ a % PAGE_SIZE ∧
      a % PAGE_SIZE < p.destOffset (pageOf a) + p.copyLen (pageOf a)) ↔ p.vaddr ≤ a ∧ a < p.vaddr + p.filesz := by
    unfold Phdr.destOffset Phdr.copyLen Phdr.fileEnd Phdr.fileStart
    split_ifs <;> omega
  unfold Phdr.byte
  by_cases hin : p.vaddr ≤ a ∧ a < p.vaddr + p.filesz
  · have hcopy := hiff.2 hin
    rw [if_pos hin, if_pos hcopy, slice, getElem?_take, if_pos (by omega), getElem?_drop]
    congr 1
    unfold Phdr.sourceOffset Phdr.destOffset Phdr.fileStart
    split_ifs <;> omega
  · rw [if_neg hin, if_neg fun hc => hin (hiff.1 hc)]

/-! ## The loaded program -/

/-- A program in memory as its headers lay it out. -/
structure LoadedAs (img : Bytes) (segs : List Phdr) (out : LoadedProcess) (w : Work) : Prop where
  range : ∀ l ∈ w.space.leaves, PAGE_SIZE ≤ l.page ∧ l.page + PAGE_SIZE ≤ USER_SPACE_LIMIT
  wx : ∀ l ∈ w.space.leaves, ¬(l.flags.writable = true ∧ l.flags.noExec = false)
  /-- The pages of the segments, the restorer and the stack, none of them twice. -/
  pages : w.space.leaves.map Leaf.page = segs.flatMap Phdr.pageList ++ (USER_SIGRESTORER_VIRT :: stackPages)
  disjoint : (w.space.leaves.map Leaf.page).Nodup
  guard : ∀ l ∈ w.space.leaves, l.page ≠ USER_STACK_GUARD_VIRT
  file : ∀ p ∈ segs, ∀ a, p.vaddr ≤ a → a < p.vaddr + p.filesz →
    w.byteAt a = img[p.offset + (a - p.vaddr)]? ∧ p.offset + (a - p.vaddr) < img.length
  zero : ∀ p ∈ segs, ∀ a, p.start ≤ a → a < p.end + PAGE_SIZE → ¬(p.vaddr ≤ a ∧ a < p.vaddr + p.filesz) →
    w.byteAt a = some 0
  stack : ∀ a, USER_STACK_BOTTOM_VIRT ≤ a → a < USER_STACK_TOP_VIRT → w.byteAt a = some 0
  entry : ∃ p ∈ segs, p.executable = true ∧ p.vaddr ≤ out.entryPoint ∧ out.entryPoint < p.vaddr + p.memsz

theorem layout_wx (hs : ∀ p ∈ segs, SegmentOk p n) {s : PageSpec}
    (h : s ∈ layout stub img segs) : ¬(s.flags.writable = true ∧ s.flags.noExec = false) := by
  rcases mem_append.1 h with h | h
  · obtain ⟨p, hp, hspec⟩ := mem_flatMap.1 h
    obtain ⟨i, -, rfl⟩ := mem_map.1 hspec
    have := (hs p hp).wx
    simpa [Phdr.pageSpec, Phdr.pageFlags] using this
  rcases mem_cons.1 h with rfl | h
  · simp [restorerSpec]
  obtain ⟨i, -, rfl⟩ := mem_map.1 h
  simp [stackSpec]

theorem segmentSpec_mem (stub img : Bytes) (hp : p ∈ segs)
    (h : page ∈ p.pageList) : p.pageSpec img page ∈ layout stub img segs := by
  obtain ⟨i, hi, rfl⟩ := mem_map.1 h
  exact mem_append_left _ (mem_flatMap.2 ⟨p, hp, mem_map.2 ⟨i, hi, rfl⟩⟩)

theorem stackSpec_of_address (stub img : Bytes) (segs : List Phdr) (hlo : USER_STACK_BOTTOM_VIRT ≤ a)
    (hhi : a < USER_STACK_TOP_VIRT) : ∃ s ∈ layout stub img segs, s.page = pageOf a ∧ s.bytes = pageBytes 0 [] := by
  refine ⟨stackSpec ((USER_STACK_TOP_VIRT - 1 - a) / PAGE_SIZE), ?_, ?_, rfl⟩
  · have hi : (USER_STACK_TOP_VIRT - 1 - a) / PAGE_SIZE < USER_STACK_PAGES := by
      unfold USER_STACK_BOTTOM_VIRT USER_STACK_TOP_VIRT USER_STACK_PAGES PAGE_SIZE at *
      omega
    refine mem_append_right _ (.tail _ (mem_map.2 ⟨_, mem_range.2 hi, ?_⟩))
    rw [Nat.zero_add]
  unfold stackSpec stackPage pageOf
  unfold USER_STACK_BOTTOM_VIRT USER_STACK_TOP_VIRT USER_STACK_PAGES PAGE_SIZE at *
  simp only
  omega

theorem loadedAs_of_built {v : Vm} {entry : Nat} {out : LoadedProcess} {w : Work}
    (hscan : Scanned entry img.length s) (hentry : ∃ p ∈ s.loaded, p.covers entry = true)
    (hout : out.entryPoint = entry) (h : Built v (layout stub img s.loaded) w) : LoadedAs img s.loaded out w := by
  have hpages : w.space.leaves.map Leaf.page = layoutPages s.loaded := by
    rw [← layout_pages stub img]
    exact forall₂_eq_eq_eq ▸ (forall₂_map_left_iff.2 (forall₂_map_right_iff.2
      (h.leaves.imp fun _ _ hm => hm.page)))
  have hnd := layoutPages_nodup hscan.segments hscan.apart
  have hspecs : ((layout stub img s.loaded).map PageSpec.page).Nodup := by rwa [layout_pages]
  have hrange : ∀ l ∈ w.space.leaves, _ := fun l hl =>
    layoutPages_range hscan.segments (hpages ▸ mem_map_of_mem hl)
  -- a segment's address reads what the layout says of its page
  have hbyte : ∀ p ∈ s.loaded, ∀ a, p.start ≤ a → a < p.end + PAGE_SIZE → w.byteAt a = p.byte img a := by
    intro p hp a hlo hhi
    have hmem := segmentSpec_mem stub img hp (Phdr.mem_pageList_of_address hlo hhi)
    rw [byteAt_of_spec h.leaves hspecs hmem rfl, pageSpec_byte (hscan.segments p hp) rfl hlo]
  refine ⟨fun l hl => ⟨(hrange l hl).1, (hrange l hl).2.1⟩, ?_, hpages, hpages ▸ hnd, fun l hl => (hrange l hl).2.2,
    ?_, ?_, ?_, ?_⟩
  · intro l hl
    obtain ⟨t, ht, hm⟩ := exists_spec h.leaves hl
    rw [hm.flags]
    exact layout_wx hscan.segments ht
  · intro p hp a hlo hhi
    have hok := hscan.segments p hp
    have hsz := hok.filesz
    have hfile := hok.file
    refine ⟨?_, by omega⟩
    rw [hbyte p hp a ?_ ?_, Phdr.byte, if_pos ⟨hlo, hhi⟩]
    · unfold Phdr.start pageOf PAGE_SIZE
      omega
    · unfold Phdr.end pageOf PAGE_SIZE
      omega
  · intro p hp a hlo hhi hout
    rw [hbyte p hp a hlo hhi, Phdr.byte, if_neg hout]
  · intro a hlo hhi
    obtain ⟨t, ht, hpage, hbytes⟩ := stackSpec_of_address stub img s.loaded hlo hhi
    rw [byteAt_of_spec h.leaves hspecs ht hpage.symm, hbytes,
      getElem?_pageBytes (Nat.mod_lt _ (by decide)) (by decide), if_neg (by simp)]
  · obtain ⟨p, hp, hc⟩ := hentry
    simp only [Phdr.covers, Bool.and_eq_true, decide_eq_true_eq] at hc
    exact ⟨p, hp, hc.1.1, hout ▸ hc.1.2, hout ▸ hc.2⟩

/-- **A load reads inside the image and either lays the program out or leaves nothing behind**, whatever the image
and whatever allocations fail. -/
theorem loadExecutable_exact (stub img : Bytes) (v : Vm) :
    match loadExecutable stub img v with
    | .ok (out, w) => ∃ h, readHeader img = .ok h ∧ LoadedAs img (segments img h 0 h.phnum) out w
    | .error (e, v') => e ≠ .outOfBounds ∧ v'.used.Perm v.used ∧ v'.spaces = v.spaces ∧ v'.badFree = v.badFree := by
  have hends := loadExecutable_ends stub img v
  cases hr : loadExecutable stub img v with
  | error e =>
    rw [hr] at hends
    exact ⟨hends.1, hends.2.used, hends.2.spaces, hends.2.badFree⟩
  | ok r =>
    rw [hr] at hends
    obtain ⟨h, s, hv, hentry, hbuilt⟩ := hends
    obtain ⟨hhdr, hloaded⟩ := validate_segments hv
    obtain ⟨hscan, hcov⟩ := validate_scanned hv
    exact ⟨h, hhdr, hloaded ▸ loadedAs_of_built hscan hcov hentry hbuilt⟩

/-- One executable segment of 121 bytes at 0x400000, its last byte the entry point. -/
def tinyImage : Bytes :=
  [0x7F, 0x45, 0x4C, 0x46, 2, 1, 1] ++ List.replicate 9 0 ++ le ET_EXEC 2 ++ le EM_X86_64 2 ++ le EV_CURRENT 4 ++
  le 0x400078 8 ++ le 64 8 ++ le 0 8 ++ le 0 4 ++ le 64 2 ++ le 56 2 ++ le 1 2 ++ le 0 6 ++
  le PT_LOAD 4 ++ le 5 4 ++ le 0 8 ++ le 0x400000 8 ++ le 0x400000 8 ++ le 121 8 ++ le 121 8 ++ le 4096 8 ++ [0xC3]

/-- A machine with as many free frames as `n`. -/
def machineWith (n : Nat) : Vm where
  mem := fun _ => 0xAA
  used := [0]
  spaces := []
  answers := (List.range n).map fun i => some ((i + 1) * PAGE_SIZE)

-- With frames enough the image loads.
example : (loadExecutable [0xC3] tinyImage (machineWith 14)).toOption.map
    (fun r => (r.1.totalPages, r.2.byteAt 0x400078)) = some (6, some 0xC3) := by decide +kernel

end Fortress.Elf
