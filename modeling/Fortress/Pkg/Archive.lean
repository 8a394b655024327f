/-
What a verified package holds. The canonical archive of a list of files is
their headers, each with its data padded to whole blocks, and two zero blocks.
The verifier sees it one byte at a time, cut into writes at any point, and its
position in the archive is a function of what went by (`At`): a member's number
and the bytes since its header, or the block being assembled. A byte that is
accepted extends the archive (`expandedByte_at`), so what is left at the end is
the whole of it.
-/
import Fortress.Pkg.Verify

namespace Fortress.Pkg

open Codec List
open Wlan (Sha)

/-! ## The canonical archive -/

/-- The `k` low octal digits of `v`, highest first. -/
def octDigits (v : Nat) : Nat → Bytes
  | 0 => []
  | k + 1 => octDigits (v / 8) k ++ [(48 + v % 8).toUInt8]

def octalField (v n : Nat) : Bytes := octDigits v (n - 1) ++ [0]

/-- A header up to its checksum: name, mode, owner, group, size and time. -/
def tarBefore (f : File) : Bytes :=
  f.path ++ zeros (100 - f.path.length) ++ octalField f.mode 8 ++ octalField 0 8 ++ octalField 0 8 ++
    octalField f.size 12 ++ octalField 0 12

/-- A header from its type on: a regular file without link name, owner names, device or prefix. -/
def tarAfter : Bytes := [48] ++ zeros 100 ++ ustarMagic ++ zeros 247

/-- The checksum, with the field itself as spaces. -/
def tarChecksum (f : File) : Nat :=
  ((tarBefore f).map UInt8.toNat).sum + 8 * 32 + (tarAfter.map UInt8.toNat).sum

def tarBytes (f : File) : Bytes := tarBefore f ++ (octalField (tarChecksum f) 7 ++ [32]) ++ tarAfter

/-- A member: its header, its data and zeros to the end of the block. -/
def memberBytes (f : File) (data : Bytes) : Bytes :=
  tarBytes f ++ data ++ zeros (paddedSize data.length - data.length)

def membersBytes (files : List File) (contents : List Bytes) : Bytes :=
  (List.zipWith memberBytes files contents).flatten

def archiveBytes (files : List File) (contents : List Bytes) : Bytes := membersBytes files contents ++ zeros 1024

/-! ## Headers -/

@[simp] theorem length_octDigits (v k : Nat) : (octDigits v k).length = k := by
  induction k generalizing v with
  | zero => rfl
  | succ k ih => simp [octDigits, ih]

variable {n : Nat}

theorem zero_eq {b : Bytes} (h : zero b = true) : b = zeros b.length := by
  refine eq_replicate_iff.2 ⟨rfl, ?_⟩
  intro x hx
  simpa using all_eq_true.1 h x hx

theorem octalDigits_eq {b : Bytes} : ∀ {v : Nat}, octalDigits b = some v → b = octDigits v b.length := by
  induction b using reverseRecOn with
  | nil => intro v _; rfl
  | append_singleton b d ih =>
    intro v h
    simp only [octalDigits, foldl_append, foldl_cons, foldl_nil, Option.bind_eq_some_iff] at h
    obtain ⟨w, hw, hd⟩ := h
    simp only [Option.ite_none_left_eq_some, Option.some.injEq, not_or] at hd
    obtain ⟨⟨h48, h55⟩, rfl⟩ := hd
    have h1 : 48 ≤ d.toNat := by simpa [UInt8.lt_iff_toNat_lt] using h48
    have h2 : d.toNat ≤ 55 := by simpa [UInt8.lt_iff_toNat_lt] using h55
    rw [length_append, length_singleton, octDigits]
    have hdiv : (w * 8 + (d.toNat - 48)) / 8 = w := by omega
    have hmod : 48 + (w * 8 + (d.toNat - 48)) % 8 = d.toNat := by omega
    rw [hdiv, hmod, ← ih hw]
    simp

theorem octal_eq {b : Bytes} {v : Nat} (h : octal b = some v) (hn : b.length = n) : b = octalField v n := by
  simp only [octal, Option.ite_none_right_eq_some] at h
  obtain ⟨hlast, hd⟩ := h
  have hb : b = b.dropLast ++ [0] := (dropLast_append_getLast? 0 hlast).symm
  have hdig := octalDigits_eq hd
  rw [length_dropLast, hn] at hdig
  rw [octalField, ← hdig]
  exact hb

variable {f : File}

@[simp] theorem length_tarAfter : tarAfter.length = 356 := by
  simp [tarAfter, ustarMagic]

theorem length_tarBytes (h : f.path.length ≤ 100) : (tarBytes f).length = 512 := by
  simp [tarBytes, tarBefore, octalField]
  omega

variable {p d : Bytes}

theorem tarHeader_before (h : tarHeaderOk f p = true) (hp : p.length = 512)
    (hf : f.path.length ≤ 100) : slice p 0 148 = tarBefore f := by
  simp only [tarHeaderOk, Bool.and_eq_true, beq_iff_eq] at h
  obtain ⟨⟨⟨⟨⟨⟨⟨⟨⟨⟨⟨⟨hpath, hz⟩, hmode⟩, huid⟩, hgid⟩, hsize⟩, hmtime⟩, -⟩, -⟩, -⟩, -⟩, -⟩, -⟩ := h
  have hz' := zero_eq hz
  rw [length_slice_of_le (by omega)] at hz'
  calc slice p 0 148 = slice p 0 f.path.length ++ slice p f.path.length (100 - f.path.length) ++ slice p 100 8 ++
        slice p 108 8 ++ slice p 116 8 ++ slice p 124 12 ++ slice p 136 12 := by
        rw [show 148 = f.path.length + (100 - f.path.length) + 8 + 8 + 8 + 12 + 12 by omega]
        simp only [slice_add, Nat.zero_add]
        rw [show f.path.length + (100 - f.path.length) = 100 by omega]
    _ = tarBefore f := by
        rw [hpath, hz', octal_eq hmode (length_slice_of_le (by omega)), octal_eq huid (length_slice_of_le (by omega)),
          octal_eq hgid (length_slice_of_le (by omega)), octal_eq hsize (length_slice_of_le (by omega)),
          octal_eq hmtime (length_slice_of_le (by omega)), tarBefore]

theorem tarHeader_after (h : tarHeaderOk f p = true) (hp : p.length = 512) : slice p 156 356 = tarAfter := by
  simp only [tarHeaderOk, Bool.and_eq_true, beq_iff_eq] at h
  obtain ⟨⟨⟨⟨-, htype⟩, hlink⟩, hmagic⟩, hrest⟩ := h
  have hlink' := zero_eq hlink
  have hrest' := zero_eq hrest
  rw [length_slice_of_le (by omega)] at hlink' hrest'
  calc slice p 156 356 = slice p 156 1 ++ slice p 157 100 ++ slice p 257 8 ++ slice p 265 247 := by
        rw [show 356 = 1 + 100 + 8 + 247 by rfl]
        simp only [slice_add]
    _ = tarAfter := by rw [htype, hlink', hmagic, hrest', tarAfter]

/-- An accepted header is the canonical one: its fields leave no choice. -/
theorem tarHeader_eq (h : tarHeaderOk f p = true) (hp : p.length = 512)
    (hf : f.path.length ≤ 100) : p = tarBytes f := by
  have hbefore := tarHeader_before h hp hf
  have hafter := tarHeader_after h hp
  have hsum : tarSum p = tarChecksum f := by
    rw [tarSum, tarChecksum, ← hbefore, ← hafter]
    simp [slice, hp, take_of_length_le]
  simp only [tarHeaderOk, Bool.and_eq_true, beq_iff_eq] at h
  obtain ⟨⟨⟨⟨⟨⟨-, hchk⟩, hspace⟩, -⟩, -⟩, -⟩, -⟩ := h
  rw [hsum] at hchk
  calc p = slice p 0 512 := (slice_self hp).symm
    _ = slice p 0 148 ++ (slice p 148 7 ++ slice p 155 1) ++ slice p 156 356 := by
        rw [show 512 = 148 + 7 + 1 + 356 by rfl]
        simp only [slice_add, Nat.zero_add, append_assoc]
    _ = tarBytes f := by
        rw [hbefore, hafter, hspace, octal_eq hchk (length_slice_of_le (by omega)), tarBytes]

/-! ## Members -/

theorem le_paddedSize (n : Nat) : n ≤ paddedSize n := by
  unfold paddedSize
  omega

theorem paddedSize_mod (n : Nat) : paddedSize n % 512 = 0 := by
  unfold paddedSize
  omega

theorem length_memberBytes (h : f.path.length ≤ 100) : (memberBytes f d).length = 512 + paddedSize d.length := by
  have := le_paddedSize d.length
  simp [memberBytes, length_tarBytes h]
  omega

variable {files : List File}

theorem length_membersBytes_mod (contents : List Bytes) (h : ∀ f ∈ files, f.Fits) :
    (membersBytes files contents).length % 512 = 0 := by
  induction files generalizing contents with
  | nil => simp [membersBytes]
  | cons f files ih =>
    cases contents with
    | nil => simp [membersBytes]
    | cons d contents =>
      have hrest := ih contents fun g hg => h g (mem_cons_of_mem f hg)
      have hpad := paddedSize_mod d.length
      have hlen := length_memberBytes (d := d) (h f (.head _)).1
      simp only [membersBytes, zipWith_cons_cons, flatten_cons, length_append] at hrest ⊢
      omega

variable {contents : List Bytes}

theorem membersBytes_append (d : Bytes) (hf : files[contents.length]? = some f) :
    membersBytes files (contents ++ [d]) = membersBytes files contents ++ memberBytes f d := by
  induction files generalizing contents with
  | nil => simp at hf
  | cons g files ih =>
    cases contents with
    | nil =>
      obtain rfl : g = f := by simpa using hf
      simp [membersBytes]
    | cons e contents =>
      have : membersBytes files (contents ++ [d]) = membersBytes files contents ++ memberBytes f d :=
        ih (by simpa using hf)
      simp only [membersBytes, cons_append, zipWith_cons_cons, flatten_cons] at this ⊢
      rw [this, append_assoc]

/-! ## Where the check stands -/

variable {σ : Type} {H : Sha σ}

/-- The data of the first files of the manifest, with the sizes and hashes it names. -/
def Held (H : Sha σ) (files : List File) (contents : List Bytes) : Prop :=
  ∀ (i : Nat) (d : Bytes), contents[i]? = some d →
    ∃ f : File, files[i]? = some f ∧ d.length = f.size ∧ digest H d = f.sha256

theorem Held.append (h : Held H files contents)
    (hf : files[contents.length]? = some f) (hd : d.length = f.size) (hs : digest H d = f.sha256) :
    Held H files (contents ++ [d]) := by
  intro i e he
  rcases Nat.lt_trichotomy i contents.length with hi | rfl | hi
  · rw [getElem?_append_left hi] at he
    exact h i e he
  · obtain rfl : d = e := by simpa using he
    exact ⟨f, hf, hd, hs⟩
  · rw [getElem?_eq_none (by simp; omega)] at he
    cases he

/-- `memberOffset` bytes of the current member went by, `data` of them its own. -/
structure InMember (H : Sha σ) (c : Ctx σ) (w : Bytes) (contents : List Bytes) (f : File) (data : Bytes) : Prop where
  held : Held H c.manifest.files contents
  count : contents.length = c.member
  file : c.manifest.files[c.member]? = some f
  noZeros : c.zeroBlocks = 0
  full : c.tar.length = 512
  hash : c.memberHash = feed H data
  len : data.length = min c.memberOffset f.size
  offset : c.memberOffset ≤ paddedSize f.size
  bytes : w = membersBytes c.manifest.files contents ++ tarBytes f ++ (data ++ zeros (c.memberOffset - data.length))

/-- The check after the archive bytes `w`: between headers, or inside a member. -/
inductive At (H : Sha σ) (c : Ctx σ) (w : Bytes) : Prop
  | header (contents : List Bytes) (held : Held H c.manifest.files contents) (count : contents.length = c.member)
      (zeroBlocks : c.zeroBlocks ≤ 2) (tail : c.zeroBlocks ≠ 0 → c.member = c.fileCount) (part : c.tar.length < 512)
      (bytes : w = membersBytes c.manifest.files contents ++ zeros (512 * c.zeroBlocks) ++ c.tar) : At H c w
  | member (contents : List Bytes) (f : File) (data : Bytes) (h : InMember H c w contents f data)
      (more : c.memberOffset < paddedSize f.size) : At H c w

theorem Ctx.file_eq {c : Ctx σ} (h : c.manifest.files[c.member]? = some f) : c.file = f := by
  rw [Ctx.file, getD_eq_getElem?_getD, h, Option.getD_some]

theorem zeros_add (m n : Nat) : zeros (m + n) = zeros m ++ zeros n := replicate_add m n 0

/-! ## One byte -/

variable {c c' : Ctx σ}

theorem tarHeader_cases (h : tarHeader H c = (c', true)) :
    (c.member = c.fileCount ∧ zero c.tar = true ∧ c.zeroBlocks + 1 ≤ 2 ∧
      c' = { c with zeroBlocks := c.zeroBlocks + 1 }) ∨
    (c.member ≠ c.fileCount ∧ tarHeaderOk c.file c.tar = true ∧
      c' = { c with memberHash := digestInit H, memberOffset := 0, elf := { c.elf with phoff := 0 } }) := by
  grind [tarHeader]

variable {b : UInt8}

/-- A byte of the block being assembled: the block grows, is a zero block, or is the next member's header. -/
theorem headerByte_cases (h : headerByte H c b = (c', true)) :
    (c.tar.length + 1 ≠ 512 ∧ c' = { c with tar := c.tar ++ [b] }) ∨
    (c.tar.length + 1 = 512 ∧ c.member = c.fileCount ∧ zero (c.tar ++ [b]) = true ∧ c.zeroBlocks + 1 ≤ 2 ∧
      c' = { c with tar := [], zeroBlocks := c.zeroBlocks + 1 }) ∨
    (c.tar.length + 1 = 512 ∧ c.member ≠ c.fileCount ∧ tarHeaderOk c.file (c.tar ++ [b]) = true ∧
      c' = { c with tar := c.tar ++ [b], memberHash := digestInit H, memberOffset := 0,
                    elf := { c.elf with phoff := 0 } }) := by
  unfold headerByte at h
  simp only [length_append, length_singleton] at h
  by_cases hlen : c.tar.length + 1 = 512
  · rw [if_neg (not_not.2 hlen)] at h
    cases ht : tarHeader H { c with tar := c.tar ++ [b] } with
    | mk c1 ok =>
      cases ok with
      | false => simp [ht] at h
      | true =>
        simp only [ht, Bool.true_eq_false, if_false] at h
        rcases tarHeader_cases ht with ⟨hm, hz, hle, rfl⟩ | ⟨hm, ho, rfl⟩ <;> grind [Ctx.fileCount, Ctx.file]
  · rw [if_pos hlen] at h
    cases h
    exact .inl ⟨hlen, rfl⟩

variable {w : Bytes}

theorem headerByte_at (hfit : ∀ f ∈ c.manifest.files, f.Fits)
    (hat : At H c w) (hpart : c.tar.length < 512) (h : headerByte H c b = (c', true)) : At H c' (w ++ [b]) := by
  cases hat with
  | member contents f data hin => exact absurd hin.full (by omega)
  | header contents held count zeroBlocks tail part bytes =>
    rcases headerByte_cases h with ⟨hlen, rfl⟩ | ⟨hlen, hm, hz, hle, rfl⟩ | ⟨hlen, hm, ho, rfl⟩
    · refine .header contents held count zeroBlocks tail (by simp; omega) ?_
      rw [bytes]
      simp
    · -- The block is the next of the two zero blocks.
      have hblock := zero_eq hz
      rw [length_append, length_singleton, hlen] at hblock
      refine .header contents held count hle (fun _ => hm) (by simp) ?_
      rw [bytes, append_assoc, hblock, append_assoc, ← zeros_add]
      simp [Nat.mul_add]
    -- The block is the header of the next file of the manifest.
    have hlt : c.member < c.manifest.files.length := by
      have hle : contents.length ≤ c.manifest.files.length := by
        by_contra hgt
        obtain ⟨f, hf, -⟩ := held c.manifest.files.length _ (getElem?_eq_getElem (by omega))
        simp at hf
      have hne : c.member ≠ c.manifest.files.length := hm
      omega
    have hf : c.manifest.files[c.member]? = some c.manifest.files[c.member] := getElem?_eq_getElem hlt
    have hfits := hfit _ (getElem_mem hlt)
    have hnz : c.zeroBlocks = 0 := by
      by_contra hne
      exact hm (tail hne)
    rw [Ctx.file_eq hf] at ho
    have hblock := tarHeader_eq ho (by simp [hlen]) hfits.1
    refine .member contents _ [] ⟨held, count, hf, hnz, by simp [hlen], rfl, by simp, by simp, ?_⟩ ?_
    · rw [bytes, append_assoc, hblock, hnz]
      simp [zeros]
    · exact Nat.lt_of_lt_of_le hfits.2 (le_paddedSize _)

theorem dataByte_cases (h : dataByte H c b = (c', true)) :
    ∃ d e, digestUpdate H c.memberHash [b] = some d ∧ c' = { c with memberHash := d, elf := e } := by
  grind [dataByte]

/-- A byte behind a header: it goes into the member, which may end with it. -/
theorem memberByte_cases (h : memberByte H c b = (c', true)) :
    ∃ c1 : Ctx σ, ((c.memberOffset < c.file.size ∧ dataByte H c b = (c1, true)) ∨
        (c.file.size ≤ c.memberOffset ∧ b = 0 ∧ c1 = c)) ∧
      ((¬(c1.memberOffset + 1 ≥ c1.file.size ∧ c1.expanded % 512 = 0) ∧
          c' = { c1 with memberOffset := c1.memberOffset + 1 }) ∨
        (c1.memberOffset + 1 ≥ c1.file.size ∧ c1.expanded % 512 = 0 ∧
          digestFinal H c1.memberHash = c1.file.sha256 ∧
          c' = { c1 with memberOffset := c1.memberOffset + 1, member := c1.member + 1, tar := [] })) := by
  refine ⟨(contentByte H c b).1, ?_⟩
  grind [memberByte, contentByte, endMember, Ctx.file]

variable {data : Bytes}

/-- The member's bytes after one more, which is data or a zero of the padding. -/
theorem InMember.byte {c c1 : Ctx σ}
    (hin : InMember H c w contents f data) (more : c.memberOffset < paddedSize f.size)
    (h : (c.memberOffset < c.file.size ∧ dataByte H c b = (c1, true)) ∨
      (c.file.size ≤ c.memberOffset ∧ b = 0 ∧ c1 = c)) :
    ∃ data', InMember H { c1 with memberOffset := c1.memberOffset + 1 } (w ++ [b]) contents f data' ∧
      c1.manifest = c.manifest ∧ c1.member = c.member ∧ c1.expanded = c.expanded ∧
      c1.memberOffset = c.memberOffset := by
  have hlen := hin.len
  rw [Ctx.file_eq hin.file] at h
  rcases h with ⟨hlt, hd⟩ | ⟨hge, rfl, rfl⟩
  · obtain ⟨d, e, hup, rfl⟩ := dataByte_cases hd
    rw [hin.hash] at hup
    have hdl : data.length = c.memberOffset := by omega
    refine ⟨data ++ [b], ⟨hin.held, hin.count, hin.file, hin.noZeros, hin.full, digestUpdate_feed hup, ?_, more, ?_⟩,
      rfl, rfl, rfl, rfl⟩
    · simp only [length_append, length_singleton]
      omega
    · rw [hin.bytes, hdl]
      simp [zeros, hdl]
  have hdl : data.length = f.size := by omega
  refine ⟨data, ⟨hin.held, hin.count, hin.file, hin.noZeros, hin.full, hin.hash, ?_, more, ?_⟩,
    rfl, rfl, rfl, rfl⟩
  · simp only
    omega
  have hz : zeros (c1.memberOffset + 1 - data.length) = zeros (c1.memberOffset - data.length) ++ zeros 1 := by
    rw [← zeros_add]
    congr 1
    omega
  rw [hin.bytes]
  simp only [hz, append_assoc]
  rfl

/-- Inside a member the archive is at a block boundary exactly when the member is. -/
theorem InMember.length_mod {c : Ctx σ}
    (hin : InMember H c w contents f data) (hfit : ∀ f ∈ c.manifest.files, f.Fits) :
    w.length % 512 = c.memberOffset % 512 := by
  have hlen := hin.len
  have hm := length_membersBytes_mod contents hfit
  have hf := hfit f (mem_of_getElem? hin.file)
  rw [hin.bytes]
  simp only [length_append, length_zeros, length_tarBytes hf.1]
  omega

theorem memberByte_at (hfit : ∀ f ∈ c.manifest.files, f.Fits)
    (hat : At H c w) (hfull : ¬c.tar.length < 512) (hexp : c.expanded = w.length + 1)
    (h : memberByte H c b = (c', true)) : At H c' (w ++ [b]) := by
  cases hat with
  | header contents held count zeroBlocks tail part => exact absurd part hfull
  | member contents f data hin more =>
    obtain ⟨c1, hbyte, hnext⟩ := memberByte_cases h
    obtain ⟨data', hin', hman, hmem, hexp1, hoff⟩ := hin.byte more hbyte
    have hmod : (w.length + 1) % 512 = (c.memberOffset + 1) % 512 := by
      have := hin'.length_mod (by simpa [hman] using hfit)
      simpa [hoff] using this
    have hfile1 : c1.file = f := Ctx.file_eq hin'.file
    have hlen' : data'.length = min (c.memberOffset + 1) f.size := by
      have := hin'.len
      simpa [hoff] using this
    rcases hnext with ⟨hgo, rfl⟩ | ⟨hsize, hblock, hsum, rfl⟩
    · refine .member contents f data' hin' ?_
      simp only [hoff]
      -- At the padded size the member would have ended.
      by_contra hge
      have hpad := le_paddedSize f.size
      have hmodp := paddedSize_mod f.size
      exact hgo ⟨by rw [hoff, hfile1]; omega, by rw [hexp1, hexp]; omega⟩
    rw [hfile1, hoff] at hsize
    rw [hexp1, hexp] at hblock
    have heq : c.memberOffset + 1 = paddedSize f.size := by
      unfold paddedSize at *
      omega
    have hdl : data'.length = f.size := by omega
    have hdig : digest H data' = f.sha256 := by
      have hh : c1.memberHash = feed H data' := hin'.hash
      rw [hfile1, hh] at hsum
      exact hsum
    have hfile := hin'.file
    have hcount : contents.length = c1.member := hin'.count
    simp only at hfile
    rw [← hcount] at hfile
    have hz : c1.zeroBlocks = 0 := hin'.noZeros
    refine .header (contents ++ [data']) (hin'.held.append hfile hdl hdig) (by simp [hcount]) (by simp [hz]) ?_
      (by simp) ?_
    · intro hne
      exact absurd hz hne
    rw [hin'.bytes]
    simp only
    rw [membersBytes_append data' hfile, hoff, heq, hz, ← hdl]
    simp [memberBytes, zeros]

/-- Fields the archive check does not look at. -/
theorem At.update (h : At H c w) (expanded compressed : Nat) (a p : Digest σ) : At H { c with
    expanded := expanded, compressed := compressed, artifactHash := a, payloadHash := p } w := by
  cases h with
  | header contents held count zeroBlocks tail part bytes =>
    exact .header contents held count zeroBlocks tail part bytes
  | member contents f data hin more => exact .member contents f data { hin with } more

/-- **One byte**: an accepted byte extends the archive. -/
theorem expandedByte_at (hfit : ∀ f ∈ c.manifest.files, f.Fits)
    (hat : At H c w) (hexp : c.expanded = w.length) (h : expandedByte H c b = (c', true)) : At H c' (w ++ [b]) := by
  have hat' : At H { c with expanded := c.expanded + 1 } w := hat.update ..
  simp only [expandedByte] at h
  split at h
  · rename_i hpart
    exact headerByte_at (c := { c with expanded := c.expanded + 1 }) hfit hat' hpart h
  · rename_i hfull
    exact memberByte_at (c := { c with expanded := c.expanded + 1 }) hfit hat' hfull (by simp [hexp]) h

/-- The fields the archive check never writes. -/
def Ctx.Same (c c' : Ctx σ) : Prop :=
  c'.manifest = c.manifest ∧ c'.envelope = c.envelope ∧ c'.artifactHash = c.artifactHash ∧ c'.failed = c.failed

theorem expandedByte_same (h : expandedByte H c b = (c', true)) : c.Same c' ∧ c'.expanded = c.expanded + 1 := by
  simp only [expandedByte] at h
  split at h
  · rcases headerByte_cases h with ⟨-, rfl⟩ | ⟨-, -, -, -, rfl⟩ | ⟨-, -, -, rfl⟩ <;> exact ⟨⟨rfl, rfl, rfl, rfl⟩, rfl⟩
  obtain ⟨c1, hbyte, hnext⟩ := memberByte_cases h
  have hc1 : c.Same c1 ∧ c1.expanded = c.expanded + 1 := by
    rcases hbyte with ⟨-, hd⟩ | ⟨-, -, rfl⟩
    · obtain ⟨d, e, -, rfl⟩ := dataByte_cases hd
      exact ⟨⟨rfl, rfl, rfl, rfl⟩, rfl⟩
    · exact ⟨⟨rfl, rfl, rfl, rfl⟩, rfl⟩
  rcases hnext with ⟨-, rfl⟩ | ⟨-, -, -, rfl⟩ <;> exact hc1

/-! ## A run -/

variable {ρ : Type} {R : Reader ρ}

/-- A run that has not failed: its hash is of all that was read, `pre` first, and the archive check stands
behind all that was expanded. -/
structure Sound (H : Sha σ) (m : Manifest) (pre : Bytes) (s : Run ρ σ) : Prop where
  hash : s.ctx.artifactHash = feed H s.artifact
  grows : pre <+: s.artifact
  manifest : s.ctx.manifest = m
  stands : At H s.ctx s.payload
  expanded : s.ctx.expanded = s.payload.length

def SoundOrFailed (H : Sha σ) (m : Manifest) (pre : Bytes) (s : Run ρ σ) : Prop :=
  s.ctx.failed = true ∨ Sound H m pre s

variable {m : Manifest} {pre : Bytes}

theorem soundOrFailed_fail (s : Run ρ σ) : SoundOrFailed H m pre s.fail := .inl rfl

variable {s : Run ρ σ}

theorem input_sound (h : SoundOrFailed H m pre s) (n : Nat) : SoundOrFailed H m pre (input H R s n).1 := by
  unfold input
  cases hr : R s.src n with
  | mk answer src =>
    cases answer with
    | none => exact soundOrFailed_fail _
    | some b =>
      simp only
      split
      · exact soundOrFailed_fail _
      split
      · exact Or.imp_right (fun h => { h with }) h
      cases hd : digestUpdate H s.ctx.artifactHash b with
      | none => exact soundOrFailed_fail _
      | some d =>
        refine Or.imp_right (fun h => ?_) h
        rw [h.hash] at hd
        exact ⟨digestUpdate_feed hd, h.grows.trans (prefix_append _ _), h.manifest,
          h.stands.update .., h.expanded⟩

theorem compressed_sound (h : SoundOrFailed H m pre s) (n : Nat) :
    SoundOrFailed H m pre (compressed H R s n).1 := by
  unfold compressed
  simp only
  split
  · exact h
  have hin := input_sound (R := R) h (min n (s.ctx.envelope.compressedBytes - s.ctx.compressed))
  cases hi : input H R s (min n (s.ctx.envelope.compressedBytes - s.ctx.compressed)) with
  | mk s1 answer =>
    rw [hi] at hin
    cases answer with
    | none => exact soundOrFailed_fail _
    | some b =>
      cases b with
      | nil => exact soundOrFailed_fail _
      | cons x b =>
        simp only
        split
        · exact soundOrFailed_fail _
        cases digestUpdate H s1.ctx.payloadHash (x :: b) with
        | none => exact soundOrFailed_fail _
        | some d =>
          exact Or.imp_right (fun h => { h with stands := h.stands.update .. }) hin

theorem expandedLoop_sound {bs : Bytes} (hfit : ∀ f ∈ m.files, f.Fits)
    (h : SoundOrFailed H m pre { s with ctx := c, payload := w }) (hl : expandedLoop H c bs = (c', true)) :
    SoundOrFailed H m pre { s with ctx := c', payload := w ++ bs } := by
  induction bs generalizing c w with
  | nil =>
    cases hl
    rwa [append_nil]
  | cons b bs ih =>
    unfold expandedLoop at hl
    cases he : expandedByte H c b with
    | mk c1 ok =>
      simp only [he] at hl
      cases ok with
      | false => simp at hl
      | true =>
        obtain ⟨⟨hman, -, hart, hfailed⟩, hn⟩ := expandedByte_same he
        rw [append_cons]
        refine ih ?_ hl
        rcases h with h | h
        · exact .inl (hfailed.trans h)
        have hexp : c.expanded = w.length := h.expanded
        exact .inr ⟨hart.trans h.hash, h.grows, hman.trans h.manifest,
          expandedByte_at (by rw [h.manifest]; exact hfit) h.stands hexp he, by simp [hn, hexp]⟩

theorem runWrite_sound (hfit : ∀ f ∈ m.files, f.Fits)
    (h : SoundOrFailed H m pre s) (b : Bytes) : SoundOrFailed H m pre (runWrite H s b).1 := by
  unfold runWrite expanded
  simp only
  split
  · exact .inl rfl
  cases hl : expandedLoop H s.ctx b with
  | mk c ok =>
    cases ok with
    | false => exact .inl rfl
    | true => exact expandedLoop_sound hfit h hl

/-- Whatever the decoder does, the run stays sound or has failed for good. -/
theorem decode_sound (hfit : ∀ f ∈ m.files, f.Fits) (D : Decoder)
    (h : SoundOrFailed H m pre s) : SoundOrFailed H m pre (decode H R D s).1 := by
  induction D generalizing s with
  | ret r => exact h
  | ask call k ih =>
    cases call with
    | read n => exact ih _ (compressed_sound h n)
    | write b => exact ih _ (runWrite_sound hfit h b)

/-! ## Envelope and manifest -/

theorem input_spec {s s' : Run ρ σ} {b : Bytes} (hs : s.ctx.artifactHash = feed H s.artifact)
    (h : input H R s n = (s', some b)) :
    s'.artifact = s.artifact ++ b ∧ s'.ctx = { s.ctx with artifactHash := feed H s'.artifact } ∧
      s'.payload = s.payload := by
  unfold input at h
  cases hr : R s.src n with
  | mk answer src =>
    cases answer with
    | none => simp [hr] at h
    | some a =>
      simp only [hr] at h
      split at h
      · cases h
      split at h
      · cases h
        exact ⟨by simp, by rw [← hs], rfl⟩
      cases hd : digestUpdate H s.ctx.artifactHash a with
      | none => simp [hd] at h
      | some d =>
        simp only [hd, Prod.mk.injEq, Option.some.injEq] at h
        obtain ⟨rfl, rfl⟩ := h
        rw [hs] at hd
        exact ⟨rfl, by rw [← digestUpdate_feed hd], rfl⟩

theorem exactly_spec {s s' : Run ρ σ} {rounds : Nat} {b : Bytes} (hs : s.ctx.artifactHash = feed H s.artifact)
    (h : exactly H R s n rounds = some (s', b)) :
    s'.artifact = s.artifact ++ b ∧ s'.ctx = { s.ctx with artifactHash := feed H s'.artifact } ∧
      s'.payload = s.payload := by
  induction rounds generalizing s n b with
  | zero =>
    simp only [exactly, Option.ite_none_right_eq_some, Option.some.injEq, Prod.mk.injEq] at h
    obtain ⟨-, rfl, rfl⟩ := h
    exact ⟨by simp, by rw [← hs], rfl⟩
  | succ rounds ih =>
    unfold exactly at h
    split at h
    · cases h
      exact ⟨by simp, by rw [← hs], rfl⟩
    cases hi : input H R s n with
    | mk s1 answer =>
      cases answer with
      | none => simp [hi] at h
      | some a =>
        cases a with
        | nil => simp [hi] at h
        | cons x a =>
          simp only [hi, Option.map_eq_some_iff] at h
          obtain ⟨r, hr, heq⟩ := h
          cases heq
          obtain ⟨ha, hc, hp⟩ := input_spec hs hi
          obtain ⟨ha', hc', hp'⟩ := ih (by rw [hc]) hr
          exact ⟨by rw [ha', ha, append_assoc], by rw [hc', hc], hp'.trans hp⟩

/-- The head of a package: an envelope, and the manifest whose hash it names. -/
structure Head (H : Sha σ) (m : Manifest) (header bytes : Bytes) : Prop where
  manifest : fpkParseManifest bytes = some m
  envelope : ∃ e, fpkParseEnvelope header = some e ∧ digest H bytes = e.manifestSha256 ∧
    m.archiveBytes = e.expandedBytes

theorem at_start {c : Ctx σ} (hm : c.member = 0) (hz : c.zeroBlocks = 0) (ht : c.tar = []) : At H c [] := by
  refine .header [] nofun (by simp [hm]) (by omega) ?_ (by simp [ht]) ?_
  · intro hne
    exact absurd hz hne
  · simp [membersBytes, zeros, hz, ht]

variable {length : Nat}

theorem readHead_spec {src : ρ} (h : readHead H R src length = some s) :
    ∃ header bytes, Head H s.ctx.manifest header bytes ∧ Sound H s.ctx.manifest (header ++ bytes) s := by
  unfold readHead at h
  cases h1 : exactly H R { ctx := Ctx.start H, src := src } FPK_HEADER_SIZE FPK_HEADER_SIZE with
  | none => simp [h1] at h
  | some r1 =>
    obtain ⟨s1, header⟩ := r1
    obtain ⟨ha1, hc1, hp1⟩ := exactly_spec rfl h1
    cases he : fpkParseEnvelope header with
    | none => simp [h1, he] at h
    | some e =>
      simp only [h1, he, Option.ite_none_left_eq_some] at h
      obtain ⟨-, h⟩ := h
      cases h2 : exactly H R s1 e.manifestBytes e.manifestBytes with
      | none => simp [h2] at h
      | some r2 =>
        obtain ⟨s2, bytes⟩ := r2
        obtain ⟨ha2, hc2, hp2⟩ := exactly_spec (by rw [hc1]) h2
        cases hd : digestUpdate H (digestInit H) bytes with
        | none => simp [h2, hd] at h
        | some d =>
          simp only [h2, hd, Option.ite_none_left_eq_some] at h
          obtain ⟨hsum, h⟩ := h
          cases hm : fpkParseManifest bytes with
          | none => simp [hm] at h
          | some m =>
            simp only [hm, Option.ite_none_left_eq_some, Option.some.injEq] at h
            obtain ⟨hlen, rfl⟩ := h
            have hd' : d = feed H bytes := digestUpdate_feed (m := []) hd
            refine ⟨header, bytes, ⟨hm, e, he, ?_, not_not.1 hlen⟩, ?_⟩
            · rw [digest, ← hd']
              exact not_not.1 hsum
            refine ⟨?_, ?_, rfl, ?_, ?_⟩
            · simp only
              rw [hc2]
            · simp only [ha2, ha1]
              exact ⟨[], by simp⟩
            · simp only [hp2, hp1]
              exact at_start (by simp only [hc2, hc1]; rfl) (by simp only [hc2, hc1]; rfl)
                (by simp only [hc2, hc1]; rfl)
            · simp only [hc2, hc1, hp2, hp1]
              rfl

/-! ## The whole package -/

theorem fpkVerify_eq_some {D : Decoder} {src : ρ} {expected : Bytes} :
    fpkVerify H R D src length expected = some s ↔
      ∃ s0 s1, readHead H R src length = some s0 ∧ decode H R D s0 = (s1, 0) ∧ s1.ctx.done = true ∧
        digestFinal H s1.ctx.payloadHash = s1.ctx.envelope.payloadSha256 ∧ input H R s1 1 = (s, some []) ∧
        digestFinal H s.ctx.artifactHash = expected := by
  constructor
  · grind [fpkVerify]
  · rintro ⟨s0, s1, hh, hd, hdone, hsum, hi, hexp⟩
    simp [fpkVerify, hh, hd, hdone, hsum, hi, hexp]

/-- Where the check ends, the whole archive went by. -/
theorem At.archive {c : Ctx σ} (h : At H c w) (hd : c.done = true) :
    ∃ contents, contents.length = c.manifest.files.length ∧ Held H c.manifest.files contents ∧
      w = archiveBytes c.manifest.files contents := by
  simp only [Ctx.done, Bool.and_eq_true, beq_iff_eq, List.isEmpty_iff] at hd
  obtain ⟨⟨⟨-, hm⟩, hz⟩, ht⟩ := hd
  cases h with
  | member contents f data hin =>
    have := hin.full
    simp [ht] at this
  | header contents held count zeroBlocks tail part bytes =>
    refine ⟨contents, count.trans hm, held, ?_⟩
    rw [bytes, hz, ht, archiveBytes, List.append_nil]

/-- **A verified package is exactly what its manifest says.** For any digest, decoder and reader: the bytes
read hash to the expected value, they begin with an envelope and a manifest it vouches for, and the expanded
payload is the canonical archive of the manifest's files, in order, each with the size and hash it names. -/
theorem fpkVerify_exact {D : Decoder} {src : ρ} {length : Nat} {expected : Bytes} {s : Run ρ σ}
    (h : fpkVerify H R D src length expected = some s) :
    digest H s.artifact = expected ∧
    (∃ header bytes, header ++ bytes <+: s.artifact ∧ Head H s.ctx.manifest header bytes) ∧
    ∃ contents, contents.length = s.ctx.manifest.files.length ∧ Held H s.ctx.manifest.files contents ∧
      s.payload = archiveBytes s.ctx.manifest.files contents := by
  obtain ⟨s₀, s₁, hh, hd, hdone, -, hi, hexp⟩ := fpkVerify_eq_some.1 h
  obtain ⟨header, bytes, hhead, hs₀⟩ := readHead_spec hh
  have hfit := fpkParseManifest_fits hhead.manifest
  have hs₁ : SoundOrFailed H s₀.ctx.manifest (header ++ bytes) s₁ := by
    have := decode_sound (R := R) hfit D (.inr hs₀)
    rwa [hd] at this
  have hsound : Sound H s₀.ctx.manifest (header ++ bytes) s₁ := by
    rcases hs₁ with hf | hs
    · simp [Ctx.done, hf] at hdone
    · exact hs
  obtain ⟨ha, hc, hp⟩ := input_spec hsound.hash hi
  rw [append_nil] at ha
  obtain ⟨contents, hlen, hheld, hw⟩ := hsound.stands.archive hdone
  have hman : s.ctx.manifest = s₁.ctx.manifest := by rw [hc]
  refine ⟨?_, ⟨header, bytes, ha ▸ hsound.grows, ?_⟩, contents, ?_, ?_, ?_⟩
  · rw [← hexp, hc, digest]
  · rw [hman, hsound.manifest]
    exact hhead
  · rw [hman]
    exact hlen
  · rw [hman]
    exact hheld
  · rw [hp, hman]
    exact hw

/-! ## A small package -/

/-- Bytes that do not fill the block are kept. -/
theorem expandedLoop_block {c : Ctx σ} {bs : Bytes} (h : c.tar.length + bs.length < 512) :
    expandedLoop H c bs = ({ c with tar := c.tar ++ bs, expanded := c.expanded + bs.length }, true) := by
  induction bs generalizing c with
  | nil => simp [expandedLoop]
  | cons b bs ih =>
    rw [length_cons] at h
    have hb : expandedByte H c b = ({ c with tar := c.tar ++ [b], expanded := c.expanded + 1 }, true) := by
      simp only [expandedByte, headerByte, length_append, length_singleton]
      rw [if_pos (by omega), if_pos (by omega)]
    simp only [expandedLoop, hb]
    rw [ih (by simp; omega)]
    simp [Nat.add_assoc, Nat.add_comm 1]

theorem decode_block {b : Bytes} {k : DecoderCall.Answer (.write b) → Decoder}
    (h : s.ctx.tar.length + b.length < 512 ∧ s.ctx.expanded + b.length ≤ s.ctx.envelope.expandedBytes) :
    decode H R (.ask (.write b) k) s = decode H R (k (some b.length)) { s with
      ctx := { s.ctx with tar := s.ctx.tar ++ b, expanded := s.ctx.expanded + b.length }
      payload := s.payload ++ b } := by
  rw [decode, runWrite, expanded, if_neg (by omega), expandedLoop_block h.1]

/-- One executable segment at 4 MiB, entered at its start. -/
def tinyElf : Bytes :=
  [0x7F, 0x45, 0x4C, 0x46, 2, 1, 1] ++ zeros 9 ++ le 2 2 ++ le 62 2 ++ le 1 4 ++ le 0x400000 8 ++ le 64 8 ++
    zeros 12 ++ le 64 2 ++ le 56 2 ++ le 1 2 ++ zeros 6 ++
  (le 1 4 ++ le 5 4 ++ zeros 8 ++ le 0x400000 8 ++ zeros 8 ++ le 120 8 ++ le 120 8 ++ zeros 8)

def tinyFile (role mode : Nat) (path : String) (data : Bytes) : File :=
  ⟨role, mode, data.length, digest polySha data, path.toList.map fun c => c.toNat.toUInt8⟩

/-- `bin/x` and `doc/x`. -/
def tinyFiles : List File := [tinyFile 1 0o755 "bin/x" tinyElf, tinyFile 2 0o644 "doc/x" [104, 105]]

def tinyManifest : Bytes :=
  [70, 77, 78, 49] ++ le 1 2 ++ le 2 2 ++ le 1 8 ++ zeros 16 ++ [1] ++ zeros 31 ++
    (le 1 2 ++ [120]) ++ (le 1 2 ++ [120]) ++ (le 1 2 ++ [49]) ++ le 0 2 ++
    tinyFiles.flatMap fun f => le f.role 2 ++ le f.mode 2 ++ le f.size 8 ++ f.sha256 ++ le f.path.length 2 ++ f.path

def tinyArchive : Bytes := archiveBytes tinyFiles [tinyElf, [104, 105]]

def tinyPackage : Bytes :=
  envelopeMagic ++ le 1 4 ++ le 128 4 ++ le 0 4 ++ le tinyManifest.length 4 ++ zeros 8 ++ le 1 8 ++
    le tinyArchive.length 8 ++ digest polySha tinyManifest ++ digest polySha [0] ++ zeros 16 ++ tinyManifest ++ [0]

def fromList : Reader Bytes := fun src n => (some (src.take n), src.drop n)

/-- A decoder with one archive in it, which it writes in five pieces, cut inside the headers and inside a file. -/
def tinyDecoder : Decoder :=
  .ask (.read 4096) fun _ => .ask (.write (tinyArchive.take 511)) fun _ =>
    .ask (.write (slice tinyArchive 511 89)) fun _ => .ask (.write (slice tinyArchive 600 424)) fun _ =>
    .ask (.write (slice tinyArchive 1024 511)) fun _ => .ask (.write (tinyArchive.drop 1535)) fun _ => .ret 0

theorem tiny_head : (readHead polySha fromList tinyPackage tinyPackage.length).isSome = true := by decide +kernel

def tinyRun : Run Bytes Nat := (readHead polySha fromList tinyPackage tinyPackage.length).get tiny_head

theorem fpkVerify_exact_tiny : ∃ s, fpkVerify polySha fromList tinyDecoder tinyPackage tinyPackage.length
    (digest polySha tinyPackage) = some s ∧ digest polySha s.artifact = digest polySha tinyPackage ∧
      ∃ contents, contents.length = s.ctx.manifest.files.length ∧ Held polySha s.ctx.manifest.files contents ∧
        s.payload = archiveBytes s.ctx.manifest.files contents := by
  obtain ⟨s, hd, hdone, hsum, hi, hexp⟩ : ∃ s, decode polySha fromList tinyDecoder tinyRun = (s, 0) ∧
      s.ctx.done = true ∧ digestFinal polySha s.ctx.payloadHash = s.ctx.envelope.payloadSha256 ∧
      (input polySha fromList s 1).2 = some [] ∧
      digestFinal polySha (input polySha fromList s 1).1.ctx.artifactHash = digest polySha tinyPackage := by
    -- the headers byte by byte are most of the work of an evaluation
    rw [tinyDecoder, decode, decode_block (by decide +kernel), decode, decode,
      decode_block (by decide +kernel), decode, decode]
    exact ⟨_, rfl, by decide +kernel⟩
  have hs := fpkVerify_eq_some.2 ⟨_, s, (Option.some_get tiny_head).symm, hd, hdone, hsum, Prod.ext rfl hi, hexp⟩
  obtain ⟨hdigest, -, hcontents⟩ := fpkVerify_exact hs
  exact ⟨_, hs, hdigest, hcontents⟩

end Fortress.Pkg
