/-
The package envelope and manifest (pkg/format.c, pkg/manifest.c). A cursor is
the bytes still to read; the two identical passes of the manifest parser are
one here, since the first only keeps a failed parse from touching its output.
-/
import Fortress.Lib.Codec

namespace Fortress.Pkg

open Codec

def FPK_HEADER_SIZE : Nat := 128
def FPK_MANIFEST_MAX : Nat := 16384
def FPK_COMPRESSED_MAX : Nat := 8 * 1024 * 1024
def FPK_EXPANDED_MAX : Nat := 16 * 1024 * 1024

/-! ## Envelope -/

structure Envelope where
  manifestBytes : Nat
  compressedBytes : Nat
  expandedBytes : Nat
  containerBytes : Nat
  manifestSha256 : Bytes
  payloadSha256 : Bytes

/-- `FORTFPK` and a zero byte. -/
def envelopeMagic : Bytes := [70, 79, 82, 84, 70, 80, 75, 0]

def fpkParseEnvelope (p : Bytes) : Option Envelope :=
  let u32 off := fromLe (slice p off 4)
  let u64 off := fromLe (slice p off 8)
  if p.length ≠ FPK_HEADER_SIZE then none
  else if slice p 0 8 ≠ envelopeMagic then none
  else if u32 8 ≠ 1 ∨ u32 12 ≠ 128 ∨ u32 16 ≠ 0 ∨ u32 24 ≠ 0 ∨ u32 28 ≠ 0 then none
  else if (slice p 112 16).any (· != 0) then none
  else if u32 20 = 0 ∨ u32 20 > FPK_MANIFEST_MAX ∨ u64 32 = 0 ∨ u64 32 > FPK_COMPRESSED_MAX ∨ u64 40 = 0 ∨
      u64 40 > FPK_EXPANDED_MAX then none
  else some { manifestBytes := u32 20, compressedBytes := u64 32, expandedBytes := u64 40,
              containerBytes := FPK_HEADER_SIZE + u32 20 + u64 32,
              manifestSha256 := slice p 48 32, payloadSha256 := slice p 80 32 }

/-! ## Manifest -/

structure File where
  role : Nat
  mode : Nat
  size : Nat
  sha256 : Bytes
  path : Bytes
  deriving Inhabited, DecidableEq

structure Manifest where
  build : Nat
  baseMin : Nat
  baseMax : Nat
  archiveBytes : Nat
  platformId : Bytes
  package : Bytes
  command : Bytes
  version : Bytes
  description : Bytes
  files : List File

/-- `n` bytes off the cursor. -/
def takeBytes (c : Bytes) (n : Nat) : Option (Bytes × Bytes) :=
  if n > c.length then none else some (c.take n, c.drop n)

/-- A string behind its 16-bit length. -/
def span (c : Bytes) (min max : Nat) : Option (Bytes × Bytes) :=
  match takeBytes c 2 with
  | none => none
  | some (p, c) => if fromLe p < min ∨ fromLe p > max then none else takeBytes c (fromLe p)

def printable (s : Bytes) : Bool := s.all fun b => 32 ≤ b && b ≤ 126

def isLower (b : UInt8) : Bool := 97 ≤ b && b ≤ 122
def isDigit (b : UInt8) : Bool := 48 ≤ b && b ≤ 57

def fpkIdentityValid (p : Bytes) : Bool :=
  p.length ≠ 0 && p.length ≤ 32 &&
    (List.range p.length).all fun i =>
      let b := p.getD i 0
      isLower b || isDigit b || !(b ≠ 45 || i == 0 || i + 1 == p.length || p.getD (i - 1) 0 == 45)

/-- Byte order, a proper prefix first. -/
def compare : Bytes → Bytes → Ordering
  | [], [] => .eq
  | [], _ :: _ => .lt
  | _ :: _, [] => .gt
  | a :: as, b :: bs => if a ≠ b then (if a < b then .lt else .gt) else compare as bs

def zero (p : Bytes) : Bool := p.all (· == 0)

/-- The components of a path, those between slashes. -/
def components : Bytes → List Bytes
  | [] => [[]]
  | b :: bs =>
    match components bs with
    | [] => [[b]]
    | c :: cs => if b = 47 then [] :: c :: cs else (b :: c) :: cs

def componentValid (c : Bytes) : Bool := !(c.isEmpty || c.length > 63 || c == [46] || c == [46, 46])

def pathValid (s : Bytes) : Bool :=
  (components s).all componentValid && s.all fun b => b == 47 || !(b < 33 || b > 126 || b == 92 || b == 58)

/-- A regular file cannot be an ancestor. -/
def underFile (path file : Bytes) : Bool :=
  path.length > file.length && path.getD file.length 0 == 47 && path.take file.length == file

def paddedSize (n : Nat) : Nat := (n + 511) / 512 * 512

structure FileScan where
  rest : Bytes
  archive : Nat := 1024
  executables : Nat := 0
  files : List File := []

def roleOk (command : Bytes) (f : File) : Bool :=
  if f.role = 1 then
    !(f.mode ≠ 0o755 || f.size > 4 * 1024 * 1024 || f.path.length ≠ 4 + command.length ||
      f.path.take 4 ≠ [98, 105, 110, 47]) && f.path.drop 4 == command
  else if f.role = 2 then !(f.mode ≠ 0o644 || f.path.length < 5 || f.path.take 4 ≠ [100, 111, 99, 47])
  else false

def fileOk (s : FileScan) (r : Bytes) (f : File) : Bool :=
  !(r.getD 1 0 ≠ 0 || f.size = 0 || f.size > FPK_EXPANDED_MAX || !pathValid f.path) &&
    (match s.files.getLast? with
      | none => true
      | some prev => compare prev.path f.path == .lt)

/-- One file record. -/
def parseFile (command : Bytes) (s : FileScan) : Option FileScan :=
  match takeBytes s.rest 44 with
  | none => none
  | some (r, c) =>
    match span c 1 100 with
    | none => none
    | some (path, c) =>
      let f : File := { role := (r.getD 0 0).toNat, mode := fromLe (slice r 2 2), size := fromLe (slice r 4 8),
                        sha256 := slice r 12 32, path := path }
      if fileOk s r f = false then none
      else if roleOk command f = false then none
      else if s.files.any fun g => underFile path g.path then none
      else if s.archive + (512 + paddedSize f.size) > FPK_EXPANDED_MAX then none
      else some { rest := c, archive := s.archive + (512 + paddedSize f.size),
                  executables := s.executables + if f.role = 1 then 1 else 0, files := s.files ++ [f] }

def parseFiles (command : Bytes) : Nat → FileScan → Option FileScan
  | 0, s => some s
  | n + 1, s => (parseFile command s).bind (parseFiles command n)

structure Texts where
  name : Bytes
  command : Bytes
  version : Bytes
  description : Bytes

/-- The four strings behind the fixed part. -/
def parseTexts (c : Bytes) : Option (Texts × Bytes) := do
  let (name, c) ← span c 1 32
  let (command, c) ← span c 1 32
  let (version, c) ← span c 1 32
  let (description, c) ← span c 0 256
  return (⟨name, command, version, description⟩, c)

def Texts.valid (t : Texts) : Bool :=
  fpkIdentityValid t.name && fpkIdentityValid t.command && printable t.version && printable t.description

/-- The fixed part: magic, version, file count, build, base range and a platform that is not zero. -/
def headValid (h : Bytes) : Bool :=
  slice h 0 4 == [70, 77, 78, 49] && fromLe (slice h 4 2) == 1 &&
    !(fromLe (slice h 6 2) = 0 || fromLe (slice h 6 2) > 16 || fromLe (slice h 8 8) = 0 ||
      fromLe (slice h 16 8) > fromLe (slice h 24 8)) && !(slice h 32 32).all (· == 0)

def fpkParseManifest (p : Bytes) : Option Manifest :=
  if p.length > FPK_MANIFEST_MAX then none
  else
    match takeBytes p 64 with
    | none => none
    | some (h, c) =>
      if headValid h = false then none
      else
        match parseTexts c with
        | none => none
        | some (t, c) =>
          if t.valid = false then none
          else
            match parseFiles t.command (fromLe (slice h 6 2)) { rest := c } with
            | none => none
            | some s =>
              if s.rest ≠ [] ∨ s.executables ≠ 1 then none
              else some { build := fromLe (slice h 8 8), baseMin := fromLe (slice h 16 8),
                          baseMax := fromLe (slice h 24 8), archiveBytes := s.archive,
                          platformId := slice h 32 32, package := t.name, command := t.command,
                          version := t.version, description := t.description, files := s.files }

/-! ## What a parsed manifest says of its files -/

def File.Fits (f : File) : Prop := f.path.length ≤ 100 ∧ 0 < f.size

theorem takeBytes_length {c : Bytes} {n : Nat} {r : Bytes × Bytes} (h : takeBytes c n = some r) : r.1.length = n := by
  simp only [takeBytes, Option.ite_none_left_eq_some, Option.some.injEq] at h
  rw [← h.2]
  simp
  omega

theorem span_length {c : Bytes} {min max : Nat} {r : Bytes × Bytes} (h : span c min max = some r) :
    r.1.length ≤ max := by
  unfold span at h
  cases ht : takeBytes c 2 with
  | none => simp [ht] at h
  | some t =>
    simp only [ht, Option.ite_none_left_eq_some] at h
    have := takeBytes_length h.2
    omega

theorem parseFile_fits {command : Bytes} {s s' : FileScan} (h : parseFile command s = some s')
    (hs : ∀ f ∈ s.files, f.Fits) : ∀ f ∈ s'.files, f.Fits := by
  unfold parseFile at h
  cases ht : takeBytes s.rest 44 with
  | none => simp [ht] at h
  | some t =>
    cases hp : span t.2 1 100 with
    | none => simp [ht, hp] at h
    | some q =>
      simp only [ht, hp, Option.ite_none_left_eq_some, Option.some.injEq] at h
      obtain ⟨hok, -, -, -, rfl⟩ := h
      intro f hf
      rcases List.mem_append.1 hf with hf | hf
      · exact hs f hf
      cases List.mem_singleton.1 hf
      refine ⟨span_length hp, ?_⟩
      simp [fileOk] at hok
      simp only
      omega

theorem parseFiles_fits {command : Bytes} {n : Nat} {s s' : FileScan} (h : parseFiles command n s = some s')
    (hs : ∀ f ∈ s.files, f.Fits) : ∀ f ∈ s'.files, f.Fits := by
  induction n generalizing s with
  | zero =>
    cases h
    exact hs
  | succ n ih =>
    obtain ⟨s1, h1, h2⟩ := Option.bind_eq_some_iff.1 h
    exact ih h2 (parseFile_fits h1 hs)

theorem fpkParseManifest_fits {p : Bytes} {m : Manifest} (h : fpkParseManifest p = some m) :
    ∀ f ∈ m.files, f.Fits := by
  unfold fpkParseManifest at h
  split at h
  · cases h
  cases ht : takeBytes p 64 with
  | none => simp [ht] at h
  | some t =>
    simp only [ht, Option.ite_none_left_eq_some] at h
    obtain ⟨-, h⟩ := h
    cases hx : parseTexts t.2 with
    | none => simp [hx] at h
    | some x =>
      simp only [hx, Option.ite_none_left_eq_some] at h
      obtain ⟨-, h⟩ := h
      cases hs : parseFiles x.1.command (fromLe (slice t.1 6 2)) { rest := x.2 } with
      | none => simp [hs] at h
      | some s =>
        simp only [hs, Option.ite_none_left_eq_some, Option.some.injEq] at h
        obtain ⟨-, rfl⟩ := h
        exact parseFiles_fits hs nofun

end Fortress.Pkg
