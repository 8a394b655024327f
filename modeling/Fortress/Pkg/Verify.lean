/-
The package verifier (pkg/verify.c): a stream checked byte by byte while a
decoder hands over the expanded archive in pieces of its own choosing. The
decoder is any program over the two callbacks, reading compressed bytes and
writing expanded ones; the reader is any function of its own state, and an
answer longer than what was asked for is a failure. A run keeps what the reader
yielded and what the decoder wrote, to state what was verified.
-/
import Fortress.Elf.Layout
import Fortress.Lib.Ask
import Fortress.Pkg.Digest
import Fortress.Pkg.Format

namespace Fortress.Pkg

open Codec Elf
open Wlan (Sha)

/-! ## The ELF scan of an executable -/

structure ElfScan where
  header : Bytes := zeros 64
  phdrs : Bytes := zeros (16 * 56)
  phoff : Nat := 0

def ElfScan.phnum (e : ElfScan) : Nat := fromLe (slice e.header 56 2)

/-- `elf_header`: the checks once 64 bytes are there; sets the table's offset. -/
def elfHeader (e : ElfScan) (size : Nat) : ElfScan × Bool :=
  let h := e.header
  if slice h 0 7 ≠ [0x7F, 0x45, 0x4C, 0x46, 2, 1, 1] ∨ fromLe (slice h 16 2) ≠ ET_EXEC ∨
      fromLe (slice h 18 2) ≠ EM_X86_64 ∨ fromLe (slice h 20 4) ≠ 1 ∨ fromLe (slice h 52 2) ≠ 64 ∨
      fromLe (slice h 54 2) ≠ 56 ∨ e.phnum = 0 ∨ e.phnum > MAX_ELF_PHNUM then (e, false)
  else
    let e := { e with phoff := fromLe (slice h 32 8) }
    (e, !(e.phoff < 64 || e.phoff > size || e.phnum * 56 > size - e.phoff))

def ElfScan.phdr (e : ElfScan) (i : Nat) : Phdr := Phdr.ofBytes (e.phdrs.drop (56 * i))

def segmentOk (p : Phdr) (size : Nat) : Bool :=
  !(p.flags &&& (PF_W ||| PF_X) == PF_W ||| PF_X || p.filesz > p.memsz || p.offset > size ||
    p.filesz > size - p.offset || p.vaddr < 4096 || p.vaddr ≥ USER_SPACE_LIMIT ||
    p.memsz > USER_SPACE_LIMIT - p.vaddr || p.vaddr % 4096 ≠ p.offset % 4096) &&
  !((p.end ≥ USER_STACK_GUARD_VIRT && p.start < USER_STACK_TOP_VIRT) ||
    (p.end ≥ USER_SIGRESTORER_VIRT && p.start < USER_SIGRESTORER_VIRT + 4096))

/-- The loop over the program headers: pages so far, loads so far and whether one covers the entry. -/
def elfSegments (e : ElfScan) (size : Nat) (i pages loads : Nat) (entryOk : Bool) : Nat → Option (Nat × Bool)
  | 0 => some (loads, entryOk)
  | n + 1 =>
    let p := e.phdr i
    if p.type = PT_INTERP ∨ p.type = PT_DYNAMIC ∨ p.type = PT_TLS then none
    else if p.type ≠ PT_LOAD ∨ p.memsz = 0 then elfSegments e size (i + 1) pages loads entryOk n
    else if segmentOk p size = false then none
    else if (List.range i).any fun j =>
        let q := e.phdr j
        !(q.type ≠ PT_LOAD || q.memsz = 0) && !(p.end < q.start || p.start > q.end) then none
    else
      let pages := pages + ((p.end - p.start) / 4096 + 1)
      let entry := fromLe (slice e.header 24 8)
      if pages > MAX_ELF_PAGES then none
      else elfSegments e size (i + 1) pages (loads + 1)
        (entryOk || (p.flags &&& PF_X != 0 && p.vaddr ≤ entry && entry < p.vaddr + p.memsz)) n

def elfFinish (e : ElfScan) (size : Nat) : Bool :=
  if size < 64 ∨ (elfHeader e size).2 = false then false
  else
    match elfSegments e size 0 0 0 false e.phnum with
    | none => false
    | some (loads, entryOk) => loads != 0 && entryOk

/-- A byte of an executable member at `off`. -/
def elfByte (e : ElfScan) (size off : Nat) (b : UInt8) : ElfScan × Bool :=
  let e := if off < 64 then { e with header := e.header.set off b } else e
  let (e, ok) := if off = 63 then elfHeader e size else (e, true)
  if ok = false then (e, false)
  else if off ≥ 64 ∧ off ≥ e.phoff ∧ off - e.phoff < e.phnum * 56 then
    ({ e with phdrs := e.phdrs.set (off - e.phoff) b }, true)
  else (e, true)

/-! ## The archive check -/

structure Ctx (σ : Type) where
  envelope : Envelope
  manifest : Manifest
  /-- The first `tar_used` bytes of the block. -/
  tar : Bytes := []
  elf : ElfScan := {}
  artifactHash : Digest σ
  payloadHash : Digest σ
  memberHash : Digest σ
  compressed : Nat := 0
  expanded : Nat := 0
  memberOffset : Nat := 0
  member : Nat := 0
  zeroBlocks : Nat := 0
  failed : Bool := false

variable {σ : Type} (H : Sha σ)

variable (c : Ctx σ) (b : UInt8)

def Ctx.fileCount : Nat := c.manifest.files.length

def Ctx.file : File := c.manifest.files.getD c.member default

/-- The value of octal digits. -/
def octalDigits (b : Bytes) : Option Nat :=
  b.foldl (fun v d => v.bind fun v => if d < 48 ∨ d > 55 then none else some (v * 8 + (d.toNat - 48))) (some 0)

/-- `n - 1` octal digits and a zero byte. -/
def octal (b : Bytes) : Option Nat := if b.getLast? = some 0 then octalDigits b.dropLast else none

/-- The sum of a header's bytes, its checksum field read as spaces. -/
def tarSum (p : Bytes) : Nat := ((p.take 148).map UInt8.toNat).sum + 8 * 32 + ((p.drop 156).map UInt8.toNat).sum

/-- `ustar`, a zero byte and version `00`. -/
def ustarMagic : Bytes := [117, 115, 116, 97, 114, 0, 48, 48]

def tarHeaderOk (f : File) (p : Bytes) : Bool :=
  slice p 0 f.path.length == f.path && zero (slice p f.path.length (100 - f.path.length)) &&
    octal (slice p 100 8) == some f.mode && octal (slice p 108 8) == some 0 && octal (slice p 116 8) == some 0 &&
    octal (slice p 124 12) == some f.size && octal (slice p 136 12) == some 0 &&
    octal (slice p 148 7) == some (tarSum p) && slice p 155 1 == [32] && slice p 156 1 == [48] &&
    zero (slice p 157 100) && slice p 257 8 == ustarMagic && zero (slice p 265 247)

/-- `tar_header` on a full block. -/
def tarHeader : Ctx σ × Bool :=
  if c.member = c.fileCount then
    if zero c.tar = false then (c, false)
    else ({ c with zeroBlocks := c.zeroBlocks + 1 }, !(c.zeroBlocks + 1 > 2))
  else if tarHeaderOk c.file c.tar = false then (c, false)
  else ({ c with memberHash := digestInit H, memberOffset := 0, elf := { c.elf with phoff := 0 } }, true)

/-- A byte of the block being assembled. -/
def headerByte : Ctx σ × Bool :=
  let c := { c with tar := c.tar ++ [b] }
  if c.tar.length ≠ 512 then (c, true)
  else
    let (c, ok) := tarHeader H c
    if ok = false then (c, false)
    else if c.member = c.fileCount then ({ c with tar := [] }, true)
    else (c, true)

/-- A byte of a member's data. -/
def dataByte : Ctx σ × Bool :=
  match digestUpdate H c.memberHash [b] with
  | none => (c, false)
  | some h =>
    let c := { c with memberHash := h }
    if c.file.role ≠ 1 then (c, true)
    else
      let (e, ok) := elfByte c.elf c.file.size c.memberOffset b
      ({ c with elf := e }, ok)

/-- The end of a member at a block boundary: its hash and, for an executable, its segments. -/
def endMember : Ctx σ × Bool :=
  if digestFinal H c.memberHash ≠ c.file.sha256 ∨ (c.file.role = 1 ∧ elfFinish c.elf c.file.size = false) then
    (c, false)
  else ({ c with member := c.member + 1, tar := [] }, true)

/-- Data up to the size of the file, zeros behind it. -/
def contentByte : Ctx σ × Bool :=
  if c.memberOffset < c.file.size then dataByte H c b else (c, b == 0)

/-- A byte behind a header. -/
def memberByte : Ctx σ × Bool :=
  let (c, ok) := contentByte H c b
  if ok = false then (c, false)
  else
    let c := { c with memberOffset := c.memberOffset + 1 }
    if c.memberOffset ≥ c.file.size ∧ c.expanded % 512 = 0 then endMember H c else (c, true)

def expandedByte : Ctx σ × Bool :=
  let c := { c with expanded := c.expanded + 1 }
  if c.tar.length < 512 then headerByte H c b else memberByte H c b

/-- The bytes of one write, up to the first that fails. -/
def expandedLoop : Ctx σ → Bytes → Ctx σ × Bool
  | c, [] => (c, true)
  | c, b :: bs =>
    match expandedByte H c b with
    | (c, true) => expandedLoop c bs
    | (c, false) => (c, false)

/-- The write callback. -/
def expanded (bytes : Bytes) : Ctx σ × Option Nat :=
  if bytes.length > c.envelope.expandedBytes - c.expanded then ({ c with failed := true }, none)
  else
    match expandedLoop H c bytes with
    | (c, true) => (c, some bytes.length)
    | (c, false) => ({ c with failed := true }, none)

/-! ## Input -/

/-- A reader's answer to a request for `n` bytes, `none` for an error. -/
abbrev Reader (ρ : Type) := ρ → Nat → Option Bytes × ρ

/-- A run: the context, the reader's state, all that was read and all that was expanded. -/
structure Run (ρ σ : Type) where
  ctx : Ctx σ
  src : ρ
  artifact : Bytes := []
  payload : Bytes := []

variable {ρ : Type} (R : Reader ρ)

def Run.fail (s : Run ρ σ) : Run ρ σ := { s with ctx := { s.ctx with failed := true } }

def input (s : Run ρ σ) (n : Nat) : Run ρ σ × Option Bytes :=
  match R s.src n with
  | (none, src) => ({ s with src := src }.fail, none)
  | (some b, src) =>
    let s := { s with src := src }
    if b.length > n then (s.fail, none)
    else if b = [] then (s, some [])
    else
      match digestUpdate H s.ctx.artifactHash b with
      | none => (s.fail, none)
      | some h => ({ s with ctx := { s.ctx with artifactHash := h }, artifact := s.artifact ++ b }, some b)

/-- `exact`: reads until `n` bytes are there. Every round takes at least one, so `n` rounds suffice. -/
def exactly (s : Run ρ σ) (n : Nat) : (rounds : Nat) → Option (Run ρ σ × Bytes)
  | 0 => if n = 0 then some (s, []) else none
  | rounds + 1 =>
    if n = 0 then some (s, [])
    else
      match input H R s n with
      | (_, none) | (_, some []) => none
      | (s, some b) => (exactly s (n - b.length) rounds).map fun r => (r.1, b ++ r.2)

/-- The read callback. The flag byte of the compressed stream, its fourth, must be zero. -/
def compressed (s : Run ρ σ) (n : Nat) : Run ρ σ × Option Bytes :=
  let n := min n (s.ctx.envelope.compressedBytes - s.ctx.compressed)
  if n = 0 then (s, some [])
  else
    match input H R s n with
    | (s, none) | (s, some []) => (s.fail, none)
    | (s, some b) =>
      if (List.range b.length).any fun i => s.ctx.compressed + i == 3 && b.getD i 0 != 0 then (s.fail, none)
      else
        let s := { s with ctx := { s.ctx with compressed := s.ctx.compressed + b.length } }
        match digestUpdate H s.ctx.payloadHash b with
        | none => (s.fail, none)
        | some h => ({ s with ctx := { s.ctx with payloadHash := h } }, some b)

/-! ## The decoder -/

inductive DecoderCall where
  | read (n : Nat)
  | write (b : Bytes)

def DecoderCall.Answer : DecoderCall → Type
  | .read _ => Option Bytes
  | .write _ => Option Nat

/-- A decoder ends with its status, zero for success. -/
abbrev Decoder := Ask DecoderCall DecoderCall.Answer Int

def runWrite (s : Run ρ σ) (b : Bytes) : Run ρ σ × Option Nat :=
  ({ s with ctx := (expanded H s.ctx b).1, payload := s.payload ++ b }, (expanded H s.ctx b).2)

def decode : Decoder → Run ρ σ → Run ρ σ × Int
  | .ret r, s => (s, r)
  | .ask (.read n) k, s => decode (k (compressed H R s n).2) (compressed H R s n).1
  | .ask (.write b) k, s => decode (k (runWrite H s b).2) (runWrite H s b).1

/-! ## Verification -/

/-- A context before anything is known of the package. -/
def Ctx.start : Ctx σ where
  envelope := ⟨0, 0, 0, 0, [], []⟩
  manifest := ⟨0, 0, 0, 0, [], [], [], [], [], []⟩
  artifactHash := digestInit H
  payloadHash := digestInit H
  memberHash := digestInit H

/-- Envelope and manifest, read and checked against each other. -/
def readHead (src : ρ) (length : Nat) : Option (Run ρ σ) :=
  match exactly H R { ctx := Ctx.start H, src := src } FPK_HEADER_SIZE FPK_HEADER_SIZE with
  | none => none
  | some (s, header) =>
    match fpkParseEnvelope header with
    | none => none
    | some e =>
      if e.containerBytes ≠ length then none
      else
        match exactly H R s e.manifestBytes e.manifestBytes with
        | none => none
        | some (s, bytes) =>
          match digestUpdate H (digestInit H) bytes with
          | none => none
          | some d =>
            if digestFinal H d ≠ e.manifestSha256 then none
            else
              match fpkParseManifest bytes with
              | none => none
              | some m =>
                if m.archiveBytes ≠ e.expandedBytes then none
                else some { s with ctx := { s.ctx with envelope := e, manifest := m, memberHash := d } }

/-- The state of the archive check when the whole archive went by. -/
def Ctx.done : Bool :=
  !c.failed && c.compressed == c.envelope.compressedBytes && c.expanded == c.envelope.expandedBytes &&
    c.member == c.fileCount && c.zeroBlocks == 2 && c.tar.isEmpty

/-- `fpk_verify`: the run it ends in when it returns 0. -/
def fpkVerify (D : Decoder) (src : ρ) (length : Nat) (expected : Bytes) : Option (Run ρ σ) :=
  match readHead H R src length with
  | none => none
  | some s =>
    match decode H R D s with
    | (s, result) =>
      if result ≠ 0 ∨ s.ctx.done = false then none
      else if digestFinal H s.ctx.payloadHash ≠ s.ctx.envelope.payloadSha256 then none
      else
        match input H R s 1 with
        | (s, some []) => if digestFinal H s.ctx.artifactHash ≠ expected then none else some s
        | _ => none

end Fortress.Pkg
