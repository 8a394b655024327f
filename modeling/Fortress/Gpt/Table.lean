/-
The GPT parser: the two headers and their checks, the choice between them, the
entry array read into a staging list, and the bounded device each published
partition becomes. The disk is what `read_sector` answers for each LBA, `none`
when it fails. A header longer than the 92-byte record is summed over whatever
follows the record on the stack, which is an input here (`stack`).
-/
import Fortress.Block.Dev

namespace Fortress.Gpt

open Codec Block

/-! ## CRC-32 -/

def crcStep (c : Nat) : Nat :=
  if c % 2 = 1 then 0xEDB88320 ^^^ (c >>> 1) else c >>> 1

/-- `g_crc32_table[i]`: eight steps from `i`. -/
def crcTable (i : Nat) : Nat :=
  crcStep (crcStep (crcStep (crcStep (crcStep (crcStep (crcStep (crcStep i)))))))

def crcLoop : Nat → Bytes → Nat
  | c, [] => c
  | c, b :: bs => crcLoop (crcTable ((c ^^^ b.toNat) % 256) ^^^ (c >>> 8)) bs

def crc32 (init : Nat) (buf : Bytes) : Nat := crcLoop (init ^^^ 0xFFFFFFFF) buf ^^^ 0xFFFFFFFF

/-! ## On-disk records -/

def GPT_SIGNATURE_MAGIC : Nat := 0x5452415020494645
def GPT_REVISION_1_0 : Nat := 0x00010000
def GPT_MIN_HEADER_SIZE : Nat := 92
def GPT_MAX_SUPPORTED_ENTRIES : Nat := 128
def GPT_MAX_ARRAY_BYTES : Nat := GPT_MAX_SUPPORTED_ENTRIES * 512
def GPT_MAX_PARTITIONS : Nat := 16
def MBR_SIGNATURE_MAGIC : Nat := 0xAA55
def MBR_PARTITION_TYPE_GPT : Nat := 0xEE

inductive Policy where
  | primaryConsistent
  | backupFallback
  | degradedPrimary
  | rejectAmbiguity
  | rejectInvalid
  deriving DecidableEq, Repr

/-- A field of `w` bytes at `off`, little-endian. -/
def field (b : Bytes) (off w : Nat) : Nat := fromLe (slice b off w)

/-- The header record, with the bytes it was copied from. -/
structure Header where
  raw : Bytes
  signature : Nat
  revision : Nat
  headerSize : Nat
  headerCrc32 : Nat
  currentLba : Nat
  backupLba : Nat
  firstUsableLba : Nat
  lastUsableLba : Nat
  diskGuid : Bytes
  partitionEntryLba : Nat
  numPartitionEntries : Nat
  sizeofPartitionEntry : Nat
  partitionEntryArrayCrc32 : Nat
  deriving DecidableEq

def Header.ofSector (b : Bytes) : Header where
  raw := b.take 92
  signature := field b 0 8
  revision := field b 8 4
  headerSize := field b 12 4
  headerCrc32 := field b 16 4
  currentLba := field b 24 8
  backupLba := field b 32 8
  firstUsableLba := field b 40 8
  lastUsableLba := field b 48 8
  diskGuid := slice b 56 16
  partitionEntryLba := field b 72 8
  numPartitionEntries := field b 80 4
  sizeofPartitionEntry := field b 84 4
  partitionEntryArrayCrc32 := field b 88 4

structure Entry where
  typeGuid : Bytes
  uniqueGuid : Bytes
  startingLba : Nat
  endingLba : Nat
  name : List Nat
  deriving DecidableEq

def Entry.ofBytes (b : Bytes) : Entry where
  typeGuid := slice b 0 16
  uniqueGuid := slice b 16 16
  startingLba := field b 32 8
  endingLba := field b 40 8
  name := (List.range 36).map fun i => field b (56 + 2 * i) 2

/-! ## Header checks -/

def Header.arrayBytes (h : Header) : Nat := h.numPartitionEntries * h.sizeofPartitionEntry

/-- Sectors the entry array takes. -/
def Header.arraySectors (h : Header) (sectorSize : Nat) : Nat := (h.arrayBytes + sectorSize - 1) / sectorSize

/-- The header as it is summed: its first `headerSize` bytes with the CRC field zero. -/
def Header.summed (h : Header) (stack : Bytes) : Bytes :=
  let b := (h.raw ++ stack).take h.headerSize
  b.take 16 ++ [0, 0, 0, 0] ++ b.drop 20

/-- Where the entry array may lie: the primary's before the usable range, the backup's after it. -/
def Header.arrayPlaced (h : Header) (sectorSize : Nat) : (isPrimary : Bool) → Bool
  | true => !(h.partitionEntryLba < 2) &&
      !(add64 h.partitionEntryLba (h.arraySectors sectorSize) > h.firstUsableLba)
  | false => !(h.partitionEntryLba ≤ h.lastUsableLba) &&
      !(add64 h.partitionEntryLba (h.arraySectors sectorSize) > h.currentLba)

def gptValidateHeader (h : Header) (expectedLba diskSectors sectorSize : Nat) (isPrimary : Bool) (stack : Bytes) :
    Bool :=
  if h.signature ≠ GPT_SIGNATURE_MAGIC then false
  else if h.revision ≠ GPT_REVISION_1_0 then false
  else if h.headerSize < GPT_MIN_HEADER_SIZE ∨ h.headerSize > sectorSize then false
  else if h.currentLba ≠ expectedLba then false
  else if h.firstUsableLba > h.lastUsableLba ∨ h.lastUsableLba ≥ diskSectors then false
  else if h.firstUsableLba ≤ 1 then false
  else if h.sizeofPartitionEntry ≠ 128 ∧ h.sizeofPartitionEntry ≠ 256 ∧ h.sizeofPartitionEntry ≠ 512 then false
  else if h.numPartitionEntries < 1 ∨ h.numPartitionEntries > GPT_MAX_SUPPORTED_ENTRIES then false
  else if h.arrayBytes > GPT_MAX_ARRAY_BYTES then false
  else if add64 h.partitionEntryLba (h.arraySectors sectorSize) < h.partitionEntryLba ∨
      add64 h.partitionEntryLba (h.arraySectors sectorSize) > diskSectors then false
  else if h.arrayPlaced sectorSize isPrimary = false then false
  else if h.headerSize > 512 then false
  else crc32 0 (h.summed stack) == h.headerCrc32

def gptHeadersConsistent (prim back : Header) : Bool :=
  prim.diskGuid == back.diskGuid &&
  (prim.firstUsableLba == back.firstUsableLba && prim.lastUsableLba == back.lastUsableLba) &&
  (prim.numPartitionEntries == back.numPartitionEntries &&
    prim.sizeofPartitionEntry == back.sizeofPartitionEntry) &&
  prim.partitionEntryArrayCrc32 == back.partitionEntryArrayCrc32 &&
  (prim.currentLba == back.backupLba && prim.backupLba == back.currentLba)

/-! ## The parser's inputs -/

/-- What one parse finds: the device, what each sector read answers, whether each of the two array
allocations succeeds and what the stack holds behind each header record. The flag says which header. -/
structure Disk where
  dev : Driver
  sector : Nat → Option Bytes
  memory : Bool → Bool := fun _ => true
  stack : Bool → Bytes := fun _ => []

namespace Disk

variable (d : Disk)

def backupAt : Nat := d.dev.sectorCount - 1

/-- Where the header of a side lies. -/
def headerLba : Bool → Nat
  | true => 1
  | false => d.backupAt

/-- A side's header, when its sector can be read and passes the checks. -/
def header (isPrimary : Bool) : Option Header :=
  match d.sector (d.headerLba isPrimary) with
  | none => none
  | some b =>
    let h := Header.ofSector b
    if gptValidateHeader h (d.headerLba isPrimary) d.dev.sectorCount d.dev.sectorSize isPrimary (d.stack isPrimary)
    then some h else none

/-- The `n` sectors from `lba`, all or nothing. -/
def sectors (lba : Nat) : Nat → Option Bytes
  | 0 => some []
  | n + 1 =>
    match d.sector lba with
    | none => none
    | some b => (sectors (lba + 1) n).map (b ++ ·)

def gptReadAndVerifyArray (h : Header) (isPrimary : Bool) : Option Bytes :=
  if d.memory isPrimary = false then none
  else
    match d.sectors h.partitionEntryLba (h.arraySectors d.dev.sectorSize) with
    | none => none
    | some buf => if crc32 0 (buf.take h.arrayBytes) = h.partitionEntryArrayCrc32 then some buf else none

def mbrOk : Bool :=
  match d.sector 0 with
  | none => false
  | some b =>
    field b 510 2 == MBR_SIGNATURE_MAGIC &&
      (List.range 4).any fun i => field b (446 + 16 * i + 4) 1 == MBR_PARTITION_TYPE_GPT

def geometryOk : Bool :=
  d.dev.reads && !(d.dev.sectorSize < 512) && !(d.dev.sectorCount < 68) && !(d.dev.sectorSize > 4096)

end Disk

/-- A chosen table: the header, its side and its entry array. -/
structure Chosen where
  hdr : Header
  isPrimary : Bool
  array : Bytes
  deriving DecidableEq

/-- The policy matrix over the two headers and their arrays. -/
def resolve (d : Disk) : Policy × Option Chosen :=
  match d.header true, d.header false with
  | some p, some b =>
    if gptHeadersConsistent p b = false then (.rejectAmbiguity, none)
    else
      match d.gptReadAndVerifyArray p true with
      | some buf => (.primaryConsistent, some ⟨p, true, buf⟩)
      | none =>
        match d.gptReadAndVerifyArray b false with
        | some buf => (.backupFallback, some ⟨b, false, buf⟩)
        | none => (.rejectInvalid, none)
  | some p, none =>
    match d.gptReadAndVerifyArray p true with
    | some buf => (.degradedPrimary, some ⟨p, true, buf⟩)
    | none => (.rejectInvalid, none)
  | none, some b =>
    match d.gptReadAndVerifyArray b false with
    | some buf => (.backupFallback, some ⟨b, false, buf⟩)
    | none => (.rejectInvalid, none)
  | none, none => (.rejectInvalid, none)

/-! ## Staging -/

structure Partition where
  partIndex : Nat
  startingLba : Nat
  endingLba : Nat
  sectorCount : Nat
  typeGuid : Bytes
  uniqueGuid : Bytes
  label : Bytes
  deriving DecidableEq

def gptGuidIsZero (g : Bytes) : Bool := g.all (· == 0)

/-- The printable part of a UTF-16 name of at most 35 characters. -/
def label (name : List Nat) : Bytes :=
  ((name.take 35).takeWhile (· ≠ 0)).map fun ch => if ch < 128 then ch.toUInt8 else '?'.toNat.toUInt8

def overlaps (e : Entry) (p : Partition) : Bool :=
  e.startingLba ≤ p.endingLba && p.startingLba ≤ e.endingLba

def partSectors (e : Entry) : Nat := add64 (e.endingLba - e.startingLba) 1

/-- One entry in use, checked against the header and the partitions staged so far. -/
def stageEntry (h : Header) (staged : List Partition) (i : Nat) (e : Entry) : Option (List Partition) :=
  if e.startingLba < h.firstUsableLba ∨ e.endingLba > h.lastUsableLba ∨ e.startingLba > e.endingLba then none
  else if partSectors e = 0 then none
  else if staged.any (overlaps e) then none
  else if staged.length ≥ GPT_MAX_PARTITIONS then none
  else some (staged ++ [{ partIndex := i + 1, startingLba := e.startingLba, endingLba := e.endingLba,
                          sectorCount := partSectors e, typeGuid := e.typeGuid, uniqueGuid := e.uniqueGuid,
                          label := label e.name }])

def Chosen.entry (c : Chosen) (i : Nat) : Entry := Entry.ofBytes (c.array.drop (i * c.hdr.sizeofPartitionEntry))

/-- The loop over the entry array: `n` entries to go from entry `i`. -/
def stage (c : Chosen) (staged : List Partition) (i : Nat) : Nat → Option (List Partition)
  | 0 => some staged
  | n + 1 =>
    if gptGuidIsZero (c.entry i).typeGuid then stage c staged (i + 1) n
    else
      match stageEntry c.hdr staged i (c.entry i) with
      | none => none
      | some staged' => stage c staged' (i + 1) n

/-- A parse: the policy it reports, and the chosen table with the partitions published from it. -/
def gptParseEx (d : Disk) : Policy × Option (Chosen × List Partition) :=
  if d.geometryOk = false ∨ d.mbrOk = false then (.rejectInvalid, none)
  else
    match resolve d with
    | (policy, none) => (policy, none)
    | (policy, some c) => (policy, (stage c [] 0 c.hdr.numPartitionEntries).map fun ps => (c, ps))

/-! ## Partition devices -/

/-- The parent LBA of a sector of the partition, by the checks of the one-sector handlers. -/
def parentLba (p : Partition) (lba : Nat) : Option Nat :=
  if lba ≥ p.sectorCount then none
  else if add64 p.startingLba lba < p.startingLba then none
  else if add64 p.startingLba lba > p.endingLba then none
  else some (add64 p.startingLba lba)

variable (parent : Dev) (p : Partition)

def gptPartitionReadSector (lba : Nat) : Req (Option Bytes) :=
  match parent.readSector, parentLba p lba with
  | some f, some l => f l
  | _, _ => .ret none

def gptPartitionWriteSector (lba : Nat) (buf : Bytes) : Req Bool :=
  match parent.writeSector, parentLba p lba with
  | some f, some l => f l buf
  | _, _ => .ret false

/-- The parent LBA of a run. The partition device has its parent's sector size. -/
def gptRunRange (p : Partition) (lba count : Nat) : Option Nat :=
  if count = 0 then none
  else if lba ≥ p.sectorCount ∨ count > p.sectorCount - lba ∨ lba > 2 ^ 64 - 1 - p.startingLba then none
  else
    let l := p.startingLba + lba
    if l ≤ p.endingLba ∧ count - 1 ≤ p.endingLba - l then some l else none

def gptPartitionReadSectors (lba n : Nat) : Req (Option Bytes) :=
  match gptRunRange p lba n with
  | none => .ret none
  | some l => blockReadSectors parent l n

def gptPartitionWriteSectors (lba n : Nat) (buf : Bytes) : Req Bool :=
  match gptRunRange p lba n with
  | none => .ret false
  | some l => blockWriteSectors parent l n buf

def gptPartitionFlush : Req Bool :=
  match parent.flush with
  | none => .ret false
  | some f => f

/-- The device registered for a partition; only a consistent primary table makes it writable. -/
def Partition.blockDev (policy : Policy) (p : Partition) : Dev :=
  let canWrite := parent.writeSector.isSome && policy == .primaryConsistent
  { sectorSize := parent.sectorSize
    sectorCount := p.sectorCount
    maxRunBytes := getMaxRunBytes parent
    readSector := some (gptPartitionReadSector parent p)
    writeSector := present canWrite (gptPartitionWriteSector parent p)
    readSectors := some (gptPartitionReadSectors parent p)
    writeSectors := present canWrite (gptPartitionWriteSectors parent p)
    flush := present canWrite (gptPartitionFlush parent) }

end Fortress.Gpt
