/-
File contents in etcfs (fs/etcfs.c): a file reads from its own buffer once it
has one and from the archive it came with before that. Buffers come from the
kernel heap under one quota; the heap answers from a script. Every copy is
checked against the object it reads or writes: `none` is an access outside it.
Sizes, offsets and the quota are 64-bit words, so sums are taken modulo 2^64.
-/
import Fortress.Lib.ByteFile
import Fortress.Mm.Heap

namespace Fortress.Etcfs

open Codec ByteFile

def ETCFS_MAX_BYTES : Nat := 16 * 1024 * 1024

inductive Errno where
  | rofs
  | nomem
  | nospc
  | noent
  | inval
  | acces
  deriving DecidableEq, Repr

structure Entry where
  buffer : Option Bytes := none
  capacity : Nat := 0
  removed : Bool := false

/-- What `node->data` points to: nothing, the archive the node came from, or the node's own buffer. -/
inductive Data where
  | null
  | archive (bytes : Bytes)
  | buffer

structure Node where
  path : List Char
  isFile : Bool
  mode : Nat
  size : Nat
  data : Data
  entry : Option Entry

def etcIsProtectedAccount (path : List Char) : Bool :=
  path == "/etc/passwd".toList || path == "/etc/group".toList || path == "/etc/shadow".toList

def Node.isProtected (n : Node) : Bool := etcIsProtectedAccount n.path

def Node.removed (n : Node) : Bool :=
  match n.entry with
  | none => false
  | some e => e.removed

def Node.buffer (n : Node) : Option Bytes :=
  match n.entry with
  | none => none
  | some e => e.buffer

def Node.capacity (n : Node) : Nat :=
  match n.entry with
  | none => 0
  | some e => e.capacity

/-- `s_etcfs_allocated_bytes`, and whether the heap has memory at each coming request. -/
structure Quota where
  allocated : Nat
  heap : List Bool

variable (q : Quota) (n : Node)

/-- The heap may always refuse, and refuses what cannot be in it. -/
def Quota.kmalloc (size : Nat) : Bool × Quota :=
  match q.heap with
  | [] => (false, q)
  | answer :: rest => (answer && 0 < size && size ≤ Mm.requestMax, { q with heap := rest })

/-! ## Reading -/

/-- `len` bytes at `off` of what the node reads from; a null source reads as zeros. -/
def Node.copyFrom (n : Node) (off len : Nat) : Option Bytes :=
  match n.buffer, n.data with
  | some b, _ | none, .archive b => if off + len ≤ b.length then some (slice b off len) else none
  | none, .null => some (zeros len)
  | none, .buffer => none

def readLen (size off len : Nat) : Nat := if off ≥ size then 0 else if len > size - off then size - off else len

def etcReadFile (n : Node) (off len : Nat) : Option Bytes :=
  if readLen n.size off len ≠ 0 then n.copyFrom off (readLen n.size off len) else some []

/-! ## Writing -/

def sub64 (a b : Nat) : Nat := (a + 2 ^ 64 - b) % 2 ^ 64

/-- The capacity for `needed` bytes. -/
def newCap (needed : Nat) : Nat :=
  let cap := add64 needed 255 / 256 * 256
  if cap < 512 then 512 else cap

/-- A fresh buffer with what of the node fits. -/
def Node.freshBuffer (n : Node) (cap : Nat) : Option Bytes :=
  if n.size > 0 then
    let copyLen := if n.size < cap then n.size else cap
    (n.copyFrom 0 copyLen).map fun bytes => overwrite (zeros cap) 0 bytes
  else some (zeros cap)

/-- The size of an entry, for the heap. -/
def entrySize : Nat := 32

def etcEnsureEntry : Option Entry × Quota :=
  match n.entry with
  | some e => (some e, q)
  | none => if (q.kmalloc entrySize).1 then (some {}, (q.kmalloc entrySize).2) else (none, (q.kmalloc entrySize).2)

def etcEnsureCapacityLocked (needed : Nat) : Option (Option Errno × Quota × Node) :=
  if n.isProtected then some (some .rofs, q, n)
  else
    match etcEnsureEntry q n with
    | (none, q) => some (some .nomem, q, n)
    | (some e, q) =>
      let n := { n with entry := some e }
      if needed ≤ e.capacity ∧ e.buffer.isSome then some (none, q, n)
      else
        let cap := newCap needed
        let delta := sub64 cap e.capacity
        if add64 q.allocated delta > ETCFS_MAX_BYTES then some (some .nospc, q, n)
        else
          match q.kmalloc cap with
          | (false, q) => some (some .nomem, q, n)
          | (true, q) =>
            match n.freshBuffer cap with
            | none => none
            | some b =>
              some (none, { q with allocated := add64 q.allocated delta },
                { n with entry := some { e with buffer := some b, capacity := cap }, data := .buffer })

/-- Bytes into the node's buffer. -/
def Node.copyTo (n : Node) (off : Nat) (bytes : Bytes) : Option Node :=
  match n.entry with
  | some { buffer := some b, capacity := c, removed := r } =>
    if off + bytes.length ≤ b.length then
      some { n with entry := some { buffer := some (overwrite b off bytes), capacity := c, removed := r } }
    else none
  | _ => none

/-- The part the two write calls share: bytes written and the offset afterwards. -/
def etcPut (off : Nat) (bytes : Bytes) (mode : Nat) :
    Option (Except Errno (Nat × Nat) × Quota × Node) :=
  match etcEnsureCapacityLocked q n (add64 off bytes.length) with
  | none => none
  | some (some e, q, n) => some (.error e, q, n)
  | some (none, q, n) =>
    match n.copyTo off bytes with
    | none => none
    | some n =>
      let stop := off + bytes.length
      some (.ok (bytes.length, stop), q, { n with size := if stop > n.size then stop else n.size, mode := mode })

def etcWriteFile (append : Bool) (offset : Nat) (bytes : Bytes) :
    Option (Except Errno (Nat × Nat) × Quota × Node) :=
  if n.isProtected then some (.error .rofs, q, n)
  else if bytes = [] then some (.ok (0, offset), q, n)
  else etcPut q n (if append then n.size else offset) bytes n.mode

/-- With an actor: a removed file is gone, and the mode may lose bits (`contentMode`). -/
def etcWriteActor (append : Bool) (offset : Nat) (bytes : Bytes) (contentMode : Nat → Nat) :
    Option (Except Errno (Nat × Nat) × Quota × Node) :=
  if n.isProtected then some (.error .rofs, q, n)
  else if bytes = [] then some (.ok (0, offset), q, n)
  else if n.removed then some (.error .noent, q, n)
  else etcPut q n (if append then n.size else offset) bytes (contentMode n.mode)

/-! ## Truncating -/

/-- The buffer goes back to the heap and the file is empty. -/
def etcEmpty : Quota × Node :=
  match n.entry with
  | some { buffer := some _, capacity := c, removed := r } =>
    ({ q with allocated := sub64 q.allocated c },
      { n with entry := some { buffer := none, capacity := 0, removed := r }, size := 0, data := .null })
  | _ => (q, { n with size := 0, data := .null })

/-- Zeros up to the new size, if it is larger, then the size. -/
def etcSetSize (size : Nat) : Option (Except Errno Unit × Quota × Node) :=
  if size > n.size then
    (n.copyTo n.size (zeros (size - n.size))).map fun n => (.ok (), q, { n with size := size })
  else some (.ok (), q, { n with size := size })

def etcTruncateFile (size : Nat) : Option (Except Errno Unit × Quota × Node) :=
  if n.isProtected then some (.error .rofs, q, n)
  else if size = 0 then some (.ok (), etcEmpty q n)
  else
    match etcEnsureCapacityLocked q n size with
    | none => none
    | some (some e, q, n) => some (.error e, q, n)
    | some (none, q, n) => etcSetSize q n size

/-- `access` is the answer of the permission check. -/
def etcOpenActor (access : Option Errno) (truncate : Bool) (contentMode : Nat → Nat) :
    Except Errno Unit × Quota × Node :=
  match if n.removed then some .noent else access with
  | some e => (.error e, q, n)
  | none =>
    if truncate then
      if ¬n.isFile then (.error .inval, q, n)
      else if n.isProtected then (.error .rofs, q, n)
      else (.ok (), (etcEmpty q n).1, { (etcEmpty q n).2 with mode := contentMode n.mode })
    else (.ok (), q, n)

/-! ## Runs -/

inductive Op where
  | read (off len : Nat)
  | write (append : Bool) (off : Nat) (bytes : Bytes)
  | writeActor (append : Bool) (off : Nat) (bytes : Bytes) (contentMode : Nat → Nat)
  | truncate (size : Nat)
  | openActor (access : Option Errno) (trunc : Bool) (contentMode : Nat → Nat)

/-- The bytes read, if any, or the error. -/
abbrev Reply := Except Errno Bytes

def Op.run : Op → Option (Reply × Quota × Node)
  | .read off len => (etcReadFile n off len).map fun bytes => (.ok bytes, q, n)
  | .write append off bytes => (etcWriteFile q n append off bytes).map fun r => (r.1.map fun _ => [], r.2)
  | .writeActor append off bytes contentMode =>
    (etcWriteActor q n append off bytes contentMode).map fun r => (r.1.map fun _ => [], r.2)
  | .truncate size => (etcTruncateFile q n size).map fun r => (r.1.map fun _ => [], r.2)
  | .openActor access trunc contentMode =>
    let r := etcOpenActor q n access trunc contentMode
    some (r.1.map fun _ => [], r.2)

/-- The file system: its files and what they share. -/
structure EtcFs where
  files : List Node
  quota : Quota

/-- One call on file `i`. -/
def EtcFs.step (s : EtcFs) (i : Nat) (op : Op) : Option (Reply × EtcFs) :=
  match s.files[i]? with
  | none => some (.error .noent, s)
  | some n => (op.run s.quota n).map fun r => (r.1, ⟨s.files.set i r.2.2, r.2.1⟩)

end Fortress.Etcfs
