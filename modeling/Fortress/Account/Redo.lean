/-
The redo protocol of lib/account_redo.c over any adapter with atomic
operations: files are roles, a program's reads see every operation issued so
far, and a cut keeps any subset of those since the last sync. The digest and
the database check are parameters; null pointers are left out.
-/
import Fortress.Lib.Codec
import Fortress.Lib.Crash

namespace Fortress.Account

open Crash Codec

def ACCOUNT_FILE_MAX : Nat := 8192
def ACCOUNT_INTENT_SIZE : Nat := 160

/-- `enum account_role`; the three files of a group are numbered as the source's offsets. -/
inductive Role
  | canon (i : Fin 3)
  | stage (i : Fin 3)
  | temp (i : Fin 3)
  | intentTemp
  | pending
  deriving DecidableEq

abbrev Files := Role → Option Bytes

/-- Passwd, group and shadow. -/
abbrev Trio := Fin 3 → Bytes

def trio (a b c : Bytes) : Trio
  | 0 => a
  | 1 => b
  | 2 => c

inductive Errno
  | enoent | eio | einval | eexist
  deriving DecidableEq

inductive FileOp
  | write (r : Role) (b : Bytes)
  | remove (r : Role)
  | rename (a b : Role)

def FileOp.apply (fs : Files) : FileOp → Files
  | .write r b => Function.update fs r (some b)
  | .remove r => Function.update fs r none
  | .rename a b =>
    match fs a with
    | some c => Function.update (Function.update fs a none) b (some c)
    | none => fs

abbrev Acc := Prog Files FileOp Errno

/-- The digest and the adapter's check of a whole database, `none` being success. -/
structure Env where
  hash : Bytes → Bytes
  length_hash : ∀ b, (hash b).length = 32
  check : Trio → Option Errno

/-! ## The adapter -/

def ioRead (r : Role) (cap : Nat) : Acc (Except Errno Bytes) :=
  Prog.read fun fs =>
    match fs r with
    | none => .error .enoent
    | some b => if b.length > cap then .error .einval else .ok b

def ioWrite (r : Role) (b : Bytes) : Acc Unit :=
  .get fun fs => if (fs r).isSome then .fail .eexist else Prog.issue (.write r b)

def ioRemove (r : Role) : Acc Unit := Prog.issue (.remove r)

def ioRename (a b : Role) : Acc Unit :=
  .get fun fs => if (fs b).isSome ∨ (fs a).isNone then .fail .eexist else Prog.issue (.rename a b)

def ioSync : Acc Unit := Prog.flush

def orFail {α : Type} : Except Errno α → Acc α
  | .ok a => .ret a
  | .error e => .fail e

/-- `if (r) return r`. -/
def check : Option Errno → Acc Unit
  | none => .ret ()
  | some e => .fail e

/-! ## The record -/

/-- "FOSACCT1". -/
def magic : Bytes := [0x46, 0x4F, 0x53, 0x41, 0x43, 0x43, 0x54, 0x31]

variable (E : Env) (files : Trio)

/-- The 128 bytes the record's own digest covers. -/
def recordBody (generation : UInt64) : Bytes :=
  magic ++ le generation.toNat 8 ++
    (le (files 0).length 4 ++ le (files 1).length 4 ++ le (files 2).length 4) ++ [0, 0, 0, 0] ++
    (E.hash (files 0) ++ E.hash (files 1) ++ E.hash (files 2))

def record (generation : UInt64) : Bytes :=
  recordBody E files generation ++ E.hash (recordBody E files generation)

variable (intent : Bytes)

def recordLength (i : Fin 3) : Nat := fromLe (slice intent (16 + 4 * i) 4)

def recordSum (i : Fin 3) : Bytes := slice intent (32 + 32 * i) 32

def parse : Bool :=
  slice intent 0 8 == magic && E.hash (slice intent 0 128) == slice intent 128 32 &&
    (slice intent 8 8).any (· != 0) && (slice intent 28 4).all (· == 0) &&
    decide (∀ i, 0 < recordLength intent i ∧ recordLength intent i ≤ ACCOUNT_FILE_MAX)

def validate : Option Errno :=
  if ∃ i, (files i).length = 0 ∨ (files i).length > ACCOUNT_FILE_MAX then some .einval else E.check files

/-! ## The protocol -/

def removeAll : List Role → Acc Unit
  | [] => .ret ()
  | r :: rs => do
    ioRemove r
    removeAll rs

def cleaned : List Role := [.stage 0, .stage 1, .stage 2, .temp 0, .temp 1, .temp 2, .intentTemp]

def cleanup : Acc Unit := do
  removeAll cleaned
  ioSync

def publishFile (i : Fin 3) (b : Bytes) : Acc Unit := do
  ioRemove (.temp i)
  ioWrite (.temp i) b
  ioSync
  ioRemove (.canon i)
  ioRename (.temp i) (.canon i)
  ioSync

/-- A file read back and compared with its length and the record's digest. -/
def readChecked (r : Role) (len : Nat) (sum : Bytes) (e : Errno) : Acc Bytes := do
  let r ← ioRead r ACCOUNT_FILE_MAX
  let b ← orFail r
  if b.length ≠ len ∨ E.hash b ≠ sum then .fail e else .ret b

def publish : Acc Unit := do
  publishFile 0 (files 0)
  publishFile 1 (files 1)
  publishFile 2 (files 2)
  let a ← readChecked E (.canon 0) (files 0).length (recordSum intent 0) .eio
  let b ← readChecked E (.canon 1) (files 1).length (recordSum intent 1) .eio
  let c ← readChecked E (.canon 2) (files 2).length (recordSum intent 2) .eio
  check (validate E (trio a b c))
  ioSync
  ioRemove .pending
  ioSync
  cleanup

def readFile (r : Role) : Acc Bytes := do
  let r ← ioRead r ACCOUNT_FILE_MAX
  orFail r

/-- Recovery without a record: the canonical set must be whole and valid. -/
def recoverQuiet : Acc Unit := do
  let a ← readFile (.canon 0)
  let b ← readFile (.canon 1)
  let c ← readFile (.canon 2)
  check (validate E (trio a b c))
  cleanup

def recoverRedo : Acc Unit := do
  check (if intent.length ≠ ACCOUNT_INTENT_SIZE ∨ parse E intent = false then some .einval else none)
  let a ← readChecked E (.stage 0) (recordLength intent 0) (recordSum intent 0) .einval
  let b ← readChecked E (.stage 1) (recordLength intent 1) (recordSum intent 1) .einval
  let c ← readChecked E (.stage 2) (recordLength intent 2) (recordSum intent 2) .einval
  check (validate E (trio a b c))
  publish E (trio a b c) intent

def accountRedoRecover : Acc Unit := do
  match ← ioRead .pending ACCOUNT_INTENT_SIZE with
  | .error .enoent => recoverQuiet E
  | .error e => .fail e
  | .ok intent => recoverRedo E intent

/-- The update past its checks: stage, record, publish. -/
def stageAndPublish : Acc Unit := do
  cleanup
  ioWrite (.stage 0) (files 0)
  ioWrite (.stage 1) (files 1)
  ioWrite (.stage 2) (files 2)
  ioSync
  ioWrite .intentTemp intent
  ioSync
  ioRename .intentTemp .pending
  ioSync
  publish E files intent

def accountRedoUpdate (generation : UInt64) : Acc Unit := do
  check (if generation = 0 then some .einval else none)
  check (validate E files)
  match ← ioRead .pending ACCOUNT_INTENT_SIZE with
  | .error .enoent => stageAndPublish E files (record E files generation)
  | .error e => .fail e
  | .ok _ => .fail .einval

end Fortress.Account
