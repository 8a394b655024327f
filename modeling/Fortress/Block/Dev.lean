/-
The block layer: devices as geometry and optional callbacks, and the bounded
run adapters over them. A callback is a program of calls to the driver below,
whose answers nothing here controls; absent callbacks are the null pointers of
the device record.
-/
import Fortress.Lib.Ask
import Fortress.Lib.Codec

namespace Fortress.Block

/-- A call that reaches a driver. -/
inductive Call where
  | readSector (lba : Nat)
  | writeSector (lba : Nat) (buf : Bytes)
  | readSectors (lba n : Nat)
  | writeSectors (lba n : Nat) (buf : Bytes)
  | flush

/-- A read gives its data, a write and a flush say whether they succeeded. -/
def Call.Answer : Call → Type
  | .readSector _ | .readSectors _ _ => Option Bytes
  | .writeSector _ _ | .writeSectors _ _ _ | .flush => Bool

abbrev Req := Ask Call Call.Answer

structure Dev where
  sectorSize : Nat
  sectorCount : Nat
  maxRunBytes : Nat
  readSector : Option (Nat → Req (Option Bytes))
  writeSector : Option (Nat → Bytes → Req Bool)
  readSectors : Option (Nat → Nat → Req (Option Bytes))
  writeSectors : Option (Nat → Nat → Bytes → Req Bool)
  flush : Option (Req Bool)

/-- A device at the bottom: its geometry and which callbacks its driver has. -/
structure Driver where
  sectorSize : Nat
  sectorCount : Nat
  maxRunBytes : Nat
  reads : Bool := true
  writes : Bool := true
  readsRuns : Bool := true
  writesRuns : Bool := true
  flushes : Bool := true

def present {α : Type} (b : Bool) (f : α) : Option α := if b then some f else none

theorem present_eq_some {α : Type} {b : Bool} {f g : α} (h : present b f = some g) : b = true ∧ f = g := by
  cases b with
  | false => cases h
  | true => exact ⟨rfl, Option.some.inj h⟩

def Driver.dev (d : Driver) : Dev where
  sectorSize := d.sectorSize
  sectorCount := d.sectorCount
  maxRunBytes := d.maxRunBytes
  readSector := present d.reads fun l => Ask.request (Call.readSector l)
  writeSector := present d.writes fun l b => Ask.request (Call.writeSector l b)
  readSectors := present d.readsRuns fun l n => Ask.request (Call.readSectors l n)
  writeSectors := present d.writesRuns fun l n b => Ask.request (Call.writeSectors l n b)
  flush := present d.flushes (Ask.request Call.flush)

def BLOCK_MAX_RUN_BYTES : Nat := 16384

variable (d : Dev) (l n : Nat)

def getMaxRunBytes : Nat :=
  let n := if d.maxRunBytes ≠ 0 then d.maxRunBytes else 4096
  if n > BLOCK_MAX_RUN_BYTES then BLOCK_MAX_RUN_BYTES else n

def blockReadSector (lba : Nat) : Req (Option Bytes) :=
  match d.readSector with
  | none => .ret none
  | some f => if lba ≥ d.sectorCount then .ret none else f lba

def blockWriteSector (lba : Nat) (buf : Bytes) : Req Bool :=
  match d.writeSector with
  | none => .ret false
  | some f => if lba ≥ d.sectorCount then .ret false else f lba buf

/-- The check of a whole run before any callback. -/
def RunRefused : Prop :=
  d.sectorSize = 0 ∨ n = 0 ∨ n > getMaxRunBytes d / d.sectorSize ∨ l ≥ d.sectorCount ∨ n > d.sectorCount - l

instance (d : Dev) (l n : Nat) : Decidable (RunRefused d l n) := by
  unfold RunRefused
  infer_instance

/-- The sector by sector fallback of a read. -/
def readEach (d : Dev) (l : Nat) : Nat → Req (Option Bytes)
  | 0 => .ret (some [])
  | n + 1 => do
    match ← blockReadSector d l with
    | none => .ret none
    | some b =>
      match ← readEach d (l + 1) n with
      | none => .ret none
      | some bs => .ret (some (b ++ bs))

def writeEach (d : Dev) (l : Nat) (buf : Bytes) : Nat → Req Bool
  | 0 => .ret true
  | n + 1 => do
    if ← blockWriteSector d l (buf.take d.sectorSize) then writeEach d (l + 1) (buf.drop d.sectorSize) n
    else .ret false

def blockReadSectors : Req (Option Bytes) :=
  if d.readSector.isNone ∨ RunRefused d l n then .ret none
  else
    match d.readSectors with
    | some f => f l n
    | none => readEach d l n

def blockWriteSectors (buf : Bytes) : Req Bool :=
  if d.writeSector.isNone ∨ RunRefused d l n then .ret false
  else
    match d.writeSectors with
    | some f => f l n buf
    | none => writeEach d l buf n

/-! ## What a call touches -/

/-- The call stays within the sectors from `a` to `b`. -/
def Call.Within (a b : Nat) : Call → Prop
  | .readSector l | .writeSector l _ => a ≤ l ∧ l ≤ b
  | .readSectors l n | .writeSectors l n _ => a ≤ l ∧ l + n ≤ b + 1
  | .flush => True

variable {P : Call → Prop} {d : Dev} {buf : Bytes} {a b l n : Nat}

theorem blockReadSector_only {l : Nat} (h : ∀ f, d.readSector = some f → (f l).Only P) :
    (blockReadSector d l).Only P := by
  unfold blockReadSector
  cases hf : d.readSector with
  | none => exact Ask.only_ret _
  | some f => exact Ask.only_ite (h f hf)

theorem blockWriteSector_only {l : Nat} (h : ∀ f, d.writeSector = some f → (f l buf).Only P) :
    (blockWriteSector d l buf).Only P := by
  unfold blockWriteSector
  cases hf : d.writeSector with
  | none => exact Ask.only_ret _
  | some f => exact Ask.only_ite (h f hf)

theorem readEach_only (h : ∀ x, l ≤ x → x < l + n → (blockReadSector d x).Only P) : (readEach d l n).Only P := by
  induction n generalizing l with
  | zero => exact Ask.only_ret _
  | succ n ih =>
    refine Ask.only_bind (h l (by omega) (by omega)) fun r => ?_
    cases r with
    | none => exact Ask.only_ret _
    | some b =>
      refine Ask.only_bind (ih fun x hx hx' => h x (by omega) (by omega)) fun r => ?_
      cases r <;> exact Ask.only_ret _

theorem writeEach_only (h : ∀ x b, l ≤ x → x < l + n → (blockWriteSector d x b).Only P) :
    (writeEach d l buf n).Only P := by
  induction n generalizing l buf with
  | zero => exact Ask.only_ret _
  | succ n ih =>
    refine Ask.only_bind (h l _ (by omega) (by omega)) fun r => ?_
    cases r with
    | false => exact Ask.only_ret _
    | true => exact ih fun x b hx hx' => h x b (by omega) (by omega)

/-- A run on a driver stays within its sectors, through the run callback or one sector at a time. -/
theorem Driver.readSectors_within (v : Driver) (ha : a ≤ l) (hb : l + n ≤ b + 1) :
    (blockReadSectors v.dev l n).Only (Call.Within a b) := by
  refine Ask.only_ite ?_
  cases hr : v.dev.readSectors with
  | some f =>
    obtain ⟨-, rfl⟩ := present_eq_some hr
    exact Ask.only_request ⟨ha, hb⟩
  | none =>
    refine readEach_only fun x hx hx' => blockReadSector_only fun f hf => ?_
    obtain ⟨-, rfl⟩ := present_eq_some hf
    exact Ask.only_request ⟨by omega, by omega⟩

theorem Driver.writeSectors_within (v : Driver) (ha : a ≤ l) (hb : l + n ≤ b + 1) :
    (blockWriteSectors v.dev l n buf).Only (Call.Within a b) := by
  refine Ask.only_ite ?_
  cases hr : v.dev.writeSectors with
  | some f =>
    obtain ⟨-, rfl⟩ := present_eq_some hr
    exact Ask.only_request ⟨ha, hb⟩
  | none =>
    refine writeEach_only fun x c hx hx' => blockWriteSector_only fun f hf => ?_
    obtain ⟨-, rfl⟩ := present_eq_some hf
    exact Ask.only_request ⟨by omega, by omega⟩

end Fortress.Block
