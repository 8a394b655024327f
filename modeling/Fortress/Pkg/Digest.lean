/-
The incremental digests of tools/digest.c. The block transform is the one of
the Wi-Fi code, so a digest is taken over any `Sha`; what is this file's own is
the buffering and the padding. Feeding a message in pieces and feeding it whole
leave the same context (`digestUpdate_feed`).
-/
import Fortress.Wlan.Crypto

namespace Fortress.Pkg

open Codec
open Wlan (Sha)

structure Digest (σ : Type) where
  state : σ
  bytes : Nat
  /-- The first `used` bytes of the block. -/
  block : Bytes

variable {σ : Type} (H : Sha σ)

def digestInit : Digest σ := { state := H.init, bytes := 0, block := [] }

/-- One byte into the block, which is compressed when full. -/
def Digest.push (d : Digest σ) (b : UInt8) : Digest σ :=
  if d.block.length + 1 = 64 then
    { state := H.transform d.state (d.block ++ [b]), bytes := d.bytes + 1, block := [] }
  else { d with bytes := d.bytes + 1, block := d.block ++ [b] }

def UINT64_MAX : Nat := 2 ^ 64 - 1

/-- The copy loop fills the block and compresses it, piece by piece; that is one byte after the other. -/
def digestUpdate (d : Digest σ) (data : Bytes) : Option (Digest σ) :=
  if d.bytes > UINT64_MAX / 8 ∨ data.length > UINT64_MAX / 8 - d.bytes then none
  else some (data.foldl (Digest.push H) d)

def digestFinal (d : Digest σ) : Bytes :=
  let bits := d.bytes * 8 % 2 ^ 64
  let block := d.block ++ [0x80]
  let (state, block) :=
    if block.length > 56 then (H.transform d.state (block ++ zeros (64 - block.length)), []) else (d.state, block)
  let block := block ++ zeros (56 - block.length) ++ be bits 8
  H.digest (H.transform state block)

/-- The context after the bytes of `m`. -/
def feed (m : Bytes) : Digest σ := m.foldl (Digest.push H) (digestInit H)

/-- The digest of a message. -/
def digest (m : Bytes) : Bytes := digestFinal H (feed H m)

variable {H}

theorem digestUpdate_feed {m b : Bytes} {d : Digest σ} (h : digestUpdate H (feed H m) b = some d) :
    d = feed H (m ++ b) := by
  simp only [digestUpdate, Option.ite_none_left_eq_some, Option.some.injEq] at h
  rw [← h.2, feed, feed, List.foldl_append]

/-- A digest for concrete runs that sees every byte and its place. -/
def polySha : Sha Nat where
  init := 1
  transform s block := block.foldl (fun s b => (s * 257 + b.toNat) % 2 ^ 61) s
  digest s := le s 32

end Fortress.Pkg
