/-
A file as its bytes: writing at an offset (a gap reads as zeros), setting the
size, and how both look through a buffer that holds the file in its first bytes.
-/
import Fortress.Lib.Codec

namespace Fortress.ByteFile

open Codec List

variable (f : Bytes) (off : Nat) (bs : Bytes)

/-- `bs` written at `off`. -/
def overwrite : Bytes :=
  (f ++ zeros (off - f.length)).take off ++ (bs ++ f.drop (off + bs.length))

/-- The file cut or extended with zeros to `n` bytes. -/
def resize (n : Nat) : Bytes := f.take n ++ zeros (n - f.length)

@[grind =] theorem length_overwrite : (overwrite f off bs).length = max f.length (off + bs.length) := by
  simp only [overwrite, length_append, length_take, length_drop, length_zeros]
  omega

theorem length_overwrite_of_le {b : Bytes} {off : Nat} {bs : Bytes} (h : off + bs.length ≤ b.length) :
    (overwrite b off bs).length = b.length := by
  rw [length_overwrite]
  omega

theorem length_resize (n : Nat) : (resize f n).length = n := by
  simp only [resize, length_append, length_take, length_zeros]
  omega

@[grind =] theorem getElem?_zeros (n k : Nat) : (zeros n)[k]? = if k < n then some 0 else none := getElem?_replicate

@[grind =] theorem getElem?_overwrite (k : Nat) : (overwrite f off bs)[k]? =
      if off ≤ k ∧ k < off + bs.length then bs[k - off]?
      else if f.length ≤ k ∧ k < off then some 0 else f[k]? := by
  grind [overwrite, length_zeros]

@[grind =] theorem getElem?_resize (n k : Nat) :
    (resize f n)[k]? = if k < n then (if k < f.length then f[k]? else some 0) else none := by
  grind [resize]

/-! ## Through a buffer -/

variable {b f : Bytes}

theorem getElem?_of_take (hf : b.take f.length = f) {k : Nat} (hk : k < f.length) : b[k]? = f[k]? := by
  have := congrArg (fun l : Bytes => l[k]?) hf
  simpa [getElem?_take, hk] using this

/-- The bytes of the buffer between the end of the file and `off`. -/
def GapClear (b : Bytes) (size off : Nat) : Prop := ∀ k, size ≤ k → k < off → b[k]? = some 0

/-- Writing to the buffer writes the file exactly when the gap the write leaves is zero in the buffer. -/
theorem take_overwrite_iff {off : Nat} {bs : Bytes} (hf : b.take f.length = f)
    (hin : off + bs.length ≤ b.length) (hbs : bs ≠ []) :
    (overwrite b off bs).take (overwrite f off bs).length = overwrite f off bs ↔ GapClear b f.length off := by
  have hpos : 0 < bs.length := length_pos_iff.2 hbs
  constructor
  · intro he k hk hko
    have := congrArg (fun l : Bytes => l[k]?) he
    grind
  intro hgap
  refine ext_getElem? fun k => ?_
  have := hgap k
  have := fun hk => getElem?_of_take hf (k := k) hk
  grind

theorem take_eq_resize {n : Nat} (hf : b.take f.length = f) (hn : n ≤ f.length) : b.take n = resize f n := by
  have hcut : f.take n = b.take n := by
    rw [← hf, take_take, Nat.min_eq_left hn]
  rw [resize, Nat.sub_eq_zero_of_le hn, hcut]
  exact (append_nil _).symm

/-- A buffer zeroed from the end of the file up to `n`. -/
theorem take_overwrite_zeros {n : Nat} (hf : b.take f.length = f) (hn : f.length ≤ n) :
    (overwrite b f.length (zeros (n - f.length))).take n = resize f n := by
  have hlen : f.length ≤ b.length := by
    have := congrArg length hf
    rw [length_take] at this
    omega
  refine ext_getElem? fun k => ?_
  have := fun hk => getElem?_of_take hf (k := k) hk
  grind [length_zeros]

end Fortress.ByteFile
