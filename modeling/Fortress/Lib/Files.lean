/-
Files as a map from names to contents, and texts as lines. A system call may
refuse to rename or to unlink, and then changes nothing.
-/
import Fortress.Lib.Codec

namespace Fortress.FileSystem

open List Function

abbrev Path := Bytes
abbrev Files := Path → Option Bytes

def rename (ok : Bool) (fs : Files) (old new : Path) : Bool × Files :=
  match ok, fs old with
  | true, some x => (true, update (update fs old none) new (some x))
  | _, _ => (false, fs)

def unlink (ok : Bool) (fs : Files) (path : Path) : Files := if ok then update fs path none else fs

/-- A temporary file takes the place of another: renamed, or else renamed once the other is unlinked. -/
def replaceTarget (renames : Bool × Bool) (unlinks : Bool) (fs : Files) (tmp path : Path) : Nat × Files :=
  let (ok, fs) := rename renames.1 fs tmp path
  if ok then (0, fs)
  else
    let (ok, fs) := rename renames.2 (unlink unlinks fs path) tmp path
    (if ok then 0 else 2, fs)

def tmpSuffix : Bytes := [46, 116, 109, 112]

variable {fs : Files} {path tmp : Path}

theorem tmp_ne (path : Path) : path ++ tmpSuffix ≠ path := by simp [tmpSuffix]

theorem rename_other {p old new : Path} (ok : Bool) (hold : p ≠ old) (hnew : p ≠ new) :
    (rename ok fs old new).2 p = fs p := by
  unfold rename
  split <;> simp [hold, hnew]

theorem unlink_other {p : Path} (ok : Bool) (h : p ≠ path) : unlink ok fs path p = fs p := by
  unfold unlink
  split <;> simp [h]

theorem replaceTarget_apply (renames : Bool × Bool) (unlinks : Bool) (fs : Files) (hne : tmp ≠ path) :
    if (fs tmp).isSome && (renames.1 || renames.2) then
      (replaceTarget renames unlinks fs tmp path).1 = 0 ∧ (replaceTarget renames unlinks fs tmp path).2 path = fs tmp
    else replaceTarget renames unlinks fs tmp path = (2, unlink unlinks fs path) := by
  unfold replaceTarget rename unlink
  cases ht : fs tmp <;> cases renames.1 <;> cases renames.2 <;> cases unlinks <;> simp [ht, hne]

theorem replaceTarget_kept_iff (renames : Bool × Bool) (unlinks : Bool) (fs : Files) (hne : tmp ≠ path) (x : Bytes)
    (hx : fs tmp = some x) :
    (replaceTarget renames unlinks fs tmp path).1 ≠ 0 ∧ (replaceTarget renames unlinks fs tmp path).2 path = fs path ↔
    renames = (false, false) ∧ (unlinks = false ∨ fs path = none) := by
  obtain ⟨_ | _, _ | _⟩ := renames <;> cases unlinks <;> simp [replaceTarget, rename, unlink, hx, hne, eq_comm]

/-! ## Lines -/

/-- A line without the carriage return at its end. -/
def chomp (line : Bytes) : Bytes := if line.getLast? = some 13 then line.dropLast else line

/-- The pieces of a text without the empty one behind its last newline. -/
def trimLast (pieces : List Bytes) : List Bytes := if pieces.getLast? = some [] then pieces.dropLast else pieces

def rawLines (text : Bytes) : List Bytes := trimLast (text.splitOn 10)

def textLines (text : Bytes) : List Bytes := (rawLines text).map chomp

theorem trimLast_cons (p q : Bytes) (ps : List Bytes) : trimLast (p :: q :: ps) = p :: trimLast (q :: ps) := by
  unfold trimLast
  rw [getLast?_cons_cons]
  split <;> simp

theorem trimLast_head {p : Bytes} (hp : p ≠ []) (ps : List Bytes) : ∃ qs, trimLast (p :: ps) = p :: qs := by
  cases ps with
  | nil => exact ⟨[], by simp [trimLast, hp]⟩
  | cons q ps => exact ⟨_, trimLast_cons p q ps⟩

theorem splitOn_cons (c : UInt8) (text : Bytes) : ∃ p ps, text.splitOn 10 = p :: ps ∧
    (c :: text).splitOn 10 = if c = 10 then [] :: p :: ps else (c :: p) :: ps := by
  obtain ⟨p, ps, hp⟩ := exists_cons_of_ne_nil (splitOnP_ne_nil (· == (10 : UInt8)) text)
  refine ⟨p, ps, hp, ?_⟩
  rw [splitOn, splitOnP_cons_eq_if_modifyHead, hp]
  simp

theorem splitOn_clear (text : Bytes) : ∀ l ∈ text.splitOn 10, 10 ∉ l := by
  induction text with
  | nil => simp
  | cons c text ih =>
    obtain ⟨p, ps, hp, hc⟩ := splitOn_cons c text
    rw [hp, forall_mem_cons] at ih
    rw [hc]
    split
    · simpa using ih
    · simpa [eq_comm, *] using ih

theorem chomp_clear {line : Bytes} (h : 10 ∉ line) : 10 ∉ chomp line := by
  unfold chomp
  split
  · exact fun hm => h (dropLast_subset _ hm)
  · exact h

theorem map_chomp_clear {lines : List Bytes} (h : ∀ l ∈ lines, 10 ∉ l) : ∀ l ∈ lines.map chomp, 10 ∉ l :=
  forall_mem_map.2 fun l hl => chomp_clear (h l hl)

theorem rawLines_clear (text : Bytes) : ∀ l ∈ rawLines text, 10 ∉ l := by
  intro l hl
  unfold rawLines trimLast at hl
  split at hl
  · exact splitOn_clear text l (dropLast_subset _ hl)
  · exact splitOn_clear text l hl

/-- Lines put out one after the other, each with its newline, can be told apart again. -/
theorem flatMap_newline_inj : ∀ {a b : List Bytes}, (∀ l ∈ a, 10 ∉ l) → (∀ l ∈ b, 10 ∉ l) →
    a.flatMap (· ++ [10]) = b.flatMap (· ++ [10]) → a = b
  | [], [], _, _, _ => rfl
  | [], _ :: _, _, _, h => by simp at h
  | _ :: _, [], _, _, h => by simp at h
  | x :: xs, y :: ys, ha, hb, h => by
    have htake (l : Bytes) (rest : Bytes) (hl : 10 ∉ l) : (l ++ 10 :: rest).takeWhile (· != 10) = l := by
      have hne : ∀ c ∈ l, (c != 10) = true := fun c hc => bne_iff_ne.2 fun e => hl (e ▸ hc)
      simp [takeWhile_append_of_pos hne]
    rw [flatMap_cons, flatMap_cons, append_assoc, append_assoc, singleton_append, singleton_append] at h
    have hx : x = y := by
      have := congrArg (takeWhile (· != 10)) h
      rwa [htake x _ (ha x (.head _)), htake y _ (hb y (.head _))] at this
    subst hx
    rw [flatMap_newline_inj (fun l hl => ha l (.tail _ hl)) (fun l hl => hb l (.tail _ hl)) (by simpa using h)]

end Fortress.FileSystem
