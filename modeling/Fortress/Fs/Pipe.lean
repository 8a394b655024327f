/-
Pipes (`fs/pipe.c`). A read or write is a loop of passes, each under the
pipe's lock; a pass transfers once and returns, fails, or waits and is run
again. Callers hold nothing between passes, so an interleaving of any callers
is a sequence of their passes, and what the passes transferred, in order, is
kept beside the pipe.

Waiting is not modelled: a pass may be run again at any time, which covers
every schedule the two channels allow. Profiling counters are left out.
-/
import Fortress.Lib.Ring

namespace Fortress.Fs

open List

abbrev PIPE_CAPACITY : Nat := 64 * 1024
abbrev PIPE_BUF : Nat := 4096

structure Pipe where
  buffer : Nat → UInt8 := fun _ => 0
  head : Nat := 0
  tail : Nat := 0
  count : Nat := 0
  readers : UInt32 := 1
  writers : UInt32 := 1
  dataBytes : Nat := 0
  spaceBytes : Nat := PIPE_CAPACITY

/-- `memcpy` into the buffer, from index `start` on. -/
def store (buffer : Nat → UInt8) (start : Nat) (data : List UInt8) (i : Nat) : UInt8 :=
  if start ≤ i then (data[i - start]?).getD (buffer i) else buffer i

/-- `memcpy` out of the buffer. -/
def load (buffer : Nat → UInt8) (start n : Nat) : List UInt8 := (List.range n).map fun i => buffer (start + i)

def pipePublish (p : Pipe) : Pipe := { p with dataBytes := p.count, spaceBytes := PIPE_CAPACITY - p.count }

/-- How a pass ends: with a result, or waiting. -/
inductive Pass (α : Type) where
  | done (result : α)
  | eintr
  | eagain
  | epipe
  | wait

/-- A pass of `pipe_read`. -/
def readPass (p : Pipe) (count : Nat) (nonblock signal : Bool) : Pass (List UInt8) × Pipe :=
  if signal then (.eintr, p)
  else if p.count ≠ 0 then
    let n := if count < p.count then count else p.count
    let first := PIPE_CAPACITY - p.tail
    let first := if first > n then n else first
    let data := load p.buffer p.tail first ++ load p.buffer 0 (n - first)
    (.done data, pipePublish { p with tail := (p.tail + n) % PIPE_CAPACITY, count := p.count - n })
  else if p.writers = 0 then (.done [], p)
  else if nonblock then (.eagain, p)
  else (.wait, p)

/-- A pass of `pipe_write`; the result is how many bytes were taken. -/
def writePass (p : Pipe) (data : List UInt8) (nonblock signal : Bool) : Pass Nat × Pipe :=
  if signal then (.eintr, p)
  else if p.readers = 0 then (.epipe, p)
  else
    let space := PIPE_CAPACITY - p.count
    if space ≠ 0 ∧ (data.length > PIPE_BUF ∨ space ≥ data.length) then
      let n := if data.length < space then data.length else space
      let first := PIPE_CAPACITY - p.head
      let first := if first > n then n else first
      let buffer := store p.buffer p.head (data.take first)
      let buffer := store buffer 0 ((data.drop first).take (n - first))
      (.done n, pipePublish { p with buffer, head := (p.head + n) % PIPE_CAPACITY, count := p.count + n })
    else if nonblock then (.eagain, p)
    else (.wait, p)

/-! ## Callers -/

/-- A call in progress. -/
inductive Call where
  | read (count : Nat) (nonblock : Bool)
  | write (data : List UInt8) (nonblock : Bool)

/-- A write that returned: what it offered and how much was taken. -/
structure Written where
  offered : List UInt8
  taken : Nat

def Written.chunk (w : Written) : List UInt8 := w.offered.take w.taken

/-- The pipe, the calls in progress, and what calls returned so far, oldest first. -/
structure System where
  pipe : Pipe := {}
  calls : Nat → Option Call := fun _ => none
  reads : List (List UInt8) := []
  writes : List Written := []

inductive Event where
  /-- Caller `k` makes a call. -/
  | call (k : Nat) (c : Call)
  /-- Caller `k`'s call makes a pass. -/
  | pass (k : Nat) (signal : Bool)
  | closeReader
  | closeWriter

/-- A call of no bytes returns at once. -/
def Call.isEmpty : Call → Bool
  | .read count _ => count == 0
  | .write data _ => data.isEmpty

def System.finish (s : System) (k : Nat) (p : Pipe) : System :=
  { s with pipe := p, calls := Function.update s.calls k none }

def System.step (s : System) : Event → System
  | .call k c =>
    if (s.calls k).isSome || c.isEmpty then s else { s with calls := Function.update s.calls k (some c) }
  | .pass k signal =>
    match s.calls k with
    | none => s
    | some (.read count nonblock) =>
      match readPass s.pipe count nonblock signal with
      | (.wait, p) => { s with pipe := p }
      | (.done data, p) => { s.finish k p with reads := s.reads ++ [data] }
      | (_, p) => s.finish k p
    | some (.write data nonblock) =>
      match writePass s.pipe data nonblock signal with
      | (.wait, p) => { s with pipe := p }
      | (.done n, p) => { s.finish k p with writes := s.writes ++ [⟨data, n⟩] }
      | (_, p) => s.finish k p
  | .closeReader => { s with pipe.readers := s.pipe.readers - 1 }
  | .closeWriter => { s with pipe.writers := s.pipe.writers - 1 }

def System.run (s : System) (events : List Event) : System := events.foldl System.step s

/-! ## The buffer as a ring -/

section Ring

variable {size : Nat} {buffer : Nat → UInt8} {data : List UInt8}

theorem load_split {tail n : Nat} (ht : tail < size) (hn : n ≤ size) :
    load buffer tail (min (size - tail) n) ++ load buffer 0 (n - min (size - tail) n) = Ring.read size buffer tail n := by
  refine ext_getElem? fun i => ?_
  by_cases hi : i < n
  · rw [Ring.getElem?_read hi]
    by_cases hf : i < min (size - tail) n
    · have hmod : (tail + i) % size = tail + i := Nat.mod_eq_of_lt (by omega)
      rw [getElem?_append_left (by simpa [load] using hf), hmod]
      simp [load, hf]
    have hmod : (tail + i) % size = i - min (size - tail) n := by
      rw [Nat.mod_eq_sub_mod (by omega), Nat.mod_eq_of_lt (by omega)]
      omega
    rw [getElem?_append_right (by rw [load, length_map, length_range]; omega), hmod]
    have hlt : i - min (size - tail) n < n - min (size - tail) n := by omega
    simp [load, hlt]
  · rw [getElem?_eq_none (by simp [load]; omega), getElem?_eq_none (by simp; omega)]

theorem write_congr {a b : Nat} (hab : a % size = b % size) :
    Ring.write size buffer a data = Ring.write size buffer b data := by
  induction data generalizing a b buffer with
  | nil => rfl
  | cons c cs ih =>
    rw [Ring.write, Ring.write, hab]
    exact ih (Nat.ModEq.add_right 1 hab)

/-- What a write that fits leaves at the slots it covers. -/
theorem write_at {start k : Nat} (hlen : data.length ≤ size) (hk : k < data.length) :
    Ring.write size buffer start data ((start + k) % size) = data[k] := by
  have hr : Ring.read size (Ring.write size buffer (start + 0) data) start (0 + data.length) = [] ++ data :=
    Ring.read_write (by omega)
  have hget := congrArg (·[k]?) hr
  simp only [Nat.add_zero, Nat.zero_add, nil_append] at hget
  rw [Ring.getElem?_read hk, getElem?_eq_getElem hk] at hget
  exact Option.some.inj hget

theorem store_split {head : Nat} (hh : head < size) (hlen : data.length ≤ size) :
    store (store buffer head (data.take (min (size - head) data.length))) 0 (data.drop (min (size - head) data.length)) =
      Ring.write size buffer head data := by
  funext i
  by_cases hlow : i < data.length - min (size - head) data.length
  · -- the second piece, past the wrap
    have hk : min (size - head) data.length + i < data.length := by omega
    have hmod : (head + (min (size - head) data.length + i)) % size = i := by
      rw [Nat.mod_eq_sub_mod (by omega), Nat.mod_eq_of_lt (by omega)]
      omega
    have hw : Ring.write size buffer head data ((head + _) % size) = _ := write_at hlen hk
    rw [hmod] at hw
    rw [hw]
    simp [store, hlow]
  have hsecond : ∀ b : Nat → UInt8, store b 0 (data.drop (min (size - head) data.length)) i = b i := by
    intro b
    rw [store, if_pos (Nat.zero_le i), getElem?_eq_none (by simp; omega), Option.getD_none]
  rw [hsecond]
  by_cases hin : head ≤ i ∧ i < head + min (size - head) data.length
  · have hk : i - head < data.length := by omega
    have hmod : (head + (i - head)) % size = i := by
      rw [Nat.mod_eq_of_lt (by omega)]
      omega
    have hw : Ring.write size buffer head data ((head + _) % size) = _ := write_at hlen hk
    rw [hmod] at hw
    rw [hw, store, if_pos hin.1, getElem?_take_of_lt (by omega), getElem?_eq_getElem hk, Option.getD_some]
  have hout : ∀ k < data.length, (head + k) % size ≠ i := by
    intro k hk he
    by_cases hwrap : head + k < size
    · rw [Nat.mod_eq_of_lt hwrap] at he
      omega
    · rw [Nat.mod_eq_sub_mod (by omega), Nat.mod_eq_of_lt (by omega)] at he
      omega
  rw [Ring.write_of_ne hout, store]
  split
  · rw [getElem?_eq_none (by simp; omega), Option.getD_none]
  · rfl

end Ring

/-! ## Passes -/

structure Pipe.Ok (p : Pipe) : Prop where
  tail : p.tail < PIPE_CAPACITY
  count : p.count ≤ PIPE_CAPACITY
  head : p.head = (p.tail + p.count) % PIPE_CAPACITY

/-- The bytes in the pipe. -/
def Pipe.held (p : Pipe) : List UInt8 := Ring.read PIPE_CAPACITY p.buffer p.tail p.count

variable {p : Pipe}

variable {nonblock signal : Bool} {data : List UInt8} {s : System} {count : Nat} {p' : Pipe}

/-- **A pass that reads takes its bytes from the front of the pipe.** -/
theorem readPass_done (h : p.Ok)
    (hr : readPass p count nonblock signal = (.done data, p')) : p'.Ok ∧ p.held = data ++ p'.held := by
  unfold readPass at hr
  split at hr
  · cases hr
  split at hr
  · obtain ⟨hdata, rfl⟩ := Prod.mk.inj hr
    have hdata := Pass.done.inj hdata
    set n := if count < p.count then count else p.count with hn
    have hle : n ≤ p.count := by
      rw [hn]
      split <;> omega
    have hfirst : (if PIPE_CAPACITY - p.tail > n then n else PIPE_CAPACITY - p.tail) = min (PIPE_CAPACITY - p.tail) n := by
      split <;> omega
    have hcount := h.count
    rw [hfirst, load_split h.tail (by omega)] at hdata
    refine ⟨⟨Nat.mod_lt _ (by decide), ?_, ?_⟩, ?_⟩
    · show p.count - n ≤ PIPE_CAPACITY
      omega
    · show p.head = ((p.tail + n) % PIPE_CAPACITY + (p.count - n)) % PIPE_CAPACITY
      rw [h.head, Nat.mod_add_mod]
      congr 1
      omega
    -- the front of the pipe, and what is behind it
    have htake : (p.held).take n = data := by
      simp [← hdata, Pipe.held, Ring.read, ← map_take, take_range, hle]
    have hdrop : (p.held).drop n = Ring.read PIPE_CAPACITY p.buffer ((p.tail + n) % PIPE_CAPACITY) (p.count - n) := by
      rw [Pipe.held, Ring.drop_read, Ring.read_mod]
    rw [← htake]
    exact (take_append_drop n p.held).symm.trans (congrArg _ hdrop)
  split at hr
  · obtain ⟨hdata, rfl⟩ := Prod.mk.inj hr
    exact ⟨h, by rw [← Pass.done.inj hdata]; rfl⟩
  split at hr <;> cases hr

/-- **A pass that writes puts what it takes at the end of the pipe**, and takes a small write whole. -/
theorem writePass_done {n : Nat} (h : p.Ok) (hw : writePass p data nonblock signal = (.done n, p')) :
    p'.Ok ∧ p'.held = p.held ++ data.take n ∧ (data.length ≤ PIPE_BUF → n = data.length) := by
  unfold writePass at hw
  split at hw
  · cases hw
  split at hw
  · cases hw
  dsimp only at hw
  split at hw
  · rename_i hroom
    obtain ⟨hn, rfl⟩ := Prod.mk.inj hw
    have hn := Pass.done.inj hn
    have hlen : (data.take n).length = n := by
      rw [length_take, ← hn]
      split <;> omega
    have hfits : p.count + n ≤ PIPE_CAPACITY := by
      rw [← hn]
      split <;> omega
    rw [hn]
    have hfirst : (if PIPE_CAPACITY - p.head > n then n else PIPE_CAPACITY - p.head) = min (PIPE_CAPACITY - p.head) n := by
      split <;> omega
    have hbuf : store (store p.buffer p.head (data.take (min (PIPE_CAPACITY - p.head) n))) 0
        ((data.drop (min (PIPE_CAPACITY - p.head) n)).take (n - min (PIPE_CAPACITY - p.head) n)) =
        Ring.write PIPE_CAPACITY p.buffer p.head (data.take n) := by
      have hs : store (store p.buffer p.head ((data.take n).take (min (PIPE_CAPACITY - p.head) (data.take n).length))) 0
          ((data.take n).drop (min (PIPE_CAPACITY - p.head) (data.take n).length)) =
          Ring.write PIPE_CAPACITY p.buffer p.head (data.take n) :=
            store_split (h.head ▸ Nat.mod_lt _ (by decide)) (by omega)
      rw [hlen, take_take, drop_take, Nat.min_eq_left (by omega)] at hs
      exact hs
    refine ⟨⟨h.tail, hfits, ?_⟩, ?_, fun hsmall => ?_⟩
    · show (p.head + n) % PIPE_CAPACITY = (p.tail + (p.count + n)) % PIPE_CAPACITY
      rw [h.head, Nat.mod_add_mod]
      congr 1
      omega
    · show Ring.read PIPE_CAPACITY _ p.tail (p.count + n) = _
      have hread : Ring.read PIPE_CAPACITY (Ring.write PIPE_CAPACITY p.buffer (p.tail + p.count) (data.take n)) p.tail
          (p.count + (data.take n).length) = Ring.read PIPE_CAPACITY p.buffer p.tail p.count ++ data.take n :=
        Ring.read_write (by omega)
      rw [hlen] at hread
      rw [hfirst, hbuf, write_congr (show p.head % PIPE_CAPACITY = (p.tail + p.count) % PIPE_CAPACITY by
        rw [h.head, Nat.mod_mod])]
      exact hread
    · rw [← hn]
      split <;> omega
  split at hw <;> cases hw

theorem readPass_pipe (hd : ∀ data, (readPass p count nonblock signal).1 ≠ .done data) :
    (readPass p count nonblock signal).2 = p := by
  revert hd
  unfold readPass
  split_ifs <;> intro hd <;> first | rfl | exact absurd rfl (hd _)

theorem writePass_pipe (hd : ∀ n, (writePass p data nonblock signal).1 ≠ .done n) :
    (writePass p data nonblock signal).2 = p := by
  revert hd
  unfold writePass
  dsimp only
  split_ifs <;> intro hd <;> first | rfl | exact absurd rfl (hd _)

/-! ## Runs -/

/-- What went out and what is in the pipe is what came in; small writes came in whole. -/
structure System.Inv (s : System) : Prop where
  pipe : s.pipe.Ok
  stream : s.reads.flatten ++ s.pipe.held = (s.writes.map Written.chunk).flatten
  whole : ∀ w ∈ s.writes, w.offered.length ≤ PIPE_BUF → w.taken = w.offered.length

theorem System.Inv.pass (h : s.Inv) (k : Nat) (signal : Bool) : (s.step (.pass k signal)).Inv := by
  simp only [System.step]
  split
  · exact h
  · rename_i count nonblock _
    have hsame : (∀ data, (readPass s.pipe count nonblock signal).1 ≠ .done data) → _ := readPass_pipe
    cases hr : readPass s.pipe count nonblock signal with
    | mk r p =>
      cases r with
      | done data =>
        obtain ⟨hok, hheld⟩ := readPass_done h.pipe hr
        refine ⟨hok, ?_, h.whole⟩
        have hs := h.stream
        simp only [System.finish, flatten_append, flatten_cons, flatten_nil, append_nil,
          append_assoc]
        rw [← hheld]
        exact hs
      | _ =>
        rw [hr] at hsame
        obtain rfl : p = s.pipe := hsame nofun
        exact { h with }
  rename_i data nonblock _
  have hsame : (∀ n, (writePass s.pipe data nonblock signal).1 ≠ .done n) → _ := writePass_pipe
  cases hw : writePass s.pipe data nonblock signal with
  | mk r p =>
    cases r with
    | done n =>
      obtain ⟨hok, hheld, hwhole⟩ := writePass_done h.pipe hw
      refine ⟨hok, ?_, ?_⟩
      · have hs := h.stream
        simp only [System.finish, map_append, map_cons, map_nil, flatten_append,
          flatten_cons, flatten_nil, append_nil, hheld, ← hs, append_assoc]
        rfl
      · intro w hw hlen
        rcases mem_append.1 hw with hw | hw
        · exact h.whole w hw hlen
        obtain rfl := mem_singleton.1 hw
        exact hwhole hlen
    | _ =>
      rw [hw] at hsame
      obtain rfl : p = s.pipe := hsame nofun
      exact { h with }

theorem System.Inv.step (h : s.Inv) (e : Event) : (s.step e).Inv := by
  cases e with
  | call k c =>
    simp only [System.step]
    split
    · exact h
    · exact { h with }
  | pass k signal => exact h.pass k signal
  | closeReader | closeWriter => exact ⟨{ h.pipe with }, h.stream, h.whole⟩

theorem System.Inv.run (h : s.Inv) (events : List Event) : (s.run events).Inv := by
  induction events generalizing s with
  | nil => exact h
  | cons e events ih => exact ih (h.step e)

theorem System.inv_init : System.Inv {} := ⟨⟨by decide, by decide, by decide⟩, rfl, nofun⟩

/-- **A pipe is a stream**: in every run, the bytes read so far are a prefix of the chunks taken so far, each write's
bytes in one chunk, and a write of at most `PIPE_BUF` bytes is taken whole if at all. -/
theorem pipe_stream (events : List Event) :
    (System.run {} events).reads.flatten <+: ((System.run {} events).writes.map Written.chunk).flatten ∧
      ∀ w ∈ (System.run {} events).writes, w.offered.length ≤ PIPE_BUF → w.chunk = w.offered := by
  have h := System.inv_init.run events
  refine ⟨⟨_, h.stream⟩, fun w hw hlen => ?_⟩
  rw [Written.chunk, h.whole w hw hlen, take_length]

example : (System.run {} [.call 0 (.write [1, 2, 3] false), .pass 0 false, .call 1 (.read 2 false), .pass 1 false]).reads =
    [[1, 2]] := by decide +kernel

/-- **End of file comes last**: in every run, a read with room that is not interrupted returns no bytes exactly
when no writer is left and all the bytes that writes put in were read. -/
theorem pipe_eof_iff (events : List Event) (room : Nat) (nonblock : Bool) :
    (readPass (System.run {} events).pipe (room + 1) nonblock false).1 = .done [] ↔
      (System.run {} events).pipe.writers = 0 ∧
        (System.run {} events).reads.flatten = ((System.run {} events).writes.map Written.chunk).flatten := by
  have h := System.inv_init.run events
  generalize System.run {} events = s at h ⊢
  have hempty : s.reads.flatten = (s.writes.map Written.chunk).flatten ↔ s.pipe.count = 0 := by
    rw [← h.stream, self_eq_append_right, ← length_eq_zero_iff, Pipe.held, Ring.length_read]
  rw [hempty]
  unfold readPass
  by_cases hc : s.pipe.count = 0
  · by_cases hw : s.pipe.writers = 0 <;> cases nonblock <;> simp [hc, hw]
  · -- a pipe that holds bytes gives some
    simp only [Bool.false_eq_true, if_false, hc, ne_eq, not_false_eq_true, if_true, and_false, iff_false]
    intro he
    have hlen := congrArg length (Pass.done.inj he)
    simp only [load, length_append, length_map, length_range, length_nil] at hlen
    split at hlen <;> omega

/-! ## Poll -/

def POLLIN : BitVec 16 := 0x0001
def POLLOUT : BitVec 16 := 0x0004
def POLLERR : BitVec 16 := 0x0008
def POLLHUP : BitVec 16 := 0x0010
def POLLNVAL : BitVec 16 := 0x0020

/-- The two nodes of a pipe. -/
inductive End
  | read
  | write

def pipePoll (p : Pipe) (node : Option End) (events : BitVec 16) : BitVec 16 :=
  match node with
  | none => POLLNVAL
  | some .read =>
    let revents := if events &&& POLLIN ≠ 0 ∧ p.count > 0 then POLLIN else 0
    if p.writers = 0 then
      let revents := revents ||| POLLHUP
      if p.count > 0 then revents ||| POLLIN else revents
    else revents
  | some .write =>
    if p.readers = 0 then POLLERR
    else if events &&& POLLOUT ≠ 0 ∧ PIPE_CAPACITY - p.count > 0 then POLLOUT
    else 0

/-- Asked for input, poll reports some exactly when a read that must not wait, and is not
interrupted, has an answer. -/
def ReadAgrees (p : Pipe) : Prop := ∀ events, events &&& POLLIN ≠ 0 → ∀ count, 1 ≤ count →
  (pipePoll p (some .read) events &&& (POLLIN ||| POLLHUP) ≠ 0 ↔ (readPass p count true false).1 ≠ .eagain)

/-- The same for output and the writes that are all or nothing. -/
def WriteAgrees (p : Pipe) : Prop := ∀ events, events &&& POLLOUT ≠ 0 →
  (pipePoll p (some .write) events &&& POLLOUT ≠ 0 ↔
    ∀ data : List UInt8, 1 ≤ data.length → data.length ≤ PIPE_BUF → (writePass p data true false).1 ≠ .eagain)

theorem readAgrees (p : Pipe) : ReadAgrees p := by
  intro events hin count _
  have hread : (readPass p count true false).1 ≠ .eagain ↔ p.count > 0 ∨ p.writers = 0 := by
    unfold readPass
    by_cases hc : p.count = 0 <;> by_cases hw : p.writers = 0 <;> simp [hc, hw, Nat.pos_iff_ne_zero]
  rw [hread]
  unfold pipePoll
  by_cases hc : p.count > 0 <;> by_cases hw : p.writers = 0 <;> simp only [ne_eq, hin, hc, hw] <;> decide

theorem pipePoll_write (p : Pipe) {events : BitVec 16} (hout : events &&& POLLOUT ≠ 0) :
    pipePoll p (some .write) events &&& POLLOUT ≠ 0 ↔ p.readers ≠ 0 ∧ PIPE_CAPACITY - p.count > 0 := by
  unfold pipePoll
  by_cases hr : p.readers = 0 <;> by_cases hc : PIPE_CAPACITY - p.count > 0 <;>
    simp only [ne_eq, hout, hr, hc] <;> decide

/-- The largest of the writes decides. -/
theorem writeAgrees_iff (hcount : p.count ≤ PIPE_CAPACITY) : WriteAgrees p ↔
    p.readers ≠ 0 ∧ (p.count = PIPE_CAPACITY ∨ p.count + PIPE_BUF ≤ PIPE_CAPACITY) := by
  have hbuf : 0 < PIPE_BUF := by decide
  have hall : (∀ data : List UInt8, 1 ≤ data.length → data.length ≤ PIPE_BUF →
      (writePass p data true false).1 ≠ .eagain) ↔ p.readers = 0 ∨ PIPE_BUF ≤ PIPE_CAPACITY - p.count := by
    have again (data : List UInt8) : (writePass p data true false).1 = .eagain ↔ p.readers ≠ 0 ∧
        ¬(PIPE_CAPACITY - p.count ≠ 0 ∧ (data.length > PIPE_BUF ∨ PIPE_CAPACITY - p.count ≥ data.length)) := by
      unfold writePass
      dsimp only
      split_ifs <;> simp_all
    simp only [ne_eq, again]
    constructor
    · intro h
      by_contra hno
      rw [not_or] at hno
      obtain ⟨data, hlen⟩ : ∃ data : List UInt8, data.length = PIPE_BUF := ⟨_, length_replicate (a := 0)⟩
      exact h data (by omega) (by omega) ⟨hno.1, by omega⟩
    · rintro (h | h) data h1 h2 ⟨hr, hno⟩
      · exact hr h
      · omega
  have hiff : WriteAgrees p ↔ (p.readers ≠ 0 ∧ PIPE_CAPACITY - p.count > 0 ↔
      p.readers = 0 ∨ PIPE_BUF ≤ PIPE_CAPACITY - p.count) := by
    refine ⟨fun h => ?_, fun h events hout => ?_⟩
    · rw [← hall, ← pipePoll_write p (by decide : POLLOUT &&& POLLOUT ≠ 0)]
      exact h POLLOUT (by decide)
    · rw [pipePoll_write p hout, hall]
      exact h
  rw [hiff]
  by_cases hr : p.readers = 0
  · simp [hr]
  · simp only [hr, ne_eq, not_false_eq_true, true_and, false_or]
    omega

/-- **Poll and the calls that must not wait agree** about reading in every state of a pipe. About writing they agree
exactly while the read end is open and the pipe is full or has room for the largest atomic write: poll reports any
room at all. -/
theorem pipe_poll_agrees_iff (events : List Event) : let p := (System.run {} events).pipe
    ReadAgrees p ∧ (WriteAgrees p ↔
      p.readers ≠ 0 ∧ (p.count = PIPE_CAPACITY ∨ p.count + PIPE_BUF ≤ PIPE_CAPACITY)) :=
  ⟨readAgrees _, writeAgrees_iff (System.inv_init.run events).pipe.count⟩

/-- With one byte of room, poll says a write would go through, and one of two bytes is told to come back. -/
theorem poll_ready_write_eagain : ∃ events, let p := (System.run {} events).pipe
    pipePoll p (some .write) POLLOUT = POLLOUT ∧ (writePass p [1, 2] true false).1 = .eagain := by
  obtain ⟨data, hlen⟩ : ∃ data : List UInt8, data.length = 65535 := ⟨replicate _ 0, length_replicate⟩
  have hne : data.isEmpty = false := by
    cases data with
    | nil => cases hlen
    | cons a as => rfl
  refine ⟨[.call 0 (.write data false), .pass 0 false], ?_⟩
  simp [System.run, System.step, Call.isEmpty, hne, writePass, hlen, System.finish, pipePublish, pipePoll,
    PIPE_CAPACITY, PIPE_BUF, POLLOUT]

end Fortress.Fs
