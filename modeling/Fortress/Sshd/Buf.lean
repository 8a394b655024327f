/-
The SSH daemon's byte buffer (sshbuf.c): bytes appended at `size`, read at
`off`, in storage that grows by doubling up to `maxSize`.

Consuming only moves `off`, and room is measured from `size`: what was read
stays in the way until `sshbufCompact` moves the rest down.

The storage comes from a pool that all buffers of the process share, so what
the pool answers is an input (`Grant`). `data` holds the bytes below `size`.
-/
import Fortress.Lib.Codec

namespace Fortress.Sshd

open Codec

/-- The bytes of an ASCII literal of the source. -/
def ascii (s : String) : Bytes := s.toList.map fun c => c.toNat.toUInt8

/-- The first `cap - 1` bytes, as a C string buffer of `cap` bytes keeps them. -/
def clip (cap : Nat) (bs : Bytes) : Bytes := bs.take (cap - 1)

/-- The `SSH_ERR_*` codes; success is `none` where a function returns only a code. -/
inductive SshErr
  | invalidArg
  | noMem
  | bufferTooSmall
  | invalidFormat
  | again
  | disconnect
  | protocolViolation
  deriving DecidableEq, Repr

structure SshBuf where
  data : Bytes
  alloc : Nat
  off : Nat
  maxSize : Nat
  readOnly : Bool
  dynamic : Bool
  deriving DecidableEq, Repr

/-- Whether the pool has a block of that many bytes when `ssh_alloc` or `ssh_realloc` asks for it. -/
abbrev Grant := Nat → Bool

def SSHBUF_MAX_ALLOC : Nat := 64 * 1024
def SSHBUF_DEFAULT_CAP : Nat := 4096

variable (b : SshBuf)

def SshBuf.size : Nat := b.data.length

def SshBuf.zero : SshBuf := ⟨[], 0, 0, 0, false, false⟩

def SshBuf.append (bs : Bytes) : SshBuf := { b with data := b.data ++ bs }

variable (g : Grant) (bs : Bytes)

def sshbufInit (initialAlloc maxSize : Nat) : Except SshErr SshBuf :=
  let maxSize := if maxSize = 0 then SSHBUF_MAX_ALLOC else maxSize
  let initialAlloc := if initialAlloc = 0 then SSHBUF_DEFAULT_CAP else initialAlloc
  let initialAlloc := if maxSize < initialAlloc then maxSize else initialAlloc
  if g initialAlloc then .ok ⟨[], initialAlloc, 0, maxSize, false, true⟩ else .error .noMem

def sshbufInitFixed (capacity : Nat) : Except SshErr SshBuf :=
  if capacity = 0 then .error .invalidArg else .ok ⟨[], capacity, 0, capacity, false, false⟩

def sshbufInitFrom (data : Bytes) : SshBuf := ⟨data, data.length, 0, data.length, true, false⟩

def sshbufReset : SshBuf := { b with data := [], off := 0 }

def sshbufLen : Nat := if b.size < b.off then 0 else b.size - b.off

/-- The bytes from `sshbuf_ptr` on. -/
def sshbufPtr : Bytes := b.data.drop b.off

def sshbufConsume (len : Nat) : Except SshErr SshBuf :=
  if sshbufLen b < len then .error .bufferTooSmall else .ok { b with off := b.off + len }

def sshbufCompact : Except SshErr SshBuf :=
  if b.readOnly then .error .invalidArg
  else if b.off = 0 then .ok b
  else .ok { b with data := b.data.drop b.off, off := 0 }

/-- The doubling loop of `sshbuf_reserve`; it doubles at most `fuel` times. -/
def growAlloc (maxSize target : Nat) : Nat → Nat → Nat
  | 0, n => n
  | fuel + 1, n =>
    if n < target then
      if maxSize / 2 < n then maxSize else growAlloc maxSize target fuel (n * 2)
    else n

/-- The storage `sshbuf_reserve` asks for when `target` bytes do not fit. -/
def newAlloc (target : Nat) : Nat :=
  growAlloc b.maxSize target target (if b.alloc = 0 then 1024 else b.alloc)

def sshbufReserve (b : SshBuf) (needed : Nat) : Except SshErr SshBuf :=
  if b.readOnly then .error .invalidArg
  else if b.maxSize < needed ∨ b.maxSize - needed < b.size then .error .bufferTooSmall
  else
    let target := b.size + needed
    if target ≤ b.alloc then .ok b
    else if b.dynamic = false then .error .bufferTooSmall
    else
      let newAlloc := newAlloc b target
      if newAlloc < target then .error .bufferTooSmall
      else if g newAlloc then .ok { b with alloc := newAlloc }
      else .error .noMem

/-! ## Writing -/

/-- A write to a buffer: its code, and the buffer as the call leaves it. -/
abbrev Put := SshBuf → Option SshErr × SshBuf

def sshbufPutBytes : Put := fun b =>
  match sshbufReserve g b bs.length with
  | .error e => (some e, b)
  | .ok b => (none, b.append bs)

def sshbufPutU8 (v : UInt8) : Put := sshbufPutBytes g [v]

def sshbufPutU32 (v : Nat) : Put := sshbufPutBytes g (be v 4)

def sshbufPutRaw : Put := fun b =>
  if bs.length = 0 then (none, b) else sshbufPutBytes g bs b

/-- Puts in turn, up to the first that fails. -/
def putSeq : List Put → Put
  | [], b => (none, b)
  | p :: ps, b =>
    match p b with
    | (some e, b) => (some e, b)
    | (none, b) => putSeq ps b

def sshbufPutString : Put := fun b =>
  if 2 ^ 32 - 1 < bs.length then (some .invalidArg, b)
  else putSeq [sshbufPutU32 g bs.length, sshbufPutRaw g bs] b

/-- A string as `sshbufPutString` writes it. -/
def sshString (s : Bytes) : Bytes := be s.length 4 ++ s

/-! ## Reading -/

def sshbufGetU8 : Except SshErr (UInt8 × SshBuf) :=
  if sshbufLen b < 1 then .error .bufferTooSmall
  else .ok ((sshbufPtr b).headD 0, { b with off := b.off + 1 })

def sshbufGetU32 : Except SshErr (Nat × SshBuf) :=
  if sshbufLen b < 4 then .error .bufferTooSmall
  else .ok (fromBe ((sshbufPtr b).take 4), { b with off := b.off + 4 })

def sshbufGetRaw (len : Nat) : Except SshErr (Bytes × SshBuf) :=
  if sshbufLen b < len then .error .bufferTooSmall
  else .ok ((sshbufPtr b).take len, { b with off := b.off + len })

def sshbufGetStringPtr : Except SshErr (Bytes × SshBuf) := do
  let (slen, b) ← sshbufGetU32 b
  if sshbufLen b < slen then .error .invalidFormat
  else .ok ((sshbufPtr b).take slen, { b with off := b.off + slen })

def sshbufPeekU8 : Except SshErr UInt8 :=
  if sshbufLen b < 1 then .error .bufferTooSmall else .ok ((sshbufPtr b).headD 0)

/-- The bytes still to be read. -/
structure Unread (b : SshBuf) (bs : Bytes) : Prop where
  off_le : b.off ≤ b.size
  rest : sshbufPtr b = bs

variable {b : SshBuf} {bs : Bytes} {m t : Nat}

theorem Unread.len (h : Unread b bs) : sshbufLen b = bs.length := by
  have hoff := h.off_le
  rw [sshbufLen, if_neg (by omega), ← h.rest, sshbufPtr, List.length_drop, SshBuf.size]

theorem Unread.skip {a : Bytes} {n : Nat} (h : Unread b (a ++ bs)) (hn : a.length = n) :
    Unread { b with off := b.off + n } bs := by
  have hlen := h.len
  have hoff := h.off_le
  rw [sshbufLen, if_neg (by omega), List.length_append] at hlen
  refine ⟨by show b.off + n ≤ b.size; omega, ?_⟩
  show b.data.drop (b.off + n) = bs
  rw [← List.drop_drop, show b.data.drop b.off = a ++ bs from h.rest, List.drop_left' hn]

theorem unread_initFrom (bs : Bytes) : Unread (sshbufInitFrom bs) bs := ⟨Nat.zero_le _, rfl⟩

theorem sshbufGetU32_be {v : Nat} (h : Unread b (be v 4 ++ bs)) (hv : v < 2 ^ 32) :
    ∃ b', sshbufGetU32 b = .ok (v, b') ∧ Unread b' bs := by
  refine ⟨_, ?_, h.skip (length_be v 4)⟩
  rw [sshbufGetU32, if_neg (by rw [h.len]; simp), h.rest, List.take_left' (length_be v 4),
    fromBe_be_of_lt (by omega)]

theorem sshbufGetStringPtr_be {t : Bytes} (h : Unread b (be t.length 4 ++ (t ++ bs)))
    (ht : t.length < 2 ^ 32) : ∃ b', sshbufGetStringPtr b = .ok (t, b') ∧ Unread b' bs := by
  obtain ⟨b1, h1, hb1⟩ := sshbufGetU32_be h ht
  refine ⟨_, ?_, hb1.skip rfl⟩
  simp only [sshbufGetStringPtr, h1, bind, Except.bind]
  rw [if_neg (by rw [hb1.len]; simp), hb1.rest, List.take_left' rfl]

/-! ## Room -/

theorem le_growAlloc (ht : t ≤ m) :
    ∀ {fuel n : Nat}, 0 < n → t ≤ n + fuel → t ≤ growAlloc m t fuel n
  | 0, n, _, h => by simpa [growAlloc] using h
  | fuel + 1, n, hn, h => by
    rw [growAlloc]
    by_cases hlt : n < t
    · rw [if_pos hlt]
      by_cases hm : m / 2 < n
      · rwa [if_pos hm]
      rw [if_neg hm]
      exact le_growAlloc ht (by omega) (by omega)
    · rw [if_neg hlt]
      omega

theorem growAlloc_le (ht : t ≤ m) :
    ∀ {fuel n : Nat}, n ≤ m → growAlloc m t fuel n ≤ m
  | 0, n, h => by simpa [growAlloc] using h
  | fuel + 1, n, h => by
    rw [growAlloc]
    by_cases hlt : n < t
    · rw [if_pos hlt]
      by_cases hm : m / 2 < n
      · rewrite [if_pos hm]
        exact Nat.le_refl _
      · rw [if_neg hm]
        exact growAlloc_le ht (by omega)
    · rwa [if_neg hlt]

theorem growAlloc_of_le {fuel n : Nat} (h : t ≤ n) : growAlloc m t fuel n = n := by
  cases fuel with
  | zero => rfl
  | succ => exact if_neg (Nat.not_lt.2 h)

/-- With enough rounds their number does not matter. -/
theorem growAlloc_fuel : ∀ {fuel k n : Nat}, 0 < n → t ≤ n + fuel → t ≤ n + k →
    growAlloc m t fuel n = growAlloc m t k n
  | 0, 0, n, _, _, _ => rfl
  | 0, k + 1, n, _, h, _ => by rw [growAlloc, growAlloc, if_neg (by omega)]
  | fuel + 1, 0, n, _, _, h => by rw [growAlloc, growAlloc, if_neg (by omega)]
  | fuel + 1, k + 1, n, hn, h, h' => by
    rw [growAlloc, growAlloc, growAlloc_fuel (k := k) (show 0 < n * 2 by omega) (by omega) (by omega)]

/-- Growing first to less comes to the storage that growing at once does. -/
theorem growAlloc_growAlloc {t' fuel' : Nat} (ht : t ≤ t') (ht' : t' ≤ m) : ∀ {fuel n : Nat}, 0 < n →
    t' ≤ n + fuel' → growAlloc m t' fuel' (growAlloc m t fuel n) = growAlloc m t' fuel' n
  | 0, n, _, _ => rfl
  | fuel + 1, n, hn, h => by
    rw [growAlloc]
    by_cases hlt : n < t
    · obtain ⟨k, rfl⟩ : ∃ k, fuel' = k + 1 := ⟨fuel' - 1, by omega⟩
      have hstop : growAlloc m t' (k + 1) m = m := if_neg (by omega)
      rw [if_pos hlt]
      conv => rhs; rw [growAlloc, if_pos (by omega)]
      by_cases hm : m / 2 < n
      · rw [if_pos hm, if_pos hm, hstop]
      · rw [if_neg hm, if_neg hm, growAlloc_growAlloc ht ht' (by omega) (by omega)]
        exact growAlloc_fuel (by omega) (by omega) (by omega)
    · rw [if_neg hlt]

/-- A buffer as `sshbuf_init` makes it and every write keeps it. -/
structure Growing (b : SshBuf) : Prop where
  writable : b.readOnly = false
  dynamic : b.dynamic = true
  pos : 0 < b.alloc
  le_max : b.alloc ≤ b.maxSize

/-- Whether `n` more bytes can be reserved: within the limit counted from `size`, and with
the pool's consent where the storage has to grow. -/
def Fits (g : Grant) (b : SshBuf) (n : Nat) : Prop :=
  b.size + n ≤ b.maxSize ∧ (b.alloc < b.size + n → g (newAlloc b (b.size + n)) = true)

instance (g : Grant) (b : SshBuf) (n : Nat) : Decidable (Fits g b n) := by
  unfold Fits; infer_instance

theorem le_newAlloc {t : Nat} (ht : t ≤ b.maxSize) : t ≤ newAlloc b t := by
  unfold newAlloc
  by_cases h0 : b.alloc = 0
  · rw [if_pos h0]
    exact le_growAlloc ht (by omega) (by omega)
  · rw [if_neg h0]
    exact le_growAlloc ht (by omega) (by omega)

variable {g : Grant}

/-- `n` more bytes can be reserved, in a buffer of any kind. -/
def Room (g : Grant) (b : SshBuf) (n : Nat) : Prop :=
  b.readOnly = false ∧ Fits g b n ∧ (b.alloc < b.size + n → b.dynamic = true)

/-- The buffer with storage for `n` more bytes. -/
def reserved (b : SshBuf) (n : Nat) : SshBuf :=
  { b with alloc := if b.size + n ≤ b.alloc then b.alloc else newAlloc b (b.size + n) }

/-- What `sshbuf_reserve` does to a buffer. -/
theorem sshbufReserve_cases (g : Grant) (b : SshBuf) (n : Nat) :
    Room g b n ∧ sshbufReserve g b n = .ok (reserved b n) ∨ ¬Room g b n ∧ ∃ e, sshbufReserve g b n = .error e := by
  unfold sshbufReserve
  by_cases hro : b.readOnly = true
  · rw [if_pos hro]
    exact .inr ⟨fun h => absurd hro (by simp [h.1]), _, rfl⟩
  rw [if_neg hro]
  by_cases hroom : b.maxSize < n ∨ b.maxSize - n < b.size
  · rw [if_pos hroom]
    exact .inr ⟨fun h => by have := h.2.1.1; omega, _, rfl⟩
  rw [if_neg hroom]
  have hw : b.readOnly = false := by simpa using hro
  have hle : b.size + n ≤ b.maxSize := by omega
  by_cases hfit : b.size + n ≤ b.alloc
  · rw [if_pos hfit]
    refine .inl ⟨⟨hw, ⟨hle, fun h => absurd hfit (by omega)⟩, fun h => absurd hfit (by omega)⟩, ?_⟩
    rw [reserved, if_pos hfit]
  rw [if_neg hfit]
  by_cases hdyn : b.dynamic = false
  · rw [if_pos hdyn]
    exact .inr ⟨fun h => absurd (h.2.2 (by omega)) (by simp [hdyn]), _, rfl⟩
  rw [if_neg hdyn]
  have hbig : b.size + n ≤ newAlloc b (b.size + n) := le_newAlloc hle
  simp only [if_neg (Nat.not_lt.2 hbig)]
  by_cases hg : g (newAlloc b (b.size + n)) = true
  · rw [if_pos hg, reserved, if_neg hfit]
    exact .inl ⟨⟨hw, ⟨hle, fun _ => hg⟩, fun _ => by simpa using hdyn⟩, rfl⟩
  · rw [if_neg hg]
    exact .inr ⟨fun h => hg (h.2.1.2 (by omega)), _, rfl⟩

theorem sshbufReserve_ok {b' : SshBuf} {n : Nat} (h : sshbufReserve g b n = .ok b') :
    b'.data = b.data ∧ b'.maxSize = b.maxSize ∧ b.size + n ≤ b.maxSize := by
  rcases sshbufReserve_cases g b n with ⟨hr, hx⟩ | ⟨-, _, hx⟩ <;> rw [hx] at h <;> cases h
  exact ⟨rfl, rfl, hr.2.1.1⟩

theorem newAlloc_reserved {n t : Nat} (hn : b.size + n ≤ t) (ht : t ≤ b.maxSize) :
    newAlloc (reserved b n) t = newAlloc b t := by
  unfold reserved
  split
  · rfl
  have hpos := le_newAlloc (Nat.le_trans hn ht)
  rw [newAlloc, if_neg (show ¬newAlloc b (b.size + n) = 0 by omega), newAlloc, newAlloc]
  exact growAlloc_growAlloc hn ht (by split <;> omega) (by omega)

/-- Room behind a write is room for both. -/
theorem room_append (h : Room g b bs.length) (n : Nat) :
    Room g ((reserved b bs.length).append bs) n ↔ Room g b (bs.length + n) := by
  obtain ⟨hw, ⟨hle, hgrant⟩, hdyn⟩ := h
  have hsize : ((reserved b bs.length).append bs).size + n = b.size + (bs.length + n) := by
    simp [SshBuf.size, SshBuf.append, reserved, Nat.add_assoc]
  unfold Room Fits
  rw [hsize]
  by_cases hfit : b.size + bs.length ≤ b.alloc
  · rw [show reserved b bs.length = b by rw [reserved, if_pos hfit]]
    exact Iff.rfl
  have halloc : (reserved b bs.length).alloc = newAlloc b (b.size + bs.length) := if_neg hfit
  have hpos := le_newAlloc hle
  have hnew : b.size + (bs.length + n) ≤ b.maxSize → newAlloc (reserved b bs.length) (b.size + (bs.length + n)) =
      newAlloc b (b.size + (bs.length + n)) := newAlloc_reserved (by omega)
  refine and_congr_right fun _ => ⟨?_, ?_⟩
  · rintro ⟨⟨hmax, hg⟩, -⟩
    refine ⟨⟨hmax, fun _ => ?_⟩, fun _ => hdyn (by omega)⟩
    rw [← hnew hmax]
    rcases Nat.lt_or_ge (reserved b bs.length).alloc (b.size + (bs.length + n)) with hlt | hge
    · exact hg hlt
    -- the storage that was reserved is enough for both
    rw [newAlloc, halloc, if_neg (by omega), growAlloc_of_le (halloc ▸ hge)]
    exact hgrant (by omega)
  · rintro ⟨⟨hmax, hg⟩, -⟩
    refine ⟨⟨hmax, fun _ => ?_⟩, fun _ => hdyn (by omega)⟩
    exact (congrArg g (hnew hmax)).trans (hg (by omega))

theorem sshbufPutRaw_cases (g : Grant) (b : SshBuf) (hbs : bs ≠ []) :
    Room g b bs.length ∧ sshbufPutRaw g bs b = (none, (reserved b bs.length).append bs) ∨
      ¬Room g b bs.length ∧ ∃ e, sshbufPutRaw g bs b = (some e, b) := by
  rw [sshbufPutRaw, if_neg (by simpa using hbs), sshbufPutBytes]
  rcases sshbufReserve_cases g b bs.length with ⟨hr, hx⟩ | ⟨hr, e, hx⟩ <;> rw [hx]
  · exact .inl ⟨hr, rfl⟩
  · exact .inr ⟨hr, e, rfl⟩
theorem Growing.room (hb : Growing b) {n : Nat} : Room g b n ↔ Fits g b n :=
  ⟨fun h => h.2.1, fun h => ⟨hb.writable, h, fun _ => hb.dynamic⟩⟩

theorem Growing.reserved (hb : Growing b) {n : Nat} (hf : Fits g b n) :
    Growing (reserved b n) ∧ b.alloc ≤ (reserved b n).alloc := by
  have hpos := hb.pos
  have hle := le_newAlloc hf.1
  have hnew : newAlloc b (b.size + n) ≤ b.maxSize := by
    unfold newAlloc
    rw [if_neg (by omega)]
    exact growAlloc_le hf.1 hb.le_max
  have hmax := hb.le_max
  unfold Sshd.reserved
  exact ⟨⟨hb.writable, hb.dynamic, by grind, by grind⟩, by grind⟩

/-- What `sshbuf_reserve` does to a growing buffer: it succeeds exactly when the bytes fit. -/
theorem sshbufReserve_growing (hb : Growing b) (n : Nat) :
    (Fits g b n ∧ ∃ b', sshbufReserve g b n = .ok b' ∧ Growing b' ∧ b'.data = b.data ∧ b'.off = b.off ∧
      b'.maxSize = b.maxSize ∧ b.alloc ≤ b'.alloc) ∨
    (¬Fits g b n ∧ ∃ e, sshbufReserve g b n = .error e) := by
  rcases sshbufReserve_cases g b n with ⟨hr, hx⟩ | ⟨hr, hx⟩ <;> rw [hb.room] at hr
  · obtain ⟨hg, ha⟩ := hb.reserved hr
    exact .inl ⟨hr, _, hx, hg, rfl, rfl, rfl, ha⟩
  · exact .inr ⟨hr, hx⟩

theorem sshbufPutBytes_growing (hb : Growing b) (bs : Bytes) :
    (Fits g b bs.length ∧ ∃ b', sshbufPutBytes g bs b = (none, b') ∧ Growing b' ∧ b'.data = b.data ++ bs ∧
      b'.off = b.off ∧ b'.maxSize = b.maxSize ∧ b.alloc ≤ b'.alloc) ∨
    (¬Fits g b bs.length ∧ ∃ e, sshbufPutBytes g bs b = (some e, b)) := by
  unfold sshbufPutBytes
  rcases sshbufReserve_growing hb bs.length with ⟨hf, b', hr, hg, hd, ho, hm, ha⟩ | ⟨hf, e, hr⟩
  · rw [hr]
    exact .inl ⟨hf, b'.append bs, rfl, { hg with },
      by rw [← hd]; rfl, ho, hm, ha⟩
  · rw [hr]
    exact .inr ⟨hf, e, rfl⟩

section
variable {R : SshBuf → SshBuf → Prop} (hrefl : ∀ b, R b b) (htrans : ∀ a b c, R a b → R b c → R a c)
include hrefl htrans

/-- What every write of a sequence keeps about the buffer, the sequence keeps. -/
theorem putSeq_rel : ∀ {ps : List Put}, (∀ p ∈ ps, ∀ b, R b (p b).2) → ∀ b, R b (putSeq ps b).2
  | [], _, b => hrefl b
  | p :: ps, h, b => by
    have hone := h p (.head _) b
    rw [putSeq]
    cases hp : p b with
    | mk e b' =>
      rw [hp] at hone
      cases e with
      | some e => exact hone
      | none => exact htrans _ _ _ hone (putSeq_rel (fun q hq => h q (.tail _ hq)) b')

theorem putString_rel (hput : ∀ bs b, R b (sshbufPutBytes g bs b).2) (bs : Bytes) (b : SshBuf) :
    R b (sshbufPutString g bs b).2 := by
  unfold sshbufPutString
  split
  · exact hrefl b
  refine putSeq_rel hrefl htrans (fun p hp => ?_) b
  simp only [List.mem_cons, List.not_mem_nil, or_false] at hp
  rcases hp with rfl | rfl
  · exact hput _
  intro b
  unfold sshbufPutRaw
  split
  · exact hrefl b
  · exact hput bs b

end

/-- Writes that keep a growing buffer growing, and never give storage back. -/
def Grows (p : Put) : Prop :=
  ∀ b, Growing b → Growing (p b).2 ∧ b.alloc ≤ (p b).2.alloc

theorem grows_putBytes (g : Grant) (bs : Bytes) : Grows (sshbufPutBytes g bs) := by
  intro b hb
  rcases sshbufPutBytes_growing hb bs with ⟨_, b', h, hg, _, _, _, ha⟩ | ⟨_, e, h⟩
  · rw [h]; exact ⟨hg, ha⟩
  · rw [h]; exact ⟨hb, Nat.le_refl _⟩

theorem grows_trans (a b c : SshBuf) (h : Growing a → Growing b ∧ a.alloc ≤ b.alloc)
    (h' : Growing b → Growing c ∧ b.alloc ≤ c.alloc) (ha : Growing a) : Growing c ∧ a.alloc ≤ c.alloc :=
  ⟨(h' (h ha).1).1, Nat.le_trans (h ha).2 (h' (h ha).1).2⟩

theorem grows_putSeq {ps : List Put} (h : ∀ p ∈ ps, Grows p) : Grows (putSeq ps) :=
  putSeq_rel (fun _ hb => ⟨hb, Nat.le_refl _⟩) grows_trans h

theorem grows_putString (g : Grant) (bs : Bytes) : Grows (sshbufPutString g bs) :=
  putString_rel (fun _ hb => ⟨hb, Nat.le_refl _⟩) grows_trans (grows_putBytes g) bs

theorem sshbufPutBytes_room (hb : Growing b)
    (h : b.size + bs.length ≤ b.alloc) : sshbufPutBytes g bs b = (none, b.append bs) := by
  have hmax := hb.le_max
  unfold sshbufPutBytes sshbufReserve
  rw [if_neg (by simp [hb.writable]), if_neg (by omega)]
  simp only [if_pos h]

theorem putSeq_room : ∀ {f : List Bytes} {b : SshBuf}, Growing b →
    b.size + f.flatten.length ≤ b.alloc → putSeq (f.map (sshbufPutBytes g)) b = (none, b.append f.flatten)
  | [], b, _, _ => by simp [putSeq, SshBuf.append]
  | x :: f, b, hb, h => by
    rw [List.flatten_cons, List.length_append] at h
    have happ : Growing (b.append x) := { hb with }
    have hsize : (b.append x).size = b.size + x.length := List.length_append
    rw [List.map_cons, putSeq, sshbufPutBytes_room hb (by omega)]
    dsimp only
    rw [putSeq_room happ (by rw [hsize]; show _ ≤ b.alloc; omega)]
    simp [SshBuf.append]

end Fortress.Sshd
