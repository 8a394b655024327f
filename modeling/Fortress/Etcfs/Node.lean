/-
What an etcfs node holds, and what the calls do to it. A buffer holds the file
in its first bytes; behind them it may hold anything, since a file that shrinks
keeps its buffer as it is.
-/
import Fortress.Etcfs.File

namespace Fortress.Etcfs

open Codec ByteFile List

/-- Every read of the node gives the file. -/
def Node.Reads (n : Node) (f : Bytes) : Prop := ∀ off len, etcReadFile n off len = some (slice f off len)

/-! ## What a node holds -/

/-- The node holds `f`. -/
structure Rep (n : Node) (f : Bytes) : Prop where
  size : n.size = f.length
  buffered : ∀ b, n.buffer = some b → b.length = n.capacity ∧ b.take f.length = f
  unbuffered : n.buffer = none → n.capacity = 0 ∧ (n.data = .null ∧ f = [] ∨ n.data = .archive f ∧ f.length < 2 ^ 63)

attribute [local simp] Node.buffer

variable {f b : Bytes} {n : Node}

theorem Rep.size_le (h : Rep n f) (hb : n.buffer = some b) : f.length ≤ b.length := by
  have := congrArg length (h.buffered b hb).2
  rw [length_take] at this
  omega

theorem slice_readLen (f : Bytes) (off len : Nat) : slice f off (readLen f.length off len) = slice f off len := by
  unfold readLen
  split
  · simp [slice, drop_eq_nil_of_le, *]
  split
  · rw [slice, slice, take_of_length_le (by simp), take_of_length_le (by simp; omega)]
  · rfl

variable {off : Nat}

theorem Rep.copyFrom (h : Rep n f) {len : Nat} (hl : off + len ≤ f.length) :
    n.copyFrom off len = some (slice f off len) := by
  unfold Node.copyFrom
  cases hb : n.buffer with
  | some b =>
    have hlen := h.size_le hb
    have htake := (h.buffered b hb).2
    simp only
    rw [if_pos (by omega)]
    conv_rhs => rw [← htake]
    rw [slice, slice, drop_take, take_take, Nat.min_eq_left (by omega)]
  | none =>
    rcases (h.unbuffered hb).2 with ⟨hd, rfl⟩ | ⟨hd, -⟩
    · obtain ⟨rfl, rfl⟩ : off = 0 ∧ len = 0 := by simpa using hl
      simp [hd, slice, zeros]
    · simp only [hd]
      rw [if_pos hl]

theorem Rep.reads (h : Rep n f) : n.Reads f := by
  intro off len
  have hle : readLen f.length off len ≤ f.length - off := by
    unfold readLen
    split_ifs <;> omega
  unfold etcReadFile
  rw [h.size, ← slice_readLen f off len]
  split
  · exact h.copyFrom (by omega)
  rename_i h0
  rw [not_not.1 h0]
  simp [slice]

theorem Node.Reads.buffered (h : n.Reads f) (hs : n.size = f.length) (hb : n.buffer = some b) :
    f.length ≤ b.length ∧ b.take f.length = f := by
  have hall := h 0 f.length
  have hlen : readLen n.size 0 f.length = f.length := by
    unfold readLen
    split_ifs <;> omega
  unfold etcReadFile Node.copyFrom at hall
  rw [hlen, hb] at hall
  by_cases h0 : f.length = 0
  · rw [length_eq_zero_iff] at h0
    simp [h0]
  simp only [ne_eq, h0, not_false_eq_true, if_true, Nat.zero_add] at hall
  split at hall
  · rename_i hle
    refine ⟨hle, ?_⟩
    simpa [slice] using hall
  · cases hall

/-! ## Making room -/

theorem Rep.freshBuffer (h : Rep n f) (cap : Nat) :
    n.freshBuffer cap = some (overwrite (zeros cap) 0 (f.take cap)) := by
  unfold Node.freshBuffer
  rw [h.size]
  split
  · simp only
    rw [h.copyFrom (by split <;> omega), Option.map_some, slice, drop_zero]
    congr 2
    split
    · rw [take_of_length_le (Nat.le_refl _), take_of_length_le (by omega)]
    · rfl
  · rename_i h0
    rw [length_eq_zero_iff.1 (Nat.eq_zero_of_not_pos h0)]
    simp [overwrite]

/-- What a request for room can do to a node that holds `f`. -/
inductive Ensured (q : Quota) (n : Node) (f : Bytes) (needed : Nat) : Option Errno → Quota → Node → Prop
  | refused {e : Errno} {q' : Quota} {n' : Node} (rep : Rep n' f) (capacity : n'.capacity = n.capacity)
      (allocated : q'.allocated = q.allocated) : Ensured q n f needed (some e) q' n'
  | kept {b : Bytes} (buffer : n.buffer = some b) (room : needed ≤ b.length) : Ensured q n f needed none q n
  | grown {q' : Quota} {n' : Node} (small : ∀ b, n.buffer = some b → b.length < needed)
      (buffer : n'.buffer = some (overwrite (zeros (newCap needed)) 0 (f.take (newCap needed))))
      (capacity : n'.capacity = newCap needed) (size : n'.size = n.size) (fits : newCap needed ≤ Mm.requestMax)
      (allocated : q'.allocated = add64 q.allocated (sub64 (newCap needed) n.capacity))
      (bound : q'.allocated ≤ ETCFS_MAX_BYTES) : Ensured q n f needed none q' n'

theorem Quota.kmalloc_allocated (q : Quota) (size : Nat) : (q.kmalloc size).2.allocated = q.allocated := by
  unfold kmalloc
  split <;> rfl

variable {q q' : Quota} {needed : Nat} {e : Entry}

theorem Quota.kmalloc_iff (q : Quota) {size : Nat} (hsize : 0 < size) :
    (q.kmalloc size).1 = true ↔ q.heap.head? = some true ∧ size ≤ Mm.requestMax := by
  unfold kmalloc
  split <;> simp [*]

theorem newCap_pos (needed : Nat) : 0 < newCap needed := by
  unfold newCap
  dsimp only
  split <;> omega

theorem etcEnsureEntry_some (h : etcEnsureEntry q n = (some e, q')) :
    q'.allocated = q.allocated ∧ n.buffer = e.buffer ∧ n.capacity = e.capacity ∧
      (∀ b, n.buffer = some b → q' = q ∧ n.entry = some e) := by
  unfold etcEnsureEntry at h
  cases he : n.entry with
  | some e' =>
    rw [he] at h
    cases h
    simp [Node.capacity, he]
  | none =>
    rw [he] at h
    simp only at h
    split at h
    · cases h
      simp [Node.capacity, he, q.kmalloc_allocated entrySize]
    · cases h

theorem etcEnsureEntry_none (h : etcEnsureEntry q n = (none, q')) : q'.allocated = q.allocated := by
  unfold etcEnsureEntry at h
  cases he : n.entry with
  | some e' =>
    rw [he] at h
    cases h
  | none =>
    rw [he] at h
    simp only at h
    split at h
    · cases h
    cases h
    exact q.kmalloc_allocated entrySize

theorem Rep.withEntry (h : Rep n f) (hb : n.buffer = e.buffer)
    (hc : n.capacity = e.capacity) : Rep { n with entry := some e } f :=
  ⟨h.size, fun b hbuf => by have := h.buffered b (hb.trans hbuf); rwa [hc] at this,
    fun hbuf => by have := h.unbuffered (hb.trans hbuf); rwa [hc] at this⟩

theorem etcEnsureCapacityLocked_cases (h : Rep n f) (q : Quota) (needed : Nat) :
    ∃ r q' n', etcEnsureCapacityLocked q n needed = some (r, q', n') ∧ Ensured q n f needed r q' n' := by
  unfold etcEnsureCapacityLocked
  split
  · exact ⟨_, _, _, rfl, .refused h rfl rfl⟩
  cases hentry : etcEnsureEntry q n with
  | mk e q1 =>
    cases e with
    | none => exact ⟨_, _, _, rfl, .refused h rfl (etcEnsureEntry_none hentry)⟩
    | some e =>
      obtain ⟨hall, hbuf, hcap, hsame⟩ := etcEnsureEntry_some hentry
      have hrep := h.withEntry hbuf hcap
      simp only
      split
      · rename_i hroom
        obtain ⟨b, hb⟩ := Option.isSome_iff_exists.1 hroom.2
        obtain ⟨rfl, hn⟩ := hsame b (hbuf.trans hb)
        have hself : { n with entry := some e } = n := by rw [← hn]
        rw [hself]
        refine ⟨_, _, _, rfl, .kept (hbuf.trans hb) ?_⟩
        rw [(h.buffered b (hbuf.trans hb)).1, hcap]
        exact hroom.1
      rename_i hroom
      split
      · exact ⟨_, _, _, rfl, .refused hrep hcap.symm hall⟩
      rename_i hquota
      cases hk : q1.kmalloc (newCap needed) with
      | mk ok q2 =>
        have hq2 := q1.kmalloc_allocated (newCap needed)
        rw [hk] at hq2
        cases ok with
        | false => exact ⟨_, _, _, rfl, .refused hrep hcap.symm (hq2.trans hall)⟩
        | true =>
          simp only [hrep.freshBuffer]
          refine ⟨_, _, _, rfl, .grown ?_ rfl rfl rfl ((q1.kmalloc_iff (newCap_pos needed)).1 (by rw [hk])).2 ?_ ?_⟩
          · intro b hb
            have hlen := (h.buffered b hb).1
            rw [hbuf] at hb
            rw [hlen, hcap]
            by_contra hle
            exact hroom ⟨Nat.le_of_not_lt hle, by rw [hb]; rfl⟩
          · show add64 q2.allocated _ = _
            rw [hq2, hall, hcap]
          · show add64 q2.allocated _ ≤ _
            rw [hq2]
            exact Nat.le_of_not_lt hquota

/-- The request for `needed` bytes is met: the file is not protected and has an entry or gets one, and its buffer is
large enough, or the heap has one that is within the quota. -/
def Granted (q : Quota) (n : Node) (needed : Nat) : Prop :=
  n.isProtected = false ∧ ∃ heap, q.heap = (if n.entry.isSome then heap else true :: heap) ∧
    (needed ≤ n.capacity ∧ n.buffer.isSome ∨ heap.head? = some true ∧ newCap needed ≤ Mm.requestMax ∧
      add64 q.allocated (sub64 (newCap needed) n.capacity) ≤ ETCFS_MAX_BYTES)

theorem etcEnsureEntry_heap (q : Quota) (n : Node) (heap : List Bool) :
    q.heap = (if n.entry.isSome then heap else true :: heap) ↔
      (etcEnsureEntry q n).1.isSome ∧ (etcEnsureEntry q n).2.heap = heap := by
  have hfits : decide (0 < entrySize) = true ∧ decide (entrySize ≤ Mm.requestMax) = true := by decide
  unfold etcEnsureEntry Quota.kmalloc
  cases n.entry with
  | some e => simp
  | none => rcases q.heap with _ | ⟨_ | _, rest⟩ <;> simp [hfits]

theorem granted_iff (h : Rep n f) :
    Granted q n needed ↔ ∃ q' n', etcEnsureCapacityLocked q n needed = some (none, q', n') := by
  unfold Granted etcEnsureCapacityLocked
  simp only [etcEnsureEntry_heap]
  cases hp : n.isProtected with
  | true => simp
  | false =>
    rcases hentry : etcEnsureEntry q n with ⟨_ | e, q1⟩
    · simp
    obtain ⟨hall, hbuf, hcap, -⟩ := etcEnsureEntry_some hentry
    have hk := q1.kmalloc_iff (newCap_pos needed)
    simp only [hbuf, hcap, ← hall, Option.isSome_some, true_and, exists_eq_left']
    by_cases hroom : needed ≤ e.capacity ∧ e.buffer.isSome
    · simp [hroom]
    by_cases hquota : add64 q1.allocated (sub64 (newCap needed) e.capacity) > ETCFS_MAX_BYTES
    · simp [hroom, hquota, Nat.not_le.2 hquota]
    rw [if_neg hroom, if_neg hquota, or_iff_right hroom, ← and_assoc, ← hk, and_iff_left (Nat.not_lt.1 hquota)]
    rcases q1.kmalloc (newCap needed) with ⟨_ | _, q2⟩ <;> simp [(h.withEntry hbuf hcap).freshBuffer]

theorem requestMax_lt : Mm.requestMax < 2 ^ 63 := by decide

theorem le_newCap (h : needed ≤ 2 ^ 64 - 256) : needed ≤ newCap needed := by
  unfold newCap add64
  rw [Nat.mod_eq_of_lt (by omega)]
  simp only
  split <;> omega

theorem grown_quota (h : Rep n f)
    (hq : n.capacity ≤ q.allocated) (hbound : q.allocated ≤ ETCFS_MAX_BYTES) (hneed : needed ≤ 2 ^ 64 - 256)
    (small : ∀ b, n.buffer = some b → b.length < needed) (fits : newCap needed ≤ Mm.requestMax)
    (allocated : q'.allocated = add64 q.allocated (sub64 (newCap needed) n.capacity)) :
    q'.allocated + n.capacity = q.allocated + newCap needed := by
  have hle := le_newCap hneed
  have hmax := requestMax_lt
  have hcap : n.capacity ≤ newCap needed := by
    cases hb : n.buffer with
    | none => simp [(h.unbuffered hb).1]
    | some b =>
      have := small b hb
      rw [(h.buffered b hb).1] at this
      omega
  unfold ETCFS_MAX_BYTES at hbound
  rw [allocated, add64, sub64, show newCap needed + 2 ^ 64 - n.capacity = newCap needed - n.capacity + 2 ^ 64 by omega,
    Nat.add_mod_right, Nat.mod_eq_of_lt (show newCap needed - n.capacity < 2 ^ 64 by omega),
    Nat.mod_eq_of_lt (by omega)]
  omega

theorem Rep.size_lt (h : Rep n f) (hcap : n.capacity ≤ ETCFS_MAX_BYTES) : n.size < 2 ^ 63 := by
  rw [h.size]
  unfold ETCFS_MAX_BYTES at hcap
  cases hb : n.buffer with
  | some b =>
    have := h.size_le hb
    rw [(h.buffered b hb).1] at this
    omega
  | none =>
    rcases (h.unbuffered hb).2 with ⟨-, rfl⟩ | ⟨-, hlt⟩
    · simp
    · exact hlt

variable {cap : Nat}

theorem getElem?_fresh (f : Bytes) {k : Nat} (hk : k < cap) :
    (overwrite (zeros cap) 0 (f.take cap))[k]? = if k < f.length then f[k]? else some 0 := by
  rw [getElem?_overwrite, Nat.sub_zero, Nat.zero_add, length_take]
  by_cases hf : k < f.length
  · rw [if_pos (by omega), if_pos hf, getElem?_take, if_pos hk]
  · rw [if_neg (by omega), if_neg (by omega), getElem?_zeros, if_pos hk, if_neg hf]

theorem fresh_take_resize {size : Nat} (h : size ≤ cap) :
    (overwrite (zeros cap) 0 (f.take cap)).take size = resize f size := by
  refine ext_getElem? fun k => ?_
  rw [getElem?_take, getElem?_resize]
  by_cases hk : k < size
  · rw [if_pos hk, if_pos hk, getElem?_fresh f (by omega)]
  · rw [if_neg hk, if_neg hk]

theorem fresh_take (h : f.length ≤ cap) : (overwrite (zeros cap) 0 (f.take cap)).take f.length = f := by
  rw [fresh_take_resize h, resize, take_length, Nat.sub_self]
  exact append_nil f

theorem fresh_gapClear (f : Bytes) (hoff : off ≤ cap) :
    GapClear (overwrite (zeros cap) 0 (f.take cap)) f.length off := by
  intro k hk hko
  rw [getElem?_fresh f (by omega), if_neg (by omega)]

theorem length_fresh (f : Bytes) (cap : Nat) : (overwrite (zeros cap) 0 (f.take cap)).length = cap := by
  rw [length_overwrite, length_zeros, length_take]
  omega

/-! ## The calls -/

/-- A call on a node is done: it holds `f'` and the quota moved with its capacity. -/
structure Done (q : Quota) (n : Node) (f' : Bytes) (q' : Quota) (n' : Node) : Prop where
  rep : Rep n' f'
  quota : q'.allocated + n.capacity = q.allocated + n'.capacity
  bound : q'.allocated ≤ ETCFS_MAX_BYTES

theorem copyTo_some {n' : Node} {bytes : Bytes} (h : n.copyTo off bytes = some n') :
    ∃ b, n.buffer = some b ∧ off + bytes.length ≤ b.length ∧ n'.buffer = some (overwrite b off bytes) ∧
      n'.capacity = n.capacity ∧ n'.size = n.size := by
  unfold Node.copyTo at h
  split at h
  · rename_i b c r hentry
    split at h
    · rename_i hin
      cases h
      exact ⟨b, by simp [hentry], hin, rfl, by simp [Node.capacity, hentry], rfl⟩
    · cases h
  · cases h

theorem copyTo_inside (hb : n.buffer = some b) {bytes : Bytes}
    (h : off + bytes.length ≤ b.length) : ∃ n', n.copyTo off bytes = some n' := by
  cases he : n.entry with
  | none => simp [he] at hb
  | some e =>
    obtain ⟨buf, c, r⟩ := e
    have hbuf : buf = some b := by simpa [he] using hb
    subst hbuf
    exact ⟨_, by simp only [Node.copyTo, he]; rw [if_pos h]⟩

/-- A write that is let through does not wrap, finds the gap before it zero in a buffer it can stay in, and gets a
first buffer that is large enough for the archived file. -/
def WriteClear (q : Quota) (n : Node) (off len : Nat) : Prop :=
  Granted q n (add64 off len) → off + len ≤ 2 ^ 64 - 256 ∧
    match n.buffer with
    | some b => off + len ≤ b.length → GapClear b n.size off
    | none => n.size ≤ newCap (off + len)

section Put

variable {q : Quota} {n : Node} {f bytes b : Bytes} {off : Nat} (mode : Nat)

/-- The buffer a granted write goes to, and what the file is then. -/
theorem etcPut_granted {n1 : Node} {q1 : Quota}
    (he : etcEnsureCapacityLocked q n (add64 off bytes.length) = some (none, q1, n1)) (hb : n1.buffer = some b)
    (hin : off + bytes.length ≤ b.length) :
    ∃ n', etcPut q n off bytes mode = some (.ok (bytes.length, off + bytes.length), q1, n') ∧
      n'.buffer = some (overwrite b off bytes) ∧ n'.capacity = n1.capacity ∧
      n'.size = max n1.size (off + bytes.length) := by
  obtain ⟨n2, hcopy⟩ := copyTo_inside hb hin
  obtain ⟨b', hb', -, hbuf, hcap, hsize⟩ := copyTo_some hcopy
  cases hb.symm.trans hb'
  refine ⟨{ n2 with size := if off + bytes.length > n2.size then off + bytes.length else n2.size, mode := mode },
    by simp only [etcPut, he, hcopy], hbuf, hcap, ?_⟩
  simp only [hsize]
  split <;> omega

theorem etcPut_outside {n1 : Node} {q1 : Quota}
    (he : etcEnsureCapacityLocked q n (add64 off bytes.length) = some (none, q1, n1)) (hb : n1.buffer = some b)
    (hout : b.length < off + bytes.length) : etcPut q n off bytes mode = none := by
  simp only [etcPut, he]
  cases hcopy : n1.copyTo off bytes with
  | none => rfl
  | some n2 =>
    obtain ⟨b', hb', hin, -⟩ := copyTo_some hcopy
    cases hb.symm.trans hb'
    omega

/-- The node after a write that fits: it holds the written file just when the write left no stale gap. -/
theorem rep_overwrite {n' : Node} (hbytes : bytes ≠ []) (hf : b.take f.length = f)
    (hbuf : n'.buffer = some (overwrite b off bytes)) (hin : off + bytes.length ≤ b.length)
    (hcap : n'.capacity = b.length) (hsize : n'.size = max f.length (off + bytes.length))
    (hgap : GapClear b f.length off) : Rep n' (overwrite f off bytes) := by
  refine ⟨hsize.trans (length_overwrite f off bytes).symm, ?_, ?_⟩
  · intro b' hb'
    cases hbuf.symm.trans hb'
    exact ⟨by rw [length_overwrite_of_le hin, hcap], (take_overwrite_iff hf hin hbytes).2 hgap⟩
  · intro hnone
    rw [hbuf] at hnone
    cases hnone

theorem etcPut_clear (h : Rep n f) (hq : n.capacity ≤ q.allocated) (hbound : q.allocated ≤ ETCFS_MAX_BYTES)
    (hbytes : bytes ≠ []) (hclear : WriteClear q n off bytes.length) :
    ∃ r q' n', etcPut q n off bytes mode = some (r, q', n') ∧
      Done q n (if r.isOk then overwrite f off bytes else f) q' n' := by
  obtain ⟨r, q1, n1, he, hens⟩ := etcEnsureCapacityLocked_cases h q (add64 off bytes.length)
  cases hens with
  | @refused e _ _ hrep hcap hall =>
    refine ⟨.error e, q1, n1, by simp only [etcPut, he], hrep, ?_, hall ▸ hbound⟩
    rw [hall, hcap]
  | @kept b hb hroom =>
    obtain ⟨hwrap, hgap⟩ := hclear ((granted_iff h).2 ⟨_, _, he⟩)
    simp only [hb] at hgap
    have hneed : add64 off bytes.length = off + bytes.length := Nat.mod_eq_of_lt (by omega)
    rw [hneed] at hroom
    obtain ⟨n', hput, hbuf, hcap, hsize⟩ := etcPut_granted mode he hb hroom
    obtain ⟨hlen, htake⟩ := h.buffered b hb
    refine ⟨_, _, n', hput, ?_, by rw [hcap], hbound⟩
    refine rep_overwrite hbytes htake hbuf hroom (by rw [hcap, hlen]) (by rw [hsize, h.size]) ?_
    rw [← h.size]
    exact hgap hroom
  | grown small hb hcap1 hsize1 fits hall hbound' =>
    obtain ⟨hwrap, hgap⟩ := hclear ((granted_iff h).2 ⟨_, _, he⟩)
    have hneed : add64 off bytes.length = off + bytes.length := Nat.mod_eq_of_lt (by omega)
    rw [hneed] at small hb hcap1 fits hall
    have hle := le_newCap hwrap
    -- the file fits in the new buffer: it fitted in the old one, or the condition says so
    have hfile : f.length ≤ newCap (off + bytes.length) := by
      cases hold : n.buffer with
      | none =>
        simp only [hold] at hgap
        rwa [h.size] at hgap
      | some b =>
        have := h.size_le hold
        have := small b hold
        omega
    have hlen := length_fresh f (newCap (off + bytes.length))
    obtain ⟨n', hput, hbuf, hcap, hsize⟩ := etcPut_granted mode he hb (by omega)
    refine ⟨_, _, n', hput, ?_, ?_, hbound'⟩
    · exact rep_overwrite hbytes (fresh_take hfile) hbuf (by omega) (by rw [hcap, hcap1, hlen])
        (by rw [hsize, hsize1, h.size]) (fresh_gapClear f (by omega))
    · rw [hcap, hcap1]
      exact grown_quota h hq hbound hwrap small fits hall

/-- Otherwise the write leaves its buffer, or a read afterwards does or sees stale bytes. -/
theorem etcPut_unclear (h : Rep n f) (hcapmax : n.capacity ≤ ETCFS_MAX_BYTES) (hbytes : bytes ≠ [])
    (hclear : ¬WriteClear q n off bytes.length) {r : Except Errno (Nat × Nat)} {q' : Quota} {n' : Node}
    (hput : etcPut q n off bytes mode = some (r, q', n')) : r.isOk = true ∧ ¬n'.Reads (overwrite f off bytes) := by
  have hmax := requestMax_lt
  unfold ETCFS_MAX_BYTES at hcapmax
  simp only [WriteClear, not_forall] at hclear
  obtain ⟨hgranted, hbad⟩ := hclear
  obtain ⟨q1, n1, he⟩ := (granted_iff h).1 hgranted
  obtain ⟨r', q2, n2, he', hens⟩ := etcEnsureCapacityLocked_cases h q (add64 off bytes.length)
  cases he.symm.trans he'
  cases hens with
  | @kept b hb hroom =>
    obtain ⟨hlen, htake⟩ := h.buffered b hb
    rcases Nat.lt_or_ge b.length (off + bytes.length) with hout | hin
    · rw [etcPut_outside mode he hb hout] at hput
      cases hput
    obtain ⟨n3, hput', hbuf, -, hsize⟩ := etcPut_granted mode he hb hin
    cases hput.symm.trans hput'
    refine ⟨rfl, fun hreads => hbad ⟨by omega, ?_⟩⟩
    simp only [hb]
    intro _
    have hsee := hreads.buffered (by rw [hsize, h.size, length_overwrite]) hbuf
    rw [h.size]
    exact (take_overwrite_iff htake hin hbytes).1 hsee.2
  | grown small hb hcap1 hsize1 fits hall hbound' =>
    have hlen := length_fresh f (newCap (add64 off bytes.length))
    rcases Nat.lt_or_ge (newCap (add64 off bytes.length)) (off + bytes.length) with hout | hin
    · rw [etcPut_outside mode he hb (by omega)] at hput
      cases hput
    obtain ⟨n3, hput', hbuf, -, hsize⟩ := etcPut_granted mode he hb (by omega)
    cases hput.symm.trans hput'
    refine ⟨rfl, fun hreads => hbad ⟨by omega, ?_⟩⟩
    have hneed : add64 off bytes.length = off + bytes.length := Nat.mod_eq_of_lt (by omega)
    have hsee := (hreads.buffered (by rw [hsize, hsize1, h.size, length_overwrite]) hbuf).1
    rw [length_overwrite, length_overwrite, hlen, hneed] at hsee
    rw [hneed] at hin small
    cases hold : n.buffer with
    | none =>
      simp only
      rw [h.size]
      omega
    | some b =>
      simp only
      intro hle
      have := small b hold
      omega

end Put

section Truncate

variable {q : Quota} {n : Node} {f : Bytes}

theorem etcEmpty_done (h : Rep n f) (hq : n.capacity ≤ q.allocated) (hbound : q.allocated ≤ ETCFS_MAX_BYTES) :
    Done q n [] (etcEmpty q n).1 (etcEmpty q n).2 := by
  unfold etcEmpty
  split
  · rename_i b c r hentry
    have hc : n.capacity = c := by simp [Node.capacity, hentry]
    have hsub : sub64 q.allocated c = q.allocated - c := by
      unfold ETCFS_MAX_BYTES at hbound
      rw [sub64, show q.allocated + 2 ^ 64 - c = q.allocated - c + 2 ^ 64 by omega, Nat.add_mod_right]
      exact Nat.mod_eq_of_lt (by omega)
    refine ⟨⟨rfl, ?_, fun _ => ⟨rfl, .inl ⟨rfl, rfl⟩⟩⟩, ?_, ?_⟩
    · intro b' hb'
      cases hb'
    · show sub64 q.allocated c + n.capacity = q.allocated + 0
      omega
    · show sub64 q.allocated c ≤ ETCFS_MAX_BYTES
      omega
  rename_i hno
  have hbuf : n.buffer = none := by
    cases he : n.entry with
    | none => simp [he]
    | some e =>
      obtain ⟨buf, c, r⟩ := e
      cases buf with
      | none => simp [he]
      | some b => exact absurd he (hno b c r)
  refine ⟨⟨rfl, fun b hb => ?_, fun _ => ⟨(h.unbuffered hbuf).1, .inl ⟨rfl, rfl⟩⟩⟩, rfl, hbound⟩
  cases hbuf.symm.trans hb

variable {size : Nat} {b : Bytes} {n1 : Node}

theorem rep_resize {n' : Node} (hbuf : n'.buffer = some b) (hcap : n'.capacity = b.length)
    (hsize : n'.size = size) (htake : b.take size = resize f size) : Rep n' (resize f size) := by
  refine ⟨hsize.trans (length_resize f size).symm, ?_, ?_⟩
  · intro b' hb'
    cases hbuf.symm.trans hb'
    rw [length_resize]
    exact ⟨hcap.symm, htake⟩
  · intro hnone
    cases hbuf.symm.trans hnone

theorem etcSetSize_rep (q1 : Quota) (hb : n1.buffer = some b)
    (hcap : n1.capacity = b.length) (hf : n1.size = f.length)
    (htake : size ≤ f.length → b.take size = resize f size) (hall : f.length < size → b.take f.length = f)
    (hin : size ≤ b.length) :
    ∃ n', etcSetSize q1 n1 size = some (.ok (), q1, n') ∧ Rep n' (resize f size) ∧ n'.capacity = n1.capacity := by
  unfold etcSetSize
  rw [hf]
  split
  · rename_i hgrow
    have hfit : f.length + (zeros (size - f.length)).length ≤ b.length := by
      rw [length_zeros]
      omega
    obtain ⟨n2, hcopy⟩ := copyTo_inside hb hfit
    obtain ⟨b', hb', -, hbuf, hcap2, -⟩ := copyTo_some hcopy
    cases hb.symm.trans hb'
    refine ⟨{ n2 with size := size }, by rw [hcopy]; rfl, ?_, hcap2⟩
    exact rep_resize (b := overwrite b f.length (zeros (size - f.length))) hbuf
      (by rw [length_overwrite_of_le hfit]; exact hcap2.trans hcap) rfl
      (take_overwrite_zeros (hall hgrow) (Nat.le_of_lt hgrow))
  · rename_i hcut
    exact ⟨{ n1 with size := size }, rfl, rep_resize hb hcap rfl (htake (by omega)), rfl⟩

theorem etcTruncateFile_eq {q1 : Quota} (hp : n.isProtected = false) (h0 : size ≠ 0)
    (he : etcEnsureCapacityLocked q n size = some (none, q1, n1)) :
    etcTruncateFile q n size = etcSetSize q1 n1 size := by
  simp [etcTruncateFile, hp, h0, he]

theorem etcTruncateFile_clear (h : Rep n f) (hq : n.capacity ≤ q.allocated)
    (hbound : q.allocated ≤ ETCFS_MAX_BYTES) (hclear : size ≠ 0 → Granted q n size → size ≤ 2 ^ 64 - 256) :
    ∃ r q' n', etcTruncateFile q n size = some (r, q', n') ∧ Done q n (if r.isOk then resize f size else f) q' n' := by
  by_cases hp : n.isProtected = true
  · exact ⟨.error .rofs, q, n, by simp [etcTruncateFile, hp], h, rfl, hbound⟩
  have hp : n.isProtected = false := by simpa using hp
  by_cases h0 : size = 0
  · subst h0
    refine ⟨.ok (), (etcEmpty q n).1, (etcEmpty q n).2, by simp [etcTruncateFile, hp], ?_⟩
    have hnil : resize f 0 = [] := by simp [resize, zeros]
    show Done q n (resize f 0) _ _
    rw [hnil]
    exact etcEmpty_done h hq hbound
  obtain ⟨r, q1, n1, he, hens⟩ := etcEnsureCapacityLocked_cases h q size
  cases hens with
  | @refused e _ _ hrep hcap hall =>
    refine ⟨.error e, q1, n1, by simp [etcTruncateFile, hp, h0, he], hrep, ?_, hall ▸ hbound⟩
    rw [hall, hcap]
  | @kept b hb hroom =>
    obtain ⟨hlen, htake⟩ := h.buffered b hb
    obtain ⟨n', hset, hrep, hcap⟩ := etcSetSize_rep q hb hlen.symm h.size (take_eq_resize htake) (fun _ => htake) hroom
    exact ⟨.ok (), q, n', by rw [etcTruncateFile_eq hp h0 he, hset], hrep, by rw [hcap], hbound⟩
  | grown small hb hcap1 hsize1 fits hall hbound' =>
    have hwrap := hclear h0 ((granted_iff h).2 ⟨_, _, he⟩)
    have hle := le_newCap hwrap
    have hlen := length_fresh f (newCap size)
    obtain ⟨n', hset, hrep, hcap⟩ := etcSetSize_rep q1 hb (by rw [hcap1, hlen]) (by rw [hsize1, h.size])
      (fun _ => fresh_take_resize hle) (fun hs => fresh_take (by omega)) (by omega)
    refine ⟨.ok (), q1, n', by rw [etcTruncateFile_eq hp h0 he, hset], hrep, ?_, hbound'⟩
    rw [hcap, hcap1]
    exact grown_quota h hq hbound hwrap small fits hall

/-- A size that wraps zeroes memory outside the buffer. -/
theorem etcTruncateFile_unclear (h : Rep n f) (hcapmax : n.capacity ≤ ETCFS_MAX_BYTES)
    (hclear : ¬(size ≠ 0 → Granted q n size → size ≤ 2 ^ 64 - 256)) : etcTruncateFile q n size = none := by
  have hmax := requestMax_lt
  have hsmall := h.size_lt hcapmax
  simp only [not_forall] at hclear
  obtain ⟨h0, hgranted, hwrap⟩ := hclear
  have hp := hgranted.1
  obtain ⟨q1, n1, he⟩ := (granted_iff h).1 hgranted
  obtain ⟨r', q2, n2, he', hens⟩ := etcEnsureCapacityLocked_cases h q size
  cases he.symm.trans he'
  unfold ETCFS_MAX_BYTES at hcapmax
  cases hens with
  | @kept b hb hroom =>
    rw [(h.buffered b hb).1] at hroom
    omega
  | grown small hb hcap1 hsize1 fits hall hbound' =>
    have hlen := length_fresh f (newCap size)
    rw [etcTruncateFile_eq hp h0 he, etcSetSize, hsize1, if_pos (by omega)]
    cases hcopy : n1.copyTo n.size (zeros (size - n.size)) with
    | none => rfl
    | some n2 =>
      obtain ⟨b', hb', hin, -⟩ := copyTo_some hcopy
      cases hb.symm.trans hb'
      rw [length_zeros] at hin
      omega

end Truncate

end Fortress.Etcfs
