/-
The receive side against the peer's byte stream.

The stream is a list, its first byte numbered `irs + 1` and its FIN numbered
after its last byte. `RecvOk` says how the ring, its occupancy bitmap and the
sequence numbers stand to it once `n` bytes were consumed: slot `i` past the
head, when occupied, holds byte `n + i`. Each part of `receive_data` keeps
that, for segments whose bytes and FIN agree with the stream.
-/
import Fortress.Lib.Serial
import Fortress.Tcp.Handshake

namespace Fortress.Tcp

open Serial (pos)

/-- The ring slot of the byte `i` past the read point. -/
def slot (r : RecvSide) (i : Nat) : Nat := (r.rxHead + i) % TCP_RXBUF_MAX

/-- The receive side with `n` bytes of `stream` consumed. -/
structure RecvOk (stream : List UInt8) (n : Nat) (r : RecvSide) : Prop where
  rxSequence : r.rxSequence = pos (r.irs + 1) n
  rcvNxt : r.rcvNxt = pos (r.irs + 1) (n + r.rxCount + if r.eof then 1 else 0)
  count : r.rxCount ≤ TCP_RXBUF_MAX
  contiguous : ∀ i < r.rxCount, bit r (slot r i) = true
  bytes : ∀ i < TCP_RXBUF_MAX, bit r (slot r i) = true → stream[n + i]? = some (r.rx (slot r i))
  within : n + r.rxCount ≤ stream.length
  fin : r.remoteFinPending = true →
    r.remoteFinSequence = pos (r.irs + 1) stream.length ∧ stream.length ≤ n + r.rxCount + TCP_WINDOW_MAX
  eof : r.eof = true → n + r.rxCount = stream.length

/-- Position `p` of the stream may be meant by a number when `n` bytes are
consumed: it is less than half the sequence space away. -/
def Near (n p : Nat) : Prop := p < n + 2 ^ 31 ∧ n < p + 2 ^ 31

/-- A segment agrees with the stream: each byte is the stream's at every
position its number may mean, and so is the FIN. -/
structure Agrees (stream : List UInt8) (n : Nat) (irs : UInt32) (h : Header) (data : List UInt8) : Prop where
  bytes : ∀ i b, data[i]? = some b → ∀ p, Near n p → pos (irs + 1) p = h.sequence + UInt32.ofNat i →
    stream[p]? = some b
  fin : has h.flags TCP_FIN = true → ∀ p, Near n p →
    pos (irs + 1) p = h.sequence + UInt32.ofNat data.length → p = stream.length

variable {data : List UInt8}

/-- A segment cut from the stream at position `p` agrees with it. -/
theorem Agrees.of_segment {stream : List UInt8} {n p : Nat} {irs : UInt32} {h : Header}
    (hseq : h.sequence = pos (irs + 1) p) (hlo : n < p + 2 ^ 31) (hhi : p + data.length < n + 2 ^ 31)
    (hbytes : ∀ i b, data[i]? = some b → stream[p + i]? = some b)
    (hfin : has h.flags TCP_FIN = true → p + data.length = stream.length) : Agrees stream n irs h data := by
  have unique {q i : Nat} (hq : Near n q) (hi : i ≤ data.length)
      (e : pos (irs + 1) q = h.sequence + UInt32.ofNat i) : q = p + i := by
    rw [hseq, Serial.pos_add] at e
    obtain ⟨h1, h2⟩ := hq
    rcases Nat.le_total q (p + i) with hle | hle
    · exact Serial.pos_inj hle (by omega) e
    · exact (Serial.pos_inj hle (by omega) e.symm).symm
  refine ⟨fun i b hb q hq e => ?_, fun hf q hq e => ?_⟩
  · have hi : i < data.length := (List.getElem?_eq_some_iff.1 hb).1
    rw [unique hq hi.le e]
    exact hbytes i b hb
  · rw [unique hq (le_refl _) e]
    exact hfin hf

variable {stream : List UInt8} {n : Nat} {r : RecvSide} {hdr : Header}

theorem slot_inj {i j : Nat} (hi : i < TCP_RXBUF_MAX) (hj : j < TCP_RXBUF_MAX) (h : slot r i = slot r j) : i = j :=
  Ring.add_mod_inj hi hj h

/-! ## Storing -/

theorem RecvOk.storeByte (h : RecvOk stream n r) {p : Nat} {b : UInt8} (hp : p < TCP_RXBUF_MAX)
    (hb : stream[n + p]? = some b) : RecvOk stream n (storeByte r p b) := by
  change RecvOk stream n (if bit r (slot r p) = true then r else _)
  split
  · exact h
  have get (i : Nat) (hi : i < TCP_RXBUF_MAX) :
      Bitmap.get (Bitmap.set r.rxValid (slot r p) true) (slot r i) = true ↔ i = p ∨ bit r (slot r i) = true := by
    by_cases hip : i = p
    · subst hip
      simp [Bitmap.get_set_self]
    have hne : slot r p ≠ slot r i := fun e => hip (slot_inj hp hi e).symm
    rw [Bitmap.get_set_of_ne hne]
    simp [hip, bit]
  refine ⟨h.rxSequence, h.rcvNxt, h.count, fun i hi => ?_, fun i hi hbit => ?_, h.within, h.fin, h.eof⟩
  · exact (get i (hi.trans_le h.count)).2 (.inr (h.contiguous i hi))
  change stream[n + i]? = some (Function.update r.rx (slot r p) b (slot r i))
  rcases (get i hi).1 hbit with rfl | hbit
  · rw [Function.update_self]
    exact hb
  by_cases hip : i = p
  · subst hip
    rw [Function.update_self]
    exact hb
  · rw [Function.update_of_ne fun e => hip (slot_inj hi hp e)]
    exact h.bytes i hi hbit

/-- `receive_data`'s copy loop, over bytes of the stream. -/
theorem RecvOk.storeBytes : ∀ {bs : List UInt8} {r : RecvSide} {p : Nat} (seq : UInt32),
    RecvOk stream n r → p + bs.length ≤ TCP_RXBUF_MAX →
    (∀ i b, bs[i]? = some b → stream[n + p + i]? = some b) → RecvOk stream n (storeBytes r seq p bs)
  | [], _, _, _, h, _, _ => h
  | b :: bs, r, p, seq, h, hlen, hb => by
    unfold Tcp.storeBytes
    split
    · exact h
    rw [List.length_cons] at hlen
    refine RecvOk.storeBytes _ (h.storeByte (by omega) (hb 0 b rfl)) (by omega) fun i c hc => ?_
    have := hb (i + 1) c hc
    rwa [show n + p + (i + 1) = n + (p + 1) + i by omega] at this

/-- Skipping the part of a segment before the read point lands on it, or on
the segment's own offset. -/
theorem offset_skip (a b : UInt32) :
    a + UInt32.ofNat (-offset a b).toNat = b + UInt32.ofNat (offset a b + (-offset a b).toNat).toNat := by
  unfold offset
  dsimp only
  split
  · have h1 : (-((a - b).toNat : Int)).toNat = 0 := by omega
    rw [h1]
    simp
  have h1 : (- -((b - a).toNat : Int)).toNat = (b - a).toNat := by omega
  have h2 : (-((b - a).toNat : Int) + ((b - a).toNat : Int)).toNat = 0 := by omega
  rw [h1, h2]
  simp

theorem RecvOk.storeData (h : RecvOk stream n r) (ha : Agrees stream n r.irs hdr data) :
    RecvOk stream n (storeData r hdr data) := by
  unfold Tcp.storeData
  dsimp only
  split
  · rename_i hc
    simp only [Bool.and_eq_true, decide_eq_true_eq] at hc
    have hskip := offset_skip hdr.sequence r.rxSequence
    have hnn : 0 ≤ offset hdr.sequence r.rxSequence + (-offset hdr.sequence r.rxSequence).toNat := by omega
    generalize (-offset hdr.sequence r.rxSequence).toNat = skip at hc hskip hnn ⊢
    have hlt : (offset hdr.sequence r.rxSequence + skip).toNat < TCP_RXBUF_MAX := by
      omega
    generalize (offset hdr.sequence r.rxSequence + skip).toNat = p at hskip hlt ⊢
    refine h.storeBytes _ ?_ fun i b hb => ?_
    · rw [List.length_take]
      omega
    rw [List.getElem?_take] at hb
    split at hb
    · rename_i hi
      rw [List.getElem?_drop] at hb
      have hbuf : TCP_RXBUF_MAX = 65536 := rfl
      refine ha.bytes (skip + i) b hb (n + p + i) ⟨by omega, by omega⟩ ?_
      rw [UInt32.ofNat_add, ← add_assoc, hskip, h.rxSequence, Serial.pos_add, Serial.pos_add]
    · exact absurd hb (by simp)
  · exact h

/-- Storing leaves the initial number, the count and the end of file alone. -/
structure StoreFrame (r r' : RecvSide) : Prop where
  irs : r'.irs = r.irs
  eof : r'.eof = r.eof
  rxCount : r'.rxCount = r.rxCount

theorem StoreFrame.trans {r1 r2 r3 : RecvSide} (h : StoreFrame r1 r2) (h' : StoreFrame r2 r3) : StoreFrame r1 r3 :=
  ⟨h'.irs.trans h.irs, h'.eof.trans h.eof, h'.rxCount.trans h.rxCount⟩

theorem storeByte_frame (r : RecvSide) (p : Nat) (b : UInt8) : StoreFrame r (storeByte r p b) := by
  unfold storeByte
  dsimp only
  split <;> exact ⟨rfl, rfl, rfl⟩

theorem storeBytes_frame : ∀ (bs : List UInt8) (r : RecvSide) (seq : UInt32) (p : Nat),
    StoreFrame r (storeBytes r seq p bs)
  | [], _, _, _ => ⟨rfl, rfl, rfl⟩
  | b :: bs, r, seq, p => by
    unfold storeBytes
    split
    · exact ⟨rfl, rfl, rfl⟩
    · exact (storeByte_frame r p b).trans (storeBytes_frame bs _ _ _)

theorem storeData_frame (r : RecvSide) (hdr : Header) (data : List UInt8) :
    StoreFrame r (storeData r hdr data) := by
  unfold storeData
  dsimp only
  split
  · exact storeBytes_frame _ _ _ _
  · exact ⟨rfl, rfl, rfl⟩

/-! ## The FIN -/

/-- A FIN inside the window is the stream's. -/
theorem RecvOk.noteFin (h : RecvOk stream n r) (heof : r.eof = false)
    (ha : Agrees stream n r.irs hdr data) : RecvOk stream n (noteFin r hdr data.length) := by
  unfold Tcp.noteFin
  dsimp only
  split
  · rename_i hc
    rw [Bool.and_eq_true] at hc
    split
    · rename_i hw
      generalize hfin : hdr.sequence + UInt32.ofNat data.length = fin at hw ⊢
      have hlt : (fin - r.rcvNxt).toNat < TCP_WINDOW_MAX :=
        (UInt32.lt_iff_toNat_lt.1 hw).trans_le (Nat.le_of_lt_succ (window r).toNat_lt)
      have hcount : r.rxCount ≤ 65536 := h.count
      have hwin : TCP_WINDOW_MAX = 65535 := rfl
      have hnxt := h.rcvNxt
      rw [heof] at hnxt
      have hpos : pos (r.irs + 1) (n + r.rxCount + (fin - r.rcvNxt).toNat) = fin := by
        rw [← Serial.pos_pos, show pos (r.irs + 1) (n + r.rxCount) = r.rcvNxt from hnxt.symm]
        exact (Serial.eq_pos _ _).symm
      have hend := ha.fin hc.1 (n + r.rxCount + (fin - r.rcvNxt).toNat) ⟨by omega, by omega⟩ (hpos.trans hfin.symm)
      refine ⟨h.rxSequence, h.rcvNxt, h.count, h.contiguous, h.bytes, h.within, fun _ => ⟨?_, ?_⟩, h.eof⟩
      · rw [← hend]
        exact hpos.symm
      · dsimp only
        omega
    · exact h
  · exact h

theorem noteFin_frame (r : RecvSide) (hdr : Header) (len : Nat) : StoreFrame r (noteFin r hdr len) := by
  unfold noteFin
  dsimp only
  split_ifs <;> exact ⟨rfl, rfl, rfl⟩

/-! ## Advancing -/

/-- An occupied slot past the contiguous bytes extends them. -/
theorem RecvOk.advanceLoop : ∀ (fuel : Nat) {r : RecvSide}, RecvOk stream n r → r.eof = false →
    RecvOk stream n (advanceLoop fuel r) ∧ r.rxCount ≤ (Tcp.advanceLoop fuel r).rxCount
  | 0, _, h, _ => ⟨h, le_refl _⟩
  | fuel + 1, r, h, he => by
    unfold Tcp.advanceLoop
    split
    · rename_i hc
      simp only [Bool.and_eq_true, decide_eq_true_eq] at hc
      obtain ⟨⟨hlt, _⟩, hbit⟩ := hc
      have hbyte := h.bytes r.rxCount hlt hbit
      have hin : n + r.rxCount < stream.length := (List.getElem?_eq_some_iff.1 hbyte).1
      have hnxt := h.rcvNxt
      rw [he] at hnxt
      have hstep : RecvOk stream n { r with rxCount := r.rxCount + 1, rcvNxt := r.rcvNxt + 1 } := by
        refine ⟨h.rxSequence, ?_, hlt, fun i hi => ?_, h.bytes, hin, fun hf => ⟨(h.fin hf).1, ?_⟩, fun e => ?_⟩
        · dsimp only
          rw [he, hnxt, Serial.pos_add_one]
          rfl
        · rcases Nat.lt_succ_iff_lt_or_eq.1 hi with hi | rfl
          · exact h.contiguous i hi
          · exact hbit
        · have := (h.fin hf).2
          dsimp only
          omega
        · exact nomatch he.symm.trans e
      obtain ⟨hok, hle⟩ := hstep.advanceLoop fuel he
      exact ⟨hok, (Nat.le_succ _).trans hle⟩
    · exact ⟨h, le_refl _⟩

theorem RecvOk.advance (h : RecvOk stream n r) (he : r.eof = false) :
    RecvOk stream n (advance r) ∧ r.rxCount ≤ (Tcp.advance r).rxCount :=
  h.advanceLoop _ he

/-- The FIN is taken when every byte before it is in. -/
theorem RecvOk.receivedFin {c : Conn} (h : RecvOk stream n c.rcv) :
    RecvOk stream n (receivedFin c).rcv ∧ c.rcv.rxCount ≤ (Tcp.receivedFin c).rcv.rxCount := by
  have hrcv : (Tcp.receivedFin c).rcv =
      if !c.rcv.remoteFinPending || c.rcv.eof || c.rcv.rcvNxt != c.rcv.remoteFinSequence then c.rcv
      else { c.rcv with eof := true, rcvNxt := c.rcv.rcvNxt + 1 } := by
    unfold Tcp.receivedFin
    dsimp only
    split
    · rfl
    · split <;> rfl
  rw [hrcv]
  split
  · exact ⟨h, le_refl _⟩
  rename_i hc
  simp only [Bool.or_eq_true, Bool.not_eq_true', bne_iff_ne, ne_eq, not_or, Bool.not_eq_false,
    Bool.not_eq_true, not_not] at hc
  obtain ⟨⟨hpend, heof⟩, hnxt⟩ := hc
  obtain ⟨hfin, hle⟩ := h.fin hpend
  have hwin : TCP_WINDOW_MAX = 65535 := rfl
  have hrn := h.rcvNxt
  rw [heof] at hrn
  have hend : n + c.rcv.rxCount = stream.length :=
    Serial.pos_inj h.within (by omega) (hrn.symm.trans (hnxt.trans hfin))
  refine ⟨⟨h.rxSequence, ?_, h.count, h.contiguous, h.bytes, h.within, h.fin, fun _ => hend⟩, le_refl _⟩
  rw [hrn, Serial.pos_add_one]
  rfl

/-- **`receive_data` keeps the ring in step with the stream.** -/
theorem RecvOk.receiveData {c : Conn} (h : RecvOk stream n c.rcv) (ha : Agrees stream n c.rcv.irs hdr data) :
    RecvOk stream n (receiveData c hdr data).rcv ∧ c.rcv.rxCount ≤ (Tcp.receiveData c hdr data).rcv.rxCount := by
  unfold Tcp.receiveData
  split
  · exact ⟨h, le_refl _⟩
  rename_i heof
  rw [Bool.not_eq_true] at heof
  have hs := storeData_frame c.rcv hdr data
  have hn := noteFin_frame (Tcp.storeData c.rcv hdr data) hdr data.length
  have h1 := h.storeData ha
  have h2 := h1.noteFin (hs.eof.trans heof) (hs.irs.symm ▸ ha)
  obtain ⟨h3, hle⟩ := h2.advance ((hn.eof.trans hs.eof).trans heof)
  obtain ⟨h4, hle'⟩ := RecvOk.receivedFin (c := { c with
    rcv := Tcp.advance (Tcp.noteFin (Tcp.storeData c.rcv hdr data) hdr data.length) }) h3
  have hcount : c.rcv.rxCount ≤ _ := ((hn.rxCount.trans hs.rxCount).symm.trans_le hle).trans hle'
  split
  · exact ⟨h4, hcount⟩
  · exact ⟨h4, hcount⟩

/-! ## Reading -/

theorem RecvOk.read (h : RecvOk stream n r) {m : Nat} (hm : m ≤ r.rxCount) :
    Ring.read TCP_RXBUF_MAX r.rx r.rxHead m = (stream.drop n).take m := by
  refine List.ext_getElem? fun i => ?_
  by_cases hi : i < m
  · have hi' : i < TCP_RXBUF_MAX := (hi.trans_le hm).trans_le h.count
    rw [Ring.getElem?_read hi, List.getElem?_take_of_lt hi, List.getElem?_drop]
    exact (h.bytes i hi' (h.contiguous i (hi.trans_le hm))).symm
  · rw [List.getElem?_eq_none (by simpa using hi), List.getElem?_eq_none]
    rw [List.length_take]
    omega

theorem clearBits_frame (r : RecvSide) : ∀ m : Nat, clearBits r m = { r with rxValid := (clearBits r m).rxValid }
  | 0 => rfl
  | m + 1 => by
    rw [clearBits, clearBits_frame r m]
    rfl

/-- `tcp_conn_consume` empties the slots it passes and no other. -/
theorem bit_clearBits {i : Nat} (hi : i < TCP_RXBUF_MAX) : ∀ {m : Nat}, m ≤ TCP_RXBUF_MAX →
    (Bitmap.get (clearBits r m).rxValid (slot r i) = true ↔ m ≤ i ∧ bit r (slot r i) = true)
  | 0, _ => by simp [clearBits, bit]
  | m + 1, hm => by
    have ih := bit_clearBits hi (m := m) (by omega)
    change Bitmap.get (Bitmap.set (clearBits r m).rxValid (slot r m) false) (slot r i) = true ↔ _
    by_cases him : m = i
    · subst him
      simp [Bitmap.get_set_self]
    rw [Bitmap.get_set_of_ne fun e => him (slot_inj (by omega) hi e), ih]
    constructor
    · rintro ⟨h1, h2⟩
      exact ⟨by omega, h2⟩
    · rintro ⟨h1, h2⟩
      exact ⟨by omega, h2⟩

/-- The receive side after `len` bytes were consumed. -/
def consumed (r : RecvSide) (len : Nat) : RecvSide :=
  { clearBits r len with
    rxHead := (r.rxHead + len) % TCP_RXBUF_MAX, rxCount := r.rxCount - len
    rxSequence := r.rxSequence + UInt32.ofNat len }

theorem slot_consumed (r : RecvSide) (len i : Nat) : slot (consumed r len) i = slot r (len + i) := by
  simp only [slot, consumed]
  rw [Nat.mod_add_mod, Nat.add_assoc]

theorem RecvOk.consumed (h : RecvOk stream n r) {len : Nat} (hlen : len ≤ r.rxCount) :
    RecvOk stream (n + len) (consumed r len) := by
  have hcap := h.count
  have hle : len ≤ TCP_RXBUF_MAX := hlen.trans hcap
  have get (i : Nat) (hi : i < TCP_RXBUF_MAX) :
      bit (Tcp.consumed r len) (slot (Tcp.consumed r len) i) = true ↔
        len + i < TCP_RXBUF_MAX ∧ bit r (slot r (len + i)) = true := by
    rw [slot_consumed]
    change Bitmap.get (clearBits r len).rxValid _ = true ↔ _
    by_cases hw : len + i < TCP_RXBUF_MAX
    · rw [bit_clearBits hw hle]
      simp [hw]
    -- past the end of the ring the slot is one of those just emptied
    have hwrap : slot r (len + i) = slot r (len + i - TCP_RXBUF_MAX) := by
      unfold slot
      rw [show r.rxHead + (len + i) = r.rxHead + (len + i - TCP_RXBUF_MAX) + TCP_RXBUF_MAX by omega,
        Nat.add_mod_right]
    rw [hwrap, bit_clearBits (by omega) hle]
    constructor
    · rintro ⟨h1, _⟩
      omega
    · rintro ⟨h1, _⟩
      exact absurd h1 hw
  have hirs : (Tcp.consumed r len).irs = r.irs := by
    simp only [Tcp.consumed]
    rw [clearBits_frame]
  have hrx : (Tcp.consumed r len).rx = r.rx := by
    simp only [Tcp.consumed]
    rw [clearBits_frame]
  have hrest : (Tcp.consumed r len).rcvNxt = r.rcvNxt ∧ (Tcp.consumed r len).eof = r.eof ∧
      (Tcp.consumed r len).remoteFinPending = r.remoteFinPending ∧
      (Tcp.consumed r len).remoteFinSequence = r.remoteFinSequence := by
    simp only [Tcp.consumed]
    rw [clearBits_frame]
    exact ⟨rfl, rfl, rfl, rfl⟩
  obtain ⟨hnxt, heof, hpend, hseq⟩ := hrest
  have hcount : n + len + (Tcp.consumed r len).rxCount = n + r.rxCount := by
    simp only [Tcp.consumed]
    omega
  refine ⟨?_, ?_, ?_, fun i hi => ?_, fun i hi hbit => ?_, ?_, fun hf => ?_, fun he => ?_⟩
  · rw [hirs, ← Serial.pos_add, ← h.rxSequence]
    rfl
  · rw [hnxt, hirs, hcount, heof]
    exact h.rcvNxt
  · exact (Nat.sub_le _ _).trans hcap
  · have hi' : len + i < r.rxCount := by
      omega
    exact (get i (by omega)).2 ⟨by omega, h.contiguous _ hi'⟩
  · obtain ⟨hw, hbit⟩ := (get i hi).1 hbit
    rw [slot_consumed, hrx, Nat.add_assoc]
    exact h.bytes _ hw hbit
  · rw [hcount]
    exact h.within
  · rw [hpend] at hf
    rw [hseq, hirs, hcount]
    exact h.fin hf
  · rw [heof] at he
    rw [hcount]
    exact h.eof he

end Fortress.Tcp
