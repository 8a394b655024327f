/-
The packets one transport sends, as another receives them (transport.c,
cipher.c).

A packet leaves padded, in the clear until keys are in use and then under
ChaCha20-Poly1305 with the sequence number as the nonce. The receiver is fed
the stream in chunks and takes packets out until none is whole. Both sides
change keys after the same packets.

ChaCha20 is a keystream and Poly1305 a function (`Primitives`). The cipher
functions are only called with keys in use.
-/
import Fortress.Sshd.Kex

namespace Fortress.Sshd

open Codec List

/-! ## The packet cipher -/

structure Primitives where
  x25519 : Bytes → Bytes → Option Bytes
  sha256 : Bytes → Bytes
  /-- ChaCha20 under a key, a nonce and a first block counter -/
  keystream : Bytes → Bytes → Nat → Nat → UInt8
  /-- Poly1305 of a key and a message -/
  poly1305 : Bytes → Bytes → Bytes
  length_tag : ∀ key msg, (poly1305 key msg).length = 16

variable (p : Primitives)

def makeNonce (seq : Nat) : Bytes := [0, 0, 0, 0] ++ be seq 4

def chacha20Djb (key nonce : Bytes) (ctr : Nat) (bs : Bytes) : Bytes :=
  bs.mapIdx fun i b => b ^^^ p.keystream key nonce ctr i

variable (key : Bytes) (seq : Nat)

/-- The tag of a frame; its key is the start of the keystream the body does not use. -/
def frameTag (msg : Bytes) : Bytes :=
  p.poly1305 ((chacha20Djb p (key.take 32) (makeNonce seq) 0 (List.replicate 64 0)).take 32) msg

def cryptLength (bs : Bytes) : Bytes :=
  chacha20Djb p (slice key 32 32) (makeNonce seq) 0 bs

def cryptBody (bs : Bytes) : Bytes := chacha20Djb p (key.take 32) (makeNonce seq) 1 bs

/-- The encrypted length, the encrypted body and the tag. -/
def sshCipherEncryptPacket (plain : Bytes) : Option (Bytes × Bytes × Bytes) :=
  if plain.length < SSH_MIN_PACKET_LEN ∨ SSH_MAX_PACKET_LEN < plain.length then none
  else
    let encLength := cryptLength p key seq (be plain.length 4)
    let body := cryptBody p key seq plain
    some (encLength, body, frameTag p key seq (encLength ++ body))

def sshCipherDecryptLength (enc : Bytes) : Nat := fromBe (cryptLength p key seq enc)

def sshCipherDecryptPacket (frame : Bytes) : Option Bytes :=
  let len := frame.length - 20
  if len < SSH_MIN_PACKET_LEN ∨ SSH_MAX_PACKET_LEN < len then none
  else if frameTag p key seq (frame.take (4 + len)) ≠ frame.drop (4 + len) then none
  else some (cryptBody p key seq (slice frame 4 len))

def Primitives.crypto : KexCrypto where
  x25519 := p.x25519
  sha256 := p.sha256
  decryptLength := sshCipherDecryptLength p
  decryptPacket := sshCipherDecryptPacket p

@[simp] theorem length_chacha20Djb (key nonce : Bytes) (ctr : Nat) (bs : Bytes) :
    (chacha20Djb p key nonce ctr bs).length = bs.length := by simp [chacha20Djb]

theorem chacha20Djb_twice (key nonce : Bytes) (ctr : Nat) (bs : Bytes) :
    chacha20Djb p key nonce ctr (chacha20Djb p key nonce ctr bs) = bs := by
  refine ext_getElem (by simp) fun i h1 h2 => ?_
  simp [chacha20Djb]

/-! ## Sending -/

/-- A transport with the sequence number of `out_cipher`. -/
structure Sender where
  t : Transport
  outSeq : Nat

def padLen (active : Bool) (len : Nat) : Nat :=
  let pad := 8 - ((if active then 0 else 4) + 1 + 1 + len) % 8
  if pad < 4 then pad + 8 else pad

def plainPacket (active : Bool) (type : UInt8) (payload : Bytes) : Bytes :=
  let pad := padLen active payload.length
  pad.toUInt8 :: type :: (payload ++ (List.range pad).map fun i => (i + 1).toUInt8)

/-- `ssh_transport_send_packet`, for payloads that its static buffers hold. -/
def sshTransportSendPacket (g : Grant) (s : Sender) (type : UInt8) (payload : Bytes) (outWire : SshBuf) :
    Option SshErr × Sender × SshBuf :=
  if s.t.state = .error then (some s.t.lastError, s, outWire)
  else
    let plain := plainPacket s.t.outCipher.active type payload
    let sent := { s with outSeq := (s.outSeq + 1) % 2 ^ 32 }
    if s.t.outCipher.active = false then
      match putSeq [sshbufPutU32 g plain.length, sshbufPutRaw g plain] outWire with
      | (some e, w) => (some e, s, w)
      | (none, w) => (none, sent, w)
    else
      match sshCipherEncryptPacket p s.t.outCipher.key s.outSeq plain with
      | none => (some .invalidFormat, s, outWire)
      | some (encLength, body, tag) =>
        let (r, w) := putSeq [sshbufPutRaw g encLength, sshbufPutRaw g body, sshbufPutRaw g tag] outWire
        (r, sent, w)

/-- A change of keys: whether it is a rekey, and the key exchanges the two sides have come through. -/
structure Switch where
  isRekey : Bool
  sender : KexCtx
  receiver : KexCtx

/-- A packet, and the key changes made on both sides right after it. -/
structure Msg where
  type : UInt8
  payload : Bytes
  after : List Switch

def Transport.switch (cr : KexCrypto) (g : Grant) (t : Transport) (kex : KexCtx) (isRekey : Bool) :
    Except SshErr Transport :=
  match sshTransportApplyNewkeys cr g { t with kex } isRekey with
  | (some e, _) => .error e
  | (none, t) => .ok t

def Sender.switch (cr : KexCrypto) (g : Grant) (s : Sender) (k : Switch) : Except SshErr Sender := do
  let t ← s.t.switch cr g k.sender k.isRekey
  return ⟨t, if k.isRekey || !s.t.strictKex then s.outSeq else 0⟩

/-- What is sent, packet by packet: each is appended to some output buffer, with whatever
the pool then answers. -/
inductive Sends : Sender → List Msg → Bytes → Prop
  | nil (s : Sender) : Sends s [] []
  | cons {s s₁ s₂ : Sender} {m : Msg} {ms : List Msg} {w w' : SshBuf} {frame wire : Bytes} (g : Grant) :
      sshTransportSendPacket p g s m.type m.payload w = (none, s₁, w') → w'.data = w.data ++ frame →
      m.after.foldlM (Sender.switch p.crypto g) s₁ = .ok s₂ → Sends s₂ ms wire → Sends s (m :: ms) (frame ++ wire)

/-! ## Receiving -/

/-- Takes packets until `SSH_ERR_AGAIN`; `due` holds the key changes after each packet to come.
Any other error ends the run. -/
def readAll (cr : KexCrypto) (g : Grant) :
    Nat → List (List Switch) → Transport → Except SshErr (List Packet × List (List Switch) × Transport)
  | 0, _, _ => .error .noMem
  | fuel + 1, due, t =>
    match sshTransportGetPacket cr t with
    | (.error e, t) => if e = .again then .ok ([], due, t) else .error e
    | (.ok packet, t) => do
      let t ← (due.headD []).foldlM (fun t k => t.switch cr g k.receiver k.isRekey) t
      let (packets, due, t) ← readAll cr g fuel due.tail t
      return (packet :: packets, due, t)

/-- Feeds chunks, reading all that is whole after each. -/
def receive (cr : KexCrypto) (g : Grant) : List Bytes → List (List Switch) → Transport → Except SshErr (List Packet)
  | [], _, _ => .ok []
  | c :: cs, due, t =>
    match sshTransportFeedInput g t c with
    | (some e, _) => .error e
    | (none, t) => do
      let (packets, due, t) ← readAll cr g (sshbufLen t.inBuf + 1) due t
      let more ← receive cr g cs due t
      return packets ++ more

/-! ## Frames -/

/-- The bytes of one packet on the wire. -/
def wireFrame (c : Cipher) (seq : Nat) (type : UInt8) (payload : Bytes) : Bytes :=
  let plain := plainPacket c.active type payload
  if c.active = false then be plain.length 4 ++ plain
  else
    let head := cryptLength p c.key seq (be plain.length 4) ++ cryptBody p c.key seq plain
    head ++ frameTag p c.key seq head

variable {p} {g : Grant} {s s' : Sender} {t : Transport} {type : UInt8} {payload bs rest wire : Bytes} {ms : List Msg}

theorem padLen_range (active : Bool) (len : Nat) : 4 ≤ padLen active len ∧ padLen active len ≤ 11 := by
  unfold padLen
  cases active <;> grind

theorem length_plainPacket (active : Bool) (type : UInt8) (payload : Bytes) :
    (plainPacket active type payload).length = 2 + payload.length + padLen active payload.length := by
  simp [plainPacket]
  omega

theorem unpad_plainPacket (active : Bool) (type : UInt8) (payload : Bytes) : unpad (plainPacket active type payload)
    (plainPacket active type payload).length = some (type, type :: payload) := by
  have hpad := padLen_range active payload.length
  have hlen := length_plainPacket active type payload
  have hhead : ((plainPacket active type payload).headD 0).toNat = padLen active payload.length := by
    simp [plainPacket]
    omega
  unfold unpad
  simp only [hhead]
  rw [if_neg (by omega), show (plainPacket active type payload).length - 1 - padLen active payload.length =
    payload.length + 1 by omega]
  simp [plainPacket, slice]

theorem plainPacket_range (active : Bool) (type : UInt8) (hlen : payload.length ≤ 34000) :
    SSH_MIN_PACKET_LEN ≤ (plainPacket active type payload).length ∧
      (plainPacket active type payload).length ≤ 34013 := by
  have hpad := padLen_range active payload.length
  rw [length_plainPacket, SSH_MIN_PACKET_LEN]
  omega

theorem wireFrame_plain {c : Cipher} {seq : Nat} (hc : c.active = false) :
    wireFrame p c seq type payload = be (plainPacket false type payload).length 4 ++ plainPacket false type payload := by
  simp [wireFrame, hc]

theorem wireFrame_sealed {c : Cipher} {seq : Nat} (hc : c.active = true) : wireFrame p c seq type payload =
      (cryptLength p c.key seq (be (plainPacket true type payload).length 4) ++
        cryptBody p c.key seq (plainPacket true type payload)) ++
      frameTag p c.key seq (cryptLength p c.key seq (be (plainPacket true type payload).length 4) ++
        cryptBody p c.key seq (plainPacket true type payload)) := by
  simp [wireFrame, hc]

theorem length_wireFrame (p : Primitives) (c : Cipher) (seq : Nat) (type : UInt8) (payload : Bytes) :
    (wireFrame p c seq type payload).length =
      4 + (plainPacket c.active type payload).length + (if c.active then 16 else 0) := by
  cases hc : c.active with
  | false => simp [wireFrame_plain hc]
  | true => simp [wireFrame_sealed hc, cryptLength, cryptBody, frameTag, p.length_tag, Nat.add_assoc]

theorem sshbufPutRaw_data {b b' : SshBuf} (h : sshbufPutRaw g bs b = (none, b')) : b'.data = b.data ++ bs := by
  unfold sshbufPutRaw sshbufPutBytes sshbufReserve at h
  grind [SshBuf.append]

theorem putSeq_data : ∀ (fs : List Bytes) {b b' : SshBuf}, putSeq (fs.map (sshbufPutRaw g)) b = (none, b') →
    b'.data = b.data ++ fs.flatten
  | [], b, b', h => by
    simp only [List.map_nil, putSeq, Prod.mk.injEq, true_and] at h
    simp [h]
  | f :: fs, b, b', h => by
    rw [List.map_cons, putSeq] at h
    cases hp : sshbufPutRaw g f b with
    | mk e b1 =>
      rw [hp] at h
      cases e with
      | some e => simp at h
      | none => rw [putSeq_data fs h, sshbufPutRaw_data hp, List.flatten_cons, List.append_assoc]

/-- A packet that is sent takes one sequence number and leaves as its frame. -/
theorem sshTransportSendPacket_frame {w w' : SshBuf}
    (h : sshTransportSendPacket p g s type payload w = (none, s', w')) :
    s' = { s with outSeq := (s.outSeq + 1) % 2 ^ 32 } ∧
      w'.data = w.data ++ wireFrame p s.t.outCipher s.outSeq type payload := by
  unfold sshTransportSendPacket at h
  by_cases hup : s.t.state = .error
  · rw [if_pos hup] at h
    simp at h
  rw [if_neg hup] at h
  cases hact : s.t.outCipher.active with
  | false =>
    have hput : sshbufPutU32 g (plainPacket false type payload).length =
        sshbufPutRaw g (be (plainPacket false type payload).length 4) := by
      funext b
      simp [sshbufPutU32, sshbufPutRaw]
    simp only [hact, if_true, hput] at h
    split at h
    · simp at h
    rename_i hw
    simp only [Prod.mk.injEq, true_and] at h
    refine ⟨h.1.symm, ?_⟩
    rw [← h.2, putSeq_data [_, _] hw, wireFrame_plain hact]
    simp
  | true =>
    simp only [hact, Bool.true_eq_false, if_false] at h
    split at h
    · simp at h
    rename_i henc
    simp only [Prod.mk.injEq] at h
    refine ⟨h.2.1.symm, ?_⟩
    unfold sshCipherEncryptPacket at henc
    split at henc
    · simp at henc
    obtain ⟨rfl, rfl, rfl⟩ := henc
    rw [putSeq_data [_, _, _] (Prod.ext h.1 h.2.2), wireFrame_sealed hact]
    simp

/-! ## Reading frames back -/

theorem take_four {head x : Bytes} (hhead : head.length = 4) (hpre : bs <+: head ++ x) (h4 : ¬bs.length < 4) :
    bs.take 4 = head := by
  obtain ⟨z, hz⟩ := hpre
  have htake := congrArg (take 4) hz
  rwa [take_append_of_le_length (by omega), take_left' hhead] at htake

theorem decryptLength_crypt (key : Bytes) (seq : Nat) {n : Nat} (hn : n < 256 ^ 4) :
    p.crypto.decryptLength key seq (cryptLength p key seq (be n 4)) = n := by
  show fromBe (chacha20Djb p _ _ 0 (chacha20Djb p _ _ 0 (be n 4))) = n
  rw [chacha20Djb_twice, fromBe_be_of_lt hn]

theorem decryptPacket_frame (key : Bytes) (seq : Nat) {plain head : Bytes}
    (hmin : SSH_MIN_PACKET_LEN ≤ plain.length) (hmax : plain.length ≤ SSH_MAX_PACKET_LEN)
    (hhead : head = cryptLength p key seq (be plain.length 4) ++ cryptBody p key seq plain) :
    p.crypto.decryptPacket key seq (head ++ frameTag p key seq head) = some plain := by
  have hlen : head.length = 4 + plain.length := by simp [hhead, cryptLength, cryptBody]
  have htag : (frameTag p key seq head).length = 16 := p.length_tag _ _
  show sshCipherDecryptPacket p key seq _ = _
  unfold sshCipherDecryptPacket
  rw [length_append, hlen, htag, show 4 + plain.length + 16 - 20 = plain.length by omega]
  rw [if_neg (by omega), take_left' hlen, drop_left' hlen, if_neg (by simp), hhead,
    append_assoc, slice_field (by simp [cryptLength]) (by simp [cryptBody])]
  show some (chacha20Djb p _ _ 1 (chacha20Djb p _ _ 1 plain)) = _
  rw [chacha20Djb_twice]

/-- While a frame is not whole the receiver waits and nothing changes. -/
theorem getPacket_partial (hup : t.state ≠ .error) (hu : Unread t.inBuf bs) (hlen : payload.length ≤ 34000)
    (hpre : bs <+: wireFrame p t.inCipher t.inSeq type payload ++ rest)
    (hlt : bs.length < (wireFrame p t.inCipher t.inSeq type payload).length) :
    sshTransportGetPacket p.crypto t = (.error .again, t) := by
  obtain ⟨hmin, hmax⟩ := plainPacket_range t.inCipher.active type hlen
  rw [length_wireFrame] at hlt
  unfold sshTransportGetPacket
  rw [if_neg hup, hu.len, hu.rest]
  by_cases h4 : bs.length < 4
  · simp [h4]
  simp only [h4, if_false]
  cases hact : t.inCipher.active with
  | false =>
    rw [wireFrame_plain hact, append_assoc] at hpre
    rw [hact] at hlt hmin hmax
    simp only [if_true]
    rw [take_four (length_be _ 4) hpre h4, fromBe_be_of_lt (by omega), if_neg (by
      rw [SSH_MAX_PACKET_LEN]; omega), if_pos (by simpa using hlt)]
  | true =>
    rw [wireFrame_sealed hact, append_assoc, append_assoc] at hpre
    rw [hact] at hlt hmin hmax
    simp only [Bool.true_eq_false, if_false]
    rw [take_four (by simp [cryptLength]) hpre h4, decryptLength_crypt _ _ (by omega), if_neg (by
      rw [SSH_MAX_PACKET_LEN]; omega), if_pos (by simpa using hlt)]

/-- A whole frame is read back as the packet that was sent. -/
theorem getPacket_whole (hup : t.state ≠ .error) (hlen : payload.length ≤ 34000)
    (hallow : t.inCipher.active = false → strictAllows t type = true)
    (hu : Unread t.inBuf (wireFrame p t.inCipher t.inSeq type payload ++ rest)) :
    ∃ st, st ≠ .error ∧ sshTransportGetPacket p.crypto t = (.ok (type, type :: payload),
      { t with state := st, inSeq := (t.inSeq + 1) % 2 ^ 32, inBuf := tidy { t.inBuf with off := t.inBuf.off +
                 (wireFrame p t.inCipher t.inSeq type payload).length } }) := by
  have hframe := length_wireFrame p t.inCipher t.inSeq type payload
  unfold sshTransportGetPacket
  rw [if_neg hup, hu.len, hu.rest, length_append]
  cases hact : t.inCipher.active with
  | false =>
    obtain ⟨hmin, hmax⟩ := plainPacket_range false type hlen
    have hallow : ∀ b, strictAllows { t with inBuf := b } type = true := fun _ => hallow hact
    simp only [hact, Bool.false_eq_true, if_false, Nat.add_zero] at hframe
    rw [hframe]
    simp only [wireFrame_plain hact, append_assoc, take_left' (length_be _ 4), if_true,
      fromBe_be_of_lt (show (plainPacket false type payload).length < 256 ^ 4 by omega),
      slice_field (length_be _ 4).symm rfl, unpad_plainPacket, hallow, Bool.true_eq_false, if_false]
    rw [if_neg (by omega), if_neg (by rw [SSH_MAX_PACKET_LEN]; omega), if_neg (by omega)]
    refine ⟨_, ?_, rfl⟩
    split <;> simp [hup]
  | true =>
    obtain ⟨hmin, hmax⟩ := plainPacket_range true type hlen
    simp only [hact, if_true] at hframe
    have htake : (wireFrame p t.inCipher t.inSeq type payload ++ rest).take 4 =
        cryptLength p t.inCipher.key t.inSeq (be (plainPacket true type payload).length 4) := by
      rw [wireFrame_sealed hact, append_assoc, append_assoc, take_left' (by simp [cryptLength])]
    simp only [htake, decryptLength_crypt t.inCipher.key t.inSeq
      (show (plainPacket true type payload).length < 256 ^ 4 by omega), Bool.true_eq_false, if_false,
      take_left' hframe]
    rw [hframe, if_neg (by omega), if_neg (by rw [SSH_MAX_PACKET_LEN]; omega), if_neg (by omega),
      wireFrame_sealed hact, decryptPacket_frame _ _ hmin (by rw [SSH_MAX_PACKET_LEN]; omega) rfl]
    simp only [unpad_plainPacket]
    refine ⟨_, ?_, rfl⟩
    split <;> simp [hup]

theorem tidy_growing {b : SshBuf} (hb : Growing b) (hu : Unread b bs) :
    Growing (tidy b) ∧ Unread (tidy b) bs ∧ (tidy b).off < 4096 ∧ (tidy b).maxSize = b.maxSize := by
  have hw := hb.writable
  unfold tidy sshbufCompact
  by_cases h : 4096 ≤ b.off ∨ b.off = b.size
  · rw [if_pos h, if_neg (by simp [hw])]
    by_cases h0 : b.off = 0
    · rw [if_pos h0]
      exact ⟨hb, hu, show b.off < 4096 by omega, rfl⟩
    · rw [if_neg h0]
      exact ⟨{ hb with }, ⟨Nat.zero_le _, hu.rest⟩, Nat.zero_lt_succ 4095, rfl⟩
  · rw [if_neg h]
    exact ⟨hb, hu, by omega, rfl⟩

/-- A chunk fits behind an unfinished frame. -/
theorem sshTransportFeedInput_fits {c : Bytes} (hpool : ∀ n ≤ 65536, g n = true) (hup : t.state ≠ .error)
    (hb : Growing t.inBuf) (hmax : t.inBuf.maxSize = 65536) (hu : Unread t.inBuf bs) (hbs : bs.length ≤ 34033)
    (hc : c.length ≤ 4096) :
    ∃ b, sshTransportFeedInput g t c = (none, { t with inBuf := b }) ∧ Growing b ∧ b.maxSize = 65536 ∧
      b.off < 4096 ∧ Unread b (bs ++ c) := by
  obtain ⟨hb', hu', hoff, hmax'⟩ := tidy_growing hb hu
  have hlen := hu'.len
  have hle := hu'.off_le
  rw [sshbufLen, if_neg (by omega)] at hlen
  unfold sshTransportFeedInput sshbufPutRaw
  rw [if_neg hup]
  by_cases h0 : c.length = 0
  · rw [if_pos h0, length_eq_zero_iff.1 h0, append_nil]
    exact ⟨_, rfl, hb', hmax'.trans hmax, hoff, hu'⟩
  rw [if_neg h0]
  have hfits : Fits g (tidy t.inBuf) c.length := by
    refine ⟨by omega, fun _ => hpool _ ?_⟩
    rw [newAlloc, hmax', hmax, if_neg (by have := hb'.pos; omega)]
    exact growAlloc_le (by omega) (by have := hb'.le_max; omega)
  rcases sshbufPutBytes_growing hb' c with ⟨_, b, hp, hgb, hd, ho, hm, _⟩ | ⟨hf, _⟩
  · rw [hp]
    refine ⟨b, rfl, hgb, by omega, by omega, ?_, ?_⟩
    · rw [ho, SshBuf.size, hd, length_append]
      exact Nat.le_add_right_of_le hle
    · rw [sshbufPtr, hd, ho, drop_append_of_le_length hle, ← hu'.rest, sshbufPtr]
  · exact absurd hfits hf

/-! ## The two sides -/

/-- A sender and a receiver that stand at the same point of the stream. -/
structure InSync (s : Sender) (t : Transport) : Prop where
  up : t.state ≠ .error
  cipher : s.t.outCipher = t.inCipher
  seq : s.outSeq = t.inSeq
  strict : s.t.strictKex = t.strictKex
  growing : Growing t.inBuf
  limit : t.inBuf.maxSize = 65536

/-- The receiver derives keys, and what the sender seals with is what it opens with. -/
def Switch.Agrees (p : Primitives) (g : Grant) (k : Switch) : Prop :=
  ∃ r, kexDeriveKeys p.crypto g k.receiver = .ok r ∧
    ∀ g' s, kexDeriveKeys p.crypto g' k.sender = .ok s → s.keyS2c = r.keyC2s

/-- Whether the packets up to the first change of keys are of types that are let through. -/
def Admitted (allows : UInt8 → Bool) : List Msg → Prop
  | [] => True
  | m :: ms => allows m.type = true ∧ (m.after = [] → Admitted allows ms)

theorem InSync.switch {k : Switch} {g' : Grant} (h : InSync s t) (hk : k.Agrees p g)
    (hs : s.switch p.crypto g' k = .ok s') :
    ∃ t', t.switch p.crypto g k.receiver k.isRekey = .ok t' ∧ InSync s' t' ∧ t'.inBuf = t.inBuf ∧
      t'.inCipher.active = true := by
  obtain ⟨r, hr, hkeys⟩ := hk
  unfold Sender.switch Transport.switch sshTransportApplyNewkeys at hs
  unfold Transport.switch sshTransportApplyNewkeys
  rw [hr]
  cases hd : kexDeriveKeys p.crypto g' k.sender with
  | error e => simp [hd, bind, Except.bind] at hs
  | ok kex =>
    rw [hd] at hs
    obtain rfl := Except.ok.inj hs
    refine ⟨_, rfl, ⟨by simp, ?_, ?_, h.strict, h.growing, h.limit⟩, rfl, rfl⟩
    · simp only [hkeys g' kex hd]
    · simp only [h.strict, h.seq]

theorem InSync.switchAll {g' : Grant} : ∀ {ks : List Switch} {s : Sender} {t : Transport}, InSync s t →
    (∀ k ∈ ks, k.Agrees p g) → ks.foldlM (Sender.switch p.crypto g') s = .ok s' →
    ∃ t', ks.foldlM (fun t k => t.switch p.crypto g k.receiver k.isRekey) t = .ok t' ∧ InSync s' t' ∧
      t'.inBuf = t.inBuf ∧ (ks = [] ∧ t' = t ∨ t'.inCipher.active = true)
  | [], s, t, h, _, hs => by
    obtain rfl := Except.ok.inj hs
    exact ⟨t, rfl, h, rfl, .inl ⟨rfl, rfl⟩⟩
  | k :: ks, s, t, h, hks, hs => by
    rw [foldlM_cons] at hs
    cases hk : s.switch p.crypto g' k with
    | error e => simp [hk, bind, Except.bind] at hs
    | ok s1 =>
      rw [hk] at hs
      obtain ⟨t1, ht1, h1, hb1, ha1⟩ := h.switch (hks k (by simp)) hk
      obtain ⟨t', ht', h', hb', ha'⟩ := h1.switchAll (fun k hk => hks k (.tail _ hk)) hs
      refine ⟨t', ?_, h', hb'.trans hb1, .inr ?_⟩
      · rw [foldlM_cons, ht1]
        exact ht'
      rcases ha' with ⟨_, rfl⟩ | ha'
      · exact ha1
      · exact ha'

/-- What is still to come: the packets `ms` are on the wire as `wire`, and its start `bs` has
reached the receiver. -/
structure Awaits (p : Primitives) (g : Grant) (ms : List Msg) (wire : Bytes) (s : Sender) (t : Transport)
    (bs : Bytes) : Prop where
  sync : InSync s t
  sends : Sends p s ms wire
  small : ∀ m ∈ ms, m.payload.length ≤ 34000
  agree : ∀ m ∈ ms, ∀ k ∈ m.after, k.Agrees p g
  admitted : t.inCipher.active = false → Admitted (strictAllows t) ms
  unread : Unread t.inBuf bs
  reached : bs <+: wire

/-- The bytes in hand are less than the next frame. -/
def Short (p : Primitives) (ms : List Msg) (t : Transport) (bs : Bytes) : Prop :=
  ∀ m ∈ ms.head?, bs.length < (wireFrame p t.inCipher t.inSeq m.type m.payload).length

theorem Awaits.frame {m : Msg} (h : Awaits p g (m :: ms) wire s t bs) :
    ∃ wire' g' s2, wire = wireFrame p t.inCipher t.inSeq m.type m.payload ++ wire' ∧
      m.after.foldlM (Sender.switch p.crypto g') { s with outSeq := (s.outSeq + 1) % 2 ^ 32 } = .ok s2 ∧
      Sends p s2 ms wire' := by
  cases h.sends with
  | cons g' hsend hframe hswitch hrest =>
    obtain ⟨rfl, hdata⟩ := sshTransportSendPacket_frame hsend
    rw [← h.sync.cipher, ← h.sync.seq, ← append_cancel_left (hframe.symm.trans hdata)]
    exact ⟨_, g', _, rfl, hswitch, hrest⟩

/-- A whole frame gives its packet, and the two sides change keys alike. -/
theorem Awaits.step {m : Msg} (h : Awaits p g (m :: ms) wire s t bs)
    (hwhole : (wireFrame p t.inCipher t.inSeq m.type m.payload).length ≤ bs.length) :
    ∃ wire' bs' s' t1 t', wire = wireFrame p t.inCipher t.inSeq m.type m.payload ++ wire' ∧
      bs = wireFrame p t.inCipher t.inSeq m.type m.payload ++ bs' ∧
      sshTransportGetPacket p.crypto t = (.ok (m.type, m.type :: m.payload), t1) ∧
      m.after.foldlM (fun t k => t.switch p.crypto g k.receiver k.isRekey) t1 = .ok t' ∧
      Awaits p g ms wire' s' t' bs' := by
  obtain ⟨wire', g', s', rfl, hswitch, hrest⟩ := h.frame
  obtain ⟨bs', rfl⟩ := prefix_of_prefix_length_le (prefix_append _ wire') h.reached hwhole
  have hreached : bs' <+: wire' := (prefix_append_right_inj _).1 h.reached
  obtain ⟨st, hst, hget⟩ := getPacket_whole h.sync.up (h.small m (by simp)) (fun ha => (h.admitted ha).1) h.unread
  have hgrow := h.sync.growing
  have hskip : Growing { t.inBuf with
      off := t.inBuf.off + (wireFrame p t.inCipher t.inSeq m.type m.payload).length } :=
    { hgrow with }
  obtain ⟨hb, hu, _, hmax⟩ := tidy_growing hskip (h.unread.skip rfl)
  obtain ⟨t', ht', hsync, hbuf, hact⟩ := InSync.switchAll
    (s := { s with outSeq := (s.outSeq + 1) % 2 ^ 32 }) (t := { t with
      state := st, inSeq := (t.inSeq + 1) % 2 ^ 32,
      inBuf := tidy { t.inBuf with off := t.inBuf.off + (wireFrame p t.inCipher t.inSeq m.type m.payload).length } })
    ⟨hst, h.sync.cipher, congrArg (fun n => (n + 1) % 2 ^ 32) h.sync.seq, h.sync.strict, hb, hmax.trans h.sync.limit⟩
    (h.agree m (by simp)) hswitch
  refine ⟨wire', bs', s', _, t', rfl, rfl, hget, ht', hsync, hrest, fun n hn => h.small n (by simp [hn]),
    fun n hn => h.agree n (by simp [hn]), fun ha => ?_, hbuf ▸ hu, hreached⟩
  rcases hact with ⟨hnil, rfl⟩ | hact
  · exact (h.admitted ha).2 hnil
  · simp [ha] at hact

/-- Reading returns the packets that are whole and stops before the next frame. -/
theorem readAll_awaits {fuel : Nat} (h : Awaits p g ms wire s t bs) (hf : bs.length < fuel) :
    ∃ ms1 ms2 wire1 wire2 bs2 s2 t2, ms = ms1 ++ ms2 ∧ wire = wire1 ++ wire2 ∧ bs = wire1 ++ bs2 ∧
      readAll p.crypto g fuel (ms.map (·.after)) t =
        .ok (ms1.map fun m => (m.type, m.type :: m.payload), ms2.map (·.after), t2) ∧
      Awaits p g ms2 wire2 s2 t2 bs2 ∧ Short p ms2 t2 bs2 := by
  induction fuel generalizing ms wire s t bs with
  | zero => omega
  | succ fuel ih =>
    -- where the receiver waits, nothing has been read
    have hwait (hget : sshTransportGetPacket p.crypto t = (.error .again, t)) :
        readAll p.crypto g (fuel + 1) (ms.map (·.after)) t = .ok ([], ms.map (·.after), t) := by
      simp [readAll, hget]
    cases ms with
    | nil =>
      have hwire : wire = [] := by cases h.sends; rfl
      have hbs : bs = [] := prefix_nil.1 (hwire ▸ h.reached)
      refine ⟨[], [], [], wire, bs, s, t, rfl, rfl, rfl, hwait ?_, h, by simp [Short]⟩
      rw [sshTransportGetPacket, if_neg h.sync.up]
      simp [h.unread.len, hbs]
    | cons m ms =>
      by_cases hlt : bs.length < (wireFrame p t.inCipher t.inSeq m.type m.payload).length
      · obtain ⟨wire', _, _, rfl, _, _⟩ := h.frame
        refine ⟨[], m :: ms, [], _, bs, s, t, rfl, rfl, rfl, hwait ?_, h, by simpa [Short] using hlt⟩
        exact getPacket_partial h.sync.up h.unread (h.small m (by simp)) h.reached hlt
      obtain ⟨wire', bs', s', t1, t', rfl, rfl, hget, hswitch, h'⟩ := h.step (by omega)
      have hpos := length_wireFrame p t.inCipher t.inSeq m.type m.payload
      rw [length_append] at hf
      obtain ⟨ms1, ms2, wire1, wire2, bs2, s2, t2, rfl, rfl, rfl, hread, h2, hshort⟩ := ih h' (by omega)
      refine ⟨m :: ms1, ms2, _ ++ wire1, wire2, bs2, s2, t2, rfl, by rw [append_assoc],
        by rw [append_assoc], ?_, h2, hshort⟩
      rw [readAll, hget]
      simp only [map_cons, headD_cons, tail_cons, hswitch, hread, bind, Except.bind, pure, Except.pure]

theorem Short.length_le (h : Awaits p g ms wire s t bs) (hshort : Short p ms t bs) : bs.length ≤ 34033 := by
  cases hms : ms with
  | nil =>
    have hwire : wire = [] := by cases hms ▸ h.sends; rfl
    simp [prefix_nil.1 (hwire ▸ h.reached)]
  | cons m ms =>
    have hlt := hshort m (by simp [hms])
    obtain ⟨_, hmax⟩ := plainPacket_range t.inCipher.active m.type (h.small m (by simp [hms]))
    rw [length_wireFrame] at hlt
    split at hlt <;> omega

/-- Chunk by chunk, the packets still to come are returned. -/
theorem receive_awaits (hpool : ∀ n ≤ 65536, g n = true) {chunks : List Bytes} (h : Awaits p g ms wire s t bs)
    (hshort : Short p ms t bs) (hchunks : ∀ c ∈ chunks, c.length ≤ 4096) (hwire : bs ++ chunks.flatten = wire) :
    receive p.crypto g chunks (ms.map (·.after)) t = .ok (ms.map fun m => (m.type, m.type :: m.payload)) := by
  induction chunks generalizing ms wire s t bs with
  | nil =>
    cases ms with
    | nil => rfl
    | cons m ms =>
      obtain ⟨wire', _, _, rfl, _, _⟩ := h.frame
      have hlt := hshort m rfl
      have hlen := congrArg length hwire
      simp only [flatten_nil, append_nil, length_append] at hlen
      omega
  | cons c cs ih =>
    obtain ⟨b, hfeed, hb, hmax, _, hu⟩ := sshTransportFeedInput_fits hpool h.sync.up h.sync.growing h.sync.limit
      h.unread (hshort.length_le h) (hchunks c (by simp))
    have hfed : Awaits p g ms wire s { t with inBuf := b } (bs ++ c) :=
      ⟨⟨h.sync.up, h.sync.cipher, h.sync.seq, h.sync.strict, hb, hmax⟩, h.sends, h.small, h.agree, h.admitted, hu,
        by rw [← hwire, flatten_cons, ← append_assoc]; exact prefix_append _ _⟩
    have hfuel : (bs ++ c).length < sshbufLen b + 1 := by
      rw [hu.len]
      exact Nat.lt_succ_self _
    obtain ⟨ms1, ms2, wire1, wire2, bs2, s2, t2, rfl, rfl, hcut, hread, h2, hshort2⟩ := readAll_awaits hfed hfuel
    have hrest : bs2 ++ cs.flatten = wire2 := by
      rw [flatten_cons, ← append_assoc, hcut, append_assoc] at hwire
      exact append_cancel_left hwire
    have hmore := ih h2 hshort2 (fun c hc => hchunks c (by simp [hc])) hrest
    rw [receive, hfeed]
    simp only [hread, hmore, bind, Except.bind, pure, Except.pure]
    rw [map_append]

/-- **Packets arrive as they were sent.** However the stream is cut into chunks of at most 4096
bytes, the receiver returns the packets in order and no error, provided that a strict
receiver without keys is only sent the types it lets through. -/
theorem receive_sent (hpool : ∀ n ≤ 65536, g n = true) (hsync : InSync s t) (hempty : Unread t.inBuf [])
    (hsends : Sends p s ms wire) (hsmall : ∀ m ∈ ms, m.payload.length ≤ 34000)
    (hagree : ∀ m ∈ ms, ∀ k ∈ m.after, k.Agrees p g)
    (hadmitted : t.inCipher.active = false → Admitted (strictAllows t) ms)
    (chunks : List Bytes) (hchunks : ∀ c ∈ chunks, c.length ≤ 4096) (hwire : chunks.flatten = wire) :
    receive p.crypto g chunks (ms.map (·.after)) t = .ok (ms.map fun m => (m.type, m.type :: m.payload)) := by
  have hstart : Awaits p g ms wire s t [] :=
    ⟨hsync, hsends, hsmall, hagree, hadmitted, hempty, nil_prefix⟩
  refine receive_awaits hpool hstart (fun m _ => ?_) hchunks hwire
  rw [length_wireFrame, length_nil]
  omega

/-! ## Sending as a whole -/

theorem putSeq_u32 (g : Grant) (n : Nat) (ps : List Put) (b : SshBuf) :
    putSeq (sshbufPutU32 g n :: ps) b = putSeq (sshbufPutRaw g (be n 4) :: ps) b := by
  simp [putSeq, sshbufPutU32, sshbufPutRaw]

/-- A sequence of writes succeeds if there is room for the first ones together, however many. -/
theorem putSeq_raw (g : Grant) : ∀ (fs : List Bytes) (b : SshBuf), (∀ f ∈ fs, f ≠ []) →
    ((putSeq (fs.map (sshbufPutRaw g)) b).1 = none ↔ ∀ k : Fin fs.length, Room g b (fs.take (k + 1)).flatten.length)
  | [], b, _ => by simp [putSeq]
  | f :: fs, b, h => by
    have hcons : (∀ k : Fin (f :: fs).length, Room g b ((f :: fs).take (k + 1)).flatten.length) ↔
        Room g b f.length ∧ ∀ k : Fin fs.length, Room g b (f.length + (fs.take (k + 1)).flatten.length) := by
      rw [length_cons, Fin.forall_fin_succ]
      simp
    rw [map_cons, putSeq, hcons]
    rcases sshbufPutRaw_cases g b (h f (.head _)) with ⟨hr, hx⟩ | ⟨hr, e, hx⟩ <;> simp only [hx, hr, true_and, false_and]
    · simp only [← room_append hr]
      exact putSeq_raw g fs _ fun f' hf' => h f' (.tail _ hf')
    · simp

/-- Two writes, of which only the second can leave something behind when it fails. -/
theorem putSeq_pair_atomic (g : Grant) (w : SshBuf) {head body : Bytes} (hh : head ≠ []) (hb : body ≠ []) :
    (∀ e w', putSeq [sshbufPutRaw g head, sshbufPutRaw g body] w = (some e, w') → w' = w) ↔
      (Room g w head.length → Room g w (head.length + body.length)) := by
  rcases sshbufPutRaw_cases g w hh with ⟨hr, hx⟩ | ⟨hr, e, hx⟩
  · rw [← room_append hr, imp_iff_right hr]
    rcases sshbufPutRaw_cases g ((reserved w head.length).append head) hb with ⟨hr', hx'⟩ | ⟨hr', e, hx'⟩
    · simp [putSeq, hx, hx', hr']
    -- the first is in the buffer when the second is refused
    have hlong : (reserved w head.length).append head ≠ w := fun h => by
      have := congrArg (fun b => b.data.length) h
      simp [reserved, SshBuf.append, hh] at this
    simp [putSeq, hx, hx', hr', hlong]
  · simp [putSeq, hx, hr]

/-- **Sending is atomic** exactly when the padded packet fits the static buffer `plain` and the output buffer, as
the call finds it, has room: in the clear for the packet if it has room for the length field, and with keys in use,
if the cipher takes the packet, for each of its three parts. -/
theorem send_packet_atomic_iff (p : Primitives) (g : Grant) (s : Sender) (type : UInt8) (payload : Bytes) (w : SshBuf) :
    let plain := plainPacket s.t.outCipher.active type payload
    ((s.t.state ≠ .error → plain.length ≤ SSH_MAX_PACKET_LEN + 32) ∧
      ∀ e s' w', sshTransportSendPacket p g s type payload w = (some e, s', w') → w' = w ∧ s'.outSeq = s.outSeq) ↔
    s.t.state = .error ∨ (plain.length ≤ SSH_MAX_PACKET_LEN + 32 ∧
      if s.t.outCipher.active then
        SSH_MAX_PACKET_LEN < plain.length ∨
          Room g w 4 ∧ Room g w (4 + plain.length) ∧ Room g w (4 + plain.length + 16)
      else Room g w 4 → Room g w (4 + plain.length)) := by
  intro plain
  by_cases hup : s.t.state = .error
  · simp [sshTransportSendPacket, hup]
  simp only [hup, ne_eq, not_false_eq_true, true_imp_iff, false_or]
  refine and_congr_right fun _ => ?_
  rw [sshTransportSendPacket, if_neg hup]
  have hmin : SSH_MIN_PACKET_LEN ≤ plain.length := by
    rw [length_plainPacket, SSH_MIN_PACKET_LEN]
    have := padLen_range s.t.outCipher.active payload.length
    omega
  have hpos : 0 < plain.length := Nat.lt_of_lt_of_le (by decide) hmin
  cases hact : s.t.outCipher.active with
  | false =>
    have hplain : plainPacket false type payload = plain := by simp [plain, hact]
    have hput := putSeq_pair_atomic g w (ne_nil_of_length_pos (by simp : 0 < (be plain.length 4).length))
      (ne_nil_of_length_pos hpos)
    rw [length_be] at hput
    simp only [hplain, putSeq_u32, if_true, Bool.false_eq_true, if_false, ← hput]
    generalize putSeq _ w = q
    obtain ⟨r, w'⟩ := q
    cases r <;> simp
  | true =>
    -- the cipher has counted the packet before it is written
    have hseq : (s.outSeq + 1) % 2 ^ 32 ≠ s.outSeq := by omega
    have hplain : plainPacket true type payload = plain := by simp [plain, hact]
    simp only [sshCipherEncryptPacket, hplain, Nat.not_lt.2 hmin, false_or, Bool.true_eq_false, if_false, if_true]
    by_cases hmax : SSH_MAX_PACKET_LEN < plain.length
    · simp [hmax]
    simp only [hmax, if_false, false_or]
    generalize hhead : cryptLength p s.t.outCipher.key s.outSeq (be plain.length 4) = head
    generalize hbody : cryptBody p s.t.outCipher.key s.outSeq plain = body
    generalize htag : frameTag p s.t.outCipher.key s.outSeq (head ++ body) = tag
    have h4 : head.length = 4 := by simp [← hhead, cryptLength]
    have hlen : body.length = plain.length := by simp [← hbody, cryptBody]
    have h16 : tag.length = 16 := by simp [← htag, frameTag, p.length_tag]
    have hsome : ∀ f ∈ [head, body, tag], f ≠ [] := by simp [← length_pos_iff, h4, h16, hlen, hpos]
    have hput : (putSeq [sshbufPutRaw g head, sshbufPutRaw g body, sshbufPutRaw g tag] w).1 = none ↔
        Room g w 4 ∧ Room g w (4 + plain.length) ∧ Room g w (4 + plain.length + 16) := by
      simpa [Fin.forall_fin_succ, h4, h16, hlen, ← Nat.add_assoc] using putSeq_raw g _ w hsome
    rw [← hput]
    generalize putSeq _ w = q
    obtain ⟨r, w'⟩ := q
    cases r with
    | none => simp
    | some e => exact ⟨fun h => absurd (h e _ w' rfl).2 hseq, by simp⟩

/-- Primitives that leave every byte as it is. -/
def clearPrimitives : Primitives where
  x25519 _ _ := none
  sha256 _ := List.replicate 32 0
  keystream _ _ _ _ := 0
  poly1305 _ _ := List.replicate 16 0
  length_tag _ _ := rfl

/-- A transport as `ssh_transport_init` leaves it, with strict key exchange on. -/
def strictTransport : Transport :=
  ⟨.init, true, false, kexInit, ⟨[], false⟩, ⟨[], false⟩, 0, ⟨[], 4096, 0, 65536, false, true⟩, .again⟩

/-- Strict key exchange refuses an IGNORE packet (type 2) before the keys are in use. -/
theorem receive_ignore_strict : ∃ wire, Sends clearPrimitives ⟨strictTransport, 0⟩ [⟨2, [], []⟩] wire ∧
    receive clearPrimitives.crypto (fun _ => true) [wire] [[]] strictTransport = .error .protocolViolation :=
  ⟨wireFrame clearPrimitives ⟨[], false⟩ 0 2 [] ++ [],
    .cons (w := strictTransport.inBuf) (fun _ => true) rfl rfl rfl (.nil _), by decide⟩

def clearSwitch : Switch := ⟨false, { kexInit with state := .ecdhDone }, { kexInit with state := .ecdhDone }⟩

theorem clearSwitch_agrees : clearSwitch.Agrees clearPrimitives fun _ => true := by
  refine ⟨_, rfl, fun g' s hs => ?_⟩
  unfold kexDeriveKeys deriveKeyPair at hs
  rw [if_neg (by decide)] at hs
  split at hs
  · cases hs
  obtain rfl := Except.ok.inj hs
  rfl

/-- A buffer with room for the length only is left with it, and a payload of the length limit runs out of `plain`. -/
theorem send_packet_torn : (∀ p : Primitives,
    sshTransportSendPacket p (fun _ => false) ⟨strictTransport, 0⟩ 2 [] ⟨[], 4, 0, 4, false, false⟩ =
      (some .bufferTooSmall, ⟨strictTransport, 0⟩, ⟨[0, 0, 0, 12], 4, 0, 4, false, false⟩)) ∧
    SSH_MAX_PACKET_LEN + 32 < (plainPacket false 2 (List.replicate (SSH_MAX_PACKET_LEN + 32) 0)).length :=
  ⟨fun _ => rfl, by rw [length_plainPacket, length_replicate]; omega⟩

theorem receive_sent_newkeys : ∃ wire,
    Sends clearPrimitives ⟨strictTransport, 0⟩ [⟨21, [], [clearSwitch]⟩, ⟨94, [7], []⟩] wire ∧
    receive clearPrimitives.crypto (fun _ => true) [wire.take 9, wire.drop 9] [[clearSwitch], []] strictTransport =
      .ok [(21, [21]), (94, [94, 7])] := by
  have hsends : Sends clearPrimitives ⟨strictTransport, 0⟩ [⟨21, [], [clearSwitch]⟩, ⟨94, [7], []⟩]
      (wireFrame clearPrimitives ⟨[], false⟩ 0 21 [] ++
        (wireFrame clearPrimitives ⟨replicate 64 0, true⟩ 0 94 [7] ++ [])) :=
    .cons (w := strictTransport.inBuf) (fun _ => true) rfl rfl rfl
      (.cons (w := strictTransport.inBuf) (fun _ => true) rfl rfl rfl (.nil _))
  refine ⟨_, hsends, receive_sent (fun _ _ => rfl)
    ⟨by decide, rfl, rfl, rfl, ⟨rfl, rfl, by decide, by decide⟩, rfl⟩ (by exact ⟨le_rfl, rfl⟩) hsends
    (by simp) ?_ (fun _ => ⟨rfl, nofun⟩) _ ?_ (by simp [take_append_drop])⟩
  · intro m hm k hk
    simp only [mem_cons, not_mem_nil, or_false] at hm
    rcases hm with rfl | rfl
    · rw [mem_singleton.1 hk]
      exact clearSwitch_agrees
    · cases hk
  · decide

end Fortress.Sshd
