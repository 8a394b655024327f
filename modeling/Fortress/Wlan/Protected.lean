/-
Protected data frames of net/wlan/wlan_crypto.c: AES-128 CCMP
and TKIP, each with its encryptor. A frame is a byte list; a function that
fills a buffer returns the bytes and keeps the source's return code as its
error. Both receivers carry the same replay tracker: the highest packet
number and a 64-bit map of the numbers that end there.

A frame made with the receiver's key passes every check but the window, and
comes out as it went in, with the Protected bit cleared.
-/
import Fortress.Wlan.Crypto

namespace Fortress.Wlan

open List

/-! ## AES-128 encryption -/

/-- Position `i` of the state takes the byte at position `shift[i]`. -/
def shift : List Nat := [0, 5, 10, 15, 4, 9, 14, 3, 8, 13, 2, 7, 12, 1, 6, 11]

def shiftRows (state : Bytes) : Bytes := shift.map fun i => state.getD i 0

def subBytes (state : Bytes) : Bytes := state.map fun b => sbox.getD b.toNat 0

def mixColumns (state : Bytes) : Bytes :=
  (List.range 4).flatMap fun c =>
    let a := fun j => state.getD (c * 4 + j) 0
    [xtime (a 0 ^^^ a 1) ^^^ a 1 ^^^ a 2 ^^^ a 3,
     xtime (a 1 ^^^ a 2) ^^^ a 2 ^^^ a 3 ^^^ a 0,
     xtime (a 2 ^^^ a 3) ^^^ a 3 ^^^ a 0 ^^^ a 1,
     xtime (a 3 ^^^ a 0) ^^^ a 0 ^^^ a 1 ^^^ a 2]

def encryptRound (roundKeys : Bytes) (round : Nat) (state : Bytes) : Bytes :=
  let state := shiftRows (subBytes state)
  addRoundKey roundKeys round (if round < 10 then mixColumns state else state)

def aes128EncryptBlock (roundKeys block : Bytes) : Bytes :=
  [1, 2, 3, 4, 5, 6, 7, 8, 9, 10].foldl (fun state round => encryptRound roundKeys round state)
    (addRoundKey roundKeys 0 block)

/-! ## CCM -/

def hiByte (n : Nat) : UInt8 := (n / 256).toUInt8

def loByte (n : Nat) : UInt8 := n.toUInt8

def ccmpNonce (pn : UInt64) (aad : Bytes) : Bytes :=
  (if 24 ≤ aad.length then aad.getD 22 0 &&& 0x0F else 0) ::
    ((if 14 ≤ aad.length then (aad.drop 8).take 6 else List.replicate 6 0) ++
      [(pn >>> 40).toUInt8, (pn >>> 32).toUInt8, (pn >>> 24).toUInt8,
       (pn >>> 16).toUInt8, (pn >>> 8).toUInt8, pn.toUInt8])

/-- One block of the CBC-MAC; a short block is padded with zeros. -/
def macBlock (roundKeys x block : Bytes) : Bytes :=
  aes128EncryptBlock roundKeys ((List.range 16).map fun k => x.getD k 0 ^^^ block.getD k 0)

/-- The 16-byte blocks of `data`, the last one as short as the data leaves it. -/
def blocks (data : Bytes) : List Bytes :=
  (List.range ((data.length + 15) / 16)).map fun i => (data.drop (16 * i)).take 16

def macBlocks (roundKeys x data : Bytes) : Bytes := (blocks data).foldl (macBlock roundKeys) x

def ccmpTag (roundKeys nonce aad plain : Bytes) : Bytes :=
  let flags : UInt8 := (if aad.length > 0 then (0x40 : UInt8) else 0x00) ||| ((3 : UInt8) <<< 3) ||| 1
  let b0 := flags :: nonce ++ [hiByte plain.length, loByte plain.length]
  let x := aes128EncryptBlock roundKeys b0
  let x :=
    if aad.length > 0 then
      let x := macBlock roundKeys x (hiByte aad.length :: loByte aad.length :: aad.take 14)
      macBlocks roundKeys x (aad.drop 14)
    else x
  macBlocks roundKeys x plain

/-- Block `ctr` of the key stream; the counter is a `uint16_t`. -/
def ctrBlock (roundKeys nonce : Bytes) (ctr : Nat) : Bytes :=
  aes128EncryptBlock roundKeys (1 :: nonce ++ [hiByte (ctr % 65536), loByte (ctr % 65536)])

-- Byte `k` of the text meets byte `k % 16` of the block made with counter `k / 16 + 1`.
def ctrCrypt (roundKeys nonce data : Bytes) : Bytes :=
  data.mapIdx fun k b => b ^^^ (ctrBlock roundKeys nonce (k / 16 + 1)).getD (k % 16) 0

/-- The tag under block 0 of the key stream: the same step makes a MIC and opens one. -/
def ctrMic (roundKeys nonce tag : Bytes) : Bytes :=
  (List.range 8).map fun k => tag.getD k 0 ^^^ (ctrBlock roundKeys nonce 0).getD k 0

variable (tk : Bytes) (pn : UInt64)

def wlanCcmpEncrypt (aad plain : Bytes) : Bytes × Bytes :=
  let roundKeys := aes128KeyExpansion tk
  let nonce := ccmpNonce pn aad
  (ctrCrypt roundKeys nonce plain, ctrMic roundKeys nonce (ccmpTag roundKeys nonce aad plain))

/-- The source's accumulated difference of two eight-byte tags. -/
def tagDiff (x y : Bytes) : UInt8 :=
  (List.range 8).foldl (fun diff k => diff ||| (x.getD k 0 ^^^ y.getD k 0)) 0

def wlanCcmpDecrypt (aad cipher mic : Bytes) : Option Bytes :=
  let roundKeys := aes128KeyExpansion tk
  let nonce := ccmpNonce pn aad
  let plain := ctrCrypt roundKeys nonce cipher
  let expectedT := ctrMic roundKeys nonce mic
  if tagDiff (ccmpTag roundKeys nonce aad plain) expectedT ≠ 0 then none else some plain

/-! ## The replay tracker -/

/-- The caller's `rx_pn` and `rx_bitmap`; `rx_pn = 0` means that nothing was accepted yet. -/
structure ReplayTracker where
  rxPn : UInt64
  rxBitmap : UInt64
deriving DecidableEq, Repr

def ReplayTracker.zero : ReplayTracker := ⟨0, 0⟩

/-- The check made before the frame is opened, where both receivers return -2. -/
def replayRefuses (t : ReplayTracker) (pn : UInt64) : Bool :=
  if t.rxPn ≠ 0 then
    if pn ≤ t.rxPn then
      let diff := t.rxPn - pn
      decide (diff ≥ 64) || t.rxBitmap &&& (1 <<< diff) != 0
    else false
  else false

/-- The update made once the frame is authenticated. -/
def replayCommit (t : ReplayTracker) (pn : UInt64) : ReplayTracker :=
  if t.rxPn = 0 then { rxPn := if pn = 0 then 1 else pn, rxBitmap := 1 }
  else if pn > t.rxPn then
    let diff := pn - t.rxPn
    { rxPn := pn, rxBitmap := if diff < 64 then (t.rxBitmap <<< diff) ||| 1 else 1 }
  else
    let diff := t.rxPn - pn
    if diff < 64 then { t with rxBitmap := t.rxBitmap ||| (1 <<< diff) } else t

/-! ## Frames -/

def frameControl (hdr : Bytes) : UInt16 :=
  (hdr.getD 0 0).toUInt16 ||| ((hdr.getD 1 0).toUInt16 <<< 8)

def isQos (fc : UInt16) : Bool := (fc >>> 4) &&& 0x08 != 0

def headerLen (fc : UInt16) : Nat := if isQos fc then 26 else 24

def setProtected (hdr : Bytes) : Bytes := hdr.set 1 (hdr.getD 1 0 ||| 0x40)

def clearProtected (hdr : Bytes) : Bytes := hdr.set 1 (hdr.getD 1 0 &&& 0xBF)

/-- The authenticated header fields: retry, power, more-data and order bits masked, QoS priority kept. -/
def ccmpAad (hdr : Bytes) : Bytes :=
  let fc := frameControl hdr
  let fcMask : UInt16 := 0x0070 ||| 0x0800 ||| 0x1000 ||| 0x2000 ||| 0x8000
  let maskedFc := (fc &&& ~~~fcMask) ||| 0x4000
  [maskedFc.toUInt8, (maskedFc >>> 8).toUInt8] ++ (hdr.drop 4).take 18 ++ [hdr.getD 22 0 &&& 0x0F, 0] ++
    if isQos fc then [hdr.getD 24 0 &&& 0x0F, 0] else []

def ccmpHeader (pn : UInt64) : Bytes :=
  [pn.toUInt8, (pn >>> 8).toUInt8, 0, 0x20,
   (pn >>> 16).toUInt8, (pn >>> 24).toUInt8, (pn >>> 32).toUInt8, (pn >>> 40).toUInt8]

/-- A packet number from its six bytes, the lowest first. -/
def packetNumber (b0 b1 b2 b3 b4 b5 : UInt8) : UInt64 :=
  b0.toUInt64 ||| (b1.toUInt64 <<< 8) ||| (b2.toUInt64 <<< 16) |||
    (b3.toUInt64 <<< 24) ||| (b4.toUInt64 <<< 32) ||| (b5.toUInt64 <<< 40)

/-- The packet number in the eight bytes after the header. -/
def ccmpPn (frame : Bytes) : UInt64 :=
  let h := frame.drop (headerLen (frameControl frame))
  packetNumber (h.getD 0 0) (h.getD 1 0) (h.getD 4 0) (h.getD 5 0) (h.getD 6 0) (h.getD 7 0)

def wlanCcmpEncryptFrame (plainFrame : Bytes) (outLen : Nat) : Except Int Bytes :=
  if plainFrame.length < 24 then .error (-1)
  else
    let hdrLen := headerLen (frameControl plainFrame)
    if plainFrame.length < hdrLen then .error (-1)
    else if outLen < plainFrame.length + 16 then .error (-1)
    else
      let (cipher, mic) := wlanCcmpEncrypt tk pn (ccmpAad plainFrame) (plainFrame.drop hdrLen)
      .ok (setProtected (plainFrame.take hdrLen) ++ ccmpHeader pn ++ cipher ++ mic)

def wlanCcmpDecryptFrame (tk cipherFrame : Bytes) (outLen : Nat) (t : ReplayTracker) :
    Except Int (Bytes × ReplayTracker) :=
  if cipherFrame.length < 40 then .error (-1)
  else
    let fc := frameControl cipherFrame
    if fc &&& 0x4000 = 0 then .error (-1)
    else
      let hdrLen := headerLen fc
      if cipherFrame.length < hdrLen + 16 then .error (-1)
      else
        let payloadLen := cipherFrame.length - hdrLen - 16
        let pn := ccmpPn cipherFrame
        if replayRefuses t pn then .error (-2)
        else if outLen < hdrLen + payloadLen then .error (-1)
        else
          let cipher := (cipherFrame.drop (hdrLen + 8)).take payloadLen
          let mic := cipherFrame.drop (hdrLen + 8 + payloadLen)
          match wlanCcmpDecrypt tk pn (ccmpAad cipherFrame) cipher mic with
          | none => .error (-1)
          | some plain => .ok (clearProtected (cipherFrame.take hdrLen) ++ plain, replayCommit t pn)

/-! ## What the encryptor makes -/

theorem ctrCrypt_ctrCrypt (roundKeys nonce data : Bytes) :
    ctrCrypt roundKeys nonce (ctrCrypt roundKeys nonce data) = data := by
  refine ext_getElem (by simp [ctrCrypt]) fun k h1 h2 => ?_
  simp [ctrCrypt]

theorem tagDiff_eq_zero {x y : Bytes} (h : ∀ k < 8, x.getD k 0 = y.getD k 0) : tagDiff x y = 0 := by
  have hr : range 8 = [0, 1, 2, 3, 4, 5, 6, 7] := rfl
  simp (disch := decide) only [tagDiff, hr, foldl_cons, foldl_nil, h, UInt8.xor_self, UInt8.or_zero]

theorem tagDiff_ctrMic (roundKeys nonce tag : Bytes) :
    tagDiff tag (ctrMic roundKeys nonce (ctrMic roundKeys nonce tag)) = 0 := by
  refine tagDiff_eq_zero fun k hk => ?_
  simp [ctrMic, getD_eq_getElem?_getD, hk]

theorem wlanCcmpDecrypt_encrypt (aad plain : Bytes) :
    wlanCcmpDecrypt tk pn aad (wlanCcmpEncrypt tk pn aad plain).1 (wlanCcmpEncrypt tk pn aad plain).2 =
      some plain := by
  simp only [wlanCcmpDecrypt, wlanCcmpEncrypt, ctrCrypt_ctrCrypt, tagDiff_ctrMic, ne_eq, not_true, if_false]

/-- The byte of `x` at bit `k`, put back at bit `k`, has the bits of `x` there and no others. -/
theorem getLsbD_byte {w : Nat} (x : BitVec w) (k : Nat) {i : Nat} (hi : i < w) :
    (((x >>> k).setWidth 8).setWidth w <<< k).getLsbD i = (decide (k ≤ i ∧ i < k + 8) && x.getLsbD i) := by
  simp only [BitVec.getLsbD_shiftLeft, BitVec.getLsbD_setWidth, BitVec.getLsbD_ushiftRight]
  by_cases h : k ≤ i
  · rw [Nat.add_sub_cancel' h]
    grind
  · grind

theorem packetNumber_bytes {pn : UInt64} (h : pn.toNat < 2 ^ 48) :
    packetNumber pn.toUInt8 (pn >>> 8).toUInt8 (pn >>> 16).toUInt8 (pn >>> 24).toUInt8
      (pn >>> 32).toUInt8 (pn >>> 40).toUInt8 = pn := by
  refine UInt64.eq_of_toBitVec_eq (BitVec.eq_of_getLsbD_eq fun i hi => ?_)
  have hhigh : 48 ≤ i → pn.toBitVec.getLsbD i = false := by
    intro hge
    rw [← BitVec.testBit_toNat]
    exact Nat.testBit_lt_two_pow (Nat.lt_of_lt_of_le h (Nat.pow_le_pow_right (by decide) hge))
  simp only [packetNumber, UInt64.toBitVec_or, UInt64.toBitVec_shiftLeft, UInt64.toBitVec_shiftRight,
    UInt64.toBitVec_ofNat, UInt8.toBitVec_toUInt64, UInt64.toBitVec_toUInt8, BitVec.shiftLeft_eq',
    BitVec.ushiftRight_eq', BitVec.getLsbD_or, getLsbD_byte _ _ hi, BitVec.getLsbD_setWidth]
  grind

theorem protected_ne_zero (fc : UInt16) : (fc ||| 0x4000) &&& 0x4000 ≠ 0 := by
  intro h
  have hbit := congrArg (fun x : UInt16 => x.toBitVec.getLsbD 14) h
  simp at hbit

theorem or_and_of_disjoint {w : Nat} (a : BitVec w) {b m : BitVec w} (h : b &&& m = 0) : (a ||| b) &&& m = a &&& m := by
  refine BitVec.eq_of_getLsbD_eq fun i hi => ?_
  have hz := congrArg (fun x : BitVec w => x.getLsbD i) h
  simp only [BitVec.getLsbD_and, BitVec.getLsbD_or, Bool.and_or_distrib_right] at hz ⊢
  simp [hz]

theorem isQos_protected (fc : UInt16) : isQos (fc ||| 0x4000) = isQos fc := by
  have h : ((fc ||| 0x4000) >>> 4) &&& (0x08 : UInt16) = (fc >>> 4) &&& 0x08 := by
    rw [UInt16.shiftRight_or]
    exact UInt16.eq_of_toBitVec_eq (or_and_of_disjoint _ (by decide))
  rw [isQos, isQos, h]

theorem masked_protected (fc m : UInt16) : ((fc ||| 0x4000) &&& m) ||| 0x4000 = (fc &&& m) ||| 0x4000 := by
  refine UInt16.eq_of_toBitVec_eq (BitVec.eq_of_getLsbD_eq fun i hi => ?_)
  simp only [UInt16.toBitVec_and, UInt16.toBitVec_or, BitVec.getLsbD_and, BitVec.getLsbD_or]
  cases fc.toBitVec.getLsbD i <;> cases m.toBitVec.getLsbD i <;>
    cases (UInt16.toBitVec 0x4000).getLsbD i <;> rfl

section Sealed

variable {p rest : Bytes} {n : Nat}

theorem setProtected_length : (setProtected p).length = p.length := length_set

-- Only byte 1 of the header differs from the plain frame's.
theorem getElem?_sealed (hp : n ≤ p.length) {i : Nat} (hi : i < n) (h1 : i ≠ 1) :
    (setProtected (p.take n) ++ rest)[i]? = p[i]? := by
  have hlen : i < (setProtected (p.take n)).length := by
    rw [setProtected_length, length_take]
    omega
  rw [getElem?_append_left hlen, setProtected, getElem?_set_ne (Ne.symm h1), getElem?_take_of_lt hi]

theorem getD_sealed (hp : n ≤ p.length) {i : Nat} (hi : i < n) (h1 : i ≠ 1) :
    (setProtected (p.take n) ++ rest).getD i 0 = p.getD i 0 := by
  rw [getD_eq_getElem?_getD, getElem?_sealed hp hi h1, getD_eq_getElem?_getD]

theorem getD_one_sealed (hn : 2 ≤ n) (hp : n ≤ p.length) :
    (setProtected (p.take n) ++ rest).getD 1 0 = p.getD 1 0 ||| 0x40 := by
  have hlen : 1 < (p.take n).length := by
    rw [length_take]
    omega
  rw [getD_eq_getElem?_getD, getElem?_append_left (by rwa [setProtected_length]), setProtected,
    getElem?_set_self hlen, Option.getD_some, getD_eq_getElem?_getD, getElem?_take_of_lt hn,
    ← getD_eq_getElem?_getD]

theorem frameControl_sealed (hn : 2 ≤ n) (hp : n ≤ p.length) :
    frameControl (setProtected (p.take n) ++ rest) = frameControl p ||| 0x4000 := by
  rw [frameControl, getD_sealed hp (by omega) (by decide), getD_one_sealed hn hp, UInt8.toUInt16_or,
    UInt16.shiftLeft_or, ← UInt16.or_assoc]
  rfl

theorem headerLen_sealed (hn : 2 ≤ n) (hp : n ≤ p.length) :
    headerLen (frameControl (setProtected (p.take n) ++ rest)) = headerLen (frameControl p) := by
  rw [frameControl_sealed hn hp, headerLen, headerLen, isQos_protected]

theorem headerLen_ge (fc : UInt16) : 24 ≤ headerLen fc := by
  rw [headerLen]
  split <;> decide

theorem field_sealed (hp : n ≤ p.length) {k m : Nat} (hm : k + m ≤ n) (hk : 2 ≤ k) :
    ((setProtected (p.take n) ++ rest).drop k).take m = (p.drop k).take m := by
  refine ext_getElem? fun i => ?_
  rw [getElem?_take, getElem?_take, getElem?_drop, getElem?_drop]
  split
  · rw [getElem?_sealed hp (by omega) (by omega)]
  · rfl

theorem ccmpAad_sealed (hn : n = headerLen (frameControl p)) (hp : n ≤ p.length) :
    ccmpAad (setProtected (p.take n) ++ rest) = ccmpAad p := by
  have h24 : 24 ≤ n := hn ▸ headerLen_ge _
  simp only [ccmpAad, field_sealed hp (show 4 + 18 ≤ n by omega) (by decide), frameControl_sealed (by omega) hp,
    masked_protected, isQos_protected, getD_sealed hp (show 22 < n by omega) (by decide)]
  split
  · rename_i hq
    have h26 : n = 26 := by rw [hn, headerLen, if_pos hq]
    rw [getD_sealed hp (by omega) (by decide)]
  · rfl

variable {pn : UInt64} {cipher mic : Bytes}

theorem drop_sealed (hp : n ≤ p.length) (k : Nat) :
    (setProtected (p.take n) ++ rest).drop (n + k) = rest.drop k := by
  have hlen : (setProtected (p.take n)).length = n := by
    rw [setProtected_length, length_take, Nat.min_eq_left hp]
  rw [← drop_drop, drop_left' hlen]

theorem clearProtected_sealed (hn : 2 ≤ n) (hp : n ≤ p.length) :
    clearProtected ((setProtected (p.take n) ++ rest).take n) ++ p.drop n = clearProtected p := by
  have hlen : (setProtected (p.take n)).length = n := by
    rw [setProtected_length, length_take, Nat.min_eq_left hp]
  have hbyte : (p.getD 1 0 ||| 0x40) &&& 0xBF = p.getD 1 0 &&& 0xBF :=
    UInt8.eq_of_toBitVec_eq (or_and_of_disjoint _ (by decide))
  have hone := @getD_one_sealed p [] n hn hp
  rw [append_nil] at hone
  rw [take_left' hlen, clearProtected, hone, hbyte, setProtected, set_set, clearProtected,
    ← set_append_left _ _ (by rw [length_take]; omega), take_append_drop]

theorem ccmpPn_sealed (hn : n = headerLen (frameControl p)) (hp : n ≤ p.length) (hpn : pn.toNat < 2 ^ 48) :
    ccmpPn (setProtected (p.take n) ++ (ccmpHeader pn ++ rest)) = pn := by
  have h24 : 24 ≤ n := hn ▸ headerLen_ge _
  have hdrop : (setProtected (p.take n) ++ (ccmpHeader pn ++ rest)).drop n = ccmpHeader pn ++ rest :=
    drop_sealed hp 0
  rw [ccmpPn, headerLen_sealed (by omega) hp, ← hn, hdrop]
  exact packetNumber_bytes hpn

/-- A sealed frame is opened when its body is, and the window lets its number through. -/
theorem wlanCcmpDecryptFrame_sealed {tk : Bytes} {outLen : Nat} {t : ReplayTracker}
    (hn : n = headerLen (frameControl p)) (hp : n ≤ p.length) (hpn : pn.toNat < 2 ^ 48) (hmic : mic.length = 8)
    (hout : n + cipher.length ≤ outLen) (hw : replayRefuses t pn = false)
    (hopen : wlanCcmpDecrypt tk pn (ccmpAad p) cipher mic = some (p.drop n)) :
    wlanCcmpDecryptFrame tk (setProtected (p.take n) ++ (ccmpHeader pn ++ (cipher ++ mic))) outLen t =
      .ok (clearProtected p, replayCommit t pn) := by
  have h24 : 24 ≤ n := hn ▸ headerLen_ge _
  have hlen : (setProtected (p.take n) ++ (ccmpHeader pn ++ (cipher ++ mic))).length = n + 16 + cipher.length := by
    simp only [length_append, setProtected_length, length_take, hmic, ccmpHeader, length_cons,
      length_nil]
    omega
  have hcipher : ((ccmpHeader pn ++ (cipher ++ mic)).drop 8).take cipher.length = cipher := by
    rw [drop_left' (by rfl : (ccmpHeader pn).length = 8), take_left' rfl]
  have hmic' : (ccmpHeader pn ++ (cipher ++ mic)).drop (8 + cipher.length) = mic := by
    rw [← drop_drop, drop_left' (by rfl : (ccmpHeader pn).length = 8), drop_left' rfl]
  have hpay : n + 16 + cipher.length - n - 16 = cipher.length := by omega
  simp only [wlanCcmpDecryptFrame, headerLen_sealed (show 2 ≤ n by omega) hp, ← hn, hlen, hpay,
    ccmpPn_sealed hn hp hpn, hw, ccmpAad_sealed hn hp, Nat.add_assoc n 8, drop_sealed hp, hcipher, hmic', hopen,
    clearProtected_sealed (show 2 ≤ n by omega) hp]
  rw [if_neg (by omega), frameControl_sealed (by omega) hp, if_neg (protected_ne_zero _), if_neg (by omega),
    if_neg Bool.false_ne_true, if_neg (by omega)]

end Sealed

/-- **The receiver opens what the encryptor sealed**, if the window lets its number through. -/
theorem wlanCcmpDecryptFrame_encrypt (tk : Bytes) {p : Bytes} {pn : UInt64} {sealLen outLen : Nat} {t : ReplayTracker}
    (hp : headerLen (frameControl p) ≤ p.length) (hpn : pn.toNat < 2 ^ 48) (hseal : p.length + 16 ≤ sealLen)
    (hout : p.length ≤ outLen) (hw : replayRefuses t pn = false) :
    ∃ frame, wlanCcmpEncryptFrame tk pn p sealLen = .ok frame ∧ ccmpPn frame = pn ∧
      wlanCcmpDecryptFrame tk frame outLen t = .ok (clearProtected p, replayCommit t pn) := by
  have h24 := headerLen_ge (frameControl p)
  refine ⟨_, (by rw [wlanCcmpEncryptFrame, if_neg (by omega), if_neg (by omega), if_neg (by omega)]), ?_⟩
  rw [append_assoc, append_assoc]
  refine ⟨ccmpPn_sealed rfl hp hpn, wlanCcmpDecryptFrame_sealed rfl hp hpn ?_ ?_ hw (wlanCcmpDecrypt_encrypt ..)⟩
  · simp [wlanCcmpEncrypt, ctrMic]
  simp only [wlanCcmpEncrypt, ctrCrypt, length_mapIdx, length_drop]
  omega

/-! ## TKIP -/

def tkipRotr16 (v n : UInt16) : UInt16 := (v >>> n) ||| (v <<< (16 - n))

def tkipGetU16Le (p : Bytes) (i : Nat) : UInt16 :=
  (p.getD i 0).toUInt16 ||| ((p.getD (i + 1) 0).toUInt16 <<< 8)

def tkipGetU32Le (p : Bytes) (i : Nat) : UInt32 :=
  (p.getD i 0).toUInt32 ||| ((p.getD (i + 1) 0).toUInt32 <<< 8) |||
    ((p.getD (i + 2) 0).toUInt32 <<< 16) ||| ((p.getD (i + 3) 0).toUInt32 <<< 24)

def tkipPutU32Le (v : UInt32) : Bytes :=
  [v.toUInt8, (v >>> 8).toUInt8, (v >>> 16).toUInt8, (v >>> 24).toUInt8]

def tkipSbox (val : UInt16) : UInt16 :=
  let sLo := sbox.getD val.toUInt8.toNat 0
  let box0 := ((xtime sLo).toUInt16 <<< 8) ||| (xtime sLo ^^^ sLo).toUInt16
  let sHi := sbox.getD (val >>> 8).toUInt8.toNat 0
  let box1 := ((xtime sHi ^^^ sHi).toUInt16 <<< 8) ||| (xtime sHi).toUInt16
  box0 ^^^ box1

/-- The five words of the first mixing phase. -/
structure Ttak where
  (p0 p1 p2 p3 p4 : UInt16)

def tkipPhase1Round (p : Ttak) (i : Nat) : Ttak :=
  let k := fun n => tkipGetU16Le tk ((n + 2 * (i % 2)) &&& 14)
  let p0 := p.p0 + tkipSbox (p.p4 ^^^ k 0)
  let p1 := p.p1 + tkipSbox (p0 ^^^ k 4)
  let p2 := p.p2 + tkipSbox (p1 ^^^ k 8)
  let p3 := p.p3 + tkipSbox (p2 ^^^ k 12)
  let p4 := p.p4 + tkipSbox (p3 ^^^ k 0) + i.toUInt16
  ⟨p0, p1, p2, p3, p4⟩

def tkipDeriveRc4Key (tk ta : Bytes) (tsc : UInt64) : Bytes :=
  let tsc16 := tsc.toUInt16
  let p := (List.range 8).foldl (tkipPhase1Round tk)
    ⟨(tsc >>> 16).toUInt16, (tsc >>> 32).toUInt16, tkipGetU16Le ta 0, tkipGetU16Le ta 2, tkipGetU16Le ta 4⟩
  let k := tkipGetU16Le tk
  let q5 := p.p4 + tsc16
  let q0 := p.p0 + tkipSbox (q5 ^^^ k 0)
  let q1 := p.p1 + tkipSbox (q0 ^^^ k 2)
  let q2 := p.p2 + tkipSbox (q1 ^^^ k 4)
  let q3 := p.p3 + tkipSbox (q2 ^^^ k 6)
  let q4 := p.p4 + tkipSbox (q3 ^^^ k 8)
  let q5 := q5 + tkipSbox (q4 ^^^ k 10)
  let r0 := q0 + tkipRotr16 (q5 ^^^ k 12) 1
  let r1 := q1 + tkipRotr16 (r0 ^^^ k 14) 1
  let r2 := q2 + tkipRotr16 r1 1
  let r3 := q3 + tkipRotr16 r2 1
  let r4 := q4 + tkipRotr16 r3 1
  let r5 := q5 + tkipRotr16 r4 1
  let tsc1 := (tsc16 >>> 8).toUInt8
  [tsc1, (tsc1 ||| 0x20) &&& 0x7F, tsc16.toUInt8, ((r5 ^^^ k 0) >>> 1).toUInt8] ++
    [r0, r1, r2, r3, r4, r5].flatMap fun (r : UInt16) => [r.toUInt8, (r >>> 8).toUInt8]

/-- The RC4 permutation with its two indices. -/
structure Rc4 where
  s : Bytes
  (i j : UInt8)

def Rc4.at (c : Rc4) (k : UInt8) : UInt8 := c.s.getD k.toNat 0

def Rc4.swap (c : Rc4) (i j : UInt8) : Bytes := (c.s.set i.toNat (c.at j)).set j.toNat (c.at i)

def rc4Schedule (key : Bytes) : Bytes :=
  ((List.range 256).foldl
    (fun (c : Rc4) i =>
      let j := c.j + c.at i.toUInt8 + key.getD (i % 16) 0
      { c with s := c.swap i.toUInt8 j, j := j })
    ⟨(List.range 256).map Nat.toUInt8, 0, 0⟩).s

def Rc4.next (c : Rc4) : UInt8 × Rc4 :=
  let i := c.i + 1
  let j := c.j + c.at i
  let c' : Rc4 := ⟨c.swap i j, i, j⟩
  (c'.at (c'.at i + c'.at j), c')

def rc4Stream (c : Rc4) : Bytes → Bytes
  | [] => []
  | b :: rest => (b ^^^ c.next.1) :: rc4Stream c.next.2 rest

def tkipRc4Crypt (key data : Bytes) : Bytes := rc4Stream ⟨rc4Schedule key, 0, 0⟩ data

def crc32Byte (crc : UInt32) (b : UInt8) : UInt32 :=
  (List.range 8).foldl (fun crc _ => (crc >>> 1) ^^^ (0xEDB88320 &&& (0 - (crc &&& 1)))) (crc ^^^ b.toUInt32)

def tkipCrc32 (data : Bytes) : UInt32 := ~~~ data.foldl crc32Byte 0xFFFFFFFF

def michaelBlock (lr : UInt32 × UInt32) (word : UInt32) : UInt32 × UInt32 :=
  let l := lr.1 ^^^ word
  let r := lr.2 ^^^ rotl32 l 17
  let l := l + r
  let r := r ^^^ (((l &&& 0xFF00FF00) >>> 8) ||| ((l &&& 0x00FF00FF) <<< 8))
  let l := l + r
  let r := r ^^^ rotl32 l 3
  let l := l + r
  let r := r ^^^ rotr32 l 2
  (l + r, r)

def tkipMichaelMic (micKey da sa : Bytes) (priority : UInt8) (msdu : Bytes) : Bytes :=
  let hdr := da.take 6 ++ sa.take 6 ++ [priority &&& 0x0F, 0, 0, 0]
  let fullWords := msdu.length / 4
  -- The last word is the rest of the data, 0x5A and zeros; a zero word follows it.
  let last := tkipGetU32Le (msdu.drop (fullWords * 4) ++ [0x5A]) 0
  let words := [0, 4, 8, 12].map (tkipGetU32Le hdr) ++
    (List.range fullWords).map (fun w => tkipGetU32Le msdu (w * 4)) ++ [last, 0]
  let lr := words.foldl michaelBlock (tkipGetU32Le micKey 0, tkipGetU32Le micKey 4)
  tkipPutU32Le lr.1 ++ tkipPutU32Le lr.2

/-- The extended IV: the sequence counter with its WEP seed, and the key's number. -/
def tkipIv (tsc : UInt64) (keyId : UInt8) : Bytes :=
  let tsc1 := (tsc >>> 8).toUInt8
  [tsc1, (tsc1 ||| 0x20) &&& 0x7F, tsc.toUInt8, ((keyId &&& 0x03) <<< 6) ||| 0x20,
   (tsc >>> 16).toUInt8, (tsc >>> 24).toUInt8, (tsc >>> 32).toUInt8, (tsc >>> 40).toUInt8]

/-- The MIC of a frame's data, by the addresses and the priority in its header. -/
def tkipFrameMic (gtk frame msdu : Bytes) : Bytes :=
  let fc := frameControl frame
  let da := if fc &&& 0x0300 = 0x0100 then frame.drop 16 else frame.drop 4
  let sa := if fc &&& 0x0200 ≠ 0 then frame.drop 16 else frame.drop 10
  let prio := if isQos fc then frame.getD 24 0 &&& 0x0F else 0
  tkipMichaelMic (gtk.drop 16) da sa prio msdu

def wlanTkipEncryptFrame (gtk : Bytes) (tsc : UInt64) (keyId : UInt8) (plainFrame : Bytes) (outLen : Nat) :
    Except Int Bytes :=
  if plainFrame.length < 24 then .error (-1)
  else
    let hdrLen := headerLen (frameControl plainFrame)
    if plainFrame.length < hdrLen then .error (-1)
    else if outLen < plainFrame.length + 20 then .error (-1)
    else
      let payload := plainFrame.drop hdrLen
      let body := payload ++ tkipFrameMic gtk plainFrame payload
      let rc4Key := tkipDeriveRc4Key gtk (plainFrame.drop 10) tsc
      .ok (setProtected (plainFrame.take hdrLen) ++ (tkipIv tsc keyId ++
        tkipRc4Crypt rc4Key (body ++ tkipPutU32Le (tkipCrc32 body))))

/-- The TKIP sequence counter in the eight bytes of the extended IV. -/
def tkipTsc (frame : Bytes) : UInt64 :=
  let iv := frame.drop (headerLen (frameControl frame))
  packetNumber (iv.getD 2 0) (iv.getD 0 0) (iv.getD 4 0) (iv.getD 5 0) (iv.getD 6 0) (iv.getD 7 0)

/-- Both checks of a decrypted body: its ICV, then its Michael MIC under the group key's RX half. -/
def tkipOpen (gtk frame plainBody : Bytes) (payloadLen : Nat) : Option Bytes :=
  if tkipGetU32Le plainBody (payloadLen + 8) ≠ tkipCrc32 (plainBody.take (payloadLen + 8)) then none
  else
    let calcMic := tkipFrameMic gtk frame (plainBody.take payloadLen)
    if tagDiff calcMic (plainBody.drop payloadLen) ≠ 0 then none else some (plainBody.take payloadLen)

def wlanTkipDecryptFrame (gtk cipherFrame : Bytes) (outLen : Nat) (t : ReplayTracker) :
    Except Int (Bytes × ReplayTracker) :=
  if cipherFrame.length < 44 then .error (-1)
  else
    let fc := frameControl cipherFrame
    if fc &&& 0x4000 = 0 then .error (-1)
    else
      let hdrLen := headerLen fc
      if cipherFrame.length < hdrLen + 20 then .error (-1)
      else
        let payloadLen := cipherFrame.length - hdrLen - 20
        if outLen < hdrLen + payloadLen + 12 then .error (-1)
        else
          let iv := cipherFrame.drop hdrLen
          if iv.getD 3 0 &&& 0x20 = 0 then .error (-1)
          else if iv.getD 1 0 ≠ (iv.getD 0 0 ||| 0x20) &&& 0x7F then .error (-1)
          else
            let tsc := tkipTsc cipherFrame
            if replayRefuses t tsc then .error (-2)
            else
              let rc4Key := tkipDeriveRc4Key gtk (cipherFrame.drop 10) tsc
              let plainBody := tkipRc4Crypt rc4Key ((cipherFrame.drop (hdrLen + 8)).take (payloadLen + 12))
              match tkipOpen gtk cipherFrame plainBody payloadLen with
              | none => .error (-1)
              | some plain => .ok (clearProtected (cipherFrame.take hdrLen) ++ plain, replayCommit t tsc)

/-! ## What the TKIP encryptor makes -/

theorem rc4Stream_rc4Stream (c : Rc4) (data : Bytes) : rc4Stream c (rc4Stream c data) = data := by
  induction data generalizing c with
  | nil => rfl
  | cons b rest ih => simp [rc4Stream, ih]

theorem length_rc4Stream (c : Rc4) (data : Bytes) : (rc4Stream c data).length = data.length := by
  induction data generalizing c with
  | nil => rfl
  | cons b rest ih => simp [rc4Stream, ih]

theorem tkipGetU32Le_put (l : Bytes) (v : UInt32) : tkipGetU32Le (l ++ tkipPutU32Le v) l.length = v := by
  refine UInt32.eq_of_toBitVec_eq (BitVec.eq_of_getLsbD_eq fun i hi => ?_)
  have hget : ∀ k, (l ++ tkipPutU32Le v).getD (l.length + k) 0 = (tkipPutU32Le v).getD k 0 := by
    intro k
    simp only [getD_eq_getElem?_getD]
    rw [getElem?_append_right (by omega), Nat.add_sub_cancel_left]
  rw [tkipGetU32Le, hget 1, hget 2, hget 3, ← Nat.add_zero l.length, hget 0]
  simp only [tkipPutU32Le, getD_cons_zero, getD_cons_succ, UInt32.toBitVec_or, UInt32.toBitVec_shiftLeft,
    UInt32.toBitVec_shiftRight, UInt32.toBitVec_ofNat, UInt8.toBitVec_toUInt32, UInt32.toBitVec_toUInt8,
    BitVec.shiftLeft_eq', BitVec.ushiftRight_eq', BitVec.getLsbD_or, getLsbD_byte _ _ hi, BitVec.getLsbD_setWidth]
  grind

section Sealed

variable {p rest : Bytes} {n : Nat}

theorem rc4Key_sealed (hn : 24 ≤ n) (hp : n ≤ p.length) (gtk : Bytes) (tsc : UInt64) :
    tkipDeriveRc4Key gtk ((setProtected (p.take n) ++ rest).drop 10) tsc = tkipDeriveRc4Key gtk (p.drop 10) tsc := by
  have hget : ∀ i < 6, ((setProtected (p.take n) ++ rest).drop 10).getD i 0 = (p.drop 10).getD i 0 := by
    intro i hi
    simp only [getD_eq_getElem?_getD, getElem?_drop]
    rw [getElem?_sealed hp (by omega) (by omega)]
  have hword : ∀ i < 5, tkipGetU16Le ((setProtected (p.take n) ++ rest).drop 10) i = tkipGetU16Le (p.drop 10) i := by
    intro i hi
    rw [tkipGetU16Le, tkipGetU16Le, hget i (by omega), hget (i + 1) (by omega)]
  rw [tkipDeriveRc4Key, tkipDeriveRc4Key, hword 0 (by decide), hword 2 (by decide), hword 4 (by decide)]

theorem tkipFrameMic_sealed (hn : n = headerLen (frameControl p)) (hp : n ≤ p.length) (gtk msdu : Bytes) :
    tkipFrameMic gtk (setProtected (p.take n) ++ rest) msdu = tkipFrameMic gtk p msdu := by
  have h24 : 24 ≤ n := hn ▸ headerLen_ge _
  have hfc : ∀ m : UInt16, 0x4000 &&& m = 0 → (frameControl p ||| 0x4000) &&& m = frameControl p &&& m := fun m hm =>
    UInt16.eq_of_toBitVec_eq (or_and_of_disjoint _ (congrArg UInt16.toBitVec hm))
  have haddr : ∀ (c : Prop) [Decidable c] (k : Nat), 2 ≤ k → k + 6 ≤ n →
      (if c then (setProtected (p.take n) ++ rest).drop 16 else (setProtected (p.take n) ++ rest).drop k).take 6 =
        (if c then p.drop 16 else p.drop k).take 6 := by
    intro c _ k h2 hk
    split
    · exact field_sealed hp (by omega) (by decide)
    · exact field_sealed hp hk h2
  have hprio : (if isQos (frameControl p) then (setProtected (p.take n) ++ rest).getD 24 0 &&& 0x0F else 0) =
      if isQos (frameControl p) then p.getD 24 0 &&& 0x0F else 0 := by
    split
    · rename_i hq
      rw [getD_sealed hp (by rw [hn, headerLen, if_pos hq]; decide) (by decide)]
    · rfl
  rw [tkipFrameMic, tkipFrameMic, frameControl_sealed (by omega) hp, isQos_protected, hfc 0x0300 (by decide),
    hfc 0x0200 (by decide), hprio, tkipMichaelMic, tkipMichaelMic, haddr _ 4 (by decide) (by omega),
    haddr _ 10 (by decide) (by omega)]

/-- Both checks pass on what the encryptor put together. -/
theorem tkipOpen_body (gtk frame payload : Bytes) :
    tkipOpen gtk frame (payload ++ tkipFrameMic gtk frame payload ++
      tkipPutU32Le (tkipCrc32 (payload ++ tkipFrameMic gtk frame payload))) payload.length = some payload := by
  have hmic : (tkipFrameMic gtk frame payload).length = 8 := rfl
  have hlen : payload.length + 8 = (payload ++ tkipFrameMic gtk frame payload).length := by rw [length_append, hmic]
  have hdiff : tagDiff (tkipFrameMic gtk frame payload) (tkipFrameMic gtk frame payload ++
      tkipPutU32Le (tkipCrc32 (payload ++ tkipFrameMic gtk frame payload))) = 0 := by
    refine tagDiff_eq_zero fun k hk => ?_
    rw [getD_eq_getElem?_getD, getD_eq_getElem?_getD, getElem?_append_left (by omega)]
  rw [tkipOpen, hlen, tkipGetU32Le_put, take_left' rfl, if_neg (fun h => h rfl), append_assoc,
    take_left' rfl, drop_left' rfl]
  exact if_neg (fun h => h hdiff)

theorem extIv_ne_zero (b : UInt8) : (b ||| 0x20) &&& 0x20 ≠ 0 := by
  intro h
  have hbit := congrArg (fun x : UInt8 => x.toBitVec.getLsbD 5) h
  simp at hbit

theorem wlanTkipDecryptFrame_sealed {gtk cipher : Bytes} {tsc : UInt64} {keyId : UInt8} {outLen : Nat}
    {t : ReplayTracker} (hn : n = headerLen (frameControl p)) (hp : n ≤ p.length) (htsc : tsc.toNat < 2 ^ 48)
    (hlen : cipher.length = p.length - n + 12) (hout : p.length + 12 ≤ outLen) (hw : replayRefuses t tsc = false)
    (hopen : tkipOpen gtk (setProtected (p.take n) ++ (tkipIv tsc keyId ++ cipher))
      (tkipRc4Crypt (tkipDeriveRc4Key gtk (p.drop 10) tsc) cipher) (p.length - n) = some (p.drop n)) :
    wlanTkipDecryptFrame gtk (setProtected (p.take n) ++ (tkipIv tsc keyId ++ cipher)) outLen t =
      .ok (clearProtected p, replayCommit t tsc) := by
  have h24 : 24 ≤ n := hn ▸ headerLen_ge _
  have hall : (setProtected (p.take n) ++ (tkipIv tsc keyId ++ cipher)).length = p.length + 20 := by
    simp only [length_append, setProtected_length, length_take, tkipIv, length_cons, length_nil]
    omega
  have hiv : (setProtected (p.take n) ++ (tkipIv tsc keyId ++ cipher)).drop n = tkipIv tsc keyId ++ cipher :=
    drop_sealed hp 0
  have hbody : (tkipIv tsc keyId ++ cipher).drop 8 = cipher := drop_left' rfl
  have htsc' : tkipTsc (setProtected (p.take n) ++ (tkipIv tsc keyId ++ cipher)) = tsc := by
    rw [tkipTsc, headerLen_sealed (by omega) hp, ← hn, hiv]
    exact packetNumber_bytes htsc
  have hpay : p.length + 20 - n - 20 = p.length - n := by omega
  simp only [wlanTkipDecryptFrame, headerLen_sealed (show 2 ≤ n by omega) hp, ← hn, hall, hpay, hiv, htsc', hw,
    rc4Key_sealed h24 hp, drop_sealed hp, hbody, take_of_length_le (Nat.le_of_eq hlen), hopen,
    clearProtected_sealed (show 2 ≤ n by omega) hp]
  rw [if_neg (by omega), frameControl_sealed (by omega) hp, if_neg (protected_ne_zero _), if_neg (by omega),
    if_neg (by omega), if_neg (show ¬(tkipIv tsc keyId ++ cipher).getD 3 0 &&& 0x20 = 0 from extIv_ne_zero _),
    if_neg (fun h => h rfl), if_neg Bool.false_ne_true]

end Sealed

/-- **Protection round trip.** A data frame that is as long as its header, sealed with a number of 48 bits, is
accepted by a receiver that has accepted nothing yet, and comes out with the Protected bit cleared. -/
theorem frame_protection_restores {p : Bytes} {pn : UInt64} (hp : headerLen (frameControl p) ≤ p.length)
    (hpn : pn.toNat < 2 ^ 48) (tk gtk : Bytes) (keyId : UInt8) (sealLen outLen : Nat) :
    (p.length + 16 ≤ sealLen → p.length ≤ outLen → ∃ frame, wlanCcmpEncryptFrame tk pn p sealLen = .ok frame ∧
      wlanCcmpDecryptFrame tk frame outLen .zero = .ok (clearProtected p, replayCommit .zero pn)) ∧
    (p.length + 20 ≤ sealLen → p.length + 12 ≤ outLen →
      ∃ frame, wlanTkipEncryptFrame gtk pn keyId p sealLen = .ok frame ∧
      wlanTkipDecryptFrame gtk frame outLen .zero = .ok (clearProtected p, replayCommit .zero pn)) := by
  refine ⟨fun hseal hout => ?_, fun hseal hout => ?_⟩
  · obtain ⟨frame, hs, -, hd⟩ := wlanCcmpDecryptFrame_encrypt tk (t := .zero) hp hpn hseal hout rfl
    exact ⟨frame, hs, hd⟩
  have h24 := headerLen_ge (frameControl p)
  have hrc4 : ∀ key data, tkipRc4Crypt key (tkipRc4Crypt key data) = data := fun _ _ => rc4Stream_rc4Stream ..
  have hopen := fun rest => tkipOpen_body gtk (setProtected (p.take (headerLen (frameControl p))) ++ rest)
    (p.drop (headerLen (frameControl p)))
  simp only [tkipFrameMic_sealed rfl hp, length_drop] at hopen
  refine ⟨_, (by rw [wlanTkipEncryptFrame, if_neg (by omega), if_neg (by omega), if_neg (by omega)]), ?_⟩
  refine wlanTkipDecryptFrame_sealed rfl hp hpn ?_ hout rfl (by rw [hrc4]; exact hopen _)
  simp [tkipRc4Crypt, length_rc4Stream, tkipFrameMic, tkipMichaelMic, tkipPutU32Le]

/-- A QoS data frame of priority 5 to a distribution system, with 21 bytes of payload. -/
def qosFrame : Bytes :=
  [0x88, 0x01, 0, 0, 2, 0, 0, 0, 0, 1, 2, 0, 0, 0, 0, 2, 2, 0, 0, 0, 0, 3, 0x10, 0, 5, 0] ++
    (range 21).map Nat.toUInt8

def sampleKey (n : Nat) : Bytes := (range n).map fun i => (7 * i + 3).toUInt8

theorem frame_protection_restores_qos :
    (∃ frame, wlanCcmpEncryptFrame (sampleKey 16) 0x0102030405 qosFrame 67 = .ok frame ∧
      wlanCcmpDecryptFrame (sampleKey 16) frame 59 .zero = .ok (qosFrame, replayCommit .zero 0x0102030405)) ∧
    ∃ frame, wlanTkipEncryptFrame (sampleKey 32) 0x0102030405 1 qosFrame 67 = .ok frame ∧
      wlanTkipDecryptFrame (sampleKey 32) frame 59 .zero = .ok (qosFrame, replayCommit .zero 0x0102030405) := by
  have hclear : clearProtected qosFrame = qosFrame := by decide
  have h := @frame_protection_restores qosFrame 0x0102030405 (by decide) (by decide) (sampleKey 16) (sampleKey 32) 1 67 59
  rw [hclear] at h
  exact ⟨h.1 (by decide) (by decide), h.2 (by decide) (by decide)⟩

end Fortress.Wlan
