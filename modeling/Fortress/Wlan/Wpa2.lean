/-
The WPA2/WPA3 station handshake of net/wlan/wlan_wpa2.c. A frame is the byte
list handed to `wpa2_sm_rx_eapol` and its length is `len`; fixed arrays are
byte lists that every copy replaces whole; the generator's static seed is
passed along; `none` as the response stands for -1.
-/
import Fortress.Wlan.Crypto

namespace Fortress.Wlan

open Codec (slice)

def EAPOL_TYPE_KEY : UInt8 := 3
def EAPOL_KEY_DESC_WPA2 : UInt8 := 2
def EAPOL_KEY_INFO_TYPE_MASK : UInt16 := 0x0007
def EAPOL_KEY_INFO_TYPE_AKM : UInt16 := 0x0000
def EAPOL_KEY_INFO_HMAC_SHA1 : UInt16 := 0x0002
def EAPOL_KEY_INFO_AES_128_CMAC : UInt16 := 0x0003
def EAPOL_KEY_INFO_KEY_TYPE : UInt16 := 0x0008
def EAPOL_KEY_INFO_KEY_ACK : UInt16 := 0x0080
def EAPOL_KEY_INFO_KEY_MIC : UInt16 := 0x0100
def EAPOL_KEY_INFO_SECURE : UInt16 := 0x0200
def EAPOL_KEY_INFO_ENCR_KEY_DATA : UInt16 := 0x1000

/-- `sizeof(eapol_hdr_t) + sizeof(eapol_key_desc_t)`. -/
def MIN_LEN : Nat := 99

structure Sm where
  active : Bool := false
  portAuthorized : Bool := false
  staMac : Bytes := List.replicate 6 0
  bssid : Bytes := List.replicate 6 0
  pmk : Bytes := List.replicate 32 0
  anonce : Bytes := List.replicate 32 0
  snonce : Bytes := List.replicate 32 0
  ptk : Bytes := List.replicate 64 0
  kck : Bytes := List.replicate 16 0
  kek : Bytes := List.replicate 16 0
  tk : Bytes := List.replicate 16 0
  gtk : Bytes := List.replicate 32 0
  gtkLen : UInt8 := 0
  gtkIdx : UInt8 := 0
  groupCipher : UInt8 := 0
  rsnCaps : UInt16 := 0
  useSae : Bool := false
  pmkid : Bytes := List.replicate 16 0
  lastReplayCounter : UInt64 := 0
  handshakeStep : UInt32 := 0

def wpa2SmInit (staMac bssid pmk : Bytes) : Sm :=
  { staMac, bssid, pmk, active := true, groupCipher := 0x04 }

variable (sm : Sm)

def wpa2SmIsAuthorized : Bool :=
  sm.active && sm.portAuthorized && sm.handshakeStep == 4

/-! ## Frames -/

/-- `memcpy` of `x` into `b` at `off`. -/
def splice (b : Bytes) (off : Nat) (x : Bytes) : Bytes := b.take off ++ x ++ b.drop (off + x.length)

def be16 (b : Bytes) (off : Nat) : UInt16 :=
  ((b.getD off 0).toUInt16 <<< 8) ||| (b.getD (off + 1) 0).toUInt16

def be64 (b : Bytes) (off : Nat) : UInt64 :=
  (slice b off 8).foldl (fun v x => (v <<< 8) ||| x.toUInt64) 0

def be16Bytes (v : UInt16) : Bytes := [(v >>> 8).toUInt8, v.toUInt8]

variable (f : Bytes)

def frameType : UInt8 := f.getD 1 0
def frameLength : UInt16 := be16 f 2
def descType : UInt8 := f.getD 4 0
def keyInfo : UInt16 := be16 f 5
def replayCounter : UInt64 := be64 f 9
def keyNonce : Bytes := slice f 17 32
def keyMic : Bytes := slice f 81 16
def keyDataLen : UInt16 := be16 f 97

def hasFlag (flag : UInt16) : Bool := keyInfo f &&& flag != 0

def descVer : UInt16 := keyInfo f &&& EAPOL_KEY_INFO_TYPE_MASK

def versionOk : Bool :=
  if sm.useSae then
    descVer f == EAPOL_KEY_INFO_TYPE_AKM || descVer f == EAPOL_KEY_INFO_HMAC_SHA1 ||
      descVer f == EAPOL_KEY_INFO_AES_128_CMAC
  else descVer f == EAPOL_KEY_INFO_HMAC_SHA1

/-- The checks that come before the two messages are told apart. -/
def admitted : Bool :=
  sm.active && decide (MIN_LEN ≤ f.length) && frameType f == EAPOL_TYPE_KEY &&
    descType f == EAPOL_KEY_DESC_WPA2 && versionOk sm f && hasFlag f EAPOL_KEY_INFO_KEY_TYPE

def isMessage1 : Bool :=
  admitted sm f && !hasFlag f EAPOL_KEY_INFO_KEY_MIC && hasFlag f EAPOL_KEY_INFO_KEY_ACK

def isMessage3 : Bool :=
  admitted sm f && hasFlag f EAPOL_KEY_INFO_KEY_MIC && hasFlag f EAPOL_KEY_INFO_KEY_ACK

def wpa2ComputeEapolMic (frame : Bytes) : Bytes :=
  (if sm.useSae then wlanHmacSha256 sm.kck frame else wlanHmacSha1 sm.kck frame).take 16

/-- A response with `key_mic` still zero. -/
def unsignedResponse (info : UInt16) (replay nonce keyData : Bytes) : Bytes :=
  [1, EAPOL_TYPE_KEY] ++ be16Bytes (95 + keyData.length).toUInt16 ++
    [EAPOL_KEY_DESC_WPA2] ++ be16Bytes info ++ [0, 0] ++ replay ++ nonce ++
    List.replicate 32 0 ++ List.replicate 16 0 ++ be16Bytes keyData.length.toUInt16 ++ keyData

def signResponse (frame : Bytes) : Bytes :=
  splice frame 81 (wpa2ComputeEapolMic sm frame)

/-! ## Message 1 -/

structure Rx where
  sm : Sm
  seed : UInt32
  /-- The bytes written to `out_resp`, whose number is the return value. -/
  resp : Option Bytes

variable (seed : UInt32) (f : Bytes) (maxRespLen : Nat)

/-- `wlan_generate_snonce`, 32 steps of the generator. -/
def wlanGenerateSnonce : UInt32 × Bytes :=
  (List.range 32).foldl
    (fun r _ => (r.1 * 1664525 + 1013904223, r.2 ++ [((r.1 * 1664525 + 1013904223) >>> 16).toUInt8]))
    (seed, [])

/-- `s_sta_rsn_ie` with the bytes Message 2 overwrites. -/
def staRsnIe : Bytes :=
  let caps := if sm.useSae then (sm.rsnCaps &&& 0x00C0) ||| 0x00C0 else sm.rsnCaps
  [0x30, if sm.useSae then 38 else 20, 0x01, 0x00,
   0x00, 0x0F, 0xAC, if sm.groupCipher = 0x02 ∨ sm.groupCipher = 0x04 then sm.groupCipher else 0x04,
   0x01, 0x00, 0x00, 0x0F, 0xAC, 0x04, 0x01, 0x00,
   0x00, 0x0F, 0xAC, if sm.useSae then 0x08 else 0x02,
   (caps &&& 0xFF).toUInt8, ((caps >>> 8) &&& 0xFF).toUInt8] ++
    if sm.useSae then [0x01, 0x00] ++ sm.pmkid else []

/-- Message 1 records the nonce and the counter and replaces the pairwise keys. -/
def takeMessage1 : Sm × UInt32 :=
  let gen := wlanGenerateSnonce seed
  let anonce := keyNonce f
  let ptk :=
    if sm.useSae then wlanDerivePtkSha256 sm.pmk sm.bssid sm.staMac anonce gen.2
    else wlanDerivePtk sm.pmk sm.bssid sm.staMac anonce gen.2 sm.ptk
  ({ sm with
      anonce, lastReplayCounter := replayCounter f, snonce := gen.2, ptk
      kck := slice ptk 0 16, kek := slice ptk 16 16, tk := slice ptk 32 16 }, gen.1)

def rxMessage1 : Rx :=
  let r := takeMessage1 sm seed f
  let respLen := MIN_LEN + if sm.useSae then 40 else 22
  -- The keys are already replaced when the response does not fit.
  if maxRespLen < respLen then { sm := r.1, seed := r.2, resp := none }
  else
    let info := descVer f ||| EAPOL_KEY_INFO_KEY_TYPE ||| EAPOL_KEY_INFO_KEY_MIC
    let frame := unsignedResponse info (slice f 9 8) r.1.snonce (staRsnIe r.1)
    { sm := { r.1 with handshakeStep := 2 }, seed := r.2, resp := some (signResponse r.1 frame) }

/-! ## Message 3 -/

/-- The frame's own length, or all of it when the header's length cannot be right. -/
def eapolTotalLen : Nat :=
  let n := 4 + (frameLength f).toNat
  if n < MIN_LEN ∨ n > f.length then f.length else n

/-- The MIC the station computes for a received frame, over its copy with `key_mic` zeroed. -/
def expectedMic : Bytes :=
  wpa2ComputeEapolMic sm (splice (f.take (eapolTotalLen f)) 81 (List.replicate 16 0))

/-- The constant-time comparison: zero when all bytes agree. -/
def micDiff (x y : Bytes) : UInt8 := (List.zipWith (· ^^^ ·) x y).foldl (· ||| ·) 0

/-- What the search for the group key finds. -/
inductive Kde
  | absent
  | wrongLength (idx : UInt8)
  | gtk (idx : UInt8) (key : Bytes)

def isGtkKde (ty len : UInt8) (body : Bytes) : Bool :=
  ty == 0xDD && decide (6 ≤ len) && slice body 0 4 == [0x00, 0x0F, 0xAC, 0x01]

def expectedGtk : Nat := if sm.groupCipher = 0x02 then 32 else 16

/-- The search from the element at the head of the buffer. -/
def findGtk (sm : Sm) : Bytes → Kde
  | ty :: len :: rest =>
    if len = 0 ∨ rest.length < len.toNat then .absent
    else if isGtkKde ty len rest then
      if 6 + 16 ≤ len.toNat then
        let idx := rest.getD 4 0 &&& 0x03
        if len.toNat - 6 ≠ expectedGtk sm then .wrongLength idx else .gtk idx (slice rest 6 (len.toNat - 6))
      else .absent
    else findGtk sm (rest.drop len.toNat)
  | _ => .absent
termination_by buf => buf.length
decreasing_by simp; omega

/-- The key data in the clear, or `none` where the frame is refused for it. -/
def kdeBuffer : Option Bytes :=
  let n := (keyDataLen f).toNat
  let keyData := slice f MIN_LEN n
  if n > eapolTotalLen f - MIN_LEN then none
  else if hasFlag f EAPOL_KEY_INFO_ENCR_KEY_DATA then
    if 16 ≤ n ∧ n ≤ 256 ∧ n % 8 = 0 then wlanAesUnwrap sm.kek keyData else none
  else some keyData

def deliveredGtk (buf : Bytes) : Kde := if 8 ≤ buf.length then findGtk sm buf else .absent

/-- Message 3 after its MIC was found right. -/
def acceptMessage3 : Rx :=
  let sm := { sm with lastReplayCounter := replayCounter f }
  match kdeBuffer sm f with
  | none => { sm, seed, resp := none }
  | some buf =>
    match deliveredGtk sm buf with
    | .absent => { sm, seed, resp := none }
    | .wrongLength idx => { sm := { sm with gtkIdx := idx }, seed, resp := none }
    | .gtk idx key =>
      let sm := { sm with
        gtkIdx := idx, gtk := key ++ List.replicate (32 - key.length) 0, gtkLen := key.length.toUInt8 }
      if maxRespLen < MIN_LEN then { sm, seed, resp := none }
      else
        let info := descVer f ||| EAPOL_KEY_INFO_KEY_TYPE ||| EAPOL_KEY_INFO_KEY_MIC |||
          (keyInfo f &&& EAPOL_KEY_INFO_SECURE)
        let frame := unsignedResponse info (slice f 9 8) (List.replicate 32 0) []
        { sm := { sm with portAuthorized := true, handshakeStep := 4 }, seed
          resp := some (signResponse sm frame) }

def rxMessage3 : Rx :=
  if sm.handshakeStep < 2 then { sm, seed, resp := none }
  else if replayCounter f < sm.lastReplayCounter then { sm, seed, resp := none }
  else if eapolTotalLen f > 512 then { sm, seed, resp := none }
  else if micDiff (keyMic f) (expectedMic sm f) ≠ 0 then { sm, seed, resp := none }
  else acceptMessage3 sm seed f maxRespLen

def wpa2SmRxEapol : Rx :=
  if isMessage1 sm f then rxMessage1 sm seed f maxRespLen
  else if isMessage3 sm f then rxMessage3 sm seed f maxRespLen
  else { sm, seed, resp := none }

/-! ## The MIC -/

theorem length_eapolMic : (wpa2ComputeEapolMic sm f).length = 16 := by
  unfold wpa2ComputeEapolMic
  split
  · simp [wlanHmacSha256, Sha.hmac, Sha.final, sha256, be32]
  · simp [wlanHmacSha1, Sha.hmac, Sha.final, sha1, be32]

theorem foldl_or_eq_zero {l : Bytes} {d : UInt8} : l.foldl (· ||| ·) d = 0 ↔ d = 0 ∧ ∀ x ∈ l, x = 0 := by
  induction l generalizing d with
  | nil => simp
  | cons x l ih => simp [ih, UInt8.or_eq_zero_iff, and_assoc]

/-- The comparison passes exactly when the two MICs are the same bytes. -/
theorem micDiff_eq_zero {x y : Bytes} (h : x.length = y.length) : micDiff x y = 0 ↔ x = y := by
  unfold micDiff
  rw [foldl_or_eq_zero]
  induction x generalizing y with
  | nil =>
    cases y with
    | nil => simp
    | cons => simp at h
  | cons a x ih =>
    cases y with
    | nil => simp at h
    | cons b y =>
      have hxy : x.length = y.length := by simpa using h
      have ih := ih hxy
      simp only [true_and] at ih
      simp [ih]

/-- The frame carries a MIC (Key MIC is set) and it is the one the current `kck` gives. -/
def CarriesMic : Prop :=
  hasFlag f EAPOL_KEY_INFO_KEY_MIC = true ∧ MIN_LEN ≤ f.length ∧ keyMic f = expectedMic sm f

/-! ## What a frame can do -/

theorem isMessage3_mic {sm : Sm} {f : Bytes} (h : isMessage3 sm f = true) :
    hasFlag f EAPOL_KEY_INFO_KEY_MIC = true := by
  simp only [isMessage3, Bool.and_eq_true] at h
  exact h.1.2

/-- A Message 3 that passes every check up to its MIC. -/
structure Passes (sm : Sm) (f : Bytes) : Prop where
  message : isMessage3 sm f = true
  step : 2 ≤ sm.handshakeStep
  counter : sm.lastReplayCounter ≤ replayCounter f
  fits : eapolTotalLen f ≤ 512
  mic : CarriesMic sm f

theorem length_keyMic {f : Bytes} (h : MIN_LEN ≤ f.length) (sm : Sm) :
    (keyMic f).length = (expectedMic sm f).length := by
  rw [expectedMic, length_eapolMic, keyMic, slice, List.length_take, List.length_drop]
  simp only [MIN_LEN] at h
  omega

/-- A Message 3 is refused as it came, or its MIC was right. -/
theorem rxMessage3_cases {sm : Sm} {f : Bytes} (h : isMessage3 sm f = true) (seed : UInt32) (n : Nat) :
    rxMessage3 sm seed f n = { sm, seed, resp := none } ∨
      (Passes sm f ∧ rxMessage3 sm seed f n = acceptMessage3 sm seed f n) := by
  unfold rxMessage3
  split
  · exact .inl rfl
  split
  · exact .inl rfl
  split
  · exact .inl rfl
  split
  · exact .inl rfl
  rename_i hstep hreplay hfits hdiff
  have hlen : MIN_LEN ≤ f.length := by simp_all [isMessage3, admitted]
  have hmic := (micDiff_eq_zero (length_keyMic hlen sm)).1 (Decidable.not_not.1 hdiff)
  exact .inr ⟨⟨h, UInt32.not_lt.1 hstep, UInt64.not_lt.1 hreplay, Nat.le_of_not_lt hfits,
    isMessage3_mic h, hlen, hmic⟩, rfl⟩

/-- Everything `wpa2_sm_rx_eapol` can do with a frame: refuse it, take it as a
Message 1, or accept it as a Message 3 whose MIC is right. -/
theorem wpa2SmRxEapol_cases (n : Nat) :
    isMessage1 sm f = false ∧ wpa2SmRxEapol sm seed f n = { sm, seed, resp := none } ∨
      (isMessage1 sm f = true ∧ wpa2SmRxEapol sm seed f n = rxMessage1 sm seed f n) ∨
      (Passes sm f ∧ wpa2SmRxEapol sm seed f n = acceptMessage3 sm seed f n) := by
  cases h1 : isMessage1 sm f with
  | true => exact .inr (.inl ⟨rfl, if_pos h1⟩)
  | false =>
    rw [wpa2SmRxEapol, h1, if_neg Bool.false_ne_true]
    split
    · rename_i h3
      rcases rxMessage3_cases h3 seed n with h | h
      · exact .inl ⟨rfl, h⟩
      · exact .inr (.inr h)
    · exact .inl ⟨rfl, rfl⟩

/-- Message 1 takes the keys; its answer is only sent where it has room. -/
theorem rxMessage1_cases (n : Nat) :
    (n < MIN_LEN + (if sm.useSae then 40 else 22) ∧
      rxMessage1 sm seed f n = ⟨(takeMessage1 sm seed f).1, (takeMessage1 sm seed f).2, none⟩) ∨
    ∃ resp, rxMessage1 sm seed f n =
      ⟨{ (takeMessage1 sm seed f).1 with handshakeStep := 2 }, (takeMessage1 sm seed f).2, some resp⟩ := by
  by_cases hfit : n < MIN_LEN + if sm.useSae then 40 else 22
  · exact .inl ⟨hfit, if_pos hfit⟩
  · exact .inr ⟨_, if_neg hfit⟩

/-- **An unauthenticated frame leaves the link alone unless it is a Message 1.**
Without a MIC valid under the current `kck`, no frame changes the group key;
and one that is not a Message 1, which carries no MIC by design, changes
neither a key, nor the replay counter, nor whether the port is authorized. -/
theorem unauthenticated_frame (sm : Sm) (seed : UInt32) {f : Bytes} (h : ¬ CarriesMic sm f) (n : Nat) :
    (wpa2SmRxEapol sm seed f n).sm.gtk = sm.gtk ∧
      (isMessage1 sm f = false →
        (wpa2SmRxEapol sm seed f n).sm.tk = sm.tk ∧
        (wpa2SmRxEapol sm seed f n).sm.kck = sm.kck ∧
        (wpa2SmRxEapol sm seed f n).sm.kek = sm.kek ∧
        (wpa2SmRxEapol sm seed f n).sm.lastReplayCounter = sm.lastReplayCounter ∧
        wpa2SmIsAuthorized (wpa2SmRxEapol sm seed f n).sm = wpa2SmIsAuthorized sm) := by
  rcases wpa2SmRxEapol_cases sm seed f n with ⟨_, hx⟩ | ⟨h₁, hx⟩ | ⟨hp, _⟩
  · rw [hx]
    exact ⟨rfl, fun _ => ⟨rfl, rfl, rfl, rfl, rfl⟩⟩
  · rw [hx]
    refine ⟨?_, fun h₁' => nomatch h₁.symm.trans h₁'⟩
    rcases rxMessage1_cases sm seed f n with ⟨_, hx⟩ | ⟨_, hx⟩ <;> rw [hx] <;> rfl
  · exact absurd hp.mic h

/-- A station whose port is authorized, its counter at 7. -/
def linkedSm : Sm :=
  { wpa2SmInit [0, 1, 2, 3, 4, 5] [6, 7, 8, 9, 10, 11] (List.replicate 32 0x77) with
    portAuthorized := true, handshakeStep := 4, lastReplayCounter := 7, kck := List.replicate 16 0x33 }

/-- An EAPOL-Key frame with the given Key Information and counter 3. -/
def keyFrame (info : UInt16) : Bytes :=
  unsignedResponse info [0, 0, 0, 0, 0, 0, 0, 3] (List.replicate 32 0x55) []

/-- A Message 3 with the next counter and a MIC of zeros. -/
def forgedM3 : Bytes := splice (keyFrame 0x018A) 16 [8]

theorem unauthenticated_frame_forged :
    isMessage3 linkedSm forgedM3 = true ∧ linkedSm.lastReplayCounter < replayCounter forgedM3 ∧
      (wpa2SmRxEapol linkedSm 1 forgedM3 256).sm.gtk = linkedSm.gtk ∧
      (wpa2SmRxEapol linkedSm 1 forgedM3 256).sm.lastReplayCounter = 7 ∧
      wpa2SmIsAuthorized (wpa2SmRxEapol linkedSm 1 forgedM3 256).sm = true := by
  have hmic : ¬ CarriesMic linkedSm forgedM3 := fun h => absurd h.2.2 (by decide +kernel)
  obtain ⟨hgtk, hkept⟩ := unauthenticated_frame linkedSm 1 hmic 256
  obtain ⟨-, -, -, hcounter, hport⟩ := hkept (by decide)
  exact ⟨by decide, by decide, hgtk, hcounter, hport⟩

/-- A Message 1 from anyone takes an authorized link down and turns its counter back. -/
theorem message1_disturbs :
    wpa2SmIsAuthorized linkedSm = true ∧ ¬ CarriesMic linkedSm (keyFrame 0x008A) ∧
      wpa2SmIsAuthorized (wpa2SmRxEapol linkedSm 0x12345678 (keyFrame 0x008A) 256).sm = false ∧
      (wpa2SmRxEapol linkedSm 0x12345678 (keyFrame 0x008A) 256).sm.lastReplayCounter <
        linkedSm.lastReplayCounter :=
  ⟨by decide, fun h => absurd h.1 (by decide), by decide +kernel, by decide +kernel⟩

end Fortress.Wlan
