/-
The primitives of net/wlan/wlan_crypto.c that the handshake uses: SHA-1 and
SHA-256 with their HMACs, the two pairwise key derivations, and the AES-128
key unwrap. Buffers are byte lists; the contexts of the two hashes differ in
their words and their transform only, so they share one definition.
-/
import Fortress.Lib.Codec

namespace Fortress.Wlan

/-! ## SHA-1 and SHA-256 -/

/-- What the two hashes differ in: chaining state, initial words, block transform, output. -/
structure Sha (σ : Type) where
  init : σ
  transform : σ → Bytes → σ
  digest : σ → Bytes

structure ShaCtx (σ : Type) where
  state : σ
  count : UInt64
  /-- The first `count & 0x3F` bytes of `buffer`. -/
  buffer : Bytes

namespace Sha

variable {σ : Type} (H : Sha σ)

def start : ShaCtx σ := { state := H.init, count := 0, buffer := [] }

-- The source copies up to a whole block at a time; a full block is transformed at once.
def absorb (c : ShaCtx σ) (b : UInt8) : ShaCtx σ :=
  let buffer := c.buffer ++ [b]
  if buffer.length = 64 then { state := H.transform c.state buffer, count := c.count + 1, buffer := [] }
  else { c with count := c.count + 1, buffer := buffer }

def update (c : ShaCtx σ) (data : Bytes) : ShaCtx σ := data.foldl H.absorb c

/-- The zero bytes appended until `count & 0x3F` is 56; 63 of them always suffice. -/
def padZeros : Nat → ShaCtx σ → ShaCtx σ
  | 0, c => c
  | n + 1, c => if c.count &&& 0x3F = 56 then c else padZeros n (H.update c [0])

def lengthBytes (totalBits : UInt64) : Bytes :=
  (List.range 8).map fun i => (totalBits >>> ((7 - i) * 8).toUInt64).toUInt8

def final (c : ShaCtx σ) : Bytes :=
  let totalBits := c.count * 8
  let c := H.padZeros 64 (H.update c [0x80])
  H.digest (H.update c (lengthBytes totalBits)).state

def hash (data : Bytes) : Bytes := H.final (H.update H.start data)

/-- The key as one block: hashed when longer than 64 bytes, then zero filled. -/
def keyBlock (key : Bytes) : Bytes :=
  let k := if key.length > 64 then H.hash key else key
  k ++ List.replicate (64 - k.length) 0

def hmac (key data : Bytes) : Bytes :=
  let k := H.keyBlock key
  let inner := H.final (H.update (H.update H.start (k.map (· ^^^ 0x36))) data)
  H.final (H.update (H.update H.start (k.map (· ^^^ 0x5c))) inner)

end Sha

def be32 (x : UInt32) : Bytes :=
  [(x >>> 24).toUInt8, (x >>> 16).toUInt8, (x >>> 8).toUInt8, x.toUInt8]

def rotl32 (x n : UInt32) : UInt32 := (x <<< n) ||| (x >>> (32 - n))

def rotr32 (x n : UInt32) : UInt32 := (x >>> n) ||| (x <<< (32 - n))

def wordAt (buffer : Bytes) (i : Nat) : UInt32 :=
  ((buffer.getD (i * 4) 0).toUInt32 <<< 24) ||| ((buffer.getD (i * 4 + 1) 0).toUInt32 <<< 16) |||
    ((buffer.getD (i * 4 + 2) 0).toUInt32 <<< 8) ||| (buffer.getD (i * 4 + 3) 0).toUInt32

structure Sha1State where
  (a b c d e : UInt32)

def sha1Schedule (buffer : Bytes) : List UInt32 :=
  (List.range' 16 64).foldl
    (fun w i => w ++ [rotl32 (w.getD (i - 3) 0 ^^^ w.getD (i - 8) 0 ^^^ w.getD (i - 14) 0 ^^^ w.getD (i - 16) 0) 1])
    ((List.range 16).map (wordAt buffer))

def sha1Round (w : List UInt32) (s : Sha1State) (i : Nat) : Sha1State :=
  let f :=
    if i < 20 then (s.b &&& s.c) ||| (~~~s.b &&& s.d)
    else if i < 40 then s.b ^^^ s.c ^^^ s.d
    else if i < 60 then (s.b &&& s.c) ||| (s.b &&& s.d) ||| (s.c &&& s.d)
    else s.b ^^^ s.c ^^^ s.d
  let k : UInt32 :=
    if i < 20 then 0x5A827999 else if i < 40 then 0x6ED9EBA1 else if i < 60 then 0x8F1BBCDC else 0xCA62C1D6
  let temp := rotl32 s.a 5 + f + s.e + k + w.getD i 0
  { a := temp, b := s.a, c := rotl32 s.b 30, d := s.c, e := s.d }

def sha1Transform (s : Sha1State) (buffer : Bytes) : Sha1State :=
  let r := (List.range 80).foldl (sha1Round (sha1Schedule buffer)) s
  { a := s.a + r.a, b := s.b + r.b, c := s.c + r.c, d := s.d + r.d, e := s.e + r.e }

def sha1 : Sha Sha1State where
  init := { a := 0x67452301, b := 0xEFCDAB89, c := 0x98BADCFE, d := 0x10325476, e := 0xC3D2E1F0 }
  transform := sha1Transform
  digest s := [s.a, s.b, s.c, s.d, s.e].flatMap be32

def sha256K : List UInt32 :=
  [0x428a2f98, 0x71374491, 0xb5c0fbcf, 0xe9b5dba5, 0x3956c25b, 0x59f111f1, 0x923f82a4, 0xab1c5ed5,
   0xd807aa98, 0x12835b01, 0x243185be, 0x550c7dc3, 0x72be5d74, 0x80deb1fe, 0x9bdc06a7, 0xc19bf174,
   0xe49b69c1, 0xefbe4786, 0x0fc19dc6, 0x240ca1cc, 0x2de92c6f, 0x4a7484aa, 0x5cb0a9dc, 0x76f988da,
   0x983e5152, 0xa831c66d, 0xb00327c8, 0xbf597fc7, 0xc6e00bf3, 0xd5a79147, 0x06ca6351, 0x14292967,
   0x27b70a85, 0x2e1b2138, 0x4d2c6dfc, 0x53380d13, 0x650a7354, 0x766a0abb, 0x81c2c92e, 0x92722c85,
   0xa2bfe8a1, 0xa81a664b, 0xc24b8b70, 0xc76c51a3, 0xd192e819, 0xd6990624, 0xf40e3585, 0x106aa070,
   0x19a4c116, 0x1e376c08, 0x2748774c, 0x34b0bcb5, 0x391c0cb3, 0x4ed8aa4a, 0x5b9cca4f, 0x682e6ff3,
   0x748f82ee, 0x78a5636f, 0x84c87814, 0x8cc70208, 0x90befffa, 0xa4506ceb, 0xbef9a3f7, 0xc67178f2]

structure Sha256State where
  (a b c d e f g h : UInt32)

def sha256Schedule (buffer : Bytes) : List UInt32 :=
  (List.range' 16 48).foldl
    (fun w i =>
      let s0 := rotr32 (w.getD (i - 15) 0) 7 ^^^ rotr32 (w.getD (i - 15) 0) 18 ^^^ (w.getD (i - 15) 0 >>> 3)
      let s1 := rotr32 (w.getD (i - 2) 0) 17 ^^^ rotr32 (w.getD (i - 2) 0) 19 ^^^ (w.getD (i - 2) 0 >>> 10)
      w ++ [w.getD (i - 16) 0 + s0 + w.getD (i - 7) 0 + s1])
    ((List.range 16).map (wordAt buffer))

def sha256Round (w : List UInt32) (s : Sha256State) (i : Nat) : Sha256State :=
  let s1 := rotr32 s.e 6 ^^^ rotr32 s.e 11 ^^^ rotr32 s.e 25
  let ch := (s.e &&& s.f) ^^^ (~~~s.e &&& s.g)
  let temp1 := s.h + s1 + ch + sha256K.getD i 0 + w.getD i 0
  let s0 := rotr32 s.a 2 ^^^ rotr32 s.a 13 ^^^ rotr32 s.a 22
  let maj := (s.a &&& s.b) ^^^ (s.a &&& s.c) ^^^ (s.b &&& s.c)
  let temp2 := s0 + maj
  { a := temp1 + temp2, b := s.a, c := s.b, d := s.c, e := s.d + temp1, f := s.e, g := s.f, h := s.g }

def sha256Transform (s : Sha256State) (buffer : Bytes) : Sha256State :=
  let r := (List.range 64).foldl (sha256Round (sha256Schedule buffer)) s
  { a := s.a + r.a, b := s.b + r.b, c := s.c + r.c, d := s.d + r.d,
    e := s.e + r.e, f := s.f + r.f, g := s.g + r.g, h := s.h + r.h }

def sha256 : Sha Sha256State where
  init := { a := 0x6a09e667, b := 0xbb67ae85, c := 0x3c6ef372, d := 0xa54ff53a,
            e := 0x510e527f, f := 0x9b05688c, g := 0x1f83d9ab, h := 0x5be0cd19 }
  transform := sha256Transform
  digest s := [s.a, s.b, s.c, s.d, s.e, s.f, s.g, s.h].flatMap be32

def wlanHmacSha1 (key data : Bytes) : Bytes := sha1.hmac key data

def wlanHmacSha256 (key data : Bytes) : Bytes := sha256.hmac key data

/-! ## Pairwise key derivation -/

/-- The bytes of "Pairwise key expansion", without the terminator. -/
def expansionLabel : Bytes :=
  [0x50, 0x61, 0x69, 0x72, 0x77, 0x69, 0x73, 0x65, 0x20, 0x6b, 0x65, 0x79, 0x20,
   0x65, 0x78, 0x70, 0x61, 0x6e, 0x73, 0x69, 0x6f, 0x6e]

/-- A buffer too small for the input leaves `ptk` alone; otherwise four hashes give its 64 bytes. -/
def wlanPrf512 (pmk label data ptk : Bytes) : Bytes :=
  if label.length + 1 + data.length + 1 > 256 then ptk
  else ((List.range 4).flatMap fun count =>
    wlanHmacSha1 pmk (label ++ [0] ++ data ++ [count.toUInt8])).take 64

/-- Both derivations order the addresses and the nonces, smaller first. -/
def ordered (x y : Bytes) : Bytes := if x < y then x ++ y else y ++ x

def wlanDerivePtk (pmk addr1 addr2 nonce1 nonce2 ptk : Bytes) : Bytes :=
  wlanPrf512 pmk expansionLabel (ordered addr1 addr2 ++ ordered nonce1 nonce2) ptk

def le16 (n : Nat) : Bytes := [(n % 256).toUInt8, (n / 256 % 256).toUInt8]

def wlanKdfSha256 (key label context : Bytes) (outBits : Nat) : Bytes :=
  ((List.range ((outBits + 255) / 256)).flatMap fun i =>
    wlanHmacSha256 key (le16 (i + 1) ++ label ++ context ++ le16 outBits)).take ((outBits + 7) / 8)

def wlanDerivePtkSha256 (pmk addr1 addr2 nonce1 nonce2 : Bytes) : Bytes :=
  wlanKdfSha256 pmk expansionLabel (ordered addr1 addr2 ++ ordered nonce1 nonce2) 384 ++ List.replicate 16 0

/-! ## AES-128 key unwrap -/

def sbox : List UInt8 :=
  [0x63, 0x7c, 0x77, 0x7b, 0xf2, 0x6b, 0x6f, 0xc5, 0x30, 0x01, 0x67, 0x2b, 0xfe, 0xd7, 0xab, 0x76,
   0xca, 0x82, 0xc9, 0x7d, 0xfa, 0x59, 0x47, 0xf0, 0xad, 0xd4, 0xa2, 0xaf, 0x9c, 0xa4, 0x72, 0xc0,
   0xb7, 0xfd, 0x93, 0x26, 0x36, 0x3f, 0xf7, 0xcc, 0x34, 0xa5, 0xe5, 0xf1, 0x71, 0xd8, 0x31, 0x15,
   0x04, 0xc7, 0x23, 0xc3, 0x18, 0x96, 0x05, 0x9a, 0x07, 0x12, 0x80, 0xe2, 0xeb, 0x27, 0xb2, 0x75,
   0x09, 0x83, 0x2c, 0x1a, 0x1b, 0x6e, 0x5a, 0xa0, 0x52, 0x3b, 0xd6, 0xb3, 0x29, 0xe3, 0x2f, 0x84,
   0x53, 0xd1, 0x00, 0xed, 0x20, 0xfc, 0xb1, 0x5b, 0x6a, 0xcb, 0xbe, 0x39, 0x4a, 0x4c, 0x58, 0xcf,
   0xd0, 0xef, 0xaa, 0xfb, 0x43, 0x4d, 0x33, 0x85, 0x45, 0xf9, 0x02, 0x7f, 0x50, 0x3c, 0x9f, 0xa8,
   0x51, 0xa3, 0x40, 0x8f, 0x92, 0x9d, 0x38, 0xf5, 0xbc, 0xb6, 0xda, 0x21, 0x10, 0xff, 0xf3, 0xd2,
   0xcd, 0x0c, 0x13, 0xec, 0x5f, 0x97, 0x44, 0x17, 0xc4, 0xa7, 0x7e, 0x3d, 0x64, 0x5d, 0x19, 0x73,
   0x60, 0x81, 0x4f, 0xdc, 0x22, 0x2a, 0x90, 0x88, 0x46, 0xee, 0xb8, 0x14, 0xde, 0x5e, 0x0b, 0xdb,
   0xe0, 0x32, 0x3a, 0x0a, 0x49, 0x06, 0x24, 0x5c, 0xc2, 0xd3, 0xac, 0x62, 0x91, 0x95, 0xe4, 0x79,
   0xe7, 0xc8, 0x37, 0x6d, 0x8d, 0xd5, 0x4e, 0xa9, 0x6c, 0x56, 0xf4, 0xea, 0x65, 0x7a, 0xae, 0x08,
   0xba, 0x78, 0x25, 0x2e, 0x1c, 0xa6, 0xb4, 0xc6, 0xe8, 0xdd, 0x74, 0x1f, 0x4b, 0xbd, 0x8b, 0x8a,
   0x70, 0x3e, 0xb5, 0x66, 0x48, 0x03, 0xf6, 0x0e, 0x61, 0x35, 0x57, 0xb9, 0x86, 0xc1, 0x1d, 0x9e,
   0xe1, 0xf8, 0x98, 0x11, 0x69, 0xd9, 0x8e, 0x94, 0x9b, 0x1e, 0x87, 0xe9, 0xce, 0x55, 0x28, 0xdf,
   0x8c, 0xa1, 0x89, 0x0d, 0xbf, 0xe6, 0x42, 0x68, 0x41, 0x99, 0x2d, 0x0f, 0xb0, 0x54, 0xbb, 0x16]

def invSbox : List UInt8 :=
  [0x52, 0x09, 0x6a, 0xd5, 0x30, 0x36, 0xa5, 0x38, 0xbf, 0x40, 0xa3, 0x9e, 0x81, 0xf3, 0xd7, 0xfb,
   0x7c, 0xe3, 0x39, 0x82, 0x9b, 0x2f, 0xff, 0x87, 0x34, 0x8e, 0x43, 0x44, 0xc4, 0xde, 0xe9, 0xcb,
   0x54, 0x7b, 0x94, 0x32, 0xa6, 0xc2, 0x23, 0x3d, 0xee, 0x4c, 0x95, 0x0b, 0x42, 0xfa, 0xc3, 0x4e,
   0x08, 0x2e, 0xa1, 0x66, 0x28, 0xd9, 0x24, 0xb2, 0x76, 0x5b, 0xa2, 0x49, 0x6d, 0x8b, 0xd1, 0x25,
   0x72, 0xf8, 0xf6, 0x64, 0x86, 0x68, 0x98, 0x16, 0xd4, 0xa4, 0x5c, 0xcc, 0x5d, 0x65, 0xb6, 0x92,
   0x6c, 0x70, 0x48, 0x50, 0xfd, 0xed, 0xb9, 0xda, 0x5e, 0x15, 0x46, 0x57, 0xa7, 0x8d, 0x9d, 0x84,
   0x90, 0xd8, 0xab, 0x00, 0x8c, 0xbc, 0xd3, 0x0a, 0xf7, 0xe4, 0x58, 0x05, 0xb8, 0xb3, 0x45, 0x06,
   0xd0, 0x2c, 0x1e, 0x8f, 0xca, 0x3f, 0x0f, 0x02, 0xc1, 0xaf, 0xbd, 0x03, 0x01, 0x13, 0x8a, 0x6b,
   0x3a, 0x91, 0x11, 0x41, 0x4f, 0x67, 0xdc, 0xea, 0x97, 0xf2, 0xcf, 0xce, 0xf0, 0xb4, 0xe6, 0x73,
   0x96, 0xac, 0x74, 0x22, 0xe7, 0xad, 0x35, 0x85, 0xe2, 0xf9, 0x37, 0xe8, 0x1c, 0x75, 0xdf, 0x6e,
   0x47, 0xf1, 0x1a, 0x71, 0x1d, 0x29, 0xc5, 0x89, 0x6f, 0xb7, 0x62, 0x0e, 0xaa, 0x18, 0xbe, 0x1b,
   0xfc, 0x56, 0x3e, 0x4b, 0xc6, 0xd2, 0x79, 0x20, 0x9a, 0xdb, 0xc0, 0xfe, 0x78, 0xcd, 0x5a, 0xf4,
   0x1f, 0xdd, 0xa8, 0x33, 0x88, 0x07, 0xc7, 0x31, 0xb1, 0x12, 0x10, 0x59, 0x27, 0x80, 0xec, 0x5f,
   0x60, 0x51, 0x7f, 0xa9, 0x19, 0xb5, 0x4a, 0x0d, 0x2d, 0xe5, 0x7a, 0x9f, 0x93, 0xc9, 0x9c, 0xef,
   0xa0, 0xe0, 0x3b, 0x4d, 0xae, 0x2a, 0xf5, 0xb0, 0xc8, 0xeb, 0xbb, 0x3c, 0x83, 0x53, 0x99, 0x61,
   0x17, 0x2b, 0x04, 0x7e, 0xba, 0x77, 0xd6, 0x26, 0xe1, 0x69, 0x14, 0x63, 0x55, 0x21, 0x0c, 0x7d]

def rcon : List UInt8 :=
  [0x00, 0x01, 0x02, 0x04, 0x08, 0x10, 0x20, 0x40, 0x80, 0x1B, 0x36]

def xtime (x : UInt8) : UInt8 := (x <<< 1) ^^^ (((x >>> 7) &&& 1) * 0x1b)

def gfMulLoop : Nat → UInt8 → UInt8 → UInt8 → UInt8
  | 0, _, _, res => res
  | n + 1, a, b, res =>
    if b = 0 then res
    else gfMulLoop n (xtime a) (b >>> 1) (if b &&& 1 = 1 then res ^^^ a else res)

-- Eight halvings leave nothing of a byte.
def gfMul (a b : UInt8) : UInt8 := gfMulLoop 8 a b 0

def aes128KeyExpansion (key : Bytes) : Bytes :=
  (List.range' 4 40).foldl
    (fun rk i =>
      let t := fun j => rk.getD ((i - 1) * 4 + j) 0
      let s := fun j => sbox.getD (t j).toNat 0
      let temp := if i % 4 = 0 then [s 1 ^^^ rcon.getD (i / 4) 0, s 2, s 3, s 0] else [t 0, t 1, t 2, t 3]
      rk ++ (List.range 4).map fun j => rk.getD ((i - 4) * 4 + j) 0 ^^^ temp.getD j 0)
    (key.take 16)

def addRoundKey (roundKeys : Bytes) (round : Nat) (state : Bytes) : Bytes :=
  (List.range 16).map fun i => state.getD i 0 ^^^ roundKeys.getD (round * 16 + i) 0

/-- Position `i` of the state takes the byte at position `invShift[i]`. -/
def invShift : List Nat := [0, 13, 10, 7, 4, 1, 14, 11, 8, 5, 2, 15, 12, 9, 6, 3]

def invShiftRows (state : Bytes) : Bytes := invShift.map fun i => state.getD i 0

def invSubBytes (state : Bytes) : Bytes := state.map fun b => invSbox.getD b.toNat 0

def invMixColumns (state : Bytes) : Bytes :=
  (List.range 4).flatMap fun c =>
    let s := fun j => state.getD (c * 4 + j) 0
    [gfMul (s 0) 0x0e ^^^ gfMul (s 1) 0x0b ^^^ gfMul (s 2) 0x0d ^^^ gfMul (s 3) 0x09,
     gfMul (s 0) 0x09 ^^^ gfMul (s 1) 0x0e ^^^ gfMul (s 2) 0x0b ^^^ gfMul (s 3) 0x0d,
     gfMul (s 0) 0x0d ^^^ gfMul (s 1) 0x09 ^^^ gfMul (s 2) 0x0e ^^^ gfMul (s 3) 0x0b,
     gfMul (s 0) 0x0b ^^^ gfMul (s 1) 0x0d ^^^ gfMul (s 2) 0x09 ^^^ gfMul (s 3) 0x0e]

def decryptRound (roundKeys : Bytes) (round : Nat) (state : Bytes) : Bytes :=
  let state := addRoundKey roundKeys round (invSubBytes (invShiftRows state))
  if round > 0 then invMixColumns state else state

def aes128DecryptBlock (roundKeys block : Bytes) : Bytes :=
  [9, 8, 7, 6, 5, 4, 3, 2, 1, 0].foldl (fun state round => decryptRound roundKeys round state)
    (addRoundKey roundKeys 10 block)

/-- One step of the unwrap: register `a` and block `i` of `r`, at counter `n * j + i`. -/
def unwrapStep (roundKeys : Bytes) (n j : Nat) (ar : Bytes × List Bytes) (i : Nat) : Bytes × List Bytes :=
  let t := (n * j + i).toUInt64
  let a := (List.range 8).map fun k => ar.1.getD k 0 ^^^ (t >>> ((7 - k) * 8).toUInt64).toUInt8
  let dec := aes128DecryptBlock roundKeys (a ++ ar.2.getD (i - 1) [])
  (dec.take 8, ar.2.set (i - 1) (dec.drop 8))

/-- The recovered key data, or `none` where the source returns -1. -/
def wlanAesUnwrap (kek wrapped : Bytes) : Option Bytes :=
  if wrapped.length < 24 ∨ wrapped.length > 256 ∨ wrapped.length % 8 ≠ 0 then none
  else
    let n := wrapped.length / 8 - 1
    let roundKeys := aes128KeyExpansion kek
    if n > 31 then none
    else
      let r := (List.range n).map fun i => (wrapped.drop ((i + 1) * 8)).take 8
      let ar := [5, 4, 3, 2, 1, 0].foldl
        (fun ar j => (List.range' 1 n).reverse.foldl (unwrapStep roundKeys n j) ar) (wrapped.take 8, r)
      if ar.1.all (· == 0xA6) then some ar.2.flatten else none

end Fortress.Wlan
