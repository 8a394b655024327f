/-
Packets and key exchange of the SSH daemon (transport.c, kex.c).

The receiver cuts packets out of the byte stream, in plaintext until keys are
in use. The key exchange keeps its progress in `KexCtx.state`; an
`ECDH_INIT` does not look at it, and only the derivation of keys does.

X25519, SHA-256 and the packet cipher are parameters (`KexCrypto`). What is
sent to the client is not modelled, nor the sequence number it goes out with.
-/
import Fortress.Sshd.Monitor

namespace Fortress.Sshd

open Codec

def SSH_MSG_KEXINIT : UInt8 := 20
def SSH_MSG_NEWKEYS : UInt8 := 21
def SSH_MSG_KEX_ECDH_INIT : UInt8 := 30
def SSH_MSG_KEX_ECDH_REPLY : UInt8 := 31

def SSH_MIN_PACKET_LEN : Nat := 5
def SSH_MAX_PACKET_LEN : Nat := 35000

structure KexCrypto where
  /-- `crypto_x25519` of a private key and a point, which writes nothing when it fails -/
  x25519 : Bytes → Bytes → Option Bytes
  sha256 : Bytes → Bytes
  /-- the length field of a frame, under a key and a sequence number -/
  decryptLength : Bytes → Nat → Bytes → Nat
  /-- the body of a frame whose tag is right -/
  decryptPacket : Bytes → Nat → Bytes → Option Bytes

/-! ## Key exchange -/

inductive KexState
  | init
  | kexinitSent
  | kexinitRecv
  | ecdhDone
  | newkeysSent
  | active
  deriving DecidableEq, Repr

def KexState.rank : KexState → Nat
  | .init => 0
  | .kexinitSent => 1
  | .kexinitRecv => 2
  | .ecdhDone => 3
  | .newkeysSent => 4
  | .active => 5

structure KexCtx where
  state : KexState
  strictKex : Bool
  sessionId : Bytes
  sessionIdSet : Bool
  serverPriv : Bytes
  serverPub : Bytes
  clientPub : Bytes
  sharedSecret : Bytes
  hash : Bytes
  clientKexinit : Option Bytes
  clientKexinitLen : Nat
  serverKexinit : Bytes
  keyC2s : Bytes
  keyS2c : Bytes
  deriving DecidableEq, Repr

def kexInit : KexCtx where
  state := .init
  strictKex := false
  sessionId := List.replicate 32 0
  sessionIdSet := false
  serverPriv := List.replicate 32 0
  serverPub := List.replicate 32 0
  clientPub := List.replicate 32 0
  sharedSecret := List.replicate 32 0
  hash := List.replicate 32 0
  clientKexinit := none
  clientKexinitLen := 0
  serverKexinit := []
  keyC2s := List.replicate 64 0
  keyS2c := List.replicate 64 0

def curveName : Bytes := ascii "curve25519-sha256"
def cipherName : Bytes := ascii "chacha20-poly1305@openssh.com"
def strictServer : Bytes := ascii "kex-strict-s-v00@openssh.com"
def strictClient : Bytes := ascii "kex-strict-c-v00@openssh.com"

variable (g : Grant)

/-- A buffer whose allocation may have failed; the callers below go on with it. -/
def initOrZero (initialAlloc maxSize : Nat) : SshBuf :=
  match sshbufInit g initialAlloc maxSize with
  | .ok b => b
  | .error _ => SshBuf.zero

/-- Puts in turn, each tried whatever became of the others. -/
def putAll (ps : List Put) (b : SshBuf) : SshBuf := ps.foldl (fun b p => (p b).2) b

def sshbufPutMpint (data : Bytes) : Put :=
  let data := data.dropWhile (· == 0)
  match data with
  | [] => sshbufPutU32 g 0
  | b :: _ =>
    if 0x80 ≤ b then putSeq [sshbufPutU32 g (data.length + 1), sshbufPutU8 g 0, sshbufPutRaw g data]
    else putSeq [sshbufPutU32 g data.length, sshbufPutRaw g data]

/-- The server's KEXINIT, kept for the exchange hash. -/
def kexBuildKexinit (ctx : KexCtx) (cookie : Bytes) : Option SshErr × KexCtx :=
  match sshbufInit g 512 4096 with
  | .error e => (some e, ctx)
  | .ok b =>
    match putSeq [sshbufPutU8 g SSH_MSG_KEXINIT, sshbufPutRaw g cookie,
        sshbufPutString g (curveName ++ [44] ++ strictServer),
      sshbufPutString g edAlgo, sshbufPutString g cipherName, sshbufPutString g cipherName, sshbufPutString g [],
      sshbufPutString g [], sshbufPutString g (ascii "none"), sshbufPutString g (ascii "none"), sshbufPutString g [],
      sshbufPutString g [], sshbufPutU8 g 0, sshbufPutU32 g 0] b with
    | (some e, _) => (some e, ctx)
    | (none, b) =>
      if g b.size then (none, { ctx with serverKexinit := b.data, state := .kexinitSent })
      else (some .noMem, { ctx with serverKexinit := [] })

def namelistContains (list target : Bytes) : Bool := (splitComma list).any (· == target)

structure KexinitMsg where
  kexAlgs : Bytes
  hostkeyAlgs : Bytes
  ciphersC2s : Bytes
  ciphersS2c : Bytes

def readKexinit (payload : Bytes) : Except SshErr KexinitMsg := do
  let (msg, b) ← sshbufGetU8 (sshbufInitFrom payload)
  if msg ≠ SSH_MSG_KEXINIT then .error .invalidFormat
  else
    let (_cookie, b) ← sshbufGetRaw b 16
    let (kexAlgs, b) ← sshbufGetStringPtr b
    let (hostkeyAlgs, b) ← sshbufGetStringPtr b
    let (ciphersC2s, b) ← sshbufGetStringPtr b
    let (ciphersS2c, _) ← sshbufGetStringPtr b
    return ⟨kexAlgs, hostkeyAlgs, ciphersC2s, ciphersS2c⟩

def kexParseKexinit (ctx : KexCtx) (payload : Bytes) : Option SshErr × KexCtx :=
  if payload.length < 17 then (some .invalidArg, ctx)
  else match readKexinit payload with
  | .error e => (some e, ctx)
  | .ok m =>
    if namelistContains m.kexAlgs curveName = false ∨ namelistContains m.hostkeyAlgs edAlgo = false ∨
        namelistContains m.ciphersC2s cipherName = false ∨ namelistContains m.ciphersS2c cipherName = false then
      (some .invalidFormat, ctx)
    else
      let ctx := if namelistContains m.kexAlgs strictClient then { ctx with strictKex := true } else ctx
      if g payload.length then
        (none, { ctx with clientKexinit := some payload, clientKexinitLen := payload.length, state := .kexinitRecv })
      else (some .noMem, { ctx with clientKexinit := none })

/-- `kex_start_ecdh`; a key generation that fails leaves the old pair. -/
def kexStartEcdh (keygen : Option (Bytes × Bytes)) (ctx : KexCtx) : KexCtx :=
  match keygen with
  | some (priv, pub) => { ctx with serverPriv := priv, serverPub := pub }
  | none => ctx

def readEcdhInit (payload : Bytes) : Except SshErr Bytes := do
  let (msg, b) ← sshbufGetU8 (sshbufInitFrom payload)
  if msg ≠ SSH_MSG_KEX_ECDH_INIT then .error .invalidFormat
  else
    let (pub, _) ← sshbufGetStringPtr b
    return pub

/-- Who the two sides say they are, and the host key of the server. -/
structure KexIds where
  hostPub : Bytes
  clientVersion : Bytes
  serverVersion : Bytes

def hostKeyBlob (hostPub : Bytes) : Bytes :=
  (putAll [sshbufPutString g edAlgo, sshbufPutString g hostPub] (initOrZero g 64 256)).data

/-- `sshbuf_put_string` of a saved KEXINIT: without the copy only its old length is written. -/
def putSaved (saved : Option Bytes) (len : Nat) : Put :=
  match saved with
  | some bs => sshbufPutString g bs
  | none => sshbufPutU32 g len

/-- What the exchange hash is taken over. -/
def exchangeInput (ids : KexIds) (ctx : KexCtx) : Bytes :=
  (putAll [sshbufPutString g ids.clientVersion, sshbufPutString g ids.serverVersion,
    putSaved g ctx.clientKexinit ctx.clientKexinitLen, sshbufPutString g ctx.serverKexinit,
    sshbufPutString g (hostKeyBlob g ids.hostPub), sshbufPutString g ctx.clientPub,
    sshbufPutString g ctx.serverPub, sshbufPutMpint g ctx.sharedSecret] (initOrZero g 4096 65536)).data

variable (cr : KexCrypto) (g : Grant)

/-- The code, the caller's hash array and the context after an ECDH_INIT. The array is only
written on success: before that it holds `garbage`. -/
def kexProcessEcdhInit (ids : KexIds) (ctx : KexCtx) (payload garbage : Bytes) :
    Option SshErr × Bytes × KexCtx :=
  match readEcdhInit payload with
  | .error _ => (some .invalidFormat, garbage, ctx)
  | .ok pub =>
    if pub.length ≠ 32 then (some .invalidFormat, garbage, ctx)
    else
      let ctx := { ctx with clientPub := pub }
      if pub.all (· == 0) then (some .invalidFormat, garbage, ctx)
      else match cr.x25519 ctx.serverPriv pub with
      | none => (some .invalidFormat, garbage, ctx)
      | some secret =>
        let ctx := { ctx with sharedSecret := secret }
        if secret.all (· == 0) then (some .invalidFormat, garbage, ctx)
        else
          let hash := cr.sha256 (exchangeInput g ids ctx)
          let ctx := { ctx with hash, state := .ecdhDone }
          let ctx := if ctx.sessionIdSet then ctx else { ctx with sessionId := hash, sessionIdSet := true }
          (none, hash, ctx)

def deriveKey64 (kMpint hash : Bytes) (tag : UInt8) (sessionId : Bytes) : Bytes :=
  let k1 := cr.sha256 (kMpint ++ hash ++ [tag] ++ sessionId)
  k1 ++ cr.sha256 (kMpint ++ hash ++ k1)

/-- The client-to-server and server-to-client keys of a shared secret and its exchange hash. -/
def deriveKeyPair (secret hash sessionId : Bytes) : Except SshErr (Bytes × Bytes) :=
  match sshbufPutMpint g secret (initOrZero g 64 128) with
  | (some e, _) => .error e
  | (none, k) => .ok (deriveKey64 cr k.data hash 67 sessionId, deriveKey64 cr k.data hash 68 sessionId)

def kexDeriveKeys (ctx : KexCtx) : Except SshErr KexCtx :=
  if ctx.state.rank < KexState.ecdhDone.rank then .error .invalidArg
  else do
    let (keyC2s, keyS2c) ← deriveKeyPair cr g ctx.sharedSecret ctx.hash ctx.sessionId
    return { ctx with keyC2s, keyS2c }

/-! ## Packets -/

inductive TransportState
  | init
  | kex
  | active
  | rekey
  | error
  deriving DecidableEq, Repr

structure Cipher where
  key : Bytes
  active : Bool
  deriving DecidableEq, Repr

structure Transport where
  state : TransportState
  strictKex : Bool
  initialKexDone : Bool
  kex : KexCtx
  inCipher : Cipher
  outCipher : Cipher
  inSeq : Nat
  inBuf : SshBuf
  lastError : SshErr
  deriving DecidableEq, Repr

/-- The receive buffer with consumed room given back where the code does so. -/
def tidy (b : SshBuf) : SshBuf :=
  if 4096 ≤ b.off ∨ b.off = b.size then (sshbufCompact b).toOption.getD b else b

def sshTransportFeedInput (g : Grant) (t : Transport) (data : Bytes) : Option SshErr × Transport :=
  if t.state = .error then (some t.lastError, t)
  else
    let (r, b) := sshbufPutRaw g data (tidy t.inBuf)
    (r, { t with inBuf := b })

/-- The transport after a fatal error in the stream. -/
def Transport.broken (t : Transport) (e : SshErr) : Transport := { t with state := .error, lastError := e }

/-- Whether strict key exchange lets a message through before the keys are in use. -/
def strictAllows (t : Transport) (msg : UInt8) : Bool :=
  !(t.strictKex && !t.initialKexDone) ||
    (msg == SSH_MSG_KEXINIT || msg == SSH_MSG_KEX_ECDH_INIT || msg == SSH_MSG_KEX_ECDH_REPLY || msg == SSH_MSG_NEWKEYS)

/-- The packet in a body of `len` bytes: its type and its payload from the type on. -/
def unpad (body : Bytes) (len : Nat) : Option (UInt8 × Bytes) :=
  let pad := (body.headD 0).toNat
  if pad < 4 ∨ len < 1 + pad + 1 then none
  else some ((body.drop 1).headD 0, slice body 1 (len - 1 - pad))

abbrev Packet := UInt8 × Bytes

def sshTransportGetPacket (t : Transport) : Except SshErr Packet × Transport :=
  if t.state = .error then (.error t.lastError, t)
  else
    let avail := sshbufLen t.inBuf
    let ptr := sshbufPtr t.inBuf
    let consumed (n : Nat) : Transport := { t with inBuf := { t.inBuf with off := t.inBuf.off + n } }
    if avail < 4 then (.error .again, t)
    else if t.inCipher.active = false then
      let len := fromBe (ptr.take 4)
      if len < SSH_MIN_PACKET_LEN ∨ SSH_MAX_PACKET_LEN < len then (.error .invalidFormat, t.broken .invalidFormat)
      else if avail < 4 + len then (.error .again, t)
      else
        let t := consumed (4 + len)
        match unpad (slice ptr 4 len) len with
        | none => (.error .invalidFormat, t.broken .invalidFormat)
        | some (msg, payload) =>
          if strictAllows t msg = false then (.error .protocolViolation, t.broken .protocolViolation)
          else
            (.ok (msg, payload),
              { t with state := if msg = SSH_MSG_KEXINIT then .kex else t.state
                       inSeq := (t.inSeq + 1) % 2 ^ 32
                       inBuf := tidy t.inBuf })
    else
      let len := cr.decryptLength t.inCipher.key t.inSeq (ptr.take 4)
      if len < SSH_MIN_PACKET_LEN ∨ SSH_MAX_PACKET_LEN < len then (.error .invalidFormat, t.broken .invalidFormat)
      else if avail < 4 + len + 16 then (.error .again, t)
      else match cr.decryptPacket t.inCipher.key t.inSeq (ptr.take (4 + len + 16)) with
        | none => (.error .invalidFormat, t.broken .invalidFormat)
        | some body =>
          let t := { consumed (4 + len + 16) with inSeq := (t.inSeq + 1) % 2 ^ 32 }
          match unpad body len with
          | none => (.error .invalidFormat, t.broken .invalidFormat)
          | some (msg, payload) =>
            (.ok (msg, payload),
              { t with state := if msg = SSH_MSG_KEXINIT then .rekey else t.state
                       inBuf := tidy t.inBuf })

def sshTransportApplyNewkeys (t : Transport) (isRekey : Bool) : Option SshErr × Transport :=
  match kexDeriveKeys cr g t.kex with
  | .error e => (some e, t)
  | .ok kex =>
    (none,
      { t with
        kex
        inCipher := ⟨kex.keyC2s, true⟩
        outCipher := ⟨kex.keyS2c, true⟩
        inSeq := if isRekey || !t.strictKex then t.inSeq else 0
        initialKexDone := t.initialKexDone || !isRekey
        state := .active })

end Fortress.Sshd
