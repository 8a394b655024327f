/-
The worker's side of authentication (auth.c, `auth_process_request`): a client's
request is parsed, forwarded to the monitor over a pipe, and the monitor's reply
decides. The reply lands in a static buffer that is never cleared.

What the pipe delivers is an input: any bytes, up to where it fails. The
password path looks at the reply's type and length before its status; the two
public key paths look at the status alone, so a short reply is completed by
what an earlier one left in the buffer. `auth_reply_own_iff` says for every
call whether its outcome is the reply's.
-/
import Fortress.Sshd.Binding

namespace Fortress.Sshd

open Codec List

def SSH_MSG_USERAUTH_FAILURE : UInt8 := 51
def SSH_MSG_USERAUTH_SUCCESS : UInt8 := 52
def SSH_MSG_USERAUTH_PK_OK : UInt8 := 60
def SSH_AUTH_MAX_ATTEMPTS : Nat := 5

inductive AuthState
  | none
  | serviceRequested
  | inProgress
  | success
  | failed
  deriving DecidableEq, Repr

/-- `ssh_auth_ctx_t`; `home` and `shell` are the arrays. -/
structure AuthCtx where
  state : AuthState := .none
  sessionId : Bytes := []
  attempts : Nat := 0
  authenticated : Bool := false
  username : Bytes := []
  uid : Nat := 0
  gid : Nat := 0
  ngroups : Nat := 0
  groups : List Nat := List.replicate 16 0
  home : Bytes := List.replicate 128 0
  shell : Bytes := List.replicate 128 0
  deriving DecidableEq, Repr

/-! ## The reply buffer -/

/-- `s_auth_resp_buf`. -/
abbrev RespBuf := { bs : Bytes // bs.length = 512 }

/-- As the loader leaves it. -/
def RespBuf.zero : RespBuf := ⟨List.replicate 512 0, List.length_replicate⟩

/-- Bytes read to the start of the buffer; what stands behind them stays. -/
def RespBuf.store (b : RespBuf) (body : Bytes) : RespBuf :=
  ⟨(body ++ b.val.drop body.length).take 512, by
    have := b.property
    rw [List.length_take, List.length_append, List.length_drop]
    omega⟩

def readHdr (bs : Bytes) : MonitorHdr :=
  ⟨fromLe (slice bs 0 4), fromLe (slice bs 4 1), fromLe (slice bs 5 1), fromLe (slice bs 6 2)⟩

/-- `monitor_recv_msg` into the reply buffer, where the pipe delivers `delivered` and then
fails; the buffer keeps what came of a message that breaks off. -/
def monitorRecvMsg (delivered : Bytes) (buf : RespBuf) : Option MonitorHdr × RespBuf :=
  if delivered.length < 12 then (none, buf)
  else
    let hdr := readHdr delivered
    if hdr.magic ≠ MONITOR_MAGIC then (none, buf)
    else if MONITOR_MAX_PAYLOAD < hdr.payloadLen ∨ 512 < hdr.payloadLen then (none, buf)
    else
      let body := slice delivered 12 hdr.payloadLen
      if body.length < hdr.payloadLen then (none, buf.store body) else (some hdr, buf.store body)

/-- The status word at the start of the buffer. -/
def RespBuf.status (b : RespBuf) : Nat := fromLe (slice b.val 0 4)

/-! ## The client's request -/

inductive AuthReq
  /-- the packet ends the call with an error -/
  | error (e : SshErr)
  /-- the client is told no; `counted` says whether that is an attempt -/
  | refuse (counted : Bool)
  | password (user pass : Bytes)
  | probe (user blob : Bytes)
  | signed (user blob sig : Bytes)
  deriving DecidableEq, Repr

/-- The method's own fields, for a password. -/
def parsePasswordMethod (user : Bytes) (b : SshBuf) : AuthReq :=
  match sshbufGetU8 b with
  | .error _ => .refuse true
  | .ok (changePass, b) =>
    if changePass ≠ 0 then .refuse true
    else match sshbufGetStringPtr b with
      | .error _ => .refuse true
      | .ok (pass, _) => if 128 ≤ pass.length then .refuse true else .password user pass

/-- The signature of an OpenSSH signature blob. -/
def parseSignature (user blob : Bytes) (b : SshBuf) : AuthReq :=
  match sshbufGetStringPtr b with
  | .error _ => .error .invalidFormat
  | .ok (sigBlob, _) =>
    match sshbufGetStringPtr (sshbufInitFrom sigBlob) with
    | .error _ => .refuse true
    | .ok (sigAlgo, sb) =>
      if sigAlgo ≠ edAlgo then .refuse true
      else match sshbufGetStringPtr sb with
        | .error _ => .refuse true
        | .ok (rawSig, _) => if rawSig.length ≠ 64 then .refuse true else .signed user blob rawSig

/-- The method's own fields, for a public key. -/
def parsePubkeyMethod (user : Bytes) (b : SshBuf) : AuthReq :=
  match sshbufGetU8 b with
  | .error _ => .error .invalidFormat
  | .ok (hasSig, b) =>
    match sshbufGetStringPtr b with
    | .error _ => .error .invalidFormat
    | .ok (algo, b) =>
      if algo ≠ edAlgo then .refuse (hasSig != 0)
      else match sshbufGetStringPtr b with
        | .error _ => .refuse (hasSig != 0)
        | .ok (blob, b) =>
          if blob.length ≠ 51 then .refuse (hasSig != 0)
          else if fromBe (slice blob 0 4) ≠ 11 ∨ slice blob 4 11 ≠ edAlgo then .refuse (hasSig != 0)
          else if fromBe (slice blob 15 4) ≠ 32 then .refuse (hasSig != 0)
          else if hasSig = 0 then .probe user blob
          else parseSignature user blob b

/-- What `auth_process_request` reads from a packet before it talks to the monitor. -/
def parseAuthRequest (payload : Bytes) : AuthReq :=
  match sshbufGetU8 (sshbufInitFrom payload) with
  | .error _ => .error .invalidFormat
  | .ok (msgType, b) =>
    if msgType ≠ SSH_MSG_USERAUTH_REQUEST then .error .invalidFormat
    else match sshbufGetStringPtr b with
      | .error _ => .error .invalidFormat
      | .ok (user, b) =>
        if user.length = 0 ∨ 32 ≤ user.length then .error .invalidFormat
        else match sshbufGetStringPtr b with
          | .error _ => .error .invalidFormat
          | .ok (svc, b) =>
            if svc ≠ ascii "ssh-connection" then .refuse false
            else match sshbufGetStringPtr b with
              | .error _ => .error .invalidFormat
              | .ok (method, b) =>
                if method = ascii "password" then parsePasswordMethod user b
                else if method = ascii "publickey" then parsePubkeyMethod user b
                -- `none`, which asks for the methods, and every other
                else .refuse false

/-! ## The call -/

/-- What the system answers during one call: the buffer pool, whether the request goes out,
and what the pipe delivers. -/
structure AuthEnv where
  grant : Grant
  sendOk : Bool
  delivered : Bytes

/-- What a call leaves behind, and the message it handed to `monitor_send_msg`. -/
structure Answered where
  code : Option SshErr
  ctx : AuthCtx
  buf : RespBuf
  out : SshBuf
  asked : Option (Nat × Bytes)

/-- A reply to the client is put together; a put that fails is out of memory. -/
def replyWith (ctx : AuthCtx) (buf : RespBuf) (out : SshBuf) (ps : List Put) : Answered :=
  match putSeq ps out with
  | (some _, out) => ⟨some .noMem, ctx, buf, out, none⟩
  | (none, out) => ⟨none, ctx, buf, out, none⟩

variable (g : Grant)

def failureMsg : List Put :=
  [sshbufPutU8 g SSH_MSG_USERAUTH_FAILURE, sshbufPutString g (ascii "publickey,password"), sshbufPutU8 g 0]

def successMsg : List Put := [sshbufPutU8 g SSH_MSG_USERAUTH_SUCCESS]

def pkOkMsg (blob : Bytes) : List Put :=
  [sshbufPutU8 g SSH_MSG_USERAUTH_PK_OK, sshbufPutString g edAlgo, sshbufPutString g blob]

/-- The credentials of an OK reply, if it is long enough to carry them. -/
def readCreds (ctx : AuthCtx) (payloadLen : Nat) (buf : RespBuf) : AuthCtx :=
  if 4 + 4 + 4 + 2 + 64 + 128 + 128 ≤ payloadLen then
    { ctx with
      uid := fromLe (slice buf.val 4 4)
      gid := fromLe (slice buf.val 8 4)
      ngroups := fromLe (slice buf.val 12 2)
      groups := (List.range 16).map fun i => fromLe (slice (slice buf.val 14 64) (4 * i) 4)
      home := slice buf.val 78 128
      shell := slice buf.val 206 128 }
  else ctx

variable (env : AuthEnv)

variable (ctx : AuthCtx)

/-- An OK status lets the user in, any other is a failed attempt. -/
def takeStatus (user : Bytes) (hdr : MonitorHdr) (buf : RespBuf) (out : SshBuf) :
    Answered :=
  if buf.status = MONITOR_STATUS_OK then
    let ctx := { ctx with state := .success, authenticated := true, username := clip 32 (cstr user) }
    replyWith (readCreds ctx hdr.payloadLen buf) buf out (successMsg env.grant)
  else
    let ctx := { ctx with attempts := ctx.attempts + 1 }
    let ctx := if SSH_AUTH_MAX_ATTEMPTS ≤ ctx.attempts then { ctx with state := .failed } else ctx
    replyWith ctx buf out (failureMsg env.grant)

def takePassword (user : Bytes) (hdr : MonitorHdr) (buf : RespBuf) (out : SshBuf) :
    Answered :=
  if hdr.msgType ≠ MONITOR_RESP_AUTH_PASSWORD ∨ hdr.payloadLen < 4 then
    replyWith { ctx with attempts := ctx.attempts + 1 } buf out (failureMsg env.grant)
  else takeStatus env ctx user hdr buf out

def takeProbe (blob : Bytes) (buf : RespBuf) (out : SshBuf) : Answered :=
  if buf.status = MONITOR_STATUS_PK_OK then replyWith ctx buf out (pkOkMsg env.grant blob)
  else replyWith ctx buf out (failureMsg env.grant)

/-- The request goes to the monitor and its reply is taken by `k`. -/
def exchange (buf : RespBuf) (out : SshBuf) (req : Nat × Bytes)
    (k : MonitorHdr → RespBuf → Answered) : Answered :=
  if env.sendOk = false then ⟨some .invalidFormat, ctx, buf, out, some req⟩
  else match monitorRecvMsg env.delivered buf with
    | (none, buf) => ⟨some .invalidFormat, ctx, buf, out, some req⟩
    | (some hdr, buf) => { k hdr buf with asked := some req }

/-- The data the client has to have signed. -/
def signedData (user blob : Bytes) : Except SshErr Bytes :=
  authBuildSignedData ctx.sessionId (cstr user) (ascii "ssh-connection") edAlgo blob 512

def passwordRequest (user pass : Bytes) : Nat × Bytes :=
  (MONITOR_REQ_AUTH_PASSWORD, le user.length 4 ++ user ++ le pass.length 4 ++ pass)

def pubkeyRequest (user : Bytes) (checkOnly : UInt8) (blob sig data : Bytes) : Nat × Bytes :=
  (MONITOR_REQ_AUTH_PUBKEY,
    le user.length 4 ++ user ++ [checkOnly] ++ slice blob 19 32 ++ sig ++ le data.length 2 ++ data)

def authProcessRequest (buf : RespBuf) (payload : Bytes) (out : SshBuf) : Answered :=
  if payload.length = 0 then ⟨some .invalidArg, ctx, buf, out, none⟩
  else if ctx.state ≠ .serviceRequested ∧ ctx.state ≠ .inProgress then ⟨some .invalidFormat, ctx, buf, out, none⟩
  else
    let ctx := { ctx with state := .inProgress }
    if SSH_AUTH_MAX_ATTEMPTS ≤ ctx.attempts then replyWith { ctx with state := .failed } buf out (failureMsg env.grant)
    else match parseAuthRequest payload with
      | .error e => ⟨some e, ctx, buf, out, none⟩
      | .refuse counted =>
        replyWith { ctx with attempts := ctx.attempts + if counted then 1 else 0 } buf out (failureMsg env.grant)
      | .password user pass =>
        exchange env ctx buf out (passwordRequest user pass) fun hdr buf => takePassword env ctx user hdr buf out
      | .probe user blob =>
        exchange env ctx buf out (pubkeyRequest user 1 blob (List.replicate 64 0) []) fun _ buf =>
          takeProbe env ctx blob buf out
      | .signed user blob sig =>
        match signedData ctx user blob with
        | .error _ => replyWith { ctx with attempts := ctx.attempts + 1 } buf out (failureMsg env.grant)
        | .ok data =>
          exchange env ctx buf out (pubkeyRequest user 0 blob sig data) fun hdr buf => takeStatus env ctx user hdr buf out

/-! ## Whose reply it is -/

/-- The message the pipe delivers, if it delivers one `monitor_recv_msg` takes. -/
def received (delivered : Bytes) : Option (MonitorHdr × Bytes) :=
  if delivered.length < 12 then none
  else
    let hdr := readHdr delivered
    if hdr.magic ≠ MONITOR_MAGIC ∨ MONITOR_MAX_PAYLOAD < hdr.payloadLen ∨ 512 < hdr.payloadLen then none
    else
      let body := slice delivered 12 hdr.payloadLen
      if body.length < hdr.payloadLen then none else some (hdr, body)

/-- The reply type that answers a request. -/
def AuthReq.respType : AuthReq → Option Nat
  | .password _ _ => some MONITOR_RESP_AUTH_PASSWORD
  | .probe _ _ | .signed _ _ _ => some MONITOR_RESP_AUTH_PUBKEY
  | _ => none

/-- All of a call that shows, to the client, to the monitor or in later calls; the buffer's bytes apart. -/
def Answered.outcome (a : Answered) : Option SshErr × AuthCtx × SshBuf × Option (Nat × Bytes) :=
  (a.code, a.ctx, a.out, a.asked)

/-- The call is decided by the message read in answer to it: the user is let in by a reply of
the matching type that carries the status OK, and what the buffer held before makes no
difference. -/
structure OwnReply (env : AuthEnv) (ctx : AuthCtx) (buf : RespBuf) (payload : Bytes) (out : SshBuf) : Prop where
  granted : ctx.authenticated = false → (authProcessRequest env ctx buf payload out).ctx.authenticated = true →
    ∃ hdr body, received env.delivered = some (hdr, body) ∧ (parseAuthRequest payload).respType = some hdr.msgType ∧
      4 ≤ body.length ∧ fromLe (body.take 4) = MONITOR_STATUS_OK
  fresh : ∀ buf', (authProcessRequest env ctx buf' payload out).outcome =
    (authProcessRequest env ctx buf payload out).outcome

/-- The call gets to the monitor. -/
def Asks (payload : Bytes) : Prop :=
  payload.length ≠ 0 ∧ (ctx.state = .serviceRequested ∨ ctx.state = .inProgress) ∧
    ctx.attempts < SSH_AUTH_MAX_ATTEMPTS ∧ env.sendOk = true

/-- A public key request gets a reply that its missing checks let through: one whose bytes
are fewer than the status word's and agree with the word waited for, or an OK of another type. -/
def Confused (payload : Bytes) (out : SshBuf) : Prop :=
  Asks env ctx payload ∧ ∃ hdr body, received env.delivered = some (hdr, body) ∧
    match parseAuthRequest payload with
    | .probe _ _ =>
      body.length < 4 ∧ body <+: le MONITOR_STATUS_PK_OK 4 ∧ (sshbufReserve env.grant out 1).isOk = true
    | .signed user blob _ =>
      (signedData ctx user blob).isOk = true ∧
        (body.length < 4 ∧ body <+: le MONITOR_STATUS_OK 4 ∨
          4 ≤ body.length ∧ body.take 4 = le MONITOR_STATUS_OK 4 ∧ hdr.msgType ≠ MONITOR_RESP_AUTH_PUBKEY ∧
            ctx.authenticated = false)
    | _ => False

/-! ## The buffer and the reply -/

variable {body d : Bytes}

/-- A message is taken or not whatever the buffer holds. -/
theorem received_cases (d : Bytes) : (received d = none ∧ ∀ buf, (monitorRecvMsg d buf).1 = none) ∨
    ∃ hdr body, received d = some (hdr, body) ∧ hdr.payloadLen = body.length ∧ body.length ≤ 512 ∧
      ∀ buf, monitorRecvMsg d buf = (some hdr, buf.store body) := by
  unfold received monitorRecvMsg
  by_cases hlen : d.length < 12
  · simp [hlen]
  by_cases hmagic : (readHdr d).magic ≠ MONITOR_MAGIC
  · simp [hmagic]
  by_cases hmax : MONITOR_MAX_PAYLOAD < (readHdr d).payloadLen ∨ 512 < (readHdr d).payloadLen
  · simp [hmax]
  simp only [if_neg hlen, if_neg (not_or.2 ⟨hmagic, hmax⟩), if_neg hmagic, if_neg hmax]
  by_cases hbody : (slice d 12 (readHdr d).payloadLen).length < (readHdr d).payloadLen
  · simp [hbody]
  have hle : (slice d 12 (readHdr d).payloadLen).length ≤ (readHdr d).payloadLen := length_take_le _ _
  simp only [if_neg hbody]
  exact .inr ⟨_, _, rfl, by omega, by omega, fun _ => rfl⟩

theorem slice_store {buf : RespBuf} {i n : Nat} (h : i + n ≤ body.length) (hb : body.length ≤ 512) :
    slice (buf.store body).val i n = slice body i n := by
  have hval : (buf.store body).val = body ++ (buf.val.drop body.length).take (512 - body.length) := by
    simp only [RespBuf.store]
    rw [take_append, take_of_length_le hb]
  rw [hval, slice_append_left h]

theorem status_store_long {buf : RespBuf} (h : 4 ≤ body.length) (hb : body.length ≤ 512) :
    (buf.store body).status = fromLe (body.take 4) := by
  rw [RespBuf.status, slice_store (by omega) hb]
  rfl

theorem le_fromLe (bs : Bytes) : le (fromLe bs) bs.length = bs := by
  induction bs with
  | nil => rfl
  | cons b bs ih =>
    have hb : b.toNat < 256 := b.toNat_lt
    rw [length_cons, le, fromLe, Nat.add_mul_mod_self_left, Nat.mod_eq_of_lt hb, Nat.add_mul_div_left _ _ (by decide),
      Nat.div_eq_of_lt hb, Nat.zero_add, ih]
    simp

variable {v : Nat}

theorem fromLe_eq_iff {bs : Bytes} (h : bs.length = 4) (hv : v < 256) : fromLe bs = v ↔ bs = le v 4 := by
  constructor
  · intro e
    rw [← e, ← h]
    exact (le_fromLe bs).symm
  · intro e
    rw [e, fromLe_le_of_lt (by omega)]

theorem status_store_short {buf : RespBuf} (h : body.length < 4) (hv : v < 256) :
    (buf.store body).status = v ↔ body ++ slice buf.val body.length (4 - body.length) = le v 4 := by
  have hval : slice (buf.store body).val 0 4 = body ++ slice buf.val body.length (4 - body.length) := by
    simp only [slice, drop_zero, RespBuf.store]
    rw [take_take, take_append, take_of_length_le (by omega)]
    rfl
  rw [RespBuf.status, hval, fromLe_eq_iff _ hv]
  rw [length_append, length_slice_of_le (by omega)]
  omega

/-- A short reply that is completed to the word agrees with it. -/
theorem prefix_of_status {buf : RespBuf} (h : body.length < 4) (hv : v < 256) (hs : (buf.store body).status = v) :
    body <+: le v 4 := by
  rw [← (status_store_short h hv).1 hs]
  exact prefix_append ..

/-- One that agrees is completed to the word by one buffer, and not by another. -/
theorem status_store_both (h : body.length < 4) (hv : v < 256) (hp : body <+: le v 4) :
    (∃ buf : RespBuf, (buf.store body).status = v) ∧ ∃ buf : RespBuf, (buf.store body).status ≠ v := by
  obtain ⟨rest, hrest⟩ := hp
  have hlen : body.length + rest.length = 4 := by rw [← length_append, hrest, length_le]
  refine ⟨⟨RespBuf.zero.store (le v 4), ?_⟩, ⟨⟨replicate 512 (1 : UInt8), length_replicate⟩, ?_⟩⟩
  · rw [status_store_short h hv, slice_store (by rw [length_le]; omega) (by simp), ← hrest]
    congr 1
    rw [slice_append_right (m := 0) (by omega)]
    exact slice_self (by omega)
  rw [Ne, status_store_short h hv]
  intro e
  -- The fourth byte of the word is zero.
  have hlast : (le v 4).getLast? = some 0 := by
    have h1 : v / 256 = 0 := Nat.div_eq_of_lt hv
    simp [le, h1]
  rw [← e, getLast?_append] at hlast
  have hone : (slice (replicate 512 (1 : UInt8)) body.length (4 - body.length)).getLast? = some 1 := by
    rw [slice, drop_replicate, take_replicate, getLast?_replicate, if_neg (by omega)]
  rw [hone, Option.some_or] at hlast
  cases hlast

/-- What is made of a reply looks at the status word alone, and tells the word from others if there is
room `r`. Then the buffer matters to a short reply that agrees with the word. -/
theorem stale_iff {γ : Type} {F : RespBuf → γ} {r : Prop} (hv : v < 256)
    (hlong : 4 ≤ body.length → ∀ b b' : RespBuf, F (b.store body) = F (b'.store body))
    (hsame : body.length < 4 → ∀ b b' : RespBuf, (b.status = v ↔ b'.status = v) → F b = F b')
    (hroom : ∀ b b' : RespBuf, b.status = v → b'.status ≠ v → (F b = F b' ↔ ¬ r)) (buf : RespBuf) :
    (∀ buf' : RespBuf, F (buf'.store body) = F (buf.store body)) ↔ ¬ (body.length < 4 ∧ body <+: le v 4 ∧ r) := by
  constructor
  · rintro hfresh ⟨hlen, hp, hr⟩
    obtain ⟨⟨b1, h1⟩, b2, h2⟩ := status_store_both hlen hv hp
    exact (hroom _ _ h1 h2).1 ((hfresh b1).trans (hfresh b2).symm) hr
  intro hno buf'
  by_cases hlen : body.length < 4
  · have hnone {b : RespBuf} (h : (b.store body).status = v) : ¬ r :=
      fun hr => hno ⟨hlen, prefix_of_status hlen hv h, hr⟩
    by_cases h1 : (buf'.store body).status = v <;> by_cases h2 : (buf.store body).status = v
    · exact hsame hlen _ _ (iff_of_true h1 h2)
    · exact (hroom _ _ h1 h2).2 (hnone h1)
    · exact ((hroom _ _ h2 h1).2 (hnone h2)).symm
    · exact hsame hlen _ _ (iff_of_false h1 h2)
  · exact hlong (Nat.not_lt.1 hlen) _ _

/-! ## The branches -/

/-- What a reply leads to, apart from the request. -/
def Answered.told (a : Answered) : Option SshErr × AuthCtx × SshBuf := (a.code, a.ctx, a.out)

section Branches

variable {env : AuthEnv} {ctx : AuthCtx} {out : SshBuf}

theorem replyWith_eq (ctx : AuthCtx) (buf : RespBuf) (out : SshBuf) (ps : List Put) : replyWith ctx buf out ps =
    ⟨(putSeq ps out).1.map fun _ => .noMem, ctx, buf, (putSeq ps out).2, none⟩ := by
  unfold replyWith
  split <;> simp [*]

variable {user body : Bytes} {hdr : MonitorHdr} {buf buf' : RespBuf}

theorem takeStatus_success (hst : ctx.state = .inProgress) :
    (takeStatus env ctx user hdr buf out).ctx.state = .success ↔ buf.status = MONITOR_STATUS_OK := by
  unfold takeStatus
  split
  · rename_i h
    rw [replyWith_eq, readCreds]
    split <;> simp [h]
  · rename_i h
    simp only [replyWith_eq]
    split <;> simp [h, hst]

theorem takeStatus_granted : (takeStatus env ctx user hdr buf out).ctx.authenticated = true ↔
    buf.status = MONITOR_STATUS_OK ∨ ctx.authenticated = true := by
  unfold takeStatus
  split
  · rename_i h
    rw [replyWith_eq, readCreds]
    split <;> simp [h]
  · rename_i h
    simp only [replyWith_eq]
    split <;> simp [h]

/-- Two buffers that agree on the status, and on the credentials an OK reply carries. -/
theorem takeStatus_told (hs : buf.status = MONITOR_STATUS_OK ↔ buf'.status = MONITOR_STATUS_OK)
    (hc : ∀ ctx, readCreds ctx hdr.payloadLen buf = readCreds ctx hdr.payloadLen buf') :
    (takeStatus env ctx user hdr buf out).told = (takeStatus env ctx user hdr buf' out).told := by
  simp only [takeStatus, hs, hc, replyWith_eq]
  split <;> rfl

theorem readCreds_store (hb : body.length ≤ 512) (ctx : AuthCtx) :
    readCreds ctx body.length (buf.store body) = readCreds ctx body.length (buf'.store body) := by
  unfold readCreds
  split
  · rename_i h
    have hs {i n : Nat} (hi : i + n ≤ 334) (b : RespBuf) : slice (b.store body).val i n = slice body i n :=
      slice_store (by omega) hb
    simp only [hs (by omega : 4 + 4 ≤ 334), hs (by omega : 8 + 4 ≤ 334), hs (by omega : 12 + 2 ≤ 334),
      hs (by omega : 14 + 64 ≤ 334), hs (by omega : 78 + 128 ≤ 334), hs (by omega : 206 + 128 ≤ 334)]
  · rfl

end Branches

/-! ## Replies that differ -/

/-- Writes that leave what is in a buffer in place. -/
def Appends (p : Put) : Prop := ∀ b, b.data <+: (p b).2.data

theorem appends_putBytes (bs : Bytes) : Appends (sshbufPutBytes g bs) := by
  intro b
  unfold sshbufPutBytes
  cases hr : sshbufReserve g b bs.length with
  | error e => exact prefix_rfl
  | ok b' =>
    refine ⟨bs, ?_⟩
    rw [← (sshbufReserve_ok hr).1]
    rfl

variable {ps : List Put}

theorem appends_putString (bs : Bytes) : Appends (sshbufPutString g bs) :=
  putString_rel (R := fun b b' => b.data <+: b'.data) (fun _ => prefix_rfl) (fun _ _ _ => .trans)
    (appends_putBytes g) bs

/-- A message whose type byte finds room starts with it. -/
theorem putSeq_type {g : Grant} {out : SshBuf} (v : UInt8) (hr : (sshbufReserve g out 1).isOk = true)
    (hps : ∀ p ∈ ps, Appends p) : out.data ++ [v] <+: (putSeq (sshbufPutU8 g v :: ps) out).2.data := by
  cases hres : sshbufReserve g out 1 with
  | error e =>
    rw [hres] at hr
    exact Bool.noConfusion hr
  | ok b =>
    have hput : sshbufPutU8 g v out = (none, b.append [v]) := by
      unfold sshbufPutU8 sshbufPutBytes
      rw [length_singleton, hres]
    rw [putSeq, hput, ← (sshbufReserve_ok hres).1]
    exact putSeq_rel (R := fun b b' => b.data <+: b'.data) (fun _ => prefix_rfl) (fun _ _ _ => .trans) hps
      (b.append [v])

theorem putSeq_full {g : Grant} {out : SshBuf} (v : UInt8) (hr : ¬ (sshbufReserve g out 1).isOk = true) :
    ∃ e, putSeq (sshbufPutU8 g v :: ps) out = (some e, out) := by
  cases hres : sshbufReserve g out 1 with
  | error e =>
    have hput : sshbufPutU8 g v out = (some e, out) := by
      unfold sshbufPutU8 sshbufPutBytes
      rw [length_singleton, hres]
    exact ⟨e, by rw [putSeq, hput]⟩
  | ok b =>
    rw [hres] at hr
    exact absurd rfl hr

/-- The client can tell an acceptable key from a refused one exactly when the reply's first
byte finds room. -/
theorem pkOk_eq_failure (ctx : AuthCtx) (buf buf' : RespBuf) (blob : Bytes) (out : SshBuf) :
    (replyWith ctx buf out (pkOkMsg g blob)).told = (replyWith ctx buf' out (failureMsg g)).told ↔
      ¬ (sshbufReserve g out 1).isOk = true := by
  rw [replyWith_eq, replyWith_eq]
  constructor
  · intro heq hr
    have hout : (putSeq (pkOkMsg g blob) out).2.data = _ := congrArg (fun o => o.2.2.data) heq
    have h1 := putSeq_type SSH_MSG_USERAUTH_PK_OK hr
      (show ∀ p ∈ [sshbufPutString g edAlgo, sshbufPutString g blob], Appends p by simp [appends_putString])
    have h2 := putSeq_type SSH_MSG_USERAUTH_FAILURE hr
      (show ∀ p ∈ [sshbufPutString g (ascii "publickey,password"), sshbufPutU8 g 0], Appends p by
        simpa using ⟨appends_putString g _, appends_putBytes g [0]⟩)
    rw [pkOkMsg] at hout
    rw [hout] at h1
    have heq : out.data ++ [SSH_MSG_USERAUTH_PK_OK] = out.data ++ [SSH_MSG_USERAUTH_FAILURE] :=
      prefix_of_prefix_length_le h1 h2 (by simp) |>.eq_of_length (by simp)
    exact absurd (append_cancel_left heq) (by decide)
  intro hr
  obtain ⟨e1, h1⟩ : ∃ e, putSeq (pkOkMsg g blob) out = (some e, out) := putSeq_full _ hr
  obtain ⟨e2, h2⟩ : ∃ e, putSeq (failureMsg g) out = (some e, out) := putSeq_full _ hr
  rw [h1, h2]
  rfl

/-! ## The characterisation -/

section Characterisation

variable {env : AuthEnv} {ctx : AuthCtx} {payload : Bytes} {out : SshBuf}

theorem takeProbe_fresh_iff {body blob : Bytes} (hb : body.length ≤ 512) (buf : RespBuf) :
    (∀ buf' : RespBuf, (takeProbe env ctx blob (buf'.store body) out).told =
        (takeProbe env ctx blob (buf.store body) out).told) ↔
      ¬ (body.length < 4 ∧ body <+: le MONITOR_STATUS_PK_OK 4 ∧ (sshbufReserve env.grant out 1).isOk = true) := by
  have same (b b' : RespBuf) (h : b.status = MONITOR_STATUS_PK_OK ↔ b'.status = MONITOR_STATUS_PK_OK) :
      (takeProbe env ctx blob b out).told = (takeProbe env ctx blob b' out).told := by
    simp only [takeProbe, h, replyWith_eq]
    split <;> rfl
  refine stale_iff (F := fun b => (takeProbe env ctx blob b out).told) (by decide) (fun hlen b b' => same _ _ ?_)
    (fun _ => same) (fun b b' h h' => ?_) buf
  · rw [status_store_long hlen hb, status_store_long hlen hb]
  · rw [takeProbe, takeProbe, if_pos h, if_neg h']
    exact pkOk_eq_failure ..

variable {hdr : MonitorHdr} {body : Bytes}

/-- A reply that carries the status word decides a call alike from every buffer. -/
theorem takeStatus_long {user : Bytes} (hlen : 4 ≤ body.length) (hb : body.length ≤ 512)
    (hh : hdr.payloadLen = body.length) (buf buf' : RespBuf) :
    (takeStatus env ctx user hdr (buf.store body) out).told =
      (takeStatus env ctx user hdr (buf'.store body) out).told := by
  refine takeStatus_told ?_ fun ctx => ?_
  · rw [status_store_long hlen hb, status_store_long hlen hb]
  rw [hh]
  exact readCreds_store hb ctx

theorem takeStatus_fresh_iff {user : Bytes} (hb : body.length ≤ 512)
    (hh : hdr.payloadLen = body.length) (hst : ctx.state = .inProgress) (buf : RespBuf) :
    (∀ buf' : RespBuf, (takeStatus env ctx user hdr (buf'.store body) out).told =
        (takeStatus env ctx user hdr (buf.store body) out).told) ↔
      ¬ (body.length < 4 ∧ body <+: le MONITOR_STATUS_OK 4) := by
  have hstale := stale_iff (F := fun b => (takeStatus env ctx user hdr b out).told) (r := True)
    (by decide) (fun hlen => takeStatus_long hlen hb hh) (fun hlen b b' h => takeStatus_told h fun ctx => ?_)
    (fun b b' h h' => ?_) buf
  · simpa using hstale
  · rw [readCreds, readCreds, if_neg (by omega), if_neg (by omega)]
  · refine iff_of_false (fun he => h' ?_) (by simp)
    have hstate := congrArg (fun o => o.2.1.state) he
    exact (takeStatus_success hst).1 (hstate.symm.trans ((takeStatus_success hst).2 h))

variable {buf : RespBuf}

/-- A call that leaves the login alone and does not depend on the buffer. -/
theorem OwnReply.of_same
    (hf : ∀ buf', (authProcessRequest env ctx buf' payload out).outcome =
      (authProcessRequest env ctx buf payload out).outcome)
    (ha : (authProcessRequest env ctx buf payload out).ctx.authenticated = ctx.authenticated) :
    OwnReply env ctx buf payload out :=
  ⟨fun h0 h1 => absurd (h0.symm.trans (ha.symm.trans h1)) Bool.false_ne_true, hf⟩

theorem OwnReply.of_call {k : RespBuf → Answered} (h : ∀ buf, authProcessRequest env ctx buf payload out = k buf)
    (hk : ∀ b b', (k b).outcome = (k b').outcome) (ha : (k buf).ctx.authenticated = ctx.authenticated) :
    OwnReply env ctx buf payload out :=
  .of_same (fun buf' => by rw [h, h, hk]) (by rw [h, ha])

theorem OwnReply.of_silent {req : Nat × Bytes} (h : ∀ buf, (authProcessRequest env ctx buf payload out).outcome =
    (some .invalidFormat, { ctx with state := .inProgress }, out, some req)) : OwnReply env ctx buf payload out :=
  .of_same (fun buf' => (h buf').trans (h buf).symm) (congrArg (fun o => o.2.1.authenticated) (h buf))

/-- The monitor does not answer, or its reply and the buffer before it decide. -/
theorem exchange_cases (env : AuthEnv) :
    ((∀ ctx payload out, ¬ Confused env ctx payload out) ∧ ∀ ctx buf out req k,
      (exchange env ctx buf out req k).outcome = (some .invalidFormat, ctx, out, some req)) ∨
    env.sendOk = true ∧ ∃ hdr body, received env.delivered = some (hdr, body) ∧ hdr.payloadLen = body.length ∧
      body.length ≤ 512 ∧ ∀ ctx buf out req k,
        exchange env ctx buf out req k = { k hdr (buf.store body) with asked := some req } := by
  unfold exchange Confused Asks
  cases hs : env.sendOk with
  | false => exact .inl ⟨fun ctx payload out h => (nomatch h.1.2.2.2), fun ctx buf out req k => rfl⟩
  | true =>
    rcases received_cases env.delivered with ⟨hr, hm⟩ | ⟨hdr, body, hr, hh, hb, hm⟩
    · refine .inl ⟨by simp [hr], fun ctx buf out req k => ?_⟩
      rw [← Prod.eta (monitorRecvMsg env.delivered buf), hm buf]
      rfl
    · exact .inr ⟨rfl, hdr, body, hr, hh, hb, fun ctx buf out req k => by rw [hm]; rfl⟩

variable {req : Nat × Bytes}

theorem fresh_iff {k : RespBuf → Answered}
    (he : ∀ buf, authProcessRequest env ctx buf payload out = { k buf with asked := some req }) (buf : RespBuf) :
    (∀ buf', (authProcessRequest env ctx buf' payload out).outcome =
      (authProcessRequest env ctx buf payload out).outcome) ↔ ∀ buf', (k buf').told = (k buf).told := by
  simp [he, Answered.outcome, Answered.told]

/-- A password request looks at all of the reply it relies on. -/
theorem ownReply_password {user pass : Bytes} (hq : parseAuthRequest payload = .password user pass)
    (hr : received env.delivered = some (hdr, body)) (hh : hdr.payloadLen = body.length) (hb : body.length ≤ 512)
    (he : ∀ buf, authProcessRequest env ctx buf payload out =
      { takePassword env { ctx with state := .inProgress } user hdr (buf.store body) out with asked := some req }) :
    OwnReply env ctx buf payload out := by
  have hfresh := (fresh_iff he buf).2
  by_cases hbad : hdr.msgType ≠ MONITOR_RESP_AUTH_PASSWORD ∨ hdr.payloadLen < 4
  · simp only [takePassword, if_pos hbad, replyWith_eq] at he
    exact .of_call he (fun _ _ => rfl) rfl
  simp only [takePassword, if_neg hbad] at he hfresh
  rw [not_or, not_not, hh, Nat.not_lt] at hbad
  refine ⟨fun h0 h1 => ⟨hdr, body, hr, by rw [hq, hbad.1]; rfl, hbad.2, ?_⟩, hfresh fun buf' => ?_⟩
  · rw [he, takeStatus_granted, status_store_long hbad.2 hb] at h1
    simpa [h0] using h1
  · exact takeStatus_long hbad.2 hb hh buf' buf

/-- A signed request looks at the status alone. -/
theorem ownReply_signed_iff {user blob sig : Bytes}
    (hq : parseAuthRequest payload = .signed user blob sig) (hr : received env.delivered = some (hdr, body))
    (hh : hdr.payloadLen = body.length) (hb : body.length ≤ 512)
    (he : ∀ buf, authProcessRequest env ctx buf payload out =
      { takeStatus env { ctx with state := .inProgress } user hdr (buf.store body) out with asked := some req }) :
    OwnReply env ctx buf payload out ↔
      ¬ (body.length < 4 ∧ body <+: le MONITOR_STATUS_OK 4 ∨
        4 ≤ body.length ∧ body.take 4 = le MONITOR_STATUS_OK 4 ∧ hdr.msgType ≠ MONITOR_RESP_AUTH_PUBKEY ∧
          ctx.authenticated = false) := by
  have hfresh := (fresh_iff he buf).trans (takeStatus_fresh_iff hb hh rfl buf)
  have hgranted : (authProcessRequest env ctx buf payload out).ctx.authenticated = true ↔
      (buf.store body).status = MONITOR_STATUS_OK ∨ ctx.authenticated = true := by
    rw [he, takeStatus_granted]
  have hstatus (hlen : 4 ≤ body.length) :
      (buf.store body).status = MONITOR_STATUS_OK ↔ body.take 4 = le MONITOR_STATUS_OK 4 := by
    rw [status_store_long hlen hb, fromLe_eq_iff (by rw [length_take]; omega) (by decide)]
  constructor
  · rintro ⟨hg, hf⟩ (hshort | ⟨hlen, hok, htype, h0⟩)
    · exact hfresh.1 hf hshort
    obtain ⟨hdr', body', hr', htype', _⟩ := hg h0 (hgranted.2 (.inl ((hstatus hlen).2 hok)))
    obtain ⟨rfl, rfl⟩ := Prod.mk.inj (Option.some.inj (hr.symm.trans hr'))
    rw [hq] at htype'
    exact htype (Option.some.inj htype').symm
  intro hno
  rw [not_or] at hno
  refine ⟨fun h0 h1 => ?_, hfresh.2 hno.1⟩
  have hok : (buf.store body).status = MONITOR_STATUS_OK := by simpa [h0] using hgranted.1 h1
  by_cases hlen : body.length < 4
  · exact absurd ⟨hlen, prefix_of_status hlen (by decide) hok⟩ hno.1
  have hlen : 4 ≤ body.length := Nat.not_lt.1 hlen
  refine ⟨hdr, body, hr, ?_, hlen, ?_⟩
  · rw [hq]
    by_contra htype
    refine hno.2 ⟨hlen, (hstatus hlen).1 hok, fun e => htype ?_, h0⟩
    rw [e]
    rfl
  · rw [← @status_store_long body buf hlen hb]
    exact hok

end Characterisation

/-- **A call is decided by its own reply, unless a public key request gets a
reply its missing checks let through.** -/
theorem auth_reply_own_iff (env : AuthEnv) (ctx : AuthCtx) (buf : RespBuf) (payload : Bytes) (out : SshBuf) :
    OwnReply env ctx buf payload out ↔ ¬ Confused env ctx payload out := by
  have hcall (buf : RespBuf) := authProcessRequest.eq_1 env ctx buf payload out
  by_cases hp : payload.length = 0
  · simp only [if_pos hp] at hcall
    exact iff_of_true (.of_call hcall (fun _ _ => rfl) rfl) (by simp [Confused, Asks, hp])
  by_cases hst : ctx.state ≠ .serviceRequested ∧ ctx.state ≠ .inProgress
  · simp only [if_neg hp, if_pos hst] at hcall
    exact iff_of_true (.of_call hcall (fun _ _ => rfl) rfl) (by simp [Confused, Asks, hst])
  by_cases hatt : SSH_AUTH_MAX_ATTEMPTS ≤ ctx.attempts
  · simp only [if_neg hp, if_neg hst, if_pos hatt, replyWith_eq] at hcall
    refine iff_of_true (.of_call hcall (fun _ _ => rfl) rfl) ?_
    rintro ⟨⟨_, _, hlt, _⟩, _⟩
    exact Nat.not_lt.2 hatt hlt
  simp only [if_neg hp, if_neg hst, if_neg hatt] at hcall
  have hasks (hs : env.sendOk = true) : Asks env ctx payload :=
    ⟨hp, by simpa only [ne_eq, not_and_or, not_not] using hst, Nat.not_le.1 hatt, hs⟩
  cases hq : parseAuthRequest payload with
  | error e =>
    rw [hq] at hcall
    exact iff_of_true (.of_call hcall (fun _ _ => rfl) rfl) (by simp [Confused, hq])
  | refuse counted =>
    simp only [hq, replyWith_eq] at hcall
    exact iff_of_true (.of_call hcall (fun _ _ => rfl) rfl) (by simp [Confused, hq])
  | password user pass =>
    simp only [hq] at hcall
    rcases exchange_cases env with ⟨hno, hsil⟩ | ⟨_, hdr, body, hr, hh, hb, hx⟩
    · exact iff_of_true (.of_silent fun buf => by rw [hcall, hsil]) (hno ctx payload out)
    exact iff_of_true (ownReply_password hq hr hh hb fun buf => (hcall buf).trans (hx ..)) (by simp [Confused, hq])
  | probe user blob =>
    simp only [hq] at hcall
    rcases exchange_cases env with ⟨hno, hsil⟩ | ⟨hs, hdr, body, hr, _, hb, hx⟩
    · exact iff_of_true (.of_silent fun buf => by rw [hcall, hsil]) (hno ctx payload out)
    have hfresh := (fresh_iff (fun buf => (hcall buf).trans (hx ..)) buf).trans (takeProbe_fresh_iff hb buf)
    have hauth : (authProcessRequest env ctx buf payload out).ctx.authenticated = ctx.authenticated := by
      rw [hcall, hx, takeProbe]
      split <;> rw [replyWith_eq]
    have hown : OwnReply env ctx buf payload out ↔ _ := ⟨fun h => hfresh.1 h.fresh, fun h => .of_same (hfresh.2 h) hauth⟩
    simpa [Confused, hq, hr, hasks hs] using hown
  | signed user blob sig =>
    have hsame : signedData { ctx with state := .inProgress } user blob = signedData ctx user blob := rfl
    simp only [hq, hsame] at hcall
    cases hd : signedData ctx user blob with
    | error e =>
      simp only [hd, replyWith_eq] at hcall
      exact iff_of_true (.of_call hcall (fun _ _ => rfl) rfl)
        (by simp [Confused, hq, hd, Except.isOk, Except.toBool])
    | ok data =>
      simp only [hd] at hcall
      rcases exchange_cases env with ⟨hno, hsil⟩ | ⟨hs, hdr, body, hr, hh, hb, hx⟩
      · exact iff_of_true (.of_silent fun buf => by rw [hcall, hsil]) (hno ctx payload out)
      rw [ownReply_signed_iff hq hr hh hb fun buf => (hcall buf).trans (hx ..)]
      simp [Confused, hq, hr, hd, hasks hs, Except.isOk, Except.toBool]

/-! A signed request whose reply is an empty message of another type, on a fresh worker. -/

/-- The pipe delivers the header of an error message with no payload, and nothing else. -/
def emptyReplyEnv : AuthEnv where
  grant _ := true
  sendOk := true
  delivered := le MONITOR_MAGIC 4 ++ [255, 0, 0, 0, 0, 0, 0, 0]

/-- A login as `alice` with a key and a signature of zeros. -/
def forgedLogin : Bytes :=
  SSH_MSG_USERAUTH_REQUEST :: (sshString (ascii "alice") ++ sshString (ascii "ssh-connection") ++
    sshString (ascii "publickey") ++ [1] ++ sshString edAlgo ++ sshString (keyBlob (List.replicate 32 0)) ++
    sshString (sshString edAlgo ++ sshString (List.replicate 64 0)))

/-- A worker that has been asked for the service. -/
def requestedCtx : AuthCtx := { state := .serviceRequested, sessionId := List.replicate 32 0 }

/-- The forged login is let in, as user 0: the buffer held zeros, and zero is OK. -/
theorem forgedLogin_accepted :
    (authProcessRequest emptyReplyEnv requestedCtx .zero forgedLogin ⟨[], 256, 0, 4096, false, true⟩).ctx.authenticated
        = true ∧
      (authProcessRequest emptyReplyEnv requestedCtx .zero forgedLogin ⟨[], 256, 0, 4096, false, true⟩).ctx.uid = 0 ∧
      ¬ OwnReply emptyReplyEnv requestedCtx .zero forgedLogin ⟨[], 256, 0, 4096, false, true⟩ := by
  have hauth : (authProcessRequest emptyReplyEnv requestedCtx .zero forgedLogin
      ⟨[], 256, 0, 4096, false, true⟩).ctx.authenticated = true := by decide +kernel
  refine ⟨hauth, by decide +kernel, fun h => ?_⟩
  obtain ⟨hdr, body, hr, _, hlen, _⟩ := h.granted rfl hauth
  have hr' : received emptyReplyEnv.delivered = some (⟨MONITOR_MAGIC, 255, 0, 0⟩, []) := by decide +kernel
  obtain ⟨rfl, rfl⟩ := Prod.mk.inj (Option.some.inj (hr.symm.trans hr'))
  cases hlen

end Fortress.Sshd
