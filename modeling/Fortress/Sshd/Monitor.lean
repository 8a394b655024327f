/-
The privileged half of the SSH daemon (monitor.c, and the service loop of
sshd.c): it holds the host key and the user database, keeps one record for
each of its two connections, and answers the requests of the unprivileged
workers over pipes.

A request names the record it is about in its own header. The loop knows the
slot from the pipe it read, and does not compare the two.

Signatures, password hashing, the database file and the file system are
inputs (`Env`); names and passwords are the bytes before their terminator.
-/
import Fortress.Sshd.Buf

namespace Fortress.Sshd

open Codec

def MONITOR_MAGIC : Nat := 0x5353484D
def MONITOR_MAX_PAYLOAD : Nat := 2048

def MONITOR_REQ_SIGN_HASH : Nat := 1
def MONITOR_RESP_SIGN_HASH : Nat := 2
def MONITOR_REQ_AUTH_PASSWORD : Nat := 3
def MONITOR_RESP_AUTH_PASSWORD : Nat := 4
def MONITOR_REQ_AUTH_PUBKEY : Nat := 5
def MONITOR_RESP_AUTH_PUBKEY : Nat := 6
def MONITOR_REQ_SPAWN_SESSION : Nat := 7
def MONITOR_RESP_SPAWN_SESSION : Nat := 8
def MONITOR_RESP_ERROR : Nat := 255

def MONITOR_STATUS_OK : Nat := 0
def MONITOR_STATUS_AUTH_FAIL : Nat := 1
def MONITOR_STATUS_AUTH_DENIED : Nat := 2
def MONITOR_STATUS_PK_OK : Nat := 3
def MONITOR_STATUS_ERR_ARG : Nat := 4
def MONITOR_STATUS_ERR_STATE : Nat := 5
def MONITOR_STATUS_ERR_ORACLE : Nat := 6
def MONITOR_STATUS_ERR_PERM : Nat := 7
def MONITOR_STATUS_ERR_STALE : Nat := 8

def CREDS_MAX_GROUPS : Nat := 16

/-- The C string at the start of `bs`. -/
def cstr (bs : Bytes) : Bytes := bs.takeWhile (· != 0)

/-! ## The user database -/

structure DbUser where
  name : Bytes
  home : Bytes
  shell : Bytes
  uid : Nat
  gid : Nat
  deriving DecidableEq, Repr

structure DbGroup where
  gid : Nat
  members : Bytes
  deriving DecidableEq, Repr

structure DbShadow where
  name : Bytes
  hash : Bytes
  restricted : Bool
  deriving DecidableEq, Repr

structure UserDb where
  users : List DbUser
  groups : List DbGroup
  shadows : List DbShadow
  deriving DecidableEq, Repr

def dbUserName (d : UserDb) (s : Bytes) : Option DbUser := d.users.find? (·.name == s)

def dbShadowName (d : UserDb) (s : Bytes) : Option DbShadow := d.shadows.find? (·.name == s)

/-- The items of a comma-separated list. -/
def splitComma (bs : Bytes) : List Bytes := bs.splitOnP (· == 44)

def member (list who : Bytes) : Bool := (splitComma list).any (· == who)

/-- The groups `db_groups` writes, at most 16, and the count it reports: none (left at 0 by
the callers) when there are more. -/
def dbGroups (d : UserDb) (u : DbUser) : List Nat × Nat :=
  let gids := u.gid :: (d.groups.filter fun g => g.gid != u.gid && member g.members u.name).map (·.gid)
  (gids.take 16, if gids.length ≤ 16 then gids.length else 0)

/-! ## Authorized keys -/

def b64Digit (c : UInt8) : Option Nat :=
  if 65 ≤ c ∧ c ≤ 90 then some (c.toNat - 65)
  else if 97 ≤ c ∧ c ≤ 122 then some (c.toNat - 97 + 26)
  else if 48 ≤ c ∧ c ≤ 57 then some (c.toNat - 48 + 52)
  else if c = 43 then some 62
  else if c = 47 then some 63
  else none

/-- One group of four digits; `last` says whether padding may stand in it. -/
def b64Group (last : Bool) (c₀ c₁ c₂ c₃ : UInt8) : Option Bytes := do
  let a ← b64Digit c₀
  let b ← b64Digit c₁
  let pad2 := c₂ == 61
  let pad1 := c₃ == 61
  let c ← if pad2 then some 0 else b64Digit c₂
  let d ← if pad1 then some 0 else b64Digit c₃
  if pad2 && !pad1 then none
  else if (pad1 || pad2) && !last then none
  else if pad2 && b % 16 != 0 then none
  else if pad1 && !pad2 && c % 4 != 0 then none
  else
    let val := a * 2 ^ 18 + b * 2 ^ 12 + c * 2 ^ 6 + d
    some ((val / 2 ^ 16).toUInt8 ::
      ((if pad2 then [] else [(val / 2 ^ 8).toUInt8]) ++ if pad1 then [] else [val.toUInt8]))

/-- `b64_decode` into a buffer of `cap` bytes. -/
def b64Decode (cap : Nat) : Bytes → Option Bytes
  | [] => some []
  | c₀ :: c₁ :: c₂ :: c₃ :: rest => do
    let bs ← b64Group rest.isEmpty c₀ c₁ c₂ c₃
    if cap < bs.length then none
    else
      let more ← b64Decode (cap - bs.length) rest
      return bs ++ more
  | _ => none

def isBlank (c : UInt8) : Bool := c == 32 || c == 9

def edAlgo : Bytes := ascii "ssh-ed25519"

/-- The key blob of RFC 8709: the algorithm name and the 32 key bytes as SSH strings. -/
def keyBlob (pubkey : Bytes) : Bytes := be 11 4 ++ edAlgo ++ be 32 4 ++ pubkey

/-- The key of an `authorized_keys` line, if it has one. -/
def monitorParseAuthorizedKeyLine (line : Bytes) : Option Bytes := do
  let line := line.dropWhile isBlank
  match line with
  | [] => none
  | c :: _ =>
    if c = 0 ∨ c = 13 ∨ c = 10 ∨ c = 35 then none
    else if line.take 11 ≠ edAlgo then none
    else
      let rest := line.drop 11
      if (rest.head?.map isBlank).getD false = false then none
      else
        let token := (rest.dropWhile isBlank).takeWhile fun c => !(isBlank c || c == 13 || c == 10)
        if token.length = 0 ∨ 512 < token.length then none
        else
          let blob ← b64Decode 256 token
          if blob.length ≠ 51 ∨ blob.take 19 ≠ be 11 4 ++ edAlgo ++ be 32 4 then none
          else some (blob.drop 19)

inductive FileType
  | file
  | directory
  | other
  deriving DecidableEq, Repr

structure FileStat where
  type : FileType
  uid : Nat
  mode : Nat
  size : Nat
  deriving DecidableEq, Repr

/-- What the monitor asks of the libraries and of the system while it handles one request. -/
structure Env where
  /-- `crypto_ed25519_sign` with a secret key -/
  sign : Bytes → Bytes → Option Bytes
  /-- `crypto_ed25519_verify` of a signature under a key -/
  verify : Bytes → Bytes → Bytes → Bool
  /-- `db_verify` of a password against a hash -/
  dbVerify : Bytes → Bytes → Bool
  /-- what `db_load` finds -/
  dbLoad : UserDb
  dbCheck : Bool
  stat : Bytes → Option FileStat
  read : Bytes → Option Bytes

/-- Owned by the user or by root, with none of the mode bits in `mask`. -/
def statOk (s : FileStat) (uid mask : Nat) : Bool := (s.uid == uid || s.uid == 0) && (s.mode &&& mask) == 0

variable (env : Env) (host : MonitorHost) (conn : MonitorConn)

def monitorCheckAuthorizedKeys (homeDir : Bytes) (expectedUid : Nat) (pubkey : Bytes) : Bool :=
  if homeDir.head? ≠ some 47 then false
  else if ascii ".." <:+: homeDir then false
  else if 256 ≤ homeDir.length + 22 then false
  else
    let filePath := homeDir ++ ascii "/.ssh/authorized_keys"
    match env.stat (homeDir ++ ascii "/.ssh"), env.stat filePath with
    | some dir, some file =>
      if dir.type ≠ .directory ∨ statOk dir expectedUid 0o77 = false then false
      else if file.type ≠ .file ∨ statOk file expectedUid 0o177 = false ∨ 8192 < file.size then false
      else match env.read filePath with
        | none => false
        | some content =>
          ((content.take 8192).splitOnP (· == 10)).any fun line => monitorParseAuthorizedKeyLine line == some pubkey
    | _, _ => false

/-! ## Requests -/

structure MonitorHdr where
  magic : Nat
  msgType : Nat
  sessionId : Nat
  payloadLen : Nat
  deriving DecidableEq, Repr

structure MonitorConn where
  sessionId : Nat
  active : Bool
  kexSigned : Bool
  authAttempts : Nat
  authenticated : Bool
  username : Bytes
  uid : Nat
  gid : Nat
  ngroups : Nat
  groups : List Nat
  home : Bytes
  shell : Bytes
  deriving DecidableEq, Repr

/-- A record after `memset`; `home` and `shell` are the arrays, terminators included. -/
def MonitorConn.zero : MonitorConn where
  sessionId := 0
  active := false
  kexSigned := false
  authAttempts := 0
  authenticated := false
  username := []
  uid := 0
  gid := 0
  ngroups := 0
  groups := List.replicate 16 0
  home := List.replicate 128 0
  shell := List.replicate 128 0

/-- What the monitor keeps for all connections together. -/
structure MonitorHost where
  hostSecret : Bytes
  hostKeyLoaded : Bool
  db : UserDb
  dbLoaded : Bool

abbrev ConnSlot := Fin 2

structure MonitorCtx where
  host : MonitorHost
  conns : ConnSlot → MonitorConn

structure MonitorResp where
  rtype : Nat
  payload : Bytes
  deriving DecidableEq, Repr

/-- A response that is a status word. -/
def statusResp (rtype status : Nat) : MonitorResp := ⟨rtype, le status 4⟩

/-- The status word of a response. -/
def MonitorResp.status (r : MonitorResp) : Nat := fromLe (r.payload.take 4)

/-- `safe_strcpy` into an array: what stands behind the terminator stays. -/
def strcpyInto (old : Bytes) (cap : Nat) (s : Bytes) : Bytes :=
  clip cap s ++ 0 :: old.drop ((clip cap s).length + 1)

/-- The record of a user who has been let in. -/
def grantUser (conn : MonitorConn) (db : UserDb) (u : DbUser) : MonitorConn :=
  let (gids, ng) := dbGroups db u
  { conn with
    authenticated := true
    username := clip 32 u.name
    uid := u.uid
    gid := u.gid
    home := strcpyInto conn.home 128 u.home
    shell := strcpyInto conn.shell 128 u.shell
    groups := gids ++ conn.groups.drop gids.length
    ngroups := ng }

/-- The reply that carries a record's credentials. -/
def grantResp (rtype : Nat) (conn : MonitorConn) : MonitorResp :=
  ⟨rtype, le MONITOR_STATUS_OK 4 ++ le conn.uid 4 ++ le conn.gid 4 ++ le conn.ngroups 2 ++
    (conn.groups.map fun g => le g 4).flatten ++ conn.home ++ conn.shell⟩

def MonitorConn.failed (conn : MonitorConn) : MonitorConn := { conn with authAttempts := conn.authAttempts + 1 }

/-- What a request leaves behind: the shared state, the connection's record, the reply. -/
structure Handled where
  host : MonitorHost
  conn : MonitorConn
  resp : MonitorResp

variable (payload : Bytes)

def handleSignHash : Handled :=
  if payload.length ≠ 32 then ⟨host, conn, statusResp MONITOR_RESP_ERROR MONITOR_STATUS_ERR_ARG⟩
  else if conn.kexSigned then ⟨host, conn, statusResp MONITOR_RESP_SIGN_HASH MONITOR_STATUS_ERR_ORACLE⟩
  else if host.hostKeyLoaded = false then ⟨host, conn, statusResp MONITOR_RESP_ERROR MONITOR_STATUS_ERR_STATE⟩
  else match env.sign host.hostSecret payload with
    | none => ⟨host, conn, statusResp MONITOR_RESP_ERROR MONITOR_STATUS_ERR_STATE⟩
    | some sig => ⟨host, { conn with kexSigned := true }, ⟨MONITOR_RESP_SIGN_HASH, le MONITOR_STATUS_OK 4 ++ sig⟩⟩

/-- The database, loaded on first use. -/
def MonitorHost.loaded : MonitorHost :=
  if host.dbLoaded then host else { host with db := env.dbLoad, dbLoaded := true }

structure PasswordReq where
  username : Bytes
  password : Bytes
  passLen : Nat

def parsePassword : Option PasswordReq :=
  if payload.length < 8 then none
  else
    let userLen := fromLe (slice payload 0 4)
    if userLen = 0 ∨ 32 ≤ userLen ∨ payload.length < 4 + userLen + 4 then none
    else
      let passLen := fromLe (slice payload (4 + userLen) 4)
      if 128 ≤ passLen ∨ 4 + userLen + 4 + passLen ≠ payload.length then none
      else some ⟨cstr (slice payload 4 userLen), cstr (slice payload (4 + userLen + 4) passLen), passLen⟩

/-- Accounts that never log in with a password. -/
def lockedOut (u : DbUser) (s : DbShadow) : Bool :=
  s.restricted || s.hash.isEmpty || s.hash.head? == some 33 || s.hash.head? == some 42 ||
    u.shell == ascii "/bin/nologin"

def handleAuthPassword : Handled :=
  match parsePassword payload with
  | none => ⟨host, conn, statusResp MONITOR_RESP_ERROR MONITOR_STATUS_ERR_ARG⟩
  | some r =>
    let fail (host : MonitorHost) : Handled :=
      ⟨host, conn.failed, statusResp MONITOR_RESP_AUTH_PASSWORD MONITOR_STATUS_AUTH_FAIL⟩
    if 5 ≤ conn.authAttempts then ⟨host, conn, statusResp MONITOR_RESP_AUTH_PASSWORD MONITOR_STATUS_AUTH_DENIED⟩
    else if r.username = ascii "root" then fail host
    else if r.passLen = 0 ∨ r.password = [] then fail host
    else
      let host := host.loaded env
      match dbUserName host.db r.username, dbShadowName host.db r.username with
      | some u, some s =>
        if lockedOut u s then fail host
        else if env.dbVerify r.password s.hash = false then fail host
        else
          let conn := grantUser conn host.db u
          ⟨host, conn, grantResp MONITOR_RESP_AUTH_PASSWORD conn⟩
      | _, _ => fail host

structure PubkeyReq where
  username : Bytes
  checkOnly : Bool
  pubkey : Bytes
  sig : Bytes
  signedData : Bytes
  deriving DecidableEq, Repr

/-- The fields of a public key request. Bytes past the payload are read from the monitor's
receive buffer in C; such a request never passes the last length check. -/
def parsePubkey : Option PubkeyReq :=
  if payload.length < 4 + 1 + 32 + 64 + 2 then none
  else
    let userLen := fromLe (slice payload 0 4)
    if userLen = 0 ∨ 32 ≤ userLen ∨ payload.length < 4 + userLen then none
    else
      let off := 4 + userLen
      let dataLen := fromLe (slice payload (off + 97) 2)
      if off + 99 + dataLen ≠ payload.length then none
      else some {
        username := cstr (slice payload 4 userLen)
        checkOnly := slice payload off 1 != [0]
        pubkey := slice payload (off + 1) 32
        sig := slice payload (off + 33) 64
        signedData := slice payload (off + 99) dataLen }

def handleAuthPubkey : Handled :=
  match parsePubkey payload with
  | none => ⟨host, conn, statusResp MONITOR_RESP_ERROR MONITOR_STATUS_ERR_ARG⟩
  | some r =>
    -- a probe for an acceptable key does not count as an attempt
    let fail (host : MonitorHost) : Handled :=
      ⟨host, if r.checkOnly then conn else conn.failed, statusResp MONITOR_RESP_AUTH_PUBKEY MONITOR_STATUS_AUTH_FAIL⟩
    if 5 ≤ conn.authAttempts then ⟨host, conn, statusResp MONITOR_RESP_AUTH_PUBKEY MONITOR_STATUS_AUTH_DENIED⟩
    else if r.username = ascii "root" then fail host
    else
      let host := host.loaded env
      match dbUserName host.db r.username with
      | none => fail host
      | some u =>
        if u.shell = ascii "/bin/nologin" then fail host
        else if monitorCheckAuthorizedKeys env u.home u.uid r.pubkey = false then fail host
        else if r.checkOnly then ⟨host, conn, statusResp MONITOR_RESP_AUTH_PUBKEY MONITOR_STATUS_PK_OK⟩
        else if env.verify r.sig r.pubkey r.signedData = false then fail host
        else
          let conn := grantUser conn host.db u
          ⟨host, conn, grantResp MONITOR_RESP_AUTH_PUBKEY conn⟩

def handleSpawnSession : Handled :=
  if conn.authenticated = false then ⟨host, conn, statusResp MONITOR_RESP_SPAWN_SESSION MONITOR_STATUS_ERR_PERM⟩
  else if env.dbCheck = false then ⟨host, conn, statusResp MONITOR_RESP_SPAWN_SESSION MONITOR_STATUS_ERR_STALE⟩
  else if CREDS_MAX_GROUPS < conn.ngroups then
    ⟨host, conn, statusResp MONITOR_RESP_SPAWN_SESSION MONITOR_STATUS_ERR_STATE⟩
  else ⟨host, conn, ⟨MONITOR_RESP_SPAWN_SESSION, le MONITOR_STATUS_OK 4 ++ le 42 8⟩⟩

def dispatch (msgType : Nat) (payload : Bytes) : Handled :=
  if msgType = MONITOR_REQ_SIGN_HASH then handleSignHash env host conn payload
  else if msgType = MONITOR_REQ_AUTH_PASSWORD then handleAuthPassword env host conn payload
  else if msgType = MONITOR_REQ_AUTH_PUBKEY then handleAuthPubkey env host conn payload
  else if msgType = MONITOR_REQ_SPAWN_SESSION then handleSpawnSession env host conn
  else ⟨host, conn, statusResp MONITOR_RESP_ERROR MONITOR_STATUS_ERR_ARG⟩

/-- The record a header selects, if the header is one the monitor serves. -/
def MonitorHdr.conn? (hdr : MonitorHdr) : Option ConnSlot :=
  if hdr.magic ≠ MONITOR_MAGIC ∨ MONITOR_MAX_PAYLOAD < hdr.payloadLen then none
  else if h : hdr.sessionId < 2 then some ⟨hdr.sessionId, h⟩
  else none

/-- One request; the payload is as long as the header says, and the reply has room. -/
def monitorHandleRequest (ctx : MonitorCtx) (hdr : MonitorHdr) (payload : Bytes) :
    MonitorCtx × MonitorResp :=
  match hdr.conn? with
  | none => (ctx, statusResp MONITOR_RESP_ERROR MONITOR_STATUS_ERR_ARG)
  | some i =>
    let h := dispatch env ctx.host { ctx.conns i with sessionId := i, active := true } hdr.msgType payload
    (⟨h.host, Function.update ctx.conns i h.conn⟩, h.resp)

end Fortress.Sshd
