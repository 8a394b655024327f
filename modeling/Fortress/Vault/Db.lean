/-
The credential vault of user/vault/vault_db.c: its table of records, their
serialized form and the file around it. Strings are the bytes before their
terminator. PBKDF2 and the AEAD are parameters; the outcomes of system calls
are part of the input.
-/
import Fortress.Lib.Codec

namespace Fortress.Vault

open Codec

def VAULT_MAGIC : Nat := 0x4C554156
def VAULT_VERSION : Nat := 1
def VAULT_KDF_PBKDF2_SHA256 : UInt8 := 1
def VAULT_DEFAULT_ITERATIONS : UInt32 := 100000
def VAULT_MAX_RECORDS : Nat := 128
def VAULT_MAX_KEY_LEN : Nat := 64
def VAULT_MAX_SECRET_LEN : Nat := 4096
def VAULT_MAX_META_LEN : Nat := 256
def VAULT_MAX_PAYLOAD_LEN : Nat := 65536

/-- `sizeof(vault_header_t)`. -/
def HEADER_LEN : Nat := 60
def VAULT_AD_LEN : Nat := 24

inductive VaultErr
  | inval | io | corrupt | auth | full | noMem
  deriving DecidableEq

/-- A C string, without its terminator. -/
structure CStr where
  bytes : Bytes
  noNul : ∀ b ∈ bytes, b ≠ 0
  deriving DecidableEq

def CStr.length (s : CStr) : Nat := s.bytes.length

/-- What `strlen` and `strcmp` see of a buffer. -/
def cstr (b : Bytes) : CStr :=
  ⟨b.takeWhile (· != 0), fun x hx => by simpa using List.mem_takeWhile_imp hx⟩

def CStr.truncate (s : CStr) (n : Nat) : CStr :=
  ⟨s.bytes.take n, fun b hb => s.noNul b (List.mem_of_mem_take hb)⟩

theorem length_cstr_le (b : Bytes) : (cstr b).length ≤ b.length :=
  (List.takeWhile_prefix fun x : UInt8 => x != 0).length_le

theorem cstr_bytes (s : CStr) : cstr s.bytes = s := by
  obtain ⟨b, h⟩ := s
  simp only [cstr, CStr.mk.injEq]
  rw [List.takeWhile_eq_self_iff]
  intro x hx
  simpa using h x hx

/-- A record within the limits of its buffers. -/
structure Record where
  key : CStr
  secretType : UInt8
  secret : Bytes
  note : CStr
  createdAt : UInt64
  key_lt : key.length < VAULT_MAX_KEY_LEN
  secret_le : secret.length ≤ VAULT_MAX_SECRET_LEN
  note_lt : note.length < VAULT_MAX_META_LEN
  deriving DecidableEq

structure Db where
  iterations : UInt32
  records : List Record
  count_le : records.length ≤ VAULT_MAX_RECORDS

def vaultDbInitEmpty : Db := { iterations := VAULT_DEFAULT_ITERATIONS, records := [], count_le := by decide }

/-! ## Setting a record -/

/-- What `vault_set_secret` is asked to store. -/
structure Request where
  key : CStr
  secretType : UInt8
  secret : Bytes
  note : Option CStr

/-- The first checks of `vault_db_set`, with the record they admit. -/
def Request.record (q : Request) : Option Record :=
  if h : q.secret.length > VAULT_MAX_SECRET_LEN ∨ q.key.length = 0 ∨ q.key.length ≥ VAULT_MAX_KEY_LEN then none
  else some {
    key := q.key, secretType := q.secretType, secret := q.secret, createdAt := 0
    note := (q.note.getD ⟨[], by simp⟩).truncate (VAULT_MAX_META_LEN - 1)
    key_lt := by omega, secret_le := by omega
    note_lt := by
      simp only [CStr.truncate, CStr.length, List.length_take, VAULT_MAX_META_LEN]
      omega }

def vaultDbSet (db : Db) (q : Request) : Except VaultErr Db :=
  match q.record with
  | none => .error .inval
  | some r =>
    match db.records.findIdx? fun x => x.key == q.key with
    | some i => .ok { db with records := db.records.set i r, count_le := by simpa using db.count_le }
    | none =>
      if h : db.records.length ≥ VAULT_MAX_RECORDS then .error .full
      else .ok { db with records := db.records ++ [r], count_le := by simp; omega }

/-! ## The serialized form -/

def encodeRecord (r : Record) : Bytes :=
  le r.key.length 2 ++ ([r.secretType] ++ (le r.secret.length 2 ++ (le r.note.length 2 ++
    (le r.createdAt.toNat 8 ++ (r.key.bytes ++ (r.secret ++ r.note.bytes))))))

def serializeLoop : List Record → Bytes → Except VaultErr Bytes
  | [], out => .ok out
  | r :: rs, out =>
    if out.length + (2 + 1 + 2 + 2 + 8 + r.key.length + r.secret.length + r.note.length) > VAULT_MAX_PAYLOAD_LEN then
      .error .noMem
    else serializeLoop rs (out ++ encodeRecord r)

def vaultDbSerialize (db : Db) : Except VaultErr Bytes := serializeLoop db.records []

/-- One turn of `vault_db_deserialize`: a record and the payload after it. -/
def parseRecord (p : Bytes) : Except VaultErr (Record × Bytes) :=
  let klen := fromLe (slice p 0 2)
  let slen := fromLe (slice p 3 2)
  let mlen := fromLe (slice p 5 2)
  if p.length < 15 then .error .corrupt
  else if h : klen = 0 ∨ klen ≥ VAULT_MAX_KEY_LEN ∨ slen > VAULT_MAX_SECRET_LEN ∨ mlen ≥ VAULT_MAX_META_LEN then
    .error .corrupt
  else if p.length < 15 + klen + slen + mlen then .error .corrupt
  else .ok ({
    key := cstr (slice p 15 klen), secretType := p.getD 2 0, secret := slice p (15 + klen) slen
    note := cstr (slice p (15 + klen + slen) mlen), createdAt := (fromLe (slice p 7 8)).toUInt64
    key_lt := by
      have := length_cstr_le (slice p 15 klen)
      have : (slice p 15 klen).length ≤ klen := List.length_take_le _ _
      omega
    secret_le := by
      have : (slice p (15 + klen) slen).length ≤ slen := List.length_take_le _ _
      omega
    note_lt := by
      have := length_cstr_le (slice p (15 + klen + slen) mlen)
      have : (slice p (15 + klen + slen) mlen).length ≤ mlen := List.length_take_le _ _
      omega }, p.drop (15 + klen + slen + mlen))

/-- A table of records that is not too long. -/
abbrev Table := { l : List Record // l.length ≤ VAULT_MAX_RECORDS }

-- A record takes 15 bytes at least, so as many turns as the payload has bytes are enough.
def deserializeLoop : Nat → Bytes → Table → Except VaultErr Table
  | _, [], acc => .ok acc
  | 0, _ :: _, _ => .error .corrupt
  | n + 1, b :: p, acc =>
    match parseRecord (b :: p) with
    | .error e => .error e
    | .ok (r, rest) =>
      if h : acc.1.length ≥ VAULT_MAX_RECORDS then .error .full
      else deserializeLoop n rest ⟨acc.1 ++ [r], by simp; omega⟩

def vaultDbDeserialize (payload : Bytes) : Except VaultErr Table :=
  deserializeLoop payload.length payload ⟨[], Nat.zero_le _⟩

/-! ## The file -/

/-- PBKDF2 and the AEAD; unlocking inverts locking. -/
structure Crypto where
  kdf : Bytes → Bytes → UInt32 → Bytes
  lock : Bytes → Bytes → Bytes → Bytes → Bytes
  tag : Bytes → Bytes → Bytes → Bytes → Bytes
  unlock : Bytes → Bytes → Bytes → Bytes → Bytes → Option Bytes
  length_lock : ∀ k n ad p, (lock k n ad p).length = p.length
  length_tag : ∀ k n ad p, (tag k n ad p).length = 16
  unlock_lock : ∀ k n ad p, unlock k n ad (tag k n ad p) (lock k n ad p) = some p

/-- The header's fields up to the nonce. -/
def headerStart (iterations : UInt32) (salt : Bytes) : Bytes :=
  le VAULT_MAGIC 4 ++ (le VAULT_VERSION 2 ++ ([VAULT_KDF_PBKDF2_SHA256, 0] ++ (le iterations.toNat 4 ++ salt)))

def encodeHeader (iterations : UInt32) (salt nonce tag : Bytes) (payloadLen : Nat) : Bytes :=
  headerStart iterations salt ++ (nonce ++ (tag ++ le payloadLen 4))

/-- How the system calls of a load turn out: the bytes each read returns at most. -/
structure LoadFaults where
  opened : Bool := true
  header : Nat := HEADER_LEN
  chunk : Nat → Nat := fun _ => VAULT_MAX_PAYLOAD_LEN

/-- The loop that reads the ciphertext; a read that returns nothing ends it. -/
def readLoop (chunk : Nat → Nat) : Nat → Nat → Bytes → Nat → Bytes → Option Bytes
  | _, _, _, 0, acc => some acc
  | 0, _, _, _ + 1, _ => none
  | n + 1, i, rest, need + 1, acc =>
    let r := min (min (need + 1) rest.length) (chunk i)
    if r = 0 then none else readLoop chunk n (i + 1) (rest.drop r) (need + 1 - r) (acc ++ rest.take r)

/-- The header and the ciphertext of a load, as far as they can be had. -/
def readFile (f : LoadFaults) (file : Option Bytes) : Except VaultErr (Bytes × Bytes) :=
  match file with
  | none => .error .io
  | some content =>
    if f.opened = false then .error .io
    else if min (min HEADER_LEN content.length) f.header ≠ HEADER_LEN then .error .corrupt
    else
      let hdr := content.take HEADER_LEN
      if fromLe (slice hdr 0 4) ≠ VAULT_MAGIC ∨ fromLe (slice hdr 4 2) ≠ VAULT_VERSION ∨
          hdr.getD 6 0 ≠ VAULT_KDF_PBKDF2_SHA256 then .error .corrupt
      else
        let need := fromLe (slice hdr 56 4)
        if need > VAULT_MAX_PAYLOAD_LEN then .error .corrupt
        else
          match readLoop f.chunk need 0 (content.drop HEADER_LEN) need [] with
          | none => .error .io
          | some cipher => .ok (hdr, cipher)

variable (C : Crypto)

/-- From the header and the ciphertext to the table. -/
def openVault (pass : CStr) (hdr cipher : Bytes) : Except VaultErr Db :=
  let iterations := (fromLe (slice hdr 8 4)).toUInt32
  if iterations = 0 then .error .inval
  else
    let key := C.kdf pass.bytes (slice hdr 12 16) iterations
    match C.unlock key (slice hdr 28 12) (slice hdr 0 VAULT_AD_LEN) (slice hdr 40 16) cipher with
    | none => .error .auth
    | some plain =>
      match vaultDbDeserialize plain with
      | .error e => .error e
      | .ok t => .ok { iterations, records := t.1, count_le := t.2 }

def vaultFileLoad (f : LoadFaults) (file : Option Bytes) (pass : CStr) : Except VaultErr Db :=
  match readFile f file with
  | .error e => .error e
  | .ok (hdr, cipher) => openVault C pass hdr cipher

/-- The vault file and its temporary. -/
structure World where
  vault : Option Bytes
  tmp : Option Bytes

/-- How the system calls of a save turn out, and the random bytes. -/
structure SaveFaults where
  salt : Option { b : Bytes // b.length = 16 }
  nonce : Option { b : Bytes // b.length = 12 }
  opened : Bool := true
  header : Nat := HEADER_LEN
  chunk : Nat → Nat := fun _ => VAULT_MAX_PAYLOAD_LEN
  unlinked : Bool := true
  replaced : Bool := true
  renamed : Bool := true

/-- The loop that writes the ciphertext, and whether it got to the end. -/
def writeLoop (chunk : Nat → Nat) : Nat → Nat → Bytes → Bytes → Bytes × Bool
  | _, _, [], out => (out, true)
  | 0, _, _ :: _, out => (out, false)
  | n + 1, i, b :: rest, out =>
    let r := min (b :: rest).length (chunk i)
    if r = 0 then (out, false) else writeLoop chunk n (i + 1) ((b :: rest).drop r) (out ++ (b :: rest).take r)

def World.unlinkTmp (w : World) (f : SaveFaults) : World := if f.unlinked then { w with tmp := none } else w

/-- From the temporary file on: open, write, rename. -/
def saveFile (f : SaveFaults) (hdr cipher : Bytes) (w : World) : Option VaultErr × World :=
  if f.opened = false then (some .io, w)
  else if min HEADER_LEN f.header ≠ HEADER_LEN then
    (some .io, { w with tmp := some (hdr.take f.header) }.unlinkTmp f)
  else
    let out := writeLoop f.chunk cipher.length 0 cipher hdr
    let w := { w with tmp := some out.1 }
    if out.2 = false then (some .io, w.unlinkTmp f)
    -- A plain rename does not replace a file that exists.
    else if f.replaced = true ∨ (f.renamed = true ∧ w.vault.isNone) then (none, { vault := some out.1, tmp := none })
    else (some .io, w.unlinkTmp f)

/-- The result is `none` for `VAULT_ERR_OK`; `pathLen` is the length of the path. -/
def vaultFileSave (f : SaveFaults) (pathLen : Nat) (pass : CStr) (db : Db) (w : World) :
    Option VaultErr × World :=
  match vaultDbSerialize db with
  | .error e => (some e, w)
  | .ok plain =>
    match f.salt, f.nonce with
    | some salt, some nonce =>
      let iterations := if db.iterations = 0 then VAULT_DEFAULT_ITERATIONS else db.iterations
      let key := C.kdf pass.bytes salt.1 iterations
      let ad := (headerStart iterations salt.1).take VAULT_AD_LEN
      let hdr := encodeHeader iterations salt.1 nonce.1 (C.tag key nonce.1 ad plain) plain.length
      if pathLen + 5 ≥ 256 then (some .inval, w) else saveFile f hdr (C.lock key nonce.1 ad plain) w
    | _, _ => (some .io, w)

def vaultSetSecret (lf : LoadFaults) (sf : SaveFaults) (pathLen : Nat) (pass : CStr) (q : Request)
    (w : World) : Option VaultErr × World :=
  let db :=
    match vaultFileLoad C lf w.vault pass with
    | .ok db => db
    -- Whatever the error was.
    | .error _ => vaultDbInitEmpty
  match vaultDbSet db q with
  | .error e => (some e, w)
  | .ok db => vaultFileSave C sf pathLen pass db w

end Fortress.Vault
