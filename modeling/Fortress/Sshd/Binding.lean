/-
Public key authentication and what it is bound to (auth.c, monitor.c).

The worker builds the data a client's signature has to cover from the session
identifier, the user name and the key (`authBuildSignedData`), and sends it to
the monitor with the signature. The monitor checks the signature over the data
it was sent; it does not build the data itself.

`pubkey_bound`: where the data a request carries is the encoding for its own
connection, a login by key is bound to user, key and session. The requests of
the daemon's own worker are of that kind (`signsOwn_worker`). `pubkey_replayed`
is a worker that sends the data of an earlier session.
-/
import Fortress.Sshd.Daemon

namespace Fortress.Sshd

open Codec

def SSH_MSG_USERAUTH_REQUEST : UInt8 := 50

/-- `auth_build_signed_data` into a buffer of `outCap` bytes. -/
def authBuildSignedData (sessionId username serviceName algoName pkBlob : Bytes) (outCap : Nat) : Except SshErr Bytes :=
  match sshbufInitFixed outCap with
  | .error _ => .error .bufferTooSmall
  | .ok b =>
    let g : Grant := fun _ => false
    match putSeq [sshbufPutString g sessionId, sshbufPutU8 g SSH_MSG_USERAUTH_REQUEST, sshbufPutString g username,
      sshbufPutString g serviceName, sshbufPutString g (ascii "publickey"), sshbufPutU8 g 1,
      sshbufPutString g algoName, sshbufPutString g pkBlob] b with
    | (some _, _) => .error .bufferTooSmall
    | (none, b) => .ok b.data

/-- The data a login of `username` with `pubkey` has to sign in the session `sessionId`. -/
def loginData (sessionId username pubkey : Bytes) : Except SshErr Bytes :=
  authBuildSignedData sessionId username (ascii "ssh-connection") edAlgo (keyBlob pubkey) 512

/-- The request `auth_process_request` sends for a signed login; `user` is the user name
field of the client's packet. -/
def workerPubkeyRequest (sessionId user pubkey sig : Bytes) : Except SshErr Bytes := do
  let data ← loginData sessionId (cstr user) pubkey
  return le user.length 4 ++ user ++ [0] ++ pubkey ++ sig ++ le data.length 2 ++ data

theorem cstr_length_le (bs : Bytes) : (cstr bs).length ≤ bs.length := (List.takeWhile_prefix _).length_le

theorem parsePubkey_username {payload : Bytes} {q : PubkeyReq} (h : parsePubkey payload = some q) :
    q.username.length < 32 := by
  unfold parsePubkey at h
  split at h
  · cases h
  dsimp only at h
  split at h
  · cases h
  rename_i hlen
  split at h
  · cases h
  cases h
  have hc := cstr_length_le (slice payload 4 (fromLe (slice payload 0 4)))
  have hs : (slice payload 4 (fromLe (slice payload 0 4))).length ≤ fromLe (slice payload 0 4) := List.length_take_le _ _
  dsimp only
  omega

/-! ## Binding -/

/-- What a login by key is bound to: the key is authorized for the user, and its signature
covers the encoding of exactly this user, this key and the hash first signed for this
connection. -/
def PubkeyBound (d : Daemon) (env : Env) (hdr : MonitorHdr) (payload : Bytes) : Prop :=
  ∀ k, hdr.conn? = some k → hdr.msgType = MONITOR_REQ_AUTH_PUBKEY →
    let r := monitorHandleRequest env d.ctx hdr payload
    ((r.1.conns k).authenticated = (d.ctx.conns k).authenticated ∧ (r.1.conns k).username = (d.ctx.conns k).username ∧
      r.2.granted = false) ∨
    ∃ q u h, parsePubkey payload = some q ∧ dbUserName r.1.host.db q.username = some u ∧
      (r.1.conns k).authenticated = true ∧ (r.1.conns k).username = q.username ∧
      monitorCheckAuthorizedKeys env u.home u.uid q.pubkey = true ∧
      env.verify q.sig q.pubkey q.signedData = true ∧
      d.signed k = some h ∧ loginData h q.username q.pubkey = .ok q.signedData

/-- The data a login by key carries is the encoding for its own user, key and connection. -/
def SignsOwn (d : Daemon) (hdr : MonitorHdr) (payload : Bytes) : Prop :=
  ∀ k q, hdr.conn? = some k → hdr.msgType = MONITOR_REQ_AUTH_PUBKEY → parsePubkey payload = some q →
    q.checkOnly = false → ∃ h, d.signed k = some h ∧ loginData h q.username q.pubkey = .ok q.signedData

/-! ## The worker's own requests -/

/-- Writes that stay within a buffer's limit and leave the limit alone. -/
def Stays (p : Put) : Prop :=
  ∀ b, b.size ≤ b.maxSize → (p b).2.size ≤ b.maxSize ∧ (p b).2.maxSize = b.maxSize

theorem stays_putBytes (g : Grant) (bs : Bytes) : Stays (sshbufPutBytes g bs) := by
  intro b hb
  unfold sshbufPutBytes
  cases hr : sshbufReserve g b bs.length with
  | error e => exact ⟨hb, rfl⟩
  | ok b' =>
    obtain ⟨hd, hm, hle⟩ := sshbufReserve_ok hr
    refine ⟨?_, hm⟩
    show (b'.data ++ bs).length ≤ b.maxSize
    rw [List.length_append, hd]
    exact hle

theorem stays_trans (a b c : SshBuf) (h : a.size ≤ a.maxSize → b.size ≤ a.maxSize ∧ b.maxSize = a.maxSize)
    (h' : b.size ≤ b.maxSize → c.size ≤ b.maxSize ∧ c.maxSize = b.maxSize) (ha : a.size ≤ a.maxSize) :
    c.size ≤ a.maxSize ∧ c.maxSize = a.maxSize := by
  obtain ⟨hb, hm⟩ := h ha
  rw [hm] at h'
  exact h' hb

theorem loginData_length {sid user key data : Bytes} (h : loginData sid user key = .ok data) : data.length ≤ 512 := by
  unfold loginData authBuildSignedData at h
  have hinit : sshbufInitFixed 512 = .ok ⟨[], 512, 0, 512, false, false⟩ := rfl
  rw [hinit] at h
  dsimp only at h
  split at h
  · cases h
  rename_i b' hput
  cases h
  have hstays : (putSeq [sshbufPutString (fun _ => false) sid, sshbufPutU8 (fun _ => false) SSH_MSG_USERAUTH_REQUEST,
      sshbufPutString (fun _ => false) user, sshbufPutString (fun _ => false) (ascii "ssh-connection"),
      sshbufPutString (fun _ => false) (ascii "publickey"), sshbufPutU8 (fun _ => false) 1,
      sshbufPutString (fun _ => false) edAlgo, sshbufPutString (fun _ => false) (keyBlob key)]
      ⟨[], 512, 0, 512, false, false⟩).2.size ≤ 512 := by
    refine (putSeq_rel (fun _ hb => ⟨hb, rfl⟩) stays_trans (fun p hp => ?_) _ (Nat.zero_le _)).1
    simp only [List.mem_cons, List.not_mem_nil, or_false] at hp
    rcases hp with rfl | rfl | rfl | rfl | rfl | rfl | rfl | rfl
    all_goals first
      | exact putString_rel (fun _ hb => ⟨hb, rfl⟩) stays_trans (stays_putBytes _) _
      | exact stays_putBytes _ _
  rw [hput] at hstays
  exact hstays

theorem parsePubkey_worker {user key sig data : Bytes} (hu : 0 < user.length) (hu' : user.length < 32)
    (hk : key.length = 32) (hs : sig.length = 64) (hd : data.length ≤ 512) :
    parsePubkey (le user.length 4 ++ user ++ [0] ++ key ++ sig ++ le data.length 2 ++ data) =
      some ⟨cstr user, false, key, sig, data⟩ := by
  have hfields : le user.length 4 ++ user ++ [0] ++ key ++ sig ++ le data.length 2 ++ data =
      [le user.length 4, user, [0], key, sig, le data.length 2, data].flatten := by simp
  have hlen : [le user.length 4, user, [0], key, sig, le data.length 2, data].flatten.length =
      4 + user.length + 99 + data.length := by
    simp [hk, hs]
    omega
  rw [hfields]
  generalize hp : [le user.length 4, user, [0], key, sig, le data.length 2, data].flatten = p at hlen ⊢
  have f0 : slice p 0 4 = le user.length 4 := hp ▸ slice_flatten (i := 0) (by simp) rfl (by simp)
  have f1 : slice p 4 user.length = user := hp ▸ slice_flatten (i := 1) (by simp) (by simp) rfl
  have f2 : slice p (4 + user.length) 1 = [0] := hp ▸ slice_flatten (i := 2) (by simp) (by simp) rfl
  have f3 : slice p (4 + user.length + 1) 32 = key :=
    hp ▸ slice_flatten (i := 3) (by simp) (by simp; omega) hk.symm
  have f4 : slice p (4 + user.length + 33) 64 = sig :=
    hp ▸ slice_flatten (i := 4) (by simp) (by simp [hk]; omega) hs.symm
  have f5 : slice p (4 + user.length + 97) 2 = le data.length 2 :=
    hp ▸ slice_flatten (i := 5) (by simp) (by simp [hk, hs]; omega) (by simp)
  have f6 : slice p (4 + user.length + 99) data.length = data :=
    hp ▸ slice_flatten (i := 6) (by simp) (by simp [hk, hs]; omega) rfl
  have hul : fromLe (le user.length 4) = user.length := fromLe_le_of_lt (by omega)
  have hdl : fromLe (le data.length 2) = data.length := fromLe_le_of_lt (by omega)
  unfold parsePubkey
  rw [if_neg (by omega)]
  simp only [f0, hul]
  rw [if_neg (by omega)]
  simp only [f5, hdl]
  rw [if_neg (by omega)]
  simp only [f1, f2, f3, f4, f6]
  rfl

/-- A login the daemon's own worker sends for the connection's session identifier. -/
theorem signsOwn_worker {d : Daemon} {hdr : MonitorHdr} {k : ConnSlot} {sid user key sig payload : Bytes}
    (hc : hdr.conn? = some k) (hsid : d.signed k = some sid)
    (hp : workerPubkeyRequest sid user key sig = .ok payload) (hu : 0 < user.length) (hu' : user.length < 32)
    (hk : key.length = 32) (hs : sig.length = 64) : SignsOwn d hdr payload := by
  intro k' q hc' _ hq _
  obtain rfl : k = k' := by
    rw [hc] at hc'
    exact Option.some.inj hc'
  unfold workerPubkeyRequest at hp
  cases hdata : loginData sid (cstr user) key with
  | error e =>
    rw [hdata] at hp
    cases hp
  | ok data =>
    rw [hdata] at hp
    obtain rfl := Except.ok.inj hp
    rw [parsePubkey_worker hu hu' hk hs (loginData_length hdata)] at hq
    cases hq
    exact ⟨sid, hsid, hdata⟩

/-- **Binding of a login by key.** In any state of the daemon, a request that carries the
encoding for its own connection marks that connection authenticated only for a user, a key
and a session that the signature covers. -/
theorem pubkey_bound {d : Daemon} {env : Env} {hdr : MonitorHdr} {payload : Bytes} (h : SignsOwn d hdr payload) :
    PubkeyBound d env hdr payload := by
  intro k hk ht
  have hrun : monitorHandleRequest env d.ctx hdr payload =
      (⟨(handleAuthPubkey env d.ctx.host { d.ctx.conns k with sessionId := k, active := true } payload).host,
        Function.update d.ctx.conns k
          (handleAuthPubkey env d.ctx.host { d.ctx.conns k with sessionId := k, active := true } payload).conn⟩,
        (handleAuthPubkey env d.ctx.host { d.ctx.conns k with sessionId := k, active := true } payload).resp) := by
    unfold monitorHandleRequest
    rw [hk, ht]
    rfl
  rw [hrun]
  have hends := handleAuthPubkey_ends env d.ctx.host { d.ctx.conns k with sessionId := k, active := true } payload
  generalize handleAuthPubkey env d.ctx.host { d.ctx.conns k with sessionId := k, active := true } payload = r
    at hends ⊢
  dsimp only
  rw [Function.update_self]
  have hno (t : Nat) {s : Nat} (h : s < 256 ∧ s ≠ 0 := by decide) : (statusResp t s).granted = false :=
    (not_granted_statusResp t h.1 h.2).1
  cases hends with
  | malformed | denied | probed => exact .inl ⟨rfl, rfl, hno _⟩
  | failed => refine .inl ⟨?_, ?_, hno _⟩ <;> dsimp only <;> split <;> rfl
  | @granted _ q u parsed _ login _ found _ key verified =>
  obtain ⟨hash, hs, hdata⟩ := h k q hk ht parsed login
  have huname : u.name = q.username := by
    have := List.find?_some found
    simpa using this
  have hclip : clip 32 u.name = q.username := by
    have := parsePubkey_username parsed
    rw [huname, clip, List.take_of_length_le (by omega)]
  exact .inr ⟨q, u, hash, parsed, found, rfl, hclip, key, verified, hs, hdata⟩

/-! `alice` has one authorized key, and has signed one login with it: that of session `AA`. -/

def sessionA : Bytes := List.replicate 32 0xAA

def sessionB : Bytes := List.replicate 32 0xBB

def aliceKey : Bytes := List.replicate 32 7

def aliceSig : Bytes := List.replicate 64 1

def keyEnv : Env :=
  { aliceEnv with
    verify := fun sig key msg =>
      sig == aliceSig && key == aliceKey && (loginData sessionA (ascii "alice") aliceKey).toOption == some msg
    stat := fun path =>
      if path = ascii "/home/alice/.ssh" then some ⟨.directory, 1000, 0o700, 0⟩
      else if path = ascii "/home/alice/.ssh/authorized_keys" then some ⟨.file, 1000, 0o600, 86⟩
      else none
    read := fun _ =>
      some (ascii "ssh-ed25519 AAAAC3NzaC1lZDI1NTE5AAAAIAcHBwcHBwcHBwcHBwcHBwcHBwcHBwcHBwcHBwcHBwcH alice") }

/-- The login `alice` signed in session `AA`, as the worker of that session sends it. -/
def aliceRequest : Bytes := ((workerPubkeyRequest sessionA (ascii "alice") aliceKey aliceSig).toOption).getD []

def pubkeyHdr : MonitorHdr := ⟨MONITOR_MAGIC, MONITOR_REQ_AUTH_PUBKEY, 0, aliceRequest.length⟩

/-- Slot 0 has a connection for which the monitor has signed `hash`. -/
def sessionOf (hash : Bytes) : Daemon :=
  ((Daemon.start aliceHost).step (.accept true true)).step
    (.request ⟨0, Nat.two_pos⟩ keyEnv ⟨MONITOR_MAGIC, MONITOR_REQ_SIGN_HASH, 0, 32⟩ hash)

theorem pubkey_bound_alice :
    SignsOwn (sessionOf sessionA) pubkeyHdr aliceRequest ∧
      (monitorHandleRequest keyEnv (sessionOf sessionA).ctx pubkeyHdr aliceRequest).2.granted = true ∧
      PubkeyBound (sessionOf sessionA) keyEnv pubkeyHdr aliceRequest := by
  have hreq : workerPubkeyRequest sessionA (ascii "alice") aliceKey aliceSig = .ok aliceRequest := by rfl
  have hown : SignsOwn (sessionOf sessionA) pubkeyHdr aliceRequest :=
    signsOwn_worker (by decide +kernel) (by decide +kernel : (sessionOf sessionA).signed 0 = some sessionA)
      hreq (by decide) (by decide) (by decide) (by decide)
  exact ⟨hown, by decide +kernel, pubkey_bound hown⟩

/-- A hostile worker sends, in session `BB`, the login that was signed in session `AA`: the
connection is marked authenticated for `alice`. -/
theorem pubkey_replayed :
    daemonMachine.Reach (sessionOf sessionB) ∧ (sessionOf sessionB).active 0 = true ∧
      ¬PubkeyBound (sessionOf sessionB) keyEnv pubkeyHdr aliceRequest := by
  refine ⟨.step
    (.step (.init ⟨aliceHost, rfl⟩) rfl) rfl, by decide +kernel, ?_⟩
  intro h
  have hgrant : (monitorHandleRequest keyEnv (sessionOf sessionB).ctx pubkeyHdr aliceRequest).2.granted = true := by
    decide +kernel
  have hparse : parsePubkey aliceRequest =
      some ⟨ascii "alice", false, aliceKey, aliceSig,
        ((loginData sessionA (ascii "alice") aliceKey).toOption).getD []⟩ := by
    decide +kernel
  have hsigned : (sessionOf sessionB).signed 0 = some sessionB := by decide +kernel
  have hne : (loginData sessionB (ascii "alice") aliceKey).toOption ≠
      some (((loginData sessionA (ascii "alice") aliceKey).toOption).getD []) := by
    decide +kernel
  rcases h 0 (by decide +kernel) rfl with ⟨-, -, hno⟩ | ⟨q, u, hash, hp, -, -, -, -, -, hs, hd⟩
  · rw [hgrant] at hno
    cases hno
  rw [hparse] at hp
  cases hp
  rw [hsigned] at hs
  cases hs
  rw [hd] at hne
  exact hne rfl

end Fortress.Sshd
