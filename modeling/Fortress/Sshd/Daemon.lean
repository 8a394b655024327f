/-
The monitor's service loop (sshd.c): slots are assigned to connections, their
workers' messages handled, and slots reaped, in any order.

Beside the daemon's state run two ghosts for each slot: whether a request from
the slot's own pipe has authenticated its record since the slot was assigned,
and which exchange hash was first signed for the record.

A worker that names the other slot in a header is served from the other
slot's record (`spawn_borrowed`). With headers that name the pipe's own slot
the two connections do not see each other (`workers_isolated`).
-/
import Fortress.Lib.Machine
import Fortress.Sshd.Monitor

namespace Fortress.Sshd

open Codec Function

/-- The record of a slot after `memset`. -/
def freshConn (i : ConnSlot) (active : Bool) : MonitorConn := { MonitorConn.zero with sessionId := i, active }

structure Daemon where
  ctx : MonitorCtx
  active : ConnSlot → Bool
  /-- a request from the slot's own pipe has authenticated its record since it was assigned -/
  own : ConnSlot → Bool
  /-- the hash first signed for the record since the slot was assigned -/
  signed : ConnSlot → Option Bytes

inductive DaemonEvent
  /-- the worker of a slot has exited -/
  | reap (i : ConnSlot)
  /-- a connection comes in; whether its pipes and its worker can be had -/
  | accept (pipes spawned : Bool)
  /-- a message is read from a slot's pipe -/
  | request (i : ConnSlot) (env : Env) (hdr : MonitorHdr) (payload : Bytes)

def sshdAdmissionFindSlot (active : ConnSlot → Bool) : Option ConnSlot :=
  (List.finRange 2).find? fun i => !active i

/-- A reply that tells the worker its user is let in. -/
def MonitorResp.granted (r : MonitorResp) : Bool :=
  (r.rtype == MONITOR_RESP_AUTH_PASSWORD || r.rtype == MONITOR_RESP_AUTH_PUBKEY) && r.status == MONITOR_STATUS_OK

/-- An OK reply to a spawn request. -/
def MonitorResp.spawnOk (r : MonitorResp) : Bool :=
  r.rtype == MONITOR_RESP_SPAWN_SESSION && r.status == MONITOR_STATUS_OK

/-- A reply that carries a host signature. -/
def MonitorResp.signOk (r : MonitorResp) : Bool :=
  r.rtype == MONITOR_RESP_SIGN_HASH && r.status == MONITOR_STATUS_OK

variable (d : Daemon) (i : ConnSlot) {s : Nat}

def Daemon.serve (env : Env) (hdr : MonitorHdr) (payload : Bytes) : Daemon :=
  let (ctx, resp) := monitorHandleRequest env d.ctx hdr payload
  { d with
    ctx
    own := if hdr.conn? = some i ∧ resp.granted = true then Function.update d.own i true else d.own
    signed := match hdr.conn? with
      | none => d.signed
      | some k => if resp.signOk then Function.update d.signed k ((d.signed k).or (some payload)) else d.signed }

def Daemon.reap : Daemon :=
  if d.active i then
    { d with active := Function.update d.active i false
             ctx := { d.ctx with conns := Function.update d.ctx.conns i (freshConn i false) } }
  else d

/-- A record is set up before the pipes are, and stays so if they or the worker fail. -/
def Daemon.accept (pipes spawned : Bool) : Daemon :=
  match sshdAdmissionFindSlot d.active with
  | none => d
  | some i =>
    { ctx := { d.ctx with conns := Function.update d.ctx.conns i (freshConn i true) }
      active := if pipes && spawned then Function.update d.active i true else d.active
      own := Function.update d.own i false
      signed := Function.update d.signed i none }

def Daemon.step : DaemonEvent → Daemon
  | .reap i => d.reap i
  | .accept pipes spawned => d.accept pipes spawned
  | .request i env hdr payload => if d.active i then d.serve i env hdr payload else d

/-- The daemon as `monitor_init` starts it, with any host key and user database. -/
def Daemon.start (host : MonitorHost) : Daemon where
  ctx := ⟨host, fun i => freshConn i false⟩
  active _ := false
  own _ := false
  signed _ := none

def daemonMachine : Machine Daemon DaemonEvent where
  init d := ∃ host, d = Daemon.start host
  step d e d' := d' = d.step e

/-! ## What a request can do -/

@[simp] theorem status_statusResp (t : Nat) (h : s < 256) : (statusResp t s).status = s := by
  have h4 : (le s 4).take 4 = le s 4 := List.take_of_length_le (by simp)
  rw [MonitorResp.status, statusResp, h4, fromLe_le_of_lt (by omega)]

theorem not_granted_statusResp (t : Nat) (h : s < 256) (h0 : s ≠ 0) :
    (statusResp t s).granted = false ∧ (statusResp t s).spawnOk = false ∧ (statusResp t s).signOk = false := by
  simp [MonitorResp.granted, MonitorResp.spawnOk, MonitorResp.signOk, status_statusResp t h, MONITOR_STATUS_OK, h0]

/-- What any request can do to the record it is served from. -/
inductive Effect (conn : MonitorConn) (h : Handled) : Prop
  /-- nothing is granted -/
  | refused (same : h.conn.authenticated = conn.authenticated) (signed : h.conn.kexSigned = conn.kexSigned)
      (no : h.resp.granted = false) (nospawn : h.resp.spawnOk = false) (nosign : h.resp.signOk = false)
  /-- a hash is signed, the record's first -/
  | signs (same : h.conn.authenticated = conn.authenticated) (first : conn.kexSigned = false)
      (signed : h.conn.kexSigned = true) (no : h.resp.granted = false) (nospawn : h.resp.spawnOk = false)
  /-- a user is let in -/
  | grants (auth : h.conn.authenticated = true) (signed : h.conn.kexSigned = conn.kexSigned)
      (yes : h.resp.granted = true) (nospawn : h.resp.spawnOk = false) (nosign : h.resp.signOk = false)
  /-- a session is spawned for a record that is authenticated -/
  | spawns (auth : conn.authenticated = true) (same : h.conn.authenticated = conn.authenticated)
      (signed : h.conn.kexSigned = conn.kexSigned) (no : h.resp.granted = false) (nosign : h.resp.signOk = false)

theorem effect_status {host : MonitorHost} {conn conn' : MonitorConn} (t : Nat)
    (ha : conn'.authenticated = conn.authenticated) (hk : conn'.kexSigned = conn.kexSigned)
    (h : s < 256 ∧ s ≠ 0 := by decide) : Effect conn ⟨host, conn', statusResp t s⟩ :=
  have hno := not_granted_statusResp t h.1 h.2
  .refused ha hk hno.1 hno.2.1 hno.2.2

theorem status_ok_append (t : Nat) (bs : Bytes) : (MonitorResp.mk t (le MONITOR_STATUS_OK 4 ++ bs)).status = 0 := rfl

theorem status_grantResp (t : Nat) (conn : MonitorConn) : (grantResp t conn).status = 0 := by
  unfold grantResp
  rw [List.append_assoc, List.append_assoc, List.append_assoc, List.append_assoc, List.append_assoc]
  exact status_ok_append t _

theorem effect_grant {host : MonitorHost} {conn : MonitorConn} {db : UserDb} {u : DbUser} {t : Nat}
    (ht : t = MONITOR_RESP_AUTH_PASSWORD ∨ t = MONITOR_RESP_AUTH_PUBKEY) :
    Effect conn ⟨host, grantUser conn db u, grantResp t (grantUser conn db u)⟩ := by
  have ht' : (grantResp t (grantUser conn db u)).rtype = t := rfl
  refine .grants rfl rfl ?_ ?_ ?_
  · rw [MonitorResp.granted, status_grantResp, ht']
    rcases ht with rfl | rfl <;> rfl
  · rw [MonitorResp.spawnOk, ht']
    rcases ht with rfl | rfl <;> rfl
  · rw [MonitorResp.signOk, ht']
    rcases ht with rfl | rfl <;> rfl

variable (env : Env) (host : MonitorHost) (conn : MonitorConn)

variable (payload : Bytes)

theorem effect_signHash : Effect conn (handleSignHash env host conn payload) := by
  unfold handleSignHash
  split
  · exact effect_status _ rfl rfl
  split
  · exact effect_status _ rfl rfl
  rename_i hk
  split
  · exact effect_status _ rfl rfl
  split
  · exact effect_status _ rfl rfl
  · exact .signs rfl (by simpa using hk) rfl rfl rfl

theorem effect_authPassword : Effect conn (handleAuthPassword env host conn payload) := by
  unfold handleAuthPassword
  split
  · exact effect_status _ rfl rfl
  dsimp only
  split
  · exact effect_status _ rfl rfl
  split
  · exact effect_status _ rfl rfl
  split
  · exact effect_status _ rfl rfl
  split
  · split
    · exact effect_status _ rfl rfl
    split
    · exact effect_status _ rfl rfl
    · exact effect_grant (.inl rfl)
  · exact effect_status _ rfl rfl

/-- Every way a public key request ends. -/
inductive PubkeyEnds (env : Env) (conn : MonitorConn) (payload : Bytes) : Handled → Prop
  | malformed {host : MonitorHost} (parsed : parsePubkey payload = none) :
      PubkeyEnds env conn payload ⟨host, conn, statusResp MONITOR_RESP_ERROR MONITOR_STATUS_ERR_ARG⟩
  | denied {host : MonitorHost} :
      PubkeyEnds env conn payload ⟨host, conn, statusResp MONITOR_RESP_AUTH_PUBKEY MONITOR_STATUS_AUTH_DENIED⟩
  | failed {host : MonitorHost} {q : PubkeyReq} (parsed : parsePubkey payload = some q)
      (few : conn.authAttempts < 5) : PubkeyEnds env conn payload
        ⟨host, if q.checkOnly then conn else conn.failed, statusResp MONITOR_RESP_AUTH_PUBKEY MONITOR_STATUS_AUTH_FAIL⟩
  | probed {host : MonitorHost} {q : PubkeyReq} (parsed : parsePubkey payload = some q)
      (few : conn.authAttempts < 5) (probe : q.checkOnly = true) :
      PubkeyEnds env conn payload ⟨host, conn, statusResp MONITOR_RESP_AUTH_PUBKEY MONITOR_STATUS_PK_OK⟩
  | granted {host : MonitorHost} {q : PubkeyReq} {u : DbUser} (parsed : parsePubkey payload = some q)
      (few : conn.authAttempts < 5) (login : q.checkOnly = false) (notRoot : q.username ≠ ascii "root")
      (found : dbUserName host.db q.username = some u) (shell : u.shell ≠ ascii "/bin/nologin")
      (key : monitorCheckAuthorizedKeys env u.home u.uid q.pubkey = true)
      (verified : env.verify q.sig q.pubkey q.signedData = true) : PubkeyEnds env conn payload
        ⟨host, grantUser conn host.db u, grantResp MONITOR_RESP_AUTH_PUBKEY (grantUser conn host.db u)⟩

theorem handleAuthPubkey_ends :
    PubkeyEnds env conn payload (handleAuthPubkey env host conn payload) := by
  unfold handleAuthPubkey
  cases hp : parsePubkey payload with
  | none => exact .malformed hp
  | some q =>
    dsimp only
    split
    · exact .denied
    rename_i hfew
    have hfew := Nat.not_le.1 hfew
    split
    · exact .failed hp hfew
    rename_i hroot
    split
    · exact .failed hp hfew
    rename_i u hu
    split
    · exact .failed hp hfew
    rename_i hshell
    split
    · exact .failed hp hfew
    rename_i hkey
    split
    · rename_i hc
      exact .probed hp hfew hc
    rename_i hc
    split
    · have hfail : PubkeyEnds env conn payload ⟨host.loaded env, _, _⟩ := .failed hp hfew
      rwa [if_neg hc] at hfail
    rename_i hsig
    exact .granted hp hfew (by simpa using hc) hroot hu hshell (by simpa using hkey) (by simpa using hsig)

theorem effect_authPubkey : Effect conn (handleAuthPubkey env host conn payload) := by
  have hends := handleAuthPubkey_ends env host conn payload
  generalize handleAuthPubkey env host conn payload = r at hends ⊢
  cases hends with
  | malformed | denied | probed => exact effect_status _ rfl rfl
  | failed => refine effect_status _ ?_ ?_ <;> split <;> rfl
  | granted => exact effect_grant (.inr rfl)

theorem effect_spawnSession : Effect conn (handleSpawnSession env host conn) := by
  unfold handleSpawnSession
  split
  · exact effect_status _ rfl rfl
  rename_i hauth
  split
  · exact effect_status _ rfl rfl
  split
  · exact effect_status _ rfl rfl
  · exact .spawns (by simpa using hauth) rfl rfl rfl rfl

theorem effect_dispatch (t : Nat) (payload : Bytes) : Effect conn (dispatch env host conn t payload) := by
  unfold dispatch
  split
  · exact effect_signHash env host conn payload
  split
  · exact effect_authPassword env host conn payload
  split
  · exact effect_authPubkey env host conn payload
  split
  · exact effect_spawnSession env host conn
  · exact effect_status _ rfl rfl

/-- A request is refused outright, or served from the one record its header names. -/
theorem monitorHandleRequest_cases (ctx : MonitorCtx) (hdr : MonitorHdr) (payload : Bytes) :
    (hdr.conn? = none ∧ monitorHandleRequest env ctx hdr payload =
      (ctx, statusResp MONITOR_RESP_ERROR MONITOR_STATUS_ERR_ARG)) ∨
    ∃ k h, hdr.conn? = some k ∧
      h = dispatch env ctx.host { ctx.conns k with sessionId := k, active := true } hdr.msgType payload ∧
      Effect (ctx.conns k) h ∧ monitorHandleRequest env ctx hdr payload =
        (⟨h.host, update ctx.conns k h.conn⟩, h.resp) := by
  unfold monitorHandleRequest
  cases hk : hdr.conn? with
  | none => exact .inl ⟨rfl, rfl⟩
  | some k =>
    refine .inr ⟨k, _, rfl, rfl, ?_, rfl⟩
    have heff := effect_dispatch env ctx.host { ctx.conns k with sessionId := k, active := true } hdr.msgType payload
    generalize dispatch env ctx.host { ctx.conns k with sessionId := k, active := true } hdr.msgType payload = h at heff
    cases heff with
    | refused a b c d e => exact .refused a b c d e
    | signs a b c d e => exact .signs a b c d e
    | grants a b c d e => exact .grants a b c d e
    | spawns a b c d e => exact .spawns a b c d e

/-! ## Isolation -/

/-- What separates slot `i` from the other: a message from its pipe leaves the other record
alone, its outcome does not depend on that record, and it is told to spawn a session only
if its own pipe authenticated its own connection. -/
def Isolated (env : Env) (hdr : MonitorHdr) (payload : Bytes) : Prop :=
  let r := monitorHandleRequest env d.ctx hdr payload
  (∀ j ≠ i, r.1.conns j = d.ctx.conns j) ∧
  (∀ j ≠ i, ∀ c,
    let r' := monitorHandleRequest env { d.ctx with conns := Function.update d.ctx.conns j c } hdr payload
    r'.2 = r.2 ∧ r'.1.host = r.1.host ∧ r'.1.conns i = r.1.conns i) ∧
  (r.2.spawnOk = true → d.own i = true)

/-- The header names the pipe's own slot, or is one the monitor refuses. -/
def Addressed (i : ConnSlot) (hdr : MonitorHdr) : Prop := hdr.conn? = none ∨ hdr.conn? = some i

/-- Every message's header names the slot of the pipe it came through. -/
def HonestHeader (_ : Daemon) : DaemonEvent → Prop
  | .request i _ hdr _ => Addressed i hdr
  | _ => True

/-- An authenticated record was authenticated through its own pipe. -/
def OwnAuth : Prop := ∀ i, (d.ctx.conns i).authenticated = true → d.own i = true

variable {d : Daemon} {hdr : MonitorHdr}

theorem ownAuth_serve {i : ConnSlot} {env : Env} {payload : Bytes} (h : OwnAuth d)
    (ha : Addressed i hdr) : OwnAuth (d.serve i env hdr payload) := by
  intro j hj
  unfold Daemon.serve at hj ⊢
  rcases monitorHandleRequest_cases env d.ctx hdr payload with ⟨hk, hr⟩ | ⟨k, r, hk, -, heff, hr⟩
  · rw [hr] at hj ⊢
    dsimp only at hj ⊢
    rw [if_neg (by rw [hk]; simp)]
    exact h j hj
  obtain rfl : k = i := by
    rcases ha with hn | hs
    · rw [hn] at hk; cases hk
    · rw [hs] at hk; exact (Option.some.inj hk).symm
  rw [hr] at hj ⊢
  simp only [update_apply] at hj ⊢
  have hold := h j
  cases heff <;> grind -linarith

theorem ownAuth_reap (i : ConnSlot) (h : OwnAuth d) : OwnAuth (d.reap i) := by
  unfold Daemon.reap
  split
  · intro j hj
    simp only [update_apply] at hj
    grind -linarith [freshConn, MonitorConn.zero, h j]
  · exact h

theorem ownAuth_accept (pipes spawned : Bool) (h : OwnAuth d) : OwnAuth (d.accept pipes spawned) := by
  unfold Daemon.accept
  split
  · exact h
  rename_i i _
  intro j hj
  simp only [update_apply] at hj ⊢
  grind -linarith [freshConn, MonitorConn.zero, h j]

theorem ownAuth_step {e : DaemonEvent} (h : OwnAuth d) (he : HonestHeader d e) : OwnAuth (d.step e) := by
  cases e with
  | reap i => exact ownAuth_reap i h
  | accept pipes spawned => exact ownAuth_accept pipes spawned h
  | request i env hdr payload =>
    show OwnAuth (if d.active i = true then d.serve i env hdr payload else d)
    split
    · exact ownAuth_serve h he
    · exact h

theorem ownAuth_reach (h : (daemonMachine.restrict HonestHeader).Reach d) : OwnAuth d := by
  refine h.invariant ?_ ?_
  · rintro d ⟨host, rfl⟩
    intro i h
    cases h
  · rintro d e d' hinv ⟨he, rfl⟩
    exact ownAuth_step hinv he

/-- A request served from record `i` depends on no other record. -/
theorem handle_update_other {env : Env} {ctx : MonitorCtx} {payload : Bytes} {i j : ConnSlot}
    (ha : Addressed i hdr) (hj : j ≠ i) (c : MonitorConn) :
    let r := monitorHandleRequest env ctx hdr payload
    let r' := monitorHandleRequest env { ctx with conns := update ctx.conns j c } hdr payload
    r'.2 = r.2 ∧ r'.1.host = r.1.host ∧ r'.1.conns i = r.1.conns i := by
  unfold monitorHandleRequest
  rcases ha with hk | hk
  · rw [hk]
    exact ⟨rfl, rfl, update_of_ne hj.symm c ctx.conns⟩
  rw [hk]
  dsimp only
  rw [update_of_ne hj.symm, update_self, update_self]
  exact ⟨rfl, rfl, rfl⟩

/-- **Isolation of the workers.** In every run of the daemon in which every message's header
names the slot of the pipe it came through, handling a message from a slot's pipe neither
reads nor changes the other slot's record, and a session is only spawned for a connection
that its own worker authenticated. -/
theorem workers_isolated {d : Daemon} {i : ConnSlot} {env : Env} {hdr : MonitorHdr} {payload : Bytes}
    (h : (daemonMachine.restrict HonestHeader).Reach d) (ha : Addressed i hdr) : Isolated d i env hdr payload := by
  refine ⟨?_, fun j hj c => handle_update_other ha hj c, ?_⟩
  · intro j hj
    rcases monitorHandleRequest_cases env d.ctx hdr payload with ⟨-, hr⟩ | ⟨k, r, hk, -, -, hr⟩
    · rw [hr]
    obtain rfl : i = k := by
      rcases ha with hn | hs
      · rw [hn] at hk; cases hk
      · rw [hs] at hk; exact Option.some.inj hk
    rw [hr]
    exact update_of_ne hj _ _
  intro hsp
  rcases monitorHandleRequest_cases env d.ctx hdr payload with ⟨-, hr⟩ | ⟨k, r, hk, -, heff, hr⟩
  · rw [hr] at hsp
    rw [(not_granted_statusResp _ (by decide) (by decide)).2.1] at hsp
    cases hsp
  obtain rfl : i = k := by
    rcases ha with hn | hs
    · rw [hn] at hk; cases hk
    · rw [hs] at hk; exact Option.some.inj hk
  rw [hr] at hsp
  cases heff with
  | refused _ _ _ no | signs _ _ _ _ no | grants _ _ _ no => rw [no] at hsp; cases hsp
  | spawns auth => exact ownAuth_reach h i auth

/-! A daemon with one user, on a system where that user's password is `secret`. -/

def alice : DbUser := ⟨ascii "alice", ascii "/home/alice", ascii "/bin/sh", 1000, 1000⟩

def aliceHost : MonitorHost where
  hostSecret := []
  hostKeyLoaded := true
  db := ⟨[alice], [⟨1000, []⟩], [⟨ascii "alice", ascii "$5$salt$hash", false⟩]⟩
  dbLoaded := true

def aliceEnv : Env where
  sign _ m := some m
  verify _ _ _ := false
  dbVerify p _ := p == ascii "secret"
  dbLoad := aliceHost.db
  dbCheck := true
  stat _ := none
  read _ := none

/-- The worker of slot 0 logs `alice` in with the right password. -/
def aliceLogin : DaemonEvent :=
  .request 0 aliceEnv ⟨MONITOR_MAGIC, MONITOR_REQ_AUTH_PASSWORD, 0, 19⟩
    (le 5 4 ++ ascii "alice" ++ le 6 4 ++ ascii "secret")

/-- Both slots are taken, and `alice` is logged in on slot 0. -/
def aliceIn : Daemon := (((Daemon.start aliceHost).step (.accept true true)).step (.accept true true)).step aliceLogin

def spawnHdr (sessionId : Nat) : MonitorHdr := ⟨MONITOR_MAGIC, MONITOR_REQ_SPAWN_SESSION, sessionId, 0⟩

theorem workers_isolated_alice :
    (daemonMachine.restrict HonestHeader).Reach aliceIn ∧ Addressed 0 (spawnHdr 0) ∧
      Isolated aliceIn 0 aliceEnv (spawnHdr 0) [] := by
  have hreach : (daemonMachine.restrict HonestHeader).Reach aliceIn := by
    refine .step (.step (i := .accept true true) (.step (i := .accept true true)
      (.init ⟨aliceHost, rfl⟩) ⟨trivial, rfl⟩) ⟨trivial, rfl⟩) ⟨?_, rfl⟩
    exact .inr (by decide)
  have haddr : Addressed 0 (spawnHdr 0) := .inr (by decide)
  exact ⟨hreach, haddr, workers_isolated hreach haddr⟩

/-- The worker of slot 1, which has authenticated nobody, names slot 0 in its header and is
told to spawn a session for `alice`. -/
theorem spawn_borrowed :
    daemonMachine.Reach aliceIn ∧ aliceIn.active 1 = true ∧ ¬Isolated aliceIn 1 aliceEnv (spawnHdr 0) [] := by
  refine ⟨.step (.step (.step
    (.init ⟨aliceHost, rfl⟩) rfl) rfl) rfl, by decide +kernel, ?_⟩
  rintro ⟨-, -, hspawn⟩
  have hown := hspawn (by decide +kernel)
  revert hown
  decide +kernel

end Fortress.Sshd
