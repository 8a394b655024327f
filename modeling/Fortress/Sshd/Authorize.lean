/-
What the monitor lets happen on one connection record over any sequence of
requests (monitor.c). Every served request is logged with its reply; each
entry of the log is justified by the ones before it: a login by an account
that may log in, a refusal after five failed attempts, a session after a
login, a signature after none.

The record's own counters and flags are tied to the log by an invariant, so
that the statements do not mention them.
-/
import Fortress.Lib.History
import Fortress.Sshd.Binding

namespace Fortress.Sshd

open Codec

/-! ## The log -/

/-- A request served from a record, the database it was served with, and the reply. -/
structure ServedRequest where
  slot : ConnSlot
  msgType : Nat
  payload : Bytes
  db : UserDb
  resp : MonitorResp

/-- The message types that try to log a user in. -/
def isAuth (t : Nat) : Bool := t == MONITOR_REQ_AUTH_PASSWORD || t == MONITOR_REQ_AUTH_PUBKEY

/-- The type of the reply to a login request. -/
def authResp (t : Nat) : Nat :=
  if t = MONITOR_REQ_AUTH_PASSWORD then MONITOR_RESP_AUTH_PASSWORD else MONITOR_RESP_AUTH_PUBKEY

/-- The user a login request names; `none` when the request is malformed. -/
def loginName (t : Nat) (payload : Bytes) : Option Bytes :=
  if t = MONITOR_REQ_AUTH_PASSWORD then (parsePassword payload).map (·.username)
  else (parsePubkey payload).map (·.username)

/-- The request asks for a verification: a password, or a key with a signature. -/
def isAttempt (t : Nat) (payload : Bytes) : Bool :=
  if t = MONITOR_REQ_AUTH_PASSWORD then (parsePassword payload).isSome
  else t == MONITOR_REQ_AUTH_PUBKEY && ((parsePubkey payload).map (·.checkOnly)) == some false

/-- A user is let in. -/
def ServedRequest.grants (e : ServedRequest) : Bool := isAuth e.msgType && e.resp.granted

/-- A verification fails. -/
def ServedRequest.fails (e : ServedRequest) : Bool :=
  isAttempt e.msgType e.payload && e.resp == statusResp (authResp e.msgType) MONITOR_STATUS_AUTH_FAIL

/-- How many verifications failed on a record. -/
def failures (i : ConnSlot) (log : List ServedRequest) : Nat := log.countP fun e => e.slot == i && e.fails

/-- What the entries before it say of a request and its reply. -/
structure Authorized (earlier : List ServedRequest) (e : ServedRequest) : Prop where
  /-- nobody is let in as `root`, or with `nologin` for a shell -/
  user : e.grants = true → ∃ name u, loginName e.msgType e.payload = some name ∧ name ≠ ascii "root" ∧
    dbUserName e.db name = some u ∧ u.name = name ∧ u.shell ≠ ascii "/bin/nologin"
  /-- after five failures a login request is denied, or refused as malformed -/
  denied : isAuth e.msgType = true → 5 ≤ failures e.slot earlier →
    e.resp = statusResp (authResp e.msgType) MONITOR_STATUS_AUTH_DENIED ∨
      loginName e.msgType e.payload = none ∧ e.resp = statusResp MONITOR_RESP_ERROR MONITOR_STATUS_ERR_ARG
  /-- a session needs a login -/
  spawn : e.resp.spawnOk = true → ∃ g ∈ earlier, g.slot = e.slot ∧ g.grants = true
  /-- the host key signs once -/
  sign : e.resp.signOk = true → ∀ s ∈ earlier, s.slot = e.slot → s.resp.signOk = false

/-- The monitor and its log, newest entry first. -/
structure Monitored where
  ctx : MonitorCtx
  log : List ServedRequest

/-- A request comes in; one that names no record is not logged. -/
def Monitored.serve (m : Monitored) (env : Env) (hdr : MonitorHdr) (payload : Bytes) : Monitored :=
  let r := monitorHandleRequest env m.ctx hdr payload
  { ctx := r.1
    log := match hdr.conn? with
      | none => m.log
      | some i => ⟨i, hdr.msgType, payload, r.1.host.db, r.2⟩ :: m.log }

/-- Any sequence of requests, with any answers of the system, on zeroed records. -/
def monitorMachine : Machine Monitored (Env × MonitorHdr × Bytes) where
  init m := ∃ host, m = ⟨⟨host, fun _ => MonitorConn.zero⟩, []⟩
  step m r m' := m' = m.serve r.1 r.2.1 r.2.2

/-! ## One request -/

/-- How a request leaves the record it is served from. -/
inductive Handles (conn : MonitorConn) (t : Nat) (payload : Bytes) : Handled → Prop
  | other {host : MonitorHost} {conn' : MonitorConn} {resp : MonitorResp} (type : isAuth t = false)
      (attempts : conn'.authAttempts = conn.authAttempts) (auth : conn'.authenticated = conn.authenticated)
      (user : conn'.username = conn.username) : Handles conn t payload ⟨host, conn', resp⟩
  | malformed {host : MonitorHost} (type : isAuth t = true) (name : loginName t payload = none) :
      Handles conn t payload ⟨host, conn, statusResp MONITOR_RESP_ERROR MONITOR_STATUS_ERR_ARG⟩
  | denied {host : MonitorHost} (type : isAuth t = true) :
      Handles conn t payload ⟨host, conn, statusResp (authResp t) MONITOR_STATUS_AUTH_DENIED⟩
  | failed {host : MonitorHost} (type : isAuth t = true) (few : conn.authAttempts < 5)
      (attempt : isAttempt t payload = true) :
      Handles conn t payload ⟨host, conn.failed, statusResp (authResp t) MONITOR_STATUS_AUTH_FAIL⟩
  | probed {host : MonitorHost} {s : Nat} (type : isAuth t = true) (few : conn.authAttempts < 5)
      (attempt : isAttempt t payload = false) (no : s = MONITOR_STATUS_AUTH_FAIL ∨ s = MONITOR_STATUS_PK_OK) :
      Handles conn t payload ⟨host, conn, statusResp (authResp t) s⟩
  | granted {host : MonitorHost} {name : Bytes} {u : DbUser} (type : isAuth t = true) (few : conn.authAttempts < 5)
      (login : loginName t payload = some name) (notRoot : name ≠ ascii "root")
      (found : dbUserName host.db name = some u) (shell : u.shell ≠ ascii "/bin/nologin") :
      Handles conn t payload ⟨host, grantUser conn host.db u, grantResp (authResp t) (grantUser conn host.db u)⟩

variable (env : Env) (host : MonitorHost) (conn : MonitorConn) {t : Nat} {payload : Bytes}

theorem handles_authPassword (payload : Bytes) :
    Handles conn MONITOR_REQ_AUTH_PASSWORD payload (handleAuthPassword env host conn payload) := by
  unfold handleAuthPassword
  cases hp : parsePassword payload with
  | none => exact .malformed rfl (by simp [loginName, hp])
  | some r =>
    have hattempt : isAttempt MONITOR_REQ_AUTH_PASSWORD payload = true := by simp [isAttempt, hp]
    dsimp only
    split
    · exact .denied rfl
    rename_i hfew
    have hfew : conn.authAttempts < 5 := Nat.not_le.1 hfew
    split
    · exact .failed rfl hfew hattempt
    rename_i hroot
    split
    · exact .failed rfl hfew hattempt
    split
    · rename_i u s hu hs
      split
      · exact .failed rfl hfew hattempt
      rename_i hlocked
      split
      · exact .failed rfl hfew hattempt
      refine .granted rfl hfew (by simp [loginName, hp]) hroot hu fun hshell => hlocked ?_
      simp [lockedOut, hshell]
    · exact .failed rfl hfew hattempt

theorem handles_authPubkey (payload : Bytes) :
    Handles conn MONITOR_REQ_AUTH_PUBKEY payload (handleAuthPubkey env host conn payload) := by
  have htype : ¬ MONITOR_REQ_AUTH_PUBKEY = MONITOR_REQ_AUTH_PASSWORD := by decide
  have hends := handleAuthPubkey_ends env host conn payload
  generalize handleAuthPubkey env host conn payload = r at hends ⊢
  cases hends with
  | malformed parsed => exact .malformed rfl (by simp [loginName, parsed, htype])
  | denied => exact .denied rfl
  | failed parsed few =>
    -- A failure counts unless it is a probe's.
    split
    · rename_i hc
      exact .probed rfl few (by simp [isAttempt, htype, parsed, hc]) (.inl rfl)
    · rename_i hc
      exact .failed rfl few (by simp [isAttempt, htype, parsed, hc])
  | probed parsed few probe => exact .probed rfl few (by simp [isAttempt, htype, parsed, probe]) (.inr rfl)
  | granted parsed few login notRoot found shell =>
    exact .granted rfl few (by simp [loginName, htype, parsed]) notRoot found shell

theorem handles_dispatch (t : Nat) (payload : Bytes) :
    Handles conn t payload (dispatch env host conn t payload) := by
  unfold dispatch
  split
  · rename_i ht
    subst ht
    unfold handleSignHash
    split
    · exact .other rfl rfl rfl rfl
    split
    · exact .other rfl rfl rfl rfl
    split
    · exact .other rfl rfl rfl rfl
    split
    · exact .other rfl rfl rfl rfl
    · exact .other rfl rfl rfl rfl
  split
  · rename_i ht
    subst ht
    exact handles_authPassword env host conn payload
  rename_i hpass
  split
  · rename_i ht
    subst ht
    exact handles_authPubkey env host conn payload
  rename_i hkey
  have htype : isAuth t = false := by simp [isAuth, hpass, hkey]
  split
  · unfold handleSpawnSession
    split
    · exact .other htype rfl rfl rfl
    split
    · exact .other htype rfl rfl rfl
    split
    · exact .other htype rfl rfl rfl
    · exact .other htype rfl rfl rfl
  · exact .other htype rfl rfl rfl

/-- A login request that is no attempt is malformed or a probe. -/
theorem isAuth_of_isAttempt (h : isAttempt t payload = true) : isAuth t = true ∧ loginName t payload ≠ none := by
  unfold isAttempt at h
  unfold isAuth loginName
  split at h
  · rename_i ht
    rw [if_pos ht]
    obtain ⟨r, hr⟩ := Option.isSome_iff_exists.1 h
    simp [ht, hr]
  rename_i ht
  rw [if_neg ht]
  rw [Bool.and_eq_true, beq_iff_eq, beq_iff_eq] at h
  obtain ⟨r, hr, _⟩ := Option.map_eq_some_iff.1 h.2
  simp [h.1, hr]

/-- The reply to a verification that fails is told from every other by its status. -/
theorem ne_failResp {r : MonitorResp} (t : Nat) (h : r.status ≠ MONITOR_STATUS_AUTH_FAIL) :
    (r == statusResp t MONITOR_STATUS_AUTH_FAIL) = false := by
  refine beq_eq_false_iff_ne.2 fun e => h ?_
  rw [e]
  exact status_statusResp t (by decide)

/-- The record counts the attempts that fail. -/
theorem Handles.attempts {conn : MonitorConn} {h : Handled} (hh : Handles conn t payload h) :
    h.conn.authAttempts = conn.authAttempts +
      if isAttempt t payload && h.resp == statusResp (authResp t) MONITOR_STATUS_AUTH_FAIL then 1 else 0 := by
  have hno (e : isAttempt t payload = false) (b : Bool) : (isAttempt t payload && b) = false := by rw [e]; rfl
  cases hh with
  | other type attempts auth user =>
    have e : isAttempt t payload = false := by
      by_contra hc
      rw [(isAuth_of_isAttempt (Bool.not_eq_false _ ▸ hc)).1] at type
      exact Bool.noConfusion type
    rw [hno e]
    exact attempts
  | malformed type name =>
    have e : isAttempt t payload = false := by
      by_contra hc
      exact (isAuth_of_isAttempt (Bool.not_eq_false _ ▸ hc)).2 name
    rw [hno e]
    rfl
  | denied type =>
    rw [ne_failResp _ (by rw [status_statusResp _ (by decide)]; decide), Bool.and_false]
    rfl
  | failed type few attempt =>
    rw [attempt, beq_self_eq_true]
    rfl
  | probed type few attempt no =>
    rw [hno attempt]
    rfl
  | granted type few login notRoot found shell =>
    rw [ne_failResp _ (by rw [status_grantResp]; decide), Bool.and_false]
    rfl

theorem loginName_length {payload name : Bytes} (h : loginName t payload = some name) : name.length < 32 := by
  unfold loginName at h
  split at h
  · obtain ⟨r, hr, rfl⟩ := Option.map_eq_some_iff.1 h
    unfold parsePassword at hr
    split at hr
    · cases hr
    dsimp only at hr
    split at hr
    · cases hr
    rename_i hlen
    split at hr
    · cases hr
    cases hr
    have hc := cstr_length_le (slice payload 4 (fromLe (slice payload 0 4)))
    have hs : (slice payload 4 (fromLe (slice payload 0 4))).length ≤ fromLe (slice payload 0 4) := List.length_take_le _ _
    dsimp only
    omega
  · obtain ⟨r, hr, rfl⟩ := Option.map_eq_some_iff.1 h
    exact parsePubkey_username hr

/-! ## Runs -/

/-- What a record says of the log. -/
structure Logged (m : Monitored) (i : ConnSlot) : Prop where
  attempts : (m.ctx.conns i).authAttempts = failures i m.log
  login : (m.ctx.conns i).authenticated = true → ∃ g ∈ m.log, g.slot = i ∧ g.grants = true ∧
    loginName g.msgType g.payload = some (m.ctx.conns i).username
  signed : ∀ s ∈ m.log, s.slot = i → s.resp.signOk = true → (m.ctx.conns i).kexSigned = true

/-- A request is dropped, or logged with what the record it names answers. -/
theorem Monitored.serve_cases (m : Monitored) (env : Env) (hdr : MonitorHdr) (payload : Bytes) :
    m.serve env hdr payload = m ∨
      ∃ k h, Effect (m.ctx.conns k) h ∧
        Handles { m.ctx.conns k with sessionId := k, active := true } hdr.msgType payload h ∧
        m.serve env hdr payload = ⟨⟨h.host, Function.update m.ctx.conns k h.conn⟩,
          ⟨k, hdr.msgType, payload, h.host.db, h.resp⟩ :: m.log⟩ := by
  rcases monitorHandleRequest_cases env m.ctx hdr payload with ⟨hk, e⟩ | ⟨k, h, hk, hh, heff, e⟩
  · exact .inl (by simp only [Monitored.serve, hk, e])
  refine .inr ⟨k, h, heff, ?_, by simp only [Monitored.serve, hk, e]⟩
  rw [hh]
  exact handles_dispatch env m.ctx.host _ hdr.msgType payload

theorem failures_cons (i : ConnSlot) (e : ServedRequest) (log : List ServedRequest) :
    failures i (e :: log) = failures i log + if e.slot == i && e.fails then 1 else 0 := by
  simp only [failures, List.countP_cons]

/-- An entry of another record tells nothing of this one. -/
theorem Logged.other {m : Monitored} {i : ConnSlot} (h : Logged m i) {e : ServedRequest} (he : e.slot ≠ i)
    {ctx : MonitorCtx}
    (hc : ctx.conns i = m.ctx.conns i) : Logged ⟨ctx, e :: m.log⟩ i := by
  refine ⟨?_, ?_, ?_⟩ <;> simp only [hc]
  · rw [failures_cons, beq_eq_false_iff_ne.2 he]
    exact h.attempts
  · intro ha
    obtain ⟨g, hg, hrest⟩ := h.login ha
    exact ⟨g, .tail _ hg, hrest⟩
  intro s hs hsi hok
  rcases List.mem_cons.1 hs with rfl | hs
  · exact absurd hsi he
  · exact h.signed s hs hsi hok

section Step

variable {m : Monitored} {k : ConnSlot} {t : Nat} {payload : Bytes} {h : Handled}

theorem Handles.user (hh : Handles { m.ctx.conns k with sessionId := k, active := true } t payload h)
    (hg : isAuth t = true) (hr : h.resp.granted = true) :
    ∃ name u, loginName t payload = some name ∧ name ≠ ascii "root" ∧ dbUserName h.host.db name = some u ∧
      u.name = name ∧ u.shell ≠ ascii "/bin/nologin" ∧ h.conn.username = name := by
  have hno (t : Nat) {s : Nat} (hs : s < 256) (h0 : s ≠ 0) : ¬ (statusResp t s).granted = true := by
    rw [(not_granted_statusResp t hs h0).1]
    exact Bool.false_ne_true
  cases hh with
  | other type _ _ _ => exact nomatch type.symm.trans hg
  | malformed _ _ | denied _ | failed _ _ _ => exact absurd hr (hno _ (by decide) (by decide))
  | probed _ _ _ no =>
    rcases no with rfl | rfl
    · exact absurd hr (hno _ (by decide) (by decide))
    · exact absurd hr (hno _ (by decide) (by decide))
  | @granted host name u _ _ login notRoot found shell =>
    have hname : u.name = name := by simpa using List.find?_some found
    refine ⟨name, u, login, notRoot, found, hname, shell, ?_⟩
    have hlen := loginName_length login
    change clip 32 u.name = name
    rw [hname, clip, List.take_of_length_le (by omega)]

/-- Who is let in is in the log, or was let in before. -/
theorem Handles.login (hh : Handles { m.ctx.conns k with sessionId := k, active := true } t payload h)
    (ha : h.conn.authenticated = true) :
    isAuth t = true ∧ h.resp.granted = true ∨
      (m.ctx.conns k).authenticated = true ∧ h.conn.username = (m.ctx.conns k).username := by
  cases hh with
  | other _ _ auth user => exact .inr ⟨auth.symm.trans ha, user⟩
  | malformed _ _ | denied _ | failed _ _ _ | probed _ _ _ _ => exact .inr ⟨ha, rfl⟩
  | granted type _ _ _ _ _ =>
    refine .inl ⟨type, ?_⟩
    rw [MonitorResp.granted, status_grantResp]
    simp only [grantResp, authResp]
    split <;> rfl

theorem Handles.denied_of (hh : Handles { m.ctx.conns k with sessionId := k, active := true } t payload h)
    (hg : isAuth t = true) (hfive : 5 ≤ (m.ctx.conns k).authAttempts) :
    h.resp = statusResp (authResp t) MONITOR_STATUS_AUTH_DENIED ∨
      loginName t payload = none ∧ h.resp = statusResp MONITOR_RESP_ERROR MONITOR_STATUS_ERR_ARG := by
  cases hh with
  | other type _ _ _ => exact nomatch type.symm.trans hg
  | malformed _ name => exact .inr ⟨name, rfl⟩
  | denied _ => exact .inl rfl
  | failed _ few _ | probed _ few _ _ | granted _ few _ _ _ _ => exact absurd hfive (Nat.not_le.2 few)

/-- **The log justifies the next entry.** -/
theorem Logged.authorized (hl : Logged m k) (heff : Effect (m.ctx.conns k) h)
    (hh : Handles { m.ctx.conns k with sessionId := k, active := true } t payload h) :
    Authorized m.log ⟨k, t, payload, h.host.db, h.resp⟩ := by
  refine ⟨fun hg => ?_, fun hg hfive => ?_, fun hs => ?_, fun hs s hmem hslot => ?_⟩
  · rw [ServedRequest.grants, Bool.and_eq_true] at hg
    obtain ⟨name, u, hname, hroot, hfound, huser, hshell, _⟩ := hh.user hg.1 hg.2
    exact ⟨name, u, hname, hroot, hfound, huser, hshell⟩
  · rw [← hl.attempts] at hfive
    exact hh.denied_of hg hfive
  · have hauth : (m.ctx.conns k).authenticated = true := by
      cases heff with
      | spawns auth _ _ _ _ => exact auth
      | refused _ _ _ no _ | signs _ _ _ _ no | grants _ _ _ no _ => exact nomatch no.symm.trans hs
    obtain ⟨g, hmem, hslot, hgrants, _⟩ := hl.login hauth
    exact ⟨g, hmem, hslot, hgrants⟩
  cases heff with
  | signs _ first _ _ _ =>
    by_contra hc
    have hsigned := hl.signed s hmem hslot (Bool.not_eq_false _ ▸ hc)
    exact Bool.false_ne_true (first.symm.trans hsigned)
  | refused _ _ _ _ no | grants _ _ _ _ no | spawns _ _ _ _ no => exact nomatch no.symm.trans hs

/-- The record still says what the log says. -/
theorem Logged.self (hl : Logged m k) (heff : Effect (m.ctx.conns k) h)
    (hh : Handles { m.ctx.conns k with sessionId := k, active := true } t payload h) {ctx : MonitorCtx}
    (hc : ctx.conns k = h.conn) : Logged ⟨ctx, ⟨k, t, payload, h.host.db, h.resp⟩ :: m.log⟩ k := by
  refine ⟨?_, fun ha => ?_, fun s hmem hslot hok => ?_⟩
  · rw [failures_cons, ← hl.attempts, beq_self_eq_true, Bool.true_and]
    exact (congrArg _ hc).trans hh.attempts
  · dsimp only at ha ⊢
    rw [hc] at ha ⊢
    rcases hh.login ha with ⟨htype, hgranted⟩ | ⟨hbefore, huser⟩
    · obtain ⟨name, u, hname, _, _, _, _, huser⟩ := hh.user htype hgranted
      refine ⟨_, .head _, rfl, ?_, ?_⟩
      · rw [ServedRequest.grants, htype, hgranted]
        rfl
      · rw [hname, huser]
    · obtain ⟨g, hmem, hslot, hgrants, hname⟩ := hl.login hbefore
      exact ⟨g, .tail _ hmem, hslot, hgrants, by rw [hname, huser]⟩
  dsimp only
  rw [hc]
  rcases List.mem_cons.1 hmem with rfl | hmem
  · cases heff with
    | signs _ _ signed _ _ => exact signed
    | refused _ _ _ _ no | grants _ _ _ _ no | spawns _ _ _ _ no => exact nomatch no.symm.trans hok
  · have hbefore := hl.signed s hmem hslot hok
    cases heff with
    | signs _ _ signed _ _ => exact signed
    | refused _ signed _ _ _ | grants _ signed _ _ _ | spawns _ _ signed _ _ => exact signed.trans hbefore

end Step

/-- What holds after every run. -/
structure MonitorInv (m : Monitored) : Prop where
  logged : ∀ i, Logged m i
  history : History Authorized m.log

theorem MonitorInv.serve {m : Monitored} (hm : MonitorInv m) (env : Env) (hdr : MonitorHdr) (payload : Bytes) :
    MonitorInv (m.serve env hdr payload) := by
  rcases m.serve_cases env hdr payload with e | ⟨k, h, heff, hh, e⟩
  · rwa [e]
  rw [e]
  refine ⟨fun i => ?_, .cons hm.history ((hm.logged k).authorized heff hh)⟩
  by_cases hik : i = k
  · subst hik
    exact (hm.logged i).self heff hh (Function.update_self ..)
  · exact (hm.logged i).other (Ne.symm hik) (Function.update_of_ne hik ..)

theorem reach_monitorInv {m : Monitored} (h : monitorMachine.Reach m) : MonitorInv m := by
  refine h.invariant (fun m hi => ?_) (fun m r m' hm hstep => ?_)
  · obtain ⟨host, rfl⟩ := hi
    exact ⟨fun i => ⟨rfl, nofun, fun s hs => absurd hs List.not_mem_nil⟩, .nil⟩
  · obtain rfl := hstep
    exact hm.serve _ _ _

/-- **What the monitor authorizes.** After every sequence of requests on zeroed
records: each request was served as the earlier ones justify (`Authorized`), so
nobody was let in as `root` or with `nologin`, five failures deny every later
login request, and a session was granted after a login only; a record that is
authenticated is so for a user who was let in and is not `root`; and the host
key signed at most once for each record. -/
theorem monitor_authorizes {m : Monitored} (h : monitorMachine.Reach m) :
    History Authorized m.log ∧
      (∀ i, (m.ctx.conns i).authenticated = true → (m.ctx.conns i).username ≠ ascii "root" ∧
        ∃ g ∈ m.log, g.slot = i ∧ g.grants = true ∧
          loginName g.msgType g.payload = some (m.ctx.conns i).username) ∧
      ∀ i, m.log.countP (fun e => decide (e.slot = i ∧ e.resp.signOk = true)) ≤ 1 := by
  obtain ⟨hl, hh⟩ := reach_monitorInv h
  refine ⟨hh, fun i ha => ?_, fun i => ?_⟩
  · obtain ⟨g, hmem, hslot, hgrants, hname⟩ := (hl i).login ha
    refine ⟨?_, g, hmem, hslot, hgrants, hname⟩
    obtain ⟨_, _, hg⟩ := hh.justified hmem
    obtain ⟨name, _, hname', hroot, _⟩ := hg.user hgrants
    obtain rfl := Option.some.inj (hname'.symm.trans hname)
    exact hroot
  · refine hh.countP_le_one fun l e hj he x hx hp => ?_
    exact Bool.false_ne_true ((hj.sign he.2 x hx (hp.1.trans he.1.symm)).symm.trans hp.2)

/-- `alice` logs in with her password, and a session is asked for. -/
def aliceServed : Monitored :=
  let m : Monitored := ⟨⟨aliceHost, fun _ => MonitorConn.zero⟩, []⟩
  (m.serve aliceEnv ⟨MONITOR_MAGIC, MONITOR_REQ_AUTH_PASSWORD, 0, 19⟩
    (le 5 4 ++ ascii "alice" ++ le 6 4 ++ ascii "secret")).serve aliceEnv (spawnHdr 0) []

theorem monitor_authorizes_alice :
    aliceServed.log.map (fun e => (e.grants, e.resp.spawnOk)) = [(false, true), (true, false)] ∧
      (aliceServed.ctx.conns 0).authenticated = true ∧ (aliceServed.ctx.conns 0).username ≠ ascii "root" := by
  have hauth : (aliceServed.ctx.conns 0).authenticated = true := by decide +kernel
  have hreach : monitorMachine.Reach aliceServed :=
    .step (i := (_, _, _)) (.step (i := (_, _, _)) (.init ⟨aliceHost, rfl⟩) rfl) rfl
  exact ⟨by decide +kernel, hauth, ((monitor_authorizes hreach).2.1 0 hauth).1⟩

end Fortress.Sshd
