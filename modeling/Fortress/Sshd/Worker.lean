/-
The first half of a worker's life (sshd.c, `sshd_worker_run`): the key exchange
loop, then the authentication loop.

Both loops take whatever packets come, and neither looks at what the functions
it calls return. The history beside the state lists, newest first, what the
key exchange has accepted, what the monitor was asked to sign and did sign,
and each packet handed to `auth_process_request` with the transport at that
moment.

`kex_before_auth`: where the client keeps the order of a key exchange, nothing
is handed on without keys from a signed exchange. `auth_without_kex`: a client
that opens with NEWKEYS is let through to authentication in plaintext.
-/
import Fortress.Sshd.Binding
import Fortress.Sshd.Kex

namespace Fortress.Sshd

open Codec

inductive Entry
  /-- `kex_parse_kexinit` accepted a KEXINIT -/
  | kexinit
  /-- `kex_process_ecdh_init` accepted an ECDH_INIT, with this hash and shared secret -/
  | ecdh (hash secret : Bytes)
  /-- the monitor was asked to sign these bytes -/
  | asked (bytes : Bytes)
  /-- the monitor's signature of these bytes came back -/
  | signed (bytes : Bytes)
  /-- a packet was handed to `auth_process_request` -/
  | handed (payload : Bytes) (t : Transport)
  deriving DecidableEq

inductive Phase
  | kex
  | auth
  | over
  deriving DecidableEq, Repr

structure Worker where
  transport : Transport
  phase : Phase
  history : List Entry

/-- What the system answers while one packet is handled. -/
structure WorkerIo where
  grant : Grant
  keygen : Option (Bytes × Bytes)
  /-- what the uninitialised hash array holds -/
  garbage : Bytes
  /-- the signature in the monitor's reply, if it is one -/
  monitorSig : Option Bytes
  /-- whether the monitor lets the user of an authentication request in -/
  authenticated : Bool

inductive WorkerEvent
  /-- bytes come in from the client -/
  | feed (g : Grant) (bytes : Bytes)
  /-- the loop asks for the next packet -/
  | poll (io : WorkerIo)

/-- The worker at the start of its key exchange loop: a KEXINIT of its own has been built. -/
def Worker.start (g : Grant) (cookie : Bytes) : Worker where
  transport :=
    { state := .rekey
      strictKex := false
      initialKexDone := false
      kex := (kexBuildKexinit g kexInit cookie).2
      inCipher := ⟨[], false⟩
      outCipher := ⟨[], false⟩
      inSeq := 0
      inBuf := ⟨[], 4096, 0, 65536, false, true⟩
      lastError := .again }
  phase := .kex
  history := []

section Run

variable (cr : KexCrypto) (ids : KexIds)

variable (io : WorkerIo) (w : Worker) (t : Transport)

def Worker.takeKexinit (payload : Bytes) : Worker :=
  match kexParseKexinit io.grant t.kex payload with
  | (none, kex) =>
    { w with transport := { t with kex, strictKex := kex.strictKex }, history := .kexinit :: w.history }
  | (some _, kex) => { w with transport := { t with kex } }

/-- The array sent to the monitor is sent whatever the key exchange said. -/
def Worker.takeEcdhInit (payload : Bytes) : Worker :=
  let (rc, exHash, kex) := kexProcessEcdhInit cr io.grant ids (kexStartEcdh io.keygen t.kex) payload io.garbage
  let accepted := match rc with
    | none => [Entry.ecdh kex.hash kex.sharedSecret]
    | some _ => []
  let answered := match io.monitorSig with
    | some _ => [Entry.signed exHash]
    | none => []
  { w with
    transport := { t with kex }
    history := answered ++ .asked exHash :: (accepted ++ w.history) }

def Worker.takeNewkeys : Worker :=
  { w with transport := (sshTransportApplyNewkeys cr io.grant t false).2, phase := .auth }

def Worker.kexPacket (p : Packet) : Worker :=
  if p.1 = SSH_MSG_KEXINIT then w.takeKexinit io t p.2
  else if p.1 = SSH_MSG_KEX_ECDH_INIT then w.takeEcdhInit cr ids io t p.2
  else if p.1 = SSH_MSG_NEWKEYS then w.takeNewkeys cr io t
  else { w with transport := t }

def Worker.authPacket (p : Packet) : Worker :=
  if p.1 = SSH_MSG_USERAUTH_REQUEST then
    { w with transport := t, phase := if io.authenticated then .over else .auth, history := .handed p.2 t :: w.history }
  else { w with transport := t }

def Worker.poll : Worker :=
  match w.phase, sshTransportGetPacket cr w.transport with
  | .kex, (.ok p, t) => w.kexPacket cr ids io t p
  | .kex, (.error _, t) => { w with transport := t }
  | .auth, (.ok p, t) => w.authPacket io t p
  | .auth, (.error e, t) => { w with transport := t, phase := if e = .again then .auth else .over }
  | .over, _ => w

def Worker.step (w : Worker) : WorkerEvent → Worker
  | .feed g bytes => { w with transport := (sshTransportFeedInput g w.transport bytes).2 }
  | .poll io => w.poll cr ids io

def workerMachine : Machine Worker WorkerEvent where
  init w := ∃ g cookie, w = Worker.start g cookie
  step w e w' := w' = w.step cr ids e

/-- The transport carries keys from an exchange in this history: a KEXINIT was accepted, later
an ECDH_INIT, its hash was signed, and both directions use the keys derived from it. -/
def Exchanged (history : List Entry) (t : Transport) : Prop :=
  ∃ c b a h s g, history = c ++ .ecdh h s :: (b ++ .kexinit :: a) ∧ .signed h ∈ c ∧
    t.inCipher.active = true ∧ t.outCipher.active = true ∧
    deriveKeyPair cr g s h t.kex.sessionId = .ok (t.inCipher.key, t.outCipher.key)

/-- Every packet handed on came through keys from a signed exchange, and every hash the
monitor was asked for is that of an accepted ECDH_INIT. -/
def Orderly : List Entry → Prop
  | [] => True
  | .handed _ t :: history => Exchanged cr history t ∧ Orderly history
  | .asked bytes :: history => (∃ s, .ecdh bytes s ∈ history) ∧ Orderly history
  | _ :: history => Orderly history

/-- A packet of the key exchange in its place: an ECDH_INIT comes after an accepted KEXINIT,
is accepted and signed by the monitor, and NEWKEYS comes when keys can be derived. -/
def InPlace : Except SshErr Packet × Transport → Prop
  | (.ok p, t) =>
    (p.1 = SSH_MSG_KEX_ECDH_INIT → KexState.kexinitRecv.rank ≤ t.kex.state.rank ∧ io.monitorSig.isSome = true ∧
      (kexProcessEcdhInit cr io.grant ids (kexStartEcdh io.keygen t.kex) p.2 io.garbage).1 = none) ∧
    (p.1 = SSH_MSG_NEWKEYS → (kexDeriveKeys cr io.grant t.kex).isOk = true)
  | (.error _, _) => True

/-- The client keeps the order of a key exchange. -/
def KeepsOrder (w : Worker) : WorkerEvent → Prop
  | .feed _ _ => True
  | .poll io => w.phase = .kex → InPlace cr ids io (sshTransportGetPacket cr w.transport)

instance (io : WorkerIo) (r : Except SshErr Packet × Transport) : Decidable (InPlace cr ids io r) :=
  match r with
  | (.ok p, t) => by unfold InPlace; infer_instance
  | (.error _, _) => .isTrue trivial

instance (w : Worker) (e : WorkerEvent) : Decidable (KeepsOrder cr ids w e) :=
  match e with
  | .feed _ _ => .isTrue trivial
  | .poll io => inferInstanceAs (Decidable (w.phase = .kex → InPlace cr ids io (sshTransportGetPacket cr w.transport)))

end Run

/-! ## One packet -/

section Steps

variable {cr : KexCrypto} {ids : KexIds} {ctx : KexCtx} {g : Grant}

theorem sshTransportGetPacket_frame (t : Transport) :
    (sshTransportGetPacket cr t).2.kex = t.kex ∧ (sshTransportGetPacket cr t).2.inCipher = t.inCipher ∧
      (sshTransportGetPacket cr t).2.outCipher = t.outCipher := by
  unfold sshTransportGetPacket
  dsimp only
  repeat' split
  all_goals exact ⟨rfl, rfl, rfl⟩

theorem kexParseKexinit_cases (g : Grant) (ctx : KexCtx) (payload : Bytes) :
    ((kexParseKexinit g ctx payload).1 = none ∧ (kexParseKexinit g ctx payload).2.state = .kexinitRecv) ∨
    ((∃ e, (kexParseKexinit g ctx payload).1 = some e) ∧ (kexParseKexinit g ctx payload).2.state = ctx.state ∧
      (kexParseKexinit g ctx payload).2.hash = ctx.hash ∧
      (kexParseKexinit g ctx payload).2.sharedSecret = ctx.sharedSecret) := by
  unfold kexParseKexinit
  split
  · exact .inr ⟨⟨_, rfl⟩, rfl, rfl, rfl⟩
  split
  · exact .inr ⟨⟨_, rfl⟩, rfl, rfl, rfl⟩
  split
  · exact .inr ⟨⟨_, rfl⟩, rfl, rfl, rfl⟩
  dsimp only
  split
  · exact .inl ⟨rfl, rfl⟩
  right
  refine ⟨⟨_, rfl⟩, ?_, ?_, ?_⟩ <;> dsimp only <;> split <;> rfl

/-- An ECDH_INIT that is accepted gives its hash to the caller and to the context. -/
theorem kexProcessEcdhInit_ok {payload garbage : Bytes}
    (h : (kexProcessEcdhInit cr g ids ctx payload garbage).1 = none) :
    (kexProcessEcdhInit cr g ids ctx payload garbage).2.1 =
        (kexProcessEcdhInit cr g ids ctx payload garbage).2.2.hash ∧
      (kexProcessEcdhInit cr g ids ctx payload garbage).2.2.state = .ecdhDone := by
  unfold kexProcessEcdhInit at h ⊢
  split at h
  · cases h
  split at h
  · cases h
  rename_i hlen
  simp only [if_neg hlen]
  dsimp only at h
  split at h
  · cases h
  rename_i hz
  simp only [if_neg hz]
  split at h
  · cases h
  split at h
  · cases h
  rename_i hs
  simp only [if_neg hs]
  split
  · exact ⟨rfl, rfl⟩
  · exact ⟨rfl, rfl⟩

/-- What is known of a worker whose client has kept the order so far. -/
structure InOrder (cr : KexCrypto) (w : Worker) : Prop where
  orderly : Orderly cr w.history
  /-- past KEXINIT, one was accepted -/
  begun : KexState.kexinitRecv.rank ≤ w.transport.kex.state.rank → .kexinit ∈ w.history
  /-- past ECDH_INIT, the last one was signed -/
  done : KexState.ecdhDone.rank ≤ w.transport.kex.state.rank →
    ∃ c b a, w.history = c ++ .ecdh w.transport.kex.hash w.transport.kex.sharedSecret :: (b ++ .kexinit :: a) ∧
      .signed w.transport.kex.hash ∈ c
  /-- past the key exchange, its keys are in use -/
  keyed : w.phase = .auth → Exchanged cr w.history w.transport

variable {t : Transport} {history : List Entry}

theorem Exchanged.cons (e : Entry) (h : Exchanged cr history t) : Exchanged cr (e :: history) t := by
  obtain ⟨c, b, a, hash, s, g, rfl, hs, hrest⟩ := h
  exact ⟨e :: c, b, a, hash, s, g, rfl, List.mem_cons_of_mem e hs, hrest⟩

theorem Exchanged.congr {t' : Transport} (h : Exchanged cr history t)
    (hk : t'.kex = t.kex) (hi : t'.inCipher = t.inCipher) (ho : t'.outCipher = t.outCipher) :
    Exchanged cr history t' := by
  unfold Exchanged
  rw [hk, hi, ho]
  exact h

variable {w : Worker}

/-- A step that leaves the key exchange, the ciphers and the history alone. -/
theorem InOrder.congr {w' : Worker} (h : InOrder cr w) (hh : w'.history = w.history)
    (hk : w'.transport.kex = w.transport.kex) (hi : w'.transport.inCipher = w.transport.inCipher)
    (ho : w'.transport.outCipher = w.transport.outCipher) (hp : w'.phase = .auth → w.phase = .auth) : InOrder cr w' := by
  refine ⟨by rw [hh]; exact h.orderly, ?_, ?_, ?_⟩
  · rw [hh, hk]; exact h.begun
  · rw [hh, hk]; exact h.done
  intro hph
  rw [hh]
  exact (h.keyed (hp hph)).congr hk hi ho

theorem inOrder_start (g : Grant) (cookie : Bytes) : InOrder cr (Worker.start g cookie) := by
  have hrank : (kexBuildKexinit g kexInit cookie).2.state.rank ≤ 1 := by
    unfold kexBuildKexinit
    split
    · exact Nat.zero_le _
    split
    · exact Nat.zero_le _
    split
    · exact le_rfl
    · exact Nat.zero_le _
  refine ⟨trivial, ?_, ?_, nofun⟩
  · intro h
    have : 2 ≤ (kexBuildKexinit g kexInit cookie).2.state.rank := h
    omega
  · intro h
    have : 3 ≤ (kexBuildKexinit g kexInit cookie).2.state.rank := h
    omega

variable {io : WorkerIo} {payload : Bytes}

/-- A KEXINIT: accepted, it starts the exchange over; refused, it changes nothing that matters. -/
theorem inOrder_takeKexinit (h : InOrder cr w)
    (hph : w.phase = .kex) (hk : t.kex = w.transport.kex) : InOrder cr (w.takeKexinit io t payload) := by
  unfold Worker.takeKexinit
  rcases kexParseKexinit_cases io.grant t.kex payload with ⟨hrc, hstate⟩ | ⟨⟨e, hrc⟩, hstate, hhash, hsecret⟩
  · split
    · rename_i kex heq
      rw [heq] at hstate
      refine ⟨h.orderly, fun _ => List.mem_cons_self .., fun hge => ?_, fun hp => ?_⟩
      · dsimp only at hge
        rw [hstate] at hge
        exact absurd hge (by decide)
      · rw [hph] at hp
        cases hp
    · rename_i kex heq
      rw [heq] at hrc
      cases hrc
  split
  · rename_i kex heq
    rw [heq] at hrc
    cases hrc
  rename_i kex heq
  rw [heq] at hstate hhash hsecret
  rw [hk] at hstate hhash hsecret
  refine ⟨h.orderly, ?_, ?_, fun hp => ?_⟩
  · dsimp only
    rw [hstate]
    exact h.begun
  · dsimp only
    rw [hstate, hhash, hsecret]
    exact h.done
  · rw [hph] at hp
    cases hp

/-- An ECDH_INIT after a KEXINIT, accepted and signed. -/
theorem inOrder_takeEcdhInit (h : InOrder cr w) (hph : w.phase = .kex) (hk : t.kex = w.transport.kex)
    (hrecv : KexState.kexinitRecv.rank ≤ t.kex.state.rank) (hsig : io.monitorSig.isSome = true)
    (hok : (kexProcessEcdhInit cr io.grant ids (kexStartEcdh io.keygen t.kex) payload io.garbage).1 = none) :
    InOrder cr (w.takeEcdhInit cr ids io t payload) := by
  rw [hk] at hrecv
  obtain ⟨a, b, hhist⟩ := List.append_of_mem (h.begun hrecv)
  obtain ⟨sig, hsig⟩ := Option.isSome_iff_exists.1 hsig
  obtain ⟨hex, hstate⟩ := kexProcessEcdhInit_ok hok
  unfold Worker.takeEcdhInit
  generalize kexProcessEcdhInit cr io.grant ids (kexStartEcdh io.keygen t.kex) payload io.garbage = r at hok hex hstate ⊢
  obtain ⟨rc, exHash, kex⟩ := r
  dsimp only at hok hex hstate ⊢
  subst hok hex
  rw [hsig]
  -- the three entries of this packet stand before everything that was there
  refine ⟨⟨⟨kex.sharedSecret, List.mem_cons_self ..⟩, h.orderly⟩, fun _ => ?_, fun _ => ?_, fun hp => ?_⟩
  · exact .tail _ (.tail _ (.tail _ (h.begun hrecv)))
  · refine ⟨[.signed kex.hash, .asked kex.hash], a, b, ?_, List.mem_cons_self ..⟩
    rw [hhist]
    rfl
  · rw [hph] at hp
    cases hp

theorem kexDeriveKeys_ok (h : (kexDeriveKeys cr g ctx).isOk = true) :
    KexState.ecdhDone.rank ≤ ctx.state.rank ∧ ∃ k, kexDeriveKeys cr g ctx = .ok k ∧ k.sessionId = ctx.sessionId ∧
      k.state = ctx.state ∧ k.hash = ctx.hash ∧ k.sharedSecret = ctx.sharedSecret ∧
      deriveKeyPair cr g ctx.sharedSecret ctx.hash ctx.sessionId = .ok (k.keyC2s, k.keyS2c) := by
  unfold kexDeriveKeys at h ⊢
  by_cases hst : ctx.state.rank < KexState.ecdhDone.rank
  · rw [if_pos hst] at h
    cases h
  simp only [if_neg hst] at h ⊢
  refine ⟨Nat.not_lt.1 hst, ?_⟩
  cases hd : deriveKeyPair cr g ctx.sharedSecret ctx.hash ctx.sessionId with
  | error e =>
    rw [hd] at h
    cases h
  | ok q => exact ⟨_, rfl, rfl, rfl, rfl, rfl, rfl⟩

theorem inOrder_takeNewkeys (h : InOrder cr w)
    (hk : t.kex = w.transport.kex) (hok : (kexDeriveKeys cr io.grant t.kex).isOk = true) :
    InOrder cr (w.takeNewkeys cr io t) := by
  obtain ⟨hge, k, hder, hsid, hstate, hhash, hsecret, hpair⟩ := kexDeriveKeys_ok hok
  rw [hk] at hge hsid hstate hhash hsecret hpair
  obtain ⟨c, b, a, hhist, hsigned⟩ := h.done hge
  unfold Worker.takeNewkeys sshTransportApplyNewkeys
  rw [hder]
  refine ⟨h.orderly, ?_, ?_, fun _ => ?_⟩
  · dsimp only
    rw [hstate]
    exact h.begun
  · dsimp only
    rw [hstate, hhash, hsecret]
    exact h.done
  · refine ⟨c, b, a, _, _, io.grant, hhist, hsigned, rfl, rfl, ?_⟩
    rw [hsid]
    exact hpair

theorem inOrder_authPacket {p : Packet} (h : InOrder cr w)
    (hph : w.phase = .auth) (hk : t.kex = w.transport.kex) (hi : t.inCipher = w.transport.inCipher)
    (ho : t.outCipher = w.transport.outCipher) : InOrder cr (w.authPacket io t p) := by
  have hkeyed : Exchanged cr w.history t := (h.keyed hph).congr hk hi ho
  unfold Worker.authPacket
  split
  · refine ⟨⟨hkeyed, h.orderly⟩, ?_, ?_, fun _ => hkeyed.cons _⟩
    · dsimp only
      rw [hk]
      exact fun hge => .tail _ (h.begun hge)
    rw [hk]
    intro hge
    obtain ⟨c, b, a, hhist, hs⟩ := h.done hge
    exact ⟨_ :: c, b, a, by rw [hhist]; rfl, .tail _ hs⟩
  · exact h.congr rfl hk hi ho fun _ => hph

/-- **One step.** A client that keeps the order leaves the worker in order. -/
theorem inOrder_step {e : WorkerEvent} (h : InOrder cr w) (he : KeepsOrder cr ids w e) :
    InOrder cr (w.step cr ids e) := by
  cases e with
  | feed g bytes =>
    refine h.congr rfl ?_ ?_ ?_ id
    all_goals
      simp only [Worker.step, sshTransportFeedInput]
      split <;> rfl
  | poll io =>
    obtain ⟨hk, hi, ho⟩ := @sshTransportGetPacket_frame cr w.transport
    show InOrder cr (w.poll cr ids io)
    unfold Worker.poll
    cases hg : sshTransportGetPacket cr w.transport with
    | mk r t =>
      rw [hg] at hk hi ho
      cases hph : w.phase with
      | «over» => exact h
      | kex =>
        cases r with
        | error e => exact h.congr rfl hk hi ho nofun
        | ok p =>
          have hplace := he hph
          rw [hg] at hplace
          obtain ⟨hecdh, hnew⟩ := hplace
          show InOrder cr (w.kexPacket cr ids io t p)
          unfold Worker.kexPacket
          split
          · exact inOrder_takeKexinit h hph hk
          split
          · rename_i ht
            obtain ⟨hrecv, hsig, hok⟩ := hecdh ht
            exact inOrder_takeEcdhInit h hph hk hrecv hsig hok
          split
          · rename_i ht
            exact inOrder_takeNewkeys h hk (hnew ht)
          · exact h.congr rfl hk hi ho id
      | auth =>
        cases r with
        | error e => exact h.congr rfl hk hi ho fun _ => hph
        | ok p => exact inOrder_authPacket h hph hk hi ho

end Steps

/-- **Key exchange before authentication.** In every run of the worker, over any bytes from the
client, in which ECDH_INIT and NEWKEYS come in order and the monitor signs, every packet handed
to authentication came through keys of an accepted and signed exchange, and the monitor was
only ever asked to sign the hash of an accepted ECDH_INIT. -/
theorem kex_before_auth {cr : KexCrypto} {ids : KexIds} {w : Worker}
    (h : ((workerMachine cr ids).restrict (KeepsOrder cr ids)).Reach w) : Orderly cr w.history := by
  have hinv : InOrder cr w := by
    refine h.invariant ?_ ?_
    · rintro w ⟨g, cookie, rfl⟩
      exact inOrder_start g cookie
    · rintro w e w' hinv ⟨he, rfl⟩
      exact inOrder_step hinv he
  exact hinv.orderly

/-! A client on the wire, with stand-ins for the primitives. -/

def toyCrypto : KexCrypto where
  x25519 _ _ := some (List.replicate 32 3)
  sha256 _ := List.replicate 32 5
  decryptLength _ _ bs := fromBe bs
  decryptPacket _ _ frame := some (slice frame 4 (frame.length - 20))

def toyIds : KexIds := ⟨List.replicate 32 9, ascii "SSH-2.0-client", ascii "SSH-2.0-FortressSSH_0.1"⟩

def toyIo : WorkerIo where
  grant _ := true
  keygen := some (List.replicate 32 1, List.replicate 32 2)
  garbage := List.replicate 32 0xEE
  monitorSig := some (List.replicate 64 4)
  authenticated := false

/-- A payload in plaintext framing, with four bytes of padding. -/
def plainFrame (payload : Bytes) : Bytes := be (payload.length + 5) 4 ++ 4 :: (payload ++ [0, 0, 0, 0])

def clientKexinit : Bytes :=
  SSH_MSG_KEXINIT :: (List.replicate 16 0 ++ sshString curveName ++ sshString edAlgo ++ sshString cipherName ++
    sshString cipherName)

def clientEcdhInit : Bytes := SSH_MSG_KEX_ECDH_INIT :: sshString (List.replicate 32 6)

/-- A whole key exchange, and an authentication request under the new keys. -/
def politeStream : Bytes :=
  plainFrame clientKexinit ++ plainFrame clientEcdhInit ++ plainFrame [SSH_MSG_NEWKEYS] ++
    (plainFrame [SSH_MSG_USERAUTH_REQUEST] ++ List.replicate 16 0)

/-- The worker after `n` packets of a stream. -/
def afterPackets (stream : Bytes) : Nat → Worker
  | 0 => (Worker.start (fun _ => true) (List.replicate 16 0)).step toyCrypto toyIds (.feed (fun _ => true) stream)
  | n + 1 => (afterPackets stream n).step toyCrypto toyIds (.poll toyIo)

theorem reach_afterPackets {P : Worker → WorkerEvent → Prop} {stream : Bytes} (hfeed : ∀ w g bs, P w (.feed g bs)) :
    ∀ {n : Nat}, (∀ k < n, P (afterPackets stream k) (.poll toyIo)) →
      ((workerMachine toyCrypto toyIds).restrict P).Reach (afterPackets stream n)
  | 0, _ => .step (.init ⟨_, _, rfl⟩) ⟨hfeed _ _ _, rfl⟩
  | n + 1, h => .step (reach_afterPackets hfeed fun k hk => h k (by omega)) ⟨h n (by omega), rfl⟩

theorem kex_before_auth_polite :
    ((workerMachine toyCrypto toyIds).restrict (KeepsOrder toyCrypto toyIds)).Reach (afterPackets politeStream 4) ∧
      (afterPackets politeStream 4).history.length = 5 ∧ Orderly toyCrypto (afterPackets politeStream 4).history := by
  have hreach : ((workerMachine toyCrypto toyIds).restrict (KeepsOrder toyCrypto toyIds)).Reach
      (afterPackets politeStream 4) :=
    reach_afterPackets (fun _ _ _ => trivial) (by decide +kernel)
  have hlen : (afterPackets politeStream 4).history.length = 5 := by decide +kernel
  generalize afterPackets politeStream 4 = w at hreach hlen ⊢
  exact ⟨hreach, hlen, kex_before_auth hreach⟩

/-- NEWKEYS, then an authentication request, all in plaintext. -/
def rudeStream : Bytes := plainFrame [SSH_MSG_NEWKEYS] ++ plainFrame [SSH_MSG_USERAUTH_REQUEST]

/-- A client that sends NEWKEYS first, without any key exchange: its next packet, in plaintext,
is handed to authentication. -/
theorem auth_without_kex :
    (workerMachine toyCrypto toyIds).Reach (afterPackets rudeStream 2) ∧
      ¬Orderly toyCrypto (afterPackets rudeStream 2).history := by
  have hreach : ((workerMachine toyCrypto toyIds).restrict fun _ _ => True).Reach (afterPackets rudeStream 2) :=
    reach_afterPackets (fun _ _ _ => trivial) fun _ _ => trivial
  have hhist : (afterPackets rudeStream 2).history =
      [.handed [SSH_MSG_USERAUTH_REQUEST] (afterPackets rudeStream 2).transport] := by
    decide +kernel
  refine ⟨hreach.of_restrict, ?_⟩
  rw [hhist]
  rintro ⟨⟨c, b, a, h, s, g, hnil, -⟩, -⟩
  simp at hnil

end Fortress.Sshd
