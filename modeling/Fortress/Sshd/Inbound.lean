/-
Channel input from the peer's packets to the reader.

`Flow` runs one channel of a session with a ghost beside it: the bytes the
peer has sent on the channel, the bytes handed to the reader, the window
advertised so far, and whether a data packet was refused.

The window is topped up whenever little of it is left, however much the reader
has drained; the buffer behind it never gives consumed room back. A channel
therefore takes 64 KiB in all. `channel_input_kept` says exactly which runs
lose nothing, and `channel_input_lost` is a run that does.
-/
import Fortress.Sshd.Channel

namespace Fortress.Sshd

open Codec List

/-! ## What a handler leaves alone -/

/-- The fields of a channel that its input depends on. -/
def SameInput (c c' : Channel) : Prop :=
  c'.inData = c.inData ∧ c'.localWindow = c.localWindow

theorem SameInput.refl (c : Channel) : SameInput c c := ⟨rfl, rfl⟩

variable {c : Channel}

theorem SameInput.trans {a b : Channel} (h : SameInput a b) (h' : SameInput b c) : SameInput a c :=
  ⟨h'.1.trans h.1, h'.2.trans h.2⟩

/-- Live slots keep their input or are torn down, those in `P` aside. -/
def QuietBut (P : Slot → Prop) (m m' : ChannelMgr) : Prop :=
  ∀ k, ¬P k → (m.channels k).state ≠ .closed → m'.channels k = Channel.zero ∨ SameInput (m.channels k) (m'.channels k)

/-- The reply buffer is still one that grows, and no smaller. -/
def ReplyKept (out out' : SshBuf) : Prop := Growing out → Growing out' ∧ out.alloc ≤ out'.alloc

theorem ReplyKept.refl (out : SshBuf) : ReplyKept out out := fun h => ⟨h, le_rfl⟩

theorem ReplyKept.trans {a b c : SshBuf} (h : ReplyKept a b) (h' : ReplyKept b c) : ReplyKept a c := by
  intro ha
  obtain ⟨hb, hab⟩ := h ha
  obtain ⟨hc, hbc⟩ := h' hb
  exact ⟨hc, Nat.le_trans hab hbc⟩

theorem QuietBut.refl (P : Slot → Prop) (m : ChannelMgr) : QuietBut P m m :=
  fun _ _ _ => .inr (SameInput.refl _)

@[simp] theorem ChannelMgr.set_same (m : ChannelMgr) (i : Slot) (c : Channel) : (m.set i c).channels i = c :=
  Function.update_self ..

variable {i k : Slot}

theorem ChannelMgr.set_other (m : ChannelMgr) (c : Channel) (h : k ≠ i) : (m.set i c).channels k = m.channels k :=
  Function.update_of_ne h ..

variable {P : Slot → Prop} {m : ChannelMgr}

theorem quietBut_set (h : P i ∨ (m.channels i).state = .closed ∨ c = Channel.zero ∨ SameInput (m.channels i) c) :
    QuietBut P m (m.set i c) := by
  intro k hk hlive
  by_cases hki : k = i
  · subst hki
    rw [ChannelMgr.set_same]
    rcases h with h | h | h | h
    · exact absurd h hk
    · exact absurd h hlive
    · exact .inl h
    · exact .inr h
  · rw [ChannelMgr.set_other m c hki]
    exact .inr (SameInput.refl _)

theorem reply_mgr (m : ChannelMgr) (out : SshBuf) (ps : List Put) : (reply m out ps).mgr = m := by
  unfold reply
  split <;> rfl

variable {out : SshBuf} {ps : List Put}

theorem reply_out (h : ∀ p ∈ ps, Grows p) : ReplyKept out (reply m out ps).out := by
  have hout : (reply m out ps).out = (putSeq ps out).2 := by
    unfold reply
    split <;> simp_all
  rw [hout]
  exact grows_putSeq h out

/-- The puts a reply is made of. -/
inductive Basic (g : Grant) : Put → Prop
  | u8 (v : UInt8) : Basic g (sshbufPutU8 g v)
  | u32 (v : Nat) : Basic g (sshbufPutU32 g v)
  | string (bs : Bytes) : Basic g (sshbufPutString g bs)

attribute [simp] Basic.u8 Basic.u32 Basic.string

variable {g : Grant}

theorem Basic.grows {p : Put} (h : Basic g p) : Grows p := by
  cases h with
  | u8 v => exact grows_putBytes g _
  | u32 v => exact grows_putBytes g _
  | string bs => exact grows_putString g bs

/-- A handler's effect on other channels and on the reply buffer. -/
structure Tame (P : Slot → Prop) (m : ChannelMgr) (out : SshBuf) (o : Outcome) : Prop where
  quiet : QuietBut P m o.mgr
  replyKept : ReplyKept out o.out

theorem tame_id (P : Slot → Prop) (m : ChannelMgr) (out : SshBuf) (rc : Option SshErr) : Tame P m out ⟨m, out, rc⟩ :=
  ⟨QuietBut.refl P m, ReplyKept.refl out⟩

variable {m' : ChannelMgr}

theorem tame_reply (hm : QuietBut P m m') (h : ∀ p ∈ ps, Basic g p) : Tame P m out (reply m' out ps) :=
  ⟨by rw [reply_mgr]; exact hm, reply_out fun p hp => (h p hp).grows⟩

variable {id : Nat}

theorem channelLookupLocal_some (h : channelLookupLocal m id = some k) :
    (m.channels k).state ≠ .closed ∧ (m.channels k).localId = id := by
  have := find?_some h
  simpa using this

theorem tame_sendOpenFailure {r n : Nat} {d : String}
    (hm : QuietBut P m m') : Tame P m out (sendOpenFailure g m' r n d out) := by
  exact tame_reply (g := g) hm (by simp)

section Handlers

variable (P g m out) (b : SshBuf)

theorem tame_handleChannelOpen : Tame P m out (handleChannelOpen g m b out) := by
  unfold handleChannelOpen
  split
  · exact tame_id ..
  split
  · exact tame_sendOpenFailure (QuietBut.refl P m)
  split
  · exact tame_sendOpenFailure (QuietBut.refl P m)
  rename_i i hi
  have hclosed : (m.channels i).state = .closed := by simpa using find?_some hi
  -- only a closed slot is written, whichever way the open ends
  have hset : ∀ c, QuietBut P m ((({ m with nextLocalId := (m.nextLocalId + 1) % 2 ^ 32 } : ChannelMgr)).set i c) :=
    fun c => quietBut_set (.inr (.inl hclosed))
  split
  · exact tame_sendOpenFailure (hset _)
  · exact tame_reply (g := g) (hset _) (by simp)

theorem tame_handleWindowAdjust : Tame P m out (handleWindowAdjust m b out) := by
  unfold handleWindowAdjust
  split
  · exact tame_id ..
  split
  · exact tame_id ..
  dsimp only
  split
  · exact tame_id ..
  · exact ⟨quietBut_set (.inr (.inr (.inr ⟨rfl, rfl⟩))), ReplyKept.refl out⟩

theorem tame_handleChannelEof : Tame P m out (handleChannelEof m b out) := by
  unfold handleChannelEof
  split
  · exact tame_id ..
  split
  · exact tame_id ..
  · exact ⟨quietBut_set (.inr (.inr (.inr ⟨rfl, rfl⟩))), ReplyKept.refl out⟩

variable {P g m out} in
theorem replyKept_closeMsg {t : UInt8} {r : Nat} {e : Option SshErr} {out' : SshBuf}
    (h : putSeq [sshbufPutU8 g t, sshbufPutU32 g r] out = (e, out')) : ReplyKept out out' := by
  have hbasic : ∀ p ∈ [sshbufPutU8 g t, sshbufPutU32 g r], Basic g p := by simp
  have hkept := grows_putSeq (fun p hp => (hbasic p hp).grows) out
  rwa [h] at hkept

theorem tame_handleChannelClose : Tame P m out (handleChannelClose g m b out) := by
  unfold handleChannelClose
  split
  · exact tame_id ..
  split
  · exact tame_id ..
  dsimp only
  split
  · exact ⟨quietBut_set (.inr (.inr (.inl rfl))), ReplyKept.refl out⟩
  split
  · exact ⟨QuietBut.refl P m, replyKept_closeMsg ‹_›⟩
  · exact ⟨quietBut_set (.inr (.inr (.inl rfl))), replyKept_closeMsg ‹_›⟩

theorem applyRequest_sameInput (rtype : Bytes) (c : Channel) (b : SshBuf) :
    SameInput c (applyRequest rtype c b).1 := by
  unfold applyRequest
  repeat' split
  all_goals exact ⟨rfl, rfl⟩

theorem tame_handleChannelRequest : Tame P m out (handleChannelRequest g m b out) := by
  unfold handleChannelRequest
  split
  · exact tame_id ..
  rename_i r _
  split
  · split
    · exact tame_reply (g := g) (QuietBut.refl P m) (by simp)
    · exact tame_id ..
  rename_i i _
  have hin := applyRequest_sameInput r.rtype (m.channels i) r.rest
  dsimp only
  split
  · exact tame_reply (g := g) (quietBut_set (.inr (.inr (.inr hin)))) (by simp)
  · exact ⟨quietBut_set (.inr (.inr (.inr hin))), ReplyKept.refl out⟩

theorem tame_handleGlobalRequest : Tame P m out (handleGlobalRequest g m b out) := by
  unfold handleGlobalRequest
  split
  · exact tame_id ..
  split
  · exact tame_reply (g := g) (QuietBut.refl P m) (by simp)
  · exact tame_id ..

end Handlers

theorem tame_topUp (h : P i) : Tame P m out (topUp g m i c out) := by
  unfold topUp
  split
  · exact tame_reply (g := g) (quietBut_set (.inl h)) (by simp)
  · exact ⟨quietBut_set (.inl h), ReplyKept.refl out⟩

theorem tame_takeInbound (g : Grant) (m : ChannelMgr) (d : Bytes) (out : SshBuf) (h : P i) :
    Tame P m out (takeInbound g m i d out) := by
  unfold takeInbound
  dsimp only
  split
  · exact tame_id ..
  split
  · exact ⟨quietBut_set (.inl h), ReplyKept.refl out⟩
  · exact tame_topUp h

/-! ## The bytes of a data packet -/

/-- The bytes a packet carries as input for channel `id`. -/
def dataFor (id : Nat) (ptype : UInt8) (payload : Bytes) : Option Bytes :=
  let parsed :=
    if payload.length = 0 then .error .invalidArg
    else if ptype = SSH_MSG_CHANNEL_DATA then parseData (packetBody ptype payload)
    else if ptype = SSH_MSG_CHANNEL_EXTENDED_DATA then parseExtendedData (packetBody ptype payload)
    else .error .invalidArg
  match parsed with
  | .ok (recipient, data) => if recipient = id then some data else none
  | .error _ => none

/-- Data packets go to the channel they name; the others are no input for any channel. -/
theorem channelProcessPacket_cases (P : Slot → Prop) (g : Grant) (m : ChannelMgr) (ptype : UInt8) (payload : Bytes)
    (out : SshBuf) :
    (∃ r d, (∀ id, dataFor id ptype payload = if r = id then some d else none) ∧
      channelProcessPacket g m ptype payload out = match channelLookupLocal m r with
        | none => ⟨m, out, some .invalidArg⟩
        | some i =>
          if ptype = SSH_MSG_CHANNEL_DATA ∧ (m.channels i).state.remoteDone = true then
            ⟨m, out, some .protocolViolation⟩
          else takeInbound g m i d out) ∨
    ((∀ id, dataFor id ptype payload = none) ∧ Tame P m out (channelProcessPacket g m ptype payload out)) := by
  unfold channelProcessPacket dataFor
  by_cases hlen : payload.length = 0
  · simp only [if_pos hlen]
    exact .inr ⟨fun _ => trivial, tame_id ..⟩
  simp only [if_neg hlen]
  have hopen : ¬ SSH_MSG_CHANNEL_DATA = SSH_MSG_CHANNEL_OPEN ∧ ¬ SSH_MSG_CHANNEL_EXTENDED_DATA = SSH_MSG_CHANNEL_OPEN := by
    decide
  have hadjust : ¬ SSH_MSG_CHANNEL_DATA = SSH_MSG_CHANNEL_WINDOW_ADJUST ∧
      ¬ SSH_MSG_CHANNEL_EXTENDED_DATA = SSH_MSG_CHANNEL_WINDOW_ADJUST := by
    decide
  by_cases ht : ptype = SSH_MSG_CHANNEL_DATA
  · simp only [ht, hopen.1, hadjust.1, if_true, if_false, true_and, handleChannelData]
    cases parseData (packetBody SSH_MSG_CHANNEL_DATA payload) with
    | error e => exact .inr ⟨fun _ => rfl, tame_id ..⟩
    | ok q => exact .inl ⟨q.1, q.2, fun _ => rfl, rfl⟩
  by_cases ht' : ptype = SSH_MSG_CHANNEL_EXTENDED_DATA
  · rw [ht'] at ht
    simp only [ht', ht, hopen.2, hadjust.2, if_true, if_false, false_and, handleChannelExtendedData]
    cases parseExtendedData (packetBody SSH_MSG_CHANNEL_EXTENDED_DATA payload) with
    | error e => exact .inr ⟨fun _ => rfl, tame_id ..⟩
    | ok q => exact .inl ⟨q.1, q.2, fun _ => rfl, rfl⟩
  simp only [if_neg ht, if_neg ht']
  refine .inr ⟨fun _ => trivial, ?_⟩
  split
  · exact tame_handleChannelOpen ..
  split
  · exact tame_handleWindowAdjust ..
  split
  · exact tame_handleChannelEof ..
  split
  · exact tame_handleChannelClose ..
  split
  · exact tame_handleChannelRequest ..
  split
  · exact tame_handleGlobalRequest ..
  split
  · exact tame_id ..
  · exact tame_id ..

/-- A packet without input for `id` leaves the input of channel `id` alone. -/
theorem tame_channelProcessPacket (g : Grant) (m : ChannelMgr) {ptype : UInt8} {payload : Bytes} (out : SshBuf)
    (h : dataFor id ptype payload = none) :
    Tame (fun i => (m.channels i).localId ≠ id) m out (channelProcessPacket g m ptype payload out) := by
  rcases channelProcessPacket_cases _ g m ptype payload out with ⟨r, d, hd, he⟩ | ⟨-, ht⟩
  · have hne : r ≠ id := by
      intro hr
      simp [hd, hr] at h
    rw [he]
    split
    · exact tame_id ..
    rename_i i hi
    split
    · exact tame_id ..
    · exact tame_takeInbound g m d out (by rwa [(channelLookupLocal_some hi).2])
  · exact ht

/-! ## The server's own actions -/

/-- Channels that are live afterwards were live before and have the same input. -/
def Still (m m' : ChannelMgr) : Prop := ∀ k, (m'.channels k).state ≠ .closed →
  (m.channels k).state ≠ .closed ∧ SameInput (m.channels k) (m'.channels k)

theorem Still.refl (m : ChannelMgr) : Still m m := fun _ h => ⟨h, SameInput.refl _⟩

theorem Still.trans {m'' : ChannelMgr} (h : Still m m') (h' : Still m' m'') : Still m m'' := by
  intro k hk
  obtain ⟨hlive', hs'⟩ := h' k hk
  obtain ⟨hlive, hs⟩ := h k hlive'
  exact ⟨hlive, hs.trans hs'⟩

theorem still_set (h : c.state ≠ .closed → (m.channels i).state ≠ .closed ∧ SameInput (m.channels i) c) :
    Still m (m.set i c) := by
  intro k
  by_cases hki : k = i
  · rw [hki, ChannelMgr.set_same]
    exact h
  · rw [ChannelMgr.set_other m c hki]
    exact Still.refl m k

/-- The effect of a packet the server makes. -/
structure Speaks (m : ChannelMgr) (out : SshBuf) (o : Outcome) : Prop where
  still : Still m o.mgr
  replyKept : ReplyKept out o.out

theorem speaks_id (m : ChannelMgr) (out : SshBuf) (rc : Option SshErr) : Speaks m out ⟨m, out, rc⟩ :=
  ⟨Still.refl m, ReplyKept.refl out⟩

theorem speaks_reply (hm : Still m m') (h : ∀ p ∈ ps, Basic g p) : Speaks m out (reply m' out ps) :=
  ⟨by rw [reply_mgr]; exact hm, reply_out fun p hp => (h p hp).grows⟩

variable (g)

theorem speaks_channelSendData (m : ChannelMgr) (id : Nat) (d : Bytes) (out : SshBuf) :
    Speaks m out (channelSendData g m id d out) := by
  unfold channelSendData
  split
  · exact speaks_id ..
  dsimp only
  split
  · exact speaks_id ..
  split
  · exact speaks_id ..
  · exact speaks_reply (g := g) (still_set fun h => ⟨h, rfl, rfl⟩) (by simp)

theorem speaks_channelSendExitStatus (m : ChannelMgr) (id n : Nat) (out : SshBuf) :
    Speaks m out (channelSendExitStatus g m id n out) := by
  unfold channelSendExitStatus
  split
  · exact speaks_id ..
  · exact speaks_reply (g := g) (still_set fun h => ⟨h, rfl, rfl⟩) (by simp)

theorem speaks_channelSendEof (m : ChannelMgr) (id : Nat) (out : SshBuf) :
    Speaks m out (channelSendEof g m id out) := by
  unfold channelSendEof
  split
  · exact speaks_id ..
  rename_i i hi
  exact speaks_reply (g := g) (still_set fun _ => ⟨(channelLookupLocal_some hi).1, rfl, rfl⟩) (by simp)

theorem speaks_channelSendClose (m : ChannelMgr) (id : Nat) (out : SshBuf) :
    Speaks m out (channelSendClose g m id out) := by
  unfold channelSendClose
  split
  · exact speaks_id ..
  rename_i i hi
  dsimp only
  split
  · exact ⟨Still.refl m, replyKept_closeMsg ‹_›⟩
  have hr := replyKept_closeMsg ‹_›
  split
  · exact ⟨still_set fun h => absurd rfl h, hr⟩
  · exact ⟨still_set fun _ => ⟨(channelLookupLocal_some hi).1, rfl, rfl⟩, hr⟩

theorem bridgeOutbound_still (b : PtyBridge) (io : BridgeIo) (m : ChannelMgr) (i : Slot) (out : SshBuf) :
    Still m (bridgeOutbound g b io m i out).1 ∧ ReplyKept out (bridgeOutbound g b io m i out).2 := by
  have hdone : Still m m ∧ ReplyKept out out := ⟨Still.refl m, ReplyKept.refl out⟩
  obtain ⟨heof, hr⟩ := speaks_channelSendEof g m b.channelId out
  obtain ⟨hclose, hr'⟩ := speaks_channelSendClose g (channelSendEof g m b.channelId out).mgr b.channelId
    (channelSendEof g m b.channelId out).out
  unfold bridgeOutbound
  dsimp only
  split
  · exact hdone
  split
  · exact ⟨heof.trans hclose, hr.trans hr'⟩
  · exact ⟨(speaks_channelSendData ..).still, (speaks_channelSendData ..).replyKept⟩
  split
  · exact ⟨heof.trans hclose, hr.trans hr'⟩
  · exact hdone

/-- What taking bytes out of slot `i` does: another slot keeps its input, and slot `i`
has moved on by what was taken. -/
theorem drain_cases (m : ChannelMgr) (i : Slot) (n : Nat) :
    drain m i n = ([], m) ∨
    (n ≤ sshbufLen (m.channels i).inData ∧
      drain m i n = ((sshbufPtr (m.channels i).inData).take n,
        m.set i { m.channels i with
          inData := { (m.channels i).inData with off := (m.channels i).inData.off + n } })) := by
  unfold drain sshbufConsume
  by_cases h : sshbufLen (m.channels i).inData < n
  · left
    simp only [if_pos h]
  right
  simp only [if_neg h]
  exact ⟨Nat.not_lt.1 h, trivial⟩

/-- The reader took `bs` from the channel: its input has moved on by that much. -/
def Advanced (c c' : Channel) (bs : Bytes) : Prop :=
  ∃ n ≤ sshbufLen c.inData, bs = (sshbufPtr c.inData).take n ∧
    c'.inData = { c.inData with off := c.inData.off + n } ∧ c'.localWindow = c.localWindow

theorem SameInput.advanced {c' : Channel} (h : SameInput c c') : Advanced c c' [] :=
  ⟨0, Nat.zero_le _, by simp, h.1, h.2⟩

theorem drain_advanced (m : ChannelMgr) (i : Slot) (n : Nat) :
    Advanced (m.channels i) ((drain m i n).2.channels i) (drain m i n).1 := by
  rcases drain_cases m i n with h | ⟨hn, h⟩
  · rw [h]
    exact (SameInput.refl _).advanced
  · rw [h]
    exact ⟨n, hn, rfl, by simp, by simp⟩

theorem drain_other (n : Nat) (h : k ≠ i) : (drain m i n).2.channels k = m.channels k := by
  rcases drain_cases m i n with hd | ⟨_, hd⟩
  · rw [hd]
  rw [hd]
  exact ChannelMgr.set_other m _ h

theorem drain_state (m : ChannelMgr) (i k : Slot) (n : Nat) :
    ((drain m i n).2.channels k).state = (m.channels k).state := by
  by_cases hki : k = i
  · subst hki
    rcases drain_cases m k n with h | ⟨_, h⟩
    · rw [h]
    rw [h]
    simp
  · rw [drain_other n hki]

theorem channelReadInbound_advanced (n : Nat) (h : channelLookupLocal m id = some k) :
    Advanced (m.channels k) ((channelReadInbound m id n).2.channels k) (channelReadInbound m id n).1 := by
  unfold channelReadInbound
  split
  · exact (SameInput.refl _).advanced
  rw [h]
  dsimp only
  split
  · exact (SameInput.refl _).advanced
  · exact drain_advanced ..

theorem bridgeReap_still (b : PtyBridge) (io : BridgeIo) (m : ChannelMgr) (out : SshBuf) :
    Still m (bridgeReap g b io m out).2.1 ∧ ReplyKept out (bridgeReap g b io m out).2.2 := by
  unfold bridgeReap
  split
  · exact ⟨(speaks_channelSendExitStatus ..).still, (speaks_channelSendExitStatus ..).replyKept⟩
  · exact ⟨Still.refl m, ReplyKept.refl out⟩

theorem bridgeInbound_spec (b : PtyBridge) (io : BridgeIo) (m : ChannelMgr) (i k : Slot) :
    ((bridgeInbound b io m i).2.channels k).state = (m.channels k).state ∧
      (k = i → Advanced (m.channels k) ((bridgeInbound b io m i).2.channels k) (bridgeInbound b io m i).1) ∧
      (k ≠ i → (bridgeInbound b io m i).2.channels k = m.channels k) := by
  unfold bridgeInbound
  split
  · exact ⟨drain_state m i k _, fun hk => hk ▸ drain_advanced m i _, drain_other _⟩
  · exact ⟨rfl, fun _ => (SameInput.refl _).advanced, fun _ => rfl⟩

/-- The bridge hands channel `id` what its terminal took, and only if it serves that channel. -/
theorem ptyBridgeStep_advanced (b : PtyBridge) (io : BridgeIo) (out : SshBuf)
    (h : channelLookupLocal m id = some k)
    (hlive : ((ptyBridgeStep g b io m out).2.2.1.channels k).state ≠ .closed) :
    Advanced (m.channels k) ((ptyBridgeStep g b io m out).2.2.1.channels k)
        (if b.channelId = id then (ptyBridgeStep g b io m out).2.1 else []) ∧
      ReplyKept out (ptyBridgeStep g b io m out).2.2.2 := by
  obtain ⟨-, hid⟩ := channelLookupLocal_some h
  unfold ptyBridgeStep at hlive ⊢
  split at hlive
  · exact ⟨by simpa using (SameInput.refl _).advanced, ReplyKept.refl out⟩
  rename_i i hi
  obtain ⟨hs1, hr1⟩ := bridgeReap_still g b io m out
  generalize bridgeReap g b io m out = x at hlive hs1 hr1 ⊢
  obtain ⟨b', m1, out1⟩ := x
  dsimp only at hlive hs1 hr1 ⊢
  obtain ⟨hst2, hself, hother⟩ := bridgeInbound_spec b' io m1 i k
  generalize bridgeInbound b' io m1 i = y at hlive hst2 hself hother ⊢
  obtain ⟨taken, m2⟩ := y
  obtain ⟨hs2, hr2⟩ := bridgeOutbound_still g b' io m2 i out1
  refine ⟨?_, hr1.trans hr2⟩
  obtain ⟨hlive2, hlast⟩ := hs2 k hlive
  obtain ⟨-, hin1⟩ := hs1 k (by rwa [hst2] at hlive2)
  by_cases hbid : b.channelId = id
  · have hki : k = i := by
      rw [hbid, h] at hi
      exact Option.some.inj hi
    rw [if_pos hbid]
    obtain ⟨n, hn, ht, hb, hw⟩ := hself hki
    rw [hin1.1] at hn ht hb
    exact ⟨n, hn, ht, hlast.1.trans hb, hlast.2.trans (hw.trans hin1.2)⟩
  have hki : k ≠ i := by
    rintro rfl
    exact hbid ((channelLookupLocal_some hi).2.symm.trans hid)
  rw [if_neg hbid]
  rw [hother hki] at hlast
  exact (hin1.trans hlast).advanced

variable {g}

/-! ## Runs of a channel -/

/-- A session with what has happened on one of its channels. -/
structure Flow where
  mgr : ChannelMgr
  chanReply : SshBuf
  bridge : PtyBridge
  /-- the bytes of the data packets the peer has sent on the channel -/
  received : Bytes
  /-- the bytes handed to the reader -/
  delivered : Bytes
  /-- the initial window and every adjustment sent -/
  advertised : Nat
  /-- whether a data packet came back with an error -/
  refused : Bool

inductive Event
  | packet (g : Grant) (ptype : UInt8) (payload : Bytes)
  | read (maxLen : Nat)
  | bridge (g : Grant) (io : BridgeIo)

/-- The bytes a reply adds to the peer's window. -/
def adjustSent (out : SshBuf) : Nat :=
  match out.data with
  | t :: fields => if t = SSH_MSG_CHANNEL_WINDOW_ADJUST then fromBe (slice fields 4 4) else 0
  | [] => 0

/-- One event, with the reply buffer reset before it as the worker's loop does. -/
def Flow.step (id : Nat) (f : Flow) : Event → Flow
  | .packet g ptype payload =>
    let o := channelProcessPacket g f.mgr ptype payload (sshbufReset f.chanReply)
    match dataFor id ptype payload with
    | some d =>
      { f with mgr := o.mgr, chanReply := o.out, received := f.received ++ d
               advertised := f.advertised + adjustSent o.out, refused := f.refused || o.rc.isSome }
    | none => { f with mgr := o.mgr, chanReply := o.out }
  | .read maxLen =>
    let (bs, mgr) := channelReadInbound f.mgr id maxLen
    { f with mgr, delivered := f.delivered ++ bs }
  | .bridge g io =>
    let (bridge, bs, mgr, chanReply) := ptyBridgeStep g f.bridge io f.mgr (sshbufReset f.chanReply)
    { f with mgr, chanReply, bridge, delivered := f.delivered ++ if f.bridge.channelId = id then bs else [] }

def Flow.run (id : Nat) (f : Flow) (es : List Event) : Flow := es.foldl (Flow.step id) f

@[simp] theorem Flow.run_cons (id : Nat) (f : Flow) (e : Event) (es : List Event) :
    f.run id (e :: es) = (f.step id e).run id es := rfl

@[simp] theorem Flow.received_read (id : Nat) (f : Flow) (n : Nat) : (f.step id (.read n)).received = f.received := rfl

/-- Channel `id` is open in slot `k`, and the peer has not said it is done. -/
def Live (id : Nat) (k : Slot) (m : ChannelMgr) : Prop :=
  channelLookupLocal m id = some k ∧ (m.channels k).state.remoteDone = false

instance (id : Nat) (k : Slot) (m : ChannelMgr) : Decidable (Live id k m) := by
  unfold Live; infer_instance

/-- The peer stays within the window: with this event it has sent no more than advertised. -/
def Within (id : Nat) (f : Flow) : Event → Prop
  | .packet _ ptype payload =>
    ∀ d, dataFor id ptype payload = some d → f.received.length + d.length ≤ f.advertised
  | _ => True

/-- A run of an open channel whose peer stays within the window. -/
def Conforms (id : Nat) (k : Slot) : Flow → List Event → Prop
  | f, [] => Live id k f.mgr
  | f, e :: es => Live id k f.mgr ∧ Within id f e ∧ Conforms id k (f.step id e) es

/-- The bytes of a data packet still fit a buffer that never gives room back: with all
that came before they are at most 64 KiB, and the pool grants the storage they need. -/
def Admits (id : Nat) (k : Slot) (f : Flow) : Event → Prop
  | .packet g ptype payload => ∀ d, dataFor id ptype payload = some d →
    d = [] ∨ (f.received.length + d.length ≤ 64 * 1024 ∧
      ((f.mgr.channels k).inData.alloc < f.received.length + d.length →
        g (newAlloc (f.mgr.channels k).inData (f.received.length + d.length)) = true))
  | _ => True

def AdmitsAll (id : Nat) (k : Slot) : Flow → List Event → Prop
  | _, [] => True
  | f, e :: es => Admits id k f e ∧ AdmitsAll id k (f.step id e) es

/-- Nothing is lost: every data packet was accepted, and what the reader got and what is
waiting for it are together the bytes received. -/
def Kept (k : Slot) (f : Flow) : Prop :=
  f.refused = false ∧ f.received = f.delivered ++ sshbufPtr (f.mgr.channels k).inData

/-- The channel has just been opened. -/
structure Opened (id : Nat) (k : Slot) (f : Flow) : Prop where
  live : Live id k f.mgr
  input : (f.mgr.channels k).inData = ⟨[], 4096, 0, 64 * 1024, false, true⟩
  window : (f.mgr.channels k).localWindow = SSH_CHANNEL_DEFAULT_WINDOW
  advertised : f.advertised = SSH_CHANNEL_DEFAULT_WINDOW
  received : f.received = []
  delivered : f.delivered = []
  accepted : f.refused = false
  replyGrows : Growing f.chanReply
  replyRoom : 512 ≤ f.chanReply.alloc

/-- What holds of a run as long as no data packet was refused. -/
structure Flowing (k : Slot) (f : Flow) : Prop where
  accepted : f.refused = false
  grows : Growing (f.mgr.channels k).inData
  limit : (f.mgr.channels k).inData.maxSize = 64 * 1024
  stored : (f.mgr.channels k).inData.data = f.received
  off_le : (f.mgr.channels k).inData.off ≤ f.received.length
  taken : f.delivered = f.received.take (f.mgr.channels k).inData.off
  window : (f.mgr.channels k).localWindow + f.received.length = f.advertised
  replyGrows : Growing f.chanReply
  replyRoom : 512 ≤ f.chanReply.alloc

variable {f : Flow} {d : Bytes}

theorem Opened.flowing (h : Opened id k f) : Flowing k f where
  accepted := h.accepted
  grows := by rw [h.input]; exact ⟨rfl, rfl, by decide, by decide⟩
  limit := by rw [h.input]
  stored := by rw [h.input, h.received]
  off_le := by rw [h.input]; exact Nat.zero_le _
  taken := by rw [h.delivered, h.received, take_nil]
  window := by rw [h.window, h.received, h.advertised]; rfl
  replyGrows := h.replyGrows
  replyRoom := h.replyRoom

theorem Flowing.kept (h : Flowing k f) : Kept k f := by
  refine ⟨h.accepted, ?_⟩
  rw [h.taken, sshbufPtr, h.stored, take_append_drop]

theorem Flowing.advance {f' : Flow} {bs : Bytes} (h : Flowing k f)
    (ha : Advanced (f.mgr.channels k) (f'.mgr.channels k) bs) (hd : f'.delivered = f.delivered ++ bs)
    (hrec : f'.received = f.received) (hadv : f'.advertised = f.advertised) (href : f'.refused = f.refused)
    (hreply : Growing f'.chanReply ∧ 512 ≤ f'.chanReply.alloc) : Flowing k f' := by
  obtain ⟨n, hn, hbs, hin, hw⟩ := ha
  have hlen : sshbufLen (f.mgr.channels k).inData = f.received.length - (f.mgr.channels k).inData.off := by
    have := h.off_le
    unfold sshbufLen SshBuf.size
    rw [h.stored, if_neg (by omega)]
  have hoff := h.off_le
  rw [hlen] at hn
  constructor
  case accepted => rw [href, h.accepted]
  case grows =>
    rw [hin]
    exact { h.grows with }
  case limit => rw [hin]; exact h.limit
  case stored => rw [hin, hrec]; exact h.stored
  case off_le =>
    rw [hin, hrec]
    show (f.mgr.channels k).inData.off + n ≤ f.received.length
    omega
  case taken =>
    rw [hd, hrec, hin, hbs, h.taken, sshbufPtr, h.stored]
    exact take_add.symm
  case window => rw [hw, hrec, hadv]; exact h.window
  case replyGrows => exact hreply.1
  case replyRoom => exact hreply.2

/-! ## Data packets -/

/-- With a fresh reply buffer the window adjustment always goes out. -/
theorem topUp_fresh (hout : Growing out) (hdata : out.data = []) (hroom : 512 ≤ out.alloc) :
    (topUp g m i c out).rc = none ∧ ((topUp g m i c out).mgr.channels i).inData = c.inData ∧
      ((topUp g m i c out).mgr.channels i).localWindow = c.localWindow + adjustSent (topUp g m i c out).out := by
  unfold topUp
  by_cases hmin : c.localWindow < SSH_CHANNEL_MIN_WINDOW_ADJUST
  · rw [if_pos hmin]
    set adjust := SSH_CHANNEL_DEFAULT_WINDOW - c.localWindow with hadj
    have hput : putSeq [sshbufPutU8 g SSH_MSG_CHANNEL_WINDOW_ADJUST, sshbufPutU32 g c.remoteId,
        sshbufPutU32 g adjust] out =
        (none, out.append (SSH_MSG_CHANNEL_WINDOW_ADJUST :: (be c.remoteId 4 ++ (be adjust 4 ++ [])))) := by
      have hsize : out.size = 0 := by rw [SshBuf.size, hdata]; rfl
      exact putSeq_room (f := [[SSH_MSG_CHANNEL_WINDOW_ADJUST], be c.remoteId 4, be adjust 4]) hout
        (by rw [hsize]; simp; omega)
    have hval : adjustSent (out.append (SSH_MSG_CHANNEL_WINDOW_ADJUST :: (be c.remoteId 4 ++ (be adjust 4 ++ [])))) =
        adjust := by
      unfold adjustSent SshBuf.append
      rw [hdata]
      simp only [nil_append, if_true]
      rw [slice_field (length_be _ _).symm (length_be _ _).symm]
      refine fromBe_be_of_lt ?_
      have : adjust ≤ 64 * 1024 := Nat.sub_le _ _
      omega
    simp only [reply, hput, ChannelMgr.set_same, hval]
    trivial
  · rw [if_neg hmin]
    simp [adjustSent, hdata]

/-- A data packet within the window is accepted exactly when its bytes fit the buffer. -/
theorem takeInbound_cases (hb : Growing (m.channels i).inData)
    (hw : d.length ≤ (m.channels i).localWindow) (hout : Growing out)
    (hdata : out.data = []) (hroom : 512 ≤ out.alloc) :
    let o := takeInbound g m i d out
    ((d = [] ∨ Fits g (m.channels i).inData d.length) ∧ o.rc = none ∧ Growing (o.mgr.channels i).inData ∧
      (o.mgr.channels i).inData.data = (m.channels i).inData.data ++ d ∧
      (o.mgr.channels i).inData.off = (m.channels i).inData.off ∧
      (o.mgr.channels i).inData.maxSize = (m.channels i).inData.maxSize ∧
      (o.mgr.channels i).localWindow + d.length = (m.channels i).localWindow + adjustSent o.out) ∨
    (¬(d = [] ∨ Fits g (m.channels i).inData d.length) ∧ o.rc.isSome = true) := by
  intro o
  have ho : o = takeInbound g m i d out := rfl
  clear_value o
  unfold takeInbound at ho
  simp only [if_neg (Nat.not_lt.2 hw)] at ho
  have hstored : ∀ b', sshbufPutRaw g d (m.channels i).inData = (none, b') →
      o.rc = none ∧ (o.mgr.channels i).inData = b' ∧
        (o.mgr.channels i).localWindow + d.length = (m.channels i).localWindow + adjustSent o.out := by
    intro b' hp
    rw [hp] at ho
    dsimp only at ho
    obtain ⟨hrc, hin, hwin⟩ := topUp_fresh
      hout hdata hroom
    rw [← ho] at hrc hin hwin
    refine ⟨hrc, hin, ?_⟩
    rw [hwin]
    show (m.channels i).localWindow - d.length + adjustSent o.out + d.length = _
    omega
  by_cases hd : d = []
  · left
    have hp : sshbufPutRaw g d (m.channels i).inData = (none, (m.channels i).inData) := by
      rw [hd]
      rfl
    obtain ⟨hrc, hin, hwin⟩ := hstored _ hp
    rw [hin]
    exact ⟨.inl hd, hrc, hb, by rw [hd, append_nil], rfl, rfl, hwin⟩
  have hraw : sshbufPutRaw g d (m.channels i).inData = sshbufPutBytes g d (m.channels i).inData := by
    unfold sshbufPutRaw
    rw [if_neg (by simpa using hd)]
  rcases sshbufPutBytes_growing hb d with ⟨hf, b', hp, hg, hdat, hoff, hmax, -⟩ | ⟨hf, e, hp⟩
  · left
    obtain ⟨hrc, hin, hwin⟩ := hstored b' (hraw.trans hp)
    rw [hin]
    exact ⟨.inr hf, hrc, hg, hdat, hoff, hmax, hwin⟩
  right
  rw [hraw, hp] at ho
  rw [ho]
  exact ⟨fun h => h.elim hd hf, rfl⟩

theorem channelProcessPacket_data (g : Grant) {ptype : UInt8} {payload : Bytes} (out : SshBuf)
    (h : dataFor id ptype payload = some d) (hl : Live id k m) :
    channelProcessPacket g m ptype payload out = takeInbound g m k d out := by
  rcases channelProcessPacket_cases (fun _ => True) g m ptype payload out with ⟨r, d', hd, he⟩ | ⟨hno, -⟩
  · rw [hd, Option.ite_none_right_eq_some] at h
    obtain ⟨rfl, h⟩ := h
    cases h
    simp [he, hl.1, hl.2]
  · rw [hno] at h
    cases h

/-- **One event.** Of a run that has lost nothing, an event loses something exactly when it
is a data packet that does not fit. -/
theorem Flowing.step {e : Event} (h : Flowing k f) (hl : Live id k f.mgr)
    (hl' : Live id k (f.step id e).mgr) (hw : Within id f e) :
    (Admits id k f e → Flowing k (f.step id e)) ∧ (¬Admits id k f e → (f.step id e).refused = true) := by
  have hreset : Growing (sshbufReset f.chanReply) := { h.replyGrows with }
  obtain ⟨hstate', -⟩ := channelLookupLocal_some hl'.1
  obtain ⟨hstate, hid⟩ := channelLookupLocal_some hl.1
  cases e with
  | packet g ptype payload =>
    cases hd : dataFor id ptype payload with
    | none =>
      -- not input for this channel
      have htame := tame_channelProcessPacket g f.mgr (sshbufReset f.chanReply) hd
      simp only [Flow.step, hd] at hstate' ⊢
      have hsame : SameInput (f.mgr.channels k)
          ((channelProcessPacket g f.mgr ptype payload (sshbufReset f.chanReply)).mgr.channels k) := by
        rcases htame.quiet k (fun hne => hne hid) hstate with hz | hs
        · rw [hz] at hstate'
          exact absurd rfl hstate'
        · exact hs
      obtain ⟨hg, ha⟩ := htame.replyKept hreset
      refine ⟨fun _ => ?_, fun hno => absurd (fun d hd' => by rw [hd] at hd'; cases hd') hno⟩
      exact h.advance hsame.advanced (append_nil _).symm rfl rfl rfl ⟨hg, Nat.le_trans h.replyRoom ha⟩
    | some d =>
      have hroom : f.received.length + d.length ≤ f.advertised := hw d hd
      have hwin := h.window
      have hproc := channelProcessPacket_data g (sshbufReset f.chanReply) hd hl
      have hfits : Admits id k f (.packet g ptype payload) ↔
          (d = [] ∨ Fits g (f.mgr.channels k).inData d.length) := by
        simp [Admits, hd, Fits, SshBuf.size, h.stored, h.limit]
      have htame := tame_takeInbound (P := fun _ => True) (i := k) g f.mgr d (sshbufReset f.chanReply) trivial
      obtain ⟨hg, ha⟩ := htame.replyKept hreset
      rw [hfits]
      simp only [Flow.step, hd, hproc]
      rcases takeInbound_cases h.grows (by omega : d.length ≤ (f.mgr.channels k).localWindow) hreset rfl
        h.replyRoom with ⟨hf, hrc, hgr, hdat, hoff, hmax, hwin'⟩ | ⟨hf, hrc⟩
      · refine ⟨fun _ => ?_, fun hno => absurd hf hno⟩
        constructor
        case accepted => simp [h.accepted, hrc]
        case grows => exact hgr
        case limit => exact hmax.trans h.limit
        case stored => rw [hdat, h.stored]
        case off_le =>
          have := h.off_le
          rw [hoff, length_append]
          omega
        case taken =>
          rw [hoff, h.taken, take_append_of_le_length h.off_le]
        case window =>
          dsimp only
          rw [length_append]
          omega
        case replyGrows => exact hg
        case replyRoom => exact Nat.le_trans h.replyRoom ha
      · exact ⟨fun hok => absurd hok hf, fun _ => by simp [hrc]⟩
  | read n =>
    refine ⟨fun _ => ?_, fun hno => absurd trivial hno⟩
    exact h.advance (channelReadInbound_advanced n hl.1) rfl rfl rfl rfl ⟨h.replyGrows, h.replyRoom⟩
  | bridge g io =>
    refine ⟨fun _ => ?_, fun hno => absurd trivial hno⟩
    obtain ⟨hadv, hr⟩ := ptyBridgeStep_advanced g f.bridge io (sshbufReset f.chanReply) hl.1 hstate'
    obtain ⟨hg, ha⟩ := hr hreset
    exact h.advance hadv rfl rfl rfl rfl ⟨hg, Nat.le_trans h.replyRoom ha⟩

theorem refused_step (e : Event) (h : f.refused = true) : (f.step id e).refused = true := by
  cases e with
  | packet g ptype payload =>
    unfold Flow.step
    dsimp only
    split
    · simp [h]
    · exact h
  | read n => exact h
  | bridge g io => exact h

theorem refused_run : ∀ (es : List Event) {f : Flow}, f.refused = true → (f.run id es).refused = true
  | [], _, h => h
  | e :: es, _, h => refused_run es (refused_step e h)

theorem Conforms.live : ∀ {es : List Event}, Conforms id k f es → Live id k f.mgr
  | [], h => h
  | _ :: _, h => h.1

theorem Flowing.run : ∀ {es : List Event} {f : Flow}, Flowing k f → Conforms id k f es →
    (AdmitsAll id k f es → Flowing k (f.run id es)) ∧ (¬AdmitsAll id k f es → (f.run id es).refused = true)
  | [], f, h, _ => ⟨fun _ => h, fun hno => absurd trivial hno⟩
  | e :: es, f, h, hc => by
    obtain ⟨hl, hw, hrest⟩ := hc
    obtain ⟨hok, hbad⟩ := h.step hl hrest.live hw
    by_cases ha : Admits id k f e
    · obtain ⟨hok', hbad'⟩ := (hok ha).run hrest
      exact ⟨fun hall => hok' hall.2, fun hno => hbad' fun hall => hno ⟨ha, hall⟩⟩
    · exact ⟨fun hall => absurd hall.1 ha, fun _ => refused_run es (hbad ha)⟩

/-! ## Opening a channel, and data packets as a peer writes them -/

/-- A `CHANNEL_DATA` payload, from its message type on. -/
def dataPacket (id : Nat) (bs : Bytes) : Bytes :=
  SSH_MSG_CHANNEL_DATA :: (be id 4 ++ (be bs.length 4 ++ bs))

theorem unread_packetBody (t : UInt8) (bs : Bytes) : Unread (packetBody t (t :: bs)) bs := by
  have hbody : packetBody t (t :: bs) = { sshbufInitFrom (t :: bs) with off := 1 } := by
    unfold packetBody sshbufPeekU8
    dsimp only
    rw [if_neg (by rw [(unread_initFrom _).len]; simp)]
    simp [sshbufPtr, sshbufInitFrom]
  rw [hbody]
  exact (unread_initFrom (t :: bs)).skip (a := [t]) rfl

theorem dataFor_dataPacket {bs : Bytes} (hid : id < 2 ^ 32) (hbs : bs.length ≤ SSH_CHANNEL_MIN_WINDOW_ADJUST) :
    dataFor id SSH_MSG_CHANNEL_DATA (dataPacket id bs) = some bs := by
  have hbody := unread_packetBody SSH_MSG_CHANNEL_DATA (be id 4 ++ (be bs.length 4 ++ (bs ++ [])))
  obtain ⟨b1, h1, hb1⟩ := sshbufGetU32_be hbody hid
  obtain ⟨b2, h2, -⟩ := sshbufGetStringPtr_be hb1 (Nat.lt_of_le_of_lt hbs (by decide))
  have hparse : parseData (packetBody SSH_MSG_CHANNEL_DATA (dataPacket id bs)) = .ok (id, bs) := by
    rw [append_nil] at h1
    simp only [parseData, dataPacket, h1, h2, bind, Except.bind, pure, Except.pure]
  have hlen : ¬(dataPacket id bs).length = 0 := by simp [dataPacket]
  simp only [dataFor, if_neg hlen, if_true, hparse]

/-! ## A stream of data -/

theorem Live.set (h : Live id k m)
    (hs : c.state = (m.channels i).state) (hid : c.localId = (m.channels i).localId) : Live id k (m.set i c) := by
  have hall : ∀ j, ((m.set i c).channels j).state = (m.channels j).state ∧
      ((m.set i c).channels j).localId = (m.channels j).localId := by
    intro j
    by_cases hj : j = i
    · rw [hj, ChannelMgr.set_same]
      exact ⟨hs, hid⟩
    · rw [ChannelMgr.set_other m c hj]
      exact ⟨rfl, rfl⟩
  exact ⟨by simpa only [channelLookupLocal, hall] using h.1, by rw [(hall k).1]; exact h.2⟩

theorem live_takeInbound (g : Grant) (d : Bytes) (out : SshBuf) (h : Live id k m) :
    Live id k (takeInbound g m i d out).mgr := by
  unfold takeInbound topUp
  dsimp only
  split
  · exact h
  split
  · exact h.set rfl rfl
  split
  · rw [reply_mgr]
    exact h.set rfl rfl
  · exact h.set rfl rfl

theorem live_channelReadInbound (n : Nat) (h : Live id k m) : Live id k (channelReadInbound m id n).2 := by
  unfold channelReadInbound
  split
  · exact h
  split
  · exact h
  rename_i i _
  dsimp only
  split
  · exact h
  rcases drain_cases m i (min (sshbufLen (m.channels i).inData) n) with hd | ⟨_, hd⟩
  · rw [hd]; exact h
  · rw [hd]; exact h.set rfl rfl

/-- The peer sends `bs`, and the pool grants whatever is asked. -/
def sent (id : Nat) (bs : Bytes) : Event := .packet (fun _ => true) SSH_MSG_CHANNEL_DATA (dataPacket id bs)

/-- A run that has lost nothing, with at least the smallest window left open. -/
structure Streaming (id : Nat) (k : Slot) (f : Flow) : Prop where
  flowing : Flowing k f
  live : Live id k f.mgr
  window : SSH_CHANNEL_MIN_WINDOW_ADJUST ≤ (f.mgr.channels k).localWindow

theorem min_le_topUp : SSH_CHANNEL_MIN_WINDOW_ADJUST ≤ ((topUp g m i c out).mgr.channels i).localWindow := by
  unfold topUp
  by_cases h : c.localWindow < SSH_CHANNEL_MIN_WINDOW_ADJUST
  · simp only [if_pos h, reply_mgr, ChannelMgr.set_same]
    unfold SSH_CHANNEL_MIN_WINDOW_ADJUST SSH_CHANNEL_DEFAULT_WINDOW at *
    omega
  · simp only [if_neg h, ChannelMgr.set_same]
    omega

section Stream

variable {id : Nat} {k : Slot} {f : Flow} {bs : Bytes}

theorem Streaming.read (h : Streaming id k f) (n : Nat) : Streaming id k (f.step id (.read n)) := by
  have hlive : Live id k (f.step id (.read n)).mgr := live_channelReadInbound n h.live
  refine ⟨(h.flowing.step h.live hlive trivial).1 trivial, hlive, ?_⟩
  obtain ⟨_, _, _, _, hw⟩ := channelReadInbound_advanced n h.live.1
  show SSH_CHANNEL_MIN_WINDOW_ADJUST ≤ ((channelReadInbound f.mgr id n).2.channels k).localWindow
  rw [hw]
  exact h.window

variable (hid : id < 2 ^ 32) (hbs : bs.length ≤ SSH_CHANNEL_MIN_WINDOW_ADJUST)
include hid hbs

theorem mgr_sent (h : Live id k f.mgr) :
    (f.step id (sent id bs)).mgr = (takeInbound (fun _ => true) f.mgr k bs (sshbufReset f.chanReply)).mgr ∧
      (f.step id (sent id bs)).received = f.received ++ bs := by
  have hd := dataFor_dataPacket hid hbs
  simp only [Flow.step, sent, hd, channelProcessPacket_data (fun _ => true) (sshbufReset f.chanReply) hd h]
  exact ⟨trivial, trivial⟩

/-- However little the reader drains, a packet of the smallest window always stays within
what was advertised. -/
theorem Streaming.within (h : Streaming id k f) : Within id f (sent id bs) := by
  intro d hd
  rw [dataFor_dataPacket hid hbs] at hd
  cases hd
  have hwin := h.flowing.window
  have hmin := h.window
  omega

theorem Streaming.live_sent (h : Streaming id k f) : Live id k (f.step id (sent id bs)).mgr := by
  rw [(mgr_sent hid hbs h.live).1]
  exact live_takeInbound _ _ _ h.live

theorem Streaming.admits_iff : Admits id k f (sent id bs) ↔ bs = [] ∨ f.received.length + bs.length ≤ 64 * 1024 := by
  simp only [Admits, sent, dataFor_dataPacket hid hbs, Option.some.injEq, forall_eq', imp_true_iff, and_true]

theorem Streaming.sent (h : Streaming id k f) (hroom : f.received.length + bs.length ≤ 64 * 1024) :
    Streaming id k (f.step id (sent id bs)) := by
  have hlive := h.live_sent hid hbs
  have hmin := h.window
  refine ⟨(h.flowing.step h.live hlive (h.within hid hbs)).1 ((Streaming.admits_iff hid hbs).2 (.inr hroom)), hlive, ?_⟩
  rw [(mgr_sent hid hbs h.live).1]
  have hfits : Fits (fun _ => true) (f.mgr.channels k).inData bs.length := by
    refine ⟨?_, fun _ => rfl⟩
    rw [SshBuf.size, h.flowing.stored, h.flowing.limit]
    exact hroom
  unfold takeInbound
  dsimp only
  rw [if_neg (by omega)]
  split
  · rename_i e b' hp
    exfalso
    unfold sshbufPutRaw at hp
    split at hp
    · cases hp
    rcases sshbufPutBytes_growing h.flowing.grows bs with ⟨_, b', hp', _⟩ | ⟨hf, _⟩
    · rw [hp'] at hp
      cases hp
    · exact hf hfits
  · exact min_le_topUp

end Stream

/-- `n` rounds of the packet `bs` and a read that drains it, then one more byte. -/
def rounds (id : Nat) (bs : Bytes) : Nat → List Event
  | 0 => [sent id [0]]
  | n + 1 => sent id bs :: .read (64 * 1024) :: rounds id bs n

theorem rounds_lost {bs : Bytes} (hid : id < 2 ^ 32)
    (hlen : bs.length = SSH_CHANNEL_MIN_WINDOW_ADJUST) : ∀ {n : Nat} {f : Flow}, Streaming id k f →
    f.received.length + n * SSH_CHANNEL_MIN_WINDOW_ADJUST = 64 * 1024 →
    Conforms id k f (rounds id bs n) ∧ (f.run id (rounds id bs n)).refused = true
  | 0, f, h, hn => by
    have hbs : ([0] : Bytes).length ≤ SSH_CHANNEL_MIN_WINDOW_ADJUST := by decide
    have hlive := h.live_sent hid hbs
    have hno : ¬Admits id k f (sent id [0]) := by
      rw [Streaming.admits_iff hid hbs]
      simp only [cons_ne_nil, false_or, length_singleton]
      omega
    exact ⟨⟨h.live, h.within hid hbs, hlive⟩, (h.flowing.step h.live hlive (h.within hid hbs)).2 hno⟩
  | n + 1, f, h, hn => by
    have hbs := Nat.le_of_eq hlen
    rw [Nat.add_mul] at hn
    have hsent := h.sent hid hbs (by omega)
    have hread := hsent.read (64 * 1024)
    have hrec : ((f.step id (sent id bs)).step id (.read (64 * 1024))).received.length =
        f.received.length + SSH_CHANNEL_MIN_WINDOW_ADJUST := by
      rw [Flow.received_read, (mgr_sent hid hbs h.live).2, length_append, hlen]
    obtain ⟨hc, hrun⟩ := rounds_lost hid hlen hread (n := n) (by omega)
    have hwithin := h.within hid hbs
    have hlive := hsent.live
    rw [rounds]
    refine ⟨?_, ?_⟩
    · simp only [Conforms, Within, true_and]
      exact ⟨h.live, hwithin, hlive, hc⟩
    · rw [Flow.run_cons, Flow.run_cons]
      exact hrun

/-- A session in which channel 0 has just been opened. -/
def firstChannel : Flow where
  mgr := channelMgrInit.set 0
    { openedChannel channelMgrInit ⟨ascii "session", 0, 64 * 1024, 32768⟩ with
      inData := ⟨[], 4096, 0, 64 * 1024, false, true⟩ }
  chanReply := ⟨[], 512, 0, 16384, false, true⟩
  bridge := ⟨0, false, false, false, 0⟩
  received := []
  delivered := []
  advertised := SSH_CHANNEL_DEFAULT_WINDOW
  refused := false

theorem opened_firstChannel : Opened 0 0 firstChannel where
  live := by decide
  input := rfl
  window := rfl
  advertised := rfl
  received := rfl
  delivered := rfl
  accepted := rfl
  replyGrows := ⟨rfl, rfl, by decide, by decide⟩
  replyRoom := by decide

theorem streaming_firstChannel : Streaming 0 0 firstChannel :=
  ⟨opened_firstChannel.flowing, opened_firstChannel.live, by decide⟩

/-- **Channel input.** In every run of a channel whose peer keeps to the advertised window,
from the moment it is opened, nothing is lost exactly when each data packet fits into what
is left of 64 KiB for the whole life of the channel, and the pool grants the storage. -/
theorem channel_input_kept {id : Nat} {k : Slot} {f : Flow} {es : List Event} (h : Opened id k f)
    (hc : Conforms id k f es) : Kept k (f.run id es) ↔ AdmitsAll id k f es := by
  obtain ⟨hok, hbad⟩ := h.flowing.run hc
  constructor
  · intro hk
    by_contra hno
    have := hbad hno
    rw [hk.1] at this
    cases this
  · intro hall
    exact (hok hall).kept

theorem channel_input_kept_hello :
    Opened 0 0 firstChannel ∧ Conforms 0 0 firstChannel [sent 0 [104, 105], .read 64] ∧
      (Kept 0 (firstChannel.run 0 [sent 0 [104, 105], .read 64]) ↔
        AdmitsAll 0 0 firstChannel [sent 0 [104, 105], .read 64]) := by
  have hbs : ([104, 105] : Bytes).length ≤ SSH_CHANNEL_MIN_WINDOW_ADJUST := by decide
  have hsent := streaming_firstChannel.sent (by decide) hbs (by decide)
  have hc : Conforms 0 0 firstChannel [sent 0 [104, 105], .read 64] :=
    ⟨opened_firstChannel.live, streaming_firstChannel.within (by decide) hbs, hsent.live, trivial,
      (hsent.read 64).live⟩
  exact ⟨opened_firstChannel, hc, channel_input_kept opened_firstChannel hc⟩

/-- A peer that never exceeds its window, a reader that drains every byte at once, memory
for the asking: the byte after the first 64 KiB is refused. -/
theorem channel_input_lost :
    Opened 0 0 firstChannel ∧ Conforms 0 0 firstChannel (rounds 0 (List.replicate 16384 0) 4) ∧
      ¬Kept 0 (firstChannel.run 0 (rounds 0 (List.replicate 16384 0) 4)) := by
  have hlen : (replicate 16384 (0 : UInt8)).length = SSH_CHANNEL_MIN_WINDOW_ADJUST := length_replicate
  obtain ⟨hc, hrun⟩ := rounds_lost (n := 4) (by decide) hlen streaming_firstChannel (by decide)
  refine ⟨opened_firstChannel, hc, fun hk => ?_⟩
  rw [hk.1] at hrun
  cases hrun

end Fortress.Sshd
