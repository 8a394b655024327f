/-
Session channels of the SSH daemon (channel.c), and the bridge that carries
them to a terminal (pty_bridge.c).

A channel keeps two windows: `localWindow` is what the peer may still send,
`remoteWindow` what it lets us send. Each handler returns the manager, the
reply buffer and the code as the C function leaves them; a handler that fails
late has already changed the channel.
-/
import Fortress.Sshd.Buf

namespace Fortress.Sshd

open Codec

abbrev SSH_CHANNEL_MAX_CHANNELS : Nat := 4
def SSH_CHANNEL_DEFAULT_WINDOW : Nat := 64 * 1024
def SSH_CHANNEL_DEFAULT_MAXPACKET : Nat := 32768
def SSH_CHANNEL_MIN_WINDOW_ADJUST : Nat := 16384

def SSH_OPEN_UNKNOWN_CHANNEL_TYPE : Nat := 3
def SSH_OPEN_RESOURCE_SHORTAGE : Nat := 4

def SSH_MSG_GLOBAL_REQUEST : UInt8 := 80
def SSH_MSG_REQUEST_FAILURE : UInt8 := 82
def SSH_MSG_CHANNEL_OPEN : UInt8 := 90
def SSH_MSG_CHANNEL_OPEN_CONFIRMATION : UInt8 := 91
def SSH_MSG_CHANNEL_OPEN_FAILURE : UInt8 := 92
def SSH_MSG_CHANNEL_WINDOW_ADJUST : UInt8 := 93
def SSH_MSG_CHANNEL_DATA : UInt8 := 94
def SSH_MSG_CHANNEL_EXTENDED_DATA : UInt8 := 95
def SSH_MSG_CHANNEL_EOF : UInt8 := 96
def SSH_MSG_CHANNEL_CLOSE : UInt8 := 97
def SSH_MSG_CHANNEL_REQUEST : UInt8 := 98
def SSH_MSG_CHANNEL_SUCCESS : UInt8 := 99
def SSH_MSG_CHANNEL_FAILURE : UInt8 := 100

inductive ChannelState
  | closed
  | opened
  | eofLocal
  | eofRemote
  | eofBoth
  | closeSent
  | closeRcvd
  deriving DecidableEq, Repr

structure PtyParams where
  term : Bytes
  cols : Nat
  rows : Nat
  widthPx : Nat
  heightPx : Nat
  modes : Bytes
  deriving DecidableEq, Repr

structure Channel where
  localId : Nat
  remoteId : Nat
  state : ChannelState
  localWindow : Nat
  localMaxpacket : Nat
  remoteWindow : Nat
  remoteMaxpacket : Nat
  ptyRequested : Bool
  ptyParams : PtyParams
  shellRequested : Bool
  execRequested : Bool
  execCmd : Bytes
  inData : SshBuf
  exitStatusSent : Bool
  exitStatus : Nat
  deriving DecidableEq, Repr

/-- A channel slot after `memset`. -/
def Channel.zero : Channel where
  localId := 0
  remoteId := 0
  state := .closed
  localWindow := 0
  localMaxpacket := 0
  remoteWindow := 0
  remoteMaxpacket := 0
  ptyRequested := false
  ptyParams := ⟨[], 0, 0, 0, 0, []⟩
  shellRequested := false
  execRequested := false
  execCmd := []
  inData := SshBuf.zero
  exitStatusSent := false
  exitStatus := 0

abbrev Slot := Fin SSH_CHANNEL_MAX_CHANNELS

structure ChannelMgr where
  channels : Slot → Channel
  nextLocalId : Nat

def channelMgrInit : ChannelMgr := ⟨fun _ => Channel.zero, 0⟩

variable (m : ChannelMgr)

def ChannelMgr.set (i : Slot) (c : Channel) : ChannelMgr :=
  { m with channels := Function.update m.channels i c }

def channelLookupLocal (localId : Nat) : Option Slot :=
  (List.finRange SSH_CHANNEL_MAX_CHANNELS).find? fun i =>
    (m.channels i).state != .closed && (m.channels i).localId == localId

def channelAlloc : Option Slot :=
  (List.finRange SSH_CHANNEL_MAX_CHANNELS).find? fun i => (m.channels i).state == .closed

/-- What a handler leaves behind; `rc = none` is success. -/
structure Outcome where
  mgr : ChannelMgr
  out : SshBuf
  rc : Option SshErr

/-- Writes a reply; any failing put becomes `SSH_ERR_NO_MEM`. -/
def reply (out : SshBuf) (ps : List Put) : Outcome :=
  match putSeq ps out with
  | (none, out) => ⟨m, out, none⟩
  | (some _, out) => ⟨m, out, some .noMem⟩

/-! ## Handlers -/

variable (g : Grant) (m : ChannelMgr)

def sendOpenFailure (remoteId reason : Nat) (desc : String) (out : SshBuf) : Outcome :=
  reply m out [sshbufPutU8 g SSH_MSG_CHANNEL_OPEN_FAILURE, sshbufPutU32 g remoteId, sshbufPutU32 g reason,
    sshbufPutString g (ascii desc), sshbufPutString g []]

structure OpenMsg where
  ctype : Bytes
  senderChannel : Nat
  initialWindow : Nat
  maxPacket : Nat

def parseOpen (b : SshBuf) : Except SshErr OpenMsg := do
  let (ctype, b) ← sshbufGetStringPtr b
  let (senderChannel, b) ← sshbufGetU32 b
  let (initialWindow, b) ← sshbufGetU32 b
  let (maxPacket, _) ← sshbufGetU32 b
  return ⟨ctype, senderChannel, initialWindow, maxPacket⟩

/-- The channel `handle_channel_open` fills in, its input buffer aside. -/
def openedChannel (m : ChannelMgr) (o : OpenMsg) : Channel :=
  { Channel.zero with
    localId := m.nextLocalId
    remoteId := o.senderChannel
    state := .opened
    remoteWindow := o.initialWindow
    remoteMaxpacket := if o.maxPacket = 0 then SSH_CHANNEL_DEFAULT_MAXPACKET else o.maxPacket
    localWindow := SSH_CHANNEL_DEFAULT_WINDOW
    localMaxpacket := SSH_CHANNEL_DEFAULT_MAXPACKET }

variable (b out : SshBuf)

def handleChannelOpen : Outcome :=
  match parseOpen b with
  | .error _ => ⟨m, out, some .invalidFormat⟩
  | .ok o =>
    if o.ctype ≠ ascii "session" then
      sendOpenFailure g m o.senderChannel SSH_OPEN_UNKNOWN_CHANNEL_TYPE "Unsupported channel type" out
    else match channelAlloc m with
    | none =>
      sendOpenFailure g m o.senderChannel SSH_OPEN_RESOURCE_SHORTAGE "Channel capacity exceeded" out
    | some i =>
      let c := openedChannel m o
      let m := { m with nextLocalId := (m.nextLocalId + 1) % 2 ^ 32 }
      match sshbufInit g 4096 (64 * 1024) with
      | .error _ =>
        sendOpenFailure g (m.set i { c with state := .closed }) o.senderChannel
          SSH_OPEN_RESOURCE_SHORTAGE "Buffer allocation failure" out
      | .ok inData =>
        reply (m.set i { c with inData }) out
          [sshbufPutU8 g SSH_MSG_CHANNEL_OPEN_CONFIRMATION, sshbufPutU32 g c.remoteId, sshbufPutU32 g c.localId,
            sshbufPutU32 g c.localWindow, sshbufPutU32 g c.localMaxpacket]

def parseWindowAdjust (b : SshBuf) : Except SshErr (Nat × Nat) := do
  let (recipient, b) ← sshbufGetU32 b
  let (bytesToAdd, _) ← sshbufGetU32 b
  return (recipient, bytesToAdd)

def handleWindowAdjust (m : ChannelMgr) (b out : SshBuf) : Outcome :=
  match parseWindowAdjust b with
  | .error _ => ⟨m, out, some .invalidFormat⟩
  | .ok (recipient, bytesToAdd) =>
    match channelLookupLocal m recipient with
    | none => ⟨m, out, none⟩
    | some i =>
      let c := m.channels i
      let sum := (c.remoteWindow + bytesToAdd) % 2 ^ 32
      if sum < c.remoteWindow then ⟨m, out, some .protocolViolation⟩
      else ⟨m.set i { c with remoteWindow := sum }, out, none⟩

/-- The reply that tops the window up, sent when little of it is left. -/
def topUp (i : Slot) (c : Channel) (out : SshBuf) : Outcome :=
  if c.localWindow < SSH_CHANNEL_MIN_WINDOW_ADJUST then
    let adjust := SSH_CHANNEL_DEFAULT_WINDOW - c.localWindow
    reply (m.set i { c with localWindow := c.localWindow + adjust }) out
      [sshbufPutU8 g SSH_MSG_CHANNEL_WINDOW_ADJUST, sshbufPutU32 g c.remoteId, sshbufPutU32 g adjust]
  else ⟨m.set i c, out, none⟩

/-- The part the two data handlers share: the window is charged first, then the bytes are
stored, and a store that fails returns at once. -/
def takeInbound (i : Slot) (data : Bytes) (out : SshBuf) : Outcome :=
  let c := m.channels i
  if c.localWindow < data.length then ⟨m, out, some .protocolViolation⟩
  else
    let c := { c with localWindow := c.localWindow - data.length }
    match sshbufPutRaw g data c.inData with
    | (some e, inData) => ⟨m.set i { c with inData }, out, some e⟩
    | (none, inData) => topUp g m i { c with inData } out

def parseData (b : SshBuf) : Except SshErr (Nat × Bytes) := do
  let (recipient, b) ← sshbufGetU32 b
  let (data, _) ← sshbufGetStringPtr b
  return (recipient, data)

/-- The states in which the peer has said it sends nothing more. -/
def ChannelState.remoteDone : ChannelState → Bool
  | .eofRemote | .eofBoth | .closeRcvd => true
  | _ => false

def handleChannelData : Outcome :=
  match parseData b with
  | .error _ => ⟨m, out, some .invalidFormat⟩
  | .ok (recipient, data) =>
    match channelLookupLocal m recipient with
    | none => ⟨m, out, some .invalidArg⟩
    | some i =>
      if (m.channels i).state.remoteDone then ⟨m, out, some .protocolViolation⟩
      else takeInbound g m i data out

def parseExtendedData (b : SshBuf) : Except SshErr (Nat × Bytes) := do
  let (recipient, b) ← sshbufGetU32 b
  let (_typeCode, b) ← sshbufGetU32 b
  let (data, _) ← sshbufGetStringPtr b
  return (recipient, data)

/-- Unlike `handleChannelData` this does not ask whether the peer has sent EOF. -/
def handleChannelExtendedData : Outcome :=
  match parseExtendedData b with
  | .error _ => ⟨m, out, some .invalidFormat⟩
  | .ok (recipient, data) =>
    match channelLookupLocal m recipient with
    | none => ⟨m, out, some .invalidArg⟩
    | some i => takeInbound g m i data out

def eofFromRemote : ChannelState → ChannelState
  | .opened => .eofRemote
  | .eofLocal => .eofBoth
  | s => s

def handleChannelEof (m : ChannelMgr) (b out : SshBuf) : Outcome :=
  match sshbufGetU32 b with
  | .error _ => ⟨m, out, some .invalidFormat⟩
  | .ok (recipient, _) =>
    match channelLookupLocal m recipient with
    | none => ⟨m, out, none⟩
    | some i =>
      let c := m.channels i
      ⟨m.set i { c with state := eofFromRemote c.state }, out, none⟩

def handleChannelClose : Outcome :=
  match sshbufGetU32 b with
  | .error _ => ⟨m, out, some .invalidFormat⟩
  | .ok (recipient, _) =>
    match channelLookupLocal m recipient with
    | none => ⟨m, out, none⟩
    | some i =>
      let c := m.channels i
      if c.state = .closeSent then ⟨m.set i Channel.zero, out, none⟩
      else match putSeq [sshbufPutU8 g SSH_MSG_CHANNEL_CLOSE, sshbufPutU32 g c.remoteId] out with
        | (some _, out) => ⟨m, out, some .noMem⟩
        | (none, out) => ⟨m.set i Channel.zero, out, none⟩

/-- A `pty-req`, once parsed; modes that do not fit the record leave the old ones. -/
def parsePtyReq (p : PtyParams) (b : SshBuf) : Except SshErr PtyParams := do
  let (term, b) ← sshbufGetStringPtr b
  let (cols, b) ← sshbufGetU32 b
  let (rows, b) ← sshbufGetU32 b
  let (widthPx, b) ← sshbufGetU32 b
  let (heightPx, b) ← sshbufGetU32 b
  let (modes, _) ← sshbufGetStringPtr b
  return { term := clip 64 term, cols, rows, widthPx, heightPx,
           modes := if modes.length ≤ 256 then modes else p.modes }

def parseWindowChange (p : PtyParams) (b : SshBuf) : Except SshErr PtyParams := do
  let (cols, b) ← sshbufGetU32 b
  let (rows, b) ← sshbufGetU32 b
  let (widthPx, b) ← sshbufGetU32 b
  let (heightPx, _) ← sshbufGetU32 b
  return { p with cols, rows, widthPx, heightPx }

def parseEnv (b : SshBuf) : Except SshErr Unit := do
  let (_, b) ← sshbufGetStringPtr b
  let _ ← sshbufGetStringPtr b
  return ()

/-- What a channel request does to its channel, and whether it is accepted. -/
def applyRequest (rtype : Bytes) (c : Channel) (b : SshBuf) : Channel × Bool :=
  if rtype = ascii "pty-req" then
    match parsePtyReq c.ptyParams b with
    | .ok p => ({ c with ptyRequested := true, ptyParams := p }, true)
    | .error _ => (c, false)
  else if rtype = ascii "shell" then ({ c with shellRequested := true }, true)
  else if rtype = ascii "exec" then
    match sshbufGetStringPtr b with
    | .ok (cmd, _) => ({ c with execRequested := true, execCmd := clip 512 cmd }, true)
    | .error _ => (c, false)
  else if rtype = ascii "window-change" then
    match parseWindowChange c.ptyParams b with
    | .ok p => ({ c with ptyParams := p }, true)
    | .error _ => (c, false)
  else if rtype = ascii "env" then (c, (parseEnv b).isOk)
  else (c, false)

structure RequestMsg where
  recipient : Nat
  rtype : Bytes
  wantReply : UInt8
  rest : SshBuf

def parseRequest (b : SshBuf) : Except SshErr RequestMsg := do
  let (recipient, b) ← sshbufGetU32 b
  let (rtype, b) ← sshbufGetStringPtr b
  let (wantReply, rest) ← sshbufGetU8 b
  return ⟨recipient, rtype, wantReply, rest⟩

def handleChannelRequest : Outcome :=
  match parseRequest b with
  | .error _ => ⟨m, out, some .invalidFormat⟩
  | .ok r =>
    match channelLookupLocal m r.recipient with
    | none =>
      if r.wantReply ≠ 0 then
        reply m out [sshbufPutU8 g SSH_MSG_CHANNEL_FAILURE, sshbufPutU32 g r.recipient]
      else ⟨m, out, none⟩
    | some i =>
      let (c, accepted) := applyRequest r.rtype (m.channels i) r.rest
      let resp := if accepted then SSH_MSG_CHANNEL_SUCCESS else SSH_MSG_CHANNEL_FAILURE
      if r.wantReply ≠ 0 then reply (m.set i c) out [sshbufPutU8 g resp, sshbufPutU32 g c.remoteId]
      else ⟨m.set i c, out, none⟩

def parseGlobalRequest (b : SshBuf) : Except SshErr UInt8 := do
  let (_, b) ← sshbufGetStringPtr b
  let (wantReply, _) ← sshbufGetU8 b
  return wantReply

def handleGlobalRequest : Outcome :=
  match parseGlobalRequest b with
  | .error _ => ⟨m, out, some .invalidFormat⟩
  | .ok wantReply =>
    if wantReply ≠ 0 then reply m out [sshbufPutU8 g SSH_MSG_REQUEST_FAILURE] else ⟨m, out, none⟩

/-- The payload as the handlers read it, without a leading message type. -/
def packetBody (ptype : UInt8) (payload : Bytes) : SshBuf :=
  let b := sshbufInitFrom payload
  match sshbufPeekU8 b with
  | .ok p => if p = ptype then { b with off := 1 } else b
  | .error _ => b

def channelProcessPacket (ptype : UInt8) (payload : Bytes) (out : SshBuf) : Outcome :=
  if payload.length = 0 then ⟨m, out, some .invalidArg⟩
  else
    let b := packetBody ptype payload
    if ptype = SSH_MSG_CHANNEL_OPEN then handleChannelOpen g m b out
    else if ptype = SSH_MSG_CHANNEL_WINDOW_ADJUST then handleWindowAdjust m b out
    else if ptype = SSH_MSG_CHANNEL_DATA then handleChannelData g m b out
    else if ptype = SSH_MSG_CHANNEL_EXTENDED_DATA then handleChannelExtendedData g m b out
    else if ptype = SSH_MSG_CHANNEL_EOF then handleChannelEof m b out
    else if ptype = SSH_MSG_CHANNEL_CLOSE then handleChannelClose g m b out
    else if ptype = SSH_MSG_CHANNEL_REQUEST then handleChannelRequest g m b out
    else if ptype = SSH_MSG_GLOBAL_REQUEST then handleGlobalRequest g m b out
    else if ptype = SSH_MSG_CHANNEL_OPEN_CONFIRMATION ∨ ptype = SSH_MSG_CHANNEL_OPEN_FAILURE ∨
        ptype = SSH_MSG_CHANNEL_SUCCESS ∨ ptype = SSH_MSG_CHANNEL_FAILURE then ⟨m, out, none⟩
    else ⟨m, out, some .invalidArg⟩

/-! ## What the server does -/

def mayWrite (c : Channel) : Bool := c.state == .opened || c.state == .eofRemote

/-- `channel_send_data` and `channel_send_stderr`: the fields before the bytes differ. -/
def channelSendData (localId : Nat) (data : Bytes) (out : SshBuf) : Outcome :=
  match channelLookupLocal m localId with
  | none => ⟨m, out, some .invalidArg⟩
  | some i =>
    let c := m.channels i
    if mayWrite c = false then ⟨m, out, some .invalidFormat⟩
    else if c.remoteWindow = 0 then ⟨m, out, none⟩
    else
      let toSend := min data.length (min c.remoteWindow c.remoteMaxpacket)
      reply (m.set i { c with remoteWindow := c.remoteWindow - toSend }) out
        [sshbufPutU8 g SSH_MSG_CHANNEL_DATA, sshbufPutU32 g c.remoteId, sshbufPutString g (data.take toSend)]

def channelSendExitStatus (localId status : Nat) (out : SshBuf) : Outcome :=
  match channelLookupLocal m localId with
  | none => ⟨m, out, some .invalidArg⟩
  | some i =>
    let c := m.channels i
    reply (m.set i { c with exitStatusSent := true, exitStatus := status }) out
      [sshbufPutU8 g SSH_MSG_CHANNEL_REQUEST, sshbufPutU32 g c.remoteId, sshbufPutString g (ascii "exit-status"),
        sshbufPutU8 g 0, sshbufPutU32 g status]

def eofFromLocal : ChannelState → ChannelState
  | .opened => .eofLocal
  | .eofRemote => .eofBoth
  | s => s

def channelSendEof (localId : Nat) (out : SshBuf) : Outcome :=
  match channelLookupLocal m localId with
  | none => ⟨m, out, some .invalidArg⟩
  | some i =>
    let c := m.channels i
    reply (m.set i { c with state := eofFromLocal c.state }) out
      [sshbufPutU8 g SSH_MSG_CHANNEL_EOF, sshbufPutU32 g c.remoteId]

def channelSendClose (localId : Nat) (out : SshBuf) : Outcome :=
  match channelLookupLocal m localId with
  | none => ⟨m, out, some .invalidArg⟩
  | some i =>
    let c := m.channels i
    match putSeq [sshbufPutU8 g SSH_MSG_CHANNEL_CLOSE, sshbufPutU32 g c.remoteId] out with
    | (some _, out) => ⟨m, out, some .noMem⟩
    | (none, out) =>
      if c.state = .closeRcvd then ⟨m.set i Channel.zero, out, none⟩
      else ⟨m.set i { c with state := .closeSent }, out, none⟩

/-- Takes the first `n` waiting bytes of a channel; a refused consume takes none. -/
def drain (m : ChannelMgr) (i : Slot) (n : Nat) : Bytes × ChannelMgr :=
  let c := m.channels i
  match sshbufConsume c.inData n with
  | .error _ => ([], m)
  | .ok inData => ((sshbufPtr c.inData).take n, m.set i { c with inData })

/-- The bytes `channel_read_inbound` copies out, and the manager after it. -/
def channelReadInbound (m : ChannelMgr) (localId maxLen : Nat) : Bytes × ChannelMgr :=
  if maxLen = 0 then ([], m)
  else match channelLookupLocal m localId with
  | none => ([], m)
  | some i =>
    let avail := sshbufLen (m.channels i).inData
    if avail = 0 then ([], m) else drain m i (min avail maxLen)

structure PtyBridge where
  channelId : Nat
  masterOpen : Bool
  childRunning : Bool
  childExited : Bool
  exitStatus : Nat
  deriving DecidableEq, Repr

/-- What the kernel answers the calls of one `pty_bridge_step`: the child's status if it
was reaped, how many bytes the terminal took (0 for an error too), and what a read of it
gave (`none` for an error). -/
structure BridgeIo where
  waited : Option Nat
  written : Nat
  read : Option Bytes

/-- The first part of `pty_bridge_step`: a child that has exited is reported once. -/
def bridgeReap (b : PtyBridge) (io : BridgeIo) (m : ChannelMgr) (out : SshBuf) :
    PtyBridge × ChannelMgr × SshBuf :=
  match b.childRunning && !b.childExited, io.waited with
  | true, some status =>
    let o := channelSendExitStatus g m b.channelId status out
    ({ b with childRunning := false, childExited := true, exitStatus := status }, o.mgr, o.out)
  | _, _ => (b, m, out)

/-- The inbound half: waiting bytes go to the terminal, as many as it takes. -/
def bridgeInbound (b : PtyBridge) (io : BridgeIo) (m : ChannelMgr) (i : Slot) : Bytes × ChannelMgr :=
  if b.masterOpen = true ∧ 0 < sshbufLen (m.channels i).inData ∧ 0 < io.written then drain m i io.written
  else ([], m)

/-- The outbound half: terminal output becomes channel data, and the
end of it closes the channel. -/
def bridgeOutbound (b : PtyBridge) (io : BridgeIo) (m : ChannelMgr) (i : Slot) (out : SshBuf) :
    ChannelMgr × SshBuf :=
  let c := m.channels i
  if b.masterOpen = false ∨ mayWrite c = false ∨ c.remoteWindow = 0 then (m, out)
  else
    let maxRead := min 4096 (min c.remoteWindow c.remoteMaxpacket)
    let finish : ChannelMgr × SshBuf :=
      let o := channelSendEof g m b.channelId out
      let o := channelSendClose g o.mgr b.channelId o.out
      (o.mgr, o.out)
    match io.read with
    | some [] => finish
    | some bs =>
      let o := channelSendData g m b.channelId (bs.take maxRead) out
      (o.mgr, o.out)
    | none => if b.childExited then finish else (m, out)

/-- One `pty_bridge_step`: the bridge, the bytes the terminal took, the manager and the
packets to send. -/
def ptyBridgeStep (b : PtyBridge) (io : BridgeIo) (m : ChannelMgr) (out : SshBuf) :
    PtyBridge × Bytes × ChannelMgr × SshBuf :=
  match channelLookupLocal m b.channelId with
  | none => (b, [], m, out)
  | some i =>
    let (b, m, out) := bridgeReap g b io m out
    let (taken, m) := bridgeInbound b io m i
    let (m, out) := bridgeOutbound g b io m i out
    (b, taken, m, out)

end Fortress.Sshd
