import BeastWebsocket.Session.Common
import BeastWebsocket.Transition.System

/-! # The client session, `session<false>`

The handler of a write is bound to the value of `next_read` that `do_write` was called
with. While `on_handshake` or `on_read` waits for its callback, `nextRead` is the local
variable that the callback may set.
-/
namespace BeastWebsocket

structure Client extends Session Bool where
  handshaked : Bool := false
  resUpgrade : Bytes := []
  nextRead : Bool := true
deriving DecidableEq

namespace Client

inductive Call where
  | doHandshake
  | append (b : Bytes)
  | setAutoFrame
  | setTextFrame
  | setBinaryFrame
  | doPing (payload : Bytes)
  | doPong (payload : Bytes)
  | doClose (reason : CloseReason)
  | doRead
  | doWrite (nextRead : Bool)
deriving DecidableEq

inductive Event where
  | call (c : Call)
  | setNextRead (b : Bool)
  | handshakeDone (ec : ErrorCode) (response : Bytes)
  | readDone (ec : ErrorCode) (chunk : Bytes) (text : Bool)
  | writeDone (i : ℕ) (ec : ErrorCode)
  | pingDone (ec : ErrorCode)
  | pongDone (ec : ErrorCode)
  | closeDone (ec : ErrorCode)
  | control (kind : FrameType) (payload : Bytes)
  | resume
deriving DecidableEq

def io (f : Session Bool → Session Bool) (s : Client) : Client :=
  { s with toSession := f s.toSession }

@[simp] theorem io_toSession (f : Session Bool → Session Bool) (s : Client) :
    (s.io f).toSession = f s.toSession := rfl

def doHandshake (cb : Callbacks) (s : Client) : Client :=
  if s.handshaked then s
  else (s.io Session.setControlCallback).io (Session.asyncHandshake cb.decorator)

/-- An operation that waits for no other is initiated once the handshake is done. -/
def operate (f : Session Bool → Session Bool) (s : Client) : Client :=
  if !s.handshaked then s else s.io f

def doPing (payload : Bytes) (s : Client) : Client := s.operate (Session.asyncPing payload)

def doPong (payload : Bytes) (s : Client) : Client := s.operate (Session.asyncPong payload)

def doClose (reason : CloseReason) (s : Client) : Client := s.operate (Session.asyncClose reason)

def doRead (s : Client) : Client :=
  if !s.handshaked || !s.readable then s else s.io Session.startRead

def doWrite (nextRead : Bool) (s : Client) : Client :=
  if !s.handshaked then s else s.io (Session.asyncWrite nextRead)

def call (cb : Callbacks) : Call → Client → Client
  | .doHandshake => doHandshake cb
  | .append b => io (Session.append b)
  | .setAutoFrame => io Session.setAutoFrame
  | .setTextFrame => io Session.setTextFrame
  | .setBinaryFrame => io Session.setBinaryFrame
  | .doPing payload => doPing payload
  | .doPong payload => doPong payload
  | .doClose reason => doClose reason
  | .doRead => doRead
  | .doWrite nextRead => doWrite nextRead

def onHandshake (cb : Callbacks) (ec : ErrorCode) (s : Client) : Client :=
  if ec.failed then s.io (Session.fail ec "handshake")
  else { s with handshaked := true, nextRead := true }.io
    (Session.enterOpening cb (.handshake s.resUpgrade))

/-- The end of `on_handshake` and of `on_read`. -/
def writeOut (s : Client) : Client :=
  if 0 < s.outputBuffer.length then s.doWrite s.nextRead else s

def onHandshakeRest (s : Client) : Client := { s with resUpgrade := [] }.writeOut

def onPing (ec : ErrorCode) (s : Client) : Client := s.io (Session.report "ping" ec)

def onPong (ec : ErrorCode) (s : Client) : Client := s.io (Session.report "pong" ec)

def onClose (ec : ErrorCode) (s : Client) : Client :=
  if ec.failed then s.io (Session.fail ec "close") else s

/-- `if(next_read && readable) do_read()`. -/
def readOn (nextRead : Bool) (s : Client) : Client :=
  if nextRead && s.readable then s.doRead else s

def onWrite (ec : ErrorCode) (nextRead : Bool) (s : Client) : Client :=
  if ec.failed then s.io (Session.fail ec "write")
  else (s.io Session.consumeOutput).readOn nextRead

def onRead (cb : Callbacks) (ec : ErrorCode) (s : Client) : Client :=
  if ec.failed then s.io (Session.fail ec "read")
  else { s with nextRead := true }.io (Session.deliver cb)

def onReadRest (s : Client) : Client :=
  ((s.io Session.consumeInput).io Session.matchFrame).writeOut

def resume (s : Client) : Option Client :=
  match s.frame with
  | .idle => none
  | .opening => some (s.io Session.leave).onHandshakeRest
  | .reading => some (s.io Session.leave).onReadRest

/-- The upgrade response is stored before the handler of the handshake is called. -/
def step (cb : Callbacks) (s : Client) : Event → Option Client
  | .call c => some (s.call cb c)
  | .setNextRead b => if s.frame = .idle then none else some { s with nextRead := b }
  | .handshakeDone ec response =>
      s.handled (0 < s.stream.handshakes)
        (({ s with resUpgrade := response }.io (Session.handshakeDone ec)).onHandshake cb ec)
  | .readDone ec chunk text =>
      s.handled (0 < s.stream.reads) ((s.io (Session.readDone ec chunk text)).onRead cb ec)
  | .writeDone i ec => s.stream.writes[i]?.bind fun w =>
      s.handled True ((s.io (Session.writeDone i w ec)).onWrite ec w.bound)
  | .pingDone ec =>
      s.handled (0 < s.stream.pings) ((s.io (Session.pingDone ec)).onPing ec)
  | .pongDone ec =>
      s.handled (0 < s.stream.pongs) ((s.io (Session.pongDone ec)).onPong ec)
  | .closeDone ec =>
      s.handled (0 < s.stream.closes) ((s.io (Session.closeDone ec)).onClose ec)
  | .control kind payload =>
      s.handled True (s.io (Session.controlFrame cb kind payload))
  | .resume => s.resume

def system (cb : Callbacks) : Transition.System Client Event := ⟨step cb⟩

end Client
end BeastWebsocket
