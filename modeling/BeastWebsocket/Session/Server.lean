import BeastWebsocket.Session.Common
import BeastWebsocket.Session.Timer
import BeastWebsocket.Transition.System

/-! # The server session, `session<true>`

User code runs inside a handler, so `on_accept` and `on_read` are cut at their callback:
the first half ends where the callback is called, the second half is what follows its
return. Between the two, as between two handlers, user code may call every public member.
-/
namespace BeastWebsocket

structure Server extends Session Unit where
  accepted : Bool := false
  onTimerCb : Bool := false
  timer : Timer := {}
deriving DecidableEq

namespace Server

/-- The public members, as user code calls them. -/
inductive Call where
  | doAccept
  | append (b : Bytes)
  | setAutoFrame
  | setTextFrame
  | setBinaryFrame
  | doPing (payload : Bytes)
  | doPong (payload : Bytes)
  | doClose (reason : CloseReason)
  | launchTimer
  | launchTimerWith (target : Bool)
  | doRead
  | doWrite
deriving DecidableEq

inductive Event where
  | call (c : Call)
  | acceptDone (ec : ErrorCode)
  | readDone (ec : ErrorCode) (chunk : Bytes) (text : Bool)
  | writeDone (i : ℕ) (ec : ErrorCode)
  | pingDone (ec : ErrorCode)
  | pongDone (ec : ErrorCode)
  | closeDone (ec : ErrorCode)
  | waitDone (i : ℕ) (ec : ErrorCode)
  | control (kind : FrameType) (payload : Bytes)
  | resume
  | tick (d : ℕ)
  | expire
deriving DecidableEq

/-- An action on what both kinds of session share. -/
def io (f : Session Unit → Session Unit) (s : Server) : Server :=
  { s with toSession := f s.toSession }

@[simp] theorem io_toSession (f : Session Unit → Session Unit) (s : Server) :
    (s.io f).toSession = f s.toSession := rfl

@[simp] theorem io_accepted (f : Session Unit → Session Unit) (s : Server) :
    (s.io f).accepted = s.accepted := rfl

def expiresAfter (d : ℕ) (s : Server) : Server := { s with timer := s.timer.expiresAfter d }

@[simp] theorem expiresAfter_toSession (d : ℕ) (s : Server) :
    (s.expiresAfter d).toSession = s.toSession := rfl

def doAccept (cb : Callbacks) (s : Server) : Server :=
  if s.accepted then s
  else ((s.io Session.setControlCallback).expiresAfter (seconds 10)).io
    (Session.asyncHandshake cb.decorator)

/-- An operation that waits for no other: once accepted, the deadline is moved and the
operation initiated. -/
def operate (f : Session Unit → Session Unit) (s : Server) : Server :=
  if !s.accepted then s else (s.expiresAfter (seconds 10)).io f

def doPing (payload : Bytes) (s : Server) : Server := s.operate (Session.asyncPing payload)

def doPong (payload : Bytes) (s : Server) : Server := s.operate (Session.asyncPong payload)

def doClose (reason : CloseReason) (s : Server) : Server := s.operate (Session.asyncClose reason)

def launchTimer (s : Server) : Server :=
  { s with timer := s.timer.asyncWait }.io (Session.emit (.started .wait))

/-- The overload that first installs a callback; `target` tells whether it holds one. -/
def launchTimerWith (target : Bool) (s : Server) : Server :=
  { s with onTimerCb := target }.launchTimer

def doRead (s : Server) : Server :=
  if !s.accepted || !s.readable then s
  else (s.expiresAfter (seconds 10)).io Session.startRead

def doWrite (s : Server) : Server :=
  if !s.accepted then s else s.io (Session.asyncWrite ())

def call (cb : Callbacks) : Call → Server → Server
  | .doAccept => doAccept cb
  | .append b => io (Session.append b)
  | .setAutoFrame => io Session.setAutoFrame
  | .setTextFrame => io Session.setTextFrame
  | .setBinaryFrame => io Session.setBinaryFrame
  | .doPing payload => doPing payload
  | .doPong payload => doPong payload
  | .doClose reason => doClose reason
  | .launchTimer => launchTimer
  | .launchTimerWith target => launchTimerWith target
  | .doRead => doRead
  | .doWrite => doWrite

def onAccept (cb : Callbacks) (ec : ErrorCode) (s : Server) : Server :=
  if ec = .operationAborted then s
  else if ec.failed then s.io (Session.fail ec "accept")
  else { s with accepted := true }.io (Session.enterOpening cb .accept)

/-- `if(readable) do_read()`. -/
def readOn (s : Server) : Server := if s.readable then s.doRead else s

/-- The end of `on_accept` and of `on_read`. -/
def writeOrRead (s : Server) : Server :=
  if 0 < s.outputBuffer.length then s.doWrite else s.readOn

def onAcceptRest (s : Server) : Server := s.writeOrRead

def onPing (ec : ErrorCode) (s : Server) : Server := s.io (Session.report "ping" ec)

def onPong (ec : ErrorCode) (s : Server) : Server := s.io (Session.report "pong" ec)

def onClose (ec : ErrorCode) (s : Server) : Server := s.io (Session.report "close" ec)

/-- What `on_timer` does once the deadline has passed. The default is to close the
connection, and to launch the timer again. -/
def timeoutAction (s : Server) : Server :=
  if s.onTimerCb then s.io (Session.emit (.called .timer))
  else ((s.expiresAfter (seconds 10)).io (Session.asyncClose .normal)).launchTimer

def onTimer (ec : ErrorCode) (s : Server) : Server :=
  if ec.failed ∧ ec ≠ .operationAborted then s.io (Session.fail ec "timer")
  else if s.timer.expired then (s.io (Session.emit .timeout)).timeoutAction
  else s.launchTimer

def onRead (cb : Callbacks) (ec : ErrorCode) (s : Server) : Server :=
  if ec = .operationAborted then s
  else if ec = .closed then s
  else if ec.failed then s.io (Session.fail ec "read")
  else s.io (Session.deliver cb)

def onReadRest (s : Server) : Server :=
  ((s.io Session.consumeInput).io Session.matchFrame).writeOrRead

def onWrite (ec : ErrorCode) (s : Server) : Server :=
  if ec = .operationAborted then s
  else if ec.failed then s.io (Session.fail ec "write")
  else (s.io Session.consumeOutput).readOn

/-- The callback returns and its handler runs on. -/
def resume (s : Server) : Option Server :=
  match s.frame with
  | .idle => none
  | .opening => some (s.io Session.leave).onAcceptRest
  | .reading => some (s.io Session.leave).onReadRest

def step (cb : Callbacks) (s : Server) : Event → Option Server
  | .call c => some (s.call cb c)
  | .acceptDone ec =>
      s.handled (0 < s.stream.handshakes) ((s.io (Session.handshakeDone ec)).onAccept cb ec)
  | .readDone ec chunk text =>
      s.handled (0 < s.stream.reads) ((s.io (Session.readDone ec chunk text)).onRead cb ec)
  | .writeDone i ec => s.stream.writes[i]?.bind fun w =>
      s.handled True ((s.io (Session.writeDone i w ec)).onWrite ec)
  | .pingDone ec =>
      s.handled (0 < s.stream.pings) ((s.io (Session.pingDone ec)).onPing ec)
  | .pongDone ec =>
      s.handled (0 < s.stream.pongs) ((s.io (Session.pongDone ec)).onPong ec)
  | .closeDone ec =>
      s.handled (0 < s.stream.closes) ((s.io (Session.closeDone ec)).onClose ec)
  | .waitDone i ec => s.timer.waits[i]?.bind fun w =>
      s.handled (w.admits ec)
        (({ s with timer.waits := s.timer.waits.eraseIdx i }.io
          (Session.emit (.finished .wait ec))).onTimer ec)
  | .control kind payload =>
      s.handled True (s.io (Session.controlFrame cb kind payload))
  | .resume => s.resume
  | .tick d => some ({ s with timer.now := s.timer.now + d }.io (Session.emit (.ticked d)))
  | .expire =>
      if s.timer.expired then
        some { s with timer.waits := s.timer.waits.map Timer.fire }
      else none

def system (cb : Callbacks) : Transition.System Server Event := ⟨step cb⟩

end Server
end BeastWebsocket
