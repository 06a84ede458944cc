import BeastWebsocket.Session.Record

/-! # What the two kinds of session share

`session<true>` and `session<false>` have the same flags, buffers and stream, and the same
code around them. The stream is the ledger of its outstanding operations; `κ` is what the
session binds into the handler of a write.
-/
namespace BeastWebsocket

structure Write (κ : Type) where
  payload : Bytes
  text : Bool
  bound : κ
deriving DecidableEq

structure Stream (κ : Type) where
  handshakes : ℕ := 0
  reads : ℕ := 0
  writes : List (Write κ) := []
  pings : ℕ := 0
  pongs : ℕ := 0
  closes : ℕ := 0
  text : Bool := true
  gotText : Bool := true
  controlCallback : Bool := false
deriving DecidableEq

/-- The handler whose user callback is running, if any. -/
inductive Frame where
  | idle
  | opening
  | reading
deriving DecidableEq

/-- Which of the `std::function` members hold a target. -/
structure Callbacks where
  decorator : Bool := true
  onOpen : Bool := true
  onMessage : Bool := true
  onPing : Bool := true
  onPong : Bool := true
  onClose : Bool := true
deriving DecidableEq

structure Session (κ : Type) where
  autoFrame : Bool := true
  readable : Bool := true
  stream : Stream κ := {}
  inputBuffer : Bytes := []
  outputBuffer : Bytes := []
  frame : Frame := .idle
  log : List Obs := []
deriving DecidableEq

namespace Session
variable {κ : Type}

def emit (o : Obs) (x : Session κ) : Session κ := { x with log := x.log ++ [o] }

/-! ## Calls on the stream -/

def asyncHandshake (decorated : Bool) (x : Session κ) : Session κ :=
  { x with stream.handshakes := x.stream.handshakes + 1 }.emit (.started (.handshake decorated))

def asyncRead (x : Session κ) : Session κ :=
  { x with stream.reads := x.stream.reads + 1 }.emit (.started .read)

/-- The payload and the type of the message are fixed when the write is initiated. -/
def asyncWrite (bound : κ) (x : Session κ) : Session κ :=
  let w : Write κ := ⟨x.outputBuffer, x.stream.text, bound⟩
  { x with stream.writes := x.stream.writes ++ [w] }.emit (.started (.write w.payload w.text))

def asyncPing (payload : Bytes) (x : Session κ) : Session κ :=
  { x with stream.pings := x.stream.pings + 1 }.emit (.started (.ping payload))

def asyncPong (payload : Bytes) (x : Session κ) : Session κ :=
  { x with stream.pongs := x.stream.pongs + 1 }.emit (.started (.pong payload))

def asyncClose (reason : CloseReason) (x : Session κ) : Session κ :=
  { x with stream.closes := x.stream.closes + 1 }.emit (.started (.close reason))

def setControlCallback (x : Session κ) : Session κ := { x with stream.controlCallback := true }

def setText (text : Bool) (x : Session κ) : Session κ := { x with stream.text := text }

/-! ## Completions, as the stream performs them before it calls the handler -/

def handshakeDone (ec : ErrorCode) (x : Session κ) : Session κ :=
  { x with stream.handshakes := x.stream.handshakes - 1 }.emit (.finished .handshake ec)

/-- A read that succeeds appends the whole message `chunk`, one that fails the part of a
message that had arrived. -/
def readDone (ec : ErrorCode) (chunk : Bytes) (text : Bool) (x : Session κ) : Session κ :=
  let y := { x with stream.reads := x.stream.reads - 1,
                    inputBuffer := x.inputBuffer ++ chunk }.emit (.finished .read ec)
  if ec.failed then y else { y with stream.gotText := text }.emit (.received chunk)

def writeDone (i : ℕ) (w : Write κ) (ec : ErrorCode) (x : Session κ) : Session κ :=
  { x with stream.writes := x.stream.writes.eraseIdx i }.emit (.finished (.write w.payload) ec)

def pingDone (ec : ErrorCode) (x : Session κ) : Session κ :=
  { x with stream.pings := x.stream.pings - 1 }.emit (.finished .ping ec)

def pongDone (ec : ErrorCode) (x : Session κ) : Session κ :=
  { x with stream.pongs := x.stream.pongs - 1 }.emit (.finished .pong ec)

def closeDone (ec : ErrorCode) (x : Session κ) : Session κ :=
  { x with stream.closes := x.stream.closes - 1 }.emit (.finished .close ec)

/-! ## The members that both kinds of session define alike -/

/-- `http::base::fail`. -/
def fail (ec : ErrorCode) (what : String) (x : Session κ) : Session κ := x.emit (.failed ec what)

/-- The handler of an operation that only reports a failure, not an abort. -/
def report (what : String) (ec : ErrorCode) (x : Session κ) : Session κ :=
  if ec = .operationAborted then x
  else if ec.failed then x.fail ec what
  else x

/-- Bytes that user code writes to `output()` or to the buffer its callback is handed. -/
def append (b : Bytes) (x : Session κ) : Session κ :=
  { x with outputBuffer := x.outputBuffer ++ b }.emit (.appended b)

def setAutoFrame (x : Session κ) : Session κ := { x with autoFrame := true }

def setTextFrame (x : Session κ) : Session κ := { x with autoFrame := false }.setText true

def setBinaryFrame (x : Session κ) : Session κ := { x with autoFrame := false }.setText false

/-- `readable = false` and the read that follows it in `do_read`. -/
def startRead (x : Session κ) : Session κ := { x with readable := false }.asyncRead

/-- A callback is only called when it holds a target. -/
def invoke (installed : Bool) (cb : Callback) (x : Session κ) : Session κ :=
  if installed then x.emit (.called cb) else x

/-- The callback of the opening handshake's handler starts to run. -/
def enterOpening (cb : Callbacks) (c : Callback) (x : Session κ) : Session κ :=
  { x.invoke cb.onOpen c with frame := .opening }

/-- A callback returns. -/
def leave (x : Session κ) : Session κ := { x with frame := .idle }

/-- `on_read` after a successful read, up to and with the call of `on_message`. -/
def deliver (cb : Callbacks) (x : Session κ) : Session κ :=
  let y := { x with readable := true }.invoke cb.onMessage (.message x.inputBuffer)
  { y with frame := .reading }

/-- `input_buffer_.consume(input_buffer_.size())`. -/
def consumeInput (x : Session κ) : Session κ :=
  { x with inputBuffer := [] }.emit (.inputConsumed x.inputBuffer)

/-- In auto-frame mode the outgoing type becomes that of the last message received. -/
def matchFrame (x : Session κ) : Session κ :=
  if x.autoFrame then x.setText x.stream.gotText else x

theorem matchFrame_leave (x : Session κ) :
    x.leave.consumeInput.matchFrame = x.consumeInput.matchFrame.leave := by
  change (if x.autoFrame then _ else _) = leave (if x.autoFrame then _ else _)
  split_ifs <;> rfl

/-- `output_buffer_.consume(output_buffer_.size())`. -/
def consumeOutput (x : Session κ) : Session κ :=
  { x with outputBuffer := [] }.emit (.outputConsumed x.outputBuffer)

def onControlCallback (cb : Callbacks) (kind : FrameType) (payload : Bytes) (x : Session κ) :
    Session κ :=
  if kind = .ping ∧ cb.onPing then x.emit (.called (.ping payload))
  else if kind = .pong ∧ cb.onPong then x.emit (.called (.pong payload))
  else if cb.onClose then x.emit (.called (.close payload))
  else x

/-- A control frame arrives; the stream calls back once a control callback is set. -/
def controlFrame (cb : Callbacks) (kind : FrameType) (payload : Bytes) (x : Session κ) :
    Session κ :=
  let y := x.emit (.control kind payload)
  if y.stream.controlCallback then y.onControlCallback cb kind payload else y

/-- A handler of the session is called: it has an operation to complete, and no other
handler is running. -/
def handled {σ : Type} (x : Session κ) (pending : Prop) [Decidable pending] (next : σ) :
    Option σ :=
  if x.frame = .idle ∧ pending then some next else none

theorem handled_eq_some {σ : Type} {x : Session κ} {pending : Prop} [Decidable pending]
    {next t : σ} : x.handled pending next = some t ↔ (x.frame = .idle ∧ pending) ∧ next = t := by
  simp [handled]

end Session
end BeastWebsocket
