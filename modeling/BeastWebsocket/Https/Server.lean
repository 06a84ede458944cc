import BeastWebsocket.Https.Routing
import BeastWebsocket.Transition.System

/-! # The HTTPS server session, `session<true, Body>`

The stream is the ledger of its outstanding operations. A handler of the session is cut where
`process_request` invokes a list of handlers: user code calls the public members there, as it
may between two handlers of the session, until the list returns. The timer that `do_read` moves
is left out, for no wait on it can be started.
-/
namespace BeastWebsocket.Https
open Transition

/-- Values of `error_code` that the sessions tell apart; every further one is `other`. -/
inductive ErrorCode where
  | success
  | endOfStream
  | eof
  | other (value : ℕ)
deriving DecidableEq

/-- The test `if(ec)`. -/
def ErrorCode.failed (ec : ErrorCode) : Bool := ec != .success

@[simp] theorem ErrorCode.failed_eq_true {ec : ErrorCode} : ec.failed = true ↔ ec ≠ .success := by
  simp [failed]

@[simp] theorem ErrorCode.failed_eq_false {ec : ErrorCode} : ec.failed = false ↔ ec = .success := by
  simp [failed]

structure Response (ρ : Type) where
  message : ρ
  needEof : Bool
deriving DecidableEq

/-- An asynchronous operation on the stream. -/
inductive Op (ρ : Type) where
  | handshake
  | read
  | write (msg : Response ρ)
  | shutdown
deriving DecidableEq

inductive Obs (μ η ρ : Type) where
  | started (op : Op ρ)
  | finished (op : Op ρ) (ec : ErrorCode)
  | received (req : Request μ)
  | invoked (cb : η)
  | posted (msg : Response ρ)
  | assertFailed
  | failed (ec : ErrorCode) (what : String)
deriving DecidableEq

/-- `running` holds the lists of handlers that are still to be invoked after the one that is
running, if one is. -/
structure Server (μ η ρ : Type) where
  handshake : Bool := false
  buffer : Bytes := []
  req : Option (Request μ) := none
  items : List (Response ρ) := []
  handshakes : ℕ := 0
  reads : ℕ := 0
  writes : List (Response ρ) := []
  shutdowns : ℕ := 0
  running : Option (List η) := none
  log : List (Obs μ η ρ) := []
deriving DecidableEq

/-- `queue::limit`. -/
def queueLimit : ℕ := 8

namespace Server
variable {μ η ρ : Type}

/-- The public members, as user code calls them. -/
inductive Call (ρ : Type) where
  | doHandshake
  | doRead
  | doWrite (msg : Response ρ)
  | doClose
deriving DecidableEq

inductive Event (μ ρ : Type) where
  | call (c : Call ρ)
  | handshakeDone (ec : ErrorCode) (bytesUsed : ℕ)
  | readDone (ec : ErrorCode) (req : Request μ) (rest : Bytes)
  | writeDone (i : ℕ) (ec : ErrorCode)
  | shutdownDone (ec : ErrorCode)
  | resume
deriving DecidableEq

def emit (o : Obs μ η ρ) (s : Server μ η ρ) : Server μ η ρ := { s with log := s.log ++ [o] }

/-! ## Calls on the stream -/

def asyncHandshake (s : Server μ η ρ) : Server μ η ρ :=
  { s with handshakes := s.handshakes + 1 }.emit (.started .handshake)

def asyncRead (s : Server μ η ρ) : Server μ η ρ :=
  { s with reads := s.reads + 1 }.emit (.started .read)

def asyncWrite (msg : Response ρ) (s : Server μ η ρ) : Server μ η ρ :=
  { s with writes := s.writes ++ [msg] }.emit (.started (.write msg))

def asyncShutdown (s : Server μ η ρ) : Server μ η ρ :=
  { s with shutdowns := s.shutdowns + 1 }.emit (.started .shutdown)

/-! ## The queue -/

def isFull (s : Server μ η ρ) : Bool := decide (queueLimit ≤ s.items.length)

/-- `(*items_.front())()`: the handler of the write is bound to `need_eof` of its message. -/
def startFront (s : Server μ η ρ) : Server μ η ρ :=
  match s.items with
  | [] => s
  | msg :: _ => s.asyncWrite msg

/-- `queue::operator()`. -/
def push (msg : Response ρ) (s : Server μ η ρ) : Server μ η ρ :=
  let t : Server μ η ρ := { s with items := s.items ++ [msg] }
  if t.items.length = 1 then t.startFront else t

/-- `queue::on_write`, with what it returns. -/
def pop (s : Server μ η ρ) : Server μ η ρ × Bool :=
  let t : Server μ η ρ := { s with items := s.items.tail }
  (t.startFront, s.isFull)

/-! ## The public members -/

def doHandshake (s : Server μ η ρ) : Server μ η ρ :=
  if s.handshake then s else s.asyncHandshake

def doRead (s : Server μ η ρ) : Server μ η ρ :=
  if s.handshake then { s with req := none }.asyncRead else s

def doWrite (msg : Response ρ) (s : Server μ η ρ) : Server μ η ρ :=
  if s.handshake then (s.emit (.posted msg)).push msg else s

def doClose (s : Server μ η ρ) : Server μ η ρ := s.asyncShutdown

def call (s : Server μ η ρ) : Call ρ → Server μ η ρ
  | .doHandshake => s.doHandshake
  | .doRead => s.doRead
  | .doWrite msg => s.doWrite msg
  | .doClose => s.doClose

/-! ## The handlers -/

/-- `http::base::fail`. -/
def fail (ec : ErrorCode) (what : String) (s : Server μ η ρ) : Server μ η ρ :=
  s.emit (.failed ec what)

def onHandshake (ec : ErrorCode) (bytesUsed : ℕ) (s : Server μ η ρ) : Server μ η ρ :=
  if ec.failed then s.fail ec "handshake"
  else { s with handshake := true, buffer := s.buffer.drop bytesUsed }.doRead

def onShutdown (ec : ErrorCode) (s : Server μ η ρ) : Server μ η ρ :=
  if ec.failed then s.fail ec "shutdown" else s

/-- The rest of `process_request`, once both loops are through. -/
def finishRequest (s : Server μ η ρ) : Server μ η ρ :=
  let t : Server μ η ρ := { s with running := none }
  if t.isFull then t else t.doRead

/-- `process_request` from the next list of handlers on. -/
def invokeNext (cbs : List η) (s : Server μ η ρ) : Server μ η ρ :=
  match cbs with
  | [] => s.finishRequest
  | cb :: rest => { s with running := some rest }.emit (.invoked cb)

def onRead (cbs : List η) (ec : ErrorCode) (s : Server μ η ρ) : Server μ η ρ :=
  if ec = .endOfStream then s.doClose
  else if ec.failed then s.fail ec "read"
  else s.invokeNext cbs

def onWrite (ec : ErrorCode) (close : Bool) (s : Server μ η ρ) : Server μ η ρ :=
  if ec.failed then s.fail ec "write"
  else if close then s.doClose
  else if s.items.isEmpty then s.emit .assertFailed
  else if s.pop.2 then s.pop.1.doRead
  else s.pop.1

/-! ## Completions, as the stream performs them before it calls the handler -/

def handshakeDone (ec : ErrorCode) (s : Server μ η ρ) : Server μ η ρ :=
  { s with handshakes := s.handshakes - 1 }.emit (.finished .handshake ec)

/-- A read that succeeds leaves the request in `req_` and what follows it in the buffer. -/
def readDone (ec : ErrorCode) (req : Request μ) (rest : Bytes) (s : Server μ η ρ) :
    Server μ η ρ :=
  let t := { s with reads := s.reads - 1 }.emit (.finished .read ec)
  if ec.failed then t else { t with req := some req, buffer := rest }.emit (.received req)

def writeDone (i : ℕ) (msg : Response ρ) (ec : ErrorCode) (s : Server μ η ρ) : Server μ η ρ :=
  { s with writes := s.writes.eraseIdx i }.emit (.finished (.write msg) ec)

def shutdownDone (ec : ErrorCode) (s : Server μ η ρ) : Server μ η ρ :=
  { s with shutdowns := s.shutdowns - 1 }.emit (.finished .shutdown ec)

/-- A handler of the session is called: it has an operation to complete, and no other handler
is running. -/
def handled (s : Server μ η ρ) (pending : Prop) [Decidable pending] (next : Server μ η ρ) :
    Option (Server μ η ρ) :=
  if s.running = none ∧ pending then some next else none

theorem handled_eq_some {s next t : Server μ η ρ} {pending : Prop} [Decidable pending] :
    s.handled pending next = some t ↔ (s.running = none ∧ pending) ∧ next = t := by
  simp [handled]

variable [DecidableEq μ] (regexMatch : Bytes → Bytes → Bool) (router : Router μ η)

def step (s : Server μ η ρ) : Event μ ρ → Option (Server μ η ρ)
  | .call c => some (s.call c)
  | .handshakeDone ec bytesUsed =>
      s.handled (0 < s.handshakes) ((s.handshakeDone ec).onHandshake ec bytesUsed)
  | .readDone ec req rest =>
      s.handled (0 < s.reads)
        ((s.readDone ec req rest).onRead (router.dispatch regexMatch req).calls ec)
  | .writeDone i ec => s.writes[i]?.bind fun msg =>
      s.handled True ((s.writeDone i msg ec).onWrite ec msg.needEof)
  | .shutdownDone ec => s.handled (0 < s.shutdowns) ((s.shutdownDone ec).onShutdown ec)
  | .resume => s.running.map fun rest => s.invokeNext rest

def system : System (Server μ η ρ) (Event μ ρ) := ⟨step regexMatch router⟩

end Server

/-! ## What the record tells -/

section Record
variable {μ η ρ : Type}

namespace Obs

@[simp] def handed? : Obs μ η ρ → Option (Response ρ)
  | started (.write msg) => some msg
  | _ => none

@[simp] def posted? : Obs μ η ρ → Option (Response ρ)
  | posted msg => some msg
  | _ => none

/-- A write that has completed. -/
@[simp] def written? : Obs μ η ρ → Option (Response ρ)
  | finished (.write msg) _ => some msg
  | _ => none

/-- A write that has completed with success. -/
@[simp] def sent? : Obs μ η ρ → Option (Response ρ)
  | finished (.write msg) .success => some msg
  | _ => none

/-- A write that has failed, or has carried `need_eof`. -/
@[simp] def isBreak : Obs μ η ρ → Bool
  | finished (.write msg) ec => ec.failed || msg.needEof
  | _ => false

@[simp] def isAssertFailed : Obs μ η ρ → Bool
  | assertFailed => true
  | _ => false

@[simp] def isShutdown : Obs μ η ρ → Bool
  | started .shutdown => true
  | _ => false

/-- A handshake that completed with success. -/
@[simp] def isOpening : Obs μ η ρ → Bool
  | finished .handshake .success => true
  | _ => false

@[simp] def isHandshakeStart : Obs μ η ρ → Bool
  | started .handshake => true
  | _ => false

/-- A read that has failed, the end of the stream included. -/
@[simp] def isReadFailure : Obs μ η ρ → Bool
  | finished .read ec => ec.failed
  | _ => false

end Obs

abbrev handed (log : List (Obs μ η ρ)) : List (Response ρ) := log.filterMap Obs.handed?
abbrev posted (log : List (Obs μ η ρ)) : List (Response ρ) := log.filterMap Obs.posted?
abbrev written (log : List (Obs μ η ρ)) : List (Response ρ) := log.filterMap Obs.written?
abbrev sent (log : List (Obs μ η ρ)) : List (Response ρ) := log.filterMap Obs.sent?
abbrev broken (log : List (Obs μ η ρ)) : Bool := log.any Obs.isBreak
abbrev assertFailed (log : List (Obs μ η ρ)) : Bool := log.any Obs.isAssertFailed
abbrev shutDown (log : List (Obs μ η ρ)) : Bool := log.any Obs.isShutdown
abbrev opened (log : List (Obs μ η ρ)) : Bool := log.any Obs.isOpening
abbrev handshaken (log : List (Obs μ η ρ)) : Bool := log.any Obs.isHandshakeStart
abbrev readBroken (log : List (Obs μ η ρ)) : Bool := log.any Obs.isReadFailure

end Record
end BeastWebsocket.Https
