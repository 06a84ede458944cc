import BeastWebsocket.Https.Server

/-! # The HTTPS client session, `session<false, Body>`

The stream is the ledger of its outstanding operations. Nothing follows a callback in its handler,
so that what user code calls there it calls between two handlers. Each message that `do_write`
moves into an object of its own has the number of that object.
-/
namespace BeastWebsocket.Https
open Transition

/-- A message in an object that `std::make_shared` has made. -/
structure Owned (μ : Type) where
  object : ℕ
  message : μ
deriving DecidableEq

namespace Client

/-- Which of the two `std::function` members hold a target. -/
structure Callbacks where
  onHandshake : Bool := true
  onMessage : Bool := true
deriving DecidableEq

/-- An asynchronous operation on the stream. -/
inductive Op (μ : Type) where
  | handshake
  | read
  | write (p : Owned μ)
  | shutdown
deriving DecidableEq

/-- `reset` tells that `res_` is assigned while so many reads are outstanding. -/
inductive Obs (μ ρ : Type) where
  | started (op : Op μ)
  | finished (op : Op μ) (ec : ErrorCode)
  | reset (reads : ℕ)
  | received (res : ρ)
  | calledHandshake
  | calledMessage (res : Option ρ)
  | failed (ec : ErrorCode) (what : String)
deriving DecidableEq

end Client

/-- `made` counts the objects that have been made. -/
structure Client (μ ρ : Type) where
  handshake : Bool := false
  res : Option ρ := none
  msgP : Option (Owned μ) := none
  buffer : Bytes := []
  made : ℕ := 0
  handshakes : ℕ := 0
  reads : ℕ := 0
  writes : List (Owned μ) := []
  shutdowns : ℕ := 0
  log : List (Client.Obs μ ρ) := []
deriving DecidableEq

namespace Client
variable {μ ρ : Type}

/-- The public members, as user code calls them. -/
inductive Call (μ : Type) where
  | doHandshake
  | doRead
  | doWrite (msg : μ)
  | doClose
deriving DecidableEq

inductive Event (μ ρ : Type) where
  | call (c : Call μ)
  | handshakeDone (ec : ErrorCode)
  | readDone (ec : ErrorCode) (res : ρ) (rest : Bytes)
  | writeDone (i : ℕ) (ec : ErrorCode)
  | shutdownDone (ec : ErrorCode)
deriving DecidableEq

def emit (o : Obs μ ρ) (s : Client μ ρ) : Client μ ρ := { s with log := s.log ++ [o] }

/-! ## Calls on the stream -/

def asyncHandshakeClient (s : Client μ ρ) : Client μ ρ :=
  { s with handshakes := s.handshakes + 1 }.emit (.started .handshake)

def asyncRead (s : Client μ ρ) : Client μ ρ :=
  { s with reads := s.reads + 1 }.emit (.started .read)

def asyncWrite (p : Owned μ) (s : Client μ ρ) : Client μ ρ :=
  { s with writes := s.writes ++ [p] }.emit (.started (.write p))

def asyncShutdown (s : Client μ ρ) : Client μ ρ :=
  { s with shutdowns := s.shutdowns + 1 }.emit (.started .shutdown)

/-! ## The public members -/

def doHandshake (s : Client μ ρ) : Client μ ρ :=
  if s.handshake then s else s.asyncHandshakeClient

def doRead (s : Client μ ρ) : Client μ ρ :=
  if s.handshake then ({ s with res := none }.emit (.reset s.reads)).asyncRead else s

/-- `msg_p_` gives up the object that it has owned. -/
def doWrite (msg : μ) (s : Client μ ρ) : Client μ ρ :=
  if s.handshake then
    let sp : Owned μ := ⟨s.made, msg⟩
    { s with made := s.made + 1, msgP := some sp }.asyncWrite sp
  else s

def doClose (s : Client μ ρ) : Client μ ρ := s.asyncShutdown

def call (s : Client μ ρ) : Call μ → Client μ ρ
  | .doHandshake => s.doHandshake
  | .doRead => s.doRead
  | .doWrite msg => s.doWrite msg
  | .doClose => s.doClose

/-! ## The handlers -/

/-- `http::base::fail`. -/
def fail (ec : ErrorCode) (what : String) (s : Client μ ρ) : Client μ ρ := s.emit (.failed ec what)

def onHandshake (cb : Callbacks) (ec : ErrorCode) (s : Client μ ρ) : Client μ ρ :=
  if ec.failed then s.fail ec "handshake"
  else
    let t : Client μ ρ := { s with handshake := true }
    if cb.onHandshake then t.emit .calledHandshake else t

def onShutdown (ec : ErrorCode) (s : Client μ ρ) : Client μ ρ :=
  let ec := if ec = .eof then .success else ec
  if ec.failed then s.fail ec "shutdown" else s

def onRead (cb : Callbacks) (ec : ErrorCode) (s : Client μ ρ) : Client μ ρ :=
  if ec.failed then s.fail ec "read"
  else if cb.onMessage then s.emit (.calledMessage s.res)
  else s

def onWrite (ec : ErrorCode) (s : Client μ ρ) : Client μ ρ :=
  if ec.failed then s.fail ec "write" else s.doRead

/-! ## Completions, as the stream performs them before it calls the handler -/

def handshakeDone (ec : ErrorCode) (s : Client μ ρ) : Client μ ρ :=
  { s with handshakes := s.handshakes - 1 }.emit (.finished .handshake ec)

/-- A read that succeeds leaves the response in `res_` and what follows it in the buffer. -/
def readDone (ec : ErrorCode) (res : ρ) (rest : Bytes) (s : Client μ ρ) : Client μ ρ :=
  let t := { s with reads := s.reads - 1 }.emit (.finished .read ec)
  if ec.failed then t else { t with res := some res, buffer := rest }.emit (.received res)

def writeDone (i : ℕ) (p : Owned μ) (ec : ErrorCode) (s : Client μ ρ) : Client μ ρ :=
  { s with writes := s.writes.eraseIdx i }.emit (.finished (.write p) ec)

def shutdownDone (ec : ErrorCode) (s : Client μ ρ) : Client μ ρ :=
  { s with shutdowns := s.shutdowns - 1 }.emit (.finished .shutdown ec)

/-- A handler of the session is called when it has an operation to complete. -/
def handled (pending : Prop) [Decidable pending] (next : Client μ ρ) : Option (Client μ ρ) :=
  if pending then some next else none

theorem handled_eq_some {next t : Client μ ρ} {pending : Prop} [Decidable pending] :
    handled pending next = some t ↔ pending ∧ next = t := by
  simp [handled]

def step (cb : Callbacks) (s : Client μ ρ) : Event μ ρ → Option (Client μ ρ)
  | .call c => some (s.call c)
  | .handshakeDone ec => handled (0 < s.handshakes) ((s.handshakeDone ec).onHandshake cb ec)
  | .readDone ec res rest => handled (0 < s.reads) ((s.readDone ec res rest).onRead cb ec)
  | .writeDone i ec => s.writes[i]?.map fun p => (s.writeDone i p ec).onWrite ec
  | .shutdownDone ec => handled (0 < s.shutdowns) ((s.shutdownDone ec).onShutdown ec)

def system (cb : Callbacks) : System (Client μ ρ) (Event μ ρ) := ⟨step cb⟩

end Client
end BeastWebsocket.Https
