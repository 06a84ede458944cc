import BeastWebsocket.Transition.History

/-! # The record of a session

What a session asks of its stream, what the stream and the clock answer, and what user code
sees and does, in the order in which it happens. The record is no part of the program: no
function of the session reads it.
-/
namespace BeastWebsocket

abbrev Byte := UInt8
abbrev Bytes := List Byte

/-- Values of `error_code` that the code tells apart; every further one is `other`. -/
inductive ErrorCode where
  | success
  | operationAborted
  | closed
  | badMessage
  | invalidArgument
  | other (value : ℕ)
deriving DecidableEq

/-- The test `if(ec)`. -/
def ErrorCode.failed (ec : ErrorCode) : Bool := ec != .success

@[simp] theorem ErrorCode.failed_eq_true {ec : ErrorCode} : ec.failed = true ↔ ec ≠ .success := by
  simp [failed]

@[simp] theorem ErrorCode.failed_eq_false {ec : ErrorCode} : ec.failed = false ↔ ec = .success := by
  simp [failed]

/-- `websocket::close_reason`. -/
structure CloseReason where
  code : ℕ
  reason : Bytes := []
deriving DecidableEq

/-- `close_code::normal`. -/
def CloseReason.normal : CloseReason := { code := 1000 }

inductive FrameType where
  | ping
  | pong
  | close
deriving DecidableEq

/-- An asynchronous operation as it is initiated. A handshake is `decorated` when it is
one of the `_ex` calls. -/
inductive Op where
  | handshake (decorated : Bool)
  | read
  | write (payload : Bytes) (text : Bool)
  | ping (payload : Bytes)
  | pong (payload : Bytes)
  | close (reason : CloseReason)
  | wait
deriving DecidableEq

/-- An asynchronous operation as its handler is called. -/
inductive Completion where
  | handshake
  | read
  | write (payload : Bytes)
  | ping
  | pong
  | close
  | wait
deriving DecidableEq

/-- A user callback with the data it is handed. -/
inductive Callback where
  | accept
  | handshake (response : Bytes)
  | message (input : Bytes)
  | ping (payload : Bytes)
  | pong (payload : Bytes)
  | close (payload : Bytes)
  | timer
deriving DecidableEq

inductive Obs where
  | started (op : Op)
  | finished (op : Completion) (ec : ErrorCode)
  | received (message : Bytes)
  | appended (b : Bytes)
  | inputConsumed (b : Bytes)
  | outputConsumed (b : Bytes)
  | control (kind : FrameType) (payload : Bytes)
  | called (cb : Callback)
  | timeout
  | failed (ec : ErrorCode) (what : String)
  | ticked (d : ℕ)
deriving DecidableEq

namespace Obs

@[simp] def started? : Obs → Option Op
  | started op => some op
  | _ => none

/-- The payload that a write was handed when it was initiated. -/
@[simp] def handed? : Obs → Option Bytes
  | started (.write p _) => some p
  | _ => none

/-- The payload of a write that completed with success. -/
@[simp] def sent? : Obs → Option Bytes
  | finished (.write p) .success => some p
  | _ => none

@[simp] def appended? : Obs → Option Bytes
  | appended b => some b
  | _ => none

/-- The message that a successful read took from the connection. -/
@[simp] def received? : Obs → Option Bytes
  | received m => some m
  | _ => none

/-- The input that `on_message` was called with. -/
@[simp] def delivered? : Obs → Option Bytes
  | called (.message b) => some b
  | _ => none

@[simp] def isReadStart : Obs → Bool
  | started .read => true
  | _ => false

@[simp] def isReadFailure : Obs → Bool
  | finished .read ec => ec.failed
  | _ => false

@[simp] def isFailure : Obs → Bool
  | finished _ ec => ec.failed
  | _ => false

/-- A handshake that completed with success. -/
@[simp] def isOpening : Obs → Bool
  | finished .handshake .success => true
  | _ => false

/-- The end of the connection: `on_close` with success, or `on_read` with
`websocket::error::closed`. -/
@[simp] def isEnd : Obs → Bool
  | finished .close .success => true
  | finished .read .closed => true
  | _ => false

end Obs

/-- The entries of a record that `f` reads, in order. -/
def project {α : Type*} (f : Obs → Option α) (log : List Obs) : List α := log.filterMap f

@[simp] theorem project_nil {α : Type*} (f : Obs → Option α) : project f [] = [] := rfl

@[simp] theorem project_cons {α : Type*} (f : Obs → Option α) (o : Obs) (log : List Obs) :
    project f (o :: log) = (f o).toList ++ project f log := by
  cases h : f o <;> simp [project, h]

@[simp] theorem project_append {α : Type*} (f : Obs → Option α) (past log : List Obs) :
    project f (past ++ log) = project f past ++ project f log := by
  simp [project]

theorem project_snoc_none {α : Type*} {f : Obs → Option α} {o : Obs} {log : List Obs}
    (h : f o = none) : project f (log ++ [o]) = project f log := by
  rw [project_append, project_cons, h]
  simp

/-- Some entry of a record is of the kind `p`. -/
def occurs (p : Obs → Bool) (log : List Obs) : Bool := log.any p

@[simp] theorem occurs_nil (p : Obs → Bool) : occurs p [] = false := rfl

@[simp] theorem occurs_cons (p : Obs → Bool) (o : Obs) (log : List Obs) :
    occurs p (o :: log) = (p o || occurs p log) := by
  simp [occurs]

@[simp] theorem occurs_append (p : Obs → Bool) (past log : List Obs) :
    occurs p (past ++ log) = (occurs p past || occurs p log) := by
  simp [occurs]

theorem occurs_snoc_false {p : Obs → Bool} {o : Obs} {log : List Obs} (h : p o = false) :
    occurs p (log ++ [o]) = occurs p log := by
  rw [occurs_append, occurs_cons, h]
  simp

abbrev startedOps (log : List Obs) : List Op := project Obs.started? log
abbrev handedPayloads (log : List Obs) : List Bytes := project Obs.handed? log
abbrev sentPayloads (log : List Obs) : List Bytes := project Obs.sent? log
abbrev receivedMessages (log : List Obs) : List Bytes := project Obs.received? log
abbrev deliveredMessages (log : List Obs) : List Bytes := project Obs.delivered? log
abbrev readsStarted (log : List Obs) : ℕ := log.countP Obs.isReadStart
abbrev readBroken (log : List Obs) : Bool := occurs Obs.isReadFailure log
abbrev anyFailure (log : List Obs) : Bool := occurs Obs.isFailure log
abbrev opened (log : List Obs) : Bool := occurs Obs.isOpening log
abbrev ended (log : List Obs) : Bool := occurs Obs.isEnd log

def appendedBytes (log : List Obs) : Bytes := (project Obs.appended? log).flatten

@[simp] theorem appendedBytes_nil : appendedBytes [] = [] := rfl

@[simp] theorem appendedBytes_cons (o : Obs) (log : List Obs) :
    appendedBytes (o :: log) = o.appended?.getD [] ++ appendedBytes log := by
  rw [appendedBytes, project_cons, List.flatten_append, ← appendedBytes]
  cases o.appended? <;> simp

@[simp] theorem appendedBytes_append (past log : List Obs) :
    appendedBytes (past ++ log) = appendedBytes past ++ appendedBytes log := by
  simp [appendedBytes]

end BeastWebsocket
