import BeastWebsocket.Session.Record

/-! # The timer of a server session -/
namespace BeastWebsocket

/-- A pending wait: still running, cancelled by `expires_after`, or expired. The handler of
the last two is queued. -/
inductive Wait where
  | armed
  | aborted
  | fired
deriving DecidableEq

/-- The error a wait may complete with; one that still runs can only fail. -/
def Wait.admits : Wait → ErrorCode → Bool
  | .armed, ec => ec != .success && ec != .operationAborted
  | .aborted, ec => ec == .operationAborted
  | .fired, ec => ec == .success

/-- Durations and time points of `steady_clock` count nanoseconds. -/
def seconds (n : ℕ) : ℕ := n * 1000000000

/-- The timer and the clock it runs against. The expiry `none` is `time_point::max`. -/
structure Timer where
  now : ℕ := 0
  expiry : Option ℕ := none
  waits : List Wait := []
deriving DecidableEq

namespace Timer

def cancel : Wait → Wait
  | .armed => .aborted
  | w => w

def fire : Wait → Wait
  | .armed => .fired
  | w => w

/-- Moving the deadline cancels the waits that still run. -/
def expiresAfter (d : ℕ) (t : Timer) : Timer :=
  { t with expiry := some (t.now + d), waits := t.waits.map cancel }

def asyncWait (t : Timer) : Timer := { t with waits := t.waits ++ [.armed] }

/-- `expiry() <= now()`. -/
def expired (t : Timer) : Bool :=
  match t.expiry with
  | none => false
  | some e => decide (e ≤ t.now)

end Timer

end BeastWebsocket
