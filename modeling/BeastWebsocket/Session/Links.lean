import BeastWebsocket.Session.Moves
import Mathlib.Data.List.Infix

/-! # What a session sends and takes

A message is sent when the write that carries it is initiated, and taken by the read that
completes with it.
-/
namespace BeastWebsocket
open Transition

theorem project_isPrefix {α : Type*} (f : Obs → Option α) {past log : List Obs}
    (h : past <+: log) : project f past <+: project f log := List.IsPrefix.filterMap f h

namespace Server
variable {cb : Callbacks} {s t : Server}

/-- The message that an event takes from the connection. -/
def takes : Event → Option Bytes
  | .readDone .success chunk _ => some chunk
  | _ => none

theorem step_log {e : Event} (h : (system cb).step s e = some t) : s.log <+: t.log :=
  (moves_of_step h).isPrefix

theorem run_log {es : List Event} (h : (system cb).run s es = some t) : s.log <+: t.log :=
  System.run_inductive (I := fun u => s.log <+: u.log) (fun _ _ _ hu hv => hu.trans (step_log hv))
    List.prefix_rfl h

end Server

namespace Client
variable {cb : Callbacks} {s t : Client}

/-- What happens to the session without its user code. -/
def External : Event → Prop
  | .call _ | .setNextRead _ | .resume => False
  | _ => True

instance (e : Event) : Decidable (External e) :=
  match e with
  | .call _ | .setNextRead _ | .resume => isFalse id
  | .handshakeDone _ _ | .readDone _ _ _ | .writeDone _ _ | .pingDone _ | .pongDone _
  | .closeDone _ | .control _ _ => isTrue trivial

/-- The message that an event takes from the connection. -/
def takes : Event → Option Bytes
  | .readDone .success chunk _ => some chunk
  | _ => none

theorem step_log {e : Event} (h : (system cb).step s e = some t) : s.log <+: t.log :=
  (moves_of_step h).isPrefix

theorem run_log {es : List Event} (h : (system cb).run s es = some t) : s.log <+: t.log :=
  System.run_inductive (I := fun u => s.log <+: u.log) (fun _ _ _ hu hv => hu.trans (step_log hv))
    List.prefix_rfl h

end Client
end BeastWebsocket
