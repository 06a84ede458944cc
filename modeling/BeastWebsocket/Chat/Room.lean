import BeastWebsocket.Session.Called
import BeastWebsocket.Chat.Codec
import Mathlib.Logic.Function.Basic

/-! # The chat server

The sessions of the chat server with the data that its callbacks share. A handler runs from its
start to its end, with the callback that it calls, before another one starts; an exception that
leaves a callback ends the program. Each session has a clock of its own.
-/
namespace BeastWebsocket.Chat
open Transition

/-- The bytes of a string literal. -/
def bytes (s : String) : Bytes := s.toByteArray.data.toList

/-- All callbacks of a session are installed. -/
def callbacks : Callbacks := {}

/-- The functions that are given to `launch_timer`. -/
inductive OnTimer where
  | sendPing
  | closeConnection
deriving DecidableEq

structure SessionBox where
  session : ℕ
  nickname : Bytes
deriving DecidableEq

/-- The sessions that have been `created`, each with its socket and the function that its timer
was last given, and the two static variables. An entry of `clients` keeps its session alive. -/
structure Room where
  created : ℕ := 0
  sessions : ℕ → Server := fun _ => {}
  isOpen : ℕ → Bool := fun _ => true
  timers : ℕ → OnTimer := fun _ => .sendPing
  clients : List SessionBox := []
  messages : List Message := []
  thrown : Bool := false

namespace Room

/-- A callback calls a member of session `i`. -/
def call (i : ℕ) (c : Server.Call) (r : Room) : Room :=
  { r with sessions := Function.update r.sessions i ((r.sessions i).call callbacks c) }

def launchTimer (i : ℕ) (f : OnTimer) (r : Room) : Room :=
  { r with timers := Function.update r.timers i f }.call i (.launchTimerWith true)

def throw (r : Room) : Room := { r with thrown := true }

/-- Messages are put behind those that are stored. -/
def store (new : List Message) (r : Room) : Room := { r with messages := r.messages ++ new }

/-- Appends the text to the output of each of the sessions and calls its `do_write`. -/
def broadcast (text : Bytes) (targets : List ℕ) (r : Room) : Room :=
  targets.foldl (fun r i => (r.call i (.append text)).call i .doWrite) r

def members (r : Room) : List ℕ := r.clients.map SessionBox.session

/-- The clients on other connections whose socket is open. -/
def others (i : ℕ) (r : Room) : List ℕ := r.members.filter fun j => j ≠ i && r.isOpen j

/-- `clients.insert`, which leaves a client that is there as it is. -/
def insert (i : ℕ) (nickname : Bytes) (r : Room) : Room :=
  if i ∈ r.members then r else { r with clients := r.clients ++ [⟨i, nickname⟩] }

/-! ## The callbacks -/

def onAccept (i : ℕ) (r : Room) : Room := r.call i (.append (bytes "What is your name?"))

def entry (name : Bytes) : Message := ⟨name, bytes "Input to chat room!"⟩

def farewell (nickname : Bytes) : Message := ⟨bytes "is leaving", nickname⟩

/-- The answer to the question for the name. -/
def join (i : ℕ) (name : Bytes) (r : Room) : Room :=
  let r := r.call i (.append (bytes "Hello " ++ name))
  let r := r.store [entry name]
  match Serializer.advance r.messages [] with
  | .error _ => r.throw
  | .ok (text, _) =>
    let r := r.call i (.append text)
    match Serializer.advance [entry name] [] with
    | .error _ => r.throw
    | .ok (text, _) => ((r.broadcast text r.members).insert i name).launchTimer i .sendPing

/-- Any other message. -/
def receive (overflow : ℤ → ℤ) (i : ℕ) (input : Bytes) (r : Room) : Room :=
  let p := Parser.advance overflow input .success
  match p.usedBytes with
  | .error _ => r.throw
  | .ok _ =>
    let r :=
      if p.ec.failed then r.call i .doRead
      else
        let r := r.store p.messages
        (r.call i (.append input)).broadcast input (r.others i)
    r.launchTimer i .sendPing

def nameString : Bytes := bytes "My name is "

def onMessage (overflow : ℤ → ℤ) (i : ℕ) (input : Bytes) (r : Room) : Room :=
  if input.take 11 = nameString then r.join i (input.drop 11) else r.receive overflow i input

def onPong (i : ℕ) (r : Room) : Room := r.launchTimer i .sendPing

/-- `clients.at` throws where the session has not joined. -/
def onClose (i : ℕ) (r : Room) : Room :=
  if r.isOpen i then
    match r.clients.find? fun c => c.session = i with
    | none => r.throw
    | some c =>
      let r := r.store [farewell c.nickname]
      match Serializer.advance [farewell c.nickname] [] with
      | .error _ => r.throw
      | .ok (text, _) => r.broadcast text (r.others i)
  else r

def onTimer (i : ℕ) (r : Room) : Room :=
  match r.timers i with
  | .sendPing => (r.call i (.doPing [])).launchTimer i .closeConnection
  | .closeConnection => r.call i (.doClose .normal)

/-- The callback returns, and the handler of session `i` runs on. -/
def resume (i : ℕ) (r : Room) : Room :=
  { r with sessions := Function.update r.sessions i ((r.sessions i).resume.getD (r.sessions i)) }

/-- What the callback does, and the rest of the handler behind it. -/
def react (overflow : ℤ → ℤ) (i : ℕ) (r : Room) : Option Callback → Room
  | some .accept => (r.onAccept i).resume i
  | some (.message input) =>
    let r := r.onMessage overflow i input
    if r.thrown then r else r.resume i
  | some (.pong _) => r.onPong i
  | some (.close _) => r.onClose i
  | some .timer => r.onTimer i
  | some (.ping _) => r
  | some (.handshake _) | none => r

/-- A connection is upgraded, the socket of a session is closed, or an event of a session
arrives. -/
inductive Event where
  | upgrade
  | disconnect (i : ℕ)
  | session (i : ℕ) (e : Server.Event)
deriving DecidableEq

/-- What happens to a session without its user code, where no message is longer than
`read_message_max`. -/
def External (readMessageMax : ℕ) : Server.Event → Prop
  | .call _ | .resume => False
  | .readDone _ chunk _ => chunk.length ≤ readMessageMax
  | _ => True

instance (readMessageMax : ℕ) (e : Server.Event) : Decidable (External readMessageMax e) :=
  match e with
  | .call _ | .resume => isFalse id
  | .readDone _ chunk _ => inferInstanceAs (Decidable (chunk.length ≤ readMessageMax))
  | .acceptDone _ | .writeDone _ _ | .pingDone _ | .pongDone _ | .closeDone _ | .waitDone _ _
  | .control _ _ | .tick _ | .expire => isTrue trivial

def step (overflow : ℤ → ℤ) (readMessageMax : ℕ) (r : Room) (e : Event) : Option Room :=
  if r.thrown then none
  else
    match e with
    | .upgrade => some ({ r with created := r.created + 1 }.call r.created .doAccept)
    | .disconnect i => some { r with isOpen := Function.update r.isOpen i false }
    | .session i e =>
      if i < r.created ∧ External readMessageMax e then
        ((Server.system callbacks).step (r.sessions i) e).map fun s =>
          { r with sessions := Function.update r.sessions i s }.react overflow i
            ((r.sessions i).callback callbacks e)
      else none

def system (overflow : ℤ → ℤ) (readMessageMax : ℕ) : System Room Event :=
  ⟨step overflow readMessageMax⟩

end Room
end BeastWebsocket.Chat
