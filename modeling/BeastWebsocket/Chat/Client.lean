import BeastWebsocket.Chat.Served
import BeastWebsocket.Session.Conversation
import BeastWebsocket.Session.Links
import BeastWebsocket.Session.Handed
import BeastWebsocket.Channel.Star

/-! # The chat client

The session of the chat client. Its callbacks answer the question for the name and print the
messages that they receive; its second thread sends what is typed once the client has been greeted.
A handler runs from its start to its end, with the callback that it calls.
-/
namespace BeastWebsocket
open Channel Transition Chat

/-- What the callbacks print. -/
inductive ChatClient.Print where
  | handshaked
  | enterName
  | message (m : Message)
  | invalid
deriving DecidableEq

/-- The session, whether the client has connected, the two static variables, and what has been
typed and printed; of `my_session_p`, whether it has been set. -/
structure ChatClient where
  session : Client := {}
  connected : Bool := false
  myName : Bytes := []
  mySession : Bool := false
  typed : List Bytes := []
  console : List ChatClient.Print := []
  thrown : Bool := false

namespace ChatClient

/-- The callbacks that the client installs, with the decorator of its requests. -/
def callbacks : Callbacks := { onPing := false, onPong := false, onClose := false }

def call (c : Client.Call) (x : ChatClient) : ChatClient :=
  { x with session := x.session.call callbacks c }

def resume (x : ChatClient) : ChatClient :=
  { x with session := x.session.resume.getD x.session }

def print (lines : List Print) (x : ChatClient) : ChatClient :=
  { x with console := x.console ++ lines }

def onHandshake (x : ChatClient) : ChatClient := (x.print [.handshaked]).call .doRead

/-- The server asks for the name, which is read from the console. -/
def onQuestion (name : Bytes) (x : ChatClient) : ChatClient :=
  ({ x with myName := name }.print [.enterName]).call
    (.append (bytes "My name is " ++ name))

/-- A message starts with the greeting of the client. -/
def greets (myName input : Bytes) : Bool :=
  decide (input.take (myName.length + 6) = bytes "Hello " ++ myName)

def inputString (myName input : Bytes) : Bytes :=
  if greets myName input then input.drop (myName.length + 6) else input

/-- Any other message. -/
def onFrame (overflow : ℤ → ℤ) (input : Bytes) (x : ChatClient) : ChatClient :=
  let x := { x with mySession := x.mySession || greets x.myName input }
  let p := Parser.advance overflow (inputString x.myName input) .success
  match p.usedBytes with
  | .error _ => { x with thrown := true }
  | .ok _ =>
    let x := if p.ec.failed then x.print [.invalid] else x.print (p.messages.map .message)
    x.call .doRead

/-- What the callback does, and the rest of the handler behind it. If it asks for the name, `name`
is what is typed. -/
def react (overflow : ℤ → ℤ) (name : Bytes) (x : ChatClient) : Option Callback → ChatClient
  | some (.handshake _) => x.onHandshake.resume
  | some (.message input) =>
    if input = question then (x.onQuestion name).resume
    else
      let x := x.onFrame overflow input
      if x.thrown then x else x.resume
  | _ => x

/-- The connection is there and `on_connect` is called, an event of the session arrives, or a line
is typed. -/
inductive Event where
  | connect
  | session (e : Client.Event) (name : Bytes)
  | typed (line : Bytes)
deriving DecidableEq

/-- What the second thread does with a line. -/
def send (line : Bytes) (x : ChatClient) : ChatClient :=
  match Serializer.advance [⟨line, x.myName⟩] [] with
  | .error _ => { x with thrown := true }
  | .ok (text, _) => (x.call (.append text)).call (.doWrite true)

def step (overflow : ℤ → ℤ) (x : ChatClient) (e : Event) : Option ChatClient :=
  if x.thrown then none
  else
    match e with
    | .connect =>
      if x.connected then none else some ({ x with connected := true }.call .doHandshake)
    | .session e name =>
      if Client.External e then
        ((Client.system callbacks).step x.session e).map fun s =>
          { x with session := s }.react overflow name (x.session.callback callbacks e)
      else none
    | .typed line =>
      if x.mySession then some ({ x with typed := x.typed ++ [line] }.send line) else none

def system (overflow : ℤ → ℤ) : System ChatClient Event := ⟨step overflow⟩

section
variable {overflow : ℤ → ℤ} {x y : ChatClient} {name line : Bytes}

theorem running_of_step {e : Event} (h : step overflow x e = some y) : x.thrown = false := by
  obtain ⟨hrunning, _⟩ := Option.ite_none_left_eq_some.mp h
  simpa using hrunning

theorem step_connect (h : step overflow x .connect = some y) :
    x.connected = false ∧ y = { x with connected := true }.call .doHandshake := by
  obtain ⟨_, h⟩ := Option.ite_none_left_eq_some.mp h
  obtain ⟨hnew, h⟩ := Option.ite_none_left_eq_some.mp h
  exact ⟨by simpa using hnew, (Option.some.inj h).symm⟩

theorem step_session {e : Client.Event} (h : step overflow x (.session e name) = some y) :
    Client.External e ∧ ∃ s, (Client.system callbacks).step x.session e = some s ∧
      y = { x with session := s }.react overflow name (x.session.callback callbacks e) := by
  obtain ⟨_, h⟩ := Option.ite_none_left_eq_some.mp h
  obtain ⟨hext, h⟩ := Option.ite_none_right_eq_some.mp h
  obtain ⟨s, hs, rfl⟩ := Option.map_eq_some_iff.mp h
  exact ⟨hext, s, hs, rfl⟩

theorem step_typed (h : step overflow x (.typed line) = some y) :
    x.mySession = true ∧
      y = ({ x with typed := x.typed ++ [line] }.call
        (.append (frame [⟨line, x.myName⟩]))).call (.doWrite true) := by
  obtain ⟨_, h⟩ := Option.ite_none_left_eq_some.mp h
  obtain ⟨hgreeted, h⟩ := Option.ite_none_right_eq_some.mp h
  cases h
  have hwritten : Serializer.advance [⟨line, x.myName⟩] [] =
      .ok (frame [⟨line, x.myName⟩], (frame [⟨line, x.myName⟩]).length) := by
    rw [Serializer.advance_eq [] (by simp), List.nil_append]
  rw [send, hwritten]
  exact ⟨hgreeted, rfl⟩

end

/-- What `on_message` prints of a frame. -/
def prints (overflow : ℤ → ℤ) (myName input : Bytes) : List Print :=
  let p := Parser.advance overflow (inputString myName input) .success
  match p.usedBytes with
  | .error _ => []
  | .ok _ => if p.ec.failed then [.invalid] else p.messages.map .message

/-- What `on_message` does beside calling `do_read`, which it does unless the parser throws. -/
structure OnFrame (overflow : ℤ → ℤ) (input : Bytes) (x y : ChatClient) : Prop where
  connected : y.connected = x.connected
  myName : y.myName = x.myName
  mySession : y.mySession = (x.mySession || greets x.myName input)
  typed : y.typed = x.typed
  console : y.console = x.console ++ prints overflow x.myName input

theorem onFrame_spec (overflow : ℤ → ℤ) (input : Bytes) (x : ChatClient) :
    OnFrame overflow input x (x.onFrame overflow input) ∧
      ((x.onFrame overflow input).thrown = true ∧
          (x.onFrame overflow input).session = x.session ∨
        (x.onFrame overflow input).thrown = x.thrown ∧
          (x.onFrame overflow input).session = x.session.call callbacks .doRead) := by
  cases hused : (Parser.advance overflow (inputString x.myName input) .success).usedBytes with
  | error ex =>
    have hthrows : x.onFrame overflow input =
        { x with mySession := x.mySession || greets x.myName input, thrown := true } := by
      simp only [onFrame, hused]
    rw [hthrows]
    refine ⟨⟨rfl, rfl, rfl, rfl, ?_⟩, Or.inl ⟨rfl, rfl⟩⟩
    simp [prints, hused]
  | ok used =>
    have hprints : x.onFrame overflow input =
        (print (prints overflow x.myName input)
          { x with mySession := x.mySession || greets x.myName input }).call .doRead := by
      simp only [onFrame, prints, hused]
      split_ifs <;> rfl
    rw [hprints]
    exact ⟨⟨rfl, rfl, rfl, rfl, rfl⟩, Or.inr ⟨rfl, rfl⟩⟩

/-! ## The link -/

def sent (x : ChatClient) : List Bytes := handedPayloads x.session.log

def takes : Event → Option Bytes
  | .session e _ => Client.takes e
  | .connect | .typed _ => none

theorem call_log (c : Client.Call) (x : ChatClient) : x.session.log <+: (x.call c).session.log := by
  have hstep : (Client.system callbacks).step x.session (.call c) = some (x.call c).session := rfl
  exact Client.step_log hstep

theorem resume_log (x : ChatClient) : x.session.log <+: x.resume.session.log := by
  rw [resume]
  cases h : x.session.resume with
  | none => exact List.prefix_rfl
  | some s =>
    have hreturn : (Client.system callbacks).step x.session .resume = some s := h
    exact Client.step_log hreturn

theorem react_log (overflow : ℤ → ℤ) (name : Bytes) (c : Option Callback) (x : ChatClient) :
    x.session.log <+: (x.react overflow name c).session.log := by
  rw [react.eq_def]
  split
  · exact (call_log .doRead (x.print [.handshaked])).trans (resume_log _)
  · next input =>
    split_ifs
    · exact (call_log (.append (bytes "My name is " ++ name))
        ({ x with myName := name }.print [.enterName])).trans (resume_log _)
    · have hframe : x.session.log <+: (x.onFrame overflow input).session.log := by
        rcases (onFrame_spec overflow input x).2 with ⟨_, hsame⟩ | ⟨_, hread⟩
        · rw [hsame]
        · rw [hread]
          exact call_log .doRead x
      simp only
      split_ifs
      · exact hframe
      · exact hframe.trans (resume_log _)
  · exact List.prefix_rfl

theorem sent_grows (overflow : ℤ → ℤ) (x : ChatClient) (e : Event) (y : ChatClient)
    (h : step overflow x e = some y) : x.sent <+: y.sent := by
  apply project_isPrefix
  cases e with
  | connect =>
    obtain ⟨_, rfl⟩ := step_connect h
    exact call_log .doHandshake { x with connected := true }
  | session e name =>
    obtain ⟨_, s, hs, rfl⟩ := step_session h
    exact (Client.step_log hs).trans (react_log overflow name _ { x with session := s })
  | typed line =>
    obtain ⟨_, rfl⟩ := step_typed h
    exact (call_log (.append _) x).trans (call_log (.doWrite true) _)

/-- The client with its link to the server. -/
def spoke (overflow : ℤ → ℤ) : Spoke ChatClient Event Bytes Bytes where
  step := step overflow
  sent := sent
  takes := takes
  grows := sent_grows overflow

/-! ## What a client sends -/

/-- A text that starts with the frame of one of the lines. -/
def Spoken (lines : List Bytes) (name text : Bytes) : Prop :=
  ∃ line ∈ lines, ∃ rest, text = frame [⟨line, name⟩] ++ rest

section Spoken
variable {lines : List Bytes} {name text : Bytes}

theorem Spoken.append (h : Spoken lines name text) (b : Bytes) : Spoken lines name (text ++ b) := by
  obtain ⟨line, hline, rest, rfl⟩ := h
  exact ⟨line, hline, rest ++ b, List.append_assoc _ _ _⟩

theorem Spoken.mono {more : List Bytes} (h : Spoken lines name text) (hmore : lines ⊆ more) :
    Spoken more name text := by
  obtain ⟨line, hline, hrest⟩ := h
  exact ⟨line, hmore hline, hrest⟩

theorem spoken_frame {line : Bytes} (hline : line ∈ lines) :
    Spoken lines name (frame [⟨line, name⟩]) :=
  ⟨line, hline, [], (List.append_nil _).symm⟩

theorem Spoken.ne_nil (h : Spoken lines name text) : text ≠ [] := by
  obtain ⟨line, _, rest, rfl⟩ := h
  simp [frame, headText]

/-- A frame starts like no answer to the question. -/
theorem take_of_prefixString (rest : Bytes) :
    (Inv.prefixString ++ rest).take 11 ≠ Room.nameString := by
  intro h
  have hfirst := congrArg List.head? h
  rw [List.head?_take, if_neg (by simp)] at hfirst
  have hhead : (Inv.prefixString ++ rest).head? = some 105 := rfl
  rw [hhead] at hfirst
  exact absurd hfirst (by decide)

theorem Spoken.take (h : Spoken lines name text) : text.take 11 ≠ Room.nameString := by
  obtain ⟨line, _, rest, rfl⟩ := h
  rw [frame, List.append_assoc, headText_append]
  exact take_of_prefixString _

end Spoken

/-- The client has sent its name and then frames, and has nothing but frames to send. -/
abbrev Talks (lines : List Bytes) (name : Bytes) (s : Client) : Prop :=
  Outbox.Headed (Room.nameString ++ name) (Spoken lines name) (handedPayloads s.log) s.outbox

theorem Talks.mono {lines more : List Bytes} {name : Bytes} {s : Client} (hs : Talks lines name s)
    (hmore : lines ⊆ more) : Talks more name s := by
  obtain ⟨⟨rest, hrest, hspoken⟩, hbuffer⟩ := hs
  exact ⟨⟨rest, hrest, fun m hm => (hspoken m hm).mono hmore⟩,
    hbuffer.imp_right fun h => h.mono hmore⟩

/-- The client appends frames only, and writes when there is something to write. -/
theorem Talks.step {lines : List Bytes} {name : Bytes} {s t : Client} {e : Client.Event}
    (hs : Talks lines name s) (happend : ∀ b, e = .call (.append b) → Spoken lines name b)
    (hwrite : ∀ nextRead, e = .call (.doWrite nextRead) → s.outputBuffer ≠ [])
    (h : (Client.system callbacks).step s e = some t) : Talks lines name t := by
  have hop : (Outbox.system Byte).perform s.outbox (s.outboxOp e) = some t.outbox :=
    Client.refines_outbox s e t h
  have hkeeps : s.outbox.Keeps (Spoken lines name) (s.outboxOp e) := by
    cases e with
    | call c =>
      cases c with
      | append b => exact happend b rfl
      | doWrite nextRead =>
        rw [Client.outboxOp]
        split_ifs
        · exact hs.buffer.resolve_left (hwrite nextRead rfl)
        · trivial
      | _ => trivial
    | writeDone i ec =>
      rw [Client.outboxOp]
      split_ifs <;> trivial
    | resume =>
      rw [Client.outboxOp]
      split_ifs with hpos
      · rw [Bool.and_eq_true, decide_eq_true_eq] at hpos
        exact hs.buffer.resolve_left (List.length_pos_iff.mp hpos.2)
      · trivial
    | _ => trivial
  rw [Talks, Client.step_handed h]
  exact hs.perform (fun a b ha _ => ha.append b) hkeeps hop

end ChatClient
end BeastWebsocket
