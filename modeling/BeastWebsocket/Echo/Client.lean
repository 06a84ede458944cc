import BeastWebsocket.Echo.Server
import BeastWebsocket.Session.Conversation

/-! # The echo client

The session of the echo client. Its callbacks `on_handshake` and `on_message` read a line from the
console and append it to the output.
-/
namespace BeastWebsocket
open Channel Transition

namespace Client.Event

/-- A read or a write completes with success. -/
def completes : Event → Bool
  | .readDone .success _ _ | .writeDone _ .success => true
  | _ => false

/-- An operation fails. -/
def fails : Event → Bool
  | .handshakeDone ec _ | .readDone ec _ _ | .writeDone _ ec | .pingDone ec | .pongDone ec
  | .closeDone ec => ec.failed
  | _ => false

end Client.Event

/-- The session, whether the client has connected, the lines that have been `typed` and the
messages that `on_message` has printed. -/
structure EchoClient where
  session : Client := {}
  connected : Bool := false
  typed : List Bytes := []
  console : List Bytes := []

namespace EchoClient

/-- The callback reads `line` from the console. -/
def react (line : Bytes) : Option Callback → List Client.Event
  | some (.handshake _) | some (.message _) => [.call (.append line), .resume]
  | _ => []

def reads (line : Bytes) : Option Callback → List Bytes
  | some (.handshake _) | some (.message _) => [line]
  | _ => []

def prints : Option Callback → List Bytes
  | some (.message input) => [input]
  | _ => []

/-- The connection is there and `on_connect` is called, or an event of the session arrives; if its
handler reads from the console, it reads `line`. -/
inductive Event where
  | connect
  | session (e : Client.Event) (line : Bytes)
deriving DecidableEq

/-- A handler of the session. -/
def handle (s : Client) (e : Client.Event) (line : Bytes) : Option Client :=
  (Client.system Echo.callbacks).run s (e :: react line (s.callback Echo.callbacks e))

def step (c : EchoClient) : Event → Option EchoClient
  | .connect =>
    if c.connected then none
    else some { c with connected := true,
                       session := c.session.call Echo.callbacks .doHandshake }
  | .session e line =>
    if Client.External e then
      (handle c.session e line).map fun s =>
        { c with session := s,
                 typed := c.typed ++ reads line (c.session.callback Echo.callbacks e),
                 console := c.console ++ prints (c.session.callback Echo.callbacks e) }
    else none

def system : System EchoClient Event := ⟨step⟩

variable {c d : EchoClient} {y : Dialogue Byte} {l : List Bytes} {e : Client.Event} {line : Bytes}

theorem step_session (h : step c (.session e line) = some d) :
    Client.External e ∧ ∃ s, handle c.session e line = some s ∧
      d = { c with session := s,
                   typed := c.typed ++ reads line (c.session.callback Echo.callbacks e),
                   console := c.console ++ prints (c.session.callback Echo.callbacks e) } := by
  obtain ⟨hext, h⟩ := Option.ite_none_right_eq_some.mp h
  obtain ⟨s, hs, rfl⟩ := Option.map_eq_some_iff.mp h
  exact ⟨hext, s, hs, rfl⟩

theorem exists_step {s : Client} (hext : Client.External e)
    (hs : handle c.session e line = some s) : ∃ d, step c (.session e line) = some d := by
  rw [step, if_pos hext, hs]
  exact ⟨_, rfl⟩

/-! ## The link -/

def sent (c : EchoClient) : List Bytes := handedPayloads c.session.log

def takes : Event → Option Bytes
  | .session e _ => Client.takes e
  | .connect => none

theorem sent_grows (c : EchoClient) (e : Event) (d : EchoClient) (h : step c e = some d) :
    c.sent <+: d.sent := by
  apply project_isPrefix
  cases e with
  | connect =>
    obtain ⟨_, h⟩ := Option.ite_none_left_eq_some.mp h
    cases h
    have hcall : (Client.system Echo.callbacks).step c.session (.call .doHandshake) =
        some (c.session.doHandshake Echo.callbacks) := rfl
    exact Client.step_log hcall
  | session e line =>
    obtain ⟨_, s, hs, rfl⟩ := step_session h
    exact Client.run_log hs

/-- The client with its link to the server. -/
def spoke : Spoke EchoClient Event Bytes Bytes where
  step := step
  sent := sent
  takes := takes
  grows := sent_grows

/-! ## Lines and messages -/

/-- How many lines have been typed when the messages `l` have been received. -/
structure Counts (y : Dialogue Byte) (typed l : List Bytes) : Prop where
  opening : y.phase = .fresh ∨ y.phase = .connecting → typed = [] ∧ l = []
  awaiting : y.phase = .reading ∨ y.phase = .writing → typed.length = l.length + 1 ∧ [] ∉ typed
  silent : y.phase = .silent → ∃ lines, typed = lines ++ [[]] ∧ lines.length = l.length
  ahead : typed.length ≤ l.length + 1
  empty_last : [] ∉ typed.dropLast

/-- Between two handlers, the conversation of the session has as its outputs what has been typed,
and all messages have been printed. -/
structure Converses (c : EchoClient) (y : Dialogue Byte) (l : List Bytes) : Prop where
  follows : c.session.Follows y
  coherent : y.Coherent
  between : y.phase ≠ .callback
  inbox : (c.session.inbox Echo.callbacks).Disciplined
  connected : c.connected = false → y.phase = .fresh
  outputs : y.talk.outputs = c.typed
  choice : y.talk.next = true ∧ y.talk.asked = false
  printed : c.console = l
  counts : Counts y c.typed l

theorem converses_initial : Converses {} {} [] where
  follows := Client.follows_initial
  coherent := Dialogue.coherent_initial
  between := by simp
  inbox := Inbox.disciplined_empty _
  connected := fun _ => rfl
  outputs := rfl
  choice := ⟨rfl, rfl⟩
  printed := rfl
  counts := by constructor <;> simp

theorem Converses.idle (hc : c.Converses y l) : c.session.frame = .idle :=
  hc.follows.frame.mpr hc.between

theorem Converses.connect (hc : c.Converses y l) (h : step c .connect = some d) :
    ∃ z, d.Converses z l := by
  obtain ⟨hnew, h⟩ := Option.ite_none_left_eq_some.mp h
  cases h
  have hfresh := hc.connected (by simpa using hnew)
  obtain ⟨z, hz, hfollows⟩ : ∃ z, (Dialogue.system Byte).step y .connect = some z ∧
      (c.session.doHandshake Echo.callbacks).Follows z :=
    hc.follows.doHandshake (hc.follows.started.mpr hfresh)
  have hcoherent := hc.coherent.step hz
  obtain ⟨_, hz⟩ := Option.ite_none_right_eq_some.mp hz
  cases hz
  refine ⟨_, hfollows, hcoherent, by simp, ?_, by simp, hc.outputs, hc.choice, hc.printed, ?_⟩
  · exact hc.inbox.leads (Client.step_inbox c.session (.call .doHandshake) _ rfl)
  · obtain ⟨htyped, hl⟩ := hc.counts.opening (Or.inl hfresh)
    constructor <;> simp [htyped, hl]

/-- A handler that runs found the client connected. -/
theorem Converses.ran (hc : c.Converses y l) (h : y.phase ≠ .fresh) : c.connected = true := by
  by_contra hnew
  exact h (hc.connected (by simpa using hnew))

/-- A handler that is no step of the conversation. -/
theorem Converses.unmoved {s : Client} (hc : c.Converses y l) (hop : e.talkOp = none)
    (hcalls : c.session.Converses e)
    (h : (Client.system Echo.callbacks).step c.session e = some s) :
    Converses { c with session := s } y l := by
  obtain ⟨z, hz, hfollows⟩ := Client.step_follows c.session e s y ⟨hc.follows, hc.coherent⟩ hcalls h
  have hinbox := hc.inbox.leads (Client.step_inbox c.session e s h)
  rw [hop] at hz
  cases hz
  exact ⟨hfollows, hc.coherent, hc.between, hinbox, hc.connected, hc.outputs, hc.choice, hc.printed,
    hc.counts⟩

/-- A handler without a callback types nothing. -/
theorem Converses.silent {s : Client} (hc : c.Converses y l)
    (hop : e.talkOp = none ∨ e.talkOp = some .failed) (hcalls : c.session.Converses e)
    (h : (Client.system Echo.callbacks).step c.session e = some s) :
    ∃ z, Converses { c with session := s } z l := by
  rcases hop with hop | hop
  · exact ⟨y, hc.unmoved hop hcalls h⟩
  · obtain ⟨z, hz, hfollows⟩ :=
      Client.step_follows c.session e s y ⟨hc.follows, hc.coherent⟩ hcalls h
    have hinbox := hc.inbox.leads (Client.step_inbox c.session e s h)
    rw [hop] at hz
    have hcoherent := hc.coherent.step hz
    obtain ⟨hphase, hz⟩ := Option.ite_none_right_eq_some.mp hz
    cases hz
    have hran := hc.ran (fun hfresh => by rw [hfresh] at hphase; cases hphase)
    refine ⟨_, hfollows, hcoherent, by simp, hinbox, by simp [hran], hc.outputs, hc.choice,
      hc.printed, ?_⟩
    constructor <;> simp [hc.counts.ahead, hc.counts.empty_last]

theorem Converses.onWrite {s : Client} {i : ℕ} (hc : c.Converses y l)
    (h : (Client.system Echo.callbacks).step c.session (.writeDone i .success) = some s) :
    y.phase = .writing ∧ ∃ z, Converses { c with session := s } z l ∧ z.phase = .reading := by
  obtain ⟨z, hz, hfollows⟩ := Client.step_follows c.session (.writeDone i .success) s y
    ⟨hc.follows, hc.coherent⟩ trivial h
  have hcoherent := hc.coherent.step hz
  obtain ⟨hphase, hz⟩ := Option.ite_none_right_eq_some.mp hz
  cases hz
  have hran := hc.ran (by simp [hphase])
  have hawaiting := hc.counts.awaiting (Or.inr hphase)
  refine ⟨hphase, _, ⟨hfollows, hcoherent, ?_, ?_, by simp [hran], hc.outputs, hc.choice,
    hc.printed, ?_⟩, ?_⟩
  · simp [hc.choice.1]
  · exact hc.inbox.leads (Client.step_inbox c.session (.writeDone i .success) s h)
  · constructor <;> simp [hc.choice.1, hawaiting, hc.counts.empty_last]
  · simp [hc.choice.1]

/-- A callback that is called with `o` and is given `line`. -/
structure Answers (y : Dialogue Byte) (line : Bytes) (s : Client) (z : Dialogue Byte) : Prop where
  follows : s.Follows z
  coherent : z.Coherent
  inbox : (s.inbox Echo.callbacks).Disciplined
  talk : z.talk = { outputs := y.talk.outputs ++ [line], output := line }
  phase : z.phase = if line.isEmpty then .silent else .writing

theorem Converses.answers {s : Client} (hc : c.Converses y l)
    (hop : e.talkOp = some .connected ∨ e.talkOp = some .message) (hcalls : c.session.Converses e)
    (h : (Client.system Echo.callbacks).run c.session [e, .call (.append line), .resume] = some s) :
    ∃ z, Answers y line s z := by
  have hinbox : (s.inbox Echo.callbacks).Disciplined :=
    hc.inbox.run (f := fun u : Client => u.inbox Echo.callbacks) Client.step_inbox h
  obtain ⟨o, hop, ho⟩ : ∃ o, e.talkOp = some o ∧ (o = .connected ∨ o = .message) := by
    rcases hop with hop | hop
    · exact ⟨_, hop, Or.inl rfl⟩
    · exact ⟨_, hop, Or.inr rfl⟩
  obtain ⟨u, hu, h⟩ := (Client.system Echo.callbacks).run_cons_eq_some.mp h
  obtain ⟨v, hv, h⟩ := (Client.system Echo.callbacks).run_cons_eq_some.mp h
  obtain ⟨w, hw, h⟩ := (Client.system Echo.callbacks).run_cons_eq_some.mp h
  cases h
  obtain ⟨x, hx, hux⟩ := Client.step_follows c.session e u y ⟨hc.follows, hc.coherent⟩ hcalls hu
  rw [hop] at hx
  have hcoherent := hc.coherent.step hx
  obtain ⟨hphase, htalk⟩ := Dialogue.step_enter ho hx
  have hframe : u.frame ≠ .idle := by
    rw [Ne, hux.frame, hphase]
    simp
  have hready : u.readable = true := by
    have hlisten : ¬ x.Listens := by simp [Dialogue.Listens, hphase, htalk]
    rw [← hux.readable (by simp [hphase])] at hlisten
    simpa using hlisten
  obtain ⟨x', hx', hvx⟩ := Client.step_follows u (.call (.append line)) v x ⟨hux, hcoherent⟩
    ⟨hframe, Or.inr hready⟩ hv
  have hcoherent' := hcoherent.step hx'
  have htalk' : x'.talk = { outputs := y.talk.outputs, output := line } := by
    rw [Dialogue.talk_step hx', htalk]
    rfl
  obtain ⟨z, hz, hsz⟩ := Client.step_follows v .resume s x' ⟨hvx, hcoherent'⟩ trivial hw
  refine ⟨z, hsz, hcoherent'.step hz, hinbox, ?_, ?_⟩
  · rw [Dialogue.talk_step hz, htalk']
    rfl
  · have hreturned := Dialogue.step_returned (by rw [htalk']) hz
    rw [htalk'] at hreturned
    exact hreturned

/-- A line is typed when the conversation is open and nothing else is. -/
theorem Counts.typed {z : Dialogue Byte} {typed : List Bytes} {line : Bytes}
    (hlength : typed.length = l.length) (hne : [] ∉ typed)
    (hphase : z.phase = if line.isEmpty then .silent else .writing) :
    Counts z (typed ++ [line]) l := by
  cases hline : line.isEmpty with
  | true =>
    rw [hline] at hphase
    rw [List.isEmpty_iff] at hline
    subst hline
    constructor
    · simp [hphase]
    · simp [hphase]
    · exact fun _ => ⟨typed, rfl, hlength⟩
    · simp [hlength]
    · simpa using hne
  | false =>
    rw [hline] at hphase
    have hnil : line ≠ [] := by
      rintro rfl
      cases hline
    constructor
    · simp [hphase]
    · intro _
      simp [hlength, hne, Ne.symm hnil]
    · simp [hphase]
    · simp [hlength]
    · simpa using hne

theorem Converses.onHandshake {s : Client} {response : Bytes} (hc : c.Converses y l)
    (h : (Client.system Echo.callbacks).run c.session
      [.handshakeDone .success response, .call (.append line), .resume] = some s) :
    ∃ z, Converses { c with session := s, typed := c.typed ++ [line] } z l := by
  obtain ⟨u, hu, _⟩ := (Client.system Echo.callbacks).run_cons_eq_some.mp h
  have hphase := hc.follows.connecting (Session.handled_eq_some.mp hu).1.2
  obtain ⟨htyped, hl⟩ := hc.counts.opening (Or.inr hphase)
  obtain ⟨z, hz⟩ := hc.answers (e := .handshakeDone .success response) (Or.inl rfl) trivial h
  have hcounts : Counts z (c.typed ++ [line]) l := by
    apply Counts.typed _ _ hz.phase
    · rw [htyped, hl]
    · simp [htyped]
  refine ⟨z, hz.follows, hz.coherent, ?_, hz.inbox, fun hnew => ?_, ?_, ?_, hc.printed, hcounts⟩
  · rw [hz.phase]
    split_ifs <;> simp
  · rw [hc.connected hnew] at hphase
    cases hphase
  · rw [hz.talk, hc.outputs]
  · rw [hz.talk]
    exact ⟨rfl, rfl⟩

theorem Converses.onMessage {s : Client} {chunk : Bytes} {text : Bool} (hc : c.Converses y l)
    (h : (Client.system Echo.callbacks).run c.session
      [.readDone .success chunk text, .call (.append line), .resume] = some s) :
    ∃ z, Converses { c with session := s, typed := c.typed ++ [line],
                            console := c.console ++ [chunk] } z (l ++ [chunk]) := by
  obtain ⟨u, hu, _⟩ := (Client.system Echo.callbacks).run_cons_eq_some.mp h
  have hphase := hc.follows.reading hc.idle (Session.handled_eq_some.mp hu).1.2
  obtain ⟨hlength, hne⟩ := hc.counts.awaiting (Or.inl hphase)
  obtain ⟨z, hz⟩ := hc.answers (e := .readDone .success chunk text) (Or.inr rfl) trivial h
  have hcounts : Counts z (c.typed ++ [line]) (l ++ [chunk]) := by
    apply Counts.typed _ hne hz.phase
    rw [hlength, List.length_append, List.length_singleton]
  refine ⟨z, hz.follows, hz.coherent, ?_, hz.inbox, fun hnew => ?_, ?_, ?_, ?_, hcounts⟩
  · rw [hz.phase]
    split_ifs <;> simp
  · rw [hc.connected hnew] at hphase
    cases hphase
  · rw [hz.talk, hc.outputs]
  · rw [hz.talk]
    exact ⟨rfl, rfl⟩
  · rw [hc.printed]

/-- Control frames reach no callback. -/
theorem callback_control (kind : FrameType) (payload : Bytes) :
    c.session.callback Echo.callbacks (.control kind payload) = none := by
  rw [Client.callback]
  split_ifs <;> simp [Callbacks.control, Echo.callbacks]

/-- While a read is outstanding, `on_message` is called with the message alone. -/
theorem Converses.callback_read (hc : c.Converses y l) (hpos : 0 < c.session.stream.reads)
    (chunk : Bytes) (text : Bool) :
    c.session.callback Echo.callbacks (.readDone .success chunk text) = some (.message chunk) := by
  have hempty : c.session.inputBuffer = [] :=
    hc.inbox.empty_of_reads hpos (by simp [Session.inbox, hc.idle])
  rw [Client.callback, hempty]
  rfl

theorem Converses.session_write {i : ℕ} (hc : c.Converses y l)
    (h : step c (.session (.writeDone i .success) line) = some d) :
    y.phase = .writing ∧ ∃ z, d.Converses z l ∧ z.phase = .reading := by
  obtain ⟨_, s, hs, rfl⟩ := step_session h
  obtain ⟨u, hu, hs⟩ := (Client.system Echo.callbacks).run_cons_eq_some.mp hs
  cases hs
  have hcall : c.session.callback Echo.callbacks (.writeDone i .success) = none := rfl
  simp only [hcall, reads, prints, List.append_nil]
  exact hc.onWrite hu

theorem Converses.session (hc : c.Converses y l) (h : step c (.session e line) = some d) :
    ∃ z, d.Converses z (l ++ (Client.takes e).toList) := by
  obtain ⟨hext, s, hs, rfl⟩ := step_session h
  have hsilent : ∀ {e}, Client.takes e = none → c.session.callback Echo.callbacks e = none →
      (e.talkOp = none ∨ e.talkOp = some .failed) → c.session.Converses e →
      handle c.session e line = some s →
      ∃ z, Converses { c with session := s,
                              typed := c.typed ++ reads line (c.session.callback Echo.callbacks e),
                              console := c.console ++ prints (c.session.callback Echo.callbacks e) }
        z (l ++ (Client.takes e).toList) := by
    intro e htakes hcall hop hcalls hs
    rw [handle, hcall] at hs
    obtain ⟨u, hu, hs⟩ := (Client.system Echo.callbacks).run_cons_eq_some.mp hs
    cases hs
    simp only [htakes, hcall, reads, prints, Option.toList_none, List.append_nil]
    exact hc.silent hop hcalls hu
  cases e with
  | call c => exact absurd hext id
  | setNextRead b => exact absurd hext id
  | resume => exact absurd hext id
  | handshakeDone ec response =>
    by_cases hec : ec = .success
    · subst hec
      have hcall : c.session.callback Echo.callbacks (.handshakeDone .success response) =
          some (.handshake response) := rfl
      rw [handle, hcall] at hs
      simp only [hcall, reads, prints, Client.takes, Option.toList_none, List.append_nil]
      exact hc.onHandshake hs
    · refine hsilent rfl (by simp [Client.callback, hec]) ?_ trivial hs
      simp [Client.Event.talkOp, hec]
  | readDone ec chunk text =>
    by_cases hec : ec = .success
    · subst hec
      have hpos : 0 < c.session.stream.reads := by
        obtain ⟨u, hu, _⟩ := (Client.system Echo.callbacks).run_cons_eq_some.mp hs
        exact (Session.handled_eq_some.mp hu).1.2
      have hcall := hc.callback_read hpos chunk text
      rw [handle, hcall] at hs
      rw [hcall]
      exact hc.onMessage hs
    · have htakes : Client.takes (.readDone ec chunk text) = none := by
        cases ec <;> first | rfl | exact absurd rfl hec
      refine hsilent htakes (by simp [Client.callback, hec]) ?_ trivial hs
      simp [Client.Event.talkOp, hec]
  | writeDone i ec =>
    by_cases hec : ec = .success
    · subst hec
      obtain ⟨_, z, hz, _⟩ := hc.session_write h
      have htakes : Client.takes (.writeDone i .success) = none := rfl
      rw [htakes, Option.toList_none, List.append_nil]
      exact ⟨z, hz⟩
    · refine hsilent rfl rfl ?_ trivial hs
      simp [Client.Event.talkOp, hec]
  | control kind payload =>
    exact hsilent rfl (callback_control kind payload) (Or.inl rfl) trivial hs
  | _ => exact hsilent rfl rfl (Or.inl rfl) trivial hs

/-- Once the handshake is done, all other events leave the conversation where it is. -/
theorem Converses.session_other (hc : c.Converses y l)
    (hawaiting : y.phase = .reading ∨ y.phase = .writing) (hfails : e.fails = false)
    (hother : e.completes = false) (h : step c (.session e line) = some d) :
    d.Converses y l ∧ d.console = c.console ∧ Client.takes e = none := by
  obtain ⟨hext, s, hs, rfl⟩ := step_session h
  have hsilent : c.session.callback Echo.callbacks e = none → e.talkOp = none →
      c.session.Converses e →
      Converses { c with session := s,
                         typed := c.typed ++ reads line (c.session.callback Echo.callbacks e),
                         console := c.console ++ prints (c.session.callback Echo.callbacks e) }
          y l ∧
        c.console ++ prints (c.session.callback Echo.callbacks e) = c.console := by
    intro hcall hop hcalls
    rw [handle, hcall] at hs
    obtain ⟨u, hu, hs⟩ := (Client.system Echo.callbacks).run_cons_eq_some.mp hs
    cases hs
    simp only [hcall, reads, prints, List.append_nil]
    exact ⟨hc.unmoved hop hcalls hu, trivial⟩
  cases e with
  | call c => exact absurd hext id
  | setNextRead b => exact absurd hext id
  | resume => exact absurd hext id
  | handshakeDone ec response =>
    obtain ⟨u, hu, _⟩ := (Client.system Echo.callbacks).run_cons_eq_some.mp hs
    have hphase := hc.follows.connecting (Session.handled_eq_some.mp hu).1.2
    rw [hphase] at hawaiting
    simp at hawaiting
  | readDone ec chunk text =>
    cases ErrorCode.failed_eq_false.mp hfails
    cases hother
  | writeDone i ec =>
    cases ErrorCode.failed_eq_false.mp hfails
    cases hother
  | control kind payload =>
    obtain ⟨hd, hconsole⟩ := hsilent (callback_control kind payload) rfl trivial
    exact ⟨hd, hconsole, rfl⟩
  | _ =>
    obtain ⟨hd, hconsole⟩ := hsilent rfl rfl trivial
    exact ⟨hd, hconsole, rfl⟩

/-- Where an operation is outstanding, its success is handled. -/
theorem Converses.handles_read (hc : c.Converses y l) (hpos : 0 < c.session.stream.reads)
    (chunk : Bytes) (text : Bool) (line : Bytes) :
    ∃ d, EchoClient.step c (.session (.readDone .success chunk text) line) = some d := by
  obtain ⟨u, hu⟩ : ∃ u, (Client.system Echo.callbacks).step c.session
      (.readDone .success chunk text) = some u :=
    ⟨_, Session.handled_eq_some.mpr ⟨⟨hc.idle, hpos⟩, rfl⟩⟩
  have hcall := hc.callback_read hpos chunk text
  have hframe : (u.call Echo.callbacks (.append line)).frame = .reading := by
    obtain ⟨_, rfl⟩ := Session.handled_eq_some.mp hu
    rfl
  have hrun : handle c.session (.readDone .success chunk text) line =
      some ((u.call Echo.callbacks (.append line)).io Session.leave).onReadRest := by
    rw [handle, hcall, System.run_cons_eq_some]
    refine ⟨u, hu, ?_⟩
    rw [react, System.run_cons_eq_some]
    refine ⟨u.call Echo.callbacks (.append line), rfl, ?_⟩
    rw [System.run_cons_eq_some]
    refine ⟨_, ?_, rfl⟩
    change (u.call Echo.callbacks (.append line)).resume = _
    rw [Client.resume, hframe]
  exact exists_step trivial hrun

theorem Converses.handles_write (hc : c.Converses y l) (h : c.session.stream.writes ≠ [])
    (line : Bytes) : ∃ d, EchoClient.step c (.session (.writeDone 0 .success) line) = some d := by
  cases hwrites : c.session.stream.writes with
  | nil => exact absurd hwrites h
  | cons w ws =>
    have hw : c.session.stream.writes[0]? = some w := by
      rw [hwrites]
      rfl
    have hnext : c.session.handled True
        ((c.session.io (Session.writeDone 0 w .success)).onWrite .success w.bound) =
          some ((c.session.io (Session.writeDone 0 w .success)).onWrite .success w.bound) :=
      Session.handled_eq_some.mpr ⟨⟨hc.idle, trivial⟩, rfl⟩
    have hrun : handle c.session (.writeDone 0 .success) line =
        some ((c.session.io (Session.writeDone 0 w .success)).onWrite .success w.bound) := by
      rw [handle, System.run_cons_eq_some]
      exact ⟨_, Option.bind_eq_some_iff.mpr ⟨w, hw, hnext⟩, rfl⟩
    exact exists_step trivial hrun

theorem Converses.step (hc : ∃ y, c.Converses y l) {e : Event} (h : step c e = some d) :
    ∃ z, d.Converses z (l ++ (takes e).toList) := by
  obtain ⟨y, hc⟩ := hc
  cases e with
  | connect =>
    have htakes : takes .connect = none := rfl
    rw [htakes, Option.toList_none, List.append_nil]
    exact hc.connect h
  | session e line => exact hc.session h

end EchoClient
end BeastWebsocket
