import BeastWebsocket.Session.RequestReply
import BeastWebsocket.Session.Posting
import BeastWebsocket.Session.Input
import BeastWebsocket.Session.Links
import BeastWebsocket.Channel.Star

/-! # The echo server

The sessions of the echo server. Its callbacks are an `on_accept` that leaves the output empty and
an `on_message` that prints the message and appends it to the output. A handler runs from its start
to its end, with the callback that it calls.
-/
namespace BeastWebsocket
open Channel Transition

namespace Echo

/-- The callbacks that the server and the client install. -/
def callbacks : Callbacks :=
  { decorator := false, onPing := false, onPong := false, onClose := false }

end Echo

/-- The sessions that have been `created`, and what has been printed. -/
structure EchoServer where
  created : ℕ := 0
  sessions : ℕ → Server := fun _ => {}
  console : List Bytes := []

namespace EchoServer

/-- What a callback calls, and its return. -/
def react : Option Callback → List Server.Event
  | some .accept => [.resume]
  | some (.message input) => [.call (.append input), .resume]
  | _ => []

def prints : Option Callback → List Bytes
  | some (.message input) => [input]
  | _ => []

inductive Event where
  | upgrade
  | session (i : ℕ) (e : Server.Event)
deriving DecidableEq

/-- What happens to a session without its user code. -/
def External : Server.Event → Prop
  | .call _ | .resume => False
  | _ => True

instance (e : Server.Event) : Decidable (External e) :=
  match e with
  | .call _ | .resume => isFalse id
  | .acceptDone _ | .readDone _ _ _ | .writeDone _ _ | .pingDone _ | .pongDone _ | .closeDone _
  | .waitDone _ _ | .control _ _ | .tick _ | .expire => isTrue trivial

/-- A handler of a session. -/
def handle (s : Server) (e : Server.Event) : Option Server :=
  (Server.system Echo.callbacks).run s (e :: react (s.callback Echo.callbacks e))

def step (h : EchoServer) : Event → Option EchoServer
  | .upgrade =>
    some { h with created := h.created + 1,
                  sessions := Function.update h.sessions h.created
                    ((h.sessions h.created).call Echo.callbacks .doAccept) }
  | .session i e =>
    if i < h.created ∧ External e then
      (handle (h.sessions i) e).map fun s =>
        { h with sessions := Function.update h.sessions i s,
                 console := h.console ++ prints ((h.sessions i).callback Echo.callbacks e) }
    else none

def system : System EchoServer Event := ⟨step⟩

end EchoServer

/-! ## One session -/

namespace Server

/-- A read or a write completes with success. -/
def Event.completes : Event → Bool
  | .readDone .success _ _ | .writeDone _ .success => true
  | _ => false

/-- An operation fails. -/
def Event.fails : Event → Bool
  | .acceptDone ec | .readDone ec _ _ | .writeDone _ ec | .pingDone ec | .pongDone ec
  | .closeDone ec | .waitDone _ ec => ec.failed
  | _ => false

variable {s t : Server} {y : Loop Byte} {l : List Bytes} {e : Event}

/-- Between two handlers, the session has written the messages `l` that are not empty. -/
structure Echoes (s : Server) (y : Loop Byte) (l : List Bytes) : Prop where
  follows : s.Follows y
  clear : y.Clear
  between : y.phase ≠ .callback
  inbox : (s.inbox Echo.callbacks).Disciplined
  written : y.written = l.filter fun b => !b.isEmpty

theorem echoes_initial : Echoes {} {} [] where
  follows := follows_initial
  clear := fun _ => rfl
  between := by simp
  inbox := Inbox.disciplined_empty _
  written := rfl

theorem Echoes.idle (hs : s.Echoes y l) : s.frame = .idle := hs.follows.frame.mpr hs.between

theorem Echoes.disciplined_run (hs : s.Echoes y l) {es : List Event}
    (h : (system Echo.callbacks).run s es = some t) : (t.inbox Echo.callbacks).Disciplined :=
  hs.inbox.run (f := fun u : Server => u.inbox Echo.callbacks) step_inbox h

theorem Echoes.doAccept (hs : s.Echoes y l) (h : startedOps s.log = []) :
    ∃ z, (s.call Echo.callbacks .doAccept).Echoes z l := by
  obtain ⟨z, hz, hfollows⟩ : ∃ z, (Loop.system Byte).step y .connect = some z ∧
      (s.doAccept Echo.callbacks).Follows z := hs.follows.doAccept h
  have hclear := hs.clear.step hz
  obtain ⟨_, hz⟩ := Option.ite_none_right_eq_some.mp hz
  cases hz
  refine ⟨_, hfollows, hclear, by simp, ?_, hs.written⟩
  exact hs.inbox.leads (step_inbox s (.call .doAccept) _ rfl)

/-- A handler that is no step of the loop. -/
theorem Echoes.unmoved (hs : s.Echoes y l) (hop : e.loopOp = none) (hcalls : s.OnlyAppends e)
    (h : (system Echo.callbacks).step s e = some t) : t.Echoes y l := by
  obtain ⟨z, hz, hfollows⟩ := step_follows s e t y hs.follows hcalls h
  rw [hop] at hz
  cases hz
  exact ⟨hfollows, hs.clear, hs.between, hs.inbox.leads (step_inbox s e t h), hs.written⟩

/-- A handler without a callback writes nothing. -/
theorem Echoes.silent (hs : s.Echoes y l) (hop : e.loopOp = none ∨ e.loopOp = some .failed)
    (hcalls : s.OnlyAppends e) (h : (system Echo.callbacks).step s e = some t) :
    ∃ z, t.Echoes z l := by
  rcases hop with hop | hop
  · exact ⟨y, hs.unmoved hop hcalls h⟩
  · obtain ⟨z, hz, hfollows⟩ := step_follows s e t y hs.follows hcalls h
    have hinbox := hs.inbox.leads (step_inbox s e t h)
    rw [hop] at hz
    have hclear := hs.clear.step hz
    obtain ⟨_, hz⟩ := Option.ite_none_right_eq_some.mp hz
    cases hz
    exact ⟨_, hfollows, hclear, by simp, hinbox, hs.written⟩

theorem Echoes.onWrite (hs : s.Echoes y l) {i : ℕ}
    (h : (system Echo.callbacks).step s (.writeDone i .success) = some t) :
    y.phase = .writing ∧ ∃ z, t.Echoes z l ∧ z.phase = .reading := by
  obtain ⟨z, hz, hfollows⟩ := step_follows s (.writeDone i .success) t y hs.follows trivial h
  have hclear := hs.clear.step hz
  obtain ⟨hphase, hz⟩ := Option.ite_none_right_eq_some.mp hz
  cases hz
  refine ⟨hphase, _, ⟨hfollows, hclear, by simp, ?_, hs.written⟩, rfl⟩
  exact hs.inbox.leads (step_inbox s (.writeDone i .success) t h)

theorem Echoes.onAccept (hs : s.Echoes y l)
    (h : (system Echo.callbacks).run s [.acceptDone .success, .resume] = some t) :
    ∃ z, t.Echoes z l := by
  have hinbox := hs.disciplined_run h
  obtain ⟨u, hu, h⟩ := (system Echo.callbacks).run_cons_eq_some.mp h
  obtain ⟨v, hv, h⟩ := (system Echo.callbacks).run_cons_eq_some.mp h
  cases h
  obtain ⟨x, hx, hfollows⟩ := step_follows s (.acceptDone .success) u y hs.follows trivial hu
  obtain ⟨_, hempty, hwritten⟩ := hs.clear.enter (Or.inl rfl) hx
  obtain ⟨z, hz, hfollows⟩ := step_follows u .resume t x hfollows trivial hv
  have hclear := (hs.clear.step hx).step hz
  obtain ⟨hsame, hphase⟩ := Loop.step_returned hz
  rw [hempty] at hsame hphase
  refine ⟨z, hfollows, hclear, by simp [hphase], hinbox, ?_⟩
  rw [hsame, hwritten, hs.written]
  simp

theorem Echoes.onMessage (hs : s.Echoes y l) {chunk : Bytes} {text : Bool}
    (h : (system Echo.callbacks).run s
      [.readDone .success chunk text, .call (.append chunk), .resume] = some t) :
    ∃ z, t.Echoes z (l ++ [chunk]) ∧ z.phase = if chunk.isEmpty then .reading else .writing := by
  have hinbox := hs.disciplined_run h
  obtain ⟨u, hu, h⟩ := (system Echo.callbacks).run_cons_eq_some.mp h
  obtain ⟨v, hv, h⟩ := (system Echo.callbacks).run_cons_eq_some.mp h
  obtain ⟨w, hw, h⟩ := (system Echo.callbacks).run_cons_eq_some.mp h
  cases h
  obtain ⟨x, hx, hux⟩ := step_follows s (.readDone .success chunk text) u y hs.follows trivial hu
  obtain ⟨hphase, hempty, hwritten⟩ := hs.clear.enter (Or.inr rfl) hx
  have hframe : u.frame ≠ .idle := by
    rw [Ne, hux.frame, hphase]
    simp
  obtain ⟨x', hx', hvx⟩ := step_follows u (.call (.append chunk)) v x hux hframe hv
  obtain ⟨z, hz, htz⟩ := step_follows v .resume t x' hvx trivial hw
  have hclear := ((hs.clear.step hx).step hx').step hz
  obtain ⟨_, hx'⟩ := Option.ite_none_right_eq_some.mp hx'
  cases hx'
  obtain ⟨hsame, hphase⟩ := Loop.step_returned hz
  rw [hempty, List.nil_append] at hsame hphase
  refine ⟨z, ⟨htz, hclear, ?_, hinbox, ?_⟩, hphase⟩
  · rw [hphase]
    split_ifs <;> simp
  · rw [hsame, hwritten, hs.written, List.filter_append]

/-- Control frames reach no callback. -/
theorem callback_control (kind : FrameType) (payload : Bytes) :
    s.callback Echo.callbacks (.control kind payload) = none := by
  rw [callback]
  split_ifs <;> simp [Callbacks.control, Echo.callbacks]

/-- While a read is outstanding, `on_message` is called with the message alone. -/
theorem Echoes.callback_read (hs : s.Echoes y l) (hpos : 0 < s.stream.reads) (chunk : Bytes)
    (text : Bool) : s.callback Echo.callbacks (.readDone .success chunk text) =
      some (.message chunk) := by
  have hempty : s.inputBuffer = [] :=
    hs.inbox.empty_of_reads hpos (by simp [Session.inbox, hs.idle])
  rw [callback, hempty]
  rfl

theorem Echoes.handle_read (hs : s.Echoes y l) {chunk : Bytes} {text : Bool}
    (h : EchoServer.handle s (.readDone .success chunk text) = some t) :
    y.phase = .reading ∧
      ∃ z, t.Echoes z (l ++ [chunk]) ∧ z.phase = if chunk.isEmpty then .reading else .writing := by
  obtain ⟨u, hu, _⟩ := (system Echo.callbacks).run_cons_eq_some.mp h
  have hpos := (Session.handled_eq_some.mp hu).1.2
  rw [EchoServer.handle, hs.callback_read hpos] at h
  exact ⟨hs.follows.reading hpos, hs.onMessage h⟩

theorem Echoes.handle_write (hs : s.Echoes y l) {i : ℕ}
    (h : EchoServer.handle s (.writeDone i .success) = some t) :
    y.phase = .writing ∧ ∃ z, t.Echoes z l ∧ z.phase = .reading := by
  obtain ⟨u, hu, h⟩ := (system Echo.callbacks).run_cons_eq_some.mp h
  cases h
  exact hs.onWrite hu

theorem Echoes.handle (hs : s.Echoes y l) (hext : EchoServer.External e)
    (h : EchoServer.handle s e = some t) : ∃ z, t.Echoes z (l ++ (takes e).toList) := by
  have hsilent : ∀ {e}, takes e = none → s.callback Echo.callbacks e = none →
      (e.loopOp = none ∨ e.loopOp = some .failed) → s.OnlyAppends e →
      EchoServer.handle s e = some t → ∃ z, t.Echoes z (l ++ (takes e).toList) := by
    intro e htakes hcall hop hcalls h
    rw [EchoServer.handle, hcall] at h
    obtain ⟨u, hu, h⟩ := (system Echo.callbacks).run_cons_eq_some.mp h
    cases h
    rw [htakes, Option.toList_none, List.append_nil]
    exact hs.silent hop hcalls hu
  cases e with
  | call c => exact absurd hext id
  | resume => exact absurd hext id
  | acceptDone ec =>
    by_cases hec : ec = .success
    · subst hec
      have htakes : takes (.acceptDone .success) = none := rfl
      rw [htakes, Option.toList_none, List.append_nil]
      exact hs.onAccept h
    · refine hsilent rfl (by simp [callback, hec]) ?_ trivial h
      simp [Event.loopOp, hec]
  | readDone ec chunk text =>
    by_cases hec : ec = .success
    · subst hec
      obtain ⟨_, z, hz, _⟩ := hs.handle_read h
      exact ⟨z, hz⟩
    · have htakes : takes (.readDone ec chunk text) = none := by
        cases ec <;> first | rfl | exact absurd rfl hec
      refine hsilent htakes (by simp [callback, hec]) ?_ trivial h
      simp [Event.loopOp, hec]
  | writeDone i ec =>
    by_cases hec : ec = .success
    · subst hec
      have htakes : takes (.writeDone i .success) = none := rfl
      rw [htakes, Option.toList_none, List.append_nil]
      obtain ⟨_, z, hz, _⟩ := hs.handle_write h
      exact ⟨z, hz⟩
    · refine hsilent rfl rfl ?_ trivial h
      simp [Event.loopOp, hec]
  | waitDone i ec =>
    obtain ⟨u, hu, _⟩ := (system Echo.callbacks).run_cons_eq_some.mp h
    obtain ⟨w, hw, _⟩ := Option.bind_eq_some_iff.mp hu
    simp [hs.follows.waits] at hw
  | control kind payload => exact hsilent rfl (callback_control kind payload) (Or.inl rfl) trivial h
  | _ => exact hsilent rfl rfl (Or.inl rfl) trivial h

/-- Once the connection is accepted, all other events leave the loop where it is. -/
theorem Echoes.handle_other (hs : s.Echoes y l) (hserving : y.phase = .reading ∨ y.phase = .writing)
    (hext : EchoServer.External e) (hfails : e.fails = false) (hother : e.completes = false)
    (h : EchoServer.handle s e = some t) : t.Echoes y l ∧ takes e = none := by
  have hsilent : s.callback Echo.callbacks e = none → e.loopOp = none → s.OnlyAppends e →
      t.Echoes y l := by
    intro hcall hop hcalls
    rw [EchoServer.handle, hcall] at h
    obtain ⟨u, hu, h⟩ := (system Echo.callbacks).run_cons_eq_some.mp h
    cases h
    exact hs.unmoved hop hcalls hu
  cases e with
  | call c => exact absurd hext id
  | resume => exact absurd hext id
  | acceptDone ec =>
    obtain ⟨u, hu, _⟩ := (system Echo.callbacks).run_cons_eq_some.mp h
    have hphase := hs.follows.connecting (Session.handled_eq_some.mp hu).1.2
    rw [hphase] at hserving
    simp at hserving
  | readDone ec chunk text =>
    cases ErrorCode.failed_eq_false.mp hfails
    cases hother
  | writeDone i ec =>
    cases ErrorCode.failed_eq_false.mp hfails
    cases hother
  | waitDone i ec =>
    obtain ⟨u, hu, _⟩ := (system Echo.callbacks).run_cons_eq_some.mp h
    obtain ⟨w, hw, _⟩ := Option.bind_eq_some_iff.mp hu
    simp [hs.follows.waits] at hw
  | control kind payload => exact ⟨hsilent (callback_control kind payload) rfl trivial, rfl⟩
  | _ => exact ⟨hsilent rfl rfl trivial, rfl⟩

/-- Where an operation is outstanding, its success is handled. -/
theorem Echoes.handles_read (hs : s.Echoes y l) (hpos : 0 < s.stream.reads) (chunk : Bytes)
    (text : Bool) : ∃ t, EchoServer.handle s (.readDone .success chunk text) = some t := by
  obtain ⟨u, hu⟩ : ∃ u, (system Echo.callbacks).step s (.readDone .success chunk text) = some u :=
    ⟨_, Session.handled_eq_some.mpr ⟨⟨hs.idle, hpos⟩, rfl⟩⟩
  have hcall := hs.callback_read hpos chunk text
  have hframe := frame_of_message hu hcall
  obtain ⟨v, hv⟩ : ∃ v, (u.call Echo.callbacks (.append chunk)).resume = some v := by
    apply resume_isSome
    rw [call_frame, hframe]
    simp
  refine ⟨v, ?_⟩
  rw [EchoServer.handle, hcall, System.run_cons_eq_some]
  refine ⟨u, hu, ?_⟩
  rw [EchoServer.react, System.run_cons_eq_some]
  refine ⟨u.call Echo.callbacks (.append chunk), rfl, ?_⟩
  rw [System.run_cons_eq_some]
  exact ⟨v, hv, rfl⟩

theorem Echoes.handles_write (hs : s.Echoes y l) (h : s.stream.writes ≠ []) :
    ∃ t, EchoServer.handle s (.writeDone 0 .success) = some t := by
  cases hwrites : s.stream.writes with
  | nil => exact absurd hwrites h
  | cons w ws =>
    have hw : s.stream.writes[0]? = some w := by
      rw [hwrites]
      rfl
    have hnext : s.handled True ((s.io (Session.writeDone 0 w .success)).onWrite .success) =
        some ((s.io (Session.writeDone 0 w .success)).onWrite .success) :=
      Session.handled_eq_some.mpr ⟨⟨hs.idle, trivial⟩, rfl⟩
    refine ⟨(s.io (Session.writeDone 0 w .success)).onWrite .success, ?_⟩
    rw [EchoServer.handle, System.run_cons_eq_some]
    exact ⟨_, Option.bind_eq_some_iff.mpr ⟨w, hw, hnext⟩, rfl⟩

end Server

/-! ## All sessions -/

namespace EchoServer
variable {g h : EchoServer}

def sent (h : EchoServer) (i : ℕ) : List Bytes := handedPayloads (h.sessions i).log

def takes : Event → Option (ℕ × Bytes)
  | .session i e => (Server.takes e).map (Prod.mk i)
  | .upgrade => none

theorem step_session {i : ℕ} {e : Server.Event} (ht : step g (.session i e) = some h) :
    (i < g.created ∧ External e) ∧ ∃ s, handle (g.sessions i) e = some s ∧
      h = { g with sessions := Function.update g.sessions i s,
                   console := g.console ++ prints ((g.sessions i).callback Echo.callbacks e) } := by
  obtain ⟨hext, ht⟩ := Option.ite_none_right_eq_some.mp ht
  obtain ⟨s, hs, rfl⟩ := Option.map_eq_some_iff.mp ht
  exact ⟨hext, s, hs, rfl⟩

theorem sent_grows (g : EchoServer) (e : Event) (h : EchoServer) (ht : step g e = some h) (k : ℕ) :
    g.sent k <+: h.sent k := by
  apply project_isPrefix
  cases e with
  | upgrade =>
    cases ht
    by_cases hk : k = g.created
    · subst hk
      simp only [Function.update_self]
      exact Server.step_log (e := .call .doAccept) rfl
    · simp only [Function.update_of_ne hk]
      exact List.prefix_rfl
  | session i e =>
    obtain ⟨_, s, hs, rfl⟩ := step_session ht
    by_cases hk : k = i
    · subst hk
      simp only [Function.update_self]
      exact Server.run_log hs
    · simp only [Function.update_of_ne hk]
      exact List.prefix_rfl

theorem step_handle {i : ℕ} {e : Server.Event} (ht : step g (.session i e) = some h) :
    handle (g.sessions i) e = some (h.sessions i) ∧ h.created = g.created := by
  obtain ⟨_, s, hs, rfl⟩ := step_session ht
  refine ⟨?_, rfl⟩
  simp only [Function.update_self]
  exact hs

theorem exists_step {i : ℕ} {e : Server.Event} {s : Server} (hi : i < g.created)
    (hext : External e) (hs : handle (g.sessions i) e = some s) :
    ∃ h, step g (.session i e) = some h := by
  rw [step, if_pos ⟨hi, hext⟩, hs]
  exact ⟨_, rfl⟩

/-- The server with the links to its clients. -/
def hub : Hub EchoServer Event ℕ Bytes Bytes where
  step := step
  sent := sent
  takes := takes
  grows := sent_grows

/-- Each session has written what it has taken, and the sessions to come are as at first. -/
structure Echoing (h : EchoServer) (l : ℕ → List Bytes) : Prop where
  echoes : ∀ i, ∃ y, (h.sessions i).Echoes y (l i)
  fresh : ∀ i, h.created ≤ i → h.sessions i = {}

theorem echoing_initial : Echoing {} fun _ => [] where
  echoes := fun _ => ⟨{}, Server.echoes_initial⟩
  fresh := fun _ _ => rfl

theorem Echoing.step (g : EchoServer) (l : ℕ → List Bytes) (e : Event) (h : EchoServer)
    (hg : g.Echoing l) (ht : hub.step g e = some h) :
    h.Echoing fun i => l i ++ hub.taken i e := by
  cases e with
  | upgrade =>
    cases ht
    have htaken : ∀ k, hub.taken k .upgrade = [] := fun _ => rfl
    constructor
    · intro k
      rw [htaken, List.append_nil]
      obtain ⟨y, hy⟩ := hg.echoes k
      by_cases hk : k = g.created
      · subst hk
        simp only [Function.update_self]
        apply hy.doAccept
        rw [hg.fresh _ (Nat.le_refl _)]
        rfl
      · simp only [Function.update_of_ne hk]
        exact ⟨y, hy⟩
    · intro k hk
      have hne : k ≠ g.created := by
        simp only at hk
        omega
      simp only [Function.update_of_ne hne]
      apply hg.fresh
      simp only at hk
      omega
  | session i e =>
    obtain ⟨⟨hi, hext⟩, s, hs, rfl⟩ := step_session ht
    constructor
    · intro k
      obtain ⟨y, hy⟩ := hg.echoes k
      by_cases hk : k = i
      · subst hk
        have htaken : hub.taken k (.session k e) = (Server.takes e).toList := by
          rw [Hub.taken]
          cases htakes : Server.takes e <;> simp [hub, takes, htakes]
        rw [htaken]
        simp only [Function.update_self]
        exact hy.handle hext hs
      · have htaken : hub.taken k (.session i e) = [] := by
          rw [Hub.taken]
          cases htakes : Server.takes e <;> simp [hub, takes, htakes, Ne.symm hk]
        rw [htaken, List.append_nil]
        simp only [Function.update_of_ne hk]
        exact ⟨y, hy⟩
    · intro k hk
      have hne : k ≠ i := by
        simp only at hk
        omega
      simp only [Function.update_of_ne hne]
      exact hg.fresh k hk

end EchoServer
end BeastWebsocket
