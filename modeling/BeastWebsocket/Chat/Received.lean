import BeastWebsocket.Chat.Client

/-! # What a chat client has received

Until it is greeted, the chat client holds a conversation in which it gives its name. From then on
it sends the lines that are typed. What it prints is what it has received.
-/
namespace BeastWebsocket.ChatClient
open Channel Transition Chat

variable {overflow : ℤ → ℤ} {x z : ChatClient} {y : Dialogue Byte} {l : List Bytes}
  {s : Client} {e : Client.Event} {name : Bytes}

/-- A message that has been received, or one that is not valid. -/
def Print.chat : Print → Bool
  | .message _ | .invalid => true
  | .handshaked | .enterName => false

def lines (x : ChatClient) : List Print := x.console.filter Print.chat

theorem prints_chat (overflow : ℤ → ℤ) (myName input : Bytes) :
    (prints overflow myName input).filter Print.chat = prints overflow myName input := by
  apply List.filter_eq_self.mpr
  intro p hp
  rw [prints] at hp
  split at hp
  · cases hp
  · split_ifs at hp
    · rw [List.mem_singleton] at hp
      rw [hp]
      rfl
    · obtain ⟨m, _, rfl⟩ := List.mem_map.mp hp
      rfl

/-! ## Until the client is greeted -/

/-- Between two handlers the session is where the conversation is. -/
structure Opening (x : ChatClient) (y : Dialogue Byte) : Prop where
  follows : x.session.Follows y
  coherent : y.Coherent
  between : y.phase ≠ .callback
  connected : x.connected = false → y.phase = .fresh

/-- A callback that runs has called nothing yet. -/
structure Entered (s : Client) (y : Dialogue Byte) : Prop where
  follows : s.Follows y
  coherent : y.Coherent
  phase : y.phase = .callback
  talk : y.talk = { outputs := y.talk.outputs }

theorem Entered.frame (hs : Entered s y) : s.frame ≠ .idle := by
  rw [Ne, hs.follows.frame, hs.phase]
  simp

theorem Entered.empty (hs : Entered s y) : s.outputBuffer = [] := by
  rw [hs.follows.output (by simp [hs.phase]), Client.buffered, hs.talk]
  simp

theorem resume_isSome (h : s.frame ≠ .idle) : ∃ t, s.resume = some t := by
  rw [Client.resume]
  cases hframe : s.frame with
  | idle => exact absurd hframe h
  | opening => exact ⟨_, rfl⟩
  | reading => exact ⟨_, rfl⟩

/-- The callback calls `do_read`. -/
theorem Entered.reads (hs : Entered s y) :
    ∃ t w, (s.call callbacks .doRead).resume = some t ∧ t.Follows w ∧ w.Coherent ∧
      w.phase = .reading ∧ w.written = y.written := by
  obtain ⟨u, hu, hfollows⟩ := hs.follows.doRead hs.frame hs.empty
  have hcoherent := hs.coherent.step hu
  obtain ⟨_, hu⟩ := Option.ite_none_right_eq_some.mp hu
  cases hu
  have hframe : s.doRead.frame ≠ .idle := by
    rw [Ne, hfollows.frame]
    simp [hs.phase]
  obtain ⟨t, ht⟩ := resume_isSome hframe
  obtain ⟨w, hw, htw⟩ := hfollows.resume hcoherent ht
  refine ⟨t, w, ht, htw, hcoherent.step hw, ?_⟩
  obtain ⟨_, hw⟩ := Option.ite_none_right_eq_some.mp hw
  rw [hs.talk] at hw
  cases hw
  exact ⟨rfl, rfl⟩

/-- The callback appends an answer. -/
theorem Entered.answers {b : Bytes} (hs : Entered s y) (hb : b ≠ []) :
    ∃ t w, (s.call callbacks (.append b)).resume = some t ∧ t.Follows w ∧ w.Coherent ∧
      w.phase = .writing ∧ w.written = y.written ++ [b] := by
  have hready : s.readable = true := by
    have hlisten : ¬ y.Listens := by
      rw [Dialogue.Listens, hs.phase, hs.talk]
      simp
    rw [← hs.follows.readable (by simp [hs.phase])] at hlisten
    simpa using hlisten
  obtain ⟨u, hu, hfollows⟩ := hs.follows.append b hs.frame (Or.inr hready)
  have hcoherent := hs.coherent.step hu
  obtain ⟨_, hu⟩ := Option.ite_none_right_eq_some.mp hu
  cases hu
  obtain ⟨t, ht⟩ := resume_isSome (s := s.call callbacks (.append b)) hs.frame
  obtain ⟨w, hw, htw⟩ := hfollows.resume hcoherent ht
  refine ⟨t, w, ht, htw, hcoherent.step hw, ?_⟩
  obtain ⟨_, hw⟩ := Option.ite_none_right_eq_some.mp hw
  have hout : ((y.talk.after (.out b)).output).isEmpty = false := by
    rw [hs.talk]
    cases b with
    | nil => exact absurd rfl hb
    | cons c b => rfl
  simp only [hout] at hw
  cases hw
  refine ⟨rfl, ?_⟩
  rw [hs.talk]
  rfl

theorem Opening.entered (hx : x.Opening y)
    (hop : e.talkOp = some .connected ∨ e.talkOp = some .message)
    (hcalls : x.session.Converses e)
    (h : (Client.system callbacks).step x.session e = some s) :
    ∃ w, Entered s w ∧ w.written = y.written := by
  obtain ⟨w, hw, hfollows⟩ := Client.step_follows x.session e s y ⟨hx.follows, hx.coherent⟩ hcalls h
  obtain ⟨o, ho, hkind⟩ : ∃ o, e.talkOp = some o ∧ (o = .connected ∨ o = .message) := by
    rcases hop with hop | hop
    · exact ⟨_, hop, Or.inl rfl⟩
    · exact ⟨_, hop, Or.inr rfl⟩
  rw [ho] at hw
  obtain ⟨hphase, htalk⟩ := Dialogue.step_enter hkind hw
  refine ⟨w, ⟨hfollows, hx.coherent.step hw, hphase, by rw [htalk]⟩, ?_⟩
  rcases hkind with rfl | rfl
  · obtain ⟨_, hw⟩ := Option.ite_none_right_eq_some.mp hw
    cases hw
    rfl
  · obtain ⟨_, hw⟩ := Option.ite_none_right_eq_some.mp hw
    cases hw
    rfl

/-- A handler without a callback. -/
theorem Opening.silent (hx : x.Opening y)
    (hop : e.talkOp = none ∨ e.talkOp = some .wrote ∨ e.talkOp = some .failed)
    (hcalls : x.session.Converses e)
    (h : (Client.system callbacks).step x.session e = some s) :
    ∃ w, Opening { x with session := s } w := by
  obtain ⟨w, hw, hfollows⟩ := Client.step_follows x.session e s y ⟨hx.follows, hx.coherent⟩ hcalls h
  rcases hop with hop | hop | hop
  · rw [hop] at hw
    cases hw
    exact ⟨y, hfollows, hx.coherent, hx.between, hx.connected⟩
  · rw [hop] at hw
    have hcoherent := hx.coherent.step hw
    obtain ⟨hphase, hw⟩ := Option.ite_none_right_eq_some.mp hw
    cases hw
    refine ⟨_, hfollows, hcoherent, ?_, fun hnew => ?_⟩
    · simp only
      split_ifs <;> simp
    · rw [hx.connected hnew] at hphase
      cases hphase
  · rw [hop] at hw
    have hcoherent := hx.coherent.step hw
    obtain ⟨hphase, hw⟩ := Option.ite_none_right_eq_some.mp hw
    cases hw
    refine ⟨_, hfollows, hcoherent, by simp, fun hnew => ?_⟩
    rw [hx.connected hnew] at hphase
    cases hphase

/-! ## What has been received -/

/-- The client has received the messages `l`, of which the first one asks for its name. -/
structure Received (overflow : ℤ → ℤ) (x : ChatClient) (l : List Bytes) : Prop where
  inbox : (x.session.inbox callbacks).Disciplined
  opening : x.thrown = false → x.mySession = false → ∃ y, x.Opening y
  asked : x.mySession = false →
    x.sent = if l.isEmpty then [] else [Room.nameString ++ x.myName]
  talking : x.mySession = true →
    l ≠ [] ∧ x.connected = true ∧ x.session.stream.handshakes = 0 ∧
      Talks x.typed x.myName x.session
  lines : x.lines = (l.drop 1).flatMap (prints overflow x.myName)
  named : l ≠ [] → x.myName ≠ [] ∧ colon ∉ x.myName

theorem received_initial (overflow : ℤ → ℤ) : Received overflow {} [] where
  inbox := Inbox.disciplined_empty _
  opening := fun _ _ =>
    ⟨{}, Client.follows_initial, Dialogue.coherent_initial, by simp, fun _ => rfl⟩
  asked := fun _ => rfl
  talking := fun h => by simp at h
  lines := rfl
  named := fun h => absurd rfl h

theorem inbox_of_call (c : Client.Call) (h : (s.inbox callbacks).Disciplined) :
    ((s.call callbacks c).inbox callbacks).Disciplined :=
  h.leads (Client.step_inbox s (.call c) _ rfl)

theorem inbox_of_resume {t : Client} (ht : s.resume = some t)
    (h : (s.inbox callbacks).Disciplined) : (t.inbox callbacks).Disciplined :=
  h.leads (Client.step_inbox s .resume t ht)

/-- The stream hands nothing over by itself. -/
theorem handed_of_external (hext : Client.External e)
    (h : (Client.system callbacks).step x.session e = some s) :
    handedPayloads s.log = x.sent := by
  rw [Client.step_handed h, sent]
  have hnothing : x.session.outbox.hands (x.session.outboxOp e) = [] := by
    cases e with
    | call c => exact absurd hext id
    | resume => exact absurd hext id
    | writeDone i ec =>
      rw [Client.outboxOp]
      split_ifs <;> rfl
    | _ => rfl
  rw [hnothing, List.append_nil]

theorem Talks.external {lines : List Bytes} (hs : Talks lines name x.session)
    (hext : Client.External e) (h : (Client.system callbacks).step x.session e = some s) :
    Talks lines name s := by
  apply hs.step _ _ h
  · rintro b rfl
    exact absurd hext id
  · rintro nextRead rfl
    exact absurd hext id

theorem Talks.reads {lines : List Bytes} {t : Client} (hs : Talks lines name s)
    (ht : (s.call callbacks .doRead).resume = some t) : Talks lines name t := by
  have hread : (Client.system callbacks).step s (.call .doRead) =
      some (s.call callbacks .doRead) := rfl
  have hreturn : (Client.system callbacks).step (s.call callbacks .doRead) .resume = some t := ht
  exact (hs.step (by simp) (by simp) hread).step (by simp) (by simp) hreturn

theorem Received.connect (hx : x.Received overflow l) (h : step overflow x .connect = some z) :
    z.Received overflow l := by
  have hrunning := running_of_step h
  obtain ⟨hnew, rfl⟩ := step_connect h
  have hsession : x.mySession = false := by
    by_contra hgreeted
    obtain ⟨_, hconnected, _⟩ := hx.talking (by simpa using hgreeted)
    rw [hnew] at hconnected
    cases hconnected
  obtain ⟨y, hy⟩ := hx.opening hrunning hsession
  have hfresh := hy.connected hnew
  obtain ⟨w, hw, hfollows⟩ : ∃ w, (Dialogue.system Byte).step y .connect = some w ∧
      (x.session.doHandshake callbacks).Follows w :=
    hy.follows.doHandshake (hy.follows.started.mpr hfresh)
  have hcoherent := hy.coherent.step hw
  obtain ⟨_, hw⟩ := Option.ite_none_right_eq_some.mp hw
  cases hw
  have hsent : handedPayloads (x.session.doHandshake callbacks).log = x.sent := by
    rw [hfollows.written, sent, hy.follows.written]
  constructor
  · exact inbox_of_call .doHandshake hx.inbox
  · exact fun _ _ => ⟨_, hfollows, hcoherent, by simp, fun hnot => by cases hnot⟩
  · intro _
    exact hsent.trans (hx.asked hsession)
  · intro hgreeted
    exact absurd (hsession.symm.trans hgreeted) (by simp)
  · exact hx.lines
  · exact hx.named

/-- A handler without a callback. -/
theorem Received.silent (hx : x.Received overflow l) (hrunning : x.thrown = false)
    (hext : Client.External e)
    (hop : e.talkOp = none ∨ e.talkOp = some .wrote ∨ e.talkOp = some .failed)
    (hs : (Client.system callbacks).step x.session e = some s) :
    Received overflow { x with session := s } l where
  inbox := hx.inbox.leads (Client.step_inbox x.session e s hs)
  opening := by
    intro _ hsession
    obtain ⟨y, hy⟩ := hx.opening hrunning hsession
    have hcalls : x.session.Converses e := by
      cases e with
      | call c => exact absurd hext id
      | _ => trivial
    exact hy.silent hop hcalls hs
  asked := by
    intro hsession
    exact (handed_of_external hext hs).trans (hx.asked hsession)
  talking := by
    intro hsession
    obtain ⟨hl, hconnected, hnone, htalks⟩ := hx.talking hsession
    refine ⟨hl, hconnected, ?_, htalks.external hext hs⟩
    have hsame : s.stream.handshakes = x.session.stream.handshakes := by
      apply Client.step_handshakes _ _ hs
      · rintro rfl
        exact absurd hext id
      · rintro ec response rfl
        have hpos := (Session.handled_eq_some.mp hs).1.2
        omega
    exact hsame.trans hnone
  lines := hx.lines
  named := hx.named

theorem Received.onHandshake {response : Bytes} (hx : x.Received overflow l)
    (hrunning : x.thrown = false)
    (hs : (Client.system callbacks).step x.session (.handshakeDone .success response) = some s) :
    (onHandshake { x with session := s }).resume.Received overflow l := by
  have hsession : x.mySession = false := by
    by_contra hgreeted
    obtain ⟨_, _, hnone, _⟩ := hx.talking (by simpa using hgreeted)
    have hpos := (Session.handled_eq_some.mp hs).1.2
    omega
  obtain ⟨y, hy⟩ := hx.opening hrunning hsession
  have hconnected : x.connected = true := by
    by_contra hnew
    have hphase := hy.follows.connecting (Session.handled_eq_some.mp hs).1.2
    rw [hy.connected (by simpa using hnew)] at hphase
    cases hphase
  obtain ⟨w, hentered, hwritten⟩ := hy.entered (e := .handshakeDone .success response)
    (Or.inl rfl) trivial hs
  obtain ⟨t, v, ht, hfollows, hcoherent, hphase, hsame⟩ := hentered.reads
  have hend : (ChatClient.onHandshake { x with session := s }).resume =
      { x with session := t, console := x.console ++ [.handshaked] } := by
    simp only [resume, ChatClient.onHandshake, call, print, ht, Option.getD_some]
  rw [hend]
  constructor
  · exact inbox_of_resume ht (inbox_of_call .doRead (hx.inbox.leads (Client.step_inbox _ _ s hs)))
  · refine fun _ _ => ⟨v, hfollows, hcoherent, by simp [hphase], fun hnew => ?_⟩
    rw [hconnected] at hnew
    cases hnew
  · intro _
    rw [sent, hfollows.written, hsame, hwritten, ← hy.follows.written]
    exact hx.asked hsession
  · intro hgreeted
    exact absurd (hsession.symm.trans hgreeted) (by simp)
  · rw [ChatClient.lines, List.filter_append]
    exact (List.append_nil _).trans hx.lines
  · exact hx.named

/-- The client gives its name. -/
theorem Received.onQuestion {chunk : Bytes} {text : Bool} (hx : x.Received overflow [])
    (hrunning : x.thrown = false) (hname : name ≠ [] ∧ colon ∉ name)
    (hs : (Client.system callbacks).step x.session (.readDone .success chunk text) = some s) :
    (onQuestion name { x with session := s }).resume.Received overflow [chunk] := by
  have hsession : x.mySession = false := by
    by_contra hgreeted
    obtain ⟨hl, _⟩ := hx.talking (by simpa using hgreeted)
    exact hl rfl
  obtain ⟨y, hy⟩ := hx.opening hrunning hsession
  have hidle := (Session.handled_eq_some.mp hs).1
  have hconnected : x.connected = true := by
    by_contra hnew
    have hphase := hy.follows.reading hidle.1 hidle.2
    rw [hy.connected (by simpa using hnew)] at hphase
    cases hphase
  obtain ⟨w, hentered, hwritten⟩ := hy.entered (e := .readDone .success chunk text)
    (Or.inr rfl) trivial hs
  have hb : bytes "My name is " ++ name ≠ [] := List.append_ne_nil_of_left_ne_nil (by decide) _
  obtain ⟨t, v, ht, hfollows, hcoherent, hphase, hsame⟩ := hentered.answers hb
  have hend : (ChatClient.onQuestion name { x with session := s }).resume =
      { x with session := t, myName := name, console := x.console ++ [.enterName] } := by
    simp only [resume, ChatClient.onQuestion, call, print, ht, Option.getD_some]
  have hsent := hx.asked hsession
  rw [sent, hy.follows.written] at hsent
  rw [hend]
  constructor
  · exact inbox_of_resume ht (inbox_of_call (.append _)
      (hx.inbox.leads (Client.step_inbox _ _ s hs)))
  · refine fun _ _ => ⟨v, hfollows, hcoherent, by simp [hphase], fun hnew => ?_⟩
    rw [hconnected] at hnew
    cases hnew
  · intro _
    rw [sent, hfollows.written, hsame, hwritten, hsent]
    rfl
  · intro hgreeted
    exact absurd (hsession.symm.trans hgreeted) (by simp)
  · rw [ChatClient.lines, List.filter_append]
    exact (List.append_nil _).trans hx.lines
  · exact fun _ => hname

/-- Where the client is greeted, the conversation of its session ends. -/
theorem Received.greeted {chunk : Bytes} {text : Bool} (hx : x.Received overflow l)
    (hrunning : x.thrown = false) (hl : l ≠ [])
    (hs : (Client.system callbacks).step x.session (.readDone .success chunk text) = some s) :
    x.connected = true ∧ s.stream.handshakes = 0 ∧ Talks x.typed x.myName s := by
  cases hsession : x.mySession with
  | true =>
    obtain ⟨_, hconnected, hnone, htalks⟩ := hx.talking hsession
    have hsame : s.stream.handshakes = x.session.stream.handshakes :=
      Client.step_handshakes (by simp) (by simp) hs
    exact ⟨hconnected, hsame.trans hnone,
      htalks.external (e := .readDone .success chunk text) trivial hs⟩
  | false =>
    obtain ⟨y, hy⟩ := hx.opening hrunning hsession
    have hidle := (Session.handled_eq_some.mp hs).1
    have hconnected : x.connected = true := by
      by_contra hnew
      have hphase := hy.follows.reading hidle.1 hidle.2
      rw [hy.connected (by simpa using hnew)] at hphase
      cases hphase
    obtain ⟨w, hentered, hwritten⟩ := hy.entered (e := .readDone .success chunk text)
      (Or.inr rfl) trivial hs
    refine ⟨hconnected, ?_, ?_, Or.inl hentered.empty⟩
    · rw [hentered.follows.handshakes, hentered.phase]
      rfl
    · have hsent := hx.asked hsession
      rw [sent, hy.follows.written, if_neg (by simpa using hl)] at hsent
      refine ⟨[], ?_, by simp⟩
      rw [hentered.follows.written, hwritten, hsent]

/-- What is left to show of the session when `on_message` has been called with a frame. -/
theorem Received.next {chunk : Bytes} {u v : ChatClient} (hx : x.Received overflow l) (hl : l ≠ [])
    (hconnected : x.connected = true) (hspec : OnFrame overflow chunk x u)
    (hv : v = { u with session := v.session })
    (hinbox : (v.session.inbox callbacks).Disciplined)
    (hopening : x.mySession = false → v.thrown = false → ∃ y, v.Opening y)
    (hsent : x.mySession = false → v.sent = x.sent)
    (htalks : v.session.stream.handshakes = 0 ∧ Talks x.typed x.myName v.session) :
    v.Received overflow (l ++ [chunk]) := by
  have hname : v.myName = x.myName := by
    rw [hv]
    exact hspec.myName
  have htyped : v.typed = x.typed := by
    rw [hv]
    exact hspec.typed
  have hsession : v.mySession = false → x.mySession = false := by
    intro hnot
    rw [hv] at hnot
    rw [hspec.mySession] at hnot
    exact (Bool.or_eq_false_iff.mp hnot).1
  constructor
  · exact hinbox
  · exact fun hrunning hnot => hopening (hsession hnot) hrunning
  · intro hnot
    rw [hsent (hsession hnot), hx.asked (hsession hnot), hname, if_neg (by simpa using hl),
      if_neg (by simp)]
  · intro _
    refine ⟨by simp, ?_, htalks.1, hname ▸ htyped ▸ htalks.2⟩
    rw [hv]
    exact hspec.connected.trans hconnected
  · have hlines : x.console.filter Print.chat = _ := hx.lines
    have hdrop : (l ++ [chunk]).drop 1 = l.drop 1 ++ [chunk] := by
      cases l with
      | nil => exact absurd rfl hl
      | cons m l => rfl
    rw [hname, hdrop, List.flatMap_append, List.flatMap_singleton, ← hlines,
      ← prints_chat overflow x.myName chunk, ← List.filter_append, ← hspec.console, hv]
    rfl
  · intro _
    rw [hname]
    exact hx.named hl

/-- The client receives a message that does not ask for its name. -/
theorem Received.onFrame {chunk : Bytes} {text : Bool} (hx : x.Received overflow l)
    (hrunning : x.thrown = false) (hl : l ≠ []) (hchunk : chunk ≠ question)
    (hs : (Client.system callbacks).step x.session (.readDone .success chunk text) = some s) :
    ({ x with session := s }.react overflow name (some (.message chunk))).Received overflow
      (l ++ [chunk]) := by
  obtain ⟨hconnected, hnone, htalks⟩ := hx.greeted hrunning hl hs
  have hinbox : (s.inbox callbacks).Disciplined := hx.inbox.leads (Client.step_inbox _ _ s hs)
  obtain ⟨hspec, hread⟩ := onFrame_spec overflow chunk { x with session := s }
  have hbefore : OnFrame overflow chunk x (ChatClient.onFrame overflow chunk
    { x with session := s }) := ⟨hspec.connected, hspec.myName, hspec.mySession, hspec.typed,
      hspec.console⟩
  rw [react, if_neg hchunk]
  set u := ChatClient.onFrame overflow chunk { x with session := s }
  rcases hread with ⟨hthrown, hsession⟩ | ⟨hthrown, hsession⟩
  · simp only [hthrown, if_true]
    apply hx.next hl hconnected hbefore rfl
    · rw [hsession]
      exact hinbox
    · intro _ hnot
      rw [hthrown] at hnot
      cases hnot
    · intro _
      rw [sent, hsession]
      exact handed_of_external (e := .readDone .success chunk text) trivial hs
    · rw [hsession]
      exact ⟨hnone, htalks⟩
  · have hnot : u.thrown = false := hthrown.trans hrunning
    simp only [hnot, Bool.false_eq_true, if_false]
    have hframe : (s.call callbacks .doRead).frame ≠ .idle := by
      have hreading : s.frame = .reading := by
        obtain ⟨_, rfl⟩ := Session.handled_eq_some.mp hs
        rfl
      change s.doRead.frame ≠ .idle
      rw [Client.doRead]
      split_ifs
      · simp [hreading]
      · change s.frame ≠ .idle
        simp [hreading]
    obtain ⟨t, ht⟩ := resume_isSome hframe
    have hend : u.resume = { u with session := t } := by
      rw [resume, hsession, ht]
      rfl
    have hopening : x.mySession = false → ∃ w, t.Follows w ∧ w.Coherent ∧ w.phase = .reading ∧
        handedPayloads t.log = x.sent := by
      intro hbefore
      obtain ⟨y, hy⟩ := hx.opening hrunning hbefore
      obtain ⟨w, hentered, hwritten⟩ := hy.entered (e := .readDone .success chunk text)
        (Or.inr rfl) trivial hs
      obtain ⟨t', v, ht', hfollows, hcoherent, hphase, hsame⟩ := hentered.reads
      cases ht.symm.trans ht'
      refine ⟨v, hfollows, hcoherent, hphase, ?_⟩
      rw [hfollows.written, hsame, hwritten, ← hy.follows.written, sent]
    rw [hend]
    apply hx.next hl hconnected hbefore rfl
    · exact inbox_of_resume ht (inbox_of_call .doRead hinbox)
    · intro hbefore _
      obtain ⟨w, hfollows, hcoherent, hphase, _⟩ := hopening hbefore
      refine ⟨w, hfollows, hcoherent, by simp [hphase], fun hnew => ?_⟩
      have hconn : u.connected = true := hspec.connected.trans hconnected
      rw [hconn] at hnew
      cases hnew
    · intro hbefore
      obtain ⟨_, _, _, _, hsent⟩ := hopening hbefore
      exact hsent
    · refine ⟨?_, htalks.reads ht⟩
      have hread : (Client.system callbacks).step s (.call .doRead) =
          some (s.call callbacks .doRead) := rfl
      have hreturn : (Client.system callbacks).step (s.call callbacks .doRead) .resume =
          some t := ht
      rw [Client.step_handshakes (by simp) (by simp) hreturn,
        Client.step_handshakes (by simp) (by simp) hread, hnone]

/-- A line that is typed is sent as a frame. -/
theorem Received.typed {line : Bytes} (hx : x.Received overflow l)
    (h : step overflow x (.typed line) = some z) : z.Received overflow l := by
  obtain ⟨hgreeted, rfl⟩ := step_typed h
  obtain ⟨hl, hconnected, hnone, htalks⟩ := hx.talking hgreeted
  set text := frame [⟨line, x.myName⟩]
  have happend : (Client.system callbacks).step x.session (.call (.append text)) =
      some (x.session.call callbacks (.append text)) := rfl
  have hwrite : (Client.system callbacks).step (x.session.call callbacks (.append text))
      (.call (.doWrite true)) =
      some ((x.session.call callbacks (.append text)).call callbacks (.doWrite true)) := rfl
  have htext : Spoken (x.typed ++ [line]) x.myName text := spoken_frame (by simp)
  have hbuffer : (x.session.call callbacks (.append text)).outputBuffer ≠ [] :=
    List.append_ne_nil_of_right_ne_nil _ htext.ne_nil
  have hframe : Talks (x.typed ++ [line]) x.myName (x.session.call callbacks (.append text)) := by
    apply (htalks.mono (List.subset_append_left _ _)).step _ _ happend
    · intro b hb
      cases hb
      exact htext
    · simp
  constructor
  · exact inbox_of_call (.doWrite true) (inbox_of_call (.append text) hx.inbox)
  · intro _ hnot
    exact absurd (hgreeted.symm.trans hnot) (by simp)
  · intro hnot
    exact absurd (hgreeted.symm.trans hnot) (by simp)
  · intro _
    refine ⟨hl, hconnected, ?_, ?_⟩
    · exact (Client.step_handshakes (by simp) (by simp) hwrite).trans
        ((Client.step_handshakes (by simp) (by simp) happend).trans hnone)
    · exact hframe.step (by simp) (fun _ _ => hbuffer) hwrite
  · exact hx.lines
  · exact hx.named

/-! ## Any event -/

/-- The client is asked for its name by the first message alone, and gives one. -/
def Asked (l : List Bytes) : Event → Prop
  | .session e name => ∀ chunk, Client.takes e = some chunk →
      (chunk = question ↔ l = []) ∧ (chunk = question → name ≠ [] ∧ colon ∉ name)
  | _ => True

theorem Received.step {e : Event} (hx : x.Received overflow l) (hasked : Asked l e)
    (h : step overflow x e = some z) : z.Received overflow (l ++ (takes e).toList) := by
  have hrunning := running_of_step h
  cases e with
  | connect =>
    rw [takes, Option.toList_none, List.append_nil]
    exact hx.connect h
  | typed line =>
    rw [takes, Option.toList_none, List.append_nil]
    exact hx.typed h
  | session e name =>
    obtain ⟨hext, s, hs, rfl⟩ := step_session h
    have hsilent : Client.takes e = none → x.session.callback callbacks e = none →
        (e.talkOp = none ∨ e.talkOp = some .wrote ∨ e.talkOp = some .failed) →
        ({ x with session := s }.react overflow name (x.session.callback callbacks e)).Received
          overflow (l ++ (takes (.session e name)).toList) := by
      intro htakes hcall hop
      rw [takes, htakes, hcall, Option.toList_none, List.append_nil]
      exact hx.silent hrunning hext hop hs
    cases e with
    | call c => exact absurd hext id
    | setNextRead b => exact absurd hext id
    | resume => exact absurd hext id
    | handshakeDone ec response =>
      by_cases hec : ec = .success
      · subst hec
        have htakes : takes (.session (.handshakeDone .success response) name) = none := rfl
        rw [htakes, Option.toList_none, List.append_nil]
        exact hx.onHandshake hrunning hs
      · apply hsilent rfl (by simp [Client.callback, hec])
        simp [Client.Event.talkOp, hec]
    | readDone ec chunk text =>
      by_cases hec : ec = .success
      · subst hec
        obtain ⟨hfirst, hname⟩ := hasked chunk rfl
        have hidle := (Session.handled_eq_some.mp hs).1
        have hempty : x.session.inputBuffer = [] :=
          hx.inbox.empty_of_reads hidle.2 (by simp [Session.inbox, hidle.1])
        have hcall : x.session.callback callbacks (.readDone .success chunk text) =
            some (.message chunk) := by
          rw [Client.callback, hempty]
          rfl
        rw [hcall]
        by_cases hquestion : chunk = question
        · have hl := hfirst.mp hquestion
          subst hl
          rw [react, if_pos hquestion]
          exact hx.onQuestion hrunning (hname hquestion) hs
        · exact hx.onFrame hrunning (fun hl => hquestion (hfirst.mpr hl)) hquestion hs
      · have htakes : Client.takes (.readDone ec chunk text) = none := by
          cases ec <;> first | rfl | exact absurd rfl hec
        apply hsilent htakes (by simp [Client.callback, hec])
        simp [Client.Event.talkOp, hec]
    | writeDone i ec =>
      apply hsilent rfl rfl
      by_cases hec : ec = .success
      · simp [Client.Event.talkOp, hec]
      · simp [Client.Event.talkOp, hec]
    | control kind payload =>
      apply hsilent rfl _ (Or.inl rfl)
      rw [Client.callback]
      split_ifs <;> simp [Callbacks.control, callbacks]
    | _ => exact hsilent rfl rfl (Or.inl rfl)

end BeastWebsocket.ChatClient
