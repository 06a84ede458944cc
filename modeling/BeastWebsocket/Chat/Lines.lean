import BeastWebsocket.Chat.Shown

/-! # What is typed and what is stored

A client that waits for its writes sends each line that is typed at it once, in order. The store
is a merge of what its clients have sent and of what the server says of them.
-/
namespace BeastWebsocket
open Channel Transition Chat

namespace ChatClient

/-- Nothing is typed and no message arrives while a write is outstanding, and no write fails. -/
def Unhurried (x : ChatClient) : Event → Prop
  | .typed _ | .session (.readDone .success _ _) _ => x.session.stream.writes = []
  | .session (.writeDone _ ec) _ => ec = .success
  | _ => True

instance (x : ChatClient) (e : Event) : Decidable (x.Unhurried e) :=
  match e with
  | .typed _ | .session (.readDone .success _ _) _ =>
    inferInstanceAs (Decidable (x.session.stream.writes = []))
  | .session (.writeDone _ ec) _ => inferInstanceAs (Decidable (ec = .success))
  | .connect | .session (.call _) _ | .session (.setNextRead _) _
  | .session (.handshakeDone _ _) _ | .session (.readDone .operationAborted _ _) _
  | .session (.readDone .closed _ _) _ | .session (.readDone .badMessage _ _) _
  | .session (.readDone .invalidArgument _ _) _ | .session (.readDone (.other _) _ _) _
  | .session (.pingDone _) _ | .session (.pongDone _) _ | .session (.closeDone _) _
  | .session (.control _ _) _ | .session .resume _ => isTrue trivial

variable {overflow : ℤ → ℤ} {x z : ChatClient} {l lines : List Bytes} {name : Bytes}
  {s t u : Client} {e : Client.Event}

/-- From `s` to `t` nothing has been done to the output. -/
structure Rests (s t : Client) : Prop where
  outbox : t.outbox = s.outbox
  handed : handedPayloads t.log = handedPayloads s.log
  handshaked : s.handshaked = true → t.handshaked = true

theorem Rests.refl (s : Client) : Rests s s := ⟨rfl, rfl, id⟩

theorem Rests.trans (h : Rests s t) (h' : Rests t u) : Rests s u where
  outbox := h'.outbox.trans h.outbox
  handed := h'.handed.trans h.handed
  handshaked := fun hs => h'.handshaked (h.handshaked hs)

theorem rests_of_none (hop : s.outboxOp e = none)
    (h : (Client.system callbacks).step s e = some t) : Rests s t where
  outbox := by
    have hperform := Client.refines_outbox s e t h
    rw [hop] at hperform
    exact (Option.some.inj hperform).symm
  handed := by
    have hhanded := Client.step_handed h
    have hnothing : s.outbox.hands none = [] := rfl
    rwa [hop, hnothing, List.append_nil] at hhanded
  handshaked := by
    intro hs
    rw [Client.step_handshaked h, hs, Bool.true_or]

/-- Where the output is quiet, a callback that calls `do_read` puts nothing out. -/
theorem rests_of_read (hquiet : s.outbox.Quiet)
    (h : (s.call callbacks .doRead).resume = some t) : Rests s t := by
  have hread : (Client.system callbacks).step s (.call .doRead) =
      some (s.call callbacks .doRead) := rfl
  have hrests := rests_of_none rfl hread
  refine hrests.trans (rests_of_none (e := .resume) ?_ h)
  have hempty : (s.call callbacks .doRead).outputBuffer = [] := by
    have hbuffer := congrArg Outbox.buffer hrests.outbox
    exact hbuffer.trans hquiet.buffer
  rw [Client.outboxOp, hempty]
  simp

theorem quiet_of_writes (h : s.outbox.Orderly) (hwrites : s.stream.writes = []) :
    s.outbox.Quiet := by
  rcases h with hquiet | hflight
  · exact hquiet
  · have hnone : s.outbox.flight = [] := by
      change s.stream.writes.map Write.payload = []
      rw [hwrites]
      rfl
    rw [hnone] at hflight
    cases hflight

/-- The session has sent the name and each of the lines, once and in order. -/
structure Posted (lines : List Bytes) (name : Bytes) (s : Client) : Prop where
  handshaked : s.handshaked = true
  orderly : s.outbox.Orderly
  handed : handedPayloads s.log =
    (Room.nameString ++ name) :: lines.map fun line => frame [⟨line, name⟩]

theorem Posted.rests (hs : Posted lines name s) (h : Rests s t) : Posted lines name t where
  handshaked := h.handshaked hs.handshaked
  orderly := h.outbox ▸ hs.orderly
  handed := h.handed.trans hs.handed

theorem Posted.finish {i : ℕ} (hs : Posted lines name s)
    (h : (Client.system callbacks).step s (.writeDone i .success) = some t) :
    Posted lines name t where
  handshaked := by rw [Client.step_handshaked h, hs.handshaked, Bool.true_or]
  orderly := (hs.orderly.finish (Client.refines_outbox s _ t h)).1.orderly
  handed := by
    have hhanded := Client.step_handed h
    have hnothing : s.outbox.hands (s.outboxOp (.writeDone i .success)) = [] := rfl
    rw [hhanded, hnothing, List.append_nil, hs.handed]

theorem Posted.line (hs : Posted lines name s) (hwrites : s.stream.writes = []) (line : Bytes) :
    Posted (lines ++ [line]) name
      ((s.call callbacks (.append (frame [⟨line, name⟩]))).call callbacks (.doWrite true)) := by
  set u := s.call callbacks (.append (frame [⟨line, name⟩])) with hu
  have happend : (Client.system callbacks).step s (.call (.append (frame [⟨line, name⟩]))) =
      some u := rfl
  have hwrite : (Client.system callbacks).step u (.call (.doWrite true)) =
      some (u.call callbacks (.doWrite true)) := rfl
  have hquiet := quiet_of_writes hs.orderly hwrites
  have hshaken : u.handshaked = true := hs.handshaked
  have hfill := Outbox.Filled.append s.outbox _ (Client.refines_outbox s _ u happend)
  have hbuffer : u.outbox.buffer = frame [⟨line, name⟩] := by
    rw [hfill.buffer, hquiet.buffer, List.nil_append]
  have hop : u.outboxOp (.call (.doWrite true)) = some .start := if_pos hshaken
  have hstart := Client.refines_outbox u _ _ hwrite
  rw [hop] at hstart
  constructor
  · rw [Client.step_handshaked hwrite, hshaken, Bool.true_or]
  · exact (hquiet.post hfill hstart).1
  · have hlog : handedPayloads u.log = handedPayloads s.log := by
      rw [Client.step_handed happend]
      exact List.append_nil _
    rw [Client.step_handed hwrite, hop, Outbox.hands, hbuffer, hlog, hs.handed, List.map_append]
    rfl

theorem rests_of_frame (overflow : ℤ → ℤ) (name : Bytes) {chunk : Bytes}
    (hchunk : chunk ≠ question) (hquiet : x.session.outbox.Quiet) :
    Rests x.session (x.react overflow name (some (.message chunk))).session ∧
      OnFrame overflow chunk x (x.react overflow name (some (.message chunk))) := by
  obtain ⟨hspec, hread⟩ := onFrame_spec overflow chunk x
  rw [react, if_neg hchunk]
  simp only
  rcases hread with ⟨hthrown, hsession⟩ | ⟨_, hsession⟩
  · rw [if_pos hthrown, hsession]
    exact ⟨Rests.refl _, hspec⟩
  · split_ifs
    · rw [hsession]
      refine ⟨rests_of_none (e := .call .doRead) rfl rfl, hspec⟩
    · refine ⟨?_, ⟨hspec.connected, hspec.myName, hspec.mySession, hspec.typed, hspec.console⟩⟩
      rw [resume, hsession]
      cases hresume : (x.session.call callbacks .doRead).resume with
      | none => exact rests_of_none (e := .call .doRead) rfl rfl
      | some t => exact rests_of_read hquiet hresume

/-- Once the client is greeted, what it has sent is what has been typed. -/
structure Sends (x : ChatClient) : Prop where
  silent : x.mySession = false → x.typed = []
  posted : x.mySession = true → Posted x.typed x.myName x.session

theorem sends_initial : Sends {} where
  silent := fun _ => rfl
  posted := fun h => by simp at h

/-- A handler that leaves the client as it was, but for its session. -/
theorem Sends.same (hx : x.Sends) (hsession : z.mySession = x.mySession)
    (htyped : z.typed = x.typed) (hname : x.mySession = true → z.myName = x.myName)
    (hposted : x.mySession = true → Posted x.typed x.myName x.session →
      Posted x.typed x.myName z.session) : z.Sends where
  silent := fun hnot => htyped.trans (hx.silent (hsession.symm.trans hnot))
  posted := by
    intro hgreeted
    have hbefore := hsession.symm.trans hgreeted
    rw [htyped, hname hbefore]
    exact hposted hbefore (hx.posted hbefore)

/-- Where the client is greeted, it has sent its name. -/
theorem Received.posted (hx : x.Received overflow l) (hs : x.Sends) (hrunning : x.thrown = false)
    {chunk : Bytes} {text : Bool} (hl : l ≠ []) (hwrites : x.session.stream.writes = [])
    (h : (Client.system callbacks).step x.session (.readDone .success chunk text) = some s) :
    Posted x.typed x.myName s ∧ s.outbox.Quiet := by
  have hrests : Rests x.session s := rests_of_none rfl h
  cases hsession : x.mySession with
  | true =>
    have hposted := (hs.posted hsession).rests hrests
    have hquiet := quiet_of_writes (hs.posted hsession).orderly hwrites
    exact ⟨hposted, hrests.outbox ▸ hquiet⟩
  | false =>
    have htyped := hs.silent hsession
    have hunspoken : ∀ m, ¬ Spoken x.typed x.myName m := by
      rintro m ⟨line, hline, _⟩
      rw [htyped] at hline
      cases hline
    obtain ⟨_, _, htalks⟩ := hx.greeted hrunning hl h
    obtain ⟨⟨rest, hrest, hspoken⟩, hbuffer⟩ := htalks
    have hquiet : s.outbox.Quiet := by
      refine ⟨hbuffer.resolve_right (hunspoken _), ?_⟩
      have hflight : x.session.outbox.flight = [] := by
        change x.session.stream.writes.map Write.payload = []
        rw [hwrites]
        rfl
      rw [hrests.outbox, hflight]
    refine ⟨⟨?_, hquiet.orderly, ?_⟩, hquiet⟩
    · obtain ⟨y, hy⟩ := hx.opening hrunning hsession
      have hidle := (Session.handled_eq_some.mp h).1
      have hphase := hy.follows.reading hidle.1 hidle.2
      have hshaken := hy.follows.handshaked (by simp [hphase])
      apply hrests.handshaked
      simpa [hphase] using hshaken
    · rw [hrest, htyped]
      cases rest with
      | nil => rfl
      | cons m rest => exact absurd (hspoken m List.mem_cons_self) (hunspoken m)

theorem Sends.step {w : Event} (hx : x.Received overflow l) (hasked : Asked l w) (hs : x.Sends)
    (hunhurried : x.Unhurried w) (h : step overflow x w = some z) : z.Sends := by
  have hrunning := running_of_step h
  cases w with
  | connect =>
    obtain ⟨hnew, rfl⟩ := step_connect h
    refine hs.same rfl rfl (fun _ => rfl) fun hgreeted => ?_
    have hconnected := (hx.talking hgreeted).2.1
    rw [hnew] at hconnected
    cases hconnected
  | typed line =>
    obtain ⟨hgreeted, rfl⟩ := step_typed h
    constructor
    · intro hnot
      exact absurd (hgreeted.symm.trans hnot) (by simp)
    · exact fun _ => (hs.posted hgreeted).line hunhurried line
  | session e name =>
    obtain ⟨hext, s, hstep, rfl⟩ := step_session h
    have hsilent : x.session.callback callbacks e = none →
        (x.mySession = true → Posted x.typed x.myName x.session → Posted x.typed x.myName s) →
        ({ x with session := s }.react overflow name (x.session.callback callbacks e)).Sends := by
      intro hcall hposted
      rw [hcall]
      exact hs.same rfl rfl (fun _ => rfl) hposted
    cases e with
    | call c => exact absurd hext id
    | setNextRead b => exact absurd hext id
    | resume => exact absurd hext id
    | handshakeDone ec response =>
      have hfresh : x.mySession = true → False := by
        intro hgreeted
        have hnone := (hx.talking hgreeted).2.2.1
        have hpos := (Session.handled_eq_some.mp hstep).1.2
        omega
      by_cases hec : ec = .success
      · subst hec
        exact hs.same rfl rfl (fun _ => rfl) fun hgreeted => absurd hgreeted hfresh
      · exact hsilent (by simp [Client.callback, hec]) fun hgreeted => absurd hgreeted hfresh
    | readDone ec chunk text =>
      by_cases hec : ec = .success
      · subst hec
        obtain ⟨hfirst, _⟩ := hasked chunk rfl
        have hidle := (Session.handled_eq_some.mp hstep).1
        have hempty : x.session.inputBuffer = [] :=
          hx.inbox.empty_of_reads hidle.2 (by simp [Session.inbox, hidle.1])
        have hcall : x.session.callback callbacks (.readDone .success chunk text) =
            some (.message chunk) := by
          rw [Client.callback, hempty]
          rfl
        rw [hcall]
        by_cases hquestion : chunk = question
        · have hfresh : x.mySession = true → False := by
            intro hgreeted
            exact (hx.talking hgreeted).1 (hfirst.mp hquestion)
          rw [react, if_pos hquestion]
          exact hs.same rfl rfl (fun hgreeted => absurd hgreeted hfresh)
            fun hgreeted => absurd hgreeted hfresh
        · have hl : l ≠ [] := fun hl => hquestion (hfirst.mpr hl)
          obtain ⟨hposted, hquiet⟩ := hx.posted hs hrunning hl hunhurried hstep
          obtain ⟨hrests, hspec⟩ := rests_of_frame (x := { x with session := s }) overflow name
            hquestion hquiet
          constructor
          · intro hnot
            rw [hspec.mySession] at hnot
            exact hspec.typed.trans (hs.silent (Bool.or_eq_false_iff.mp hnot).1)
          · intro _
            rw [hspec.typed, hspec.myName]
            exact hposted.rests hrests
      · apply hsilent (by simp [Client.callback, hec])
        exact fun _ hposted => hposted.rests (rests_of_none rfl hstep)
    | writeDone i ec =>
      have hec : ec = .success := hunhurried
      subst hec
      exact hsilent rfl fun _ hposted => hposted.finish hstep
    | control kind payload =>
      apply hsilent
      · rw [Client.callback]
        split_ifs <;> simp [Callbacks.control, callbacks]
      · exact fun _ hposted => hposted.rests (rests_of_none rfl hstep)
    | _ => exact hsilent rfl fun _ hposted => hposted.rests (rests_of_none rfl hstep)

end ChatClient

/-! ## The store -/

namespace Chat.Room
variable {overflow : ℤ → ℤ} {readMessageMax : ℕ} {j k : ℕ} {r t : Room} {l l' : ℕ → List Bytes}
  {who : List (Option ℕ × Message)} {new : List Message} {e : Event}

/-- The store is a merge of what each client has said, behind its name, and of what the server says
of the clients. -/
structure Merges (overflow : ℤ → ℤ) (r : Room) (l : ℕ → List Bytes)
    (who : List (Option ℕ × Message)) : Prop where
  store : who.map Prod.snd = r.messages
  said : ∀ i, (who.filter fun p => p.1 = some i).map Prod.snd =
    (l i).tail.flatMap (obtained overflow)
  told : ∀ m, (none, m) ∈ who → ∃ i name, (l i).head? = some (nameString ++ name) ∧
    (m = entry name ∨ m = farewell name)

theorem map_snd_mk (o : Option ℕ) (new : List Message) :
    (new.map (Prod.mk o)).map Prod.snd = new := by
  rw [List.map_map]
  exact List.map_id new

theorem filter_mk (o : Option ℕ) (i : ℕ) (new : List Message) :
    (new.map (Prod.mk o)).filter (fun p => p.1 = some i) =
      if o = some i then new.map (Prod.mk o) else [] := by
  rw [List.filter_map]
  split_ifs with ho
  · simp [Function.comp_def, ho]
  · simp [Function.comp_def, ho]

theorem merges_initial (overflow : ℤ → ℤ) : Merges overflow {} (fun _ => []) [] where
  store := rfl
  said := fun _ => rfl
  told := by simp

/-- The server says something of a client, or nothing. -/
theorem Merges.announce (h : r.Merges overflow l who) (hstore : t.messages = r.messages ++ new)
    (hl : ∀ i, l i <+: l' i) (htail : ∀ i, (l' i).tail = (l i).tail)
    (hnew : ∀ m ∈ new, ∃ i name, (l' i).head? = some (nameString ++ name) ∧
      (m = entry name ∨ m = farewell name)) :
    t.Merges overflow l' (who ++ new.map (Prod.mk none)) where
  store := by
    rw [List.map_append, h.store, hstore, map_snd_mk]
  said := by
    intro i
    rw [htail, ← h.said, List.filter_append, filter_mk, if_neg (by simp), List.append_nil]
  told := by
    intro m hm
    rcases List.mem_append.mp hm with hm | hm
    · obtain ⟨i, name, hhead, hcases⟩ := h.told m hm
      exact ⟨i, name, head?_of_isPrefix (hl i) hhead, hcases⟩
    · obtain ⟨m', hm', heq⟩ := List.mem_map.mp hm
      cases heq
      exact hnew m hm'

/-- Client `j` says something. -/
theorem Merges.say (h : r.Merges overflow l who) (hstore : t.messages = r.messages ++ new)
    (hl : ∀ i, l i <+: l' i)
    (hsaid : ∀ i, (l' i).tail.flatMap (obtained overflow) =
      (l i).tail.flatMap (obtained overflow) ++ if j = i then new else []) :
    t.Merges overflow l' (who ++ new.map (Prod.mk (some j))) where
  store := by
    rw [List.map_append, h.store, hstore, map_snd_mk]
  said := by
    intro i
    rw [hsaid, ← h.said, List.filter_append, List.map_append, filter_mk]
    simp only [Option.some.injEq]
    split_ifs
    · rw [map_snd_mk]
    · rfl
  told := by
    intro m hm
    rcases List.mem_append.mp hm with hm | hm
    · obtain ⟨i, name, hhead, hcases⟩ := h.told m hm
      exact ⟨i, name, head?_of_isPrefix (hl i) hhead, hcases⟩
    · simp at hm

/-- An event of which the server says something, or nothing, and from which it takes no message. -/
theorem Merges.silent (h : r.Merges overflow l who) (hstore : t.messages = r.messages ++ new)
    (htaken : ∀ i, (hub overflow readMessageMax).taken i e = [])
    (hnew : ∀ m ∈ new, ∃ i name, (l i).head? = some (nameString ++ name) ∧
      (m = entry name ∨ m = farewell name)) :
    ∃ who', t.Merges overflow (fun i => l i ++ (hub overflow readMessageMax).taken i e) who' := by
  have hsame : (fun i => l i ++ (hub overflow readMessageMax).taken i e) = l := by
    funext i
    rw [htaken, List.append_nil]
  rw [hsame]
  exact ⟨_, h.announce hstore (fun _ => List.prefix_rfl) (fun _ => rfl) hnew⟩

theorem Merges.step (hr : r.Attended overflow l) (hb : r.Bounded) (hname : r.Introduces e)
    (hm : r.Merges overflow l who) (h : (system overflow readMessageMax).step r e = some t) :
    ∃ who', t.Merges overflow (fun i => l i ++ (hub overflow readMessageMax).taken i e) who' := by
  have hstore := step_messages h
  cases e with
  | upgrade => exact hm.silent hstore (fun _ => rfl) (by simp [stored])
  | disconnect i => exact hm.silent hstore (fun _ => rfl) (by simp [stored])
  | session j e =>
    obtain ⟨_, s, hs, _⟩ := step_session h
    by_cases hmessage : ∃ input, (r.sessions j).callback callbacks e = some (.message input)
    · obtain ⟨input, hcall⟩ := hmessage
      have hfirst := hname input hcall
      rw [hr.heard_iff, not_not] at hfirst
      have htaken : ∀ i, (hub overflow readMessageMax).taken i (.session j e) =
          if j = i then [input] else [] := by
        intro i
        rw [hub_taken, takes_of_message hb hs hcall]
        rfl
      rw [stored, hcall, stores] at hstore
      split_ifs at hstore with htake
      · refine ⟨_, hm.announce hstore (fun _ => List.prefix_append _ _) ?_ ?_⟩
        · intro i
          rw [htaken]
          split_ifs with hj
          · subst hj
            rw [hfirst.mp htake]
            rfl
          · rw [List.append_nil]
        · intro m hmem
          rw [List.mem_singleton] at hmem
          refine ⟨j, input.drop 11, ?_, Or.inl hmem⟩
          rw [htaken, if_pos rfl, hfirst.mp htake, ← htake, List.take_append_drop]
          rfl
      · refine ⟨_, hm.say (j := j) hstore (fun _ => List.prefix_append _ _) ?_⟩
        intro i
        rw [htaken]
        split_ifs with hj
        · subst hj
          cases hl : l j with
          | nil => exact absurd (hfirst.mpr hl) htake
          | cons first l => simp [obtained]
        · rw [List.append_nil, List.append_nil]
    · have htaken : ∀ i, (hub overflow readMessageMax).taken i (.session j e) = [] := by
        intro i
        rw [hub_taken]
        cases htakes : Server.takes e with
        | none => simp
        | some chunk => exact absurd ⟨chunk, message_of_takes hb hs htakes⟩ hmessage
      apply hm.silent hstore htaken
      intro m hmem
      rw [stored] at hmem
      cases hcall : (r.sessions j).callback callbacks e with
      | none =>
        rw [hcall] at hmem
        cases hmem
      | some c =>
        rw [hcall] at hmem
        cases c with
        | message input => exact absurd ⟨input, hcall⟩ hmessage
        | close payload =>
          obtain ⟨name, hhead, rfl⟩ := hr.leaves_named hmem
          exact ⟨j, name, hhead, Or.inr rfl⟩
        | _ => cases hmem

end Chat.Room

/-! ## The network -/

namespace Chat.Network
variable {overflow : ℤ → ℤ} {readMessageMax : ℕ} {x y : Network} {e : Network.Event}
  {es : List Network.Event} {k : ℕ}

def Unhurried (k : ℕ) (x : Network) : Network.Event → Prop
  | .spoke i w => i = k → (x.spokes k).Unhurried w
  | .hub _ => True

instance (k : ℕ) (x : Network) (e : Network.Event) : Decidable (x.Unhurried k e) :=
  match e with
  | .spoke i w => inferInstanceAs (Decidable (i = k → (x.spokes k).Unhurried w))
  | .hub _ => isTrue trivial

theorem run_merges (hmax : readMessageMax < 2 ^ 31)
    (hrun : (system overflow readMessageMax).run initial es = some x)
    (hnamed : (system overflow readMessageMax).Along Named initial es)
    (hcount : x.hub.messages.length < 2 ^ 31) : ∃ who, x.hub.Merges overflow x.heard who := by
  have hx : x.Sound overflow readMessageMax ∧ ∃ who, x.hub.Merges overflow x.heard who := by
    apply System.run_invariant (M := system overflow readMessageMax) (P := Named)
      (I := fun x => x.hub.messages.length < 2 ^ 31 →
        x.Sound overflow readMessageMax ∧ ∃ who, x.hub.Merges overflow x.heard who) _ _ hnamed hrun
      hcount
    · intro x e y hx hname h hcount
      have hle := messages_le h
      obtain ⟨hsound, who, hwho⟩ := hx (by omega)
      refine ⟨hsound.step hmax hname hcount h, ?_⟩
      cases e with
      | hub e =>
        have hstep := Star.step_hub h
        have hheard : y.heard = fun i =>
            x.heard i ++ (Room.hub overflow readMessageMax).taken i e := funext hstep.heard
        rw [hheard]
        exact hwho.step hsound.attended hsound.bounded (hsound.introduces h) hstep.hub
      | spoke i w =>
        have hstep := Star.step_spoke h
        rw [hstep.hub, hstep.heard]
        exact ⟨who, hwho⟩
    · exact fun _ => ⟨sound_initial overflow readMessageMax, [], Room.merges_initial overflow⟩
  exact hx.2

theorem run_sends (hmax : readMessageMax < 2 ^ 31)
    (hrun : (system overflow readMessageMax).run initial es = some x)
    (hnamed : (system overflow readMessageMax).Along Named initial es)
    (hunhurried : (system overflow readMessageMax).Along (Unhurried k) initial es)
    (hcount : x.hub.messages.length < 2 ^ 31) :
    x.Sound overflow readMessageMax ∧ (x.spokes k).Sends := by
  apply System.run_invariant (M := system overflow readMessageMax)
    (P := fun x e => Named x e ∧ x.Unhurried k e)
    (I := fun x => x.hub.messages.length < 2 ^ 31 →
      x.Sound overflow readMessageMax ∧ (x.spokes k).Sends) _ _ (hnamed.and hunhurried) hrun hcount
  · rintro x e y hx ⟨hname, hunhurried⟩ h hcount
    have hle := messages_le h
    obtain ⟨hsound, hsends⟩ := hx (by omega)
    refine ⟨hsound.step hmax hname hcount h, ?_⟩
    cases e with
    | hub e =>
      rw [(Star.step_hub h).spokes]
      exact hsends
    | spoke i w =>
      have hstep := Star.step_spoke h
      by_cases hk : i = k
      · subst hk
        exact hsends.step (hsound.clients i) (hsound.asked hname h) (hunhurried rfl) hstep.spoke
      · rw [(hstep.others k (Ne.symm hk)).1]
        exact hsends
  · exact fun _ => ⟨sound_initial overflow readMessageMax, ChatClient.sends_initial⟩

/-- What is obtained from the frame of a line. -/
theorem obtained_line {line name : Bytes} (hname : colon ∉ name) (hlt : line.length < 2 ^ 31) :
    obtained overflow (frame [⟨line, name⟩]) = if line ≠ [] then [⟨line, name⟩] else [] := by
  split_ifs with hline
  · exact obtained_frame overflow ⟨hname, hline⟩ hlt
  · rw [List.eq_nil_iff_forall_not_mem]
    intro m hm
    rw [← List.append_nil (frame _)] at hm
    exact hline (obtained_of_frame hname hlt hm).2

theorem flatMap_ite (f : Bytes → Message) (lines : List Bytes) :
    (lines.flatMap fun line => if line ≠ [] then [f line] else []) =
      (lines.filter fun line => line ≠ []).map f := by
  induction lines with
  | nil => rfl
  | cons line lines ih =>
    rw [List.flatMap_cons, ih, List.filter_cons]
    by_cases hline : line = []
    · simp [hline]
    · simp [hline]

/-- What the server has heard of the client behind its name are the first of the lines. -/
theorem Sound.heard_lines (hx : x.Sound overflow readMessageMax) (hk : (x.spokes k).Sends) :
    ∃ n ≤ (x.spokes k).typed.length, (x.heard k = (x.spokes k).sent →
        n = (x.spokes k).typed.length) ∧
      (x.heard k).tail = ((x.spokes k).typed.take n).map
        fun line => frame [⟨line, (x.spokes k).myName⟩] := by
  have hheard := (hx.faithful k).1
  cases hsession : (x.spokes k).mySession with
  | false =>
    have htyped := hk.silent hsession
    refine ⟨0, Nat.zero_le _, fun _ => by rw [htyped]; rfl, ?_⟩
    have hasked := (hx.clients k).asked hsession
    have hlength : (x.heard k).length ≤ 1 := by
      refine hheard.length_le.trans ?_
      change (x.spokes k).sent.length ≤ 1
      rw [hasked]
      split_ifs <;> simp
    apply List.eq_nil_of_length_eq_zero
    rw [List.length_tail]
    omega
  | true =>
    have hsent : (x.spokes k).sent = _ := (hk.posted hsession).handed
    change x.heard k <+: (x.spokes k).sent at hheard
    rw [hsent] at hheard ⊢
    cases hl : x.heard k with
    | nil => exact ⟨0, Nat.zero_le _, fun hnil => (by cases hnil), rfl⟩
    | cons first m =>
      rw [hl] at hheard
      obtain ⟨_, hm⟩ := List.cons_prefix_cons.mp hheard
      have hle := hm.length_le
      rw [List.length_map] at hle
      refine ⟨m.length, hle, fun hall => ?_, ?_⟩
      · have hlength := congrArg List.length hall
        simpa using hlength
      · rw [List.tail_cons, List.map_take]
        exact List.prefix_iff_eq_take.mp hm

theorem Sound.said_lines (hx : x.Sound overflow readMessageMax) (hk : (x.spokes k).Sends) :
    ∃ n ≤ (x.spokes k).typed.length, (x.heard k = (x.spokes k).sent →
        n = (x.spokes k).typed.length) ∧
      (x.heard k).tail.flatMap (obtained overflow) =
        (((x.spokes k).typed.take n).filter fun line => line ≠ []).map
          fun line => ⟨line, (x.spokes k).myName⟩ := by
  obtain ⟨n, hn, hall, htail⟩ := hx.heard_lines hk
  refine ⟨n, hn, hall, ?_⟩
  have hname : (x.heard k).tail ≠ [] → colon ∉ (x.spokes k).myName := by
    intro hne
    have hheard : x.heard k ≠ [] := by
      intro hnil
      rw [hnil] at hne
      exact hne rfl
    exact ((hx.speaks k).of_isPrefix (hx.faithful k).1 hheard).1.2
  rw [htail, List.flatMap_map, ← flatMap_ite]
  apply List.flatMap_congr
  intro line hline
  have hmem : frame [⟨line, (x.spokes k).myName⟩] ∈ (x.heard k).tail := by
    rw [htail]
    exact List.mem_map_of_mem hline
  apply obtained_line (hname (List.ne_nil_of_mem hmem))
  have hshort := hx.attended.short k _ (List.mem_of_mem_tail hmem)
  have hle : line.length ≤ (frame [⟨line, (x.spokes k).myName⟩]).length := by
    simp [frame, Message.text]
    omega
  omega

end Chat.Network

namespace Chat

/-- The store is a merge of what its clients say and of what the server says of them. A client that
waits for its writes says each line that has been typed at it, if it is not empty, once and in
order, up to those that the server has not received yet. -/
theorem typed_is_stored (overflow : ℤ → ℤ) (readMessageMax : ℕ) (hmax : readMessageMax < 2 ^ 31)
    (es : List Network.Event) (k : ℕ) {x : Network}
    (hrun : (Network.system overflow readMessageMax).run Network.initial es = some x)
    (hnamed : (Network.system overflow readMessageMax).Along Network.Named Network.initial es)
    (hunhurried : (Network.system overflow readMessageMax).Along (Network.Unhurried k)
      Network.initial es)
    (hcount : x.hub.messages.length < 2 ^ 31) :
    ∃ who, x.hub.Merges overflow x.heard who ∧
      ∃ n ≤ (x.spokes k).typed.length,
        (x.heard k = (x.spokes k).sent → n = (x.spokes k).typed.length) ∧
        (who.filter fun p => p.1 = some k).map Prod.snd =
          (((x.spokes k).typed.take n).filter fun line => line ≠ []).map
            fun line => ⟨line, (x.spokes k).myName⟩ := by
  obtain ⟨who, hwho⟩ := Network.run_merges hmax hrun hnamed hcount
  obtain ⟨hx, hk⟩ := Network.run_sends hmax hrun hnamed hunhurried hcount
  refine ⟨who, hwho, ?_⟩
  rw [hwho.said]
  exact hx.said_lines hk

theorem typed_is_stored_chat :
    ∃ x, (Network.system id 16777216).run Network.initial Network.chat = some x ∧
      ∃ who, x.hub.Merges id x.heard who ∧
        (who.filter fun p => p.1 = some 0).map Prod.snd = [⟨[120], [97]⟩] := by
  obtain ⟨who, hwho, n, _, hall, hsaid⟩ := typed_is_stored id 16777216 (by decide) Network.chat 0
    rfl (by decide) (by decide) (by decide)
  rw [hall rfl] at hsaid
  exact ⟨_, rfl, who, hwho, hsaid⟩

end Chat
end BeastWebsocket
