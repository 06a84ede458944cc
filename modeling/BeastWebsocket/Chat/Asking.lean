import BeastWebsocket.Chat.Served

/-! # The question

Whatever fails, and whoever joins or leaves: the first text that a session hands over is the
question, and it asks no second time.
-/
namespace BeastWebsocket
open Channel Transition Chat

/-- A text that starts like no question. -/
def Chat.Plain (text : Bytes) : Prop := text.head? ≠ some 87

theorem Chat.plain_nil : Plain [] := by simp [Plain]

theorem Chat.Plain.append {a b : Bytes} (ha : Plain a) (hb : Plain b) : Plain (a ++ b) := by
  cases a with
  | nil => exact hb
  | cons c a => exact ha

theorem Chat.Plain.ne_question {text : Bytes} (h : Plain text) : text ≠ question := by
  rintro rfl
  exact h rfl

theorem Chat.plain_headText (field rest : Bytes) :
    Plain (headText Inv.prefixString field ++ rest) := by
  have hhead : (headText Inv.prefixString field ++ rest).head? = some 105 := rfl
  rw [Plain, hhead]
  decide

theorem Chat.plain_frame (messages : List Message) : Plain (frame messages) := plain_headText _ _

/-- A text that the parser accepts starts with the prefix of a frame. -/
theorem Chat.headText_of_valid {overflow : ℤ → ℤ} {input : Bytes}
    (h : (Parser.advance overflow input .success).valid = true) :
    ∃ field rest, input = headText Inv.prefixString field ++ rest := by
  obtain ⟨hec, hreturns⟩ : (Parser.advance overflow input .success).ec = .success ∧
      ∃ n, (Parser.advance overflow input .success).usedBytes = .ok n := by
    cases hused : (Parser.advance overflow input .success).usedBytes with
    | error ex => simp [Advance.valid, hused] at h
    | ok n => exact ⟨by simpa [Advance.valid, hused] using h, n, rfl⟩
  rcases Parser.success_cases hec hreturns with ⟨f, bs, t, _, rfl⟩ | ⟨f, bs, header, body, rfl, _⟩
  · exact ⟨f.text, _, rfl⟩
  · exact ⟨f.text, _, rfl⟩

theorem Chat.plain_of_valid {overflow : ℤ → ℤ} {input : Bytes}
    (h : (Parser.advance overflow input .success).valid = true) : Plain input := by
  obtain ⟨field, rest, rfl⟩ := headText_of_valid h
  exact plain_headText field rest

namespace Server
variable {cb : Callbacks} {s t : Server} {e : Event} {b : Bytes}

/-- The session has handed over the question and then no further one, and has none to hand over. -/
structure AskedOnce (s : Server) : Prop where
  handed : ∃ rest, handedPayloads s.log = question :: rest ∧ ∀ m ∈ rest, Plain m
  buffer : Plain s.outputBuffer

theorem AskedOnce.step (hs : s.AskedOnce) (happend : ∀ b, e = .call (.append b) → Plain b)
    (h : (system cb).step s e = some t) : t.AskedOnce := by
  have hop : (Outbox.system Byte).perform s.outbox (s.outboxOp e) = some t.outbox :=
    refines_outbox s e t h
  have hkeeps : s.outbox.Keeps Plain (s.outboxOp e) := by
    cases e with
    | call c =>
      cases c with
      | append b => exact happend b rfl
      | doWrite =>
        rw [outboxOp]
        split_ifs
        · exact hs.buffer
        · trivial
      | _ => trivial
    | writeDone i ec =>
      rw [outboxOp]
      split_ifs <;> trivial
    | resume =>
      rw [outboxOp]
      split_ifs
      · exact hs.buffer
      · trivial
    | _ => trivial
  have hheaded : Outbox.Headed question Plain (handedPayloads s.log) s.outbox :=
    ⟨hs.handed, Or.inr hs.buffer⟩
  have hnext := hheaded.perform (fun _ _ => Plain.append) hkeeps hop
  rw [← step_handed h] at hnext
  refine ⟨hnext.handed, ?_⟩
  rcases hnext.buffer with hempty | hplain
  · have hnone : t.outputBuffer = [] := hempty
    rw [hnone]
    exact plain_nil
  · exact hplain

theorem AskedOnce.call {c : Call} (hs : s.AskedOnce) (happend : ∀ b, c = .append b → Plain b) :
    (s.call cb c).AskedOnce := by
  have hstep : (system cb).step s (.call c) = some (s.call cb c) := rfl
  apply hs.step _ hstep
  intro b hb
  cases hb
  exact happend b rfl

theorem AskedOnce.resume (hs : s.AskedOnce) (h : s.resume = some t) : t.AskedOnce := by
  have hstep : (system {}).step s .resume = some t := h
  exact hs.step (by simp) hstep

/-- What a session has handed over, what it has to hand over, and its reads. -/
def face (s : Server) : List Bytes × Bytes × ℕ :=
  (handedPayloads s.log, s.outputBuffer, s.stream.reads)

/-- An event that does not concern messages. -/
theorem step_face (htouches : e.touches = false) (h : (system cb).step s e = some t) :
    t.face = s.face := by
  have hchannels := step_channels htouches h
  have hhanded := step_handed h
  have hnone : s.outboxOp e = none := by
    cases e with
    | call c => cases c <;> first | rfl | cases htouches
    | _ => first | rfl | cases htouches
  have hnothing : s.outbox.hands none = [] := rfl
  rw [hnone, hnothing, List.append_nil] at hhanded
  have hbuffer := congrArg Outbox.buffer (Session.outbox_eq_of_channels cb hchannels)
  have hreads := congrArg Inbox.reads (Session.inbox_eq_of_channels hchannels)
  exact Prod.ext hhanded (Prod.ext hbuffer hreads)

theorem call_face {c : Call} (h : c.touches = false) : (s.call cb c).face = s.face := by
  have htouches : (Event.call c).touches = false := h
  have hstep : (system cb).step s (.call c) = some (s.call cb c) := rfl
  exact step_face htouches hstep

/-- A read that fails. -/
theorem reads_of_failure {ec : ErrorCode} {chunk : Bytes} {text : Bool} (hec : ec ≠ .success)
    (h : (system cb).step s (.readDone ec chunk text) = some t) :
    t.stream.reads ≤ s.stream.reads := by
  obtain ⟨_, rfl⟩ := Session.handled_eq_some.mp h
  have hdone : (s.io (Session.readDone ec chunk text)).stream.reads = s.stream.reads - 1 := by
    simp [Session.readDone, Session.emit, hec]
  have hle : (s.io (Session.readDone ec chunk text)).stream.reads ≤ s.stream.reads := by omega
  rw [onRead]
  split_ifs with _ _ hfailed
  · exact hle
  · exact hle
  · exact hle
  · exact absurd (by simpa using hfailed) hec

/-- A write that fails. -/
theorem reads_of_drop {i : ℕ} {ec : ErrorCode} (hec : ec ≠ .success)
    (h : (system cb).step s (.writeDone i ec) = some t) : t.stream.reads = s.stream.reads := by
  obtain ⟨w, _, h⟩ := Option.bind_eq_some_iff.mp h
  obtain ⟨_, rfl⟩ := Session.handled_eq_some.mp h
  rw [onWrite]
  split_ifs with _ hfailed
  · rfl
  · rfl
  · exact absurd (by simpa using hfailed) hec

/-- The question is handed over when `on_accept` returns. -/
theorem handed_of_accept (hframe : s.frame = .opening) (hacc : s.accepted = true)
    (hface : s.face = ([], [], 0)) :
    ∃ t, (s.call cb (.append question)).resume = some t ∧ t.face = ([question], question, 0) := by
  obtain ⟨hhanded, hrest⟩ := Prod.ext_iff.mp hface
  obtain ⟨hbuffer, hreads⟩ := Prod.ext_iff.mp hrest
  set u := (s.call cb (.append question)).io Session.leave with hu
  have hout : u.outputBuffer = question := by
    have happended : u.outputBuffer = s.outputBuffer ++ question := rfl
    have hnone : s.outputBuffer = [] := hbuffer
    rw [happended, hnone, List.nil_append]
  have hlog : handedPayloads u.log = [] := by
    have happended : handedPayloads u.log = handedPayloads s.log :=
      project_snoc_none (f := Obs.handed?) rfl
    exact happended.trans hhanded
  have hresume : (s.call cb (.append question)).resume = some u.onAcceptRest := by
    have hsame : (s.call cb (.append question)).frame = .opening := hframe
    rw [resume, hsame]
  have hwrite : u.onAcceptRest = u.io (Session.asyncWrite ()) := by
    have hsame : u.accepted = true := hacc
    rw [onAcceptRest, writeOrRead, hout, if_pos (by decide), doWrite, hsame]
    rfl
  refine ⟨_, hresume, ?_⟩
  rw [hwrite]
  refine Prod.ext ?_ (Prod.ext hout hreads)
  have hhands : handedPayloads (u.io (Session.asyncWrite ())).log =
      handedPayloads u.log ++ [u.outputBuffer] := project_append _ u.log [_]
  change handedPayloads (u.io (Session.asyncWrite ())).log = [question]
  rw [hhands, hlog, hout]
  rfl

end Server

namespace Chat.Room
variable {overflow : ℤ → ℤ} {readMessageMax : ℕ} {k i : ℕ} {r t : Room}

theorem told_plain {c : Option Callback} {text : Bytes} (h : r.told overflow k i c = some text) :
    Plain text := by
  cases c with
  | none => cases h
  | some c =>
    cases c with
    | message input =>
      rw [told] at h
      split_ifs at h
      · rw [toldName_eq h]
        exact plain_frame _
      · obtain ⟨⟨hvalid, _⟩, heq⟩ := Option.ite_none_right_eq_some.mp h
        cases heq
        exact plain_of_valid hvalid
    | close payload =>
      obtain ⟨_, heq⟩ := Option.ite_none_right_eq_some.mp h
      cases heq
      exact plain_frame _
    | _ => cases h

theorem appends_plain {input b : Bytes} (h : Appends overflow i r (some (.message input)) b) :
    Plain b := by
  cases h with
  | hello _ =>
    have hhead : (bytes "Hello " ++ input.drop 11).head? = some 72 := rfl
    rw [Plain, hhead]
    decide
  | frame messages => exact plain_frame messages
  | input hvalid => exact plain_of_valid hvalid

theorem stable_askedOnce (k : ℕ) :
    Stable (fun c => ∀ b, c = .append b → Plain b) fun s => ∀ j, j = k → (s j).AskedOnce := by
  apply Stable.each (R := fun j s => j = k → s.AskedOnce)
  · simp
  · simp
  · exact fun j s c hc hs hj => (hs hj).call hc
  · exact fun j s u hu hs hj => (hs hj).resume hu

/-- A session asks when it accepts, and not again. A client that has not joined is read from only
when the question is out. -/
structure Asks (k : ℕ) (r : Room) : Prop where
  closed : (r.sessions k).accepted = false →
    handedPayloads (r.sessions k).log = [] ∧ (r.sessions k).outputBuffer = []
  asked : (r.sessions k).accepted = true →
    ∃ rest, handedPayloads (r.sessions k).log = question :: rest ∧ ∀ m ∈ rest, Plain m
  plain : (r.sessions k).accepted = true → k ∈ r.members ∨ 0 < (r.sessions k).stream.reads →
    Plain (r.sessions k).outputBuffer

theorem asks_initial (k : ℕ) : Asks k {} where
  closed := fun _ => ⟨rfl, rfl⟩
  asked := fun h => by cases h
  plain := fun h => by cases h

theorem Asks.of_askedOnce (h : (r.sessions k).AskedOnce) (hacc : (r.sessions k).accepted = true) :
    r.Asks k where
  closed := fun hnot => absurd (hacc.symm.trans hnot) (by simp)
  asked := fun _ => h.handed
  plain := fun _ _ => h.buffer

theorem Asks.askedOnce (hr : r.Asks k) (hacc : (r.sessions k).accepted = true)
    (h : k ∈ r.members ∨ 0 < (r.sessions k).stream.reads) : (r.sessions k).AskedOnce :=
  ⟨hr.asked hacc, hr.plain hacc h⟩

/-- What is handed over stays, and what there is to hand over stays, or goes. -/
theorem Asks.rest (hr : r.Asks k) (hmem : k ∈ t.members → k ∈ r.members)
    (hhanded : handedPayloads (t.sessions k).log = handedPayloads (r.sessions k).log)
    (haccepted : (t.sessions k).accepted = (r.sessions k).accepted)
    (hbuffer : (t.sessions k).outputBuffer = [] ∨
      (t.sessions k).outputBuffer = (r.sessions k).outputBuffer ∧
        (t.sessions k).stream.reads ≤ (r.sessions k).stream.reads) : t.Asks k := by
  constructor
  · rw [haccepted, hhanded]
    intro hnot
    obtain ⟨hnone, hempty⟩ := hr.closed hnot
    refine ⟨hnone, ?_⟩
    rcases hbuffer with hgone | ⟨hsame, _⟩
    · exact hgone
    · rw [hsame, hempty]
  · rw [haccepted, hhanded]
    exact hr.asked
  · rw [haccepted]
    intro hacc h
    rcases hbuffer with hgone | ⟨hsame, hle⟩
    · rw [hgone]
      exact plain_nil
    · rw [hsame]
      apply hr.plain hacc
      rcases h with hk | hpos
      · exact Or.inl (hmem hk)
      · exact Or.inr (by omega)

theorem Asks.of_face (hr : r.Asks k) (hmem : k ∈ t.members → k ∈ r.members)
    (haccepted : (t.sessions k).accepted = (r.sessions k).accepted)
    (h : (t.sessions k).face = (r.sessions k).face) : t.Asks k := by
  obtain ⟨hhanded, hrest⟩ := Prod.ext_iff.mp h
  obtain ⟨hbuffer, hreads⟩ := Prod.ext_iff.mp hrest
  exact hr.rest hmem hhanded haccepted (Or.inr ⟨hbuffer, Nat.le_of_eq hreads⟩)

/-- A callback that concerns no message leaves the session as it is. -/
theorem react_face {c : Option Callback} (hnodup : r.members.Nodup) (haccept : c ≠ some .accept)
    (hmessage : ∀ input, c ≠ some (.message input)) :
    ((r.react overflow k c).sessions k).face = (r.sessions k).face := by
  cases c with
  | none => rfl
  | some c =>
    cases c with
    | accept => exact absurd rfl haccept
    | message input => exact absurd rfl (hmessage input)
    | pong payload =>
      have hself : (r.onPong k).sessions k =
          (r.sessions k).call callbacks (.launchTimerWith true) := call_self k _ _
      rw [react, hself]
      exact Server.call_face rfl
    | close payload =>
      rw [react, onClose_other hnodup, toldFarewell_self]
      rfl
    | timer =>
      rw [react, onTimer]
      split
      · have hself : ((r.call k (.doPing [])).launchTimer k .closeConnection).sessions k =
            ((r.call k (.doPing [])).sessions k).call callbacks (.launchTimerWith true) :=
          call_self k _ _
        rw [hself, Server.call_face rfl, call_self, Server.call_face rfl]
      · rw [call_self, Server.call_face rfl]
    | _ => rfl

/-- The stream calls no `on_accept` and no `on_message`. -/
theorem Asks.silent {e : Server.Event} {s : Server} (hr : r.Asks k)
    (hext : External readMessageMax e)
    (hs : (Server.system callbacks).step (r.sessions k) e = some s)
    (hmessage : ∀ input, (r.sessions k).callback callbacks e ≠ some (.message input))
    (hface : (t.sessions k).face = s.face)
    (haccepted : (t.sessions k).accepted = (r.sessions k).accepted)
    (hmem : k ∈ t.members → k ∈ r.members) : t.Asks k := by
  by_cases htouches : e.touches = false
  · exact hr.of_face hmem haccepted (hface.trans (Server.step_face htouches hs))
  · have hhands := Server.step_handed hs
    have hop : (Outbox.system Byte).perform (r.mail k) ((r.sessions k).outboxOp e) =
        some s.outbox := Server.refines_outbox _ e s hs
    obtain ⟨hhanded, hrest⟩ := Prod.ext_iff.mp hface
    obtain ⟨hbuffer, hreads⟩ := Prod.ext_iff.mp hrest
    have hgone : ((r.sessions k).outbox.hands ((r.sessions k).outboxOp e)) = [] := by
      cases e with
      | call c => exact absurd hext id
      | resume => exact absurd hext id
      | writeDone i ec =>
        rw [Server.outboxOp]
        split_ifs <;> rfl
      | _ => rfl
    apply hr.rest hmem (hhanded.trans _) haccepted
    · have hbuffer' : (t.sessions k).outputBuffer = s.outputBuffer := hbuffer
      have hreads' : (t.sessions k).stream.reads = s.stream.reads := hreads
      rw [hbuffer', hreads']
      cases e with
      | readDone ec chunk text =>
        have hec : ec ≠ .success := by
          rintro rfl
          exact hmessage _ rfl
        have hsame : r.mail k = s.outbox := Option.some.inj hop
        exact Or.inr ⟨(congrArg Outbox.buffer hsame).symm, Server.reads_of_failure hec hs⟩
      | writeDone i ec =>
        by_cases hec : ec = .success
        · rw [Server.outboxOp, if_pos hec] at hop
          obtain ⟨p, _, hdone⟩ := Option.map_eq_some_iff.mp hop
          exact Or.inl (congrArg Outbox.buffer hdone).symm
        · rw [Server.outboxOp, if_neg hec] at hop
          obtain ⟨p, _, hdone⟩ := Option.map_eq_some_iff.mp hop
          exact Or.inr ⟨(congrArg Outbox.buffer hdone).symm,
            Nat.le_of_eq (Server.reads_of_drop hec hs)⟩
      | call c => exact absurd hext id
      | resume => exact absurd hext id
      | _ => exact absurd rfl htouches
    · rw [hgone, List.append_nil] at hhands
      exact hhands

/-- The handlers of other sessions. -/
theorem Asks.other {e : Server.Event} (hsound : r.Sound) (hk : k ≠ i) (hr : r.Asks k)
    (h : (system overflow readMessageMax).step r (.session i e) = some t) : t.Asks k := by
  have hsessions := step_other hsound hk h
  cases htold : r.told overflow k i ((r.sessions i).callback callbacks e) with
  | none =>
    have hsame : t.sessions k = r.sessions k := by rw [hsessions, htold, hear]
    refine hr.of_face ?_ (congrArg Server.accepted hsame) (congrArg Server.face hsame)
    intro hmem
    rcases step_members h with hmembers | ⟨j, _, _, heq, _, _, _, hadded⟩
    · exact hmembers ▸ hmem
    · cases heq
      rw [hadded, List.mem_append, List.mem_singleton] at hmem
      exact hmem.resolve_right hk
  | some text =>
    have hmem := member_of_told hk htold
    have hacc := hsound.accepted k hmem
    have htext : Plain text := told_plain htold
    apply Asks.of_askedOnce
    · rw [hsessions, htold, hear, tell]
      apply Server.AskedOnce.call _ (by simp)
      apply (hr.askedOnce hacc (Or.inl hmem)).call
      intro b hb
      cases hb
      exact htext
    · exact (step_leads h).accepted hacc

/-- The handlers of the session itself. -/
theorem Asks.own {e : Server.Event} (hsound : r.Sound) (hfresh : r.Fresh) (hr : r.Asks k)
    (h : (system overflow readMessageMax).step r (.session k e) = some t) : t.Asks k := by
  have hmembers := step_members h
  have haccepted := step_accepted (k := k) h
  have hopens := opens_iff (r.sessions k) e
  obtain ⟨hext, s, hs, ht⟩ := step_session h
  set arrived : Room := { r with sessions := Function.update r.sessions k s }
  have hself : arrived.sessions k = s := Function.update_self k s r.sessions
  by_cases haccept : (r.sessions k).callback callbacks e = some .accept
  · have hnew := (hfresh.accepts k).fresh haccept hs
    obtain ⟨hframe, hacc⟩ := Server.frame_of_accept hs haccept
    have hclosed := hsound.gated k hnew
    obtain ⟨hhanded, hbuffer⟩ := hr.closed hnew
    have hface : s.face = ([], [], 0) := by
      have htouches : e.touches = false := by
        rw [Server.callback_accept haccept]
        rfl
      rw [Server.step_face htouches hs]
      exact Prod.ext hhanded (Prod.ext hbuffer hclosed.reads)
    obtain ⟨u, hu, huface⟩ := Server.handed_of_accept hframe hacc hface
    have hend : t.sessions k = u := by
      have hasked : (arrived.onAccept k).sessions k = s.call callbacks (.append question) :=
        (call_self k _ _).trans (by rw [hself]; rfl)
      rw [ht, haccept, react, resume_self, hasked, hu]
      rfl
    have hafter : (t.sessions k).face = ([question], question, 0) := hend ▸ huface
    obtain ⟨hasked, hrest⟩ := Prod.ext_iff.mp hafter
    have hreads : (t.sessions k).stream.reads = 0 := (Prod.ext_iff.mp hrest).2
    constructor
    · intro hnot
      rw [haccepted, accepting, hopens.mpr haccept] at hnot
      simp at hnot
    · exact fun _ => ⟨[], hasked, by simp⟩
    · intro _ h
      rcases h with hmem | hpos
      · rcases hmembers with hsame | ⟨j, e', input, heq, hcall, _⟩
        · rw [hsame] at hmem
          exact absurd (hnew.symm.trans (hsound.accepted k hmem)) (by simp)
        · cases heq
          rw [haccept] at hcall
          cases hcall
      · omega
  · by_cases hmessage : ∃ input, (r.sessions k).callback callbacks e = some (.message input)
    · obtain ⟨input, hcall⟩ := hmessage
      have hacc := hsound.accepted_of_message hs hcall
      obtain ⟨chunk, text, rfl, _⟩ := Server.callback_message hcall
      have hpos := (Session.handled_eq_some.mp hs).1.2
      have harrived : s.AskedOnce := (hr.askedOnce hacc (Or.inr hpos)).step (by simp) hs
      apply Asks.of_askedOnce
      · rw [ht, hcall]
        apply (stable_askedOnce k).react (by simp) (by simp) (by simp) _ _ k rfl
        · intro b hb c hc
          cases hc
          exact appends_plain hb
        · rintro j rfl
          rw [hself]
          exact harrived
      · rw [haccepted, hacc, Bool.true_or]
    · push Not at hmessage
      have hnot : e.opens = false := by
        rw [← Bool.not_eq_true, hopens]
        exact haccept
      apply hr.silent hext hs hmessage
      · have hnodup : arrived.members.Nodup := hsound.nodup
        rw [ht, react_face hnodup haccept hmessage, hself]
      · rw [haccepted, accepting, hnot, Bool.and_false, Bool.or_false]
      · intro hmem
        rcases hmembers with hsame | ⟨j, e', input, heq, hcall, _⟩
        · exact hsame ▸ hmem
        · cases heq
          exact absurd hcall (hmessage input)

theorem Asks.step {e : Event} (hsound : r.Sound) (hfresh : r.Fresh) (hr : r.Asks k)
    (h : (system overflow readMessageMax).step r e = some t) : t.Asks k := by
  cases e with
  | upgrade =>
    have haccepted := step_accepted (k := k) h
    have hnot : accepting k .upgrade = false := rfl
    rw [hnot, Bool.or_false] at haccepted
    cases step_upgrade h
    refine hr.of_face id haccepted ?_
    by_cases hk : k = r.created
    · subst hk
      rw [call_self]
      exact Server.call_face rfl
    · rw [call_other hk]
  | disconnect i =>
    cases step_disconnect h
    exact hr.of_face id rfl rfl
  | session i e =>
    by_cases hk : k = i
    · subst hk
      exact hr.own hsound hfresh h
    · exact hr.other hsound hk h

end Chat.Room

/-- In every run of the chat server, with every failure: a session that has not accepted has handed
nothing over, and one that has accepted has handed over the question, and only at first. -/
theorem Chat.asked_first (overflow : ℤ → ℤ) (readMessageMax : ℕ) (es : List Room.Event) {r : Room}
    (hrun : (Room.system overflow readMessageMax).run {} es = some r) (k : ℕ) :
    ((r.sessions k).accepted = false → handedPayloads (r.sessions k).log = []) ∧
      ((r.sessions k).accepted = true →
        ∃ rest, handedPayloads (r.sessions k).log = question :: rest ∧ question ∉ rest) := by
  have hr : r.Sound ∧ r.Fresh ∧ r.Asks k := by
    apply System.run_inductive (I := fun r : Room => r.Sound ∧ r.Fresh ∧ r.Asks k) _ _ hrun
    · rintro r e t ⟨hsound, hfresh, hasks⟩ h
      exact ⟨hsound.step r e t h, hfresh.step hsound h, hasks.step hsound hfresh h⟩
    · exact ⟨Room.sound_initial, Room.fresh_initial, Room.asks_initial k⟩
  obtain ⟨_, _, hasks⟩ := hr
  refine ⟨fun hacc => (hasks.closed hacc).1, fun hacc => ?_⟩
  obtain ⟨rest, hrest, hplain⟩ := hasks.asked hacc
  exact ⟨rest, hrest, fun hmem => (hplain question hmem).ne_question rfl⟩

/-- The client `a` joins. -/
theorem Chat.asked_first_name :
    ∃ r, (Room.system id 16777216).run {} (Room.asked 0 ++ [Room.named 0 [97], Room.written 0]) =
        some r ∧
      (r.sessions 0).accepted = true ∧
      ∃ rest, handedPayloads (r.sessions 0).log = question :: rest ∧ question ∉ rest :=
  ⟨_, rfl, rfl, (asked_first id 16777216
    (Room.asked 0 ++ [Room.named 0 [97], Room.written 0]) rfl 0).2 rfl⟩

end BeastWebsocket
