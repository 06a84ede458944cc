import BeastWebsocket.Echo.Client

/-! # The echo server and its clients

Any number of echo clients on connections to one echo server. A client and the session that serves
it take turns: the client receives the lines that have been typed, one by one.
-/
namespace BeastWebsocket.Echo
open Channel Transition

abbrev Network := Star EchoServer EchoClient ℕ Bytes Bytes

abbrev Network.Event := Star.Event EchoServer.Event EchoClient.Event ℕ

namespace Network

def system : System Network Network.Event := Star.system EchoServer.hub EchoClient.spoke

/-- No session is there, and no client has connected. -/
def initial : Network := { hub := {}, spokes := fun _ => {} }

structure Sound (x : Network) : Prop where
  faithful : Star.Faithful EchoServer.hub EchoClient.spoke x
  server : x.hub.Echoing x.heard
  clients : ∀ i, ∃ z, (x.spokes i).Converses z (x.told i)

theorem sound_initial : initial.Sound where
  faithful := Star.faithful_initial _ _ _ _
  server := EchoServer.echoing_initial
  clients := fun _ => ⟨{}, EchoClient.converses_initial⟩

theorem Sound.step (x : Network) (e : Network.Event) (y : Network) (hx : x.Sound)
    (h : system.step x e = some y) : y.Sound where
  faithful := hx.faithful.step x e y h
  server := Star.hub_kept (fun s l e t => EchoServer.Echoing.step s l e t) x e y hx.server h
  clients := by
    apply Star.spoke_kept (I := fun c l => ∃ z, EchoClient.Converses c z l) _ x e y hx.clients h
    intro c l w d hc hd
    exact EchoClient.Converses.step hc hd

/-! ## What has been received -/

theorem filter_eq_self {l : List Bytes} (h : [] ∉ l) : (l.filter fun b => !b.isEmpty) = l := by
  apply List.filter_eq_self.mpr
  intro b hb
  cases b with
  | nil => exact absurd hb h
  | cons a b => rfl

/-- The lines that are not empty, where only the last one may be. -/
theorem filter_isPrefix {l : List Bytes} (h : [] ∉ l.dropLast) :
    (l.filter fun b => !b.isEmpty) <+: l := by
  rcases List.eq_nil_or_concat' l with rfl | ⟨lines, last, rfl⟩
  · exact List.prefix_rfl
  · rw [List.dropLast_concat] at h
    rw [List.filter_append, filter_eq_self h, List.prefix_append_right_inj]
    cases last with
    | nil => exact List.nil_prefix
    | cons a b => exact List.prefix_rfl

variable {x y : Network} {i : ℕ}

/-- What the client has sent are the lines that are not empty. -/
theorem Sound.sent (hx : x.Sound) (i : ℕ) :
    (x.spokes i).sent = (x.spokes i).typed.filter fun b => !b.isEmpty := by
  obtain ⟨z, hz⟩ := hx.clients i
  rw [EchoClient.sent, hz.follows.written, hz.coherent.written, hz.outputs]

/-- What the session has sent are the messages that it has taken. -/
theorem Sound.echoed (hx : x.Sound) (i : ℕ) : x.hub.sent i = x.heard i := by
  obtain ⟨y, hy⟩ := hx.server.echoes i
  obtain ⟨hheard, _⟩ := hx.faithful i
  rw [EchoServer.sent, hy.follows.written, hy.written]
  apply filter_eq_self
  intro hempty
  have hsent : [] ∈ (x.spokes i).sent := hheard.subset hempty
  rw [hx.sent] at hsent
  simp at hsent

theorem Sound.received (hx : x.Sound) (i : ℕ) :
    (x.spokes i).console <+: (x.spokes i).typed ∧
      (x.spokes i).typed.length ≤ (x.spokes i).console.length + 1 := by
  obtain ⟨z, hz⟩ := hx.clients i
  obtain ⟨hheard, htold⟩ := hx.faithful i
  have hechoed : x.told i <+: x.heard i := by
    rw [← hx.echoed i]
    exact htold
  have hlines : (x.spokes i).sent <+: (x.spokes i).typed := by
    rw [hx.sent]
    exact filter_isPrefix hz.counts.empty_last
  rw [hz.printed]
  exact ⟨(hechoed.trans hheard).trans hlines, hz.counts.ahead⟩

/-! ## Taking turns -/

/-- Both handshakes of connection `i` are done, and no operation has failed at either end. -/
structure Working (x : Network) (i : ℕ) : Prop where
  accepted : opened (x.hub.sessions i).log = true
  handshaked : opened (x.spokes i).session.log = true
  served : anyFailure (x.hub.sessions i).log = false
  whole : anyFailure (x.spokes i).session.log = false

/-- A read or a write completes with success at one end of connection `i`. -/
def completes (i : ℕ) : Network.Event → Bool
  | .hub (.session j e) => decide (j = i) && e.completes
  | .spoke j (.session e _) => decide (j = i) && e.completes
  | _ => false

/-- An operation fails at one end of connection `i`. -/
def fails (i : ℕ) : Network.Event → Bool
  | .hub (.session j e) => decide (j = i) && e.fails
  | .spoke j (.session e _) => decide (j = i) && e.fails
  | _ => false

/-- The loop of the session and the conversation of the client, where the client waits for an
answer to its last line. -/
structure Turn (x : Network) (i : ℕ) (y : Loop Byte) (z : Dialogue Byte) : Prop where
  sound : x.Sound
  created : i < x.hub.created
  echoes : (x.hub.sessions i).Echoes y (x.heard i)
  converses : (x.spokes i).Converses z (x.told i)
  serving : y.phase = .reading ∨ y.phase = .writing
  awaiting : z.phase = .reading ∨ z.phase = .writing

/-- What is left to complete before the client receives the next message, where a line that the
session has not taken counts as a read, a write and a message. -/
def work (x : Network) (i : ℕ) : ℕ :=
  (x.hub.sessions i).stream.writes.length + (x.spokes i).session.stream.writes.length +
    3 * ((x.spokes i).sent.length - (x.heard i).length) +
    ((x.hub.sent i).length - (x.told i).length)

section Turn
variable {w : Loop Byte} {z : Dialogue Byte} {e : Network.Event}

theorem Turn.lines (hx : Turn x i w z) :
    (x.spokes i).sent = (x.spokes i).typed ∧
      (x.spokes i).typed.length = (x.told i).length + 1 := by
  obtain ⟨hlength, hne⟩ := hx.converses.counts.awaiting hx.awaiting
  rw [hx.sound.sent, filter_eq_self hne]
  exact ⟨rfl, hlength⟩

theorem Turn.lengths (hx : Turn x i w z) :
    (x.spokes i).sent.length = (x.told i).length + 1 ∧
      (x.hub.sent i).length = (x.heard i).length ∧
      (x.heard i).length ≤ (x.spokes i).sent.length ∧
      (x.told i).length ≤ (x.hub.sent i).length := by
  obtain ⟨hheard, htold⟩ := hx.sound.faithful i
  obtain ⟨hsent, hlength⟩ := hx.lines
  refine ⟨by rw [hsent, hlength], by rw [hx.sound.echoed], hheard.length_le, htold.length_le⟩

theorem Turn.of_working (hx : x.Sound) (h : x.Working i)
    (hline : (x.spokes i).typed.getLast? ≠ some []) : ∃ w z, Turn x i w z := by
  obtain ⟨w, hw⟩ := hx.server.echoes i
  obtain ⟨z, hz⟩ := hx.clients i
  have hcreated : i < x.hub.created := by
    by_contra hnew
    have haccepted := h.accepted
    rw [hx.server.fresh i (by omega)] at haccepted
    cases haccepted
  have hwstopped : w.phase ≠ .stopped := by
    rw [Ne, ← hw.follows.failure, h.served]
    simp
  have haccepted := hw.follows.accepted hwstopped
  rw [← hw.follows.opening, h.accepted] at haccepted
  have hzstopped : z.phase ≠ .stopped := by
    rw [Ne, ← hz.follows.failure, h.whole]
    simp
  have hhandshaked := hz.follows.handshaked hzstopped
  rw [← hz.follows.opening, h.handshaked] at hhandshaked
  have hsilent : z.phase ≠ .silent := by
    intro hsilent
    obtain ⟨lines, htyped, _⟩ := hz.counts.silent hsilent
    apply hline
    rw [htyped, List.getLast?_concat]
  have hwbetween := hw.between
  have hzbetween := hz.between
  refine ⟨w, z, hx, hcreated, hw, hz, ?_, ?_⟩
  · cases hphase : w.phase <;> simp_all
  · cases hphase : z.phase <;> simp_all

theorem Turn.heard {m : Bytes} {text : Bool} (hx : Turn x i w z)
    (h : system.step x (.hub (.session i (.readDone .success m text))) = some y) :
    ∃ w, Turn y i w z ∧ work y i + 1 = work x i := by
  have hy := hx.sound.step _ _ _ h
  have hstep := Star.step_hub h
  obtain ⟨hs, hcreated⟩ := EchoServer.step_handle hstep.hub
  have hheard : y.heard i = x.heard i ++ [m] := by
    rw [hstep.heard]
    simp [Hub.taken, EchoServer.hub, EchoServer.takes, Server.takes]
  have hsent : y.heard i <+: (x.spokes i).sent := hstep.next i (hx.sound.faithful i).1
  have hm : m.isEmpty = false := by
    have hmem : m ∈ (x.spokes i).sent := hsent.subset (by simp [hheard])
    rw [hx.sound.sent, List.mem_filter] at hmem
    simpa using hmem.2
  obtain ⟨hreading, w', hw', hphase⟩ := hx.echoes.handle_read hs
  rw [← hheard] at hw'
  rw [hm] at hphase
  have hnow : Turn y i w' z :=
    { sound := hy
      created := hcreated ▸ hx.created
      echoes := hw'
      converses := by rw [hstep.spokes, hstep.told]; exact hx.converses
      serving := Or.inr hphase
      awaiting := hx.awaiting }
  refine ⟨w', hnow, ?_⟩
  have hbefore := hx.echoes.follows.writes
  have hafter := hnow.echoes.follows.writes
  rw [hreading] at hbefore
  rw [hphase] at hafter
  have hlength := congrArg List.length hheard
  rw [List.length_append, List.length_singleton] at hlength
  have hle := hsent.length_le
  have hold := hx.lengths
  have hnew := hnow.lengths
  rw [hstep.spokes, hstep.told] at hnew
  rw [work, work, hstep.spokes, hstep.told, hbefore, hafter]
  simp only [reduceCtorEq, if_false, if_true]
  omega

theorem Turn.echoed {j : ℕ} (hx : Turn x i w z)
    (h : system.step x (.hub (.session i (.writeDone j .success))) = some y) :
    ∃ w, Turn y i w z ∧ work y i + 1 = work x i := by
  have hy := hx.sound.step _ _ _ h
  have hstep := Star.step_hub h
  obtain ⟨hs, hcreated⟩ := EchoServer.step_handle hstep.hub
  have hheard : y.heard i = x.heard i := (hstep.heard i).trans (List.append_nil _)
  obtain ⟨hwriting, w', hw', hphase⟩ := hx.echoes.handle_write hs
  rw [← hheard] at hw'
  have hnow : Turn y i w' z :=
    { sound := hy
      created := hcreated ▸ hx.created
      echoes := hw'
      converses := by rw [hstep.spokes, hstep.told]; exact hx.converses
      serving := Or.inl hphase
      awaiting := hx.awaiting }
  refine ⟨w', hnow, ?_⟩
  have hbefore := hx.echoes.follows.writes
  have hafter := hnow.echoes.follows.writes
  rw [hwriting] at hbefore
  rw [hphase] at hafter
  rw [work, work, hstep.spokes, hstep.told, hx.sound.echoed, hy.echoed, hheard, hbefore, hafter]
  simp only [reduceCtorEq, if_false, if_true]
  omega

theorem Turn.sent {j : ℕ} {line : Bytes} (hx : Turn x i w z)
    (h : system.step x (.spoke i (.session (.writeDone j .success) line)) = some y) :
    ∃ z, Turn y i w z ∧ work y i + 1 = work x i := by
  have hy := hx.sound.step _ _ _ h
  have hstep := Star.step_spoke h
  have htold : y.told i = x.told i := hstep.told.trans (List.append_nil _)
  obtain ⟨hwriting, z', hz', hphase⟩ := hx.converses.session_write hstep.spoke
  rw [← htold] at hz'
  have hnow : Turn y i w z' :=
    { sound := hy
      created := by rw [hstep.hub]; exact hx.created
      echoes := by rw [hstep.hub, hstep.heard]; exact hx.echoes
      converses := hz'
      serving := hx.serving
      awaiting := Or.inl hphase }
  refine ⟨z', hnow, ?_⟩
  have hbefore := congrArg List.length hx.converses.follows.writes
  have hafter := congrArg List.length hz'.follows.writes
  rw [List.length_map, Client.inFlight, hwriting] at hbefore
  rw [List.length_map, Client.inFlight, hphase] at hafter
  have hold := hx.lengths
  have hnew := hnow.lengths
  rw [hstep.hub, hstep.heard, htold] at hnew
  rw [work, work, hstep.hub, hstep.heard, htold, hbefore, hafter]
  simp only [reduceCtorEq, if_false, if_true, List.length_nil, List.length_singleton]
  omega

theorem Turn.told {m : Bytes} {text : Bool} {line : Bytes} (hx : Turn x i w z)
    (h : system.step x (.spoke i (.session (.readDone .success m text) line)) = some y) :
    (x.spokes i).console.length < (y.spokes i).console.length := by
  have hy := hx.sound.step _ _ _ h
  have htold := (Star.step_spoke h).told
  obtain ⟨z', hz'⟩ := hy.clients i
  rw [hz'.printed, hx.converses.printed, htold, List.length_append]
  exact Nat.lt_succ_self _

/-- Where both ends are where they were, as much is left to do. -/
theorem Turn.same (hx : Turn x i w z) (hy : y.Sound) (hcreated : x.hub.created ≤ y.hub.created)
    (hechoes : (y.hub.sessions i).Echoes w (x.heard i))
    (hconverses : (y.spokes i).Converses z (x.told i)) (hheard : y.heard i = x.heard i)
    (htold : y.told i = x.told i) : Turn y i w z ∧ work y i = work x i := by
  have hnow : Turn y i w z :=
    { sound := hy
      created := Nat.lt_of_lt_of_le hx.created hcreated
      echoes := hheard ▸ hechoes
      converses := htold ▸ hconverses
      serving := hx.serving
      awaiting := hx.awaiting }
  have hserver : (y.hub.sessions i).stream.writes.length =
      (x.hub.sessions i).stream.writes.length := by
    rw [hechoes.follows.writes, hx.echoes.follows.writes]
  have hclient := congrArg List.length (hconverses.follows.writes.trans
    hx.converses.follows.writes.symm)
  rw [List.length_map, List.length_map] at hclient
  refine ⟨hnow, ?_⟩
  rw [work, work, hserver, hclient, hnow.lengths.1, hx.lengths.1, hy.echoed, hx.sound.echoed,
    hheard, htold]

/-- An event of the server. -/
theorem Turn.hub_step {e : EchoServer.Event} (hx : Turn x i w z)
    (hfails : fails i (.hub e) = false) (h : system.step x (.hub e) = some y) :
    ∃ w, Turn y i w z ∧ work y i + (completes i (.hub e)).toNat = work x i := by
  have hy := hx.sound.step _ _ _ h
  have hstep := Star.step_hub h
  have hspokes : (y.spokes i).Converses z (x.told i) := by
    rw [hstep.spokes]
    exact hx.converses
  have htold : y.told i = x.told i := congrFun hstep.told i
  cases e with
  | upgrade =>
    have hhub : y.hub = _ := (Option.some.inj hstep.hub).symm
    have hcreated : x.hub.created ≤ y.hub.created := by
      rw [hhub]
      exact Nat.le_succ _
    have hechoes : (y.hub.sessions i).Echoes w (x.heard i) := by
      rw [hhub]
      simpa only [Function.update_of_ne (Nat.ne_of_lt hx.created)] using hx.echoes
    have hheard : y.heard i = x.heard i := (hstep.heard i).trans (List.append_nil _)
    exact ⟨w, hx.same hy hcreated hechoes hspokes hheard htold⟩
  | session j e =>
    obtain ⟨⟨_, hext⟩, s, hs, hhub⟩ := EchoServer.step_session hstep.hub
    have hcreated : x.hub.created ≤ y.hub.created := by rw [hhub]
    have htaken := hstep.heard i
    by_cases hj : j = i
    · subst hj
      have hcompletes : completes j (.hub (.session j e)) = e.completes := by simp [completes]
      have hquiet : e.fails = false := by simpa [fails] using hfails
      rw [hcompletes]
      cases hother : e.completes with
      | false =>
        obtain ⟨hhandle, _⟩ := EchoServer.step_handle hstep.hub
        obtain ⟨hechoes, hnone⟩ := hx.echoes.handle_other hx.serving hext hquiet hother hhandle
        have hheard : y.heard j = x.heard j := by
          rw [htaken]
          simp [Hub.taken, EchoServer.hub, EchoServer.takes, hnone]
        exact ⟨w, hx.same hy hcreated hechoes hspokes hheard htold⟩
      | true =>
        cases e with
        | readDone ec m text =>
          cases ErrorCode.failed_eq_false.mp hquiet
          exact hx.heard h
        | writeDone k ec =>
          cases ErrorCode.failed_eq_false.mp hquiet
          exact hx.echoed h
        | _ => cases hother
    · have hechoes : (y.hub.sessions i).Echoes w (x.heard i) := by
        rw [hhub]
        simpa only [Function.update_of_ne (Ne.symm hj)] using hx.echoes
      have hheard : y.heard i = x.heard i := by
        rw [htaken]
        cases htakes : Server.takes e <;>
          simp [Hub.taken, EchoServer.hub, EchoServer.takes, htakes, hj]
      have hnone : completes i (.hub (.session j e)) = false := by simp [completes, hj]
      rw [hnone]
      exact ⟨w, hx.same hy hcreated hechoes hspokes hheard htold⟩

/-- An event of a client. -/
theorem Turn.spoke_step {j : ℕ} {e : EchoClient.Event} (hx : Turn x i w z)
    (hfails : fails i (.spoke j e) = false) (h : system.step x (.spoke j e) = some y) :
    (x.spokes i).console.length < (y.spokes i).console.length ∨
      ∃ z, Turn y i w z ∧ work y i + (completes i (.spoke j e)).toNat = work x i := by
  have hy := hx.sound.step _ _ _ h
  have hstep := Star.step_spoke h
  have hcreated : x.hub.created ≤ y.hub.created := by rw [hstep.hub]
  have hechoes : (y.hub.sessions i).Echoes w (x.heard i) := by
    rw [hstep.hub]
    exact hx.echoes
  have hheard : y.heard i = x.heard i := congrFun hstep.heard i
  by_cases hj : j = i
  · subst hj
    cases e with
    | connect =>
      obtain ⟨hnew, _⟩ := Option.ite_none_left_eq_some.mp hstep.spoke
      have hfresh := hx.converses.connected (by simpa using hnew)
      have hawaiting := hx.awaiting
      rw [hfresh] at hawaiting
      simp at hawaiting
    | session e line =>
      have hcompletes : completes j (.spoke j (.session e line)) = e.completes := by
        simp [completes]
      have hquiet : e.fails = false := by simpa [fails] using hfails
      rw [hcompletes]
      cases hother : e.completes with
      | false =>
        obtain ⟨hconverses, _, hnone⟩ :=
          hx.converses.session_other hx.awaiting hquiet hother hstep.spoke
        have htold : y.told j = x.told j := by
          rw [hstep.told]
          simp [EchoClient.spoke, EchoClient.takes, hnone]
        exact Or.inr ⟨z, hx.same hy hcreated hechoes hconverses hheard htold⟩
      | true =>
        cases e with
        | readDone ec m text =>
          cases ErrorCode.failed_eq_false.mp hquiet
          exact Or.inl (hx.told h)
        | writeDone k ec =>
          cases ErrorCode.failed_eq_false.mp hquiet
          exact Or.inr (hx.sent h)
        | _ => cases hother
  · obtain ⟨hspoke, htold⟩ := hstep.others i (Ne.symm hj)
    have hconverses : (y.spokes i).Converses z (x.told i) := by
      rw [hspoke]
      exact hx.converses
    have hnone : completes i (.spoke j e) = false := by cases e <;> simp [completes, hj]
    rw [hnone]
    exact Or.inr ⟨z, hx.same hy hcreated hechoes hconverses hheard htold⟩

/-- While the client receives nothing, each completion leaves less to do, and nothing that does not
fail leaves more. -/
theorem Turn.step (hx : Turn x i w z) (hfails : fails i e = false) (h : system.step x e = some y) :
    (x.spokes i).console.length < (y.spokes i).console.length ∨
      ∃ w z, Turn y i w z ∧ work y i + (completes i e).toNat = work x i := by
  cases e with
  | hub e =>
    obtain ⟨w, hw⟩ := hx.hub_step hfails h
    exact Or.inr ⟨w, z, hw⟩
  | spoke j e =>
    rcases hx.spoke_step hfails h with htold | ⟨z, hz⟩
    · exact Or.inl htold
    · exact Or.inr ⟨w, z, hz⟩

/-- Something is left to complete, but not more than the last line needs. -/
theorem Turn.work_le (hx : Turn x i w z) : 0 < work x i ∧ work x i ≤ 5 := by
  have hserver := hx.echoes.follows.writes
  have hclient := congrArg List.length hx.converses.follows.writes
  have hlengths := hx.lengths
  rw [List.length_map, Client.inFlight] at hclient
  rw [work, hserver, hclient]
  split_ifs <;> simp only [List.length_nil, List.length_singleton] <;> omega

/-- The connection has an operation that can complete with success. -/
theorem Turn.progress (hx : Turn x i w z) :
    ∃ e, completes i e = true ∧ ∃ y, system.step x e = some y := by
  obtain ⟨hheard, htold⟩ := hx.sound.faithful i
  have hlengths := hx.lengths
  rcases hx.awaiting with hreading | hwriting
  · have hlistens : z.Listens := Or.inl hreading
    have hreads : 0 < (x.spokes i).session.stream.reads := by
      rw [hx.converses.follows.reads, if_pos hlistens]
      exact Nat.one_pos
    by_cases hlt : (x.heard i).length < (x.spokes i).sent.length
    · rcases hx.serving with hserving | hserving
      · have hpos : 0 < (x.hub.sessions i).stream.reads := by
          rw [hx.echoes.follows.reads, if_pos hserving]
          exact Nat.one_pos
        obtain ⟨m, hm⟩ := Star.exists_next hheard hlt
        obtain ⟨s, hs⟩ := hx.echoes.handles_read hpos m true
        obtain ⟨g, hg⟩ :=
          EchoServer.exists_step (e := .readDone .success m true) hx.created trivial hs
        refine ⟨.hub (.session i (.readDone .success m true)),
          by simp [completes, Server.Event.completes], Star.exists_step_hub hg ?_⟩
        intro p hp
        cases hp
        exact hm
      · have hne : (x.hub.sessions i).stream.writes ≠ [] := by
          rw [← List.length_pos_iff, hx.echoes.follows.writes, if_pos hserving]
          exact Nat.one_pos
        obtain ⟨s, hs⟩ := hx.echoes.handles_write hne
        obtain ⟨g, hg⟩ :=
          EchoServer.exists_step (e := .writeDone 0 .success) hx.created trivial hs
        refine ⟨.hub (.session i (.writeDone 0 .success)),
          by simp [completes, Server.Event.completes], Star.exists_step_hub hg ?_⟩
        intro p hp
        cases hp
    · obtain ⟨m, hm⟩ := Star.exists_next htold
        (show (x.told i).length < (x.hub.sent i).length by omega)
      obtain ⟨d, hd⟩ := hx.converses.handles_read hreads m true []
      refine ⟨.spoke i (.session (.readDone .success m true) []),
        by simp [completes, Client.Event.completes], Star.exists_step_spoke hd ?_⟩
      intro p hp
      cases hp
      exact hm
  · have hne : (x.spokes i).session.stream.writes ≠ [] := by
      intro hnil
      have hwrites := hx.converses.follows.writes
      rw [hnil, Client.inFlight, if_pos hwriting] at hwrites
      cases hwrites
    obtain ⟨d, hd⟩ := hx.converses.handles_write hne []
    refine ⟨.spoke i (.session (.writeDone 0 .success) []),
      by simp [completes, Client.Event.completes], Star.exists_step_spoke hd ?_⟩
    intro p hp
    cases hp

theorem console_grows (x : Network) (e : Network.Event) (y : Network)
    (h : system.step x e = some y) :
    (x.spokes i).console.length ≤ (y.spokes i).console.length := by
  cases e with
  | hub e => rw [(Star.step_hub h).spokes]
  | spoke j e =>
    have hstep := Star.step_spoke h
    by_cases hj : i = j
    · subst hj
      have hspoke := hstep.spoke
      cases e with
      | connect =>
        obtain ⟨_, hspoke⟩ := Option.ite_none_left_eq_some.mp hspoke
        rw [← Option.some.inj hspoke]
      | session e line =>
        obtain ⟨_, s, _, hspoke⟩ := EchoClient.step_session hspoke
        rw [hspoke, List.length_append]
        exact Nat.le_add_right _ _
    · rw [(hstep.others i hj).1]

theorem Turn.run {fs : List Network.Event} (hx : Turn x i w z)
    (hfails : system.Along (fun _ e => fails i e = false) x fs) (h : system.run x fs = some y) :
    (x.spokes i).console.length < (y.spokes i).console.length ∨
      ∃ w z, Turn y i w z ∧ work y i + fs.countP (completes i) ≤ work x i := by
  have hrun := System.run_descends (I := fun v => (v.spokes i).console.length =
      (x.spokes i).console.length ∧ ∃ w z, Turn v i w z)
    (fun v => (x.spokes i).console.length < (v.spokes i).console.length)
    (fun v => work v i) (completes i) ?_ ?_ ⟨rfl, w, z, hx⟩ hfails h
  · rcases hrun with hgrown | ⟨⟨_, w, z, hend⟩, hrank⟩
    · exact Or.inl hgrown
    · exact Or.inr ⟨w, z, hend, hrank⟩
  · intro u e v hu hv
    exact Nat.lt_of_lt_of_le hu (console_grows u e v hv)
  · rintro u e v ⟨hsame, w, z, hu⟩ he hv
    have hgrows := console_grows (i := i) u e v hv
    by_cases hgrown : (x.spokes i).console.length < (v.spokes i).console.length
    · exact Or.inl hgrown
    · rcases hu.step he hv with htold | ⟨w, z, hw, hwork⟩
      · exact absurd (hsame ▸ htold) hgrown
      · exact Or.inr ⟨⟨by omega, w, z, hw⟩, Nat.le_of_eq hwork⟩

/-- A client whose last line is empty waits for nothing. -/
theorem Sound.falls_silent (hx : x.Sound) (h : x.Working i)
    (hline : (x.spokes i).typed.getLast? = some []) :
    (x.spokes i).session.stream.reads = 0 ∧ (x.spokes i).session.stream.writes = [] := by
  obtain ⟨z, hz⟩ := hx.clients i
  have hstopped : z.phase ≠ .stopped := by
    rw [Ne, ← hz.follows.failure, h.whole]
    simp
  have hhandshaked := hz.follows.handshaked hstopped
  rw [← hz.follows.opening, h.handshaked] at hhandshaked
  have hawaiting : ¬ (z.phase = .reading ∨ z.phase = .writing) := by
    intro hwait
    exact (hz.counts.awaiting hwait).2 (List.mem_of_getLast? hline)
  have hbetween := hz.between
  have hsilent : z.phase = .silent := by
    cases hphase : z.phase <;> simp_all
  refine ⟨?_, ?_⟩
  · rw [hz.follows.reads]
    simp [Dialogue.Listens, hsilent]
  · have hwrites := hz.follows.writes
    rw [Client.inFlight, hsilent] at hwrites
    exact List.map_eq_nil_iff.mp hwrites

end Turn

end Network

/-- However the sessions of the server and any number of clients take their turns, each client
has received the first of the lines that have been typed at it, in order, and at most one line is
not answered. -/
theorem received_in_turn (es : List Network.Event) {x : Network}
    (hrun : Network.system.run Network.initial es = some x) (i : ℕ) :
    (x.spokes i).console <+: (x.spokes i).typed ∧
      (x.spokes i).typed.length ≤ (x.spokes i).console.length + 1 := by
  have hx : x.Sound := System.run_inductive Network.Sound.step Network.sound_initial hrun
  exact hx.received i

/-- The line "A" is typed and answered, then "B" is typed. -/
def exchange : List Network.Event :=
  [.hub .upgrade, .hub (.session 0 (.acceptDone .success)), .spoke 0 .connect,
    .spoke 0 (.session (.handshakeDone .success []) [65]),
    .spoke 0 (.session (.writeDone 0 .success) []),
    .hub (.session 0 (.readDone .success [65] true)), .hub (.session 0 (.writeDone 0 .success)),
    .spoke 0 (.session (.readDone .success [65] true) [66])]

theorem exchange_received_in_turn :
    ∃ x, Network.system.run Network.initial exchange = some x ∧
      ((x.spokes 0).console <+: (x.spokes 0).typed ∧
        (x.spokes 0).typed.length ≤ (x.spokes 0).console.length + 1) ∧
      (x.spokes 0).console = [[65]] :=
  ⟨_, rfl, received_in_turn exchange rfl 0, rfl⟩

/-- Once both handshakes are done and no operation has failed, a client whose last line is empty
waits for nothing. Where the last line is not empty, as long as no operation of the connection fails
and whatever else happens, the client receives a further message, or else a read or a write of the
connection can complete and at most four have. -/
theorem answered_unless_empty (es : List Network.Event) {x : Network} {i : ℕ}
    (hrun : Network.system.run Network.initial es = some x) (hworking : x.Working i) :
    ((x.spokes i).typed.getLast? = some [] →
      (x.spokes i).session.stream.reads = 0 ∧ (x.spokes i).session.stream.writes = []) ∧
    ((x.spokes i).typed.getLast? ≠ some [] → ∀ fs y,
      Network.system.Along (fun _ e => Network.fails i e = false) x fs →
      Network.system.run x fs = some y →
      (x.spokes i).console.length < (y.spokes i).console.length ∨
        (∃ e, Network.completes i e = true ∧ ∃ z, Network.system.step y e = some z) ∧
          fs.countP (Network.completes i) ≤ 4) := by
  have hx : x.Sound := System.run_inductive Network.Sound.step Network.sound_initial hrun
  refine ⟨hx.falls_silent hworking, fun hline => ?_⟩
  obtain ⟨w, z, hturn⟩ := Network.Turn.of_working hx hworking hline
  intro fs y hfails hy
  rcases hturn.run hfails hy with hgrown | ⟨w', z', hend, hwork⟩
  · exact Or.inl hgrown
  · refine Or.inr ⟨hend.progress, ?_⟩
    have hleft := hend.work_le
    have hbound := hturn.work_le
    omega

/-- While the answer to "B" is on its way, a second client connects. -/
theorem exchange_answered :
    ∃ x, Network.system.run Network.initial exchange = some x ∧
      ∃ y, Network.system.run x [.spoke 0 (.session (.writeDone 0 .success) []), .hub .upgrade,
          .spoke 1 .connect, .hub (.session 0 (.readDone .success [66] true))] = some y ∧
        (x.spokes 0).console.length = (y.spokes 0).console.length ∧
        ((x.spokes 0).console.length < (y.spokes 0).console.length ∨
          (∃ e, Network.completes 0 e = true ∧ ∃ z, Network.system.step y e = some z) ∧
            [Star.Event.spoke 0 (.session (.writeDone 0 .success) []), .hub .upgrade,
              .spoke 1 .connect,
              .hub (.session 0 (.readDone .success [66] true))].countP
                (Network.completes 0) ≤ 4) :=
  ⟨_, rfl, _, rfl, rfl,
    (answered_unless_empty exchange rfl ⟨rfl, rfl, rfl, rfl⟩).2 (by decide) _ _ (by decide) rfl⟩

end BeastWebsocket.Echo
