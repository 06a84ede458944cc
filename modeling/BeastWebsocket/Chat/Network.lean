import BeastWebsocket.Chat.Attended

/-! # The chat server and its clients

Any number of chat clients on connections to one chat server. A client whose connection stays whole
shows the store of the server.
-/
namespace BeastWebsocket.Chat
open Channel Transition

abbrev Network := Star Room ChatClient ℕ Bytes Bytes

abbrev Network.Event := Star.Event Room.Event ChatClient.Event ℕ

namespace Network

def system (overflow : ℤ → ℤ) (readMessageMax : ℕ) : System Network Network.Event :=
  Star.system (Room.hub overflow readMessageMax) (ChatClient.spoke overflow)

/-- No session is there, and no client has connected. -/
def initial : Network := { hub := {}, spokes := fun _ => {} }

/-- Whoever is asked for a name gives one, without a colon. -/
def Named (_ : Network) : Network.Event → Prop
  | .spoke _ (.session e name) => Client.takes e = some question → name ≠ [] ∧ colon ∉ name
  | _ => True

/-- The writes of session `k` succeed, its socket stays open, its client sends no close frame, and
what the session is to send finds its output quiet. -/
def Whole (overflow : ℤ → ℤ) (k : ℕ) (x : Network) : Network.Event → Prop
  | .hub e => Room.Remains k e ∧ x.hub.Calm overflow k e
  | .spoke _ _ => True

instance (x : Network) (e : Network.Event) : Decidable (Named x e) :=
  match e with
  | .spoke _ (.session e name) =>
    inferInstanceAs (Decidable (Client.takes e = some question → name ≠ [] ∧ colon ∉ name))
  | .hub _ | .spoke _ .connect | .spoke _ (.typed _) => isTrue trivial

instance (overflow : ℤ → ℤ) (k : ℕ) (x : Network) (e : Network.Event) :
    Decidable (Whole overflow k x e) :=
  match e with
  | .hub e => inferInstanceAs (Decidable (Room.Remains k e ∧ x.hub.Calm overflow k e))
  | .spoke _ _ => isTrue trivial

variable {overflow : ℤ → ℤ} {readMessageMax : ℕ} {x y : Network} {e : Network.Event} {k : ℕ}

structure Sound (overflow : ℤ → ℤ) (readMessageMax : ℕ) (x : Network) : Prop where
  faithful : Star.Faithful (Room.hub overflow readMessageMax) (ChatClient.spoke overflow) x
  room : x.hub.Sound
  bounded : x.hub.Bounded
  fresh : x.hub.Fresh
  asks : ∀ i, x.hub.Asks i
  attended : x.hub.Attended overflow x.heard
  clients : ∀ i, (x.spokes i).Received overflow (x.told i)

theorem sound_initial (overflow : ℤ → ℤ) (readMessageMax : ℕ) :
    Sound overflow readMessageMax initial where
  faithful := Star.faithful_initial _ _ _ _
  room := Room.sound_initial
  bounded := Room.bounded_initial
  fresh := Room.fresh_initial
  asks := Room.asks_initial
  attended := Room.attended_initial overflow
  clients := fun _ => ChatClient.received_initial overflow

theorem messages_le (h : (system overflow readMessageMax).step x e = some y) :
    x.hub.messages.length ≤ y.hub.messages.length := by
  cases e with
  | hub e =>
    have hstep : (Room.system overflow readMessageMax).step x.hub e = some y.hub :=
      (Star.step_hub h).hub
    rw [Room.step_messages hstep, List.length_append]
    exact Nat.le_add_right _ _
  | spoke i w => rw [(Star.step_spoke h).hub]

/-- The question is the first message that a client receives, and no later one. -/
theorem question_first {r : Room} {l : List Bytes} {m : Bytes} (hr : r.Asks k)
    (h : l ++ [m] <+: r.sent k) : m = question ↔ l = [] := by
  cases hacc : (r.sessions k).accepted with
  | false =>
    rw [Room.sent, (hr.closed hacc).1, List.prefix_nil] at h
    simp at h
  | true =>
    obtain ⟨rest, hrest, hplain⟩ := hr.asked hacc
    rw [Room.sent, hrest] at h
    cases l with
    | nil =>
      obtain ⟨hfirst, _⟩ := List.cons_prefix_cons.mp h
      exact iff_of_true hfirst rfl
    | cons a l =>
      obtain ⟨_, hmore⟩ := List.cons_prefix_cons.mp h
      apply iff_of_false _ (by simp)
      exact (hplain m (hmore.subset (by simp))).ne_question

section Step
variable (hx : x.Sound overflow readMessageMax)
include hx

theorem Sound.speaks (i : ℕ) : Speaks (x.spokes i).typed (x.spokes i).myName (x.spokes i).sent :=
  speaks_of_received (hx.clients i)

theorem Sound.introduces {e : Room.Event}
    (h : (system overflow readMessageMax).step x (.hub e) = some y) : x.hub.Introduces e := by
  have hstep := Star.step_hub h
  apply hx.attended.introduces hx.bounded _ hstep.hub
  intro i
  refine ⟨_, _, (hx.speaks i).of_isPrefix ?_⟩
  rw [← hstep.heard]
  exact hstep.next i (hx.faithful i).1

theorem Sound.asked {i : ℕ} {w : ChatClient.Event} (hnamed : Named x (.spoke i w))
    (h : (system overflow readMessageMax).step x (.spoke i w) = some y) :
    ChatClient.Asked (x.told i) w := by
  cases w with
  | session e name =>
    intro chunk hchunk
    have hstep := Star.step_spoke h
    have hnext := hstep.next (hx.faithful i).2
    have htakes : (ChatClient.spoke overflow).takes (.session e name) = some chunk := hchunk
    rw [hstep.told, htakes, Option.toList_some] at hnext
    refine ⟨question_first (hx.asks i) hnext, fun hquestion => ?_⟩
    rw [hquestion] at hchunk
    exact hnamed hchunk
  | _ => trivial

theorem Sound.step (hmax : readMessageMax < 2 ^ 31) (hnamed : Named x e)
    (hcount : y.hub.messages.length < 2 ^ 31)
    (h : (system overflow readMessageMax).step x e = some y) : y.Sound overflow readMessageMax := by
  have hfaithful := hx.faithful.step x e y h
  have hle := messages_le h
  cases e with
  | hub e =>
    have hname := hx.introduces h
    have hstep := Star.step_hub h
    have hheard : y.heard = fun i => x.heard i ++ (Room.hub overflow readMessageMax).taken i e :=
      funext hstep.heard
    constructor
    · exact hfaithful
    · exact hx.room.step _ _ _ hstep.hub
    · exact hx.bounded.step hmax _ _ _ hstep.hub
    · exact hx.fresh.step hx.room hstep.hub
    · exact fun i => (hx.asks i).step hx.room hx.fresh hstep.hub
    · rw [hheard]
      exact hx.attended.step hmax hx.bounded hname (by omega) hstep.hub
    · rw [hstep.spokes, hstep.told]
      exact hx.clients
  | spoke i w =>
    have hstep := Star.step_spoke h
    constructor
    · exact hfaithful
    · exact hstep.hub ▸ hx.room
    · exact hstep.hub ▸ hx.bounded
    · exact hstep.hub ▸ hx.fresh
    · exact hstep.hub ▸ hx.asks
    · rw [hstep.hub, hstep.heard]
      exact hx.attended
    · intro j
      by_cases hj : j = i
      · subst hj
        rw [hstep.told]
        exact (hx.clients j).step (hx.asked hnamed h) hstep.spoke
      · obtain ⟨hspoke, htold⟩ := hstep.others j hj
        rw [hspoke, htold]
        exact hx.clients j

end Step

end Network
end BeastWebsocket.Chat
