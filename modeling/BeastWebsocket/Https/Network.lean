import BeastWebsocket.Https.Answering
import BeastWebsocket.Https.Requesting

/-! # The HTTPS server and its clients

Any number of clients on connections to one server. A client writes a request once the response to
the one before it has come, and each request is answered while it is processed.
-/
namespace BeastWebsocket.Https
open Channel Transition

/-- The sessions of the server, which share its tables, and the clients. -/
abbrev Network (μ η ρ : Type) :=
  Star (ℕ → Server μ η ρ) (Client (Request μ) (Response ρ)) ℕ (Response ρ) (Request μ)

abbrev Network.Event (μ ρ : Type) :=
  Star.Event (ℕ × Server.Event μ ρ) (Client.Event (Request μ) (Response ρ)) ℕ

namespace Network
variable {μ η ρ : Type}

def initial : Network μ η ρ := { hub := fun _ => {}, spokes := fun _ => {} }

variable [DecidableEq μ] [DecidableEq ρ]

section System
variable (regexMatch : Bytes → Bytes → Bool) (router : Router μ η)

def system : System (Network μ η ρ) (Event μ ρ) :=
  Star.system (Server.spoke regexMatch router).each Client.spoke

/-- User code at both ends does its part. -/
def Kept (fits : Request μ → Response ρ → Prop) (x : Network μ η ρ) : Event μ ρ → Prop
  | .hub (i, e) => (x.hub i).Serves regexMatch router fits e
  | .spoke i w => (x.spokes i).InTurn w

instance (fits : Request μ → Response ρ → Prop) [∀ req msg, Decidable (fits req msg)]
    (x : Network μ η ρ) (e : Event μ ρ) : Decidable (x.Kept regexMatch router fits e) :=
  match e with
  | .hub (i, e) => inferInstanceAs (Decidable ((x.hub i).Serves regexMatch router fits e))
  | .spoke i w => inferInstanceAs (Decidable ((x.spokes i).InTurn w))

end System

variable {regexMatch : Bytes → Bytes → Bool} {router : Router μ η}
  {fits : Request μ → Response ρ → Prop} {x y : Network μ η ρ} {i : ℕ}

structure Sound (regexMatch : Bytes → Bytes → Bool) (router : Router μ η)
    (fits : Request μ → Response ρ → Prop) (x : Network μ η ρ) : Prop where
  faithful : Star.Faithful (Server.spoke regexMatch router).each Client.spoke x
  serving : ∀ i, (x.hub i).Serving fits
  received : ∀ i, (tally (x.hub i).log).received = x.heard i
  awaits : ∀ i, (x.spokes i).Awaits (x.told i)
  single : ∀ i, (x.spokes i).exchange.Single

omit [DecidableEq ρ] in
theorem sound_initial : (initial : Network μ η ρ).Sound regexMatch router fits where
  faithful := Star.faithful_initial _ _ _ _
  serving := fun _ => Server.serving_initial
  received := fun _ => rfl
  awaits := fun _ => Client.awaits_initial
  single := fun _ => Exchange.single_initial

theorem Sound.step (x : Network μ η ρ) (e : Event μ ρ) (y : Network μ η ρ)
    (hx : x.Sound regexMatch router fits) (hg : x.Kept regexMatch router fits e)
    (h : (system regexMatch router).step x e = some y) : y.Sound regexMatch router fits := by
  have hfaithful := hx.faithful.step x e y h
  cases e with
  | hub e =>
    obtain ⟨j, e⟩ := e
    have hstep := Star.step_hub h
    obtain ⟨hs, hothers⟩ := Spoke.each_step hstep.hub
    have hheard : ∀ i, y.heard i = x.heard i ++ if j = i then e.takes.toList else [] := by
      intro i
      rw [hstep.heard, Spoke.each_taken]
      rfl
    refine ⟨hfaithful, fun i => ?_, fun i => ?_, ?_, ?_⟩
    · by_cases hi : i = j
      · subst hi
        exact (hx.serving i).step hg hs
      · rw [hothers i hi]
        exact hx.serving i
    · rw [hheard]
      by_cases hi : i = j
      · subst hi
        rw [if_pos rfl, ← hx.received]
        exact Server.step_received hs
      · rw [hothers i hi, if_neg (Ne.symm hi), List.append_nil]
        exact hx.received i
    · rw [hstep.spokes, hstep.told]
      exact hx.awaits
    · rw [hstep.spokes]
      exact hx.single
  | spoke j w =>
    have hstep := Star.step_spoke h
    refine ⟨hfaithful, ?_, ?_, fun i => ?_, fun i => ?_⟩
    · rw [hstep.hub]
      exact hx.serving
    · rw [hstep.hub, hstep.heard]
      exact hx.received
    · by_cases hi : i = j
      · subst hi
        rw [hstep.told]
        exact (hx.awaits i).step hg hstep.spoke
      · obtain ⟨hspoke, htold⟩ := hstep.others i hi
        rw [hspoke, htold]
        exact hx.awaits i
    · by_cases hi : i = j
      · subst hi
        exact (hx.awaits i).single (hx.single i) hg hstep.spoke
      · rw [(hstep.others i hi).1]
        exact hx.single i

omit [DecidableEq ρ] in
/-- What a client has been told fits its requests, one by one. -/
theorem Sound.told_fits (hx : x.Sound regexMatch router fits) (i : ℕ) :
    List.Forall₂ fits ((Client.requested (x.spokes i).log).take (x.told i).length) (x.told i) := by
  obtain ⟨hheard, htold⟩ := hx.faithful i
  have hsent := (hx.serving i).sent_fits
  rw [hx.received] at hsent
  have hprefix : x.told i <+: handed (x.hub i).log := htold
  have hfit := List.forall₂_take (x.told i).length hsent
  rw [List.take_take, Nat.min_eq_left hprefix.length_le, ← List.prefix_iff_eq_take.mp hprefix]
    at hfit
  have hlength := hfit.length_eq
  rw [List.length_take] at hlength
  have hrequested : (Client.requested (x.spokes i).log).take (x.told i).length =
      (x.heard i).take (x.told i).length := by
    obtain ⟨rest, hrest⟩ := hheard
    rw [show Client.requested (x.spokes i).log = x.heard i ++ rest from hrest.symm,
      List.take_append_of_le_length (by omega)]
  rw [hrequested]
  exact hfit

end Network

/-- Where each request is answered while it is processed, by one list of handlers and with what
fits the request, and each client waits for a response before it writes the next request: at both
ends of each connection at most one read and one write are outstanding, and `on_message` of the
client is called with responses that fit its first requests, one by one and in order. -/
theorem responses_fit {μ η ρ : Type} [DecidableEq μ] [DecidableEq ρ]
    (regexMatch : Bytes → Bytes → Bool) (router : Router μ η)
    (fits : Request μ → Response ρ → Prop) (es : List (Network.Event μ ρ)) {x : Network μ η ρ}
    (hkept : (Network.system regexMatch router).Along
      (Network.Kept regexMatch router fits) Network.initial es)
    (hrun : (Network.system regexMatch router).run Network.initial es = some x) (i : ℕ) :
    ((x.hub i).reads ≤ 1 ∧ (x.hub i).writes.length ≤ 1 ∧ (x.spokes i).OneInFlight) ∧
      ∃ msgs, Client.calledWith (x.spokes i).log = msgs.map some ∧
        List.Forall₂ fits ((Client.requested (x.spokes i).log).take msgs.length) msgs := by
  have hx : x.Sound regexMatch router fits :=
    System.run_invariant Network.Sound.step Network.sound_initial hkept hrun
  obtain ⟨hreads, hwrites⟩ := (hx.serving i).one_each
  exact ⟨⟨hreads, hwrites, Client.oneInFlight_iff.mpr (hx.single i)⟩, x.told i,
    (hx.awaits i).called, hx.told_fits i⟩

/-- The response repeats the target. -/
def Repeats (req : Request Unit) (msg : Response Bytes) : Prop := msg.message = req.target

instance (req : Request Unit) (msg : Response Bytes) : Decidable (Repeats req msg) :=
  inferInstanceAs (Decidable (msg.message = req.target))

/-- A client asks for "a" and then for "b". -/
def twoAsked : List (Network.Event Unit Bytes) :=
  [.spoke 0 (.call .doHandshake), .hub (0, .call .doHandshake),
    .hub (0, .handshakeDone .success 0), .spoke 0 (.handshakeDone .success),
    .spoke 0 (.call (.doWrite ⟨(), [97]⟩)), .hub (0, .readDone .success ⟨(), [97]⟩ []),
    .spoke 0 (.writeDone 0 .success), .hub (0, .call (.doWrite ⟨[97], false⟩)), .hub (0, .resume),
    .spoke 0 (.readDone .success ⟨[97], false⟩ []), .spoke 0 (.call (.doWrite ⟨(), [98]⟩)),
    .spoke 0 (.writeDone 0 .success), .hub (0, .writeDone 0 .success),
    .hub (0, .readDone .success ⟨(), [98]⟩ []), .hub (0, .call (.doWrite ⟨[98], false⟩)),
    .hub (0, .resume), .spoke 0 (.readDone .success ⟨[98], false⟩ [])]

theorem responses_fit_two :
    ∃ x, (Network.system (fun _ _ => true) oneHandler).run Network.initial twoAsked = some x ∧
      Client.calledWith (x.spokes 0).log = [some ⟨[97], false⟩, some ⟨[98], false⟩] ∧
      ((x.hub 0).reads ≤ 1 ∧ (x.hub 0).writes.length ≤ 1 ∧ (x.spokes 0).OneInFlight) ∧
      ∃ msgs, Client.calledWith (x.spokes 0).log = msgs.map some ∧
        List.Forall₂ Repeats ((Client.requested (x.spokes 0).log).take msgs.length) msgs :=
  ⟨_, rfl, rfl, responses_fit (fun _ _ => true) oneHandler Repeats twoAsked (by decide) rfl 0⟩

end BeastWebsocket.Https
