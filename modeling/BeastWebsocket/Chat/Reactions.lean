import BeastWebsocket.Chat.Departed
import BeastWebsocket.Chat.Farewell
import BeastWebsocket.Session.Handed
import BeastWebsocket.Session.Handshake

/-! # What the callbacks do to the sessions

A callback calls members of sessions, none of them `do_accept`, and returns. What these steps keep
of the sessions, each handler of the chat server keeps.
-/
namespace BeastWebsocket
open Channel Transition

namespace Chat.Room

variable {overflow : ℤ → ℤ} {readMessageMax : ℕ} {k i : ℕ} {r t : Room}

/-- The texts that a callback of session `i` appends to outputs. -/
inductive Appends (overflow : ℤ → ℤ) (i : ℕ) (r : Room) : Option Callback → Bytes → Prop
  | question : Appends overflow i r (some .accept) (bytes "What is your name?")
  | hello {input : Bytes} : input.take 11 = nameString →
      Appends overflow i r (some (.message input)) (bytes "Hello " ++ input.drop 11)
  | frame {input : Bytes} (messages : List Message) :
      Appends overflow i r (some (.message input)) (frame messages)
  | input {input : Bytes} : (Parser.advance overflow input .success).valid = true →
      Appends overflow i r (some (.message input)) input
  | farewell {payload : Bytes} (messages : List Message) :
      Appends overflow i r (some (.close payload)) (Chat.frame messages)

theorem broadcast_timers (text : Bytes) (targets : List ℕ) (r : Room) :
    (r.broadcast text targets).timers = r.timers := by
  induction targets generalizing r with
  | nil => rfl
  | cons i targets ih => exact ih ((r.call i (.append text)).call i .doWrite)

theorem insert_timers (i : ℕ) (name : Bytes) (r : Room) : (r.insert i name).timers = r.timers := by
  rw [insert]
  split_ifs <;> rfl

/-- What the calls of user code that meet `A`, among them reading and writing, and the return of a
callback keep of the sessions. -/
structure Stable (A : Server.Call → Prop) (P : (ℕ → Server) → Prop) : Prop where
  read : A .doRead
  write : A .doWrite
  call : ∀ s i c, A c → P s → P (Function.update s i ((s i).call callbacks c))
  resume : ∀ s i u, (s i).resume = some u → P s → P (Function.update s i u)

namespace Stable
variable {A : Server.Call → Prop} {P : (ℕ → Server) → Prop}

/-- What each session keeps. -/
theorem each {R : ℕ → Server → Prop} (hread : A .doRead) (hwrite : A .doWrite)
    (hcall : ∀ k s c, A c → R k s → R k (s.call callbacks c))
    (hresume : ∀ k s u, s.resume = some u → R k s → R k u) : Stable A fun s => ∀ k, R k (s k) where
  read := hread
  write := hwrite
  call := by
    intro s i c hc hs k
    by_cases hk : k = i
    · subst hk
      rw [Function.update_self]
      exact hcall k (s k) c hc (hs k)
    · rw [Function.update_of_ne hk]
      exact hs k
  resume := by
    intro s i u hu hs k
    by_cases hk : k = i
    · subst hk
      rw [Function.update_self]
      exact hresume k (s k) u hu (hs k)
    · rw [Function.update_of_ne hk]
      exact hs k

theorem calls (hP : Stable A P) {c : Server.Call} (hc : A c) (h : P r.sessions) :
    P (r.call i c).sessions := hP.call _ i c hc h

theorem launchTimer (hP : Stable A P) (hlaunch : A (.launchTimerWith true)) (f : OnTimer)
    (h : P r.sessions) : P (r.launchTimer i f).sessions := hP.call _ i _ hlaunch h

theorem broadcast (hP : Stable A P) {text : Bytes} (htext : A (.append text)) (targets : List ℕ)
    (h : P r.sessions) : P (r.broadcast text targets).sessions := by
  induction targets generalizing r with
  | nil => exact h
  | cons j targets ih => exact ih (hP.calls hP.write (hP.calls htext h))

theorem returns (hP : Stable A P) (h : P r.sessions) : P (r.resume i).sessions := by
  rw [Room.resume]
  cases hu : (r.sessions i).resume with
  | none =>
    simp only [Option.getD_none, Function.update_eq_self]
    exact h
  | some u => exact hP.resume _ i u hu h

/-- A callback that throws, or that launches the timer last. -/
theorem join (hP : Stable A P) {name : Bytes} (hhello : A (.append (bytes "Hello " ++ name)))
    (hframe : ∀ messages, A (.append (frame messages))) (h : P r.sessions) :
    ∃ u : Room, P u.sessions ∧ u.timers = r.timers ∧
      (r.join i name = u.throw ∨ r.join i name = u.launchTimer i .sendPing) := by
  have hgreeted : P (r.call i (.append (bytes "Hello " ++ name))).sessions := hP.calls hhello h
  cases hall : Serializer.advance (r.messages ++ [entry name]) [] with
  | error ex =>
    refine ⟨_, ?_, ?_, Or.inl (join_throws i hall)⟩
    · exact hgreeted
    · rfl
  | ok written =>
    have htext : written.1 = frame (r.messages ++ [entry name]) := by
      rw [Serializer.advance] at hall
      split_ifs at hall with hlong
      have hwritten := Serializer.advance_eq [] (Nat.lt_of_not_le hlong)
      rw [Serializer.advance, if_neg hlong, hall, List.nil_append] at hwritten
      cases hwritten
      rfl
    refine ⟨_, ?_, ?_, Or.inr (join_eq i hall)⟩
    · rw [insert_sessions, htext]
      exact hP.broadcast (hframe _) _ (hP.calls (hframe _) hgreeted)
    · rw [insert_timers, broadcast_timers]
      rfl

theorem receive (hP : Stable A P) {input : Bytes}
    (hinput : (Parser.advance overflow input .success).valid = true → A (.append input))
    (h : P r.sessions) : ∃ u : Room, P u.sessions ∧ u.timers = r.timers ∧
      (r.receive overflow i input = u.throw ∨
        r.receive overflow i input = u.launchTimer i .sendPing) := by
  rcases receive_cases overflow i input r with hvalid | ⟨_, heq | heq⟩
  · refine ⟨_, ?_, ?_, Or.inr (receive_eq i hvalid)⟩
    · exact hP.broadcast (hinput hvalid) _ (hP.calls (hinput hvalid) h)
    · rw [broadcast_timers]
      rfl
  · exact ⟨r, h, rfl, Or.inl heq⟩
  · exact ⟨_, hP.calls hP.read h, rfl, Or.inr heq⟩

theorem onMessage (hP : Stable A P) (overflow : ℤ → ℤ) (i : ℕ) (input : Bytes)
    (hA : ∀ b, Appends overflow i r (some (.message input)) b → A (.append b))
    (h : P r.sessions) : ∃ u : Room, P u.sessions ∧ u.timers = r.timers ∧
      (r.onMessage overflow i input = u.throw ∨
        r.onMessage overflow i input = u.launchTimer i .sendPing) := by
  rw [Room.onMessage]
  split_ifs with htake
  · exact hP.join (hA _ (.hello htake)) (fun messages => hA _ (.frame messages)) h
  · exact hP.receive (fun hvalid => hA _ (.input hvalid)) h

theorem onClose (hP : Stable A P) (hframe : ∀ messages, A (.append (frame messages)))
    (h : P r.sessions) : P (r.onClose i).sessions := by
  rcases onClose_cases i r with ⟨_, heq | heq⟩ | ⟨nickname, _, heq⟩
  · rw [heq]
    exact h
  · rw [heq]
    exact h
  · rw [heq]
    exact hP.broadcast (hframe _) _ h

theorem onTimer (hP : Stable A P) (hlaunch : A (.launchTimerWith true)) (hping : A (.doPing []))
    (hclose : A (.doClose .normal)) (h : P r.sessions) : P (r.onTimer i).sessions := by
  rw [Room.onTimer]
  split
  · exact hP.launchTimer hlaunch _ (hP.calls hping h)
  · exact hP.calls hclose h

/-- What the calls of a callback and its return keep, the callback keeps. -/
theorem react (hP : Stable A P) {c : Option Callback} (hlaunch : A (.launchTimerWith true))
    (hping : A (.doPing [])) (hclose : A (.doClose .normal))
    (hA : ∀ b, Appends overflow i r c b → A (.append b)) (h : P r.sessions) :
    P (r.react overflow i c).sessions := by
  cases c with
  | none => exact h
  | some c =>
    cases c with
    | accept => exact hP.returns (hP.calls (hA _ .question) h)
    | message input =>
      have hmessage : P (r.onMessage overflow i input).sessions := by
        obtain ⟨u, hu, _, heq | heq⟩ := hP.onMessage overflow i input hA h
        · rw [heq]
          exact hu
        · rw [heq]
          exact hP.launchTimer hlaunch _ hu
      simp only [Room.react]
      split_ifs
      · exact hmessage
      · exact hP.returns hmessage
    | pong payload => exact hP.launchTimer hlaunch _ h
    | close payload => exact hP.onClose (fun messages => hA _ (.farewell messages)) h
    | timer => exact hP.onTimer hlaunch hping hclose h
    | _ => exact h

end Stable

/-! ## What is handed over -/

theorem stable_posts (r : Room) :
    Stable (fun c => c ≠ .doAccept) fun s => ∀ k, Server.Posts (r.sessions k) (s k) := by
  apply Stable.each
  · simp
  · simp
  · intro k s c _ hs
    exact hs.trans (Server.Posts.call callbacks s c)
  · intro k s u hu hs
    exact hs.trans (Server.Posts.resume hu)

/-- What session `k` hands over is what its outbox carries, unless a write fails or one of several
finishes. -/
theorem step_posts {e : Event} (hsingle : (r.mail k).flight.length ≤ 1) (hopen : StaysOpen k e)
    (h : (system overflow readMessageMax).step r e = some t) :
    Server.Posts (r.sessions k) (t.sessions k) := by
  cases e with
  | upgrade =>
    cases step_upgrade h
    by_cases hk : k = r.created
    · rw [← hk, call_self]
      exact Server.Posts.call callbacks _ _
    · rw [call_other hk]
      exact Server.Posts.refl _
  | disconnect i =>
    cases step_disconnect h
    exact Server.Posts.refl _
  | session i e =>
    obtain ⟨_, s, hs, rfl⟩ := step_session h
    have hreact := (stable_posts { r with sessions := Function.update r.sessions i s }).react
      (by simp) (by simp) (by simp)
      (fun b (_ : Appends overflow i _ ((r.sessions i).callback callbacks e) b) => by simp)
      (fun k => Server.Posts.refl _) k
    refine Server.Posts.trans ?_ hreact
    by_cases hk : k = i
    · subst hk
      simp only [Function.update_self]
      apply Server.step_posts hs
      rintro j ec rfl
      exact ⟨hopen rfl, hsingle⟩
    · simp only [Function.update_of_ne hk]
      exact Server.Posts.refl _

end Chat.Room

/-! ## Accepting once -/

namespace Server
variable {cb : Callbacks} {s t : Server} {e : Event}

/-- One accept at most is outstanding, and none once one has succeeded. -/
def Accepts (s : Server) : Prop := s.stream.handshakes + s.accepted.toNat ≤ 1

theorem Accepts.step (hs : s.Accepts) (hcall : e ≠ .call .doAccept)
    (h : (system cb).step s e = some t) : t.Accepts := by
  by_cases hdone : ∀ ec, e ≠ .acceptDone ec
  · rw [Accepts, step_handshakes hcall hdone h, step_accepted h, opens_eq_false hdone,
      Bool.or_false]
    exact hs
  · push Not at hdone
    obtain ⟨ec, rfl⟩ := hdone
    have haccepted := step_accepted h
    obtain ⟨⟨_, hpos⟩, rfl⟩ := Session.handled_eq_some.mp h
    have hhandshakes : (({ s with toSession := s.toSession } : Server).io
        (Session.handshakeDone ec)).stream.handshakes = s.stream.handshakes - 1 := rfl
    have hbefore : s.stream.handshakes + s.accepted.toNat ≤ 1 := hs
    have hfresh : s.accepted = false := by
      cases hs : s.accepted with
      | false => rfl
      | true =>
        rw [hs, Bool.toNat_true] at hbefore
        omega
    rw [Accepts, onAccept_handshakes, hhandshakes, haccepted]
    have hle := Bool.toNat_le (s.accepted || (Event.acceptDone ec).opens)
    rw [hfresh, Bool.toNat_false] at hbefore
    omega

/-- A session that is accepting has not accepted before. -/
theorem Accepts.fresh (hs : s.Accepts) (h : s.callback cb e = some .accept)
    (hstep : (system cb).step s e = some t) : s.accepted = false := by
  rw [callback_accept h] at hstep
  obtain ⟨⟨_, hpos⟩, _⟩ := Session.handled_eq_some.mp hstep
  have hle : s.stream.handshakes + s.accepted.toNat ≤ 1 := hs
  cases hacc : s.accepted with
  | false => rfl
  | true =>
    rw [hacc, Bool.toNat_true] at hle
    omega

end Server

namespace Chat.Room
variable {overflow : ℤ → ℤ} {readMessageMax : ℕ} {k i : ℕ} {r t : Room}

theorem stable_accepts : Stable (fun c => c ≠ .doAccept) fun s => ∀ k, (s k).Accepts := by
  apply Stable.each
  · simp
  · simp
  · intro k s c hc hs
    have hstep : (Server.system callbacks).step s (.call c) = some (s.call callbacks c) := rfl
    exact hs.step (by simpa using hc) hstep
  · intro k s u hu hs
    have hstep : (Server.system callbacks).step s .resume = some u := hu
    exact hs.step (by simp) hstep

theorem member_of_told {c : Option Callback} {text : Bytes} (hk : k ≠ i)
    (h : r.told overflow k i c = some text) : k ∈ r.members := by
  cases c with
  | none => cases h
  | some c =>
    cases c with
    | message input =>
      rw [told] at h
      split_ifs at h
      · rw [toldName] at h
        split at h
        · cases h
        · exact (Option.ite_none_right_eq_some.mp h).1
      · obtain ⟨⟨_, hself | hother⟩, _⟩ := Option.ite_none_right_eq_some.mp h
        · exact absurd hself hk
        · exact (List.mem_filter.mp hother).1
    | close payload =>
      obtain ⟨⟨_, hother⟩, _⟩ := Option.ite_none_right_eq_some.mp h
      exact (List.mem_filter.mp hother).1
    | _ => cases h

/-- While the server runs, the sessions that have not been created are as new, and each session
accepts once. -/
structure Fresh (r : Room) : Prop where
  new : r.thrown = false → ∀ k, r.created ≤ k → r.sessions k = {} ∧ k ∉ r.members
  accepts : ∀ k, (r.sessions k).Accepts

theorem fresh_initial : Fresh {} where
  new := fun _ _ _ => ⟨rfl, by simp [members]⟩
  accepts := fun _ => Nat.zero_le 1

/-- A session that has not been created is not told anything. -/
theorem Fresh.stranger {e : Server.Event} (hsound : r.Sound) (hr : r.Fresh) (hk : r.created ≤ k)
    (h : (system overflow readMessageMax).step r (.session i e) = some t) :
    t.sessions k = {} ∧ k ∉ t.members := by
  obtain ⟨hnew, hmem⟩ := hr.new (running_of_step h) k hk
  have hi : i < r.created := by
    obtain ⟨_, h⟩ := Option.ite_none_left_eq_some.mp h
    exact (Option.ite_none_right_eq_some.mp h).1.1
  have hne : k ≠ i := by omega
  constructor
  · rw [step_other hsound hne h]
    cases htold : r.told overflow k i ((r.sessions i).callback callbacks e) with
    | none => exact hnew
    | some text => exact absurd (member_of_told hne htold) hmem
  · rcases step_members h with hsame | ⟨j, e', _, heq, _, _, _, hadded⟩
    · rw [hsame]
      exact hmem
    · cases heq
      rw [hadded]
      simp [hmem, hne]

theorem Fresh.step (hsound : r.Sound) (hr : r.Fresh) {e : Event}
    (h : (system overflow readMessageMax).step r e = some t) : t.Fresh := by
  cases e with
  | upgrade =>
    have hrunning := running_of_step h
    cases step_upgrade h
    constructor
    · intro _ k hk
      have hlt : r.created < k := hk
      obtain ⟨hnew, hmem⟩ := hr.new hrunning k (by omega)
      rw [call_other (by omega)]
      exact ⟨hnew, hmem⟩
    · intro k
      by_cases hk : k = r.created
      · subst hk
        rw [call_self]
        simp only [(hr.new hrunning r.created (Nat.le_refl _)).1]
        exact Nat.le_refl 1
      · rw [call_other hk]
        exact hr.accepts k
  | disconnect i =>
    cases step_disconnect h
    exact ⟨hr.new, hr.accepts⟩
  | session i e =>
    constructor
    · intro ht k hk
      have hcreated : t.created = r.created :=
        (congrArg created (step_shared ht h)).trans (enrol_created _ _)
      exact hr.stranger hsound (hcreated ▸ hk) h
    · obtain ⟨hext, s, hs, rfl⟩ := step_session h
      apply stable_accepts.react (by simp) (by simp) (by simp) (fun b _ => by simp)
      intro k
      by_cases hk : k = i
      · subst hk
        simp only [Function.update_self]
        apply (hr.accepts k).step _ hs
        rintro rfl
        exact hext
      · simp only [Function.update_of_ne hk]
        exact hr.accepts k

end Chat.Room
end BeastWebsocket
