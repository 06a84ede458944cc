import BeastWebsocket.Chat.Members
import BeastWebsocket.Session.Posting

/-! # The output of a session of the chat server

What the callback of a session puts into the output of its own session goes out as one frame when
the callback returns, if the output was quiet.
-/
namespace BeastWebsocket.Chat.Room
open Channel Transition

variable {overflow : ℤ → ℤ} {k : ℕ} {r u : Room} {e : Server.Event} {s : Server}

/-- The frames of session `k`. -/
def mail (k : ℕ) (r : Room) : Outbox Byte := (r.sessions k).outbox

theorem resume_self (k : ℕ) (u : Room) :
    (u.resume k).sessions k = (u.sessions k).resume.getD (u.sessions k) :=
  Function.update_self k _ _

/-- What the callback has put into the output of its session goes out. -/
theorem posts_own {b : Bytes} (hfed : Server.Fed b s (u.sessions k)) (hquiet : s.outbox.Quiet)
    (hframe : s.frame ≠ .idle) (hacc : s.accepted = true) (hb : b ≠ []) :
    ((u.resume k).mail k).Orderly ∧
      ((u.resume k).mail k).carried = s.outbox.carried ++ [b] := by
  obtain ⟨v, hv, hpost⟩ := hfed.post hquiet hframe hacc hb
  have hsession : (u.resume k).sessions k = v := by
    rw [resume_self, hv]
    rfl
  rw [mail, hsession]
  exact hpost

theorem rests_own (hfed : Server.Fed [] s (u.sessions k)) (hquiet : s.outbox.Quiet)
    (hframe : s.frame ≠ .idle) :
    ((u.resume k).mail k).Orderly ∧ ((u.resume k).mail k).carried = s.outbox.carried := by
  obtain ⟨v, hv⟩ := Server.resume_isSome (hfed.frame.symm ▸ hframe)
  have hsession : (u.resume k).sessions k = v := by
    rw [resume_self, hv]
    rfl
  obtain ⟨hrest, hcarried⟩ := hfed.rest hquiet hv
  rw [mail, hsession]
  exact ⟨hrest.orderly, hcarried⟩

/-- While `on_message` runs, nothing has been done to the output yet. -/
theorem Sound.arrived {input : Bytes} (hr : r.Sound)
    (hs : (Server.system callbacks).step (r.sessions k) e = some s)
    (hcall : (r.sessions k).callback callbacks e = some (.message input)) :
    s.outbox = r.mail k ∧ s.frame ≠ .idle ∧ s.accepted = true := by
  have hframe := Server.frame_of_message hs hcall
  refine ⟨Server.outbox_of_callback hs (by simp [hcall]), by simp [hframe], ?_⟩
  rw [Server.step_accepted hs, hr.accepted_of_message hs hcall, Bool.true_or]

/-! ## What the callbacks put out -/

theorem onAccept_fed (k : ℕ) (u : Room) :
    Server.Fed (bytes "What is your name?") (u.sessions k) ((u.onAccept k).sessions k) := by
  have hself : (u.onAccept k).sessions k =
      (u.sessions k).call callbacks (.append (bytes "What is your name?")) := call_self k _ _
  rw [hself]
  exact Server.call_fed callbacks (u.sessions k) (c := .append (bytes "What is your name?"))
    (by simp)

theorem launchTimer_fed (f : OnTimer) (u : Room) :
    Server.Fed [] (u.sessions k) ((u.launchTimer k f).sessions k) := by
  have hself : (u.launchTimer k f).sessions k =
      (u.sessions k).call callbacks (.launchTimerWith true) := call_self k _ _
  rw [hself]
  exact Server.call_fed callbacks _ (c := .launchTimerWith true) (by simp)

theorem onTimer_filled (k : ℕ) (u : Room) :
    Outbox.Filled [] (u.mail k) ((u.onTimer k).mail k) := by
  rw [onTimer]
  split
  · have hping := Server.call_fed callbacks (u.sessions k) (c := .doPing []) (by simp)
    have htimer := launchTimer_fed (k := k) .closeConnection (u.call k (.doPing []))
    rw [call_self] at htimer
    exact (hping.trans htimer).filled
  · have hclose := Server.call_fed callbacks (u.sessions k) (c := .doClose .normal) (by simp)
    rw [mail, mail, call_self]
    exact hclose.filled

theorem receive_fed {input : Bytes} (h : (Parser.advance overflow input .success).valid = true)
    (hnodup : u.members.Nodup) :
    Server.Fed input (u.sessions k) ((u.receive overflow k input).sessions k) := by
  rw [receive_eq k h]
  have hfed := launchTimer_fed (k := k) .sendPing
    (((u.store (Parser.advance overflow input .success).messages).call k
      (.append input)).broadcast input (u.others k))
  have happend := Server.call_fed callbacks (u.sessions k) (c := .append input) (by simp)
  have hcast : (((u.store (Parser.advance overflow input .success).messages).call k
      (.append input)).broadcast input (u.others k)).sessions k =
        (u.sessions k).call callbacks (.append input) := by
    rw [broadcast_sessions _ (others_nodup hnodup k), if_neg (self_notMem_others k u), call_self]
    rfl
  rw [hcast] at hfed
  have hall := happend.trans hfed
  rwa [List.append_nil] at hall

theorem receive_thrown {input : Bytes}
    (h : (Parser.advance overflow input .success).valid = true) :
    (u.receive overflow k input).thrown = u.thrown := by
  rw [receive_eq k h]
  have hshared := congrArg thrown (broadcast_shared input (u.others k)
    ((u.store (Parser.advance overflow input .success).messages).call k (.append input)))
  exact hshared

theorem accepted_ne_nil {input : Bytes}
    (h : (Parser.advance overflow input .success).valid = true) : input ≠ [] := by
  rintro rfl
  cases h

section Join
variable {name : Bytes} {written : Bytes × ℕ}

theorem join_fed (h : Serializer.advance (u.messages ++ [entry name]) [] = .ok written)
    (hnodup : u.members.Nodup) (hk : k ∉ u.members) :
    Server.Fed (bytes "Hello " ++ name ++ written.1) (u.sessions k)
      ((u.join k name).sessions k) := by
  rw [join_eq k h]
  set greeted := ((u.call k (.append (bytes "Hello " ++ name))).store [entry name]).call k
    (.append written.1) with hgreeted
  have hname := Server.call_fed callbacks (u.sessions k)
    (c := .append (bytes "Hello " ++ name)) (by simp)
  have htext := Server.call_fed callbacks
    ((u.sessions k).call callbacks (.append (bytes "Hello " ++ name))) (c := .append written.1)
    (by simp)
  have hsession : ((greeted.broadcast (frame [entry name]) u.members).insert k name).sessions k =
      ((u.sessions k).call callbacks (.append (bytes "Hello " ++ name))).call callbacks
        (.append written.1) := by
    rw [insert_sessions, broadcast_sessions _ hnodup, if_neg hk, hgreeted, call_self]
    exact congrArg (fun s : Server => s.call callbacks (.append written.1)) (call_self k _ u)
  have htimer := launchTimer_fed (k := k) .sendPing
    ((greeted.broadcast (frame [entry name]) u.members).insert k name)
  rw [hsession] at htimer
  have hall := (hname.trans htext).trans htimer
  rwa [List.append_nil] at hall

theorem join_thrown (h : Serializer.advance (u.messages ++ [entry name]) [] = .ok written) :
    (u.join k name).thrown = u.thrown := by
  rw [join_eq k h]
  set greeted := ((u.call k (.append (bytes "Hello " ++ name))).store [entry name]).call k
    (.append written.1)
  have hcast := congrArg thrown (broadcast_shared (frame [entry name]) u.members greeted)
  have hinsert : ((greeted.broadcast (frame [entry name]) u.members).insert k name).thrown =
      (greeted.broadcast (frame [entry name]) u.members).thrown := by
    rw [insert]
    split_ifs <;> rfl
  exact hinsert.trans hcast

end Join

end BeastWebsocket.Chat.Room
