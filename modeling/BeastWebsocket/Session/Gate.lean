import BeastWebsocket.Session.Effect

/-! # The guard `accepted` of the server session

The flag is set by an accept that succeeds, and by nothing else. While it is not set, no
read and no write is outstanding and no callback is running.
-/
namespace BeastWebsocket.Server

variable {cb : Callbacks} {s t : Server}

/-! ## Who sets the flag -/

theorem doAccept_accepted : (s.doAccept cb).accepted = s.accepted := by
  rw [doAccept]
  split_ifs <;> rfl

theorem operate_accepted (f : Session Unit → Session Unit) :
    (s.operate f).accepted = s.accepted := by
  rw [operate]
  split_ifs <;> rfl

theorem doRead_accepted : s.doRead.accepted = s.accepted := by
  rw [doRead]
  split_ifs <;> rfl

theorem doWrite_accepted : s.doWrite.accepted = s.accepted := by
  rw [doWrite]
  split_ifs <;> rfl

theorem readOn_accepted : s.readOn.accepted = s.accepted := by
  rw [readOn]
  split_ifs
  · exact doRead_accepted
  · rfl

theorem writeOrRead_accepted : s.writeOrRead.accepted = s.accepted := by
  rw [writeOrRead]
  split_ifs
  · exact doWrite_accepted
  · exact readOn_accepted

theorem onTimer_accepted (ec : ErrorCode) : (s.onTimer ec).accepted = s.accepted := by
  rw [onTimer, timeoutAction]
  split_ifs <;> rfl

theorem onRead_accepted (ec : ErrorCode) : (s.onRead cb ec).accepted = s.accepted := by
  rw [onRead]
  split_ifs <;> rfl

theorem onWrite_accepted (ec : ErrorCode) : (s.onWrite ec).accepted = s.accepted := by
  rw [onWrite]
  split_ifs
  · rfl
  · rfl
  · exact readOn_accepted

theorem onAccept_accepted (ec : ErrorCode) :
    (s.onAccept cb ec).accepted = (s.accepted || !ec.failed) := by
  rw [onAccept]
  cases ec <;> simp [io, ErrorCode.failed]

theorem resume_accepted (h : s.resume = some t) : t.accepted = s.accepted := by
  cases hf : s.frame with
  | idle => simp [resume, hf] at h
  | opening =>
    simp only [resume, hf, Option.some.injEq] at h
    subst h
    exact writeOrRead_accepted
  | reading =>
    simp only [resume, hf, Option.some.injEq] at h
    subst h
    exact writeOrRead_accepted

theorem call_accepted (c : Call) : (s.call cb c).accepted = s.accepted := by
  cases c with
  | doAccept => exact doAccept_accepted
  | doPing payload => exact operate_accepted _
  | doPong payload => exact operate_accepted _
  | doClose reason => exact operate_accepted _
  | doRead => exact doRead_accepted
  | doWrite => exact doWrite_accepted
  | _ => rfl

theorem step_accepted {e : Event} (ht : (system cb).step s e = some t) :
    t.accepted = (s.accepted || e.opens) := by
  cases e with
  | call c =>
    cases ht
    simpa [Event.opens] using call_accepted c
  | acceptDone ec =>
    obtain ⟨_, rfl⟩ := Session.handled_eq_some.mp ht
    exact onAccept_accepted ec
  | resume => simpa [Event.opens] using resume_accepted ht
  | readDone ec chunk text =>
    obtain ⟨_, rfl⟩ := Session.handled_eq_some.mp ht
    simpa [Event.opens] using onRead_accepted (s := s.io (Session.readDone ec chunk text)) ec
  | writeDone i ec =>
    obtain ⟨w, _, ht⟩ := Option.bind_eq_some_iff.mp ht
    obtain ⟨_, rfl⟩ := Session.handled_eq_some.mp ht
    simpa [Event.opens] using onWrite_accepted (s := s.io (Session.writeDone i w ec)) ec
  | waitDone i ec =>
    obtain ⟨w, _, ht⟩ := Option.bind_eq_some_iff.mp ht
    obtain ⟨_, rfl⟩ := Session.handled_eq_some.mp ht
    simp [Event.opens, onTimer_accepted, io]
  | pingDone ec | pongDone ec | closeDone ec | control kind payload =>
    obtain ⟨_, rfl⟩ := Session.handled_eq_some.mp ht
    exact (Bool.or_false _).symm
  | tick d =>
    cases ht
    exact (Bool.or_false _).symm
  | expire =>
    obtain ⟨_, ht⟩ := Option.ite_none_right_eq_some.mp ht
    cases ht
    exact (Bool.or_false _).symm

/-- The flag tells whether an accept has succeeded. -/
theorem step_opened {e : Event} (hs : s.accepted = opened s.log)
    (ht : (system cb).step s e = some t) : t.accepted = opened t.log := by
  obtain ⟨new, hlog, _, hnew⟩ := (step_performs ht).record
  rw [step_accepted ht, hs, hlog, ← hnew]
  exact (occurs_append Obs.isOpening s.log new).symm

/-! ## Before the flag is set -/

/-- No callback is running, and no read and no write is outstanding. -/
structure Closed (s : Server) : Prop where
  frame : s.frame = .idle
  reads : s.stream.reads = 0
  writes : s.stream.writes = []

/-- A server session is closed until it has accepted. -/
def Gated (s : Server) : Prop := s.accepted = false → s.Closed

theorem Closed.of_same (hs : s.Closed) (hframe : t.frame = s.frame)
    (hreads : t.stream.reads = s.stream.reads) (hwrites : t.stream.writes = s.stream.writes) :
    t.Closed := by
  constructor
  · rw [hframe, hs.frame]
  · rw [hreads, hs.reads]
  · rw [hwrites, hs.writes]

theorem Closed.call (hs : s.Closed) (h : s.accepted = false) (c : Call) :
    (s.call cb c).Closed := by
  cases c with
  | doAccept =>
    apply hs.of_same <;> simp [Server.call, doAccept, h, io] <;> rfl
  | doPing payload => simpa [Server.call, doPing, operate, h] using hs
  | doPong payload => simpa [Server.call, doPong, operate, h] using hs
  | doClose reason => simpa [Server.call, doClose, operate, h] using hs
  | doRead => simpa [Server.call, doRead, h] using hs
  | doWrite => simpa [Server.call, doWrite, h] using hs
  | _ => exact hs.of_same rfl rfl rfl

theorem Closed.onTimer (hs : s.Closed) (ec : ErrorCode) : (s.onTimer ec).Closed := by
  rw [Server.onTimer, timeoutAction]
  split_ifs <;> exact hs.of_same rfl rfl rfl

theorem Closed.report (hs : s.Closed) (what : String) (ec : ErrorCode) :
    (s.io (Session.report what ec)).Closed := by
  simp only [io, Session.report]
  split_ifs <;> exact hs.of_same rfl rfl rfl

theorem Closed.controlFrame (hs : s.Closed) (kind : FrameType) (payload : Bytes) :
    (s.io (Session.controlFrame cb kind payload)).Closed := by
  simp only [io, Session.controlFrame, Session.onControlCallback]
  split_ifs <;> exact hs.of_same rfl rfl rfl

theorem Closed.onAccept (hs : s.Closed) {ec : ErrorCode} (h : ec.failed = true) :
    (s.onAccept cb ec).Closed := by
  rw [Server.onAccept]
  rw [if_pos h]
  split_ifs <;> exact hs.of_same rfl rfl rfl

theorem Gated.step {e : Event} (hs : s.Gated) (ht : (system cb).step s e = some t) :
    t.Gated := by
  intro h
  rw [step_accepted ht, Bool.or_eq_false_iff] at h
  obtain ⟨hacc, hopens⟩ := h
  have hc : s.Closed := hs hacc
  cases e with
  | call c =>
    cases ht
    exact hc.call hacc c
  | acceptDone ec =>
    obtain ⟨_, rfl⟩ := Session.handled_eq_some.mp ht
    have hdone : (s.io (Session.handshakeDone ec)).Closed := hc.of_same rfl rfl rfl
    exact hdone.onAccept (by simpa [Event.opens] using hopens)
  | readDone ec chunk text =>
    obtain ⟨⟨_, hpos⟩, _⟩ := Session.handled_eq_some.mp ht
    simp [hc.reads] at hpos
  | writeDone i ec =>
    obtain ⟨w, hw, _⟩ := Option.bind_eq_some_iff.mp ht
    simp [hc.writes] at hw
  | pingDone ec =>
    obtain ⟨_, rfl⟩ := Session.handled_eq_some.mp ht
    have hdone : (s.io (Session.pingDone ec)).Closed := hc.of_same rfl rfl rfl
    exact hdone.report "ping" ec
  | pongDone ec =>
    obtain ⟨_, rfl⟩ := Session.handled_eq_some.mp ht
    have hdone : (s.io (Session.pongDone ec)).Closed := hc.of_same rfl rfl rfl
    exact hdone.report "pong" ec
  | closeDone ec =>
    obtain ⟨_, rfl⟩ := Session.handled_eq_some.mp ht
    have hdone : (s.io (Session.closeDone ec)).Closed := hc.of_same rfl rfl rfl
    exact hdone.report "close" ec
  | waitDone i ec =>
    obtain ⟨w, _, ht⟩ := Option.bind_eq_some_iff.mp ht
    obtain ⟨_, rfl⟩ := Session.handled_eq_some.mp ht
    apply Closed.onTimer
    exact hc.of_same rfl rfl rfl
  | control kind payload =>
    obtain ⟨_, rfl⟩ := Session.handled_eq_some.mp ht
    exact hc.controlFrame kind payload
  | resume => simp [system, Server.step, Server.resume, hc.frame] at ht
  | tick d =>
    cases ht
    exact hc.of_same rfl rfl rfl
  | expire =>
    obtain ⟨_, ht⟩ := Option.ite_none_right_eq_some.mp ht
    cases ht
    exact hc.of_same rfl rfl rfl

theorem Gated.accepted_of_write {i : ℕ} {w : Write Unit} (hs : s.Gated)
    (hw : s.stream.writes[i]? = some w) : s.accepted = true := by
  by_contra hacc
  have hc := hs (by simpa using hacc)
  simp [hc.writes] at hw

theorem Gated.accepted_of_resume (hs : s.Gated) (h : s.resume = some t) : s.accepted = true := by
  by_contra hacc
  have hc := hs (by simpa using hacc)
  simp [Server.resume, hc.frame] at h

theorem gated_run {es : List Event} (h : (system cb).run {} es = some s) : s.Gated :=
  Transition.System.run_inductive (fun _ _ _ hs ht => hs.step ht) (fun _ => ⟨rfl, rfl, rfl⟩) h

end BeastWebsocket.Server
