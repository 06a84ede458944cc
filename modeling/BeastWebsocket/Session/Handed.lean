import BeastWebsocket.Session.Effect
import BeastWebsocket.Session.ServerChannels
import BeastWebsocket.Session.ClientChannels

/-! # What a session hands over

A write is handed the output buffer. While writes succeed one by one, what has been handed over is
what has been sent and what is in flight.
-/
namespace BeastWebsocket
open Channel Transition

/-- The payload of a write. -/
def Op.payload? : Op → Option Bytes
  | .write payload _ => some payload
  | _ => none

theorem handedPayloads_eq (log : List Obs) :
    handedPayloads log = (startedOps log).filterMap Op.payload? := by
  rw [startedOps, project, List.filterMap_filterMap]
  apply List.filterMap_congr
  intro o _
  cases o with
  | started op => cases op <;> rfl
  | _ => rfl

namespace Server
variable {cb : Callbacks} {s t u : Server} {e : Event}

theorem writeStarts_payloads (text : Bool) :
    (s.writeStarts text).filterMap Op.payload? =
      s.outbox.hands (if s.accepted then some .start else none) := by
  rw [writeStarts]
  split_ifs <;> rfl

theorem readStarts_payloads : s.readStarts.filterMap Op.payload? = [] := by
  rw [readStarts]
  split_ifs <;> rfl

/-- The writes that an event starts are those of the outbox. -/
theorem starts_payloads (cb : Callbacks) (s : Server) (e : Event) :
    (s.starts cb e).filterMap Op.payload? = s.outbox.hands (s.outboxOp e) := by
  cases e with
  | call c =>
    cases c with
    | doAccept | doPing payload | doPong payload | doClose reason =>
      rw [starts]
      split_ifs <;> rfl
    | doRead => exact readStarts_payloads
    | doWrite => exact writeStarts_payloads _
    | _ => rfl
  | writeDone i ec =>
    rw [starts, outboxOp]
    split_ifs
    all_goals first | rfl | exact readStarts_payloads
  | waitDone i ec =>
    rw [starts, timerStarts]
    split_ifs <;> rfl
  | resume =>
    rw [starts, flushStarts, outboxOp]
    by_cases hpos : 0 < s.outputBuffer.length
    · rw [if_pos hpos, decide_eq_true hpos, Bool.and_true]
      exact writeStarts_payloads s.outgoingText
    · rw [if_neg hpos, decide_eq_false hpos, Bool.and_false]
      exact readStarts_payloads
  | _ => rfl

theorem step_handed (h : (system cb).step s e = some t) :
    handedPayloads t.log = handedPayloads s.log ++ s.outbox.hands (s.outboxOp e) := by
  obtain ⟨new, hlog, hstarts, _⟩ := (step_performs h).record
  have hnew : handedPayloads new = s.outbox.hands (s.outboxOp e) := by
    rw [handedPayloads_eq, hstarts, starts_payloads]
  rw [hlog, ← hnew]
  exact project_append _ _ _

/-- From `s` to `t` what has been handed over and what is carried grow alike. -/
def Posts (s t : Server) : Prop :=
  ∃ new, handedPayloads t.log = handedPayloads s.log ++ new ∧
    t.outbox.carried = s.outbox.carried ++ new

theorem Posts.refl (s : Server) : Posts s s :=
  ⟨[], (List.append_nil _).symm, (List.append_nil _).symm⟩

theorem Posts.trans (h : Posts s t) (h' : Posts t u) : Posts s u := by
  obtain ⟨new, hhanded, hcarried⟩ := h
  obtain ⟨new', hhanded', hcarried'⟩ := h'
  refine ⟨new ++ new', ?_, ?_⟩
  · rw [hhanded', hhanded, List.append_assoc]
  · rw [hcarried', hcarried, List.append_assoc]

/-- Unless a write fails, or one of several finishes. -/
theorem step_posts (h : (system cb).step s e = some t)
    (hwrite : ∀ i ec, e = .writeDone i ec → ec = .success ∧ s.outbox.flight.length ≤ 1) :
    Posts s t := by
  have hop : (Outbox.system Byte).perform s.outbox (s.outboxOp e) = some t.outbox :=
    refines_outbox s e t h
  refine ⟨_, step_handed h, ?_⟩
  cases e with
  | writeDone i ec =>
    obtain ⟨rfl, hsingle⟩ := hwrite i ec rfl
    rw [Outbox.finish_carried hsingle hop]
    exact (List.append_nil _).symm
  | call c =>
    apply Outbox.perform_carried _ _ hop
    all_goals cases c <;> simp [outboxOp]
  | resume =>
    apply Outbox.perform_carried _ _ hop
    all_goals simp [outboxOp]
  | _ =>
    apply Outbox.perform_carried _ _ hop
    all_goals simp [outboxOp]

theorem Posts.call (cb : Callbacks) (s : Server) (c : Call) : Posts s (s.call cb c) := by
  have hstep : (system cb).step s (.call c) = some (s.call cb c) := rfl
  exact step_posts hstep (by simp)

theorem Posts.resume (h : s.resume = some t) : Posts s t := by
  have hstep : (system {}).step s .resume = some t := h
  exact step_posts hstep (by simp)

end Server

/-! ## The client session -/

namespace Session
variable {κ : Type} (x : Session κ)

theorem emit_handed {o : Obs} (h : o.handed? = none) :
    handedPayloads (x.emit o).log = handedPayloads x.log := project_snoc_none h

theorem readDone_handed (ec : ErrorCode) (chunk : Bytes) (text : Bool) :
    handedPayloads (x.readDone ec chunk text).log = handedPayloads x.log := by
  rw [readDone]
  split_ifs <;> simp [emit]

theorem deliver_handed (cb : Callbacks) :
    handedPayloads (x.deliver cb).log = handedPayloads x.log := by
  rw [deliver, invoke]
  split_ifs <;> simp [emit]

theorem enterOpening_handed (cb : Callbacks) (c : Callback) :
    handedPayloads (x.enterOpening cb c).log = handedPayloads x.log := by
  rw [enterOpening, invoke]
  split_ifs <;> simp [emit]

theorem report_handed (what : String) (ec : ErrorCode) :
    handedPayloads (x.report what ec).log = handedPayloads x.log := by
  rw [report]
  split_ifs <;> simp [fail, emit]

theorem controlFrame_handed (cb : Callbacks) (kind : FrameType) (payload : Bytes) :
    handedPayloads (x.controlFrame cb kind payload).log = handedPayloads x.log := by
  simp only [controlFrame, onControlCallback]
  split_ifs <;> simp [emit]

theorem matchFrame_handed : handedPayloads x.matchFrame.log = handedPayloads x.log := by
  rw [matchFrame]
  split_ifs <;> rfl

end Session

namespace Client
variable {cb : Callbacks} {s t : Client} {e : Event}

theorem operate_handed {f : Session Bool → Session Bool}
    (h : handedPayloads (f s.toSession).log = handedPayloads s.log) :
    handedPayloads (s.operate f).log = handedPayloads s.log := by
  rw [operate]
  split_ifs
  · rfl
  · exact h

theorem doRead_handed : handedPayloads s.doRead.log = handedPayloads s.log := by
  rw [doRead]
  split_ifs
  · rfl
  · exact Session.emit_handed _ rfl

theorem readOn_handed (nextRead : Bool) :
    handedPayloads (s.readOn nextRead).log = handedPayloads s.log := by
  rw [readOn]
  split_ifs
  · exact doRead_handed
  · rfl

theorem doWrite_handed (nextRead : Bool) :
    handedPayloads (s.doWrite nextRead).log =
      handedPayloads s.log ++ s.outbox.hands (if s.handshaked then some .start else none) := by
  rw [doWrite]
  cases s.handshaked with
  | false => exact (List.append_nil _).symm
  | true => exact project_append _ s.log [_]

theorem writeOut_handed :
    handedPayloads s.writeOut.log = handedPayloads s.log ++
      s.outbox.hands (if s.handshaked && 0 < s.outputBuffer.length then some .start else none) := by
  rw [writeOut]
  by_cases hpos : 0 < s.outputBuffer.length
  · rw [if_pos hpos, decide_eq_true hpos, Bool.and_true]
    exact doWrite_handed _
  · rw [if_neg hpos, decide_eq_false hpos, Bool.and_false]
    exact (List.append_nil _).symm

theorem resume_handed (h : s.resume = some t) :
    handedPayloads t.log = handedPayloads s.log ++ s.outbox.hands (s.outboxOp .resume) := by
  cases hf : s.frame with
  | idle => simp [resume, hf] at h
  | opening =>
    simp only [resume, hf, Option.some.injEq] at h
    subst h
    exact writeOut_handed (s := { s.io Session.leave with resUpgrade := [] })
  | reading =>
    simp only [resume, hf, Option.some.injEq] at h
    subst h
    have hrest := writeOut_handed
      (s := ((s.io Session.leave).io Session.consumeInput).io Session.matchFrame)
    have hlog : handedPayloads (((s.io Session.leave).io Session.consumeInput).io
        Session.matchFrame).log = handedPayloads s.log :=
      (Session.matchFrame_handed _).trans (Session.emit_handed _ rfl)
    have hsame : (((s.io Session.leave).io Session.consumeInput).io Session.matchFrame).outbox =
        s.outbox :=
      (Session.outbox_eq_of_channels {} (Session.matchFrame_channels _)).trans
        Session.consumeInput_outbox
    have hbuffer : (((s.io Session.leave).io Session.consumeInput).io
        Session.matchFrame).outputBuffer = s.outputBuffer := congrArg Outbox.buffer hsame
    rw [hlog, hsame, hbuffer] at hrest
    exact hrest

theorem onWrite_handed (ec : ErrorCode) (nextRead : Bool) :
    handedPayloads (s.onWrite ec nextRead).log = handedPayloads s.log := by
  rw [onWrite]
  split_ifs
  · exact Session.emit_handed _ rfl
  · exact (readOn_handed nextRead).trans (Session.emit_handed _ rfl)

theorem onRead_handed (ec : ErrorCode) :
    handedPayloads (s.onRead cb ec).log = handedPayloads s.log := by
  rw [onRead]
  split_ifs
  · exact Session.emit_handed _ rfl
  · exact Session.deliver_handed _ cb

theorem onHandshake_handed (ec : ErrorCode) :
    handedPayloads (s.onHandshake cb ec).log = handedPayloads s.log := by
  rw [onHandshake]
  split_ifs
  · exact Session.emit_handed _ rfl
  · exact Session.enterOpening_handed _ cb _

theorem call_handed (c : Call) :
    handedPayloads (s.call cb c).log =
      handedPayloads s.log ++ s.outbox.hands (s.outboxOp (.call c)) := by
  cases c with
  | doHandshake =>
    refine Eq.trans ?_ (List.append_nil _).symm
    change handedPayloads (s.doHandshake cb).log = _
    rw [doHandshake]
    split_ifs
    · rfl
    · exact Session.emit_handed _ rfl
  | append b => exact (Session.emit_handed _ rfl).trans (List.append_nil _).symm
  | doPing payload =>
    have hping : handedPayloads (s.asyncPing payload).log = handedPayloads s.log :=
      Session.emit_handed _ rfl
    exact (operate_handed hping).trans (List.append_nil _).symm
  | doPong payload =>
    have hpong : handedPayloads (s.asyncPong payload).log = handedPayloads s.log :=
      Session.emit_handed _ rfl
    exact (operate_handed hpong).trans (List.append_nil _).symm
  | doClose reason =>
    have hclose : handedPayloads (s.asyncClose reason).log = handedPayloads s.log :=
      Session.emit_handed _ rfl
    exact (operate_handed hclose).trans (List.append_nil _).symm
  | doRead => exact doRead_handed.trans (List.append_nil _).symm
  | doWrite nextRead => exact doWrite_handed nextRead
  | _ => exact (List.append_nil _).symm

theorem step_handed (h : (system cb).step s e = some t) :
    handedPayloads t.log = handedPayloads s.log ++ s.outbox.hands (s.outboxOp e) := by
  cases e with
  | call c =>
    cases h
    exact call_handed c
  | setNextRead b =>
    obtain ⟨_, h⟩ := Option.ite_none_left_eq_some.mp h
    cases h
    exact (List.append_nil _).symm
  | handshakeDone ec response =>
    obtain ⟨_, rfl⟩ := Session.handled_eq_some.mp h
    refine Eq.trans ?_ (List.append_nil _).symm
    exact (onHandshake_handed ec).trans (Session.emit_handed _ rfl)
  | readDone ec chunk text =>
    obtain ⟨_, rfl⟩ := Session.handled_eq_some.mp h
    refine Eq.trans ?_ (List.append_nil _).symm
    exact (onRead_handed ec).trans (Session.readDone_handed _ ec chunk text)
  | writeDone i ec =>
    obtain ⟨w, _, h⟩ := Option.bind_eq_some_iff.mp h
    obtain ⟨_, rfl⟩ := Session.handled_eq_some.mp h
    rw [onWrite_handed, outboxOp]
    split_ifs
    all_goals exact (Session.emit_handed _ rfl).trans (List.append_nil _).symm
  | pingDone ec | pongDone ec =>
    obtain ⟨_, rfl⟩ := Session.handled_eq_some.mp h
    refine Eq.trans ?_ (List.append_nil _).symm
    exact (Session.report_handed _ _ ec).trans (Session.emit_handed _ rfl)
  | closeDone ec =>
    obtain ⟨_, rfl⟩ := Session.handled_eq_some.mp h
    refine Eq.trans ?_ (List.append_nil _).symm
    rw [onClose]
    split_ifs
    · exact (Session.emit_handed _ rfl).trans (Session.emit_handed _ rfl)
    · exact Session.emit_handed _ rfl
  | control kind payload =>
    obtain ⟨_, rfl⟩ := Session.handled_eq_some.mp h
    exact (Session.controlFrame_handed _ cb kind payload).trans (List.append_nil _).symm
  | resume => exact resume_handed h

end Client
end BeastWebsocket
