import BeastWebsocket.Session.Channels
import BeastWebsocket.Session.Client

/-! # The client session drives its two channels -/
namespace BeastWebsocket.Client
open Channel Transition

variable {cb : Callbacks} {s t : Client}

/-! ## Functions that touch neither channel -/

theorem operate_channels {f : Session Bool → Session Bool}
    (hf : ∀ x, (f x).channels cb = x.channels cb) :
    (s.operate f).channels cb = s.channels cb := by
  rw [operate]
  split_ifs
  · rfl
  · exact hf _

theorem doHandshake_channels : (s.doHandshake cb).channels cb = s.channels cb := by
  rw [doHandshake]
  split_ifs
  · rfl
  · simp

theorem onHandshake_channels (ec : ErrorCode) (h : s.frame = .idle) :
    (s.onHandshake cb ec).channels cb = s.channels cb := by
  rw [onHandshake]
  split_ifs
  · exact Session.fail_channels _ _ _
  · exact Session.enterOpening_channels rfl h

theorem onClose_channels (ec : ErrorCode) : (s.onClose ec).channels cb = s.channels cb := by
  rw [onClose]
  split_ifs
  · exact Session.fail_channels _ _ _
  · rfl

def Call.touches : Call → Bool
  | .append _ => true
  | .doRead => true
  | .doWrite _ => true
  | _ => false

theorem call_channels (c : Call) (h : c.touches = false) :
    (s.call cb c).channels cb = s.channels cb := by
  cases c with
  | doHandshake => exact doHandshake_channels
  | setAutoFrame => exact Session.setAutoFrame_channels _
  | setTextFrame => exact Session.setTextFrame_channels _
  | setBinaryFrame => exact Session.setBinaryFrame_channels _
  | doPing payload => exact operate_channels fun x => Session.asyncPing_channels x payload
  | doPong payload => exact operate_channels fun x => Session.asyncPong_channels x payload
  | doClose reason => exact operate_channels fun x => Session.asyncClose_channels x reason
  | append b => cases h
  | doRead => cases h
  | doWrite nextRead => cases h

def Event.touches : Event → Bool
  | .call c => c.touches
  | .readDone _ _ _ => true
  | .writeDone _ _ => true
  | .resume => true
  | _ => false

theorem step_channels {e : Event} (h : e.touches = false) (ht : (system cb).step s e = some t) :
    t.channels cb = s.channels cb := by
  cases e with
  | call c =>
    cases ht
    exact call_channels c h
  | setNextRead b =>
    obtain ⟨_, ht⟩ := Option.ite_none_left_eq_some.mp ht
    cases ht
    rfl
  | handshakeDone ec response =>
    obtain ⟨⟨hidle, _⟩, rfl⟩ := Session.handled_eq_some.mp ht
    exact (onHandshake_channels
      (s := { s with resUpgrade := response }.io (Session.handshakeDone ec)) ec hidle).trans
      (Session.handshakeDone_channels _ ec)
  | pingDone ec =>
    obtain ⟨_, rfl⟩ := Session.handled_eq_some.mp ht
    exact (Session.report_channels _ _ ec).trans (Session.pingDone_channels _ ec)
  | pongDone ec =>
    obtain ⟨_, rfl⟩ := Session.handled_eq_some.mp ht
    exact (Session.report_channels _ _ ec).trans (Session.pongDone_channels _ ec)
  | closeDone ec =>
    obtain ⟨_, rfl⟩ := Session.handled_eq_some.mp ht
    exact (onClose_channels ec).trans (Session.closeDone_channels _ ec)
  | control kind payload =>
    obtain ⟨_, rfl⟩ := Session.handled_eq_some.mp ht
    exact Session.controlFrame_channels _ kind payload
  | readDone ec chunk text => cases h
  | writeDone i ec => cases h
  | resume => cases h

/-! ## The inbox -/

theorem doRead_inbox : Inbox.Leads (s.inbox cb) (s.doRead.inbox cb) := by
  rw [doRead]
  split_ifs with h
  · exact System.Reaches.refl _
  · have hready : s.readable = true := by simp_all
    exact Session.startRead_inbox hready

theorem readOn_inbox (nextRead : Bool) :
    Inbox.Leads (s.inbox cb) ((s.readOn nextRead).inbox cb) := by
  rw [readOn]
  split_ifs
  · exact doRead_inbox
  · exact System.Reaches.refl _

theorem doWrite_inbox (nextRead : Bool) : (s.doWrite nextRead).inbox cb = s.inbox cb := by
  rw [doWrite]
  split_ifs
  · rfl
  · exact Session.asyncWrite_inbox _

theorem writeOut_inbox : s.writeOut.inbox cb = s.inbox cb := by
  rw [writeOut]
  split_ifs
  · exact doWrite_inbox s.nextRead
  · rfl

theorem onRead_inbox (ec : ErrorCode) (chunk : Bytes) (text : Bool) (hreads : 0 < s.stream.reads)
    (hidle : s.frame = .idle) :
    Inbox.Leads (s.inbox cb)
      (((s.io (Session.readDone ec chunk text)).onRead cb ec).inbox cb) := by
  rw [onRead]
  by_cases hec : ec = .success
  · subst hec
    exact Session.deliver_inbox chunk text hreads hidle
  · have hpart : Inbox.Leads (s.inbox cb) ((Session.readDone ec chunk text s.toSession).inbox cb) :=
      Session.readDone_inbox chunk text hec hreads
    split_ifs with hf
    · refine hpart.trans (System.Reaches.of_eq ?_)
      exact (Session.inbox_eq_of_channels (Session.fail_channels _ ec "read")).symm
    · exact absurd (by simpa using hf) hec

theorem onWrite_inbox (ec : ErrorCode) (nextRead : Bool) :
    Inbox.Leads (s.inbox cb) ((s.onWrite ec nextRead).inbox cb) := by
  rw [onWrite]
  split_ifs
  · exact System.Reaches.of_eq
      (Session.inbox_eq_of_channels (Session.fail_channels _ ec "write")).symm
  · refine System.Reaches.trans (System.Reaches.of_eq ?_) (readOn_inbox nextRead)
    exact (Session.consumeOutput_inbox (x := s.toSession)).symm

theorem resume_inbox (h : s.resume = some t) : Inbox.Leads (s.inbox cb) (t.inbox cb) := by
  cases hf : s.frame with
  | idle => simp [resume, hf] at h
  | opening =>
    simp only [resume, hf, Option.some.injEq] at h
    subst h
    refine System.Reaches.of_eq (Eq.symm (Eq.trans writeOut_inbox ?_))
    exact Session.inbox_eq_of_channels (Session.leave_channels (by simp [hf]))
  | reading =>
    simp only [resume, hf, Option.some.injEq] at h
    subst h
    refine (Session.consumeInput_inbox hf).trans ?_
    refine System.Reaches.of_eq (Eq.symm (Eq.trans writeOut_inbox ?_))
    exact Session.inbox_eq_of_channels (Session.matchFrame_channels _)

/-- The client session refines the inbox. -/
theorem step_inbox (s : Client) (e : Event) (t : Client) (ht : (system cb).step s e = some t) :
    Inbox.Leads (s.inbox cb) (t.inbox cb) := by
  by_cases h : e.touches = false
  · exact System.Reaches.of_eq (Session.inbox_eq_of_channels (step_channels h ht)).symm
  · cases e with
    | call c =>
      cases ht
      cases c with
      | append b => exact System.Reaches.of_eq (Session.append_inbox b).symm
      | doRead => exact doRead_inbox
      | doWrite nextRead => exact System.Reaches.of_eq (doWrite_inbox nextRead).symm
      | _ => exact absurd rfl h
    | readDone ec chunk text =>
      obtain ⟨⟨hidle, hreads⟩, rfl⟩ := Session.handled_eq_some.mp ht
      exact onRead_inbox ec chunk text hreads hidle
    | writeDone i ec =>
      obtain ⟨w, _, ht⟩ := Option.bind_eq_some_iff.mp ht
      obtain ⟨_, rfl⟩ := Session.handled_eq_some.mp ht
      refine System.Reaches.trans (System.Reaches.of_eq ?_) (onWrite_inbox ec w.bound)
      exact (Session.writeDone_inbox i w ec).symm
    | resume => exact resume_inbox ht
    | _ => exact absurd rfl h

/-! ## The outbox -/

/-- The step of the outbox that an event of the session performs. -/
def outboxOp (s : Client) : Event → Option (Outbox.Op Byte)
  | .call (.append b) => some (.append b)
  | .call (.doWrite _) => if s.handshaked then some .start else none
  | .writeDone i ec => some (if ec = .success then .finish i else .drop i)
  | .resume => if s.handshaked && 0 < s.outputBuffer.length then some .start else none
  | _ => none

theorem doRead_outbox : s.doRead.outbox = s.outbox := by
  rw [doRead]
  split_ifs
  · rfl
  · exact Session.startRead_outbox

theorem readOn_outbox (nextRead : Bool) : (s.readOn nextRead).outbox = s.outbox := by
  rw [readOn]
  split_ifs
  · exact doRead_outbox
  · rfl

theorem doWrite_outbox (nextRead : Bool) :
    (Outbox.system Byte).perform s.outbox (if s.handshaked then some .start else none) =
      some (s.doWrite nextRead).outbox := by
  rw [doWrite]
  cases h : s.handshaked with
  | false => rfl
  | true => exact Session.asyncWrite_outbox nextRead

theorem writeOut_outbox :
    (Outbox.system Byte).perform s.outbox
        (if s.handshaked && 0 < s.outputBuffer.length then some .start else none) =
      some s.writeOut.outbox := by
  rw [writeOut]
  by_cases h : 0 < s.outputBuffer.length
  · simpa [h] using doWrite_outbox (s := s) s.nextRead
  · simp [h, System.perform]

theorem onRead_outbox (ec : ErrorCode) : (s.onRead cb ec).outbox = s.outbox := by
  rw [onRead]
  split_ifs
  · exact Session.outbox_eq_of_channels cb (Session.fail_channels _ ec "read")
  · exact Session.deliver_outbox

theorem onWrite_outbox {i : ℕ} {w : Write Bool} (ec : ErrorCode)
    (hw : s.stream.writes[i]? = some w) :
    (Outbox.system Byte).step s.outbox (if ec = .success then .finish i else .drop i) =
      some ((s.io (Session.writeDone i w ec)).onWrite ec w.bound).outbox := by
  by_cases hec : ec = .success
  · subst hec
    rw [if_pos rfl, Session.consumeOutput_outbox hw]
    exact congrArg some (readOn_outbox (s := (s.io (Session.writeDone i w .success)).io
      Session.consumeOutput) w.bound).symm
  · rw [if_neg hec, Session.writeDone_outbox hec hw]
    rw [onWrite]
    split_ifs with hf
    · exact congrArg some
        (Session.outbox_eq_of_channels {} (Session.fail_channels _ ec "write")).symm
    · exact absurd (by simpa using hf) hec

theorem resume_outbox (h : s.resume = some t) :
    (Outbox.system Byte).perform s.outbox (s.outboxOp .resume) = some t.outbox := by
  cases hf : s.frame with
  | idle => simp [resume, hf] at h
  | opening =>
    simp only [resume, hf, Option.some.injEq] at h
    subst h
    exact writeOut_outbox (s := { s.io Session.leave with resUpgrade := [] })
  | reading =>
    simp only [resume, hf, Option.some.injEq] at h
    subst h
    have hsame : (((s.io Session.leave).io Session.consumeInput).io Session.matchFrame).outbox =
        s.outbox := by
      refine (Session.outbox_eq_of_channels {} (Session.matchFrame_channels _)).trans ?_
      exact Session.consumeInput_outbox
    have hbuffer : (((s.io Session.leave).io Session.consumeInput).io
        Session.matchFrame).outputBuffer = s.outputBuffer := congrArg Outbox.buffer hsame
    have hrest := writeOut_outbox
      (s := ((s.io Session.leave).io Session.consumeInput).io Session.matchFrame)
    rw [hsame, hbuffer] at hrest
    exact hrest

/-- The client session refines the outbox. -/
theorem refines_outbox :
    (system cb).Refines (Outbox.system Byte) (fun s => s.outbox) outboxOp := by
  intro s e t ht
  by_cases h : e.touches = false
  · have hop : s.outboxOp e = none := by
      cases e with
      | call c => cases c <;> first | rfl | cases h
      | _ => first | rfl | cases h
    rw [hop]
    exact congrArg some (Session.outbox_eq_of_channels cb (step_channels h ht)).symm
  · cases e with
    | call c =>
      cases ht
      cases c with
      | append b => exact Session.append_outbox b
      | doRead => exact congrArg some doRead_outbox.symm
      | doWrite nextRead => exact doWrite_outbox nextRead
      | _ => exact absurd rfl h
    | readDone ec chunk text =>
      obtain ⟨_, rfl⟩ := Session.handled_eq_some.mp ht
      simp only [onRead_outbox ec]
      exact congrArg some (Session.readDone_outbox ec chunk text).symm
    | writeDone i ec =>
      obtain ⟨w, hw, ht⟩ := Option.bind_eq_some_iff.mp ht
      obtain ⟨_, rfl⟩ := Session.handled_eq_some.mp ht
      exact onWrite_outbox ec hw
    | resume => exact resume_outbox ht
    | _ => exact absurd rfl h

end BeastWebsocket.Client
