import BeastWebsocket.Session.Common
import BeastWebsocket.Channel.Inbox
import BeastWebsocket.Channel.Outbox
import Mathlib.Data.List.InsertIdx

/-! # The input and the output buffer of a session as channels

The session's flag, its reads and its input buffer are an inbox, its writes and its output
buffer an outbox; what they have received, shown, been given and sent is in the record.
-/
namespace BeastWebsocket.Session
open Channel

variable {κ : Type}

def inbox (cb : Callbacks) (x : Session κ) : Inbox Byte where
  listening := cb.onMessage
  ready := x.readable
  reads := x.stream.reads
  broken := readBroken x.log
  handling := x.frame == .reading
  buffer := x.inputBuffer
  started := readsStarted x.log
  received := receivedMessages x.log
  delivered := deliveredMessages x.log

def outbox (x : Session κ) : Outbox Byte where
  buffer := x.outputBuffer
  flight := x.stream.writes.map Write.payload
  sent := sentPayloads x.log
  appended := appendedBytes x.log

/-- Both channels of a session. -/
def channels (cb : Callbacks) (x : Session κ) : Inbox Byte × Outbox Byte := (x.inbox cb, x.outbox)

variable {cb : Callbacks} {x y : Session κ}

theorem inbox_eq_of_channels (h : y.channels cb = x.channels cb) : y.inbox cb = x.inbox cb :=
  congrArg Prod.fst h

theorem outbox_eq_of_channels (cb : Callbacks) (h : y.channels cb = x.channels cb) :
    y.outbox = x.outbox :=
  congrArg Prod.snd h

/-! ## Operations that touch neither channel -/

/-- Entries of the record that neither channel is read from. -/
def aside : Obs → Bool
  | .started .read => false
  | .finished .read _ => false
  | .finished (.write _) _ => false
  | .received _ => false
  | .appended _ => false
  | .called (.message _) => false
  | _ => true

theorem emit_channels {o : Obs} (h : aside o = true) : (x.emit o).channels cb = x.channels cb := by
  cases o with
  | started op => cases op <;> simp_all [aside, channels, inbox, outbox, emit]
  | finished op ec => cases op <;> simp_all [aside, channels, inbox, outbox, emit]
  | called c => cases c <;> simp_all [aside, channels, inbox, outbox, emit]
  | _ => simp_all [aside, channels, inbox, outbox, emit]

section Untouched
variable (x)

@[simp] theorem asyncHandshake_channels (decorated : Bool) :
    (asyncHandshake decorated x).channels cb = x.channels cb := emit_channels rfl

@[simp] theorem asyncPing_channels (payload : Bytes) :
    (asyncPing payload x).channels cb = x.channels cb := emit_channels rfl

@[simp] theorem asyncPong_channels (payload : Bytes) :
    (asyncPong payload x).channels cb = x.channels cb := emit_channels rfl

@[simp] theorem asyncClose_channels (reason : CloseReason) :
    (asyncClose reason x).channels cb = x.channels cb := emit_channels rfl

@[simp] theorem handshakeDone_channels (ec : ErrorCode) :
    (handshakeDone ec x).channels cb = x.channels cb := emit_channels rfl

@[simp] theorem pingDone_channels (ec : ErrorCode) :
    (pingDone ec x).channels cb = x.channels cb := emit_channels rfl

@[simp] theorem pongDone_channels (ec : ErrorCode) :
    (pongDone ec x).channels cb = x.channels cb := emit_channels rfl

@[simp] theorem closeDone_channels (ec : ErrorCode) :
    (closeDone ec x).channels cb = x.channels cb := emit_channels rfl

@[simp] theorem setControlCallback_channels :
    (setControlCallback x).channels cb = x.channels cb := rfl

@[simp] theorem setText_channels (text : Bool) : (setText text x).channels cb = x.channels cb :=
  rfl

@[simp] theorem matchFrame_channels : (matchFrame x).channels cb = x.channels cb := by
  rw [matchFrame]
  split_ifs <;> rfl

@[simp] theorem setAutoFrame_channels : (setAutoFrame x).channels cb = x.channels cb := rfl

@[simp] theorem setTextFrame_channels : (setTextFrame x).channels cb = x.channels cb := rfl

@[simp] theorem setBinaryFrame_channels : (setBinaryFrame x).channels cb = x.channels cb := rfl

@[simp] theorem fail_channels (ec : ErrorCode) (what : String) :
    (fail ec what x).channels cb = x.channels cb := emit_channels rfl

@[simp] theorem report_channels (what : String) (ec : ErrorCode) :
    (report what ec x).channels cb = x.channels cb := by
  rw [report]
  split_ifs
  · rfl
  · exact fail_channels x ec what
  · rfl

@[simp] theorem onControlCallback_channels (kind : FrameType) (payload : Bytes) :
    (onControlCallback cb kind payload x).channels cb = x.channels cb := by
  rw [onControlCallback]
  split_ifs
  · exact emit_channels rfl
  · exact emit_channels rfl
  · exact emit_channels rfl
  · rfl

@[simp] theorem controlFrame_channels (kind : FrameType) (payload : Bytes) :
    (controlFrame cb kind payload x).channels cb = x.channels cb := by
  have hemit : (x.emit (.control kind payload)).channels cb = x.channels cb := emit_channels rfl
  rw [controlFrame]
  split_ifs
  · rw [onControlCallback_channels, hemit]
  · exact hemit

end Untouched

theorem invoke_channels {installed : Bool} {c : Callback} (h : aside (.called c) = true) :
    (invoke installed c x).channels cb = x.channels cb := by
  rw [invoke]
  split_ifs
  · exact emit_channels h
  · rfl

theorem enterOpening_channels {c : Callback} (h : aside (.called c) = true)
    (hidle : x.frame = .idle) : (enterOpening cb c x).channels cb = x.channels cb := by
  have hframe : (invoke cb.onOpen c x).frame = .idle := by
    rw [invoke]
    split_ifs <;> exact hidle
  have hsame : (enterOpening cb c x).channels cb = (invoke cb.onOpen c x).channels cb := by
    simp [enterOpening, channels, inbox, outbox, hframe]
  rw [hsame, invoke_channels h]

theorem leave_channels (h : x.frame ≠ .reading) : (leave x).channels cb = x.channels cb := by
  simp [leave, channels, inbox, outbox, h]

/-! ## Steps of the inbox -/

section Reading
open Transition (System)

theorem startRead_inbox (h : x.readable = true) :
    Inbox.Leads (x.inbox cb) ((startRead x).inbox cb) := by
  refine System.Reaches.single (e := .start) trivial ?_
  simp [Inbox.system, Inbox.step, inbox, startRead, asyncRead, emit, h]

@[simp] theorem startRead_outbox : (startRead x).outbox = x.outbox := by
  simp [outbox, startRead, asyncRead, emit]

theorem readDone_inbox {ec : ErrorCode} (chunk : Bytes) (text : Bool) (hec : ec ≠ .success)
    (h : 0 < x.stream.reads) :
    Inbox.Leads (x.inbox cb)
      ((readDone ec chunk text x).inbox cb) := by
  refine System.Reaches.single (e := .fail chunk) trivial ?_
  simp [Inbox.system, Inbox.step, inbox, readDone, emit, hec, h]

theorem deliver_inbox (chunk : Bytes) (text : Bool) (h : 0 < x.stream.reads)
    (hidle : x.frame = .idle) :
    Inbox.Leads (x.inbox cb)
      ((deliver cb (readDone .success chunk text x)).inbox cb) := by
  refine System.Reaches.single (e := .finish chunk) trivial ?_
  cases hm : cb.onMessage <;>
    simp [Inbox.system, Inbox.step, inbox, deliver, invoke, readDone, emit, hm, h, hidle]

@[simp] theorem readDone_outbox (ec : ErrorCode) (chunk : Bytes) (text : Bool) :
    (readDone ec chunk text x).outbox = x.outbox := by
  by_cases hec : ec = .success <;> simp [outbox, readDone, emit, hec]

@[simp] theorem deliver_outbox : (deliver cb x).outbox = x.outbox := by
  cases hm : cb.onMessage <;> simp [outbox, deliver, invoke, emit, hm]

theorem consumeInput_inbox (h : x.frame = .reading) :
    Inbox.Leads (x.inbox cb)
      ((consumeInput (leave x)).inbox cb) := by
  refine System.Reaches.single (e := .clear) trivial ?_
  simp [Inbox.system, Inbox.step, inbox, consumeInput, leave, emit, h]

@[simp] theorem leave_outbox : (leave x).outbox = x.outbox := rfl

@[simp] theorem consumeInput_outbox : (consumeInput x).outbox = x.outbox := by
  simp [outbox, consumeInput, emit]

end Reading

/-! ## Steps of the outbox -/

section Writing
open Transition (System)

@[simp] theorem append_inbox (b : Bytes) : (append b x).inbox cb = x.inbox cb := by
  simp [inbox, append, emit]

theorem append_outbox (b : Bytes) :
    (Outbox.system Byte).step x.outbox (.append b) = some (append b x).outbox := by
  simp [Outbox.system, Outbox.step, outbox, append, emit]

@[simp] theorem asyncWrite_inbox (k : κ) : (asyncWrite k x).inbox cb = x.inbox cb := by
  simp [inbox, asyncWrite, emit]

theorem asyncWrite_outbox (k : κ) :
    (Outbox.system Byte).step x.outbox .start = some (asyncWrite k x).outbox := by
  simp [Outbox.system, Outbox.step, outbox, asyncWrite, emit]

@[simp] theorem writeDone_inbox (i : ℕ) (w : Write κ) (ec : ErrorCode) :
    (writeDone i w ec x).inbox cb = x.inbox cb := by
  simp [inbox, writeDone, emit]

@[simp] theorem consumeOutput_inbox : (consumeOutput x).inbox cb = x.inbox cb := by
  simp [inbox, consumeOutput, emit]

theorem writeDone_outbox {i : ℕ} {w : Write κ} {ec : ErrorCode} (hec : ec ≠ .success)
    (h : x.stream.writes[i]? = some w) :
    (Outbox.system Byte).step x.outbox (.drop i) = some (writeDone i w ec x).outbox := by
  cases ec <;>
    simp_all [Outbox.system, Outbox.step, outbox, writeDone, emit, List.eraseIdx_map]

theorem consumeOutput_outbox {i : ℕ} {w : Write κ} (h : x.stream.writes[i]? = some w) :
    (Outbox.system Byte).step x.outbox (.finish i) =
      some (consumeOutput (writeDone i w .success x)).outbox := by
  simp [Outbox.system, Outbox.step, outbox, consumeOutput, writeDone, emit, h,
    List.eraseIdx_map]

end Writing
end BeastWebsocket.Session
