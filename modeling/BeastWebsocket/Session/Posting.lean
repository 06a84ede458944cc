import BeastWebsocket.Session.Called
import BeastWebsocket.Session.ServerChannels
import BeastWebsocket.Session.Gate

/-! # What a callback puts into the output of its session

While a callback runs, what is appended to a quiet output goes out as one frame when the callback
returns.
-/
namespace BeastWebsocket.Server
open Channel Transition

variable {cb : Callbacks} {s t u : Server}

/-- The bytes that a call appends to the output buffer. -/
def Call.text : Call → Bytes
  | .append b => b
  | _ => []

theorem call_frame (c : Call) : (s.call cb c).frame = s.frame := by
  cases c with
  | doAccept =>
    rw [call, doAccept]
    split_ifs <;> rfl
  | doPing payload | doPong payload | doClose reason =>
    change (s.operate _).frame = s.frame
    rw [operate]
    split_ifs <;> rfl
  | doRead =>
    rw [call, doRead]
    split_ifs <;> rfl
  | doWrite =>
    rw [call, doWrite]
    split_ifs <;> rfl
  | _ => rfl

/-- User code has appended `b` and started no write. -/
structure Fed (b : Bytes) (s t : Server) : Prop where
  filled : Outbox.Filled b s.outbox t.outbox
  frame : t.frame = s.frame
  accepted : t.accepted = s.accepted

theorem Fed.trans {b c : Bytes} (h : Fed b s t) (h' : Fed c t u) : Fed (b ++ c) s u where
  filled := h.filled.trans h'.filled
  frame := h'.frame.trans h.frame
  accepted := h'.accepted.trans h.accepted

theorem call_fed (cb : Callbacks) (s : Server) {c : Call} (h : c ≠ .doWrite) :
    Fed c.text s (s.call cb c) where
  filled := by
    have hop : (Outbox.system Byte).perform s.outbox (s.outboxOp (.call c)) =
        some (s.call cb c).outbox := refines_outbox s (.call c) (s.call cb c) rfl
    cases c with
    | append b => exact Outbox.Filled.append s.outbox b hop
    | doWrite => exact absurd rfl h
    | _ =>
      rw [← Option.some.inj hop]
      exact Outbox.Filled.refl s.outbox
  frame := call_frame c
  accepted := call_accepted c

/-- Before its callback runs, a handler leaves the output alone. -/
theorem outbox_of_callback {e : Event} (h : (system cb).step s e = some t)
    (hcall : s.callback cb e ≠ none) : t.outbox = s.outbox := by
  have hop : (Outbox.system Byte).perform s.outbox (s.outboxOp e) = some t.outbox :=
    refines_outbox s e t h
  cases e with
  | acceptDone ec => exact (Option.some.inj hop).symm
  | readDone ec chunk text => exact (Option.some.inj hop).symm
  | control kind payload => exact (Option.some.inj hop).symm
  | waitDone i ec => exact (Option.some.inj hop).symm
  | _ => exact absurd rfl hcall

theorem frame_of_accept {e : Event} (h : (system cb).step s e = some t)
    (hcall : s.callback cb e = some .accept) : t.frame = .opening ∧ t.accepted = true := by
  rw [callback_accept hcall] at h
  obtain ⟨_, rfl⟩ := Session.handled_eq_some.mp h
  exact ⟨rfl, rfl⟩

theorem frame_of_message {e : Event} {input : Bytes} (h : (system cb).step s e = some t)
    (hcall : s.callback cb e = some (.message input)) : t.frame = .reading := by
  obtain ⟨chunk, text, rfl, _⟩ := callback_message hcall
  obtain ⟨_, rfl⟩ := Session.handled_eq_some.mp h
  rfl

theorem resume_isSome (h : s.frame ≠ .idle) : ∃ t, s.resume = some t := by
  rw [resume]
  cases hframe : s.frame with
  | idle => exact absurd hframe h
  | opening => exact ⟨_, rfl⟩
  | reading => exact ⟨_, rfl⟩

/-- What has been appended to a quiet output goes out when the callback returns. -/
theorem Fed.post {b : Bytes} (h : Fed b s t) (hquiet : s.outbox.Quiet) (hs : s.frame ≠ .idle)
    (hacc : s.accepted = true) (hb : b ≠ []) :
    ∃ u, t.resume = some u ∧ u.outbox.Orderly ∧ u.outbox.carried = s.outbox.carried ++ [b] := by
  obtain ⟨u, hu⟩ := resume_isSome (h.frame.symm ▸ hs)
  have hbuffer : t.outputBuffer = b := by
    have hfilled : t.outputBuffer = s.outputBuffer ++ b := h.filled.buffer
    have hempty : s.outputBuffer = [] := hquiet.buffer
    rw [hfilled, hempty, List.nil_append]
  have hpos : 0 < t.outputBuffer.length := by
    rw [hbuffer]
    exact List.length_pos_iff.mpr hb
  have hstart := resume_outbox hu
  rw [outboxOp, h.accepted, hacc, decide_eq_true hpos] at hstart
  exact ⟨u, hu, hquiet.post h.filled hstart⟩

/-- Where nothing has been appended, the output stays quiet when the callback returns. -/
theorem Fed.rest (h : Fed [] s t) (hquiet : s.outbox.Quiet) (hu : t.resume = some u) :
    u.outbox.Quiet ∧ u.outbox.carried = s.outbox.carried := by
  have hbuffer : t.outputBuffer = [] := by
    have hfilled : t.outputBuffer = s.outputBuffer ++ [] := h.filled.buffer
    have hempty : s.outputBuffer = [] := hquiet.buffer
    rw [hfilled, hempty, List.nil_append]
  have hsame := resume_outbox hu
  rw [outboxOp, hbuffer] at hsame
  simp only [List.length_nil, Nat.lt_irrefl, decide_false, Bool.and_false] at hsame
  rw [← Option.some.inj hsame]
  refine ⟨⟨hbuffer, h.filled.flight.trans hquiet.flight⟩, ?_⟩
  rw [Outbox.carried, Outbox.carried, h.filled.flight, h.filled.sent]

/-- What another handler appends and writes goes out as well. -/
theorem call_posts (cb : Callbacks) (b : Bytes) (hquiet : s.outbox.Quiet)
    (hacc : s.accepted = true) :
    ((s.call cb (.append b)).call cb .doWrite).outbox.Orderly ∧
      ((s.call cb (.append b)).call cb .doWrite).outbox.carried = s.outbox.carried ++ [b] := by
  have hfed := call_fed cb s (c := .append b) (by simp)
  have hstart := doWrite_outbox (s := s.call cb (.append b))
  rw [hfed.accepted, hacc] at hstart
  exact hquiet.post hfed.filled hstart

end BeastWebsocket.Server
