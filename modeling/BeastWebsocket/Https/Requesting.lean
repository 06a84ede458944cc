import BeastWebsocket.Https.InFlight
import BeastWebsocket.Channel.Star

/-! # A client that waits for its responses

User code writes a request while no other is on its way. Each request that is sent is followed by
one read, and `on_message` is called with what the reads have taken, in this order.
-/
namespace BeastWebsocket.Https.Client
open Channel Transition

section Record
variable {μ ρ : Type}

namespace Obs

/-- A request that is handed to the stream. -/
def requested? : Obs μ ρ → Option μ
  | started (.write p) => some p.message
  | _ => none

/-- What `on_message` is called with. -/
def calledWith? : Obs μ ρ → Option (Option ρ)
  | calledMessage res => some res
  | _ => none

def isFailed : Obs μ ρ → Bool
  | failed _ _ => true
  | _ => false

def isShutdown : Obs μ ρ → Bool
  | started .shutdown => true
  | _ => false

end Obs

abbrev requested (log : List (Obs μ ρ)) : List μ := log.filterMap Obs.requested?
abbrev calledWith (log : List (Obs μ ρ)) : List (Option ρ) := log.filterMap Obs.calledWith?
abbrev failed (log : List (Obs μ ρ)) : Bool := log.any Obs.isFailed
abbrev shutDown (log : List (Obs μ ρ)) : Bool := log.any Obs.isShutdown

theorem filterMap_concat {α β : Type} (f : α → Option β) (l : List α) (a : α) :
    (l ++ [a]).filterMap f = l.filterMap f ++ (f a).toList := by
  rw [List.filterMap_append]
  cases h : f a with
  | none => rw [List.filterMap_cons_none h, List.filterMap_nil, Option.toList_none]
  | some b => rw [List.filterMap_cons_some h, List.filterMap_nil, Option.toList_some]

theorem requested_append (log : List (Obs μ ρ)) (o : Obs μ ρ) :
    requested (log ++ [o]) = requested log ++ o.requested?.toList := filterMap_concat _ _ _

theorem calledWith_append (log : List (Obs μ ρ)) (o : Obs μ ρ) :
    calledWith (log ++ [o]) = calledWith log ++ o.calledWith?.toList := filterMap_concat _ _ _

theorem failed_append (log : List (Obs μ ρ)) (o : Obs μ ρ) :
    failed (log ++ [o]) = (failed log || o.isFailed) := by
  rw [failed, List.any_append, List.any_cons, List.any_nil, Bool.or_false]

end Record

variable {μ ρ : Type} {s t : Client μ ρ} {l : List ρ}

/-- `do_read` is not called, `do_write` while no request is on its way, and `do_handshake` while
no handshake is under way or done. -/
def InTurn (s : Client μ ρ) : Event μ ρ → Prop
  | .call .doHandshake => s.handshake = false ∧ s.handshakes = 0
  | .call .doRead => False
  | .call (.doWrite _) => s.writes = [] ∧ s.reads = 0
  | _ => True

instance (s : Client μ ρ) (e : Event μ ρ) : Decidable (s.InTurn e) :=
  match e with
  | .call .doHandshake => inferInstanceAs (Decidable (s.handshake = false ∧ s.handshakes = 0))
  | .call .doRead => isFalse id
  | .call (.doWrite _) => inferInstanceAs (Decidable (s.writes = [] ∧ s.reads = 0))
  | .call .doClose | .handshakeDone _ | .readDone _ _ _ | .writeDone _ _ | .shutdownDone _ =>
    isTrue trivial

/-- The client has taken the responses `l`. Unless something has failed, a response is missing
exactly while a write or a read is outstanding. -/
structure Awaits (l : List ρ) (s : Client μ ρ) : Prop where
  opened : s.Opened
  turn : s.writes.length + s.reads ≤ 1
  called : calledWith s.log = l.map some
  asked : failed s.log = false →
    (requested s.log).length = l.length + (s.writes.length + s.reads)

theorem awaits_initial : ({} : Client μ ρ).Awaits [] where
  opened := fun h => absurd rfl h
  turn := Nat.zero_le 1
  called := rfl
  asked := fun _ => rfl

theorem Awaits.emit (hs : s.Awaits l) {o : Obs μ ρ} (hrequested : o.requested? = none)
    (hcalled : o.calledWith? = none) : (s.emit o).Awaits l where
  opened := hs.opened
  turn := hs.turn
  called := by
    rw [Client.emit, calledWith_append, hcalled, hs.called]
    exact List.append_nil _
  asked := by
    intro hfailed
    rw [Client.emit, failed_append, Bool.or_eq_false_iff] at hfailed
    rw [Client.emit, requested_append, hrequested, Option.toList_none, List.append_nil]
    exact hs.asked hfailed.1

/-- Behind a failure nothing is known of what is missing. -/
theorem awaits_of_fail (hopened : s.Opened) (hturn : s.writes.length + s.reads ≤ 1)
    (hcalled : calledWith s.log = l.map some) (ec : ErrorCode) (what : String) :
    (s.fail ec what).Awaits l where
  opened := hopened
  turn := hturn
  called := by
    rw [fail, Client.emit, calledWith_append, hcalled]
    exact List.append_nil _
  asked := by
    intro hfailed
    rw [fail, Client.emit, failed_append, Bool.or_eq_false_iff] at hfailed
    exact absurd hfailed.2 Bool.noConfusion

theorem Awaits.doWrite (hs : s.Awaits l) (hwrites : s.writes = []) (hreads : s.reads = 0)
    (msg : μ) : (s.doWrite msg).Awaits l := by
  rw [Client.doWrite]
  split_ifs with hopen
  · constructor
    · exact fun _ => hopen
    · simp [asyncWrite, Client.emit, hwrites, hreads]
    · rw [asyncWrite, Client.emit, calledWith_append, hs.called]
      exact List.append_nil _
    · intro hfailed
      rw [asyncWrite, Client.emit, failed_append, Bool.or_eq_false_iff] at hfailed
      have hasked := hs.asked hfailed.1
      rw [hwrites, hreads] at hasked
      rw [asyncWrite, Client.emit, requested_append, List.length_append, hasked, hwrites, hreads]
      rfl
  · exact hs

theorem Awaits.call (hs : s.Awaits l) {c : Call μ} (hg : s.InTurn (.call c)) :
    (s.call c).Awaits l := by
  cases c with
  | doHandshake =>
    rw [Client.call, doHandshake]
    split_ifs
    · exact hs
    · have hdialled : { s with handshakes := s.handshakes + 1 }.Awaits l :=
        ⟨hs.opened, hs.turn, hs.called, hs.asked⟩
      exact hdialled.emit rfl rfl
  | doRead => exact absurd hg id
  | doWrite msg => exact hs.doWrite hg.1 hg.2 msg
  | doClose =>
    have hclosed : { s with shutdowns := s.shutdowns + 1 }.Awaits l :=
      ⟨hs.opened, hs.turn, hs.called, hs.asked⟩
    exact hclosed.emit rfl rfl

theorem Awaits.handshakeDone (hs : s.Awaits l) (ec : ErrorCode) :
    ((s.handshakeDone ec).onHandshake {} ec).Awaits l := by
  have hdone : (s.handshakeDone ec).Awaits l := by
    have hfewer : { s with handshakes := s.handshakes - 1 }.Awaits l :=
      ⟨hs.opened, hs.turn, hs.called, hs.asked⟩
    exact hfewer.emit rfl rfl
  have hopened : { s.handshakeDone ec with handshake := true }.Awaits l :=
    ⟨fun _ => rfl, hdone.turn, hdone.called, hdone.asked⟩
  rw [onHandshake]
  split_ifs
  · exact hdone.emit rfl rfl
  · exact hopened.emit rfl rfl
  · exact hopened

theorem Awaits.shutdownDone (hs : s.Awaits l) (ec : ErrorCode) :
    ((s.shutdownDone ec).onShutdown ec).Awaits l := by
  have hdone : (s.shutdownDone ec).Awaits l := by
    have hfewer : { s with shutdowns := s.shutdowns - 1 }.Awaits l :=
      ⟨hs.opened, hs.turn, hs.called, hs.asked⟩
    exact hfewer.emit rfl rfl
  rw [onShutdown]
  split_ifs
  · exact hdone.emit rfl rfl
  · exact hdone
  · exact hdone.emit rfl rfl
  · exact hdone

theorem Awaits.read (hs : s.Awaits l) (hreads : 0 < s.reads) (res : ρ) (rest : Bytes) :
    ((s.readDone .success res rest).onRead {} .success).Awaits (l ++ [res]) := by
  have hturn := hs.turn
  set t := (s.readDone .success res rest).onRead {} .success with ht
  have hlog : t.log =
      s.log ++ [.finished .read .success] ++ [.received res] ++ [.calledMessage (some res)] := rfl
  constructor
  · exact hs.opened
  · change s.writes.length + (s.reads - 1) ≤ 1
    omega
  · rw [hlog, calledWith_append, calledWith_append, calledWith_append, hs.called, List.map_append]
    simp [Obs.calledWith?]
  · intro hfailed
    rw [hlog, failed_append, failed_append, failed_append] at hfailed
    have hasked := hs.asked (by simpa [Obs.isFailed] using hfailed)
    rw [hlog, requested_append, requested_append, requested_append, List.length_append]
    change (requested s.log ++ [] ++ []).length + 0 =
      (l ++ [res]).length + (s.writes.length + (s.reads - 1))
    simp only [List.append_nil, List.length_append, List.length_singleton]
    omega

theorem Awaits.readFailed (hs : s.Awaits l) {ec : ErrorCode} (hec : ec.failed = true) (res : ρ)
    (rest : Bytes) : ((s.readDone ec res rest).onRead {} ec).Awaits l := by
  have hturn := hs.turn
  have hfewer : { s with reads := s.reads - 1 }.emit (.finished .read ec) =
      s.readDone ec res rest := by
    rw [readDone, if_pos hec]
  rw [onRead, if_pos hec, ← hfewer]
  apply awaits_of_fail
  · exact hs.opened
  · change s.writes.length + (s.reads - 1) ≤ 1
    omega
  · rw [Client.emit, calledWith_append, hs.called]
    exact List.append_nil _

/-- A request is written, and the read of its response is started. -/
theorem sent_step {cb : Callbacks} (hs : s.Awaits l) {i : ℕ}
    (h : (system cb).step s (.writeDone i .success) = some t) :
    (∃ p, t.log = s.log ++ [.finished (.write p) .success] ++ [.reset s.reads] ++
      [.started .read]) ∧ t.writes.length + 1 = s.writes.length ∧ t.reads = s.reads + 1 := by
  obtain ⟨p, hp, rfl⟩ := Option.map_eq_some_iff.mp h
  have hlt := (List.getElem?_eq_some_iff.mp hp).1
  have hopen := hs.opened (List.ne_nil_of_mem (List.mem_of_getElem? hp))
  have herase : (s.writes.eraseIdx i).length = s.writes.length - 1 := by
    rw [List.length_eraseIdx, if_pos hlt]
  rw [onWrite, if_neg (by decide), doRead, if_pos (by exact hopen)]
  refine ⟨⟨p, rfl⟩, ?_, rfl⟩
  change (s.writes.eraseIdx i).length + 1 = s.writes.length
  omega

theorem Awaits.writeDone (hs : s.Awaits l) {i : ℕ} {p : Owned μ} (hp : s.writes[i]? = some p)
    (ec : ErrorCode) : ((s.writeDone i p ec).onWrite ec).Awaits l := by
  have hturn := hs.turn
  have hlt := (List.getElem?_eq_some_iff.mp hp).1
  have herase : (s.writes.eraseIdx i).length = s.writes.length - 1 := by
    rw [List.length_eraseIdx, if_pos hlt]
  have hopen := hs.opened (List.ne_nil_of_mem (List.mem_of_getElem? hp))
  have hcalled : calledWith (s.writeDone i p ec).log = l.map some := by
    rw [Client.writeDone, Client.emit, calledWith_append, hs.called]
    exact List.append_nil _
  rw [onWrite]
  split_ifs with hec
  · apply awaits_of_fail
    · exact fun _ => hopen
    · change (s.writes.eraseIdx i).length + s.reads ≤ 1
      omega
    · exact hcalled
  · rw [doRead, if_pos (by exact hopen)]
    set t := ({ s.writeDone i p ec with res := none }.emit
      (.reset (s.writeDone i p ec).reads)).asyncRead with ht
    have hlog : t.log =
        s.log ++ [.finished (.write p) ec] ++ [.reset s.reads] ++ [.started .read] := rfl
    constructor
    · exact fun _ => hopen
    · change (s.writes.eraseIdx i).length + (s.reads + 1) ≤ 1
      omega
    · rw [hlog, calledWith_append, calledWith_append, calledWith_append, hs.called]
      simp [Obs.calledWith?]
    · intro hfailed
      rw [hlog, failed_append, failed_append, failed_append] at hfailed
      have hasked := hs.asked (by simpa [Obs.isFailed] using hfailed)
      rw [hlog, requested_append, requested_append, requested_append]
      change (requested s.log ++ [] ++ [] ++ []).length =
        l.length + ((s.writes.eraseIdx i).length + (s.reads + 1))
      simp only [List.append_nil]
      omega

/-- The response that an event takes from the connection. -/
def Event.takes : Event μ ρ → Option ρ
  | .readDone .success res _ => some res
  | _ => none

theorem Awaits.nothing (hs : s.Awaits l) : s.Awaits (l ++ (none : Option ρ).toList) := by
  rwa [Option.toList_none, List.append_nil]

theorem Awaits.step {e : Event μ ρ} (hs : s.Awaits l) (hg : s.InTurn e)
    (h : (system {}).step s e = some t) : t.Awaits (l ++ e.takes.toList) := by
  cases e with
  | call c =>
    cases h
    exact (hs.call hg).nothing
  | handshakeDone ec =>
    obtain ⟨_, rfl⟩ := handled_eq_some.mp h
    exact (hs.handshakeDone ec).nothing
  | readDone ec res rest =>
    obtain ⟨hreads, rfl⟩ := handled_eq_some.mp h
    cases ec with
    | success => exact hs.read hreads res rest
    | endOfStream | eof | other v => exact (hs.readFailed rfl res rest).nothing
  | writeDone i ec =>
    obtain ⟨p, hp, rfl⟩ := Option.map_eq_some_iff.mp h
    exact (hs.writeDone hp ec).nothing
  | shutdownDone ec =>
    obtain ⟨_, rfl⟩ := handled_eq_some.mp h
    exact (hs.shutdownDone ec).nothing

/-- Each request finds no other on its way. -/
theorem Awaits.single (hs : s.Awaits l) (hsingle : s.exchange.Single) {e : Event μ ρ}
    (hg : s.InTurn e) (h : (system {}).step s e = some t) : t.exchange.Single := by
  have hwaits : s.Waits e := by
    cases e with
    | call c =>
      cases c with
      | doRead => exact absurd hg id
      | doWrite msg => exact fun _ => hg.1
      | _ => trivial
    | writeDone i ec =>
      obtain ⟨p, hp, _⟩ := Option.map_eq_some_iff.mp h
      have hlt := (List.getElem?_eq_some_iff.mp hp).1
      have hturn := hs.turn
      intro _
      omega
    | _ => trivial
  exact refines_exchange.step_invariant
    (fun x o y hx hfree hy => (hx.step_iff hy).mpr hfree) hsingle
    ((waits_iff hs.opened h).mpr hwaits) h

/-! ## The record only grows -/

theorem emit_log (o : Obs μ ρ) : s.log <+: (s.emit o).log := List.prefix_append _ _

theorem doRead_log : s.log <+: s.doRead.log := by
  rw [doRead]
  split_ifs
  · exact List.IsPrefix.trans (emit_log (.reset s.reads)) (emit_log _)
  · exact List.prefix_rfl

theorem call_log (c : Call μ) : s.log <+: (s.call c).log := by
  cases c with
  | doHandshake =>
    rw [Client.call, doHandshake]
    split_ifs
    · exact List.prefix_rfl
    · exact emit_log _
  | doRead => exact doRead_log
  | doWrite msg =>
    rw [Client.call, Client.doWrite]
    split_ifs
    · exact emit_log _
    · exact List.prefix_rfl
  | doClose => exact emit_log _

theorem readDone_log (ec : ErrorCode) (res : ρ) (rest : Bytes) :
    s.log <+: (s.readDone ec res rest).log := by
  have hfinished : s.log <+: s.log ++ [.finished .read ec] := List.prefix_append _ _
  rw [readDone]
  split_ifs
  · exact hfinished
  · exact hfinished.trans (List.prefix_append _ _)

theorem step_log {cb : Callbacks} {e : Event μ ρ} (h : (system cb).step s e = some t) :
    s.log <+: t.log := by
  cases e with
  | call c =>
    cases h
    exact call_log c
  | handshakeDone ec =>
    obtain ⟨_, rfl⟩ := handled_eq_some.mp h
    have hdone : s.log <+: (s.handshakeDone ec).log := emit_log _
    apply hdone.trans
    rw [onHandshake]
    split_ifs
    · exact emit_log _
    · exact emit_log _
    · exact List.prefix_rfl
  | readDone ec res rest =>
    obtain ⟨_, rfl⟩ := handled_eq_some.mp h
    apply (readDone_log ec res rest).trans
    rw [onRead]
    split_ifs
    · exact emit_log _
    · exact emit_log _
    · exact List.prefix_rfl
  | writeDone i ec =>
    obtain ⟨p, _, rfl⟩ := Option.map_eq_some_iff.mp h
    have hdone : s.log <+: (s.writeDone i p ec).log := emit_log _
    apply hdone.trans
    rw [onWrite]
    split_ifs
    · exact emit_log _
    · exact doRead_log
  | shutdownDone ec =>
    obtain ⟨_, rfl⟩ := handled_eq_some.mp h
    have hdone : s.log <+: (s.shutdownDone ec).log := emit_log _
    apply hdone.trans
    rw [onShutdown]
    split_ifs
    · exact emit_log _
    · exact List.prefix_rfl
    · exact emit_log _
    · exact List.prefix_rfl

theorem step_requested {cb : Callbacks} {e : Event μ ρ} (h : (system cb).step s e = some t) :
    requested s.log <+: requested t.log := (step_log h).filterMap _

/-- The session at its end of the connection. -/
def spoke : Spoke (Client μ ρ) (Event μ ρ) ρ μ where
  toSystem := system {}
  sent s := requested s.log
  takes := Event.takes
  grows _ _ _ h := step_requested h

end BeastWebsocket.Https.Client
