import BeastWebsocket.Chat.Turns

/-! # The error on entry

`Inv::parse` leaves the error alone where it succeeds, and `advance` then looks at it. So a head
that is read makes the outcome depend on the error that the caller has left there; a head that
is not read, and a first message that is rejected as that error would be, hide it.
-/
namespace BeastWebsocket.Chat

/-- The input starts with the head of a frame. -/
def Headed (overflow : ℤ → ℤ) (input : Bytes) : Prop :=
  ∃ (f : Field overflow) (rest : Bytes), input = headText Inv.prefixString f.text ++ rest

/-- No message starts here, and `ec` is the error for that: the text has no room for the prefix
and its colon, or another prefix. -/
def Rejected (rest : Bytes) (ec : ErrorCode) : Prop :=
  rest.length < Message.prefixString.length + 1 ∧ ec = .badMessage ∨
    Message.prefixString.length + 1 ≤ rest.length ∧
      rest.take Message.prefixString.length ≠ Message.prefixString ∧ ec = .invalidArgument

/-- Behind the head of the frame no message starts. -/
def BareHead (overflow : ℤ → ℤ) (input : Bytes) (ec : ErrorCode) : Prop :=
  ∃ (f : Field overflow) (rest : Bytes), input = headText Inv.prefixString f.text ++ rest ∧
    Rejected rest ec

/-- The outcomes agree but for the kind of their errors. -/
def SameStatus (r₁ r₂ : Advance) : Prop :=
  r₁.messages = r₂.messages ∧ r₁.usedBytes = r₂.usedBytes ∧ r₁.ec.failed = r₂.ec.failed

theorem SameStatus.comm {r₁ r₂ : Advance} : SameStatus r₁ r₂ ↔ SameStatus r₂ r₁ := by
  simp only [SameStatus, eq_comm]

instance (r₁ r₂ : Advance) : Decidable (SameStatus r₁ r₂) :=
  inferInstanceAs (Decidable (_ ∧ _ ∧ _))

theorem Rejected.failed {rest : Bytes} {ec : ErrorCode} (h : Rejected rest ec) :
    ec ≠ .success := by
  rcases h with ⟨-, rfl⟩ | ⟨-, -, rfl⟩
  · simp
  · simp

/-! ## A message that is rejected at once -/

section Rejected
variable {overflow : ℤ → ℤ} {rest : Bytes} {ec : ErrorCode}

/-- What `parseHead` rejects by its first two tests, it has read nothing of. -/
theorem parseHead_error_zero (overflow : ℤ → ℤ) {p : Bytes} (hp : p ≠ []) :
    parseHead overflow p rest = .error (ec, 0) ↔
      rest.length < p.length + 1 ∧ ec = .badMessage ∨
        p.length + 1 ≤ rest.length ∧ rest.take p.length ≠ p ∧ ec = .invalidArgument := by
  have hpos := List.length_pos_of_ne_nil hp
  by_cases hlen : rest.length < p.length + 1
  · simp [parseHead, hlen, Nat.not_le.mpr hlen, eq_comm]
  · by_cases hstart : rest.take p.length = p
    · have hread : ∀ e, parseHead overflow p rest ≠ .error (e, 0) := by
        intro e h
        simp only [parseHead, hlen, hstart, if_false, ne_eq, not_true_eq_false] at h
        split at h
        · simp only [Except.error.injEq, Prod.mk.injEq] at h
          omega
        · split at h
          · cases h
          · split at h
            · cases h
            · cases h
      simp [hread, hlen, hstart]
    · simp [parseHead, hlen, hstart, Nat.not_lt.mp hlen, eq_comm]

theorem Message.parse_rejected (overflow : ℤ → ℤ) (self : Message) :
    (Message.parse overflow self rest).ec = ec ∧ (Message.parse overflow self rest).readBytes = 0 ∧
        ec ≠ .success ↔ Rejected rest ec := by
  have hprefix : prefixString ≠ [] := by decide
  rw [Rejected, ← parseHead_error_zero overflow hprefix]
  rcases parseHead_cases overflow prefixString rest with
    ⟨e, n, herror, hfailed, -⟩ | ⟨f, tail, rfl⟩
  · rw [Message.parse, herror]
    simp at hfailed ⊢
    grind
  · have hlength : 10 ≤ (headText prefixString f.text).length := f.length_headText prefixString
    rw [Message.parse, parseHead_headText]
    apply iff_of_false
    · rintro ⟨-, hread, -⟩
      cases hfind : tail.idxOf? colon with
      | none =>
        simp only [hfind] at hread
        omega
      | some i =>
        simp only [hfind] at hread
        omega
    · intro herror
      cases herror

end Rejected

/-! ## The two outcomes -/

namespace Parser
section Outcome
variable {overflow : ℤ → ℤ}

/-- Without a head the error on entry is overwritten. -/
theorem advance_unheaded {input : Bytes} (h : ¬ Headed overflow input) (ec ec' : ErrorCode) :
    advance overflow input ec = advance overflow input ec' := by
  rcases parseHead_cases overflow Inv.prefixString input with
    ⟨e, n, herror, -, -⟩ | ⟨f, rest, hinput⟩
  · rw [advance, advance, Inv.parse, Inv.parse, herror]
  · exact absurd ⟨f, rest, hinput⟩ h

theorem loop_ne_nil {input : Bytes} {messages : List Message} {ec : ErrorCode} {used : ℕ}
    (missing : ℕ) (h : messages ≠ []) :
    (loop overflow input missing messages ec used).messages ≠ [] := by
  have hlength := length_le_loop overflow input missing messages ec used
  have hpos := List.length_pos_of_ne_nil h
  exact List.ne_nil_of_length_pos (by omega)

variable (f : Field overflow) (rest : Bytes) {ec : ErrorCode}

/-- Behind a head the error on entry counts as one of the head. -/
theorem advance_stale (h : ec ≠ .success) :
    advance overflow (headText Inv.prefixString f.text ++ rest) ec =
      ⟨[], ec, .ok (headText Inv.prefixString f.text).length⟩ := by
  rw [advance_failed, Inv.parse_headText]
  rw [Inv.parse_headText]
  exact ErrorCode.failed_eq_true.mpr h

/-- Without an error on entry the same outcome comes from a first message that is rejected. -/
theorem advance_eq_stale_iff (h : ec ≠ .success) :
    advance overflow (headText Inv.prefixString f.text ++ rest) .success =
        ⟨[], ec, .ok (headText Inv.prefixString f.text).length⟩ ↔ Rejected rest ec := by
  obtain ⟨missing, hvalue⟩ := Nat.exists_eq_add_one.mpr f.value_pos
  rw [advance_headText, hvalue, loop_step, ← Message.parse_rejected overflow {}]
  by_cases hfailed : (Message.parse overflow {} rest).ec.failed = true
  · simp [hfailed, h]
  · apply iff_of_false
    · intro heq
      have hmessages := congrArg Advance.messages heq
      simp only [hfailed, if_false, Bool.false_eq_true] at hmessages
      exact loop_ne_nil missing (by simp) hmessages
    · rintro ⟨rfl, -, hne⟩
      rw [ErrorCode.failed_eq_true] at hfailed
      exact hfailed hne

theorem sameStatus_stale_iff (h : ec ≠ .success) :
    SameStatus (advance overflow (headText Inv.prefixString f.text ++ rest) .success)
        (advance overflow (headText Inv.prefixString f.text ++ rest) ec) ↔
      ∃ e, Rejected rest e := by
  rw [advance_stale f rest h]
  constructor
  · rintro ⟨hmessages, hused, hstatus⟩
    have hne : (advance overflow (headText Inv.prefixString f.text ++ rest) .success).ec ≠
        .success := by
      rw [← ErrorCode.failed_eq_true, hstatus]
      exact ErrorCode.failed_eq_true.mpr h
    refine ⟨_, (advance_eq_stale_iff f rest hne).mp ?_⟩
    rw [Advance.mk.injEq]
    exact ⟨hmessages, rfl, hused⟩
  · rintro ⟨e, he⟩
    rw [(advance_eq_stale_iff f rest he.failed).mpr he]
    refine ⟨rfl, rfl, ?_⟩
    rw [ErrorCode.failed_eq_true.mpr h]
    exact ErrorCode.failed_eq_true.mpr he.failed

theorem advance_eq_iff (e₁ e₂ : ErrorCode) :
    advance overflow (headText Inv.prefixString f.text ++ rest) e₁ =
        advance overflow (headText Inv.prefixString f.text ++ rest) e₂ ↔
      e₁ = e₂ ∨ e₁ = .success ∧ Rejected rest e₂ ∨ e₂ = .success ∧ Rejected rest e₁ := by
  by_cases h₁ : e₁ = .success
  · subst h₁
    by_cases h₂ : e₂ = .success
    · simp [h₂]
    · rw [advance_stale f rest h₂, advance_eq_stale_iff f rest h₂]
      simp [Ne.symm h₂, h₂]
  · by_cases h₂ : e₂ = .success
    · subst h₂
      rw [advance_stale f rest h₁, eq_comm, advance_eq_stale_iff f rest h₁]
      simp [h₁]
    · rw [advance_stale f rest h₁, advance_stale f rest h₂]
      simp [h₁, h₂]

theorem sameStatus_iff (e₁ e₂ : ErrorCode) :
    SameStatus (advance overflow (headText Inv.prefixString f.text ++ rest) e₁)
        (advance overflow (headText Inv.prefixString f.text ++ rest) e₂) ↔
      e₁.failed = e₂.failed ∨ ∃ ec, Rejected rest ec := by
  have hsuccess : ErrorCode.success.failed = false := rfl
  by_cases h₁ : e₁ = .success
  · subst h₁
    by_cases h₂ : e₂ = .success
    · simp [SameStatus, h₂]
    · rw [sameStatus_stale_iff f rest h₂, hsuccess, ErrorCode.failed_eq_true.mpr h₂]
      simp
  · by_cases h₂ : e₂ = .success
    · subst h₂
      rw [SameStatus.comm, sameStatus_stale_iff f rest h₁, hsuccess,
        ErrorCode.failed_eq_true.mpr h₁]
      simp
    · rw [advance_stale f rest h₁, advance_stale f rest h₂]
      simp [SameStatus, ErrorCode.failed_eq_true.mpr h₁, ErrorCode.failed_eq_true.mpr h₂]

end Outcome
end Parser

theorem bareHead_iff {overflow : ℤ → ℤ} {f : Field overflow} {rest : Bytes} {ec : ErrorCode} :
    BareHead overflow (headText Inv.prefixString f.text ++ rest) ec ↔ Rejected rest ec := by
  constructor
  · rintro ⟨g, tail, hinput, hrejected⟩
    obtain ⟨-, rfl⟩ := headText_cancel f.noColon g.noColon hinput
    exact hrejected
  · intro h
    exact ⟨f, rest, rfl, h⟩

/-- Two calls on one input, that start with different errors, agree in their messages, their
count and their error exactly where no head is read, or where one starts without an error and
finds at its first message the error with which the other starts. If only failure and success
are told apart, they agree where both start with an error, or one of them does and no message
starts behind the head. -/
theorem outcome_eq_iff (overflow : ℤ → ℤ) (input : Bytes) (e₁ e₂ : ErrorCode) :
    (Parser.advance overflow input e₁ = Parser.advance overflow input e₂ ↔
      e₁ = e₂ ∨ ¬ Headed overflow input ∨ e₁ = .success ∧ BareHead overflow input e₂ ∨
        e₂ = .success ∧ BareHead overflow input e₁) ∧
    (SameStatus (Parser.advance overflow input e₁) (Parser.advance overflow input e₂) ↔
      e₁.failed = e₂.failed ∨ ¬ Headed overflow input ∨ ∃ ec, BareHead overflow input ec) := by
  by_cases hhead : Headed overflow input
  · obtain ⟨f, rest, rfl⟩ := hhead
    have hheaded : Headed overflow (headText Inv.prefixString f.text ++ rest) := ⟨f, rest, rfl⟩
    simp only [hheaded, not_true_eq_false, false_or, bareHead_iff]
    exact ⟨Parser.advance_eq_iff f rest e₁ e₂, Parser.sameStatus_iff f rest e₁ e₂⟩
  · have heq := Parser.advance_unheaded hhead e₁ e₂
    simp [heq, hhead, SameStatus]

/-- The frame `inv:1:message:1:a:b` is dropped by a caller who still holds the error of an
earlier frame. -/
theorem stale_error_drops_message :
    Parser.advance id (frame [⟨[98], [97]⟩]) .success = ⟨[⟨[98], [97]⟩], .success, .ok 19⟩ ∧
      Parser.advance id (frame [⟨[98], [97]⟩]) .badMessage = ⟨[], .badMessage, .ok 6⟩ := by
  decide

end BeastWebsocket.Chat
