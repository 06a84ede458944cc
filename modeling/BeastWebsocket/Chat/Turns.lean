import BeastWebsocket.Chat.Codec

/-! # Turns of the parse loop

The test of the `while` loop compares with a number that the peer has sent. What ends the loop is
the input: each message that is stored has taken at least eleven bytes of it beside its nickname
and its payload, and where the input is used up the next turn throws or fails.
-/
namespace BeastWebsocket.Chat
open Text

/-- What a stored message has taken of the input, at the least. -/
def Message.footprint (m : Message) : ℕ := 11 + m.nickname.length + m.payload.length

def footprint (messages : List Message) : ℕ := (messages.map Message.footprint).sum

@[simp] theorem footprint_nil : footprint [] = 0 := rfl

@[simp] theorem footprint_concat (messages : List Message) (m : Message) :
    footprint (messages ++ [m]) = footprint messages + m.footprint := by
  simp [footprint]

theorem length_le_footprint (messages : List Message) :
    11 * messages.length ≤ footprint messages := by
  induction messages with
  | nil => simp
  | cons m messages ih =>
    simp only [footprint, List.map_cons, List.sum_cons, List.length_cons, Message.footprint] at *
    omega

namespace Parser

/-- The `while` loop of `advance`, cut off after `turns` evaluations of its test. -/
def whileLoop (overflow : ℤ → ℤ) (input : Bytes) (countEntry : ℕ) :
    ℕ → List Message → ErrorCode → ℕ → Option Advance
  | 0, _, _, _ => none
  | turns + 1, messages, ec, usedBytes =>
    if countEntry > messages.length then
      match substr input usedBytes with
      | .error e => some ⟨messages, ec, .error e⟩
      | .ok rest =>
        let m := Message.parse overflow {} rest
        if m.ec.failed then some ⟨messages, m.ec, .ok (usedBytes + m.readBytes)⟩
        else whileLoop overflow input countEntry turns (messages ++ [m.self]) m.ec
          (usedBytes + m.readBytes)
    else some ⟨messages, ec, .ok usedBytes⟩

/-- `advance` with the loop cut off. -/
def advanceFor (overflow : ℤ → ℤ) (turns : ℕ) (input : Bytes) (ec : ErrorCode) :
    Option Advance :=
  let i := Inv.parse overflow ⟨0⟩ input ec
  if i.ec.failed then some ⟨[], i.ec, .ok i.readBytes⟩
  else whileLoop overflow input i.self.countEntry turns [] i.ec i.readBytes

end Parser

/-! ## What a header takes -/

section Length
variable {overflow : ℤ → ℤ}

theorem Field.length_pos (f : Field overflow) : 1 ≤ f.text.length := by
  rw [Nat.one_le_iff_ne_zero, Ne, List.length_eq_zero_iff]
  intro hnil
  have hpos := f.positive
  rw [hnil] at hpos
  simp [declared, atoi, number, signed, uint32] at hpos

theorem Field.length_headText (f : Field overflow) (p : Bytes) :
    p.length + 3 ≤ (headText p f.text).length := by
  have hpos := f.length_pos
  rw [Chat.length_headText]
  omega

/-- The prefix, a digit and three colons stand beside the nickname. -/
theorem Header.length_text (h : Header overflow) :
    11 + h.nickname.length ≤ h.text.length := by
  have hhead := h.paySz.length_headText Message.prefixString
  have hprefix : Message.prefixString.length = 7 := rfl
  simp only [Header.text, List.length_append, List.length_singleton]
  omega

theorem Header.footprint_read (h : Header overflow) (body : Bytes) :
    (h.read body).footprint ≤ h.text.length + h.paySz.value ∧
      (h.read body).footprint ≤ (h.text ++ body).length := by
  have htext := h.length_text
  simp only [Message.footprint, Header.read, List.length_take, List.length_append]
  omega

end Length

/-! ## The loop -/

namespace Parser
section Loop
variable {overflow : ℤ → ℤ} {input : Bytes} {messages : List Message} {ec : ErrorCode} {used : ℕ}

/-- A turn throws, fails or stores what it reads behind a header. -/
theorem turn_cases (overflow : ℤ → ℤ) (input : Bytes) (used : ℕ) :
    substr input used = .error .outOfRange ∨
      used ≤ input.length ∧ substr input used = .ok (input.drop used) ∧
        ((Message.parse overflow {} (input.drop used)).ec.failed = true ∨
          ∃ (h : Header overflow) (body : Bytes), input.drop used = h.text ++ body) := by
  by_cases hlt : input.length < used
  · left
    rw [substr, if_pos hlt]
  · right
    refine ⟨by omega, by rw [substr, if_neg hlt], ?_⟩
    rcases Message.parse_cases overflow {} (input.drop used) with ⟨hfailed, -⟩ | hheader
    · exact .inl hfailed
    · exact .inr hheader

theorem length_le_loop (overflow : ℤ → ℤ) (input : Bytes) (missing : ℕ)
    (messages : List Message) (ec : ErrorCode) (used : ℕ) :
    messages.length ≤ (loop overflow input missing messages ec used).messages.length := by
  induction missing generalizing messages ec used with
  | zero => exact Nat.le_refl _
  | succ missing ih =>
    rw [loop]
    rcases turn_cases overflow input used with hthrows | ⟨-, hrest, hfailed | ⟨h, body, htext⟩⟩
    · rw [hthrows]
    · rw [hrest]
      simp only [hfailed, if_true]
      exact Nat.le_refl _
    · rw [hrest, htext]
      simp only [Message.parse_header]
      have hnext := ih (messages ++ [h.read body]) .success
        (used + (h.text.length + h.paySz.value))
      rw [List.length_append] at hnext
      exact Nat.le_of_add_right_le hnext

/-- As many turns as messages are stored, and one more, are all that the loop takes. -/
theorem whileLoop_eq {missing : ℕ} (messages : List Message) (ec : ErrorCode) (used turns : ℕ)
    (h : (loop overflow input missing messages ec used).messages.length <
      messages.length + turns) :
    whileLoop overflow input (messages.length + missing) turns messages ec used =
      some (loop overflow input missing messages ec used) := by
  induction missing generalizing messages ec used turns with
  | zero =>
    cases turns with
    | zero => exact absurd h (Nat.lt_irrefl _)
    | succ turns => simp [whileLoop, loop]
  | succ missing ih =>
    cases turns with
    | zero =>
      have hle := length_le_loop overflow input (missing + 1) messages ec used
      omega
    | succ turns =>
      rw [whileLoop, if_pos (by omega)]
      rw [loop] at h ⊢
      rcases turn_cases overflow input used with hthrows | ⟨-, hrest, hfailed | ⟨m, body, htext⟩⟩
      · rw [hthrows]
      · rw [hrest]
        simp only [hfailed, if_true]
      · simp only [hrest, htext, Message.parse_header] at h ⊢
        have hnext := ih (messages ++ [m.read body]) .success
          (used + (m.text.length + m.paySz.value)) turns (by simp at h ⊢; omega)
        rw [List.length_append, List.length_singleton, Nat.add_assoc, Nat.add_comm 1] at hnext
        exact hnext

/-- The stored messages fit into the input, and into what is counted as used of it. -/
theorem footprint_loop (missing : ℕ) (hused : 6 + footprint messages ≤ used)
    (hinput : 6 + footprint messages ≤ input.length) :
    6 + footprint (loop overflow input missing messages ec used).messages ≤ input.length := by
  induction missing generalizing messages ec used with
  | zero => exact hinput
  | succ missing ih =>
    rw [loop]
    rcases turn_cases overflow input used with hthrows | ⟨hle, hrest, hfailed | ⟨h, body, htext⟩⟩
    · rw [hthrows]
      exact hinput
    · rw [hrest]
      simp only [hfailed, if_true]
      exact hinput
    · obtain ⟨hcounted, hpresent⟩ := h.footprint_read body
      have hlength : (h.text ++ body).length = input.length - used := by
        rw [← htext, List.length_drop]
      simp only [hrest, htext, Message.parse_header]
      apply ih
      · rw [footprint_concat]
        omega
      · rw [footprint_concat]
        omega

end Loop

variable (overflow : ℤ → ℤ) (input : Bytes) (ec : ErrorCode)

/-- Where the head is read, six bytes of the input are spent on it. -/
theorem footprint_advance (h : (advance overflow input ec).messages ≠ []) :
    6 + footprint (advance overflow input ec).messages ≤ input.length := by
  rcases Inv.parse_cases overflow ⟨0⟩ input ec with hfailed | ⟨rfl, f, rest, rfl⟩
  · rw [advance_failed hfailed] at h
    exact absurd rfl h
  · have hhead : 6 ≤ (headText Inv.prefixString f.text).length :=
      f.length_headText Inv.prefixString
    rw [advance_headText]
    apply footprint_loop
    · simpa using hhead
    · simp only [footprint_nil, List.length_append]
      omega

theorem length_advance :
    11 * (advance overflow input ec).messages.length ≤ input.length := by
  by_cases hnil : (advance overflow input ec).messages = []
  · simp [hnil]
  · have hfit := footprint_advance overflow input ec hnil
    have hlength := length_le_footprint (advance overflow input ec).messages
    omega

theorem advanceFor_eq {turns : ℕ}
    (h : (advance overflow input ec).messages.length < turns) :
    advanceFor overflow turns input ec = some (advance overflow input ec) := by
  rw [advanceFor, advance] at *
  by_cases hfailed : (Inv.parse overflow ⟨0⟩ input ec).ec.failed = true
  · simp only [hfailed, if_true]
  · simp only [hfailed, if_false, Bool.false_eq_true] at h ⊢
    have hloop := whileLoop_eq [] _ _ turns (by simpa using h)
    simpa using hloop

end Parser

/-- The loop stops after one turn for each eleven bytes of the input, and one more, whatever
number the input declares; and the messages that it has stored by then, however it stops, take
no more than the input holds. -/
theorem loop_within_input (overflow : ℤ → ℤ) (input : Bytes) (ec : ErrorCode) :
    (∀ turns, input.length / 11 < turns →
      Parser.advanceFor overflow turns input ec = some (Parser.advance overflow input ec)) ∧
    ((Parser.advance overflow input ec).messages ≠ [] →
      6 + ((Parser.advance overflow input ec).messages.map fun m =>
        11 + m.nickname.length + m.payload.length).sum ≤ input.length) := by
  refine ⟨fun turns hturns => ?_, Parser.footprint_advance overflow input ec⟩
  apply Parser.advanceFor_eq
  have hlength := Parser.length_advance overflow input ec
  omega

/-- The input `inv:-1:message:9:a:b`: 4294967295 messages are declared, and nine bytes of which
there is one. -/
def endlessFrame : Bytes :=
  ['i', 'n', 'v', ':', '-', '1', ':', 'm', 'e', 's', 's', 'a', 'g', 'e', ':', '9', ':', 'a', ':',
    'b'].map Char.toUInt8

theorem loop_within_input_endless :
    Parser.advance id endlessFrame .success = ⟨[⟨[98], [97]⟩], .success, .error .outOfRange⟩ ∧
      6 + (11 + 1 + 1) ≤ endlessFrame.length := by
  have hturns : Parser.advanceFor id 2 endlessFrame .success =
      some ⟨[⟨[98], [97]⟩], .success, .error .outOfRange⟩ := by
    decide
  obtain ⟨hstops, hfits⟩ := loop_within_input id endlessFrame .success
  have hadvance := Option.some.inj ((hstops 2 (by decide)).symm.trans hturns)
  rw [hadvance] at hfits
  exact ⟨hadvance, hfits (by simp)⟩

end BeastWebsocket.Chat
