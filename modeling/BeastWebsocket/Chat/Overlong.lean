import BeastWebsocket.Chat.Codec

/-! # Payloads that are declared too long

`Message::parse` takes what there is of a payload and counts what was declared. The parser
stays within its input except on the frames described here.
-/
namespace BeastWebsocket.Chat

/-- A frame in which, behind fewer complete messages than the frame declares, a header declares
more payload than is left. -/
def Overlong (overflow : ℤ → ℤ) (input : Bytes) : Prop :=
  ∃ (f : Field overflow) (bs : List (Block overflow)) (h : Header overflow) (body : Bytes),
    input = headText Inv.prefixString f.text ++ (Block.texts bs ++ (h.text ++ body)) ∧
      bs.length < f.value ∧ body.length < h.paySz.value

namespace Parser
variable {overflow : ℤ → ℤ}

theorem not_within_of_overlong {input : Bytes} (h : Overlong overflow input) :
    ¬ (advance overflow input .success).Within input.length := by
  obtain ⟨f, bs, header, body, rfl, hcount, hshort⟩ := h
  obtain ⟨k, hk⟩ := Nat.exists_eq_add_of_lt hcount
  rw [advance_headText, hk, Nat.add_assoc, loop_blocks, ← List.append_assoc _ (Block.texts bs)]
  exact loop_short header _ k hshort

theorem within_of_not_overlong (f : Field overflow) (rest : Bytes)
    (h : ¬ Overlong overflow (headText Inv.prefixString f.text ++ rest)) :
    (advance overflow (headText Inv.prefixString f.text ++ rest) .success).Within
      (headText Inv.prefixString f.text ++ rest).length := by
  obtain ⟨bs, tail, rfl, hend⟩ := split_blocks overflow f.value rest
  have hlength : bs.length ≤ f.value := by omega
  obtain ⟨k, hk⟩ := Nat.exists_eq_add_of_le hlength
  rw [advance_headText, hk, loop_blocks, ← List.append_assoc]
  cases k with
  | zero => exact ⟨_, rfl, by simp⟩
  | succ k =>
    have hstop : Stop overflow tail := by
      rcases hend with heq | ⟨-, hstop⟩
      · omega
      · exact hstop
    cases hstop with
    | failed hfailed hread =>
      rw [loop_failed _ _ k hfailed]
      refine ⟨_, rfl, ?_⟩
      simp only [List.length_append] at *
      omega
    | short header hshort => exact absurd ⟨f, bs, header, _, rfl, by omega, hshort⟩ h

end Parser

/-- The parser returns normally, without going beyond its input, unless it starts on a frame
that is overlong. -/
theorem parser_within_input (overflow : ℤ → ℤ) (input : Bytes) (ec : ErrorCode) :
    (Parser.advance overflow input ec).Within input.length ↔
      ec.failed = true ∨ ¬ Overlong overflow input := by
  rcases Inv.parse_cases overflow ⟨0⟩ input ec with hfailed | ⟨rfl, f, rest, rfl⟩
  · apply iff_of_true
    · rw [Parser.advance_failed hfailed]
      exact ⟨_, rfl, Inv.parse_readBytes_le overflow ⟨0⟩ input ec⟩
    · by_cases hlong : Overlong overflow input
      · obtain ⟨f, bs, h, body, rfl, -, -⟩ := hlong
        rw [Inv.parse_headText] at hfailed
        exact .inl hfailed
      · exact .inr hlong
  · rw [or_iff_right (by simp)]
    constructor
    · intro hwithin hlong
      exact Parser.not_within_of_overlong hlong hwithin
    · exact Parser.within_of_not_overlong f rest

/-- The input `inv:2:message:9:a:b`: one message, that declares nine bytes and has one. -/
def shortFrame : Bytes :=
  ['i', 'n', 'v', ':', '2', ':', 'm', 'e', 's', 's', 'a', 'g', 'e', ':', '9', ':', 'a', ':',
    'b'].map Char.toUInt8

theorem short_frame_throws :
    (Parser.advance id shortFrame .success).usedBytes = .error .outOfRange ∧
      ¬ (Parser.advance id shortFrame .success).Within shortFrame.length := by
  have hthrows : (Parser.advance id shortFrame .success).usedBytes = .error .outOfRange := by
    decide
  refine ⟨hthrows, ?_⟩
  rintro ⟨used, hused, -⟩
  rw [hthrows] at hused
  cases hused

end BeastWebsocket.Chat
