import BeastWebsocket.Chat.Overlong

/-! # The frames that are read back

What `Serializer` writes is read back by `Parser` as it was, up to what follows it, exactly when
there is a message, no nickname holds a colon and no payload is empty. The rest of the inputs
within which the parser succeeds is described by `accepted`.
-/
namespace BeastWebsocket.Chat
open Text

section Accepted
variable {overflow : ℤ → ℤ}

/-- A success within the input reads a head and the complete messages that it declares. -/
theorem Parser.accepted {input : Bytes}
    (hsuccess : (advance overflow input .success).ec = .success)
    (hwithin : (advance overflow input .success).Within input.length) :
    ∃ (f : Field overflow) (bs : List (Block overflow)) (tail : Bytes),
      bs.length = f.value ∧
        input = headText Inv.prefixString f.text ++ (Block.texts bs ++ tail) := by
  rcases Inv.parse_cases overflow ⟨0⟩ input .success with hfailed | ⟨-, f, rest, rfl⟩
  · rw [advance_failed hfailed] at hsuccess
    rw [ErrorCode.failed_eq_true] at hfailed
    exact absurd hsuccess hfailed
  · obtain ⟨bs, tail, rfl, hcount | ⟨hcount, hstop⟩⟩ := split_blocks overflow f.value rest
    · exact ⟨f, bs, tail, hcount, rfl⟩
    · cases hstop with
      | failed hfailed _ =>
        obtain ⟨k, hk⟩ := Nat.exists_eq_add_of_lt hcount
        rw [advance_headText, hk, Nat.add_assoc, loop_blocks, loop_failed _ _ k hfailed] at hsuccess
        rw [ErrorCode.failed_eq_true] at hfailed
        exact absurd hsuccess hfailed
      | short h hshort =>
        exact absurd hwithin (not_within_of_overlong ⟨f, bs, h, _, rfl, hcount, hshort⟩)

end Accepted

/-- What a message needs to be read back. -/
def Message.Readable (m : Message) : Prop := colon ∉ m.nickname ∧ m.payload ≠ []

section Readable
variable {overflow : ℤ → ℤ}

theorem Block.readable (b : Block overflow) : b.message.Readable :=
  ⟨b.noColon, b.payload_ne_nil⟩

theorem Message.Readable.length_pos {m : Message} (h : m.Readable) : 0 < m.payload.length :=
  List.length_pos_iff.mpr h.2

/-- The block that is written for a message. -/
def Message.block (overflow : ℤ → ℤ) (m : Message) (h : m.Readable)
    (hlt : m.payload.length < 2 ^ 31) : Block overflow where
  paySz := Field.ofNat overflow m.payload.length h.length_pos hlt
  nickname := m.nickname
  noColon := h.1
  payload := m.payload
  complete := (Field.value_ofNat overflow h.length_pos hlt).symm

theorem Message.block_text {m : Message} (h : m.Readable) (hlt : m.payload.length < 2 ^ 31) :
    (m.block overflow h hlt).text = m.text := by
  rw [Block.text, Header.text_append]
  rfl

theorem Message.blocks (overflow : ℤ → ℤ) {messages : List Message}
    (h : ∀ m ∈ messages, m.Readable) (hlt : ∀ m ∈ messages, m.payload.length < 2 ^ 31) :
    ∃ bs : List (Block overflow), bs.map Block.message = messages ∧
      Block.texts bs = messages.flatMap text := by
  induction messages with
  | nil => exact ⟨[], rfl, rfl⟩
  | cons m messages ih =>
    rw [List.forall_mem_cons] at h hlt
    obtain ⟨bs, hmap, htexts⟩ := ih h.2 hlt.2
    refine ⟨m.block overflow h.1 hlt.1 :: bs, ?_, ?_⟩
    · rw [List.map_cons, hmap]
      rfl
    · rw [Block.texts_cons, block_text, htexts, List.flatMap_cons]

/-- A frame of readable messages is read back. -/
theorem Parser.advance_frame {messages : List Message} (tail : Bytes) (hne : messages ≠ [])
    (hcount : messages.length < 2 ^ 31) (h : ∀ m ∈ messages, m.Readable)
    (hlt : ∀ m ∈ messages, m.payload.length < 2 ^ 31) :
    advance overflow (frame messages ++ tail) .success =
      ⟨messages, .success, .ok (frame messages).length⟩ := by
  obtain ⟨bs, hmap, htexts⟩ := Message.blocks overflow h hlt
  have hpos : 0 < messages.length := List.length_pos_iff.mpr hne
  have hlength : bs.length = (Field.ofNat overflow messages.length hpos hcount).value := by
    rw [Field.value_ofNat, ← hmap, List.length_map]
  have hread := advance_blocks tail hlength
  rw [hmap, htexts] at hread
  rw [frame, List.append_assoc]
  exact hread

/-- A frame that is read back has readable messages only, and one at least. -/
theorem Parser.readable_of_frame {messages : List Message} {tail : Bytes}
    (h : advance overflow (frame messages ++ tail) .success =
      ⟨messages, .success, .ok (frame messages).length⟩) :
    messages ≠ [] ∧ ∀ m ∈ messages, m.Readable := by
  have hsuccess : (advance overflow (frame messages ++ tail) .success).ec = .success := by rw [h]
  have hwithin : (advance overflow (frame messages ++ tail) .success).Within
      (frame messages ++ tail).length := by
    rw [h, List.length_append]
    exact ⟨_, rfl, Nat.le_add_right _ _⟩
  obtain ⟨f, bs, rest, hcount, hinput⟩ := accepted hsuccess hwithin
  rw [hinput, advance_blocks rest hcount] at h
  have hmap : bs.map Block.message = messages := congrArg Advance.messages h
  subst hmap
  constructor
  · intro hnil
    have hpos := f.value_pos
    rw [List.map_eq_nil_iff] at hnil
    rw [hnil] at hcount
    simp at hcount
    omega
  · intro m hm
    obtain ⟨b, -, rfl⟩ := List.mem_map.mp hm
    exact b.readable

end Readable

/-- Serializing and parsing: the count is right, and the messages come back, in front of any
text, if and only if they are readable and there is one. -/
theorem round_trip (overflow : ℤ → ℤ) (messages : List Message) (t : Bytes)
    (hcount : messages.length < 2 ^ 31) (hpayload : ∀ m ∈ messages, m.payload.length < 2 ^ 31) :
    ∃ out n, Serializer.advance messages [] = .ok (out, n) ∧ n = out.length ∧
      (Parser.advance overflow (out ++ t) .success = ⟨messages, .success, .ok n⟩ ↔
        messages ≠ [] ∧ ∀ m ∈ messages, colon ∉ m.nickname ∧ m.payload ≠ []) := by
  refine ⟨frame messages, (frame messages).length, ?_, rfl, ?_, ?_⟩
  · exact Serializer.advance_eq [] (by omega)
  · exact Parser.readable_of_frame
  · rintro ⟨hne, hreadable⟩
    exact Parser.advance_frame t hne hcount hreadable hpayload

/-- Two messages, one of them with a colon in its payload, read back in front of a letter. -/
theorem round_trip_two :
    ∃ out n, Serializer.advance [⟨[97, colon], [98]⟩, ⟨[99], []⟩] [] = .ok (out, n) ∧
      n = out.length ∧
      (Parser.advance id (out ++ [120]) .success =
          ⟨[⟨[97, colon], [98]⟩, ⟨[99], []⟩], .success, .ok n⟩ ↔
        [(⟨[97, colon], [98]⟩ : Message), ⟨[99], []⟩] ≠ [] ∧
          ∀ m ∈ [(⟨[97, colon], [98]⟩ : Message), ⟨[99], []⟩],
            colon ∉ m.nickname ∧ m.payload ≠ []) :=
  round_trip id [⟨[97, colon], [98]⟩, ⟨[99], []⟩] [120] (by decide) (by decide)

end BeastWebsocket.Chat
