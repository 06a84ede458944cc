import BeastWebsocket.Chat.Message

/-! # The chat codec

`Parser` walks a frame by offset: it asks for the rest of the input behind the bytes that it
counts as used. `Serializer` appends a frame to a string.
-/
namespace BeastWebsocket.Chat
open Text

inductive Exception
  | outOfRange
  | runtimeError (what : String)
deriving DecidableEq

/-- `std::string::substr` with a position only. -/
def substr (s : Bytes) (pos : ℕ) : Except Exception Bytes :=
  if s.length < pos then .error .outOfRange else .ok (s.drop pos)

/-- What `Parser::advance` leaves: the stored messages, the error, and the number it returns
unless it throws. -/
structure Advance where
  messages : List Message
  ec : ErrorCode
  usedBytes : Except Exception ℕ
deriving DecidableEq

/-- `advance` returns normally and has not gone beyond its input. -/
def Advance.Within (result : Advance) (n : ℕ) : Prop :=
  ∃ used, result.usedBytes = .ok used ∧ used ≤ n

/-- `advance` returns, and without an error. -/
def Advance.valid (result : Advance) : Bool :=
  match result.usedBytes with
  | .error _ => false
  | .ok _ => !result.ec.failed

/-- The messages that a caller takes who drops them on an error. -/
def Advance.accepted (result : Advance) : List Message :=
  if result.valid then result.messages else []

namespace Parser

/-- The `while` loop of `advance`, by the number of messages that are still missing. -/
def loop (overflow : ℤ → ℤ) (input : Bytes) : ℕ → List Message → ErrorCode → ℕ → Advance
  | 0, messages, ec, usedBytes => ⟨messages, ec, .ok usedBytes⟩
  | missing + 1, messages, ec, usedBytes =>
    match substr input usedBytes with
    | .error e => ⟨messages, ec, .error e⟩
    | .ok rest =>
      let m := Message.parse overflow {} rest
      if m.ec.failed then ⟨messages, m.ec, .ok (usedBytes + m.readBytes)⟩
      else loop overflow input missing (messages ++ [m.self]) m.ec (usedBytes + m.readBytes)

/-- `count_entry_` starts unset, and is read only where `Inv::parse` has set it. -/
def advance (overflow : ℤ → ℤ) (input : Bytes) (ec : ErrorCode) : Advance :=
  let i := Inv.parse overflow ⟨0⟩ input ec
  if i.ec.failed then ⟨[], i.ec, .ok i.readBytes⟩
  else loop overflow input i.self.countEntry [] i.ec i.readBytes

end Parser

namespace Serializer

/-- One message of the `for` loop. -/
def append (out : Bytes × ℕ) (m : Message) : Bytes × ℕ :=
  let written := m.serialize out.1
  (written.1, out.2 + written.2)

def advance (messages : List Message) (out : Bytes) : Except Exception (Bytes × ℕ) :=
  if 2 ^ 32 - 1 ≤ messages.length then .error (.runtimeError "messages.size() >= UINT32_MAX")
  else
    let i : Inv := ⟨uint32 messages.length⟩
    .ok (messages.foldl append (i.serialize out))

end Serializer

/-! ## The loop of the parser -/

namespace Parser
section Loop
variable {overflow : ℤ → ℤ} {messages : List Message} {ec : ErrorCode}

/-- In the loop, `done` is read and `rest` is not. -/
theorem loop_step (done rest : Bytes) (missing : ℕ) :
    loop overflow (done ++ rest) (missing + 1) messages ec done.length =
      let m := Message.parse overflow {} rest
      if m.ec.failed then ⟨messages, m.ec, .ok (done.length + m.readBytes)⟩
      else loop overflow (done ++ rest) missing (messages ++ [m.self]) m.ec
        (done.length + m.readBytes) := by
  have hrest : substr (done ++ rest) done.length = .ok rest := by
    rw [substr, if_neg (by simp), List.drop_left]
  rw [loop, hrest]

/-- A loop that has counted more than there is stays beyond the input. -/
theorem loop_overrun {input : Bytes} {used : ℕ} (missing : ℕ) (h : input.length < used) :
    ¬ (loop overflow input missing messages ec used).Within input.length := by
  rintro ⟨n, hn, hle⟩
  cases missing with
  | zero =>
    rw [loop] at hn
    cases hn
    omega
  | succ missing =>
    rw [loop, substr, if_pos h] at hn
    cases hn

/-- The loop reads complete messages, whatever follows them. -/
theorem loop_blocks (bs : List (Block overflow)) (done tail : Bytes) (missing : ℕ) :
    loop overflow (done ++ (Block.texts bs ++ tail)) (bs.length + missing) messages .success
        done.length =
      loop overflow (done ++ Block.texts bs ++ tail) missing (messages ++ bs.map Block.message)
        .success (done ++ Block.texts bs).length := by
  induction bs generalizing done messages with
  | nil => simp
  | cons b bs ih =>
    have hinput : done ++ (Block.texts (b :: bs) ++ tail) =
        done ++ b.text ++ (Block.texts bs ++ tail) := by
      simp
    have hfirst : loop overflow (done ++ (b.text ++ (Block.texts bs ++ tail)))
          (bs.length + missing + 1) messages .success done.length =
        loop overflow (done ++ b.text ++ (Block.texts bs ++ tail)) (bs.length + missing)
          (messages ++ [b.message]) .success (done ++ b.text).length := by
      rw [loop_step, Message.parse_block, List.append_assoc, List.length_append]
      rfl
    rw [List.length_cons, Nat.add_right_comm, Block.texts_cons, List.append_assoc, hfirst, ih]
    simp

theorem loop_failed (done tail : Bytes) (missing : ℕ)
    (hfailed : (Message.parse overflow {} tail).ec.failed = true) :
    loop overflow (done ++ tail) (missing + 1) messages ec done.length =
      ⟨messages, (Message.parse overflow {} tail).ec,
        .ok (done.length + (Message.parse overflow {} tail).readBytes)⟩ := by
  rw [loop_step]
  simp only [hfailed, if_true]

/-- Behind a payload that was cut the loop finds no further message, but throws. -/
theorem loop_short_throws (h : Header overflow) (done : Bytes) {body : Bytes} (missing : ℕ)
    (hshort : body.length < h.paySz.value) :
    (loop overflow (done ++ (h.text ++ body)) (missing + 2) messages ec done.length).usedBytes =
      .error .outOfRange := by
  rw [loop_step, Message.parse_header]
  simp [loop, substr, hshort]

theorem loop_short (h : Header overflow) (done : Bytes) {body : Bytes} (missing : ℕ)
    (hshort : body.length < h.paySz.value) :
    ¬ (loop overflow (done ++ (h.text ++ body)) (missing + 1) messages ec done.length).Within
      (done ++ (h.text ++ body)).length := by
  rw [loop_step, Message.parse_header]
  apply loop_overrun
  simp
  omega

end Loop

variable {overflow : ℤ → ℤ}

/-- With an error on entry, or where there is no head, the loop does not run. -/
theorem advance_failed {input : Bytes} {ec : ErrorCode}
    (h : (Inv.parse overflow ⟨0⟩ input ec).ec.failed = true) :
    advance overflow input ec =
      ⟨[], (Inv.parse overflow ⟨0⟩ input ec).ec,
        .ok (Inv.parse overflow ⟨0⟩ input ec).readBytes⟩ := by
  rw [advance]
  simp only [h, if_true]

/-- Where there is a head, the loop runs over what follows it. -/
theorem advance_headText (f : Field overflow) (rest : Bytes) :
    advance overflow (headText Inv.prefixString f.text ++ rest) .success =
      loop overflow (headText Inv.prefixString f.text ++ rest) f.value [] .success
        (headText Inv.prefixString f.text).length := by
  rw [advance, Inv.parse_headText]
  rfl

/-- A frame with all the messages that its head declares is read. -/
theorem advance_blocks {f : Field overflow} {bs : List (Block overflow)} (tail : Bytes)
    (hcount : bs.length = f.value) :
    advance overflow (headText Inv.prefixString f.text ++ (Block.texts bs ++ tail)) .success =
      ⟨bs.map Block.message, .success,
        .ok (headText Inv.prefixString f.text ++ Block.texts bs).length⟩ := by
  rw [advance_headText, ← hcount]
  exact loop_blocks bs _ tail 0

/-- The last message that a head declares is read whether or not its payload is complete. -/
theorem advance_last {f : Field overflow} {bs : List (Block overflow)} (h : Header overflow)
    (body : Bytes) (hcount : bs.length + 1 = f.value) :
    ∃ used, advance overflow
        (headText Inv.prefixString f.text ++ (Block.texts bs ++ (h.text ++ body))) .success =
      ⟨bs.map Block.message ++ [h.read body], .success, .ok used⟩ := by
  rw [advance_headText, ← hcount, loop_blocks, loop_step, Message.parse_header]
  exact ⟨_, rfl⟩

end Parser

/-! ## The frame that is written -/

/-- What `Serializer::advance` appends. -/
def frame (messages : List Message) : Bytes :=
  headText Inv.prefixString (decimal messages.length) ++ messages.flatMap Message.text

namespace Serializer

theorem foldl_append (messages : List Message) (out : Bytes × ℕ) :
    messages.foldl append out =
      (out.1 ++ messages.flatMap Message.text,
        out.2 + (messages.flatMap Message.text).length) := by
  induction messages generalizing out with
  | nil => simp
  | cons m messages ih =>
    rw [List.foldl_cons, ih, append, Message.serialize_eq]
    simp [Nat.add_assoc]

theorem advance_eq {messages : List Message} (out : Bytes) (h : messages.length < 2 ^ 32 - 1) :
    advance messages out = .ok (out ++ frame messages, (frame messages).length) := by
  have hcount : uint32 messages.length = messages.length := by
    rw [uint32]
    omega
  rw [advance, if_neg (by omega), hcount]
  simp [foldl_append, Inv.serialize_eq, frame]

end Serializer
end BeastWebsocket.Chat
