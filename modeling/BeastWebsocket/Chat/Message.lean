import BeastWebsocket.Session.Record
import BeastWebsocket.Text.Field

/-! # The records of the chat protocol

A frame is `inv:count:` followed by its messages, a message is
`message:length:nickname:payload`. Both `parse` functions read their prefix and their
number alike. The argument `overflow` is what `atoi` does to a number that no `int` holds.
-/
namespace BeastWebsocket.Chat
open Text

/-- The character `:`. -/
def colon : Byte := 58

/-- The conversion to `uint32_t`. -/
def uint32 (v : ℤ) : ℕ := (v % 2 ^ 32).toNat

/-- The number that a field declares. -/
def declared (overflow : ℤ → ℤ) (field : Bytes) : ℕ := uint32 (atoi overflow field)

/-- The outcome of a `parse` function: the object it is called on, its error and the number
of bytes it has read. -/
structure Parsed (α : Type) where
  self : α
  ec : ErrorCode
  readBytes : ℕ

/-- A prefix and a number, each with the colon behind it, and what follows them. -/
structure Head where
  number : ℕ
  readBytes : ℕ
  rest : Bytes

/-- What `Message::parse` and `Inv::parse` do up to their number. -/
def parseHead (overflow : ℤ → ℤ) (prefixString input : Bytes) : Except (ErrorCode × ℕ) Head :=
  let prefixLength := prefixString.length
  if input.length < prefixLength + 1 then .error (.badMessage, 0)
  else if input.take prefixLength ≠ prefixString then .error (.invalidArgument, 0)
  else if input[prefixLength]? ≠ some colon then .error (.badMessage, prefixLength)
  else
    let copyIn := input.drop (prefixLength + 1)
    match copyIn.idxOf? colon with
    | none => .error (.badMessage, prefixLength + 1)
    | some posEndLength =>
      -- `atoi` is handed the whole of `copyIn`
      let number := uint32 (atoi overflow copyIn)
      if number = 0 then .error (.invalidArgument, prefixLength + 1)
      else .ok ⟨number, prefixLength + 1 + (posEndLength + 1), copyIn.drop (posEndLength + 1)⟩

structure Message where
  payload : Bytes := []
  nickname : Bytes := []
deriving DecidableEq

namespace Message

def prefixString : Bytes := ['m', 'e', 's', 's', 'a', 'g', 'e'].map Char.toUInt8

/-- Appends to `out`, and counts the bytes it appends. -/
def serialize (m : Message) (out : Bytes) : Bytes × ℕ :=
  (out ++ prefixString ++ [colon] ++ decimal m.payload.length ++ [colon] ++ m.nickname ++
    [colon] ++ m.payload,
   prefixString.length + 1 + (decimal m.payload.length).length + 1 + m.nickname.length + 1 +
    m.payload.length)

/-- The error on entry does not matter, every exit sets it. -/
def parse (overflow : ℤ → ℤ) (self : Message) (input : Bytes) : Parsed Message :=
  match parseHead overflow prefixString input with
  | .error (ec, readBytes) => ⟨self, ec, readBytes⟩
  | .ok head =>
    match head.rest.idxOf? colon with
    | none => ⟨self, .badMessage, head.readBytes⟩
    | some posEndNickname =>
      let copyIn := head.rest.drop (posEndNickname + 1)
      ⟨⟨copyIn.take head.number, head.rest.take posEndNickname⟩, .success,
        head.readBytes + (posEndNickname + 1) + head.number⟩

end Message

structure Inv where
  countEntry : ℕ
deriving DecidableEq

namespace Inv

def prefixString : Bytes := ['i', 'n', 'v'].map Char.toUInt8

def serialize (i : Inv) (out : Bytes) : Bytes × ℕ :=
  (out ++ prefixString ++ [colon] ++ decimal i.countEntry ++ [colon],
   prefixString.length + 1 + (decimal i.countEntry).length + 1)

/-- On success the error stays what it was on entry. -/
def parse (overflow : ℤ → ℤ) (self : Inv) (input : Bytes) (ec : ErrorCode) : Parsed Inv :=
  match parseHead overflow prefixString input with
  | .error (ec, readBytes) => ⟨self, ec, readBytes⟩
  | .ok head => ⟨⟨head.number⟩, ec, head.readBytes⟩

end Inv

/-! ## Numeric fields -/

/-- The colon ends the number that `atoi` reads. -/
theorem atoi_field (overflow : ℤ → ℤ) (field rest : Bytes) :
    uint32 (atoi overflow (field ++ colon :: rest)) = declared overflow field := by
  rw [declared, atoi_append_stop rfl rfl rfl]

theorem declared_of_digits {field : Bytes} (overflow : ℤ → ℤ)
    (h : ∀ b ∈ field, isDigit b = true) (hlt : digitsValue field < 2 ^ 31) :
    declared overflow field = digitsValue field := by
  rw [declared, atoi_of_digits overflow h hlt, uint32]
  omega

theorem declared_decimal {n : ℕ} (overflow : ℤ → ℤ) (h : n < 2 ^ 31) :
    declared overflow (decimal n) = n := by
  rw [declared, atoi_decimal overflow h, uint32]
  omega

theorem colon_notMem_digits {field : Bytes} (h : ∀ b ∈ field, isDigit b = true) :
    colon ∉ field := by
  intro hcolon
  have hdigit := h colon hcolon
  cases hdigit

theorem colon_notMem_decimal (n : ℕ) : colon ∉ decimal n :=
  colon_notMem_digits fun _ hb => isDigit_decimal hb

/-- The text of a number that the `parse` functions accept. -/
structure Field (overflow : ℤ → ℤ) where
  text : Bytes
  noColon : colon ∉ text
  positive : 0 < declared overflow text

namespace Field

/-- The number that a field declares. -/
def value {overflow : ℤ → ℤ} (f : Field overflow) : ℕ := declared overflow f.text

def ofNat (overflow : ℤ → ℤ) (n : ℕ) (hpos : 0 < n) (h : n < 2 ^ 31) : Field overflow where
  text := decimal n
  noColon := colon_notMem_decimal n
  positive := by rwa [declared_decimal overflow h]

theorem value_ofNat (overflow : ℤ → ℤ) {n : ℕ} (hpos : 0 < n) (h : n < 2 ^ 31) :
    (ofNat overflow n hpos h).value = n := declared_decimal overflow h

theorem value_pos {overflow : ℤ → ℤ} (f : Field overflow) : 0 < f.value := f.positive

theorem ext_text {overflow : ℤ → ℤ} {f g : Field overflow} (h : f.text = g.text) : f = g := by
  cases f
  cases g
  cases h
  rfl

end Field

/-! ## The head -/

section Head
variable {overflow : ℤ → ℤ} {p : Bytes}

/-- A prefix with its colon, and a field with its colon. -/
def headText (prefixString field : Bytes) : Bytes :=
  prefixString ++ colon :: (field ++ [colon])

theorem length_headText (p field : Bytes) :
    (headText p field).length = p.length + 1 + (field.length + 1) := by
  simp [headText]
  omega

theorem headText_append (p field rest : Bytes) :
    headText p field ++ rest = p ++ colon :: (field ++ colon :: rest) := by
  simp [headText]

/-- A text has one head at most. -/
theorem headText_cancel {f g rest rest' : Bytes} (hf : colon ∉ f) (hg : colon ∉ g)
    (h : headText p f ++ rest = headText p g ++ rest') : f = g ∧ rest = rest' := by
  rw [headText_append, headText_append] at h
  have hfield := (List.cons.inj (List.append_cancel_left h)).2
  exact cut_unique hf hg hfield

theorem drop_field (field rest : Bytes) :
    (field ++ colon :: rest).drop (field.length + 1) = rest := by
  rw [List.drop_append]
  simp

theorem parseHead_headText (p : Bytes) (f : Field overflow) (rest : Bytes) :
    parseHead overflow p (headText p f.text ++ rest) =
      .ok ⟨f.value, (headText p f.text).length, rest⟩ := by
  have hpos := f.positive
  rw [headText_append, parseHead]
  simp only [drop_field, idxOf?_append_cons rest f.noColon, atoi_field, length_headText]
  rw [if_neg (by simp), if_neg (by simp), if_neg (by simp), if_neg (by omega), Field.value]

/-- The input starts with a head, or `parseHead` fails and has read no more than there is. -/
theorem parseHead_cases (overflow : ℤ → ℤ) (p input : Bytes) :
    (∃ ec n, parseHead overflow p input = .error (ec, n) ∧ ec.failed = true ∧
        n ≤ input.length) ∨
      ∃ (f : Field overflow) (rest : Bytes), input = headText p f.text ++ rest := by
  by_cases hlen : input.length < p.length + 1
  · exact .inl ⟨.badMessage, 0, by simp [parseHead, hlen], rfl, Nat.zero_le _⟩
  by_cases hstart : input.take p.length = p
  swap
  · exact .inl ⟨.invalidArgument, 0, by simp [parseHead, hlen, hstart], rfl, Nat.zero_le _⟩
  by_cases hcolon : input[p.length]? = some colon
  swap
  · exact .inl ⟨.badMessage, p.length, by simp [parseHead, hlen, hstart, hcolon], rfl, by omega⟩
  have hinput : input = p ++ colon :: input.drop (p.length + 1) := by
    obtain ⟨hlt, hget⟩ := List.getElem?_eq_some_iff.mp hcolon
    calc input = input.take p.length ++ input.drop p.length := (List.take_append_drop _ _).symm
      _ = p ++ colon :: input.drop (p.length + 1) := by
        rw [hstart, List.drop_eq_getElem_cons hlt, hget]
  cases hfind : (input.drop (p.length + 1)).idxOf? colon with
  | none =>
    exact .inl ⟨.badMessage, p.length + 1, by simp [parseHead, hlen, hstart, hcolon, hfind], rfl,
      by omega⟩
  | some i =>
    obtain ⟨field, rest, hcut, hfield, rfl⟩ := cut_of_idxOf? hfind
    by_cases hzero : declared overflow field = 0
    · have hnumber : uint32 (atoi overflow (input.drop (p.length + 1))) = 0 := by
        rw [hcut, atoi_field, hzero]
      exact .inl ⟨.invalidArgument, p.length + 1,
        by simp [parseHead, hlen, hstart, hcolon, hfind, hnumber], rfl, by omega⟩
    · refine .inr ⟨⟨field, hfield, by omega⟩, rest, ?_⟩
      rw [headText_append, ← hcut]
      exact hinput

end Head

/-! ## `Inv` -/

section Inv
variable {overflow : ℤ → ℤ}

theorem Inv.parse_headText (self : Inv) (f : Field overflow) (rest : Bytes) (ec : ErrorCode) :
    Inv.parse overflow self (headText Inv.prefixString f.text ++ rest) ec =
      ⟨⟨f.value⟩, ec, (headText Inv.prefixString f.text).length⟩ := by
  rw [Inv.parse, parseHead_headText]

theorem Inv.parse_readBytes_le (overflow : ℤ → ℤ) (self : Inv) (input : Bytes)
    (ec : ErrorCode) : (Inv.parse overflow self input ec).readBytes ≤ input.length := by
  rcases parseHead_cases overflow Inv.prefixString input with
    ⟨e, n, herror, -, hread⟩ | ⟨f, rest, rfl⟩
  · rw [Inv.parse, herror]
    exact hread
  · rw [Inv.parse_headText, List.length_append]
    exact Nat.le_add_right _ _

/-- An error on entry is there on return, and without one `Inv::parse` fails or reads a head. -/
theorem Inv.parse_cases (overflow : ℤ → ℤ) (self : Inv) (input : Bytes) (ec : ErrorCode) :
    (Inv.parse overflow self input ec).ec.failed = true ∨
      ec = .success ∧ ∃ (f : Field overflow) (rest : Bytes),
        input = headText Inv.prefixString f.text ++ rest := by
  rcases parseHead_cases overflow Inv.prefixString input with
    ⟨e, n, herror, hfailed, -⟩ | ⟨f, rest, rfl⟩
  · left
    rw [Inv.parse, herror]
    exact hfailed
  · by_cases hec : ec = .success
    · exact .inr ⟨hec, f, rest, rfl⟩
    · left
      rw [Inv.parse_headText, ErrorCode.failed_eq_true]
      exact hec

theorem Inv.serialize_eq (i : Inv) (out : Bytes) :
    i.serialize out = (out ++ headText Inv.prefixString (decimal i.countEntry),
      (headText Inv.prefixString (decimal i.countEntry)).length) := by
  simp [Inv.serialize, headText]
  omega

end Inv

/-! ## `Message` -/

/-- What stands before the payload of a message. -/
structure Header (overflow : ℤ → ℤ) where
  paySz : Field overflow
  nickname : Bytes
  noColon : colon ∉ nickname

namespace Header
variable {overflow : ℤ → ℤ}

def text (h : Header overflow) : Bytes :=
  headText Message.prefixString h.paySz.text ++ (h.nickname ++ [colon])

/-- The message that is read behind a header. -/
def read (h : Header overflow) (body : Bytes) : Message := ⟨body.take h.paySz.value, h.nickname⟩

theorem text_append (h : Header overflow) (body : Bytes) :
    h.text ++ body =
      headText Message.prefixString h.paySz.text ++ (h.nickname ++ colon :: body) := by
  simp [text]

/-- A text has one header at most. -/
theorem text_cancel {g h : Header overflow} {body body' : Bytes}
    (heq : g.text ++ body = h.text ++ body') : g = h ∧ body = body' := by
  rw [text_append, text_append] at heq
  obtain ⟨hlength, hrest⟩ := headText_cancel g.paySz.noColon h.paySz.noColon heq
  obtain ⟨hnickname, hbody⟩ := cut_unique g.noColon h.noColon hrest
  cases g
  cases h
  cases Field.ext_text hlength
  cases hnickname
  exact ⟨rfl, hbody⟩

end Header

section Message
variable {overflow : ℤ → ℤ}

/-- The payload is cut where the input ends, and counted as declared all the same. -/
theorem Message.parse_header (self : Message) (h : Header overflow) (body : Bytes) :
    Message.parse overflow self (h.text ++ body) =
      ⟨h.read body, .success, h.text.length + h.paySz.value⟩ := by
  rw [Header.text_append, Message.parse, parseHead_headText]
  simp only [idxOf?_append_cons body h.noColon, drop_field, Header.read, Header.text]
  simp

/-- `Message::parse` fails or reads a header. -/
theorem Message.parse_cases (overflow : ℤ → ℤ) (self : Message) (input : Bytes) :
    (Message.parse overflow self input).ec.failed = true ∧
        (Message.parse overflow self input).readBytes ≤ input.length ∨
      ∃ (h : Header overflow) (body : Bytes), input = h.text ++ body := by
  rcases parseHead_cases overflow Message.prefixString input with
    ⟨e, n, herror, hfailed, hread⟩ | ⟨f, rest, rfl⟩
  · left
    rw [Message.parse, herror]
    exact ⟨hfailed, hread⟩
  · cases hfind : rest.idxOf? colon with
    | none =>
      left
      rw [Message.parse, parseHead_headText]
      simp [hfind]
    | some i =>
      right
      obtain ⟨nickname, body, rfl, hnickname, -⟩ := cut_of_idxOf? hfind
      refine ⟨⟨f, nickname, hnickname⟩, body, ?_⟩
      rw [Header.text_append]

/-- What `serialize` appends. -/
def Message.text (m : Message) : Bytes :=
  headText prefixString (decimal m.payload.length) ++ (m.nickname ++ colon :: m.payload)

theorem Message.serialize_eq (m : Message) (out : Bytes) :
    m.serialize out = (out ++ m.text, m.text.length) := by
  simp [serialize, text, headText]
  omega

end Message

/-! ## Complete messages -/

/-- A message with the payload that it declares. -/
structure Block (overflow : ℤ → ℤ) extends Header overflow where
  payload : Bytes
  complete : payload.length = paySz.value

namespace Block
variable {overflow : ℤ → ℤ}

def text (b : Block overflow) : Bytes := b.toHeader.text ++ b.payload

def message (b : Block overflow) : Message := ⟨b.payload, b.nickname⟩

/-- The text of several messages, one behind the other. -/
def texts (bs : List (Block overflow)) : Bytes := bs.flatMap text

@[simp] theorem texts_nil : texts ([] : List (Block overflow)) = [] := rfl

@[simp] theorem texts_cons (b : Block overflow) (bs : List (Block overflow)) :
    texts (b :: bs) = b.text ++ texts bs := rfl

theorem payload_ne_nil (b : Block overflow) : b.payload ≠ [] := by
  intro h
  have hpos := b.paySz.value_pos
  rw [← b.complete, h] at hpos
  cases hpos

/-- A text starts with a number of complete messages in one way at most. -/
theorem texts_cancel {bs cs : List (Block overflow)} {s t : Bytes}
    (hlength : bs.length = cs.length) (h : texts bs ++ s = texts cs ++ t) : bs = cs ∧ s = t := by
  induction bs generalizing cs with
  | nil =>
    obtain rfl := List.length_eq_zero_iff.mp hlength.symm
    exact ⟨rfl, h⟩
  | cons b bs ih =>
    cases cs with
    | nil => cases hlength
    | cons c cs =>
      simp only [texts_cons, text, List.append_assoc] at h
      obtain ⟨hheader, hbody⟩ := Header.text_cancel h
      have hpayload : b.payload.length = c.payload.length := by
        rw [b.complete, c.complete, hheader]
      obtain ⟨heq, hrest⟩ := List.append_inj hbody hpayload
      obtain ⟨rfl, hs⟩ := ih (Nat.succ.inj hlength) hrest
      cases b
      cases c
      cases hheader
      cases heq
      exact ⟨rfl, hs⟩

end Block

section Blocks
variable {overflow : ℤ → ℤ}

theorem Message.parse_block (self : Message) (b : Block overflow) (rest : Bytes) :
    Message.parse overflow self (b.text ++ rest) = ⟨b.message, .success, b.text.length⟩ := by
  have hread : b.toHeader.read (b.payload ++ rest) = b.message := by
    rw [Header.read, ← b.complete, List.take_left, Block.message]
  rw [Block.text, List.append_assoc, Message.parse_header, hread, ← b.complete,
    List.length_append]

/-- A text at which no complete message starts. -/
inductive Stop (overflow : ℤ → ℤ) : Bytes → Prop
  | failed {s : Bytes} (hfailed : (Message.parse overflow {} s).ec.failed = true)
      (hread : (Message.parse overflow {} s).readBytes ≤ s.length) : Stop overflow s
  | short (h : Header overflow) {body : Bytes} (hshort : body.length < h.paySz.value) :
      Stop overflow (h.text ++ body)

theorem block_or_stop (overflow : ℤ → ℤ) (s : Bytes) :
    (∃ (b : Block overflow) (rest : Bytes), s = b.text ++ rest) ∨ Stop overflow s := by
  rcases Message.parse_cases overflow {} s with ⟨hfailed, hread⟩ | ⟨h, body, rfl⟩
  · exact .inr (.failed hfailed hread)
  · by_cases hshort : body.length < h.paySz.value
    · exact .inr (.short h hshort)
    · have hcomplete : (body.take h.paySz.value).length = h.paySz.value :=
        List.length_take_of_le (by omega)
      refine .inl ⟨⟨h, body.take h.paySz.value, hcomplete⟩, body.drop h.paySz.value, ?_⟩
      rw [Block.text, List.append_assoc, List.take_append_drop]

/-- A text starts with `n` complete messages, or with fewer and then stops. -/
theorem split_blocks (overflow : ℤ → ℤ) (n : ℕ) (s : Bytes) :
    ∃ (bs : List (Block overflow)) (tail : Bytes), s = Block.texts bs ++ tail ∧
      (bs.length = n ∨ bs.length < n ∧ Stop overflow tail) := by
  induction n generalizing s with
  | zero => exact ⟨[], s, rfl, .inl rfl⟩
  | succ n ih =>
    rcases block_or_stop overflow s with ⟨b, rest, rfl⟩ | hstop
    · obtain ⟨bs, tail, rfl, hend⟩ := ih rest
      refine ⟨b :: bs, tail, by simp, ?_⟩
      rw [List.length_cons]
      rcases hend with hlength | ⟨hlength, hstop⟩
      · exact .inl (by omega)
      · exact .inr ⟨by omega, hstop⟩
    · exact ⟨[], s, rfl, .inr ⟨Nat.succ_pos n, hstop⟩⟩

end Blocks
end BeastWebsocket.Chat
