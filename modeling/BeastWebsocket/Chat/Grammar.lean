import BeastWebsocket.Chat.Overlong

/-! # The grammar of a frame

`inv:D:` and as many blocks `message:L:nick:payload` as `D` says, where `D` and `L` are plain
numbers and each payload has the length that its block says. The parser reads every such frame.
It also takes a number with blanks or a sign before it or other bytes behind it, and a last
payload that is cut: these are the only frames on which it differs from the grammar.
-/
namespace BeastWebsocket.Chat
open Text

/-- A non-empty string of ASCII digits. -/
def IsNumber (s : Bytes) : Prop := s ≠ [] ∧ ∀ b ∈ s, isDigit b = true

/-- The number that starts a field is an `int`. -/
def FitsInt (s : Bytes) : Prop := -2 ^ 31 ≤ number s ∧ number s < 2 ^ 31

/-- The parts of a block `message:L:nick:payload`. -/
structure Entry where
  length : Bytes
  nickname : Bytes
  payload : Bytes

namespace Entry

def text (e : Entry) : Bytes :=
  Message.prefixString ++ colon :: (e.length ++ colon :: (e.nickname ++ colon :: e.payload))

def message (e : Entry) : Message := ⟨e.payload, e.nickname⟩

structure Legal (e : Entry) : Prop where
  number : IsNumber e.length
  positive : 1 ≤ digitsValue e.length
  noColon : colon ∉ e.nickname
  exact : e.payload.length = digitsValue e.length

end Entry

/-- The frame `inv:D:` with its blocks. -/
def grammarText (D : Bytes) (es : List Entry) : Bytes :=
  Inv.prefixString ++ colon :: (D ++ colon :: es.flatMap Entry.text)

structure Grammatical (D : Bytes) (es : List Entry) : Prop where
  number : IsNumber D
  positive : 1 ≤ digitsValue D
  count : es.length = digitsValue D
  legal : ∀ e ∈ es, e.Legal

/-- On this input the parser succeeds exactly for a frame of the grammar, whatever follows it,
and then reads just this frame. -/
def FollowsGrammar (overflow : ℤ → ℤ) (input : Bytes) : Prop :=
  (((Parser.advance overflow input .success).ec = .success ∧
      ∃ n, (Parser.advance overflow input .success).usedBytes = .ok n) ↔
    ∃ D es t, Grammatical D es ∧ input = grammarText D es ++ t) ∧
  ∀ D es t, Grammatical D es → input = grammarText D es ++ t →
    Parser.advance overflow input .success =
      ⟨es.map Entry.message, .success, .ok (grammarText D es).length⟩

/-- The numeric fields that the parser comes to are `int`s. -/
structure FieldsFit (overflow : ℤ → ℤ) (input : Bytes) : Prop where
  count : ∀ D rest, colon ∉ D → input = headText Inv.prefixString D ++ rest → FitsInt D
  length : ∀ (f : Field overflow) (bs : List (Block overflow)) L rest, bs.length < f.value →
    colon ∉ L → input = headText Inv.prefixString f.text ++
      (Block.texts bs ++ (headText Message.prefixString L ++ rest)) → FitsInt L

/-- A complete frame one of whose numbers is not plain: its digits stand behind blanks or a
sign, or before other bytes. -/
def Lenient (overflow : ℤ → ℤ) (input : Bytes) : Prop :=
  ∃ (f : Field overflow) (bs : List (Block overflow)) (t : Bytes),
    input = headText Inv.prefixString f.text ++ (Block.texts bs ++ t) ∧ bs.length = f.value ∧
      (¬ IsNumber f.text ∨ ∃ b ∈ bs, ¬ IsNumber b.paySz.text)

/-- A frame that ends in the payload of its last message. -/
def CutShort (overflow : ℤ → ℤ) (input : Bytes) : Prop :=
  ∃ (f : Field overflow) (bs : List (Block overflow)) (h : Header overflow) (body : Bytes),
    input = headText Inv.prefixString f.text ++ (Block.texts bs ++ (h.text ++ body)) ∧
      bs.length + 1 = f.value ∧ body.length < h.paySz.value

/-! ## Plain numbers -/

section Numbers
variable {overflow : ℤ → ℤ}

theorem digitsValue_lt_of_fits {s : Bytes} (h : IsNumber s) (hfit : FitsInt s) :
    digitsValue s < 2 ^ 31 := by
  have hlt := hfit.2
  rw [number_of_digits h.2] at hlt
  omega

theorem declared_of_number {s : Bytes} (overflow : ℤ → ℤ) (h : IsNumber s) (hfit : FitsInt s) :
    declared overflow s = digitsValue s :=
  declared_of_digits overflow h.2 (digitsValue_lt_of_fits h hfit)

/-- A plain number as a field. -/
def Field.ofNumber (overflow : ℤ → ℤ) {s : Bytes} (h : IsNumber s) (hfit : FitsInt s)
    (hpos : 1 ≤ digitsValue s) : Field overflow where
  text := s
  noColon := colon_notMem_digits h.2
  positive := by rwa [declared_of_number overflow h hfit]

theorem Field.value_ofNumber {s : Bytes} (h : IsNumber s) (hfit : FitsInt s)
    (hpos : 1 ≤ digitsValue s) : (ofNumber overflow h hfit hpos).value = digitsValue s :=
  declared_of_number overflow h hfit

/-- A legal entry whose length is an `int` is a block. -/
def Entry.block (overflow : ℤ → ℤ) (e : Entry) (h : e.Legal) (hfit : FitsInt e.length) :
    Block overflow where
  paySz := Field.ofNumber overflow h.number hfit h.positive
  nickname := e.nickname
  noColon := h.noColon
  payload := e.payload
  complete := by rw [Field.value_ofNumber, h.exact]

theorem Entry.block_text (overflow : ℤ → ℤ) {e : Entry} (h : e.Legal) (hfit : FitsInt e.length) :
    (e.block overflow h hfit).text = e.text := by
  rw [Block.text, Header.text_append, headText_append]
  rfl

/-- The parts of a block with plain numbers. -/
def Block.entry (b : Block overflow) : Entry := ⟨b.paySz.text, b.nickname, b.payload⟩

theorem Block.entry_text (b : Block overflow) : b.entry.text = b.text := by
  rw [Block.text, Header.text_append, headText_append]
  rfl

theorem Block.entry_legal {b : Block overflow} (h : IsNumber b.paySz.text)
    (hfit : FitsInt b.paySz.text) : b.entry.Legal where
  number := h
  positive := by
    have hpos := b.paySz.positive
    rwa [declared_of_number overflow h hfit] at hpos
  noColon := b.noColon
  exact := by
    have hlength := b.complete
    rwa [Field.value, declared_of_number overflow h hfit] at hlength

end Numbers

/-! ## Frames of the grammar as blocks -/

section Frames
variable {overflow : ℤ → ℤ} {input : Bytes}

theorem grammarText_append (D : Bytes) (es : List Entry) (t : Bytes) :
    grammarText D es ++ t = headText Inv.prefixString D ++ (es.flatMap Entry.text ++ t) := by
  simp [grammarText, headText_append]

/-- Legal entries that the parser comes to are blocks, whatever blocks stand before them. -/
theorem FieldsFit.blocks (hfit : FieldsFit overflow input) (f : Field overflow)
    (ds : List (Block overflow)) {es : List Entry} {t : Bytes} (hlegal : ∀ e ∈ es, e.Legal)
    (hcount : ds.length + es.length = f.value)
    (hinput : input = headText Inv.prefixString f.text ++
      (Block.texts ds ++ (es.flatMap Entry.text ++ t))) :
    ∃ bs : List (Block overflow), Block.texts bs = es.flatMap Entry.text ∧
      bs.map Block.message = es.map Entry.message ∧ bs.length = es.length ∧
      ∀ b ∈ bs, IsNumber b.paySz.text := by
  induction es generalizing ds with
  | nil => exact ⟨[], rfl, rfl, rfl, by simp⟩
  | cons e es ih =>
    rw [List.forall_mem_cons] at hlegal
    rw [List.length_cons] at hcount
    have hnumber : FitsInt e.length := by
      apply hfit.length f ds e.length (e.nickname ++ colon :: (e.payload ++
        (es.flatMap Entry.text ++ t))) (by omega) (colon_notMem_digits hlegal.1.number.2)
      rw [hinput]
      simp [Entry.text, headText]
    have hblock := Entry.block_text overflow hlegal.1 hnumber
    obtain ⟨bs, htexts, hmap, hlength, hplain⟩ :=
      ih (ds ++ [e.block overflow hlegal.1 hnumber]) hlegal.2 (by simp; omega)
        (by rw [hinput]; simp [Block.texts, hblock])
    refine ⟨e.block overflow hlegal.1 hnumber :: bs, ?_, ?_, ?_, ?_⟩
    · rw [Block.texts_cons, hblock, htexts, List.flatMap_cons]
    · rw [List.map_cons, hmap]
      rfl
    · rw [List.length_cons, hlength, List.length_cons]
    · rw [List.forall_mem_cons]
      exact ⟨hlegal.1.number, hplain⟩

/-- A frame of the grammar, with plain fields only. -/
theorem FieldsFit.frame (hfit : FieldsFit overflow input) {D : Bytes} {es : List Entry}
    {t : Bytes} (h : Grammatical D es) (hinput : input = grammarText D es ++ t) :
    ∃ (f : Field overflow) (bs : List (Block overflow)), f.text = D ∧
      Block.texts bs = es.flatMap Entry.text ∧ bs.map Block.message = es.map Entry.message ∧
      bs.length = f.value ∧ ∀ b ∈ bs, IsNumber b.paySz.text := by
  rw [grammarText_append] at hinput
  have hD := hfit.count D _ (colon_notMem_digits h.number.2) hinput
  have hvalue : (Field.ofNumber overflow h.number hD h.positive).value = es.length := by
    rw [Field.value_ofNumber, h.count]
  obtain ⟨bs, htexts, hmap, hlength, hplain⟩ :=
    hfit.blocks (Field.ofNumber overflow h.number hD h.positive) [] (t := t) h.legal
      (by simp [hvalue]) hinput
  exact ⟨Field.ofNumber overflow h.number hD h.positive, bs, rfl, htexts, hmap,
    by rw [hlength, hvalue], hplain⟩

/-- A complete frame with plain fields is one of the grammar. -/
theorem FieldsFit.grammatical (hfit : FieldsFit overflow input) {f : Field overflow}
    {bs : List (Block overflow)} {t : Bytes}
    (hinput : input = headText Inv.prefixString f.text ++ (Block.texts bs ++ t))
    (hcount : bs.length = f.value) (hf : IsNumber f.text)
    (hbs : ∀ b ∈ bs, IsNumber b.paySz.text) :
    Grammatical f.text (bs.map Block.entry) ∧
      input = grammarText f.text (bs.map Block.entry) ++ t := by
  have hvalue := declared_of_number overflow hf (hfit.count f.text _ f.noColon hinput)
  have htexts : (bs.map Block.entry).flatMap Entry.text = Block.texts bs := by
    rw [List.flatMap_map]
    simp only [Block.entry_text]
    rfl
  refine ⟨⟨hf, ?_, ?_, ?_⟩, ?_⟩
  · rw [← hvalue]
    exact f.positive
  · rw [List.length_map, hcount, ← hvalue, Field.value]
  · intro e he
    obtain ⟨b, hb, rfl⟩ := List.mem_map.mp he
    obtain ⟨before, after, rfl⟩ := List.append_of_mem hb
    apply Block.entry_legal (hbs b hb)
    apply hfit.length f before b.paySz.text (b.nickname ++ colon :: (b.payload ++
      (Block.texts after ++ t))) (by simp at hcount; omega) b.paySz.noColon
    rw [hinput]
    simp [Block.texts, Block.text, Header.text]
  · rw [grammarText_append, htexts, hinput]

/-! ## Where the parser succeeds -/

/-- The parser reads the frames of the grammar. -/
theorem FieldsFit.reads (hfit : FieldsFit overflow input) {D : Bytes} {es : List Entry}
    {t : Bytes} (h : Grammatical D es) (hinput : input = grammarText D es ++ t) :
    Parser.advance overflow input .success =
      ⟨es.map Entry.message, .success, .ok (grammarText D es).length⟩ := by
  obtain ⟨f, bs, rfl, htexts, hmap, hcount, -⟩ := hfit.frame h hinput
  have hlength : headText Inv.prefixString f.text ++ Block.texts bs = grammarText f.text es := by
    have happend := grammarText_append f.text es []
    rw [List.append_nil, List.append_nil] at happend
    rw [happend, htexts]
  rw [hinput, grammarText_append, ← htexts, Parser.advance_blocks t hcount, hmap, hlength]

/-- A success is a complete frame, or one whose last payload is cut. -/
theorem Parser.success_cases
    (hsuccess : (advance overflow input .success).ec = .success)
    (hreturns : ∃ n, (advance overflow input .success).usedBytes = .ok n) :
    (∃ (f : Field overflow) (bs : List (Block overflow)) (t : Bytes), bs.length = f.value ∧
      input = headText Inv.prefixString f.text ++ (Block.texts bs ++ t)) ∨
    CutShort overflow input := by
  rcases Inv.parse_cases overflow ⟨0⟩ input .success with hfailed | ⟨-, f, rest, rfl⟩
  · rw [advance_failed hfailed] at hsuccess
    rw [ErrorCode.failed_eq_true] at hfailed
    exact absurd hsuccess hfailed
  · obtain ⟨bs, tail, rfl, hcount | ⟨hcount, hstop⟩⟩ := split_blocks overflow f.value rest
    · exact .inl ⟨f, bs, tail, hcount, rfl⟩
    · obtain ⟨k, hk⟩ := Nat.exists_eq_add_of_lt hcount
      rw [advance_headText, hk, Nat.add_assoc, loop_blocks] at hsuccess hreturns
      cases hstop with
      | failed hfailed _ =>
        rw [loop_failed _ _ k hfailed] at hsuccess
        rw [ErrorCode.failed_eq_true] at hfailed
        exact absurd hsuccess hfailed
      | short h hshort =>
        cases k with
        | zero => exact .inr ⟨f, bs, h, _, rfl, hk.symm, hshort⟩
        | succ k =>
          obtain ⟨n, hn⟩ := hreturns
          rw [loop_short_throws h _ k hshort] at hn
          cases hn

/-- A cut payload of the last message is no failure. -/
theorem CutShort.accepted (h : CutShort overflow input) :
    (Parser.advance overflow input .success).ec = .success ∧
      ∃ n, (Parser.advance overflow input .success).usedBytes = .ok n := by
  obtain ⟨f, bs, header, body, rfl, hcount, -⟩ := h
  obtain ⟨used, hread⟩ := Parser.advance_last header body hcount
  rw [hread]
  exact ⟨rfl, used, rfl⟩

theorem CutShort.overlong (h : CutShort overflow input) : Overlong overflow input := by
  obtain ⟨f, bs, header, body, hinput, hcount, hshort⟩ := h
  exact ⟨f, bs, header, body, hinput, by omega, hshort⟩

theorem not_lenient_of_followsGrammar (hfit : FieldsFit overflow input)
    (h : FollowsGrammar overflow input) : ¬ Lenient overflow input := by
  rintro ⟨f, bs, t, hinput, hcount, hplain⟩
  have hread := Parser.advance_blocks t hcount
  rw [← hinput] at hread
  obtain ⟨D, es, u, hD, hinput'⟩ := h.1.mp (by rw [hread]; exact ⟨rfl, _, rfl⟩)
  obtain ⟨g, cs, hg, htexts, -, hcount', hplain'⟩ := hfit.frame hD hinput'
  rw [hinput, grammarText_append, ← hg, ← htexts] at hinput'
  obtain ⟨htext, hrest⟩ := headText_cancel f.noColon g.noColon hinput'
  cases Field.ext_text htext
  obtain ⟨rfl, -⟩ := Block.texts_cancel (hcount.trans hcount'.symm) hrest
  rcases hplain with hf | ⟨b, hb, hb'⟩
  · exact hf (hg ▸ hD.number)
  · exact hb' (hplain' b hb)

theorem not_cutShort_of_followsGrammar (h : FollowsGrammar overflow input) :
    ¬ CutShort overflow input := by
  intro hcut
  obtain ⟨D, es, t, hD, hinput⟩ := h.1.mp hcut.accepted
  have hread := h.2 D es t hD hinput
  have hwithin : (Parser.advance overflow input .success).Within input.length := by
    rw [hread, hinput, List.length_append]
    exact ⟨_, rfl, Nat.le_add_right _ _⟩
  exact Parser.not_within_of_overlong hcut.overlong hwithin

end Frames

/-- On inputs whose numeric fields are `int`s the parser follows the grammar, but for complete
frames with a number that is not plain and frames that end in their last payload. -/
theorem parser_follows_grammar (overflow : ℤ → ℤ) (input : Bytes)
    (hfit : FieldsFit overflow input) :
    FollowsGrammar overflow input ↔ ¬ Lenient overflow input ∧ ¬ CutShort overflow input := by
  constructor
  · intro h
    exact ⟨not_lenient_of_followsGrammar hfit h, not_cutShort_of_followsGrammar h⟩
  · rintro ⟨hplain, hwhole⟩
    refine ⟨⟨?_, ?_⟩, fun D es t h hinput => hfit.reads h hinput⟩
    · rintro ⟨hsuccess, hreturns⟩
      rcases Parser.success_cases hsuccess hreturns with ⟨f, bs, t, hcount, hinput⟩ | hcut
      · have hf : IsNumber f.text := by
          by_contra hf
          exact hplain ⟨f, bs, t, hinput, hcount, .inl hf⟩
        have hbs : ∀ b ∈ bs, IsNumber b.paySz.text := by
          intro b hb
          by_contra hb'
          exact hplain ⟨f, bs, t, hinput, hcount, .inr ⟨b, hb, hb'⟩⟩
        obtain ⟨hD, hinput'⟩ := hfit.grammatical hinput hcount hf hbs
        exact ⟨_, _, t, hD, hinput'⟩
      · exact absurd hcut hwhole
    · rintro ⟨D, es, t, h, hinput⟩
      rw [hfit.reads h hinput]
      exact ⟨rfl, _, rfl⟩

/-- The parser comes to two numbers of a frame that declares one message. -/
theorem FieldsFit.single {overflow : ℤ → ℤ} {D L : Bytes} (rest : Bytes) (hD : colon ∉ D)
    (hL : colon ∉ L) (hcount : declared overflow D = 1) (hD' : FitsInt D) (hL' : FitsInt L) :
    FieldsFit overflow (headText Inv.prefixString D ++ (headText Message.prefixString L ++ rest))
    where
  count := by
    intro D₁ rest₁ hD₁ hinput
    obtain ⟨rfl, -⟩ := headText_cancel hD hD₁ hinput
    exact hD'
  length := by
    intro f bs L₁ rest₁ hshort hL₁ hinput
    obtain ⟨hf, hrest⟩ := headText_cancel hD f.noColon hinput
    rw [Field.value, ← hf, hcount, Nat.lt_one_iff, List.length_eq_zero_iff] at hshort
    subst hshort
    obtain ⟨rfl, -⟩ := headText_cancel hL hL₁ hrest
    exact hL'

/-- The frame `inv:1:message:L:a:bc`. -/
def pairFrame (L : Bytes) : Bytes :=
  headText Inv.prefixString [49] ++ (headText Message.prefixString L ++ [97, colon, 98, 99])

theorem parser_follows_grammar_pair :
    FollowsGrammar id (pairFrame [50]) ↔
      ¬ Lenient id (pairFrame [50]) ∧ ¬ CutShort id (pairFrame [50]) :=
  parser_follows_grammar id (pairFrame [50])
    (FieldsFit.single [97, colon, 98, 99] (by decide) (by decide) (by decide)
      (by unfold FitsInt; decide) (by unfold FitsInt; decide))

/-- The frames `inv:1:message:2x:a:bc` and `inv:1:message:9:a:bc` are read as messages. -/
theorem lenient_and_cut_frames :
    FieldsFit id (pairFrame [50, 120]) ∧ ¬ FollowsGrammar id (pairFrame [50, 120]) ∧
      FieldsFit id (pairFrame [57]) ∧ ¬ FollowsGrammar id (pairFrame [57]) := by
  have hlenient : Lenient id (pairFrame [50, 120]) := by
    refine ⟨⟨[49], by decide, by decide⟩,
      [⟨⟨⟨[50, 120], by decide, by decide⟩, [97], by decide⟩, [98, 99], by decide⟩], [], by decide,
      by decide, .inr ⟨_, List.mem_singleton_self _, ?_⟩⟩
    intro hnumber
    exact absurd (hnumber.2 120 (by simp)) (by decide)
  have hcut : CutShort id (pairFrame [57]) :=
    ⟨⟨[49], by decide, by decide⟩, [], ⟨⟨[57], by decide, by decide⟩, [97], by decide⟩, [98, 99],
      by decide, by decide, by decide⟩
  have hfit : FieldsFit id (pairFrame [50, 120]) :=
    .single _ (by decide) (by decide) (by decide) (by unfold FitsInt; decide)
      (by unfold FitsInt; decide)
  have hfit' : FieldsFit id (pairFrame [57]) :=
    .single _ (by decide) (by decide) (by decide) (by unfold FitsInt; decide)
      (by unfold FitsInt; decide)
  refine ⟨hfit, ?_, hfit', ?_⟩
  · intro h
    exact not_lenient_of_followsGrammar hfit h hlenient
  · intro h
    exact not_cutShort_of_followsGrammar h hcut

end BeastWebsocket.Chat
