import Mathlib.Algebra.Ring.Int.Defs
import Mathlib.Algebra.Ring.Nat
import Mathlib.Data.List.TakeWhile

/-! # Fields of a text

A field ends at the first delimiter. A numeric field is written in ASCII digits by `decimal`,
and read by `atoi` as the C library does: white space, one sign at most, and the digits that
follow, up to any other byte.
-/
namespace Text

def isDigit (b : UInt8) : Bool := 48 ≤ b.toNat && b.toNat ≤ 57

/-- The white space of the C locale. -/
def isSpace (b : UInt8) : Bool := b.toNat == 32 || (9 ≤ b.toNat && b.toNat ≤ 13)

def isSign (b : UInt8) : Bool := b.toNat == 43 || b.toNat == 45

def decimal (n : ℕ) : List UInt8 := (Nat.toDigits 10 n).map Char.toUInt8

/-- The value of a string of digits. -/
def digitsValue (s : List UInt8) : ℕ := s.foldl (fun n b => 10 * n + (b.toNat - 48)) 0

def unsigned (s : List UInt8) : ℕ := digitsValue (s.takeWhile isDigit)

def signed : List UInt8 → ℤ
  | [] => 0
  | b :: s =>
      if b.toNat = 45 then -(unsigned s : ℤ)
      else if b.toNat = 43 then unsigned s
      else unsigned (b :: s)

/-- The number that starts a string, whatever its size. -/
def number (s : List UInt8) : ℤ := signed (s.dropWhile isSpace)

/-- `atoi`, where `overflow` is what it does to a number that no `int` holds. -/
def atoi (overflow : ℤ → ℤ) (s : List UInt8) : ℤ :=
  if -2 ^ 31 ≤ number s ∧ number s < 2 ^ 31 then number s else overflow (number s)

/-! ## Digits -/

theorem toNat_digit {c : Char} (h : c.isDigit = true) : c.toUInt8.toNat = c.toNat := by
  have hle : c.toNat ≤ 57 := by
    simp only [Char.isDigit, Bool.and_eq_true, decide_eq_true_eq] at h
    exact h.2
  simp only [Char.toUInt8, UInt32.toNat_toUInt8]
  exact Nat.mod_eq_of_lt (by change c.toNat < 256; omega)

theorem isDigit_toUInt8 {c : Char} (h : c.isDigit = true) : isDigit c.toUInt8 = true := by
  have hc := toNat_digit h
  simp only [Char.isDigit, Bool.and_eq_true, decide_eq_true_eq] at h
  simp only [isDigit, hc, Bool.and_eq_true, decide_eq_true_eq]
  exact h

theorem isDigit_decimal {n : ℕ} {b : UInt8} (h : b ∈ decimal n) : isDigit b = true := by
  obtain ⟨c, hc, rfl⟩ := List.mem_map.mp h
  exact isDigit_toUInt8 (Nat.isDigit_of_mem_toDigits (by omega) (by omega) hc)

theorem isSpace_of_isDigit {b : UInt8} (h : isDigit b = true) : isSpace b = false := by
  simp only [isDigit, isSpace, Bool.and_eq_true, decide_eq_true_eq] at *
  simp
  omega

theorem foldl_digits {l : List Char} (h : ∀ c ∈ l, c.isDigit = true) (n : ℕ) :
    (l.map Char.toUInt8).foldl (fun n b => 10 * n + (b.toNat - 48)) n =
      Nat.ofDigitChars 10 l n := by
  induction l generalizing n with
  | nil => rfl
  | cons c l ih =>
    rw [List.map_cons, List.foldl_cons, Nat.ofDigitChars_cons, toNat_digit (h c (by simp))]
    exact ih (fun c hc => h c (by simp [hc])) _

/-- The value of the digits that `decimal` writes. -/
theorem digitsValue_decimal (n : ℕ) : digitsValue (decimal n) = n := by
  have hdigits : ∀ c ∈ Nat.toDigits 10 n, c.isDigit = true := fun c hc =>
    Nat.isDigit_of_mem_toDigits (by omega) (by omega) hc
  rw [digitsValue, decimal, foldl_digits hdigits, Nat.ofDigitChars_ten_toDigits]

/-! ## Reading back what was written -/

theorem takeWhile_all {p : UInt8 → Bool} {s : List UInt8} (h : ∀ b ∈ s, p b = true) :
    s.takeWhile p = s := List.takeWhile_eq_self_iff.mpr h

theorem number_of_digits {s : List UInt8} (h : ∀ b ∈ s, isDigit b = true) :
    number s = digitsValue s := by
  cases s with
  | nil => rfl
  | cons b s =>
    have hb := h b (by simp)
    have hspace := isSpace_of_isDigit hb
    have hall := takeWhile_all h
    simp only [isDigit, Bool.and_eq_true, decide_eq_true_eq] at hb
    have hminus : b.toNat ≠ 45 := by omega
    have hplus : b.toNat ≠ 43 := by omega
    simp [number, signed, hspace, unsigned, hall, hminus, hplus]

/-- A plain number is read for its value where an `int` holds it. -/
theorem atoi_of_digits {s : List UInt8} (overflow : ℤ → ℤ) (h : ∀ b ∈ s, isDigit b = true)
    (hlt : digitsValue s < 2 ^ 31) : atoi overflow s = digitsValue s := by
  rw [atoi, number_of_digits h, if_pos]
  omega

theorem atoi_decimal {n : ℕ} (overflow : ℤ → ℤ) (h : n < 2 ^ 31) :
    atoi overflow (decimal n) = n := by
  have hlt : digitsValue (decimal n) < 2 ^ 31 := by rwa [digitsValue_decimal]
  rw [atoi_of_digits overflow (fun b hb => isDigit_decimal hb) hlt, digitsValue_decimal]

/-! ## A byte that ends the number -/

section Terminator
variable {c : UInt8} (hdigit : isDigit c = false) (hspace : isSpace c = false)
  (hsign : isSign c = false)
include hdigit

theorem takeWhile_append_stop (s t : List UInt8) :
    (s ++ c :: t).takeWhile isDigit = s.takeWhile isDigit := by
  induction s with
  | nil => simp [hdigit]
  | cons b s ih =>
    rw [List.cons_append, List.takeWhile_cons, List.takeWhile_cons, ih]

include hsign

theorem signed_append_stop (s t : List UInt8) : signed (s ++ c :: t) = signed s := by
  cases s with
  | nil =>
    have hminus : c.toNat ≠ 45 := by
      intro h
      simp [isSign, h] at hsign
    have hplus : c.toNat ≠ 43 := by
      intro h
      simp [isSign, h] at hsign
    simp [signed, unsigned, hdigit, hminus, hplus, digitsValue]
  | cons b s =>
    have hrest := takeWhile_append_stop hdigit s t
    have hwhole := takeWhile_append_stop hdigit (b :: s) t
    rw [List.cons_append] at hwhole
    simp only [List.cons_append, signed, unsigned, hrest, hwhole]

include hspace

theorem number_append_stop (s t : List UInt8) : number (s ++ c :: t) = number s := by
  have hdrop : (s ++ c :: t).dropWhile isSpace = s.dropWhile isSpace ++ c :: t := by
    induction s with
    | nil => simp [hspace]
    | cons b s ih =>
      rw [List.cons_append, List.dropWhile_cons, List.dropWhile_cons, ih]
      split_ifs
      · rfl
      · rfl
  rw [number, hdrop, signed_append_stop hdigit hsign, number]

/-- `atoi` does not look behind a byte that is no part of a number. -/
theorem atoi_append_stop (overflow : ℤ → ℤ) (s t : List UInt8) :
    atoi overflow (s ++ c :: t) = atoi overflow s := by
  simp only [atoi, number_append_stop hdigit hspace hsign]

end Terminator

/-! ## The first delimiter -/

section Delimiter
variable {α : Type*} [DecidableEq α] {c : α}

theorem idxOf?_append_cons {f : List α} (t : List α) (h : c ∉ f) :
    (f ++ c :: t).idxOf? c = some f.length := by
  induction f with
  | nil => simp [List.idxOf?_cons]
  | cons b f ih =>
    rw [List.mem_cons, not_or] at h
    rw [List.cons_append, List.idxOf?_cons, ih h.2]
    simp [Ne.symm h.1]

/-- The first delimiter cuts a text in two. -/
theorem cut_of_idxOf? {s : List α} {i : ℕ} (h : s.idxOf? c = some i) :
    ∃ f t, s = f ++ c :: t ∧ c ∉ f ∧ f.length = i := by
  have hmem : c ∈ s := by
    by_contra hc
    rw [List.idxOf?_eq_none_iff.mpr hc] at h
    cases h
  obtain ⟨f, t, rfl, hf⟩ := List.eq_append_cons_of_mem hmem
  rw [idxOf?_append_cons t hf, Option.some.injEq] at h
  exact ⟨f, t, rfl, hf, h⟩

theorem cut_unique {f f' t t' : List α} (h : c ∉ f) (h' : c ∉ f')
    (heq : f ++ c :: t = f' ++ c :: t') : f = f' ∧ t = t' := by
  have hlen : f.length = f'.length := by
    have hfind := idxOf?_append_cons t h
    rw [heq, idxOf?_append_cons t' h'] at hfind
    exact (Option.some.inj hfind).symm
  obtain ⟨hf, ht⟩ := List.append_inj heq hlen
  exact ⟨hf, (List.cons.inj ht).2⟩

end Delimiter
end Text
