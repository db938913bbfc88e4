import Mathlib.Tactic.Common
import Mathlib.Data.Rat.Lemmas

/-! # Integers as decimal text

Texts are lists of characters.  `formatInt` and `parseInt` are the decimal notation
of an integer and its reading, and `joinInts` and `splitInts` do the same for records
of integers between separators.  Reading what was written gives the integers back
(`parseInt_formatInt`, `splitInts_joinInts`).

`NumberText` is a notation for rational numbers, of which only this is known: every number
can be read back, and the bar that separates two numbers occurs in none.
-/
namespace Resilience

/-- Texts. -/
abbrev Text := List Char

/-- The decimal notation of an integer. -/
def formatInt : Int → Text
  | .ofNat n => Nat.toDigits 10 n
  | .negSucc n => '-' :: Nat.toDigits 10 (n + 1)

/-- A non-empty row of digits. -/
def parseNat (s : Text) : Option Nat :=
  if s ≠ [] ∧ s.all Char.isDigit = true then some (Nat.ofDigitChars 10 s 0) else none

/-- An optional sign and a non-empty row of digits. -/
def parseInt : Text → Option Int
  | '-' :: s => (parseNat s).map fun n => -(n : Int)
  | '+' :: s => (parseNat s).map Int.ofNat
  | s => (parseNat s).map Int.ofNat

theorem parseNat_toDigits (n : Nat) : parseNat (Nat.toDigits 10 n) = some n := by
  have hdigits : (Nat.toDigits 10 n).all Char.isDigit = true :=
    List.all_eq_true.mpr fun c hc => Nat.isDigit_of_mem_toDigits (by decide) (by decide) hc
  rw [parseNat, if_pos ⟨Nat.toDigits_ne_nil, hdigits⟩, Nat.ofDigitChars_ten_toDigits]

variable {c : Char}

/-- A text that begins with a digit has no sign. -/
theorem parseInt_of_isDigit (h : c.isDigit = true) (s : Text) :
    parseInt (c :: s) = (parseNat (c :: s)).map Int.ofNat := by
  unfold parseInt
  split
  · rename_i heq; cases heq; cases h
  · rename_i heq; cases heq; cases h
  · rfl

/-- **Reading a number that was written** gives the number. -/
theorem parseInt_formatInt (v : Int) : parseInt (formatInt v) = some v := by
  cases v with
  | ofNat n =>
    have hd : ∀ c ∈ Nat.toDigits 10 n, c.isDigit = true :=
      fun c hc => Nat.isDigit_of_mem_toDigits (by decide) (by decide) hc
    have hparse := parseNat_toDigits n
    show parseInt (Nat.toDigits 10 n) = _
    obtain ⟨c, s, hs⟩ := List.exists_cons_of_ne_nil (Nat.toDigits_ne_nil (n := n) (b := 10))
    rw [hs] at hd hparse ⊢
    rw [parseInt_of_isDigit (hd c List.mem_cons_self), hparse]
    rfl
  | negSucc n =>
    rw [formatInt, parseInt, parseNat_toDigits]
    rfl

theorem notMem_toDigits (hdigit : c.isDigit = false) (n : Nat) : c ∉ Nat.toDigits 10 n := by
  intro hc
  rw [Nat.isDigit_of_mem_toDigits (by decide) (by decide) hc] at hdigit
  cases hdigit

theorem formatInt_ne_nil (v : Int) : formatInt v ≠ [] := by
  intro h
  have hparse := parseInt_formatInt v
  rw [h] at hparse
  cases hparse

/-- Every character of a written number is a digit or the minus sign. -/
theorem notMem_formatInt (hdigit : c.isDigit = false) (hminus : c ≠ '-') (v : Int) :
    c ∉ formatInt v := by
  cases v with
  | ofNat n => exact notMem_toDigits hdigit n
  | negSucc n =>
    intro hc
    rcases List.mem_cons.mp hc with h | h
    · exact hminus h
    · exact notMem_toDigits hdigit _ h

/-- What occurs in neither of two texts and is not the separator does not occur in the
two with the separator between them. -/
theorem notMem_append_sep {c sep : Char} {a b : Text} (ha : c ∉ a) (hsep : c ≠ sep) (hb : c ∉ b) :
    c ∉ a ++ sep :: b := by
  intro hc
  rcases List.mem_append.mp hc with hc | hc
  · exact ha hc
  · rcases List.mem_cons.mp hc with hc | hc
    · exact hsep hc
    · exact hb hc

/-- A text cut at the last separator has one reading. -/
theorem append_sep_inj {sep : Char} {a b c d : Text} (hb : sep ∉ b) (hd : sep ∉ d)
    (h : a ++ sep :: b = c ++ sep :: d) : a = c ∧ b = d := by
  rcases List.append_eq_append_iff.mp h with ⟨_ | ⟨x, xs⟩, hc, hrest⟩ | ⟨_ | ⟨x, xs⟩, ha, hrest⟩
  · rw [List.nil_append, List.cons.injEq] at hrest
    exact ⟨by simpa using hc.symm, hrest.2⟩
  · rw [List.cons_append, List.cons.injEq] at hrest
    exact absurd (hrest.2 ▸ List.mem_append_right _ List.mem_cons_self) hb
  · rw [List.nil_append, List.cons.injEq] at hrest
    exact ⟨by simpa using ha, hrest.2.symm⟩
  · rw [List.cons_append, List.cons.injEq] at hrest
    exact absurd (hrest.2 ▸ List.mem_append_right _ List.mem_cons_self) hd

/-- Numbers written one after the other, with a separator between them. -/
def joinInts (sep : Char) (vs : List Int) : Text := [sep].intercalate (vs.map formatInt)

/-- The parts between the separators, each read as a number. -/
def splitInts (sep : Char) (s : Text) : List (Option Int) := (s.splitOn sep).map parseInt

/-- **Reading a record that was written** gives its numbers, for every separator that
is neither a digit nor the minus sign. -/
theorem splitInts_joinInts {sep : Char} (hdigit : sep.isDigit = false) (hminus : sep ≠ '-')
    {vs : List Int} (hne : vs ≠ []) : splitInts sep (joinInts sep vs) = vs.map some := by
  have hparts : ∀ part ∈ vs.map formatInt, sep ∉ part := by
    intro part hpart
    obtain ⟨v, -, rfl⟩ := List.mem_map.mp hpart
    exact notMem_formatInt hdigit hminus v
  rw [splitInts, joinInts, List.splitOn_intercalate sep hparts (by simpa using hne),
    List.map_map]
  exact List.map_congr_left fun v _ => parseInt_formatInt v

/-! ## Rational numbers -/

/-- A notation for rational numbers. -/
structure NumberText where
  format : ℚ → Text
  parse : Text → Option ℚ
  parse_format : ∀ x, parse (format x) = some x
  notMem_format : ∀ x, '|' ∉ format x

/-- Numerator and denominator, with a slash between them. -/
def formatFraction (x : ℚ) : Text := formatInt x.num ++ '/' :: formatInt x.den

/-- Two integers with a slash between them. -/
def parseFraction (s : Text) : Option ℚ :=
  match parseInt (s.takeWhile (· ≠ '/')), parseInt ((s.dropWhile (· ≠ '/')).tail) with
  | some n, some d => some (n / d)
  | _, _ => none

theorem parseFraction_formatFraction (x : ℚ) : parseFraction (formatFraction x) = some x := by
  have hnum : ∀ c ∈ formatInt x.num, (decide (c ≠ '/')) = true := by
    intro c hc
    refine decide_eq_true fun h => ?_
    subst h
    exact notMem_formatInt (by decide) (by decide) _ hc
  have htake : (formatFraction x).takeWhile (· ≠ '/') = formatInt x.num := by
    rw [formatFraction, List.takeWhile_append_of_pos hnum]
    simp
  have hdrop : ((formatFraction x).dropWhile (· ≠ '/')).tail = formatInt x.den := by
    rw [formatFraction, List.dropWhile_append_of_pos hnum]
    rfl
  rw [parseFraction, htake, hdrop, parseInt_formatInt, parseInt_formatInt]
  show some ((x.num : ℚ) / ((x.den : Int) : ℚ)) = some x
  rw [Int.cast_natCast, Rat.num_div_den]

theorem notMem_formatFraction (x : ℚ) : '|' ∉ formatFraction x :=
  notMem_append_sep (notMem_formatInt (by decide) (by decide) _) (by decide)
    (notMem_formatInt (by decide) (by decide) _)

/-- Numbers as fractions. -/
def fractionText : NumberText where
  format := formatFraction
  parse := parseFraction
  parse_format := parseFraction_formatFraction
  notMem_format := notMem_formatFraction

end Resilience
