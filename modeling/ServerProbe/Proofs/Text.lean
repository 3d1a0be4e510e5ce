/-
Text that was put together is taken apart as it was.

A separator that occurs in none of several pieces divides their text into just these pieces,
whether it stands before each of them (`splitOn_led`) or after each of them
(`splitOn_closed`). A cut divides a text at the first separator or at the last, which are those
with none before or behind them (`cutFirst?_eq_some_iff`, `cutLast?_eq_some_iff`). Numbers are
written without blanks, so they are words, nothing is trimmed off them, and they are read as
the numbers that were written. Zeros may stand before the digits of a number that has no sign
(`IsNumeral`).
-/
import Mathlib.Data.List.TakeWhile
import ServerProbe.Text.Blank
import ServerProbe.Text.Cut
import ServerProbe.Text.Numeral

set_option autoImplicit false

namespace ServerProbe.Text

/-! ## Pieces -/

section Pieces

variable {sep : Char} {pieces : List (List Char)}

/-- Pieces with a separator before each but the first. -/
theorem splitOn_led {first : List Char} (hfirst : sep ∉ first) (h : ∀ p ∈ pieces, sep ∉ p) :
    (first ++ pieces.flatMap (sep :: ·)).splitOn sep = first :: pieces := by
  induction pieces generalizing first with
  | nil => rw [List.flatMap_nil, List.append_nil, List.splitOn_eq_singleton hfirst]
  | cons p rest ih =>
    rw [List.flatMap_cons, List.cons_append, List.splitOn_append_cons_self_of_not_mem hfirst,
      ih (h p List.mem_cons_self) fun q hq => h q (List.mem_cons_of_mem p hq)]

/-- Pieces with a separator after each. What is left after the last one is empty. -/
theorem splitOn_closed (h : ∀ p ∈ pieces, sep ∉ p) :
    (pieces.flatMap (· ++ [sep])).splitOn sep = pieces ++ [[]] := by
  induction pieces with
  | nil => rfl
  | cons p rest ih =>
    rw [List.flatMap_cons, List.append_assoc, List.singleton_append,
      List.splitOn_append_cons_self_of_not_mem (h p List.mem_cons_self),
      ih fun q hq => h q (List.mem_cons_of_mem p hq), List.cons_append]

end Pieces

/-- The last separator is the one behind which there is none. -/
theorem cutLast?_append {sep : Char} {before after : List Char} (h : sep ∉ after) :
    cutLast? sep (before ++ sep :: after) = some (before, after) := by
  have hreverse : (before ++ sep :: after).reverse = after.reverse ++ sep :: before.reverse := by
    simp
  rw [cutLast?, hreverse, cutFirst?_append fun hmem => h (List.mem_reverse.mp hmem)]
  simp

/-! ## Cuts -/

section Cuts

variable {sep : Char} {cs before after : List Char}

/-- A text is cut at the first separator if there is none before it. -/
theorem cutFirst?_eq_some_iff :
    cutFirst? sep cs = some (before, after) ↔ cs = before ++ sep :: after ∧ sep ∉ before := by
  constructor
  · intro h
    have hmem : sep ∈ cs := by
      by_contra hnone
      rw [cutFirst?_eq_none_iff.mpr hnone] at h
      cases h
    obtain ⟨first, rest, rfl, hfirst⟩ := List.eq_append_cons_of_mem hmem
    rw [cutFirst?_append hfirst] at h
    obtain ⟨rfl, rfl⟩ := Prod.mk.inj (Option.some.inj h)
    exact ⟨rfl, hfirst⟩
  · rintro ⟨rfl, hbefore⟩
    exact cutFirst?_append hbefore

theorem cutLast?_eq_none_iff : cutLast? sep cs = none ↔ sep ∉ cs := by
  rw [← List.mem_reverse, ← cutFirst?_eq_none_iff, cutLast?]
  rcases cutFirst? sep cs.reverse with _ | ⟨before, after⟩
  · exact Iff.rfl
  · simp

/-- A text is cut at the last separator if there is none behind it. -/
theorem cutLast?_eq_some_iff :
    cutLast? sep cs = some (before, after) ↔ cs = before ++ sep :: after ∧ sep ∉ after := by
  constructor
  · intro h
    rw [cutLast?] at h
    rcases hcut : cutFirst? sep cs.reverse with _ | ⟨behind, front⟩
    · rw [hcut] at h
      cases h
    · rw [hcut] at h
      obtain ⟨rfl, rfl⟩ := Prod.mk.inj (Option.some.inj h)
      obtain ⟨hreverse, hbehind⟩ := cutFirst?_eq_some_iff.mp hcut
      refine ⟨?_, fun hmem => hbehind (List.mem_reverse.mp hmem)⟩
      rw [← cs.reverse_reverse, hreverse, List.reverse_append, List.reverse_cons,
        List.append_assoc, List.singleton_append]
  · rintro ⟨rfl, hafter⟩
    exact cutLast?_append hafter

theorem stripHead?_eq_some_iff {c : Char} {rest : List Char} :
    stripHead? c cs = some rest ↔ cs = c :: rest := by
  rcases cs with _ | ⟨d, others⟩
  · simp [stripHead?]
  · by_cases hd : d = c
    · simp [stripHead?, hd]
    · simp [stripHead?, hd]

theorem stripHead?_eq_none_iff {c : Char} : stripHead? c cs = none ↔ cs.head? ≠ some c := by
  rcases cs with _ | ⟨d, others⟩
  · simp [stripHead?]
  · by_cases hd : d = c
    · simp [stripHead?, hd]
    · simp [stripHead?, hd]

end Cuts

/-! ## Blanks -/

section Blanks

variable {cs : List Char}

theorem trim_of_no_blank (h : ∀ c ∈ cs, isBlank c = false) : trim cs = cs := by
  have hkept : ∀ ds : List Char, (∀ c ∈ ds, isBlank c = false) → ds.dropWhile isBlank = ds := by
    rintro (_ | ⟨d, ds⟩) hds
    · rfl
    · exact List.dropWhile_cons_of_neg (by simp [hds d])
  rw [trim, dropEndWhile, hkept cs h, hkept _ fun c hc => h c (List.mem_reverse.mp hc),
    List.reverse_reverse]

/-- A text with a character that is not blank is not trimmed to nothing. -/
theorem trim_ne_nil {c : Char} (hmem : c ∈ cs) (h : isBlank c = false) : trim cs ≠ [] := by
  intro htrim
  have hall : ∀ d ∈ cs.dropWhile isBlank, isBlank d = true := fun d hd =>
    List.dropWhile_eq_nil_iff.mp (List.reverse_eq_nil_iff.mp htrim) d (List.mem_reverse.mpr hd)
  -- what is left in front starts with a character that is not blank
  have hnone : cs.dropWhile isBlank = [] := by
    by_contra hne
    have hhead := List.head_dropWhile_not (p := isBlank) (l := cs) hne
    rw [hall _ (List.head_mem hne)] at hhead
    cases hhead
  rw [List.dropWhile_eq_nil_iff.mp hnone c hmem] at h
  cases h

/-- A word ends at the next blank. -/
theorem words_append_blank {blank : Char} {rest : List Char} (hne : cs ≠ [])
    (h : ∀ c ∈ cs, isBlank c = false) (hblank : isBlank blank = true) :
    words (cs ++ blank :: rest) = cs :: words rest := by
  rw [words, List.splitOnP_append_cons_of_forall_mem h blank hblank, List.filter_cons_of_pos, words]
  simpa using hne

end Blanks

/-! ## Numbers -/

/-- What a word may be written as in decimal: digits, with leading zeros or without, for a
value that a word can have. -/
structure IsNumeral (cs : List Char) : Prop where
  nonempty : cs ≠ []
  digits : ∀ c ∈ cs, c.isDigit = true
  fits : Nat.ofDigitChars 10 cs 0 < UInt32.size

/-- The word that a numeral stands for. -/
def numeralValue (cs : List Char) : UInt32 := UInt32.ofNat (Nat.ofDigitChars 10 cs 0)

theorem isBlank_of_visible {c : Char} (hlow : 0x21 ≤ c.toNat) (hhigh : c.toNat < 0x7F) :
    isBlank c = false := by
  unfold isBlank
  simp only [Bool.or_eq_false_iff, Bool.and_eq_false_iff, decide_eq_false_iff_not,
    beq_eq_false_iff_ne]
  omega

theorem isBlank_of_isDigit {c : Char} (h : c.isDigit = true) : isBlank c = false := by
  simp only [Char.isDigit, Bool.and_eq_true, decide_eq_true_eq] at h
  have hlow : 48 ≤ c.toNat := UInt32.le_iff_toNat_le.mp h.1
  have hhigh : c.toNat ≤ 57 := UInt32.le_iff_toNat_le.mp h.2
  exact isBlank_of_visible (by omega) (by omega)

/-- Digits that stand for a number, perhaps behind a plus sign. Zeros may stand before them. -/
inductive Denotes : List Char → Nat → Prop where
  | digits {cs : List Char} : cs ≠ [] → (∀ c ∈ cs, c.isDigit = true) →
      Denotes cs (Nat.ofDigitChars 10 cs 0)
  | signed {cs : List Char} : cs ≠ [] → (∀ c ∈ cs, c.isDigit = true) →
      Denotes ('+' :: cs) (Nat.ofDigitChars 10 cs 0)

theorem digits?_of_digits {cs : List Char} (hne : cs ≠ []) (h : ∀ c ∈ cs, c.isDigit = true) :
    digits? cs = some (Nat.ofDigitChars 10 cs 0) := by
  rw [digits?, if_pos]
  simpa [hne] using h

theorem digits?_eq_some_iff {cs : List Char} {n : Nat} :
    digits? cs = some n ↔
      cs ≠ [] ∧ (∀ c ∈ cs, c.isDigit = true) ∧ n = Nat.ofDigitChars 10 cs 0 := by
  constructor
  · intro h
    unfold digits? at h
    split at h
    · next hdigits =>
      rw [Bool.and_eq_true, Bool.not_eq_true', List.isEmpty_eq_false_iff, List.all_eq_true]
        at hdigits
      exact ⟨hdigits.1, hdigits.2, (Option.some.inj h).symm⟩
    · cases h
  · rintro ⟨hne, hdigits, rfl⟩
    exact digits?_of_digits hne hdigits

/-- What starts with a digit has no sign. -/
theorem natBelow?_of_digits {cs : List Char} (bound : Nat) (h : ∀ c ∈ cs, c.isDigit = true) :
    natBelow? bound cs = (digits? cs).filter (· < bound) := by
  unfold natBelow?
  split
  · exact absurd (h '+' List.mem_cons_self) (by decide)
  · rfl

/-- **A number is read from what denotes it,** if it is below the bound. -/
theorem natBelow?_eq_some_iff {bound n : Nat} {cs : List Char} :
    natBelow? bound cs = some n ↔ Denotes cs n ∧ n < bound := by
  have hfilter : ∀ value : Option Nat,
      value.filter (· < bound) = some n ↔ value = some n ∧ n < bound := by
    intro value
    rw [Option.filter_eq_some_iff, decide_eq_true_iff]
  constructor
  · intro h
    unfold natBelow? at h
    obtain ⟨hvalue, hbound⟩ := (hfilter _).mp h
    refine ⟨?_, hbound⟩
    split at hvalue
    · obtain ⟨hne, hdigits, rfl⟩ := digits?_eq_some_iff.mp hvalue
      exact .signed hne hdigits
    · obtain ⟨hne, hdigits, rfl⟩ := digits?_eq_some_iff.mp hvalue
      exact .digits hne hdigits
  · rintro ⟨hdenotes, hbound⟩
    cases hdenotes with
    | digits hne hdigits =>
      rw [natBelow?_of_digits bound hdigits]
      exact (hfilter _).mpr ⟨digits?_of_digits hne hdigits, hbound⟩
    | signed hne hdigits => exact (hfilter _).mpr ⟨digits?_of_digits hne hdigits, hbound⟩

/-- A short word is read from what denotes its value. -/
theorem uint16?_eq_some_iff {cs : List Char} {n : UInt16} :
    uint16? cs = some n ↔ Denotes cs n.toNat := by
  rw [uint16?, Option.map_eq_some_iff]
  constructor
  · rintro ⟨value, hvalue, rfl⟩
    obtain ⟨hdenotes, hbound⟩ := natBelow?_eq_some_iff.mp hvalue
    rwa [UInt16.toNat_ofNat_of_lt' hbound]
  · intro h
    exact ⟨n.toNat, natBelow?_eq_some_iff.mpr ⟨h, n.toNat_lt⟩, UInt16.ofNat_toNat⟩

namespace IsNumeral

variable {cs : List Char}

theorem not_blank (h : IsNumeral cs) : ∀ c ∈ cs, isBlank c = false :=
  fun c hc => isBlank_of_isDigit (h.digits c hc)

/-- **A numeral is read as the word that it stands for.** -/
theorem uint32?_eq (h : IsNumeral cs) : uint32? cs = some (numeralValue cs) := by
  rw [uint32?, natBelow?_of_digits _ h.digits, digits?_of_digits h.nonempty h.digits,
    Option.filter_some, if_pos (by simpa using h.fits)]
  rfl

end IsNumeral

theorem decimal_ne_nil (n : Nat) : decimal n ≠ [] := Nat.toDigits_ne_nil

theorem isDigit_of_mem_decimal {n : Nat} {c : Char} (h : c ∈ decimal n) : c.isDigit = true :=
  Nat.isDigit_of_mem_toDigits (by decide) (by decide) h

/-- A number denotes itself as it is written. -/
theorem denotes_decimal (n : Nat) : Denotes (decimal n) n := by
  have h := Denotes.digits (decimal_ne_nil n) fun _ => isDigit_of_mem_decimal
  rwa [decimal, Nat.ofDigitChars_toDigits (by decide) (by decide), ← decimal] at h

/-- A word is written as a numeral. -/
theorem isNumeral_decimal (n : UInt32) : IsNumeral (decimal n.toNat) where
  nonempty := decimal_ne_nil _
  digits := fun _ => isDigit_of_mem_decimal
  fits := by
    rw [decimal, Nat.ofDigitChars_toDigits (by decide) (by decide)]
    exact n.toNat_lt

/-- **A word is read as it was written.** -/
theorem uint32?_decimal (n : UInt32) : uint32? (decimal n.toNat) = some n := by
  rw [(isNumeral_decimal n).uint32?_eq, numeralValue, decimal,
    Nat.ofDigitChars_toDigits (by decide) (by decide), UInt32.ofNat_toNat]

theorem intDecimal_ne_nil (i : Int) : intDecimal i ≠ [] := by
  unfold intDecimal
  split
  · exact List.cons_ne_nil _ _
  · exact decimal_ne_nil _

/-- An integer is written in digits, behind a minus sign or not. -/
theorem mem_intDecimal {i : Int} {c : Char} (h : c ∈ intDecimal i) :
    c = '-' ∨ c.isDigit = true := by
  unfold intDecimal at h
  split at h
  · rcases List.mem_cons.mp h with rfl | h
    · exact .inl rfl
    · exact .inr (isDigit_of_mem_decimal h)
  · exact .inr (isDigit_of_mem_decimal h)

theorem not_blank_intDecimal {i : Int} {c : Char} (h : c ∈ intDecimal i) : isBlank c = false := by
  rcases mem_intDecimal h with rfl | hdigit
  · decide
  · exact isBlank_of_isDigit hdigit

/-- An integer is read as it was written, if it is within the bounds. -/
theorem intWithin?_intDecimal {bound : Nat} {i : Int} (hlow : -Int.ofNat bound ≤ i)
    (hhigh : i < Int.ofNat bound) : intWithin? bound (intDecimal i) = some i := by
  have hfilter : (some i).filter (fun v => -Int.ofNat bound ≤ v && v < Int.ofNat bound)
      = some i := by
    simpa using ⟨hlow, hhigh⟩
  unfold intWithin? intDecimal
  by_cases hnegative : i < 0
  · rw [if_pos hnegative]
    have hvalue : -Int.ofNat i.natAbs = i := by
      show -(i.natAbs : Int) = i
      omega
    show ((digits? (decimal i.natAbs)).map fun n => -Int.ofNat n).filter _ = some i
    rw [digits?_decimal, Option.map_some, hvalue]
    exact hfilter
  · rw [if_neg hnegative]
    -- what starts with a digit has no sign
    split
    · next rest heq =>
      have hsign : ('+' : Char) ∈ decimal i.natAbs := heq ▸ List.mem_cons_self
      exact absurd (isDigit_of_mem_decimal hsign) (by decide)
    · next rest heq =>
      have hsign : ('-' : Char) ∈ decimal i.natAbs := heq ▸ List.mem_cons_self
      exact absurd (isDigit_of_mem_decimal hsign) (by decide)
    · rw [digits?_decimal, Option.map_some]
      have hvalue : Int.ofNat i.natAbs = i := by
        show (i.natAbs : Int) = i
        omega
      rw [hvalue]
      exact hfilter

/-- **A signed word is read as it was written.** -/
theorem int32?_intDecimal (i : Int32) : int32? (intDecimal i.toInt) = some i := by
  have hlow := i.le_toInt
  have hhigh := i.toInt_lt
  rw [int32?, intWithin?_intDecimal (by simpa using hlow) (by simpa using hhigh), Option.map_some,
    Int32.ofInt_toInt]

end ServerProbe.Text
