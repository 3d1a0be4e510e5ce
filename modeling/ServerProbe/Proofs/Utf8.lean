/-
Text that was written is read as it was.

The octets of a character are a lead octet and as many further ones as it owes, and the
decoder keeps nothing between characters. So it reads the octets of one character as that
character, whatever it has read before (`foldl_step_encodeChar`), and by induction it reads
the octets of a text as that text (`decode_encode`). The octet of an ASCII character is in no
other character (`ascii_mem_encodeChar`). So a text without the character U+0000 can be ended
by a zero octet (`zero_mem_encode`).
-/
import Mathlib.Data.List.Basic
import ServerProbe.Text.Utf8

set_option autoImplicit false

namespace ServerProbe.Text.Utf8

theorem toNat_octet {n : Nat} (h : n < 0x100) : (UInt8.ofNat n).toNat = n :=
  UInt8.toNat_ofNat_of_lt' h

theorem octet_lt {n : Nat} (h : n < 0x100) (b : UInt8) : UInt8.ofNat n < b ↔ n < b.toNat := by
  rw [UInt8.lt_iff_toNat_lt, toNat_octet h]

theorem octet_eq {n : Nat} (h : n < 0x100) (b : UInt8) : UInt8.ofNat n = b ↔ n = b.toNat := by
  rw [← UInt8.toNat_inj, toNat_octet h]

/-! ## Lead octets -/

/-- The role of an octet, by its value. -/
theorem lead_octet {n : Nat} (h : n < 0x100) :
    lead (UInt8.ofNat n)
      = if n < 0x80 then .whole (Char.ofNat n)
        else if n < 0xC2 then .stray
        else if n < 0xE0 then .begins ⟨n % 0x20, 0, 0x80, 0xBF⟩
        else if n < 0xF0 then
          .begins ⟨n % 0x10, 1, if n = 0xE0 then 0xA0 else 0x80, if n = 0xED then 0x9F else 0xBF⟩
        else if n < 0xF5 then
          .begins ⟨n % 0x08, 2, if n = 0xF0 then 0x90 else 0x80, if n = 0xF4 then 0x8F else 0xBF⟩
        else .stray := by
  simp only [lead, octet_lt h, octet_eq h, toNat_octet h, UInt8.reduceToNat]

theorem lead_one {n : Nat} (h : n < 0x80) : lead (UInt8.ofNat n) = .whole (Char.ofNat n) := by
  rw [lead_octet (by omega), if_pos h]

theorem lead_two {n : Nat} (hlow : 0xC2 ≤ n) (hhigh : n < 0xE0) :
    lead (UInt8.ofNat n) = .begins ⟨n % 0x20, 0, 0x80, 0xBF⟩ := by
  rw [lead_octet (by omega), if_neg (by omega), if_neg (by omega), if_pos hhigh]

theorem lead_three {n : Nat} (hlow : 0xE0 ≤ n) (hhigh : n < 0xF0) :
    lead (UInt8.ofNat n) = .begins ⟨n % 0x10, 1, if n = 0xE0 then 0xA0 else 0x80,
      if n = 0xED then 0x9F else 0xBF⟩ := by
  rw [lead_octet (by omega), if_neg (by omega), if_neg (by omega), if_neg (by omega),
    if_pos hhigh]

theorem lead_four {n : Nat} (hlow : 0xF0 ≤ n) (hhigh : n < 0xF5) :
    lead (UInt8.ofNat n) = .begins ⟨n % 0x08, 2, if n = 0xF0 then 0x90 else 0x80,
      if n = 0xF4 then 0x8F else 0xBF⟩ := by
  rw [lead_octet (by omega), if_neg (by omega), if_neg (by omega), if_neg (by omega),
    if_neg (by omega), if_pos hhigh]

/-! ## Further octets -/

section Further

variable {text : List Char} {value n : Nat} {low high : UInt8}

theorem octet_fits (hlow : low.toNat ≤ n) (hhigh : n ≤ high.toNat) :
    low ≤ UInt8.ofNat n ∧ UInt8.ofNat n ≤ high := by
  have hn : n < 0x100 := Nat.lt_of_le_of_lt hhigh high.toNat_lt
  rw [UInt8.le_iff_toNat_le, UInt8.le_iff_toNat_le, toNat_octet hn]
  exact ⟨hlow, hhigh⟩

/-- The last octet of a character closes it. -/
theorem step_last (hlow : low.toNat ≤ n) (hhigh : n ≤ high.toNat) :
    Decoder.step ⟨text, some ⟨value, 0, low, high⟩⟩ (UInt8.ofNat n)
      = ⟨Char.ofNat (value * 0x40 + n % 0x40) :: text, none⟩ := by
  have hn : n < 0x100 := Nat.lt_of_le_of_lt hhigh high.toNat_lt
  rw [Decoder.step]
  dsimp only
  rw [if_pos (octet_fits hlow hhigh), if_pos rfl, toNat_octet hn]

/-- An octet before the last one leaves the character open. -/
theorem step_more {owed : Nat} (hlow : low.toNat ≤ n) (hhigh : n ≤ high.toNat) :
    Decoder.step ⟨text, some ⟨value, owed + 1, low, high⟩⟩ (UInt8.ofNat n)
      = ⟨text, some ⟨value * 0x40 + n % 0x40, owed, 0x80, 0xBF⟩⟩ := by
  have hn : n < 0x100 := Nat.lt_of_le_of_lt hhigh high.toNat_lt
  rw [Decoder.step]
  dsimp only
  rw [if_pos (octet_fits hlow hhigh), if_neg owed.succ_ne_zero, toNat_octet hn,
    Nat.add_sub_cancel]

end Further

theorem step_whole {text : List Char} {b : UInt8} {c : Char} (h : lead b = .whole c) :
    Decoder.step ⟨text, none⟩ b = ⟨c :: text, none⟩ := by
  rw [Decoder.step]
  dsimp only
  rw [Decoder.fresh, h]

theorem step_begins {text : List Char} {b : UInt8} {p : Partial} (h : lead b = .begins p) :
    Decoder.step ⟨text, none⟩ b = ⟨text, some p⟩ := by
  rw [Decoder.step]
  dsimp only
  rw [Decoder.fresh, h]

/-! ## Characters and texts -/

/-- **The octets of a character are read as that character.** -/
theorem foldl_step_encodeChar (text : List Char) (c : Char) :
    (String.utf8EncodeChar c).foldl Decoder.step ⟨text, none⟩ = ⟨c :: text, none⟩ := by
  have hvalid : c.val.toNat < 0xD800 ∨ 0xDFFF < c.val.toNat ∧ c.val.toNat < 0x110000 := c.valid
  have hself : ∀ n, n = c.val.toNat → Char.ofNat n = c := by
    rintro n rfl
    exact Char.ofNat_toNat c
  rw [String.utf8EncodeChar]
  generalize c.val.toNat = v at hvalid hself
  -- one case for each number of octets
  split
  · rw [List.foldl_cons, List.foldl_nil, step_whole (lead_one (by omega)), hself v rfl]
  split
  · have hlead := lead_two (n := v / 64 % 32 + 192) (by omega) (by omega)
    rw [List.foldl_cons, List.foldl_cons, List.foldl_nil, step_begins hlead,
      step_last (by simp) (by simp; omega), hself _ (by omega)]
  split
  · have hlead := lead_three (n := v / 4096 % 16 + 224) (by omega) (by omega)
    rw [List.foldl_cons, List.foldl_cons, List.foldl_cons, List.foldl_nil, step_begins hlead,
      step_more, step_last (by simp) (by simp; omega), hself _ (by omega)]
    · -- the second octet rules out overlong forms
      split
      · simp
        omega
      · simp
    · -- and surrogates
      split
      · simp
        omega
      · simp
        omega
  · have hlead := lead_four (n := v / 262144 % 8 + 240) (by omega) (by omega)
    rw [List.foldl_cons, List.foldl_cons, List.foldl_cons, List.foldl_cons, List.foldl_nil,
      step_begins hlead, step_more, step_more (by simp) (by simp; omega),
      step_last (by simp) (by simp; omega), hself _ (by omega)]
    · split
      · simp
        omega
      · simp
    · split
      · simp
        omega
      · simp
        omega

theorem foldl_step_encode (text cs : List Char) :
    (encode cs).foldl Decoder.step ⟨text, none⟩ = ⟨cs.reverse ++ text, none⟩ := by
  induction cs generalizing text with
  | nil => rfl
  | cons c rest ih =>
    rw [encode, List.flatMap_cons, List.foldl_append, foldl_step_encodeChar, ← encode, ih]
    simp

/-- **A text that was written is read as it was.** -/
@[simp] theorem decode_encode (cs : List Char) : decode (encode cs) = cs := by
  rw [decode, foldl_step_encode]
  simp [Decoder.finish]

/-! ## Octets of ASCII characters -/

/-- The octet of an ASCII character is in no other character. -/
theorem ascii_mem_encodeChar {c d : Char} (hd : d.toNat < 0x80) :
    UInt8.ofNat d.toNat ∈ String.utf8EncodeChar c ↔ c = d := by
  have hlow : ∀ n, n < 0x100 → n ≠ d.toNat → UInt8.ofNat d.toNat ≠ UInt8.ofNat n :=
    fun n hn hne h => by
      rw [eq_comm, octet_eq hn, toNat_octet (by omega)] at h
      exact hne h
  constructor
  · intro h
    rw [String.utf8EncodeChar] at h
    by_cases hone : c.val.toNat ≤ 127
    · rw [if_pos hone] at h
      have hvalue : c.val.toNat = d.toNat := by
        by_contra hne
        exact hlow _ (by omega) hne (List.mem_singleton.mp h)
      exact Char.toNat_inj.mp hvalue
    · exfalso
      rw [if_neg hone] at h
      generalize c.val.toNat = v at h
      -- every octet of a longer form has its highest bit set
      split at h
      · simp only [List.mem_cons, List.not_mem_nil, or_false] at h
        rcases h with h | h <;> exact hlow _ (by omega) (by omega) h
      split at h
      · simp only [List.mem_cons, List.not_mem_nil, or_false] at h
        rcases h with h | h | h <;> exact hlow _ (by omega) (by omega) h
      · simp only [List.mem_cons, List.not_mem_nil, or_false] at h
        rcases h with h | h | h | h <;> exact hlow _ (by omega) (by omega) h
  · rintro rfl
    have hone : c.val.toNat ≤ 127 := Nat.le_of_lt_succ hd
    rw [String.utf8EncodeChar, if_pos hone]
    exact List.mem_singleton_self _

/-- Only U+0000 has a zero octet. -/
theorem zero_mem_encode {cs : List Char} : 0 ∈ encode cs ↔ '\x00' ∈ cs := by
  have hzero (c : Char) : 0 ∈ String.utf8EncodeChar c ↔ c = '\x00' :=
    ascii_mem_encodeChar (d := '\x00') (by decide)
  rw [encode, List.mem_flatMap]
  constructor
  · rintro ⟨c, hc, hmem⟩
    exact (hzero c).mp hmem ▸ hc
  · exact fun h => ⟨_, h, (hzero _).mpr rfl⟩

end ServerProbe.Text.Utf8
