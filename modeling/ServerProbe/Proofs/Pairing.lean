/-
Keys and values that were written between backslashes are found again.

A player's name may hold backslashes, so it is not the next backslash that ends it but the
next one with a key behind it. The pieces between the backslashes are read from left to right:
of a pair whose name no key interrupts, all pieces are taken together (`pairsOf_entry`), and
what follows it is read as if nothing had been before. By induction a whole list is found, up
to the end of the text or up to `final` (`splitPairs_written`). There has to be something: a
text that does not start with a backslash is refused, and without pairs there is none.
-/
import Mathlib.Data.List.Chain
import ServerProbe.Protocol.GameSpy

set_option autoImplicit false

namespace ServerProbe.Protocol.GameSpy

/-! ## What is written -/

/-- A key that ends nothing, and a value in which nothing looks like the end of it: without
backslashes, or a name in which no key stands behind one. -/
structure Pair.Writable (entry : Pair) : Prop where
  named : entry.1 ≠ []
  free : '\\' ∉ entry.1
  further : entry.1 ≠ "final".toList
  plain : isNameKey entry.1 = false → '\\' ∉ entry.2
  inner : isNameKey entry.1 = true → ∀ piece ∈ (entry.2.splitOn '\\').tail, isKeyToken piece = false

/-- Whether pairs can be told apart: behind a name stands something that ends it. -/
structure Separable (entries : List Pair) : Prop where
  writable : ∀ entry ∈ entries, entry.Writable
  ended : entries.IsChain fun entry next => isNameKey entry.1 = true → isKeyToken next.1 = true

/-- The text of pairs: a backslash before each key and before each value. -/
def written (entries : List Pair) : List Char :=
  entries.flatMap fun entry => '\\' :: (entry.1 ++ '\\' :: entry.2)

/-- What stands between the backslashes of a pair. -/
def Pair.pieces (entry : Pair) : List (List Char) := entry.1 :: entry.2.splitOn '\\'

theorem Separable.tail {entry : Pair} {rest : List Pair} (h : Separable (entry :: rest)) :
    Separable rest where
  writable := fun other hother => h.writable other (List.mem_cons_of_mem _ hother)
  ended := h.ended.tail

/-- A text and pairs behind it have the pieces of the text and of the pairs. -/
theorem splitOn_written {entries : List Pair} (h : Separable entries) (text : List Char) :
    (text ++ written entries).splitOn '\\' = text.splitOn '\\' ++ entries.flatMap Pair.pieces := by
  induction entries generalizing text with
  | nil => rw [written, List.flatMap_nil, List.flatMap_nil, List.append_nil, List.append_nil]
  | cons entry rest ih =>
    have hfree := (h.writable entry List.mem_cons_self).free
    have hwritten : written (entry :: rest)
        = '\\' :: (entry.1 ++ '\\' :: (entry.2 ++ written rest)) := by
      simp [written]
    rw [hwritten, List.splitOn_append_cons_self,
      List.splitOn_append_cons_self_of_not_mem hfree, ih h.tail, List.flatMap_cons, Pair.pieces,
      List.cons_append]

/-! ## Reading pieces -/

section Pieces

variable {found : List Pair} {key : List Char} {more : List (List Char)}

/-- Where a key is due, nothing behind `final` is read. -/
theorem pairsOf_key_final :
    pairsOf found .key ("final".toList :: more) = .ok (("final".toList, []) :: found).reverse := by
  rw [pairsOf, if_neg (by decide), if_pos (by decide)]
  simp

/-- Where a key is due, any other piece is one unless it is empty. -/
theorem pairsOf_key (hnamed : key ≠ []) (hfurther : key ≠ "final".toList) :
    pairsOf found .key (key :: more) = pairsOf found (.value key) more := by
  have hempty : key.isEmpty = false := by simpa using hnamed
  rw [pairsOf, hempty, if_neg Bool.false_ne_true, if_neg (by simpa using hfurther)]
  simpa using fun h => absurd h hnamed

/-- A name goes on as long as no piece of it looks like a key. -/
theorem pairsOf_name {pieces : List (List Char)} (inner : List (List Char))
    (h : ∀ piece ∈ inner, isKeyToken piece = false) :
    pairsOf found (.name key pieces) (inner ++ more)
      = pairsOf found (.name key (inner.reverse ++ pieces)) more := by
  induction inner generalizing pieces with
  | nil => rfl
  | cons piece rest ih =>
    have hpiece := h piece List.mem_cons_self
    rw [List.cons_append, pairsOf, hpiece, Bool.not_false, if_pos rfl,
      ih fun other hother => h other (List.mem_cons_of_mem _ hother), List.reverse_cons,
      List.append_assoc, List.singleton_append]

/-- A name ends before a key and at the end of the text. -/
theorem pairsOf_name_end {pieces : List (List Char)}
    (h : ∀ piece ∈ more.head?, isKeyToken piece = true) :
    pairsOf found (.name key pieces) more
      = pairsOf ((key, joinName pieces) :: found) .key more := by
  rcases more with _ | ⟨piece, rest⟩
  · rfl
  · have htoken : isKeyToken piece = true := h piece rfl
    have hnamed : piece ≠ [] := by
      rintro rfl
      exact absurd htoken (by decide)
    by_cases hfinal : piece = "final".toList
    · subst hfinal
      rw [pairsOf_key_final, pairsOf, htoken, Bool.not_true, if_neg Bool.false_ne_true,
        if_pos (by decide)]
    · rw [pairsOf_key hnamed hfinal, pairsOf, htoken, Bool.not_true, if_neg Bool.false_ne_true,
        if_neg (by simpa using hfinal)]

/-- **A pair is found,** and what follows is read as if nothing had been before. -/
theorem pairsOf_entry {entry : Pair} (h : entry.Writable)
    (hmore : isNameKey entry.1 = true → ∀ piece ∈ more.head?, isKeyToken piece = true) :
    pairsOf found .key (entry.pieces ++ more) = pairsOf (entry :: found) .key more := by
  obtain ⟨key, value⟩ := entry
  rw [Pair.pieces, List.cons_append, pairsOf_key h.named h.further]
  rcases hname : isNameKey key with _ | _
  · rw [List.splitOn_eq_singleton (h.plain hname), List.singleton_append, pairsOf, hname,
      if_neg Bool.false_ne_true]
  · obtain ⟨piece, inner, hpieces⟩ := List.exists_cons_of_ne_nil (List.splitOn_ne_nil '\\' value)
    have hinner : ∀ piece ∈ inner, isKeyToken piece = false := by
      simpa [hpieces] using h.inner hname
    have hvalue : joinName (inner.reverse ++ [piece]) = value := by
      rw [joinName, List.reverse_append, List.reverse_reverse, List.reverse_singleton,
        List.singleton_append, ← hpieces, List.intercalate_splitOn]
    dsimp only
    rw [hpieces, List.cons_append, pairsOf, hname, if_pos rfl, pairsOf_name inner hinner,
      pairsOf_name_end (hmore hname), hvalue]

/-- **Pairs are found one after another.** -/
theorem pairsOf_entries {entries : List Pair} (h : Separable entries)
    (hmore : ∀ piece ∈ more.head?, isKeyToken piece = true) :
    pairsOf found .key (entries.flatMap Pair.pieces ++ more)
      = pairsOf (entries.reverse ++ found) .key more := by
  induction entries generalizing found with
  | nil => rfl
  | cons entry rest ih =>
    have hnext : isNameKey entry.1 = true →
        ∀ piece ∈ (rest.flatMap Pair.pieces ++ more).head?, isKeyToken piece = true := by
      intro hname piece hpiece
      rcases rest with _ | ⟨next, others⟩
      · exact hmore piece hpiece
      · obtain rfl : next.1 = piece := Option.some.inj hpiece
        exact h.ended.rel hname
    rw [List.flatMap_cons, List.append_assoc,
      pairsOf_entry (h.writable entry List.mem_cons_self) hnext, ih h.tail, List.reverse_cons,
      List.append_assoc, List.singleton_append]

end Pieces

/-! ## Texts -/

theorem splitPairs_eq {text : List Char} {pieces : List (List Char)}
    (hslash : text.head? = some '\\') (h : text.splitOn '\\' = [] :: pieces) :
    splitPairs text = pairsOf [] .key pieces := by
  rcases text with _ | ⟨c, body⟩
  · cases hslash
  · obtain rfl : c = '\\' := Option.some.inj hslash
    have hbody := List.splitOn_append_cons_self (a := '\\') [] body
    rw [List.nil_append, h, List.splitOn_nil, List.singleton_append] at hbody
    rw [(List.cons.inj hbody).2]
    rfl

/-- **Keys and values are found as they were written.** Let keys not be empty, hold no
backslashes and not be `final`, let values hold no backslashes, but names any behind which no
key stands, and let a name be the last value or be followed by something that ends it. Of a
text of such pairs just these are found, if there are any. If `final` follows, they are found
and `final` behind them, and whatever follows that is passed over. -/
theorem splitPairs_written {entries : List Pair} (h : Separable entries) :
    (entries ≠ [] → splitPairs (written entries) = .ok entries) ∧
    ∀ tail : List Char, splitPairs (written entries ++ "\\final\\".toList ++ tail)
      = .ok (entries ++ [("final".toList, [])]) := by
  have hpieces : (written entries).splitOn '\\' = [] :: entries.flatMap Pair.pieces := by
    have hsplit := splitOn_written h []
    rwa [List.nil_append, List.splitOn_nil, List.singleton_append] at hsplit
  constructor
  · intro hsome
    have hslash : (written entries).head? = some '\\' := by
      obtain ⟨entry, rest, rfl⟩ := List.exists_cons_of_ne_nil hsome
      rfl
    have hfound : pairsOf [] .key (entries.flatMap Pair.pieces ++ []) = _ :=
      pairsOf_entries h (by simp)
    rw [List.append_nil] at hfound
    rw [splitPairs_eq hslash hpieces, hfound, List.append_nil, pairsOf, List.reverse_reverse]
  · intro tail
    have htext : written entries ++ "\\final\\".toList ++ tail
        = written entries ++ '\\' :: ("final".toList ++ '\\' :: tail) := by
      simp
    have hclosed : (written entries ++ '\\' :: ("final".toList ++ '\\' :: tail)).splitOn '\\'
        = [] :: (entries.flatMap Pair.pieces ++ "final".toList :: tail.splitOn '\\') := by
      rw [List.splitOn_append_cons_self, hpieces,
        List.splitOn_append_cons_self_of_not_mem (by decide), List.cons_append]
    have hslash : (written entries ++ '\\' :: ("final".toList ++ '\\' :: tail)).head?
        = some '\\' := by
      rcases entries with _ | ⟨entry, rest⟩
      · rfl
      · rfl
    have htoken : ∀ piece ∈ ("final".toList :: tail.splitOn '\\').head?,
        isKeyToken piece = true := by
      rintro piece hpiece
      obtain rfl : "final".toList = piece := Option.some.inj hpiece
      decide
    rw [htext, splitPairs_eq hslash hclosed, pairsOf_entries h htoken, pairsOf_key_final,
      List.append_nil, List.reverse_cons, List.reverse_reverse]

/-- A text without pairs does not start with a backslash, and is refused. -/
theorem splitPairs_written_nil : Separable [] ∧ splitPairs (written []) ≠ .ok [] :=
  ⟨⟨by simp, .nil⟩, nofun⟩

/-- An empty value, a name that ends with a backslash, and one that begins like a key. -/
def oddPairs : List Pair :=
  [("hostname".toList, []), ("player_0".toList, "a\\b\\".toList), ("frags_0".toList, "3".toList),
    ("player_1".toList, "frags_1\\x".toList)]

/-- The last name ends with the text or before `final`. -/
theorem splitPairs_written_oddPairs :
    splitPairs "\\hostname\\\\player_0\\a\\b\\\\frags_0\\3\\player_1\\frags_1\\x".toList
      = .ok oddPairs ∧
    splitPairs ("\\hostname\\\\player_0\\a\\b\\\\frags_0\\3\\player_1\\frags_1\\x".toList
      ++ "\\final\\".toList ++ "\\queryid\\1.1".toList)
      = .ok (oddPairs ++ [("final".toList, [])]) := by
  have h : Separable oddPairs := by
    refine ⟨fun entry hentry => ⟨?_, ?_, ?_, ?_, ?_⟩, by decide⟩
    all_goals
      revert entry
      decide
  obtain ⟨halone, hclosed⟩ := splitPairs_written h
  exact ⟨halone (by decide), hclosed "\\queryid\\1.1".toList⟩

end ServerProbe.Protocol.GameSpy
