/-
Where a reply of keys and values may be cut.

Between backslashes a text is a list of pieces (`GameSpy.pairsOf`). Stored as octets it has no
pieces, only positions: the backslashes are found by their octet, the value of a key ends at
one of the positions found, and the text is cut there. A position inside a character or beyond
the end is no place to cut (`Text.cutAt?`), and the octet of a backslash can stand anywhere
among characters of several octets.

The octet of an ASCII character is in no other character. So the positions found are those of
the backslashes, each with a character boundary before and behind it, and the splitting that
refuses to cut anywhere else always comes to its end, with the pairs of the list of pieces
(`GameSpy.splitPairs?_eq`). This holds of any text, and so of what was read in place of
damaged octets.
-/
import Mathlib.Data.List.Basic
import ServerProbe.Proofs.Pairing
import ServerProbe.Proofs.Text
import ServerProbe.Proofs.Utf8

set_option autoImplicit false

namespace ServerProbe

/-! ## Positions in octets -/

namespace Text

/-- How many octets a text takes. -/
def size (cs : List Char) : Nat := (Utf8.encode cs).length

/-- A text cut in two at a position in octets, unless the position is inside a character or
beyond the end. -/
def cutAt? : Nat → List Char → Option (List Char × List Char)
  | 0, cs => some ([], cs)
  | _ + 1, [] => none
  | n + 1, c :: cs =>
    if c.utf8Size ≤ n + 1 then
      (cutAt? (n + 1 - c.utf8Size) cs).map fun (before, after) => (c :: before, after)
    else none

/-- The positions of the octet of a backslash, the text standing at position `start`. -/
def slashes (start : Nat) (cs : List Char) : List Nat :=
  (Utf8.encode cs).idxsOf (UInt8.ofNat '\\'.toNat) start

variable {c : Char} {cs before after : List Char} {n start : Nat}

@[simp] theorem size_nil : size [] = 0 := rfl

@[simp] theorem size_cons : size (c :: cs) = c.utf8Size + size cs := by
  rw [size, size, Utf8.encode, List.flatMap_cons, List.length_append, String.length_utf8EncodeChar]
  rfl

@[simp] theorem size_append : size (before ++ after) = size before + size after := by
  rw [size, size, size, Utf8.encode_append, List.length_append]

theorem size_slash : size ['\\'] = 1 := rfl

theorem size_eq_zero_iff : size cs = 0 ↔ cs = [] := by
  rcases cs with _ | ⟨c, cs⟩
  · simp
  · have hpos := c.utf8Size_pos
    rw [size_cons]
    exact iff_of_false (by omega) (List.cons_ne_nil c cs)

/-- **A text can be cut between any two characters, and nowhere else.** -/
theorem cutAt?_eq_some_iff : cutAt? n cs = some (before, after) ↔
    cs = before ++ after ∧ size before = n := by
  induction n, cs using cutAt?.induct generalizing before with
  | case1 cs =>
    rw [cutAt?, Option.some.injEq, Prod.mk.injEq, size_eq_zero_iff]
    constructor
    · rintro ⟨rfl, rfl⟩
      exact ⟨rfl, rfl⟩
    · rintro ⟨rfl, rfl⟩
      exact ⟨rfl, rfl⟩
  | case2 n =>
    rw [cutAt?]
    constructor
    · nofun
    · rintro ⟨hnil, hsize⟩
      obtain ⟨rfl, rfl⟩ := List.append_eq_nil_iff.mp hnil.symm
      cases hsize
  | case3 n c cs hfits ih =>
    rw [cutAt?, if_pos hfits]
    constructor
    · intro h
      obtain ⟨⟨before', after'⟩, hcut, heq⟩ := Option.map_eq_some_iff.mp h
      obtain ⟨rfl, rfl⟩ := Prod.mk.inj heq
      obtain ⟨rfl, hsize⟩ := ih.mp hcut
      exact ⟨rfl, by rw [size_cons]; omega⟩
    · rintro ⟨hcs, hsize⟩
      rcases before with _ | ⟨d, before⟩
      · cases hsize
      · obtain ⟨rfl, rfl⟩ := List.cons.inj hcs
        rw [size_cons] at hsize
        rw [ih.mpr ⟨rfl, by omega⟩]
        rfl
  | case4 n c cs hlong =>
    rw [cutAt?, if_neg hlong]
    constructor
    · nofun
    · rintro ⟨hcs, hsize⟩
      rcases before with _ | ⟨d, before⟩
      · cases hsize
      · -- a position before the end of the first character is inside it
        obtain ⟨rfl, rfl⟩ := List.cons.inj hcs
        rw [size_cons] at hsize
        omega

/-- There is nothing to cut inside a character. -/
example : cutAt? 2 "a€".toList = none := by decide

/-- A text can be cut behind any beginning of it. -/
theorem cutAt?_append (before after : List Char) :
    cutAt? (size before) (before ++ after) = some (before, after) :=
  cutAt?_eq_some_iff.mpr ⟨rfl, rfl⟩

/-- A text can be cut behind any backslash in it. -/
theorem cutAt?_slash (before after : List Char) :
    cutAt? (size before + 1) (before ++ '\\' :: after) = some (before ++ ['\\'], after) :=
  cutAt?_eq_some_iff.mpr ⟨by simp, by rw [size_append, size_slash]⟩

@[simp] theorem slashes_nil : slashes start [] = [] := rfl

/-- A backslash is found where it stands. -/
theorem slashes_cons_slash : slashes start ('\\' :: cs) = start :: slashes (start + 1) cs := rfl

/-- In another character no backslash is found. -/
theorem slashes_cons (h : c ≠ '\\') :
    slashes start (c :: cs) = slashes (start + c.utf8Size) cs := by
  have hnone : (String.utf8EncodeChar c).idxsOf (UInt8.ofNat '\\'.toNat) start = [] := by
    refine List.idxsOf_eq_nil_iff.mpr fun b hb => beq_eq_false_iff_ne.mpr fun heq => ?_
    exact h ((Utf8.ascii_mem_encodeChar (by decide)).mp (heq ▸ hb))
  rw [slashes, Utf8.encode, List.flatMap_cons, List.idxsOf_append, hnone, List.nil_append,
    String.length_utf8EncodeChar]
  rfl

end Text

namespace Protocol.GameSpy

open Text (size cutAt? slashes)

/-! ## Splitting by positions -/

/-- The first piece of a text. -/
def firstPiece (text : List Char) : List Char := (text.splitOn '\\').headD []

/-- Where a name ends that begins `after`, backslashes being at the positions given: before the
first one with a key behind it. Each of them has to be followed by a character boundary. -/
def nameEnd? (after : List Char) : List Nat → Option Nat
  | [] => some (size after)
  | position :: more => do
    let (_, tail) ← cutAt? (position + 1) after
    if isKeyToken (firstPiece tail) then some position else nameEnd? after more

/-- Where the value of a key ends that begins `after`. -/
def valueEnd? (key after : List Char) : Option Nat :=
  if isNameKey key then nameEnd? after (slashes 0 after)
  else some ((slashes 0 after).headD (size after))

/-- The text behind a position, or none if there is nothing to cut. -/
def behind (position : Nat) (text : List Char) : List Char :=
  ((cutAt? position text).map Prod.snd).getD []

theorem length_behind_le (position : Nat) (text : List Char) :
    (behind position text).length ≤ text.length := by
  rw [behind]
  rcases hcut : cutAt? position text with _ | ⟨before, after⟩
  · exact Nat.zero_le _
  · obtain ⟨rfl, -⟩ := Text.cutAt?_eq_some_iff.mp hcut
    simp

/-- A key and what stands behind it. -/
def keyed (text : List Char) : List Char × List Char := (Text.cutFirst? '\\' text).getD (text, [])

theorem length_keyed_lt {text : List Char} (h : text ≠ []) :
    (keyed text).2.length < text.length := by
  rw [keyed]
  rcases hcut : Text.cutFirst? '\\' text with _ | ⟨key, after⟩
  · exact List.length_pos_of_ne_nil h
  · obtain ⟨rfl, -⟩ := Text.cutFirst?_eq_some_iff.mp hcut
    rw [List.length_append, List.length_cons]
    exact Nat.lt_add_left _ (Nat.lt_succ_self _)

/-- The pairs of a text that begins with a key, `found` being those before it, last first. Each
value has to end at a character boundary. -/
def slicedPairs? (found : List Pair) : List Char → Option (Except Fault (List Pair))
  | [] => some (.ok found.reverse)
  | c :: cs =>
    let key := (keyed (c :: cs)).1
    let after := (keyed (c :: cs)).2
    if key.isEmpty then some (.error (.malformed "empty key"))
    else if key == "final".toList then some (.ok ((key, []) :: found).reverse)
    else do
      let stop ← valueEnd? key after
      let (value, _) ← cutAt? stop after
      slicedPairs? ((key, value) :: found) (behind (stop + 1) after)
  termination_by text => text.length
  decreasing_by
    exact Nat.lt_of_le_of_lt (length_behind_le _ _) (length_keyed_lt (List.cons_ne_nil _ _))

/-- The pairs of a text, cut at positions in octets. -/
def splitPairs? (text : List Char) : Option (Except Fault (List Pair)) :=
  match Text.stripHead? '\\' text with
  | none => some (.error (.malformed "reply does not start with a backslash"))
  | some rest => slicedPairs? [] rest

/-! ## Pieces and positions -/

section Pieces

variable {c : Char} {text before name rest key after : List Char}

theorem splitOn_cons_slash : ('\\' :: text).splitOn '\\' = [] :: text.splitOn '\\' :=
  List.splitOn_append_cons_self [] text

theorem splitOn_cons (h : c ≠ '\\') :
    (c :: text).splitOn '\\' = (text.splitOn '\\').modifyHead (List.cons c) := by
  rw [List.splitOn, List.splitOnP_cons_eq_if_modifyHead, if_neg (by simpa using h)]
  rfl

/-- The first piece of a text is that of its beginning, if that ends before a backslash. -/
theorem firstPiece_append (h : rest = [] ∨ ∃ more, rest = '\\' :: more) :
    firstPiece (name ++ rest) = firstPiece name := by
  rcases h with rfl | ⟨more, rfl⟩
  · rw [List.append_nil]
  · obtain ⟨first, others, hname⟩ := List.exists_cons_of_ne_nil (List.splitOn_ne_nil '\\' name)
    rw [firstPiece, firstPiece, List.splitOn_append_cons_self, hname]
    rfl

/-- Whether a text begins with a backslash that has a key behind it, or is empty. -/
inductive EndsName : List Char → Prop where
  | nil : EndsName []
  | key {more : List Char} (h : isKeyToken (firstPiece more) = true) : EndsName ('\\' :: more)

theorem EndsName.slash (h : EndsName rest) : rest = [] ∨ ∃ more, rest = '\\' :: more := by
  cases h with
  | nil => exact .inl rfl
  | key => exact .inr ⟨_, rfl⟩

/-- **A name ends at a character boundary,** and before the first key: no piece of it but the
first looks like one. -/
theorem nameEnd?_eq (before tail : List Char) : ∃ name rest, tail = name ++ rest ∧
    nameEnd? (before ++ tail) (slashes (size before) tail) = some (size (before ++ name)) ∧
    EndsName rest ∧ ∀ piece ∈ (name.splitOn '\\').tail, isKeyToken piece = false := by
  induction tail generalizing before with
  | nil => exact ⟨[], [], rfl, by rw [Text.slashes_nil, nameEnd?], .nil, nofun⟩
  | cons c tail ih =>
    obtain ⟨name, rest, rfl, hend, hrest, hinner⟩ := ih (before ++ [c])
    rw [List.append_assoc, List.singleton_append] at hend
    by_cases hc : c = '\\'
    · subst hc
      rw [Text.size_append, Text.size_slash] at hend
      rw [Text.slashes_cons_slash, nameEnd?, Text.cutAt?_slash]
      dsimp only [Option.bind_eq_bind, Option.bind_some]
      rcases hkey : isKeyToken (firstPiece (name ++ rest)) with _ | _
      · refine ⟨'\\' :: name, rest, rfl, ?_, hrest, ?_⟩
        · rw [if_neg Bool.false_ne_true, hend, List.append_assoc, List.singleton_append]
        · rw [splitOn_cons_slash, List.tail_cons]
          rw [firstPiece_append hrest.slash, firstPiece] at hkey
          obtain ⟨first, others, hname⟩ :=
            List.exists_cons_of_ne_nil (List.splitOn_ne_nil '\\' name)
          rw [hname] at hinner hkey ⊢
          exact List.forall_mem_cons.mpr ⟨hkey, hinner⟩
      · exact ⟨[], '\\' :: (name ++ rest), rfl, by rw [if_pos rfl, List.append_nil], .key hkey,
          nofun⟩
    · refine ⟨c :: name, rest, rfl, ?_, hrest, ?_⟩
      · rw [Text.slashes_cons hc]
        simpa using hend
      · rw [splitOn_cons hc, List.tail_modifyHead]
        exact hinner

/-- A value and what follows it behind a key: nothing in the value ends it, and what follows
does, or is nothing. -/
structure Parted (key value rest : List Char) : Prop where
  plain : isNameKey key = false → '\\' ∉ value
  inner : isNameKey key = true → ∀ piece ∈ (value.splitOn '\\').tail, isKeyToken piece = false
  slash : rest = [] ∨ ∃ more, rest = '\\' :: more
  ended : isNameKey key = true → EndsName rest

/-- The first backslash stands behind all that is not one. -/
theorem headD_slashes (before text : List Char) : ∃ value rest, text = value ++ rest ∧
    (slashes (size before) text).headD (size (before ++ text)) = size (before ++ value) ∧
    '\\' ∉ value ∧ (rest = [] ∨ ∃ more, rest = '\\' :: more) := by
  induction text generalizing before with
  | nil => exact ⟨[], [], rfl, rfl, List.not_mem_nil, .inl rfl⟩
  | cons c text ih =>
    by_cases hc : c = '\\'
    · subst hc
      exact ⟨[], '\\' :: text, rfl, by rw [Text.slashes_cons_slash, List.append_nil]; rfl,
        List.not_mem_nil, .inr ⟨text, rfl⟩⟩
    · obtain ⟨value, rest, rfl, hend, hvalue, hrest⟩ := ih (before ++ [c])
      refine ⟨c :: value, rest, rfl, ?_, by simpa [eq_comm, hc] using hvalue, hrest⟩
      rw [Text.slashes_cons hc]
      simpa using hend

/-- **A value ends at a character boundary.** -/
theorem valueEnd?_eq (key after : List Char) : ∃ value rest, after = value ++ rest ∧
    valueEnd? key after = some (size value) ∧ Parted key value rest := by
  rcases hname : isNameKey key with _ | _
  · obtain ⟨value, rest, hafter, hend, hvalue, hrest⟩ := headD_slashes [] after
    refine ⟨value, rest, hafter, ?_, fun _ => hvalue, fun h => ?_, hrest, fun h => ?_⟩
    · rw [valueEnd?, hname, if_neg Bool.false_ne_true]
      exact congrArg some hend
    all_goals cases hname.symm.trans h
  · obtain ⟨value, rest, hafter, hend, hrest, hinner⟩ := nameEnd?_eq [] after
    refine ⟨value, rest, hafter, ?_, fun h => ?_, fun _ => hinner, hrest.slash, fun _ => hrest⟩
    · rw [valueEnd?, hname, if_pos rfl]
      exact hend
    · cases hname.symm.trans h

/-! ## Pairs -/

/-- A key ends at the first backslash or with the text. -/
theorem splitOn_keyed (h : keyed text = (key, after)) : '\\' ∉ key ∧
    (text.splitOn '\\' = key :: after.splitOn '\\' ∨ text = key ∧ after = []) := by
  rw [keyed] at h
  rcases hcut : Text.cutFirst? '\\' text with _ | ⟨key', after'⟩
  all_goals
    rw [hcut] at h
    obtain ⟨rfl, rfl⟩ := Prod.mk.inj h
  · exact ⟨Text.cutFirst?_eq_none_iff.mp hcut, .inr ⟨rfl, rfl⟩⟩
  · obtain ⟨rfl, hkey⟩ := Text.cutFirst?_eq_some_iff.mp hcut
    exact ⟨hkey, .inl (List.splitOn_append_cons_self_of_not_mem hkey _)⟩

/-- Behind the backslash that ends a value stands what comes next. -/
theorem behind_slash (value more : List Char) :
    behind (size value + 1) (value ++ '\\' :: more) = more := by
  rw [behind, Text.cutAt?_slash]
  rfl

/-- Beyond the end there is nothing. -/
theorem behind_size (value : List Char) : behind (size value + 1) value = [] := by
  rcases hcut : cutAt? (size value + 1) value with _ | ⟨before, after⟩
  · rw [behind, hcut]
    rfl
  · obtain ⟨rfl, hsize⟩ := Text.cutAt?_eq_some_iff.mp hcut
    rw [Text.size_append] at hsize
    omega

variable {found : List Pair} {value : List Char}

/-- At the end of the text a backslash more makes no difference. -/
theorem pairsOf_key_end :
    pairsOf found .key (([] : List Char).splitOn '\\') = pairsOf found .key [] := by
  rw [List.splitOn_nil, pairsOf, pairsOf]

/-- A key and its value are a pair, and what stands behind them is read as if nothing had been
before. -/
theorem pairsOf_parted (hnamed : key ≠ []) (hfree : '\\' ∉ key) (hfurther : key ≠ "final".toList)
    (h : Parted key value rest) :
    pairsOf found .key (key :: (value ++ rest).splitOn '\\')
      = pairsOf ((key, value) :: found) .key
          ((behind (size value + 1) (value ++ rest)).splitOn '\\') := by
  have hentry : Pair.Writable (key, value) := ⟨hnamed, hfree, hfurther, h.plain, h.inner⟩
  rcases h.slash with rfl | ⟨more, rfl⟩
  · have hpair : pairsOf found .key (Pair.pieces (key, value) ++ []) = _ :=
      pairsOf_entry hentry (by simp)
    rw [List.append_nil, behind_size, pairsOf_key_end, ← hpair, List.append_nil, Pair.pieces]
  · have hnext : isNameKey key = true →
        ∀ piece ∈ (more.splitOn '\\').head?, isKeyToken piece = true := by
      rintro hname piece hpiece
      cases h.ended hname with
      | key htoken =>
        rw [firstPiece, List.headD_eq_head?_getD, hpiece] at htoken
        exact htoken
    rw [behind_slash, ← pairsOf_entry hentry hnext, List.splitOn_append_cons_self, Pair.pieces,
      List.cons_append]

/-- A key with nothing behind it has an empty value. -/
theorem pairsOf_key_alone (hnamed : key ≠ []) (hfurther : key ≠ "final".toList) :
    pairsOf found .key [key] = pairsOf found .key [key, []] := by
  rw [pairsOf_key hnamed hfurther, pairsOf_key hnamed hfurther, pairsOf, pairsOf]
  split
  · rw [pairsOf, joinName, List.reverse_singleton, List.intercalate_singleton]
  · rw [pairsOf]

/-- Where a key is due there is no empty piece, unless it is the last. -/
theorem pairsOf_key_empty {more : List (List Char)} (h : more ≠ []) :
    pairsOf found .key ([] :: more) = .error (.malformed "empty key") := by
  obtain ⟨piece, others, rfl⟩ := List.exists_cons_of_ne_nil h
  rw [pairsOf]
  · rfl
  · simp

/-- **The pairs found by positions are those of the pieces.** -/
theorem slicedPairs?_eq (found : List Pair) (text : List Char) :
    slicedPairs? found text = some (pairsOf found .key (text.splitOn '\\')) := by
  -- by induction along the positions; of the key only what `splitOn_keyed` says is used
  induction found, text using slicedPairs?.induct with
  | case1 found => rw [slicedPairs?, pairsOf_key_end, pairsOf]
  | case2 found c cs key hempty =>
    have hkeyed : keyed (c :: cs) = (key, (keyed (c :: cs)).2) := rfl
    clear_value key
    obtain rfl : [] = key := (List.isEmpty_iff.mp hempty).symm
    rw [slicedPairs?, hkeyed]
    dsimp only
    rw [if_pos hempty]
    rcases (splitOn_keyed hkeyed).2 with hpieces | ⟨hnil, -⟩
    · rw [hpieces, pairsOf_key_empty (List.splitOn_ne_nil _ _)]
    · cases hnil
  | case3 found c cs key hnamed hfinal =>
    have hkeyed : keyed (c :: cs) = (key, (keyed (c :: cs)).2) := rfl
    clear_value key
    obtain rfl : key = "final".toList := eq_of_beq hfinal
    rw [slicedPairs?, hkeyed]
    dsimp only
    rw [if_neg hnamed, if_pos hfinal]
    rcases splitOn_keyed hkeyed with ⟨-, hpieces | ⟨htext, -⟩⟩
    · rw [hpieces, pairsOf_key_final]
    · rw [htext, List.splitOn_eq_singleton (by decide), pairsOf_key_final]
  | case4 found c cs key after hnamed hfurther ih =>
    have hkeyed : keyed (c :: cs) = (key, after) := rfl
    clear_value key after
    obtain ⟨value, rest, rfl, hstop, hparted⟩ := valueEnd?_eq key after
    rw [slicedPairs?, hkeyed]
    dsimp only
    rw [if_neg hnamed, if_neg hfurther, hstop]
    dsimp only [Option.bind_eq_bind, Option.bind_some]
    rw [Text.cutAt?_append]
    dsimp only [Option.bind_some]
    obtain ⟨hfree, hpieces⟩ := splitOn_keyed hkeyed
    have hnamed' : key ≠ [] := by simpa using hnamed
    have hfurther' : key ≠ "final".toList := by simpa using hfurther
    rw [ih, ← pairsOf_parted hnamed' hfree hfurther' hparted]
    rcases hpieces with hpieces | ⟨htext, hnone⟩
    · rw [hpieces]
    · rw [htext, hnone, List.splitOn_eq_singleton hfree, List.splitOn_nil,
        pairsOf_key_alone hnamed' hfurther']

end Pieces

/-- **Every text can be cut where its pairs begin and end.** The pairs are those of the pieces
between its backslashes. -/
theorem splitPairs?_eq (text : List Char) : splitPairs? text = some (splitPairs text) := by
  rw [splitPairs?, splitPairs]
  rcases Text.stripHead? '\\' text with _ | rest
  · rfl
  · exact slicedPairs?_eq [] rest

end Protocol.GameSpy

end ServerProbe
