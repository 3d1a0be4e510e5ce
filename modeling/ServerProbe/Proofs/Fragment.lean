/-
What one piece does to a table of open series.

A series is handed out as soon as its count says that it is whole, so everything
rests on the count: it is that of the filled slots (`Series.Counted`), which holds
of a new series and is kept by every piece that is taken in.

Two facts are needed further on. The first is a balance: a piece that makes a
reply whole takes out of the table at least what the reply is longer than the
piece, so handing out replies uses up octets that were held (`length_joined_le`).
The second follows one reply through the table: while its pieces come in, in any
order and some of them more than once, the table holds the pieces seen so far,
and the piece that was the last one missing leaves the table as it was before the
first (`ingest_gathering`).
-/
import Mathlib.Data.List.Basic
import ServerProbe.Fragment
import ServerProbe.Proofs.Total

set_option autoImplicit false

namespace ServerProbe.Fragment

/-! ## One series -/

namespace Series

/-- A series with one place filled. -/
def filled (s : Series) (index : Nat) (payload : List UInt8) : Series :=
  { s with slots := s.slots.set index (some payload), received := s.received + 1 }

theorem fill?_eq_some_iff {s s' : Series} {index : Nat} {payload : List UInt8} :
    s.fill? index payload = some s' ↔
      s.slots[index]? = some none ∧ s' = s.filled index payload := by
  unfold fill? filled
  rcases h : s.slots[index]? with _ | (_ | filled)
  · simp
  · simp [eq_comm]
  · simp

theorem buffered_fill {s s' : Series} {index : Nat} {payload : List UInt8}
    (h : s.fill? index payload = some s') : s'.buffered = s.buffered + payload.length := by
  obtain ⟨hslot, rfl⟩ := fill?_eq_some_iff.mp h
  have hset := total_set_add (fun slot : Option (List UInt8) => (slot.getD []).length)
    (a := some payload) hslot
  simpa [buffered, filled] using hset

theorem length_joined (s : Series) : s.joined.length = s.buffered := by
  -- by induction on the slots, which are joined and counted side by side
  have along : ∀ slots : List (Option (List UInt8)),
      (slots.flatMap fun slot => slot.getD []).length
        = total (slots.map fun slot => (slot.getD []).length) := by
    intro slots
    induction slots with
    | nil => rfl
    | cons slot rest ih => simp only [List.flatMap_cons, List.length_append, ih, List.map_cons,
        total_cons]
  exact along s.slots

@[simp] theorem buffered_opened (id : UInt32) (count : Nat) : (opened id count).buffered = 0 := by
  induction count with
  | zero => rfl
  | succ count ih =>
    simp only [buffered, opened, List.replicate_succ, List.map_cons, total_cons] at ih ⊢
    rw [ih]
    rfl

/-! ### The count -/

/-- Whether the count of a series is that of its filled slots. -/
def Counted (s : Series) : Prop := s.received = s.slots.countP Option.isSome

theorem counted_opened (id : UInt32) (count : Nat) : (opened id count).Counted := by
  refine (List.countP_eq_zero.mpr fun slot hslot => ?_).symm
  rw [(List.mem_replicate.mp hslot).2]
  exact Bool.false_ne_true

/-- Filling an empty slot keeps the count right. -/
theorem Counted.filled {s : Series} (h : s.Counted) {index : Nat}
    (hslot : s.slots[index]? = some none) (payload : List UInt8) :
    (s.filled index payload).Counted := by
  obtain ⟨hlt, hempty⟩ := List.getElem?_eq_some_iff.mp hslot
  rw [Counted, Series.filled, List.countP_set hlt, hempty, ← h]
  rfl

theorem Counted.received_le {s : Series} (h : s.Counted) : s.received ≤ s.expected :=
  Nat.le_trans (Nat.le_of_eq h) List.countP_le_length

/-- Where the count is right, it tells whether every slot is filled. -/
theorem Counted.isComplete_iff {s : Series} (h : s.Counted) :
    s.isComplete = true ↔ ∀ slot ∈ s.slots, slot.isSome = true := by
  rw [Series.isComplete_iff, h, expected, List.countP_eq_length]

/-- Where the counts are right, the slots tell series of one id apart. -/
theorem Counted.ext {s s' : Series} (h : s.Counted) (h' : s'.Counted) (hid : s.id = s'.id)
    (hslots : s.slots = s'.slots) : s = s' := by
  cases s
  cases s'
  cases hid
  cases hslots
  exact congrArg (Series.mk _ _) (Eq.trans h h'.symm)

end Series

/-! ## The balance of a table -/

namespace Table

/-- What one piece can do: it is passed over, it fills a slot, or it fills the last
one and closes its series. -/
theorem ingest_cases (t : Table) (id : UInt32) (index count : Nat) (payload : List UInt8) :
    t.ingest id index count payload = (t, none) ∨
    ∃ t' s s', index < count ∧ t.withSeries? id count = some (t', s) ∧
      s.fill? index payload = some s' ∧
      t.ingest id index count payload
        = if s'.isComplete then (t'.close id, some s'.joined) else (t'.put s', none) := by
  by_cases hrange : count ≤ index
  · left
    rw [ingest, if_pos hrange]
  · rcases hopen : t.withSeries? id count with _ | ⟨t', s⟩
    · left
      rw [ingest, if_neg hrange, hopen]
    · rcases hfill : s.fill? index payload with _ | s'
      · left
        simp only [ingest, if_neg hrange, hopen, hfill]
      · right
        refine ⟨t', s, s', by omega, rfl, hfill, ?_⟩
        simp only [ingest, if_neg hrange, hopen, hfill]

/-- Opening a series holds nothing yet, and the series is then in the table. -/
theorem withSeries?_spec {t t' : Table} {id : UInt32} {count : Nat} {s : Series}
    (h : t.withSeries? id count = some (t', s)) :
    s ∈ t'.series ∧ s.id = id ∧ t'.buffered = t.buffered := by
  unfold withSeries? at h
  -- either a new series is opened, with empty slots, or it is open already
  rcases hfind : t.find? id with _ | known
  · rw [hfind] at h
    simp only [Option.ite_none_left_eq_some, Option.some.injEq, Prod.mk.injEq] at h
    obtain ⟨-, rfl, rfl⟩ := h
    refine ⟨by simp, rfl, ?_⟩
    simp [buffered]
  · rw [hfind] at h
    simp only [Option.ite_none_right_eq_some, Option.some.injEq, Prod.mk.injEq] at h
    obtain ⟨-, rfl, rfl⟩ := h
    have hid := List.find?_some hfind
    exact ⟨List.mem_of_find?_eq_some hfind, by simpa using hid, rfl⟩

/-- Closing a series releases at least what one series of that id held. -/
theorem buffered_close_add_le {t : Table} {s : Series} (h : s ∈ t.series) :
    (t.close s.id).buffered + s.buffered ≤ t.buffered := by
  have hsplit := total_filter_add Series.buffered (fun other => other.id != s.id) t.series
  have hmem : s ∈ t.series.filter fun other => !(other.id != s.id) := by simp [h]
  have hle := le_total_of_mem Series.buffered hmem
  simp only [close, buffered]
  omega

/-- **The balance.** A reply that is made whole, and what the table still holds
then, are no more than the piece and what the table held before. -/
theorem length_joined_le {t t' : Table} {id : UInt32} {index count : Nat}
    {payload whole : List UInt8} (h : t.ingest id index count payload = (t', some whole)) :
    whole.length + t'.buffered ≤ payload.length + t.buffered := by
  rcases t.ingest_cases id index count payload with hpass | ⟨t₁, s, s', -, hopen, hfill, heq⟩
  · rw [hpass] at h
    simp at h
  · obtain ⟨hmem, rfl, hheld⟩ := withSeries?_spec hopen
    rw [heq] at h
    split at h
    · simp only [Prod.mk.injEq, Option.some.injEq] at h
      obtain ⟨rfl, rfl⟩ := h
      -- what the series held goes into the reply; the rest of the table stays
      have hclose := buffered_close_add_le hmem
      rw [Series.length_joined, Series.buffered_fill hfill]
      omega
    · simp at h

end Table

/-! ## One reply on its way -/

namespace Series

variable {id : UInt32} {chunks : List (List UInt8)} {seen : List Nat}

/-- The series of a reply that was cut into chunks, when the pieces of some places have
come. -/
def gathered (id : UInt32) (chunks : List (List UInt8)) (seen : List Nat) : Series :=
  let slots := chunks.mapIdx fun place chunk => if place ∈ seen then some chunk else none
  ⟨id, slots, slots.countP Option.isSome⟩

theorem counted_gathered : (gathered id chunks seen).Counted := rfl

theorem slot_gathered (place : Nat) :
    (gathered id chunks seen).slots[place]?
      = (chunks[place]?).map fun chunk => if place ∈ seen then some chunk else none :=
  List.getElem?_mapIdx

@[simp] theorem expected_gathered : (gathered id chunks seen).expected = chunks.length :=
  List.length_mapIdx

theorem gathered_nil (id : UInt32) (chunks : List (List UInt8)) :
    gathered id chunks [] = opened id chunks.length := by
  have hslots : (gathered id chunks []).slots = List.replicate chunks.length none := by
    -- no place has been seen, so every slot is empty
    refine List.eq_replicate_iff.mpr ⟨expected_gathered, fun slot hslot => ?_⟩
    obtain ⟨place, hplace⟩ := List.mem_iff_getElem?.mp hslot
    rw [slot_gathered] at hplace
    obtain ⟨chunk, -, rfl⟩ := Option.map_eq_some_iff.mp hplace
    exact if_neg List.not_mem_nil
  exact counted_gathered.ext (counted_opened id chunks.length) rfl hslots

/-- It does not matter in which order the pieces have come, nor how often. -/
theorem gathered_congr {seen' : List Nat} (h : ∀ place, place ∈ seen ↔ place ∈ seen') :
    gathered id chunks seen = gathered id chunks seen' := by
  simp only [gathered, h]

theorem fill?_gathered {place : Nat} {chunk : List UInt8} (hchunk : chunks[place]? = some chunk) :
    (gathered id chunks seen).fill? place chunk
      = if place ∈ seen then none else some (gathered id chunks (place :: seen)) := by
  have hslot : (gathered id chunks seen).slots[place]?
      = some (if place ∈ seen then some chunk else none) := by
    rw [slot_gathered, hchunk, Option.map_some]
  by_cases hseen : place ∈ seen
  · rw [if_pos hseen] at hslot ⊢
    unfold fill?
    rw [hslot]
  · rw [if_neg hseen] at hslot ⊢
    -- slot by slot: the place that is filled now, and the others as they were
    have hslots : (gathered id chunks seen).slots.set place (some chunk)
        = (gathered id chunks (place :: seen)).slots := by
      refine List.ext_getElem? fun other => ?_
      rw [List.getElem?_set, slot_gathered, slot_gathered]
      by_cases hother : place = other
      · subst hother
        have hlt : place < (gathered id chunks seen).slots.length := by
          rw [List.getElem?_eq_some_iff] at hslot
          exact hslot.1
        rw [if_pos rfl, if_pos hlt, hchunk]
        simp
      · rw [if_neg hother]
        simp [Ne.symm hother]
    exact fill?_eq_some_iff.mpr ⟨hslot,
      counted_gathered.ext (counted_gathered.filled hslot chunk) rfl hslots.symm⟩

theorem isComplete_gathered :
    (gathered id chunks seen).isComplete = true ↔ ∀ place < chunks.length, place ∈ seen := by
  rw [counted_gathered.isComplete_iff]
  constructor
  · intro h place hplace
    have hslot : (gathered id chunks seen).slots[place]?
        = some (if place ∈ seen then some chunks[place] else none) := by
      rw [slot_gathered, List.getElem?_eq_getElem hplace, Option.map_some]
    have hfilled := h _ (List.mem_of_getElem? hslot)
    by_contra hmissing
    rw [if_neg hmissing] at hfilled
    cases hfilled
  · intro h slot hslot
    obtain ⟨place, hplace⟩ := List.mem_iff_getElem?.mp hslot
    rw [slot_gathered] at hplace
    obtain ⟨chunk, hchunk, rfl⟩ := Option.map_eq_some_iff.mp hplace
    rw [if_pos (h place (List.getElem?_eq_some_iff.mp hchunk).1)]
    rfl

/-- When all pieces have come, they join to what was cut. -/
theorem joined_gathered (h : ∀ place < chunks.length, place ∈ seen) :
    (gathered id chunks seen).joined = chunks.flatten := by
  have hslots : (gathered id chunks seen).slots = chunks.map some := by
    refine List.ext_getElem? fun place => ?_
    rw [slot_gathered, List.getElem?_map]
    rcases hchunk : chunks[place]? with _ | chunk
    · rfl
    · have hseen := h place (List.getElem?_eq_some_iff.mp hchunk).1
      rw [Option.map_some, if_pos hseen, Option.map_some]
  rw [joined, hslots, List.flatMap_map, ← List.flatMap_id]
  rfl

end Series

namespace Table

variable {t : Table} {id : UInt32} {chunks : List (List UInt8)} {seen : List Nat}

/-- The table when the pieces of some places of a reply have come, but not all. -/
def gathering (t : Table) (id : UInt32) (chunks : List (List UInt8)) (seen : List Nat) : Table :=
  if seen = [] then t else ⟨t.series ++ [Series.gathered id chunks seen]⟩

/-- The series is open, or it is opened now. -/
theorem withSeries?_gathering (hclosed : t.find? id = none) (hroom : t.pending < maxSeries) :
    (t.gathering id chunks seen).withSeries? id chunks.length
      = some (⟨t.series ++ [Series.gathered id chunks seen]⟩, Series.gathered id chunks seen) := by
  -- before the first piece there is no such series; the new one has seen nothing
  by_cases hseen : seen = []
  · subst hseen
    rw [gathering, if_pos rfl, withSeries?, hclosed]
    dsimp only
    rw [if_neg (by omega), Series.gathered_nil]
  · -- none of the others has the id, so the search comes to the last one
    have hfind : find? ⟨t.series ++ [Series.gathered id chunks seen]⟩ id
        = some (Series.gathered id chunks seen) := by
      have hnone : (t.series.find? fun s => s.id == id) = none := hclosed
      simp [find?, List.find?_append, hnone, Series.gathered]
    rw [gathering, if_neg hseen, withSeries?, hfind]
    dsimp only
    rw [if_pos Series.expected_gathered]

theorem id_ne_of_closed (hclosed : t.find? id = none) {s : Series} (hs : s ∈ t.series) :
    s.id ≠ id := by
  have h := List.find?_eq_none.mp hclosed s hs
  simpa using h

/-- A series at the end, whose id no other has, is the one that is replaced. -/
theorem put_append {s s' : Series} (hclosed : t.find? id = none) (hid : s.id = id)
    (hid' : s'.id = id) : put ⟨t.series ++ [s]⟩ s' = ⟨t.series ++ [s']⟩ := by
  have hothers : (t.series.map fun other => if other.id = id then s' else other) = t.series :=
    (List.map_congr_left fun other hother => if_neg (id_ne_of_closed hclosed hother)).trans
      (List.map_id _)
  rw [put, hid', List.map_append, hothers, List.map_singleton, if_pos hid]

theorem close_append {s : Series} (hclosed : t.find? id = none) (hid : s.id = id) :
    close ⟨t.series ++ [s]⟩ id = t := by
  have hothers : (t.series.filter fun other => other.id != id) = t.series :=
    List.filter_eq_self.mpr fun other hother => bne_iff_ne.mpr (id_ne_of_closed hclosed hother)
  have hlast : ([s].filter fun other => other.id != id) = [] := by simp [hid]
  rw [close, List.filter_append, hothers, hlast, List.append_nil]

/-- **One piece of a reply.** As long as others are missing it is added to those that have
come, unless it has come before; the piece that was the last one missing hands out the
reply and leaves the table as it was before the first one. -/
theorem ingest_gathering (hclosed : t.find? id = none) (hroom : t.pending < maxSeries)
    {place : Nat} {chunk : List UInt8} (hchunk : chunks[place]? = some chunk)
    (hmissing : ¬∀ other < chunks.length, other ∈ seen) :
    (t.gathering id chunks seen).ingest id place chunks.length chunk
      = if ∀ other < chunks.length, other ∈ place :: seen then (t, some chunks.flatten)
        else (t.gathering id chunks (place :: seen), none) := by
  have hrange : ¬chunks.length ≤ place := Nat.not_le.mpr (List.getElem?_eq_some_iff.mp hchunk).1
  rw [ingest, if_neg hrange, withSeries?_gathering hclosed hroom]
  dsimp only
  rw [Series.fill?_gathered hchunk]
  -- a piece that has come before finds its slot filled and is passed over
  by_cases hseen : place ∈ seen
  · have hsame : ∀ other, other ∈ place :: seen ↔ other ∈ seen := by
      intro other
      constructor
      · intro h
        rcases List.mem_cons.mp h with rfl | h
        · exact hseen
        · exact h
      · exact List.mem_cons_of_mem place
    have hstill : ¬∀ other < chunks.length, other ∈ place :: seen :=
      fun h => hmissing fun other hother => (hsame other).mp (h other hother)
    have hnonempty : seen ≠ [] := List.ne_nil_of_mem hseen
    rw [if_pos hseen, if_neg hstill, gathering, gathering, if_neg hnonempty,
      if_neg (List.cons_ne_nil _ _), Series.gathered_congr hsame]
  · rw [if_neg hseen]
    dsimp only
    -- a new piece fills its slot: it is the last one missing, or it is not
    by_cases hall : ∀ other < chunks.length, other ∈ place :: seen
    · rw [if_pos (Series.isComplete_gathered.mpr hall), if_pos hall, close_append hclosed rfl,
        Series.joined_gathered hall]
    · rw [if_neg fun h => hall (Series.isComplete_gathered.mp h), if_neg hall,
        put_append hclosed rfl rfl, gathering, if_neg (List.cons_ne_nil _ _)]

end Table

end ServerProbe.Fragment
