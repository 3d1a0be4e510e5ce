/-
Tables of series under calls of any kind and in any order.

What a call does is said by what is found afterwards: a piece that is taken fills one
place of its series, which is then found with that place filled, or not at all if it was
the last one missing, and what is found under any other id stays. Every other piece
leaves the table as it is, for one of four reasons (`Rejects`).

The calls themselves are the second account of what a series holds. A `Watch` follows one
id through a run and keeps the calls since the series was last opened; what the table
holds in a place is the payload of the first of them that named the place
(`watch_records`). So a reply that is handed out is made of first payloads, whatever came
in between (`reassembly_sound`).
-/
import Mathlib.Data.List.Basic
import Mathlib.Data.List.Induction
import Mathlib.Data.List.Nodup
import ServerProbe.Proofs.Fragment

set_option autoImplicit false

namespace ServerProbe.Fragment

/-! ## One series -/

namespace Series

variable {s : Series} {index : Nat} {payload : List UInt8}

theorem fill?_of_empty (h : s.slots[index]? = some none) (payload : List UInt8) :
    s.fill? index payload = some (s.filled index payload) :=
  fill?_eq_some_iff.mpr ⟨h, rfl⟩

@[simp] theorem expected_filled : (s.filled index payload).expected = s.expected :=
  List.length_set

@[simp] theorem received_filled : (s.filled index payload).received = s.received + 1 := rfl

theorem slot_filled (h : s.slots[index]? = some none) (place : Nat) :
    (s.filled index payload).slots[place]?
      = if place = index then some (some payload) else s.slots[place]? := by
  have hlt : index < s.slots.length := (List.getElem?_eq_some_iff.mp h).1
  rw [filled, List.getElem?_set]
  by_cases hplace : place = index
  · rw [if_pos hplace.symm, if_pos hlt, if_pos hplace]
  · rw [if_neg (Ne.symm hplace), if_neg hplace]

@[simp] theorem received_opened (id : UInt32) (count : Nat) : (opened id count).received = 0 := rfl

theorem slot_opened {id : UInt32} {count place : Nat} (h : place < count) :
    (opened id count).slots[place]? = some none := by
  rw [opened, List.getElem?_replicate, if_pos h]

/-- A series that is not complete is short of a piece. -/
theorem Counted.received_lt (hcounted : s.Counted) (h : s.isComplete = false) :
    s.received < s.expected := by
  have hne : s.received ≠ s.expected := by
    intro heq
    rw [Series.isComplete_iff.mpr heq] at h
    cases h
  exact Nat.lt_of_le_of_ne hcounted.received_le hne

end Series

/-! ## What a piece does -/

namespace Table

variable {t : Table} {id : UInt32} {index count : Nat}

/-- The series that a piece belongs to: the one that is open, or a new one. -/
def seriesOf (t : Table) (id : UInt32) (count : Nat) : Series :=
  (t.find? id).getD (Series.opened id count)

/-- Whether a piece fills a place. -/
def takes (t : Table) (id : UInt32) (index count : Nat) : Bool :=
  match t.find? id with
  | some s => s.expected == count && s.slots[index]? == some none
  | none => decide (index < count) && decide (t.pending < maxSeries)

/-- Why a piece is passed over. -/
inductive Rejects (t : Table) (id : UInt32) (index count : Nat) : Prop where
  /-- There is no such place. -/
  | outOfRange : count ≤ index → Rejects t id index count
  /-- The series was opened with another number of places. -/
  | miscounted (s : Series) : t.find? id = some s → s.expected ≠ count → Rejects t id index count
  /-- There is no room for a new series. -/
  | full : t.find? id = none → maxSeries ≤ t.pending → Rejects t id index count
  /-- The place is filled. -/
  | filled (s : Series) (held : List UInt8) : t.find? id = some s →
      s.slots[index]? = some (some held) → Rejects t id index count

theorem find?_id {s : Series} (h : t.find? id = some s) : s.id = id := by
  simpa using List.find?_some h

theorem find?_mem {s : Series} (h : t.find? id = some s) : s ∈ t.series :=
  List.mem_of_find?_eq_some h

theorem find?_close (t : Table) (id other : UInt32) :
    (t.close id).find? other = if other = id then none else t.find? other := by
  by_cases hother : other = id
  · subst hother
    rw [if_pos rfl, find?, List.find?_eq_none]
    intro s hs
    have := (List.mem_filter.mp hs).2
    simpa using this
  · rw [if_neg hother, find?, close, List.find?_filter]
    refine congrArg (fun p => t.series.find? p) (funext fun s => ?_)
    by_cases hs : s.id = other
    · simp [hs, hother]
    · simp [hs]

/-- Replacing a series changes what is found under its id only. -/
theorem find?_put {s old : Series} (h : t.find? s.id = some old) (other : UInt32) :
    (t.put s).find? other = if other = s.id then some s else t.find? other := by
  let replace : Series → Series := fun s' => if s'.id = s.id then s else s'
  -- the replacement has the id of what it replaces, so the search stops where it did
  have hid : ((fun s' : Series => s'.id == other) ∘ replace) = fun s' => s'.id == other := by
    funext s'
    by_cases hs' : s'.id = s.id
    · simp [replace, hs']
    · simp [replace, hs']
  have hfind : (t.put s).find? other = (t.find? other).map replace := by
    rw [find?, put, List.find?_map, hid, find?]
  rw [hfind]
  by_cases hother : other = s.id
  · rw [if_pos hother, hother, h, Option.map_some]
    exact congrArg some (if_pos (find?_id h))
  · rw [if_neg hother]
    rcases hfound : t.find? other with _ | s'
    · rfl
    · rw [Option.map_some]
      exact congrArg some (if_neg fun heq => hother ((find?_id hfound).symm.trans heq))

theorem close_of_none (h : t.find? id = none) : t.close id = t := by
  have hothers : (t.series.filter fun s => s.id != id) = t.series :=
    List.filter_eq_self.mpr fun s hs => bne_iff_ne.mpr (id_ne_of_closed h hs)
  rw [close, hothers]

theorem find?_append {s : Series} (h : t.find? s.id = none) (other : UInt32) :
    find? ⟨t.series ++ [s]⟩ other = if other = s.id then some s else t.find? other := by
  rw [find?, List.find?_append]
  by_cases hother : other = s.id
  · subst hother
    rw [if_pos rfl, show (t.series.find? fun s' => s'.id == s.id) = none from h]
    simp
  · rw [if_neg hother, find?, List.find?_singleton]
    simp [Ne.symm hother]

/-- The series of a piece that is taken is short of it. -/
theorem seriesOf_of_takes (h : t.takes id index count = true) :
    (t.seriesOf id count).id = id ∧ (t.seriesOf id count).expected = count ∧
      (t.seriesOf id count).slots[index]? = some none ∧ index < count := by
  unfold takes at h
  unfold seriesOf
  rcases hfind : t.find? id with _ | s
  · rw [hfind] at h
    simp only [Bool.and_eq_true, decide_eq_true_iff] at h
    exact ⟨rfl, List.length_replicate, Series.slot_opened h.1, h.1⟩
  · rw [hfind] at h
    simp only [Bool.and_eq_true, beq_iff_eq] at h
    have hlt : index < s.slots.length := (List.getElem?_eq_some_iff.mp h.2).1
    have hexpected : s.slots.length = count := h.1
    exact ⟨find?_id hfind, h.1, h.2, hexpected ▸ hlt⟩

/-- A piece is taken, or there is a reason not to take it. -/
theorem takes_eq_false_iff : t.takes id index count = false ↔ t.Rejects id index count := by
  unfold takes
  rcases hfind : t.find? id with _ | s
  · constructor
    · intro h
      rw [Bool.and_eq_false_iff, decide_eq_false_iff_not, decide_eq_false_iff_not] at h
      rcases h with hrange | hfull
      · exact .outOfRange (Nat.le_of_not_lt hrange)
      · exact .full hfind (Nat.le_of_not_lt hfull)
    · intro h
      rw [Bool.and_eq_false_iff, decide_eq_false_iff_not, decide_eq_false_iff_not]
      cases h with
      | outOfRange hrange => exact .inl (Nat.not_lt.mpr hrange)
      | miscounted s hs => cases hfind.symm.trans hs
      | full _ hfull => exact .inr (Nat.not_lt.mpr hfull)
      | filled s held hs => cases hfind.symm.trans hs
  · constructor
    · intro h
      by_cases hcount : s.expected = count
      · rcases hslot : s.slots[index]? with _ | (_ | held)
        · refine .outOfRange ?_
          rw [← hcount]
          exact List.getElem?_eq_none_iff.mp hslot
        · simp [hcount, hslot] at h
        · exact .filled s held hfind hslot
      · exact .miscounted s hfind hcount
    · intro h
      rw [Bool.and_eq_false_iff, beq_eq_false_iff_ne, beq_eq_false_iff_ne]
      cases h with
      | outOfRange hrange =>
        -- a series with that many places has no such place
        by_cases hcount : s.expected = count
        · rw [← hcount] at hrange
          exact .inr (by simp [List.getElem?_eq_none_iff.mpr hrange])
        · exact .inl hcount
      | miscounted s' hs' hcount =>
        obtain rfl : s = s' := Option.some.inj (hfind.symm.trans hs')
        exact .inl hcount
      | full hnone => cases hfind.symm.trans hnone
      | filled s' held hs' hslot =>
        obtain rfl : s = s' := Option.some.inj (hfind.symm.trans hs')
        exact .inr (by simp [hslot])

/-- **A piece that is passed over** leaves the table as it is. -/
theorem ingest_of_rejects (h : t.Rejects id index count) (payload : List UInt8) :
    t.ingest id index count payload = (t, none) := by
  by_cases hrange : count ≤ index
  · rw [ingest, if_pos hrange]
  · rw [ingest, if_neg hrange, withSeries?]
    cases h with
    | outOfRange hle => exact absurd hle hrange
    | miscounted s hfind hcount =>
      rw [hfind]
      dsimp only
      rw [if_neg hcount]
    | full hfind hfull =>
      rw [hfind]
      dsimp only
      rw [if_pos hfull]
    | filled s held hfind hslot =>
      have hfill : s.fill? index payload = none := by
        unfold Series.fill?
        rw [hslot]
      rw [hfind]
      dsimp only
      by_cases hcount : s.expected = count
      · rw [if_pos hcount]
        dsimp only
        rw [hfill]
      · rw [if_neg hcount]

/-- The table with a series, in the place of the one with its id or at the end. -/
def store (t : Table) (s : Series) : Table :=
  if (t.find? s.id).isSome then t.put s else ⟨t.series ++ [s]⟩

theorem find?_store (t : Table) (s : Series) (other : UInt32) :
    (t.store s).find? other = if other = s.id then some s else t.find? other := by
  unfold store
  rcases hfind : t.find? s.id with _ | old
  · rw [if_neg (by simp)]
    exact find?_append hfind other
  · rw [if_pos (by simp)]
    exact find?_put hfind other

/-- **A piece that is taken** fills its place. Its series is stored with it, or the last
place is filled and the series is handed out. -/
theorem ingest_of_takes (h : t.takes id index count = true) (payload : List UInt8) :
    t.ingest id index count payload
      = if ((t.seriesOf id count).filled index payload).isComplete then
          (t.close id, some ((t.seriesOf id count).filled index payload).joined)
        else (t.store ((t.seriesOf id count).filled index payload), none) := by
  obtain ⟨-, -, hslot, hlt⟩ := seriesOf_of_takes h
  have hfill := Series.fill?_of_empty hslot payload
  rw [ingest, if_neg (Nat.not_le.mpr hlt)]
  unfold takes at h
  unfold seriesOf at hfill ⊢
  unfold withSeries? store
  rcases hfind : t.find? id with _ | s
  · -- a new series is at the end, and nothing else has its id
    rw [hfind] at h hfill
    simp only [Bool.and_eq_true, decide_eq_true_iff] at h
    rw [Option.getD_none] at hfill ⊢
    have hclose : close ⟨t.series ++ [Series.opened id count]⟩ id = t.close id :=
      (close_append hfind rfl).trans (close_of_none hfind).symm
    have hput : put ⟨t.series ++ [Series.opened id count]⟩
          ((Series.opened id count).filled index payload)
        = ⟨t.series ++ [(Series.opened id count).filled index payload]⟩ :=
      put_append hfind rfl rfl
    have hnone : t.find? ((Series.opened id count).filled index payload).id = none := hfind
    dsimp only
    rw [if_neg (Nat.not_le.mpr h.2), hnone]
    dsimp only
    rw [hfill]
    dsimp only
    rw [hclose, hput]
    rfl
  · rw [hfind] at h hfill
    simp only [Bool.and_eq_true, beq_iff_eq] at h
    rw [Option.getD_some] at hfill ⊢
    have hsome : t.find? (s.filled index payload).id = some s :=
      (congrArg t.find? (find?_id hfind)).trans hfind
    dsimp only
    rw [if_pos h.1, hsome]
    dsimp only
    rw [hfill]
    rfl

/-- **A reply that is handed out** is what the series of the piece joins to, with its last
place filled. -/
theorem whole_of_ingest {payload whole : List UInt8}
    (h : (t.ingest id index count payload).2 = some whole) :
    t.takes id index count = true ∧
      ((t.seriesOf id count).filled index payload).isComplete = true ∧
      ((t.seriesOf id count).filled index payload).joined = whole := by
  rcases htakes : t.takes id index count with _ | _
  · rw [ingest_of_rejects (takes_eq_false_iff.mp htakes)] at h
    cases h
  · rw [ingest_of_takes htakes] at h
    by_cases hcomplete : ((t.seriesOf id count).filled index payload).isComplete = true
    · rw [if_pos hcomplete] at h
      exact ⟨rfl, hcomplete, Option.some.inj h⟩
    · rw [if_neg hcomplete] at h
      cases h

/-- What is found under an id after a piece: the series with the place filled, or nothing if
that was the last one; and the other series as they were. -/
theorem find?_ingest (h : t.takes id index count = true) (payload : List UInt8)
    (other : UInt32) :
    (t.ingest id index count payload).1.find? other
      = if other = id then
          if ((t.seriesOf id count).filled index payload).isComplete then none
          else some ((t.seriesOf id count).filled index payload)
        else t.find? other := by
  have hid : ((t.seriesOf id count).filled index payload).id = id := (seriesOf_of_takes h).1
  rw [ingest_of_takes h]
  split
  · rw [find?_close]
  · rw [find?_store, hid]

/-- Whatever a piece is, it concerns one series only. -/
theorem find?_ingest_of_ne {other : UInt32} (h : other ≠ id) (payload : List UInt8) :
    (t.ingest id index count payload).1.find? other = t.find? other := by
  rcases htakes : t.takes id index count with _ | _
  · rw [ingest_of_rejects (takes_eq_false_iff.mp htakes)]
  · rw [find?_ingest htakes, if_neg h]

/-! ## Tables in order -/

/-- A table in order. -/
structure WellFormed (t : Table) : Prop where
  /-- Few series are open. -/
  few : t.pending ≤ maxSeries
  /-- Ids tell them apart. -/
  distinct : (t.series.map Series.id).Nodup
  /-- Each has counted the slots that are filled. -/
  counted : ∀ s ∈ t.series, s.Counted
  /-- Each has some of its pieces, but not all. -/
  short : ∀ s ∈ t.series, 0 < s.received ∧ s.received < s.expected

theorem wellFormed_empty : WellFormed {} where
  few := Nat.zero_le _
  distinct := List.nodup_nil
  counted _ hs := absurd hs List.not_mem_nil
  short _ hs := absurd hs List.not_mem_nil

/-- Where ids tell series apart, a series that is there is the one that is found. -/
theorem WellFormed.find?_of_mem (h : t.WellFormed) {s : Series} (hs : s ∈ t.series) :
    t.find? s.id = some s := by
  obtain ⟨found, hfound⟩ : ∃ found, t.find? s.id = some found := by
    rw [← Option.isSome_iff_exists, find?, List.find?_isSome]
    exact ⟨s, hs, by simp⟩
  rw [hfound, List.inj_on_of_nodup_map h.distinct (find?_mem hfound) hs (find?_id hfound)]

/-- The count of the series that a piece belongs to is right. -/
theorem WellFormed.counted_seriesOf (h : t.WellFormed) (id : UInt32) (count : Nat) :
    (t.seriesOf id count).Counted := by
  unfold seriesOf
  rcases hfind : t.find? id with _ | s
  · exact Series.counted_opened id count
  · exact h.counted s (find?_mem hfind)

theorem WellFormed.close (h : t.WellFormed) (id : UInt32) : (t.close id).WellFormed where
  few := Nat.le_trans (List.length_filter_le _ _) h.few
  distinct := h.distinct.sublist (List.filter_sublist.map _)
  counted s hs := h.counted s (List.mem_filter.mp hs).1
  short s hs := h.short s (List.mem_filter.mp hs).1

theorem WellFormed.store (h : t.WellFormed) {s : Series}
    (hroom : t.find? s.id = none → t.pending < maxSeries) (hcounted : s.Counted)
    (hshort : 0 < s.received ∧ s.received < s.expected) : (t.store s).WellFormed := by
  unfold Table.store
  rcases hfind : t.find? s.id with _ | old
  · rw [if_neg (by simp)]
    have hmem : ∀ other ∈ t.series ++ [s], other ∈ t.series ∨ other = s := fun other hother =>
      (List.mem_append.mp hother).imp_right List.mem_singleton.mp
    refine ⟨?_, ?_, ?_, ?_⟩
    · have hlt := hroom hfind
      rw [pending, List.length_append, List.length_singleton]
      exact hlt
    · rw [List.map_append, List.map_singleton, List.nodup_append]
      refine ⟨h.distinct, List.nodup_singleton _, ?_⟩
      intro a ha b hb
      obtain ⟨other, hother, rfl⟩ := List.mem_map.mp ha
      rw [List.mem_singleton.mp hb]
      exact id_ne_of_closed hfind hother
    · intro other hother
      rcases hmem other hother with hold | rfl
      · exact h.counted other hold
      · exact hcounted
    · intro other hother
      rcases hmem other hother with hold | rfl
      · exact h.short other hold
      · exact hshort
  · rw [if_pos (by simp)]
    have hids : (t.put s).series.map Series.id = t.series.map Series.id := by
      rw [put, List.map_map]
      refine List.map_congr_left fun other _ => ?_
      by_cases hother : other.id = s.id
      · simp [hother]
      · simp [hother]
    have hmem : ∀ other ∈ (t.put s).series, other ∈ t.series ∨ other = s := by
      intro other hother
      obtain ⟨was, hwas, rfl⟩ := List.mem_map.mp hother
      split
      · exact .inr rfl
      · exact .inl hwas
    refine ⟨?_, ?_, ?_, ?_⟩
    · rw [pending, put, List.length_map]
      exact h.few
    · rw [hids]
      exact h.distinct
    · intro other hother
      rcases hmem other hother with hold | rfl
      · exact h.counted other hold
      · exact hcounted
    · intro other hother
      rcases hmem other hother with hold | rfl
      · exact h.short other hold
      · exact hshort

/-- A piece leaves a table in order. -/
theorem WellFormed.ingest (h : t.WellFormed) (id : UInt32) (index count : Nat)
    (payload : List UInt8) : (t.ingest id index count payload).1.WellFormed := by
  rcases htakes : t.takes id index count with _ | _
  · rw [ingest_of_rejects (takes_eq_false_iff.mp htakes)]
    exact h
  · obtain ⟨hid, -, hslot, -⟩ := seriesOf_of_takes htakes
    have hcounted := (h.counted_seriesOf id count).filled hslot payload
    rw [ingest_of_takes htakes]
    rcases hcomplete : ((t.seriesOf id count).filled index payload).isComplete with _ | _
    · rw [if_neg Bool.false_ne_true]
      refine h.store ?_ hcounted ⟨?_, hcounted.received_lt hcomplete⟩
      · intro hnone
        have hnew : t.find? id = none := hid ▸ hnone
        rw [takes, hnew, Bool.and_eq_true, decide_eq_true_iff, decide_eq_true_iff] at htakes
        exact htakes.2
      · rw [Series.received_filled]
        exact Nat.succ_pos _
    · rw [if_pos rfl]
      exact h.close id

end Table

/-! ## Calls -/

/-- What can happen to a table. -/
inductive Call where
  /-- A piece comes in. -/
  | ingest (id : UInt32) (index count : Nat) (payload : List UInt8)
  /-- All series are given up. -/
  | clear
  deriving Repr, DecidableEq

namespace Table

/-- Does what a call says. -/
def perform (t : Table) : Call → Table × Option (List UInt8)
  | .ingest id index count payload => t.ingest id index count payload
  | .clear => ({}, none)

/-- The table after one more call. -/
def after (t : Table) (call : Call) : Table := (t.perform call).1

/-- The table after a run of calls on an empty one. -/
def run (calls : List Call) : Table := calls.foldl after {}

theorem run_concat (calls : List Call) (call : Call) :
    run (calls ++ [call]) = (run calls).after call := by
  rw [run, List.foldl_append, List.foldl_cons, List.foldl_nil, run]

/-- **Every run leaves a table in order.** -/
theorem wellFormed_run (calls : List Call) : (run calls).WellFormed := by
  induction calls using List.reverseRecOn with
  | nil => exact wellFormed_empty
  | append_singleton calls call ih =>
    rw [run_concat]
    cases call with
    | ingest id index count payload => exact ih.ingest id index count payload
    | clear => exact wellFormed_empty

/-- Whether a call fills a place of a series. -/
def fills (t : Table) (id : UInt32) : Call → Bool
  | .ingest id' index count _ => id' == id && t.takes id index count
  | .clear => false

/-- Whether a call opens a series. -/
def opens (t : Table) (id : UInt32) (call : Call) : Bool :=
  t.fills id call && (t.find? id).isNone

end Table

/-! ## Watching one series -/

/-- The payload of the first piece that came for a place of a series. -/
def firstPayload (id : UInt32) (index count : Nat) (calls : List Call) : Option (List UInt8) :=
  calls.findSome? fun
    | .ingest id' index' count' payload =>
      if id' = id ∧ index' = index ∧ count' = count then some payload else none
    | .clear => none

/-- What a run has to do with one series. -/
structure Watch where
  table : Table := {}
  /-- The calls since the series was last opened, the one that opened it first. -/
  since : List Call := []
  /-- How many of them have filled a place. -/
  filled : Nat := 0
  deriving Repr, DecidableEq

namespace Watch

/-- Watches one more call. -/
def step (id : UInt32) (w : Watch) (call : Call) : Watch where
  table := w.table.after call
  since := if w.table.opens id call then [call] else w.since ++ [call]
  filled := (if w.table.opens id call then 0 else w.filled)
    + if w.table.fills id call then 1 else 0

/-- The calls since the series was opened, if it is open. -/
def earlier (id : UInt32) (w : Watch) : List Call :=
  if (w.table.find? id).isNone then [] else w.since

/-- Whether a series is what the calls since it was opened make of it. -/
structure Accounts (w : Watch) (s : Series) : Prop where
  /-- The call that opened it said how many places there are. -/
  opening : ∃ index payload, w.since.head? = some (.ingest s.id index s.expected payload)
  /-- It has counted the calls that have filled a place. -/
  counted : s.received = w.filled
  /-- Each place holds what came first for it. -/
  slots : ∀ place < s.expected,
    s.slots[place]? = some (firstPayload s.id place s.expected w.since)

end Watch

/-- The watch on a series over a run. -/
def watch (id : UInt32) (calls : List Call) : Watch := calls.foldl (Watch.step id) {}

theorem watch_concat (id : UInt32) (calls : List Call) (call : Call) :
    watch id (calls ++ [call]) = (watch id calls).step id call := by
  rw [watch, List.foldl_append, List.foldl_cons, List.foldl_nil, watch]

theorem watch_table (id : UInt32) (calls : List Call) :
    (watch id calls).table = Table.run calls := by
  induction calls using List.reverseRecOn with
  | nil => rfl
  | append_singleton calls call ih =>
    rw [watch_concat, Table.run_concat, ← ih]
    rfl

section FirstPayload

variable {id : UInt32} {place count : Nat} {calls : List Call}

theorem firstPayload_concat (call : Call) :
    firstPayload id place count (calls ++ [call])
      = (firstPayload id place count calls).or (firstPayload id place count [call]) := by
  rw [firstPayload, List.findSome?_append]
  rfl

theorem firstPayload_singleton (index : Nat) (payload : List UInt8) :
    firstPayload id place count [.ingest id index count payload]
      = if place = index then some payload else none := by
  rw [firstPayload, List.findSome?_cons, List.findSome?_nil]
  by_cases hplace : place = index
  · simp [hplace]
  · simp [hplace, Ne.symm hplace]

/-- A piece that does not belong to the series tells nothing about its places. -/
theorem firstPayload_singleton_of_ne {id' : UInt32} {index count' : Nat}
    (h : ¬(id' = id ∧ count' = count)) (payload : List UInt8) :
    firstPayload id place count [.ingest id' index count' payload] = none := by
  have hno : ¬(id' = id ∧ index = place ∧ count' = count) := fun hyes => h ⟨hyes.1, hyes.2.2⟩
  simp [firstPayload, hno]

theorem firstPayload_clear : firstPayload id place count [.clear] = none := rfl

end FirstPayload

namespace Watch

variable {w : Watch} {id : UInt32} {index count : Nat}

theorem since_of_takes (htakes : w.table.takes id index count = true) (payload : List UInt8) :
    (w.step id (.ingest id index count payload)).since
      = w.earlier id ++ [.ingest id index count payload] := by
  have hopens : w.table.opens id (.ingest id index count payload) = (w.table.find? id).isNone := by
    rw [Table.opens, Table.fills, beq_self_eq_true, htakes, Bool.and_self, Bool.true_and]
  rw [step, earlier, hopens]
  split
  · rfl
  · rfl

/-- The places of the series that a piece belongs to hold what came first for them. -/
theorem slot_earlier (h : ∀ s, w.table.find? id = some s → w.Accounts s)
    (htakes : w.table.takes id index count = true) {place : Nat} (hplace : place < count) :
    (w.table.seriesOf id count).slots[place]?
      = some (firstPayload id place count (w.earlier id)) := by
  obtain ⟨hid, hexpected, -, -⟩ := Table.seriesOf_of_takes htakes
  unfold Table.seriesOf at hid hexpected ⊢
  unfold earlier
  rcases hfind : w.table.find? id with _ | s
  · -- a new series is empty, and no call belongs to it yet
    rw [Option.getD_none, Series.slot_opened hplace]
    rfl
  · rw [hfind, Option.getD_some] at hid hexpected
    have hslots := (h s hfind).slots place (hexpected ▸ hplace)
    rw [hid, hexpected] at hslots
    exact hslots

/-- A piece that is taken: the series with the place filled is what the calls make of it
then. -/
theorem Accounts.filled (h : ∀ s, w.table.find? id = some s → w.Accounts s)
    (htakes : w.table.takes id index count = true) (payload : List UInt8) :
    (w.step id (.ingest id index count payload)).Accounts
      ((w.table.seriesOf id count).filled index payload) := by
  obtain ⟨hid, hexpected, hslot, hlt⟩ := Table.seriesOf_of_takes htakes
  have hid' : ((w.table.seriesOf id count).filled index payload).id = id := hid
  have hsince := since_of_takes htakes payload
  have hfills : w.table.fills id (.ingest id index count payload) = true := by
    rw [Table.fills, beq_self_eq_true, Bool.true_and, htakes]
  refine ⟨?_, ?_, ?_⟩
  · rw [hsince, hid', Series.expected_filled, hexpected, earlier]
    rcases hfind : w.table.find? id with _ | s
    · exact ⟨index, payload, rfl⟩
    · -- the series is open, so the call that opened it comes first
      rw [Table.seriesOf, hfind, Option.getD_some] at hid hexpected
      obtain ⟨index₀, payload₀, hopening⟩ := (h s hfind).opening
      refine ⟨index₀, payload₀, ?_⟩
      rw [hid, hexpected] at hopening
      rw [if_neg (by simp), List.head?_append, hopening]
      rfl
  · rw [Series.received_filled, step, hfills, Table.opens, hfills, Table.seriesOf]
    rcases hfind : w.table.find? id with _ | s
    · rw [Option.getD_none, Series.received_opened]
      rfl
    · rw [Option.getD_some, (h s hfind).counted]
      rfl
  · intro place hplace
    rw [Series.expected_filled, hexpected] at hplace ⊢
    rw [hid', hsince, firstPayload_concat, firstPayload_singleton, Series.slot_filled hslot]
    have hheld := slot_earlier h htakes hplace
    by_cases hhere : place = index
    · -- nothing has come for this place, since it is empty
      rw [hhere, hslot, Option.some.injEq] at hheld
      rw [if_pos hhere, if_pos hhere, hhere, ← hheld, Option.none_or]
    · rw [if_neg hhere, if_neg hhere, hheld, Option.or_none]

/-- A call that fills no place of a series adds nothing to what its places hold. -/
theorem Accounts.passed {s : Series} (h : w.Accounts s) (hfind : w.table.find? s.id = some s)
    {call : Call} (hfills : w.table.fills s.id call = false) :
    (w.step s.id call).Accounts s := by
  have hopens : w.table.opens s.id call = false := by rw [Table.opens, hfills, Bool.false_and]
  have hsince : (w.step s.id call).since = w.since ++ [call] := by
    rw [step, hopens]
    rfl
  obtain ⟨⟨index₀, payload₀, hopening⟩, hcounted, hslots⟩ := h
  refine ⟨⟨index₀, payload₀, ?_⟩, ?_, ?_⟩
  · rw [hsince, List.head?_append, hopening]
    rfl
  · rw [hcounted, step, hopens, hfills]
    rfl
  · intro place hplace
    rw [hsince, firstPayload_concat, hslots place hplace]
    cases call with
    | clear => rw [firstPayload_clear, Option.or_none]
    | ingest id index count payload =>
      by_cases hmine : id = s.id ∧ count = s.expected
      · -- a piece of the series that is passed over names a place that is filled
        obtain ⟨rfl, rfl⟩ := hmine
        rw [firstPayload_singleton]
        by_cases hhere : place = index
        · rw [Table.fills, beq_self_eq_true, Bool.true_and, Table.takes, hfind] at hfills
          have hheld := hslots place hplace
          rcases hfirst : firstPayload s.id place s.expected w.since with _ | payload'
          · rw [hfirst, hhere] at hheld
            simp [hheld] at hfills
          · rfl
        · rw [if_neg hhere, Option.or_none]
      · rw [firstPayload_singleton_of_ne hmine, Option.or_none]

end Watch

/-- **What an open series holds.** The series that is found under an id after a run is what
the calls since it was opened make of it. -/
theorem watch_accounts (id : UInt32) (calls : List Call) :
    ∀ s, (Table.run calls).find? id = some s → (watch id calls).Accounts s := by
  induction calls using List.reverseRecOn with
  | nil => nofun
  | append_singleton calls call ih =>
    intro s hs
    rw [watch_concat]
    rw [← watch_table id] at ih
    rw [Table.run_concat, ← watch_table id] at hs
    cases call with
    | clear => cases hs
    | ingest id' index count payload =>
      by_cases hmine : id' = id
      · subst hmine
        rcases htakes : (watch id' calls).table.takes id' index count with _ | _
        · -- the piece is passed over
          have hfills : (watch id' calls).table.fills id' (.ingest id' index count payload)
              = false := by
            rw [Table.fills, beq_self_eq_true, Bool.true_and, htakes]
          rw [Table.after, Table.perform,
            Table.ingest_of_rejects (Table.takes_eq_false_iff.mp htakes)] at hs
          have hid := Table.find?_id hs
          subst hid
          exact (ih s hs).passed hs hfills
        · have hfilled := Watch.Accounts.filled ih htakes payload
          rw [Table.after, Table.perform, Table.find?_ingest htakes, if_pos rfl] at hs
          obtain rfl := Option.some.inj (Option.ite_none_left_eq_some.mp hs).2
          exact hfilled
      · -- the piece belongs to another series
        have hfills : (watch id calls).table.fills id (.ingest id' index count payload)
            = false := by
          rw [Table.fills, beq_eq_false_iff_ne.mpr hmine, Bool.false_and]
        rw [Table.after, Table.perform, Table.find?_ingest_of_ne (Ne.symm hmine)] at hs
        have hid := Table.find?_id hs
        subst hid
        exact (ih s hs).passed hs hfills

/-! ## Replies that are handed out -/

/-- A series whose places are known joins to what they hold. -/
theorem Series.joined_eq {s : Series} {held : Nat → Option (List UInt8)}
    (h : ∀ place < s.expected, s.slots[place]? = some (held place)) :
    s.joined = (List.range s.expected).flatMap fun place => (held place).getD [] := by
  have hslots : s.slots = (List.range s.expected).map held := by
    refine List.ext_getElem? fun place => ?_
    rw [List.getElem?_map]
    by_cases hplace : place < s.expected
    · rw [h place hplace, List.getElem?_range hplace, Option.map_some]
    · have hrange : (List.range s.expected)[place]? = none := by simp [Nat.le_of_not_lt hplace]
      rw [List.getElem?_eq_none_iff.mpr (Nat.le_of_not_lt hplace), hrange, Option.map_none]
  rw [joined, hslots, List.flatMap_map]

/-- **Tables are sound.** After any sequence of calls few series are open, each under an id
of its own and short of a piece, and what a series has counted is the number of its places
that are filled, and that of the calls that have filled one since it was opened. A reply that
a piece makes whole is made of the first payloads
that came for its places since its series was opened, and the piece is the first for the
one place that was missing. A piece that is passed over leaves the table as it is. (Calls that
would open a series longer than `maxPlaces` end the program. No payload makes one: see
`Exchange.Receives`.) -/
theorem reassembly_sound (calls : List Call) :
    (Table.run calls).pending ≤ maxSeries ∧
    ((Table.run calls).series.map Series.id).Nodup ∧
    (∀ s ∈ (Table.run calls).series,
      (∃ index payload,
        (watch s.id calls).since.head? = some (.ingest s.id index s.expected payload)) ∧
      s.received = s.slots.countP Option.isSome ∧
      s.received = (watch s.id calls).filled ∧ 0 < s.received ∧ s.received < s.expected) ∧
    (∀ id index count payload whole,
      ((Table.run calls).ingest id index count payload).2 = some whole →
      ∃ earlier since, since = earlier ++ [.ingest id index count payload] ∧
        (watch id (calls ++ [.ingest id index count payload])).since = since ∧
        (∃ index₀ payload₀, since.head? = some (.ingest id index₀ count payload₀)) ∧
        (∀ place < count, (firstPayload id place count since).isSome) ∧
        whole = (List.range count).flatMap
          (fun place => (firstPayload id place count since).getD []) ∧
        index < count ∧ firstPayload id index count earlier = none ∧
        ∀ place < count, place ≠ index → (firstPayload id place count earlier).isSome) ∧
    ∀ id index count payload, (Table.run calls).Rejects id index count →
      (Table.run calls).ingest id index count payload = (Table.run calls, none) := by
  have hordered := Table.wellFormed_run calls
  refine ⟨hordered.few, hordered.distinct, ?_, ?_,
    fun id index count payload hrejects => Table.ingest_of_rejects hrejects payload⟩
  · intro s hs
    have haccounts := watch_accounts s.id calls s (hordered.find?_of_mem hs)
    exact ⟨haccounts.opening, hordered.counted s hs, haccounts.counted, hordered.short s hs⟩
  · intro id index count payload whole hwhole
    have hknown := watch_accounts id calls
    rw [← watch_table id] at hknown hwhole
    obtain ⟨htakes, hcomplete, hjoined⟩ := Table.whole_of_ingest hwhole
    obtain ⟨hid, hexpected, hslot, hlt⟩ := Table.seriesOf_of_takes htakes
    obtain ⟨hopening, -, hslots⟩ := Watch.Accounts.filled hknown htakes payload
    have hcounted : (((watch id calls).table.seriesOf id count).filled index payload).Counted := by
      rw [watch_table id] at hslot ⊢
      exact (hordered.counted_seriesOf id count).filled hslot payload
    have hsince := Watch.since_of_takes htakes payload
    generalize hmade : ((watch id calls).table.seriesOf id count).filled index payload = made
      at hcomplete hjoined hopening hslots hcounted
    have hid' : made.id = id := by rw [← hmade]; exact hid
    have hexpected' : made.expected = count := by
      rw [← hmade, Series.expected_filled, hexpected]
    rw [hid', hexpected', hsince] at hopening hslots
    -- the piece has made the reply whole, so every place is filled
    have hall : ∀ place < count, (firstPayload id place count
        ((watch id calls).earlier id ++ [.ingest id index count payload])).isSome := by
      intro place hplace
      exact hcounted.isComplete_iff.mp hcomplete _ (List.mem_of_getElem? (hslots place hplace))
    refine ⟨(watch id calls).earlier id, _, rfl, ?_, hopening, hall, ?_, hlt, ?_, ?_⟩
    · rw [watch_concat, hsince]
    · rw [← hjoined, ← hexpected']
      rw [← hexpected'] at hslots
      exact Series.joined_eq hslots
    · have hempty := Watch.slot_earlier hknown htakes hlt
      rw [hslot, Option.some.injEq] at hempty
      exact hempty.symm
    · -- the piece names another place, so this one was filled before
      intro place hplace hother
      have hsome := hall place hplace
      rw [firstPayload_concat, firstPayload_singleton, if_neg hother, Option.or_none] at hsome
      exact hsome

/-- A series that is given up and opened again; then a place is claimed twice, and once with
another number of places. -/
def reopened : List Call :=
  [.ingest 9 1 2 [6], .clear, .ingest 9 0 2 [1, 2], .ingest 9 0 2 [7], .ingest 9 1 3 [8]]

/-- What came before the series was given up, for a place that was filled or with another
number of places is not in the reply. -/
theorem reassembly_sound_reopened :
    ((Table.run reopened).ingest 9 1 2 [3, 4]).2 = some [1, 2, 3, 4] ∧
    (∃ earlier, (watch 9 (reopened ++ [.ingest 9 1 2 [3, 4]])).since
        = earlier ++ [.ingest 9 1 2 [3, 4]] ∧
      firstPayload 9 1 2 earlier = none ∧ (firstPayload 9 0 2 earlier).isSome) ∧
    (Table.run reopened).Rejects 9 0 2 ∧
    (Table.run reopened).ingest 9 0 2 [5] = (Table.run reopened, none) := by
  obtain ⟨-, -, -, hwhole, hpassed⟩ := reassembly_sound reopened
  have hrejects : (Table.run reopened).Rejects 9 0 2 := .filled _ [1, 2] rfl rfl
  obtain ⟨earlier, since, rfl, hsince, -, -, -, -, hfirst, hothers⟩ :=
    hwhole 9 1 2 [3, 4] [1, 2, 3, 4] (by decide)
  exact ⟨by decide, ⟨earlier, hsince, hfirst, hothers 0 (by decide) (by decide)⟩, hrejects,
    hpassed 9 0 2 [5] hrejects⟩

end ServerProbe.Fragment
