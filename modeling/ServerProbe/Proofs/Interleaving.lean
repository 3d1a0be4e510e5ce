/-
Replies that come in side by side.

Several replies are on their way, each cut into pieces of its own, and the pieces come in
whatever order and more than once. As long as there is room for all of them, the table
holds of each reply the pieces that have come since it was last made whole, and nothing
else (`Gathers`). What a piece does then depends on the pieces of its own reply alone, so
the replies do not see each other (`interleaved_round_trip`).
-/
import Mathlib.Data.Finset.Card
import ServerProbe.Proofs.Reassembly

set_option autoImplicit false

namespace ServerProbe.Fragment

/-! ## Pieces and what they lead to -/

/-- A piece of one of several replies: the id of its series and its place. -/
structure Piece where
  id : UInt32
  place : Nat
  deriving Repr, DecidableEq

section Replies

-- the replies, cut into pieces, by the ids of their series
variable (replies : UInt32 → List (List UInt8))

/-- The call with a piece. -/
def Piece.call (p : Piece) : Call :=
  .ingest p.id p.place (replies p.id).length ((replies p.id).getD p.place [])

/-- The table after pieces that came to an empty one. -/
def tableAfter (pieces : List Piece) : Table := Table.run (pieces.map (Piece.call replies))

/-- What a piece hands out after others. -/
def handedOut (earlier : List Piece) (p : Piece) : Option (List UInt8) :=
  ((tableAfter replies earlier).perform (p.call replies)).2

/-- What a table does with pieces, one after another. -/
def outcomesFrom (t : Table) : List Piece → List (Piece × Option (List UInt8))
  | [] => []
  | p :: rest =>
    (p, (t.perform (p.call replies)).2) :: outcomesFrom (t.after (p.call replies)) rest

/-- What an empty table does with pieces. -/
def outcomes (pieces : List Piece) : List (Piece × Option (List UInt8)) :=
  outcomesFrom replies {} pieces

/-- The places of a reply that have come since it was last made whole, latest first. -/
def comeSince (id : UInt32) (outcomes : List (Piece × Option (List UInt8))) : List Nat :=
  outcomes.foldl
    (fun places o =>
      if o.1.id = id then if o.2.isSome then [] else o.1.place :: places else places) []

theorem tableAfter_concat (pieces : List Piece) (p : Piece) :
    tableAfter replies (pieces ++ [p]) = (tableAfter replies pieces).after (p.call replies) := by
  rw [tableAfter, List.map_append, List.map_singleton, Table.run_concat, tableAfter]

theorem outcomes_concat (pieces : List Piece) (p : Piece) :
    outcomes replies (pieces ++ [p])
      = outcomes replies pieces ++ [(p, handedOut replies pieces p)] := by
  -- by induction on the pieces, from any table
  have along : ∀ (pieces : List Piece) (t : Table),
      outcomesFrom replies t (pieces ++ [p]) = outcomesFrom replies t pieces
        ++ [(p, (((pieces.map (Piece.call replies)).foldl Table.after t).perform
          (p.call replies)).2)] := by
    intro pieces
    induction pieces with
    | nil => exact fun t => rfl
    | cons first rest ih =>
      intro t
      rw [List.cons_append, outcomesFrom, ih, outcomesFrom]
      rfl
  exact along pieces {}

end Replies

theorem comeSince_concat (id : UInt32) (outcomes : List (Piece × Option (List UInt8)))
    (p : Piece) (out : Option (List UInt8)) :
    comeSince id (outcomes ++ [(p, out)])
      = if p.id = id then if out.isSome then [] else p.place :: comeSince id outcomes
        else comeSince id outcomes := by
  rw [comeSince, List.foldl_append, List.foldl_cons, List.foldl_nil, comeSince]

/-- What has come of a reply is a matter of its own pieces. -/
theorem comeSince_filter (id : UInt32) (outcomes : List (Piece × Option (List UInt8))) :
    comeSince id (outcomes.filter fun o => o.1.id == id) = comeSince id outcomes := by
  induction outcomes using List.reverseRecOn with
  | nil => rfl
  | append_singleton outcomes o ih =>
    obtain ⟨p, out⟩ := o
    rw [List.filter_append, comeSince_concat, ← ih]
    by_cases hmine : p.id = id
    · rw [List.filter_cons_of_pos (by simpa using hmine), List.filter_nil, comeSince_concat]
    · rw [List.filter_cons_of_neg (by simpa using hmine), List.filter_nil, List.append_nil,
        if_neg hmine]

/-! ## What the table holds -/

/-- Whether all pieces of a reply are among some places. -/
def Covers (chunks : List (List UInt8)) (places : List Nat) : Prop :=
  ∀ place < chunks.length, place ∈ places

instance (chunks : List (List UInt8)) (places : List Nat) : Decidable (Covers chunks places) :=
  inferInstanceAs (Decidable (∀ place < chunks.length, place ∈ places))

/-- Whether a table holds of each reply the pieces of some places, and of no reply all. -/
structure Gathers (replies : UInt32 → List (List UInt8)) (ids : Finset UInt32)
    (come : UInt32 → List Nat) (t : Table) : Prop where
  wellFormed : t.WellFormed
  found : ∀ id, t.find? id
    = if come id = [] then none else some (Series.gathered id (replies id) (come id))
  missing : ∀ id ∈ ids, ¬Covers (replies id) (come id)
  known : ∀ id, come id ≠ [] → id ∈ ids

namespace Gathers

variable {replies : UInt32 → List (List UInt8)} {ids : Finset UInt32} {come : UInt32 → List Nat}
  {t : Table}

theorem empty (hreplies : ∀ id ∈ ids, replies id ≠ []) :
    Gathers replies ids (fun _ => []) {} where
  wellFormed := Table.wellFormed_empty
  found _ := rfl
  missing := by
    intro id hid hcovers
    exact List.not_mem_nil (hcovers 0 (List.length_pos_iff.mpr (hreplies id hid)))
  known _ hcome := absurd rfl hcome

/-- A reply of which nothing has come finds room, if there are not more replies than the
table has room for. -/
theorem room (h : Gathers replies ids come t) (hcard : ids.card ≤ maxSeries) {id : UInt32}
    (hid : id ∈ ids) (hnone : come id = []) : t.pending < maxSeries := by
  have hclosed : t.find? id = none := by rw [h.found, if_pos hnone]
  -- the open series have different ids, all of them in the set and none of them this one
  have hopen : (t.series.map Series.id).toFinset ⊆ ids.erase id := by
    intro other hother
    obtain ⟨s, hs, rfl⟩ := List.mem_map.mp (List.mem_toFinset.mp hother)
    have hfound := h.wellFormed.find?_of_mem hs
    rw [h.found] at hfound
    refine Finset.mem_erase.mpr ⟨Table.id_ne_of_closed hclosed hs, h.known _ fun hempty => ?_⟩
    rw [if_pos hempty] at hfound
    cases hfound
  have hle := Finset.card_le_card hopen
  rw [List.toFinset_card_of_nodup h.wellFormed.distinct, List.length_map,
    Finset.card_erase_of_mem hid] at hle
  have hpos := Finset.card_pos.mpr ⟨id, hid⟩
  rw [Table.pending]
  omega

/-- Where only one series changes, the others hold what they held. -/
theorem update (h : Gathers replies ids come t) {id : UInt32} (hid : id ∈ ids) {t' : Table}
    (hwellFormed : t'.WellFormed) (hothers : ∀ other ≠ id, t'.find? other = t.find? other)
    {places : List Nat} (hmissing : ¬Covers (replies id) places)
    (hfound : t'.find? id
      = if places = [] then none else some (Series.gathered id (replies id) places)) :
    Gathers replies ids (Function.update come id places) t' where
  wellFormed := hwellFormed
  found := by
    intro other
    by_cases hother : other = id
    · rw [hother, Function.update_self, hfound]
    · rw [Function.update_of_ne hother, hothers other hother, h.found]
  missing := by
    intro other hmem
    by_cases hother : other = id
    · rw [hother, Function.update_self]
      exact hmissing
    · rw [Function.update_of_ne hother]
      exact h.missing other hmem
  known := by
    intro other hsome
    by_cases hother : other = id
    · rw [hother]
      exact hid
    · rw [Function.update_of_ne hother] at hsome
      exact h.known other hsome

/-- The series of a piece holds what has come of its reply. -/
theorem seriesOf_eq (h : Gathers replies ids come t) (id : UInt32) :
    t.seriesOf id (replies id).length = Series.gathered id (replies id) (come id) := by
  rw [Table.seriesOf, h.found]
  by_cases hnone : come id = []
  · rw [if_pos hnone, Option.getD_none, hnone, Series.gathered_nil]
  · rw [if_neg hnone, Option.getD_some]

section Piece

variable (h : Gathers replies ids come t) (hcard : ids.card ≤ maxSeries) {p : Piece}
  (hid : p.id ∈ ids) (hplace : p.place < (replies p.id).length)
include h hcard hid hplace

/-- A piece that has not come is taken. -/
theorem takes_of_not_mem (hnew : p.place ∉ come p.id) :
    t.takes p.id p.place (replies p.id).length = true := by
  rw [Table.takes, h.found]
  by_cases hnone : come p.id = []
  · rw [if_pos hnone]
    dsimp only
    rw [decide_eq_true hplace, decide_eq_true (h.room hcard hid hnone), Bool.and_self]
  · rw [if_neg hnone]
    dsimp only
    rw [Series.expected_gathered, Series.slot_gathered, List.getElem?_eq_getElem hplace,
      Option.map_some, if_neg hnew, beq_self_eq_true, beq_self_eq_true, Bool.and_self]

omit hcard hid in
/-- A piece that has come before is passed over. -/
theorem rejects_of_mem (hold : p.place ∈ come p.id) :
    t.Rejects p.id p.place (replies p.id).length := by
  have hsome : come p.id ≠ [] := List.ne_nil_of_mem hold
  refine .filled (Series.gathered p.id (replies p.id) (come p.id)) (replies p.id)[p.place] ?_ ?_
  · rw [h.found, if_neg hsome]
  · rw [Series.slot_gathered, List.getElem?_eq_getElem hplace, Option.map_some, if_pos hold]

/-- The series of a piece that has not come holds one piece more with its place filled. -/
theorem filled_eq (hnew : p.place ∉ come p.id) {payload : List UInt8}
    (hpayload : (replies p.id)[p.place]? = some payload) :
    (t.seriesOf p.id (replies p.id).length).filled p.place payload
      = Series.gathered p.id (replies p.id) (p.place :: come p.id) := by
  have htakes := h.takes_of_not_mem hcard hid hplace hnew
  have hfill := Series.fill?_of_empty (Table.seriesOf_of_takes htakes).2.2.1 payload
  rw [h.seriesOf_eq, Series.fill?_gathered hpayload, if_neg hnew] at hfill
  rw [h.seriesOf_eq]
  exact (Option.some.inj hfill).symm

/-- **One piece among others.** It hands out its reply if it was the last one missing, and
what has come of the other replies stays. -/
theorem piece :
    (t.perform (p.call replies)).2
      = (if Covers (replies p.id) (p.place :: come p.id) then some (replies p.id).flatten
        else none) ∧
    Gathers replies ids
      (Function.update come p.id
        (if Covers (replies p.id) (p.place :: come p.id) then [] else p.place :: come p.id))
      (t.after (p.call replies)) := by
  obtain ⟨payload, hcall, hpayload⟩ : ∃ payload,
      p.call replies = .ingest p.id p.place (replies p.id).length payload ∧
      (replies p.id)[p.place]? = some payload := by
    refine ⟨_, rfl, ?_⟩
    rw [List.getD_eq_getElem?_getD, List.getElem?_eq_getElem hplace, Option.getD_some]
  have hperform : t.perform (p.call replies)
      = t.ingest p.id p.place (replies p.id).length payload := by rw [hcall]; rfl
  rw [Table.after, hperform]
  have hwellFormed := h.wellFormed.ingest p.id p.place (replies p.id).length payload
  have hothers : ∀ other ≠ p.id,
      (t.ingest p.id p.place (replies p.id).length payload).1.find? other = t.find? other :=
    fun other hother => Table.find?_ingest_of_ne hother payload
  by_cases hcome : p.place ∈ come p.id
  · -- it has come before, so it is passed over, and others are missing as before
    have hsame : ∀ place, place ∈ p.place :: come p.id ↔ place ∈ come p.id := by
      intro place
      rw [List.mem_cons]
      exact ⟨fun hor => hor.elim (fun heq => heq ▸ hcome) fun hmem => hmem, .inr⟩
    have hstill : ¬Covers (replies p.id) (p.place :: come p.id) :=
      fun hall => h.missing p.id hid fun place hlt => (hsame place).mp (hall place hlt)
    have hpass := Table.ingest_of_rejects (h.rejects_of_mem hplace hcome) payload
    rw [if_neg hstill, if_neg hstill]
    refine ⟨congrArg Prod.snd hpass, h.update hid hwellFormed hothers hstill ?_⟩
    rw [hpass, h.found, if_neg (List.ne_nil_of_mem hcome), if_neg (List.cons_ne_nil _ _),
      Series.gathered_congr hsame]
  · have htakes := h.takes_of_not_mem hcard hid hplace hcome
    have hfilled := h.filled_eq hcard hid hplace hcome hpayload
    have hfind := Table.find?_ingest htakes payload p.id
    have hingest := Table.ingest_of_takes htakes payload
    rw [hfilled] at hfind hingest
    rw [if_pos rfl] at hfind
    by_cases hall : Covers (replies p.id) (p.place :: come p.id)
    · rw [if_pos (Series.isComplete_gathered.mpr hall)] at hfind hingest
      rw [if_pos hall, if_pos hall]
      refine ⟨?_, h.update hid hwellFormed hothers ?_ hfind⟩
      · rw [hingest, Series.joined_gathered hall]
      · exact fun hcovers => List.not_mem_nil (hcovers p.place hplace)
    · have hopen :
          ¬(Series.gathered p.id (replies p.id) (p.place :: come p.id)).isComplete = true :=
        fun hcomplete => hall (Series.isComplete_gathered.mp hcomplete)
      rw [if_neg hopen] at hfind hingest
      rw [if_neg hall, if_neg hall]
      refine ⟨congrArg Prod.snd hingest, h.update hid hwellFormed hothers hall ?_⟩
      rw [hfind, if_neg (List.cons_ne_nil _ _)]

end Piece

end Gathers

/-! ## Runs of pieces -/

section Runs

variable {replies : UInt32 → List (List UInt8)} {ids : Finset UInt32}

/-- A piece of one of the replies. -/
def Piece.Genuine (replies : UInt32 → List (List UInt8)) (ids : Finset UInt32) (p : Piece) : Prop :=
  p.id ∈ ids ∧ p.place < (replies p.id).length

variable (hreplies : ∀ id ∈ ids, replies id ≠ []) (hcard : ids.card ≤ maxSeries)
include hreplies hcard

/-- **What the table holds** after pieces is what has come of each reply since it was last
made whole. -/
theorem gathers_outcomes {pieces : List Piece} (hgenuine : ∀ p ∈ pieces, p.Genuine replies ids) :
    Gathers replies ids (fun id => comeSince id (outcomes replies pieces))
      (tableAfter replies pieces) := by
  induction pieces using List.reverseRecOn with
  | nil => exact .empty hreplies
  | append_singleton pieces p ih =>
    obtain ⟨hid, hplace⟩ := hgenuine p (by simp)
    have hbefore := ih fun q hq => hgenuine q (List.mem_append_left _ hq)
    obtain ⟨hout, hnext⟩ := hbefore.piece hcard hid hplace
    rw [tableAfter_concat, outcomes_concat]
    -- what has come of the reply is counted anew when it is made whole
    have hcome : (fun id => comeSince id (outcomes replies pieces ++
          [(p, handedOut replies pieces p)]))
        = Function.update (fun id => comeSince id (outcomes replies pieces)) p.id
          (if Covers (replies p.id) (p.place :: comeSince p.id (outcomes replies pieces)) then []
            else p.place :: comeSince p.id (outcomes replies pieces)) := by
      funext id
      rw [comeSince_concat, handedOut, hout]
      by_cases hmine : p.id = id
      · subst hmine
        rw [if_pos rfl, Function.update_self]
        split
        · rfl
        · rfl
      · rw [if_neg hmine, Function.update_of_ne (Ne.symm hmine)]
    rw [hcome]
    exact hnext

/-- What a piece hands out, told from what has come of its reply. -/
theorem handedOut_eq {earlier : List Piece} (hgenuine : ∀ q ∈ earlier, q.Genuine replies ids)
    {p : Piece} (hp : p.Genuine replies ids) :
    handedOut replies earlier p
      = if Covers (replies p.id) (p.place :: comeSince p.id (outcomes replies earlier)) then
          some (replies p.id).flatten
        else none :=
  ((gathers_outcomes hreplies hcard hgenuine).piece hcard hp.1 hp.2).1

/-- What happens to a reply is what would happen if its pieces came alone. -/
theorem outcomes_filter {pieces : List Piece} (hgenuine : ∀ p ∈ pieces, p.Genuine replies ids)
    (id : UInt32) :
    (outcomes replies pieces).filter (fun o => o.1.id == id)
      = outcomes replies (pieces.filter fun p => p.id == id) := by
  induction pieces using List.reverseRecOn with
  | nil => rfl
  | append_singleton pieces p ih =>
    have hbefore : ∀ q ∈ pieces, q.Genuine replies ids :=
      fun q hq => hgenuine q (List.mem_append_left _ hq)
    have hp := hgenuine p (by simp)
    rw [outcomes_concat, List.filter_append, List.filter_append, ih hbefore]
    by_cases hmine : p.id = id
    · rw [List.filter_cons_of_pos (by simpa using hmine), List.filter_nil,
        List.filter_cons_of_pos (by simpa using hmine), List.filter_nil, outcomes_concat]
      -- the same has come of the reply in both runs, so the piece hands out the same
      have hsame : comeSince p.id (outcomes replies pieces)
          = comeSince p.id (outcomes replies (pieces.filter fun q => q.id == id)) := by
        rw [← ih hbefore, ← hmine, comeSince_filter]
      rw [handedOut_eq hreplies hcard hbefore hp, hsame, handedOut_eq hreplies hcard
        (fun q hq => hbefore q (List.mem_filter.mp hq).1) hp]
    · rw [List.filter_cons_of_neg (by simpa using hmine), List.filter_nil,
        List.filter_cons_of_neg (by simpa using hmine), List.filter_nil, List.append_nil,
        List.append_nil]

/-- **Replies come through side by side.** A piece hands out its reply, joined in the order
of the places, exactly if with it all pieces of the reply have come since it was last handed
out and without it they had not. What happens to one reply is what would happen if its
pieces came alone. -/
theorem interleaved_round_trip {pieces : List Piece}
    (hgenuine : ∀ p ∈ pieces, p.Genuine replies ids) :
    (∀ earlier p later, pieces = earlier ++ p :: later → ∀ whole,
      handedOut replies earlier p = some whole ↔
        whole = (replies p.id).flatten ∧
        Covers (replies p.id) (p.place :: comeSince p.id (outcomes replies earlier)) ∧
        ¬Covers (replies p.id) (comeSince p.id (outcomes replies earlier))) ∧
    ∀ id, (outcomes replies pieces).filter (fun o => o.1.id == id)
      = outcomes replies (pieces.filter fun p => p.id == id) := by
  refine ⟨?_, fun id => outcomes_filter hreplies hcard hgenuine id⟩
  rintro earlier p later rfl whole
  have hbefore : ∀ q ∈ earlier, q.Genuine replies ids :=
    fun q hq => hgenuine q (List.mem_append_left _ hq)
  have hp : p.Genuine replies ids := hgenuine p (by simp)
  have hmissing := (gathers_outcomes hreplies hcard hbefore).missing p.id hp.1
  rw [handedOut_eq hreplies hcard hbefore hp]
  by_cases hall : Covers (replies p.id) (p.place :: comeSince p.id (outcomes replies earlier))
  · rw [if_pos hall, Option.some.injEq]
    exact ⟨fun heq => ⟨heq.symm, hall, hmissing⟩, fun hthree => hthree.1.symm⟩
  · rw [if_neg hall]
    exact ⟨nofun, fun hthree => absurd hthree.2.1 hall⟩

end Runs

/-- Two replies, of two and of three pieces. -/
def twoReplies (id : UInt32) : List (List UInt8) := if id = 1 then [[1], [2]] else [[3], [4], [5]]

/-- Pieces of both, out of order. A piece of the first comes again after its reply was made
whole, and so opens its series anew while the second is still open. -/
def crossed : List Piece :=
  [⟨2, 0⟩, ⟨1, 1⟩, ⟨1, 0⟩, ⟨1, 0⟩, ⟨2, 2⟩, ⟨2, 0⟩, ⟨2, 1⟩, ⟨1, 1⟩]

/-- The first reply is made whole twice, and the second once. -/
theorem interleaved_round_trip_reopened :
    handedOut twoReplies (crossed.take 2) ⟨1, 0⟩ = some [1, 2] ∧
    handedOut twoReplies (crossed.take 3) ⟨1, 0⟩ ≠ some [1, 2] ∧
    handedOut twoReplies (crossed.take 6) ⟨2, 1⟩ = some [3, 4, 5] ∧
    handedOut twoReplies (crossed.take 7) ⟨1, 1⟩ = some [1, 2] ∧
    (outcomes twoReplies crossed).filter (fun o => o.1.id == 2)
      = outcomes twoReplies [⟨2, 0⟩, ⟨2, 2⟩, ⟨2, 0⟩, ⟨2, 1⟩] := by
  have hreplies : ∀ id ∈ ({1, 2} : Finset UInt32), twoReplies id ≠ [] := by
    intro id _
    unfold twoReplies
    split <;> nofun
  obtain ⟨hwhole, halone⟩ := @interleaved_round_trip twoReplies {1, 2} hreplies (by decide)
    crossed (by unfold Piece.Genuine; decide)
  refine ⟨(hwhole _ _ _ rfl _).mpr (by decide), fun hout => ?_,
    (hwhole _ _ _ rfl _).mpr (by decide), (hwhole _ _ _ rfl _).mpr (by decide), halone 2⟩
  exact absurd ((hwhole _ _ (crossed.drop 4) rfl _).mp hout).2.1 (by decide)

end ServerProbe.Fragment
