/-
The address index.

The index is kept beside the targets: it grows when a target is added or comes out of a
broadcast, and shrinks when one ends. It is nevertheless a function of the targets. Its
entries are those of the active unicast targets, in the order of their ids
(`Told.listed`), so no entry is left behind, and none is taken away for another target.

A broadcast has no entry. It can share its address with a unicast target, and when it ends the
index finds that target at the address; the id of the target is then not the one that ends,
so the entry stays.
-/
import ServerProbe.Proofs.Journal

set_option autoImplicit false

namespace ServerProbe

/-- The entry of a target in the index. A broadcast has none. -/
def Target.listing? (t : Target) : Option (Address × Nat) :=
  if t.mode = .unicast then some (t.address, t.id) else none

theorem Target.listing?_eq_some {t : Target} {entry : Address × Nat} :
    t.listing? = some entry ↔ t.mode = .unicast ∧ (t.address, t.id) = entry := by
  rw [listing?, Option.ite_none_right_eq_some, Option.some.injEq]

namespace Engine

/-- Where ids ascend, one id is that of one target. -/
theorem WellKept.eq_of_id {e : Engine} (h : e.WellKept) {a b : Target} (ha : a ∈ e.targets)
    (hb : b ∈ e.targets) (hid : a.id = b.id) : a = b := by
  have hfound := h.target?_of_mem ha
  rw [hid, h.target?_of_mem hb] at hfound
  exact (Option.some.inj hfound).symm

/-- And one address is that of one unicast target. -/
theorem WellKept.eq_of_address {e : Engine} (h : e.WellKept) {a b : Target} (ha : a ∈ e.targets)
    (hb : b ∈ e.targets) (hmode : a.mode = .unicast) (hmode' : b.mode = .unicast)
    (haddress : a.address = b.address) : a = b := by
  have hat := (h.indexed a.address a.id).mpr ⟨a, h.target?_of_mem ha, hmode, rfl⟩
  have hat' := (h.indexed b.address b.id).mpr ⟨b, h.target?_of_mem hb, hmode', rfl⟩
  rw [haddress, hat'] at hat
  exact (h.eq_of_id hb ha (Option.some.inj hat)).symm

/-- The index finds somebody at an address just if a server is being queried there. -/
theorem WellKept.isSome_idAt?_iff {e : Engine} (h : e.WellKept) (address : Address) :
    (e.idAt? address).isSome = true ↔
      ∃ t ∈ e.targets, t.mode = .unicast ∧ t.address = address := by
  rw [Option.isSome_iff_exists]
  constructor
  · rintro ⟨id, hid⟩
    obtain ⟨t, hfound, hunicast⟩ := (h.indexed address id).mp hid
    exact ⟨t, (target?_mem hfound).1, hunicast⟩
  · rintro ⟨t, hmem, hunicast⟩
    exact ⟨t.id, (h.indexed address t.id).mpr ⟨t, h.target?_of_mem hmem, hunicast⟩⟩

/-! ## What each change does to the index -/

/-- Whether the index lists the active unicast targets, in the order of their ids, and nothing
else. -/
def Listed (e : Engine) : Prop := e.byAddress = e.targets.filterMap Target.listing?

section Changes

variable {e : Engine} (hlisted : e.Listed)
include hlisted

theorem Listed.insert (t : Target) : (e.insert t).Listed := by
  have htargets : (e.insert t).targets.filterMap Target.listing?
      = e.byAddress ++ t.listing?.toList := by
    rw [hlisted, Engine.insert, List.filterMap_append]
    rcases hlisting : t.listing? with _ | entry
    · rw [List.filterMap_cons_none hlisting]
      rfl
    · rw [List.filterMap_cons_some hlisting]
      rfl
  rw [Listed, htargets, Engine.insert, Target.listing?]
  split
  · rfl
  · exact (List.append_nil _).symm

/-- A target that is put back with its mode and address keeps its entry. -/
theorem Listed.put (h : e.WellKept) {t t' : Target} (hmem : t ∈ e.targets)
    (hid : t'.id = t.id) (hmode : t'.mode = t.mode) (haddress : t'.address = t.address) :
    (e.put t').Listed := by
  rw [Listed, Engine.put, hlisted, List.filterMap_map]
  refine List.filterMap_congr fun other hother => ?_
  dsimp only [Function.comp]
  split
  · next hsame =>
    obtain rfl := h.eq_of_id hother hmem (hsame.trans hid)
    rw [Target.listing?, Target.listing?, hmode, haddress, hid]
  · rfl

/-- A target that is taken out takes its entry along, and no other one. -/
theorem Listed.remove (h : e.WellKept) {t : Target} (hmem : t ∈ e.targets) :
    (e.remove t).Listed := by
  have hat : e.idAt? t.address = some t.id ↔ t.mode = .unicast := by
    rw [h.indexed t.address t.id, h.target?_of_mem hmem]
    simp
  rw [Listed, Engine.remove, List.filterMap_filter]
  dsimp only
  by_cases hmode : t.mode = .unicast
  · -- the others that have an entry have another address
    rw [if_pos (hat.mpr hmode), hlisted, List.filter_filterMap]
    refine List.filterMap_congr fun other hother => ?_
    rcases hlisting : other.listing? with _ | entry
    · simp
    · obtain ⟨hunicast, rfl⟩ := Target.listing?_eq_some.mp hlisting
      have hsame : other.id = t.id ↔ other.address = t.address :=
        ⟨fun hid => congrArg Target.address (h.eq_of_id hother hmem hid),
          fun haddress => congrArg Target.id (h.eq_of_address hother hmem hunicast hmode haddress)⟩
      by_cases hid : other.id = t.id
      · simp [hid, hsame.mp hid]
      · simp [hid, mt hsame.mpr hid]
  · -- the index does not know the target, and what it finds at the address is another one
    rw [if_neg (mt hat.mp hmode), hlisted]
    refine List.filterMap_congr fun other hother => ?_
    by_cases hid : other.id = t.id
    · obtain rfl := h.eq_of_id hother hmem hid
      simp [Target.listing?, hmode]
    · simp [hid]

/-- **An event keeps the index.** -/
theorem Listed.tell (h : e.WellKept) {event : Event} (hfits : e.Fits event) :
    (e.tell event).Listed := by
  cases hfits with
  | added address mode p config nonce hfree => exact hlisted.insert _
  | spawned parent sender hmem hmode hfree =>
    have hput : (e.put (parent.noting sender)).Listed := hlisted.put h hmem rfl rfl rfl
    exact hput.insert _
  | reacted m hmem =>
    have hholds := h.holds hmem
    have hid : m.reaction.target.id = m.target.id := m.reaction_id
    have hmode : m.reaction.target.mode = m.target.mode := m.target.react_mode m.cue
    have haddress : m.reaction.target.address = m.target.address := m.target.react_address m.cue
    have hput := hlisted.put h hmem hid hmode haddress
    have hsame := sameRegister_enact hholds hid
    rw [Listed, Engine.tell, hsame.byAddress, hsame.targets]
    split
    · exact hput
    · exact hput.remove (h.put hmem hid hmode haddress)
        (target?_mem (hid ▸ target?_put_self hholds.found hid)).1

end Changes

/-! ## The index of a run -/

/-- **The index lists the active unicast targets.** -/
theorem Told.listed {past : List Event} {e : Engine} (h : Told past e) : e.Listed := by
  induction h with
  | start => rfl
  | tell htold hfits ih => exact ih.tell htold.wellKept hfits
  | take _ hsame _ ih => rw [Listed, hsame.byAddress, hsame.targets, ih]

/-- No address is listed twice. -/
theorem Listed.nodup {e : Engine} (hlisted : e.Listed) (h : e.WellKept) :
    (e.byAddress.map Prod.fst).Nodup := by
  -- two entries with one address would be of one target, but ids ascend
  rw [hlisted, List.Nodup, List.pairwise_map, List.pairwise_filterMap]
  refine List.Pairwise.imp_of_mem ?_ (List.pairwise_map.mp h.ascending)
  intro a b ha hb hlt entry hentry entry' hentry' hsame
  obtain ⟨hmode, rfl⟩ := Target.listing?_eq_some.mp hentry
  obtain ⟨hmode', rfl⟩ := Target.listing?_eq_some.mp hentry'
  obtain rfl := h.eq_of_address ha hb hmode hmode' hsame
  exact Nat.lt_irrefl _ hlt

/-- No broadcast is listed. -/
theorem Listed.not_mem {e : Engine} (hlisted : e.Listed) (h : e.WellKept) {t : Target}
    (hmem : t ∈ e.targets) (hmode : t.mode = .broadcast) (address : Address) :
    (address, t.id) ∉ e.byAddress := by
  rw [hlisted]
  intro hentry
  obtain ⟨other, hother, hlisting⟩ := List.mem_filterMap.mp hentry
  obtain ⟨hunicast, hpair⟩ := Target.listing?_eq_some.mp hlisting
  obtain rfl := h.eq_of_id hother hmem (congrArg Prod.snd hpair)
  rw [hmode] at hunicast
  cases hunicast

/-- **The index is exact.** In every engine that a run leads to:

* the index finds an id at an address just if the active target with that id is unicast and has
  that address; and it holds one entry for each active unicast target, in the order of the ids,
  and no others, so no address stands in it twice;
* so no two active unicast targets share an address;
* an active target is found under its own id, and that is below the next one;
* no entry is that of a broadcast. -/
theorem index_exact {e : Engine} (h : e.Reachable) :
    (∀ address id, e.idAt? address = some id ↔
      ∃ t, e.target? id = some t ∧ t.mode = .unicast ∧ t.address = address) ∧
    e.byAddress = e.targets.filterMap Target.listing? ∧
    (e.byAddress.map Prod.fst).Nodup ∧
    (∀ a ∈ e.targets, ∀ b ∈ e.targets, a.mode = .unicast → b.mode = .unicast →
      a.address = b.address → a = b) ∧
    (∀ t ∈ e.targets, e.target? t.id = some t ∧ t.id < e.nextId) ∧
    ∀ t ∈ e.targets, t.mode = .broadcast → ∀ address, (address, t.id) ∉ e.byAddress := by
  have hkept := h.wellKept
  obtain ⟨calls, rfl⟩ := h
  have hlisted := (told_journal calls).listed
  exact ⟨hkept.indexed, hlisted, hlisted.nodup hkept,
    fun a ha b hb => hkept.eq_of_address ha hb,
    fun t ht => ⟨hkept.target?_of_mem ht, hkept.fresh t ht⟩,
    fun t ht hmode => hlisted.not_mem hkept ht hmode⟩

/-- A broadcast and a server at one address; the host refuses the datagrams to the target with
an id. -/
def oneAddress (refused : Nat) : List Call :=
  [.add .broadcast "a2s" ⟨"192.0.2.1", 27015⟩ {} 0 0,
    .add .unicast "a2s" ⟨"192.0.2.1", 27015⟩ {} 0 0,
    .sendFailed refused { kind := .connectionRefused }]

/-- When the broadcast ends first, the server is still found at the address; when the server
ends first, nobody is. -/
theorem index_exact_shared :
    (run (oneAddress 1)).idAt? ⟨"192.0.2.1", 27015⟩ = some 2 ∧
    (run (oneAddress 2)).idAt? ⟨"192.0.2.1", 27015⟩ = none := by
  have hfirst : (run (oneAddress 1)).targets.map (fun t => (t.id, t.listing?))
      = [(2, some (⟨"192.0.2.1", 27015⟩, 2))] := by decide +kernel
  have hsecond : (run (oneAddress 2)).targets.map (fun t => (t.id, t.mode))
      = [(1, .broadcast)] := by decide +kernel
  constructor
  · obtain ⟨hfinds, -, -, -, hfound, -⟩ := index_exact ⟨oneAddress 1, rfl⟩
    obtain ⟨t, ht, hpair⟩ := List.mem_map.mp (hfirst ▸ List.mem_singleton_self _)
    obtain ⟨hid, hentry⟩ := Prod.mk.inj hpair
    obtain ⟨hmode, hat⟩ := Target.listing?_eq_some.mp hentry
    exact (hfinds _ 2).mpr ⟨t, hid ▸ (hfound t ht).1, hmode, congrArg Prod.fst hat⟩
  · obtain ⟨hfinds, -⟩ := index_exact ⟨oneAddress 2, rfl⟩
    rcases hat : (run (oneAddress 2)).idAt? ⟨"192.0.2.1", 27015⟩ with _ | id
    · rfl
    · -- the only target that is active is the broadcast
      obtain ⟨t, ht, hmode, -⟩ := (hfinds _ id).mp hat
      have hmem := List.mem_map_of_mem (f := fun t => (t.id, t.mode)) (target?_mem ht).1
      rw [hsecond, List.mem_singleton] at hmem
      cases hmode.symm.trans (congrArg Prod.snd hmem)

end Engine

end ServerProbe
