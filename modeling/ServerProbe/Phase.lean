/-
The phases of a query and sets of them. There are four phases and a query goes
through those it needs in one fixed order: the challenge that some servers ask
for comes first, then the status, then the rules and the players.

A set of phases is one truth value per phase. Two sets with the same members are
therefore the same value, which is what `PhaseSet.ext_mem` says.
-/

set_option autoImplicit false

namespace ServerProbe

/-- One stage of a query. -/
inductive Phase where
  | challenge
  | status
  | rules
  | players
  deriving Repr, DecidableEq

namespace Phase

/-- Every phase, in the order in which they are gone through. -/
def all : List Phase := [challenge, status, rules, players]

/-- The place of a phase in that order. -/
def rank : Phase → Nat
  | challenge => 0
  | status => 1
  | rules => 2
  | players => 3

/-- The name of a phase in messages. -/
def name : Phase → String
  | challenge => "challenge"
  | status => "status"
  | rules => "rules"
  | players => "players"

theorem mem_all (p : Phase) : p ∈ all := by cases p <;> decide

end Phase

/-! ## Sets of phases -/

/-- A set of phases: for each, whether it is a member. -/
@[ext] structure PhaseSet where
  challenge : Bool := false
  status : Bool := false
  rules : Bool := false
  players : Bool := false
  deriving Repr, DecidableEq

namespace PhaseSet

/-- Whether a phase is a member. -/
def contains (s : PhaseSet) : Phase → Bool
  | .challenge => s.challenge
  | .status => s.status
  | .rules => s.rules
  | .players => s.players

instance : Membership Phase PhaseSet := ⟨fun s p => s.contains p = true⟩

instance (p : Phase) (s : PhaseSet) : Decidable (p ∈ s) :=
  inferInstanceAs (Decidable (s.contains p = true))

instance : EmptyCollection PhaseSet := ⟨{}⟩

/-- The set with `p` a member or not, as `b` says. -/
def set (s : PhaseSet) (p : Phase) (b : Bool) : PhaseSet :=
  match p with
  | .challenge => { s with challenge := b }
  | .status => { s with status := b }
  | .rules => { s with rules := b }
  | .players => { s with players := b }

/-- The set with one more member. -/
def insert (s : PhaseSet) (p : Phase) : PhaseSet := s.set p true

/-- The set with one member less. -/
def erase (s : PhaseSet) (p : Phase) : PhaseSet := s.set p false

/-- The set of the phases in a list. -/
def ofList (ps : List Phase) : PhaseSet := ps.foldl insert ∅

/-- The members, in the order of the phases. -/
def toList (s : PhaseSet) : List Phase := Phase.all.filter s.contains

/-- Whether there is no member. -/
def isEmpty (s : PhaseSet) : Bool :=
  !(s.challenge || s.status || s.rules || s.players)

/-- The members of either set. -/
def union (s t : PhaseSet) : PhaseSet :=
  ⟨s.challenge || t.challenge, s.status || t.status, s.rules || t.rules, s.players || t.players⟩

/-- Whether the sets have a common member. -/
def intersects (s t : PhaseSet) : Bool :=
  (s.challenge && t.challenge) || (s.status && t.status) || (s.rules && t.rules)
    || (s.players && t.players)

/-! ## Membership -/

theorem mem_iff {p : Phase} {s : PhaseSet} : p ∈ s ↔ s.contains p = true := Iff.rfl

theorem ext_mem {s t : PhaseSet} (h : ∀ p, p ∈ s ↔ p ∈ t) : s = t := by
  have hc := h .challenge
  have hs := h .status
  have hr := h .rules
  have hp := h .players
  simp only [mem_iff, contains, Bool.coe_iff_coe] at hc hs hr hp
  exact PhaseSet.ext hc hs hr hp

@[simp] theorem not_mem_empty (p : Phase) : p ∉ (∅ : PhaseSet) := by
  cases p <;> decide

@[simp] theorem mem_insert {p q : Phase} {s : PhaseSet} : p ∈ s.insert q ↔ p = q ∨ p ∈ s := by
  cases p <;> cases q <;> simp [mem_iff, contains, insert, set]

@[simp] theorem mem_erase {p q : Phase} {s : PhaseSet} : p ∈ s.erase q ↔ p ≠ q ∧ p ∈ s := by
  cases p <;> cases q <;> simp [mem_iff, contains, erase, set]

@[simp] theorem mem_union {p : Phase} {s t : PhaseSet} : p ∈ s.union t ↔ p ∈ s ∨ p ∈ t := by
  cases p <;> simp [mem_iff, contains, union]

theorem intersects_iff {s t : PhaseSet} : s.intersects t = true ↔ ∃ p, p ∈ s ∧ p ∈ t := by
  constructor
  · intro h
    simp only [intersects, Bool.or_eq_true, Bool.and_eq_true] at h
    rcases h with ((h | h) | h) | h
    · exact ⟨.challenge, h⟩
    · exact ⟨.status, h⟩
    · exact ⟨.rules, h⟩
    · exact ⟨.players, h⟩
  · rintro ⟨p, hs, ht⟩
    cases p <;> simp_all [mem_iff, contains, intersects]

theorem isEmpty_iff {s : PhaseSet} : s.isEmpty = true ↔ s = ∅ := by
  constructor
  · intro h
    simp only [isEmpty, Bool.not_eq_true', Bool.or_eq_false_iff] at h
    obtain ⟨⟨⟨hc, hs⟩, hr⟩, hp⟩ := h
    exact PhaseSet.ext hc hs hr hp
  · rintro rfl
    rfl

theorem mem_toList {p : Phase} {s : PhaseSet} : p ∈ s.toList ↔ p ∈ s := by
  simp [toList, Phase.mem_all, mem_iff]

end PhaseSet

end ServerProbe
