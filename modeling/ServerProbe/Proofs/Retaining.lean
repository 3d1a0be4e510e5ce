/-
What no payload can take away.

A server tells its rules and players piece by piece, over several payloads, and any of them can
break off or run out of room on the way. So what is promised about the lists has to hold after
every single fact. `Server.Retains` is what one fact promises: entries are only added behind
those that are there, up to the limits, and an entry that is there keeps its name or its number.
The promise composes, so it is kept wherever a payload stops, and a payload stops for want of
room only where a list is full (`receive_retains`).
-/
import ServerProbe.Proofs.RepeatedFacts
import ServerProbe.Proofs.ReplyFaults

set_option autoImplicit false

namespace ServerProbe

/-! ## Servers that retain what was known -/

namespace Server

/-- Whether no more is kept than there is room for. -/
structure WithinLimits (s : Server) : Prop where
  rules : s.rules.length ≤ ruleLimit
  players : s.players.length ≤ playerLimit

/-- Whether what was known of `s` is still known of `s'`, and no more is kept than there is room
for if that was so before. Only where rules are overwritten their values may differ. -/
structure Retains (policy : DuplicatePolicy) (s s' : Server) : Prop where
  limits : s.WithinLimits → s'.WithinLimits
  ruleNames : s.rules.map Rule.name <+: s'.rules.map Rule.name
  rules : policy ≠ .overwrite → s.rules <+: s'.rules
  playerNumbers : s.players.map Player.number <+: s'.players.map Player.number

namespace Retains

variable {policy : DuplicatePolicy} {s s' s'' : Server}

/-- Servers with the same rules and players retain the same. -/
theorem of_lists_eq (hrules : s'.rules = s.rules) (hplayers : s'.players = s.players) :
    s.Retains policy s' where
  limits h := ⟨hrules ▸ h.rules, hplayers ▸ h.players⟩
  ruleNames := hrules ▸ List.prefix_rfl
  rules _ := hrules ▸ List.prefix_rfl
  playerNumbers := hplayers ▸ List.prefix_rfl

theorem refl (policy : DuplicatePolicy) (s : Server) : s.Retains policy s := of_lists_eq rfl rfl

theorem trans (h : s.Retains policy s') (h' : s'.Retains policy s'') : s.Retains policy s'' where
  limits hlimits := h'.limits (h.limits hlimits)
  ruleNames := h.ruleNames.trans h'.ruleNames
  rules hpolicy := (h.rules hpolicy).trans (h'.rules hpolicy)
  playerNumbers := h.playerNumbers.trans h'.playerNumbers

end Retains

end Server

/-! ## One fact -/

theorem prefix_rulesWith {policy : DuplicatePolicy} (hpolicy : policy ≠ .overwrite)
    (name value : String) (rules : List Rule) : rules <+: rulesWith policy name value rules := by
  unfold rulesWith
  rw [if_neg hpolicy]
  split
  · exact List.prefix_rfl
  · exact List.prefix_append _ _

namespace Server

variable {policy : DuplicatePolicy} {s s' : Server}

theorem retains_of_addRule {name value : String}
    (h : (s.addRule policy name value).map Prod.fst = .ok s') : s.Retains policy s' := by
  rw [addRule_eq] at h
  split at h
  · cases h
  · rename_i hroom
    obtain rfl := Except.ok.inj h
    refine ⟨fun hlimits => ⟨?_, hlimits.players⟩, prefix_map_name_rulesWith policy _ _ _,
      fun hpolicy => prefix_rulesWith hpolicy _ _ _, List.prefix_rfl⟩
    -- a known name leaves the length as it is, and a new one is added only below the limit
    have hlength := congrArg List.length (map_name_rulesWith policy name value s.rules)
    rw [List.length_map] at hlength
    rw [not_and_or, not_not, any_name_eq_true_iff] at hroom
    rw [hlength]
    split
    · rw [List.length_map]
      exact hlimits.rules
    · rename_i hnew
      rw [List.length_append, List.length_map, List.length_singleton]
      exact Nat.lt_of_not_le (hroom.resolve_left hnew)

theorem retains_of_addPlayer {p : Player} (h : s.addPlayer p = .ok s') : s.Retains policy s' := by
  unfold addPlayer at h
  split at h
  · cases h
  · rename_i hroom
    obtain rfl := Except.ok.inj h
    refine ⟨fun hlimits => ⟨hlimits.rules, ?_⟩, List.prefix_rfl, fun _ => List.prefix_rfl, ?_⟩
    · rw [List.length_append, List.length_singleton]
      exact Nat.lt_of_not_le hroom
    · rw [List.map_append]
      exact List.prefix_append _ _

theorem retains_of_ensurePlayer {number : Int32} (h : s.ensurePlayer number = .ok s') :
    s.Retains policy s' := by
  unfold ensurePlayer at h
  split at h
  · obtain rfl := Except.ok.inj h
    exact .refl policy s
  · exact retains_of_addPlayer h

/-- A changed player is still the same player. -/
theorem retains_changePlayer (number : Int32) {change : Player → Player}
    (hnumber : ∀ p, (change p).number = p.number) :
    s.Retains policy (s.changePlayer number change) := by
  have hnumbers := map_number_changeFirst hnumber number s.players
  have hlength := congrArg List.length hnumbers
  rw [List.length_map, List.length_map] at hlength
  refine ⟨fun hlimits => ⟨hlimits.rules, ?_⟩, List.prefix_rfl, fun _ => List.prefix_rfl, ?_⟩
  · exact hlength.trans_le hlimits.players
  · exact hnumbers.symm ▸ List.prefix_rfl

end Server

namespace Exchange

variable {policy : DuplicatePolicy}

theorem keep_retains {x : Exchange} {kept : Except Fault Server}
    (h : ∀ s', kept = .ok s' → x.server.Retains policy s') :
    x.server.Retains policy (x.keep kept).1.server := by
  rcases kept with fault | s'
  · exact .refl policy x.server
  · exact h s' rfl

/-- **What one fact leaves.** -/
theorem learn_retains (policy : DuplicatePolicy) (x : Exchange) (f : Fact) :
    x.server.Retains policy (x.learn policy f).1.server := by
  cases f with
  | rule name value => exact keep_retains fun s' => Server.retains_of_addRule
  | newcomer fields =>
    exact keep_retains (x := { x with session.nextPlayer := x.session.nextPlayer + 1 })
      fun s' => Server.retains_of_addPlayer
  | seen number => exact keep_retains fun s' => Server.retains_of_ensurePlayer
  | field number value =>
    exact Server.retains_changePlayer number fun p => p.number_set value
  | _ => exact .of_lists_eq rfl rfl

/-! ## Whole payloads -/

theorem learnAll_retains (policy : DuplicatePolicy) (x : Exchange) (facts : List Fact) :
    x.server.Retains policy (x.learnAll policy facts).1.server :=
  learnAll_keeps (P := fun x' => x.server.Retains policy x'.server)
    (fun x' f _ h => h.trans (learn_retains policy x' f)) (.refl policy x.server)

theorem apply_retains (policy : DuplicatePolicy) (x : Exchange) (reading : Reading) :
    x.server.Retains policy (x.apply policy reading).1.server := by
  rw [apply_server]
  exact learnAll_retains policy x reading.facts

/-- A payload whose reading does not run out of room does so only where a list is full. -/
theorem apply_outOfMemory {x : Exchange} {reading : Reading}
    (hreading : ∀ fault, reading.ending = .error fault → fault.kind ≠ .outOfMemory)
    (h : (x.apply policy reading).2.outcome = .error .outOfMemory) :
    ruleLimit ≤ (x.apply policy reading).1.server.rules.length ∨
      playerLimit ≤ (x.apply policy reading).1.server.players.length := by
  rw [apply_server]
  rcases x.apply_cases policy reading with
    ⟨x', fault, hlearn, -⟩ | ⟨x', fault, -, hend, happly⟩ | ⟨x', ending, -, -, happly⟩
  · exact (learnAll_full (congrArg Prod.snd hlearn)).2
  · rw [happly] at h
    exact absurd (Outcome.error.inj h) (hreading fault hend)
  · rw [happly] at h
    cases ending <;> cases h

/-- **No payload takes anything away.** Wherever a payload stops, no more is kept than there is
room for; the rules that were known are the first rules, unless their values were to be
overwritten, and in any case keep their names; the players that were known are the first
players. A payload runs out of room only if one of the lists is full. -/
theorem receive_retains (x : Exchange) (p : Protocol) (params : RequestParams)
    (current : Option Phase) (closed : PhaseSet) (payload : List UInt8)
    (hrules : x.server.rules.length ≤ ruleLimit)
    (hplayers : x.server.players.length ≤ playerLimit) :
    let result := x.receive p params current closed payload
    let server := result.1.server
    (server.rules.length ≤ ruleLimit ∧ server.players.length ≤ playerLimit) ∧
    x.server.rules.map Rule.name <+: server.rules.map Rule.name ∧
    (params.rulePolicy ≠ .overwrite → x.server.rules <+: server.rules) ∧
    x.server.players.map Player.number <+: server.players.map Player.number ∧
    (result.2.outcome = .error .outOfMemory →
      server.rules.length = ruleLimit ∨ server.players.length = playerLimit) := by
  dsimp only
  rw [receive_eq]
  have hretains := apply_retains params.rulePolicy x (p.read ⟨current, closed, x.session⟩ payload)
  have hlimits := hretains.limits ⟨hrules, hplayers⟩
  refine ⟨⟨hlimits.rules, hlimits.players⟩, hretains.ruleNames, hretains.rules,
    hretains.playerNumbers, fun hmemory => ?_⟩
  rcases apply_outOfMemory (fun fault => p.read_roomy) hmemory with hfull | hfull
  · exact .inl (Nat.le_antisymm hlimits.rules hfull)
  · exact .inr (Nat.le_antisymm hlimits.players hfull)

/-- An exchange with room for one more rule. -/
def almostFull : Exchange := { server.rules := List.replicate 4095 ⟨"map", "e1m1"⟩ }

/-- A reply that tells two rules. -/
def twoRules : List UInt8 :=
  [0xFF, 0xFF, 0xFF, 0xFF, 0x45, 2, 0, 0x61, 0, 0x31, 0, 0x62, 0, 0x32, 0]

/-- The second of two rules finds no room where there is room for one. -/
theorem receive_retains_almostFull :
    let result := almostFull.receive .a2s { rulePolicy := .append } (some .rules) ∅ twoRules
    almostFull.server.rules.length ≤ ruleLimit ∧ almostFull.server.players.length ≤ playerLimit ∧
    result.2.outcome = .error .outOfMemory ∧ almostFull.server.rules <+: result.1.server.rules ∧
    result.1.server.rules.length = ruleLimit := by
  have hrules : almostFull.server.rules.length ≤ ruleLimit := by decide +kernel
  have hplayers : almostFull.server.players.length ≤ playerLimit := by decide +kernel
  have hmemory : (almostFull.receive .a2s { rulePolicy := .append } (some .rules) ∅
      twoRules).2.outcome = .error .outOfMemory := by decide +kernel
  obtain ⟨-, -, hprefix, -, hfull⟩ :=
    receive_retains almostFull .a2s { rulePolicy := .append } (some .rules) ∅ twoRules hrules
      hplayers
  refine ⟨hrules, hplayers, hmemory, hprefix nofun, (hfull hmemory).resolve_right ?_⟩
  decide +kernel

end Exchange

end ServerProbe
