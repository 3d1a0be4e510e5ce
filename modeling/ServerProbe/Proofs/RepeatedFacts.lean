/-
What is told again.

The same facts, learned once more, find the exchange as the first time left it. Rules do
nothing then: their names are known, so no list grows, and the value of a rule that was
told last is the one that counts, which is the same both times (`learnAll_again`). But a
player that is not numbered is one more player each time, and so is a rule one more where
rules of one name are kept beside each other; with one such fact something grows each time
(`held_learnedAll_lt`).
-/
import ServerProbe.Proofs.PayloadMeaning
import ServerProbe.Proofs.Numbering

set_option autoImplicit false

namespace ServerProbe

/-! ## Rules that are told again -/

section Rules

variable {policy : DuplicatePolicy} {name other : String} {rules : List Rule}

theorem overwriteFirst_twice (name value value' : String) (rules : List Rule) :
    overwriteFirst name value (overwriteFirst name value' rules)
      = overwriteFirst name value rules := by
  induction rules with
  | nil => rfl
  | cons rule rest ih =>
    by_cases hname : rule.name = name
    · simp [overwriteFirst, hname]
    · simp [overwriteFirst, hname, ih]

theorem overwriteFirst_comm (h : name ≠ other) (value value' : String) (rules : List Rule) :
    overwriteFirst name value (overwriteFirst other value' rules)
      = overwriteFirst other value' (overwriteFirst name value rules) := by
  induction rules with
  | nil => rfl
  | cons rule rest ih =>
    by_cases hname : rule.name = name
    · simp [overwriteFirst, hname, h]
    · by_cases hother : rule.name = other
      · simp [overwriteFirst, hother, h.symm]
      · simp [overwriteFirst, hname, hother, ih]

theorem overwriteFirst_append_of_mem (h : name ∈ rules.map Rule.name) (value : String)
    (more : List Rule) :
    overwriteFirst name value (rules ++ more) = overwriteFirst name value rules ++ more := by
  induction rules with
  | nil => cases h
  | cons rule rest ih =>
    by_cases hname : rule.name = name
    · simp [overwriteFirst, hname]
    · have hrest : name ∈ rest.map Rule.name := by
        rw [List.map_cons, List.mem_cons] at h
        exact h.resolve_left fun heq => hname heq.symm
      simp [overwriteFirst, hname, ih hrest]

theorem overwriteFirst_append_of_not_mem (h : name ∉ rules.map Rule.name) (value value' : String) :
    overwriteFirst name value (rules ++ [⟨name, value'⟩]) = rules ++ [⟨name, value⟩] := by
  induction rules with
  | nil => simp [overwriteFirst]
  | cons rule rest ih =>
    rw [List.map_cons, List.mem_cons, not_or] at h
    simp [overwriteFirst, Ne.symm h.1, ih h.2]

theorem rulesWith_of_mem (hpolicy : policy ≠ .append) (h : name ∈ rules.map Rule.name)
    (value : String) :
    rulesWith policy name value rules
      = if policy = .overwrite then overwriteFirst name value rules else rules :=
  if_pos ⟨hpolicy, any_name_eq_true_iff.mpr h⟩

theorem rulesWith_of_not_mem (h : name ∉ rules.map Rule.name) (value : String) :
    rulesWith policy name value rules = rules ++ [⟨name, value⟩] :=
  if_neg fun hknown => h (any_name_eq_true_iff.mp hknown.2)

theorem mem_rulesWith (hpolicy : policy ≠ .append) (name value : String) (rules : List Rule) :
    other ∈ (rulesWith policy name value rules).map Rule.name
      ↔ other = name ∨ other ∈ rules.map Rule.name := by
  rw [map_name_rulesWith]
  by_cases hknown : name ∈ rules.map Rule.name
  · rw [if_pos ⟨hpolicy, hknown⟩]
    exact ⟨.inr, fun h => h.elim (· ▸ hknown) id⟩
  · rw [if_neg fun h => hknown h.2, List.mem_append, List.mem_singleton, or_comm]

/-- A known rule can be told before another one or after it. -/
theorem rulesWith_comm (hpolicy : policy ≠ .append) (hne : name ≠ other)
    (h : name ∈ rules.map Rule.name) (value value' : String) :
    rulesWith policy name value (rulesWith policy other value' rules)
      = rulesWith policy other value' (rulesWith policy name value rules) := by
  have hstill := (mem_rulesWith hpolicy other value' rules).mpr (.inr h)
  rw [rulesWith_of_mem hpolicy hstill, rulesWith_of_mem hpolicy h]
  by_cases hover : policy = .overwrite
  · rw [if_pos hover, if_pos hover]
    by_cases hother : other ∈ rules.map Rule.name
    · have hother' : other ∈ (overwriteFirst name value rules).map Rule.name := by
        rwa [map_name_overwriteFirst]
      rw [rulesWith_of_mem hpolicy hother, rulesWith_of_mem hpolicy hother', if_pos hover,
        if_pos hover, overwriteFirst_comm hne]
    · have hother' : other ∉ (overwriteFirst name value rules).map Rule.name := by
        rwa [map_name_overwriteFirst]
      rw [rulesWith_of_not_mem hother, rulesWith_of_not_mem hother',
        overwriteFirst_append_of_mem h]
  · rw [if_neg hover, if_neg hover]

/-- The value of a rule that was told last is the one that counts. -/
theorem rulesWith_absorb (hpolicy : policy ≠ .append) (h : name ∈ rules.map Rule.name)
    (value value' : String) :
    rulesWith policy name value (rulesWith policy name value' rules)
      = rulesWith policy name value rules := by
  have hstill := (mem_rulesWith hpolicy name value' rules).mpr (.inr h)
  rw [rulesWith_of_mem hpolicy hstill, rulesWith_of_mem hpolicy h, rulesWith_of_mem hpolicy h]
  by_cases hover : policy = .overwrite
  · rw [if_pos hover, if_pos hover, if_pos hover, overwriteFirst_twice]
  · rw [if_neg hover, if_neg hover, if_neg hover]

theorem rulesWith_twice (hpolicy : policy ≠ .append) (name value : String) (rules : List Rule) :
    rulesWith policy name value (rulesWith policy name value rules)
      = rulesWith policy name value rules := by
  by_cases h : name ∈ rules.map Rule.name
  · exact rulesWith_absorb hpolicy h value value
  · have hknown := (mem_rulesWith hpolicy name value rules).mpr (.inl rfl)
    rw [rulesWith_of_mem hpolicy hknown, rulesWith_of_not_mem h]
    by_cases hover : policy = .overwrite
    · rw [if_pos hover, overwriteFirst_append_of_not_mem h]
    · rw [if_neg hover]

/-- The rules after several more, where there is room. -/
def rulesAfter (policy : DuplicatePolicy) (rules told : List Rule) : List Rule :=
  told.foldl (fun rules rule => rulesWith policy rule.name rule.value rules) rules

theorem rulesAfter_cons (policy : DuplicatePolicy) (rules told : List Rule) (rule : Rule) :
    rulesAfter policy rules (rule :: told)
      = rulesAfter policy (rulesWith policy rule.name rule.value rules) told := rfl

theorem rulesAfter_concat (policy : DuplicatePolicy) (rules told : List Rule) (rule : Rule) :
    rulesAfter policy rules (told ++ [rule])
      = rulesWith policy rule.name rule.value (rulesAfter policy rules told) := by
  rw [rulesAfter, List.foldl_append, List.foldl_cons, List.foldl_nil, rulesAfter]

theorem mem_rulesAfter (hpolicy : policy ≠ .append) (told rules : List Rule) :
    other ∈ (rulesAfter policy rules told).map Rule.name
      ↔ other ∈ told.map Rule.name ∨ other ∈ rules.map Rule.name := by
  induction told generalizing rules with
  | nil => simp [rulesAfter]
  | cons rule rest ih =>
    rw [rulesAfter_cons, ih, mem_rulesWith hpolicy, List.map_cons, List.mem_cons]
    tauto

/-- A rule that is told last need not have been told before rules that are known. -/
theorem rulesAfter_absorb (hpolicy : policy ≠ .append) (name value : String) {told : List Rule}
    (hknown : ∀ rule ∈ told, rule.name ∈ rules.map Rule.name) :
    rulesWith policy name value (rulesAfter policy (rulesWith policy name value rules) told)
      = rulesWith policy name value (rulesAfter policy rules told) := by
  induction told generalizing rules with
  | nil => exact rulesWith_twice hpolicy name value rules
  | cons rule rest ih =>
    have hrule := hknown rule List.mem_cons_self
    have hrest : ∀ other ∈ rest,
        other.name ∈ (rulesWith policy rule.name rule.value rules).map Rule.name :=
      fun other hother => (mem_rulesWith hpolicy _ _ _).mpr
        (.inr (hknown other (List.mem_cons_of_mem rule hother)))
    rw [rulesAfter_cons, rulesAfter_cons]
    by_cases hsame : rule.name = name
    · rw [hsame] at hrule ⊢
      rw [rulesWith_absorb hpolicy hrule]
    · rw [rulesWith_comm hpolicy hsame hrule]
      exact ih hrest

/-- **Rules that are told again** leave everything as it is. -/
theorem rulesAfter_twice (hpolicy : policy ≠ .append) (rules told : List Rule) :
    rulesAfter policy (rulesAfter policy rules told) told = rulesAfter policy rules told := by
  -- by induction from the right: what is told before the last rule is known by then
  induction told using List.reverseRecOn with
  | nil => rfl
  | append_singleton told rule ih =>
    have hknown : ∀ other ∈ told, other.name ∈ (rulesAfter policy rules told).map Rule.name :=
      fun other hother => (mem_rulesAfter hpolicy told rules).mpr
        (.inl (List.mem_map_of_mem hother))
    rw [rulesAfter_concat, rulesAfter_concat, rulesAfter_absorb hpolicy _ _ hknown, ih]

end Rules

namespace Exchange

variable {policy : DuplicatePolicy} {x : Exchange}

/-- What rules do to an exchange, where there is room. -/
theorem learnedAll_rules (policy : DuplicatePolicy) (x : Exchange) (told : List Rule) :
    x.learnedAll policy (told.map fun rule => .rule rule.name rule.value)
      = { x with server.rules := rulesAfter policy x.server.rules told } := by
  induction told generalizing x with
  | nil => rfl
  | cons rule rest ih =>
    exact ih _

/-- Rules of known names are kept, since they lengthen nothing. -/
theorem learnAll_known (hpolicy : policy ≠ .append) {told : List Rule}
    (hknown : ∀ rule ∈ told, rule.name ∈ x.server.rules.map Rule.name) :
    x.learnAll policy (told.map fun rule => .rule rule.name rule.value)
      = (x.learnedAll policy (told.map fun rule => .rule rule.name rule.value), none) := by
  induction told generalizing x with
  | nil => rfl
  | cons rule rest ih =>
    have hrule := any_name_eq_true_iff.mpr (hknown rule List.mem_cons_self)
    have hlearn : x.learn policy (.rule rule.name rule.value)
        = (x.learned policy (.rule rule.name rule.value), none) := by
      rw [learn, Server.addRule_eq, if_neg fun h => h.1 ⟨hpolicy, hrule⟩]
      rfl
    rw [List.map_cons, learnAll, hlearn]
    refine ih fun other hother => ?_
    exact (mem_rulesWith hpolicy _ _ _).mpr (.inr (hknown other (List.mem_cons_of_mem rule hother)))

/-- **Learning rules again** leaves an exchange as it is. -/
theorem learnAll_again (hpolicy : policy ≠ .append) (told : List Rule) {x' : Exchange}
    (h : x.learnAll policy (told.map fun rule => .rule rule.name rule.value) = (x', none)) :
    x'.learnAll policy (told.map fun rule => .rule rule.name rule.value) = (x', none) := by
  have hkept := learnAll_of_kept (congrArg Prod.snd h)
  rw [h, Prod.mk.injEq, learnedAll_rules] at hkept
  obtain ⟨rfl, -⟩ := hkept
  rw [learnAll_known hpolicy, learnedAll_rules]
  · dsimp only
    rw [rulesAfter_twice hpolicy]
  · intro rule hrule
    exact (mem_rulesAfter hpolicy told _).mpr (.inl (List.mem_map_of_mem hrule))

/-! ## What learning keeps -/

theorem learnAll_sessionId (x : Exchange) (policy : DuplicatePolicy) (facts : List Fact) :
    (x.learnAll policy facts).1.session.sessionId = x.session.sessionId := by
  refine learnAll_keeps (P := fun x' => x'.session.sessionId = x.session.sessionId) ?_ rfl
  intro x' f _ h
  rw [learn_session, ← h]
  cases f <;> rfl

/-- A datagram that has been seen stays seen. -/
theorem learnAll_seen {number : UInt8} (h : Session.maskHas x.session.received number = true)
    (facts : List Fact) :
    Session.maskHas (x.learnAll policy facts).1.session.received number = true := by
  refine learnAll_keeps (P := fun x => Session.maskHas x.session.received number = true) ?_ h
  intro x' f _ h
  rw [learn_session]
  cases f with
  | datagram other final =>
    show Session.maskHas (x'.session.received ||| Session.datagramBit other) number = true
    rw [Session.maskHas_or, h, Bool.true_or]
  | _ => exact h

/-- A fact is turned down only where it would lengthen a full list, and leaves the server as it
is. -/
theorem learn_fault {f : Fact} {fault : Fault} (h : (x.learn policy f).2 = some fault) :
    fault.kind = .outOfMemory ∧ (x.learn policy f).1.server = x.server ∧
      (ruleLimit ≤ x.server.rules.length ∨ playerLimit ≤ x.server.players.length) := by
  cases f with
  | rule name value =>
    rw [learn, Server.addRule_eq] at h ⊢
    split at h
    · rename_i hfull
      cases h
      rw [if_pos hfull]
      exact ⟨rfl, rfl, .inl hfull.2⟩
    · cases h
  | seen number =>
    rw [learn, Server.ensurePlayer_eq] at h ⊢
    split at h
    · rename_i hfull
      cases h
      rw [if_pos hfull]
      exact ⟨rfl, rfl, .inr hfull.2⟩
    · cases h
  | newcomer fields =>
    rw [learn, Server.addPlayer] at h ⊢
    split at h
    · rename_i hfull
      cases h
      rw [if_pos hfull]
      exact ⟨rfl, rfl, .inr hfull⟩
    · cases h
  | _ => cases h

/-- Learning stops for want of room only, where a list is full. -/
theorem learnAll_full {facts : List Fact} {fault : Fault}
    (h : (x.learnAll policy facts).2 = some fault) :
    fault.kind = .outOfMemory ∧
      (ruleLimit ≤ (x.learnAll policy facts).1.server.rules.length ∨
        playerLimit ≤ (x.learnAll policy facts).1.server.players.length) := by
  induction facts generalizing x with
  | nil => cases h
  | cons f rest ih =>
    rw [learnAll] at h ⊢
    rcases hlearn : x.learn policy f with ⟨x', _ | fault'⟩
    · rw [hlearn] at h
      exact ih h
    · rw [hlearn] at h
      obtain rfl : fault' = fault := Option.some.inj h
      obtain ⟨hkind, hserver, hfull⟩ := learn_fault (congrArg Prod.snd hlearn)
      rw [hlearn] at hserver
      rw [← hserver] at hfull
      exact ⟨hkind, hfull⟩

/-- A fact that is turned down ends the query. -/
theorem learnAll_fault {facts : List Fact} {fault : Fault}
    (h : (x.learnAll policy facts).2 = some fault) : fault.kind.isFatal = true := by
  rw [(learnAll_full h).1]
  rfl

/-- How a payload ends does not change the conversation. -/
theorem apply_session (x : Exchange) (policy : DuplicatePolicy) (reading : Reading) :
    (x.apply policy reading).1.session = (x.learnAll policy reading.facts).1.session := by
  rcases x.apply_cases policy reading with
    ⟨x', fault, hlearn, happly⟩ | ⟨x', fault, hlearn, -, happly⟩ | ⟨x', ending, hlearn, -, happly⟩
  · rw [happly, hlearn]
  · rw [happly, hlearn]
  · rw [happly, hlearn, conclude_session]

/-- How a payload ends does not change what is known of the server. -/
theorem apply_server (x : Exchange) (policy : DuplicatePolicy) (reading : Reading) :
    (x.apply policy reading).1.server = (x.learnAll policy reading.facts).1.server := by
  rcases x.apply_cases policy reading with
    ⟨x', fault, hlearn, happly⟩ | ⟨x', fault, hlearn, -, happly⟩ | ⟨x', ending, hlearn, -, happly⟩
  · rw [happly, hlearn]
  · rw [happly, hlearn]
  · rw [happly, hlearn, conclude_server]

/-- A payload that breaks off ends the query, whether what it tells is kept or not. -/
theorem apply_broken (policy : DuplicatePolicy) (x : Exchange) {facts : List Fact} {fault : Fault}
    (hfatal : fault.kind.isFatal = true) :
    ∃ kind, kind.isFatal = true ∧
      (x.apply policy ⟨facts, .error fault⟩).2.outcome = .error kind := by
  unfold apply
  rcases hlearn : x.learnAll policy facts with ⟨x', _ | fault'⟩
  · exact ⟨fault.kind, hfatal, rfl⟩
  · exact ⟨fault'.kind, learnAll_fault (congrArg Prod.snd hlearn), rfl⟩

/-- A payload that answers something ends the query for want of room, or what it tells is
kept. -/
theorem apply_done (policy : DuplicatePolicy) (x : Exchange) (facts : List Fact)
    (answered : PhaseSet) :
    (∃ kind, kind.isFatal = true ∧
      (x.apply policy ⟨facts, .ok (.done answered true)⟩).2.outcome = .error kind) ∨
    ∃ x', x.learnAll policy facts = (x', none) ∧
      x.apply policy ⟨facts, .ok (.done answered true)⟩
        = (x', { outcome := .done true, answered }) := by
  unfold apply
  rcases hlearn : x.learnAll policy facts with ⟨x', _ | fault⟩
  · exact .inr ⟨x', rfl, rfl⟩
  · exact .inl ⟨fault.kind, learnAll_fault (congrArg Prod.snd hlearn), rfl⟩

end Exchange

/-! ## What accumulates -/

/-- Whether a fact is recorded once more each time it is told: a player that is not numbered
is, and a rule where rules of one name are kept beside each other. -/
def Fact.Accumulates (policy : DuplicatePolicy) : Fact → Prop
  | .newcomer _ => True
  | .rule _ _ => policy = .append
  | _ => False

/-- Entries of a list that do not accumulate are rules, if there are any. -/
theorem exists_rules {policy : DuplicatePolicy} {facts : List Fact}
    (hentries : ∀ f ∈ facts, f.IsEntry) (h : ∀ f ∈ facts, ¬f.Accumulates policy) :
    ∃ told : List Rule, facts = told.map (fun rule => .rule rule.name rule.value) ∧
      (policy = .append → told = []) := by
  induction facts with
  | nil => exact ⟨[], rfl, fun _ => rfl⟩
  | cons f rest ih =>
    obtain ⟨told, rfl, -⟩ := ih (fun g hg => hentries g (List.mem_cons_of_mem f hg))
      fun g hg => h g (List.mem_cons_of_mem f hg)
    have hentry := hentries f List.mem_cons_self
    have hlost := h f List.mem_cons_self
    cases f with
    | rule name value => exact ⟨⟨name, value⟩ :: told, rfl, fun happend => absurd happend hlost⟩
    | newcomer fields => exact absurd trivial hlost
    | _ => exact hentry.elim

/-- Entries that do not accumulate leave an exchange as it is when they are told again. -/
theorem Exchange.learnAll_unaccumulated {policy : DuplicatePolicy} {facts : List Fact}
    (hentries : ∀ f ∈ facts, f.IsEntry) (hlost : ∀ f ∈ facts, ¬f.Accumulates policy)
    {x x' : Exchange} (h : x.learnAll policy facts = (x', none)) :
    x'.learnAll policy facts = (x', none) := by
  obtain ⟨told, rfl, hnone⟩ := exists_rules hentries hlost
  by_cases hpolicy : policy = .append
  · rw [hnone hpolicy]
    rfl
  · exact learnAll_again hpolicy told h

namespace Exchange

variable {policy : DuplicatePolicy}

/-- How many rules and players are held. -/
def held (x : Exchange) : Nat := x.server.rules.length + x.server.players.length

theorem length_rulesWith_le (policy : DuplicatePolicy) (name value : String) (rules : List Rule) :
    rules.length ≤ (rulesWith policy name value rules).length := by
  have hnames := (prefix_map_name_rulesWith policy name value rules).length_le
  rwa [List.length_map, List.length_map] at hnames

theorem length_playersWith_le (number : Int32) (players : List Player) :
    players.length ≤ (playersWith number players).length := by
  have hnumbers := (prefix_map_number_playersWith number players).length_le
  rwa [List.length_map, List.length_map] at hnumbers

/-- Nothing that is held is lost. -/
theorem held_learned_le (policy : DuplicatePolicy) (x : Exchange) (f : Fact) :
    x.held ≤ (x.learned policy f).held := by
  cases f with
  | rule name value =>
    exact Nat.add_le_add_right (length_rulesWith_le policy name value x.server.rules) _
  | seen number =>
    exact Nat.add_le_add_left (length_playersWith_le number x.server.players) _
  | newcomer fields =>
    refine Nat.add_le_add_left ?_ _
    rw [learned, List.length_append]
    exact Nat.le_add_right _ _
  | field number value =>
    -- a changed player is still one player
    have hnumbers := congrArg List.length (map_number_changeFirst
      (fun p => p.number_set value) number x.server.players)
    rw [List.length_map, List.length_map] at hnumbers
    exact Nat.add_le_add_left (Nat.le_of_eq hnumbers.symm) _
  | _ => exact Nat.le_refl _

theorem held_learnedAll_le (policy : DuplicatePolicy) (x : Exchange) (facts : List Fact) :
    x.held ≤ (x.learnedAll policy facts).held := by
  induction facts generalizing x with
  | nil => exact Nat.le_refl _
  | cons f rest ih => exact (held_learned_le policy x f).trans (ih _)

theorem held_learned_lt {f : Fact} (h : f.Accumulates policy) (x : Exchange) :
    x.held < (x.learned policy f).held := by
  cases f with
  | rule name value =>
    have hpolicy : policy = .append := h
    have hrules : rulesWith policy name value x.server.rules
        = x.server.rules ++ [⟨name, value⟩] := if_neg fun hknown => hknown.1 hpolicy
    rw [learned, held, held, hrules, List.length_append, List.length_singleton]
    exact Nat.add_lt_add_right (Nat.lt_succ_self _) _
  | newcomer fields =>
    rw [learned, held, held, List.length_append, List.length_singleton]
    exact Nat.add_lt_add_left (Nat.lt_succ_self _) _
  | _ => exact h.elim

/-- Where something accumulates, more is held each time it is told. -/
theorem held_learnedAll_lt {facts : List Fact} (h : ∃ f ∈ facts, f.Accumulates policy)
    (x : Exchange) : x.held < (x.learnedAll policy facts).held := by
  induction facts generalizing x with
  | nil =>
    obtain ⟨f, hf, -⟩ := h
    cases hf
  | cons f rest ih =>
    obtain ⟨g, hg, haccumulates⟩ := h
    rcases List.mem_cons.mp hg with rfl | hg
    · exact (held_learned_lt haccumulates x).trans_le (held_learnedAll_le policy _ rest)
    · exact (held_learned_le policy x f).trans_lt (ih ⟨g, hg, haccumulates⟩ _)

end Exchange

end ServerProbe
