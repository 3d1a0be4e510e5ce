/-
Rules that come more than once.

Rules are offered to a server one after another, in the order in which they are told, and the
server changes its list in place. The reference does not: it looks at all the rules that were
not turned down and lists each name where it came first, with the value that came first or last,
or it lists the rules as they are where names may repeat. That both come to the same is shown by
induction from the last rule (`offerAll_reference`); `Server.Reflects` is what carries it.

A name that is stored is looked for before the limit, so a rule is turned down only where it
would lengthen a full list, and then nothing changes.
-/
import ServerProbe.Proofs.Content
import ServerProbe.Proofs.RepeatedFacts

set_option autoImplicit false

namespace ServerProbe

/-! ## First occurrences and values -/

section Occurrences

variable {α : Type} [DecidableEq α]

theorem eraseDups_concat (l : List α) (a : α) :
    (l ++ [a]).eraseDups = if a ∈ l then l.eraseDups else l.eraseDups ++ [a] := by
  rw [List.eraseDups_append]
  by_cases h : a ∈ l
  · simp [List.removeAll, h]
  · simp [List.removeAll, h, List.eraseDups_cons]

theorem nodup_eraseDups (l : List α) : l.eraseDups.Nodup := by
  induction l using List.reverseRecOn with
  | nil => exact List.nodup_nil
  | append_singleton l a ih =>
    rw [eraseDups_concat]
    split
    · exact ih
    · rename_i hnew
      refine List.nodup_append.mpr ⟨ih, List.nodup_singleton a, ?_⟩
      rintro b hb c hc rfl
      exact hnew (List.mem_singleton.mp hc ▸ List.mem_eraseDups.mp hb)

end Occurrences

/-- The value that stands under a name first. -/
def firstValue? (name : String) (rules : List Rule) : Option String :=
  (rules.find? fun rule => rule.name == name).map Rule.value

section Values

variable {name other : String} {rules : List Rule}

theorem firstValue?_cons (name : String) (rule : Rule) (rest : List Rule) :
    firstValue? name (rule :: rest)
      = if rule.name = name then some rule.value else firstValue? name rest := by
  by_cases h : rule.name = name <;> simp [firstValue?, h]

theorem firstValue?_concat (name : String) (rules : List Rule) (rule : Rule) :
    firstValue? name (rules ++ [rule])
      = (firstValue? name rules).or (if rule.name = name then some rule.value else none) := by
  rw [firstValue?, List.find?_append, Option.map_or]
  by_cases h : rule.name = name <;> simp [firstValue?, h]

theorem lastValue?_concat (name : String) (rules : List Rule) (rule : Rule) :
    lastValue? name (rules ++ [rule])
      = if rule.name = name then some rule.value else lastValue? name rules := by
  by_cases h : rule.name = name <;> simp [lastValue?, h]

theorem firstValue?_eq_none_iff : firstValue? name rules = none ↔ name ∉ rules.map Rule.name := by
  simp [firstValue?]

/-- Overwriting a name that is known changes what is found under it, and under no other. -/
theorem firstValue?_overwriteFirst (value : String) (h : name ∈ rules.map Rule.name) :
    firstValue? other (overwriteFirst name value rules)
      = if name = other then some value else firstValue? other rules := by
  induction rules with
  | nil => cases h
  | cons rule rest ih =>
    rw [overwriteFirst]
    by_cases hname : rule.name = name
    · rw [if_pos hname, firstValue?_cons, firstValue?_cons]
      by_cases hother : name = other
      · rw [if_pos hother, if_pos hother]
      · rw [if_neg hother, if_neg hother, if_neg fun heq => hother (hname.symm.trans heq)]
    · have hrest : name ∈ rest.map Rule.name := by
        rw [List.map_cons, List.mem_cons] at h
        exact h.resolve_left fun heq => hname heq.symm
      rw [if_neg hname, firstValue?_cons, firstValue?_cons, ih hrest]
      by_cases hother : name = other
      · rw [if_pos hother, if_pos hother, if_neg fun heq => hname (heq.trans hother.symm)]
      · rw [if_neg hother, if_neg hother]

/-- Where names do not repeat, every rule is the first one of its name. -/
theorem firstValue?_of_mem (hnodup : (rules.map Rule.name).Nodup) {rule : Rule}
    (hmem : rule ∈ rules) : firstValue? rule.name rules = some rule.value := by
  induction rules with
  | nil => cases hmem
  | cons first rest ih =>
    rw [List.map_cons, List.nodup_cons] at hnodup
    rw [firstValue?_cons]
    rcases List.mem_cons.mp hmem with rfl | hrest
    · rw [if_pos rfl]
    · have hother : first.name ≠ rule.name :=
        fun heq => hnodup.1 (heq ▸ List.mem_map_of_mem hrest)
      rw [if_neg hother]
      exact ih hnodup.2 hrest

end Values

/-! ## Rules that are offered -/

/-- What becomes of a rule whose name is known. -/
def DuplicatePolicy.onRepeat : DuplicatePolicy → RuleChange
  | .append => .appended
  | .reject => .rejected
  | .overwrite => .overwritten
  | .keepFirst => .kept

namespace Server

/-- Offers a rule to a server, which stays as it is if the rule is turned down. -/
def offer (policy : DuplicatePolicy) (s : Server) (rule : Rule) :
    Server × Except Fault RuleChange :=
  match s.addRule policy rule.name rule.value with
  | .ok (s', change) => (s', .ok change)
  | .error fault => (s, .error fault)

/-- Offers rules one after another, and writes down what became of each. -/
def offerAll (policy : DuplicatePolicy) (s : Server) (rules : List Rule) :
    Server × List (Rule × Except Fault RuleChange) :=
  rules.foldl (fun (s, log) rule =>
    let (s', answer) := s.offer policy rule
    (s', log ++ [(rule, answer)])) (s, [])

/-- The rules that were not turned down. -/
def accepted (log : List (Rule × Except Fault RuleChange)) : List Rule :=
  (log.filter fun offered => offered.2.isOk).map Prod.fst

variable {policy : DuplicatePolicy} {s : Server} {rule : Rule}

/-- **What becomes of one rule.** -/
theorem offer_eq (policy : DuplicatePolicy) (s : Server) (rule : Rule) :
    s.offer policy rule
      = if policy ≠ .append ∧ rule.name ∈ s.rules.map Rule.name then
          ({ s with rules := rulesWith policy rule.name rule.value s.rules }, .ok policy.onRepeat)
        else if ruleLimit ≤ s.rules.length then
          (s, .error (.overLimit ("more than " ++ Text.decimalText ruleLimit ++ " rules")))
        else ({ s with rules := s.rules ++ [rule] }, .ok .appended) := by
  unfold offer addRule
  simp only [any_name_eq_true_iff]
  by_cases hknown : policy ≠ .append ∧ rule.name ∈ s.rules.map Rule.name
  · rw [if_pos hknown, if_pos hknown, rulesWith_of_mem hknown.1 hknown.2]
    cases policy with
    | append => exact absurd rfl hknown.1
    | overwrite => rfl
    | reject => rfl
    | keepFirst => rfl
  · rw [if_neg hknown, if_neg hknown]
    by_cases hfull : ruleLimit ≤ s.rules.length
    · rw [if_pos hfull, if_pos hfull]
    · rw [if_neg hfull, if_neg hfull]

theorem offerAll_concat (policy : DuplicatePolicy) (s : Server) (rules : List Rule) (rule : Rule) :
    s.offerAll policy (rules ++ [rule])
      = (((s.offerAll policy rules).1.offer policy rule).1,
        (s.offerAll policy rules).2
          ++ [(rule, ((s.offerAll policy rules).1.offer policy rule).2)]) := by
  rw [offerAll, List.foldl_append]
  rfl

/-- Every rule that is offered is written down. -/
theorem map_fst_offerAll (policy : DuplicatePolicy) (s : Server) (rules : List Rule) :
    (s.offerAll policy rules).2.map Prod.fst = rules := by
  induction rules using List.reverseRecOn with
  | nil => rfl
  | append_singleton rules rule ih =>
    rw [offerAll_concat, List.map_append, ih, List.map_singleton]

theorem accepted_concat (log : List (Rule × Except Fault RuleChange)) (rule : Rule)
    (answer : Except Fault RuleChange) :
    accepted (log ++ [(rule, answer)])
      = if answer.isOk then accepted log ++ [rule] else accepted log := by
  rw [accepted, List.filter_append, List.map_append]
  by_cases h : answer.isOk = true
  · simp [accepted, h]
  · simp [accepted, h]

/-! ## The reference -/

/-- The value that counts under a name, of the rules that were not turned down. -/
def valueOf? (policy : DuplicatePolicy) (name : String) (kept : List Rule) : Option String :=
  if policy = .overwrite then lastValue? name kept else firstValue? name kept

/-- Whether a server has just the rules that follow from those that were not turned down. -/
structure Reflects (policy : DuplicatePolicy) (s : Server) (kept : List Rule) : Prop where
  fits : s.rules.length ≤ ruleLimit
  alone : s = { rules := s.rules }
  listed : policy = .append → s.rules = kept
  names : policy ≠ .append → s.rules.map Rule.name = (kept.map Rule.name).eraseDups
  values : ∀ name, firstValue? name s.rules = valueOf? policy name kept

namespace Reflects

variable {kept : List Rule}

theorem empty (policy : DuplicatePolicy) : Reflects policy {} [] where
  fits := Nat.zero_le _
  alone := rfl
  listed _ := rfl
  names _ := rfl
  values _ := by
    unfold valueOf?
    split <;> rfl

/-- A name is stored if it was told by a rule that was not turned down. -/
theorem mem_names (h : Reflects policy s kept) {name : String} :
    name ∈ s.rules.map Rule.name ↔ name ∈ kept.map Rule.name := by
  by_cases hpolicy : policy = .append
  · rw [h.listed hpolicy]
  · rw [h.names hpolicy, List.mem_eraseDups]

/-- A rule whose name is stored. -/
theorem repeated (h : Reflects policy s kept) (hpolicy : policy ≠ .append)
    (hknown : rule.name ∈ s.rules.map Rule.name) :
    Reflects policy { s with rules := rulesWith policy rule.name rule.value s.rules }
      (kept ++ [rule]) := by
  have hnames : (rulesWith policy rule.name rule.value s.rules).map Rule.name
      = s.rules.map Rule.name := by
    rw [map_name_rulesWith, if_pos ⟨hpolicy, hknown⟩]
  have hlength := congrArg List.length hnames
  rw [List.length_map, List.length_map] at hlength
  refine ⟨hlength.trans_le h.fits, ?_, fun happend => absurd happend hpolicy, fun _ => ?_, ?_⟩
  · rw [h.alone]
  · rw [hnames, h.names hpolicy, List.map_append, List.map_singleton, eraseDups_concat,
      if_pos (h.mem_names.mp hknown)]
  · intro name
    have hvalue := h.values name
    rw [rulesWith_of_mem hpolicy hknown]
    unfold valueOf? at hvalue ⊢
    by_cases hover : policy = .overwrite
    · rw [if_pos hover] at hvalue ⊢
      rw [if_pos hover, firstValue?_overwriteFirst _ hknown, lastValue?_concat, hvalue]
    · rw [if_neg hover] at hvalue ⊢
      rw [if_neg hover, firstValue?_concat, hvalue]
      -- a value that is there comes before the new one
      by_cases hname : rule.name = name
      · rcases hfirst : firstValue? name kept with _ | value
        · exact absurd (h.mem_names.mp hknown) (hname ▸ firstValue?_eq_none_iff.mp hfirst)
        · rfl
      · rw [if_neg hname, Option.or_none]

/-- A rule that lengthens the list. -/
theorem appended (h : Reflects policy s kept)
    (hnew : ¬(policy ≠ .append ∧ rule.name ∈ s.rules.map Rule.name))
    (hroom : s.rules.length < ruleLimit) :
    Reflects policy { s with rules := s.rules ++ [rule] } (kept ++ [rule]) := by
  refine ⟨?_, ?_, fun happend => ?_, fun hpolicy => ?_, fun name => ?_⟩
  · rw [List.length_append, List.length_singleton]
    exact hroom
  · rw [h.alone]
  · rw [h.listed happend]
  · have hunknown : rule.name ∉ kept.map Rule.name :=
      fun hknown => hnew ⟨hpolicy, h.mem_names.mpr hknown⟩
    rw [List.map_append, List.map_append, List.map_singleton, h.names hpolicy, eraseDups_concat,
      if_neg hunknown]
  · have hvalue := h.values name
    rw [firstValue?_concat, hvalue]
    unfold valueOf? at hvalue ⊢
    by_cases hover : policy = .overwrite
    · rw [if_pos hover] at hvalue ⊢
      rw [if_pos hover, lastValue?_concat]
      by_cases hname : rule.name = name
      · -- nothing stood under a name that is new
        have hnone : firstValue? name s.rules = none := firstValue?_eq_none_iff.mpr fun hknown =>
          hnew ⟨hover ▸ nofun, hname ▸ hknown⟩
        rw [if_pos hname, if_pos hname, ← hvalue, hnone]
        rfl
      · rw [if_neg hname, if_neg hname, Option.or_none]
    · rw [if_neg hover, if_neg hover, firstValue?_concat]

/-- **One more rule.** -/
theorem offer (h : Reflects policy s kept) (rule : Rule) :
    Reflects policy (s.offer policy rule).1
      (if (s.offer policy rule).2.isOk then kept ++ [rule] else kept) := by
  rw [offer_eq]
  split
  · rename_i hknown
    exact h.repeated hknown.1 hknown.2
  · rename_i hnew
    split
    · exact h
    · rename_i hroom
      exact h.appended hnew (Nat.lt_of_not_le hroom)

/-- **All rules,** from the first one on. -/
theorem offerAll (policy : DuplicatePolicy) (rules : List Rule) :
    Reflects policy (Server.offerAll policy {} rules).1
      (accepted (Server.offerAll policy {} rules).2) := by
  induction rules using List.reverseRecOn with
  | nil => exact .empty policy
  | append_singleton rules rule ih =>
    rw [offerAll_concat, accepted_concat]
    exact ih.offer rule

/-- Where names do not repeat, each rule has the value that counts. -/
theorem value_of_mem (h : Reflects policy s kept) (hpolicy : policy ≠ .append)
    (hmem : rule ∈ s.rules) : valueOf? policy rule.name kept = some rule.value := by
  rw [← h.values]
  refine firstValue?_of_mem ?_ hmem
  rw [h.names hpolicy]
  exact nodup_eraseDups _

end Reflects

/-- What is found under a name is the value that is listed first under it. -/
theorem rule?_eq_some_iff {name value : String} :
    s.rule? name = some value ↔
      ∃ before after, s.rules = before ++ ⟨name, value⟩ :: after ∧
        name ∉ before.map Rule.name := by
  rw [rule?, Option.map_eq_some_iff]
  simp only [List.find?_eq_some_iff_append]
  constructor
  · rintro ⟨⟨name', value'⟩, ⟨hname, before, after, hrules, hbefore⟩, rfl⟩
    obtain rfl : name' = name := by simpa using hname
    exact ⟨before, after, hrules, by simpa using hbefore⟩
  · rintro ⟨before, after, hrules, hbefore⟩
    exact ⟨⟨name, value⟩, ⟨by simp, before, after, hrules, by simpa using hbefore⟩, rfl⟩

/-- **Rules that come more than once.** Whatever rules are offered to a server that knows
nothing, only its rules change, and they follow from those that were not turned down: each name
once, where it came first, with its last value if values are overwritten and with its first
value otherwise; or all of them in order if names may repeat. What is found under a name is its
first listed value. One more rule is turned down only if it would lengthen a full list, and then
changes nothing; otherwise it is appended if its name is new or names may repeat, and is handled
as a repeated one if not. -/
theorem offerAll_reference (policy : DuplicatePolicy) (rules : List Rule) :
    let s := (offerAll policy {} rules).1
    let log := (offerAll policy {} rules).2
    let kept := accepted log
    log.map Prod.fst = rules ∧ s = { rules := s.rules } ∧
    (policy = .append → s.rules = kept) ∧
    (policy ≠ .append → s.rules.map Rule.name = (kept.map Rule.name).eraseDups ∧
      ∀ rule ∈ s.rules, (if policy = .overwrite then lastValue? rule.name kept
        else firstValue? rule.name kept) = some rule.value) ∧
    (∀ name value, s.rule? name = some value ↔
      ∃ before after, s.rules = before ++ ⟨name, value⟩ :: after ∧
        name ∉ before.map Rule.name) ∧
    s.rules.length ≤ ruleLimit ∧
    ∀ rule : Rule,
      let next := offerAll policy {} (rules ++ [rule])
      (policy ≠ .append ∧ rule.name ∈ kept.map Rule.name →
        next.2 = log ++ [(rule, .ok policy.onRepeat)]) ∧
      (¬(policy ≠ .append ∧ rule.name ∈ kept.map Rule.name) → s.rules.length < ruleLimit →
        next.2 = log ++ [(rule, .ok .appended)]) ∧
      (¬(policy ≠ .append ∧ rule.name ∈ kept.map Rule.name) → s.rules.length = ruleLimit →
        next = (s, log ++ [(rule, .error (.overLimit "more than 4096 rules"))])) := by
  have hreflects := Reflects.offerAll policy rules
  refine ⟨map_fst_offerAll policy {} rules, hreflects.alone, hreflects.listed,
    fun hpolicy => ⟨hreflects.names hpolicy, fun rule => hreflects.value_of_mem hpolicy⟩,
    fun name value => rule?_eq_some_iff, hreflects.fits, fun rule => ?_⟩
  dsimp only
  rw [offerAll_concat, offer_eq]
  simp only [hreflects.mem_names]
  refine ⟨fun hknown => ?_, fun hnew hroom => ?_, fun hnew hfull => ?_⟩
  · rw [if_pos hknown]
  · rw [if_neg hnew, if_neg (Nat.not_le_of_lt hroom)]
  · rw [if_neg hnew, if_pos (Nat.le_of_eq hfull.symm)]
    rfl

/-- Rules of which one comes again. -/
def changedMap : List Rule := [⟨"map", "q3dm1"⟩, ⟨"dmflags", "8"⟩, ⟨"map", "q3dm17"⟩]

/-- The map that was told last takes the place of the first one. -/
theorem offerAll_reference_changedMap :
    (offerAll .overwrite {} changedMap).1.rules.map Rule.name = ["map", "dmflags"] ∧
    (∀ rule ∈ (offerAll .overwrite {} changedMap).1.rules,
      lastValue? rule.name changedMap = some rule.value) ∧
    (offerAll .overwrite {} changedMap).2.map Prod.snd
      = [.ok .appended, .ok .appended, .ok .overwritten] := by
  obtain ⟨-, -, -, hreference, -⟩ := offerAll_reference .overwrite changedMap
  obtain ⟨hnames, hvalues⟩ := hreference nofun
  have hkept : accepted (offerAll .overwrite {} changedMap).2 = changedMap := by decide +kernel
  rw [hkept] at hnames hvalues
  exact ⟨hnames.trans (by decide +kernel), hvalues, by decide +kernel⟩

end Server

end ServerProbe
