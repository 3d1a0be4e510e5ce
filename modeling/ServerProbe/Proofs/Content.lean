/-
What a reply says, in whatever order it says it.

A reader notes facts in the order in which they stand in a payload, and they are learned in
that order. Where rules and players are numerous, the few things that are told once stand
among them, and may be told more than once. Gathered up, a reply says the last of each of
these, all its rules in order and all its players in order (`Says`), and learning its facts is
learning this content (`learnAll_taught`): rules and players touch lists of their own, so it
does not matter what stands between them.

`Conveys` joins this to reading: a reader conveys a content if it passes over octets and what
it notes on the way says just this. It goes through `bind`, so what a reply conveys is found
part by part, without writing down the facts.
-/
import ServerProbe.Proofs.Extent
import ServerProbe.Proofs.Learning
import ServerProbe.Proofs.Parse
import ServerProbe.Proofs.Text

set_option autoImplicit false

namespace ServerProbe

open Reply

/-! ## What a reply says -/

/-- What a reply says about a server and about the conversation. -/
structure Content where
  name : Option String := none
  map : Option String := none
  game : Option String := none
  numPlayers : Option UInt32 := none
  maxPlayers : Option UInt32 := none
  rules : List Rule := []
  /-- The players, by what is said about each. -/
  players : List (List PlayerField) := []
  revision : Option UInt8 := none

namespace Content

/-- What is said if one thing is said after another. -/
def followedBy (c d : Content) : Content where
  name := d.name.or c.name
  map := d.map.or c.map
  game := d.game.or c.game
  numPlayers := d.numPlayers.or c.numPlayers
  maxPlayers := d.maxPlayers.or c.maxPlayers
  rules := c.rules ++ d.rules
  players := c.players ++ d.players
  revision := d.revision.or c.revision

@[simp] theorem followedBy_empty (c : Content) : c.followedBy {} = c := by
  simp [followedBy]

@[simp] theorem empty_followedBy (c : Content) : ({} : Content).followedBy c = c := by
  simp [followedBy]

/-- What facts say, taken together. -/
inductive Says : List Fact → Content → Prop where
  | nothing : Says [] {}
  | name (text : String) : Says [.name text] { name := text }
  | map (text : String) : Says [.map text] { map := text }
  | game (text : String) : Says [.game text] { game := text }
  | numPlayers (count : UInt32) : Says [.numPlayers count] { numPlayers := count }
  | maxPlayers (count : UInt32) : Says [.maxPlayers count] { maxPlayers := count }
  | rule (name value : String) : Says [.rule name value] { rules := [⟨name, value⟩] }
  | newcomer (fields : List PlayerField) : Says [.newcomer fields] { players := [fields] }
  | revision (value : UInt8) : Says [.revision value] { revision := value }
  | append {facts more : List Fact} {c d : Content} : Says facts c → Says more d →
      Says (facts ++ more) (c.followedBy d)

/-- Facts that are told one after another. -/
theorem says_list {α : Type} {fact : α → Fact} (say : List α → Content) (hnil : say [] = {})
    (hcons : ∀ a rest, say (a :: rest) = (say [a]).followedBy (say rest))
    (hone : ∀ a, (say [a]).Says [fact a]) (l : List α) : (say l).Says (l.map fact) := by
  induction l with
  | nil =>
    rw [hnil]
    exact .nothing
  | cons a rest ih =>
    rw [hcons]
    exact (hone a).append ih

end Content

/-! ## Learning what is said -/

/-- The server after rules have been added one after another, or the fault for which one of
them was not. -/
def Server.addRules (policy : DuplicatePolicy) (s : Server) (rules : List Rule) :
    Except Fault Server :=
  rules.foldlM (fun s rule => (s.addRule policy rule.name rule.value).map Prod.fst) s

/-- The server with what a reply says once and for all. -/
def Server.told (s : Server) (c : Content) : Server :=
  { s with
    name := c.name.or s.name
    map := c.map.or s.map
    game := c.game.or s.game
    numPlayers := c.numPlayers.getD s.numPlayers
    maxPlayers := c.maxPlayers.getD s.maxPlayers }

theorem Server.addRules_cons (policy : DuplicatePolicy) (s : Server) (rule : Rule)
    (rest : List Rule) : s.addRules policy (rule :: rest)
      = (s.addRule policy rule.name rule.value).map Prod.fst >>= fun s => s.addRules policy rest :=
  List.foldlM_cons

/-- Whether there is room for rules. One whose name is known takes no place, unless rules may
repeat. -/
abbrev Server.HasRoomFor (s : Server) (policy : DuplicatePolicy) (rules : List Rule) : Prop :=
  placesTaken (policy = .append) (s.rules.map Rule.name) (rules.map Rule.name) ≤ ruleLimit

/-- Where there is room for rules, all of them are added. -/
theorem Server.HasRoomFor.addRules {policy : DuplicatePolicy} {s : Server} {rules : List Rule}
    (h : s.HasRoomFor policy rules) : ∃ server, s.addRules policy rules = .ok server := by
  induction rules generalizing s with
  | nil => exact ⟨s, rfl⟩
  | cons rule rest ih =>
    obtain ⟨hadded, hroom⟩ := addRule_of_room rule.value h
    obtain ⟨server, hserver⟩ := ih (s := { s with rules := _ }) hroom
    refine ⟨server, ?_⟩
    rw [addRules_cons, hadded]
    exact hserver

/-- If all rules fit, the first ones do, and after them the others. -/
theorem Server.addRules_append {policy : DuplicatePolicy} {s server : Server}
    {rules more : List Rule} (h : s.addRules policy (rules ++ more) = .ok server) :
    ∃ s', s.addRules policy rules = .ok s' ∧ s'.addRules policy more = .ok server := by
  rw [addRules, List.foldlM_append] at h
  change (s.addRules policy rules >>= fun s' => s'.addRules policy more) = _ at h
  rcases hrules : s.addRules policy rules with fault | s'
  · rw [hrules] at h
    cases h
  · rw [hrules] at h
    exact ⟨s', rfl, h⟩

namespace Exchange

/-- What is known after a reply has been learned, where `rules` are the rules then. -/
def taught (x : Exchange) (c : Content) (rules : List Rule) : Exchange :=
  { x with
    server :=
      { x.server.told c with
        rules
        players := x.server.players ++ c.players.mapIdx fun i fields =>
          Player.setAll { number := x.session.nextPlayer + Int32.ofNat i } fields }
    session :=
      { x.session with
        revision := c.revision.or x.session.revision
        nextPlayer := x.session.nextPlayer + Int32.ofNat c.players.length } }

variable {policy : DuplicatePolicy} {x : Exchange}

theorem learnAll_after {x' : Exchange} {a b : List Fact}
    (h : x.learnAll policy a = (x', none)) :
    x.learnAll policy (a ++ b) = x'.learnAll policy b := by
  rw [learnAll_append, h]

/-- Whether rules fit, and which there are then, depends on the rules alone. -/
theorem addRules_congr {rules : List Rule} {s s' server : Server} (hsame : s'.rules = s.rules)
    (h : s.addRules policy rules = .ok server) :
    s'.addRules policy rules = .ok { s' with rules := server.rules } := by
  induction rules generalizing s s' with
  | nil =>
    obtain rfl : s = server := Except.ok.inj h
    rw [← hsame]
    rfl
  | cons rule rest ih =>
    rw [Server.addRules_cons, Server.addRule_eq] at h ⊢
    rw [hsame]
    split
    · rename_i hfull
      rw [if_pos hfull] at h
      cases h
    · rename_i hroom
      rw [if_neg hroom] at h
      exact ih (s := { s with rules := _ }) rfl h

/-- Learning one content after another is learning what they say together. -/
theorem taught_taught (x : Exchange) (c d : Content) (rules rules' : List Rule) :
    (x.taught c rules).taught d rules' = x.taught (c.followedBy d) rules' := by
  have hnumber : ∀ i, x.session.nextPlayer + Int32.ofNat c.players.length + Int32.ofNat i
      = x.session.nextPlayer + Int32.ofNat (i + c.players.length) := by
    intro i
    rw [Int32.ofNat_add, Int32.add_assoc, Int32.add_comm (Int32.ofNat i)]
  simp only [taught, Server.told, Content.followedBy, List.mapIdx_append, List.append_assoc,
    Option.or_assoc, hnumber]
  congr 2
  · cases d.numPlayers <;> rfl
  · cases d.maxPlayers <;> rfl
  · rw [List.length_append, Nat.add_comm]

/-- A fact that is no rule is learned as what it says. -/
theorem learnAll_quiet {f : Fact} {c : Content} {server : Server}
    (hlearn : x.learn policy f = (x.taught c x.server.rules, none))
    (hrules : x.server.addRules policy [] = .ok server) :
    x.learnAll policy [f] = (x.taught c server.rules, none) := by
  obtain rfl : x.server = server := Except.ok.inj hrules
  rw [learnAll, hlearn]
  rfl

/-- **Learning facts is learning what they say,** if there is room for it. -/
theorem learnAll_taught {facts : List Fact} {c : Content} {server : Server} (h : c.Says facts)
    (hrules : x.server.addRules policy c.rules = .ok server)
    (hplayers : x.server.players.length + c.players.length ≤ playerLimit) :
    x.learnAll policy facts = (x.taught c server.rules, none) := by
  induction h generalizing x server with
  | nothing =>
    obtain rfl : x.server = server := Except.ok.inj hrules
    simp [learnAll, taught, Server.told]
  | name text => exact learnAll_quiet (by simp [learn, taught, Server.told]) hrules
  | map text => exact learnAll_quiet (by simp [learn, taught, Server.told]) hrules
  | game text => exact learnAll_quiet (by simp [learn, taught, Server.told]) hrules
  | numPlayers count => exact learnAll_quiet (by simp [learn, taught, Server.told]) hrules
  | maxPlayers count => exact learnAll_quiet (by simp [learn, taught, Server.told]) hrules
  | revision value => exact learnAll_quiet (by simp [learn, taught, Server.told]) hrules
  | rule name value =>
    rw [Server.addRules_cons, Server.addRule_eq] at hrules
    rw [learnAll, learn, Server.addRule_eq]
    split at hrules
    · cases hrules
    · rename_i hroom
      obtain rfl := Except.ok.inj hrules
      rw [if_neg hroom]
      simp [learnAll, keep, taught, Server.told]
  | newcomer fields =>
    have hroom : ¬playerLimit ≤ x.server.players.length := by
      simp at hplayers
      omega
    refine learnAll_quiet ?_ hrules
    rw [learn, Server.addPlayer]
    dsimp only
    rw [if_neg hroom]
    simp [keep, taught, Server.told]
  | @append facts more c d _ _ ih ih' =>
    obtain ⟨s, hfirst, hsecond⟩ := Server.addRules_append hrules
    change _ + (c.players ++ d.players).length ≤ _ at hplayers
    rw [List.length_append] at hplayers
    have hsame : (x.taught c s.rules).server.rules = s.rules := rfl
    have hsecond := addRules_congr hsame hsecond
    have hplayers' : (x.taught c s.rules).server.players.length + d.players.length
        ≤ playerLimit := by
      simp only [taught, List.length_append, List.length_mapIdx]
      omega
    rw [learnAll_after (ih hfirst (by omega)), ih' hsecond hplayers', taught_taught]

end Exchange

/-! ## Reading what is said -/

namespace Reply

variable {α β : Type}

/-- A reader that comes to `octets`, followed by `rest`, passes over them, yields `a`, and what
it notes on the way says `c`. -/
def Conveys (m : Reply α) (octets rest : List UInt8) (a : α) (c : Content) : Prop :=
  ∃ facts, Reads m octets rest a facts ∧ c.Says facts

section Conveys

variable {m : Reply α} {k : α → Reply β} {a : α} {b : β} {octets octets' rest : List UInt8}
  {c d : Content}

theorem Conveys.bind (h : Conveys m octets (octets' ++ rest) a c)
    (h' : Conveys (k a) octets' rest b d) :
    Conveys (m >>= k) (octets ++ octets') rest b (c.followedBy d) := by
  obtain ⟨facts, hreads, hsays⟩ := h
  obtain ⟨more, hreads', hsays'⟩ := h'
  exact ⟨facts ++ more, hreads.bind hreads', hsays.append hsays'⟩

/-- What is read before without noting anything says nothing. -/
theorem Reads.conveys_bind (h : Reads m octets (octets' ++ rest) a [])
    (h' : Conveys (k a) octets' rest b c) : Conveys (m >>= k) (octets ++ octets') rest b c := by
  obtain ⟨facts, hreads, hsays⟩ := h'
  exact ⟨facts, h.bind hreads, hsays⟩

/-- What is noted without reading comes first. -/
theorem Conveys.note_bind (h : Conveys m [] (octets ++ rest) a c)
    (h' : Conveys (k a) octets rest b d) : Conveys (m >>= k) octets rest b (c.followedBy d) :=
  h.bind h'

/-- What is required and there says nothing. -/
theorem Conveys.require_bind {value : Option α} {fault : Fault} (hvalue : value = some a)
    (h : Conveys (k a) octets rest b c) : Conveys (require value fault >>= k) octets rest b c := by
  obtain ⟨facts, hreads, hsays⟩ := h
  refine ⟨facts, fun pos noted => ?_, hsays⟩
  rw [bind_require_some hvalue]
  exact hreads pos noted

theorem conveys_pure (a : α) (rest : List UInt8) : Conveys (pure a) [] rest a {} :=
  ⟨[], (needs_pure a).reads rest, .nothing⟩

theorem conveys_note {fact : Fact} (h : c.Says [fact]) (rest : List UInt8) :
    Conveys (note fact) [] rest () c :=
  ⟨[fact], (needs_note fact).reads rest, h⟩

end Conveys

end Reply

/-- **What a reply conveys is what is known afterwards.** If there is room for its rules and
players, a reply that answers phases leaves what was known, with what it says. What stands
behind it makes no difference. -/
theorem Exchange.receive_of_conveys {x : Exchange} {p : Protocol} {params : RequestParams}
    {current : Option Phase} {closed answered : PhaseSet} {sealing : Bool}
    {octets rest : List UInt8} {c : Content} {server : Server}
    (h : Conveys (p.reply ⟨current, closed, x.session⟩) octets rest (.done answered sealing) c)
    (hrules : x.server.addRules params.rulePolicy c.rules = .ok server)
    (hplayers : x.server.players.length + c.players.length ≤ playerLimit) :
    x.receive p params current closed (octets ++ rest)
      = (x.taught c server.rules, { outcome := .done sealing, answered }) := by
  obtain ⟨facts, hreads, hsays⟩ := h
  rw [receive_eq, Protocol.read, readAll_eq, Reader.ofPayload, hreads 0 [], apply, Step.reading,
    List.append_nil, List.reverse_reverse]
  dsimp only
  rw [learnAll_taught hsays hrules hplayers]
  rfl

/-- The players of a reply get the numbers that follow the last one given. -/
theorem Exchange.toInt_nextPlayer_add {x : Exchange} {count i : Nat}
    (hnumber : 0 ≤ x.session.nextPlayer.toInt ∧ x.session.nextPlayer.toInt ≤ 2049)
    (hcount : count ≤ playerLimit) (hi : i < count) :
    (x.session.nextPlayer + Int32.ofNat i).toInt = x.session.nextPlayer.toInt + i := by
  have hlimit : playerLimit = 1024 := rfl
  rw [Int32.toInt_add, Int32.toInt_ofNat_of_lt (by omega)]
  exact Int.bmod_eq_of_le (by omega) (by omega)

/-! ## Keys and values -/

/-- A key and its value as a server can send them: the key is not empty, none of the characters
that `end` a key or a value is in either of them, and what stands under a key that `counts`
players is a numeral. -/
structure Rule.Sendable (ends : List Char) (counts : List String) (rule : Rule) : Prop where
  named : rule.name ≠ ""
  free : ∀ c ∈ ends, c ∉ rule.name.toList ∧ c ∉ rule.value.toList
  numeral : rule.name ∈ counts → Text.IsNumeral rule.value.toList

/-- The value that stands under a key last. -/
def lastValue? (key : String) (pairs : List Rule) : Option String :=
  (pairs.reverse.find? fun pair => pair.name == key).map Rule.value

/-- The keys under which a protocol tells the well-known facts. -/
structure Vocabulary where
  name : String
  map : String
  game : String
  numPlayers : Option String
  maxPlayers : String
  /-- Whether what stands under a key is a rule. -/
  isRule : String → Bool

/-- What keys and values say: each of the well-known facts as it is told last, and the rules in
order. -/
def Vocabulary.content (v : Vocabulary) (pairs : List Rule) : Content where
  name := lastValue? v.name pairs
  map := lastValue? v.map pairs
  game := lastValue? v.game pairs
  numPlayers := (v.numPlayers.bind (lastValue? · pairs)).map fun n => Text.numeralValue n.toList
  maxPlayers := (lastValue? v.maxPlayers pairs).map fun n => Text.numeralValue n.toList
  rules := pairs.filter fun pair => v.isRule pair.name

theorem lastValue?_cons (key : String) (pair : Rule) (rest : List Rule) :
    lastValue? key (pair :: rest) = (lastValue? key rest).or (lastValue? key [pair]) := by
  rw [lastValue?, List.reverse_cons, List.find?_append, Option.map_or]
  rfl

theorem lastValue?_singleton (key : String) (pair : Rule) :
    lastValue? key [pair] = if pair.name = key then some pair.value else none := by
  by_cases h : pair.name = key <;> simp [lastValue?, h]

theorem Vocabulary.content_nil (v : Vocabulary) : v.content [] = {} := by
  cases h : v.numPlayers <;> simp [content, lastValue?, h]

theorem Vocabulary.content_cons (v : Vocabulary) (pair : Rule) (rest : List Rule) :
    v.content (pair :: rest) = (v.content [pair]).followedBy (v.content rest) := by
  have hrules : (pair :: rest).filter (fun pair => v.isRule pair.name)
      = [pair].filter (fun pair => v.isRule pair.name)
        ++ rest.filter fun pair => v.isRule pair.name := List.filter_append [pair] rest
  simp only [content, Content.followedBy, hrules, lastValue?_cons _ pair rest, Option.map_or]
  cases v.numPlayers with
  | none => simp
  | some key => simp [Option.map_or]

end ServerProbe
