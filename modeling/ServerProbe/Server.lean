/-
What is known about one server: a few well-known facts, its rules in the order in
which they were learned, and its players in the order in which they were first
seen. Both lists are bounded, because their length is chosen by the other side.

Looking for a name or a number always finds the first entry that has it, and
changing an entry changes that one; so what a look-up shows is what was changed.
-/
import ServerProbe.Outcome

set_option autoImplicit false

namespace ServerProbe

/-- How many rules are kept per server. -/
def ruleLimit : Nat := 4096

/-- How many players are kept per server. -/
def playerLimit : Nat := 1024

/-! ## Rules -/

/-- What happens to a rule whose name is known already. -/
inductive DuplicatePolicy where
  /-- It is kept beside the others of that name. -/
  | append
  /-- It is refused. -/
  | reject
  /-- Its value replaces the known one. -/
  | overwrite
  /-- It is passed over. -/
  | keepFirst
  deriving Repr, DecidableEq

/-- What became of a rule. -/
inductive RuleChange where
  | appended
  | overwritten
  | rejected
  | kept
  deriving Repr, DecidableEq

/-- A variable of the server. -/
structure Rule where
  name : String
  value : String
  deriving Repr, DecidableEq

/-- The rules with the value of the first one called `name` replaced. -/
def overwriteFirst (name value : String) : List Rule → List Rule
  | [] => []
  | rule :: rest =>
    if rule.name = name then ⟨name, value⟩ :: rest else rule :: overwriteFirst name value rest

/-! ## Players -/

/-- A player. Beyond number and name each field is there only if the server told
it. -/
structure Player where
  number : Int32
  name : String := ""
  score : Option Int32 := none
  frags : Option Int32 := none
  deaths : Option Int32 := none
  ping : Option UInt32 := none
  team : Option Int32 := none
  teamName : Option String := none
  /-- Seconds since the player joined, as the bits of a single-precision number. -/
  connectTime : Option UInt32 := none
  /-- Further fields by key, in the order in which they were learned. -/
  info : List (String × String) := []
  deriving Repr, DecidableEq

/-- The value under a key of a player's further fields, the first one if there are
several. -/
def Player.info? (p : Player) (key : String) : Option String :=
  (p.info.find? fun entry => entry.1 == key).map Prod.snd

/-- One thing that a server tells about a player. -/
inductive PlayerField where
  | name (text : String)
  | score (value : Int32)
  | frags (value : Int32)
  | deaths (value : Int32)
  | ping (value : UInt32)
  | team (value : Int32)
  | teamName (text : String)
  | connectTime (bits : UInt32)
  | info (key value : String)
  deriving Repr, DecidableEq

/-- The player with one field set. Further fields are added, never replaced. -/
def Player.set (p : Player) : PlayerField → Player
  | .name text => { p with name := text }
  | .score value => { p with score := some value }
  | .frags value => { p with frags := some value }
  | .deaths value => { p with deaths := some value }
  | .ping value => { p with ping := some value }
  | .team value => { p with team := some value }
  | .teamName text => { p with teamName := some text }
  | .connectTime bits => { p with connectTime := some bits }
  | .info key value => { p with info := p.info ++ [(key, value)] }

/-- The player with several fields set, in order. -/
def Player.setAll (p : Player) (fields : List PlayerField) : Player :=
  fields.foldl Player.set p

/-- The players with the first one of a number changed. -/
def changeFirst (number : Int32) (change : Player → Player) : List Player → List Player
  | [] => []
  | p :: rest => if p.number = number then change p :: rest else p :: changeFirst number change rest

/-! ## Servers -/

/-- Everything learned about one server. -/
structure Server where
  name : Option String := none
  map : Option String := none
  game : Option String := none
  numPlayers : UInt32 := 0
  maxPlayers : UInt32 := 0
  /-- The status was never told. -/
  missingStatus : Bool := false
  /-- The rules were asked for and never told. -/
  missingRules : Bool := false
  /-- The players were asked for and never told. -/
  missingPlayers : Bool := false
  rules : List Rule := []
  players : List Player := []
  deriving Repr, DecidableEq

namespace Server

/-- The value of the first rule called `name`. -/
def rule? (s : Server) (name : String) : Option String :=
  (s.rules.find? fun rule => rule.name == name).map Rule.value

/-- Adds a rule as `policy` says. A known name is looked for before the limit, so
a full list still takes what does not lengthen it. -/
def addRule (s : Server) (policy : DuplicatePolicy) (name value : String) :
    Except Fault (Server × RuleChange) :=
  if policy ≠ .append ∧ s.rules.any (fun rule => rule.name == name) = true then
    match policy with
    | .overwrite => .ok ({ s with rules := overwriteFirst name value s.rules }, .overwritten)
    | .reject => .ok (s, .rejected)
    | _ => .ok (s, .kept)
  else if ruleLimit ≤ s.rules.length then
    .error (.overLimit ("more than " ++ Text.decimalText ruleLimit ++ " rules"))
  else .ok ({ s with rules := s.rules ++ [⟨name, value⟩] }, .appended)

/-- The first player with a number. -/
def player? (s : Server) (number : Int32) : Option Player :=
  s.players.find? fun p => p.number == number

/-- Adds a player, whatever its number. -/
def addPlayer (s : Server) (p : Player) : Except Fault Server :=
  if playerLimit ≤ s.players.length then
    .error (.overLimit ("more than " ++ Text.decimalText playerLimit ++ " players"))
  else .ok { s with players := s.players ++ [p] }

/-- Makes sure that a player with the number is known. -/
def ensurePlayer (s : Server) (number : Int32) : Except Fault Server :=
  if s.players.any (fun p => p.number == number) then .ok s else s.addPlayer { number }

/-- Changes the first player with the number. -/
def changePlayer (s : Server) (number : Int32) (change : Player → Player) : Server :=
  { s with players := changeFirst number change s.players }

/-- Whether nothing has been told that names the server, its map, a rule or a
player. -/
def isEmpty (s : Server) : Bool :=
  s.name.isNone && s.map.isNone && s.rules.isEmpty && s.players.isEmpty

end Server

end ServerProbe
