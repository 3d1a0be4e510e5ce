/-
The first GameSpy query. A reply is one text of the form `\key\value\key\value`,
usually spread over several datagrams. Each datagram ends with its number under
`queryid`, and the last one also with `final`; they may arrive in any order, so
the reply is whole when every number up to the final one has been seen.

Player names may hold backslashes. Between backslashes the text is a list of
pieces, and the list is read from left to right: a key, the piece after it as the
value, and after a player's name every further piece that does not look like
another key. So the decision needs one piece at a time and never looks back.
-/
import ServerProbe.Parse
import ServerProbe.Text.Blank
import ServerProbe.Text.Cut
import ServerProbe.Text.Quoted

set_option autoImplicit false

namespace ServerProbe.Protocol.GameSpy

open Reply

/-! ## Requests -/

/-- The request for the status, the only one there is. -/
def request (phase : Phase) (_params : RequestParams) (_s : Session) : Except Fault (List UInt8) :=
  match phase with
  | .status => .ok (Text.Utf8.encode "\\status\\".toList)
  | phase => .error (.unsupported ("gamespy has no separate " ++ phase.name ++ " request"))

/-! ## Keys and values -/

/-- Whether a piece after a player's name is a key rather than more of the name:
the two keys that end a datagram, and words of ASCII letters, digits and
underscores that end in an underscore and a number. -/
def isKeyToken (token : List Char) : Bool :=
  token == "final".toList || token == "queryid".toList ||
    match Text.cutLast? '_' token with
    | none => false
    | some (word, digits) =>
      !word.isEmpty && !digits.isEmpty && word.all (fun c => c.isAlphanum || c == '_')
        && digits.all Char.isDigit

/-- Whether the value of a key is a player's name. -/
def isNameKey (key : List Char) : Bool := "player_".toList.isPrefixOf key

/-- What the next piece of a text is. -/
inductive Place where
  /-- A key. -/
  | key
  /-- The value of `key`. -/
  | value (key : List Char)
  /-- More of the name under `key`, or the key after it; `pieces` is the name so
  far, last piece first. -/
  | name (key : List Char) (pieces : List (List Char))
  deriving Repr, DecidableEq

/-- A key and its value. -/
abbrev Pair := List Char × List Char

/-- The name whose pieces are given last first. Its backslashes stood between them. -/
def joinName (pieces : List (List Char)) : List Char := ['\\'].intercalate pieces.reverse

/-- The pairs in a list of pieces, `found` being those before it, last first. An
empty piece at the very end is what a closing backslash leaves. -/
def pairsOf (found : List Pair) : Place → List (List Char) → Except Fault (List Pair)
  | .key, [] => .ok found.reverse
  | .key, [[]] => .ok found.reverse
  | .key, piece :: rest =>
    if piece.isEmpty then .error (.malformed "empty key")
    else if piece == "final".toList then .ok ((piece, []) :: found).reverse
    else pairsOf found (.value piece) rest
  | .value key, [] => .ok ((key, []) :: found).reverse
  | .value key, piece :: rest =>
    if isNameKey key then pairsOf found (.name key [piece]) rest
    else pairsOf ((key, piece) :: found) .key rest
  | .name key pieces, [] => .ok ((key, joinName pieces) :: found).reverse
  | .name key pieces, piece :: rest =>
    if !isKeyToken piece then pairsOf found (.name key (piece :: pieces)) rest
    else if piece == "final".toList then
      .ok ((piece, []) :: (key, joinName pieces) :: found).reverse
    else pairsOf ((key, joinName pieces) :: found) (.value piece) rest

/-- The pairs of a text. Nothing after `final` is read. -/
def splitPairs (text : List Char) : Except Fault (List Pair) :=
  match Text.stripHead? '\\' text with
  | none => .error (.malformed "reply does not start with a backslash")
  | some rest => pairsOf [] .key (rest.splitOn '\\')

/-! ## The number of a datagram -/

/-- The number of a datagram, from what stands under `queryid`: what follows the
first point, from 1 to 63; without a point it is 1. -/
def packetNumber (value : List Char) : Except Fault UInt8 :=
  match Text.cutFirst? '.' value with
  | none => .ok 1
  | some (_, number) =>
    match (Text.uint8? number).filter fun n => 1 ≤ n && n < 64 with
    | some n => .ok n
    | none => .error (.malformed ("bad queryid " ++ String.ofList value))

/-- Where in its reply a datagram says that it belongs. -/
structure Numbering where
  number : UInt8 := 1
  final : Bool := false
  deriving Repr, DecidableEq

/-- The numbering after one more pair. -/
def Numbering.step (n : Numbering) (pair : Pair) : Except Fault Numbering :=
  if pair.1 == "queryid".toList then
    (packetNumber pair.2).map fun number => { n with number }
  else if pair.1 == "final".toList then .ok { n with final := true }
  else .ok n

/-- The numbering that the pairs give. -/
def numbering (pairs : List Pair) : Except Fault Numbering :=
  pairs.foldlM Numbering.step {}

/-! ## Facts -/

/-- The fault of a value that should be a number. -/
def notANumber (key : String) (value : List Char) : Fault :=
  .malformed (key ++ " is not a number: " ++ Text.quoted (String.ofList value))

/-- The fields that are sent once per player, under the field's name, an underscore
and the number of the player. -/
def playerFields : List String :=
  ["player", "frags", "deaths", "score", "ping", "team", "skin", "mesh", "face"]

/-- Notes one field of a player. The player is known from here on, even if the
field turns out to be no number. A team that is no number is a name. -/
def notePlayerField (field : String) (number : Int32) (value : List Char) : Reply Unit := do
  note (.seen number)
  let text := String.ofList value
  let trimmed := Text.trim value
  let put (f : PlayerField) : Reply Unit := note (.field number f)
  match field with
  | "player" => put (.name text)
  | "frags" => put (.frags (← require (Text.int32? trimmed) (notANumber field value)))
  | "deaths" => put (.deaths (← require (Text.int32? trimmed) (notANumber field value)))
  | "score" => put (.score (← require (Text.int32? trimmed) (notANumber field value)))
  | "ping" => put (.ping (← require (Text.uint32? trimmed) (notANumber field value)))
  | "team" =>
    match Text.int32? trimmed with
    | some team => put (.team team)
    | none => put (.teamName text)
  | _ => put (.info field text)

/-- The field and the number of the player that a key names. -/
def playerKey? (key : List Char) : Option (String × Int32) :=
  match Text.cutLast? '_' key with
  | none => none
  | some (field, number) =>
    let field := String.ofList field
    if playerFields.contains field then (Text.int32? number).map fun n => (field, n) else none

/-- Notes what one pair tells. What is neither a known key nor a player's field is
a rule. -/
def notePair (pair : Pair) : Reply Unit := do
  let (key, value) := pair
  let text := String.ofList value
  match String.ofList key with
  | "queryid" => pure ()
  | "final" => pure ()
  | "hostname" => note (.name text)
  | "mapname" => note (.map text)
  | "gamename" => note (.game text)
  | "numplayers" =>
    note (.numPlayers (← require (Text.uint32? (Text.trim value)) (notANumber "numplayers" value)))
  | "maxplayers" =>
    note (.maxPlayers (← require (Text.uint32? (Text.trim value)) (notANumber "maxplayers" value)))
  | name =>
    match playerKey? key with
    | some (field, number) => notePlayerField field number value
    | none => note (.rule name text)

/-- Notes what the pairs tell. -/
def notePairs : List Pair → Reply Unit
  | [] => pure ()
  | pair :: rest => do
    notePair pair
    notePairs rest

/-! ## Replies -/

/-- The text of a datagram, without the zeros and line ends that some servers put
after it. -/
def textOf (payload : List UInt8) : List Char :=
  Text.dropEndWhile (fun c => c == '\x00' || c == '\n') (Text.Utf8.decode payload)

/-- Yields a result or ends with its fault. -/
def ofExcept {α : Type} : Except Fault α → Reply α
  | .ok value => pure value
  | .error fault => fail fault

/-- The body of a datagram: its place in the reply, and what the pairs tell. -/
def body (n : Numbering) (pairs : List Pair) : Reply Unit := do
  note (.datagram n.number n.final)
  notePairs pairs

/-- Parses any datagram. A number that has been seen is not read again. -/
def parse : Parse Outcome := do
  Parse.accept .status
  let payload ← Parse.learn takeRest
  let pairs ← Parse.learn (ofExcept (splitPairs (textOf payload)))
  let n ← Parse.learn (ofExcept (numbering pairs))
  if Session.maskHas (← Parse.context).exchange.session.received n.number then pure .inProgress
  else
    Parse.learn (body n pairs)
    if (← Parse.context).exchange.session.isWhole then
      Parse.answer .status
      Parse.answer .rules
      Parse.answer .players
      pure (.done true)
    else pure .inProgress

end ServerProbe.Protocol.GameSpy
