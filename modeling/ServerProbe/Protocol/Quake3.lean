/-
The status query of Quake 3. One request, one reply: after a header and the word
`statusResponse`, the second line holds the variables of the server as
`\key\value\key\value` and every further line that is not blank a player, as
`score ping "name"`. A name may hold quotes, so it reaches from the first quote
to the last.
-/
import ServerProbe.Parse
import ServerProbe.Text.Blank
import ServerProbe.Text.Cut
import ServerProbe.Text.Quoted

set_option autoImplicit false

namespace ServerProbe.Protocol.Quake3

open Reply

/-! ## Requests -/

/-- What every datagram starts with. -/
def header : List UInt8 := [0xFF, 0xFF, 0xFF, 0xFF]

/-- The request for the status, the only one there is. -/
def request (phase : Phase) (_params : RequestParams) (_s : Session) : Except Fault (List UInt8) :=
  match phase with
  | .status => .ok (header ++ Text.Utf8.encode "getstatus".toList)
  | phase => .error (.unsupported ("q3 has no separate " ++ phase.name ++ " request"))

/-! ## Variables -/

/-- Notes a well-known variable in its place. -/
def noteKnown (key value : List Char) : Reply Unit := do
  let text := String.ofList value
  match String.ofList key with
  | "sv_hostname" => note (.name text)
  | "mapname" => note (.map text)
  | "gamename" => note (.game text)
  | "sv_maxclients" =>
    note (.maxPlayers (← require (Text.uint32? (Text.trim value))
      (.malformed ("sv_maxclients is not a number: " ++ Text.quoted text))))
  | _ => pure ()

/-- Notes the variables in a list of keys and values. Every variable is a rule, the
well-known ones too. An empty key has no value. -/
def noteVariables : List (List Char) → Reply Unit
  | [] => pure ()
  | [key] =>
    if key.isEmpty then pure ()
    else fail (.malformed ("info key " ++ String.ofList key ++ " has no value"))
  | key :: value :: rest =>
    if key.isEmpty then noteVariables (value :: rest)
    else do
      noteKnown key value
      note (.rule (String.ofList key) (String.ofList value))
      noteVariables rest

/-- The keys and values on the line of variables; a leading backslash is optional. -/
def variablesOf (line : List Char) : List (List Char) :=
  ((Text.stripHead? '\\' line).getD line).splitOn '\\'

/-! ## Players -/

/-- A player's score, ping and name. -/
def player? (line : List Char) : Option (Int32 × UInt32 × List Char) := do
  let (numbers, quoted) ← Text.cutFirst? '"' line
  let (name, _) ← Text.cutLast? '"' quoted
  match Text.words numbers with
  | score :: ping :: _ => some (← Text.int32? score, ← Text.uint32? ping, name)
  | _ => none

/-- Notes the player on a line. -/
def notePlayer (line : List Char) : Reply Unit := do
  let (score, ping, name) ← require (player? line)
    (.malformed ("bad player line " ++ Text.quoted (String.ofList line)))
  note (.newcomer [.name (String.ofList name), .score score, .ping ping])

/-- Notes the players on several lines. -/
def notePlayers : List (List Char) → Reply Unit
  | [] => pure ()
  | line :: rest => do
    notePlayer line
    notePlayers rest

/-! ## Replies -/

/-- The word that a status reply starts with. -/
def responseWord : List UInt8 := Text.Utf8.encode "statusResponse".toList

/-- Passes over the word of a status reply. -/
def expectResponse : Reply Unit := fun r noted =>
  match r.expect responseWord with
  | .ok (_, r') => .next () r' noted
  | .error _ => .stop (.unsupported "not a statusResponse") noted

/-- Notes what the lines after the first tell. -/
def noteLines : List (List Char) → Reply Unit
  | [] => fail (.malformed "missing info string")
  | info :: lines => do
    noteVariables (variablesOf info)
    let playerLines := lines.filter fun line => !(Text.trim line).isEmpty
    notePlayers playerLines
    note (.numPlayers (UInt32.ofNat playerLines.length))

/-- Parses any datagram. -/
def parse : Parse Outcome := do
  Parse.read (Reader.expect header)
  Parse.learn expectResponse
  Parse.accept .status
  let body ← Parse.learn takeRest
  Parse.learn (noteLines (((Text.Utf8.decode body).splitOn '\n').drop 1))
  Parse.answer .status
  Parse.answer .rules
  Parse.answer .players
  pure (.done true)

end ServerProbe.Protocol.Quake3
