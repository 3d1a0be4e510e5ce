/-
The fourth GameSpy query, as Minecraft servers speak it. Every request carries an
id that the client chose, and every reply repeats it. A server answers a request
for the status only if it echoes the token that the server handed out before, so
the status is asked after a challenge.

The full status is a fixed padding, then keys and values that end with a zero
octet each, up to an empty key; then a marker, and the names of the players in
the same way, up to an empty name.
-/
import ServerProbe.Parse
import ServerProbe.Text.Blank
import ServerProbe.Text.Quoted

set_option autoImplicit false

namespace ServerProbe.Protocol.GameSpy4

open Reply

/-! ## Requests -/

/-- The bits of an id that survive a server which keeps the low half of each octet. -/
def sessionMask : UInt32 := 0x0F0F0F0F

/-- What every request starts with. -/
def magic : List UInt8 := [0xFE, 0xFD]

/-- The type octet of requests for a token and of replies with one. -/
def handshakeType : UInt8 := 0x09

/-- The type octet of requests for the status and of replies with it. -/
def statusType : UInt8 := 0x00

/-- The request for a phase. There is none for the status before a token is known. -/
def request (phase : Phase) (_params : RequestParams) (s : Session) : Except Fault (List UInt8) :=
  let id := Octets.bigEndian 4 s.sessionId.toNat
  match phase with
  | .challenge => .ok (magic ++ handshakeType :: id)
  | .status =>
    match s.challenge with
    | none => .error (.unsupported "full stat needs a challenge token")
    | some token =>
      .ok (magic ++ statusType :: id ++ Octets.bigEndian 4 token.toUInt32.toNat ++ [0, 0, 0, 0])
  | phase => .error (.unsupported ("gs4 has no separate " ++ phase.name ++ " request"))

/-! ## The full status -/

/-- The padding before the keys. -/
def padding : List UInt8 := Text.Utf8.encode "splitnum".toList ++ [0x00, 0x80, 0x00]

/-- The marker before the names. -/
def playerMarker : List UInt8 := 0x01 :: Text.Utf8.encode "player_".toList ++ [0x00, 0x00]

/-- The number under a key. -/
def number (key value : String) : Reply UInt32 :=
  require (Text.uint32? (Text.trim value.toList))
    (.malformed (key ++ " is not a number: " ++ Text.quoted value))

/-- Notes what one key tells. -/
def notePair (key value : String) : Reply Unit := do
  match key with
  | "hostname" => note (.name value)
  | "map" => note (.map value)
  | "game_id" => note (.game value)
  | "numplayers" => note (.numPlayers (← number key value))
  | "maxplayers" => note (.maxPlayers (← number key value))
  | _ => note (.rule key value)

/-- Notes the pairs up to the empty key. Each round passes at least one octet, so
as many rounds as there are octets, and one for finding none, are enough. -/
def notePairs : Nat → Reply Unit
  | 0 => pure ()
  | rounds + 1 => do
    let key ← read Reader.cstring
    if key = "" then pure ()
    else
      let value ← read Reader.cstring
      notePair key value
      notePairs rounds

/-- Notes the players up to the empty name, in as many rounds. -/
def noteNames : Nat → Reply Unit
  | 0 => pure ()
  | rounds + 1 => do
    let name ← read Reader.cstring
    if name = "" then pure ()
    else
      note (.newcomer [.name name])
      noteNames rounds

/-- Repeats a reading often enough for all octets that are left. -/
def forAll (rounds : Nat → Reply Unit) : Reply Unit := fun r noted =>
  rounds (r.remaining + 1) r noted

/-- The full status, after type and id. -/
def fullStatus : Reply Unit := do
  read (Reader.expect padding)
  forAll notePairs
  read (Reader.expect playerMarker)
  forAll noteNames

/-! ## Replies -/

/-- The token that a text says, in decimal. -/
def tokenOf (text : String) : Reply Int32 :=
  require (Text.int32? (Text.trim text.toList))
    (.malformed ("challenge token " ++ Text.quoted text ++ " is not a number"))

/-- Parses a token. -/
def parseHandshake : Parse Outcome := do
  let text ← Parse.read Reader.cstring
  let token ← Parse.learn (tokenOf text)
  Parse.takeToken token

/-- Parses any datagram. -/
def parse : Parse Outcome := do
  let kind ← Parse.read Reader.uint8
  let id ← Parse.read Reader.int32BE
  let c ← Parse.context
  if id.toUInt32 ≠ c.exchange.session.sessionId then
    Parse.fail (.unsupported ("session id " ++ Text.wordHex id.toUInt32 ++ " does not match "
      ++ Text.wordHex c.exchange.session.sessionId))
  else if kind = handshakeType then parseHandshake
  else if kind = statusType then
    Parse.accept .status
    Parse.learn fullStatus
    Parse.answer .status
    Parse.answer .rules
    Parse.answer .players
    pure (.done true)
  else Parse.fail (.unknownType kind)

end ServerProbe.Protocol.GameSpy4
