/-
The query of Source and GoldSrc servers.

Every datagram starts with a signed word: -1 before a reply that stands alone,
-2 before one piece of a split reply. A reply that stands alone goes on with a
type octet: `A` a token, `I` the status in its newer layouts, `m` in the GoldSrc
one, `E` the rules, `D` the players.

A piece names its series and its place. GoldSrc packs place and count into one
octet, Source sends a count, a place and the size of the pieces; which of the two
is meant follows from the status reply that the server gave, and Source is
assumed before there was one.

Rules and players are told only to those who echo a token. A client gets one by
asking for players with token -1. A server may ask for a fresh token at any time,
by answering any request with `A`; the request is then sent again. The same token
once more answers nothing, so it is refused: a repeated datagram must not cause
another send.
-/
import ServerProbe.Parse

set_option autoImplicit false

namespace ServerProbe.Protocol.A2s

open Reply

/-! ## Requests -/

/-- What every datagram that stands alone starts with. -/
def header : List UInt8 := [0xFF, 0xFF, 0xFF, 0xFF]

/-- The text that a status request carries. -/
def statusText : List UInt8 := Text.Utf8.encode "Source Engine Query\x00".toList

/-- A token as it stands in requests. -/
def tokenOctets (token : Int32) : List UInt8 := Octets.littleEndian 4 token.toUInt32.toNat

/-- The request for a phase. A token that is not known yet is -1. -/
def request (phase : Phase) (_params : RequestParams) (s : Session) : List UInt8 :=
  let token := tokenOctets (s.challenge.getD (-1))
  match phase with
  | .challenge => header ++ 0x55 :: tokenOctets (-1)
  | .status => header ++ 0x54 :: statusText ++ (if s.challenge.isSome then token else [])
  | .rules => header ++ 0x56 :: token
  | .players => header ++ 0x55 :: token

/-! ## The status -/

/-- The revision of servers that pack place and count of a piece into one octet. -/
def goldSrcRevision : UInt8 := 1

/-- The revision of servers that send them apart, with the size of the pieces. -/
def sourceRevision : UInt8 := 2

/-- Whether a server of this type runs without a player of its own: dedicated
servers (`d`) and relays (`p`) do. -/
def dedicatedFlag (serverType : UInt8) : String :=
  if serverType = 0x64 ∨ serverType = 0x44 ∨ serverType = 0x70 ∨ serverType = 0x50 then "1" else "0"

/-- The system a server runs on: `l`, `w`, and `m` or `o` in either case. -/
def osName? (environment : UInt8) : Option String :=
  if environment = 0x6C ∨ environment = 0x4C then some "linux"
  else if environment = 0x77 ∨ environment = 0x57 then some "windows"
  else if environment = 0x6D ∨ environment = 0x4D ∨ environment = 0x6F ∨ environment = 0x4F then
    some "mac"
  else none

/-- Notes a rule. -/
def noteRule (name value : String) : Reply Unit := note (.rule name value)

/-- Notes a rule whose value is a number. -/
def noteNumber (name : String) (value : Nat) : Reply Unit :=
  note (.rule name (Text.decimalText value))

/-- Notes the system, if it is a known one. -/
def noteOs (environment : UInt8) : Reply Unit :=
  match osName? environment with
  | some os => noteRule "sv_os" os
  | none => pure ()

/-- The compact layout, after name and map: counts, version and kind of server. -/
def compactStatus (name map : String) : Reply Unit := do
  let numPlayers ← read Reader.uint8
  let maxPlayers ← read Reader.uint8
  let version ← read Reader.uint8
  let serverType ← read Reader.uint8
  let environment ← read Reader.uint8
  note (.name name)
  note (.map map)
  note (.numPlayers numPlayers.toUInt32)
  note (.maxPlayers maxPlayers.toUInt32)
  noteNumber "version" version.toNat
  noteRule "dedicated" (dedicatedFlag serverType)
  noteOs environment

/-- The fields at the end of the Source layout that a flag octet announces. -/
def extraFields : Reply Unit := do
  match ← peek? with
  | none => pure ()
  | some flags => do
    read (Reader.skip 1)
    if flags &&& 0x80 != 0 then
      let port ← read Reader.uint16LE
      noteNumber "game_port" port.toNat
    if flags &&& 0x10 != 0 then
      let id ← read Reader.uint64LE
      noteNumber "steamid" id.toNat
    if flags &&& 0x40 != 0 then
      let port ← read Reader.uint16LE
      noteNumber "sourcetv_port" port.toNat
      let name ← read Reader.cstring
      noteRule "sourcetv_name" name
    if flags &&& 0x20 != 0 then
      let keywords ← read Reader.cstring
      noteRule "keywords" keywords
    if flags &&& 0x01 != 0 then
      let id ← read Reader.uint64LE
      noteNumber "gameid" id.toNat

/-- The Source layout, after name and map. One game (application 2400) sends three
more octets before the version. -/
def sourceStatus (protocol : UInt8) (name map : String) : Reply Unit := do
  let folder ← read Reader.cstring
  let game ← read Reader.cstring
  let appId ← read Reader.uint16LE
  let numPlayers ← read Reader.uint8
  let maxPlayers ← read Reader.uint8
  let bots ← read Reader.uint8
  let serverType ← read Reader.uint8
  let environment ← read Reader.uint8
  let visibility ← read Reader.uint8
  let secure ← read Reader.uint8
  if appId = 2400 then
    read (Reader.skip 3)
  let version ← read Reader.cstring
  note (.name name)
  note (.map map)
  note (.game game)
  note (.numPlayers numPlayers.toUInt32)
  note (.maxPlayers maxPlayers.toUInt32)
  noteNumber "protocol" protocol.toNat
  noteRule "gamedir" folder
  noteRule "gamename" game
  noteNumber "appid" appId.toNat
  noteNumber "bots" bots.toNat
  noteRule "dedicated" (dedicatedFlag serverType)
  noteOs environment
  noteNumber "password" visibility.toNat
  noteNumber "secure" secure.toNat
  noteRule "version" version
  extraFields

/-- The status in one of the newer layouts. Protocol 0 means the compact one. -/
def status : Reply Unit := do
  let protocol ← read Reader.uint8
  let name ← read Reader.cstring
  let map ← read Reader.cstring
  if protocol = 0 then compactStatus name map else sourceStatus protocol name map

/-- What a GoldSrc server tells about the modification it runs. -/
def modification : Reply Unit := do
  let link ← read Reader.cstring
  noteRule "mod_link" link
  let download ← read Reader.cstring
  noteRule "mod_download" download
  read (Reader.skip 1)
  let version ← read Reader.uint32LE
  noteNumber "mod_version" version.toNat
  let size ← read Reader.uint32LE
  noteNumber "mod_size" size.toNat
  let serverOnly ← read Reader.uint8
  noteNumber "mod_server_only" serverOnly.toNat
  let customDll ← read Reader.uint8
  noteNumber "mod_custom_dll" customDll.toNat

/-- The status in the GoldSrc layout. -/
def goldSrcStatus : Reply Unit := do
  let _address ← read Reader.cstring
  let name ← read Reader.cstring
  let map ← read Reader.cstring
  let folder ← read Reader.cstring
  let game ← read Reader.cstring
  let numPlayers ← read Reader.uint8
  let maxPlayers ← read Reader.uint8
  let protocol ← read Reader.uint8
  let serverType ← read Reader.uint8
  let environment ← read Reader.uint8
  let visibility ← read Reader.uint8
  let isMod ← read Reader.uint8
  note (.name name)
  note (.map map)
  note (.game game)
  note (.numPlayers numPlayers.toUInt32)
  note (.maxPlayers maxPlayers.toUInt32)
  noteNumber "protocol" protocol.toNat
  noteRule "gamedir" folder
  noteRule "gamename" game
  noteRule "dedicated" (dedicatedFlag serverType)
  noteOs environment
  noteNumber "password" visibility.toNat
  if isMod = 1 then
    modification
  let secure ← read Reader.uint8
  noteNumber "secure" secure.toNat
  let bots ← read Reader.uint8
  noteNumber "bots" bots.toNat

/-! ## Rules and players -/

/-- `count` pairs of name and value. -/
def rules : Nat → Reply Unit
  | 0 => pure ()
  | count + 1 => do
    let name ← read Reader.cstring
    let value ← read Reader.cstring
    note (.rule name value)
    rules count

/-- `count` players. The octet before each is meant to be its number, but servers
send 0 for all of them, so players are numbered as they come. -/
def players : Nat → Reply Unit
  | 0 => pure ()
  | count + 1 => do
    let _number ← read Reader.uint8
    let name ← read Reader.cstring
    let score ← read Reader.int32LE
    let duration ← read Reader.uint32LE
    note (.newcomer [.name name, .score score, .connectTime duration])
    players count

/-! ## Replies -/

/-- Place and count of a piece. -/
def place (revision : Option UInt8) : Reply (Nat × Nat) := do
  if revision = some goldSrcRevision then
    let packed ← read Reader.uint8
    pure (packed.toNat / 0x10, packed.toNat % 0x10)
  else
    let count ← read Reader.uint8
    let index ← read Reader.uint8
    let _size ← read Reader.uint16LE
    pure (index.toNat, count.toNat)

/-- Parses a token. -/
def parseChallenge : Parse Outcome := do
  let token ← Parse.read Reader.int32LE
  Parse.takeToken token

/-- Parses one piece of a split reply. The highest bit of the series would mean that the
whole is compressed. -/
def parseSplit : Parse Outcome := do
  let series ← Parse.read Reader.uint32LE
  if series &&& 0x80000000 != 0 then
    Parse.fail (.unsupported "compressed split replies are not supported")
  else
    let (index, count) ← Parse.learn (place (← Parse.context).exchange.session.revision)
    if count ≤ index then
      Parse.fail (.malformed ("split fragment " ++ Text.decimalText index ++ " of "
        ++ Text.decimalText count ++ " is out of range"))
    else
      let payload ← Parse.learn takeRest
      Parse.ingest series index count payload

/-- Parses a reply to one phase, read by `body`. -/
def parseAnswer (phase : Phase) (body : Reply Unit) : Parse Outcome := do
  Parse.accept phase
  Parse.learn body
  Parse.answer phase
  pure (.done true)

/-- The body of a status reply, and the revision that it shows. -/
def statusBody : Reply Unit := do
  status
  note (.revision sourceRevision)

/-- The body of a status reply in the GoldSrc layout, and the revision that it shows. -/
def goldSrcBody : Reply Unit := do
  goldSrcStatus
  note (.revision goldSrcRevision)

/-- The body of a reply with the rules. -/
def rulesBody : Reply Unit := do
  let count ← read Reader.uint16LE
  rules count.toNat

/-- The body of a reply with the players. -/
def playersBody : Reply Unit := do
  let count ← read Reader.uint8
  players count.toNat

/-- Parses a reply that stands alone. -/
def parseSingle : Parse Outcome := do
  let kind ← Parse.read Reader.uint8
  if kind = 0x41 then parseChallenge
  else if kind = 0x49 then parseAnswer .status statusBody
  else if kind = 0x6D then parseAnswer .status goldSrcBody
  else if kind = 0x45 then parseAnswer .rules rulesBody
  else if kind = 0x44 then parseAnswer .players playersBody
  else Parse.fail (.unknownType kind)

/-- Parses any datagram. -/
def parse : Parse Outcome := do
  let marker ← Parse.read Reader.int32LE
  if marker = -1 then parseSingle
  else if marker = -2 then parseSplit
  else Parse.fail (.unsupported ("unknown packet marker " ++ Text.wordHex marker.toUInt32))

end ServerProbe.Protocol.A2s
