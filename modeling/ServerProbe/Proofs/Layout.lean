/-
The replies of Source and GoldSrc servers as they are written.

For each layout there is a structure with the fields that a server fills in, the octets in
which it is sent, and the rules that it tells. The readers need exactly these octets
(`needs_compactStatus` and so on). The Source status is the exception, since nothing says how
many fields end it: the octet that announces further fields may be left out, and then the
status ends where the payload does. So its head is read apart from them (`sourceStatus_eq`),
and the reader of the further fields looks whether there is anything left (`reads_noFields`).

In the GoldSrc layout the number of the protocol stands behind the texts, and yet it is the
first rule that is told, as in the Source layout; all other rules are told in the order in
which they stand.
-/
import ServerProbe.Proofs.Extent
import ServerProbe.Protocol.A2s

set_option autoImplicit false

namespace ServerProbe.Protocol.A2s

open Reply

theorem needs_header : Needs (read Reader.int32LE) header (-1) [] := by
  have hheader : header = Octets.littleEndian 4 (-1 : Int32).toUInt32.toNat := by decide
  rw [hheader]
  exact needs_int32LE (-1)

/-! ## Rules -/

/-- The facts that rules are. -/
def ruleFacts (rules : List Rule) : List Fact := rules.map fun rule => .rule rule.name rule.value

@[simp] theorem ruleFacts_nil : ruleFacts [] = [] := rfl

@[simp] theorem ruleFacts_cons (rule : Rule) (rules : List Rule) :
    ruleFacts (rule :: rules) = .rule rule.name rule.value :: ruleFacts rules := rfl

@[simp] theorem ruleFacts_append (rules more : List Rule) :
    ruleFacts (rules ++ more) = ruleFacts rules ++ ruleFacts more :=
  List.map_append

/-- A rule whose value is a number. -/
def numberRule (name : String) (value : Nat) : Rule := ⟨name, Text.decimalText value⟩

/-- The rule about the system of a server, if it is a known one. -/
def osRules (environment : UInt8) : List Rule :=
  (osName? environment).toList.map fun os => ⟨"sv_os", os⟩

theorem needs_noteOs (environment : UInt8) :
    Needs (noteOs environment) [] () (ruleFacts (osRules environment)) := by
  unfold noteOs osRules
  rcases osName? environment with _ | os
  · exact needs_pure ()
  · exact needs_note _

/-! ## The compact layout -/

/-- A status in the compact layout. -/
structure CompactStatus where
  name : Piece
  map : Piece
  numPlayers : UInt8
  maxPlayers : UInt8
  version : UInt8
  serverType : UInt8
  environment : UInt8

namespace CompactStatus

/-- The octets after the type. The protocol number is 0. -/
def octets (s : CompactStatus) : List UInt8 :=
  0 :: (s.name.ended ++ (s.map.ended
    ++ [s.numPlayers, s.maxPlayers, s.version, s.serverType, s.environment]))

/-- The rules that it tells. -/
def rules (s : CompactStatus) : List Rule :=
  [numberRule "version" s.version.toNat, ⟨"dedicated", dedicatedFlag s.serverType⟩]
    ++ osRules s.environment

/-- The facts that it tells. -/
def facts (s : CompactStatus) : List Fact :=
  [.name s.name.text, .map s.map.text, .numPlayers s.numPlayers.toUInt32,
    .maxPlayers s.maxPlayers.toUInt32] ++ ruleFacts s.rules

end CompactStatus

theorem needs_compactStatus (s : CompactStatus) : Needs status s.octets () s.facts := by
  unfold status CompactStatus.octets CompactStatus.facts CompactStatus.rules
  refine needs_octet (needs_text (needs_text ?_))
  rw [if_pos rfl]
  unfold compactStatus
  refine needs_octet (needs_octet (needs_octet (needs_octet (needs_octet ?_))))
  refine needs_noted (needs_noted (needs_noted (needs_noted (needs_noted (needs_noted ?_)))))
  exact needs_noteOs s.environment

/-! ## The Source layout -/

/-- A status in the Source layout, without the fields that may follow it. -/
structure SourceHead where
  protocol : UInt8
  /-- Protocol 0 means the compact layout. -/
  known : protocol ≠ 0
  name : Piece
  map : Piece
  folder : Piece
  game : Piece
  appId : UInt16
  numPlayers : UInt8
  maxPlayers : UInt8
  bots : UInt8
  serverType : UInt8
  environment : UInt8
  visibility : UInt8
  secure : UInt8
  /-- Mode, witnesses and duration, which one game sends. -/
  ship : UInt8 × UInt8 × UInt8
  version : Piece

namespace SourceHead

/-- The octets that one game adds. -/
def shipOctets (h : SourceHead) : List UInt8 :=
  if h.appId = 2400 then [h.ship.1, h.ship.2.1, h.ship.2.2] else []

/-- The octets after the type. -/
def octets (h : SourceHead) : List UInt8 :=
  h.protocol :: (h.name.ended ++ (h.map.ended ++ (h.folder.ended ++ (h.game.ended
    ++ (Octets.littleEndian 2 h.appId.toNat
      ++ h.numPlayers :: h.maxPlayers :: h.bots :: h.serverType :: h.environment :: h.visibility
        :: h.secure :: (h.shipOctets ++ h.version.ended))))))

/-- The rules that it tells. -/
def rules (h : SourceHead) : List Rule :=
  [numberRule "protocol" h.protocol.toNat, ⟨"gamedir", h.folder.text⟩, ⟨"gamename", h.game.text⟩,
    numberRule "appid" h.appId.toNat, numberRule "bots" h.bots.toNat,
    ⟨"dedicated", dedicatedFlag h.serverType⟩] ++ (osRules h.environment
    ++ [numberRule "password" h.visibility.toNat, numberRule "secure" h.secure.toNat,
      ⟨"version", h.version.text⟩])

/-- The facts that it tells. -/
def facts (h : SourceHead) : List Fact :=
  [.name h.name.text, .map h.map.text, .game h.game.text, .numPlayers h.numPlayers.toUInt32,
    .maxPlayers h.maxPlayers.toUInt32] ++ ruleFacts h.rules

end SourceHead

/-- The Source layout, after name and map, up to the fields that may follow. -/
def sourceHead (protocol : UInt8) (name map : String) : Reply Unit := do
  let folder ← read Reader.cstring
  let game ← read Reader.cstring
  let appId ← read Reader.uint16LE
  let numPlayers ← read Reader.uint8
  let maxPlayers ← read Reader.uint8
  let bots ← read Reader.uint8
  let serverType ← read Reader.uint8
  let environment ← read Reader.uint8
  let visibility ← read Reader.uint8
  let secure ← read Reader.uint8
  if appId = 2400 then
    read (Reader.skip 3)
  let version ← read Reader.cstring
  note (.name name)
  note (.map map)
  note (.game game)
  note (.numPlayers numPlayers.toUInt32)
  note (.maxPlayers maxPlayers.toUInt32)
  noteNumber "protocol" protocol.toNat
  noteRule "gamedir" folder
  noteRule "gamename" game
  noteNumber "appid" appId.toNat
  noteNumber "bots" bots.toNat
  noteRule "dedicated" (dedicatedFlag serverType)
  noteOs environment
  noteNumber "password" visibility.toNat
  noteNumber "secure" secure.toNat
  noteRule "version" version

theorem sourceStatus_eq (protocol : UInt8) (name map : String) :
    sourceStatus protocol name map = sourceHead protocol name map >>= fun _ => extraFields := by
  unfold sourceStatus sourceHead
  simp only [bind_assoc]
  repeat' with_reducible refine bind_congr fun _ => ?_
  split
  · simp only [bind_assoc]
  · simp only [bind_assoc]

/-- A status in the Source layout, up to the fields that may follow. -/
def statusHead : Reply Unit := do
  let protocol ← read Reader.uint8
  let name ← read Reader.cstring
  let map ← read Reader.cstring
  sourceHead protocol name map

/-- What does not start with protocol 0 is read in the Source layout. -/
theorem status_eq {r : Reader} (h : r.peek? ≠ some 0) (noted : List Fact) :
    status r noted = (statusHead >>= fun _ => extraFields) r noted := by
  have hhead : (statusHead >>= fun _ => extraFields) = read Reader.uint8 >>= fun protocol =>
      read Reader.cstring >>= fun name => read Reader.cstring >>= fun map =>
      sourceStatus protocol name map := by
    unfold statusHead
    simp only [bind_assoc, sourceStatus_eq]
  rw [hhead]
  unfold status
  rcases hprotocol : r.uint8 with e | ⟨protocol, r'⟩
  · rw [bind_read_error hprotocol, bind_read_error hprotocol]
  · obtain ⟨rest, hrest, -⟩ := Reader.uint8_eq_ok_iff.mp hprotocol
    have hknown : protocol ≠ 0 := by
      rintro rfl
      exact h (by rw [Reader.peek?, hrest, List.head?_cons])
    rw [bind_read_ok hprotocol, bind_read_ok hprotocol]
    simp only [if_neg hknown]

theorem needs_statusHead (h : SourceHead) : Needs statusHead h.octets () h.facts := by
  have hship : ∀ {k : Unit → Reply Unit} {octets : List UInt8} {facts : List Fact},
      Needs (k ()) octets () facts →
      Needs (if h.appId = 2400 then read (Reader.skip 3) >>= k else k ()) (h.shipOctets ++ octets)
        () facts := by
    intro k octets facts hk
    unfold SourceHead.shipOctets
    split
    · exact (needs_skip [h.ship.1, h.ship.2.1, h.ship.2.2]).bind hk
    · exact hk
  unfold statusHead sourceHead SourceHead.octets SourceHead.facts SourceHead.rules
  simp only [List.cons_append, List.nil_append, ruleFacts_cons, ruleFacts_append, ruleFacts_nil]
  refine needs_octet (needs_text (needs_text (needs_text (needs_text ?_))))
  refine (needs_uint16LE h.appId).bind (needs_octet (needs_octet (needs_octet (needs_octet ?_))))
  refine needs_octet (needs_octet (needs_octet (hship (needs_lastText ?_))))
  refine needs_noted (needs_noted (needs_noted (needs_noted (needs_noted (needs_noted ?_)))))
  refine needs_noted (needs_noted (needs_noted (needs_noted (needs_noted ?_))))
  refine (needs_noteOs h.environment).bind ?_
  exact needs_noted (needs_noted (needs_note _))

/-! ### The fields that may follow -/

/-- The fields that may follow a status in the Source layout, each there or not. -/
structure Extra where
  port : Option UInt16 := none
  steamId : Option UInt64 := none
  relay : Option (UInt16 × Piece) := none
  keywords : Option Piece := none
  gameId : Option UInt64 := none

namespace Extra

/-- A bit that is set if a field is there. -/
def bit (value : UInt8) (set : Bool) : UInt8 := if set then value else 0

/-- The octet that announces the fields. -/
def flags (e : Extra) : UInt8 :=
  bit 0x80 e.port.isSome ||| bit 0x10 e.steamId.isSome ||| bit 0x40 e.relay.isSome
    ||| bit 0x20 e.keywords.isSome ||| bit 0x01 e.gameId.isSome

/-- Each bit says whether its field is there. -/
theorem flags_eq (e : Extra) :
    (e.flags &&& 0x80 != 0) = e.port.isSome ∧ (e.flags &&& 0x10 != 0) = e.steamId.isSome ∧
    (e.flags &&& 0x40 != 0) = e.relay.isSome ∧ (e.flags &&& 0x20 != 0) = e.keywords.isSome ∧
    (e.flags &&& 0x01 != 0) = e.gameId.isSome := by
  unfold flags
  generalize e.port.isSome = port
  generalize e.steamId.isSome = steamId
  generalize e.relay.isSome = relay
  generalize e.keywords.isSome = keywords
  generalize e.gameId.isSome = gameId
  revert port steamId relay keywords gameId
  decide

variable (e : Extra)

/-- The octets of the id of the game, if it is there. -/
def gameIdOctets : List UInt8 := e.gameId.elim [] fun id => Octets.littleEndian 8 id.toNat

/-- The octets from the keywords on. -/
def keywordsOctets : List UInt8 := e.keywords.elim [] Piece.ended ++ e.gameIdOctets

/-- The octets from the relay on. -/
def relayOctets : List UInt8 :=
  e.relay.elim [] (fun relay => Octets.littleEndian 2 relay.1.toNat ++ relay.2.ended)
    ++ e.keywordsOctets

/-- The octets from the id of the server on. -/
def steamIdOctets : List UInt8 :=
  e.steamId.elim [] (fun id => Octets.littleEndian 8 id.toNat) ++ e.relayOctets

/-- The octets of the fields that are there. -/
def portOctets : List UInt8 :=
  e.port.elim [] (fun port => Octets.littleEndian 2 port.toNat) ++ e.steamIdOctets

/-- The fields as they follow a status. -/
def octets : List UInt8 := e.flags :: e.portOctets

/-- The rule that the id of the game is, if it is there. -/
def gameIdRules : List Rule := e.gameId.elim [] fun id => [numberRule "gameid" id.toNat]

/-- The rules from the keywords on. -/
def keywordsRules : List Rule :=
  e.keywords.elim [] (fun keywords => [⟨"keywords", keywords.text⟩]) ++ e.gameIdRules

/-- The rules from the relay on. -/
def relayRules : List Rule :=
  e.relay.elim [] (fun relay =>
    [numberRule "sourcetv_port" relay.1.toNat, ⟨"sourcetv_name", relay.2.text⟩])
    ++ e.keywordsRules

/-- The rules from the id of the server on. -/
def steamIdRules : List Rule :=
  e.steamId.elim [] (fun id => [numberRule "steamid" id.toNat]) ++ e.relayRules

/-- The rules that the fields are. -/
def rules : List Rule :=
  e.port.elim [] (fun port => [numberRule "game_port" port.toNat]) ++ e.steamIdRules

end Extra

/-- The id of the game, if it is announced. -/
def gameIdField (flags : UInt8) : Reply Unit := do
  if flags &&& 0x01 != 0 then
    let id ← read Reader.uint64LE
    noteNumber "gameid" id.toNat

/-- The fields from the keywords on. -/
def keywordsField (flags : UInt8) : Reply Unit := do
  if flags &&& 0x20 != 0 then
    let keywords ← read Reader.cstring
    noteRule "keywords" keywords
  gameIdField flags

/-- The fields from the relay on. -/
def relayField (flags : UInt8) : Reply Unit := do
  if flags &&& 0x40 != 0 then
    let port ← read Reader.uint16LE
    noteNumber "sourcetv_port" port.toNat
    let name ← read Reader.cstring
    noteRule "sourcetv_name" name
  keywordsField flags

/-- The fields from the id of the server on. -/
def steamIdField (flags : UInt8) : Reply Unit := do
  if flags &&& 0x10 != 0 then
    let id ← read Reader.uint64LE
    noteNumber "steamid" id.toNat
  relayField flags

/-- All fields that are announced. -/
def portField (flags : UInt8) : Reply Unit := do
  if flags &&& 0x80 != 0 then
    let port ← read Reader.uint16LE
    noteNumber "game_port" port.toNat
  steamIdField flags

/-- The further fields are read one after another, if anything is left. -/
theorem extraFields_eq : extraFields = peek? >>= fun flags =>
    match flags with
    | none => pure ()
    | some flags => read (Reader.skip 1) >>= fun _ => portField flags := rfl

/-- A status may end before the octet that announces further fields. -/
theorem reads_noFields : Reads extraFields [] [] () [] :=
  fun _ _ => rfl

theorem reads_extraFields {flags : UInt8} {octets rest : List UInt8} {facts : List Fact}
    (h : Reads (portField flags) octets rest () facts) :
    Reads extraFields (flags :: octets) rest () facts := by
  intro pos noted
  rw [extraFields_eq, bind_next (m := peek?) rfl]
  exact ((needs_skip [flags]).reads (octets ++ rest)).bind h pos noted

/-- A field is read if it is announced, and what follows is read in any case. -/
theorem needs_field {α : Type} {field : Option α} {announced : Bool} {m m' : Reply Unit}
    {octets : α → List UInt8} {rules : α → List Rule} {after : List UInt8} {told : List Rule}
    (hannounced : announced = field.isSome)
    (hm : ∀ a, Needs m (octets a ++ after) () (ruleFacts (rules a ++ told)))
    (hm' : Needs m' after () (ruleFacts told)) :
    Needs (if announced = true then m else m') (field.elim [] octets ++ after) ()
      (ruleFacts (field.elim [] rules ++ told)) := by
  rw [hannounced]
  rcases field with _ | a
  · exact hm'
  · exact hm a

section Fields

variable (e : Extra)

theorem needs_gameIdField :
    Needs (gameIdField e.flags) e.gameIdOctets () (ruleFacts e.gameIdRules) := by
  have h : Needs (gameIdField e.flags) (e.gameIdOctets ++ []) ()
      (ruleFacts (e.gameIdRules ++ [])) :=
    needs_field e.flags_eq.2.2.2.2 (fun id => (needs_uint64LE id).bind (needs_note _))
      (needs_pure ())
  rwa [List.append_nil, List.append_nil] at h

theorem needs_keywordsField :
    Needs (keywordsField e.flags) e.keywordsOctets () (ruleFacts e.keywordsRules) :=
  needs_field e.flags_eq.2.2.2.1
    (fun _ => needs_text (needs_noted (needs_gameIdField e))) (needs_gameIdField e)

theorem needs_relayField :
    Needs (relayField e.flags) e.relayOctets () (ruleFacts e.relayRules) := by
  refine needs_field e.flags_eq.2.2.1 (fun relay => ?_) (needs_keywordsField e)
  rw [List.append_assoc]
  refine (needs_uint16LE relay.1).bind (needs_noted (needs_text (needs_noted ?_)))
  exact needs_keywordsField e

theorem needs_steamIdField :
    Needs (steamIdField e.flags) e.steamIdOctets () (ruleFacts e.steamIdRules) :=
  needs_field e.flags_eq.2.1
    (fun id => (needs_uint64LE id).bind (needs_noted (needs_relayField e))) (needs_relayField e)

theorem needs_portField : Needs (portField e.flags) e.portOctets () (ruleFacts e.rules) :=
  needs_field e.flags_eq.1
    (fun port => (needs_uint16LE port).bind (needs_noted (needs_steamIdField e)))
    (needs_steamIdField e)

end Fields

/-! ## The GoldSrc layout -/

/-- What a GoldSrc server tells about the modification that it runs. -/
structure Modification where
  link : Piece
  download : Piece
  /-- An octet that stands for nothing. -/
  filler : UInt8
  version : UInt32
  size : UInt32
  serverOnly : UInt8
  customDll : UInt8

namespace Modification

/-- The octets in which it is sent. -/
def octets (m : Modification) : List UInt8 :=
  m.link.ended ++ (m.download.ended ++ m.filler :: (Octets.littleEndian 4 m.version.toNat
    ++ (Octets.littleEndian 4 m.size.toNat ++ [m.serverOnly, m.customDll])))

/-- The rules that it tells. -/
def rules (m : Modification) : List Rule :=
  [⟨"mod_link", m.link.text⟩, ⟨"mod_download", m.download.text⟩,
    numberRule "mod_version" m.version.toNat, numberRule "mod_size" m.size.toNat,
    numberRule "mod_server_only" m.serverOnly.toNat, numberRule "mod_custom_dll" m.customDll.toNat]

end Modification

theorem needs_modification (m : Modification) :
    Needs modification m.octets () (ruleFacts m.rules) := by
  unfold modification Modification.octets Modification.rules
  refine needs_text (needs_noted (needs_text (needs_noted ?_)))
  refine (needs_skip [m.filler]).bind ?_
  refine (needs_uint32LE m.version).bind (needs_noted ?_)
  refine (needs_uint32LE m.size).bind (needs_noted ?_)
  exact needs_octet (needs_noted (needs_octet (needs_note _)))

/-- A status in the GoldSrc layout. -/
structure GoldSrcStatus where
  address : Piece
  name : Piece
  map : Piece
  folder : Piece
  game : Piece
  numPlayers : UInt8
  maxPlayers : UInt8
  protocol : UInt8
  serverType : UInt8
  environment : UInt8
  visibility : UInt8
  /-- What the server tells about the modification that it runs, if it runs one, or else what
  it sends in place of 1. -/
  mod : Modification ⊕ { isMod : UInt8 // isMod ≠ 1 }
  secure : UInt8
  bots : UInt8

namespace GoldSrcStatus

/-- The octets about the modification. -/
def modOctets (s : GoldSrcStatus) : List UInt8 :=
  match s.mod with
  | .inl m => 1 :: m.octets
  | .inr isMod => [isMod.val]

/-- The octets after the type. -/
def octets (s : GoldSrcStatus) : List UInt8 :=
  s.address.ended ++ (s.name.ended ++ (s.map.ended ++ (s.folder.ended ++ (s.game.ended
    ++ s.numPlayers :: s.maxPlayers :: s.protocol :: s.serverType :: s.environment :: s.visibility
      :: (s.modOctets ++ [s.secure, s.bots])))))

/-- The rules about the kind of server, as they are told and as they stand. -/
def kindRules (s : GoldSrcStatus) : List Rule :=
  ⟨"dedicated", dedicatedFlag s.serverType⟩ :: (osRules s.environment
    ++ numberRule "password" s.visibility.toNat :: (s.mod.elim Modification.rules (fun _ => [])
      ++ [numberRule "secure" s.secure.toNat, numberRule "bots" s.bots.toNat]))

/-- The rules that it tells. The protocol comes first. -/
def rules (s : GoldSrcStatus) : List Rule :=
  numberRule "protocol" s.protocol.toNat :: ⟨"gamedir", s.folder.text⟩
    :: ⟨"gamename", s.game.text⟩ :: s.kindRules

/-- The same rules in the order in which they stand. -/
def rulesAsWritten (s : GoldSrcStatus) : List Rule :=
  ⟨"gamedir", s.folder.text⟩ :: ⟨"gamename", s.game.text⟩
    :: numberRule "protocol" s.protocol.toNat :: s.kindRules

/-- The facts that it tells. -/
def facts (s : GoldSrcStatus) : List Fact :=
  [.name s.name.text, .map s.map.text, .game s.game.text, .numPlayers s.numPlayers.toUInt32,
    .maxPlayers s.maxPlayers.toUInt32] ++ ruleFacts s.rules

end GoldSrcStatus

theorem needs_goldSrcStatus (s : GoldSrcStatus) : Needs goldSrcStatus s.octets () s.facts := by
  have hlast : Needs (do
      let secure ← read Reader.uint8
      noteNumber "secure" secure.toNat
      let bots ← read Reader.uint8
      noteNumber "bots" bots.toNat) [s.secure, s.bots] ()
      (ruleFacts [numberRule "secure" s.secure.toNat, numberRule "bots" s.bots.toNat]) :=
    needs_octet (needs_noted (needs_octet (needs_note _)))
  unfold goldSrcStatus GoldSrcStatus.octets GoldSrcStatus.facts GoldSrcStatus.rules
    GoldSrcStatus.kindRules GoldSrcStatus.modOctets
  simp only [List.cons_append, List.nil_append, ruleFacts_cons, ruleFacts_append]
  refine needs_text (needs_text (needs_text (needs_text (needs_text ?_))))
  refine needs_octet (needs_octet (needs_octet (needs_octet (needs_octet (needs_octet ?_)))))
  rcases s.mod with m | ⟨isMod, hmod⟩
  · refine needs_octet ?_
    refine needs_noted (needs_noted (needs_noted (needs_noted (needs_noted (needs_noted ?_)))))
    refine needs_noted (needs_noted (needs_noted ?_))
    refine (needs_noteOs s.environment).bind (needs_noted ?_)
    rw [if_pos rfl]
    exact (needs_modification m).bind hlast
  · refine needs_octet ?_
    refine needs_noted (needs_noted (needs_noted (needs_noted (needs_noted (needs_noted ?_)))))
    refine needs_noted (needs_noted (needs_noted ?_))
    refine (needs_noteOs s.environment).bind (needs_noted ?_)
    rw [if_neg hmod]
    exact hlast

/-! ## Rules and players -/

/-- One rule after another, each a name and a value. -/
def ruleOctets (pairs : List (Piece × Piece)) : List UInt8 :=
  pairs.flatMap fun pair => pair.1.ended ++ pair.2.ended

theorem needs_rules (pairs : List (Piece × Piece)) :
    Needs (rules pairs.length) (ruleOctets pairs) ()
      (ruleFacts (pairs.map fun pair => ⟨pair.1.text, pair.2.text⟩)) := by
  induction pairs with
  | nil => exact needs_pure ()
  | cons pair rest ih =>
    unfold ruleOctets rules
    rw [List.flatMap_cons, List.append_assoc]
    exact needs_text (needs_text (needs_noted ih))

/-- A player. -/
structure Entry where
  /-- An octet that is meant to be the number of the player. -/
  index : UInt8
  name : Piece
  score : Int32
  /-- Seconds since the player joined, as the bits of a single-precision number. -/
  duration : UInt32

namespace Entry

/-- The octets in which a player is sent. -/
def octets (e : Entry) : List UInt8 :=
  e.index :: (e.name.ended ++ (Octets.littleEndian 4 e.score.toUInt32.toNat
    ++ Octets.littleEndian 4 e.duration.toNat))

/-- What is told about a player. -/
def fields (e : Entry) : List PlayerField :=
  [.name e.name.text, .score e.score, .connectTime e.duration]

end Entry

theorem needs_players (entries : List Entry) :
    Needs (players entries.length) (entries.flatMap Entry.octets) ()
      (entries.map fun e => .newcomer e.fields) := by
  induction entries with
  | nil => exact needs_pure ()
  | cons e rest ih =>
    unfold players
    rw [List.flatMap_cons, Entry.octets, List.cons_append, List.append_assoc, List.append_assoc]
    refine needs_octet (needs_text ((needs_int32LE e.score).bind ?_))
    exact (needs_uint32LE e.duration).bind (needs_noted ih)

end ServerProbe.Protocol.A2s
