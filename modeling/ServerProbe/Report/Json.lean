/-
Reports in JSON. The fields come in a fixed order; what is not known is left out,
except the name and the map of a server, which are null then.
-/
import ServerProbe.Json.Writer
import ServerProbe.Report

set_option autoImplicit false

namespace ServerProbe

/-- JSON as it is written: every string is a text. -/
abbrev Document := Json String

namespace Document

/-- A value, or null. -/
def orNull {α : Type} (f : α → Document) : Option α → Document
  | some a => f a
  | none => .null

/-- A field that is left out without a value. -/
def field? {α : Type} (key : String) (f : α → Document) (value : Option α) :
    List (String × Document) :=
  value.toList.map fun a => (key, f a)

/-- A rule. -/
def ofRule (r : Rule) : Document := .object [("name", .text r.name), ("value", .text r.value)]

/-- A further field of a player. -/
def ofInfo (entry : String × String) : Document :=
  .object [("key", .text entry.1), ("value", .text entry.2)]

/-- A player. -/
def ofPlayer (p : Player) : Document :=
  .object <|
    [("number", Json.ofInt p.number.toInt), ("name", .text p.name)]
      ++ field? "score" (fun v => Json.ofInt v.toInt) p.score
      ++ field? "frags" (fun v => Json.ofInt v.toInt) p.frags
      ++ field? "deaths" (fun v => Json.ofInt v.toInt) p.deaths
      ++ field? "ping" (fun v => Json.ofNat v.toNat) p.ping
      ++ field? "team" (fun v => Json.ofInt v.toInt) p.team
      ++ field? "team_name" .text p.teamName
      ++ field? "connect_time" Json.ofBits32 p.connectTime
      ++ (if p.info.isEmpty then [] else [("info", .array (p.info.map ofInfo))])

/-- A server. -/
def ofServer (s : Server) : Document :=
  .object <|
    [("name", orNull .text s.name), ("map", orNull .text s.map)]
      ++ field? "game" .text s.game
      ++ [("num_players", Json.ofNat s.numPlayers.toNat),
        ("max_players", Json.ofNat s.maxPlayers.toNat),
        ("missing_status", .bool s.missingStatus),
        ("missing_rules", .bool s.missingRules),
        ("missing_players", .bool s.missingPlayers),
        ("rules", .array (s.rules.map ofRule)),
        ("players", .array (s.players.map ofPlayer))]

/-- A status: one word, or the kind of the error. -/
def ofStatus : TargetStatus → Document
  | .error kind => .object [("error", .text kind.label)]
  | status => .text status.text

/-- A report. -/
def ofReport (r : Report) : Document :=
  .object <|
    [("id", Json.ofNat r.id)]
      ++ field? "parent" Json.ofNat r.parent
      ++ [("protocol", .text r.protocol.id), ("address", .text r.address.text),
        ("status", ofStatus r.status)]
      ++ field? "ping_ms" Json.ofFloat r.pingMs
      ++ [("retries", Json.ofNat r.retries)]
      ++ field? "error" .text r.error
      ++ [("server", ofServer r.server)]

end Document

/-- A report in text, for people. -/
def Report.pretty (r : Report) : String := (Document.ofReport r).pretty 0

end ServerProbe
