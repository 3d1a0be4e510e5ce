/-
The protocols in which servers can be asked. A protocol is a name with a default
port, the phases it can do and in which order, the requests and the parser of
replies. There are four, and every part of a query that differs between them is
here.
-/
import ServerProbe.Protocol.A2s
import ServerProbe.Protocol.GameSpy
import ServerProbe.Protocol.GameSpy4
import ServerProbe.Protocol.Quake3

set_option autoImplicit false

namespace ServerProbe

/-- What a protocol can do and in which order it has to be driven. -/
structure Capabilities where
  /-- The phases that may be asked only after a challenge. -/
  gates : PhaseSet
  /-- The phases that the status reply answers too. -/
  includes : PhaseSet
  deriving Repr, DecidableEq

/-- A protocol. -/
inductive Protocol where
  | a2s
  | gamespy
  | q3
  | gs4
  deriving Repr, DecidableEq

namespace Protocol

/-- Every protocol, in the order in which they are listed. -/
def all : List Protocol := [a2s, gamespy, q3, gs4]

/-- The name by which a protocol is chosen. -/
def id : Protocol → String
  | a2s => "a2s"
  | gamespy => "gamespy"
  | q3 => "q3"
  | gs4 => "gs4"

/-- The protocol of a name. -/
def ofId? (id : String) : Option Protocol := all.find? fun p => p.id == id

/-- A protocol in words. -/
def description : Protocol → String
  | a2s => "Source / GoldSrc server query"
  | gamespy => "GameSpy v1 status query"
  | q3 => "Quake 3 status query"
  | gs4 => "GameSpy v4 / Minecraft query"

/-- The port at which servers listen unless told otherwise. -/
def defaultPort : Protocol → UInt16
  | a2s => 27015
  | gamespy => 7778
  | q3 => 27960
  | gs4 => 25565

/-- What a protocol can do. -/
def capabilities : Protocol → Capabilities
  | a2s => ⟨PhaseSet.ofList [.rules, .players], ∅⟩
  | gamespy => ⟨∅, PhaseSet.ofList [.rules, .players]⟩
  | q3 => ⟨∅, PhaseSet.ofList [.rules, .players]⟩
  | gs4 => ⟨PhaseSet.ofList [.status], PhaseSet.ofList [.rules, .players]⟩

/-- A session made ready for the first request. Where the client has to choose an
id, it is taken from `nonce`. -/
def prepare (p : Protocol) (nonce : UInt32) (s : Session) : Session :=
  match p with
  | gs4 => { s with sessionId := nonce &&& GameSpy4.sessionMask }
  | _ => s

/-- The request for a phase. -/
def request (p : Protocol) (phase : Phase) (s : Session) (params : RequestParams := {}) :
    Except Fault (List UInt8) :=
  match p with
  | a2s => .ok (A2s.request phase params s)
  | gamespy => GameSpy.request phase params s
  | q3 => Quake3.request phase params s
  | gs4 => GameSpy4.request phase params s

/-- The parser of replies. -/
def parse : Protocol → Parse Outcome
  | a2s => A2s.parse
  | gamespy => GameSpy.parse
  | q3 => Quake3.parse
  | gs4 => GameSpy4.parse

/-- No protocol looks at the options to make a request. -/
theorem request_params (p : Protocol) (phase : Phase) (s : Session) (params : RequestParams) :
    p.request phase s params = p.request phase s := by
  cases p <;> rfl

theorem mem_all (p : Protocol) : p ∈ all := by cases p <;> decide

theorem ofId?_id (p : Protocol) : ofId? p.id = some p := by cases p <;> decide

end Protocol

end ServerProbe
