/-
Replies read in one go, in each protocol.

The readers end with what the payload amounts to, so what a parser does with its context does
not show in them. That a parser does the same is proved for each of them
(`Exchange.receive_eq`).
-/
import ServerProbe.Proofs.Reading
import ServerProbe.Protocol

set_option autoImplicit false

namespace ServerProbe

/-! ## Source and GoldSrc -/

namespace Protocol.A2s

open Reply

/-- A token. -/
def challenge (s : Situation) : Reply Ending := do
  let token ← read Reader.int32LE
  if s.current = some .challenge then
    accept s .challenge
    note (.token token)
    pure (.done (PhaseSet.ofList [.challenge]) true)
  else if s.session.challenge = some token then fail (.unexpected .challenge)
  else
    note (.token token)
    pure (.more true)

/-- One piece of a split reply. The highest bit of the series would mean that the
whole is compressed. -/
def split (s : Situation) : Reply Ending := do
  let series ← read Reader.uint32LE
  if series &&& 0x80000000 != 0 then
    fail (.unsupported "compressed split replies are not supported")
  else
    let (index, count) ← place s.session.revision
    if count ≤ index then
      fail (.malformed ("split fragment " ++ Text.decimalText index ++ " of "
        ++ Text.decimalText count ++ " is out of range"))
    else
      let payload ← takeRest
      pure (.piece series index count payload)

/-- A reply that answers one phase, read by `body`. -/
def answer (s : Situation) (phase : Phase) (body : Reply Unit) : Reply Ending := do
  accept s phase
  body
  pure (.done (PhaseSet.ofList [phase]) true)

/-- A reply that stands alone. -/
def single (s : Situation) : Reply Ending := do
  let kind ← read Reader.uint8
  if kind = 0x41 then challenge s
  else if kind = 0x49 then answer s .status statusBody
  else if kind = 0x6D then answer s .status goldSrcBody
  else if kind = 0x45 then answer s .rules rulesBody
  else if kind = 0x44 then answer s .players playersBody
  else fail (.unknownType kind)

/-- Any datagram. -/
def reply (s : Situation) : Reply Ending := do
  let marker ← read Reader.int32LE
  if marker = -1 then single s
  else if marker = -2 then split s
  else fail (.unsupported ("unknown packet marker " ++ Text.wordHex marker.toUInt32))

end Protocol.A2s

/-! ## The first GameSpy query -/

namespace Protocol.GameSpy

open Reply

/-- The phases that a whole reply answers. -/
def answered : PhaseSet := PhaseSet.ofList [.status, .rules, .players]

/-- Any datagram. A number that has been seen is not read again. -/
def reply (s : Situation) : Reply Ending := do
  accept s .status
  let payload ← takeRest
  let pairs ← ofExcept (splitPairs (textOf payload))
  let n ← ofExcept (numbering pairs)
  if Session.maskHas s.session.received n.number then pure (.more false)
  else
    note (.datagram n.number n.final)
    notePairs pairs
    if (s.session.arrived n.number n.final).isWhole then pure (.done answered true)
    else pure (.more false)

end Protocol.GameSpy

/-! ## Quake 3 -/

namespace Protocol.Quake3

open Reply

/-- Any datagram. -/
def reply (s : Situation) : Reply Ending := do
  read (Reader.expect header)
  expectResponse
  accept s .status
  let body ← takeRest
  noteLines (((Text.Utf8.decode body).splitOn '\n').drop 1)
  pure (.done (PhaseSet.ofList [.status, .rules, .players]) true)

end Protocol.Quake3

/-! ## The fourth GameSpy query -/

namespace Protocol.GameSpy4

open Reply

/-- A token, in decimal. -/
def handshake (s : Situation) : Reply Ending := do
  let text ← read Reader.cstring
  let token ← tokenOf text
  if s.current = some .challenge then
    accept s .challenge
    note (.token token)
    pure (.done (PhaseSet.ofList [.challenge]) true)
  else if s.session.challenge = some token then fail (.unexpected .challenge)
  else
    note (.token token)
    pure (.more true)

/-- Any datagram. -/
def reply (s : Situation) : Reply Ending := do
  let kind ← read Reader.uint8
  let id ← read Reader.int32BE
  if id.toUInt32 ≠ s.session.sessionId then
    fail (.unsupported ("session id " ++ Text.wordHex id.toUInt32 ++ " does not match "
      ++ Text.wordHex s.session.sessionId))
  else if kind = handshakeType then handshake s
  else if kind = statusType then
    accept s .status
    fullStatus
    pure (.done (PhaseSet.ofList [.status, .rules, .players]) true)
  else fail (.unknownType kind)

end Protocol.GameSpy4

/-! ## All protocols -/

namespace Protocol

/-- The reader of replies. -/
def reply (p : Protocol) (s : Situation) : Reply Ending :=
  match p with
  | a2s => A2s.reply s
  | gamespy => GameSpy.reply s
  | q3 => Quake3.reply s
  | gs4 => GameSpy4.reply s

/-- A payload, read. -/
def read (p : Protocol) (s : Situation) (payload : List UInt8) : Reading :=
  (p.reply s).readAll payload

end Protocol

end ServerProbe
