/-
The command line: options and targets in, an exit code, the reports and at most
one error out.

Arguments are read as a whole before anything is done. An argument that starts
with a dash is an option, `--` alone ends the options, and everything else names a
target. Then the protocols are listed, if that is asked for; otherwise the targets
are taken in order, and the first that cannot be queried ends the run.

Nothing is attached here that could send: every target is silent, and runs until
its time is up. Names are not looked up either, apart from the name of this host;
a target has to be named by its number.
-/
import ServerProbe.Address.Literal
import ServerProbe.Address.Name
import ServerProbe.Engine
import ServerProbe.Report.Json

set_option autoImplicit false

namespace ServerProbe.CommandLine

/-! ## Arguments -/

/-- What the arguments say. -/
structure Arguments where
  targets : List String := []
  rules : Bool := false
  players : Bool := false
  showErrors : Bool := false
  broadcast : Bool := false
  listProtocols : Bool := false
  retries : Option UInt32 := none
  intervalMs : Option UInt64 := none
  bind : Option String := none
  params : List (String × String) := []
  deriving Repr, DecidableEq

/-- Options that stand alone. -/
inductive Flag where
  | rules
  | players
  | showErrors
  | broadcast
  | listProtocols
  deriving Repr, DecidableEq

/-- Options that take a value. -/
inductive Setting where
  | retries
  | intervalMs
  | bind
  | param
  deriving Repr, DecidableEq

/-- A flag by its long name. -/
def flagNamed? : String → Option Flag
  | "rules" => some .rules
  | "players" => some .players
  | "show-errors" => some .showErrors
  | "broadcast" => some .broadcast
  | "list-protocols" => some .listProtocols
  | _ => none

/-- A flag by its letter. -/
def flagLettered? : Char → Option Flag
  | 'R' => some .rules
  | 'P' => some .players
  | 'b' => some .broadcast
  | _ => none

/-- A setting by its name. -/
def settingNamed? : String → Option Setting
  | "retries" => some .retries
  | "interval-ms" => some .intervalMs
  | "bind" => some .bind
  | "param" => some .param
  | _ => none

namespace Arguments

/-- Sets a flag; a flag that is set already is an error. -/
def setFlag? (a : Arguments) : Flag → Option Arguments
  | .rules => if a.rules then none else some { a with rules := true }
  | .players => if a.players then none else some { a with players := true }
  | .showErrors => if a.showErrors then none else some { a with showErrors := true }
  | .broadcast => if a.broadcast then none else some { a with broadcast := true }
  | .listProtocols => if a.listProtocols then none else some { a with listProtocols := true }

/-- Sets several flags by their letters. -/
def setLetters? (a : Arguments) (letters : List Char) : Option Arguments :=
  letters.foldlM (fun a c => do a.setFlag? (← flagLettered? c)) a

/-- The number of retries: an integer with an optional sign that is not negative. -/
def retries? (value : String) : Option UInt32 :=
  match Text.intWithin? 0x8000000000000000 value.toList with
  | some n => if 0 ≤ n ∧ n < UInt32.size then some (UInt32.ofNat n.toNat) else none
  | none => none

/-- An interval in milliseconds. -/
def intervalMs? (value : String) : Option UInt64 :=
  (Text.natBelow? UInt64.size value.toList).map UInt64.ofNat

/-- Gives a setting its value. Only parameters may be given more than once. -/
def give? (a : Arguments) (value : String) : Setting → Option Arguments
  | .retries =>
    if a.retries.isSome then none
    else (retries? value).map fun n => { a with retries := some n }
  | .intervalMs =>
    if a.intervalMs.isSome then none
    else (intervalMs? value).map fun n => { a with intervalMs := some n }
  | .bind => if a.bind.isSome then none else some { a with bind := some value }
  | .param =>
    (Text.cutFirst? '=' value.toList).map fun (key, text) =>
      { a with params := a.params ++ [(String.ofList key, String.ofList text)] }

/-- Adds a target. -/
def addTarget (a : Arguments) (text : String) : Arguments :=
  { a with targets := a.targets ++ [text] }

end Arguments

/-- What one argument is, by its first characters. -/
inductive Shape where
  /-- `--`: no options follow. -/
  | endOfOptions
  /-- `--name` or `--name=value`. -/
  | long (name : String) (value : Option String)
  /-- `-letters`. -/
  | letters (cs : List Char)
  /-- Anything else, a single dash too. -/
  | plain
  deriving Repr, DecidableEq

/-- The shape of an argument. -/
def Shape.of (argument : String) : Shape :=
  match argument.toList with
  | ['-', '-'] => .endOfOptions
  | '-' :: '-' :: option =>
    match Text.cutFirst? '=' option with
    | some (name, value) => .long (String.ofList name) (some (String.ofList value))
    | none => .long (String.ofList option) none
  | ['-'] => .plain
  | '-' :: cs => .letters cs
  | _ => .plain

/-- Reads arguments on from `a`, a value being awaited for a setting or not. Nothing if they
are not understood. -/
def readArguments? (a : Arguments) (awaited : Option Setting) : List String → Option Arguments
  | [] => if awaited.isSome then none else some a
  | argument :: rest =>
    match Shape.of argument, awaited with
    | .plain, some setting => do readArguments? (← a.give? argument setting) none rest
    | .plain, none => readArguments? (a.addTarget argument) none rest
    | _, some _ => none
    | .endOfOptions, none => some (rest.foldl Arguments.addTarget a)
    | .letters cs, none => do readArguments? (← a.setLetters? cs) none rest
    | .long name value, none =>
      match flagNamed? name, settingNamed? name, value with
      | some flag, _, none => do readArguments? (← a.setFlag? flag) none rest
      | _, some setting, some v => do readArguments? (← a.give? v setting) none rest
      | _, some setting, none => readArguments? a (some setting) rest
      | _, none, _ => none

/-- The options for every target. -/
def Arguments.config (a : Arguments) : Config :=
  let config : Config :=
    { wantRules := a.rules
      wantPlayers := a.players
      showErrors := a.showErrors
      retries := a.retries.getD 3
      interval := .ofMillis (a.intervalMs.getD 500) }
  a.params.foldl (fun c (key, value) => c.setParam key value) config

/-! ## Failures -/

/-- Why a socket cannot have a local address. -/
inductive BindError where
  /-- The address belongs to another host. -/
  | elsewhere
  /-- The address holds on one link only, and comes without an interface. -/
  | noZone
  /-- There is no interface of that number. -/
  | noInterface
  deriving Repr, DecidableEq

/-- Why a run fails after its arguments have been read. -/
inductive Failure where
  | noTargets
  | query (error : QueryError)
  /-- A name has no address. -/
  | notFound (host : String)
  /-- The local address is no address. -/
  | badBind (reason : String)
  /-- The name in the local address has no address. -/
  | bindNotFound (host : String)
  /-- The local address cannot be had. -/
  | bindRefused (error : BindError)
  deriving Repr, DecidableEq

/-- A record with named fields, as failures are shown. -/
def recordText (name : String) (fields : List (String × String)) : String :=
  name ++ " \x7b " ++ ", ".intercalate (fields.map fun (key, value) => key ++ ": " ++ value)
    ++ " \x7d"

/-- A record with one unnamed field. -/
def wrapText (name content : String) : String := name ++ "(" ++ content ++ ")"

/-- The name of a way of failing. -/
def transportErrorName : TransportErrorKind → String
  | .connectionRefused => "ConnectionRefused"
  | .connectionReset => "ConnectionReset"
  | .permissionDenied => "PermissionDenied"
  | .wouldBlock => "WouldBlock"
  | .timedOut => "TimedOut"
  | .invalidInput => "InvalidInput"
  | .other => "Other"

/-- An error by its parts. -/
def queryErrorText : QueryError → String
  | .unknownProtocol id => wrapText "UnknownProtocol" (Text.quoted id)
  | .invalidTarget spec reason =>
    recordText "InvalidTarget" [("spec", Text.quoted spec), ("reason", Text.quoted reason)]
  | .unresolved host => wrapText "Unresolved" (Text.quoted host)
  | .duplicateTarget address => wrapText "DuplicateTarget" address.text
  | .unknownTarget id => wrapText "UnknownTarget" (wrapText "TargetId" (Text.decimalText id))
  | .transport error =>
    wrapText "Io" (match error.text with
      | none => wrapText "Kind" (transportErrorName error.kind)
      | some text =>
        recordText "Custom" [("kind", transportErrorName error.kind), ("error", Text.quoted text)])

/-- What is shown when a host has no address: what is no name never has one, and whether
a name has one cannot be told without asking. -/
def notFoundText (host : String) : String :=
  let reason :=
    if Address.isName host.toList then "Temporary failure in name resolution"
    else "Name or service not known"
  recordText "Custom" [("kind", "Uncategorized"),
    ("error", Text.quoted ("failed to lookup address information: " ++ reason))]

/-- An error of the host, with its number. -/
def osErrorText (code : Nat) (kind message : String) : String :=
  recordText "Os"
    [("code", Text.decimalText code), ("kind", kind), ("message", Text.quoted message)]

/-- An error by its parts. -/
def BindError.text : BindError → String
  | elsewhere => osErrorText 99 "AddrNotAvailable" "Cannot assign requested address"
  | noZone => osErrorText 22 "InvalidInput" "Invalid argument"
  | noInterface => osErrorText 19 "Uncategorized" "No such device"

/-- A failure by its parts. -/
def Failure.text : Failure → String
  | noTargets => Text.quoted "no targets given (see --help)"
  | query error => queryErrorText error
  | notFound host => notFoundText host
  | badBind reason =>
    wrapText "Io" (recordText "Error" [("kind", "InvalidInput"), ("message", Text.quoted reason)])
  | bindNotFound host => wrapText "Io" (notFoundText host)
  | bindRefused error => wrapText "Io" error.text

/-! ## Running -/

/-- What a run comes to. -/
structure Result where
  exitCode : UInt32
  output : String := ""
  failure : Option Failure := none
  deriving Repr, DecidableEq

/-- The line shown for a failure. -/
def Result.errorLine? (r : Result) : Option String := r.failure.map fun f => "Error: " ++ f.text

/-- A text in a column of `width` characters, at its left. -/
def padRight (width : Nat) (s : String) : String :=
  s ++ String.ofList (List.replicate (width - s.length) ' ')

/-- A text in a column of `width` characters, at its right. -/
def padLeft (width : Nat) (s : String) : String :=
  String.ofList (List.replicate (width - s.length) ' ') ++ s

/-- A protocol in the list of protocols. -/
def protocolLine (p : Protocol) : String :=
  padRight 10 p.id ++ " " ++ padLeft 5 (Text.decimalText p.defaultPort.toNat) ++ "  "
    ++ p.description ++ "\n"

/-- The list of protocols. -/
def protocolList : String := String.join (Protocol.all.map protocolLine)

/-- The number of a host, from a number or the name of this host. -/
def resolve? (host : String) : Option Address.Literal :=
  match Address.Literal.ofText? host.toList with
  | some literal => some literal
  | none => if host.toLower = "localhost" then some (.older [127, 0, 0, 1]) else none

/-- Starts to query the target that a text names. -/
def addTarget (a : Arguments) (nonce : UInt32) (e : Engine) (text : String) :
    Except Failure Engine := do
  let spec ← (TargetSpec.ofText text).mapError fun error => .query (.ofSpec text error)
  match resolve? spec.host with
  | none => throw (.notFound spec.host)
  | some literal =>
    let mode := if a.broadcast then TargetMode.broadcast else .unicast
    match e.add mode spec.protocol.id ⟨literal.host, spec.port⟩ a.config nonce 0 with
    | (e', .ok _) => return e'
    | (_, .error error) => throw (.query error)

/-- The host of a local address: one of the newer kind in brackets, before a port that
has no sign, or any that a target could have. -/
def resolveLocal? (host port : List Char) : Option Address.Literal :=
  match host with
  | '[' :: rest =>
    if rest.getLast? = some ']' && port.all Char.isDigit then
      Address.Literal.newer? (fun _ => Address.zoneNumber?) rest.dropLast
    else none
  | _ => resolve? (String.ofList host)

/-- Whether a socket of this host can have an address of the older kind: one that stands
for all its addresses, one that stays inside, or one that belongs to nobody in
particular. -/
def isOpen : List UInt8 → Bool
  | first :: rest =>
    first == 0 || first == 127 || (224 ≤ first && first < 240) || (first :: rest).all (· == 255)
  | [] => false

/-- Whether a socket of this host can have an address. Of the newer kind it can have the one
that stands for all and the one that stays inside, and those of groups of listeners. The
only interface that is known is the one through which it reaches itself. -/
def checkLocal : Address.Literal → Except BindError Unit
  | .older octets => if isOpen octets then return () else throw .elsewhere
  | .newer groups zone => do
    if Address.isOfLink groups then
      if zone = 0 then throw .noZone
      if zone ≠ Address.loopbackZone then throw .noInterface
    let isGroup := groups.head?.any (0xFF00 ≤ ·)
    let isHere := groups.dropLast.all (· == 0) && groups.getLast?.any (· ≤ 1)
    if isGroup || isHere || (Address.mapped? groups).any isOpen then return ()
    else throw .elsewhere

/-- Checks the local address: a host and a port. -/
def checkBind (text : String) : Except Failure Unit :=
  match Text.cutLast? ':' text.toList with
  | none => throw (.badBind "invalid socket address")
  | some (host, port) =>
    if (Text.uint16? port).isNone then throw (.badBind "invalid port value")
    else match resolveLocal? host port with
      | none => throw (.bindNotFound (String.ofList host))
      | some literal => (checkLocal literal).mapError .bindRefused

/-- Lets time pass from deadline to deadline, `fuel` times at most. -/
def waitWithin : Nat → Engine → Engine
  | 0, e => e
  | fuel + 1, e =>
    match e.deadline? with
    | none => e
    | some limit => waitWithin fuel (e.tick limit)

/-- How many deadlines can pass before every target is silent for good: each one uses up
a request, or ends a target. -/
def waitBound (e : Engine) : Nat :=
  total (e.targets.map fun t => total (t.machine.plan.map Leg.budget) + 1)

/-- Lets time pass until no target is left. -/
def wait (e : Engine) : Engine := waitWithin (waitBound e) e

/-- Queries all targets and writes their reports. -/
def query (a : Arguments) (nonce : UInt32) : Except Failure String := do
  if a.targets.isEmpty then throw .noTargets
  let e ← a.targets.foldlM (addTarget a nonce) {}
  checkBind (a.bind.getD "0.0.0.0:0")
  let (_, reports) := (wait e).takeCompleted
  return String.join (reports.map fun r => r.pretty ++ "\n")

/-- A whole run. Where a protocol wants the client to choose an id, it is taken from
`nonce`. -/
def run (nonce : UInt32) (arguments : List String) : Result :=
  match readArguments? {} none arguments with
  | none => { exitCode := 2 }
  | some a =>
    if a.listProtocols then { exitCode := 0, output := protocolList }
    else match query a nonce with
      | .ok output => { exitCode := 0, output }
      | .error failure => { exitCode := 1, failure := some failure }

end ServerProbe.CommandLine
