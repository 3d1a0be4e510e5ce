/-
The options a server is queried with. They are fixed when the query starts; every
target has its own.
-/
import ServerProbe.Clock
import ServerProbe.Server

set_option autoImplicit false

namespace ServerProbe

/-- The options that are handed to a protocol, to ask and to read replies. -/
structure RequestParams where
  wantRules : Bool := false
  wantPlayers : Bool := false
  rulePolicy : DuplicatePolicy := .keepFirst
  /-- Further options by name. -/
  extra : List (String × String) := []
  deriving Repr, DecidableEq

/-- The value of a further option. -/
def RequestParams.param? (p : RequestParams) (key : String) : Option String :=
  (p.extra.find? fun entry => entry.1 == key).map Prod.snd

/-- A policy alone, the other options being left at their defaults. -/
instance : Coe DuplicatePolicy RequestParams := ⟨fun rulePolicy => { rulePolicy }⟩

/-- The options of a query. -/
structure Config where
  /-- Ask for the rules too. -/
  wantRules : Bool := false
  /-- Ask for the players too. -/
  wantPlayers : Bool := false
  /-- How often a request is sent again after the first time. -/
  retries : UInt32 := 3
  /-- How long a reply is waited for. -/
  interval : Duration := .ofMillis 500
  /-- Hand faults in replies to the diagnostics. -/
  showErrors : Bool := false
  rulePolicy : DuplicatePolicy := .keepFirst
  /-- Further options by name. -/
  params : List (String × String) := []
  deriving Repr, DecidableEq

namespace Config

/-- How often a phase may be asked in all. -/
def sendsPerPhase (c : Config) : Nat := min (c.retries.toNat + 1) (UInt32.size - 1)

/-- How long a reply is waited for, in nanoseconds. -/
def retryInterval (c : Config) : Nat := c.interval.toNanos

/-- How long a reply is waited for, in milliseconds. -/
def retryIntervalMs (c : Config) : UInt64 := c.interval.toMillis

/-- The options that are handed to the protocol. -/
def requestParams (c : Config) : RequestParams where
  wantRules := c.wantRules
  wantPlayers := c.wantPlayers
  rulePolicy := c.rulePolicy
  extra := c.params

/-- The value of a further option. -/
def param? (c : Config) (key : String) : Option String := c.requestParams.param? key

/-- The options with one more further option, which takes the place of an earlier one
of the same name. -/
def setParam (c : Config) (key value : String) : Config :=
  { c with params := c.params.filter (fun entry => entry.1 != key) ++ [(key, value)] }

end Config

end ServerProbe
