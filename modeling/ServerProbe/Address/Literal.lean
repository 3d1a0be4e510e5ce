/-
Hosts that are written as numbers. An address of the older kind is four decimal
octets, one of the newer kind eight groups of hexadecimal digits, of which one run
of zeros may be left out as `::` and the last two may be written as an older
address. Both are written in their one canonical form: no leading zeros, and the
longest run of two or more zero groups left out, the first one if there are
several. A host that is neither may still be an address of the older kind with
fewer numbers, or with numbers in another base, as name services read them.

An address of the newer kind may hold on one link only, and a host can have many
links, each with an interface of its own. So the interface may be given as well,
after a `%`.
-/
import ServerProbe.Address
import ServerProbe.Octets
import ServerProbe.Text.Cut

set_option autoImplicit false

namespace ServerProbe.Address

/-! ## The older kind -/

/-- One octet in decimal, without leading zeros. -/
def octet? (cs : List Char) : Option UInt8 :=
  match cs with
  | '0' :: _ :: _ => none
  | _ => ((Text.digits? cs).filter (· < 0x100)).map UInt8.ofNat

/-- Four octets with points between them. -/
def octets? (cs : List Char) : Option (List UInt8) := do
  let parts ← (cs.splitOn '.').mapM octet?
  if parts.length = 4 then some parts else none

/-- The canonical form of an address of the older kind. -/
def octetsText (octets : List UInt8) : String :=
  ".".intercalate (octets.map fun b => Text.decimalText b.toNat)

/-! ## The older kind, written loosely -/

/-- A number in base sixteen after `0x`, in base eight after `0`, otherwise in base ten. -/
def looseNumber? : List Char → Option Nat
  | ['0'] => some 0
  | '0' :: 'x' :: digits => Text.inBase? 16 digits
  | '0' :: 'X' :: digits => Text.inBase? 16 digits
  | '0' :: digits => Text.inBase? 8 digits
  | digits => Text.inBase? 10 digits

/-- One to four numbers with points between them. All but the last are octets, and the
last one fills what is left of four. -/
def looseOctets? (cs : List Char) : Option (List UInt8) := do
  let numbers ← (cs.splitOn '.').mapM looseNumber?
  let last ← numbers.getLast?
  let front := numbers.dropLast
  let width := 4 - front.length
  if 3 < front.length || front.any (0x100 ≤ ·) || Nat.pow 0x100 width ≤ last then none
  else some (front.map UInt8.ofNat ++ Octets.bigEndian width last)

/-! ## The newer kind -/

/-- One group: one to four hexadecimal digits. -/
def group? (cs : List Char) : Option UInt16 :=
  if 4 < cs.length then none
  else (Text.inBase? 16 cs).map UInt16.ofNat

/-- The groups of an address of the older kind. -/
def embedded? (cs : List Char) : Option (List UInt16) := do
  match ← octets? cs with
  | [a, b, c, d] =>
    some [a.toUInt16 * 0x100 + b.toUInt16, c.toUInt16 * 0x100 + d.toUInt16]
  | _ => none

/-- Groups with colons between them; the last part may be an older address if `mixed`. -/
def groupParts? (mixed : Bool) : List (List Char) → Option (List UInt16)
  | [] => some []
  | [part] =>
    match if mixed then embedded? part else none with
    | some groups => some groups
    | none => (group? part).map fun g => [g]
  | part :: rest => do
    let g ← group? part
    let groups ← groupParts? mixed rest
    some (g :: groups)

/-- Groups with colons between them, or none at all. -/
def groups? (mixed : Bool) (cs : List Char) : Option (List UInt16) :=
  if cs.isEmpty then some [] else groupParts? mixed (cs.splitOn ':')

/-- What stands before and after the first `::`. -/
def cutDouble? (before : List Char) : List Char → Option (List Char × List Char)
  | [] => none
  | ':' :: ':' :: after => some (before.reverse, after)
  | c :: rest => cutDouble? (c :: before) rest

/-- The eight groups of an address of the newer kind. -/
def eightGroups? (cs : List Char) : Option (List UInt16) :=
  match cutDouble? [] cs with
  | none => do
    let groups ← groups? true cs
    if groups.length = 8 then some groups else none
  | some (before, after) => do
    let front ← groups? false before
    let back ← groups? true after
    if front.length + back.length < 8 then
      some (front ++ List.replicate (8 - front.length - back.length) 0 ++ back)
    else none

/-- A run of zero groups: where it starts and how long it is. -/
structure ZeroRun where
  start : Nat := 0
  length : Nat := 0
  deriving Repr, DecidableEq

/-- The longest run of zeros in `groups`, the first one if there are several. `index` is
where `groups` starts, `run` the run before it, `best` the longest so far. -/
def longestRun (index : Nat) (run best : ZeroRun) : List UInt16 → ZeroRun
  | [] => best
  | g :: rest =>
    if g = 0 then
      let run' : ZeroRun := ⟨if run.length = 0 then index else run.start, run.length + 1⟩
      longestRun (index + 1) run' (if best.length < run'.length then run' else best) rest
    else longestRun (index + 1) {} best rest

/-- Groups with colons between them. -/
def groupsText (groups : List UInt16) : String :=
  ":".intercalate (groups.map fun g => String.ofList (Nat.toDigits 16 g.toNat))

/-- The address of the older kind that an address of the newer kind stands for. -/
def mapped? : List UInt16 → Option (List UInt8)
  | [0, 0, 0, 0, 0, 0xFFFF, high, low] =>
    some [(high / 0x100).toUInt8, (high % 0x100).toUInt8,
      (low / 0x100).toUInt8, (low % 0x100).toUInt8]
  | _ => none

/-- The canonical form of an address of the newer kind. One that stands for an older
address is written with it. -/
def eightGroupsText (groups : List UInt16) : String :=
  match mapped? groups with
  | some octets => "::ffff:" ++ octetsText octets
  | none =>
    let run := longestRun 0 {} {} groups
    if 1 < run.length then
      groupsText (groups.take run.start) ++ "::"
        ++ groupsText (groups.drop (run.start + run.length))
    else groupsText groups

/-! ## Interfaces -/

/-- Whether an address holds on one link only: it starts with ten fixed bits, or it
belongs to a group of listeners on one host or one link. -/
def isOfLink : List UInt16 → Bool
  | first :: _ =>
    first &&& 0xFFC0 == 0xFE80 || first &&& 0xFF0F == 0xFF01 || first &&& 0xFF0F == 0xFF02
  | [] => false

/-- The number of an interface, in decimal. -/
def zoneNumber? (cs : List Char) : Option UInt32 :=
  ((Text.digits? cs).filter (· < UInt32.size)).map UInt32.ofNat

/-- The number of the interface through which a host reaches itself. -/
def loopbackZone : UInt32 := 1

/-- The number of an interface, in decimal or by its name. Names are for addresses that
hold on one link only, and the one that every host knows is `lo`. -/
def zone? (groups : List UInt16) (cs : List Char) : Option UInt32 :=
  if isOfLink groups && cs == ['l', 'o'] then some loopbackZone else zoneNumber? cs

/-! ## Hosts -/

/-- A host as a number. -/
inductive Literal where
  /-- Four octets. -/
  | older (octets : List UInt8)
  /-- Eight groups, and the number of an interface, or zero for none. -/
  | newer (groups : List UInt16) (zone : UInt32)
  deriving Repr, DecidableEq

namespace Literal

/-- The host the way it stands before a port. -/
def host : Literal → String
  | older octets => octetsText octets
  | newer groups zone =>
    let interface := if zone = 0 then "" else "%" ++ Text.decimalText zone.toNat
    "[" ++ eightGroupsText groups ++ interface ++ "]"

/-- A host of the newer kind, whose interface `zone?` understands. -/
def newer? (zone? : List UInt16 → List Char → Option UInt32) (cs : List Char) :
    Option Literal :=
  match Text.cutFirst? '%' cs with
  | none => (eightGroups? cs).map fun groups => newer groups 0
  | some (address, interface) => do
    let groups ← eightGroups? address
    return newer groups (← zone? groups interface)

/-- A host from a number in any of the forms. -/
def ofText? (cs : List Char) : Option Literal :=
  ((octets? cs).map older).or ((newer? zone? cs).or ((looseOctets? cs).map older))

end Literal

end ServerProbe.Address
