/-
Time. A length of time is kept as whole seconds and the nanoseconds beyond them, so
every length that can be asked for is one; an instant is how many nanoseconds have
passed since a fixed one.

A clock counts its seconds in a signed word of 64 bits. An instant from `limit` on
does not exist, and a query that would have to wait for one ends the program.
-/

set_option autoImplicit false

namespace ServerProbe

/-! ## Lengths of time -/

/-- A length of time. -/
structure Duration where
  seconds : UInt64
  /-- The nanoseconds beyond the whole seconds. -/
  nanos : Nat
  nanos_lt : nanos < 1000000000
  deriving Repr, DecidableEq

namespace Duration

/-- A length in nanoseconds. -/
def toNanos (d : Duration) : Nat := d.seconds.toNat * 1000000000 + d.nanos

/-- A number of milliseconds. -/
def ofMillis (ms : UInt64) : Duration where
  seconds := ms / 1000
  nanos := (ms % 1000).toNat * 1000000
  nanos_lt := by
    have hlt : (ms % 1000).toNat < 1000 := by
      rw [UInt64.toNat_mod]
      exact Nat.mod_lt _ (by decide)
    omega

/-- The whole milliseconds of a length, as far as a word of 64 bits holds them. -/
def toMillis (d : Duration) : UInt64 := UInt64.ofNat (d.toNanos / 1000000)

end Duration

/-! ## Instants -/

/-- An instant, in nanoseconds after a fixed one. -/
abbrev Instant := Nat

/-- The first instant that no clock shows. -/
def Instant.limit : Instant := 0x8000000000000000 * 1000000000

end ServerProbe
