/-!
# Time

Instants and spans are whole nanoseconds. What happens is always told its instant; nothing here
reads a clock.
-/

namespace AccessGate

/-- An instant or a span in nanoseconds. -/
abbrev Time := Nat

namespace Time

/-- The span of so many milliseconds. -/
def ofMillis (ms : Nat) : Time := ms * 1000000

/-- The span of so many seconds. -/
def ofSeconds (s : Nat) : Time := s * 1000000000

/-- The whole milliseconds of a span. -/
def millis (t : Time) : Nat := t / 1000000

end Time

end AccessGate
