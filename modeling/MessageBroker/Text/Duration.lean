import MessageBroker.Text.Decimal

/-!
# Spans of time

A span is a count of nanoseconds.  Its text uses the largest unit of which it
holds at least one, with as many decimal places as it needs and no trailing
zeros.
-/

namespace MessageBroker

/-- A span of time. -/
structure Duration where
  /-- How many nanoseconds it has. -/
  nanoseconds : Nat
  deriving DecidableEq

namespace Duration

/-- A span of so many thousandths of a second. -/
def ofMillis (count : Nat) : Duration :=
  ⟨count * 1000000⟩

/-- A span of so many seconds. -/
def ofSeconds (count : Nat) : Duration :=
  ⟨count * 1000000000⟩

/-- The whole milliseconds in a span. -/
def millis (span : Duration) : Nat :=
  span.nanoseconds / 1000000

/-- Whether a span is empty. -/
def isZero (span : Duration) : Bool :=
  span.nanoseconds == 0

/-- A count of nanoseconds in a unit with so many decimal places, with its
fraction. -/
def scaled (places : Nat) (unit : String) (nanoseconds : Nat) : String :=
  let fraction :=
    ((Decimal.digits places nanoseconds).reverse.dropWhile (· == '0')).reverse
  let point := if fraction.isEmpty then "" else "." ++ String.ofList fraction
  toString (nanoseconds / Decimal.capacity places) ++ point ++ unit

/-- The text of a span. -/
def text (span : Duration) : String :=
  if 1000000000 ≤ span.nanoseconds then scaled 9 "s" span.nanoseconds
  else if 1000000 ≤ span.nanoseconds then scaled 6 "ms" span.nanoseconds
  else if 1000 ≤ span.nanoseconds then scaled 3 "µs" span.nanoseconds
  else scaled 0 "ns" span.nanoseconds

end Duration

end MessageBroker
