import MessageBroker.Cluster.Roster
import MessageBroker.Text.Duration

/-!
# Timing

How long a node waits for others, how often it reconciles, and how many offsets
it asks for at once.
-/

namespace MessageBroker.Cluster

/-- The times and the page of a node's exchanges with others. -/
structure Timing where
  /-- How long to wait for a connection. -/
  connect : Duration := .ofSeconds 2
  /-- How long to wait for a response. -/
  request : Duration := .ofSeconds 5
  /-- How long to wait for a sign of life. -/
  probe : Duration := .ofSeconds 1
  /-- The time between two reconciliations. -/
  interval : Duration := .ofSeconds 30
  /-- The offsets that one request of a catch-up spans. -/
  page : UInt64 := 1000
  deriving DecidableEq

namespace Timing

/-- A timing for nodes that are close together and checked by hand. -/
def fast : Timing where
  connect := .ofMillis 200
  request := .ofMillis 500
  probe := .ofMillis 100
  interval := .ofMillis 50
  page := 4

/-- The timing is usable; the first fault is reported. -/
def validate (timing : Timing) : Except ConfigError Unit :=
  if timing.connect.isZero ∨ timing.request.isZero ∨ timing.probe.isZero then
    .error (.invalidTiming .timeout)
  else if timing.interval.isZero then .error (.invalidTiming .interval)
  else if timing.page = 0 then .error (.invalidTiming .page)
  else .ok ()

end Timing

end MessageBroker.Cluster
