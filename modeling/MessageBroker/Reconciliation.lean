import MessageBroker.CatchUp
import MessageBroker.Catalog
import MessageBroker.Leader

/-!
# Reconciliation

A node reconciles with one peer, the first that it can reach: it catches up on
every partition of every topic that it knows, each from the end that it
remembered when the reconciliation began.  A partition that fails is counted and
costs the others nothing.
-/

namespace MessageBroker.Reconciliation

/-- What a reconciliation did. -/
structure Report where
  /-- The peer that was read from. -/
  peer : Option NodeId := none
  /-- Partitions that were tried. -/
  partitions : Nat := 0
  /-- Messages stored. -/
  applied : Nat := 0
  /-- Partitions that failed. -/
  failures : Nat := 0
  deriving DecidableEq

/-- The report with one more partition. -/
def Report.add (report : Report) : Except Error CatchUp.Report → Report
  | .ok caughtUp =>
      { report with
        partitions := report.partitions + 1
        applied := report.applied + caughtUp.applied }
  | .error _ =>
      { report with partitions := report.partitions + 1, failures :=
        report.failures + 1 }

/-- The partitions of topics, topic by topic. -/
def homes (topics : List Catalog.Topic) : List PartitionKey :=
  topics.flatMap fun topic =>
    (List.range topic.partitions.toNat).map fun index =>
      ⟨topic.name, .ofNat index⟩

variable {World : Type}

/-- Catch up on partitions in turn, each from the end that `ends` has for it. -/
def catchUpAll
    (fanout : Fanout World)
    (peer : NodeId)
    (ends : Ends)
    (report : Report)
    (store : Store)
    (world : World) :
    List PartitionKey → Report × Store × World
  | [] => (report, store, world)
  | home :: rest =>
      let (result, store, world) :=
        CatchUp.run fanout peer home ⟨ends.next home, none⟩ store world
      catchUpAll fanout peer ends (report.add result) store world rest

/-- Reconcile with the first node of an order that can be reached. -/
def run
    (fanout : Fanout World)
    (order : List NodeId)
    (store : Store)
    (world : World) :
    Report × Store × World :=
  if fanout.isInert then ({}, store, world)
  else match Leader.source? fanout world order with
    | (none, world) => ({}, store, world)
    | (some peer, world) =>
        match Catalog.topics store.keyspace with
        | .error _ => ({ peer := some peer, failures := 1 }, store, world)
        | .ok topics =>
            catchUpAll fanout peer store.ends { peer := some peer } store world
              (homes topics)

/-- Whether a partition's end has come to a goal. -/
def hasCome (store : Store) (home : PartitionKey) (goal : Offset) : Bool :=
  (Log.endOffset store.keyspace home).toOption.any (goal ≤ ·)

/-- Reconcile again and again, at most so many times, until a partition's end
has come to a goal; whether it has. -/
def untilEnd
    (fanout : Fanout World)
    (order : List NodeId)
    (home : PartitionKey)
    (goal : Offset)
    (store : Store)
    (world : World) :
    Nat → Bool × Store × World
  | 0 => (hasCome store home goal, store, world)
  | rounds + 1 =>
      if hasCome store home goal then (true, store, world)
      else
        let (_, store, world) := run fanout order store world
        untilEnd fanout order home goal store world rounds

end MessageBroker.Reconciliation
