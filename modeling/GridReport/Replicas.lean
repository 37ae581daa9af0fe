import GridReport.Keyed
import GridReport.Overlap
import GridReport.Records

/-!
Replicas per storage element: each replica is an interval from its creation to its removal, and
one that was never removed lasts up to a horizon.
-/

namespace GridReport.Replicas

def latest (row : ReplicaLifetime) : Int := max (row.removedAt.getD row.createdAt) row.createdAt

/-- The latest timestamp of all replicas, zero if there are none. -/
def horizonOf : List ReplicaLifetime → Int
  | [] => 0
  | head :: tail => tail.foldl (fun horizon row => max horizon (latest row)) (latest head)

/-- The interval of a replica; it never ends before it starts. -/
def intervalOf (horizon : Int) (row : ReplicaLifetime) : Interval :=
  ⟨row.createdAt, max (row.removedAt.getD horizon) row.createdAt, 1⟩

/-- The intervals of each storage element. Without a given horizon it is the latest timestamp of
all rows. -/
def intervals (rows : List ReplicaLifetime) (horizon : Option Int) :
    List (String × List Interval) :=
  let limit := horizon.getD (horizonOf rows)
  (Keyed.group ReplicaLifetime.storageElement rows).map fun group =>
    (group.1, group.2.map (intervalOf limit))

/-- The replica counts of each storage element at all its starts and ends. -/
def concurrent (rows : List ReplicaLifetime) (horizon : Option Int) :
    Except Failure (List (String × List OverlapPoint)) :=
  Overlap.countByKey (intervals rows horizon)

end GridReport.Replicas
