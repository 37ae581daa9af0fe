/-!
The rows that the program reads from a simulation database.
-/

namespace GridReport

/-- When a transfer was queued, started and finished. -/
structure TransferTimes where
  queuedAt : Int
  startedAt : Option Int
  finishedAt : Option Int
deriving Repr, DecidableEq

structure FileSize where
  bytes : Int
deriving Repr, DecidableEq

/-- A replica at a storage element, from its creation to its removal. -/
structure ReplicaLifetime where
  storageElement : String
  createdAt : Int
  removedAt : Option Int
deriving Repr, DecidableEq

/-- The bytes that a finished transfer moved to a storage element. -/
structure TransferTraffic where
  storageElement : String
  finishedAt : Int
  traffic : Float

end GridReport
