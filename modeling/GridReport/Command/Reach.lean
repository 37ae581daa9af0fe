import GridReport.Command.Arguments
import GridReport.Call

/-!
The paths that a run may look at, so that a caller can have their content ready.

The command line names all of them but one: the database, which the connection file names.
-/

namespace GridReport

/-- The path of the database that a connection names, unless it is in memory. -/
def Connection.path? (connection : Connection) : Option String :=
  let source := Text.trim connection.target
  match Store.Address.ofText? source with
  | none => some source
  | some address => if address.inMemory then none else some address.path

namespace Command

/-- The files with queries that a chart may be made from, in a directory. -/
def queryPaths (directory : String) : List String :=
  Sql.ChartQuery.all.map fun query => Files.join directory query.fileName

def ChartTask.file? : ChartTask → Option String
  | .query file _ _ => some file
  | _ => none

def Arguments.chartPath (arguments : Arguments) (task : ChartTask) : String :=
  (ChartSettings.mk arguments.outDir arguments.width arguments.height).pathFor task.name

/-- The paths that a command line leads to, the database aside. -/
def Arguments.paths (arguments : Arguments) : List String :=
  arguments.outDir :: arguments.outfile.toList ++
    match arguments.task with
    | .updateSku config skus output => [config, skus, output]
    | .draw task =>
      arguments.dbConfig :: arguments.chartPath task :: task.file?.toList ++
        arguments.queriesDir.toList.flatMap fun directory =>
          directory :: queryPaths directory

end Command

end GridReport
