import GridReport.Store.Clause

/-!
Queries made ready to be run.

A query is prepared against the tables of a database: all its names are settled, and what is left is
a function from the values of parameters to rows. Running it reads tables and changes none.

A selection is worked out from inside: its sources are joined, rows that do not meet the condition
are left out, rows are summed up in groups if a function of many rows is used, and the items are
worked out for what remains.
-/

namespace GridReport.Store

open Sql (Expr Query CommonTable Body Item Source OrderTerm)

open Prepare

mutual

def work (setting : Setting) : Expr → Except Fault Worked
  | .literal value => .ok (.constant (cellOf value))
  | .placeholder name => .ok (Scope.parameter name)
  | .column path index => setting.scope.resolve path index
  | .wildcard _ => .error unsupported
  | .unary "-" (.literal (.number digits)) => .ok (.constant (numberOf ("-" ++ digits)))
  | .unary operator operand => do
    let inner ← work setting operand
    match operator with
    | "-" => return inner.map Cell.negate
    | "+" => return inner.map id
    | "NOT" => return negateIf true inner
    | _ => throw unsupported
  | .binary operator left right => do
    let x ← work setting left
    let y ← work setting right
    match binary? operator x y with
    | some worked => return worked
    | none => throw unsupported
  | .quantified _ _ _ _ => .error unsupported
  | .truth negated asked operand => do
    match question? asked (← work setting operand) with
    | some worked => return negateIf negated worked
    | none => throw unsupported
  | .distinct negated left right => do
    return negateIf (!negated) (isSame (← work setting left) (← work setting right))
  | .inList negated operand items => do
    let value ← work setting operand
    let set ← workAll setting items
    return negateIf negated ⟨none, value.sums ++ sumsOf set, fun view => do
      return Cell.ofTruth
        (membership value.affinity (← value.value view) (← valuesOf view set))⟩
  | .inQuery negated operand query => do
    let value ← work setting operand
    let plan ← prepareQuery setting query
    match plan.columns with
    | [column] =>
      let preference := Affinity.ofSides value.affinity column.affinity
      return negateIf negated ⟨none, value.sums, fun view => do
        let set := (← (plan.rows view).all).map fun row => row.head?.getD .null
        return Cell.ofTruth (membership preference (← value.value view) set)⟩
    | several =>
      throw (.engine .statement
        ("sub-select returns " ++ toString several.length ++ " columns - expected 1"))
  | .between negated operand low high => do
    let value ← work setting operand
    let least := value.compare (← work setting low) (· != .lt)
    let most := value.compare (← work setting high) (· != .gt)
    return negateIf negated
      (least.map₂ most fun x y => Cell.ofTruth (Cell.both x.truth y.truth))
  | .matching keyword negated operand pattern escape => do
    let value ← work setting operand
    let wanted ← work setting pattern
    if keyword != "LIKE" then
      throw (.engine .statement ("no such function: " ++ keyword))
    match escape.map String.toList with
    | none =>
      return negateIf negated (value.map₂ wanted fun x y => Cell.ofTruth (Cell.like none x y))
    | some [c] =>
      return negateIf negated
        (value.map₂ wanted fun x y => Cell.ofTruth (Cell.like (some c) x y))
    | some _ => throw (.engine .statement "ESCAPE expression must be a single character")
  | .choice operand conditions results otherwise => do
    let tested ← workIn setting operand
    let given ← workAll setting conditions
    let values ← workAll setting results
    let last ← workIn setting otherwise
    let tests : List Worked :=
      match tested with
      | none => given
      | some worked => given.map fun condition => worked.compare condition (· == .eq)
    let inside := tested.toList ++ (given.zip values).flatMap (fun (x, y) => [x, y]) ++ last.toList
    return ⟨none, sumsOf inside,
      fun view => firstThat view (tests.zip values) last⟩
  | .cast operand type => do
    let inner ← work setting operand
    let target := CastTarget.ofType (String.intercalate " " type.words)
    return { inner.map target.apply with affinity := some target.affinity }
  | .existence negated query => do
    let plan ← prepareQuery setting query
    return negateIf negated
      ⟨none, [], fun view => return Cell.ofTruth (some (← (plan.rows view).first?).isSome)⟩
  | .scalar query => do
    let plan ← prepareQuery setting query
    match plan.columns with
    | [column] =>
      return ⟨column.affinity, [], fun view => do
        return ((← (plan.rows view).first?).bind List.head?).getD .null⟩
    | several =>
      throw (.engine .statement
        ("sub-select returns " ++ toString several.length ++ " columns - expected 1"))
  | .nested inner => work setting inner
  | .tuple _ => .error (.engine .statement "row value misused")
  | .collate operand collation => do
    let name := String.intercalate "." (collation.map Sql.Name.value)
    let worked ← work setting operand
    match Database.fold name with
    | "binary" => return worked
    | "nocase" => throw unsupported
    | "rtrim" => throw unsupported
    | _ => throw (.engine .statement ("no such collation sequence: " ++ name))
  | .call function index isDistinct plain arguments clauses filter after => do
    let name := String.intercalate "." (function.map Sql.Name.value)
    if !plain || !clauses.isEmpty || !after.isEmpty then throw unsupported
    let ofRows :=
      match arguments with
      | [.wildcard []] => true
      | _ => arguments.isEmpty
    let inner := setting.withSumming refused
    match Aggregate.find? name (if ofRows then 0 else arguments.length) with
    | some aggregate =>
      match setting.scope.summing with
      | .refused wording => throw (setting.scope.fault (wording ++ name ++ "()") index)
      | .allowed => do
        let given ← if ofRows then pure [] else workAll inner arguments
        return summed aggregate isDistinct given.head? (← workIn inner filter)
    | none =>
      match Function.find? name with
      | some known => do
        if !known.takes arguments.length then
          throw (setting.scope.fault
            ("wrong number of arguments to function " ++ name ++ "()") index)
        return applied known (← workAll setting arguments)
      | none =>
        if Aggregate.names.contains (name.map Char.toLower) then
          throw (setting.scope.fault
            ("wrong number of arguments to function " ++ name ++ "()") index)
        else throw (setting.scope.fault ("no such function: " ++ name) index)
  | .form _ _ => .error unsupported

def workAll (setting : Setting) : List Expr → Except Fault (List Worked)
  | [] => .ok []
  | head :: tail => return (← work setting head) :: (← workAll setting tail)

/-- Settles the names in an expression that may be missing. -/
def workIn (setting : Setting) : Option Expr → Except Fault (Option Worked)
  | none => .ok none
  | some inner => return some (← work setting inner)

def prepareQuery (setting : Setting) : Query → Except Fault Plan
  | .mk tables body order limit offset fetch => do
    let inner := addTables setting tables
    if fetch.isSome then throw unsupported
    let most ← workIn inner.withoutColumns limit
    let skipped ← workIn inner.withoutColumns offset
    let stage ← prepareBody inner body
    let keys ← keysOf inner stage 1 order
    let outputs ← stage.outputs
    return ⟨stage.columns, fun view => .ofExcept do
      let take ← most.mapM fun worked => do Plan.rowCount (← worked.value view)
      let drop ← skipped.mapM fun worked => do Plan.rowCount (← worked.value view)
      let found := outputs (Plan.Key.asked keys) view
      let rows ← if Plan.Key.areRead keys then pure (found.map Output.cells)
        else Rows.ofList <$> (found.all >>= Plan.orderBy keys)
      return rows.part take drop⟩

/-- The setting with common tables, each of which sees the ones before it. A table that is not used
is not looked into. -/
def addTables (setting : Setting) : List CommonTable → Setting
  | [] => setting
  | .mk name columns query :: rest =>
    let plan := do
      let inner ← prepareQuery setting query
      if columns.isEmpty then return inner
      else if columns.length = inner.columns.length then
        return { inner with
          columns := (inner.columns.zip columns).map fun (column, renamed) =>
            { column with name := renamed.value } }
      else throw (.engine .statement ("table " ++ name.value ++ " has " ++
        toString inner.columns.length ++ " values for " ++ toString columns.length ++ " columns"))
    addTables { setting with common := (name.value, plan) :: setting.common } rest

def prepareBody (setting : Setting) : Body → Except Fault Stage
  | .select isDistinct leading items sources views condition grouping sorting having windows => do
    if !(leading ++ views ++ sorting ++ windows).isEmpty then throw unsupported
    let equated := (condition.map equalities).getD []
    let joined ← joinAll { setting with equated := equated } none sources
    let level (aliases : List (String × Worked)) : Level := ⟨joined.fields, aliases⟩
    if sources.isEmpty && items.any fun | .all => true | _ => false then
      throw (.engine .statement "no tables specified")
    let shown ← showAll (setting.enter (level []) .allowed) joined.fields items
    let aliases := shown.filterMap fun item => item.label.map fun label => (label, item.worked)
    let values := shown.map Shown.worked
    let isSummed := anySummed values || !grouping.isEmpty
    if having.isSome && !isSummed then
      throw (.engine .statement "HAVING clause on a non-aggregate query")
    let kept ← workIn (setting.enter (level aliases) .allowed) having
    let wording := if isSummed then "misuse of aggregate: " else "misuse of aggregate function "
    let test ← workIn (setting.enter (level aliases) (.refused wording)) condition
    let rows ← joined.rows
    let isPlain :=
      match sources with
      | [.table _ _ _ _ _] => !isSummed
      | _ => false
    let keyShown := (shown.zipIdx.filter fun (item, _) => item.isKey).map (·.2)
    let last := (setting.enter (level aliases)
      (if isSummed then .allowed else .refused "misuse of aggregate: ")).alone
    let columns := shown.map fun item => ⟨item.name, item.worked.affinity⟩
    return ⟨columns, [columns.map ResultColumn.name], some last.scope,
      if isPlain then some keyShown else none, do
        let keys ← groupKeys last values 1 grouping
        if anySummed keys then
          throw (.engine .statement
            "aggregate functions are not allowed in the GROUP BY clause")
        return fun asked view =>
          let outputs := selected joined.fields rows test isSummed keys kept values asked view
          if isDistinct then { outputs with items := Plan.firstsBy Output.cells outputs.items }
          else outputs⟩
  | .nested query => do
    let plan ← prepareQuery setting query
    return ⟨plan.columns, [plan.columns.map ResultColumn.name], none, none,
      .ok fun _ view => (plan.rows view).map fun cells => ⟨view, cells⟩⟩
  | .values rows => do
    let all ← workRows setting rows
    let width := (all.head?.map List.length).getD 0
    if all.any fun row => row.length != width then
      throw (.engine .statement "all VALUES must have the same number of terms")
    let columns := (List.range width).map fun i => ⟨"column" ++ toString (i + 1), none⟩
    return ⟨columns, [columns.map ResultColumn.name], none, none, .ok fun _ view =>
      (Rows.ofList all).flatMap fun row => return [⟨view, ← valuesOf view row⟩]⟩
  | .combine operator all left right => do
    -- The last of the queries is settled first.
    let y ← prepareBody setting right
    let rights ← y.outputs
    let x ← prepareBody setting left
    let lefts ← x.outputs
    if x.columns.length != y.columns.length then
      let word :=
        match operator with
        | .union => if all then "UNION ALL" else "UNION"
        | .except => "EXCEPT"
        | .intersect => "INTERSECT"
      throw (.engine .statement ("SELECTs to the left and right of " ++ word ++
        " do not have the same number of result columns"))
    return ⟨x.columns, x.names ++ y.names, none, none, .ok fun asked view =>
      let combined := Plan.combine operator all ((lefts asked view).map Output.cells)
        ((rights asked view).map Output.cells)
      combined.map fun cells => ⟨view, cells⟩⟩
  | .table _ => .error unsupported
  | .insert _ _ _ _ _ => .error unsupported
  | .update _ _ _ _ _ _ => .error unsupported

def workRows (setting : Setting) : List Expr → Except Fault (List (List Worked))
  | [] => .ok []
  | .tuple items :: rest => return (← workAll setting items) :: (← workRows setting rest)
  | _ :: _ => .error unsupported

def showAll (setting : Setting) (fields : List Field) : List Item → Except Fault (List Shown)
  | [] => .ok []
  | .value expression label written :: rest => do
    let worked ← work setting expression
    let name := (label.map Sql.Name.value).getD
      ((declaredName? setting.scope expression).getD written)
    return ⟨name, label.map Sql.Name.value, worked, isTableKey fields expression⟩ ::
      (← showAll setting fields rest)
  | .all :: rest =>
    return starred fields (fun field => !field.isRepeated) ++ (← showAll setting fields rest)
  | .allOf path :: rest => do
    let source := (path.getLast?.map Sql.Name.value).getD ""
    let ofSource (field : Field) : Bool := Database.fold field.source == Database.fold source
    if fields.any ofSource then
      return starred fields ofSource ++ (← showAll setting fields rest)
    else throw (.engine .statement ("no such table: " ++ source))

/-- Settles the names in a source, which is joined to those in front of it. A comma binds as
strongly as a join, so the first source of a join goes with what stands in front of the comma. -/
def joinOne (setting : Setting) (before : Option Joined) : Source → Except Fault Joined
  | .table path arguments label _ _ =>
    if arguments.isEmpty then do beside setting before (← namedSource setting path label)
    else .error unsupported
  | .derived query label _ => do
    let plan ← prepareQuery setting query
    beside setting before (ofPlan plan ((label.map Sql.Name.value).getD ""))
  | .rows _ _ => .error unsupported
  | .join kind left right condition shared => do
    if kind = .foreign then throw unsupported
    let x ← joinOne setting before left
    let y ← joinOne setting none right
    join setting kind x y (shared.map Sql.Name.value) ((condition.map equalities).getD [])
      fun fields => workIn (setting.enter ⟨fields, []⟩ refused) condition
  | .grouped inner _ => do beside setting before (← joinOne setting none inner)

def joinAll (setting : Setting) (before : Option Joined) : List Source → Except Fault Joined
  | [] => .ok (before.getD unit)
  | head :: tail => do joinAll setting (some (← joinOne setting before head)) tail

/-- Settles the names in the terms of a grouping, where a whole number stands for an item. -/
def groupKeys (setting : Setting) (items : List Worked) (term : Nat) :
    List Expr → Except Fault (List Worked)
  | [] => .ok []
  | head :: tail => do
    let key ← match position? head with
      | some position => itemAt items "GROUP BY" term position
      | none => work setting head
    return key :: (← groupKeys setting items (term + 1) tail)

/-- Settles the names in the terms of an order. A term is an item by its alias or its position;
otherwise it is an expression, but only where the rows come from one selection. -/
def keysOf (setting : Setting) (stage : Stage) (term : Nat) :
    List OrderTerm → Except Fault (List Plan.Key)
  | [] => .ok []
  | .mk expression descending nullsFirst :: rest => do
    let keyOf (value : Output → Except Fault Cell) (sums : List (Option RowChoice))
        (isTableKey : Bool) : Plan.Key :=
      ⟨value, descending, nullsFirst.getD (!descending), sums, isTableKey⟩
    let shownAt (position : Nat) : Plan.Key :=
      keyOf (fun output => .ok ((output.cells[position]?).getD .null)) []
        ((stage.keyShown.getD []).contains position)
    let isNamed (name wanted : String) : Bool := Database.fold name == Database.fold wanted
    let named : Option Plan.Key :=
      match expression with
      | .column [name] _ =>
        match stage.scope with
        | some scope =>
          (scope.levels.head?.bind fun level => Scope.aliasOf? level name.value).bind fun _ =>
            (stage.columns.findIdx? fun column => isNamed column.name name.value).map shownAt
        | none =>
          (stage.names.findSome? fun names =>
            names.findIdx? fun shown => isNamed shown name.value).map shownAt
      | _ => none
    let key ← match named, position? expression with
      | some key, _ => pure key
      | none, some position =>
        let positions := List.range stage.columns.length
        pure (shownAt (← itemAt positions "ORDER BY" term position))
      | none, none =>
        match stage.scope with
        | some scope => do
          let worked ← work { setting with scope := scope } expression
          let fields := (scope.levels.head?.map Level.fields).getD []
          pure (keyOf (fun output => worked.value output.view) worked.sums
            (stage.keyShown.isSome && isTableKey fields expression))
        | none =>
          throw (.engine .statement (ordinal term ++
            " ORDER BY term does not match any column in the result set"))
    return key :: (← keysOf setting stage (term + 1) rest)

end

end GridReport.Store
