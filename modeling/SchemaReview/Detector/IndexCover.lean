import SchemaReview.Scope.TableKeys
import SchemaReview.Ddl.Index
import SchemaReview.Ddl.Check
import SchemaReview.Finding.Basic

/-!
# Detector.IndexCover — indexes that repeat or contain a key, or rest on a constant column

An index strictly covers a set of columns when it holds all of them and at least one more.
-/

namespace SchemaReview

/-- `inner` is a non-empty proper subset of `outer`; both are sorted sets. -/
def strictlyCovers (outer inner : List String) : Bool :=
  !inner.isEmpty && inner.all (outer.contains ·) && decide (inner.length < outer.length)

/-- Names joined by commas. -/
def listed (names : List String) : String := ", ".intercalate names

/-- The span of an index statement. -/
def Source.indexSpan (s : Source) (i : Index) : Span := s.spanAt i.offset 0

/-! ### Indexes against declared keys -/

/-- The finding for an index that contains the primary key and more. -/
def coversPrimaryKey (s : Source) (t : TableKeys) (i : Index) : Finding :=
  let span := s.indexSpan i
  Finding.new .warning .indexCoversPrimaryKey
      (s!"Index '{i.name}' on table '{t.name}' (line {i.line}) " ++
        "contains every primary key column and more")
    |>.withSpan span
    |>.withNote ("index columns: " ++ listed i.columns) span
    |>.withNote ("primary key columns: " ++ listed t.primaryKey) span
    |>.withTable t.name
    |>.withIndex i.name
    |>.withColumns i.columns
    |>.withHelp s!"Make index '{i.name}' unique or review the primary key columns"

/-- The finding for an index that contains a unique key and more. -/
def coversUniqueKey (s : Source) (t : TableKeys) (i : Index) (u : UniqueKey) : Finding :=
  let span := s.indexSpan i
  let columns := listed u.columns
  Finding.new .warning .indexCoversUniqueKey
      (s!"Index '{i.name}' on table '{t.name}' (line {i.line}) " ++
        s!"contains every column of UNIQUE ({columns}) and more")
    |>.withSpan span
    |>.withNote ("index columns: " ++ listed i.columns) span
    |>.withTable t.name
    |>.withIndex i.name
    |>.withColumns i.columns
    |>.withHelp s!"Declare index '{i.name}' as UNIQUE"

/-- The findings for one index on a table with the given keys. -/
def indexAnomaly (s : Source) (t : TableKeys) (i : Index) : List Finding :=
  let columns := sortedSet i.columns
  (if strictlyCovers columns (sortedSet t.primaryKey) then [coversPrimaryKey s t i] else []) ++
  (if i.unique then []
    else (t.uniques.filter fun u => strictlyCovers columns (sortedSet u.columns)).map
      (coversUniqueKey s t i))

/-- Indexes that contain the primary key and more, and non-unique indexes that contain a unique key
and more. -/
def indexAnomalies (s : Source) : List Finding :=
  let keys := s.tableKeys
  s.indexes.flatMap fun i =>
    match Source.keysFor? keys i.tableKey with
    | some t => indexAnomaly s t i
    | none => []

/-- The finding for a unique index that repeats the primary key. -/
def redundantIndex (s : Source) (t : TableKeys) (i : Index) : Finding :=
  let span := s.indexSpan i
  let primary := sortedSet t.primaryKey
  Finding.new .warning .redundantUniqueIndex
      s!"Unique index '{i.name}' on table '{t.name}' (line {i.line}) duplicates the primary key"
    |>.withSpan span
    |>.withNote ("primary key columns: " ++ listed primary) span
    |>.withNote ("index columns: " ++ listed i.columns) span
    |>.withTable t.name
    |>.withIndex i.name
    |>.withColumns primary
    |>.withHelp "Drop this index or redefine it"

/-- Unique indexes whose columns are exactly the primary key. -/
def redundantIndexes (s : Source) : List Finding :=
  let keys := s.tableKeys
  (s.indexes.filter (·.unique)).filterMap fun i =>
    match Source.keysFor? keys i.tableKey with
    | some t =>
      if !t.primaryKey.isEmpty && decide (sortedSet i.columns = sortedSet t.primaryKey) then
        some (redundantIndex s t i)
      else none
    | none => none

/-! ### Indexes that cannot help -/

/-- A column that a check pins to one value. -/
structure ConstantColumn where
  tableKey : String
  columnKey : String
  line : Nat
deriving DecidableEq, Repr

/-- The columns that checks pin to one value. -/
def Source.constantColumns (s : Source) : List ConstantColumn :=
  s.items.flatMap fun item =>
    (checks item.piece.text).filterMap fun check =>
      (constantColumn? check.expression).map fun column =>
        ⟨item.table.key, nameKey column, s.lineOf (item.piece.offset + check.offset)⟩

/-- The finding for an index on a constant column. -/
def constantIndex (s : Source) (c : ConstantColumn) (i : Index) : Finding :=
  Finding.new .warning .indexOnConstantColumn
      (s!"Index '{i.name}' on table '{i.table}' (line {i.line}) contains column " ++
        s!"'{c.columnKey}', which CHECK pins to a single value (line {c.line})")
    |>.withSpan (s.indexSpan i)
    |>.withTable i.table
    |>.withIndex i.name
    |>.withColumns [c.columnKey]
    |>.withHelp "Drop this index; it is ineffective on a constant column"

/-- The keys that an index on the table should not contain: the primary key, then the unique
indexes, each with its name and column set. -/
def coveringBases (keys : List TableKeys) (indexes : List Index) (tableKey : String) :
    List (String × List String) :=
  (match Source.keysFor? keys tableKey with
    | some t => if t.primaryKey.isEmpty then [] else [("PRIMARY KEY", sortedSet t.primaryKey)]
    | none => []) ++
  (indexes.filter fun i => i.unique && decide (i.tableKey = tableKey)).map fun i =>
    ("UNIQUE INDEX " ++ i.name, sortedSet i.columns)

/-- The finding for an index that contains a key and more. -/
def supersetIndex (s : Source) (i : Index) (base : String × List String) : Finding :=
  let extra := i.columns.filter fun c => !base.2.contains c
  Finding.new .warning .indexSupersetOfKey
      (s!"Index '{i.name}' on table '{i.table}' (line {i.line}) contains every column of " ++
        base.1 ++ " (" ++ listed base.2 ++ ") plus " ++ listed extra)
    |>.withSpan (s.indexSpan i)
    |>.withTable i.table
    |>.withIndex i.name
    |>.withColumns i.columns
    |>.withHelp "Drop this index, or make it unique if the extra ordering is really needed"

/-- Indexes on a constant column, and indexes that contain the primary key or a unique index and
more. -/
def unnecessaryIndexes (s : Source) : List Finding :=
  let keys := s.tableKeys
  let indexes := s.indexes
  (s.constantColumns.flatMap fun c =>
    (indexes.filter fun i => decide (i.tableKey = c.tableKey) && i.columns.contains c.columnKey).map
      (constantIndex s c)) ++
  indexes.filterMap fun i =>
    ((coveringBases keys indexes i.tableKey).find? fun base =>
      strictlyCovers (sortedSet i.columns) base.2).map (supersetIndex s i)

end SchemaReview
