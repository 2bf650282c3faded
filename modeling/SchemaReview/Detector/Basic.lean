import SchemaReview.Text.Basic

/-!
# Detector.Basic — the fixed set of detectors and their groups

Every detector has a stable identifier.  Detectors and groups can be named in several spellings:
with hyphens, low lines or spaces between the words, in camel case, or in capitals.
-/

namespace SchemaReview

/-- Groups of detectors. -/
inductive DetectorGroup where
  | columnModeling
  | indexesAndConstraints
  | relationModeling
deriving DecidableEq, Repr

/-- The detectors. -/
inductive Detector where
  | conflictingTypes
  | defaultValueConflict
  | reservedWords
  | nullPrimaryKey
  | indexAnomalies
  | redundantUniqueIndex
  | tablesWithoutRelations
  | missingPotentialKeys
  | unnecessaryIndexes
  | wrongAlternateKey
  | unnecessaryCheckConstraints
  | unnecessaryForeignKeys
  | undefinedRelations
  | overlappingRelations
  | incorrectRecursiveRelation
  | infiniteDeleteCascade
deriving DecidableEq, Repr

namespace Detector

/-- All detectors, in the order in which they are listed and run. -/
def all : List Detector :=
  [conflictingTypes, defaultValueConflict, reservedWords, nullPrimaryKey, indexAnomalies,
    redundantUniqueIndex, tablesWithoutRelations, missingPotentialKeys, unnecessaryIndexes,
    wrongAlternateKey, unnecessaryCheckConstraints, unnecessaryForeignKeys, undefinedRelations,
    overlappingRelations, incorrectRecursiveRelation, infiniteDeleteCascade]

/-- The stable identifier. -/
def id : Detector → String
  | conflictingTypes => "conflicting_types"
  | defaultValueConflict => "default_value_conflict"
  | reservedWords => "reserved_words"
  | nullPrimaryKey => "null_primary_key"
  | indexAnomalies => "index_anomalies"
  | redundantUniqueIndex => "redundant_unique_index"
  | tablesWithoutRelations => "tables_without_relations"
  | missingPotentialKeys => "missing_potential_keys"
  | unnecessaryIndexes => "unnecessary_indexes"
  | wrongAlternateKey => "wrong_alternate_key"
  | unnecessaryCheckConstraints => "unnecessary_check_constraints"
  | unnecessaryForeignKeys => "unnecessary_foreign_keys"
  | undefinedRelations => "undefined_relations"
  | overlappingRelations => "overlapping_relations"
  | incorrectRecursiveRelation => "incorrect_recursive_relation"
  | infiniteDeleteCascade => "infinite_delete_cascade"

/-- The group of a detector. -/
def group : Detector → DetectorGroup
  | conflictingTypes | defaultValueConflict | reservedWords => .columnModeling
  | undefinedRelations | overlappingRelations | incorrectRecursiveRelation
  | infiniteDeleteCascade => .relationModeling
  | nullPrimaryKey | indexAnomalies | redundantUniqueIndex | tablesWithoutRelations
  | missingPotentialKeys | unnecessaryIndexes | wrongAlternateKey | unnecessaryCheckConstraints
  | unnecessaryForeignKeys => .indexesAndConstraints

/-- What the detector looks for, in one line. -/
def description : Detector → String
  | conflictingTypes => "Same column name declared with different types"
  | defaultValueConflict => "DEFAULT value that does not fit the column type"
  | reservedWords => "Column named with an ANSI SQL reserved word"
  | nullPrimaryKey => "PRIMARY KEY column that allows NULL"
  | indexAnomalies => "Index containing the primary key or a unique key plus more"
  | redundantUniqueIndex => "UNIQUE INDEX duplicating the primary key"
  | tablesWithoutRelations => "Table taking part in no foreign key"
  | missingPotentialKeys => "Table without PRIMARY KEY, UNIQUE or UNIQUE INDEX"
  | unnecessaryIndexes => "Index on a constant column or covering a key"
  | wrongAlternateKey => "Surrogate primary key without an alternate key"
  | unnecessaryCheckConstraints => "CHECK that is useless, trivial or contradictory"
  | unnecessaryForeignKeys => "Foreign keys sharing columns with different targets"
  | undefinedRelations => "Same column in several tables without a foreign key"
  | overlappingRelations => "Two tables referencing each other"
  | incorrectRecursiveRelation => "Self-reference through a NOT NULL column"
  | infiniteDeleteCascade => "Cycle of ON DELETE CASCADE foreign keys"

end Detector

namespace DetectorGroup

/-- All groups, in the order in which they are listed. -/
def all : List DetectorGroup := [columnModeling, indexesAndConstraints, relationModeling]

/-- The short name. -/
def name : DetectorGroup → String
  | columnModeling => "columns"
  | indexesAndConstraints => "keys"
  | relationModeling => "relations"

/-- The long name in words joined by low lines. -/
def longName : DetectorGroup → String
  | columnModeling => "column_modeling"
  | indexesAndConstraints => "indexes_and_constraints"
  | relationModeling => "relation_modeling"

/-- The heading under which the detectors of the group are listed. -/
def title : DetectorGroup → String
  | columnModeling => "Column modeling"
  | indexesAndConstraints => "Indexes and constraints"
  | relationModeling => "Relation modeling"

/-- The detectors of the group. -/
def detectors (g : DetectorGroup) : List Detector := Detector.all.filter fun d => d.group = g

end DetectorGroup

/-! ### Reading names -/

/-- Why a selection of detectors cannot be made. -/
inductive SelectionError where
  | unknownDetector (name : String)
  | unknownGroup (name : String)
deriving DecidableEq, Repr

/-- The wording of a selection error. -/
def SelectionError.message : SelectionError → String
  | .unknownDetector name =>
    "unknown detector '" ++ name ++ "'. Run \x60ddlcheck list\x60 to see the available detectors"
  | .unknownGroup name =>
    "unknown detector group '" ++ name ++ "'. Expected one of: columns, keys, relations"

/-- Lower case words joined by low lines, where `wordOpen` says that the character before was a
small letter or a digit.  A hyphen, low line or space becomes a low line, and a capital inside a
word begins a new one. -/
def snakeCaseFrom (wordOpen : Bool) : Text → Text
  | [] => []
  | c :: cs =>
    if c = '-' ∨ c = '_' ∨ c = ' ' then '_' :: snakeCaseFrom false cs
    else if c.isUpper then
      if wordOpen then '_' :: c.toLower :: snakeCaseFrom false cs
      else c.toLower :: snakeCaseFrom false cs
    else c :: snakeCaseFrom (c.isLower || isAsciiDigit c) cs

/-- The spelling of a name by which detectors and groups are found. -/
def snakeCase (name : String) : String :=
  String.ofList (snakeCaseFrom false (Text.trim name.toList))

/-- The detector with the given name. -/
def Detector.ofName (name : String) : Except SelectionError Detector :=
  match Detector.all.find? fun d => d.id = snakeCase name with
  | some d => .ok d
  | none => .error (.unknownDetector name)

/-- The group with the given short or long name. -/
def DetectorGroup.ofName (name : String) : Except SelectionError DetectorGroup :=
  match DetectorGroup.all.find? fun g =>
      g.name = snakeCase name ∨ g.longName = snakeCase name with
  | some g => .ok g
  | none => .error (.unknownGroup name)

end SchemaReview
