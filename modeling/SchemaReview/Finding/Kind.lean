import SchemaReview.Detector.Basic

/-!
# Finding.Kind — the kinds of schema-design defect

Each kind has a code, a hyphenated name and the detector that reports it.
-/

namespace SchemaReview

/-- How serious a finding is. -/
inductive Severity where
  | error
  | warning
  | info
deriving DecidableEq, Repr

/-- The word for a severity. -/
def Severity.name : Severity → String
  | .error => "error"
  | .warning => "warning"
  | .info => "info"

/-- Kinds of defect. -/
inductive FindingKind where
  /-- The same column name declared with different types. -/
  | conflictingColumnTypes
  /-- A default for a text column without quotes. -/
  | unquotedTextDefault
  /-- A default longer than the declared size. -/
  | textDefaultTooLong
  /-- A default for a number column that is no number. -/
  | nonNumericDefault
  /-- A column named with a reserved word. -/
  | reservedWordColumn
  /-- A primary key column that allows null values. -/
  | nullablePrimaryKey
  /-- An index with every primary key column and more. -/
  | indexCoversPrimaryKey
  /-- A non-unique index with every column of a unique constraint and more. -/
  | indexCoversUniqueKey
  /-- A unique index that repeats the primary key. -/
  | redundantUniqueIndex
  /-- A table that takes part in no foreign key. -/
  | tableWithoutRelations
  /-- A table without primary key, unique constraint or unique index. -/
  | missingPotentialKey
  /-- An index on a column that a check pins to one value. -/
  | indexOnConstantColumn
  /-- An index with every column of the primary key or a unique index and more. -/
  | indexSupersetOfKey
  /-- A surrogate primary key without an alternate key. -/
  | missingAlternateKey
  /-- A check with a single allowed value. -/
  | checkSingleValueIn
  /-- A check that a column is at least zero. -/
  | checkNonRestrictive
  /-- A check that is always true. -/
  | checkTautology
  /-- A check that is always false. -/
  | checkContradiction
  /-- Foreign keys that share columns but have different targets. -/
  | conflictingForeignKeys
  /-- The same column in several tables without a declared relation. -/
  | undefinedRelation
  /-- Two tables that reference each other. -/
  | overlappingRelations
  /-- A self-referencing column that forbids null values. -/
  | nonNullableSelfReference
  /-- A cycle of cascading deletes. -/
  | cascadeDeleteCycle
deriving DecidableEq, Repr

namespace FindingKind

/-- All kinds, in the order of their codes. -/
def all : List FindingKind :=
  [conflictingColumnTypes, unquotedTextDefault, textDefaultTooLong, nonNumericDefault,
    reservedWordColumn, nullablePrimaryKey, indexCoversPrimaryKey, indexCoversUniqueKey,
    redundantUniqueIndex, tableWithoutRelations, missingPotentialKey, indexOnConstantColumn,
    indexSupersetOfKey, missingAlternateKey, checkSingleValueIn, checkNonRestrictive,
    checkTautology, checkContradiction, conflictingForeignKeys, undefinedRelation,
    overlappingRelations, nonNullableSelfReference, cascadeDeleteCycle]

/-- The code of a kind. -/
def code : FindingKind → String
  | conflictingColumnTypes => "C001"
  | unquotedTextDefault => "C002"
  | textDefaultTooLong => "C003"
  | nonNumericDefault => "C004"
  | reservedWordColumn => "C005"
  | nullablePrimaryKey => "K001"
  | indexCoversPrimaryKey => "K002"
  | indexCoversUniqueKey => "K003"
  | redundantUniqueIndex => "K004"
  | tableWithoutRelations => "K005"
  | missingPotentialKey => "K006"
  | indexOnConstantColumn => "K007"
  | indexSupersetOfKey => "K008"
  | missingAlternateKey => "K009"
  | checkSingleValueIn => "K010"
  | checkNonRestrictive => "K011"
  | checkTautology => "K012"
  | checkContradiction => "K013"
  | conflictingForeignKeys => "K014"
  | undefinedRelation => "R001"
  | overlappingRelations => "R002"
  | nonNullableSelfReference => "R003"
  | cascadeDeleteCycle => "R004"

/-- The hyphenated name of a kind. -/
def name : FindingKind → String
  | conflictingColumnTypes => "conflicting-column-types"
  | unquotedTextDefault => "unquoted-text-default"
  | textDefaultTooLong => "text-default-too-long"
  | nonNumericDefault => "non-numeric-default"
  | reservedWordColumn => "reserved-word-column"
  | nullablePrimaryKey => "nullable-primary-key"
  | indexCoversPrimaryKey => "index-covers-primary-key"
  | indexCoversUniqueKey => "index-covers-unique-key"
  | redundantUniqueIndex => "redundant-unique-index"
  | tableWithoutRelations => "table-without-relations"
  | missingPotentialKey => "missing-potential-key"
  | indexOnConstantColumn => "index-on-constant-column"
  | indexSupersetOfKey => "index-superset-of-key"
  | missingAlternateKey => "missing-alternate-key"
  | checkSingleValueIn => "check-single-value-in"
  | checkNonRestrictive => "check-non-restrictive"
  | checkTautology => "check-tautology"
  | checkContradiction => "check-contradiction"
  | conflictingForeignKeys => "conflicting-foreign-keys"
  | undefinedRelation => "undefined-relation"
  | overlappingRelations => "overlapping-relations"
  | nonNullableSelfReference => "non-nullable-self-reference"
  | cascadeDeleteCycle => "cascade-delete-cycle"

/-- The name of a kind in camel case with a leading capital, as data formats write it. -/
def tag : FindingKind → String
  | conflictingColumnTypes => "ConflictingColumnTypes"
  | unquotedTextDefault => "UnquotedTextDefault"
  | textDefaultTooLong => "TextDefaultTooLong"
  | nonNumericDefault => "NonNumericDefault"
  | reservedWordColumn => "ReservedWordColumn"
  | nullablePrimaryKey => "NullablePrimaryKey"
  | indexCoversPrimaryKey => "IndexCoversPrimaryKey"
  | indexCoversUniqueKey => "IndexCoversUniqueKey"
  | redundantUniqueIndex => "RedundantUniqueIndex"
  | tableWithoutRelations => "TableWithoutRelations"
  | missingPotentialKey => "MissingPotentialKey"
  | indexOnConstantColumn => "IndexOnConstantColumn"
  | indexSupersetOfKey => "IndexSupersetOfKey"
  | missingAlternateKey => "MissingAlternateKey"
  | checkSingleValueIn => "CheckSingleValueIn"
  | checkNonRestrictive => "CheckNonRestrictive"
  | checkTautology => "CheckTautology"
  | checkContradiction => "CheckContradiction"
  | conflictingForeignKeys => "ConflictingForeignKeys"
  | undefinedRelation => "UndefinedRelation"
  | overlappingRelations => "OverlappingRelations"
  | nonNullableSelfReference => "NonNullableSelfReference"
  | cascadeDeleteCycle => "CascadeDeleteCycle"

/-- The detector that reports the kind. -/
def detector : FindingKind → Detector
  | conflictingColumnTypes => .conflictingTypes
  | unquotedTextDefault | textDefaultTooLong | nonNumericDefault => .defaultValueConflict
  | reservedWordColumn => .reservedWords
  | nullablePrimaryKey => .nullPrimaryKey
  | indexCoversPrimaryKey | indexCoversUniqueKey => .indexAnomalies
  | redundantUniqueIndex => .redundantUniqueIndex
  | tableWithoutRelations => .tablesWithoutRelations
  | missingPotentialKey => .missingPotentialKeys
  | indexOnConstantColumn | indexSupersetOfKey => .unnecessaryIndexes
  | missingAlternateKey => .wrongAlternateKey
  | checkSingleValueIn | checkNonRestrictive | checkTautology
  | checkContradiction => .unnecessaryCheckConstraints
  | conflictingForeignKeys => .unnecessaryForeignKeys
  | undefinedRelation => .undefinedRelations
  | overlappingRelations => .overlappingRelations
  | nonNullableSelfReference => .incorrectRecursiveRelation
  | cascadeDeleteCycle => .infiniteDeleteCascade

end FindingKind

end SchemaReview
