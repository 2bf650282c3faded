import SchemaReview.Detector.TypeConflict
import SchemaReview.Detector.DefaultConflict
import SchemaReview.Detector.ReservedWord
import SchemaReview.Detector.NullableKey
import SchemaReview.Detector.Isolation
import SchemaReview.Detector.CandidateKey
import SchemaReview.Detector.IndexCover
import SchemaReview.Detector.UselessCheck
import SchemaReview.Detector.ForeignKeyConflict
import SchemaReview.Detector.UndefinedRelation
import SchemaReview.Detector.MutualReference
import SchemaReview.Detector.SelfReference
import SchemaReview.Detector.CascadeCycle

/-!
# Detector.Run — running one detector
-/

namespace SchemaReview

/-- The findings of a detector in a prepared source. -/
def Detector.find : Detector → Source → List Finding
  | conflictingTypes => typeConflicts
  | defaultValueConflict => defaultConflicts
  | reservedWords => reservedWordColumns
  | nullPrimaryKey => nullableKeys
  | indexAnomalies => SchemaReview.indexAnomalies
  | redundantUniqueIndex => redundantIndexes
  | tablesWithoutRelations => isolatedTables
  | missingPotentialKeys => missingKeys
  | unnecessaryIndexes => SchemaReview.unnecessaryIndexes
  | wrongAlternateKey => missingAlternates
  | unnecessaryCheckConstraints => uselessChecks
  | unnecessaryForeignKeys => foreignKeyConflicts
  | undefinedRelations => SchemaReview.undefinedRelations
  | overlappingRelations => mutualReferences
  | incorrectRecursiveRelation => selfReferences
  | infiniteDeleteCascade => cascadeCycles

/-- The findings of a detector in a script. -/
def Detector.run (d : Detector) (sql : String) : List Finding := d.find (Source.ofString sql)

end SchemaReview
