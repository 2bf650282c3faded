/-!
# Program — the name and version under which the program reports
-/

namespace SchemaReview

/-- The name of the program. -/
def programName : String := "ddlcheck"

/-- The version of the program. -/
def programVersion : String := "0.1.0-alpha.1"

end SchemaReview
