/-!
# Failures of data sources
-/

namespace AccessControl

inductive DatabaseError where
  | connectionFailed (name text : String)
  | queryFailed (text : String)
  | notFound (name : String)
  | duplicate (name : String)
deriving DecidableEq, Repr

namespace DatabaseError

def message : DatabaseError → String
  | .connectionFailed name text => "Connection failed: " ++ name ++ ": " ++ text
  | .queryFailed text => "Query failed: " ++ text
  | .notFound name => "Data source not found: " ++ name
  | .duplicate name => "Data source already registered: " ++ name

end DatabaseError

end AccessControl
