/-!
# Failures of settings
-/

namespace AccessControl

inductive SettingsError where
  | sourceNotFound (path : String)
  | unsupportedFormat (path : String)
  | parse
  | validation (text : String)
deriving DecidableEq, Repr

namespace SettingsError

def message : SettingsError → String
  | .sourceNotFound path => "Configuration source not found: " ++ path
  | .unsupportedFormat path => "Unsupported configuration format: " ++ path
  | .parse => "Configuration parsing failed"
  | .validation text => "Configuration validation failed: " ++ text

end SettingsError

end AccessControl
