import AccessControl.Identity.Error
import AccessControl.Permission.Error
import AccessControl.Settings.Error

/-!
# Failures of an authority
-/

namespace AccessControl

inductive AuthorityError where
  | store (e : StoreError)
  | roleResolution (user : String) (e : IdentityError)
  | configuration (text : String)
deriving DecidableEq, Repr

namespace AuthorityError

def message : AuthorityError → String
  | .store e => e.message
  | .roleResolution user e => "Failed getting roles of user " ++ user ++ ": " ++ e.message
  | .configuration text => "Configuration error: " ++ text

def ofSettings (e : SettingsError) : AuthorityError := .configuration e.message

end AuthorityError

end AccessControl
