/-!
# Failures of identity lookups
-/

namespace AccessControl

inductive IdentityError where
  | userNotFound (user : String)
  | unavailable (text : String)
  | invalidResponse (text : String)
  | config (text : String)
deriving DecidableEq, Repr

namespace IdentityError

def message : IdentityError → String
  | .userNotFound user => "User not found: " ++ user
  | .unavailable text => "Identity provider unavailable: " ++ text
  | .invalidResponse text => "Invalid identity provider response: " ++ text
  | .config text => "Identity provider configuration error: " ++ text

end IdentityError

end AccessControl
