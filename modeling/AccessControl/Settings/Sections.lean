import AccessControl.DataSource.Config
import AccessControl.Identity.Config
import AccessControl.Permission.Config
import AccessControl.Settings.Basic

/-!
# Sections of the settings

The settings of the permission store are standard where they are left out, and valid once they are
loaded. Data sources are a list, empty by default.
-/

namespace AccessControl

def PermissionConfig.ofValue? : Json → Option PermissionConfig :=
  Settings.record? PermissionConfig.fields PermissionConfig.ofScalars

def IdentityConfig.ofValue? : Json → Option IdentityConfig :=
  Settings.record? IdentityConfig.fields IdentityConfig.ofScalars

def DataSourceConfig.ofValue? : Json → Option DataSourceConfig :=
  Settings.record? DataSourceConfig.fields DataSourceConfig.ofScalars

namespace Settings

def permissionsAt (s : Settings) (path : String) : Except SettingsError PermissionConfig :=
  s.get path PermissionConfig.ofValue?

def permissions (s : Settings) : Except SettingsError PermissionConfig :=
  (s.getOr PermissionConfig.sectionKey PermissionConfig.standard PermissionConfig.ofValue?).bind
    PermissionConfig.validate

def dataSourcesAt (s : Settings) (path : String) : Except SettingsError (List DataSourceConfig) :=
  s.getOr path [] (list? DataSourceConfig.ofValue?)

def dataSources (s : Settings) : Except SettingsError (List DataSourceConfig) :=
  s.dataSourcesAt DataSourceConfig.sectionKey

def identityAt (s : Settings) (path : String) : Except SettingsError IdentityConfig :=
  s.get path IdentityConfig.ofValue?

def identityOrStandardAt (s : Settings) (path : String) : Except SettingsError IdentityConfig :=
  s.getOr path IdentityConfig.standard IdentityConfig.ofValue?

def identity? (s : Settings) : Except SettingsError (Option IdentityConfig) :=
  if s.contains IdentityConfig.sectionKey then (s.identityAt IdentityConfig.sectionKey).map some
  else .ok none

end Settings

end AccessControl
