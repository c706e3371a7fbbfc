/-!
# RouterConfig — where files are kept

The standard places of the settings file and of the boot configuration follow from a few environment
variables: a base directory variable counts only if it names an absolute path; otherwise the
directory lies below the home directory, and without one below the current directory.
-/

namespace RouterConfig

/-- The values of environment variables. -/
abbrev Environment := String → Option String

/-- `name` inside the directory `base`. -/
def joinPath (base name : String) : String :=
  if base.isEmpty || base.toList.getLast? = some '/' then base ++ name else base ++ "/" ++ name

/-- Whether a path starts at the root of the file system. -/
def isAbsolutePath (path : String) : Bool := path.toList.head? = some '/'

namespace Locations

/-- The home directory, if one is set. -/
def home? (env : Environment) : Option String := (env "HOME").filter fun home => !home.isEmpty

/-- The directory of kind `variable`, which lies at `below` in the home directory unless set. -/
def baseDirectory (env : Environment) (variableName below : String) : String :=
  match (env variableName).filter isAbsolutePath with
  | some directory => directory
  | none =>
    match home? env with
    | some home => joinPath home below
    | none => ".routecfg"

/-- The settings file that is read when none is named (`default_settings_path`). -/
def settingsFile (env : Environment) : String :=
  joinPath (joinPath (baseDirectory env "XDG_CONFIG_HOME" ".config") "routecfg") "settings.toml"

/-- The boot configuration (`default_config_file`). -/
def bootFile (env : Environment) : String :=
  joinPath (joinPath (baseDirectory env "XDG_DATA_HOME" ".local/share") "routecfg") "config.boot"

end Locations

end RouterConfig
