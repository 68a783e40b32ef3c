import Stencil.Config.Environment
import Stencil.Config.Files
import Stencil.Config.Record
import Stencil.Data.Json
import Stencil.Data.Yaml

/-!
# Loading configurations

A configuration file is read by its extension.  `loadConfig` takes the environment's
settings, or those of a configuration file if there is one, and lays overrides over them.
-/

namespace Stencil

/-- What keeps a configuration file from being read. -/
inductive ConfigError where
  | notFound (path : String)
  /-- A directory is in the place of the file. -/
  | isDirectory
  /-- No reader is known for the file's extension. -/
  | unsupported (extension : String)
  /-- The file is not the text that its extension promises. -/
  | malformed
deriving DecidableEq

namespace ConfigError

/-- The message of an error; a directory and a malformed text have none. -/
def message? : ConfigError → Option String
  | .notFound path => some ("Config file not found: " ++ path)
  | .unsupported extension => some ("Unsupported config file format: " ++ extension)
  | .isDirectory | .malformed => none

end ConfigError

/-- The fields of the record in a text in the format of an extension. -/
def Data.fieldsOfText (extension : List Char) (text : String) :
    Except ConfigError (Keyed Data) :=
  if extension = ".json".toList then
    match Json.read? text with
    | some d => .ok d.allFields
    | none => .error .malformed
  else if extension = ".yaml".toList ∨ extension = ".yml".toList then
    .ok (Yaml.read text)
  else .error (.unsupported (String.ofList extension))

/-- The fields of the record in a file. -/
def Files.fields (files : Files) (path : String) : Except ConfigError (Keyed Data) :=
  match files.item? path with
  | some (.file text) => Data.fieldsOfText (SmallLetter.ofChars (extensionOf path)) text
  | some .directory => .error .isDirectory
  | none => .error (.notFound path)

/-- The configuration of a file.  It is a full one: what the file leaves out is default. -/
def Config.ofFile (files : Files) (path : String) : Except ConfigError Config :=
  (files.fields path).map ofFields

/-- The names of the configuration files that are looked for, in order. -/
def defaultConfigFiles : List String :=
  ["nodeplate.config.json", "nodeplate.config.yaml", "nodeplate.config.yml"]

/-- How a configuration is to be loaded. -/
structure LoadOptions where
  configFile : Option String
  directory : Option String
  overrides : PartialConfig

namespace LoadOptions

/-- The path of a file in the directory, with the steps up and down taken off. -/
def pathOf (o : LoadOptions) (name : String) : String :=
  let directory := o.directory.getD ""
  let root := directory.toList.takeWhile (· == '/')
  String.ofList
    (root.take 1 ++ (['/'] : List Char).intercalate (plainPath (directory ++ "/" ++ name)))

/-- The configuration file to read, if there is one: the one asked for, or else the first
of the default names that is in the directory. -/
def file? (o : LoadOptions) (files : Files) : Option String :=
  match o.configFile with
  | some path => if path.isEmpty then found else some path
  | none => found
where
  /-- The first of the default names that is in the directory. -/
  found : Option String :=
    (defaultConfigFiles.map o.pathOf).find? fun path => (files.item? path).isSome

end LoadOptions

/-- The configuration of a file if there is one, else of the environment, with the overrides
laid over it. -/
def loadConfig (env : Environment) (files : Files) (o : LoadOptions) :
    Except ConfigError Config :=
  match o.file? files with
  | some path => (Config.ofFile files path).map (·.override o.overrides)
  | none => .ok ((Config.ofEnvironment env defaultStem).override o.overrides)

end Stencil
