/-
Questbook.Config — what the program is told by its surroundings.

The asset root is the folder that holds the quests. An environment variable
names it, or it is the first of some usual folders that is there. A
configuration file, by default in the asset root, may name another root, name
quests to be read at the start, and make checks strict. Every field of it may
be left out, and a file that cannot be used is as good as none.

A relative asset root is seen from the folder of the configuration file. This
goes for the root that stands in for a missing field as well.
-/
import Questbook.Disk
import Questbook.Notice
import Questbook.Path
import Questbook.Toml.Document
import Questbook.Unicode.Space

namespace Questbook

/-! ## 1. The asset root -/

/-- What the program finds when it starts. -/
structure Surroundings where
  /-- The value of the environment variable for the asset root, if it is set. -/
  assetRoot? : Option String := none
  /-- The path of the running program, if it is known. -/
  program? : Option String := none

namespace Surroundings

/-- The asset root if no usual folder is there. -/
def lastResort : String := "assets"

/-- The usual folders for assets, in the order in which they are tried: those
of a development tree, then those beside the program and above it. -/
def usualRoots (s : Surroundings) : List String :=
  let beside := s.program?.bind Path.parent?
  let above := beside.bind Path.parent?
  ["quest_engine/assets", "assets"] ++
    ([beside, above].filterMap id).map (Path.join · "assets")

variable {m : Type → Type} [Monad m]

/-- The first of the paths that is a folder. -/
def firstFolder (disk : Disk m) : List String → m (Option String)
  | [] => pure none
  | path :: paths => do
    if ← disk.isFolder path then return some path else firstFolder disk paths

/-- The asset root before any configuration is read. -/
def detectRoot (disk : Disk m) (s : Surroundings) : m String := do
  match s.assetRoot?.filter fun root => !Unicode.isBlankText root with
  | some root => return root
  | none => return (← firstFolder disk s.usualRoots).getD lastResort

end Surroundings

/-! ## 2. Configurations -/

/-- A configuration. -/
structure Config where
  /-- The folder that holds the folder of quests. -/
  assetRoot : String
  /-- The quests to be read at the start. -/
  preload : List String := []
  /-- Oddities of a quest count as failures. -/
  strict : Bool := false
deriving DecidableEq, Repr

/-- Why a configuration file cannot be used. The cause is in the words of those
who found it. -/
inductive ConfigError where
  | unreadable (path cause : String)
  | malformed (path cause : String)
deriving DecidableEq, Repr

namespace ConfigError

/-- The error in words, without its cause. -/
def message : ConfigError → String
  | .unreadable path _ => s!"reading engine config from '{path}'"
  | .malformed path _ => s!"parsing engine config from '{path}'"

/-- What caused the error. -/
def cause : ConfigError → String
  | .unreadable _ cause | .malformed _ cause => cause

/-- The error in words, and what caused it. -/
def describe (e : ConfigError) : String :=
  s!"{e.message}: {e.cause}"

end ConfigError

namespace Config

/-- The name of a configuration file in an asset root. -/
def fileName : String := "quest_engine.toml"

/-- The path of the configuration file of an asset root. -/
def defaultPath (assetRoot : String) : String :=
  Path.join assetRoot fileName

/-- The configuration without a file. -/
def default (assetRoot : String) : Config :=
  { assetRoot }

/-- A field of a file, or its default when the file leaves it out. -/
def field {α : Type} (entries : Toml.Entries) (key : String) (default : α)
    (read : Toml.Value → Option α) : Option α :=
  match entries.lookup key with
  | none => some default
  | some value => read value

/-- The string that a value is. -/
def string? : Toml.Value → Option String
  | .string s => some s
  | _ => none

/-- The strings in an array. -/
def strings? : Toml.Value → Option (List String)
  | .array items => items.mapM string?
  | _ => none

/-- The truth value that a value is. -/
def boolean? : Toml.Value → Option Bool
  | .boolean b => some b
  | _ => none

/-- The configuration that a file describes, where `default` has the fields
that are left out. -/
def ofToml? (default : Config) (entries : Toml.Entries) : Option Config := do
  let assetRoot ← field entries "asset_root" default.assetRoot string?
  let preload ← field entries "preload" default.preload strings?
  let strict ← field entries "strict" default.strict boolean?
  return { assetRoot, preload, strict }

/-- The configuration with a relative asset root seen from the folder of the
file at `path`. -/
def relativeTo (path : String) (config : Config) : Config :=
  if Path.isAbsolute config.assetRoot then config
  else
    match Path.parent? path with
    | some folder => { config with assetRoot := Path.join folder config.assetRoot }
    | none => config

/-- The configuration that the text of the file at `path` describes. -/
def ofText? (assetRoot path text : String) : Option Config :=
  ((Toml.parse? text).bind (ofToml? (default assetRoot))).map (relativeTo path)

variable {m : Type → Type} [Monad m]

/-- The configuration of the file at `path`, where `assetRoot` is the root
that was detected. -/
def read (disk : Disk m) (assetRoot path : String) : m (Except ConfigError Config) := do
  match ← disk.read path with
  | .found text =>
    match ofText? assetRoot path text with
    | some config => return .ok config
    | none => return .error (.malformed path (← disk.explain (.malformed text)))
  | .missing | .unreadable =>
    return .error (.unreadable path (← disk.explain (.reading path)))

/-- The configuration of the file at `path`, or the default if the file cannot
be used, and what the log is told. -/
def load (disk : Disk m) (assetRoot path : String) : m (Config × Notice) := do
  match ← read disk assetRoot path with
  | .ok config => return (config, .configLoaded path config.assetRoot)
  | .error e => return (default assetRoot, .configIgnored path e.describe)

end Config

end Questbook
