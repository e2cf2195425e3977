import Cookbook.Files.Matching
import Cookbook.Recipe.Apply

/-!
# Sites

A site is an application together with its configuration and the checkpoints of it. On disk, below
the root of the application, the directory of the site has the active configuration in `config` and
the log of checkpoints in `checkpoints`.

## Main definitions

* `Site`: an application with its configuration.
* `Site.open`: the site on disk.
* `Site.inMemory`: a site in memory with nothing installed.
-/

namespace Cookbook

namespace Schemas

/-- The names of schema files. -/
def filePattern : String := "*.schema.yml"

/-- Add the schemas of a file. -/
def addFile (fs : Files) (ss : Schemas) (path : Path) : Except Error Schemas :=
  match fs.readText path with
  | .error e => .error (.ofFile e)
  | .ok s =>
    match ss.add s with
    | (.ok (), ss) => .ok ss
    | (.error e, _) => .error (.config path.text e.message)

/-- Add the schemas of the files in a directory, in name order. The path of the directory is part of
a pattern, so a bracket or an asterisk in it does not stand for itself. -/
def addDirectory (fs : Files) (ss : Schemas) (dir : Path) : Except Error Schemas :=
  match fs.matching (dir.join filePattern).text with
  | .ok paths => paths.foldlM (addFile fs) ss
  | .error e => .error (.glob e)

/-- The schemas of the extensions. -/
def ofCatalog (fs : Files) (catalog : Catalog) : Except Error Schemas :=
  (catalog.values.filterMap (·.schemaDirectory fs)).foldlM (addDirectory fs) []

end Schemas

/-- An application with its configuration. -/
structure Site where
  /-- What recipes are applied with. -/
  app : Application
  /-- The configuration and its checkpoints. -/
  state : CheckpointStorage

namespace Site

/-- Where a site is when nothing is said: below the root of the application. -/
def defaultPath : String := "sites/default"

/-- The site with some extensions, a configuration and a log. -/
def ofParts (root : Path) (catalog : Catalog) (schemas : Schemas) (workspace : Workspace)
    (log : CheckpointLog) : Except Error Site := do
  let actions ← ActionRegistry.core catalog.entityTypes
  return { app := { root, catalog, actions, schemas }, state := { workspace, log } }

/-- The site on disk. It has to have a list of installed extensions. -/
def «open» (fs : Files) (root : Path) (sitePath : String) (now firstUuid : Nat) :
    Except Error Site := do
  let dir := root.join sitePath
  let config := dir.join "config"
  let active : Storage := .directory config
  if !(← active.holds fs none coreExtension) then
    throw (.config coreExtension (dir.text ++ " is not an installed site: " ++ config.text
      ++ " has no " ++ coreExtension ++ ".yml"))
  let catalog ← Catalog.discover fs root
  let schemas ← Schemas.ofCatalog fs catalog
  let log ← CheckpointLog.open fs (dir.join "checkpoints")
  ofParts root catalog schemas { files := fs, active, now, nextUuid := firstUuid } log

/-- The object that lists no extensions. -/
def nothingInstalled : ConfigObject := Mapping.ofNames [("module", .map []), ("theme", .map [])]

/-- A site in memory, with nothing installed. -/
def inMemory (fs : Files) (root : Path) (catalog : Catalog) : Except Error Site := do
  let active : Storage := .memory (Snapshot.ofList [(defaultCollection, coreExtension,
    nothingInstalled)])
  let schemas ← Schemas.ofCatalog fs catalog
  ofParts root catalog schemas { files := fs, active } {}

end Site

end Cookbook
