import Cookbook.EntityType
import Cookbook.Storage.Basic
import Cookbook.Text.Blank

/-!
# Extensions

Modules and themes are the units that can be installed on a site. An extension on disk is a
directory with a file `<name>.info.yml`; below it, `config/install` holds its default configuration
and `config/schema` its schemas.

## Main definitions

* `Extension`: a module or theme, what it requires and what it brings.
* `Extension.dependencyName`: the extension that a dependency names.
* `Extension.ofInfoFile`: read an extension from its directory.
* `Catalog`, `Catalog.discover`: the extensions there are.
-/

namespace Cookbook

/-- The object that lists the installed extensions. -/
def coreExtension : String := "core.extension"

/-- The two kinds of extensions. -/
inductive ExtensionKind where
  /-- A module. -/
  | module
  /-- A theme. -/
  | theme
  deriving DecidableEq, Repr

/-- The word for a kind, in info files and as a key. -/
def ExtensionKind.word : ExtensionKind → String
  | module => "module"
  | theme => "theme"

/-- A module or theme. -/
structure Extension where
  /-- Its machine name. -/
  name : String
  /-- Its name for people. -/
  label : String := name
  /-- Whether it is a module or a theme. -/
  kind : ExtensionKind
  /-- The machine names of the extensions it depends on. -/
  dependencies : List String := []
  /-- The theme it builds on. -/
  baseTheme : Option String := none
  /-- The entity types it provides: stems by id. -/
  entityTypes : NameMap String := NameMap.empty
  /-- Its directory, if it has one. -/
  path : Option Path := none
  /-- Its default configuration. -/
  defaults : Storage := .null

namespace Extension

/-- The machine name in a dependency: what follows the first colon, up to white space or a
parenthesis. -/
def dependencyName (dependency : String) : String :=
  let name := match Text.splitOnce? ':' dependency with
    | some (_, name) => name
    | none => dependency
  String.ofList (name.toList.takeWhile (fun c => !Text.isWhite c && c != '('))

/-- Every extension that has to be installed before this one. -/
def requirements (x : Extension) : List String := x.dependencies ++ x.baseTheme.toList

/-- The directory of its schemas. -/
def schemaDirectory (fs : Files) (x : Extension) : Option Path :=
  match x.path with
  | none => none
  | some p =>
    let dir := (p.join "config").join "schema"
    if fs.isDir dir then some dir else none

/-! ### Info files -/

/-- How the names of info files end. -/
def infoEnding : String := ".info.yml"

/-- The fields of an info file. -/
def infoFields : List String :=
  ["name", "type", "dependencies", "base theme", "config_entity_types"]

/-- What an info file says about the extension of a machine name. -/
def decodeInfo (name : String) (n : Yaml.Node) : Yaml.DecodeM Extension := do
  let es ← Yaml.DecodeM.record infoFields n
  let stem (n : Yaml.Node) : Yaml.DecodeM String := do
    Yaml.DecodeM.field (← Yaml.DecodeM.record ["prefix"] n) "prefix" Yaml.DecodeM.text
  let label ← Yaml.DecodeM.field es "name" Yaml.DecodeM.text
  let kind ← Yaml.DecodeM.field es "type"
    (Yaml.DecodeM.word [("module", ExtensionKind.module), ("theme", ExtensionKind.theme)])
  let dependencies ← Yaml.DecodeM.field? es "dependencies" (Yaml.DecodeM.list Yaml.DecodeM.text)
  let baseTheme ← Yaml.DecodeM.field? es "base theme" (Yaml.DecodeM.optional Yaml.DecodeM.text)
  let entityTypes ← Yaml.DecodeM.field? es "config_entity_types" (Yaml.DecodeM.nameMap stem)
  return {
    name, label, kind
    dependencies := (dependencies.getD []).map dependencyName
    baseTheme := baseTheme.join
    entityTypes := entityTypes.getD NameMap.empty }

/-- Read an extension from its info file. -/
def ofInfoFile (fs : Files) (info : Path) : Except Error Extension :=
  match Text.stripEnd? infoEnding (info.fileName?.getD "") with
  | none => .error (.config info.text ("extension info files must end in " ++ infoEnding))
  | some name =>
    match fs.readText info with
    | .error e => .error (.ofFile e)
    | .ok s =>
      match Yaml.readAs (decodeInfo name) s with
      | .error e => .error (.config info.text e.message)
      | .ok x =>
        let dir := info.parent?.getD ⟨""⟩
        let install := (dir.join "config").join "install"
        .ok { x with
          path := some dir
          defaults := if fs.isDir install then .directory install else .null }

end Extension

/-! ### Catalogs -/

/-- The extensions there are, by machine name. -/
abbrev Catalog := NameMap Extension

namespace Catalog

/-- Where extensions are looked for below the root of an application, the first place first. -/
def places : List String := ["core/modules", "core/themes", "modules", "themes"]

/-- The info files below a directory, in order. -/
def infoFiles (fs : Files) (dir : Path) : List Path :=
  if fs.isDir dir then
    (fs.walk dir).filterMap fun (p, t) =>
      if t.isFile && (p.fileName?).any (Text.hasEnd Extension.infoEnding) then some p else none
  else []

/-- The extensions below the root of an application; the first one of a name counts. -/
def discover (fs : Files) (root : Path) : Except Error Catalog := do
  let files := places.flatMap fun place => infoFiles fs (root.join place)
  files.foldlM (fun found file => do
    let x ← Extension.ofInfoFile fs file
    return if found.contains x.name then found else found.insert x.name x) NameMap.empty

/-- The entity types of all extensions, in name order of the extensions. -/
def entityTypes (catalog : Catalog) : EntityTypes :=
  catalog.values.foldl (fun ts x =>
    x.entityTypes.entries.foldl (fun ts e => ts.register ⟨e.1, e.2, x.name⟩) ts) NameMap.empty

end Catalog

end Cookbook
