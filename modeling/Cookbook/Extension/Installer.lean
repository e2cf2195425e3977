import Cookbook.Extension.Basic
import Cookbook.Storage.DependencyOrder
import Cookbook.Workspace

/-!
# Installing extensions

What is installed is kept in the configuration alone: the object `core.extension` lists the modules
and the themes. So whatever brings back an earlier configuration brings back what was installed.

Installing an extension brings its default configuration, except for objects that are there.
Uninstalling it deletes the objects it owns: those named after it and those that depend on it.

## Main definitions

* `Storage.installedExtensions`: what a storage lists as installed.
* `Catalog.installOrder`: extensions with all they require, in the order of installing them.
* `Catalog.install`, `Catalog.uninstall`: the two changes.
-/

namespace Cookbook

/-- The names an object lists as installed extensions of a kind, with what stands beside them. -/
def ConfigObject.extensionList (o : ConfigObject) (kind : ExtensionKind) : NameMap Value :=
  match (o.getName? kind.word).bind Value.asMapping? with
  | some m => NameMap.ofList (m.entries.filterMap fun e => e.1.asString?.map (·, e.2))
  | none => NameMap.empty

/-- The names of the extensions that a storage lists as installed, ascending. -/
def Storage.installedExtensions (fs : Files) (s : Storage) : Except Error (List String) := do
  match ← s.read? fs (some defaultCollection) coreExtension with
  | none => return []
  | some o =>
    return NameMap.distinctNames ((o.extensionList .module).names ++ (o.extensionList .theme).names)

/-- The names of the extensions that the active configuration lists as installed, ascending. -/
def ConfigM.installedExtensions : ConfigM (List String) := ask fun fs s => s.installedExtensions fs

/-- A question to a storage other than the active one. -/
def ConfigM.askOf {α : Type} (s : Storage) (f : Files → Storage → Except Error α) : ConfigM α :=
  ask fun fs _ => f fs s

/-- What a list of objects by collection goes over: the default collection, then the others. -/
def collectionsOf (others : List String) : List String := defaultCollection :: others

/-- Whether an extension owns an object: it is named after the extension or depends on it. -/
def Extension.ownsObject (x : Extension) (name : String) (o : ConfigObject) : Bool :=
  (Text.split '.' name).head? == some x.name
    || (o.stringsAt ("dependencies." ++ x.kind.word)).contains x.name
    || (o.stringsAt ("dependencies.enforced." ++ x.kind.word)).contains x.name

namespace Catalog

/-! ### Order -/

/-- What an extension requires, unless it is installed; it has to be in the catalog. -/
def requires (catalog : Catalog) (installed : List String) (name : String) :
    Except Error (Option (List String)) :=
  if installed.contains name then .ok none
  else match catalog.get? name with
    | some x => .ok (some x.requirements)
    | none => .error (.unknownExtension name)

/-- Extensions with all they require that is not installed, each after what it requires. -/
def withRequirements (catalog : Catalog) (installed names : List String) :
    Except Error (List String) :=
  Postorder.visitAll (catalog.requires installed) (catalog.size + 1) names

/-- The extensions to install for some names: the modules, then the themes, each after what it
requires of its kind. Modules never need themes. -/
def installOrder (catalog : Catalog) (installed names : List String) :
    Except Error (List Extension) := do
  let order := (← catalog.withRequirements installed names).filterMap catalog.get?
  return order.filter (·.kind = .module) ++ order.filter (·.kind = .theme)

/-! ### The list of installed extensions -/

/-- List an extension as installed, or not. -/
def listed (x : Extension) (installed : Bool) (o : ConfigObject) : ConfigObject :=
  let update (o : ConfigObject) (kind : ExtensionKind) : ConfigObject :=
    let l := o.extensionList kind
    let l := if kind ≠ x.kind then l else if installed then l.insert x.name (.int 0)
      else l.erase x.name
    o.insertName kind.word (Mapping.ofNames l.entries).toValue
  update (update o .module) .theme

/-- Record in the active configuration that an extension is installed, or not. -/
def record (x : Extension) (installed : Bool) : ConfigM Unit := do
  let o ← ConfigM.read? none coreExtension
  ConfigM.write none coreExtension (listed x installed (o.getD Mapping.empty))

/-! ### The changes -/

/-- Bring the objects of one collection that are not there, each after those it needs. -/
def bringCollection (source : Storage) (c : String) : ConfigM Unit := do
  let os ← ConfigM.askOf source fun fs s => s.objects fs (some c)
  os.dependencyOrder.forM fun name => do
    unless ← ConfigM.holds (some c) name do
      if let some o := os.get? name then ConfigM.write (some c) name o

/-- Bring the default configuration of an extension, with the content that `overrides` has for
it. -/
def bringDefaults (x : Extension) (overrides : Option Storage) : ConfigM Unit := do
  let source := match overrides with
    | some o => .overriding o x.defaults
    | none => x.defaults
  let others ← ConfigM.askOf source fun fs s => s.collectionNames fs
  (collectionsOf others).forM (bringCollection source)

/-- Install extensions and what they require. -/
def install (catalog : Catalog) (names : List String) (overrides : Option Storage) :
    ConfigM Unit := do
  let installed ← ConfigM.installedExtensions
  let order ← MonadExcept.ofExcept (catalog.installOrder installed names)
  order.forM fun x => do
    record x true
    bringDefaults x overrides

/-- Delete the objects of one collection that an extension owns. -/
def dropOwned (x : Extension) (c : String) : ConfigM Unit := do
  let os ← ConfigM.objects (some c)
  os.entries.forM fun (name, o) => do
    if name != coreExtension && x.ownsObject name o then
      let _ ← ConfigM.delete (some c) name

/-- Uninstall extensions and delete what they own. -/
def uninstall (catalog : Catalog) (names : List String) : ConfigM Unit := do
  let installed ← ConfigM.installedExtensions
  names.forM fun name => do
    if installed.contains name then
      match catalog.get? name with
      | none => throw (.unknownExtension name)
      | some x =>
        (collectionsOf (← ConfigM.collectionNames)).forM (dropOwned x)
        record x false

end Catalog

end Cookbook
