import Cookbook.Extension.Installer
import Cookbook.Storage.Comparison

/-!
# Importing configuration

An import makes the active configuration equal to a source: first the extensions are uninstalled and
installed, then the objects are deleted, created and updated, collection by collection. Every step
is told to listeners. A listener that refuses the first event stops the import before anything is
changed; one that refuses a later event stops it there.

## Main definitions

* `ImportEvent`: what listeners are told.
* `ImportListener`: a listener, with what it heard.
* `Import`, `ImportM`: an import under way.
* `ImportM.importFrom`: the import.
-/

namespace Cookbook

/-- A step of an import. -/
inductive ImportEvent where
  /-- The source can be imported; nothing is changed yet. -/
  | validate
  /-- An extension was uninstalled. -/
  | uninstalled (name : String)
  /-- An extension was installed. -/
  | installed (name : String)
  /-- An object was deleted. -/
  | delete (collection name : String)
  /-- An object was created. -/
  | create (collection name : String)
  /-- An object was updated. -/
  | update (collection name : String)
  /-- The import is finished. -/
  | imported
  deriving DecidableEq, Repr

/-- A listener accepts an event or refuses it; it knows what it heard before. -/
structure ImportListener where
  /-- What it answers to an event, given the earlier events. -/
  answer : List ImportEvent → ImportEvent → Except Error Unit
  /-- The events it heard, in order. -/
  heard : List ImportEvent := []

/-- Totals of an import. -/
structure ImportSummary where
  /-- How many objects were created. -/
  created : Nat := 0
  /-- How many objects were updated. -/
  updated : Nat := 0
  /-- How many objects were deleted. -/
  deleted : Nat := 0
  /-- The extensions that were installed. -/
  installed : List String := []
  /-- The extensions that were uninstalled. -/
  uninstalled : List String := []
  deriving DecidableEq, Repr

/-- An import under way. -/
structure Import where
  /-- What the import changes. -/
  workspace : Workspace
  /-- Who is told. -/
  listeners : List ImportListener := []
  /-- What was done so far. -/
  summary : ImportSummary := {}

/-- A part of an import. -/
abbrev ImportM := ExceptT Error (StateM Import)

namespace ImportListener

/-- Tell listeners an event, one after the other, up to the first that refuses it. -/
def tell (e : ImportEvent) : List ImportListener → Except Error Unit × List ImportListener
  | [] => (.ok (), [])
  | l :: rest =>
    let told := { l with heard := l.heard ++ [e] }
    match l.answer l.heard e with
    | .error refusal => (.error refusal, told :: rest)
    | .ok () =>
      let (r, rest) := tell e rest
      (r, told :: rest)

end ImportListener

namespace ImportM

/-- Change the workspace of an import. -/
def change {α : Type} (x : ConfigM α) : ImportM α := do
  let i ← get
  let (r, workspace) := x.run.run i.workspace
  set { i with workspace }
  MonadExcept.ofExcept r

/-- Tell an event to the listeners. -/
def tell (e : ImportEvent) : ImportM Unit := do
  let i ← get
  let (r, listeners) := ImportListener.tell e i.listeners
  set { i with listeners }
  MonadExcept.ofExcept r

/-- Count in the totals. -/
def count (f : ImportSummary → ImportSummary) : ImportM Unit :=
  modify fun i => { i with summary := f i.summary }

/-- Whether a source can be imported: it has to list extensions, and no listener may refuse. -/
def validate (source : Storage) : ImportM Unit := do
  unless ← change (ConfigM.askOf source
      fun fs s => s.holds fs (some defaultCollection) coreExtension) do
    throw (.configImport "The core.extension configuration does not exist.")
  tell .validate

/-- Uninstall what the source does not list, then install what only the source lists; its objects
replace default configuration. -/
def exchangeExtensions (catalog : Catalog) (source : Storage) : ImportM Unit := do
  let wanted ← change (ConfigM.askOf source fun fs s => s.installedExtensions fs)
  let current ← change ConfigM.installedExtensions
  let uninstalled := current.filter (!wanted.contains ·)
  let installed := wanted.filter (!current.contains ·)
  unless uninstalled.isEmpty do
    change (catalog.uninstall uninstalled)
    uninstalled.forM fun name => tell (.uninstalled name)
  unless installed.isEmpty do
    change (catalog.install installed (some source))
    installed.forM fun name => tell (.installed name)
  count fun s => { s with installed, uninstalled }

/-- Write an object as the source has it. -/
def copy (source : Storage) (c name : String) : ConfigM Unit := do
  match ← ConfigM.askOf source fun fs s => s.read? fs (some c) name with
  | none => throw (.configImport (name ++ " disappeared from the source storage during import"))
  | some o => ConfigM.write (some c) name o

/-- Make the changes of one collection: deletions, then new objects, then updates. -/
def changeCollection (source : Storage) (c : String) (l : ChangeList) : ImportM Unit := do
  l.delete.forM fun name => do
    let _ ← change (ConfigM.delete (some c) name)
    count fun s => { s with deleted := s.deleted + 1 }
    tell (.delete c name)
  l.create.forM fun name => do
    change (copy source c name)
    count fun s => { s with created := s.created + 1 }
    tell (.create c name)
  l.update.forM fun name => do
    change (copy source c name)
    count fun s => { s with updated := s.updated + 1 }
    tell (.update c name)

/-- Make the active configuration equal to a source. -/
def importFrom (catalog : Catalog) (source : Storage) : ImportM ImportSummary := do
  validate source
  exchangeExtensions catalog source
  let changes ← change (ConfigM.ask fun fs active => Storage.changesTo fs source active)
  changes.entries.forM fun (c, l) => changeCollection source c l
  tell .imported
  return (← get).summary

end ImportM

end Cookbook
