import Cookbook.Recipe.ManifestRules

/-!
# Finding recipes

A recipe is referred to by the name of its directory and is looked for in several places, the first
of which that has it counts. A recipe's own dependencies are looked for beside it, then where the
application keeps recipes.

## Main definitions

* `Discovery`: where recipes are looked for.
* `Discovery.find`: the directory of a recipe.
* `Discovery.extensionsInstalledBy`: the extensions that recipes and all they need install.
-/

namespace Cookbook

/-- The places where recipes are looked for, the first one first. -/
structure Discovery where
  /-- The places. -/
  searchPaths : List Path
  deriving DecidableEq, Repr

namespace Discovery

/-- Look for recipes in some places; a place that is there twice counts once. -/
def ofPaths (paths : List Path) : Discovery :=
  ⟨paths.foldl (fun found p => if found.any p.same then found else found ++ [p]) []⟩

/-- Where an application keeps recipes, below its root. -/
def places : List String := ["recipes", "core/recipes", "core/tests/fixtures/recipes"]

/-- Where the recipes that the recipe in a directory needs are looked for. -/
def forRecipe (root dir : Path) : Discovery := ofPaths (dir.parent?.toList ++ places.map root.join)

/-! ### Finding -/

/-- The manifest in a directory. -/
def manifestFile (dir : Path) : Path := dir.join Manifest.fileName

/-- The directory of a recipe. A name has to be the plain name of a directory. -/
def find (fs : Files) (d : Discovery) (name : String) : Except Error Path :=
  let found := if (Path.plainName? name).isSome then
      (d.searchPaths.map (·.join name)).find? (fun dir => fs.isFile (manifestFile dir))
    else none
  match found with
  | some dir => .ok dir
  | none => .error (.recipeNotFound name d.searchPaths)

/-- Whether there is a recipe of a name. -/
def exists? (fs : Files) (d : Discovery) (name : String) : Bool := (d.find fs name).isOk

/-! ### What recipes install -/

/-- The strings in the sequence under a key. -/
def stringsUnder (data : Value) (key : String) : List String :=
  (((data.asMapping?).bind (·.getName? key)).bind Value.asSequence?).elim []
    (·.filterMap Value.asString?)

/-- What the manifest in a directory says under `install` and under `recipes`; nothing if it cannot
be read. -/
def needsOf (fs : Files) (dir : Path) : List String × List String :=
  match Manifest.readValue fs (manifestFile dir) with
  | .ok data =>
    ((stringsUnder data "install").map Extension.dependencyName, stringsUnder data "recipes")
  | .error _ => ([], [])

/-- The same for a recipe by name; nothing if it cannot be found. -/
def needsOfName (fs : Files) (d : Discovery) (name : String) : List String × List String :=
  match d.find fs name with
  | .ok dir => needsOf fs dir
  | .error _ => ([], [])

/-- The extensions installed by recipes that are to be looked at, and by all they need, those looked
at already left out. -/
def gather (fs : Files) (d : Discovery) : Nat → List String → List String → List String
  | 0, _, _ => []
  | _ + 1, _, [] => []
  | fuel + 1, seen, name :: pending =>
    if seen.contains name then gather fs d fuel seen pending
    else
      let (install, recipes) := needsOfName fs d name
      install ++ gather fs d fuel (name :: seen) (recipes ++ pending)

/-- The names that are mentioned as needed by some recipe in the search paths. -/
def mentioned (fs : Files) (d : Discovery) : List String :=
  d.searchPaths.flatMap fun p =>
    ((fs.readDir p.orHere).toOption.getD []).flatMap fun e => (needsOf fs (p.orHere.join e.1)).2

/-- A bound for the number of names that `gather` looks at: each name that can be met is looked at
once for itself, and it adds the names it needs once. -/
def gatherBound (fs : Files) (d : Discovery) (names : List String) : Nat :=
  let met := NameMap.distinctNames (names ++ mentioned fs d)
  met.foldl (fun k n => k + (needsOfName fs d n).2.length) names.length + 1

/-- The extensions that recipes install, with all they need, ascending. Recipes that cannot be found
or read install nothing. -/
def extensionsInstalledBy (fs : Files) (d : Discovery) (names : List String) : List String :=
  NameMap.distinctNames (gather fs d (gatherBound fs d names) [] names)

end Discovery

end Cookbook
