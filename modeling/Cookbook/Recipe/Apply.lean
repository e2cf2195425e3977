import Cookbook.Checkpoint.Storage
import Cookbook.Recipe.Run

/-!
# Applying recipes

A recipe is loaded with all it needs, a checkpoint is made, and then it is run. If it fails, the
configuration goes back to the checkpoint. No checkpoint is made when the latest one has the
configuration as it is.

## Main definitions

* `ApplyReport`: what applying a recipe did.
* `CheckpointLog.backupLabel`: the label of the checkpoint.
* `Application.apply`: apply the recipe in a directory.
-/

namespace Cookbook

/-- What applying a recipe did. -/
structure ApplyReport where
  /-- The name of the recipe. -/
  recipe : String
  /-- The ids of the recipes that were run, in order. -/
  applied : List String
  /-- The checkpoint with the configuration as it was before. -/
  backup : CheckpointOutcome

/-- What to tell when no checkpoint was made. -/
def ApplyReport.notice? (r : ApplyReport) : Option String :=
  match r.backup with
  | .created _ => none
  | .unchanged c =>
    some ("A backup checkpoint was not created because nothing has changed since the \"" ++ c.label
      ++ "\" checkpoint was created.")

/-- A label for the checkpoint before a recipe that is not in use: numbered from 2 up if the plain
one is. As many numbers as there are checkpoints are enough. -/
def CheckpointLog.backupLabel (l : CheckpointLog) (recipe : String) : String :=
  let base := "Backup before the '" ++ recipe ++ "' recipe."
  let numbered (n : Nat) : String := base ++ " (" ++ toString (n + 2) ++ ")"
  let candidates := base :: (List.range (l.entries.length + 1)).map numbered
  (candidates.find? (!l.hasLabel ·)).getD base

namespace Application

/-- Go back to a checkpoint after a failure, which is the outcome; if going back fails too, both
are. -/
def goBack {α : Type} (a : Application) (id : String) (failure : Error) : CheckpointM α := do
  try
    let _ ← CheckpointM.rollback a.catalog id
  catch e => throw (.rollbackFailed failure id e)
  throw failure

/-- Apply the recipe in a directory. -/
def apply (a : Application) (dir : Path) : CheckpointM ApplyReport := do
  let tree ← CheckpointM.active (ConfigM.ask fun fs active => a.resolve fs active dir)
  let label := (← get).log.backupLabel tree.recipe.name
  let backup ← CheckpointM.checkpoint label
  let applied ← tryCatch (CheckpointM.active (a.run tree)) (a.goBack backup.checkpoint.id)
  return { recipe := tree.recipe.name, applied, backup }

end Application

end Cookbook
