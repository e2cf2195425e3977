import Cookbook.Proofs.Checkpoint.Returning
import Cookbook.Proofs.Extension.Recording
import Cookbook.Proofs.Recipe.Applying
import Cookbook.Proofs.Recipe.Failing

/-!
# When a failed application cannot be undone

Going back installs and uninstalls extensions by the object that lists them. The recipe itself keeps
that object in order: installing adds names of the catalog and takes none away, and what a recipe
brings goes only to places that are free. So a failed recipe can be undone, whatever it had done
before, unless one of its actions rewrites the list.

Such an action can put any name there, and then the extension of that name is looked up to be
uninstalled. It can also take names away; they are installed again, and that fails if default
configuration cannot be read.

## Main definitions

* `Guard.lists`: extensions are listed, some of them and only those of the catalog.
* `RecipeTree.Addresses`: an action of a tree stands for a name.
* `Application.Failure`: what loading a recipe, the checkpoint before it or running it fails with.
* `Application.Blocked`: what can keep a site from going back.

## Main results

* `Application.keeps_list_run`: the list of extensions is kept by recipes that do not address it.
* `Application.undone_unless_rewritten`: what keeps a failed recipe from being undone.
* `Application.stuck_after_rewriting`: such a recipe.
-/

namespace Cookbook

open Change

variable {types : EntityTypes} {catalog : Catalog} {names : List String}

/-- The list of extensions is there, has some names and has no names but those of the catalog. -/
def Guard.lists (catalog : Catalog) (names : List String) : Guard := fun c name oo =>
  c = defaultCollection → name = coreExtension → ∃ o, oo = some o ∧ names ⊆ o.installed ∧
    ∀ n ∈ o.installed, catalog.contains n = true

/-- Installing extensions keeps the list of them in order. -/
theorem Guard.lists_allowsInstall (hcatalog : catalog.Closed) (names : List String) :
    (Guard.lists catalog names).AllowsInstall (fun _ => True) catalog where
  bring := by
    intro c name o hfree _ hc hname
    obtain ⟨o', hnone, -⟩ := hfree hc hname
    cases hnone
  record := by
    intro name x hx oo hoo _ _
    obtain ⟨o, rfl, hnames, hknown⟩ := hoo rfl rfl
    refine ⟨_, rfl, fun n hn => Catalog.mem_installed_listed.mpr (.inr (hnames hn)), fun n hn => ?_⟩
    rcases Catalog.mem_installed_listed.mp hn with rfl | hn
    · rw [hcatalog.name_eq hx]
      exact Option.isSome_iff_exists.mpr ⟨x, hx⟩
    · exact hknown n hn

/-- The actions that every site has, applied to another object, do not touch the list. -/
theorem ActionRegistry.keeps_list_of_core {r : ActionRegistry} (hr : core types = .ok r)
    {d : ActionDefinition} (hd : d ∈ r.definitions) {name : String} (hname : name ≠ coreExtension)
    (v : Value) : Keeps (Workspace.Obeys (Guard.lists catalog names))
      (d.apply r.entityTypes name v) fun _ => True := by
  refine actsOn_of_core hr hd (Actions.closed_true v) _ _ name (fun _ _ _ _ => trivial) ?_
  exact fun _ _ _ hcore => absurd hcore hname

/-- An action of a recipe in a tree stands for a name. -/
def RecipeTree.Addresses (t : RecipeTree) (name : String) : Prop :=
  ∃ r ∈ t.executionOrder, ∃ i ∈ r.config.actions, Expression.standsFor i.expression name = true

namespace Application

variable {a : Application} {dir : Path} {s s' : CheckpointStorage} {m : Snapshot}
  {o : ConfigObject}

/-- A run of recipes that do not address the list of extensions keeps it in order. -/
theorem keeps_list_run (hcatalog : a.catalog.Closed)
    (hactions : ActionRegistry.core types = .ok a.actions) {t : RecipeTree}
    (ht : ¬t.Addresses coreExtension) (names : List String) :
    Keeps (Workspace.Obeys (Guard.lists a.catalog names)) (a.run t) fun _ => True := by
  refine keeps_run (Guard.lists_allowsInstall hcatalog names) ⟨?_, ?_⟩ ?_
  · exact Catalog.holds_of_forall (fun _ => trivial) _
  · exact fun _ _ _ s _ => Storage.holds_of_forall (fun _ => trivial) s
  · intro r hr i hi
    refine ActionRegistry.keeps_apply fun d hd name hname => ?_
    refine ActionRegistry.keeps_list_of_core hactions hd ?_ i.value
    rintro rfl
    exact ht ⟨r, hr, i, hi, hname⟩

/-- A run leaves configuration in memory where it is. -/
theorem inMemory_of_run (hactions : ActionRegistry.core types = .ok a.actions) {t : RecipeTree}
    {w w' : Workspace} {r : Except Error (List String)} (hm : w.active = .memory m)
    (hrun : outcome (a.run t) w = (r, w')) : w'.InMemory :=
  (keeps_run_inMemory (ActionRegistry.staysInMemory_of_core hactions) t).state
    (Workspace.inMemory_iff.mpr ⟨m, hm⟩) hrun

/-- The configuration that a run leaves lists extensions that are known, and all that were listed,
unless it is addressed. -/
theorem lists_of_run (hcatalog : a.catalog.Closed)
    (hactions : ActionRegistry.core types = .ok a.actions) {t : RecipeTree}
    (ht : ¬t.Addresses coreExtension) {w w' : Workspace} {r : Except Error (List String)}
    (hm : w.active = .memory m) (ho : m.object? defaultCollection coreExtension = some o)
    (hknown : ∀ name ∈ o.installed, a.catalog.contains name = true)
    (hrun : outcome (a.run t) w = (r, w')) :
    ∃ m', w'.active = .memory m' ∧ o.installed ⊆ m'.installed ∧
      ∀ name ∈ m'.installed, a.catalog.contains name = true := by
  have hstart : w.Obeys (Guard.lists a.catalog o.installed) := by
    refine ⟨m, hm, ?_⟩
    rintro _ _ rfl rfl
    exact ⟨o, ho, List.Subset.refl _, hknown⟩
  obtain ⟨m', hm', hlists⟩ := (keeps_list_run hcatalog hactions ht o.installed).state hstart hrun
  obtain ⟨o', ho', hsub, hknown'⟩ := hlists defaultCollection coreExtension rfl rfl
  refine ⟨m', hm', ?_⟩
  rw [Snapshot.installed, ho']
  exact ⟨hsub, hknown'⟩

/-- A checkpoint lists the extensions that the configuration listed when it was made. -/
theorem installed_of_agrees {L : Snapshot} (hagrees : L.Agrees m)
    (ho : m.object? defaultCollection coreExtension = some o) (hwf : o.isWellFormed = true) :
    (L.object? defaultCollection coreExtension).isSome = true ∧ L.installed ⊆ o.installed := by
  have hsome : (L.object? defaultCollection coreExtension).isSome = true := by
    rw [hagrees.isSome_eq, ho]
    rfl
  obtain ⟨p, hp⟩ := Option.isSome_iff_exists.mp hsome
  obtain ⟨o', ho', hsame⟩ := hagrees.exists_same hp
  cases ho.symm.trans ho'
  refine ⟨hsome, ?_⟩
  rw [Snapshot.installed, hp]
  exact ConfigObject.installed_subset_of_same hwf hsame

/-- Going back succeeds from a configuration in memory that lists known extensions, if it still lists
those from before or if they can be installed. -/
theorem exists_undo {snaps : NameMap Snapshot} {b : CheckpointOutcome} {w : Workspace}
    {m' : Snapshot} (hlog : s.log.store = .memory snaps)
    (htaken : CheckpointM.Taken m snaps s (.ok b) s') (hquiet : s.listeners = [])
    (ho : m.object? defaultCollection coreExtension = some o) (hwf : o.isWellFormed = true)
    (hm' : w.active = .memory m')
    (hknown : ∀ name ∈ m'.installed, a.catalog.contains name = true)
    (hmissing : o.installed ⊆ m'.installed ∨ a.catalog.CanInstall w.files o.installed) :
    ∃ summary s'', outcome (CheckpointM.rollback a.catalog b.checkpoint.id)
      { s' with workspace := w } = (.ok summary, s'') := by
  obtain ⟨L, hL, hsame⟩ := htaken.exists_snapshot hlog w.files
  have hagrees : L.Agrees m := (Snapshot.agrees_of_same hsame).trans (Snapshot.agrees_exported m)
  obtain ⟨hlists, hsub⟩ := installed_of_agrees hagrees ho hwf
  refine CheckpointM.exists_rollback hL hm' ?_ hlists hknown ?_
  · exact htaken.listeners_eq.trans hquiet
  · rcases hmissing with hmissing | hcan
    · exact .inl (List.Subset.trans hsub hmissing)
    · exact .inr ⟨hcan.closed, hcan.readable, fun name hname => hcan.known name (hsub hname)⟩

/-- What loading the recipe in a directory, the checkpoint before it or running it fails with. -/
inductive Failure (a : Application) (dir : Path) (s : CheckpointStorage) (e : Error) : Prop where
  /-- The recipe cannot be loaded. -/
  | load (hload : a.resolve s.workspace.files s.workspace.active dir = .error e) :
    Failure a dir s e
  /-- No checkpoint can be made. -/
  | backup {t : RecipeTree} {s' : CheckpointStorage}
    (hload : a.resolve s.workspace.files s.workspace.active dir = .ok t)
    (hbackup : outcome (CheckpointM.checkpoint (backupLabel s t)) s = (.error e, s')) :
    Failure a dir s e
  /-- The recipe fails when it is run. -/
  | run {t : RecipeTree} {b : CheckpointOutcome} {s' : CheckpointStorage} {w : Workspace}
    (hload : a.resolve s.workspace.files s.workspace.active dir = .ok t)
    (hbackup : outcome (CheckpointM.checkpoint (backupLabel s t)) s = (.ok b, s'))
    (hrun : outcome (a.run t) s.workspace = (.error e, w)) : Failure a dir s e

/-- No such failure is one of going back, with the actions of the library and a check that does not
fail in that way itself. -/
theorem Failure.ne_rollbackFailed {e : Error} (h : a.Failure dir s e)
    (hm : s.workspace.active = .memory m) (hlog : s.log.InMemory)
    (hactions : ActionRegistry.core types = .ok a.actions) (hschemas : a.schemas.IsDirect) :
    ∀ failure id rollback, e ≠ .rollbackFailed failure id rollback := by
  obtain ⟨snaps, hsnaps⟩ := hlog
  cases h with
  | load hload => exact failsAs_resolve _ _ a dir e hload
  | @backup t s' hload hbackup =>
    have htaken := CheckpointM.taken_checkpoint hm hsnaps (backupLabel s t)
    rw [hbackup] at htaken
    cases htaken with
    | failed e he => exact he.isOwn
  | @run t b s' w hload hbackup hrun =>
    have hfails := failsAs_run hactions hschemas t s.workspace
    rw [hrun] at hfails
    exact (hfails e rfl).isOwn

/-- What can keep a site from going back to a configuration that listed some extensions: an extension
is listed that is not known, or one that was listed is no more and there is default configuration
that cannot be read. -/
def Blocked (a : Application) (names : List String) (w : Workspace) : Prop :=
  ∃ m, w.active = .memory m ∧ ((∃ name ∈ m.installed, a.catalog.contains name = false) ∨
    (¬names ⊆ m.installed ∧
      ∃ name x, a.catalog.get? name = some x ∧ ¬x.defaults.Readable w.files))

/-- If going back after a run fails, the list of extensions was addressed, and it keeps the site from
going back. -/
theorem blocked_of_stuck {snaps : NameMap Snapshot} {t : RecipeTree} {b : CheckpointOutcome}
    {w : Workspace} {s'' : CheckpointStorage} {r : Except Error (List String)} {e : Error}
    (hm : s.workspace.active = .memory m) (hlog : s.log.store = .memory snaps)
    (hquiet : s.listeners = []) (ho : m.object? defaultCollection coreExtension = some o)
    (hwf : o.isWellFormed = true) (hknown : ∀ name ∈ o.installed, a.catalog.contains name = true)
    (hcatalog : a.catalog.Closed) (hactions : ActionRegistry.core types = .ok a.actions)
    (htaken : CheckpointM.Taken m snaps s (.ok b) s')
    (hrun : outcome (a.run t) s.workspace = (r, w))
    (hundo : outcome (CheckpointM.rollback a.catalog b.checkpoint.id) { s' with workspace := w }
      = (.error e, s'')) : t.Addresses coreExtension ∧ a.Blocked o.installed w := by
  obtain ⟨m', hm'⟩ := Workspace.inMemory_iff.mp (inMemory_of_run hactions hm hrun)
  have hundone : (∀ name ∈ m'.installed, a.catalog.contains name = true) →
      ¬(o.installed ⊆ m'.installed ∨ a.catalog.CanInstall w.files o.installed) := by
    intro hknown' hmissing
    obtain ⟨summary, s₁, hok⟩ := exists_undo hlog htaken hquiet ho hwf hm' hknown' hmissing
    rw [hundo] at hok
    cases hok
  constructor
  · by_contra ht
    obtain ⟨m'', hm'', hsub, hknown'⟩ := lists_of_run hcatalog hactions ht hm ho hknown hrun
    cases hm'.symm.trans hm''
    exact hundone hknown' (.inl hsub)
  · refine ⟨m', hm', ?_⟩
    by_cases hknown' : ∀ name ∈ m'.installed, a.catalog.contains name = true
    · have hstuck := hundone hknown'
      rw [not_or] at hstuck
      refine .inr ⟨hstuck.1, ?_⟩
      by_contra hreadable
      refine hstuck.2 ⟨hcatalog, fun name x hx => ?_, hknown⟩
      by_contra hx'
      exact hreadable ⟨name, x, hx, hx'⟩
    · push Not at hknown'
      obtain ⟨name, hname, hunknown⟩ := hknown'
      exact .inl ⟨name, hname, by simpa using hunknown⟩

/-- A failed application gives the failure of loading the recipe, of the checkpoint or of the run
itself and leaves the configuration as it was before, unless an action of the recipe is applied to
the list of extensions and that keeps the site from going back. -/
theorem undone_unless_rewritten {e : Error} (hm : s.workspace.active = .memory m)
    (hlog : s.log.InMemory) (hquiet : s.listeners = [])
    (ho : m.object? defaultCollection coreExtension = some o) (hwf : o.isWellFormed = true)
    (hknown : ∀ name ∈ o.installed, a.catalog.contains name = true)
    (hcatalog : a.catalog.Closed) (hactions : ActionRegistry.core types = .ok a.actions)
    (h : outcome (a.apply dir) s = (.error e, s')) :
    (a.Failure dir s e ∧
      (a.schemas.IsDirect → ∀ failure id rollback, e ≠ .rollbackFailed failure id rollback) ∧
      ∃ before after, s.workspace.exportAll = .ok before ∧ s'.workspace.exportAll = .ok after ∧
        after.same before = true) ∨
    ∃ t failure id rollback w, e = .rollbackFailed failure id rollback ∧
      a.resolve s.workspace.files s.workspace.active dir = .ok t ∧
      outcome (a.run t) s.workspace = (.error failure, w) ∧ t.Addresses coreExtension ∧
      a.Blocked o.installed w := by
  have hown : ∀ {f}, a.Failure dir s f → a.schemas.IsDirect →
      ∀ failure id rollback, f ≠ .rollbackFailed failure id rollback :=
    fun hfailure hschemas => hfailure.ne_rollbackFailed hm hlog hactions hschemas
  obtain ⟨snaps, hsnaps⟩ := hlog
  have hends := applied_outcome a dir s
  rw [h] at hends
  have hsame : ∃ before after, s.workspace.exportAll = .ok before ∧
      s.workspace.exportAll = .ok after ∧ after.same before = true :=
    ⟨m.exported, m.exported, Workspace.exportAll_of_active hm, Workspace.exportAll_of_active hm,
      (Snapshot.Agrees.refl m).exported_same⟩
  cases hends with
  | notLoaded hload => exact .inl ⟨.load hload, hown (.load hload), hsame⟩
  | notBackedUp hload hbackup =>
    rename_i t
    have hfailure : a.Failure dir s e := .backup hload hbackup
    have htaken := CheckpointM.taken_checkpoint hm hsnaps (backupLabel s t)
    rw [hbackup] at htaken
    cases htaken with
    | failed e he => exact .inl ⟨hfailure, hown hfailure, hsame⟩
  | undone hload hbackup hrun hundo =>
    rename_i t b s₁ w summary
    have htaken := CheckpointM.taken_checkpoint hm hsnaps (backupLabel s t)
    rw [hbackup] at htaken
    rw [htaken.workspace_eq] at hrun
    have hfailure : a.Failure dir s e := .run hload hbackup hrun
    have hw : w.InMemory := inMemory_of_run hactions hm hrun
    obtain ⟨m', hm', hagrees, -⟩ := agrees_of_undone hsnaps htaken hw hundo
    exact .inl ⟨hfailure, hown hfailure, m.exported, m'.exported, Workspace.exportAll_of_active hm,
      Workspace.exportAll_of_active hm', hagrees.exported_same⟩
  | stuck hload hbackup hrun hundo =>
    rename_i t b s₁ failure rollback w
    have htaken := CheckpointM.taken_checkpoint hm hsnaps (backupLabel s t)
    rw [hbackup] at htaken
    rw [htaken.workspace_eq] at hrun
    obtain ⟨haddresses, hblocked⟩ := blocked_of_stuck hm hsnaps hquiet ho hwf hknown hcatalog
      hactions htaken hrun hundo
    exact .inr ⟨t, failure, _, rollback, w, rfl, hload, hrun, haddresses, hblocked⟩

/-! ### Instances -/

/-- The list of extensions of a site where nothing is installed. -/
def nothingInstalled : ConfigObject := Mapping.ofNames [("module", .map []), ("theme", .map [])]

/-- The configuration of such a site. -/
def plainSnapshot : Snapshot := Snapshot.ofList [(defaultCollection, coreExtension, nothingInstalled)]

theorem object?_plainSnapshot :
    plainSnapshot.object? defaultCollection coreExtension = some nothingInstalled :=
  rfl

theorem closed_plainApplication : plainApplication.catalog.Closed where
  name_eq := by
    rintro name x ⟨⟩
  requirements := by
    rintro name x ⟨⟩

/-- The application with the extensions that are found in its files. -/
def applicationIn (fs : Files) : Application :=
  { plainApplication with catalog := (Catalog.discover fs ⟨"/"⟩).toOption.getD NameMap.empty }

theorem named_applicationIn (fs : Files) : Catalog.Named (applicationIn fs).catalog := by
  show Catalog.Named ((Catalog.discover fs ⟨"/"⟩).toOption.getD NameMap.empty)
  cases h : Catalog.discover fs ⟨"/"⟩ with
  | error e => rintro name x ⟨⟩
  | ok catalog => exact Catalog.named_discover h

/-- Two modules, one of which requires the other, and a recipe that installs both and then updates
an object that is not there. -/
def installingRecipe : Files where
  tree := .dir [
    ("modules", .dir [
      ("blog", .dir [("blog.info.yml", .file (.text
        "name: Blog\ntype: module\ndependencies: [text]"))]),
      ("text", .dir [
        ("config", .dir [("install", .dir [("text.settings.yml", .file (.text "a: 1"))])]),
        ("text.info.yml", .file (.text "name: Text\ntype: module"))])]),
    ("r", .dir [("recipe.yml", .file (.text ("name: A\ninstall: [blog]\n"
      ++ "config: \x7bactions: \x7bcore.site: \x7bsimple_config_update: \x7b\x7d\x7d\x7d\x7d")))])]

theorem closed_applicationIn : (applicationIn installingRecipe).catalog.Closed where
  name_eq := named_applicationIn installingRecipe _ _
  requirements := by
    have hrequired : (applicationIn installingRecipe).catalog.entries.all (fun e =>
        e.2.requirements.all (applicationIn installingRecipe).catalog.contains) = true := by
      decide +kernel
    rw [NameMap.all_entries_iff] at hrequired
    intro name x hx
    exact List.all_eq_true.mp (hrequired name x hx)

/-- Whether a recipe can be loaded and a checkpoint made, and its run fails and leaves what passes a
check. -/
def failsWith (a : Application) (dir : Path) (s : CheckpointStorage) (check : Workspace → Bool) :
    Bool :=
  match a.resolve s.workspace.files s.workspace.active dir with
  | .error _ => false
  | .ok t => (outcome (CheckpointM.checkpoint (backupLabel s t)) s).1.isOk &&
    !(outcome (a.run t) s.workspace).1.isOk && check (outcome (a.run t) s.workspace).2

theorem exists_of_failsWith {check : Workspace → Bool} (h : a.failsWith dir s check = true) :
    ∃ t b s₁ e w, a.resolve s.workspace.files s.workspace.active dir = .ok t ∧
      outcome (CheckpointM.checkpoint (backupLabel s t)) s = (.ok b, s₁) ∧
      outcome (a.run t) s.workspace = (.error e, w) ∧ check w = true := by
  rw [failsWith] at h
  cases ht : a.resolve s.workspace.files s.workspace.active dir with
  | error e =>
    rw [ht] at h
    cases h
  | ok t =>
    rw [ht] at h
    dsimp only at h
    rcases hbackup : outcome (CheckpointM.checkpoint (backupLabel s t)) s with ⟨e | b, s₁⟩
    · rw [hbackup] at h
      cases h
    · rcases hrun : outcome (a.run t) s.workspace with ⟨e | ids, w⟩
      · rw [hbackup, hrun] at h
        exact ⟨t, b, s₁, e, w, rfl, hbackup, hrun, h⟩
      · rw [hbackup, hrun] at h
        cases h

/-- Both modules are installed when the recipe fails, and are not any more when it was undone. -/
theorem undone_after_failed_update :
    let a := applicationIn installingRecipe
    let s := plainSite installingRecipe
    ∃ t e w s', a.resolve s.workspace.files s.workspace.active ⟨"/r"⟩ = .ok t ∧
      outcome (a.run t) s.workspace = (.error e, w) ∧ w.installed = ["blog", "text"] ∧
      outcome (a.apply ⟨"/r"⟩) s = (.error e, s') ∧ s'.workspace.installed = [] ∧
      (∀ failure id rollback, e ≠ .rollbackFailed failure id rollback) ∧
      ∃ before after, s.workspace.exportAll = .ok before ∧ s'.workspace.exportAll = .ok after ∧
        after.same before = true := by
  intro a s
  obtain ⟨hfails, hfailure, hleft⟩ :
      a.failsWith ⟨"/r"⟩ s (fun w => decide (w.installed = ["blog", "text"])) = true ∧
        isActionFailure (outcome (a.apply ⟨"/r"⟩) s).1 = true ∧
        (outcome (a.apply ⟨"/r"⟩) s).2.workspace.installed = [] := by
    decide +kernel
  obtain ⟨t, b, s₁, e, w, ht, hbackup, hrun, hinstalled⟩ := exists_of_failsWith hfails
  rcases h : outcome (a.apply ⟨"/r"⟩) s with ⟨f | r, s'⟩
  · rw [h] at hfailure hleft
    rcases undone_unless_rewritten (m := plainSnapshot) (o := nothingInstalled) rfl ⟨_, rfl⟩ rfl
      object?_plainSnapshot (by decide) (by rintro _ ⟨⟩) closed_applicationIn core_plainApplication h
      with ⟨hown, hdirect, hsame⟩ | ⟨_, _, _, _, _, rfl, -⟩
    · have hfe : f = e := by
        cases hown with
        | load hload => cases ht.symm.trans hload
        | backup hload hbackup' =>
          cases ht.symm.trans hload
          cases hbackup.symm.trans hbackup'
        | run hload _ hrun' =>
          cases ht.symm.trans hload
          cases hrun.symm.trans hrun'
          rfl
      subst hfe
      exact ⟨t, f, w, s', ht, hrun, of_decide_eq_true hinstalled, rfl, hleft,
        hdirect (Schemas.isDirect []), hsame⟩
    · cases hfailure
  · rw [h] at hfailure
    cases hfailure

/-- A recipe that lists an extension that is not known, and then fails. -/
def rewritingRecipe : Files where
  tree := .dir [("r", .dir [("recipe.yml", .file (.text
    ("name: A\nconfig:\n  actions:\n    core.extension:\n      simple_config_update:\n"
      ++ "        module.nope: 0\n    core.site:\n      simple_config_update: \x7b\x7d\n")))])]

/-- The extension that going back stopped at because it is not known. -/
def stoppedAt? {α : Type} : Except Error α → Option String
  | .error (.rollbackFailed _ _ (.unknownExtension name)) => some name
  | _ => none

theorem exists_of_stoppedAt? {α : Type} {x : Except Error α} {name : String}
    (h : stoppedAt? x = some name) :
    ∃ failure id, x = .error (.rollbackFailed failure id (.unknownExtension name)) := by
  unfold stoppedAt? at h
  split at h
  · cases h
    exact ⟨_, _, rfl⟩
  · cases h

/-- The extension cannot be uninstalled, and stays in the list. -/
theorem stuck_after_rewriting :
    ∃ m o, (plainSite rewritingRecipe).workspace.active = .memory m ∧
      (plainSite rewritingRecipe).listeners = [] ∧
      m.object? defaultCollection coreExtension = some o ∧ o.isWellFormed = true ∧
      (∀ name ∈ o.installed, plainApplication.catalog.contains name = true) ∧
      plainApplication.catalog.Closed ∧
      ActionRegistry.core NameMap.empty = .ok plainApplication.actions ∧
      ∃ failure id s' before after,
        outcome (plainApplication.apply ⟨"/r"⟩) (plainSite rewritingRecipe)
          = (.error (.rollbackFailed failure id (.unknownExtension "nope")), s') ∧
        (plainSite rewritingRecipe).workspace.exportAll = .ok before ∧
        s'.workspace.exportAll = .ok after ∧ after.same before = false := by
  refine ⟨plainSnapshot, nothingInstalled, rfl, rfl, object?_plainSnapshot, by decide, by decide +kernel,
    closed_plainApplication, core_plainApplication, ?_⟩
  have hends : stoppedAt? (outcome (plainApplication.apply ⟨"/r"⟩) (plainSite rewritingRecipe)).1
        = some "nope" ∧
      ∃ before, (plainSite rewritingRecipe).workspace.exportAll = .ok before ∧
        ∃ after, (outcome (plainApplication.apply ⟨"/r"⟩)
          (plainSite rewritingRecipe)).2.workspace.exportAll = .ok after ∧
            after.same before = false := by
    decide +kernel
  generalize outcome (plainApplication.apply ⟨"/r"⟩) (plainSite rewritingRecipe) = ended at hends ⊢
  obtain ⟨hstopped, before, hbefore, after, hafter, hchanged⟩ := hends
  obtain ⟨result, s'⟩ := ended
  obtain ⟨failure, id, rfl⟩ := exists_of_stoppedAt? hstopped
  exact ⟨failure, id, s', before, after, rfl, hbefore, hafter, hchanged⟩

end Application

end Cookbook
