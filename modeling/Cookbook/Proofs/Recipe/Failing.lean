import Cookbook.Proofs.Action.Core
import Cookbook.Proofs.Action.Expressions
import Cookbook.Proofs.Recipe.Tree
import Cookbook.Recipe.Run

/-!
# How loading and running recipes fail

Loading and running a recipe never fail as going back does, nor because a label is in use. That is
what makes the failure of going back recognizable: it is reported by the program alone, when a
recipe failed and could not be undone. Of the check of new objects and of the actions of a site,
which may be any, it has to be assumed.

## Main definitions

* `Application.PartsFailAs`: how the check and the actions of an application fail.

## Main results

* `Application.isOfLoading_of_resolve`, `Application.failsAs_resolve`: how loading a recipe with all
  it needs fails.
* `Application.failsAs_run_of_parts`, `Application.failsAs_run`: how running recipes fails.
-/

namespace Cookbook

open Change

/-! ### Configuration -/

namespace ConfigM

theorem failsAs_ask {α : Type} {F : Error → Prop} {f : Files → Storage → Except Error α}
    (h : ∀ fs s, Except.FailsAs F (f fs s)) : FailsAs F (ask f) := by
  intro w
  rw [outcome_ask]
  exact h _ _

theorem failsAs_read? (c : Option String) (name : String) :
    FailsAs Error.IsPlain (read? c name) :=
  failsAs_ask fun _ s => Storage.failsAs_read? s

theorem failsAs_write (c : Option String) (name : String) (o : ConfigObject) :
    FailsAs Error.IsPlain (write c name o) := by
  intro w
  have h : Except.FailsAs Error.IsPlain (w.active.write w.files c name o).1 :=
    Storage.failsAs_write w.files o w.active
  rw [write, outcome_bind, outcome_get]
  dsimp only
  rw [outcome_bind, outcome_set]
  dsimp only
  rw [outcome_ofExcept]
  exact h

theorem failsAs_newUuid : FailsAs Error.IsPlain newUuid :=
  fun _ => Except.FailsAs.ok _

end ConfigM

/-! ### Extensions -/

theorem Postorder.failsAs_visit {F : Error → Prop}
    {needs : String → Except Error (Option (List String))}
    (h : ∀ name, Except.FailsAs F (needs name)) (fuel : Nat) (path order : List String)
    (name : String) : Except.FailsAs F (visit needs fuel path order name) := by
  induction fuel generalizing path order name with
  | zero => exact Except.FailsAs.ok order
  | succ fuel ih =>
    rw [visit]
    split
    · exact Except.FailsAs.ok order
    · cases hneeds : needs name with
      | error e => exact Except.FailsAs.error (h name e hneeds)
      | ok required =>
        cases required with
        | none => exact Except.FailsAs.ok order
        | some required =>
          have hbelow := Except.FailsAs.foldlM (P := F)
            (f := visit needs fuel (name :: path)) (l := required)
            (fun order other _ => ih _ order other) order
          dsimp only
          cases hfold : required.foldlM (visit needs fuel (name :: path)) order with
          | error e => exact Except.FailsAs.error (hbelow e hfold)
          | ok below => exact Except.FailsAs.ok _

namespace Catalog

theorem failsAs_installOrder (catalog : Catalog) (installed names : List String) :
    Except.FailsAs Error.IsPlain (catalog.installOrder installed names) := by
  have hneeds : ∀ name, Except.FailsAs Error.IsPlain (catalog.requires installed name) := by
    intro name
    rw [requires]
    split
    · exact Except.FailsAs.ok none
    · split
      · exact Except.FailsAs.ok _
      · exact Except.FailsAs.error trivial
  refine Except.FailsAs.bind (Except.FailsAs.foldlM (fun order name _ => ?_) _) fun found =>
    Except.FailsAs.ok _
  exact Postorder.failsAs_visit hneeds _ _ _ _

theorem failsAs_bringDefaults (x : Extension) (overrides : Option Storage) :
    FailsAs Error.IsPlain (bringDefaults x overrides) := by
  refine (ConfigM.failsAs_ask fun _ _ => Storage.failsAs_collectionNames _).bind fun others => ?_
  refine FailsAs.forM fun c _ => ?_
  refine (ConfigM.failsAs_ask fun _ _ => Storage.failsAs_objects _).bind fun os => ?_
  refine FailsAs.forM fun name _ => ?_
  refine (ConfigM.failsAs_ask fun _ s => Storage.failsAs_holds s).bind fun found => ?_
  cases found with
  | true => exact FailsAs.pure _
  | false =>
    cases os.get? name with
    | none => exact FailsAs.pure _
    | some o => exact ConfigM.failsAs_write _ _ _

theorem failsAs_install (catalog : Catalog) (names : List String) (overrides : Option Storage) :
    FailsAs Error.IsPlain (catalog.install names overrides) := by
  refine (ConfigM.failsAs_ask fun _ s => Storage.failsAs_installedExtensions s).bind
    fun installed => ?_
  refine (FailsAs.ofExcept (failsAs_installOrder catalog installed names)).bind fun order => ?_
  refine FailsAs.forM fun x _ => ?_
  refine ((ConfigM.failsAs_read? _ _).bind fun o => ConfigM.failsAs_write _ _ _).bind fun _ => ?_
  exact failsAs_bringDefaults x overrides

end Catalog

/-! ### New objects -/

theorem RecipeConfig.failsAs_storage (fs : Files) (catalog : Catalog) (c : RecipeConfig) :
    Except.FailsAs Error.IsPlain (c.storage fs catalog) := by
  have himported : ∀ name spec,
      Except.FailsAs Error.IsPlain (importedOf fs catalog name spec) := by
    intro name spec
    rw [importedOf]
    split
    · exact Except.FailsAs.error trivial
    · rename_i x hx
      have hread : ∀ names, Except.FailsAs Error.IsPlain
          (Storage.readEach (fun n => x.defaults.read? fs none n) names) :=
        Storage.failsAs_readEach fun _ => Storage.failsAs_read? _
      cases spec with
      | everything _ => exact (Storage.failsAs_listNames _).bind hread
      | names l => exact hread l
  rw [storage]
  split
  · exact Except.FailsAs.ok _
  · refine (Except.FailsAs.foldlM (fun found e _ => ?_) _).bind fun found => Except.FailsAs.ok _
    exact (himported e.1 e.2).bind fun os => Except.FailsAs.ok _

theorem Schemas.failsAs_violations (engine : RegexEngine) (ss : Schemas) (name : String)
    (o : ConfigObject) : Except.FailsAs Error.IsPlain (ss.violations engine name o) := by
  have hfield : ∀ (f : FieldSchema) key v,
      Except.FailsAs Error.IsPlain (f.violations engine key v) := by
    intro f key v
    rw [FieldSchema.violations]
    split
    · exact Except.FailsAs.ok _
    · split
      · exact Except.FailsAs.ok _
      · refine Except.FailsAs.bind ?_ fun found => Except.FailsAs.ok _
        rw [FieldSchema.meetsRegex]
        split
        · split
          · exact Except.FailsAs.ok _
          · exact Except.FailsAs.error trivial
        · exact Except.FailsAs.ok _
  rw [violations]
  split
  · exact Except.FailsAs.ok _
  · rename_i s _
    split
    · exact Except.FailsAs.ok _
    · have hfields : Except.FailsAs Error.IsPlain (s.fieldViolations engine o) := by
        refine Except.FailsAs.bind (Except.FailsAs.mapM fun e _ => ?_) fun found =>
          Except.FailsAs.ok _
        obtain ⟨key, f⟩ := e
        dsimp only
        split
        · exact Except.FailsAs.ok _
        · exact hfield f key _
      exact hfields.bind fun found => Except.FailsAs.ok _

/-- A check does not fail as going back does. -/
def Validator.IsDirect (v : Validator) : Prop :=
  ∀ name o, Except.FailsAs Error.IsDirect (v.violations name o)

/-- Schemas do not. -/
theorem Schemas.isDirect (ss : Schemas) : Validator.IsDirect ss :=
  fun name o => (failsAs_violations .own ss name o).mono fun _ he => he.isDirect

/-- Creating new objects fails because of the objects, or as the check of them does. -/
theorem Validator.failsAs_createMissing {F : Error → Prop} (hF : ∀ e : Error, e.IsPlain → F e)
    {v : Validator} (hv : ∀ name o, Except.FailsAs F (v.violations name o)) (source : Storage) :
    FailsAs F (v.createMissing source) := by
  have hread : ∀ {α : Type} {f : Files → Storage → Except Error α},
      (∀ fs s, Except.FailsAs Error.IsPlain (f fs s)) → FailsAs F (ConfigM.ask f) :=
    fun h => (ConfigM.failsAs_ask h).mono hF
  refine (hread fun _ s => Storage.failsAs_list "" s).bind fun found => ?_
  refine (hread fun _ _ => Storage.failsAs_listNames source).bind fun names => ?_
  dsimp only
  split
  · exact FailsAs.pure _
  refine (hread fun _ _ => Storage.failsAs_readMultiple source).bind fun os => ?_
  refine (FailsAs.forM fun name _ => ?_).bind fun _ => ?_
  · cases os.get? name with
    | none => exact FailsAs.pure _
    | some o => exact (ConfigM.failsAs_write _ _ _).mono hF
  refine (FailsAs.forM fun name _ => ?_).bind fun _ => FailsAs.pure _
  refine ((ConfigM.failsAs_read? _ _).mono hF).bind fun o => ?_
  refine (FailsAs.ofExcept (hv name _)).bind fun vs => ?_
  split
  · exact FailsAs.throw (hF _ trivial)
  · exact FailsAs.pure _

/-! ### Actions -/

theorem ExistsRule.failsAs_stops (rule : ExistsRule) (name : String) (found : Bool) :
    Except.FailsAs Error.IsPlain (rule.stops name found) := by
  cases rule <;> cases found <;>
    first
      | exact Except.FailsAs.ok _
      | exact Except.FailsAs.error trivial

theorem failsAs_createEntity (rule : ExistsRule) (types : EntityTypes) (name : String)
    (v : Value) : FailsAs Error.IsPlain (createEntity rule types name v) := by
  refine (ConfigM.failsAs_read? _ _).bind fun oo => ?_
  refine (FailsAs.ofExcept (rule.failsAs_stops name _)).bind fun stop => ?_
  cases stop with
  | true => exact FailsAs.pure _
  | false =>
    dsimp only
    cases types.ownerOf? name with
    | none => exact FailsAs.throw trivial
    | some t =>
      have hwrite : ∀ values : Mapping, FailsAs Error.IsPlain (do
          ConfigM.write none name
            (newEntity (← ConfigM.newUuid) ((t.entityId? name).getD "") values)) :=
        fun values => ConfigM.failsAs_newUuid.bind fun uuid => ConfigM.failsAs_write _ _ _
      cases v with
      | map entries => exact (FailsAs.pure _).bind hwrite
      | null => exact (FailsAs.pure _).bind hwrite
      | _ => exact (FailsAs.throw trivial).bind hwrite

theorem failsAs_updateSimple (name : String) (v : Value) :
    FailsAs Error.IsPlain (updateSimple name v) := by
  refine (ConfigM.failsAs_read? _ _).bind fun oo => ?_
  cases oo with
  | none => exact FailsAs.throw trivial
  | some o =>
    cases v with
    | map entries =>
      refine (FailsAs.ofExcept (Except.FailsAs.foldlM (fun o e _ => ?_) o)).bind fun o' =>
        ConfigM.failsAs_write _ _ _
      dsimp only
      split
      · exact Except.FailsAs.ok _
      · exact Except.FailsAs.error trivial
    | _ => exact FailsAs.throw trivial

namespace ActionMethod

theorem failsAs_spread (m : ActionMethod) (type action : String) (v : Value) :
    Except.FailsAs Error.IsPlain (m.spread type action v) := by
  unfold spread
  dsimp only
  split
  · split
    · exact Except.FailsAs.error trivial
    · exact Except.FailsAs.ok _
  · split
    · split
      · exact Except.FailsAs.error trivial
      · exact Except.FailsAs.ok _
    · refine Except.FailsAs.foldlM (fun given e _ => ?_) _
      dsimp only
      split
      · exact Except.FailsAs.ok _
      · exact Except.FailsAs.error trivial
    · exact Except.FailsAs.ok _

theorem failsAs_arguments (m : ActionMethod) (type action : String) (v : Value) :
    Except.FailsAs Error.IsPlain (m.arguments type action v) := by
  refine (m.failsAs_spread type action v).bind fun given => Except.FailsAs.mapM fun e _ => ?_
  obtain ⟨p, g⟩ := e
  dsimp only
  unfold argument
  split
  · split
    · exact Except.FailsAs.ok _
    · exact Except.FailsAs.error trivial
  · split
    · exact Except.FailsAs.error trivial
    · exact Except.FailsAs.ok _

/-- A method fails because of its entity or its arguments, or in its own way. -/
theorem failsAs_apply {m : ActionMethod}
    (hcall : ∀ o args, Except.FailsAs Error.IsPlain (m.call o args))
    (type action name : String) (v : Value) :
    FailsAs Error.IsPlain (m.apply type action name v) := by
  refine (ConfigM.failsAs_read? _ _).bind fun oo => ?_
  refine (FailsAs.ofExcept (m.existing.failsAs_stops name _)).bind fun stop => ?_
  cases stop with
  | true => exact FailsAs.pure _
  | false =>
    refine (FailsAs.ofExcept (m.failsAs_arguments type action v)).bind fun args => ?_
    exact (FailsAs.ofExcept (hcall _ args)).bind fun o => ConfigM.failsAs_write _ _ _

end ActionMethod

namespace ActionRegistry

/-- The actions that every site has fail because of the configuration or of what they are given. -/
theorem failsAs_of_core {types : EntityTypes} {r : ActionRegistry} (hr : core types = .ok r)
    {d : ActionDefinition} (hd : d ∈ r.definitions) (types' : EntityTypes) (name : String)
    (v : Value) : FailsAs Error.IsPlain (d.apply types' name v) := by
  rcases mem_core hr hd with hd | ⟨base, type, m, hm, rfl⟩
  · simp only [plainActions, List.mem_cons, List.not_mem_nil, or_false] at hd
    rcases hd with rfl | rfl | rfl
    · exact failsAs_createEntity _ _ _ _
    · exact failsAs_createEntity _ _ _ _
    · exact failsAs_updateSimple _ _
  · refine ActionMethod.failsAs_apply (fun o args => ?_) _ _ _ _
    simp only [entityMethods, roleMethods, List.mem_append, List.mem_cons, List.not_mem_nil,
      or_false] at hm
    rcases hm with (rfl | rfl | rfl | rfl) | rfl | rfl <;> exact Except.FailsAs.ok _

/-- Applying an action fails because of the expression, or as the action itself does. -/
theorem failsAs_apply {F : Error → Prop} (hF : ∀ e : Error, e.IsPlain → F e) {r : ActionRegistry}
    (h : ∀ d ∈ r.definitions, ∀ name v, FailsAs F (d.apply r.entityTypes name v))
    (id expression : String) (v : Value) : FailsAs F (r.apply id expression v) := by
  have hresolve : Except.FailsAs Error.IsPlain (r.resolve id expression) := by
    rw [resolve]
    split
    · exact Except.FailsAs.ok _
    · split
      · exact Except.FailsAs.ok _
      · exact Except.FailsAs.error trivial
  have hnames : FailsAs Error.IsPlain (Expression.names r.entityTypes expression) := by
    rw [Expression.names_eq]
    split
    · exact FailsAs.pure _
    · split
      · exact FailsAs.throw trivial
      · exact (ConfigM.failsAs_ask fun _ s => Storage.failsAs_list _ s).bind fun _ =>
          FailsAs.pure _
  refine ((FailsAs.ofExcept hresolve).mono hF).bind fun full => ?_
  split
  · exact FailsAs.throw (hF _ trivial)
  · rename_i d hd
    refine (hnames.mono hF).bind fun found => FailsAs.forM fun name _ => ?_
    exact h d (List.mem_of_find?_eq_some hd) name v

end ActionRegistry

/-! ### Recipes -/

/-- Not the failure of going back. -/
def Error.IsOwn (e : Error) : Prop := ∀ failure id rollback, e ≠ .rollbackFailed failure id rollback

theorem Error.IsDirect.isOwn {e : Error} (h : e.IsDirect) : e.IsOwn := by
  rintro failure id rollback rfl
  exact h

/-- A failure of loading: that recipes lead on without end, or that of a single step. -/
def Error.IsOfLoading (e : Error) : Prop := e = .recipesTooDeep ∨ e.IsPlain

theorem Error.IsOfLoading.isOwn {e : Error} (h : e.IsOfLoading) : e.IsOwn := by
  rcases h with rfl | h
  · simp [Error.IsOwn]
  · exact h.isDirect.isOwn

namespace Application

variable {fs : Files} {active : Storage} {a : Application} {types : EntityTypes} {dir : Path}
  {e : Error}

theorem failsAs_build (fs : Files) (active : Storage) (a : Application) (fuel : Nat)
    (path : List String) (built : BuiltTrees) (r : Recipe) :
    Except.FailsAs Error.IsOfLoading (a.build fs active fuel path built r) := by
  induction fuel generalizing path built r with
  | zero => exact Except.FailsAs.error (.inl rfl)
  | succ fuel ih =>
    rw [build_succ]
    refine (Except.FailsAs.foldlM (fun found name _ => ?_) _).bind fun found => Except.FailsAs.ok _
    by_cases hname : name ∈ path ++ [r.id]
    · rw [grow_of_mem hname]
      exact Except.FailsAs.error (.inr trivial)
    · cases hdir : (a.discovery r.path).find fs name with
      | error e =>
        obtain ⟨searchPaths, rfl⟩ := Discovery.notFound_of_find hdir
        rw [grow_of_not_found hname hdir]
        exact Except.FailsAs.error (.inr trivial)
      | ok dir =>
        rw [grow_of_find hname hdir]
        split
        · exact Except.FailsAs.ok _
        · refine ((failsAs_load fs active a dir).mono fun _ => Or.inr).bind fun r' => ?_
          exact (ih _ _ r').bind fun result => Except.FailsAs.ok _

theorem isOfLoading_of_resolve (h : a.resolve fs active dir = .error e) : e.IsOfLoading := by
  have hfails : Except.FailsAs Error.IsOfLoading (a.resolve fs active dir) := by
    refine ((failsAs_load fs active a dir).mono fun _ => Or.inr).bind fun r => ?_
    exact (failsAs_build fs active a _ _ _ r).bind fun result => Except.FailsAs.ok _
  exact hfails e h

/-- Loading a recipe with all it needs does not fail as going back does. -/
theorem failsAs_resolve (fs : Files) (active : Storage) (a : Application) (dir : Path) :
    Except.FailsAs Error.IsOwn (a.resolve fs active dir) :=
  fun _ h => (isOfLoading_of_resolve h).isOwn

/-- The check and the actions of an application may be any; this is how they fail. -/
structure PartsFailAs (F : Error → Prop) (a : Application) : Prop where
  /-- Every action fails in this way. -/
  actions : ∀ d ∈ a.actions.definitions, ∀ name v,
    FailsAs F (d.apply a.actions.entityTypes name v)
  /-- So does the check of new objects. -/
  schemas : ∀ name o, Except.FailsAs F (a.schemas.violations name o)

/-- With the actions that every site has, only the check may be any. -/
theorem partsFailAs_of_core {F : Error → Prop} (hF : ∀ e : Error, e.IsPlain → F e)
    (hactions : ActionRegistry.core types = .ok a.actions)
    (hschemas : ∀ name o, Except.FailsAs F (a.schemas.violations name o)) : a.PartsFailAs F where
  actions _ hd name v := (ActionRegistry.failsAs_of_core hactions hd _ name v).mono hF
  schemas := hschemas

/-- Running recipes fails as a single step does, or as the check or an action does. -/
theorem failsAs_run_of_parts {F : Error → Prop} (hF : ∀ e : Error, e.IsPlain → F e)
    (h : a.PartsFailAs F) (t : RecipeTree) : FailsAs F (a.run t) := by
  have hbrought : ∀ r, FailsAs Error.IsPlain (a.brought r) :=
    fun r => ConfigM.failsAs_ask fun fs _ => RecipeConfig.failsAs_storage fs a.catalog r.config
  have hinstall : ∀ r, FailsAs Error.IsPlain (a.installExtensions r) := by
    intro r
    rw [installExtensions]
    split
    · exact FailsAs.pure _
    · exact (hbrought r).bind fun overrides => FailsAs.forM fun name _ =>
        Catalog.failsAs_install a.catalog [name] (some overrides)
  have hconfigure : ∀ r, FailsAs F (a.configure r) := by
    intro r
    refine ((hbrought r).mono hF).bind fun source => ?_
    refine (Validator.failsAs_createMissing hF h.schemas source).bind fun _ => ?_
    exact FailsAs.forM fun i _ => ActionRegistry.failsAs_apply hF h.actions _ _ _
  refine FailsAs.mapM fun r _ => ?_
  exact (((hinstall r).mono hF).bind fun _ => hconfigure r).bind fun _ => FailsAs.pure _

/-- Running recipes with the actions that every site has does not fail as going back does. -/
theorem failsAs_run (hactions : ActionRegistry.core types = .ok a.actions)
    (hschemas : a.schemas.IsDirect) (t : RecipeTree) : FailsAs Error.IsDirect (a.run t) :=
  failsAs_run_of_parts (fun _ he => he.isDirect)
    (partsFailAs_of_core (fun _ he => he.isDirect) hactions hschemas) t

end Application

end Cookbook
