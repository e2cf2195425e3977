import Cookbook.Proofs.Action.Expressions
import Cookbook.Proofs.Extension.Installing
import Cookbook.Recipe.Run

/-!
# What running recipes keeps

A run changes the configuration in three ways: it installs extensions, it creates objects at places
that are free, and it applies actions. The first two are settled by what a guard allows; of the
actions only those matter that the recipes invoke.

## Main definitions

* `Expression.standsFor`: the names that an expression may be replaced by.
* `Application.Feeds`: the objects that extensions and recipes bring have a property.

## Main results

* `Validator.stands_createMissing`, `Application.stands_installExtensions`: what is put at free places
  was read from the source, or for an extension that is needed.
* `Application.keeps_run`: a run keeps a guard that allows installing and that its actions keep.
-/

namespace Cookbook

open Change
open Relation (ReflTransGen)

variable {G : Guard} {Q : ConfigObject → Prop}

namespace Validator

theorem stands_check (v : Validator) {fs : Files} (name : String) :
    Keeps (Workspace.Stands fs G) (v.check name) fun _ => True := by
  refine (ConfigM.stands_ask_any _).bind fun o _ => ?_
  refine Keeps.bind (R := fun _ => True) (Keeps.ofExcept fun _ _ => trivial) fun vs _ => ?_
  split
  · exact Keeps.throw _
  · exact Keeps.pure trivial

/-- Objects that are missing can be created if what may be read may be put where nothing is. -/
theorem stands_createMissing (v : Validator) {source : Storage} {fs : Files}
    (hbring : ∀ {name o}, G defaultCollection name none →
      source.read? fs (some defaultCollection) name = .ok (some o) →
        G defaultCollection name (some o)) :
    Keeps (Workspace.Stands fs G) (v.createMissing source) fun _ => True := by
  refine (ConfigM.stands_of_ask ConfigM.keeps_list).bind fun found hfound => ?_
  refine (ConfigM.stands_ask_any _).bind fun names _ => ?_
  dsimp only
  split
  · exact Keeps.pure trivial
  have hread : Keeps (Workspace.Stands fs G) (ConfigM.askOf source fun fs s =>
      s.readMultiple fs (some defaultCollection) (names.filter (!found.contains ·)))
      fun os => ∀ k o, os.get? k = some o →
        source.read? fs (some defaultCollection) k = .ok (some o) ∧ k ∉ found := by
    refine ConfigM.stands_ask fun _ _ os hos k o ho => ?_
    have hmissing := Storage.mem_of_readMultiple hos k o ho
    refine ⟨by rw [Storage.read?_of_readMultiple hos hmissing, ho], ?_⟩
    simpa using (List.mem_filter.mp hmissing).2
  refine hread.bind fun os hos => ?_
  refine (Keeps.forM fun name _ => ?_).bind fun _ _ => ?_
  · cases ho : os.get? name with
    | none => exact Keeps.pure trivial
    | some o =>
      obtain ⟨hread, hmissing⟩ := hos name o ho
      exact ConfigM.stands_write (hbring (hfound name hmissing) hread)
  · refine (Keeps.forM fun name _ => v.stands_check name).bind fun _ _ => Keeps.pure trivial

theorem keeps_createMissing (v : Validator) {source : Storage}
    (hbring : ∀ {c name o}, G c name none → Q o → G c name (some o)) (hsource : source.Holds Q) :
    Keeps (Workspace.Obeys G) (v.createMissing source) fun _ => True :=
  ConfigM.keeps_of_stands fun _ =>
    v.stands_createMissing fun hfree ho => hbring hfree (hsource.read? ho)

end Validator

/-- Whether an expression stands for a name, if there is an object of that name. -/
def Expression.standsFor (expression name : String) : Bool :=
  if isWildcard expression then fits expression name else expression == name

/-- An expression gives no other names than those it stands for. -/
theorem Expression.keeps_names (types : EntityTypes) (expression : String) :
    Keeps (Workspace.Obeys G) (names types expression)
      fun found => ∀ name ∈ found, standsFor expression name = true := by
  have hstands : ∀ {name}, isWildcard expression = true → fits expression name = true →
      standsFor expression name = true := by
    intro name hwildcard hfits
    rw [standsFor, if_pos hwildcard, hfits]
  rw [names_eq]
  split
  · rename_i hplain
    refine Keeps.pure fun name hname => ?_
    rw [List.mem_singleton.mp hname, standsFor, if_neg (by simpa using hplain), beq_self_eq_true]
  · rename_i hwildcard
    split
    · exact Keeps.throw _
    · refine (ConfigM.keeps_ask_any _).bind fun listed _ => Keeps.pure fun name hname => ?_
      exact hstands (by simpa using hwildcard) (List.mem_filter.mp hname).2

namespace ActionRegistry

/-- An action that is applied keeps what the definitions keep for the names it is applied to. -/
theorem keeps_apply {r : ActionRegistry} {id expression : String} {v : Value}
    (h : ∀ d ∈ r.definitions, ∀ name, Expression.standsFor expression name = true →
      Keeps (Workspace.Obeys G) (d.apply r.entityTypes name v) fun _ => True) :
    Keeps (Workspace.Obeys G) (r.apply id expression v) fun _ => True := by
  refine Keeps.bind (R := fun _ => True) (Keeps.ofExcept fun _ _ => trivial) fun full _ => ?_
  split
  · exact Keeps.throw _
  · rename_i d hd
    have hmem : d ∈ r.definitions := List.mem_of_find?_eq_some hd
    refine (Expression.keeps_names r.entityTypes expression).bind fun found hfound => ?_
    exact Keeps.forM fun name hname => h d hmem name (hfound name hname)

end ActionRegistry

namespace Application

/-- The objects that extensions and some recipes bring have a property. -/
structure Feeds (a : Application) (Q : ConfigObject → Prop) (rs : List Recipe) : Prop where
  /-- The default configuration of extensions has it. -/
  catalog : a.catalog.Holds Q
  /-- What the recipes bring has it. -/
  recipes : ∀ r ∈ rs, ∀ fs s, r.config.storage fs a.catalog = .ok s → s.Holds Q

variable {a : Application}

section Stands

variable {fs : Files} {r : Recipe}

theorem stands_brought :
    Keeps (Workspace.Stands fs G) (a.brought r) fun s => r.config.storage fs a.catalog = .ok s :=
  ConfigM.stands_ask fun _ _ _ hs => hs

/-- The extensions of a recipe can be installed if what may be read for those that are needed, with
the recipe's content, may be put where nothing is. -/
theorem stands_installExtensions
    (hrecord : G.AllowsRecord a.catalog)
    (hbring : ∀ {s c name o n y x}, r.config.storage fs a.catalog = .ok s →
      n ∈ r.install.modules ++ r.install.themes → ReflTransGen a.catalog.Needs n y →
        a.catalog.get? y = some x → G c name none →
          (x.source (some s)).read? fs (some c) name = .ok (some o) → G c name (some o)) :
    Keeps (Workspace.Stands fs G) (a.installExtensions r) fun _ => True := by
  rw [installExtensions]
  split
  · exact Keeps.pure trivial
  · refine stands_brought.bind fun s hs => Keeps.forM fun name hname => ?_
    refine Catalog.stands_install hrecord ?_
    intro c k o n y x hn hreach hx hfree ho
    rw [List.mem_singleton.mp hn] at hreach
    exact hbring hs hname hreach hx hfree ho

end Stands

theorem keeps_brought {r : Recipe}
    (h : ∀ fs s, r.config.storage fs a.catalog = .ok s → s.Holds Q) :
    Keeps (Workspace.Obeys G) (a.brought r) fun s => s.Holds Q :=
  ConfigM.keeps_of_stands fun fs => stands_brought.mono (h fs)

theorem keeps_installExtensions {r : Recipe} (hG : G.AllowsInstall Q a.catalog)
    (hcatalog : a.catalog.Holds Q)
    (h : ∀ fs s, r.config.storage fs a.catalog = .ok s → s.Holds Q) :
    Keeps (Workspace.Obeys G) (a.installExtensions r) fun _ => True := by
  refine ConfigM.keeps_of_stands fun fs => stands_installExtensions hG.allowsRecord ?_
  intro s c name o n y x hs _ _ hx hfree ho
  have hsource : (x.source (some s)).Holds Q := ⟨h fs s hs, hcatalog y x hx⟩
  exact hG.bring hfree (hsource.read? ho)

/-- A run of one recipe keeps a guard that allows installing and that the recipe's actions keep. -/
theorem keeps_process {r : Recipe} (hG : G.AllowsInstall Q a.catalog)
    (hcatalog : a.catalog.Holds Q)
    (h : ∀ fs s, r.config.storage fs a.catalog = .ok s → s.Holds Q)
    (hactions : ∀ i ∈ r.config.actions, Keeps (Workspace.Obeys G)
      (a.actions.apply i.action i.expression i.value) fun _ => True) :
    Keeps (Workspace.Obeys G) (a.process r) fun _ => True := by
  refine (keeps_installExtensions hG hcatalog h).bind fun _ _ => ?_
  refine (keeps_brought h).bind fun source hsource => ?_
  refine (Validator.keeps_createMissing _ hG.bring hsource).bind fun _ _ => ?_
  exact Keeps.forM hactions

/-- A run of the recipes of a tree keeps a guard that allows installing and that their actions
keep. -/
theorem keeps_run {t : RecipeTree} (hG : G.AllowsInstall Q a.catalog)
    (h : a.Feeds Q t.executionOrder)
    (hactions : ∀ r ∈ t.executionOrder, ∀ i ∈ r.config.actions, Keeps (Workspace.Obeys G)
      (a.actions.apply i.action i.expression i.value) fun _ => True) :
    Keeps (Workspace.Obeys G) (a.run t) fun _ => True := by
  refine Keeps.mapM fun r hr => ?_
  refine (keeps_process hG h.catalog (h.recipes r hr) (hactions r hr)).bind fun _ _ => ?_
  exact Keeps.pure trivial

end Application

end Cookbook
