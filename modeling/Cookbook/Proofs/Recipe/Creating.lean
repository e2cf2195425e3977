import Cookbook.Proofs.Extension.Installing
import Cookbook.Proofs.Storage.DependencyOrder
import Cookbook.Recipe.Run

/-!
# What creating missing objects does

Two passes go over the same names. The first one puts all that is missing in place, and only then
the second one checks it. So a check that fails does not undo anything, and it does not keep
anything from being created either: what is there afterwards depends on the source and on what was
there, and not on the validator. Of the validator depends the answer alone.

The names are those that the source lists and the configuration does not, so a place that is taken
is never written to. The check reads each object back and finds what was put there.

## Main definitions

* `Storage.Adds`: what a source has and a configuration does not.
* `Validator.Accepts`, `Validator.Reports`: what the answer says about the objects.
* `Validator.Creates`: what is there afterwards, and the answer.

## Main results

* `Validator.exists_outcome_create`: the first pass.
* `Validator.exists_outcome_check`: the second pass.
* `Validator.creates_of_createMissing`: both.
-/

namespace Cookbook

open Change
open Relation (TransGen)

/-- An object of the default collection that a storage has and a configuration does not. -/
def Storage.Adds (fs : Files) (source : Storage) (m : Snapshot) (name : String)
    (o : ConfigObject) : Prop :=
  m.object? defaultCollection name = none ∧
    (∃ names, source.listNames fs (some defaultCollection) = .ok names ∧ name ∈ names) ∧
    source.read? fs (some defaultCollection) name = .ok (some o)

namespace Validator

variable {v : Validator} {fs : Files} {source : Storage} {m : Snapshot} {w : Workspace}
  {os : Objects} {name : String} {names before rest : List String}

/-! ### Answers -/

/-- The objects of some names have no violations. -/
def Accepts (v : Validator) (os : Objects) (names : List String) : Prop :=
  ∀ name ∈ names, ∀ o, os.get? name = some o → v.violations name o = .ok []

/-- What is answered for some objects in the order of their dependencies. -/
inductive Reports (v : Validator) (os : Objects) : Except Error (List String) → Prop where
  /-- All of them are accepted. -/
  | accepted (h : v.Accepts os os.dependencyOrder) : Reports v os (.ok os.dependencyOrder)
  /-- The first that is not accepted has violations. -/
  | refused {before after : List String} {name : String} {o : ConfigObject} {vs : List String}
      (horder : os.dependencyOrder = before ++ name :: after) (hbefore : v.Accepts os before)
      (ho : os.get? name = some o) (h : v.violations name o = .ok vs) (hvs : vs ≠ []) :
      Reports v os (.error (.invalidConfig name vs))
  /-- The first that is not accepted cannot be checked. -/
  | failed {before after : List String} {name : String} {o : ConfigObject} {e : Error}
      (horder : os.dependencyOrder = before ++ name :: after) (hbefore : v.Accepts os before)
      (ho : os.get? name = some o) (h : v.violations name o = .error e) :
      Reports v os (.error e)

/-- What creating missing objects leaves and answers. -/
structure Creates (v : Validator) (fs : Files) (source : Storage) (m : Snapshot) (added : Objects)
    (m' : Snapshot) (result : Except Error (List String)) : Prop where
  /-- What is added: all that the source has and the configuration had not, as the source has it. -/
  added_iff : ∀ name o, added.get? name = some o ↔ source.Adds fs m name o
  /-- What was there is as it was. -/
  kept : ∀ c name o, m.object? c name = some o → m'.object? c name = some o
  /-- Nothing else is in the default collection. -/
  default : ∀ name, m.object? defaultCollection name = none →
    m'.object? defaultCollection name = added.get? name
  /-- Other collections are as they were. -/
  others : ∀ c name, c ≠ defaultCollection → m'.object? c name = m.object? c name
  /-- The order has each name once. -/
  nodup : added.dependencyOrder.Nodup
  /-- The order has the names of what is added. -/
  mem_order : ∀ name, name ∈ added.dependencyOrder ↔ (added.get? name).isSome
  /-- In the order an object comes after each one it lists that does not reach it in turn. -/
  order : ∀ a b, added.Lists a b → ¬TransGen added.Lists b a →
    ∃ before after, added.dependencyOrder = before ++ a :: after ∧ b ∈ before
  /-- The answer is that of the validator for what is added. -/
  reports : v.Reports added result

/-! ### The first pass -/

/-- Put the object of a name in place. -/
def create (os : Objects) (name : String) : ConfigM Unit := do
  if let some o := os.get? name then ConfigM.write (some defaultCollection) name o

/-- Putting objects in place changes the places of their names. -/
theorem exists_outcome_create (hm : w.active = .memory m)
    (hnames : ∀ name ∈ names, (os.get? name).isSome = true) :
    ∃ m', outcome (names.forM (create os)) w = (.ok (), { w with active := .memory m' }) ∧
      ∀ c name, m'.object? c name
        = if c = defaultCollection ∧ name ∈ names then os.get? name else m.object? c name := by
  induction names generalizing w m with
  | nil => exact ⟨m, by rw [← hm]; rfl, by simp⟩
  | cons n names ih =>
    obtain ⟨o, ho⟩ := Option.isSome_iff_exists.mp (hnames n (List.mem_cons_self ..))
    have hwrite : outcome (create os n) w = (.ok (), { w with
        active := .memory (Storage.putObject m defaultCollection n o) }) := by
      rw [create, ho]
      exact ConfigM.outcome_write hm
    obtain ⟨m', hrest, hobjects⟩ := ih (w := { w with
      active := .memory (Storage.putObject m defaultCollection n o) }) rfl
      fun k hk => hnames k (List.mem_cons_of_mem _ hk)
    refine ⟨m', ?_, fun c k => ?_⟩
    · rw [outcome_forM_cons, hwrite]
      exact hrest
    · rw [hobjects, Snapshot.object?_putObject]
      by_cases hc : c = defaultCollection
      · by_cases hk : k = n
        · subst hk
          simp [hc, ho]
        · simp [hc, hk, Ne.symm hk]
      · simp [hc, Ne.symm hc]

/-! ### The second pass -/

/-- A check reads the object and changes nothing. -/
theorem outcome_check {o : ConfigObject} (hm : w.active = .memory m)
    (ho : m.object? defaultCollection name = some o) :
    outcome (v.check name) w = (match v.violations name o with
      | .ok [] => .ok ()
      | .ok vs => .error (.invalidConfig name vs)
      | .error e => .error e, w) := by
  have hread : outcome (ConfigM.read? (some defaultCollection) name) w = (.ok (some o), w) := by
    rw [ConfigM.outcome_read? hm, Storage.collectionOf, Option.getD_some, ho]
  rw [check, outcome_bind_ok hread, Option.getD_some, outcome_bind, outcome_ofExcept]
  cases v.violations name o with
  | error e => rfl
  | ok vs => cases vs <;> rfl

/-- The checks stop at the first object that is not accepted. -/
theorem exists_outcome_check (hm : w.active = .memory m)
    (horder : os.dependencyOrder = before ++ rest) (hbefore : v.Accepts os before)
    (hobjects : ∀ name ∈ rest, m.object? defaultCollection name = os.get? name) :
    ∃ r, outcome (rest.forM v.check) w = (r, w) ∧
      v.Reports os (r.map fun _ => os.dependencyOrder) := by
  induction rest generalizing before with
  | nil =>
    rw [List.append_nil] at horder
    exact ⟨.ok (), rfl, .accepted (horder ▸ hbefore)⟩
  | cons n rest ih =>
    have hmem : n ∈ os.dependencyOrder := by
      rw [horder]
      exact List.mem_append_right _ (List.mem_cons_self ..)
    obtain ⟨o, ho⟩ := Option.isSome_iff_exists.mp (Objects.mem_dependencyOrder.mp hmem)
    have hcheck := outcome_check (v := v) hm ((hobjects n (List.mem_cons_self ..)).trans ho)
    rw [outcome_forM_cons, hcheck]
    cases hvs : v.violations n o with
    | error e => exact ⟨.error e, rfl, .failed horder hbefore ho hvs⟩
    | ok vs =>
      cases vs with
      | cons first more =>
        exact ⟨_, rfl, .refused horder hbefore ho hvs (List.cons_ne_nil first more)⟩
      | nil =>
        have hnext : os.dependencyOrder = (before ++ [n]) ++ rest := by
          rw [horder, List.append_assoc]
          rfl
        refine ih hnext (fun k hk p hp => ?_) fun k hk => hobjects k (List.mem_cons_of_mem _ hk)
        rcases List.mem_append.mp hk with hk | hk
        · exact hbefore k hk p hp
        · obtain rfl := List.mem_singleton.mp hk
          rw [ho] at hp
          cases hp
          exact hvs

/-! ### Both passes -/

/-- What is put in place, at places that are free, is all that is added. -/
theorem creates_of_adds {added : Objects} {m' : Snapshot} {result : Except Error (List String)}
    (hadded : ∀ name o, added.get? name = some o ↔ source.Adds fs m name o)
    (hobjects : ∀ c name, m'.object? c name
      = if c = defaultCollection ∧ name ∈ added.dependencyOrder then added.get? name
        else m.object? c name)
    (hreports : v.Reports added result) : v.Creates fs source m added m' result where
  added_iff := hadded
  kept := by
    intro c name o ho
    rw [hobjects, if_neg]
    · exact ho
    rintro ⟨rfl, hname⟩
    obtain ⟨p, hp⟩ := Option.isSome_iff_exists.mp (Objects.mem_dependencyOrder.mp hname)
    rw [((hadded name p).mp hp).1] at ho
    cases ho
  default := by
    intro name hfree
    rw [hobjects]
    split
    · rfl
    · rename_i hout
      have hnone : added.get? name = none := by
        simpa [Objects.mem_dependencyOrder] using hout
      rw [hfree, hnone]
  others := by
    intro c name hc
    rw [hobjects, if_neg fun h => hc h.1]
  nodup := added.nodup_dependencyOrder
  mem_order := fun _ => Objects.mem_dependencyOrder
  order := fun _ _ => Objects.exists_before
  reports := hreports

/-- Create and check objects that were read. -/
def createAll (v : Validator) (os : Objects) : ConfigM (List String) := do
  os.dependencyOrder.forM (create os)
  os.dependencyOrder.forM v.check
  return os.dependencyOrder

/-- Only if names of the source are not there, objects are read, created and checked. -/
theorem outcome_createMissing (hm : w.active = .memory m)
    (hnames : source.listNames w.files (some defaultCollection) = .ok names) :
    outcome (v.createMissing source) w =
      let missing := names.filter fun name => (m.object? defaultCollection name).isNone
      if missing.isEmpty then (.ok [], w)
      else outcome (ConfigM.askOf source (fun fs s =>
        s.readMultiple fs (some defaultCollection) missing) >>= v.createAll) w := by
  have hask : outcome (ConfigM.askOf source fun fs s => s.listNames fs (some defaultCollection)) w
      = (.ok names, w) := by
    rw [ConfigM.outcome_askOf, hnames]
  have hmissing : names.filter (!(m.collection defaultCollection).names.contains ·)
      = names.filter fun name => (m.object? defaultCollection name).isNone := by
    refine List.filter_congr fun name _ => ?_
    rw [Snapshot.object?, ← Option.not_isSome, Bool.not_inj_iff, Bool.eq_iff_iff,
      List.contains_iff_mem, NameMap.mem_names_iff]
  rw [createMissing, outcome_bind_ok (ConfigM.outcome_list hm defaultCollection),
    outcome_bind_ok hask]
  simp only [hmissing]
  split <;> rfl

/-- What the two passes do if just what is missing was read. -/
theorem exists_outcome_createAll (hm : w.active = .memory m)
    (hos : ∀ name o, os.get? name = some o ↔ source.Adds w.files m name o) :
    ∃ m' result, outcome (v.createAll os) w = (result, { w with active := .memory m' }) ∧
      v.Creates w.files source m os m' result := by
  have hall : ∀ name ∈ os.dependencyOrder, (os.get? name).isSome = true :=
    fun _ => Objects.mem_dependencyOrder.mp
  obtain ⟨m', hcreate, hobjects⟩ := exists_outcome_create hm hall
  have hnone : v.Accepts os [] := by
    rintro name ⟨⟩
  have hthere : ∀ name ∈ os.dependencyOrder,
      m'.object? defaultCollection name = os.get? name := by
    intro name hname
    rw [hobjects, if_pos ⟨rfl, hname⟩]
  obtain ⟨r, hcheck, hreports⟩ := exists_outcome_check (w := { w with active := .memory m' })
    rfl (List.nil_append _).symm hnone hthere
  refine ⟨m', r.map fun _ => os.dependencyOrder, ?_, creates_of_adds hos hobjects hreports⟩
  rw [createAll, outcome_bind_ok hcreate]
  cases r with
  | error e => exact outcome_bind_error hcheck
  | ok u => exact outcome_bind_ok hcheck

/-- Just what is missing is read, if the source can be read. -/
theorem get?_eq_some_iff_adds (hnames : source.listNames fs (some defaultCollection) = .ok names)
    (hos : source.readMultiple fs (some defaultCollection)
      (names.filter fun name => (m.object? defaultCollection name).isNone) = .ok os)
    (name : String) (o : ConfigObject) :
    os.get? name = some o ↔ source.Adds fs m name o := by
  constructor
  · intro ho
    have hname := Storage.mem_of_readMultiple hos name o ho
    obtain ⟨hlisted, hfree⟩ := List.mem_filter.mp hname
    refine ⟨Option.isNone_iff_eq_none.mp hfree, ⟨names, hnames, hlisted⟩, ?_⟩
    rw [Storage.read?_of_readMultiple hos hname, ho]
  · rintro ⟨hfree, ⟨names', hnames', hlisted⟩, hread⟩
    rw [hnames] at hnames'
    cases hnames'
    rw [Storage.read?_of_readMultiple hos (List.mem_filter.mpr ⟨hlisted, by rw [hfree]; rfl⟩)]
      at hread
    exact Except.ok.inj hread

/-- Nothing is added if nothing is missing. -/
theorem creates_of_none (hnames : source.listNames fs (some defaultCollection) = .ok names)
    (hnone : (names.filter fun name => (m.object? defaultCollection name).isNone) = []) :
    v.Creates fs source m NameMap.empty m (.ok []) := by
  refine creates_of_adds (fun name o => ⟨?_, ?_⟩) (fun c name => ?_) ?_
  · rintro ⟨⟩
  · rintro ⟨hfree, ⟨names', hnames', hlisted⟩, -⟩
    rw [hnames] at hnames'
    cases hnames'
    have htaken := List.filter_eq_nil_iff.mp hnone name hlisted
    rw [hfree] at htaken
    exact absurd rfl htaken
  · rw [if_neg]
    rintro ⟨-, ⟨⟩⟩
  · have hempty : v.Accepts NameMap.empty (Objects.dependencyOrder NameMap.empty) := by
      rintro name ⟨⟩
    exact .accepted hempty

/-- Unless the source cannot be read, creating what is missing adds all that the source has at free
places of the default collection, as the source has it, and nothing else. The answer is that of the
validator for what is added: its names in the order of their dependencies, or the first failure in
that order. -/
theorem creates_of_createMissing (v : Validator) (source : Storage) (hm : w.active = .memory m) :
    (∃ e, outcome (v.createMissing source) w = (.error e, w) ∧
      (source.listNames w.files (some defaultCollection) = .error e ∨
        ∃ names, source.listNames w.files (some defaultCollection) = .ok names ∧
          source.readMultiple w.files (some defaultCollection)
            (names.filter fun name => (m.object? defaultCollection name).isNone) = .error e)) ∨
    ∃ added m' result, outcome (v.createMissing source) w
        = (result, { w with active := .memory m' }) ∧
      v.Creates w.files source m added m' result := by
  cases hnames : source.listNames w.files (some defaultCollection) with
  | error e =>
    refine .inl ⟨e, ?_, .inl rfl⟩
    rw [createMissing, outcome_bind_ok (ConfigM.outcome_list hm defaultCollection)]
    refine outcome_bind_error ?_
    rw [ConfigM.outcome_askOf, hnames]
  | ok names =>
    rw [outcome_createMissing hm hnames]
    dsimp only
    split
    · rename_i hnone
      rw [List.isEmpty_iff] at hnone
      exact .inr ⟨NameMap.empty, m, .ok [], by rw [← hm], creates_of_none hnames hnone⟩
    cases hos : source.readMultiple w.files (some defaultCollection)
        (names.filter fun name => (m.object? defaultCollection name).isNone) with
    | error e =>
      refine .inl ⟨e, outcome_bind_error ?_, .inr ⟨names, rfl, hos⟩⟩
      rw [ConfigM.outcome_askOf, hos]
    | ok os =>
      have hread : outcome (ConfigM.askOf source fun fs s => s.readMultiple fs
          (some defaultCollection) (names.filter fun name =>
            (m.object? defaultCollection name).isNone)) w = (.ok os, w) := by
        rw [ConfigM.outcome_askOf, hos]
      obtain ⟨m', result, hrun, hcreates⟩ := exists_outcome_createAll (v := v) hm
        (get?_eq_some_iff_adds hnames hos)
      exact .inr ⟨os, m', result, (outcome_bind_ok hread).trans hrun, hcreates⟩

/-- Two pages, of which one lists the other, and a note. -/
def broughtPages : Storage := .view (Snapshot.ofList [
  (defaultCollection, "page.a", Objects.listing ["page.b"] []),
  (defaultCollection, "page.b", Mapping.empty),
  (defaultCollection, "site.note", Mapping.empty)])

/-- A configuration with a note and a translated page. -/
def noted : Snapshot := Snapshot.ofList [
  (defaultCollection, "site.note", Mapping.ofNames [("by", .string "hand")]),
  ("language.de", "page.b", Mapping.empty)]

/-- A site with that configuration. -/
def notedSite : Workspace where
  files := {}
  active := .memory noted

/-- A check that no page without dependencies passes. -/
def listsSomething : Validator where
  violations _ o := .ok (if o.dependencies.isEmpty then ["dependencies: missing"] else [])

/-- Both pages are created, although the one that is listed comes first and is refused. -/
theorem creates_broughtPages : notedSite.active = .memory noted ∧ ∃ added m',
    outcome (listsSomething.createMissing broughtPages) notedSite
      = (.error (.invalidConfig "page.b" ["dependencies: missing"]),
        { notedSite with active := .memory m' }) ∧
    listsSomething.Creates notedSite.files broughtPages noted added m'
      (.error (.invalidConfig "page.b" ["dependencies: missing"])) ∧
    m'.object? defaultCollection "page.a" = some (Objects.listing ["page.b"] []) ∧
    m'.object? defaultCollection "site.note" = some (Mapping.ofNames [("by", .string "hand")]) := by
  have hm : notedSite.active = .memory noted := rfl
  rcases creates_of_createMissing listsSomething broughtPages hm with
    ⟨e, -, hfail | ⟨names, hnames, hfail⟩⟩ | ⟨added, m', result, hrun, hcreates⟩
  · cases hfail
  · cases hnames
    cases hfail
  have hfree : noted.object? defaultCollection "page.a" = none := rfl
  have hlisted : broughtPages.listNames notedSite.files (some defaultCollection)
      = .ok ["page.a", "page.b", "site.note"] := rfl
  have hb : added.get? "page.b" = some Mapping.empty :=
    (hcreates.added_iff _ _).mpr ⟨rfl, ⟨_, hlisted, by decide⟩, rfl⟩
  have hresult : result = .error (.invalidConfig "page.b" ["dependencies: missing"]) := by
    cases hcreates.reports with
    | accepted haccepts => cases haccepts _ ((hcreates.mem_order _).mpr (by rw [hb]; rfl)) _ hb
    | refused _ _ ho hvs hne =>
      obtain ⟨htaken, ⟨names, hnames, hname⟩, hread⟩ := (hcreates.added_iff _ _).mp ho
      rw [hlisted] at hnames
      cases hnames
      simp only [List.mem_cons, List.not_mem_nil, or_false] at hname
      rcases hname with rfl | rfl | rfl
      · cases hread
        cases hvs
        exact absurd rfl hne
      · cases hread
        cases hvs
        rfl
      · cases htaken
    | failed _ _ _ h => cases h
  subst hresult
  refine ⟨hm, added, m', hrun, hcreates, ?_, hcreates.kept _ _ _ rfl⟩
  rw [hcreates.default _ hfree, hcreates.added_iff]
  exact ⟨hfree, ⟨_, hlisted, by decide⟩, rfl⟩

end Validator

end Cookbook
