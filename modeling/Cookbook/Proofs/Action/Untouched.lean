import Cookbook.Proofs.Action.Core
import Cookbook.Proofs.Action.Wildcards

/-!
# What actions leave as it is

An action that every site has reads the object of its name, decides what to put there, and only
then writes, once. Writing to memory does not fail. So an action that fails has changed nothing, and
one that does not fail has changed its one object at most.

A wildcard is another matter, since the action is run on one name after the other, and a failure
would not take back what was done for the names before. But a wildcard stands for names of objects
that are there, and on those whether an action fails depends on the value it is applied with and on
nothing else: each of these actions refuses every object or none. So it fails for the first name or
not at all, and failing changes nothing there either.

## Main definitions

* `ConfigM.PutsLast`: a change that leaves everything as it was if it fails.
* `ActionDefinition.WritesLast`: an action that changes nothing if it fails.
* `ActionDefinition.Refuses`, `ActionDefinition.Accepts`: an action fails for every object that is
  there, or for none.

## Main results

* `ActionDefinition.IsCore.writesLast`, `ActionDefinition.IsCore.refuses_or_accepts`: the actions
  that every site has.
* `ActionRegistry.untouched_of_apply`: what applying one of them leaves as it is.
-/

namespace Cookbook

open Change

variable {d : ActionDefinition} {v : Value} {types : EntityTypes} {name expression : String}
  {names : List String} {w w' : Workspace} {m : Snapshot}

/-! ### Failing -/

/-- A change fails and leaves everything as it was, or it does not fail and puts one object at
most. -/
def ConfigM.PutsLast (x : ConfigM Unit) (name : String) : Prop :=
  ∀ ⦃w m⦄, w.active = .memory m →
    (∃ e, outcome x w = (.error e, w)) ∨
    ∃ w', outcome x w = (.ok (), w') ∧
      (w'.active = .memory m ∨
        ∃ o, w'.active = .memory (Storage.putObject m defaultCollection name o))

namespace ConfigM.PutsLast

protected theorem pure (name : String) : PutsLast (pure ()) name :=
  fun w _ hm => .inr ⟨w, rfl, .inl hm⟩

protected theorem throw (e : Error) (name : String) : PutsLast (throw e) name :=
  fun _ _ _ => .inl ⟨e, rfl⟩

protected theorem write (name : String) (o : ConfigObject) :
    PutsLast (ConfigM.write none name o) name :=
  fun _ _ hm => .inr ⟨_, outcome_write hm, .inr ⟨o, rfl⟩⟩

/-- Numbering an object is a change too, but what follows it does not fail. -/
theorem write_numbered (name : String) (f : String → ConfigObject) :
    PutsLast (do ConfigM.write none name (f (← newUuid))) name := by
  intro w m hm
  rw [outcome_bind_ok (outcome_newUuid w),
    outcome_write (w := { w with nextUuid := w.nextUuid + 1 }) hm]
  exact .inr ⟨_, rfl, .inr ⟨_, rfl⟩⟩

theorem read_bind {f : Option ConfigObject → ConfigM Unit}
    (h : ∀ found, PutsLast (f found) name) : PutsLast (ConfigM.read? none name >>= f) name := by
  intro w m hm
  rw [outcome_bind_ok (outcome_read? hm)]
  exact h _ hm

theorem check_bind {α : Type} {r : Except Error α} {f : α → ConfigM Unit}
    (h : ∀ a, PutsLast (f a) name) : PutsLast (MonadExcept.ofExcept r >>= f) name := by
  intro w m hm
  rw [outcome_bind, outcome_ofExcept]
  cases r with
  | error e => exact .inl ⟨e, rfl⟩
  | ok a => exact h a hm

end ConfigM.PutsLast

namespace ActionDefinition

/-- An action that changes nothing if it fails. -/
def WritesLast (d : ActionDefinition) (v : Value) : Prop :=
  ∀ types name, (d.apply types name v).PutsLast name

/-- An action fails for every object that is there. -/
def Refuses (d : ActionDefinition) (v : Value) : Prop :=
  ∀ ⦃types name w m o⦄, w.active = .memory m → m.object? defaultCollection name = some o →
    ∃ e w', outcome (d.apply types name v) w = (.error e, w')

/-- An action fails for no object that is there. -/
def Accepts (d : ActionDefinition) (v : Value) : Prop :=
  ∀ ⦃types name w m o⦄, w.active = .memory m → m.object? defaultCollection name = some o →
    ∃ w', outcome (d.apply types name v) w = (.ok (), w')

theorem WritesLast.eq_of_error {e : Error} (h : d.WritesLast v) (hm : w.active = .memory m)
    (he : outcome (d.apply types name v) w = (.error e, w')) : w' = w := by
  rcases h types name hm with ⟨e', herror⟩ | ⟨w'', hok, -⟩
  · rw [herror] at he
    cases he
    rfl
  · rw [hok] at he
    cases he

end ActionDefinition

/-- Reading in the default collection finds what is there. -/
theorem ConfigM.outcome_read?_of_object? {o : ConfigObject} (hm : w.active = .memory m)
    (ho : m.object? defaultCollection name = some o) :
    outcome (ConfigM.read? none name) w = (.ok (some o), w) := by
  rw [ConfigM.outcome_read? hm, Storage.collectionOf, Option.getD_none, ho]

namespace Actions

open ConfigM (PutsLast)

theorem writesLast_createEntity (rule : ExistsRule) (hd : d.apply = createEntity rule) :
    d.WritesLast v := by
  intro types name
  rw [hd, createEntity]
  refine .read_bind fun found => .check_bind fun stop => ?_
  cases stop with
  | true => exact .pure name
  | false =>
    rw [if_neg Bool.false_ne_true]
    cases types.ownerOf? name with
    | none => exact .throw _ name
    | some t =>
      simp only [pure_bind]
      cases v with
      | map entries => exact .write_numbered name _
      | null => exact .write_numbered name _
      | _ => exact .throw _ name

theorem writesLast_updateSimple (hd : d.apply = fun _ => updateSimple) : d.WritesLast v := by
  intro types name
  simp only [hd]
  rw [updateSimple]
  refine .read_bind fun found => ?_
  cases found with
  | none => exact .throw _ name
  | some o =>
    cases v with
    | map entries => exact .check_bind fun o' => .write name o'
    | _ => exact .throw _ name

theorem writesLast_method (method : ActionMethod) (base : String) (type : EntityType) :
    (method.definition base type).WritesLast v := by
  intro types name
  simp only [ActionMethod.definition]
  rw [ActionMethod.apply]
  refine .read_bind fun found => .check_bind fun stop => ?_
  cases stop with
  | true => exact .pure name
  | false => exact .check_bind fun args => .check_bind fun o => .write name o

/-- An update fails just if a key is no string, whatever it is an update of. -/
theorem exists_update_iff {entries : List (Value × Value)} {o : ConfigObject} :
    (∃ o', o.update name entries = .ok o') ↔ ∀ f ∈ entries, f.1.asString?.isSome = true := by
  induction entries generalizing o with
  | nil => exact iff_of_true ⟨o, rfl⟩ (List.forall_mem_nil _)
  | cons f entries ih =>
    rw [List.forall_mem_cons]
    cases hf : f.1.asString? with
    | none =>
      refine iff_of_false ?_ fun h => Bool.false_ne_true h.1
      rintro ⟨o', ho'⟩
      simp only [ConfigObject.update, List.foldlM_cons, hf] at ho'
      cases ho'
    | some path =>
      have hstep : o.update name (f :: entries)
          = ConfigObject.update (o.setNested path f.2) name entries := by
        simp only [ConfigObject.update, List.foldlM_cons, hf]
        rfl
      rw [hstep, ih]
      exact (and_iff_right rfl).symm

theorem refuses_createEntity (hd : d.apply = createEntity .errorIfExists) : d.Refuses v := by
  intro types name w m o hm ho
  rw [hd, createEntity, outcome_bind_ok (ConfigM.outcome_read?_of_object? hm ho)]
  exact ⟨_, _, rfl⟩

theorem accepts_createEntity (hd : d.apply = createEntity .stopIfExists) : d.Accepts v := by
  intro types name w m o hm ho
  rw [hd, createEntity, outcome_bind_ok (ConfigM.outcome_read?_of_object? hm ho)]
  exact ⟨_, rfl⟩

/-- Updating an object that was read writes what the entries make of it. -/
theorem outcome_updateSimple_map {entries : List (Value × Value)} {o : ConfigObject}
    (hread : outcome (ConfigM.read? none name) w = (.ok (some o), w)) :
    outcome (updateSimple name (.map entries)) w = outcome (do
      ConfigM.write none name (← MonadExcept.ofExcept (o.update name entries))) w := by
  rw [updateSimple, outcome_bind_ok hread]

theorem refuses_or_accepts_updateSimple (hd : d.apply = fun _ => updateSimple) :
    d.Refuses v ∨ d.Accepts v := by
  simp only [ActionDefinition.Refuses, ActionDefinition.Accepts, hd]
  cases v with
  | map entries =>
    by_cases hstrings : ∀ f ∈ entries, f.1.asString?.isSome = true
    · refine .inr fun types name w m o hm ho => ?_
      obtain ⟨o', ho'⟩ := exists_update_iff.mpr hstrings
      rw [outcome_updateSimple_map (ConfigM.outcome_read?_of_object? hm ho), ho']
      exact ⟨_, ConfigM.outcome_write hm⟩
    · refine .inl fun types name w m o hm ho => ?_
      rw [outcome_updateSimple_map (ConfigM.outcome_read?_of_object? hm ho)]
      cases ho' : o.update name entries with
      | error e => exact ⟨e, _, rfl⟩
      | ok o' => exact absurd (exists_update_iff.mp ⟨o', ho'⟩) hstrings
  | _ =>
    refine .inl fun types name w m o hm ho => ?_
    rw [updateSimple, outcome_bind_ok (ConfigM.outcome_read?_of_object? hm ho)]
    exact ⟨_, _, rfl⟩

/-- A method that needs the object changes the one that is there and writes it. -/
theorem outcome_method {method : ActionMethod} {o : ConfigObject}
    (hrule : method.existing = .errorIfMissing) (hm : w.active = .memory m)
    (ho : m.object? defaultCollection name = some o) (base : String) (type : EntityType)
    (types : EntityTypes) (v : Value) :
    outcome ((method.definition base type).apply types name v) w = outcome (do
      let args ← MonadExcept.ofExcept
        (method.arguments type.id (method.definition base type).id v)
      ConfigM.write none name (← MonadExcept.ofExcept (method.call o args))) w := by
  simp only [ActionMethod.definition]
  rw [ActionMethod.apply, outcome_bind_ok (ConfigM.outcome_read?_of_object? hm ho), hrule]
  rfl

theorem refuses_or_accepts_method {method : ActionMethod}
    (hmethod : method ∈ entityMethods ++ roleMethods) (base : String) (type : EntityType) :
    (method.definition base type).Refuses v ∨ (method.definition base type).Accepts v := by
  have hrule : method.existing = .errorIfMissing ∧ ∀ o args, ∃ o', method.call o args = .ok o' := by
    simp only [entityMethods, roleMethods, List.mem_append, List.mem_cons, List.not_mem_nil,
      or_false] at hmethod
    rcases hmethod with (rfl | rfl | rfl | rfl) | rfl | rfl <;> exact ⟨rfl, fun _ _ => ⟨_, rfl⟩⟩
  cases hargs : method.arguments type.id (method.definition base type).id v with
  | error e =>
    refine .inl fun types name w m o hm ho => ?_
    rw [outcome_method hrule.1 hm ho, hargs]
    exact ⟨e, _, rfl⟩
  | ok args =>
    refine .inr fun types name w m o hm ho => ?_
    obtain ⟨o', ho'⟩ := hrule.2 o args
    rw [outcome_method hrule.1 hm ho, hargs, outcome_bind_ok (outcome_ofExcept ..), ho',
      outcome_bind_ok (outcome_ofExcept ..)]
    exact ⟨_, ConfigM.outcome_write hm⟩

end Actions

namespace ActionDefinition

theorem IsCore.writesLast (h : d.IsCore) (v : Value) : d.WritesLast v := by
  rcases h with hd | ⟨base, type, method, -, rfl⟩
  · simp only [plainActions, List.mem_cons, List.not_mem_nil, or_false] at hd
    rcases hd with rfl | rfl | rfl
    · exact Actions.writesLast_createEntity .errorIfExists rfl
    · exact Actions.writesLast_createEntity .stopIfExists rfl
    · exact Actions.writesLast_updateSimple rfl
  · exact Actions.writesLast_method method base type

theorem IsCore.refuses_or_accepts (h : d.IsCore) (v : Value) : d.Refuses v ∨ d.Accepts v := by
  rcases h with hd | ⟨base, type, method, hmethod, rfl⟩
  · simp only [plainActions, List.mem_cons, List.not_mem_nil, or_false] at hd
    rcases hd with rfl | rfl | rfl
    · exact .inl (Actions.refuses_createEntity rfl)
    · exact .inr (Actions.accepts_createEntity rfl)
    · exact Actions.refuses_or_accepts_updateSimple rfl
  · exact Actions.refuses_or_accepts_method hmethod base type

/-! ### One name after the other -/

/-- What is there stays there. -/
theorem WritesLast.isSome_of_ok (h : d.WritesLast v) (hm : w.active = .memory m)
    (hok : outcome (d.apply types name v) w = (.ok (), w')) :
    ∃ m', w'.active = .memory m' ∧ ∀ n, (m.object? defaultCollection n).isSome = true →
      (m'.object? defaultCollection n).isSome = true := by
  rcases h types name hm with ⟨e, herror⟩ | ⟨w'', hok', hactive⟩
  · rw [herror] at hok
    cases hok
  · rw [hok'] at hok
    cases hok
    rcases hactive with hactive | ⟨o, hactive⟩
    · exact ⟨m, hactive, fun _ hn => hn⟩
    · refine ⟨_, hactive, fun n hn => ?_⟩
      rw [Snapshot.object?_putObject]
      split
      · rfl
      · exact hn

/-- An action that fails for no object is run to the end on names of objects. -/
theorem Accepts.exists_outcome_forM (h : d.Accepts v) (hlast : d.WritesLast v)
    (hm : w.active = .memory m)
    (hthere : ∀ name ∈ names, (m.object? defaultCollection name).isSome = true) :
    ∃ w', outcome (names.forM fun name => d.apply types name v) w = (.ok (), w') := by
  induction names generalizing w m with
  | nil => exact ⟨w, rfl⟩
  | cons name names ih =>
    obtain ⟨hname, hthere⟩ := List.forall_mem_cons.mp hthere
    obtain ⟨o, ho⟩ := Option.isSome_iff_exists.mp hname
    obtain ⟨w₁, hok⟩ := @h types name w m o hm ho
    obtain ⟨m₁, hm₁, hkept⟩ := hlast.isSome_of_ok hm hok
    obtain ⟨w', hrest⟩ := ih hm₁ fun n hn => hkept n (hthere n hn)
    exact ⟨w', (outcome_bind_ok hok).trans hrest⟩

/-- Run on names of objects, an action fails for the first or not at all. -/
theorem IsCore.eq_of_forM_error {e : Error} (h : d.IsCore) (hm : w.active = .memory m)
    (hthere : ∀ name ∈ names, (m.object? defaultCollection name).isSome = true)
    (he : outcome (names.forM fun name => d.apply types name v) w = (.error e, w')) : w' = w := by
  rcases h.refuses_or_accepts v with hrefuses | haccepts
  · cases names with
    | nil => cases he
    | cons name names =>
      obtain ⟨o, ho⟩ := Option.isSome_iff_exists.mp (hthere name List.mem_cons_self)
      obtain ⟨e', w₁, herror⟩ := @hrefuses types name w m o hm ho
      have hfirst := (outcome_bind_error herror).symm.trans he
      cases hfirst
      exact (h.writesLast v).eq_of_error hm herror
  · obtain ⟨w₁, hok⟩ := haccepts.exists_outcome_forM (h.writesLast v) hm hthere
    rw [hok] at he
    cases he

end ActionDefinition

/-- The names that a wildcard stands for are names of objects. -/
theorem Expression.there_of_names (hm : w.active = .memory m)
    (hwild : isWildcard expression = true)
    (h : outcome (Expression.names types expression) w = (.ok names, w)) :
    ∀ name ∈ names, (m.object? defaultCollection name).isSome = true := by
  cases ht : types.ownerOf? expression with
  | none =>
    rw [names_eq, hwild, ht] at h
    cases h
  | some t =>
    have hshows : w.active.Shows m := hm ▸ .memory m
    rw [outcome_names_of_ownerOf? ht hwild hshows] at h
    cases h
    intro name hname
    have hmem := List.mem_of_mem_filter (List.mem_of_mem_filter hname)
    rw [hm] at hmem
    exact (NameMap.mem_names_iff ..).mp hmem

namespace ActionRegistry

variable {r : ActionRegistry} {id : String}

/-- What an action is not run on stays as it is. -/
theorem keeps_elsewhere (m : Snapshot) (hd : d.IsCore) (names : List String) :
    Keeps (Workspace.Obeys fun c name oo => (c = defaultCollection → name ∉ names) →
      oo = m.object? c name) (names.forM fun name => d.apply types name v) fun _ => True := by
  refine Keeps.forM fun name hname => ?_
  refine hd.actsOn (Actions.closed_true v) _ types name (fun _ _ _ _ => trivial) ?_
  exact fun _ _ hnot => absurd hname (hnot rfl)

/-- **What applying an action leaves as it is.** When an action that every site has is applied to an
expression, by its full id or by a shorthand, to configuration in memory, then whether or not this
fails every object is as it was, except those in the default collection that have one of the names
which the expression stood for. And if it fails then nothing at all has been changed, even if the
expression is a wildcard: neither the object it fails for, nor those before or after it. -/
theorem untouched_of_apply (hm : w.active = .memory m)
    (hcore : ∀ d ∈ r.definitions, r.resolve id expression = .ok d.id → d.IsCore) (v : Value) :
    (∃ m', (outcome (r.apply id expression v) w).2.active = .memory m' ∧
      ∀ c name, (c = defaultCollection → ∀ names,
          (outcome (Expression.names r.entityTypes expression) w).1 = .ok names → name ∉ names) →
        m'.object? c name = m.object? c name) ∧
    ∀ e w', outcome (r.apply id expression v) w = (.error e, w') → w' = w := by
  rcases r.runs_or_error id expression w with ⟨d, names, hruns⟩ | ⟨e, hfails⟩
  · have hd := hcore d hruns.mem hruns.resolved
    rw [hruns.outcome_apply v, hruns.stands]
    constructor
    · obtain ⟨m', hm', helsewhere⟩ := (keeps_elsewhere m hd names w ⟨m, hm, fun _ _ _ => rfl⟩).1
      refine ⟨m', hm', fun c name hnot => helsewhere c name fun hc => hnot hc names rfl⟩
    · intro e w' he
      cases hwild : Expression.isWildcard expression with
      | true => exact hd.eq_of_forM_error hm (Expression.there_of_names hm hwild hruns.stands) he
      | false =>
        have hnames := hruns.stands
        rw [Expression.names_eq, hwild] at hnames
        cases hnames
        -- A name that is no wildcard need not be that of an object.
        rcases hstep : outcome (d.apply r.entityTypes expression v) w with ⟨e₁ | u, w₁⟩
        · have hfirst := (outcome_bind_error hstep).symm.trans he
          cases hfirst
          exact (hd.writesLast v).eq_of_error hm hstep
        · have hfirst := (outcome_bind_ok hstep).symm.trans he
          cases hfirst
  · rw [hfails.outcome_apply v]
    refine ⟨⟨m, hm, fun _ _ _ => rfl⟩, fun e' w' he => ?_⟩
    cases he
    rfl

/-- A site with two roles, one of them translated. -/
def siteOfTwoRoles : Workspace where
  files := {}
  active := .memory (Snapshot.ofList
    [(defaultCollection, "user.role.x", Mapping.empty),
      (defaultCollection, "user.role.y", Mapping.empty),
      ("language.de", "user.role.x", Mapping.empty)])

/-- Granting a permission to all roles leaves the translation, and a status that is no boolean is
given to no role. -/
theorem untouched_in_siteOfTwoRoles : ∃ r, core Expression.roleTypes = .ok r ∧
    (∃ m', (outcome (r.apply "grantPermission" "user.role.*" (.string "edit"))
        siteOfTwoRoles).2.active = .memory m' ∧
      m'.object? "language.de" "user.role.x" = some Mapping.empty) ∧
    ∃ e, outcome (r.apply "setStatus" "user.role.*" (.string "on")) siteOfTwoRoles
      = (.error e, siteOfTwoRoles) := by
  have hfails : ((core Expression.roleTypes).toOption.all fun r =>
      (outcome (r.apply "setStatus" "user.role.*" (.string "on")) siteOfTwoRoles).1.isOk)
        = false := by
    decide +kernel
  cases hr : core Expression.roleTypes with
  | error e =>
    rw [hr] at hfails
    cases hfails
  | ok r =>
    rw [hr] at hfails
    obtain ⟨m', hm', hsame⟩ := (@untouched_of_apply "user.role.*" siteOfTwoRoles _ r
      "grantPermission" rfl (fun _ hd _ => mem_core hr hd) (.string "edit")).1
    refine ⟨r, rfl, ⟨m', hm', ?_⟩, ?_⟩
    · exact hsame "language.de" "user.role.x" fun h => absurd h (by decide)
    · rcases he : outcome (r.apply "setStatus" "user.role.*" (.string "on")) siteOfTwoRoles with
        ⟨e | u, w'⟩
      · exact ⟨e, congrArg (Prod.mk _) ((untouched_of_apply (m := _) rfl
          (fun _ hd _ => mem_core hr hd) (.string "on")).2 e w' he)⟩
      · rw [Except.toOption, Option.all_some, he] at hfails
        cases hfails

end ActionRegistry

end Cookbook
