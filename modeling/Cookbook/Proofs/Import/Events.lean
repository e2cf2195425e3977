import Cookbook.Proofs.Import
import Cookbook.Proofs.Import.Telling
import Cookbook.Proofs.Storage.Comparing

/-!
# An import step by step

After the exchange of extensions an import is one loop: it goes through the events of its change
lists and does for each what the event says, before it tells it. So what an import leaves when it is
stopped can be read off the events that were told: they are replayed from the source, the last one
included.

The events are fixed before the loop begins. They depend on what the exchange of extensions left,
and an exchange that fails leaves anything. Until then, though, listeners have been told nothing
about objects.

## Main definitions

* `ImportEvent.replay`: what an event does to a configuration in memory.
* `ImportEvent.ofChanges`: the events of change lists.
* `ImportM.perform`: the step of an import that an event stands for.

## Main results

* `ImportM.outcome_perform`: one step.
* `ImportM.exists_performed`: several steps.
* `ImportM.reported_of_importFrom`: the ways in which an import ends.
-/

namespace Cookbook

open Change

/-! ### Events -/

namespace ImportEvent

/-- The place of the object that an event is about. -/
def place? : ImportEvent → Option (String × String)
  | delete c name | create c name | update c name => some (c, name)
  | _ => none

/-- Whether an event is told before objects are changed. -/
def isEarly : ImportEvent → Bool
  | validate | uninstalled _ | installed _ => true
  | _ => false

/-- What an event does to a configuration in memory, with the objects of a source. -/
def replay (L m : Snapshot) : ImportEvent → Snapshot
  | delete c name => Storage.dropObject m c name
  | create c name | update c name => Snapshot.copied L c m name
  | _ => m

/-- The source has the object that an event takes from it. -/
def Given (L : Snapshot) : ImportEvent → Prop
  | create c name | update c name => (L.object? c name).isSome
  | _ => True

/-- The events of the change list of a collection: deletions, creations, updates. -/
def ofList (c : String) (l : ChangeList) : List ImportEvent :=
  l.delete.map (delete c) ++ l.create.map (create c) ++ l.update.map (update c)

/-- The events of the change lists of all collections. -/
def ofChanges (changes : NameMap ChangeList) : List ImportEvent :=
  changes.entries.flatMap fun e => ofList e.1 e.2

def isDelete : ImportEvent → Bool
  | delete .. => true
  | _ => false

def isCreate : ImportEvent → Bool
  | create .. => true
  | _ => false

def isUpdate : ImportEvent → Bool
  | update .. => true
  | _ => false

end ImportEvent

namespace ImportSummary

/-- Count an event. -/
def counted (s : ImportSummary) : ImportEvent → ImportSummary
  | .delete .. => { s with deleted := s.deleted + 1 }
  | .create .. => { s with created := s.created + 1 }
  | .update .. => { s with updated := s.updated + 1 }
  | _ => s

theorem foldl_counted (es : List ImportEvent) (s : ImportSummary) : es.foldl counted s =
    { s with
      created := s.created + es.countP (·.isCreate)
      updated := s.updated + es.countP (·.isUpdate)
      deleted := s.deleted + es.countP (·.isDelete) } := by
  induction es generalizing s with
  | nil => simp
  | cons e es ih =>
    rw [List.foldl_cons, ih]
    cases e <;> simp [counted, ImportEvent.isCreate, ImportEvent.isUpdate, ImportEvent.isDelete,
      Nat.add_assoc, Nat.add_comm 1]

end ImportSummary

namespace ImportM

variable {L m : Snapshot} {source : Storage} {i : Import} {ev : ImportEvent}
  {es : List ImportEvent} {catalog : Catalog}

/-! ### The loop -/

/-- Do what an event says, and then tell it. -/
def perform (source : Storage) : ImportEvent → ImportM Unit
  | .delete c name => do
    let _ ← change (ConfigM.delete (some c) name)
    count fun s => { s with deleted := s.deleted + 1 }
    tell (.delete c name)
  | .create c name => do
    change (copy source c name)
    count fun s => { s with created := s.created + 1 }
    tell (.create c name)
  | .update c name => do
    change (copy source c name)
    count fun s => { s with updated := s.updated + 1 }
    tell (.update c name)
  | e => tell e

theorem changeCollection_eq (source : Storage) (c : String) (l : ChangeList) :
    changeCollection source c l = (ImportEvent.ofList c l).forM (perform source) := by
  simp only [ImportEvent.ofList, List.forM_eq_forM, List.forM_append, List.forM_map, bind_assoc]
  rfl

theorem forM_changeCollection_eq (source : Storage) (entries : List (String × ChangeList)) :
    (entries.forM fun (c, l) => changeCollection source c l)
      = (entries.flatMap fun e => ImportEvent.ofList e.1 e.2).forM (perform source) := by
  simp only [List.forM_eq_forM]
  induction entries with
  | nil => rfl
  | cons e entries ih =>
    rw [List.forM_cons, List.flatMap_cons, List.forM_append, ih, changeCollection_eq]
    rfl

/-- One step does what its event says, counts it and tells it. -/
theorem outcome_perform (hsource : source.Shows L) (hi : i.workspace.active = .memory m)
    (hev : ev.Given L) :
    outcome (perform source ev) i = ((ImportListener.tell ev i.listeners).1,
      { workspace := { i.workspace with active := .memory (ev.replay L m) }
        listeners := (ImportListener.tell ev i.listeners).2
        summary := i.summary.counted ev }) := by
  have hcopy : ∀ c name, (L.object? c name).isSome →
      outcome (change (copy source c name)) i = (.ok (), { i with
        workspace := { i.workspace with active := .memory (Snapshot.copied L c m name) } }) := by
    intro c name h
    obtain ⟨o, ho⟩ := Option.isSome_iff_exists.mp h
    rw [outcome_change, outcome_copy hsource hi ho, Snapshot.copied, ho, Option.elim_some]
  have hcount : ∀ (f : ImportSummary → ImportSummary) (j : Import),
      outcome (count f) j = (.ok (), { j with summary := f j.summary }) := fun _ _ => rfl
  have hstays : { i.workspace with active := .memory m } = i.workspace := by
    rw [← hi]
  cases ev with
  | delete c name =>
    have hdelete : outcome (change (ConfigM.delete (some c) name)) i
        = (.ok ((m.collection c).contains name), { i with
          workspace := { i.workspace with active := .memory (Storage.dropObject m c name) } }) := by
      rw [outcome_change, ConfigM.outcome_delete hi]
      rfl
    rw [perform, outcome_bind_ok hdelete, outcome_bind_ok (hcount _ _), outcome_tell]
    rfl
  | create c name =>
    rw [perform, outcome_bind_ok (hcopy c name hev), outcome_bind_ok (hcount _ _), outcome_tell]
    rfl
  | update c name =>
    rw [perform, outcome_bind_ok (hcopy c name hev), outcome_bind_ok (hcount _ _), outcome_tell]
    rfl
  | validate | uninstalled | installed | imported =>
    rw [perform, outcome_tell, ImportEvent.replay, hstays]
    · rfl
    all_goals simp

/-- Several steps, one after the other: what is left is what the events that were told do. -/
theorem exists_performed (hsource : source.Shows L) (hi : i.workspace.active = .memory m)
    (hes : ∀ ev ∈ es, ev.Given L) :
    ∃ r dispatched ls', ImportListener.Told es i.listeners r dispatched ls' ∧
      outcome (es.forM (perform source)) i = (r, {
        workspace := { i.workspace with
          active := .memory (dispatched.foldl (ImportEvent.replay L) m) }
        listeners := ls'
        summary := dispatched.foldl ImportSummary.counted i.summary }) := by
  induction es generalizing i m with
  | nil =>
    refine ⟨.ok (), [], i.listeners, .nil _, ?_⟩
    rw [List.foldl_nil, ← hi]
    rfl
  | cons ev es ih =>
    obtain ⟨hev, hrest⟩ := List.forall_mem_cons.mp hes
    have hstep := outcome_perform hsource hi hev
    have htold := ImportListener.told_tell ev i.listeners
    rcases htell : ImportListener.tell ev i.listeners with ⟨refusal | ⟨⟩, ls'⟩
    · rw [htell] at hstep htold
      exact ⟨_, [ev], ls', htold.stop es, outcome_bind_error hstep⟩
    · rw [htell] at hstep htold
      obtain ⟨r, dispatched, ls'', hafter, houtcome⟩ := ih (i := { i with
        workspace := { i.workspace with active := .memory (ev.replay L m) }
        listeners := ls'
        summary := i.summary.counted ev }) rfl hrest
      exact ⟨r, ev :: dispatched, ls'', htold.append hafter, (outcome_bind_ok hstep).trans houtcome⟩

/-! ### The exchange of extensions -/

/-- An import in memory that all listeners have accepted so far. -/
structure Reached (ls : List ImportListener) (es : List ImportEvent) (s : ImportSummary)
    (i : Import) : Prop where
  inMemory : i.workspace.InMemory
  told : ImportListener.Told es ls (.ok ()) es i.listeners
  summary_eq : i.summary = s

section Exchange

variable {ls : List ImportListener} {s : ImportSummary}

theorem leads_reached_change {x : ConfigM Unit} (h : Keeps Workspace.InMemory x fun _ => True) :
    Leads (Reached ls es s) (change x) (fun _ => Reached ls es s) True := by
  rintro i ⟨hmemory, htold, hsummary⟩
  rw [outcome_change]
  rcases hx : outcome x i.workspace with ⟨e | ⟨⟩, w⟩
  · exact .inr ⟨trivial, e, _, rfl⟩
  · exact .inl ⟨(), _, rfl, h.state hmemory hx, htold, hsummary⟩

theorem leads_reached_tell (ev : ImportEvent) :
    Leads (Reached ls es s) (tell ev) (fun _ => Reached ls (es ++ [ev]) s) True := by
  rintro i ⟨hmemory, htold, hsummary⟩
  have htell := ImportListener.told_tell ev i.listeners
  rw [outcome_tell]
  rcases h : ImportListener.tell ev i.listeners with ⟨refusal | ⟨⟩, ls'⟩
  · exact .inr ⟨trivial, refusal, _, rfl⟩
  · rw [h] at htell
    exact .inl ⟨(), _, rfl, hmemory, htold.append htell, hsummary⟩

theorem leads_reached_tellAll (names : List String) (e : String → ImportEvent) :
    Leads (Reached ls es s) (names.forM fun name => tell (e name))
      (fun _ => Reached ls (es ++ names.map e) s) True := by
  have hfold : ∀ es, names.foldl (fun es name => es ++ [e name]) es = es ++ names.map e := by
    intro es
    induction names generalizing es with
    | nil => simp
    | cons n names ih => simp [ih]
  rw [← hfold]
  exact Leads.forM (V := fun es => Reached ls es s)
    (fun name _ es => leads_reached_tell (e name)) es

end Exchange

end ImportM

/-- The extensions that one snapshot lists and another does not, ascending. -/
def Snapshot.installedOnly (m L : Snapshot) : List String :=
  m.installed.filter (!L.installed.contains ·)

theorem Snapshot.pairwise_installedOnly (m L : Snapshot) :
    (m.installedOnly L).Pairwise (· < ·) := by
  have hinstalled : m.installed.Pairwise (· < ·) := by
    rw [installed, Storage.installedIn]
    cases m.object? defaultCollection coreExtension with
    | none => exact .nil
    | some o => exact (NameMap.ofList _).ascending
  exact hinstalled.sublist List.filter_sublist

namespace ImportM

variable {L m : Snapshot} {source : Storage} {i : Import} {ev : ImportEvent}
  {es : List ImportEvent} {catalog : Catalog} {ls : List ImportListener} {s : ImportSummary}

/-- Where an exchange of extensions succeeds, every listener has heard of each extension. -/
theorem leads_exchangeExtensions (hsource : source.Shows L) (catalog : Catalog) :
    Leads (fun i => Reached ls es s i ∧ i.workspace.active = .memory m)
      (exchangeExtensions catalog source)
      (fun _ => Reached ls (es ++ ((m.installedOnly L).map .uninstalled
          ++ (L.installedOnly m).map .installed))
        { s with installed := L.installedOnly m, uninstalled := m.installedOnly L }) True := by
  have huninstall : Keeps Workspace.InMemory (catalog.uninstall (m.installedOnly L))
      fun _ => True :=
    Catalog.keeps_uninstall (Guard.free_allowsUninstall catalog)
  have hinstall : Keeps Workspace.InMemory (catalog.install (L.installedOnly m) (some source))
      fun _ => True :=
    Catalog.keeps_install (Guard.free_allowsInstall catalog)
      (Catalog.holds_of_forall (fun _ => trivial) catalog)
      fun s _ => Storage.holds_of_forall (fun _ => trivial) s
  have hcount : ∀ es (f : ImportSummary → ImportSummary),
      Leads (Reached ls es s) (count f) (fun _ => Reached ls es (f s)) True := by
    rintro es f i ⟨hmemory, htold, rfl⟩
    exact .inl ⟨(), _, rfl, hmemory, htold, rfl⟩
  have hinstalling : ∀ es (f : ImportSummary → ImportSummary), Leads (Reached ls es s)
      (if (L.installedOnly m).isEmpty then count f else do
        change (catalog.install (L.installedOnly m) (some source))
        (L.installedOnly m).forM fun name => tell (.installed name)
        count f)
      (fun _ => Reached ls (es ++ (L.installedOnly m).map .installed) (f s)) True := by
    intro es f
    split
    · rename_i hnone
      rw [List.isEmpty_iff.mp hnone, List.map_nil, List.append_nil]
      exact hcount es f
    · refine (leads_reached_change hinstall).bind fun _ => ?_
      exact (leads_reached_tellAll _ _).bind fun _ => hcount _ f
  rintro i ⟨hreached, hm⟩
  rw [exchangeExtensions, outcome_bind_ok (outcome_change_wanted hsource i),
    outcome_bind_ok (outcome_change_current hm)]
  refine Leads.mono (P := Reached ls es s) (Q := fun _ => Reached ls (es ++
      ((m.installedOnly L).map .uninstalled ++ (L.installedOnly m).map .installed))
    { s with installed := L.installedOnly m, uninstalled := m.installedOnly L })
    ?_ (fun _ _ h => h) (fun h => h) i hreached
  rw [← List.append_assoc]
  change Leads (Reached ls es s) (if (m.installedOnly L).isEmpty then _ else _) _ _
  split
  · rename_i hnone
    have hnil : es ++ (m.installedOnly L).map ImportEvent.uninstalled = es := by
      rw [List.isEmpty_iff.mp hnone, List.map_nil, List.append_nil]
    rw [hnil]
    exact hinstalling es fun s =>
      { s with installed := L.installedOnly m, uninstalled := m.installedOnly L }
  · refine (leads_reached_change huninstall).bind fun _ => ?_
    refine (leads_reached_tellAll _ _).bind fun _ => ?_
    exact hinstalling _ fun s =>
      { s with installed := L.installedOnly m, uninstalled := m.installedOnly L }

/-- Exchanging extensions tells nothing about objects. -/
theorem keeps_onlyTold_exchangeExtensions (ls : List ImportListener) (catalog : Catalog)
    (source : Storage) :
    Keeps (fun i => ImportListener.OnlyTold (·.isEarly) ls i.listeners)
      (exchangeExtensions catalog source) fun _ => True := by
  have hchange : ∀ {α : Type} (x : ConfigM α),
      Keeps (fun i => ImportListener.OnlyTold (·.isEarly) ls i.listeners) (change x)
        fun _ => True := by
    intro α x i hi
    rw [outcome_change]
    exact ⟨hi, fun _ _ => trivial⟩
  have htell : ∀ ev : ImportEvent, ev.isEarly = true →
      Keeps (fun i => ImportListener.OnlyTold (·.isEarly) ls i.listeners) (tell ev)
        fun _ => True := by
    intro ev hev i hi
    rw [outcome_tell]
    exact ⟨hi.trans (.tell hev i.listeners), fun _ _ => trivial⟩
  refine keeps_exchangeExtensions_of (fun f => hchange _) (fun names => hchange _)
    (fun names => hchange _) (fun name => htell _ rfl) (fun name => htell _ rfl) fun f i hi => ?_
  exact ⟨hi, fun _ _ => trivial⟩

/-! ### The whole import -/

/-- What is told before objects are changed, if nothing fails. -/
def earlyEvents (L m : Snapshot) : List ImportEvent :=
  .validate :: ((m.installedOnly L).map .uninstalled ++ (L.installedOnly m).map .installed)

/-- What is left to be done and told for some change lists. -/
def lateEvents (changes : NameMap ChangeList) : List ImportEvent :=
  ImportEvent.ofChanges changes ++ [.imported]

theorem forM_lateEvents (source : Storage) (changes : NameMap ChangeList) :
    (lateEvents changes).forM (perform source) = (do
      changes.entries.forM fun (c, l) => changeCollection source c l
      tell .imported) := by
  rw [forM_changeCollection_eq]
  simp only [lateEvents, ImportEvent.ofChanges, List.forM_eq_forM, List.forM_append,
    List.forM_cons, List.forM_nil, bind_pure_unit]
  rfl

/-- What an import has reached after the exchange of extensions. -/
structure Exchanged (catalog : Catalog) (source : Storage) (L m : Snapshot) (start i : Import)
    (m₁ : Snapshot) (changes : NameMap ChangeList) : Prop where
  outcome_eq : outcome (do validate source; exchangeExtensions catalog source) start = (.ok (), i)
  active_eq : i.workspace.active = .memory m₁
  /-- Every listener has heard of the source and of each extension. -/
  listeners_eq : i.listeners = start.listeners.map (ImportListener.told (earlyEvents L m))
  accepts : ∀ l ∈ start.listeners, l.Accepts (earlyEvents L m)
  summary_eq : i.summary =
    { start.summary with installed := L.installedOnly m, uninstalled := m.installedOnly L }
  /-- What is left to do is found out now. -/
  changes_eq : Storage.changesTo i.workspace.files source (.memory m₁) = .ok changes
  changesTo : L.ChangesTo m₁ changes

/-- After the exchange of extensions, an import performs the events of its change lists. -/
theorem Exchanged.outcome_importFrom {start : Import} {m₁ : Snapshot}
    {changes : NameMap ChangeList} (h : Exchanged catalog source L m start i m₁ changes) :
    outcome (importFrom catalog source) start
      = match outcome ((lateEvents changes).forM (perform source)) i with
        | (.ok _, i') => (.ok i'.summary, i')
        | (.error e, i') => (.error e, i') := by
  have hchanges : outcome (change (ConfigM.ask fun fs active =>
      Storage.changesTo fs source active)) i = (.ok changes, i) := by
    rw [outcome_change_ask _ h.active_eq, h.changes_eq]
  have hstart : importFrom catalog source = (do
      (do validate source; exchangeExtensions catalog source)
      let changes ← change (ConfigM.ask fun fs active => Storage.changesTo fs source active)
      (lateEvents changes).forM (perform source)
      return (← get).summary) := by
    simp only [importFrom, forM_lateEvents, bind_assoc]
  rw [hstart, outcome_bind_ok h.outcome_eq, outcome_bind_ok hchanges, outcome_bind]
  rcases outcome ((lateEvents changes).forM (perform source)) i
    with ⟨e | ⟨⟩, i'⟩
  · rfl
  · rfl

/-- If everything is told, the summary counts the changes of objects beside the extensions. -/
theorem Exchanged.summary_late {start : Import} {m₁ : Snapshot} {changes : NameMap ChangeList}
    (h : Exchanged catalog source L m start i m₁ changes) (hstart : start.summary = {}) :
    (lateEvents changes).foldl ImportSummary.counted i.summary = {
      created := (ImportEvent.ofChanges changes).countP (·.isCreate)
      updated := (ImportEvent.ofChanges changes).countP (·.isUpdate)
      deleted := (ImportEvent.ofChanges changes).countP (·.isDelete)
      installed := L.installedOnly m
      uninstalled := m.installedOnly L } := by
  rw [ImportSummary.foldl_counted, h.summary_eq, hstart]
  simp [lateEvents, ImportEvent.isCreate, ImportEvent.isUpdate, ImportEvent.isDelete]

/-- If everything is told, each listener has heard it from the start, and accepted it. -/
theorem Exchanged.told_late {start : Import} {m₁ : Snapshot} {changes : NameMap ChangeList}
    (h : Exchanged catalog source L m start i m₁ changes)
    (haccept : ∀ l ∈ i.listeners, l.Accepts (lateEvents changes)) :
    i.listeners.map (ImportListener.told (lateEvents changes))
      = start.listeners.map (ImportListener.told (earlyEvents L m ++ lateEvents changes)) ∧
    ∀ l ∈ start.listeners, l.Accepts (earlyEvents L m ++ lateEvents changes) := by
  rw [h.listeners_eq] at haccept ⊢
  refine ⟨by rw [List.map_map, ImportListener.told_comp_told], fun l hl => ?_⟩
  exact (h.accepts l hl).append (haccept _ (List.mem_map_of_mem hl))

/-- The end of an import changes nothing. -/
theorem foldl_replay_lateEvents (L m : Snapshot) (changes : NameMap ChangeList) :
    (lateEvents changes).foldl (ImportEvent.replay L) m
      = (ImportEvent.ofChanges changes).foldl (ImportEvent.replay L) m := by
  rw [lateEvents, List.foldl_append]
  rfl

theorem given_of_mem_lateEvents {changes : NameMap ChangeList} (h : L.ChangesTo m changes) :
    ∀ ev ∈ lateEvents changes, ev.Given L := by
  rw [lateEvents, List.forall_mem_append]
  refine ⟨fun ev hev => ?_, by simp [ImportEvent.Given]⟩
  obtain ⟨⟨c, l⟩, he, hev⟩ := List.mem_flatMap.mp hev
  have hsome : ∀ name ∈ l.create ++ l.update, (L.object? c name).isSome := h.isSome_of_mem he
  rw [ImportEvent.ofList, List.mem_append, List.mem_append] at hev
  rcases hev with (hev | hev) | hev
  · obtain ⟨name, -, rfl⟩ := List.mem_map.mp hev
    trivial
  · obtain ⟨name, hname, rfl⟩ := List.mem_map.mp hev
    exact hsome name (List.mem_append_left _ hname)
  · obtain ⟨name, hname, rfl⟩ := List.mem_map.mp hev
    exact hsome name (List.mem_append_right _ hname)

/-- No place is changed twice. -/
theorem nodup_places {changes : NameMap ChangeList} (h : L.ChangesTo m changes) :
    ((ImportEvent.ofChanges changes).filterMap ImportEvent.place?).Nodup := by
  have hplaces : ∀ (c : String) (l : ChangeList),
      (ImportEvent.ofList c l).filterMap ImportEvent.place?
        = (l.delete ++ l.create ++ l.update).map fun name => (c, name) := by
    intro c l
    simp [ImportEvent.ofList, List.filterMap_append, List.filterMap_map, Function.comp_def,
      ImportEvent.place?]
  rw [ImportEvent.ofChanges, List.filterMap_flatMap, List.nodup_flatMap]
  constructor
  · rintro ⟨c, l⟩ he
    rw [hplaces]
    refine List.Nodup.map (fun a b hab => (Prod.mk.inj hab).2) ?_
    have hl : l = Objects.changesTo (L.collection c) (m.collection c) := h.eq_of_mem he
    have hnodup := Objects.nodup_changesTo (L.collection c) (m.collection c)
    rw [hl, List.append_assoc]
    exact (List.perm_append_comm.nodup_iff).mp hnodup
  · have hnames : changes.entries.Pairwise fun e f => e.1 ≠ f.1 :=
      List.pairwise_map.mp changes.nodup_names
    refine hnames.imp fun {e f} hne place he hf => ?_
    dsimp only at he hf
    rw [hplaces] at he hf
    obtain ⟨name, -, rfl⟩ := List.mem_map.mp he
    obtain ⟨name', -, heq⟩ := List.mem_map.mp hf
    exact hne (Prod.mk.inj heq).1.symm

/-- After a source was accepted, extensions are exchanged, or that fails. -/
theorem exchanged_of_validate (hsource : source.Shows L) (start : Import) {i₀ i₁ : Import}
    (hm : start.workspace.active = .memory m)
    (hvalidate : outcome (validate source) start = (.ok (), i₀))
    (hreached : Reached start.listeners [.validate] start.summary i₀)
    (hsame : i₀.workspace = start.workspace)
    (hexchange : outcome (exchangeExtensions catalog source) i₀ = (.ok (), i₁)) :
    ∃ m₁ changes, Exchanged catalog source L m start i₁ m₁ changes := by
  obtain ⟨hmemory, htold, hsummary⟩ := (leads_exchangeExtensions hsource catalog).of_ok
    ⟨hreached, (congrArg Workspace.active hsame).trans hm⟩ hexchange
  obtain ⟨m₁, hm₁⟩ := Workspace.inMemory_iff.mp hmemory
  obtain ⟨changes, hchanges, hto⟩ :=
    Storage.exists_changesTo hsource (.memory m₁) i₁.workspace.files
  obtain ⟨-, hlisteners, haccept⟩ := htold.all_accept
  exact ⟨m₁, changes, (outcome_bind_ok hvalidate).trans hexchange, hm₁, hlisteners, haccept,
    hsummary, hchanges, hto⟩

/-- What an import from a source that lists extensions tells, and what it leaves. A listener refuses
the source, and nothing is changed; or extensions cannot be exchanged, and nothing about objects is
told; or all listeners accept all events; or a listener refuses a later event, and then what was
told before it and the event itself is done, and nothing else. -/
theorem reported_of_importFrom (hsource : source.Shows L)
    (hlists : (L.object? defaultCollection coreExtension).isSome = true) {w : Workspace}
    (hw : w.active = .memory m) (catalog : Catalog) (ls : List ImportListener) :
    ((m.installedOnly L).Pairwise (· < ·) ∧ (L.installedOnly m).Pairwise (· < ·)) ∧
    ((∃ e i', outcome (importFrom catalog source) { workspace := w, listeners := ls }
          = (.error e, i') ∧
        outcome (validate source) { workspace := w, listeners := ls } = (.error e, i') ∧
        ImportListener.Told [.validate] ls (.error e) [.validate] i'.listeners ∧
        i'.workspace = w) ∨
      (∃ e i₀ i', outcome (importFrom catalog source) { workspace := w, listeners := ls }
          = (.error e, i') ∧
        outcome (validate source) { workspace := w, listeners := ls } = (.ok (), i₀) ∧
        outcome (exchangeExtensions catalog source) i₀ = (.error e, i') ∧
        ImportListener.OnlyTold (·.isEarly) ls i'.listeners) ∨
      ∃ i m₁ changes,
        Exchanged catalog source L m { workspace := w, listeners := ls } i m₁ changes ∧
        changes.names.Pairwise (· < ·) ∧
        ((ImportEvent.ofChanges changes).filterMap ImportEvent.place?).Nodup ∧
        ((∃ summary i', outcome (importFrom catalog source) { workspace := w, listeners := ls }
              = (.ok summary, i') ∧
            summary = {
              created := (ImportEvent.ofChanges changes).countP (·.isCreate)
              updated := (ImportEvent.ofChanges changes).countP (·.isUpdate)
              deleted := (ImportEvent.ofChanges changes).countP (·.isDelete)
              installed := L.installedOnly m
              uninstalled := m.installedOnly L } ∧
            i'.listeners = ls.map (ImportListener.told (earlyEvents L m ++ lateEvents changes)) ∧
            (∀ l ∈ ls, l.Accepts (earlyEvents L m ++ lateEvents changes)) ∧
            i'.workspace = { i.workspace with
              active := .memory ((ImportEvent.ofChanges changes).foldl
                (ImportEvent.replay L) m₁) }) ∨
          ∃ e dispatched i',
            outcome (importFrom catalog source) { workspace := w, listeners := ls }
              = (.error e, i') ∧
            ImportListener.Told (lateEvents changes) i.listeners (.error e) dispatched
              i'.listeners ∧
            i'.workspace = { i.workspace with
              active := .memory (dispatched.foldl (ImportEvent.replay L) m₁) })) := by
  refine ⟨⟨Snapshot.pairwise_installedOnly m L, Snapshot.pairwise_installedOnly L m⟩, ?_⟩
  have hvalidate : outcome (validate source) { workspace := w, listeners := ls }
      = ((ImportListener.tell .validate ls).1,
        { workspace := w, listeners := (ImportListener.tell .validate ls).2 }) :=
    (outcome_validate hsource hlists).trans (outcome_tell _ _)
  have htold := ImportListener.told_tell .validate ls
  have honly := ImportListener.OnlyTold.tell (P := fun ev => ev.isEarly = true) (e := .validate)
    rfl ls
  generalize ImportListener.tell .validate ls = answer at hvalidate htold honly
  obtain ⟨e | ⟨⟩, ls₀⟩ := answer
  · exact .inl ⟨e, _, outcome_bind_error hvalidate, hvalidate, htold, rfl⟩
  · right
    rcases hexchange : outcome (exchangeExtensions catalog source)
        { workspace := w, listeners := ls₀ } with ⟨e | ⟨⟩, i⟩
    · refine .inl ⟨e, _, i, ?_, hvalidate, hexchange, ?_⟩
      · exact (outcome_bind_ok hvalidate).trans (outcome_bind_error hexchange)
      · exact (keeps_onlyTold_exchangeExtensions ls catalog source).state honly hexchange
    · right
      obtain ⟨m₁, changes, hexchanged⟩ := exchanged_of_validate hsource
        { workspace := w, listeners := ls } hw hvalidate
        ⟨Workspace.inMemory_iff.mpr ⟨m, hw⟩, htold, rfl⟩ rfl hexchange
      refine ⟨i, m₁, changes, hexchanged, changes.ascending, nodup_places hexchanged.changesTo, ?_⟩
      obtain ⟨r, dispatched, ls', hlate, houtcome⟩ := exists_performed hsource
        hexchanged.active_eq (given_of_mem_lateEvents hexchanged.changesTo)
      have himport := hexchanged.outcome_importFrom
      rw [houtcome] at himport
      cases r with
      | error e => exact .inr ⟨e, dispatched, _, himport, hlate, rfl⟩
      | ok _ =>
        obtain ⟨rfl, rfl, haccept⟩ := hlate.all_accept
        obtain ⟨hlisteners, hall⟩ := hexchanged.told_late haccept
        exact .inl ⟨_, _, himport, hexchanged.summary_late rfl, hlisteners, hall,
          by rw [foldl_replay_lateEvents]⟩

/-! ### An instance -/

/-- A catalog with one module. -/
def oneModule : Catalog := NameMap.ofList [("old", { name := "old", kind := .module })]

/-- An object that lists modules as installed. -/
def listsModules (names : List String) : ConfigObject :=
  Mapping.ofNames [("module", (Mapping.ofNames (names.map fun n => (n, .int 0))).toValue)]

/-- A configuration without the module. -/
def wanted : Snapshot := Snapshot.ofList [
  ("", coreExtension, listsModules []),
  ("", "b.new", Mapping.empty),
  ("", "c.site", Mapping.ofNames [("lang", .string "en")])]

/-- A configuration with the module, an object of it and another one that has to go. -/
def present : Snapshot := Snapshot.ofList [
  ("", coreExtension, listsModules ["old"]),
  ("", "a.left", Mapping.empty),
  ("", "c.site", Mapping.ofNames [("lang", .string "de")]),
  ("", "old.page", Mapping.empty)]

/-- A listener that accepts everything. -/
def attentive : ImportListener where
  answer _ _ := .ok ()

/-- A listener that does not let objects be updated. -/
def guarding : ImportListener where
  answer
    | _, .update .. => .error (.configImport "Updates are locked.")
    | _, _ => .ok ()

/-- The import is about to start, with two listeners of which the second is never content. -/
def guarded : Import where
  workspace := { files := {}, active := .memory present }
  listeners := [attentive, guarding, attentive]

theorem reported_to_guarding :
    (Storage.view wanted).Shows wanted ∧
    (wanted.object? defaultCollection coreExtension).isSome = true ∧
    guarded.workspace.active = .memory present ∧
    ∃ i m₁ changes, Exchanged oneModule (.view wanted) wanted present guarded i m₁ changes ∧
      ∃ e dispatched i',
        outcome (importFrom oneModule (.view wanted)) guarded = (.error e, i') ∧
        ImportListener.Told (lateEvents changes) i.listeners (.error e) dispatched i'.listeners ∧
        i'.workspace = { i.workspace with
          active := .memory (dispatched.foldl (ImportEvent.replay wanted) m₁) } ∧
        i'.listeners.map (·.heard) = [
          [.validate, .uninstalled "old", .delete "" "a.left", .create "" "b.new",
            .update "" "c.site"],
          [.validate, .uninstalled "old", .delete "" "a.left", .create "" "b.new",
            .update "" "c.site"],
          [.validate, .uninstalled "old", .delete "" "a.left", .create "" "b.new"]] := by
  have hlists : (wanted.object? defaultCollection coreExtension).isSome = true := rfl
  have hheard : (outcome (importFrom oneModule (.view wanted)) guarded).2.listeners.map (·.heard)
      = [
          [.validate, .uninstalled "old", .delete "" "a.left", .create "" "b.new",
            .update "" "c.site"],
          [.validate, .uninstalled "old", .delete "" "a.left", .create "" "b.new",
            .update "" "c.site"],
          [.validate, .uninstalled "old", .delete "" "a.left", .create "" "b.new"]] := by
    decide +kernel
  have hfails : (outcome (importFrom oneModule (.view wanted)) guarded).1.isOk = false := by
    decide +kernel
  have hexchanged : (outcome (do
      validate (.view wanted)
      exchangeExtensions oneModule (.view wanted)) guarded).1.isOk = true := by
    decide +kernel
  refine ⟨.view wanted, hlists, rfl, ?_⟩
  obtain ⟨-, ⟨e, i', -, hvalidate, -⟩ | ⟨e, i₀, i', -, hvalidate, hexchange, -⟩ |
    ⟨i, m₁, changes, hex, -, -, ⟨summary, i', hok, -⟩ | ⟨e, dispatched, i', herror, htold, hw⟩⟩⟩ :=
    reported_of_importFrom (.view wanted) hlists (w := guarded.workspace) rfl oneModule
      guarded.listeners
  · have hfirst : outcome (validate (.view wanted)) guarded = (.error e, i') := hvalidate
    rw [outcome_bind_error hfirst] at hexchanged
    cases hexchanged
  · have hfirst : outcome (validate (.view wanted)) guarded = (.ok (), i₀) := hvalidate
    rw [outcome_bind_ok hfirst, hexchange] at hexchanged
    cases hexchanged
  · have hends : outcome (importFrom oneModule (.view wanted)) guarded = (.ok summary, i') := hok
    rw [hends] at hfails
    cases hfails
  · have hends : outcome (importFrom oneModule (.view wanted)) guarded = (.error e, i') := herror
    rw [hends] at hheard
    exact ⟨i, m₁, changes, hex, e, dispatched, i', herror, htold, hw, hheard⟩

end ImportM

end Cookbook
