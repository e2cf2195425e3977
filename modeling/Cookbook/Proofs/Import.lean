import Cookbook.Import
import Cookbook.Proofs.Extension.Installing
import Cookbook.Proofs.Extension.Listing
import Cookbook.Proofs.Storage.Changes

/-!
# An import makes the configuration agree with its source

Once extensions have been exchanged, the rest of an import is exact: the change lists are computed
from what is there then, and applying them gives agreement with the source whatever the installer
left behind. So nothing has to be known about what installing and uninstalling did, except that the
configuration is still in memory.

Listeners cannot change anything; all they can do is to stop the import. Where nobody listens, the
part after the exchange of extensions cannot fail. Both are stated at once, with a condition `quiet`
under which nobody listens and failure is impossible.

What an import leaves when it fails is another matter, and there only an invariant can be stated.

## Main definitions

* `Import.At`: an import that has reached a configuration in memory.
* `Import.Obeys`: an import whose configuration has what a guard allows.

## Main results

* `ImportM.leads_changeCollection`: the changes of one collection.
* `ImportM.leads_importFrom`: a whole import, given what is known of the exchange of extensions.
* `ImportM.agrees_of_importFrom`: a successful import reaches agreement with its source.
* `ImportM.keeps_exchangeExtensions`, `ImportM.keeps_importFrom`: invariants.
-/

namespace Cookbook

open Change

/-- An import has reached a configuration in memory, and under a condition nobody listens. -/
def Import.At (quiet : Prop) (m : Snapshot) (i : Import) : Prop :=
  i.workspace.active = .memory m ∧ (quiet → i.listeners = [])

/-- The configuration of an import is in memory with what a guard allows, and under a condition
nobody listens. -/
def Import.Obeys (quiet : Prop) (G : Guard) (i : Import) : Prop :=
  i.workspace.Obeys G ∧ (quiet → i.listeners = [])

namespace ImportM

variable {quiet : Prop} {L m : Snapshot} {c name : String} {G : Guard} {Q : ConfigObject → Prop}
  {catalog : Catalog}

/-! ### Single steps -/

theorem outcome_change {α : Type} (x : ConfigM α) (i : Import) :
    outcome (change x) i
      = ((outcome x i.workspace).1, { i with workspace := (outcome x i.workspace).2 }) := by
  rw [change, outcome_bind, outcome_get]
  exact outcome_ofExcept ..

theorem outcome_tell (e : ImportEvent) (i : Import) :
    outcome (tell e) i = ((ImportListener.tell e i.listeners).1,
      { i with listeners := (ImportListener.tell e i.listeners).2 }) := by
  rw [tell, outcome_bind, outcome_get]
  exact outcome_ofExcept ..

theorem outcome_tell_of_quiet {i : Import} (h : i.listeners = []) (e : ImportEvent) :
    outcome (tell e) i = (.ok (), i) := by
  obtain ⟨w, listeners, summary⟩ := i
  cases h
  rfl

/-- Telling an event changes nothing, and nothing refuses it if nobody listens. -/
theorem leads_tell (e : ImportEvent) :
    Leads (Import.At quiet m) (tell e) (fun _ => Import.At quiet m) (¬quiet) := by
  rintro i ⟨hm, hq⟩
  by_cases h : quiet
  · exact .inl ⟨(), i, outcome_tell_of_quiet (hq h) e, hm, hq⟩
  · rw [outcome_tell]
    rcases ImportListener.tell e i.listeners with ⟨refusal | ⟨⟩, listeners⟩
    · exact .inr ⟨h, refusal, _, rfl⟩
    · exact .inl ⟨(), _, rfl, hm, fun hq => absurd hq h⟩

theorem leads_count (f : ImportSummary → ImportSummary) {E : Prop} :
    Leads (Import.At quiet m) (count f) (fun _ => Import.At quiet m) E :=
  fun _ h => .inl ⟨(), _, rfl, h.1, h.2⟩

/-- A change that does not fail in memory is a step of an import that does not fail. -/
theorem leads_change {α : Type} {x : ConfigM α} {m' : Snapshot} {a : α} {E : Prop}
    (h : ∀ w : Workspace, w.active = .memory m →
      outcome x w = (.ok a, { w with active := .memory m' })) :
    Leads (Import.At quiet m) (change x) (fun b i => b = a ∧ Import.At quiet m' i) E := by
  rintro i ⟨hm, hq⟩
  rw [outcome_change, h i.workspace hm]
  exact .inl ⟨a, _, rfl, rfl, rfl, hq⟩

theorem outcome_copy {source : Storage} {w : Workspace} {o : ConfigObject}
    (hsource : source.Shows L) (hw : w.active = .memory m) (ho : L.object? c name = some o) :
    outcome (copy source c name) w
      = (.ok (), { w with active := .memory (Storage.putObject m c name o) }) := by
  rw [copy, outcome_bind, ConfigM.outcome_askOf]
  simp only [hsource.read?, ho]
  exact ConfigM.outcome_write hw

/-! ### One collection -/

theorem leads_deletions (c : String) (names : List String) :
    Leads (Import.At quiet m) (names.forM fun name => do
        let _ ← change (ConfigM.delete (some c) name)
        count fun s => { s with deleted := s.deleted + 1 }
        tell (.delete c name))
      (fun _ => Import.At quiet (names.foldl (fun m name => Storage.dropObject m c name) m))
      (¬quiet) := by
  refine Leads.forM (V := Import.At quiet) (fun name _ m => ?_) m
  refine (leads_change fun w hw => ConfigM.outcome_delete hw).bind fun found => ?_
  refine Leads.bind (Q := fun _ => Import.At quiet (Storage.dropObject m c name)) ?_ fun _ =>
    leads_tell _
  exact fun i h => leads_count _ i h.2

/-- Copying objects that the source has, with what is done besides for each. -/
theorem leads_copies (c : String) {names : List String}
    (h : ∀ name ∈ names, (L.object? c name).isSome) (f : ImportSummary → ImportSummary)
    (e : String → ImportEvent) :
    Leads (Import.At quiet m) (names.forM fun name => do
        change (copy (.view L) c name)
        count f
        tell (e name))
      (fun _ => Import.At quiet (names.foldl (Snapshot.copied L c) m)) (¬quiet) := by
  refine Leads.forM (V := Import.At quiet) (fun name hname m => ?_) m
  obtain ⟨o, ho⟩ := Option.isSome_iff_exists.mp (h name hname)
  have hcopied : Snapshot.copied L c m name = Storage.putObject m c name o := by
    rw [Snapshot.copied, ho, Option.elim_some]
  rw [hcopied]
  refine (leads_change fun w hw => outcome_copy (.view L) hw ho).bind fun _ => ?_
  refine Leads.bind (Q := fun _ => Import.At quiet (Storage.putObject m c name o)) ?_ fun _ =>
    leads_tell _
  exact fun i h => leads_count _ i h.2

theorem leads_changeCollection (c : String) {l : ChangeList}
    (h : ∀ name ∈ l.create ++ l.update, (L.object? c name).isSome) :
    Leads (Import.At quiet m) (changeCollection (.view L) c l)
      (fun _ => Import.At quiet (Snapshot.changed L c l m)) (¬quiet) := by
  refine (leads_deletions c l.delete).bind fun _ => ?_
  refine (leads_copies c (fun n hn => h n (List.mem_append_left _ hn)) _ _).bind fun _ => ?_
  exact leads_copies c (fun n hn => h n (List.mem_append_right _ hn)) _ _

/-! ### The whole import -/

/-- After the exchange of extensions an import reaches agreement with its source, and it fails in
no other part of it than the exchange if nobody listens. -/
theorem leads_importFrom {P : Import → Prop} {E : Prop}
    (hvalidate : Leads P (validate (.view L)) (fun _ => P) E)
    (hexchange : Leads P (exchangeExtensions catalog (.view L))
      (fun _ i => ∃ m, Import.At quiet m i) E) (hE : ¬quiet → E) :
    Leads P (importFrom catalog (.view L)) (fun _ i => ∃ m, Import.At quiet m i ∧ m.Agrees L) E := by
  refine hvalidate.bind fun _ => hexchange.bind fun _ => ?_
  rintro i ⟨m, hi⟩
  obtain ⟨changes, hchanges, hget⟩ :=
    Storage.exists_changesTo (.view L) (.memory m) i.workspace.files
  have hask : outcome (change (ConfigM.ask fun fs active => Storage.changesTo fs (.view L) active)) i
      = (.ok changes, i) := by
    rw [outcome_change, ConfigM.outcome_ask, hi.1, hchanges]
  rw [outcome_bind_ok hask]
  have hloop := Leads.forM (V := Import.At quiet) (l := changes.entries) (E := ¬quiet)
    (f := fun e => changeCollection (.view L) e.1 e.2)
    (fun e he m => leads_changeCollection e.1 (hget.isSome_of_mem he)) m
  refine Leads.mono (Q := fun _ => Import.At quiet (changes.entries.foldl
    (fun t e => Snapshot.changed L e.1 e.2 t) m)) ?_ ?_ hE i hi
  · refine hloop.bind fun _ => (leads_tell .imported).bind fun _ => ?_
    exact fun i h => .inl ⟨i.summary, i, rfl, h⟩
  · exact fun _ i h => ⟨_, h, Snapshot.agrees_foldl_changed hget⟩

/-! ### Nothing to do -/

/-- An import can only succeed from a source that lists extensions. -/
theorem isSome_of_importFrom {i i' : Import} {summary : ImportSummary}
    (h : outcome (importFrom catalog (.view L)) i = (.ok summary, i')) :
    (L.object? defaultCollection coreExtension).isSome = true := by
  obtain ⟨_, i₁, hvalidate, -⟩ := eq_ok_of_outcome_bind h
  obtain ⟨found, i₂, hfound, hvalidate⟩ := eq_ok_of_outcome_bind hvalidate
  rw [outcome_change, ConfigM.outcome_askOf] at hfound
  cases hL : (L.object? defaultCollection coreExtension).isSome with
  | true => rfl
  | false =>
    have hholds : (Storage.view L).holds i.workspace.files (some defaultCollection) coreExtension
        = .ok false := congrArg Except.ok hL
    rw [hholds] at hfound
    cases hfound
    obtain ⟨_, _, hthrow, -⟩ := eq_ok_of_outcome_bind hvalidate
    cases hthrow

/-! ### Exact outcomes -/

section Exact

variable {i : Import} {source : Storage}

theorem outcome_change_ask {α : Type} (f : Files → Storage → Except Error α)
    (hi : i.workspace.active = .memory m) :
    outcome (change (ConfigM.ask f)) i = (f i.workspace.files (.memory m), i) := by
  rw [outcome_change, ConfigM.outcome_ask, hi]

/-- A source that lists extensions can be imported unless a listener refuses. -/
theorem outcome_validate (hsource : source.Shows L)
    (hlists : (L.object? defaultCollection coreExtension).isSome = true) :
    outcome (validate source) i = outcome (tell .validate) i := by
  have hholds : outcome (change (ConfigM.askOf source
      fun fs s => s.holds fs (some defaultCollection) coreExtension)) i = (.ok true, i) := by
    rw [outcome_change, ConfigM.outcome_askOf]
    dsimp only
    rw [hsource.holds, hlists]
  rw [validate, outcome_bind_ok hholds]
  rfl

theorem outcome_change_wanted (hsource : source.Shows L) (i : Import) :
    outcome (change (ConfigM.askOf source fun fs s => s.installedExtensions fs)) i
      = (.ok (Storage.installedIn (L.object? defaultCollection coreExtension)), i) := by
  rw [outcome_change, ConfigM.outcome_askOf]
  dsimp only
  rw [hsource.installedExtensions]

theorem outcome_change_current (hi : i.workspace.active = .memory m) :
    outcome (change ConfigM.installedExtensions) i
      = (.ok (Storage.installedIn (m.object? defaultCollection coreExtension)), i) := by
  rw [ConfigM.installedExtensions, outcome_change_ask _ hi,
    (Storage.Shows.memory m).installedExtensions]

/-- An import of what is there already, with the same extensions, does nothing. -/
theorem outcome_importFrom_of_agrees (hi : i.workspace.active = .memory m)
    (hquiet : i.listeners = []) (hsummary : i.summary = {}) (hagrees : m.Agrees L)
    (hlists : (L.object? defaultCollection coreExtension).isSome = true)
    (hinstalled : Storage.installedIn (L.object? defaultCollection coreExtension)
      = Storage.installedIn (m.object? defaultCollection coreExtension)) :
    outcome (importFrom catalog (.view L)) i = (.ok {}, i) := by
  have hexchange : outcome (exchangeExtensions catalog (.view L)) i = (.ok (), i) := by
    have hnone : ∀ names : List String, names.filter (!names.contains ·) = [] := by
      intro names
      rw [List.filter_eq_nil_iff]
      intro name hname
      simpa using hname
    rw [exchangeExtensions, outcome_bind_ok (outcome_change_wanted (.view L) i),
      outcome_bind_ok (outcome_change_current hi), hinstalled, hnone]
    have hcount : outcome (count fun s => { s with installed := [], uninstalled := [] }) i
        = (.ok (), i) := by
      obtain ⟨w, listeners, summary⟩ := i
      cases hsummary
      rfl
    exact hcount
  have hchanges : outcome (change (ConfigM.ask fun fs active =>
      Storage.changesTo fs (.view L) active)) i = (.ok NameMap.empty, i) := by
    rw [outcome_change_ask _ hi, Storage.changesTo_of_agrees (.view L) (.memory m) hagrees]
  have hvalidate : outcome (validate (.view L)) i = (.ok (), i) := by
    rw [outcome_validate (.view L) hlists]
    exact outcome_tell_of_quiet hquiet _
  have hnothing : ∀ f : String × ChangeList → ImportM PUnit,
      outcome (NameMap.empty.entries.forM f) i = (.ok ⟨⟩, i) := fun _ => rfl
  rw [importFrom, outcome_bind_ok hvalidate, outcome_bind_ok hexchange,
    outcome_bind_ok hchanges, outcome_bind_ok (hnothing _),
    outcome_bind_ok (outcome_tell_of_quiet hquiet _), outcome_bind_ok (outcome_get i), hsummary]
  rfl

end Exact

/-! ### Invariants -/

theorem keeps_change {α : Type} {x : ConfigM α} {R : α → Prop}
    (h : Keeps (Workspace.Obeys G) x R) : Keeps (Import.Obeys quiet G) (change x) R := by
  rintro i ⟨hG, hq⟩
  rw [outcome_change]
  have hx := h i.workspace hG
  exact ⟨⟨hx.1, hq⟩, hx.2⟩

theorem keeps_tell (e : ImportEvent) :
    Keeps (Import.Obeys quiet G) (tell e) fun _ => True := by
  rintro i ⟨hG, hq⟩
  refine ⟨?_, fun _ _ => trivial⟩
  by_cases h : quiet
  · rw [outcome_tell_of_quiet (hq h)]
    exact ⟨hG, hq⟩
  · rw [outcome_tell]
    exact ⟨hG, fun hq => absurd hq h⟩

theorem keeps_count (f : ImportSummary → ImportSummary) :
    Keeps (Import.Obeys quiet G) (count f) fun _ => True :=
  fun _ h => ⟨h, fun _ _ => trivial⟩

theorem keeps_validate (source : Storage) :
    Keeps (Import.Obeys quiet G) (validate source) fun _ => True := by
  refine (keeps_change (ConfigM.keeps_ask_any _)).bind fun found _ => ?_
  cases found
  · exact (Keeps.throw (R := fun _ => True) _).bind fun _ _ => keeps_tell _
  · exact keeps_tell _

/-- Exchanging extensions keeps what its parts keep. -/
theorem keeps_exchangeExtensions_of {P : Import → Prop} {source : Storage}
    (hask : ∀ f : Files → Storage → Except Error (List String),
      Keeps P (change (ConfigM.ask f)) fun _ => True)
    (huninstall : ∀ names, Keeps P (change (catalog.uninstall names)) fun _ => True)
    (hinstall : ∀ names, Keeps P (change (catalog.install names (some source))) fun _ => True)
    (huninstalled : ∀ name, Keeps P (tell (.uninstalled name)) fun _ => True)
    (hinstalled : ∀ name, Keeps P (tell (.installed name)) fun _ => True)
    (hcount : ∀ f, Keeps P (count f) fun _ => True) :
    Keeps P (exchangeExtensions catalog source) fun _ => True := by
  refine (hask _).bind fun wanted _ => (hask _).bind fun current _ => ?_
  have hrest : ∀ f : ImportSummary → ImportSummary, Keeps P
      (if (wanted.filter (!current.contains ·)).isEmpty then count f else do
        change (catalog.install (wanted.filter (!current.contains ·)) (some source))
        (wanted.filter (!current.contains ·)).forM fun name => tell (.installed name)
        count f) fun _ => True := by
    intro f
    split
    · exact hcount f
    · refine (hinstall _).bind fun _ _ => ?_
      exact (Keeps.forM fun name _ => hinstalled name).bind fun _ _ => hcount f
  dsimp only
  split
  · exact hrest _
  · refine (huninstall _).bind fun _ _ => ?_
    exact (Keeps.forM fun name _ => huninstalled name).bind fun _ _ => hrest _

/-- Exchanging extensions keeps what a guard allows that allows installing and uninstalling. -/
theorem keeps_exchangeExtensions {source : Storage} (hinstall : G.AllowsInstall Q catalog)
    (huninstall : G.AllowsUninstall catalog) (hcatalog : catalog.Holds Q)
    (hsource : source.Holds Q) :
    Keeps (Import.Obeys quiet G) (exchangeExtensions catalog source) fun _ => True := by
  refine keeps_exchangeExtensions_of (fun f => keeps_change (ConfigM.keeps_ask_any f))
    (fun names => keeps_change (Catalog.keeps_uninstall huninstall)) (fun names => ?_)
    (fun name => keeps_tell _) (fun name => keeps_tell _) keeps_count
  refine keeps_change (Catalog.keeps_install hinstall hcatalog fun s hs => ?_)
  cases hs
  exact hsource

/-- A successful import into memory reaches agreement with its source, whatever listeners and
extensions there are. -/
theorem agrees_of_importFrom {i i' : Import} {summary : ImportSummary}
    (hi : i.workspace.InMemory)
    (h : outcome (importFrom catalog (.view L)) i = (.ok summary, i')) :
    ∃ m, i'.workspace.active = .memory m ∧ m.Agrees L := by
  let P : Import → Prop := Import.Obeys False .free
  have hvalidate : Leads P (validate (.view L)) (fun _ => P) True :=
    (Leads.of_keeps (keeps_validate (.view L)) fun _ h => h).mono (fun _ _ h => h.2) fun h => h
  have hkeeps : Keeps P (exchangeExtensions catalog (.view L)) fun _ => True :=
    keeps_exchangeExtensions (Guard.free_allowsInstall catalog)
      (Guard.free_allowsUninstall catalog) (Catalog.holds_of_forall (fun _ => trivial) catalog)
      (Storage.holds_of_forall (fun _ => trivial) (.view L))
  have hexchange : Leads P (exchangeExtensions catalog (.view L))
      (fun _ i => ∃ m, Import.At False m i) True := by
    refine (Leads.of_keeps hkeeps fun _ h => h).mono ?_ fun h => h
    rintro _ i ⟨-, ⟨m, hm, -⟩, hq⟩
    exact ⟨m, hm, hq⟩
  obtain ⟨m, ⟨hm, -⟩, hagrees⟩ :=
    (leads_importFrom hvalidate hexchange fun _ => trivial).of_ok ⟨hi, False.elim⟩ h
  exact ⟨m, hm, hagrees⟩

theorem keeps_copy {source : Storage} (hsource : source.Holds Q) (c name : String) :
    Keeps (Workspace.Obeys (.only Q)) (copy source c name) fun _ => True := by
  have hread : Keeps (Workspace.Obeys (.only Q))
      (ConfigM.askOf source fun fs s => s.read? fs (some c) name) fun oo => ∀ o ∈ oo, Q o := by
    refine ConfigM.keeps_ask fun fs _ _ oo hoo o ho => ?_
    cases ho
    exact hsource.read? hoo
  refine hread.bind fun oo hoo => ?_
  cases oo with
  | none => exact Keeps.throw _
  | some o => exact ConfigM.keeps_write hoo

theorem keeps_changeCollection {source : Storage} (hsource : source.Holds Q) (c : String)
    (l : ChangeList) :
    Keeps (Import.Obeys quiet (.only Q)) (changeCollection source c l) fun _ => True := by
  have hcopies : ∀ (names : List String) (f : ImportSummary → ImportSummary)
      (e : String → ImportEvent), Keeps (Import.Obeys quiet (.only Q)) (names.forM fun name => do
        change (copy source c name)
        count f
        tell (e name)) fun _ => True := by
    intro names f e
    refine Keeps.forM fun name _ => ?_
    refine (keeps_change (keeps_copy hsource c name)).bind fun _ _ => ?_
    exact (keeps_count f).bind fun _ _ => keeps_tell _
  refine (Keeps.forM fun name _ => ?_).bind fun _ _ =>
    (hcopies _ _ _).bind fun _ _ => hcopies _ _ _
  have hdrop : Guard.only Q (Storage.collectionOf (some c)) name none := by
    rintro o ⟨⟩
  refine (keeps_change (ConfigM.keeps_delete hdrop)).bind fun _ _ => ?_
  exact (keeps_count _).bind fun _ _ => keeps_tell _

/-- An import keeps a property of all objects, also if it fails. -/
theorem keeps_importFrom {source : Storage} (hinstall : (Guard.only Q).AllowsInstall Q catalog)
    (huninstall : (Guard.only Q).AllowsUninstall catalog) (hcatalog : catalog.Holds Q)
    (hsource : source.Holds Q) :
    Keeps (Import.Obeys quiet (.only Q)) (importFrom catalog source) fun _ => True := by
  refine (keeps_validate source).bind fun _ _ => ?_
  refine (keeps_exchangeExtensions hinstall huninstall hcatalog hsource).bind fun _ _ => ?_
  refine (keeps_change (ConfigM.keeps_ask_any _)).bind fun changes _ => ?_
  refine (Keeps.forM fun e _ => keeps_changeCollection hsource e.1 e.2).bind fun _ _ => ?_
  refine (keeps_tell _).bind fun _ _ => ?_
  exact (Keeps.get.mono fun _ _ => trivial).bind fun _ (_ : True) => Keeps.pure trivial

end ImportM

end Cookbook
