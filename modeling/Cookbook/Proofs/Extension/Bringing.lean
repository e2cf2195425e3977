import Cookbook.Proofs.Extension.Recording
import Cookbook.Proofs.Storage.Changes

/-!
# What installing brings

Apart from the object that lists what is installed, installing fills places that are free and
touches no others. It goes over the extensions in their order, over the collections of each, and
over the objects in each of these, in an order of their own. But seen from a single place all three
loops do the same: they offer objects, one after the other, and the place takes the first if it is
free. And offering again and again is offering the first of all that is offered. So the order of the
collections and that of the objects do not count; only that of the extensions does, because they
alone may offer different objects for one place.

What an extension ships is what is found by going through the collections of its default
configuration, since that is all that installing sees of it.

## Main definitions

* `Places`, `ConfigM.Turns`: what is at each place, and a change of that.
* `Places.orFrom`: what is offered to places that are free.
* `Storage.listed?`: what is found by going through a storage.
* `Storage.Settles`: the content that an object gets when it is brought.

## Main results

* `ConfigM.Turns.forM_orFrom`: places take the first of what a loop offers.
* `Catalog.has_install`: what installing does at each place.
* `Catalog.objects_of_install`: what becomes of an object when extensions are installed.
-/

namespace Cookbook

open Change

/-! ### Places -/

/-- What is at each place. -/
abbrev Places := String → String → Option ConfigObject

/-- Every place but that of the list of installed extensions has what is given. -/
def Guard.placed (f : Places) : Guard :=
  fun c name oo => ¬(c = defaultCollection ∧ name = coreExtension) → oo = f c name

/-- The files are known, and what is at every place but that of the list of installed extensions. -/
abbrev Workspace.Has (fs : Files) (f : Places) (w : Workspace) : Prop :=
  w.Stands fs (Guard.placed f)

theorem Workspace.has_of_active {w : Workspace} {m : Snapshot} (hm : w.active = .memory m) :
    w.Has w.files m.object? :=
  ⟨rfl, m, hm, fun _ _ _ => rfl⟩

/-- A change that succeeds turns what is at places into something else. -/
abbrev ConfigM.Turns (fs : Files) (x : ConfigM Unit) (f g : Places) : Prop :=
  Leads (Workspace.Has fs f) x (fun _ => Workspace.Has fs g) True

/-- Where nothing is, what is offered. -/
def Places.orFrom (f g : Places) : Places := fun c name => (f c name).or (g c name)

/-- Of what is offered again and again, places take the first. -/
theorem Places.foldl_orFrom {α : Type} (f : Places) (g : α → Places) (l : List α) :
    l.foldl (fun f a => f.orFrom (g a)) f
      = f.orFrom fun c name => l.findSome? fun a => g a c name := by
  induction l generalizing f with
  | nil =>
    funext c name
    exact (Option.or_none ..).symm
  | cons a l ih =>
    rw [List.foldl_cons, ih]
    funext c name
    simp only [orFrom, Option.or_assoc, List.findSome?_cons]
    cases g a c name <;> simp

/-- Places take the first of what a loop offers. -/
theorem ConfigM.Turns.forM_orFrom {α : Type} {fs : Files} {l : List α} {step : α → ConfigM Unit}
    {g : α → Places} (h : ∀ a ∈ l, ∀ f, Turns fs (step a) f (f.orFrom (g a))) (f : Places) :
    Turns fs (l.forM step) f (f.orFrom fun c name => l.findSome? fun a => g a c name) := by
  rw [← Places.foldl_orFrom]
  exact Leads.forM (V := Workspace.Has fs) h f

/-- The first item that is sought gives what it gives wherever it is. -/
theorem List.findSome?_ite_eq {α β : Type} [DecidableEq α] (l : List α) (b : α) (x : Option β) :
    (l.findSome? fun a => if b = a then x else none) = if b ∈ l then x else none := by
  induction l with
  | nil => rfl
  | cons a l ih =>
    rw [List.findSome?_cons, ih]
    by_cases hab : b = a
    · subst hab
      cases x <;> simp
    · simp [hab]

/-! ### Going through a storage -/

namespace Storage

variable {fs : Files} {s recipe wrapped : Storage} {c name : String} {os : Objects}
  {o : ConfigObject}

/-- What is found in a collection when all its objects are read. -/
def inCollection? (fs : Files) (s : Storage) (c name : String) : Option ConfigObject :=
  match s.objects fs (some c) with
  | .ok os => os.get? name
  | .error _ => none

/-- What is found by going through the collections of a storage and reading all objects in them. -/
def listed? (fs : Files) (s : Storage) (c name : String) : Option ConfigObject :=
  match s.collectionNames fs with
  | .ok others => if c ∈ collectionsOf others then s.inCollection? fs c name else none
  | .error _ => none

/-- The content that an object gets when it is brought: what some overrides hold of its name in its
collection, or else what is shipped. -/
def Settles (fs : Files) (overrides : Option Storage) (c name : String)
    (shipped o : ConfigObject) : Prop :=
  (∃ s ∈ overrides, s.holds fs (some c) name = .ok true ∧
    s.read? fs (some c) name = .ok (some o)) ∨
  (∀ s ∈ overrides, s.holds fs (some c) name = .ok false) ∧ o = shipped

theorem inCollection?_of_ok (h : s.objects fs (some c) = .ok os) :
    s.inCollection? fs c name = os.get? name := by
  rw [inCollection?, h]

/-- What is found with some overrides is what is found without them, with its content settled. -/
theorem of_objects_overriding (h : (overriding recipe wrapped).objects fs (some c) = .ok os) :
    ∃ found, wrapped.objects fs (some c) = .ok found ∧ ∀ name,
      (found.get? name = none → os.get? name = none) ∧
      ∀ shipped, found.get? name = some shipped →
        ∃ o, os.get? name = some o ∧ Settles fs (some recipe) c name shipped o := by
  obtain ⟨names, hnames, h⟩ := Except.bind_eq_ok_iff.mp h
  obtain ⟨found, hfound, h⟩ := Except.bind_eq_ok_iff.mp h
  obtain ⟨replaced, hreplaced, h⟩ := Except.bind_eq_ok_iff.mp h
  cases h
  have hwrapped : wrapped.objects fs (some c) = .ok found :=
    Except.bind_eq_ok_iff.mpr ⟨names, hnames, hfound⟩
  refine ⟨found, hwrapped, fun name => ⟨fun hnone => ?_, fun shipped hshipped => ?_⟩⟩
  · have hfree : replaced.get? name = none := by
      refine Option.eq_none_iff_forall_ne_some.mpr fun o ho => ?_
      have hmem := (NameMap.mem_names_iff ..).mp (read_of_readEach hreplaced ho).1
      rw [hnone] at hmem
      cases hmem
    rw [NameMap.get?_union, hfree, hnone]
    rfl
  · have hname : name ∈ found.names := (NameMap.mem_names_iff ..).mpr (by rw [hshipped]; rfl)
    have hread : recipe.read? fs (some c) name = .ok (replaced.get? name) :=
      read_of_mem_readEach hreplaced hname
    have hholds := holds_of_read? hread
    rw [NameMap.get?_union]
    cases hreplace : replaced.get? name with
    | none =>
      rw [hreplace] at hholds
      refine ⟨shipped, hshipped, .inr ⟨?_, rfl⟩⟩
      rintro _ ⟨⟩
      exact hholds
    | some o =>
      rw [hreplace] at hread hholds
      exact ⟨o, rfl, .inl ⟨recipe, rfl, hholds, hread⟩⟩

theorem listed?_of_ok {others : List String} (h : s.collectionNames fs = .ok others) :
    s.listed? fs c name
      = if c ∈ collectionsOf others then s.inCollection? fs c name else none := by
  rw [listed?, h]

/-- Going through a storage in memory finds all that is in it. -/
theorem Shows.listed? {m : Snapshot} (h : s.Shows m) (fs : Files) (c name : String) :
    s.listed? fs c name = m.object? c name := by
  rw [listed?_of_ok (h.collectionNames fs), inCollection?_of_ok (h.objects fs c)]
  split
  · rfl
  · rename_i hc
    rw [collectionsOf, List.mem_cons, Snapshot.mem_collectionNames, not_or, not_and,
      Bool.not_eq_false] at hc
    exact (Snapshot.isEmpty_collection_iff.mp (hc.2 hc.1) name).symm

end Storage

namespace Extension

variable {fs : Files} {x : Extension} {overrides : Option Storage}

/-- What can be read with some overrides can be read without them. -/
theorem exports_defaults (h : (x.source overrides).Exports fs) : x.defaults.Exports fs := by
  cases overrides with
  | none => exact h
  | some s =>
    obtain ⟨others, hothers, hread⟩ := Storage.exports_iff.mp h
    refine Storage.exports_iff.mpr ⟨others, hothers, fun c hc => ?_⟩
    obtain ⟨os, hos⟩ := hread c hc
    obtain ⟨found, hfound, -⟩ := Storage.of_objects_overriding hos
    exact ⟨found, hfound⟩

/-- An extension brings just what it ships, with its content settled. -/
theorem listed?_source (h : (x.source overrides).Exports fs) (c name : String) :
    (x.defaults.listed? fs c name = none → (x.source overrides).listed? fs c name = none) ∧
    ∀ shipped, x.defaults.listed? fs c name = some shipped →
      ∃ o, (x.source overrides).listed? fs c name = some o ∧
        Storage.Settles fs overrides c name shipped o := by
  cases overrides with
  | none =>
    refine ⟨id, fun shipped hshipped => ⟨shipped, hshipped, .inr ⟨?_, rfl⟩⟩⟩
    rintro _ ⟨⟩
  | some s =>
    obtain ⟨others, hothers, hread⟩ := Storage.exports_iff.mp h
    have hdefaults : x.defaults.collectionNames fs = .ok others := hothers
    rw [Storage.listed?_of_ok hothers, Storage.listed?_of_ok hdefaults]
    split
    · rename_i hc
      obtain ⟨os, hos⟩ := hread c hc
      obtain ⟨found, hfound, hsettled⟩ := Storage.of_objects_overriding hos
      rw [Storage.inCollection?_of_ok hos, Storage.inCollection?_of_ok hfound]
      exact hsettled name
    · exact ⟨fun _ => rfl, fun _ hshipped => nomatch hshipped⟩

end Extension

namespace Catalog

variable {catalog : Catalog} {fs : Files} {x : Extension} {overrides : Option Storage}
  {names : List String} {w w' : Workspace} {m : Snapshot}

open ConfigM (Turns)

/-! ### Single steps -/

/-- Recording does not show at other places than its own. -/
theorem turns_record (x : Extension) (installed : Bool) (f : Places) :
    Turns fs (record x installed) f f := by
  have hrecord : Keeps (Workspace.Has fs f) (record x installed) fun _ => True :=
    stands_record fun _ hother => absurd ⟨rfl, rfl⟩ hother
  exact (Leads.of_keeps hrecord fun _ hw => hw).mono (fun _ _ hw => hw.2) id

/-- One object is offered to its place. -/
theorem turns_bring (os : Objects) (c name : String) (f : Places) :
    Turns fs (do
        unless ← ConfigM.holds (some c) name do
          if let some o := os.get? name then ConfigM.write (some c) name o) f
      (f.orFrom fun c' n => if n = name then if c' = c then os.get? n else none else none) := by
  rintro w ⟨hfs, m, hm, hplaced⟩
  have hholds : outcome (ConfigM.holds (some c) name) w = (.ok (m.object? c name).isSome, w) :=
    ConfigM.outcome_holds hm
  -- What is offered shows at one place only.
  have hoffered (c' n : String) :
      (if n = name then if c' = c then os.get? n else none else none)
        = if c = c' ∧ name = n then os.get? name else none := by
    by_cases hn : n = name
    · subst hn
      simp [eq_comm]
    · simp [hn, Ne.symm hn]
  cases hthere : m.object? c name with
  | some p =>
    rw [hthere] at hholds
    refine .inl ⟨(), w, outcome_bind_ok hholds, hfs, m, hm, fun c' n hother => ?_⟩
    rw [Places.orFrom, hoffered, ← hplaced c' n hother]
    split
    · rename_i hplace
      rw [← hplace.1, ← hplace.2, hthere]
      rfl
    · exact (Option.or_none ..).symm
  | none =>
    rw [hthere] at hholds
    cases ho : os.get? name with
    | none =>
      refine .inl ⟨(), w, (outcome_bind_ok hholds).trans ?_, hfs, m, hm, fun c' n hother => ?_⟩
      · rfl
      · rw [Places.orFrom, hoffered, ho, ite_self, Option.or_none, ← hplaced c' n hother]
    | some o =>
      refine .inl ⟨(), _, (outcome_bind_ok hholds).trans (ConfigM.outcome_write hm), hfs, _, rfl,
        fun c' n hother => ?_⟩
      rw [Places.orFrom, hoffered, ho, ← hplaced c' n hother, Snapshot.object?_putObject,
        Storage.collectionOf, Option.getD_some]
      split
      · rename_i hplace
        rw [← hplace.1, ← hplace.2, hthere]
        rfl
      · exact (Option.or_none ..).symm

/-- Of one collection everything is offered. -/
theorem turns_bringCollection (source : Storage) (c : String) (f : Places) :
    Turns fs (bringCollection source c) f
      (f.orFrom fun c' n => if c' = c then source.inCollection? fs c' n else none) := by
  refine Leads.bind_of_keeps (R := fun os => source.objects fs (some c) = .ok os)
    (ConfigM.stands_ask fun _ _ _ hos => hos) fun os hos => ?_
  have hoffered : (fun c' n => if c' = c then source.inCollection? fs c' n else none)
      = fun c' n => os.dependencyOrder.findSome? fun name =>
        if n = name then if c' = c then os.get? n else none else none := by
    funext c' n
    simp only [List.findSome?_ite_eq, Objects.mem_dependencyOrder]
    by_cases hc : c' = c
    · subst hc
      rw [Storage.inCollection?_of_ok hos]
      cases os.get? n <;> simp
    · simp [hc]
  rw [hoffered]
  exact Turns.forM_orFrom (fun name _ f => turns_bring os c name f) f

/-- Of an extension everything is offered that is found by going through what it ships. -/
theorem turns_bringDefaults (x : Extension) (overrides : Option Storage) (f : Places) :
    Turns fs (bringDefaults x overrides) f (f.orFrom ((x.source overrides).listed? fs)) := by
  have hall (source : Storage) : Turns fs (do
      let others ← ConfigM.askOf source fun fs s => s.collectionNames fs
      (collectionsOf others).forM (bringCollection source)) f (f.orFrom (source.listed? fs)) := by
    refine Leads.bind_of_keeps (R := fun others => source.collectionNames fs = .ok others)
      (ConfigM.stands_ask fun _ _ _ h => h) fun others hothers => ?_
    have hlisted : source.listed? fs = fun c' n => (collectionsOf others).findSome? fun c =>
        if c' = c then source.inCollection? fs c' n else none := by
      funext c' n
      rw [List.findSome?_ite_eq, Storage.listed?_of_ok hothers]
    rw [hlisted]
    exact Turns.forM_orFrom (fun c _ f => turns_bringCollection source c f) f
  cases overrides <;> exact hall _

/-! ### Installing -/

/-- **Installing, place by place.** A place that is free takes what the first extension in the order
of installing brings to it. -/
theorem has_install {oo : Option ConfigObject} {order : List Extension}
    (horder : catalog.installOrder (Storage.installedIn oo) names = .ok order)
    (overrides : Option Storage) (f : Places) :
    Leads (fun w => w.Stands fs (Guard.recorded oo) ∧ w.Has fs f)
      (catalog.install names overrides)
      (fun _ => Workspace.Has fs (f.orFrom fun c name =>
        order.findSome? fun x => (x.source overrides).listed? fs c name)) True := by
  rintro w ⟨hrecorded, hplaced⟩
  rw [install, outcome_bind_ok (outcome_installedExtensions hrecorded), horder]
  refine Turns.forM_orFrom (fun x _ f => ?_) f w hplaced
  exact (turns_record x true f).bind fun _ => turns_bringDefaults x overrides f

/-- **What becomes of an object when extensions are installed.** If installing succeeds, then at
every place but that of the list of what is installed, in whatever collection, an object that was
there is as it was. Where nothing was, there is now an object if one of the extensions that were
installed ships one: with what the overrides hold under its name in its collection, if they hold
something, and else with what is shipped by the first of those extensions, in the order of
installing them. If none of them ships one there is still nothing. -/
theorem objects_of_install (hm : w.active = .memory m)
    (h : outcome (catalog.install names overrides) w = (.ok (), w')) :
    ∃ m' order, w'.active = .memory m' ∧ catalog.installOrder m.installed names = .ok order ∧
      (∀ x ∈ order, x.defaults.Exports w.files) ∧
      ∀ c name, ¬(c = defaultCollection ∧ name = coreExtension) →
        (∀ o, m.object? c name = some o → m'.object? c name = some o) ∧
        (m.object? c name = none →
          (∀ before x after shipped, order = before ++ x :: after →
            (∀ y ∈ before, y.defaults.listed? w.files c name = none) →
            x.defaults.listed? w.files c name = some shipped →
            ∃ o, m'.object? c name = some o ∧
              Storage.Settles w.files overrides c name shipped o) ∧
          ((∀ x ∈ order, x.defaults.listed? w.files c name = none) →
            m'.object? c name = none)) := by
  have hrecorded := Workspace.stands_recorded hm
  cases horder : catalog.installOrder m.installed names with
  | error e =>
    rw [outcome_install_of_error hrecorded horder] at h
    cases h
  | ok order =>
    obtain ⟨-, hexports⟩ := (leads_install horder).of_ok hrecorded h
    obtain ⟨-, m', hm', hplaced⟩ := (has_install horder overrides m.object?).of_ok
      ⟨hrecorded, Workspace.has_of_active hm⟩ h
    refine ⟨m', order, hm', rfl, fun x hx => Extension.exports_defaults (hexports x hx),
      fun c name hother => ?_⟩
    have hobject : m'.object? c name = _ := hplaced c name hother
    rw [Places.orFrom] at hobject
    refine ⟨fun o ho => ?_, fun hfree => ⟨?_, fun hnone => ?_⟩⟩
    · rw [hobject, ho]
      rfl
    · rintro before x after shipped rfl hbefore hshipped
      obtain ⟨o, ho, hsettled⟩ :=
        (Extension.listed?_source (hexports x (by simp)) c name).2 shipped hshipped
      refine ⟨o, ?_, hsettled⟩
      have hskipped : before.findSome? (fun x => (x.source overrides).listed? w.files c name)
          = none := by
        refine List.findSome?_eq_none_iff.mpr fun y hy => ?_
        exact (Extension.listed?_source (hexports y (by simp [hy])) c name).1 (hbefore y hy)
      rw [hobject, hfree, Option.none_or, List.findSome?_append, hskipped, Option.none_or,
        List.findSome?_cons, ho]
    · rw [hobject, hfree, Option.none_or]
      refine List.findSome?_eq_none_iff.mpr fun x hx => ?_
      exact (Extension.listed?_source (hexports x hx) c name).1 (hnone x hx)

/-- A module that ships a note and its translation. -/
def textModule : Extension where
  name := "text"
  kind := .module
  defaults := .view (Snapshot.ofList [
    (defaultCollection, "site.note", Mapping.ofNames [("by", .string "text")]),
    ("language.de", "site.note", Mapping.empty)])

/-- A module that requires that one and ships the note too. -/
def blogModule : Extension where
  name := "blog"
  kind := .module
  dependencies := ["text"]
  defaults := .view (Snapshot.ofList [
    (defaultCollection, "site.note", Mapping.ofNames [("by", .string "blog")])])

/-- The catalog of these two. -/
def noteModules : Catalog := NameMap.ofList [("blog", blogModule), ("text", textModule)]

/-- What is to be brought instead: the translation, and an object that nothing ships. -/
def germanNote : Snapshot := Snapshot.ofList [
  (defaultCollection, "site.other", Mapping.empty),
  ("language.de", "site.note", Mapping.ofNames [("by", .string "hand")])]

/-- A site where nothing is installed. -/
def bareSite : Workspace where
  files := {}
  active := .memory NameMap.empty

/-- The module that is required comes first, so it is its note that is brought. -/
theorem note_brought_by_text : ∃ w' m',
    outcome (noteModules.install ["blog"] (some (.view germanNote))) bareSite = (.ok (), w') ∧
    w'.active = .memory m' ∧
    m'.object? defaultCollection "site.note" = some (Mapping.ofNames [("by", .string "text")]) ∧
    m'.object? "language.de" "site.note" = some (Mapping.ofNames [("by", .string "hand")]) ∧
    m'.object? defaultCollection "site.other" = none := by
  have hruns : (outcome (noteModules.install ["blog"] (some (.view germanNote)))
      bareSite).1.toBool = true := by
    decide +kernel
  rcases h : outcome (noteModules.install ["blog"] (some (.view germanNote))) bareSite with
    ⟨e | u, w'⟩
  · rw [h] at hruns
    cases hruns
  obtain ⟨m', order, hm', horder, -, hobjects⟩ := objects_of_install (m := NameMap.empty) rfl h
  have hplan : noteModules.installOrder (Snapshot.installed NameMap.empty) ["blog"]
      = .ok [textModule, blogModule] := rfl
  cases horder.symm.trans hplan
  refine ⟨w', m', rfl, hm', ?_, ?_, ?_⟩
  · obtain ⟨o, ho, ⟨s, ⟨⟩, hheld, -⟩ | ⟨-, rfl⟩⟩ :=
      ((hobjects defaultCollection "site.note" (by decide)).2 rfl).1 [] textModule [blogModule]
        (Mapping.ofNames [("by", .string "text")]) rfl (by simp) rfl
    · cases hheld
    · exact ho
  · obtain ⟨o, ho, ⟨s, ⟨⟩, -, hread⟩ | ⟨hfree, -⟩⟩ :=
      ((hobjects "language.de" "site.note" (by decide)).2 rfl).1 [] textModule [blogModule]
        Mapping.empty rfl (by simp) rfl
    · cases hread
      exact ho
    · cases hfree _ rfl
  · refine ((hobjects defaultCollection "site.other" (by decide)).2 rfl).2 fun x hx => ?_
    simp only [List.mem_cons, List.not_mem_nil, or_false] at hx
    rcases hx with rfl | rfl <;> exact (Storage.Shows.view _).listed? ..

end Catalog

end Cookbook
