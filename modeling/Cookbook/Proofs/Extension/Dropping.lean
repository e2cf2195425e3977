import Cookbook.Proofs.Extension.Bringing

/-!
# What uninstalling takes away

Uninstalling goes over the names that it is given, over the collections there are, and over the
objects in each of them, and deletes what the extension owns. Each of the three loops only looks at
objects and decides whether they are kept, and looking again and again is looking whether all would
keep them. What a loop goes over is found out when it begins, and meanwhile objects and with them
whole collections disappear. That makes no difference: what has disappeared need not be looked at.

Which extensions are installed is found out once, before the first of them is taken away. So it does
not matter that a name is given twice, and an object is taken away by any of the extensions that own
it.

## Main definitions

* `Places.keeping`: what is left when objects are looked at.
* `Extension.Owns`: what uninstalling an extension takes away.
* `Catalog.Loses`: what uninstalling several of them takes away.

## Main results

* `ConfigM.Turns.forM_keeping`: what is left after a loop.
* `Catalog.has_uninstall`: what uninstalling does at each place.
* `Catalog.objects_of_uninstall`: what becomes of an object when extensions are uninstalled.
-/

namespace Cookbook

open Change

/-! ### Looking at objects -/

namespace Places

variable {α : Type} {f : Places}

/-- What is to be kept. -/
def keeping (f : Places) (keep : String → String → ConfigObject → Bool) : Places :=
  fun c name => (f c name).filter (keep c name)

@[simp] theorem keeping_true (f : Places) : (f.keeping fun _ _ _ => true) = f := by
  funext c name
  cases h : f c name <;> simp [keeping, h]

/-- Objects that are looked at again and again are kept if all keep them. -/
theorem foldl_keeping (f : Places) (keep : α → String → String → ConfigObject → Bool)
    (l : List α) :
    l.foldl (fun f a => f.keeping (keep a)) f
      = f.keeping fun c name o => l.all fun a => keep a c name o := by
  induction l generalizing f with
  | nil => exact (keeping_true f).symm
  | cons a l ih =>
    rw [List.foldl_cons, ih]
    funext c name
    simp [keeping, Option.filter_filter]

/-- Only what is there is looked at. -/
theorem keeping_congr {keep keep' : String → String → ConfigObject → Bool} {c name : String}
    (h : ∀ o, f c name = some o → keep c name o = keep' c name o) :
    f.keeping keep c name = f.keeping keep' c name := by
  rw [keeping, keeping]
  cases ho : f c name with
  | none => rfl
  | some o => rw [Option.filter_some, Option.filter_some, h o ho]

end Places

/-- What is left after a loop that looks at objects. -/
theorem ConfigM.Turns.forM_keeping {α : Type} {fs : Files} {l : List α} {step : α → ConfigM Unit}
    {keep : α → String → String → ConfigObject → Bool}
    (h : ∀ a ∈ l, ∀ f, Turns fs (step a) f (f.keeping (keep a))) (f : Places) :
    Turns fs (l.forM step) f (f.keeping fun c name o => l.all fun a => keep a c name o) := by
  rw [← Places.foldl_keeping]
  exact Leads.forM (V := Workspace.Has fs) h f

/-- What is at places may be described in any way that differs at the list of installed extensions
only. -/
theorem Workspace.Has.congr {fs : Files} {f g : Places} {w : Workspace} (hw : w.Has fs f)
    (h : ∀ c name, ¬(c = defaultCollection ∧ name = coreExtension) → f c name = g c name) :
    w.Has fs g :=
  hw.mono fun c name _ hplaced hother => (hplaced hother).trans (h c name hother)

namespace Extension

variable {x : Extension}

/-- What uninstalling an extension takes away: what is named after it, and what depends on it. -/
def Owns (x : Extension) (name : String) (o : ConfigObject) : Prop :=
  (Text.split '.' name).head? = some x.name ∨
    x.name ∈ o.stringsAt ("dependencies." ++ x.kind.word) ∨
    x.name ∈ o.stringsAt ("dependencies.enforced." ++ x.kind.word)

theorem ownsObject_iff {name : String} {o : ConfigObject} :
    x.ownsObject name o = true ↔ x.Owns name o := by
  simp only [ownsObject, Owns, Bool.or_eq_true, beq_iff_eq, List.contains_iff_mem, or_assoc]

/-- Whether uninstalling an extension takes an object away: the list of what is installed stays. -/
def drops (x : Extension) (name : String) (o : ConfigObject) : Bool :=
  name != coreExtension && x.ownsObject name o

end Extension

namespace Catalog

variable {catalog : Catalog} {fs : Files} {x : Extension} {names installed : List String}
  {name : String} {o : ConfigObject} {w w' : Workspace} {m : Snapshot}

open ConfigM (Turns)

/-! ### Single steps -/

/-- One of the objects that were read is deleted, if the extension owns it. -/
theorem turns_drop (x : Extension) (c name : String) (o : ConfigObject) (f : Places) :
    Turns fs (do
        if name != coreExtension && x.ownsObject name o then
          let _ ← ConfigM.delete (some c) name) f
      (f.keeping fun c' n _ => !(c' == c && n == name && x.drops name o)) := by
  rintro w ⟨hfs, m, hm, hplaced⟩
  rw [show (name != coreExtension && x.ownsObject name o) = x.drops name o from rfl]
  cases x.drops name o with
  | false =>
    refine .inl ⟨(), w, rfl, hfs, m, hm, fun c' n hother => ?_⟩
    simpa using hplaced c' n hother
  | true =>
    refine .inl ⟨(), _, outcome_bind_ok (ConfigM.outcome_delete hm), hfs, _, rfl,
      fun c' n hother => ?_⟩
    rw [Snapshot.object?_dropObject, Storage.collectionOf, Option.getD_some,
      hplaced c' n hother, Places.keeping]
    split
    · rename_i hplace
      simp [← hplace.1, ← hplace.2]
    · rename_i hplace
      have hkept : (c' == c && n == name && true) = false := by
        refine Bool.eq_false_iff.mpr fun heq => hplace ?_
        simp only [Bool.and_true, Bool.and_eq_true, beq_iff_eq] at heq
        exact ⟨heq.1.symm, heq.2.symm⟩
      simp only [hkept, Bool.not_false]
      cases f c' n <;> rfl

/-- Of one collection everything is deleted that the extension owns. -/
theorem turns_dropOwned (x : Extension) (c : String) (f : Places) :
    Turns fs (dropOwned x c) f (f.keeping fun c' n o => !(c' == c && x.drops n o)) := by
  rintro w ⟨hfs, m, hm, hplaced⟩
  rw [dropOwned, outcome_bind_ok (ConfigM.outcome_objects hm c)]
  refine (Turns.forM_keeping (fun e _ f => turns_drop x c e.1 e.2 f) f).mono
    (fun _ w' hw' => hw'.congr fun c' n hother => ?_) id w ⟨hfs, m, hm, hplaced⟩
  -- What was read in the collection is what is there.
  have hthere : m.object? c' n = f c' n := hplaced c' n hother
  refine Places.keeping_congr fun o ho => ?_
  rw [← hthere] at ho
  by_cases hc : c' = c
  · subst hc
    rw [Bool.eq_iff_iff, NameMap.all_entries_iff]
    simp only [beq_self_eq_true, Bool.true_and, Bool.not_eq_true', Bool.and_eq_false_iff]
    constructor
    · intro hall
      simpa using hall n o ho
    · intro hkept k p hp
      by_cases hk : n = k
      · subst hk
        cases ho.symm.trans hp
        exact .inr hkept
      · exact .inl (beq_false_of_ne hk)
  · have hne : (c' == c) = false := beq_false_of_ne hc
    simp [hne]

/-- Of all collections everything is deleted that the extension owns. -/
theorem turns_dropAll (x : Extension) (f : Places) :
    Turns fs (do (collectionsOf (← ConfigM.collectionNames)).forM (dropOwned x)) f
      (f.keeping fun _ n o => !x.drops n o) := by
  rintro w ⟨hfs, m, hm, hplaced⟩
  rw [outcome_bind_ok (ConfigM.outcome_collectionNames hm)]
  refine (Turns.forM_keeping (fun c _ f => turns_dropOwned x c f) f).mono
    (fun _ w' hw' => hw'.congr fun c n hother => ?_) id w ⟨hfs, m, hm, hplaced⟩
  refine Places.keeping_congr fun o ho => ?_
  -- No collection with an object in it is left out.
  have hc : c ∈ collectionsOf m.collectionNames := by
    rw [collectionsOf, List.mem_cons, Snapshot.mem_collectionNames]
    refine or_iff_not_imp_left.mpr fun hc => ⟨hc, Bool.eq_false_iff.mpr fun hempty => ?_⟩
    have hnone := Snapshot.isEmpty_collection_iff.mp hempty n
    rw [hplaced c n hother, ho] at hnone
    cases hnone
  rw [Bool.eq_iff_iff, List.all_eq_true]
  constructor
  · intro hall
    simpa using hall c hc
  · intro hkept c' _
    rw [Bool.not_eq_true'] at hkept
    simp [hkept]

/-- Whether an object is taken away because of a name that is given. -/
def dropsFor (catalog : Catalog) (installed : List String) (n name : String)
    (o : ConfigObject) : Bool :=
  installed.contains n && (catalog.get? n).any fun x => x.drops name o

/-- A name that is given is passed over, or everything is deleted that its extension owns. -/
theorem turns_dropFor (catalog : Catalog) (installed : List String) (n : String) (f : Places) :
    Turns fs (do
        if installed.contains n then
          match catalog.get? n with
          | none => throw (.unknownExtension n)
          | some x =>
            (collectionsOf (← ConfigM.collectionNames)).forM (dropOwned x)
            record x false) f
      (f.keeping fun _ name o => !catalog.dropsFor installed n name o) := by
  cases hin : installed.contains n with
  | false =>
    have hdrops : (fun (_ : String) name o => !catalog.dropsFor installed n name o)
        = fun _ _ _ => true := by
      funext c name o
      rw [dropsFor, hin]
      rfl
    rw [if_neg Bool.false_ne_true, hdrops, Places.keeping_true]
    exact Leads.pure fun _ hw => hw
  | true =>
    rw [if_pos rfl]
    cases hx : catalog.get? n with
    | none => exact fun w _ => .inr ⟨trivial, _, _, rfl⟩
    | some x =>
      have hdrops : (fun (_ : String) name o => !catalog.dropsFor installed n name o)
          = fun _ name o => !x.drops name o := by
        funext c name o
        rw [dropsFor, hin, hx, Bool.true_and, Option.any_some]
      rw [hdrops]
      dsimp only
      rw [← bind_assoc]
      exact (turns_dropAll x f).bind fun _ => turns_record x false _

/-! ### Uninstalling -/

/-- **Uninstalling, place by place.** An object stays if it is taken away because of none of the
names that are given. -/
theorem has_uninstall {oo : Option ConfigObject} (names : List String) (f : Places) :
    Leads (fun w => w.Stands fs (Guard.recorded oo) ∧ w.Has fs f) (catalog.uninstall names)
      (fun _ => Workspace.Has fs (f.keeping fun _ name o =>
        names.all fun n => !catalog.dropsFor (Storage.installedIn oo) n name o)) True := by
  rintro w ⟨hrecorded, hplaced⟩
  rw [uninstall, outcome_bind_ok (outcome_installedExtensions hrecorded)]
  exact Turns.forM_keeping (fun n _ f => turns_dropFor catalog _ n f) f w hplaced

/-- An extension that is given and installed owns an object. -/
def Loses (catalog : Catalog) (installed names : List String) (name : String) (o : ConfigObject) :
    Prop :=
  ∃ n ∈ names, n ∈ installed ∧ ∃ x, catalog.get? n = some x ∧ x.Owns name o

theorem loses_iff (hname : name ≠ coreExtension) : catalog.Loses installed names name o ↔
      (names.all fun n => !catalog.dropsFor installed n name o) = false := by
  have hdrops (n : String) : catalog.dropsFor installed n name o = true ↔
      n ∈ installed ∧ ∃ x, catalog.get? n = some x ∧ x.Owns name o := by
    rw [dropsFor, Bool.and_eq_true, List.contains_iff_mem, Option.any_eq_true]
    simp only [Extension.drops, bne_iff_ne.mpr hname, Bool.true_and, Extension.ownsObject_iff]
  rw [List.all_eq_false]
  simp only [Bool.not_eq_true, Bool.not_eq_false', hdrops, Loses]

/-- **What becomes of an object when extensions are uninstalled.** If uninstalling succeeds, then in
every collection an object of another name than the list of what is installed is gone exactly if it
was there and an extension owned it that was given and installed. Every other object is as it was,
also one in another collection that has the name of that list. -/
theorem objects_of_uninstall (hm : w.active = .memory m)
    (h : outcome (catalog.uninstall names) w = (.ok (), w')) :
    ∃ m', w'.active = .memory m' ∧
      (∀ c name, name ≠ coreExtension →
        ((m.object? c name).isSome = true ∧ m'.object? c name = none ↔
          ∃ o, m.object? c name = some o ∧ catalog.Loses m.installed names name o) ∧
        ((∀ o, m.object? c name = some o → ¬catalog.Loses m.installed names name o) →
          m'.object? c name = m.object? c name)) ∧
      ∀ c, c ≠ defaultCollection → m'.object? c coreExtension = m.object? c coreExtension := by
  obtain ⟨-, m', hm', hplaced⟩ := (has_uninstall names m.object?).of_ok
    ⟨Workspace.stands_recorded hm, Workspace.has_of_active hm⟩ h
  refine ⟨m', hm', fun c name hname => ?_, fun c hc => ?_⟩
  · have hobject : m'.object? c name = _ := hplaced c name fun hlist => hname hlist.2
    rw [hobject, Places.keeping]
    cases ho : m.object? c name with
    | none => simp
    | some o =>
      rw [Option.filter_some]
      cases hkept : names.all fun n => !catalog.dropsFor m.installed n name o with
      | false =>
        have hloses := (loses_iff hname).mpr hkept
        exact ⟨iff_of_true ⟨rfl, rfl⟩ ⟨o, rfl, hloses⟩, fun hnot => absurd hloses (hnot o rfl)⟩
      | true =>
        refine ⟨iff_of_false (fun hgone => nomatch hgone.2) ?_, fun _ => rfl⟩
        rintro ⟨_, ⟨⟩, hloses⟩
        rw [(loses_iff hname).mp hloses] at hkept
        cases hkept
  · have hobject : m'.object? c coreExtension = _ :=
      hplaced c coreExtension fun hlist => hc hlist.1
    rw [hobject, Places.keeping]
    cases m.object? c coreExtension with
    | none => rfl
    | some o =>
      rw [Option.filter_some, if_pos]
      refine List.all_eq_true.mpr fun n _ => ?_
      rw [dropsFor]
      cases catalog.get? n <;> simp [Extension.drops]

/-- A site with one of the modules installed, an object of its own, one that depends on it, and one
that has nothing to do with it. -/
def notedSnapshot : Snapshot := Snapshot.ofList [
  (defaultCollection, coreExtension, Mapping.ofNames [
    ("module", (Mapping.ofNames [("text", .int 0)]).toValue), ("theme", .map [])]),
  ("language.de", "text.settings", Mapping.empty),
  (defaultCollection, "site.note", Mapping.ofNames [("dependencies",
    (Mapping.ofNames [("module", .seq [.string "text"])]).toValue)]),
  (defaultCollection, "site.info", Mapping.empty)]

/-- A name that is given again or is not installed makes no difference. -/
theorem note_dropped_with_text : ∃ w' m',
    outcome (noteModules.uninstall ["text", "blog", "text"])
      { files := {}, active := .memory notedSnapshot } = (.ok (), w') ∧
    w'.active = .memory m' ∧ m'.object? "language.de" "text.settings" = none ∧
    m'.object? defaultCollection "site.note" = none ∧
    m'.object? defaultCollection "site.info" = some Mapping.empty := by
  have hruns : (outcome (noteModules.uninstall ["text", "blog", "text"])
      { files := {}, active := .memory notedSnapshot }).1.toBool = true := by
    decide +kernel
  rcases h : outcome (noteModules.uninstall ["text", "blog", "text"])
      { files := {}, active := .memory notedSnapshot } with ⟨e | u, w'⟩
  · rw [h] at hruns
    cases hruns
  obtain ⟨m', hm', hobjects, -⟩ := objects_of_uninstall (m := notedSnapshot) rfl h
  have hinstalled : notedSnapshot.installed = ["text"] := by decide +kernel
  have hloses {name : String} {o : ConfigObject} (howns : textModule.Owns name o) :
      noteModules.Loses notedSnapshot.installed ["text", "blog", "text"] name o :=
    ⟨"text", by simp, by simp [hinstalled], textModule, rfl, howns⟩
  refine ⟨w', m', rfl, hm', ?_, ?_, ?_⟩
  · exact ((hobjects "language.de" "text.settings" (by decide)).1.mpr
      ⟨_, rfl, hloses (.inl rfl)⟩).2
  · exact ((hobjects defaultCollection "site.note" (by decide)).1.mpr
      ⟨_, rfl, hloses (.inr (.inl (by decide +kernel)))⟩).2
  · refine (hobjects defaultCollection "site.info" (by decide)).2 ?_
    rintro _ ⟨⟩ ⟨n, -, hin, x, hx, howns⟩
    rw [hinstalled, List.mem_singleton] at hin
    subst hin
    cases hx
    revert howns
    rw [← Extension.ownsObject_iff]
    decide +kernel

end Catalog

end Cookbook
