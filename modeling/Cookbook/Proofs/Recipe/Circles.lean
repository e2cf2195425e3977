import Cookbook.Proofs.Recipe.Applying
import Cookbook.Proofs.Recipe.Tree
import Mathlib.Data.List.Nodup
import Mathlib.Logic.Relation

/-!
# Recipes that require each other

A circle is found by comparing the names that recipes list with the ids on the way. The id of a
recipe is the name of its directory, but a name can also be listed with a separator behind it, as in
`b/`: the directory is found all the same, and no id is ever spelled like that. So what holds depends
on how entries are spelled:

* The directories on a way are different, unless an entry leads back under another spelling. A
  circle through such an entry is then reported one round later.
* Every way comes to an end, unless recipes lead back to themselves through other spellings alone. A
  recipe that lists nothing but itself as `b/` is loaded for ever.
* However entries are spelled, recipes that require each other have no tree.

The first two conditions are exact. For the second, ways are measured: an entry that is spelled
plainly leads to an id that is not on the way, and there are only as many ids as directories; between
two such entries each directory is met once, as otherwise there would be a circle of other spellings.

## Main definitions

* `Application.Needs`, `Application.Respells`: a recipe lists another, and does so under a name that
  is not its id.
* `Application.Way`: the ways on which recipes are met.
* `Application.Measure`: how long a way can be.

## Main results

* `Application.bounded_iff`: when ways come to an end.
* `Application.nodup_iff`: when the directories on ways are different.
* `Application.not_circle_of_grown`: recipes in a tree do not require each other.
* `Application.build_of_le`: more room changes only what was too deep.
* `Application.endless_of_respelled`: recipes that are never built.
* `Application.ends_of_resolve`: what becomes of a recipe.
-/

namespace Cookbook

namespace Application

open Relation (ReflTransGen TransGen)

variable {fs : Files} {active : Storage} {a : Application} {root r r' : Recipe}

/-! ### Ways -/

/-- A recipe lists another. -/
def Needs (fs : Files) (active : Storage) (a : Application) (r r' : Recipe) : Prop :=
  ∃ name, a.Lists fs active name r r'

/-- A recipe lists another under a name that is not its id. -/
def Respells (fs : Files) (active : Storage) (a : Application) (r r' : Recipe) : Prop :=
  ∃ name, a.Lists fs active name r r' ∧ name ≠ r'.id

/-- The ways from a recipe, each as the recipes above and the recipe it leads to. What is listed is
not followed if an id on the way is spelled like it. -/
inductive Way (fs : Files) (active : Storage) (a : Application) (root : Recipe) :
    List Recipe → Recipe → Prop where
  /-- The start. -/
  | start : Way fs active a root [] root
  /-- One step down. -/
  | down {above : List Recipe} {r r' : Recipe} {name : String} (hway : Way fs active a root above r)
    (hlists : a.Lists fs active name r r') (hnew : name ∉ (above ++ [r]).map (·.id)) :
    Way fs active a root (above ++ [r]) r'

/-- How much room there is matters only for a recipe that is built. -/
theorem grow_cases (fs : Files) (active : Storage) (a : Application) (path : List String)
    (found : List RecipeTree × BuiltTrees) {name : String} (hname : name ∈ r.recipes) :
    (∃ result, result ≠ .error .recipesTooDeep ∧
      ∀ fuel, a.grow fs active fuel path r found name = result) ∨
    ∃ dir r', name ∉ path ∧ a.Lists fs active name r r' ∧
      ∀ fuel, a.grow fs active fuel path r found name = (a.build fs active fuel path found.2 r').map
        fun result => (found.1 ++ [result.1], (dir, result.1) :: result.2) := by
  by_cases hnew : name ∈ path
  · exact .inl ⟨_, by simp, fun fuel => grow_of_mem hnew⟩
  cases hdir : (a.discovery r.path).find fs name with
  | error e =>
    obtain ⟨searchPaths, rfl⟩ := Discovery.notFound_of_find hdir
    exact .inl ⟨_, by simp, fun fuel => grow_of_not_found hnew hdir⟩
  | ok dir =>
    cases hget : found.2.get? dir with
    | some t =>
      refine .inl ⟨.ok (found.1 ++ [t], found.2), by simp, fun fuel => ?_⟩
      rw [grow_of_find hnew hdir, hget]
    | none =>
      cases hload : a.load fs active dir with
      | error e =>
        refine .inl ⟨.error e, ?_, fun fuel => ?_⟩
        · rintro ⟨⟩
          exact failsAs_load fs active a dir _ hload
        · rw [grow_of_find hnew hdir, hget, hload]
          rfl
      | ok r' =>
        refine .inr ⟨dir, r', hnew, ⟨hname, dir, hdir, hload⟩, fun fuel => ?_⟩
        rw [grow_of_find hnew hdir, hget, hload]
        rfl

/-- What is listed is too deep if what is found for it is. -/
theorem exists_of_grow_eq_tooDeep {fuel : Nat} {path : List String}
    {found : List RecipeTree × BuiltTrees} {name : String} (hname : name ∈ r.recipes)
    (h : a.grow fs active fuel path r found name = .error .recipesTooDeep) :
    name ∉ path ∧ ∃ r', a.Lists fs active name r r' ∧
      a.build fs active fuel path found.2 r' = .error .recipesTooDeep := by
  rcases grow_cases fs active a path found hname with
    ⟨result, hresult, hgrow⟩ | ⟨dir, r', hnew, hlists, hgrow⟩
  · exact absurd ((hgrow fuel).symm.trans h) hresult
  · refine ⟨hnew, r', hlists, ?_⟩
    rw [hgrow fuel] at h
    cases hbuild : a.build fs active fuel path found.2 r' with
    | error e =>
      rw [hbuild] at h
      cases h
      rfl
    | ok result =>
      rw [hbuild] at h
      cases h

/-- Whatever is too deep to be built lies at the end of a way that is as long. -/
theorem exists_way_of_build {fuel : Nat} {above : List Recipe} {built : BuiltTrees}
    (hway : Way fs active a root above r)
    (h : a.build fs active fuel (above.map (·.id)) built r = .error .recipesTooDeep) :
    ∃ above' r', Way fs active a root above' r' ∧ above'.length = above.length + fuel := by
  induction fuel generalizing above built r with
  | zero => exact ⟨above, r, hway, rfl⟩
  | succ fuel ih =>
    rw [build_succ] at h
    have hids : above.map (·.id) ++ [r.id] = (above ++ [r]).map (·.id) := by simp
    rw [hids] at h
    cases hfold : r.recipes.foldlM (a.grow fs active fuel ((above ++ [r]).map (·.id)) r)
        ([], built) with
    | ok found =>
      rw [hfold] at h
      cases h
    | error e =>
      rw [hfold] at h
      cases h
      obtain ⟨found, name, hname, hgrow⟩ := Except.exists_of_foldlM_eq_error hfold
      obtain ⟨hnew, r', hlists, hbuild⟩ := exists_of_grow_eq_tooDeep hname hgrow
      obtain ⟨above', x, hway', hlength⟩ := ih (hway.down hlists hnew) hbuild
      refine ⟨above', x, hway', ?_⟩
      rw [hlength, List.length_append, List.length_singleton]
      omega

/-! ### Recipes and their directories -/

/-- The recipe of a directory is the only one there. -/
theorem eq_of_path {dir dir' : Path} (h : a.load fs active dir = .ok r)
    (h' : a.load fs active dir' = .ok r') (hpath : r.path = r'.path) : r = r' := by
  have heq : recipePath fs dir = recipePath fs dir' := by
    rw [← (eq_of_load h).1, ← (eq_of_load h').1, hpath]
  rw [load, heq, ← load] at h
  exact Except.ok.inj (h.symm.trans h')

/-- Where the recipes on the ways from a recipe can be. -/
def homes (fs : Files) (root : Recipe) : List Path := root.path :: fs.directories.map Files.absolute

theorem length_homes (fs : Files) (root : Recipe) :
    (homes fs root).length = directoryCount fs + 1 := by
  simp [homes, Files.directories, directoryCount]

section Ways

variable {dir : Path} {above : List Recipe}

/-- A recipe on a way was loaded, and its directory is one of those there are. -/
theorem Way.exists_load (hroot : a.load fs active dir = .ok root)
    (h : Way fs active a root above r) : ∀ x ∈ above ++ [r],
      (∃ dir, a.load fs active dir = .ok x) ∧ x.path ∈ homes fs root := by
  induction h with
  | start =>
    intro x hx
    rw [List.nil_append, List.mem_singleton] at hx
    rw [hx]
    exact ⟨⟨dir, hroot⟩, List.mem_cons_self ..⟩
  | @down above r r' name hway hlists hnew ih =>
    intro x hx
    rcases List.mem_append.mp hx with hx | hx
    · exact ih x hx
    · rw [List.mem_singleton.mp hx]
      obtain ⟨-, dir', hdir', hload⟩ := hlists
      obtain ⟨place, hplace, -, hpath⟩ := (Discovery.found_of_find hdir').recipePath_eq
      refine ⟨⟨dir', hload⟩, List.mem_cons_of_mem _ ?_⟩
      rw [(eq_of_load hload).1, hpath]
      exact List.mem_map_of_mem hplace

/-- Recipes on a way are the same if their directories are. -/
theorem Way.eq_of_path (hroot : a.load fs active dir = .ok root)
    (h : Way fs active a root above r) {x y : Recipe} (hx : x ∈ above ++ [r])
    (hy : y ∈ above ++ [r]) (hpath : x.path = y.path) : x = y := by
  obtain ⟨⟨d, hd⟩, -⟩ := h.exists_load hroot x hx
  obtain ⟨⟨d', hd'⟩, -⟩ := h.exists_load hroot y hy
  exact Application.eq_of_path hd hd' hpath

/-- There are no more recipes in different directories on a way than there are directories. -/
theorem Way.length_le (hroot : a.load fs active dir = .ok root)
    (h : Way fs active a root above r) {l : List Recipe} (hl : (l.map (·.path)).Nodup)
    (hmem : ∀ x ∈ l, x ∈ above ++ [r]) : l.length ≤ directoryCount fs + 1 := by
  have hpaths : (l.map (·.path)).length = l.length := List.length_map _
  rw [← length_homes fs root, ← hpaths]
  refine hl.length_le_of_subset fun p hp => ?_
  obtain ⟨x, hx, rfl⟩ := List.mem_map.mp hp
  exact (h.exists_load hroot x (hmem x hx)).2

/-- There are no more ids on a way than there are directories. -/
theorem Way.length_ids_le (hroot : a.load fs active dir = .ok root)
    (h : Way fs active a root above r) {ids : List String} (hids : ids.Nodup)
    (hmem : ids ⊆ (above ++ [r]).map (·.id)) : ids.length ≤ directoryCount fs + 1 := by
  have hnames : ((homes fs root).map fun p => p.fileName?.getD "").length
      = (homes fs root).length := List.length_map _
  rw [← length_homes fs root, ← hnames]
  refine hids.length_le_of_subset fun id hid => ?_
  obtain ⟨x, hx, rfl⟩ := List.mem_map.mp (hmem hid)
  obtain ⟨⟨d, hd⟩, hhome⟩ := h.exists_load hroot x hx
  obtain ⟨hpath, hname⟩ := eq_of_load hd
  exact List.mem_map.mpr ⟨x.path, hhome, by rw [hname, hpath]⟩

/-! ### Spellings -/

/-- There is no separator in an id. -/
theorem not_mem_id (h : a.load fs active dir = .ok r) : '/' ∉ r.id.toList := by
  rw [(eq_of_load h).2]
  cases hname : (recipePath fs dir).fileName? with
  | none => exact List.not_mem_nil
  | some n => exact Files.not_mem_of_fileName? hname

/-- A name without a separator is the id of what it finds. -/
theorem Lists.id_eq {name : String} (h : a.Lists fs active name r r')
    (hname : '/' ∉ name.toList) : r'.id = name := by
  obtain ⟨-, dir, hdir, hload⟩ := h
  obtain ⟨place, -, hlocate, hpath⟩ := (Discovery.found_of_find hdir).recipePath_eq
  obtain ⟨hplain, -, p, -, rfl⟩ := Discovery.exists_join_of_find hdir
  have hentry := Files.ofPiece?_of_plainName? hname hplain
  rw [(eq_of_load hload).2, hpath, Files.eq_of_locate_join hname hentry hlocate,
    Files.fileName?_absolute hname hentry]
  rfl

/-- Another spelling is never the id of a recipe on a way. -/
theorem Way.not_mem_ids (hroot : a.load fs active dir = .ok root)
    (h : Way fs active a root above r) {name : String} {x : Recipe}
    (hlists : a.Lists fs active name r x) (hname : name ≠ x.id) :
    name ∉ (above ++ [r]).map (·.id) := by
  intro hmem
  obtain ⟨y, hy, rfl⟩ := List.mem_map.mp hmem
  obtain ⟨⟨d, hd⟩, -⟩ := h.exists_load hroot y hy
  exact hname (hlists.id_eq (not_mem_id hd)).symm

/-! ### Ways that come to an end -/

/-- A way, measured: ids that were reached by plain spelling, and the recipes since the last of
them, which are in different directories. -/
structure Measure (fs : Files) (active : Storage) (a : Application) (above : List Recipe)
    (r : Recipe) (marks : List String) (run : List Recipe) : Prop where
  /-- Plain spelling leads to an id that is not on the way. -/
  marks_nodup : marks.Nodup
  marks_subset : marks ⊆ (above ++ [r]).map (·.id)
  run_nodup : (run.map (·.path)).Nodup
  run_subset : run ⊆ above ++ [r]
  /-- Only other spellings were followed since. -/
  respelled : ∀ x ∈ run, ReflTransGen (a.Respells fs active) x r
  /-- There are as many runs before this one as there are marks. -/
  length_le : above.length + 1 ≤ marks.length * (directoryCount fs + 1) + run.length

namespace Measure

variable {marks : List String} {run : List Recipe} {name : String}

/-- A plain spelling leads to an id that is new, and a new run begins. -/
theorem mark (hroot : a.load fs active dir = .ok root) (hway : Way fs active a root above r)
    (hnew : r'.id ∉ (above ++ [r]).map (·.id)) (h : Measure fs active a above r marks run) :
    Measure fs active a (above ++ [r]) r' (marks ++ [r'.id]) [r'] where
  marks_nodup := by
    refine List.nodup_append.mpr ⟨h.marks_nodup, List.nodup_singleton _, fun x hx y hy => ?_⟩
    rw [List.mem_singleton.mp hy]
    rintro rfl
    exact hnew (h.marks_subset hx)
  marks_subset := by
    intro x hx
    rw [List.map_append]
    rcases List.mem_append.mp hx with hx | hx
    · exact List.mem_append_left _ (h.marks_subset hx)
    · exact List.mem_append_right _ hx
  run_nodup := List.nodup_singleton _
  run_subset := List.subset_append_right _ _
  respelled := by
    intro x hx
    rw [List.mem_singleton.mp hx]
  length_le := by
    have hbound := hway.length_le hroot h.run_nodup h.run_subset
    have hlength := h.length_le
    simp only [List.length_append, List.length_singleton]
    rw [Nat.add_mul, Nat.one_mul]
    omega

/-- Another spelling goes on with the run, to a directory that it has not met. -/
theorem follow (hroot : a.load fs active dir = .ok root)
    (hway : Way fs active a root (above ++ [r]) r') (hstep : a.Respells fs active r r')
    (hcircle : ¬TransGen (a.Respells fs active) r' r')
    (h : Measure fs active a above r marks run) :
    Measure fs active a (above ++ [r]) r' marks (run ++ [r']) where
  marks_nodup := h.marks_nodup
  marks_subset := fun x hx => List.map_append ▸ List.mem_append_left _ (h.marks_subset hx)
  run_nodup := by
    rw [List.map_append]
    refine List.nodup_append.mpr ⟨h.run_nodup, List.nodup_singleton _, fun p hp q hq => ?_⟩
    rw [List.map_singleton, List.mem_singleton] at hq
    rw [hq]
    rintro rfl
    obtain ⟨x, hx, hpath⟩ := List.mem_map.mp hp
    have hmem : x ∈ above ++ [r] ++ [r'] := List.mem_append_left _ (h.run_subset hx)
    have hrespelled := h.respelled x hx
    rw [hway.eq_of_path hroot hmem List.mem_concat_self hpath] at hrespelled
    exact hcircle (TransGen.tail' hrespelled hstep)
  run_subset := by
    intro x hx
    rcases List.mem_append.mp hx with hx | hx
    · exact List.mem_append_left _ (h.run_subset hx)
    · exact List.mem_append_right _ hx
  respelled := by
    intro x hx
    rcases List.mem_append.mp hx with hx | hx
    · exact (h.respelled x hx).tail hstep
    · rw [List.mem_singleton.mp hx]
  length_le := by
    have hlength := h.length_le
    simp only [List.length_append, List.length_singleton]
    omega

end Measure

/-- Without a circle of other spellings, every way can be measured. -/
theorem Way.exists_measure (hroot : a.load fs active dir = .ok root)
    (hcircles : ∀ above x, Way fs active a root above x → ¬TransGen (a.Respells fs active) x x)
    (h : Way fs active a root above r) :
    ∃ marks run, Measure fs active a above r marks run := by
  induction h with
  | start =>
    refine ⟨[], [root], List.nodup_nil, List.nil_subset _, List.nodup_singleton _,
      List.Subset.refl _, fun x hx => ?_, by simp⟩
    rw [List.mem_singleton.mp hx]
  | @down above r r' name hway hlists hnew ih =>
    obtain ⟨marks, run, h⟩ := ih
    have hway' : Way fs active a root (above ++ [r]) r' := hway.down hlists hnew
    by_cases hname : name = r'.id
    · rw [hname] at hnew
      exact ⟨marks ++ [r'.id], [r'], h.mark hroot hway hnew⟩
    · exact ⟨marks, run ++ [r'], h.follow hroot hway' ⟨name, hlists, hname⟩ (hcircles _ _ hway')⟩

/-- Without a circle of other spellings, ways are shorter than trees can be deep. -/
theorem Way.length_lt (hroot : a.load fs active dir = .ok root)
    (hcircles : ∀ above x, Way fs active a root above x → ¬TransGen (a.Respells fs active) x x)
    (h : Way fs active a root above r) : above.length < depthBound fs := by
  obtain ⟨marks, run, hmeasure⟩ := h.exists_measure hroot hcircles
  have hlength := hmeasure.length_le
  have hmarks : marks.length ≤ directoryCount fs + 1 :=
    h.length_ids_le hroot hmeasure.marks_nodup hmeasure.marks_subset
  have hrun : run.length ≤ directoryCount fs + 1 :=
    h.length_le hroot hmeasure.run_nodup hmeasure.run_subset
  have hmul : marks.length * (directoryCount fs + 1)
      ≤ (directoryCount fs + 1) * (directoryCount fs + 1) := Nat.mul_le_mul_right _ hmarks
  have hdepth : depthBound fs = (directoryCount fs + 1) * (directoryCount fs + 1)
      + (directoryCount fs + 1) * (directoryCount fs + 1) := by
    rw [depthBound, ← Nat.mul_add]
    congr 1
    omega
  have hone : directoryCount fs + 1 ≤ (directoryCount fs + 1) * (directoryCount fs + 1) :=
    Nat.le_mul_of_pos_left _ (Nat.succ_pos _)
  omega

/-- Other spellings can be followed on every way. -/
theorem Way.exists_of_respelled (hroot : a.load fs active dir = .ok root) {x : Recipe}
    (h : Way fs active a root above r) (hx : TransGen (a.Respells fs active) r x) :
    ∃ above', Way fs active a root above' x ∧ above.length < above'.length := by
  induction hx with
  | single hstep =>
    obtain ⟨name, hlists, hname⟩ := hstep
    refine ⟨above ++ [r], h.down hlists (h.not_mem_ids hroot hlists hname), ?_⟩
    rw [List.length_append, List.length_singleton]
    omega
  | @tail y z hy hstep ih =>
    obtain ⟨above', hway, hlength⟩ := ih
    obtain ⟨name, hlists, hname⟩ := hstep
    refine ⟨above' ++ [y], hway.down hlists (hway.not_mem_ids hroot hlists hname), ?_⟩
    rw [List.length_append, List.length_singleton]
    omega

/-- Ways come to an end just if there is no circle of other spellings on them. -/
theorem bounded_iff (hroot : a.load fs active dir = .ok root) :
    (∃ n, ∀ above r, Way fs active a root above r → above.length < n) ↔
      ∀ above r, Way fs active a root above r → ¬TransGen (a.Respells fs active) r r := by
  constructor
  · rintro ⟨n, hn⟩ above r hway hcircle
    have hlong : ∀ m, ∃ above', Way fs active a root above' r ∧ m ≤ above'.length := by
      intro m
      induction m with
      | zero => exact ⟨above, hway, Nat.zero_le _⟩
      | succ m ih =>
        obtain ⟨above', hway', hm⟩ := ih
        obtain ⟨above'', hway'', hlength⟩ := hway'.exists_of_respelled hroot hcircle
        exact ⟨above'', hway'', by omega⟩
    obtain ⟨above', hway', hlength⟩ := hlong n
    have hshort := hn above' r hway'
    omega
  · intro hcircles
    exact ⟨depthBound fs, fun above r hway => hway.length_lt hroot hcircles⟩

/-! ### Ways through different directories -/

/-- The directories on all ways are different just if entries that lead back are spelled plainly. -/
theorem nodup_iff (hroot : a.load fs active dir = .ok root) :
    (∀ above r, Way fs active a root above r → ((above ++ [r]).map (·.path)).Nodup) ↔
      ∀ above r name r', Way fs active a root above r → a.Lists fs active name r r' →
        r' ∈ above ++ [r] → name = r'.id := by
  constructor
  · intro hnodup above r name r' hway hlists hmem
    by_contra hname
    have hway' := hway.down hlists (hway.not_mem_ids hroot hlists hname)
    have hpaths := hnodup _ _ hway'
    rw [List.map_append, List.nodup_append] at hpaths
    exact hpaths.2.2 r'.path (List.mem_map_of_mem hmem) r'.path (List.mem_singleton_self _) rfl
  · intro hplain above r hway
    induction hway with
    | start => exact List.nodup_singleton _
    | @down above r r' name hway hlists hnew ih =>
      have hway' : Way fs active a root (above ++ [r]) r' := hway.down hlists hnew
      rw [List.map_append]
      refine List.nodup_append.mpr ⟨ih, List.nodup_singleton _, fun p hp q hq => ?_⟩
      rw [List.map_singleton, List.mem_singleton] at hq
      rw [hq]
      rintro rfl
      obtain ⟨x, hx, hpath⟩ := List.mem_map.mp hp
      rw [hway'.eq_of_path hroot (List.mem_append_left _ hx) List.mem_concat_self hpath] at hx
      have hname : name = r'.id := hplain above r name r' hway hlists hx
      exact hnew (hname ▸ List.mem_map_of_mem hx)

end Ways

/-! ### Trees have no circles -/

/-- No recipe in a tree requires itself. -/
theorem not_circle_of_grown {t : RecipeTree} (ht : a.Grown fs active t) {x : Recipe}
    (hx : ReflTransGen (a.Needs fs active) t.recipe x) : ¬TransGen (a.Needs fs active) x x := by
  induction ht with
  | @node r ts hall honly hbelow ih =>
    change ReflTransGen (a.Needs fs active) r x at hx
    have hchild : ∀ y, a.Needs fs active r y → ∃ t ∈ ts, t.recipe = y := by
      rintro y ⟨name, hlists⟩
      obtain ⟨t, ht, hlists'⟩ := hall name hlists.1
      exact ⟨t, ht, hlists'.unique hlists⟩
    rcases hx.cases_head with rfl | ⟨y, hy, hyx⟩
    · -- The circle comes back from a tree below, so that its recipe is needed there.
      intro hcircle
      obtain ⟨y, hy, hback⟩ := TransGen.head'_iff.mp hcircle
      obtain ⟨t, ht, rfl⟩ := hchild y hy
      exact ih t ht hback hcircle
    · obtain ⟨t, ht, rfl⟩ := hchild y hy
      exact ih t ht hyx

/-! ### Depth -/

/-- More room changes only what was too deep. -/
theorem build_add_one {fuel : Nat} {path : List String} {built : BuiltTrees}
    (h : a.build fs active fuel path built r ≠ .error .recipesTooDeep) :
    a.build fs active (fuel + 1) path built r = a.build fs active fuel path built r := by
  induction fuel generalizing path built r with
  | zero => exact absurd rfl h
  | succ fuel ih =>
    rw [build_succ] at h
    rw [build_succ, build_succ]
    have hfold : r.recipes.foldlM (a.grow fs active fuel (path ++ [r.id]) r) ([], built)
        ≠ .error .recipesTooDeep := by
      intro hdeep
      rw [hdeep] at h
      exact h rfl
    rw [Except.foldlM_congr (fun found name hname hgrow => ?_) hfold]
    rcases grow_cases fs active a (path ++ [r.id]) found hname with
      ⟨result, -, hresult⟩ | ⟨dir, r', -, -, hresult⟩
    · rw [hresult, hresult]
    · rw [hresult] at hgrow
      rw [hresult, hresult, ih fun hdeep => hgrow (by rw [hdeep]; rfl)]

theorem build_of_le {fuel fuel' : Nat} {path : List String} {built : BuiltTrees}
    (hle : fuel ≤ fuel') (h : a.build fs active fuel path built r ≠ .error .recipesTooDeep) :
    a.build fs active fuel' path built r = a.build fs active fuel path built r := by
  induction hle with
  | refl => rfl
  | step _ ih => rw [build_add_one (ih ▸ h), ih]

/-- Recipes whose first entries are other spellings, and lead to such recipes again, are never
built: the first entries are followed before anything else is done. -/
theorem endless_of_respelled {dir : Path} (hroot : a.load fs active dir = .ok root)
    {S : Recipe → Prop} (hS : ∀ r, S r → ∃ name rest r', r.recipes = name :: rest ∧
      a.Lists fs active name r r' ∧ name ≠ r'.id ∧ S r')
    {above : List Recipe} (hway : Way fs active a root above r) (hr : S r) (fuel : Nat) :
    a.build fs active fuel (above.map (·.id)) [] r = .error .recipesTooDeep := by
  induction fuel generalizing above r with
  | zero => rfl
  | succ fuel ih =>
    obtain ⟨name, rest, r', hrecipes, hlists, hname, hr'⟩ := hS r hr
    have hnew := hway.not_mem_ids hroot hlists hname
    have hdeep := ih (hway.down hlists hnew) hr'
    obtain ⟨-, dir', hdir', hload⟩ := hlists
    have hids : above.map (·.id) ++ [r.id] = (above ++ [r]).map (·.id) := by simp
    rw [build_succ, hids, hrecipes, List.foldlM_cons, grow_of_find hnew hdir']
    show (a.load fs active dir' >>= _ >>= _) >>= _ = _
    rw [hload]
    show (Except.map _ (a.build fs active fuel _ [] r') >>= _) >>= _ = _
    rw [hdeep]
    rfl

/-! ### What becomes of a recipe -/

/-- A recipe is built with the room that `depthBound` gives. -/
theorem resolve_eq {dir : Path} (hroot : a.load fs active dir = .ok root) :
    a.resolve fs active dir = (a.build fs active (depthBound fs) [] [] root).map Prod.fst := by
  rw [resolve, hroot]
  show (a.build fs active (depthBound fs) [] [] root >>= _) = _
  cases a.build fs active (depthBound fs) [] [] root <;> rfl

/-- Without a circle of other spellings, that is room enough. -/
theorem build_ne_tooDeep {dir : Path} (hroot : a.load fs active dir = .ok root)
    (hcircles : ∀ above r, Way fs active a root above r → ¬TransGen (a.Respells fs active) r r) :
    a.build fs active (depthBound fs) [] [] root ≠ .error .recipesTooDeep := by
  intro hdeep
  obtain ⟨above, r, hway, hlength⟩ := exists_way_of_build Way.start hdeep
  have hlt := hway.length_lt hroot hcircles
  rw [List.length_nil, Nat.zero_add] at hlength
  omega

theorem resolve_ne_tooDeep {dir : Path} (hroot : a.load fs active dir = .ok root)
    (hcircles : ∀ above r, Way fs active a root above r → ¬TransGen (a.Respells fs active) r r) :
    a.resolve fs active dir ≠ .error .recipesTooDeep := by
  have hbuild := build_ne_tooDeep hroot hcircles
  intro hdeep
  rw [resolve_eq hroot] at hdeep
  cases hresult : a.build fs active (depthBound fs) [] [] root with
  | error e =>
    rw [hresult] at hdeep hbuild
    cases hdeep
    exact hbuild rfl
  | ok result =>
    rw [hresult] at hdeep
    cases hdeep

/-- Ways come to an end just if no recipe on them leads back to itself through other spellings alone.
Then so does building, and more room changes nothing. The directories on ways are different just if
entries that lead back are spelled plainly. Recipes that require each other are an error in any
case. -/
theorem ends_of_resolve {dir : Path} (hroot : a.load fs active dir = .ok root) :
    ((∃ n, ∀ above r, Way fs active a root above r → above.length < n) ↔
      ∀ above r, Way fs active a root above r → ¬TransGen (a.Respells fs active) r r) ∧
    ((∀ above r, Way fs active a root above r → ¬TransGen (a.Respells fs active) r r) →
      a.resolve fs active dir ≠ .error .recipesTooDeep ∧ ∀ fuel, depthBound fs ≤ fuel →
        (a.build fs active fuel [] [] root).map Prod.fst = a.resolve fs active dir) ∧
    ((∀ above r, Way fs active a root above r → ((above ++ [r]).map (·.path)).Nodup) ↔
      ∀ above r name r', Way fs active a root above r → a.Lists fs active name r r' →
        r' ∈ above ++ [r] → name = r'.id) ∧
    ((∃ x, ReflTransGen (a.Needs fs active) root x ∧ TransGen (a.Needs fs active) x x) →
      ∃ e, a.resolve fs active dir = .error e) := by
  refine ⟨bounded_iff hroot, fun hcircles => ⟨resolve_ne_tooDeep hroot hcircles, ?_⟩,
    nodup_iff hroot, ?_⟩
  · intro fuel hfuel
    rw [build_of_le hfuel (build_ne_tooDeep hroot hcircles), resolve_eq hroot]
  · rintro ⟨x, hx, hcircle⟩
    cases htree : a.resolve fs active dir with
    | error e => exact ⟨e, rfl⟩
    | ok t =>
      obtain ⟨hload, hgrown⟩ := grown_of_resolve htree
      cases hroot.symm.trans hload
      exact absurd hcircle (not_circle_of_grown hgrown hx)

/-! ### An instance -/

/-- A recipe that lists itself, under another spelling. -/
def respelledRecipe : Files where
  tree := .dir [("recipes", .dir [("b", .dir [
    ("recipe.yml", .file (.text "name: B\nrecipes: [b/]"))])])]

theorem loaded_for_ever : ∃ r,
    plainApplication.load respelledRecipe .null ⟨"/recipes/b"⟩ = .ok r ∧
      (¬∃ n, ∀ above r', Way respelledRecipe .null plainApplication r above r' → above.length < n) ∧
      (∃ e, plainApplication.resolve respelledRecipe .null ⟨"/recipes/b"⟩ = .error e) ∧
      ∀ fuel, plainApplication.build respelledRecipe .null fuel [] [] r = .error .recipesTooDeep := by
  have hgoes : ∃ r, plainApplication.load respelledRecipe .null ⟨"/recipes/b"⟩ = .ok r ∧
      (r.recipes = ["b/"] ∧ r.id = "b") ∧
      ∃ dir, (plainApplication.discovery r.path).find respelledRecipe "b/" = .ok dir ∧
        ∃ r', plainApplication.load respelledRecipe .null dir = .ok r' ∧ r'.path = r.path := by
    decide +kernel
  obtain ⟨r, hroot, ⟨hrecipes, hid⟩, dir, hdir, r', hload, hpath⟩ := hgoes
  rw [eq_of_path hload hroot hpath] at hload
  have hlists : plainApplication.Lists respelledRecipe .null "b/" r r :=
    ⟨by simp [hrecipes], dir, hdir, hload⟩
  have hname : "b/" ≠ r.id := by simp [hid]
  obtain ⟨hbounded, -, -, hcircle⟩ := ends_of_resolve hroot
  refine ⟨r, hroot, fun h => ?_, hcircle ⟨r, .refl, .single ⟨"b/", hlists⟩⟩, fun fuel => ?_⟩
  · exact hbounded.mp h [] r .start (.single ⟨"b/", hlists, hname⟩)
  · refine endless_of_respelled hroot (S := (· = r)) ?_ .start rfl fuel
    rintro x rfl
    exact ⟨"b/", [], x, hrecipes, hlists, hname, rfl⟩

end Application

end Cookbook
