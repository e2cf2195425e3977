import Cookbook.Proofs.Recipe.Reading
import Mathlib.Algebra.BigOperators.Group.List.Basic
import Mathlib.Algebra.GroupWithZero.Nat
import Mathlib.Logic.Relation

/-!
# What recipes install, gathered by name

`Discovery.gather` goes over a list of names that are to be looked at and adds to it what each
recipe lists. Which of the names is taken next makes no difference to what is gathered, so a step
may take any of them, and `gather` is one way to go on until there is none left.

It ends because each name is looked at once: what is still to be done is the length of the list and
the number of names listed by recipes that were not looked at yet, and that becomes less with each
step. The names that can be met are known beforehand, as every recipe that can be found is in one of
the places where recipes are looked for, under a name in the directory there.

## Main definitions

* `Discovery.Mentions`: a recipe found under a name lists another name.
* `Discovery.Step`, `Discovery.Run`: looking at names, one after the other.
* `Discovery.Tracks`: what is known on the way.
* `Discovery.workload`: what is still to be done.

## Main results

* `Discovery.mem_mentioned_of_mentions`: the names that can be met.
* `Discovery.Tracks.step`, `Discovery.Tracks.run`: what is known stays true.
* `Discovery.Run.lt_gatherBound`: how many steps there can be.
* `Discovery.exists_run_extensionsInstalledBy`: what is gathered was found by a run to the end.
* `Discovery.mem_extensionsInstalledBy`: what is gathered.
-/

namespace Cookbook

open Relation (ReflTransGen)

namespace Discovery

variable {fs : Files} {d : Discovery} {fuel k : Nat} {met seen pending names rest : List String}
  {name name' n e : String}

/-- A recipe that is found under a name lists another name. -/
def Mentions (fs : Files) (d : Discovery) (name name' : String) : Prop :=
  name' ∈ (needsOfName fs d name).2

/-- Some names lead to a name. -/
def LedTo (fs : Files) (d : Discovery) (names : List String) (n : String) : Prop :=
  ∃ n₀ ∈ names, ReflTransGen (Mentions fs d) n₀ n

theorem LedTo.tail (h : LedTo fs d names name) (hlists : Mentions fs d name name') :
    LedTo fs d names name' := by
  obtain ⟨n₀, hn₀, hreach⟩ := h
  exact ⟨n₀, hn₀, hreach.tail hlists⟩

/-! ### The names that can be met -/

/-- What a recipe needs is also found under the name of its directory. -/
theorem needsOf_join_plainName {p : Path} {n : String} (hname : Path.plainName? name = some n)
    (hfound : Found fs (p.join name)) :
    needsOf fs (p.join name) = needsOf fs (p.orHere.join n) ∧
      ∃ entries t, fs.readDir p.orHere = .ok entries ∧ (n, t) ∈ entries := by
  obtain ⟨place, _, hplace, -⟩ := hfound.exists_locate
  obtain ⟨above, entries, habove, hdir, hentry, hplain⟩ := Files.exists_of_locate_plainName
    (Files.text_orHere_ne_empty p) hname (Files.locate_orHere_join hname hplace)
  refine ⟨needsOf_congr (Files.get_join_eq hplace hplain (by decide) (by decide)), ?_⟩
  obtain ⟨t, ht⟩ := Option.isSome_iff_exists.mp hentry
  refine ⟨entries, t, ?_, NameMap.mem_of_lookup_eq_some ht⟩
  have hget : fs.get p.orHere = .ok (.dir entries) := by
    simp only [Files.get, habove, bind, Except.bind, hdir]
    rfl
  rw [Files.readDir, hget]
  rfl

/-- Every name that a recipe lists is among those mentioned in the places. -/
theorem mem_mentioned_of_mentions (h : Mentions fs d name name') : name' ∈ mentioned fs d := by
  rw [Mentions, needsOfName] at h
  cases hfind : d.find fs name with
  | error err =>
    rw [hfind] at h
    cases h
  | ok dir =>
    rw [hfind] at h
    obtain ⟨hplain, -, p, hp, rfl⟩ := exists_join_of_find hfind
    obtain ⟨n, hn⟩ := Option.isSome_iff_exists.mp hplain
    obtain ⟨hneeds, entries, t, hread, hentry⟩ :=
      needsOf_join_plainName hn (found_of_find hfind)
    have h : name' ∈ (needsOf fs (p.join name)).2 := h
    rw [hneeds] at h
    refine List.mem_flatMap.mpr ⟨p, hp, List.mem_flatMap.mpr ⟨(n, t), ?_, h⟩⟩
    rw [hread]
    exact hentry

/-! ### Steps -/

/-- How far one has come. -/
structure Progress where
  /-- The names that were looked at. -/
  seen : List String
  /-- The names that are to be looked at. -/
  pending : List String
  /-- The extensions that were found. -/
  found : List String

/-- Before the first step. -/
def Progress.start (names : List String) : Progress := ⟨[], names, []⟩

/-- Any of the names that are to be looked at is taken. If it was looked at before, that is all; if
not, what its recipe installs is found, and what it lists is to be looked at. -/
inductive Step (fs : Files) (d : Discovery) : Progress → Progress → Prop where
  | skip {name : String} {seen pending rest found : List String}
    (htaken : pending.Perm (name :: rest)) (hold : name ∈ seen) :
    Step fs d ⟨seen, pending, found⟩ ⟨seen, rest, found⟩
  | visit {name : String} {seen pending rest found : List String}
    (htaken : pending.Perm (name :: rest)) (hnew : name ∉ seen) :
    Step fs d ⟨seen, pending, found⟩
      ⟨name :: seen, (needsOfName fs d name).2 ++ rest, found ++ (needsOfName fs d name).1⟩

/-- Steps one after the other, and how many. -/
inductive Run (fs : Files) (d : Discovery) : Nat → Progress → Progress → Prop where
  | nil {s : Progress} : Run fs d 0 s s
  | cons {k : Nat} {s s' s'' : Progress} (hstep : Step fs d s s') (hrun : Run fs d k s' s'') :
    Run fs d (k + 1) s s''

variable {s s' : Progress}

/-- As long as there are names to be looked at, there is a step. -/
theorem exists_step (h : s.pending ≠ []) : ∃ s', Step fs d s s' := by
  obtain ⟨seen, pending, found⟩ := s
  obtain ⟨name, rest, rfl⟩ := List.exists_cons_of_ne_nil h
  by_cases hseen : name ∈ seen
  · exact ⟨_, .skip (.refl _) hseen⟩
  · exact ⟨_, .visit (.refl _) hseen⟩

/-- No name gets lost. -/
theorem Step.kept (h : Step fs d s s') (hn : n ∈ s.seen ∨ n ∈ s.pending) :
    n ∈ s'.seen ∨ n ∈ s'.pending := by
  rcases hn with hn | hn
  · cases h with
    | skip => exact .inl hn
    | visit => exact .inl (List.mem_cons_of_mem _ hn)
  · cases h with
    | skip htaken hold =>
      rcases List.mem_cons.mp (htaken.mem_iff.mp hn) with rfl | hn
      · exact .inl hold
      · exact .inr hn
    | visit htaken =>
      rcases List.mem_cons.mp (htaken.mem_iff.mp hn) with rfl | hn
      · exact .inl (List.mem_cons_self ..)
      · exact .inr (List.mem_append_right _ hn)

/-! ### What is known on the way -/

/-- What is known of a state that some names have led to: it has only names that these lead to and
none of them was lost, and what is found is what is installed by those looked at. -/
structure Tracks (fs : Files) (d : Discovery) (names : List String) (s : Progress) : Prop where
  /-- What was looked at is led to. -/
  seen_led : ∀ n ∈ s.seen, LedTo fs d names n
  /-- What is to be looked at is led to. -/
  pending_led : ∀ n ∈ s.pending, LedTo fs d names n
  /-- The names one started with were looked at or are to be. -/
  start_kept : ∀ n ∈ names, n ∈ s.seen ∨ n ∈ s.pending
  /-- So was what is listed by a recipe that was looked at. -/
  listed_kept : ∀ n ∈ s.seen, ∀ n', Mentions fs d n n' → n' ∈ s.seen ∨ n' ∈ s.pending
  /-- What was found. -/
  mem_found : ∀ e, e ∈ s.found ↔ ∃ n ∈ s.seen, e ∈ (needsOfName fs d n).1

theorem Tracks.start (fs : Files) (d : Discovery) (names : List String) :
    Tracks fs d names (Progress.start names) where
  seen_led := by simp [Progress.start]
  pending_led := fun n hn => ⟨n, hn, .refl⟩
  start_kept := fun n hn => .inr hn
  listed_kept := by simp [Progress.start]
  mem_found := by simp [Progress.start]

theorem Tracks.step (h : Tracks fs d names s) (hstep : Step fs d s s') : Tracks fs d names s' := by
  have hkept : ∀ n ∈ names, n ∈ s'.seen ∨ n ∈ s'.pending :=
    fun n hn => hstep.kept (h.start_kept n hn)
  have hlisted : ∀ n ∈ s.seen, ∀ n', Mentions fs d n n' → n' ∈ s'.seen ∨ n' ∈ s'.pending :=
    fun n hn n' hn' => hstep.kept (h.listed_kept n hn n' hn')
  cases hstep with
  | skip htaken hold =>
    refine ⟨h.seen_led, fun n hn => ?_, hkept, hlisted, h.mem_found⟩
    exact h.pending_led n (htaken.mem_iff.mpr (List.mem_cons_of_mem _ hn))
  | @visit name seen pending rest found htaken hnew =>
    have hname : LedTo fs d names name :=
      h.pending_led _ (htaken.mem_iff.mpr (List.mem_cons_self ..))
    refine ⟨?_, ?_, hkept, ?_, fun e => ?_⟩
    · exact List.forall_mem_cons.mpr ⟨hname, h.seen_led⟩
    · intro n hn
      rcases List.mem_append.mp hn with hn | hn
      · exact hname.tail hn
      · exact h.pending_led n (htaken.mem_iff.mpr (List.mem_cons_of_mem _ hn))
    · exact List.forall_mem_cons.mpr
        ⟨fun n' hn' => .inr (List.mem_append_left _ hn'), hlisted⟩
    · have hfound : e ∈ found ↔ ∃ n ∈ seen, e ∈ (needsOfName fs d n).1 := h.mem_found e
      rw [List.mem_append, hfound, List.exists_mem_cons_iff, or_comm]

theorem Tracks.run (h : Tracks fs d names s) (hrun : Run fs d k s s') : Tracks fs d names s' := by
  induction hrun with
  | nil => exact h
  | cons hstep _ ih => exact ih (h.step hstep)

/-- Once nothing is to be looked at, everything that is led to was looked at. -/
theorem Tracks.mem_seen (h : Tracks fs d names s) (hdone : s.pending = [])
    (hn : LedTo fs d names n) : n ∈ s.seen := by
  have hall : ∀ {m}, m ∈ s.seen ∨ m ∈ s.pending → m ∈ s.seen := by simp [hdone]
  obtain ⟨n₀, hn₀, hreach⟩ := hn
  induction hreach with
  | refl => exact hall (h.start_kept n₀ hn₀)
  | tail _ hlists ih => exact hall (h.listed_kept _ ih _ hlists)

theorem Tracks.mem_found_iff (h : Tracks fs d names s) (hdone : s.pending = []) :
    e ∈ s.found ↔ ∃ n, LedTo fs d names n ∧ e ∈ (needsOfName fs d n).1 := by
  rw [h.mem_found]
  constructor
  · rintro ⟨n, hn, he⟩
    exact ⟨n, h.seen_led n hn, he⟩
  · rintro ⟨n, hn, he⟩
    exact ⟨n, h.mem_seen hdone hn, he⟩

/-! ### What is still to be done -/

/-- What is still to be done when some names were looked at and others are to be: these, and what is
listed by those that can still be met. -/
def workload (fs : Files) (d : Discovery) (met seen pending : List String) : Nat :=
  pending.length
    + ((met.filter (· ∉ seen)).map fun n => (needsOfName fs d n).2.length).sum

theorem workload_skip : workload fs d met seen pending + 1
    = workload fs d met seen (name :: pending) := by
  simp only [workload, List.length_cons]
  omega

/-- A name that is looked at brings what it lists, which is no longer to come. -/
theorem workload_visit (hmet : met.Nodup) (hname : name ∈ met) (hnew : name ∉ seen) :
    workload fs d met (name :: seen) ((needsOfName fs d name).2 ++ pending) + 1
      = workload fs d met seen (name :: pending) := by
  have herase : met.filter (· ∉ name :: seen) = (met.filter (· ∉ seen)).erase name := by
    rw [List.Nodup.erase_eq_filter (hmet.filter _), List.filter_filter]
    refine List.filter_congr fun n _ => ?_
    rw [Bool.eq_iff_iff]
    simp [List.mem_cons, not_or]
  have hmem : name ∈ met.filter (· ∉ seen) := by simp [hname, hnew]
  have hsum := List.sum_map_erase (fun n => (needsOfName fs d n).2.length) hmem
  simp only [workload, herase, List.length_append, List.length_cons]
  omega

section Bounded

variable (hmet : met.Nodup) (hall : ∀ n n', Mentions fs d n n' → n' ∈ met)
include hmet hall

/-- With each step there is one thing less to be done. -/
theorem Step.workload (h : Step fs d s s') (hpending : s.pending ⊆ met) : s'.pending ⊆ met ∧
    Discovery.workload fs d met s'.seen s'.pending + 1
      = Discovery.workload fs d met s.seen s.pending := by
  have hlength : ∀ {seen pending pending' : List String}, pending.Perm pending' →
      Discovery.workload fs d met seen pending = Discovery.workload fs d met seen pending' := by
    intro seen pending pending' hperm
    rw [Discovery.workload, hperm.length_eq, Discovery.workload]
  cases h with
  | skip htaken =>
    exact ⟨(List.cons_subset.mp fun _ hn => hpending (htaken.mem_iff.mpr hn)).2,
      workload_skip.trans (hlength htaken).symm⟩
  | @visit name seen pending rest found htaken hnew =>
    obtain ⟨hname, hrest⟩ := List.cons_subset.mp fun _ hn => hpending (htaken.mem_iff.mpr hn)
    refine ⟨List.append_subset.mpr ⟨hall name, hrest⟩, ?_⟩
    exact (workload_visit hmet hname hnew).trans (hlength htaken).symm

theorem Run.workload (h : Run fs d k s s') (hpending : s.pending ⊆ met) :
    k + Discovery.workload fs d met s'.seen s'.pending
      = Discovery.workload fs d met s.seen s.pending := by
  induction h with
  | nil => rw [Nat.zero_add]
  | cons hstep _ ih =>
    obtain ⟨hnext, hless⟩ := hstep.workload hmet hall hpending
    have := ih hnext
    omega

/-- With room for what is to be done, gathering goes on until nothing is. -/
theorem exists_run_gather (hpending : pending ⊆ met)
    (hfuel : Discovery.workload fs d met seen pending ≤ fuel) (found : List String) :
    ∃ k s, Run fs d k ⟨seen, pending, found⟩ s ∧ s.pending = [] ∧
      s.found = found ++ gather fs d fuel seen pending := by
  induction fuel generalizing seen pending found with
  | zero =>
    have hnone : pending = [] := by
      rw [Discovery.workload] at hfuel
      exact List.eq_nil_of_length_eq_zero (by omega)
    exact ⟨0, _, .nil, hnone, (List.append_nil _).symm⟩
  | succ fuel ih =>
    cases pending with
    | nil => exact ⟨0, _, .nil, rfl, (List.append_nil _).symm⟩
    | cons name pending =>
      rw [gather]
      by_cases hold : name ∈ seen
      · have hstep : Step fs d ⟨seen, name :: pending, found⟩ ⟨seen, pending, found⟩ :=
          .skip (.refl _) hold
        obtain ⟨hsub, hless⟩ := hstep.workload hmet hall hpending
        rw [if_pos (List.contains_iff_mem.mpr hold)]
        have hfuel : Discovery.workload fs d met seen pending ≤ fuel := by
          dsimp only at hless
          omega
        obtain ⟨k, s, hrun, hdone⟩ := ih hsub hfuel found
        exact ⟨k + 1, s, hrun.cons hstep, hdone⟩
      · have hstep : Step fs d ⟨seen, name :: pending, found⟩ _ := .visit (.refl _) hold
        obtain ⟨hsub, hless⟩ := hstep.workload hmet hall hpending
        rw [if_neg (by simpa using hold), ← List.append_assoc]
        have hfuel : Discovery.workload fs d met (name :: seen)
            ((needsOfName fs d name).2 ++ pending) ≤ fuel := by
          dsimp only at hless
          omega
        obtain ⟨k, s, hrun, hdone⟩ := ih hsub hfuel _
        exact ⟨k + 1, s, hrun.cons hstep, hdone⟩

end Bounded

/-! ### The whole -/

/-- The names that can be met. -/
def metNames (fs : Files) (d : Discovery) (names : List String) : List String :=
  NameMap.distinctNames (names ++ mentioned fs d)

theorem nodup_metNames : (metNames fs d names).Nodup := NameMap.nodup_names _

theorem subset_metNames : names ⊆ metNames fs d names :=
  fun _ hn => NameMap.mem_distinctNames.mpr (List.mem_append_left _ hn)

theorem mem_metNames_of_mentions (name name' : String) (h : Mentions fs d name name') :
    name' ∈ metNames fs d names :=
  NameMap.mem_distinctNames.mpr (List.mem_append_right _ (mem_mentioned_of_mentions h))

theorem gatherBound_eq :
    gatherBound fs d names = workload fs d (metNames fs d names) [] names + 1 := by
  have hfold : ∀ (l : List String) (k : Nat),
      l.foldl (fun k n => k + (needsOfName fs d n).2.length) k
        = k + (l.map fun n => (needsOfName fs d n).2.length).sum := by
    intro l
    induction l with
    | nil => simp
    | cons n l ih =>
      intro k
      rw [List.foldl_cons, ih, List.map_cons, List.sum_cons, Nat.add_assoc]
  rw [gatherBound, workload, metNames]
  simp only [hfold, List.not_mem_nil, not_false_eq_true, decide_true, List.filter_true]

/-- The bound is never reached, whichever names are taken first. -/
theorem Run.lt_gatherBound (h : Run fs d k (Progress.start names) s) :
    k < gatherBound fs d names := by
  have hload : k + Discovery.workload fs d (metNames fs d names) s.seen s.pending
      = Discovery.workload fs d (metNames fs d names) [] names :=
    h.workload nodup_metNames mem_metNames_of_mentions subset_metNames
  rw [gatherBound_eq]
  omega

/-- The extensions that recipes install were found by looking at names until there was none left. -/
theorem exists_run_extensionsInstalledBy (fs : Files) (d : Discovery) (names : List String) :
    ∃ k s, Run fs d k (Progress.start names) s ∧ s.pending = [] ∧
      d.extensionsInstalledBy fs names = NameMap.distinctNames s.found := by
  have hfuel : workload fs d (metNames fs d names) [] names ≤ gatherBound fs d names := by
    rw [gatherBound_eq]
    omega
  obtain ⟨k, s, hrun, hdone, hfound⟩ :=
    exists_run_gather nodup_metNames mem_metNames_of_mentions subset_metNames hfuel []
  exact ⟨k, s, hrun, hdone, by rw [extensionsInstalledBy, hfound, List.nil_append]⟩

/-- The extensions that recipes install are those installed by the recipes that their names lead to,
in the same places. -/
theorem mem_extensionsInstalledBy : e ∈ d.extensionsInstalledBy fs names ↔
    ∃ n₀ ∈ names, ∃ n, ReflTransGen (Mentions fs d) n₀ n ∧ e ∈ (needsOfName fs d n).1 := by
  obtain ⟨k, s, hrun, hdone, hfound⟩ := exists_run_extensionsInstalledBy fs d names
  rw [hfound, NameMap.mem_distinctNames, ((Tracks.start fs d names).run hrun).mem_found_iff hdone]
  constructor
  · rintro ⟨n, ⟨n₀, hn₀, hreach⟩, he⟩
    exact ⟨n₀, hn₀, n, hreach, he⟩
  · rintro ⟨n₀, hn₀, n, hreach, he⟩
    exact ⟨n, ⟨n₀, hn₀, hreach⟩, he⟩

end Discovery

end Cookbook
