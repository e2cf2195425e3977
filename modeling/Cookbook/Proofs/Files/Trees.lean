import Cookbook.Proofs.Files

/-!
# Trees of files, place by place

What matters of a tree of files is what is at each place: nothing, a directory, or a file with its
content. `FileTree.look` says that and leaves out what is in a directory, which is at other places.
So a change of one place shows at that place alone, also in the directories above it.

The entries of a directory come in the order of their names. That is what makes listing a directory
the same as looking at the places in it; a tree is `Ordered` if it holds at every place.

## Main definitions

* `FileTree.look`: what is at a place.
* `FileTree.Open`: no file is in the way to a place.
* `FileTree.Ordered`: entries come in the order of their names.

## Main results

* `FileTree.look_put`, `FileTree.look_remove`: the two changes of a place.
* `FileTree.ordered_put`, `FileTree.ordered_remove`: they keep the order.
* `FileTree.mem_walk_iff`: what is listed below a directory is what is at the places below it.
* `FileTree.pairwise_walk`: places are listed in the order of the names that lead there.
-/

namespace Cookbook

namespace NameMap

theorem lookup_filter_ne {α : Type} (n : String) (entries : List (String × α)) (m : String) :
    lookup m (entries.filter fun e => e.1 != n) = if n = m then none else lookup m entries := by
  induction entries with
  | nil => simp [lookup]
  | cons e entries ih =>
    obtain ⟨k, v⟩ := e
    by_cases hk : k = n
    · subst hk
      rw [List.filter_cons_of_neg (by simp), ih, lookup]
      split <;> rfl
    · rw [List.filter_cons_of_pos (by simpa using hk), lookup, lookup, ih]
      split
      · rename_i hm
        rw [if_neg (hm ▸ Ne.symm hk)]
      · rfl

end NameMap

namespace FileTree

variable {t u new : FileTree} {names above more : List String} {n : String}
  {entries : List (String × FileTree)} {f : FileContent}

/-! ### What is at a place -/

/-- What a file holds; nothing for a directory. -/
def content? : FileTree → Option FileContent
  | .file c => some c
  | .dir _ => none

/-- What is at a place: nothing, a directory, or a file with its content. -/
def look (t : FileTree) (names : List String) : Option (Option FileContent) :=
  (t.get? names).map content?

@[simp] theorem get?_nil (t : FileTree) : t.get? [] = some t := by
  cases t <;> rfl

@[simp] theorem look_nil (t : FileTree) : t.look [] = some t.content? := by
  rw [look, get?_nil, Option.map_some]

theorem get?_append (t : FileTree) (names more : List String) :
    t.get? (names ++ more) = (t.get? names).bind (·.get? more) := by
  induction names generalizing t with
  | nil => simp
  | cons n names ih =>
    cases t with
    | file c => rfl
    | dir entries =>
      rw [List.cons_append, get?, get?, Option.bind_assoc]
      exact congrArg _ (funext ih)

theorem look_append (h : t.get? names = some u) (more : List String) :
    t.look (names ++ more) = u.look more := by
  rw [look, get?_append, h]
  rfl

theorem look_eq_dir_iff : t.look names = some none ↔ ∃ entries, t.get? names = some (.dir entries) := by
  rw [look]
  rcases t.get? names with _ | _ | _ <;> simp [content?]

theorem look_eq_file_iff : t.look names = some (some f) ↔ t.get? names = some (.file f) := by
  rw [look]
  rcases t.get? names with _ | _ | _ <;> simp [content?]

theorem look_eq_none_iff : t.look names = none ↔ t.get? names = none :=
  Option.map_eq_none_iff

theorem look_dir_cons (entries : List (String × FileTree)) (n : String) (rest : List String) :
    (dir entries).look (n :: rest) = (NameMap.lookup n entries).bind (·.look rest) := by
  rw [look, get?, Option.map_bind]
  rfl

/-- An entry of a directory is seen at the places that start with its name. -/
theorem look_dir_insertEntry (entries : List (String × FileTree)) (n : String) (u : FileTree)
    (m : String) (rest : List String) : (dir (NameMap.insertEntry n u entries)).look (m :: rest)
      = if n = m then u.look rest else (dir entries).look (m :: rest) := by
  rw [look_dir_cons, look_dir_cons, NameMap.lookup_insertEntry]
  split <;> rfl

/-- Nothing is below what is no directory. -/
theorem look_below (h : t.look names ≠ some none) (hmore : more ≠ []) :
    t.look (names ++ more) = none := by
  rw [look, get?_append]
  obtain ⟨n, rest, rfl⟩ := List.exists_cons_of_ne_nil hmore
  cases hu : t.get? names with
  | none => rfl
  | some u =>
    cases u with
    | file c => rfl
    | dir entries => exact absurd (look_eq_dir_iff.mpr ⟨entries, hu⟩) h

/-- Above what is there are directories. -/
theorem look_above (h : t.look (names ++ more) ≠ none) (hmore : more ≠ []) :
    t.look names = some none := by
  by_contra hdir
  exact h (look_below hdir hmore)

theorem look_file (c : FileContent) (h : names ≠ []) : (file c).look names = none := by
  obtain ⟨n, rest, rfl⟩ := List.exists_cons_of_ne_nil h
  rfl

/-- An empty directory has nothing in it. -/
theorem look_empty (h : names ≠ []) : (dir []).look names = none := by
  obtain ⟨n, rest, rfl⟩ := List.exists_cons_of_ne_nil h
  rfl

/-- No file is in the way to a place. -/
def Open (t : FileTree) (names : List String) : Prop :=
  ∀ above more, names = above ++ more → more ≠ [] → ∀ f, t.look above ≠ some (some f)

/-- No file is in the way to what is there. -/
theorem open_of_look (h : t.look names ≠ none) : t.Open names := by
  rintro above more rfl hmore f
  rw [look_above h hmore]
  simp

/-! ### Changes of a place -/

theorem remove_dir_cons (hu : NameMap.lookup n entries = some u) (hmore : more ≠ []) :
    (dir entries).remove (n :: more) = dir (NameMap.insertEntry n (u.remove more) entries) := by
  obtain ⟨m, rest, rfl⟩ := List.exists_cons_of_ne_nil hmore
  rw [remove, hu]
  simp

/-- What is put into a directory shows at its place alone, if there was no directory. -/
theorem look_put (hdir : t.look above = some none) (hn : t.look (above ++ [n]) ≠ some none)
    (hnew : ∀ more, more ≠ [] → new.look more = none) (names : List String) :
    (t.put (above ++ [n]) new).look names
      = if names = above ++ [n] then some new.content? else t.look names := by
  induction above generalizing t names with
  | nil =>
    obtain ⟨entries, ht⟩ := look_eq_dir_iff.mp hdir
    rw [get?_nil] at ht
    cases ht
    rw [List.nil_append, put, put]
    cases names with
    | nil => simp [content?]
    | cons m rest =>
      rw [look_dir_insertEntry]
      by_cases hm : n = m
      · subst hm
        cases rest with
        | nil => simp
        | cons m' rest =>
          have hbelow : (dir entries).look ([n] ++ m' :: rest) = none := look_below hn (by simp)
          rw [List.singleton_append] at hbelow
          simp [hnew, hbelow]
      · simp [hm, Ne.symm hm]
  | cons a above ih =>
    obtain ⟨_, hget⟩ := look_eq_dir_iff.mp hdir
    cases t with
    | file c => cases hget
    | dir entries =>
      rw [look_dir_cons] at hdir
      obtain ⟨u, hu, hdir'⟩ := Option.bind_eq_some_iff.mp hdir
      rw [List.cons_append, look_dir_cons, hu] at hn
      rw [List.cons_append, put, hu, Option.getD_some]
      cases names with
      | nil => simp [content?]
      | cons m rest =>
        rw [look_dir_insertEntry]
        by_cases hm : a = m
        · subst hm
          rw [if_pos rfl, ih hdir' hn, look_dir_cons, hu]
          simp
        · simp [hm, Ne.symm hm]

/-- What is taken out of a directory is missing at its place alone, if it is no directory. -/
theorem look_remove (hdir : t.look above = some none) (hn : t.look (above ++ [n]) ≠ some none)
    (names : List String) : (t.remove (above ++ [n])).look names
      = if names = above ++ [n] then none else t.look names := by
  induction above generalizing t names with
  | nil =>
    obtain ⟨entries, ht⟩ := look_eq_dir_iff.mp hdir
    rw [get?_nil] at ht
    cases ht
    rw [List.nil_append, remove]
    cases names with
    | nil => simp [content?]
    | cons m rest =>
      rw [look_dir_cons, look_dir_cons, NameMap.lookup_filter_ne]
      by_cases hm : n = m
      · subst hm
        cases rest with
        | nil => simp
        | cons m' rest =>
          have hbelow : (dir entries).look ([n] ++ m' :: rest) = none := look_below hn (by simp)
          rw [List.singleton_append, look_dir_cons] at hbelow
          simp [hbelow]
      · simp [hm, Ne.symm hm]
  | cons a above ih =>
    obtain ⟨_, hget⟩ := look_eq_dir_iff.mp hdir
    cases t with
    | file c => cases hget
    | dir entries =>
      rw [look_dir_cons] at hdir
      obtain ⟨u, hu, hdir'⟩ := Option.bind_eq_some_iff.mp hdir
      rw [List.cons_append, look_dir_cons, hu] at hn
      rw [List.cons_append, remove_dir_cons hu (by simp)]
      cases names with
      | nil => simp [content?]
      | cons m rest =>
        rw [look_dir_insertEntry]
        by_cases hm : a = m
        · subst hm
          rw [if_pos rfl, ih hdir' hn, look_dir_cons, hu]
          simp
        · simp [hm, Ne.symm hm]

/-! ### Changes in a part of a tree -/

theorem get?_put_append (h : t.get? names = some u) (more : List String) (new : FileTree) :
    (t.put (names ++ more) new).get? names = some (u.put more new) := by
  induction names generalizing t with
  | nil =>
    rw [get?_nil] at h
    rw [get?_nil, Option.some.inj h, List.nil_append]
  | cons n names ih =>
    cases t with
    | file c => cases h
    | dir entries =>
      obtain ⟨t', ht', h⟩ := Option.bind_eq_some_iff.mp h
      rw [List.cons_append, put, ht', get?, NameMap.lookup_insertEntry, if_pos rfl]
      exact ih h

theorem get?_remove_append (h : t.get? names = some u) (hmore : more ≠ []) :
    (t.remove (names ++ more)).get? names = some (u.remove more) := by
  induction names generalizing t with
  | nil =>
    rw [get?_nil] at h
    rw [get?_nil, Option.some.inj h, List.nil_append]
  | cons n names ih =>
    cases t with
    | file c => cases h
    | dir entries =>
      obtain ⟨t', ht', h⟩ := Option.bind_eq_some_iff.mp h
      rw [List.cons_append, remove_dir_cons ht' (by simp [hmore]), get?, NameMap.lookup_insertEntry,
        if_pos rfl]
      exact ih h

/-! ### Order -/

/-- The entries of each directory come in the order of their names. -/
def Ordered (t : FileTree) : Prop :=
  ∀ names entries, t.get? names = some (.dir entries) → (entries.map Prod.fst).Pairwise (· < ·)

theorem ordered_file (f : FileContent) : (file f).Ordered := by
  rintro (_ | ⟨n, names⟩) entries h <;> cases h

theorem ordered_dir_iff : (dir entries).Ordered ↔ (entries.map Prod.fst).Pairwise (· < ·) ∧
    ∀ n u, NameMap.lookup n entries = some u → u.Ordered := by
  constructor
  · intro h
    refine ⟨h [] entries rfl, fun n u hu names entries' hnames => h (n :: names) entries' ?_⟩
    rw [get?, hu]
    exact hnames
  · rintro ⟨hentries, hbelow⟩ (_ | ⟨n, names⟩) entries' h
    · cases h
      exact hentries
    · obtain ⟨u, hu, h⟩ := Option.bind_eq_some_iff.mp h
      exact hbelow n u hu names entries' h

theorem ordered_empty : (dir []).Ordered :=
  ordered_dir_iff.mpr ⟨List.Pairwise.nil, fun _ _ h => by cases h⟩

theorem ordered_insertEntry (h : (dir entries).Ordered) (hu : u.Ordered) (n : String) :
    (dir (NameMap.insertEntry n u entries)).Ordered := by
  obtain ⟨hentries, hbelow⟩ := ordered_dir_iff.mp h
  refine ordered_dir_iff.mpr ⟨NameMap.ascending_insertEntry hentries, fun m u' hu' => ?_⟩
  rw [NameMap.lookup_insertEntry] at hu'
  split at hu'
  · cases hu'
    exact hu
  · exact hbelow m u' hu'

theorem ordered_put (h : t.Ordered) (hnew : new.Ordered) (names : List String) :
    (t.put names new).Ordered := by
  induction names generalizing t with
  | nil =>
    cases t <;> exact hnew
  | cons n names ih =>
    cases t with
    | file c => exact h
    | dir entries =>
      rw [put]
      refine ordered_insertEntry h (ih ?_) n
      cases hu : NameMap.lookup n entries with
      | none => exact ordered_empty
      | some u => exact (ordered_dir_iff.mp h).2 n u hu

theorem ordered_remove (h : t.Ordered) (names : List String) : (t.remove names).Ordered := by
  induction names generalizing t with
  | nil =>
    cases t <;> exact h
  | cons n names ih =>
    cases t with
    | file c => exact h
    | dir entries =>
      obtain ⟨hentries, hbelow⟩ := ordered_dir_iff.mp h
      cases names with
      | nil =>
        rw [remove]
        refine ordered_dir_iff.mpr ⟨?_, fun m u hu => ?_⟩
        · exact hentries.sublist (List.filter_sublist.map _)
        · rw [NameMap.lookup_filter_ne] at hu
          split at hu
          · cases hu
          · exact hbelow m u hu
      | cons n' names =>
        rw [remove]
        · split
          · rename_i u hu
            exact ordered_insertEntry h (ih (hbelow n u hu)) n
          · exact h
        · simp

/-! ### Listing a directory -/

/-- The later entries of a directory have later names. -/
theorem ordered_dir_cons (h : (dir ((n, u) :: entries)).Ordered) :
    u.Ordered ∧ (dir entries).Ordered ∧ ∀ m v, NameMap.lookup m entries = some v →
      n < m ∧ NameMap.lookup m ((n, u) :: entries) = some v := by
  obtain ⟨hentries, hbelow⟩ := ordered_dir_iff.mp h
  rw [List.map_cons, List.pairwise_cons] at hentries
  have hlater : ∀ m v, NameMap.lookup m entries = some v →
      n < m ∧ NameMap.lookup m ((n, u) :: entries) = some v := by
    intro m v hv
    have hlt : n < m :=
      hentries.1 m (List.mem_map_of_mem (f := Prod.fst) (NameMap.mem_of_lookup_eq_some hv))
    refine ⟨hlt, ?_⟩
    rw [NameMap.lookup, if_neg fun heq => ?_, hv]
    exact String.lt_irrefl m (heq ▸ hlt)
  refine ⟨hbelow n u (by simp [NameMap.lookup]), ?_, hlater⟩
  exact ordered_dir_iff.mpr ⟨hentries.2, fun m v hv => hbelow m v (hlater m v hv).2⟩

mutual

/-- Everything that is listed is at its place. -/
theorem exists_of_mem_walk {above : List String} {e : List String × FileTree} : ∀ {t : FileTree},
    t.Ordered → e ∈ t.walk above →
      ∃ names, names ≠ [] ∧ e.1 = above ++ names ∧ t.get? names = some e.2
  | .file _, _, h => by cases h
  | .dir entries, ht, h => by
    obtain ⟨n, rest, u, heq, hu, hrest⟩ := exists_of_mem_walkEntries ht h
    refine ⟨n :: rest, by simp, heq, ?_⟩
    rw [get?, hu]
    exact hrest

theorem exists_of_mem_walkEntries {above : List String} {e : List String × FileTree} :
    ∀ {entries : List (String × FileTree)}, (dir entries).Ordered → e ∈ walkEntries above entries →
      ∃ n rest u, e.1 = above ++ n :: rest ∧ NameMap.lookup n entries = some u ∧
        u.get? rest = some e.2
  | [], _, h => by cases h
  | (k, v) :: entries, ht, h => by
    obtain ⟨hv, hentries, hlater⟩ := ordered_dir_cons ht
    have hself : NameMap.lookup k ((k, v) :: entries) = some v := by simp [NameMap.lookup]
    rw [walkEntries, List.cons_append, List.mem_cons, List.mem_append] at h
    rcases h with rfl | h | h
    · exact ⟨k, [], v, rfl, hself, by simp⟩
    · obtain ⟨names, -, heq, hget⟩ := exists_of_mem_walk hv h
      exact ⟨k, names, v, by simpa using heq, hself, hget⟩
    · obtain ⟨n, rest, u, heq, hu, hrest⟩ := exists_of_mem_walkEntries hentries h
      exact ⟨n, rest, u, heq, (hlater n u hu).2, hrest⟩

end

mutual

/-- Places are listed in the order of the names that lead there. -/
theorem pairwise_walk {above : List String} : ∀ {t : FileTree}, t.Ordered →
    (t.walk above).Pairwise fun e e' => e.1 < e'.1
  | .file _, _ => .nil
  | .dir _, ht => pairwise_walkEntries ht

theorem pairwise_walkEntries {above : List String} : ∀ {entries : List (String × FileTree)},
    (dir entries).Ordered → (walkEntries above entries).Pairwise fun e e' => e.1 < e'.1
  | [], _ => .nil
  | (n, t) :: entries, ht => by
    obtain ⟨hself, hentries, hlater⟩ := ordered_dir_cons ht
    rw [walkEntries, List.pairwise_append, List.pairwise_cons]
    refine ⟨⟨fun e he => ?_, pairwise_walk hself⟩, pairwise_walkEntries hentries,
      fun e he e' he' => ?_⟩
    · obtain ⟨names, hne, heq, -⟩ := exists_of_mem_walk hself he
      obtain ⟨m, more, rfl⟩ := List.exists_cons_of_ne_nil hne
      have hlt : above ++ [n] ++ [] < above ++ [n] ++ m :: more :=
        List.append_left_lt (List.nil_lt_cons m more)
      rwa [List.append_nil, ← heq] at hlt
    · -- both names differ where the two entries do
      have hfirst : ∃ more, e.1 = above ++ n :: more := by
        rcases List.mem_cons.mp he with rfl | he
        · exact ⟨[], rfl⟩
        · obtain ⟨names, -, heq, -⟩ := exists_of_mem_walk hself he
          exact ⟨names, by simpa using heq⟩
      obtain ⟨more, hmore⟩ := hfirst
      obtain ⟨m, rest, u, heq, hu, -⟩ := exists_of_mem_walkEntries hentries he'
      rw [hmore, heq]
      exact List.append_left_lt (List.cons_lt_cons_iff.mpr (.inl (hlater m u hu).1))

end

/-- What is listed below a directory is what is at the places below it. -/
theorem mem_walk_iff (ht : t.Ordered) :
    (names, u) ∈ t.walk [] ↔ names ≠ [] ∧ t.get? names = some u := by
  constructor
  · intro h
    obtain ⟨rest, hne, heq, hget⟩ := exists_of_mem_walk ht h
    cases heq
    exact ⟨hne, hget⟩
  · rintro ⟨hne, hget⟩
    exact mem_walk_of_get? hget hne

end FileTree

end Cookbook
