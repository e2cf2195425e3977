import Cookbook.Proofs.NameMap
import Cookbook.Proofs.Storage.Reading

/-!
# The ways of reading a storage agree

An object can be asked for by its name or together with others, and a storage can be asked whether
it has the object. As long as nothing fails these agree, at any depth of combined storages. So what
was read together may be taken as read one by one.

## Main results

* `Storage.holds_of_read?`: what was read is there.
* `Storage.read?_of_readMultiple`: what was read together is read by its name.
* `Storage.read?_of_overriding`: an object with the content of a recipe, or its own.
-/

namespace Cookbook

namespace Storage

variable {fs : Files} {c : Option String} {name : String} {names : List String} {os : Objects}
  {s recipe wrapped : Storage} {o : ConfigObject} {oo : Option ConfigObject}
  {read : String → Except Error (Option ConfigObject)}

/-! ### Single objects -/

theorem isFile_of_readFile? {path : Path} (h : readFile? fs path = .ok oo) :
    fs.isFile path = oo.isSome := by
  rw [readFile?, Files.readText] at h
  rw [Files.isFile]
  cases hget : fs.get path with
  | error e =>
    rw [hget] at h
    cases e <;> cases h
    rfl
  | ok t =>
    rw [hget] at h
    cases t with
    | dir entries => cases h
    | file content =>
      cases content with
      | bytes b => cases h
      | text text =>
        dsimp only [bind, Except.bind, pure, Except.pure] at h
        split at h
        · cases h
          rfl
        · cases h

/-- What was read is there, and what was not found is not. -/
theorem holds_of_read? (h : s.read? fs c name = .ok oo) : s.holds fs c name = .ok oo.isSome := by
  induction s generalizing c oo with
  | null =>
    cases h
    rfl
  | memory m =>
    cases h
    rfl
  | directory dir => exact congrArg Except.ok (isFile_of_readFile? h)
  | view m =>
    cases h
    rfl
  | merged first second ihf ihs =>
    obtain ⟨found, hfirst, h⟩ := Except.bind_eq_ok_iff.mp h
    rw [holds, ihf hfirst]
    cases found with
    | some o =>
      cases h
      rfl
    | none => exact ihs h
  | overriding recipe wrapped ihr ihw =>
    obtain ⟨inWrapped, hwrapped, h⟩ := Except.bind_eq_ok_iff.mp h
    cases inWrapped with
    | false => exact ihw h
    | true =>
      obtain ⟨inRecipe, hrecipe, h⟩ := Except.bind_eq_ok_iff.mp h
      cases inRecipe with
      | false => exact ihw h
      | true =>
        rw [holds, hwrapped]
        have hsome : recipe.holds fs c name = .ok oo.isSome := ihr h
        rw [← hsome, hrecipe]
  | selecting selected active ih =>
    cases selected with
    | some m =>
      cases h
      rfl
    | none => exact ih h
  | within c' s ih => exact ih h

/-- An object with the content of a recipe, or its own if the recipe has nothing of its name. -/
theorem read?_of_overriding (h : (overriding recipe wrapped).read? fs c name = .ok (some o)) :
    recipe.read? fs c name = .ok (some o) ∨
      recipe.holds fs c name = .ok false ∧ wrapped.read? fs c name = .ok (some o) := by
  obtain ⟨inWrapped, hwrapped, h⟩ := Except.bind_eq_ok_iff.mp h
  cases inWrapped with
  | false =>
    have hthere := holds_of_read? (s := wrapped) h
    rw [hwrapped] at hthere
    cases hthere
  | true =>
    obtain ⟨inRecipe, hrecipe, h⟩ := Except.bind_eq_ok_iff.mp h
    cases inRecipe with
    | false => exact .inr ⟨hrecipe, h⟩
    | true => exact .inl h

/-! ### Several objects -/

theorem read_of_mem_readEach (h : readEach read names = .ok os) (hname : name ∈ names) :
    read name = .ok (os.get? name) := by
  refine (Except.foldlM_brings (P := fun os : Objects => ∀ k o, os.get? k = some o →
    read k = .ok (some o)) (D := fun k os => read k = .ok (os.get? k)) ?_ (by simp) h).2.1 name hname
  intro found hfound n _ found' h
  obtain ⟨oo, hread, h⟩ := Except.bind_eq_ok_iff.mp h
  cases oo with
  | none =>
    cases h
    refine ⟨hfound, ?_, fun _ hk => hk⟩
    cases hget : found.get? n with
    | none => exact hread
    | some o =>
      rw [hfound n o hget] at hread
      cases hread
  | some o =>
    cases h
    have hinsert : ∀ k, read k = .ok (found.get? k) ∨ k = n →
        read k = .ok ((found.insert n o).get? k) := by
      intro k hk
      rw [NameMap.get?_insert]
      split
      · rename_i heq
        rw [← heq, hread]
      · rename_i hne
        exact hk.resolve_right (Ne.symm hne)
    refine ⟨fun k p hp => ?_, hinsert n (.inr rfl), fun k hk => hinsert k (.inl hk)⟩
    by_cases hk : k = n
    · rw [hinsert k (.inr hk), hp]
    · rw [NameMap.get?_insert, if_neg (Ne.symm hk)] at hp
      exact hfound k p hp

/-- What was read together is what is read by the names. -/
theorem read?_of_readMultiple (h : s.readMultiple fs c names = .ok os) (hname : name ∈ names) :
    s.read? fs c name = .ok (os.get? name) := by
  induction s generalizing c names os with
  | null =>
    cases h
    rfl
  | memory m => exact read_of_mem_readEach h hname
  | directory dir => exact read_of_mem_readEach h hname
  | view m => exact read_of_mem_readEach h hname
  | merged first second ihf ihs =>
    obtain ⟨others, hothers, h⟩ := Except.bind_eq_ok_iff.mp h
    obtain ⟨found, hfound, h⟩ := Except.bind_eq_ok_iff.mp h
    cases h
    rw [read?, ihf hfound hname, NameMap.get?_union]
    cases hget : found.get? name with
    | some o => rfl
    | none => exact ihs hothers hname
  | overriding recipe wrapped ihr ihw =>
    obtain ⟨found, hfound, h⟩ := Except.bind_eq_ok_iff.mp h
    obtain ⟨replaced, hreplaced, h⟩ := Except.bind_eq_ok_iff.mp h
    cases h
    have hwrapped := ihw hfound hname
    rw [read?, holds_of_read? hwrapped, NameMap.get?_union]
    cases hown : found.get? name with
    | none =>
      have hnone : replaced.get? name = none := by
        refine Option.eq_none_iff_forall_ne_some.mpr fun o ho => ?_
        have hmem := (NameMap.mem_names_iff ..).mp (read_of_readEach hreplaced ho).1
        rw [hown] at hmem
        cases hmem
      rw [hown] at hwrapped
      rw [hnone]
      exact hwrapped
    | some o =>
      have hread : recipe.read? fs c name = .ok (replaced.get? name) :=
        read_of_mem_readEach hreplaced ((NameMap.mem_names_iff ..).mpr (by rw [hown]; rfl))
      show (recipe.holds fs c name >>= fun there => _) = _
      rw [holds_of_read? hread]
      cases hreplace : replaced.get? name with
      | none =>
        rw [hown] at hwrapped
        exact hwrapped
      | some p =>
        rw [hreplace] at hread
        exact hread
  | selecting selected active ih => exact read_of_mem_readEach h hname
  | within c' s ih => exact ih h hname

/-- All objects of a collection are read by their names. -/
theorem read?_of_objects (h : s.objects fs c = .ok os) (ho : os.get? name = some o) :
    s.read? fs c name = .ok (some o) := by
  obtain ⟨names, -, h⟩ := Except.bind_eq_ok_iff.mp h
  rw [read?_of_readMultiple h (mem_of_readMultiple h name o ho), ho]

end Storage

end Cookbook
