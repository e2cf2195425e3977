import Cookbook.Extension.Installer
import Cookbook.Proofs.Except

/-!
# How reading and writing configuration fails

Four failures are not those of reading and writing: that recipes lead on for ever, that the label of
a checkpoint is in use, that no id is left for it, and that going back failed, which is made of two
others. No storage fails in these ways, whatever files there are; so each comes from one place in
the program alone.

## Main definitions

* `Error.IsPlain`: a failure of reading, writing or checking.
* `Error.IsDirect`: a failure of a single step, which may also be that of adding a checkpoint.

## Main results

* `Storage.failsAs_read?`, `Storage.failsAs_objects`, `Storage.failsAs_exportAll`: how reading
  fails.
* `Storage.failsAs_write`: how writing fails.
-/

namespace Cookbook

/-- A failure of a single step: neither that recipes require each other without end, nor that going
back after a failure failed. -/
def Error.IsDirect : Error → Prop
  | .recipesTooDeep => False
  | .rollbackFailed .. => False
  | _ => True

/-- A failure of a single step other than that a checkpoint gets no label or no id. -/
def Error.IsPlain : Error → Prop
  | .checkpointExists _ => False
  | .idsExhausted => False
  | e => e.IsDirect

theorem Error.IsPlain.isDirect {e : Error} (h : e.IsPlain) : e.IsDirect := by
  cases e with
  | checkpointExists label => cases h
  | idsExhausted => cases h
  | _ => exact h

namespace Storage

variable {fs : Files} {c : Option String} {name : String} {names : List String}

/-! ### Reading -/

theorem failsAs_holds (s : Storage) : Except.FailsAs Error.IsPlain (s.holds fs c name) := by
  induction s generalizing c with
  | merged first second ihf ihs =>
    refine ihf.bind fun found => ?_
    cases found with
    | true => exact Except.FailsAs.ok true
    | false => exact ihs
  | overriding recipe wrapped _ ihw => exact ihw
  | selecting selected active ih =>
    cases selected with
    | none => exact ih
    | some m => exact Except.FailsAs.ok _
  | within c' s ih => exact ih
  | _ => exact Except.FailsAs.ok _

theorem failsAs_readFile? (path : Path) : Except.FailsAs Error.IsPlain (readFile? fs path) := by
  rw [readFile?]
  split
  · exact Except.FailsAs.ok none
  · exact Except.FailsAs.error trivial
  · split
    · exact Except.FailsAs.ok _
    · exact Except.FailsAs.error trivial

theorem failsAs_read? (s : Storage) : Except.FailsAs Error.IsPlain (s.read? fs c name) := by
  induction s generalizing c with
  | directory dir => exact failsAs_readFile? _
  | merged first second ihf ihs =>
    refine ihf.bind fun found => ?_
    cases found with
    | some o => exact Except.FailsAs.ok (some o)
    | none => exact ihs
  | overriding recipe wrapped ihr ihw =>
    refine (failsAs_holds wrapped).bind fun inWrapped => ?_
    cases inWrapped with
    | false => exact ihw
    | true =>
      refine (failsAs_holds recipe).bind fun inRecipe => ?_
      cases inRecipe with
      | false => exact ihw
      | true => exact ihr
  | selecting selected active ih =>
    cases selected with
    | none => exact ih
    | some m => exact Except.FailsAs.ok _
  | within c' s ih => exact ih
  | _ => exact Except.FailsAs.ok _

theorem failsAs_readEach {read : String → Except Error (Option ConfigObject)}
    (h : ∀ name, Except.FailsAs Error.IsPlain (read name)) (names : List String) :
    Except.FailsAs Error.IsPlain (readEach read names) := by
  refine Except.FailsAs.foldlM (fun found name _ => ?_) _
  refine (h name).bind fun oo => ?_
  cases oo <;> exact Except.FailsAs.ok _

theorem failsAs_readMultiple (s : Storage) :
    Except.FailsAs Error.IsPlain (s.readMultiple fs c names) := by
  induction s generalizing c names with
  | null => exact Except.FailsAs.ok _
  | merged first second ihf ihs =>
    exact ihs.bind fun others => ihf.bind fun found => Except.FailsAs.ok _
  | overriding recipe wrapped _ ihw =>
    refine ihw.bind fun found => ?_
    refine (failsAs_readEach (fun _ => failsAs_read? recipe) _).bind fun replaced => ?_
    exact Except.FailsAs.ok _
  | within c' s ih => exact ih
  | _ => exact failsAs_readEach (fun _ => failsAs_read? _) names

theorem failsAs_listFiles (dir : Path) (c : String) :
    Except.FailsAs Error.IsPlain (listFiles fs dir c) := by
  rw [listFiles]
  split
  · exact Except.FailsAs.ok []
  · exact Except.FailsAs.error trivial
  · exact Except.FailsAs.ok _

theorem failsAs_listNames (s : Storage) : Except.FailsAs Error.IsPlain (s.listNames fs c) := by
  induction s generalizing c with
  | directory dir => exact failsAs_listFiles dir _
  | merged first second ihf ihs => exact ihf.bind fun ns => ihs.bind fun more => Except.FailsAs.ok _
  | overriding recipe wrapped _ ihw => exact ihw
  | selecting selected active ih =>
    cases selected with
    | none => exact ih
    | some m => exact Except.FailsAs.ok _
  | within c' s ih => exact ih
  | _ => exact Except.FailsAs.ok _

theorem failsAs_list (start : String) (s : Storage) :
    Except.FailsAs Error.IsPlain (s.list fs c start) :=
  (failsAs_listNames s).bind fun _ => Except.FailsAs.ok _

theorem failsAs_collectionNames (s : Storage) :
    Except.FailsAs Error.IsPlain (s.collectionNames fs) := by
  induction s with
  | merged first second ihf ihs => exact ihf.bind fun ns => ihs.bind fun more => Except.FailsAs.ok _
  | overriding recipe wrapped _ ihw => exact ihw
  | selecting selected active ih =>
    cases selected with
    | none => exact ih
    | some m => exact Except.FailsAs.ok _
  | within c' s ih => exact ih
  | _ => exact Except.FailsAs.ok _

theorem failsAs_objects (s : Storage) : Except.FailsAs Error.IsPlain (s.objects fs c) :=
  (failsAs_listNames s).bind fun _ => failsAs_readMultiple s

theorem failsAs_exportAll (s : Storage) : Except.FailsAs Error.IsPlain (s.exportAll fs) := by
  refine (failsAs_objects s).bind fun os => (failsAs_collectionNames s).bind fun cs => ?_
  refine Except.FailsAs.foldlM (fun found c _ => ?_) _
  exact (failsAs_objects s).bind fun os => Except.FailsAs.ok _

theorem failsAs_installedExtensions (s : Storage) :
    Except.FailsAs Error.IsPlain (s.installedExtensions fs) := by
  refine (failsAs_read? s).bind fun oo => ?_
  cases oo <;> exact Except.FailsAs.ok _

/-! ### Writing -/

theorem failsAs_encode (o : ConfigObject) : Except.FailsAs Error.IsPlain o.encode := by
  rw [ConfigObject.encode]
  split
  · exact Except.FailsAs.ok _
  · exact Except.FailsAs.error trivial

theorem failsAs_writeFile (fs : Files) (path : Path) (o : ConfigObject) :
    Except.FailsAs Error.IsPlain (writeFile fs path o).1 := by
  have hfile : ∀ e, Except.FailsAs Error.IsPlain (.error (.ofFile e) : Except Error Unit) :=
    fun e => Except.FailsAs.error trivial
  unfold writeFile
  cases fs.createDirectories (path.parent?.getD ⟨""⟩) with
  | error e => exact hfile e
  | ok made =>
    dsimp only
    cases hencode : o.encode with
    | error e => exact Except.FailsAs.error (failsAs_encode o e hencode)
    | ok s =>
      dsimp only
      cases made.writeText path s with
      | error e => exact hfile e
      | ok _ => exact Except.FailsAs.ok ()

theorem failsAs_write (fs : Files) (o : ConfigObject) (s : Storage) :
    Except.FailsAs Error.IsPlain (s.write fs c name o).1 := by
  have hrefused : Except.FailsAs Error.IsPlain
      (.error (.readOnlyStorage "write") : Except Error Unit) := Except.FailsAs.error trivial
  induction s generalizing c with
  | memory m => exact Except.FailsAs.ok ()
  | directory dir =>
    have h := failsAs_writeFile fs (filePath dir (collectionOf c) name) o
    unfold write
    rcases hwritten : writeFile fs (filePath dir (collectionOf c) name) o with ⟨r, written⟩
    rw [hwritten] at h
    exact h
  | selecting selected active ih => exact ih
  | within c' s ih => exact ih
  | null => exact hrefused
  | view m => exact hrefused
  | merged first second _ _ => exact hrefused
  | overriding recipe wrapped _ _ => exact hrefused

end Storage

end Cookbook
