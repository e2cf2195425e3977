import Cookbook.Proofs.Postorder.Circles

/-!
# A postorder lists all that is needed

Once a list is made, whatever a listed name needs has been looked at: it is listed as well, or it was
found to have no needs of its own. While the list is made, it may also be on the way down, which is
empty again in the end. So from the names that were asked for, everything that needs lead to has been
looked at, and if looking at any of it fails, then the whole does.

## Main definitions

* `Postorder.Seen`: a name has been looked at.
* `Postorder.Complete`: what listed names need has been looked at.

## Main results

* `Postorder.seen_of_visitAll`: all that is led to has been looked at.
* `Postorder.mem_of_visitAll_iff`: what is listed in the end.
* `Postorder.exists_of_visitAll_eq_error`: a failure is that of a name that is led to.
-/

namespace Cookbook

namespace Postorder

open Relation (ReflTransGen)

universe u

variable {ε : Type u} {needs : String → Except ε (Option (List String))} {fuel : Nat}
  {known path order order' names : List String} {name : String} {e : ε}

/-! ### What has been looked at -/

/-- A name has been looked at below a way: it has no needs, it is listed or it is on the way. -/
def Seen (needs : String → Except ε (Option (List String))) (path order : List String)
    (name : String) : Prop :=
  needs name = .ok none ∨ name ∈ order ∨ name ∈ path

theorem Seen.grow (h : Seen needs path order name) (hgrows : Grows needs order order') :
    Seen needs path order' name :=
  h.imp_right (Or.imp_left fun hmem => hgrows.1 hmem)

/-- Whatever a listed name needs has been looked at. -/
def Complete (needs : String → Except ε (Option (List String))) (path order : List String) : Prop :=
  ∀ a ∈ order, ∃ required, needs a = .ok (some required) ∧
    ∀ b ∈ required, Seen needs path order b

theorem Complete.nil : Complete needs path [] := by
  rintro a ⟨⟩

/-- The name that a way ends in is listed: what it needs is no longer on the way. -/
theorem Complete.concat {below required : List String} (h : Complete needs (name :: path) below)
    (hneeds : needs name = .ok (some required))
    (hrequired : ∀ b ∈ required, Seen needs (name :: path) below b) :
    Complete needs path (below ++ [name]) := by
  have hseen : ∀ b, Seen needs (name :: path) below b → Seen needs path (below ++ [name]) b := by
    rintro b (hb | hb | hb)
    · exact .inl hb
    · exact .inr (.inl (List.mem_append_left _ hb))
    · rcases List.mem_cons.mp hb with rfl | hb
      · exact .inr (.inl (List.mem_concat_self ..))
      · exact .inr (.inr hb)
  intro a ha
  rcases List.mem_append.mp ha with ha | ha
  · obtain ⟨found, hfound, hall⟩ := h a ha
    exact ⟨found, hfound, fun b hb => hseen b (hall b hb)⟩
  · rw [List.mem_singleton.mp ha]
    exact ⟨required, hneeds, fun b hb => hseen b (hrequired b hb)⟩

/-- Going on along a way hides nothing. -/
theorem Complete.cons (h : Complete needs path order) (name : String) :
    Complete needs (name :: path) order := by
  intro a ha
  obtain ⟨required, hneeds, hall⟩ := h a ha
  exact ⟨required, hneeds, fun b hb =>
    (hall b hb).imp_right (Or.imp_right (List.mem_cons_of_mem name))⟩

/-- A visit keeps a list complete and looks at the name, given fuel for every way that is left. -/
theorem complete_of_visit
    (hknown : ∀ x, (∃ required, needs x = .ok (some required)) → x ∈ known)
    (hfuel : known.length < fuel + path.length) (hway : IsWay needs known path name)
    (hcomplete : Complete needs path order) (h : visit needs fuel path order name = .ok order') :
    Complete needs path order' ∧ Seen needs path order' name := by
  induction fuel generalizing path order order' name with
  | zero =>
    have hlength := hway.length_le
    omega
  | succ fuel ih =>
    rw [visit] at h
    split at h
    · rename_i hold
      cases h
      rw [Bool.or_eq_true, List.contains_iff_mem, List.contains_iff_mem] at hold
      exact ⟨hcomplete, .inr hold⟩
    rename_i hnew
    rw [Bool.or_eq_true, not_or, List.contains_iff_mem, List.contains_iff_mem] at hnew
    split at h
    · cases h
    · rename_i hneeds
      cases h
      exact ⟨hcomplete, .inl hneeds⟩
    rename_i required hneeds
    split at h
    · cases h
    rename_i below hbelow
    cases h
    have hfuel' : known.length < fuel + (name :: path).length := by
      rw [List.length_cons]
      omega
    -- Every step keeps the list complete and looks at what it is for.
    have hstep : ∀ found, Complete needs (name :: path) found → ∀ next ∈ required,
        ∀ found', visit needs fuel (name :: path) found next = .ok found' →
        Complete needs (name :: path) found' ∧ Seen needs (name :: path) found' next ∧
          ∀ x, Seen needs (name :: path) found x → Seen needs (name :: path) found' x := by
      intro found hfound next hnext found' hv
      have hdown : IsWay needs known (name :: path) next :=
        hway.down hnew.2 (hknown name ⟨required, hneeds⟩) ⟨required, hneeds, hnext⟩
      obtain ⟨hfound', hseen⟩ := ih hfuel' hdown hfound hv
      exact ⟨hfound', hseen, fun x hx => hx.grow (grows_visit hv)⟩
    obtain ⟨hfound, hseen, -⟩ := Except.foldlM_brings hstep (hcomplete.cons name) hbelow
    exact ⟨hfound.concat hneeds hseen, .inr (.inl (List.mem_concat_self ..))⟩

/-! ### The whole list -/

/-- All that the names lead to has been looked at in the end. -/
theorem seen_of_visitAll
    (hknown : ∀ x, (∃ required, needs x = .ok (some required)) → x ∈ known)
    (hfuel : known.length < fuel) (h : visitAll needs fuel names = .ok order)
    {start : String} (hstart : start ∈ names) (hreach : ReflTransGen (Needs needs) start name) :
    needs name = .ok none ∨ name ∈ order := by
  have hstep : ∀ found, Complete needs [] found → ∀ next ∈ names, ∀ found',
      visit needs fuel [] found next = .ok found' → Complete needs [] found' ∧
        Seen needs [] found' next ∧ ∀ x, Seen needs [] found x → Seen needs [] found' x := by
    intro found hfound next _ found' hv
    obtain ⟨hfound', hseen⟩ := complete_of_visit hknown hfuel (IsWay.start known next) hfound hv
    exact ⟨hfound', hseen, fun x hx => hx.grow (grows_visit hv)⟩
  obtain ⟨hcomplete, hseen, -⟩ := Except.foldlM_brings hstep Complete.nil h
  have hseen' : Seen needs [] order name := by
    induction hreach with
    | refl => exact hseen start hstart
    | tail _ hneeds ih =>
      obtain ⟨required, hrequired, hmem⟩ := hneeds
      rcases ih with hnone | hlisted | hpath
      · rw [hrequired] at hnone
        cases hnone
      · obtain ⟨required', hrequired', hall⟩ := hcomplete _ hlisted
        rw [hrequired] at hrequired'
        cases hrequired'
        exact hall _ hmem
      · cases hpath
  exact hseen'.imp_right fun hmem => hmem.resolve_right List.not_mem_nil

/-- What is listed in the end: what the names lead to, if it has needs. -/
theorem mem_of_visitAll_iff
    (hknown : ∀ x, (∃ required, needs x = .ok (some required)) → x ∈ known)
    (hfuel : known.length < fuel) (h : visitAll needs fuel names = .ok order) :
    name ∈ order ↔ (∃ start ∈ names, ReflTransGen (Needs needs) start name) ∧
      ∃ required, needs name = .ok (some required) := by
  constructor
  · intro hname
    refine ⟨forall_mem_visitAll (P := fun n => ∃ start ∈ names, ReflTransGen (Needs needs) start n)
      ?_ (fun n hn => ⟨n, hn, .refl⟩) h name hname, needs_of_mem_visitAll h hname⟩
    rintro n required ⟨start, hstart, hreach⟩ hneeds m hm
    exact ⟨start, hstart, hreach.tail ⟨required, hneeds, hm⟩⟩
  · rintro ⟨⟨start, hstart, hreach⟩, required, hneeds⟩
    rcases seen_of_visitAll hknown hfuel h hstart hreach with hnone | hmem
    · rw [hneeds] at hnone
      cases hnone
    · exact hmem

/-! ### Failures -/

theorem exists_of_visit_eq_error (h : visit needs fuel path order name = .error e) :
    ∃ n, ReflTransGen (Needs needs) name n ∧ needs n = .error e := by
  induction fuel generalizing path order name with
  | zero => cases h
  | succ fuel ih =>
    rw [visit] at h
    split at h
    · cases h
    split at h
    · rename_i hneeds
      cases h
      exact ⟨name, .refl, hneeds⟩
    · cases h
    rename_i required hneeds
    split at h
    · rename_i hbelow
      cases h
      obtain ⟨found, next, hnext, hv⟩ := Except.exists_of_foldlM_eq_error hbelow
      obtain ⟨n, hreach, hn⟩ := ih hv
      exact ⟨n, .head ⟨required, hneeds, hnext⟩ hreach, hn⟩
    · cases h

/-- A failure is that of a name which the names lead to. -/
theorem exists_of_visitAll_eq_error (h : visitAll needs fuel names = .error e) :
    ∃ start ∈ names, ∃ n, ReflTransGen (Needs needs) start n ∧ needs n = .error e := by
  obtain ⟨found, start, hstart, hv⟩ := Except.exists_of_foldlM_eq_error h
  exact ⟨start, hstart, exists_of_visit_eq_error hv⟩

end Postorder

end Cookbook
