import Cookbook.Import
import Mathlib.Data.List.Forall2

/-!
# What listeners are told

Several events are told one after the other, each to all listeners in turn. What can be said of that
does not depend on what is done between the events. Either every listener accepts all of them, and
has heard all of them; or a listener refuses one, and then the listeners before it have heard it,
and accepted it, but those after it have not.

A listener may answer as it likes, but it can only go by what it has heard itself. So who refuses
and what is told does not depend on how the events are grouped, and what is known of two stretches
of events can be put together.

## Main definitions

* `ImportListener.told`, `ImportListener.Accepts`: a listener and events it is told.
* `ImportListener.Told`: how telling events to listeners ends.
* `ImportListener.OnlyTold`: listeners that were told only certain events.

## Main results

* `ImportListener.told_tell`: one event.
* `ImportListener.Told.append`, `ImportListener.Told.stop`: more events.
-/

namespace Cookbook

namespace ImportListener

variable {l : ImportListener} {ls ls' ls'' : List ImportListener} {e : ImportEvent}
  {es es' dispatched dispatched' : List ImportEvent} {r : Except Error Unit} {refusal : Error}

/-! ### One listener -/

/-- A listener that has heard more events. -/
def told (es : List ImportEvent) (l : ImportListener) : ImportListener :=
  { l with heard := l.heard ++ es }

@[simp] theorem told_nil : told [] = id := by
  funext l
  rw [told, List.append_nil, id]

@[simp] theorem told_told (es es' : List ImportEvent) (l : ImportListener) :
    told es' (told es l) = told (es ++ es') l := by
  simp [told]

@[simp] theorem answer_told (es : List ImportEvent) (l : ImportListener) :
    (told es l).answer = l.answer :=
  rfl

@[simp] theorem heard_told (es : List ImportEvent) (l : ImportListener) :
    (told es l).heard = l.heard ++ es :=
  rfl

@[simp] theorem told_comp_told (es es' : List ImportEvent) :
    told es' ∘ told es = told (es ++ es') :=
  funext fun l => told_told es es' l

/-- A listener accepts events that it is told one after the other. -/
def Accepts (l : ImportListener) : List ImportEvent → Prop
  | [] => True
  | e :: es => l.answer l.heard e = .ok () ∧ Accepts (told [e] l) es

theorem accepts_append : l.Accepts (es ++ es') ↔ l.Accepts es ∧ (l.told es).Accepts es' := by
  induction es generalizing l with
  | nil => simp [Accepts]
  | cons e es ih => simp [Accepts, ih, and_assoc]

theorem Accepts.append (h : l.Accepts es) (h' : (l.told es).Accepts es') : l.Accepts (es ++ es') :=
  accepts_append.mpr ⟨h, h'⟩

/-! ### All listeners -/

/-- How it ends to tell listeners some events: the result, the events that were told to anyone, and
the listeners afterwards. -/
inductive Told (es : List ImportEvent) (ls : List ImportListener) :
    Except Error Unit → List ImportEvent → List ImportListener → Prop
  /-- Every listener accepts every event. -/
  | accepted (h : ∀ l ∈ ls, l.Accepts es) : Told es ls (.ok ()) es (ls.map (told es))
  /-- A listener refuses an event; those after it are not told it any more. -/
  | refused {done rest : List ImportEvent} {e : ImportEvent} {before after : List ImportListener}
      {l : ImportListener} {refusal : Error} (hes : es = done ++ e :: rest)
      (hls : ls = before ++ l :: after) (hdone : ∀ l' ∈ ls, l'.Accepts done)
      (hbefore : ∀ l' ∈ before, l'.Accepts (done ++ [e]))
      (hl : l.answer (l.heard ++ done) e = .error refusal) :
      Told es ls (.error refusal) (done ++ [e])
        ((before ++ [l]).map (told (done ++ [e])) ++ after.map (told done))

theorem Told.all_accept (h : Told es ls (.ok ()) dispatched ls') :
    dispatched = es ∧ ls' = ls.map (told es) ∧ ∀ l ∈ ls, l.Accepts es := by
  cases h with
  | accepted h => exact ⟨rfl, rfl, h⟩

theorem Told.nil (ls : List ImportListener) : Told [] ls (.ok ()) [] ls := by
  have h : Told [] ls (.ok ()) [] (ls.map (told [])) := .accepted fun _ _ => trivial
  rwa [told_nil, List.map_id] at h

/-- More events are told once the first ones are accepted. -/
theorem Told.append (h : Told es ls (.ok ()) dispatched ls')
    (h' : Told es' ls' r dispatched' ls'') : Told (es ++ es') ls r (es ++ dispatched') ls'' := by
  obtain ⟨-, rfl, haccept⟩ := h.all_accept
  cases h' with
  | accepted h' =>
    rw [List.map_map, told_comp_told]
    refine .accepted fun l hl => (haccept l hl).append ?_
    exact h' _ (List.mem_map_of_mem hl)
  | @refused done rest e before' after' l' refusal hes hls hdone hbefore hl =>
    obtain ⟨before, others, rfl, rfl, hothers⟩ := List.map_eq_append_iff.mp hls
    obtain ⟨l, after, rfl, rfl, rfl⟩ := List.map_eq_cons_iff.mp hothers
    have hmap : (before.map (told es) ++ [told es l]).map (told (done ++ [e]))
          ++ (after.map (told es)).map (told done)
        = (before ++ [l]).map (told ((es ++ done) ++ [e])) ++ after.map (told (es ++ done)) := by
      simp
    rw [hmap, ← List.append_assoc]
    refine .refused (by rw [hes, List.append_assoc]) rfl (fun l' hl' => ?_) (fun l' hl' => ?_) ?_
    · exact (haccept l' hl').append (hdone _ (List.mem_map_of_mem hl'))
    · rw [List.append_assoc]
      refine (haccept l' (List.mem_append_left _ hl')).append ?_
      exact hbefore _ (List.mem_map_of_mem hl')
    · simpa [List.append_assoc] using hl

/-- Nothing is told any more after a refusal. -/
theorem Told.stop (h : Told es ls (.error refusal) dispatched ls') (es' : List ImportEvent) :
    Told (es ++ es') ls (.error refusal) dispatched ls' := by
  cases h with
  | @refused done rest e before after l refusal hes hls hdone hbefore hl =>
    have hes' : es ++ es' = done ++ e :: (rest ++ es') := by
      rw [hes, List.append_assoc, List.cons_append]
    exact .refused hes' hls hdone hbefore hl

/-- Telling one event, as it is done: up to the first listener that refuses it. -/
theorem tell_cases (e : ImportEvent) (ls : List ImportListener) :
    (tell e ls = (.ok (), ls.map (told [e])) ∧ ∀ l ∈ ls, l.answer l.heard e = .ok ()) ∨
    ∃ before l after refusal, ls = before ++ l :: after ∧
      (∀ l' ∈ before, l'.answer l'.heard e = .ok ()) ∧ l.answer l.heard e = .error refusal ∧
      tell e ls = (.error refusal, (before ++ [l]).map (told [e]) ++ after) := by
  induction ls with
  | nil => exact .inl ⟨rfl, by simp⟩
  | cons l ls ih =>
    cases hl : l.answer l.heard e with
    | error refusal =>
      refine .inr ⟨[], l, ls, refusal, rfl, by simp, hl, ?_⟩
      rw [tell, hl]
      rfl
    | ok _ =>
      have htell : tell e (l :: ls) = ((tell e ls).1, told [e] l :: (tell e ls).2) := by
        rw [tell, hl]
        rfl
      rcases ih with ⟨hok, haccept⟩ | ⟨before, l', after, refusal, rfl, hbefore, hl', herror⟩
      · refine .inl ⟨?_, List.forall_mem_cons.mpr ⟨hl, haccept⟩⟩
        rw [htell, hok, List.map_cons]
      · refine .inr ⟨l :: before, l', after, refusal, rfl,
          List.forall_mem_cons.mpr ⟨hl, hbefore⟩, hl', ?_⟩
        rw [htell, herror]
        rfl

theorem told_tell (e : ImportEvent) (ls : List ImportListener) :
    Told [e] ls (tell e ls).1 [e] (tell e ls).2 := by
  rcases tell_cases e ls with ⟨h, haccept⟩ | ⟨before, l, after, refusal, rfl, hbefore, hl, h⟩
  · rw [h]
    exact .accepted fun l hl => ⟨haccept l hl, trivial⟩
  · have hrefused : Told [e] (before ++ l :: after) (.error refusal) ([] ++ [e])
        ((before ++ [l]).map (told ([] ++ [e])) ++ after.map (told [])) :=
      .refused rfl rfl (fun _ _ => trivial) (fun l' hl' => ⟨hbefore l' hl', trivial⟩)
        (by rwa [List.append_nil])
    rw [h]
    simpa using hrefused

/-! ### Certain events only -/

/-- What became of listeners that were told some events each, all with a property. -/
def OnlyTold (P : ImportEvent → Prop) : List ImportListener → List ImportListener → Prop :=
  List.Forall₂ fun l l' => ∃ es, l' = told es l ∧ ∀ e ∈ es, P e

namespace OnlyTold

variable {P : ImportEvent → Prop}

theorem refl (ls : List ImportListener) : OnlyTold P ls ls :=
  List.forall₂_same.mpr fun l _ => ⟨[], (congrFun told_nil l).symm, by simp⟩

theorem trans (h : OnlyTold P ls ls') (h' : OnlyTold P ls' ls'') : OnlyTold P ls ls'' := by
  induction h generalizing ls'' with
  | nil =>
    cases h'
    exact .nil
  | cons hl _ ih =>
    obtain ⟨es, rfl, hes⟩ := hl
    cases h' with
    | cons hl' hrest =>
      obtain ⟨es', rfl, hes'⟩ := hl'
      refine .cons ⟨es ++ es', told_told es es' _, ?_⟩ (ih hrest)
      exact List.forall_mem_append.mpr ⟨hes, hes'⟩

theorem tell (he : P e) (ls : List ImportListener) :
    OnlyTold P ls (ImportListener.tell e ls).2 := by
  induction ls with
  | nil => exact .nil
  | cons l ls ih =>
    have hl : ∃ es, told [e] l = told es l ∧ ∀ e ∈ es, P e := ⟨[e], rfl, by simpa using he⟩
    rw [ImportListener.tell]
    cases l.answer l.heard e with
    | error _ => exact .cons hl (refl ls)
    | ok _ => exact .cons hl ih

end OnlyTold

end ImportListener

end Cookbook
