import AtmXfs.Macro.Report

namespace AtmXfs.Macro

open Js

/-- What is done to a macro in the list of its steps. -/
inductive StepEdit where
  | toggleEnabled (id : Text)
  | moveUp (id : Text)
  | moveDown (id : Text)
  | remove (id : Text)
  | updateParams (id : Text) (params : List MacroParameter)

/-- The element at the index changes places with the next one. -/
def swapWithNext {α : Type} : Nat → List α → List α
  | 0, a :: b :: rest => b :: a :: rest
  | n + 1, a :: rest => a :: swapWithNext n rest
  | _, xs => xs

/-- The step of the id is changed. -/
def withStep (id : Text) (f : StoredStep → StoredStep) (xs : List StoredStep) : List StoredStep :=
  xs.map fun s => if s.id = id then f s else s

def StepEdit.update : StepEdit → List StoredStep → List StoredStep
  | .toggleEnabled id, xs => withStep id (fun s => { s with enabled := !s.enabled }) xs
  | .moveUp id, xs =>
    match xs.findIdx? (·.id = id) with
    | none => xs
    | some idx => if idx ≤ 0 then xs else swapWithNext (idx - 1) xs
  | .moveDown id, xs =>
    match xs.findIdx? (·.id = id) with
    | none => xs
    | some idx => if xs.length - 1 ≤ idx then xs else swapWithNext idx xs
  | .remove id, xs => xs.filter (·.id ≠ id)
  | .updateParams id params, xs => withStep id (fun s => { s with parameters := params }) xs

/-- The steps in the order they are shown. -/
def sorted (steps : List StoredStep) : List StoredStep :=
  steps.mergeSort fun a b => a.order.le b.order

def renumber (xs : List StoredStep) : List StoredStep :=
  xs.mapIdx fun i s => { s with order := .ofInt (i + 1) }

def withReorder (updater : List StoredStep → List StoredStep) (steps : List StoredStep) :
    List StoredStep := renumber (updater (sorted steps))

/-- The macro that is saved after some edits, each of them of the macro saved before. -/
def edited (steps : List StoredStep) (edits : List StepEdit) : List StoredStep :=
  edits.foldl (fun steps e => withReorder e.update steps) steps

/-- A step without its order number. -/
def StoredStep.content (s : StoredStep) : StoredStep := { s with order := .ofInt 0 }

theorem le_ofInt (a b : Int) : (Number.ofInt a).le (Number.ofInt b) = decide (a ≤ b) := by
  show (!(Number.ofInt b).lt (Number.ofInt a)) = _
  rw [Number.lt_ofInt]
  by_cases h : a ≤ b
  · rw [decide_eq_true h, decide_eq_false (not_lt.mpr h)]
    rfl
  · rw [decide_eq_false h, decide_eq_true (not_le.mp h)]
    rfl

theorem renumber_pairwise (xs : List StoredStep) :
    (renumber xs).Pairwise fun a b => a.order.le b.order = true := by
  rw [List.pairwise_iff_getElem]
  intro i j hi hj hij
  simp only [renumber, List.getElem_mapIdx, le_ofInt, decide_eq_true_eq]
  omega

theorem sorted_renumber (xs : List StoredStep) : sorted (renumber xs) = renumber xs :=
  List.mergeSort_of_pairwise (renumber_pairwise xs)

theorem storedOrder_renumber (xs : List StoredStep) :
    storedOrder (renumber xs) = (renumber xs).filter (·.enabled) :=
  List.mergeSort_of_pairwise ((renumber_pairwise xs).sublist List.filter_sublist)

theorem map_renumber {β : Type} {f : StoredStep → β}
    (hf : ∀ s order, f { s with order := order } = f s) (xs : List StoredStep) :
    (renumber xs).map f = xs.map f := by
  apply List.ext_getElem
  · simp [renumber]
  · intro i hi hi'
    simp only [renumber, List.getElem_map, List.getElem_mapIdx, hf]

theorem renumber_content (xs : List StoredStep) :
    renumber (xs.map StoredStep.content) = renumber xs := by
  apply List.ext_getElem
  · simp [renumber]
  · intro i hi hi'
    simp only [renumber, List.getElem_map, List.getElem_mapIdx, StoredStep.content]

theorem renumber_renumber (xs : List StoredStep) : renumber (renumber xs) = renumber xs := by
  apply List.ext_getElem
  · simp [renumber]
  · intro i hi hi'
    simp only [renumber, List.getElem_mapIdx]

theorem swapWithNext_perm {α : Type} (n : Nat) (xs : List α) : (swapWithNext n xs).Perm xs := by
  fun_induction swapWithNext n xs with
  | case1 a b rest => exact .swap a b rest
  | case2 n a rest ih => exact ih.cons a
  | case3 n xs => exact .refl xs

theorem map_swapWithNext {α β : Type} (f : α → β) (n : Nat) (xs : List α) :
    (swapWithNext n xs).map f = swapWithNext n (xs.map f) := by
  fun_induction swapWithNext n xs with
  | case1 a b rest => rfl
  | case2 n a rest ih => rw [List.map_cons, ih, List.map_cons, swapWithNext]
  | case3 n xs hshort hstep =>
    cases xs with
    | nil => cases n <;> rfl
    | cons a rest =>
      cases n with
      | zero =>
        cases rest with
        | nil => rfl
        | cons b rest => exact absurd rfl (hshort a b rest rfl)
      | succ n => exact absurd rfl (hstep n a rest rfl)

theorem content_withStep (id : Text) (f : StoredStep → StoredStep)
    (hf : ∀ s, (f s).content = f s.content) (xs : List StoredStep) :
    (withStep id f xs).map StoredStep.content = withStep id f (xs.map StoredStep.content) := by
  rw [withStep, withStep, List.map_map, List.map_map]
  refine List.map_congr_left fun s _ => ?_
  rw [Function.comp_apply, Function.comp_apply, show s.content.id = s.id from rfl]
  split
  · exact hf s
  · rfl

theorem ids_withStep (id : Text) (f : StoredStep → StoredStep) (hf : ∀ s, (f s).id = s.id)
    (xs : List StoredStep) : (withStep id f xs).map (·.id) = xs.map (·.id) := by
  rw [withStep, List.map_map]
  refine List.map_congr_left fun s _ => ?_
  rw [Function.comp_apply]
  split
  · exact hf s
  · rfl

theorem findIdx?_content (xs : List StoredStep) (id : Text) :
    (xs.map StoredStep.content).findIdx? (·.id = id) = xs.findIdx? (·.id = id) := by
  rw [List.findIdx?_map]
  rfl

/-- No edit looks at the order numbers. -/
theorem update_content (e : StepEdit) (xs : List StoredStep) :
    (e.update xs).map StoredStep.content = e.update (xs.map StoredStep.content) := by
  cases e with
  | toggleEnabled id =>
    simp only [StepEdit.update]
    apply content_withStep
    exact fun _ => rfl
  | moveUp id =>
    simp only [StepEdit.update, findIdx?_content]
    cases xs.findIdx? (·.id = id) with
    | none => rfl
    | some idx =>
      simp only
      split
      · rfl
      · exact map_swapWithNext ..
  | moveDown id =>
    simp only [StepEdit.update, findIdx?_content, List.length_map]
    cases xs.findIdx? (·.id = id) with
    | none => rfl
    | some idx =>
      simp only
      split
      · rfl
      · exact map_swapWithNext ..
  | remove id =>
    simp only [StepEdit.update, List.filter_map]
    rfl
  | updateParams id params =>
    simp only [StepEdit.update]
    apply content_withStep
    exact fun _ => rfl

/-- No edit makes a step up. -/
theorem update_ids (e : StepEdit) (xs : List StoredStep) :
    ((e.update xs).map (·.id)).Subperm (xs.map (·.id)) := by
  cases e with
  | toggleEnabled id =>
    rw [StepEdit.update, ids_withStep]
    exact fun _ => rfl
  | moveUp id =>
    rw [StepEdit.update]
    split
    · exact List.Subperm.refl _
    · split
      · exact List.Subperm.refl _
      · exact ((swapWithNext_perm _ xs).map _).subperm
  | moveDown id =>
    rw [StepEdit.update]
    split
    · exact List.Subperm.refl _
    · split
      · exact List.Subperm.refl _
      · exact ((swapWithNext_perm _ xs).map _).subperm
  | remove id => exact (List.filter_sublist.map _).subperm
  | updateParams id params =>
    rw [StepEdit.update, ids_withStep]
    exact fun _ => rfl

section
variable (steps : List StoredStep) (edits : List StepEdit)

theorem edited_concat (e : StepEdit) :
    edited steps (edits ++ [e]) = renumber (e.update (sorted (edited steps edits))) := by
  rw [edited, List.foldl_append]
  rfl

/-- What is shown after some edits is what was shown, edited. -/
theorem sorted_edited :
    (sorted (edited steps edits)).map StoredStep.content =
      edits.foldl (fun xs e => e.update xs) ((sorted steps).map StoredStep.content) := by
  induction edits using List.reverseRecOn with
  | nil => rfl
  | append_singleton edits e ih =>
    rw [edited_concat, sorted_renumber, map_renumber fun _ _ => rfl, update_content, ih,
      List.foldl_append]
    rfl

theorem edited_ids : ((edited steps edits).map (·.id)).Subperm (steps.map (·.id)) := by
  induction edits using List.reverseRecOn with
  | nil => exact List.Subperm.refl _
  | append_singleton edits e ih =>
    rw [edited_concat, map_renumber fun _ _ => rfl]
    have hsorted : ((sorted (edited steps edits)).map (·.id)).Perm
        ((edited steps edits).map (·.id)) := (List.mergeSort_perm _ _).map _
    exact (update_ids e _).trans (hsorted.subperm.trans ih)

end

/-- A step is executed by its content. -/
theorem resultsOf_content {ω : Type} (handle : Handler → MacroStep → ω → ω × Except Text Text)
    (steps : List StoredStep) (w : ω) :
    (resultsOf handle (steps.map StoredStep.content) w).1 = (resultsOf handle steps w).1 := by
  rw [resultsOf_world, resultsOf_world, List.map_map]
  rfl

/-- A macro that was edited is saved with the numbers 1, 2, … and without steps of its own making,
and is run as it is shown: the steps that are enabled, in the order the edits have put them in. -/
theorem edited_run {ω : Type} (handle : Handler → MacroStep → ω → ω × Except Text Text)
    (steps : List StoredStep) {edits : List StepEdit} (hne : edits ≠ []) (w : ω) :
    let saved := edited steps edits
    let plan := edits.foldl (fun xs e => e.update xs) ((sorted steps).map StoredStep.content)
    saved = renumber plan ∧
      (saved.map (·.id)).Subperm (steps.map (·.id)) ∧
      storedOrder saved = saved.filter (·.enabled) ∧
      (resultsOf handle (storedOrder saved) w).1 =
        (resultsOf handle (plan.filter (·.enabled)) w).1 := by
  intro saved plan
  obtain ⟨xs, hxs⟩ : ∃ xs, saved = renumber xs := by
    rcases List.eq_nil_or_concat edits with rfl | ⟨first, e, rfl⟩
    · exact absurd rfl hne
    · exact ⟨_, by rw [← edited_concat, ← List.concat_eq_append]⟩
  have hplan : plan = saved.map StoredStep.content := by
    have hshown := sorted_edited steps edits
    rw [show edited steps edits = renumber xs from hxs, sorted_renumber] at hshown
    rw [hxs]
    exact hshown.symm
  have horder : storedOrder saved = saved.filter (·.enabled) := by
    rw [hxs]
    exact storedOrder_renumber xs
  refine ⟨?_, edited_ids steps edits, horder, ?_⟩
  · rw [hplan, renumber_content, hxs, renumber_renumber]
  · rw [horder, hplan, List.filter_map]
    exact (resultsOf_content handle _ w).symm

/-- Two steps of one order number. -/
def insertAndConfirm : List StoredStep :=
  [⟨utf16 "a", .ofInt 5, utf16 "ACTION", utf16 "Card", utf16 "Insert", [], true⟩,
    ⟨utf16 "b", .ofInt 5, utf16 "ACTION", utf16 "System", utf16 "Confirm", [], false⟩]

theorem edited_run_movedUp :
    let saved := edited insertAndConfirm [.moveUp (utf16 "b"), .toggleEnabled (utf16 "b")]
    storedOrder saved = saved.filter (·.enabled) ∧
      saved.map (·.id) = [utf16 "b", utf16 "a"] ∧ saved.map (·.enabled) = [true, true] := by
  intro saved
  obtain ⟨hsaved, -, horder, -⟩ := edited_run (fun _ _ (w : Unit) => (w, .ok [])) insertAndConfirm
    (List.cons_ne_nil (.moveUp (utf16 "b")) [.toggleEnabled (utf16 "b")]) ()
  have hsorted : sorted insertAndConfirm = insertAndConfirm :=
    List.mergeSort_of_pairwise (by decide +kernel)
  rw [hsorted] at hsaved
  refine ⟨horder, ?_, ?_⟩
  · rw [show saved = _ from hsaved]
    decide +kernel
  · rw [show saved = _ from hsaved]
    decide +kernel

end AtmXfs.Macro
