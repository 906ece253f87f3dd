import Mathlib.Data.List.Basic
import Mathlib.Data.Option.Basic

namespace Runs

variable {σ α : Type*} (step : σ → α → Option σ)

/-- Execute a list of labels; `none` as soon as one of them is not enabled. -/
def exec : σ → List α → Option σ
  | s, [] => some s
  | s, a :: as => (step s a).bind fun t => exec t as

/-- Every step the run takes meets `ok` in the state it is taken from. -/
def Along (ok : σ → α → Prop) : σ → List α → Prop
  | _, [] => True
  | s, a :: as => ∀ t, step s a = some t → ok s a ∧ Along ok t as

instance Along.decidable (ok : σ → α → Prop) [∀ s a, Decidable (ok s a)] :
    ∀ s as, Decidable (Along step ok s as)
  | _, [] => isTrue trivial
  | s, a :: as =>
    match h : step s a with
    | none => isTrue (by simp [Along, h])
    | some t =>
      have := Along.decidable ok t as
      decidable_of_iff (ok s a ∧ Along step ok t as) (by simp [Along, h])

/-- `P` holds in every state the run visits, its first and its last one included. -/
def Always (P : σ → Prop) : σ → List α → Prop
  | s, [] => P s
  | s, a :: as => P s ∧ ∀ t, step s a = some t → Always P t as

/-- Some run from `s` whose steps all meet `ok` ends in `t`. -/
def Reaches (ok : σ → α → Prop) (s t : σ) : Prop :=
  ∃ as, Along step ok s as ∧ exec step s as = some t

/-- Somewhere on the way a step that meets `p` is taken. -/
def Occurs (p : σ → α → Prop) : σ → List α → Prop
  | _, [] => False
  | s, a :: as => ∃ t, step s a = some t ∧ (p s a ∨ Occurs p t as)

/-- No condition on the steps of a run. -/
def free (_ : σ) (_ : α) : Prop := True

/-- Every entry of a log, newest first, meets `p` with the entries before it. -/
def Each {β : Type*} (p : β → List β → Prop) : List β → Prop
  | [] => True
  | b :: older => p b older ∧ Each p older

theorem each_iff {β : Type*} {p : β → List β → Prop} {log : List β} :
    Each p log ↔ ∀ newer b older, log = newer ++ b :: older → p b older := by
  induction log with
  | nil => simp [Each]
  | cons a log ih =>
    rw [Each, ih]
    constructor
    · rintro ⟨ha, hlog⟩ newer b older heq
      cases newer with
      | nil =>
        cases heq
        exact ha
      | cons c newer => exact hlog newer b older (List.cons.inj heq).2
    · intro h
      exact ⟨h [] a log rfl, fun newer b older heq => h (a :: newer) b older (by rw [heq]; rfl)⟩

@[simp] theorem exec_nil (s : σ) : exec step s [] = some s := rfl

@[simp] theorem exec_cons (s : σ) (a : α) (as : List α) :
    exec step s (a :: as) = (step s a).bind fun t => exec step t as := rfl

theorem along_free (s : σ) (as : List α) : Along step free s as := by
  induction as generalizing s with
  | nil => trivial
  | cons a as ih => exact fun t _ => ⟨trivial, ih t⟩

/-- A condition on the labels alone holds along every run of labels that meet it. -/
theorem along_of_forall {p : α → Prop} (s : σ) {as : List α} (h : ∀ a ∈ as, p a) :
    Along step (fun _ a => p a) s as := by
  induction as generalizing s with
  | nil => trivial
  | cons a as ih =>
    intro t _
    have hrest : ∀ b ∈ as, p b := fun b hb => h b (List.mem_cons_of_mem a hb)
    exact ⟨h a List.mem_cons_self, ih t hrest⟩

theorem Along.mono {ok ok' : σ → α → Prop} (h : ∀ s a, ok s a → ok' s a) {s : σ} {as : List α}
    (hs : Along step ok s as) : Along step ok' s as := by
  induction as generalizing s with
  | nil => trivial
  | cons a as ih => exact fun t ht => ⟨h s a (hs t ht).1, ih (hs t ht).2⟩

theorem along_and {ok ok' : σ → α → Prop} {s : σ} {as : List α} (h : Along step ok s as)
    (h' : Along step ok' s as) : Along step (fun s a => ok s a ∧ ok' s a) s as := by
  induction as generalizing s with
  | nil => trivial
  | cons a as ih => exact fun t ht => ⟨⟨(h t ht).1, (h' t ht).1⟩, ih (h t ht).2 (h' t ht).2⟩

theorem along_congr {ok ok' : σ → α → Prop} (h : ∀ s a, ok s a ↔ ok' s a) (s : σ) (as : List α) :
    Along step ok s as ↔ Along step ok' s as :=
  ⟨Along.mono step fun s a => (h s a).mp, Along.mono step fun s a => (h s a).mpr⟩

theorem along_append {ok : σ → α → Prop} {s t : σ} {as bs : List α}
    (ht : exec step s as = some t) :
    Along step ok s (as ++ bs) ↔ Along step ok s as ∧ Along step ok t bs := by
  induction as generalizing s with
  | nil =>
    cases ht
    simp [Along]
  | cons a as ih =>
    obtain ⟨u, hu, hr⟩ := Option.bind_eq_some_iff.mp ht
    simp only [List.cons_append, Along, hu, Option.some.injEq, forall_eq', ih hr, and_assoc]

variable {step}

theorem Always.head {P : σ → Prop} {s : σ} {as : List α} (h : Always step P s as) : P s := by
  cases as with
  | nil => exact h
  | cons a as => exact h.1

theorem Always.last {P : σ → Prop} {s t : σ} {as : List α} (h : Always step P s as)
    (ht : exec step s as = some t) : P t := by
  induction as generalizing s with
  | nil => cases ht; exact h
  | cons a as ih =>
    obtain ⟨u, hu, hr⟩ := Option.bind_eq_some_iff.mp ht
    exact ih (h.2 u hu) hr

theorem Always.mono {P Q : σ → Prop} (hPQ : ∀ s, P s → Q s) {s : σ} {as : List α}
    (h : Always step P s as) : Always step Q s as := by
  induction as generalizing s with
  | nil => exact hPQ s h
  | cons a as ih => exact ⟨hPQ s h.1, fun t ht => ih (h.2 t ht)⟩

/-- The run rule: what one allowed step preserves, every allowed run preserves. -/
theorem always_of_along {P : σ → Prop} {ok : σ → α → Prop}
    (hstep : ∀ s a t, P s → ok s a → step s a = some t → P t) {s : σ} {as : List α}
    (hs : P s) (ha : Along step ok s as) : Always step P s as := by
  induction as generalizing s with
  | nil => exact hs
  | cons a as ih =>
    refine ⟨hs, fun t ht => ?_⟩
    obtain ⟨hok, hrest⟩ := ha t ht
    exact ih (hstep s a t hs hok ht) hrest

/-- If `ok` says exactly when one step preserves `P` in the states of an invariant, it says
exactly which runs preserve it. -/
theorem always_iff_along {P : σ → Prop} (Inv : σ → Prop) {ok : σ → α → Prop}
    (hinv : ∀ s a t, Inv s → step s a = some t → Inv t)
    (hstep : ∀ s a t, Inv s → P s → step s a = some t → (P t ↔ ok s a)) {s : σ} {as : List α}
    (hi : Inv s) (hs : P s) : Always step P s as ↔ Along step ok s as := by
  constructor
  · intro h
    induction as generalizing s with
    | nil => trivial
    | cons a as ih =>
      intro t ht
      have hrest := h.2 t ht
      exact ⟨(hstep s a t hi hs ht).mp hrest.head, ih (hinv s a t hi ht) hrest.head hrest⟩
  · intro h
    induction as generalizing s with
    | nil => exact hs
    | cons a as ih =>
      refine ⟨hs, fun t ht => ?_⟩
      obtain ⟨hok, hrest⟩ := h t ht
      exact ih (hinv s a t hi ht) ((hstep s a t hi hs ht).mpr hok) hrest

/-- What holds at the end and not at the start came about at a step. -/
theorem occurs_of_new {I P : σ → Prop} {p : σ → α → Prop}
    (hstep : ∀ s a t, I s → step s a = some t → P t → P s ∨ p s a) {s t : σ} {as : List α}
    (hi : Always step I s as) (hs : ¬P s) (h : exec step s as = some t) (ht : P t) :
    Occurs step p s as := by
  induction as generalizing s with
  | nil =>
    cases h
    exact absurd ht hs
  | cons a as ih =>
    obtain ⟨u, hu, hrest⟩ := Option.bind_eq_some_iff.mp h
    refine ⟨u, hu, ?_⟩
    by_cases hp : P u
    · exact Or.inl ((hstep s a u hi.1 hu hp).resolve_left hs)
    · exact Or.inr (ih (hi.2 u hu) hp hrest)

/-- A run is no longer than a number that each of its steps lowers. -/
theorem length_le_of_lowered {I : σ → Prop} {p : α → Prop} {m : σ → Nat}
    (hstep : ∀ s a t, I s → p a → step s a = some t → I t ∧ m t < m s) {s t : σ} {as : List α}
    (hi : I s) (has : ∀ a ∈ as, p a) (h : exec step s as = some t) : as.length ≤ m s := by
  induction as generalizing s with
  | nil => exact Nat.zero_le _
  | cons a as ih =>
    obtain ⟨u, hu, hrest⟩ := Option.bind_eq_some_iff.mp h
    obtain ⟨hi', hlower⟩ := hstep s a u hi (has a List.mem_cons_self) hu
    have hlength := ih hi' (fun b hb => has b (List.mem_cons_of_mem a hb)) hrest
    rw [List.length_cons]
    omega

namespace Reaches

theorem refl {ok : σ → α → Prop} (s : σ) : Reaches step ok s s := ⟨[], trivial, rfl⟩

theorem head {ok : σ → α → Prop} {s t u : σ} {a : α} (hok : ok s a) (ht : step s a = some t)
    (h : Reaches step ok t u) : Reaches step ok s u := by
  obtain ⟨as, hrest, hu⟩ := h
  refine ⟨a :: as, ?_, ?_⟩
  · intro t' ht'
    cases ht.symm.trans ht'
    exact ⟨hok, hrest⟩
  · rw [exec_cons, ht]
    exact hu

theorem trans {ok : σ → α → Prop} {s t u : σ} (h : Reaches step ok s t)
    (h' : Reaches step ok t u) : Reaches step ok s u := by
  obtain ⟨as, halong, ht⟩ := h
  induction as generalizing s with
  | nil =>
    cases ht
    exact h'
  | cons a as ih =>
    obtain ⟨v, hv, hrest⟩ := Option.bind_eq_some_iff.mp ht
    obtain ⟨hok, hlater⟩ := halong v hv
    exact head hok hv (ih hlater hrest)

/-- The invariant rule for reachable states. -/
theorem invariant {P : σ → Prop} {ok : σ → α → Prop}
    (hstep : ∀ s a t, P s → ok s a → step s a = some t → P t) {s t : σ}
    (hs : P s) (h : Reaches step ok s t) : P t := by
  obtain ⟨as, ha, ht⟩ := h
  exact (always_of_along hstep hs ha).last ht

/-- Runs that leave no choice and cannot go on end in the same state. -/
theorem unique {ok : σ → α → Prop} (hchoice : ∀ s a b, ok s a → ok s b → a = b) {s t t' : σ}
    (ht : ∀ a, ¬ok t a) (ht' : ∀ a, ¬ok t' a) (h : Reaches step ok s t)
    (h' : Reaches step ok s t') : t = t' := by
  obtain ⟨as, halong, hexec⟩ := h
  obtain ⟨bs, halong', hexec'⟩ := h'
  induction as generalizing s bs with
  | nil =>
    cases hexec
    cases bs with
    | nil => exact Option.some.inj hexec'
    | cons b bs =>
      obtain ⟨u, hu, -⟩ := Option.bind_eq_some_iff.mp hexec'
      exact absurd (halong' u hu).1 (ht b)
  | cons a as ih =>
    obtain ⟨u, hu, hrest⟩ := Option.bind_eq_some_iff.mp hexec
    obtain ⟨hok, hlater⟩ := halong u hu
    cases bs with
    | nil =>
      cases hexec'
      exact absurd hok (ht' a)
    | cons b bs =>
      obtain ⟨u', hu', hrest'⟩ := Option.bind_eq_some_iff.mp hexec'
      obtain ⟨hok', hlater'⟩ := halong' u' hu'
      obtain rfl := hchoice s a b hok hok'
      cases hu.symm.trans hu'
      exact ih hlater hrest bs hlater' hrest'

theorem of_exec {s t : σ} (as : List α) (h : exec step s as = some t) : Reaches step free s t :=
  ⟨as, along_free step s as, h⟩

end Reaches

end Runs
