import AtmXfs.Lib.Runs
import Mathlib.Data.List.Induction

namespace Runs

variable {σ α ε ω : Type*} (step : σ → α → Option σ) (emits : σ → α → List ε)

/-- The steps of a system beside everything they have emitted, oldest first. -/
def logged (s : σ × List ε) (a : α) : Option (σ × List ε) :=
  (step s.1 a).map fun t => (t, s.2 ++ emits s.1 a)

variable {step emits}

/-- A run with one label more ends in a step of that label. -/
theorem exec_snoc {s u : σ} {as : List α} {a : α} (h : exec step s (as ++ [a]) = some u) :
    ∃ t, exec step s as = some t ∧ step t a = some u := by
  induction as generalizing s with
  | nil =>
    obtain ⟨t, ht, hu⟩ := Option.bind_eq_some_iff.mp h
    cases hu
    exact ⟨s, rfl, ht⟩
  | cons b as ih =>
    obtain ⟨t, ht, hrest⟩ := Option.bind_eq_some_iff.mp h
    obtain ⟨v, hv, hu⟩ := ih hrest
    refine ⟨v, ?_, hu⟩
    rw [exec_cons, ht]
    exact hv

theorem logged_eq_some {s t : σ × List ε} {a : α} :
    logged step emits s a = some t ↔ step s.1 a = some t.1 ∧ t.2 = s.2 ++ emits s.1 a := by
  simp only [logged, Option.map_eq_some_iff, Prod.ext_iff]
  constructor
  · rintro ⟨u, hu, rfl, hlog⟩
    exact ⟨hu, hlog.symm⟩
  · rintro ⟨ht, hlog⟩
    exact ⟨t.1, ht, rfl, hlog.symm⟩

/-- The observer rule: what an observer of the emitted events keeps in step with the system over
one allowed step, it keeps in step over every allowed run. -/
theorem observed_of_along (hear : ω → ε → ω) {R : σ → ω → Prop} {ok : σ → α → Prop}
    (hstep : ∀ s a t o, R s o → ok s a → step s a = some t → R t ((emits s a).foldl hear o))
    {s t : σ × List ε} {o : ω} {as : List α} (hs : R s.1 (s.2.foldl hear o))
    (halong : Along step ok s.1 as) (ht : exec (logged step emits) s as = some t) :
    R t.1 (t.2.foldl hear o) := by
  induction as generalizing s with
  | nil =>
    cases ht
    exact hs
  | cons a as ih =>
    obtain ⟨u, hu, hrest⟩ := Option.bind_eq_some_iff.mp ht
    obtain ⟨hfirst, hlog⟩ := logged_eq_some.mp hu
    obtain ⟨hok, hlater⟩ := halong u.1 hfirst
    refine ih ?_ hlater hrest
    rw [hlog, List.foldl_append]
    exact hstep s.1 a u.1 _ hs hok hfirst

/-- What follows the labels of a run keeps in step with the system. -/
theorem followed_of_exec (follow : ω → α → ω) {R : σ → ω → Prop}
    (hstep : ∀ s a t o, R s o → step s a = some t → R t (follow o a)) {s t : σ} {o : ω}
    {as : List α} (hs : R s o) (ht : exec step s as = some t) : R t (as.foldl follow o) := by
  induction as generalizing s o with
  | nil =>
    cases ht
    exact hs
  | cons a as ih =>
    obtain ⟨u, hu, hrest⟩ := Option.bind_eq_some_iff.mp ht
    exact ih (hstep s a u o hs hu) hrest

/-- The two-run rule: where two steps with labels that look alike keep two states related, so do
two runs with such labels, and the second run gets as far as the first. -/
theorem exec_related {α' : Type*} (mask : α → α') {R : σ → σ → Prop} {ok : σ → α → Prop}
    (hstep : ∀ s s' a a' t, R s s' → ok s a → mask a = mask a' → step s a = some t →
      ∃ t', step s' a' = some t' ∧ R t t')
    {s s' t : σ} {as as' : List α} (hs : R s s') (halong : Along step ok s as)
    (has : as.map mask = as'.map mask) (ht : exec step s as = some t) :
    ∃ t', exec step s' as' = some t' ∧ R t t' := by
  induction as generalizing s s' as' with
  | nil =>
    rw [List.map_nil, eq_comm, List.map_eq_nil_iff] at has
    cases ht
    exact ⟨s', by rw [has, exec_nil], hs⟩
  | cons a as ih =>
    cases as' with
    | nil => cases has
    | cons a' as' =>
      obtain ⟨ha, hlater⟩ := List.cons.inj has
      obtain ⟨u, hu, hrest⟩ := Option.bind_eq_some_iff.mp ht
      obtain ⟨hok, hthen⟩ := halong u hu
      obtain ⟨u', hu', hr⟩ := hstep s s' a a' u hs hok ha hu
      obtain ⟨t', ht', hend⟩ := ih hr hthen hlater hrest
      refine ⟨t', ?_, hend⟩
      rw [exec_cons, hu']
      exact ht'

/-- What is taken up when it is fresh and kept while it is live is there at the end exactly if it
was fresh at some point and live from there on. -/
theorem kept_iff (next : σ → α → σ) (kept fresh live Inv : σ → Prop) {ok : α → Prop}
    (hlive : ∀ s, fresh s → live s) (hinv : ∀ s a, Inv s → ok a → Inv (next s a))
    (hnext : ∀ s a, Inv s → ok a →
      (kept (next s a) ↔ kept s ∧ live (next s a) ∨ fresh (next s a)))
    {s : σ} (hstart : kept s ↔ fresh s) (hs : Inv s) {as : List α} (has : ∀ a ∈ as, ok a) :
    kept (as.foldl next s) ↔ ∃ before after, as = before ++ after ∧ fresh (before.foldl next s) ∧
      ∀ mid, mid <+: after → live ((before ++ mid).foldl next s) := by
  have hrun : Inv (as.foldl next s) ∧ (kept (as.foldl next s) ↔
      ∃ before after, as = before ++ after ∧ fresh (before.foldl next s) ∧
        ∀ mid, mid <+: after → live ((before ++ mid).foldl next s)) := by
    induction as using List.reverseRecOn with
    | nil =>
      refine ⟨hs, hstart.trans ⟨fun h => ⟨[], [], rfl, h, ?_⟩, ?_⟩⟩
      · intro mid hmid
        rw [List.prefix_nil.mp hmid]
        exact hlive s h
      · rintro ⟨before, after, hnil, hfresh, -⟩
        rw [(List.append_eq_nil_iff.mp hnil.symm).1] at hfresh
        exact hfresh
    | append_singleton as a ih =>
      obtain ⟨hinvs, hkept⟩ := ih fun b hb => has b (List.mem_append_left _ hb)
      have ha : ok a := has a (by simp)
      have hlast : (as ++ [a]).foldl next s = next (as.foldl next s) a := by
        rw [List.foldl_append, List.foldl_cons, List.foldl_nil]
      rw [hlast]
      refine ⟨hinv _ a hinvs ha, (hnext _ a hinvs ha).trans ⟨?_, ?_⟩⟩
      · rintro (⟨hbefore, hstill⟩ | hfresh)
        · obtain ⟨before, after, rfl, hfresh, hsince⟩ := hkept.mp hbefore
          refine ⟨before, after ++ [a], by rw [List.append_assoc], hfresh, fun mid hmid => ?_⟩
          rcases List.prefix_concat_iff.mp hmid with rfl | hmid
          · rw [← List.append_assoc, hlast]
            exact hstill
          · exact hsince mid hmid
        · refine ⟨as ++ [a], [], (List.append_nil _).symm, hlast ▸ hfresh, fun mid hmid => ?_⟩
          rw [List.prefix_nil.mp hmid, List.append_nil, hlast]
          exact hlive _ hfresh
      · rintro ⟨before, after, hsplit, hfresh, hsince⟩
        rcases List.eq_nil_or_concat after with rfl | ⟨after, b, rfl⟩
        · rw [List.append_nil] at hsplit
          rw [← hsplit, hlast] at hfresh
          exact .inr hfresh
        · rw [List.concat_eq_append, ← List.append_assoc] at hsplit
          obtain ⟨rfl, hb⟩ := List.append_inj' hsplit rfl
          obtain rfl := List.singleton_inj.mp hb
          refine .inl ⟨hkept.mpr ⟨before, after, rfl, hfresh, fun mid hmid =>
            hsince mid (hmid.trans (List.prefix_concat _ _))⟩, ?_⟩
          rw [← hlast]
          have hend := hsince _ List.prefix_rfl
          rwa [List.concat_eq_append, ← List.append_assoc] at hend
  exact hrun.2

end Runs
