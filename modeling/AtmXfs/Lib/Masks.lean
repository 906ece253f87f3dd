import Mathlib.Data.List.Nodup
import Mathlib.Data.List.Lookmap

/-- What each key is given a mask of bits, `0` where a key has none. -/
abbrev Masks (K : Type*) := List (K × UInt32)

namespace Masks

variable {K : Type*}

/-- Every key has one entry. -/
def Keyed (ms : Masks K) : Prop := (ms.map Prod.fst).Nodup

def dropZero (ms : Masks K) : Masks K := ms.filter fun e => e.2 ≠ 0

def keep (p : K → Bool) (ms : Masks K) : Masks K := ms.filter fun e => p e.1

theorem Keyed.cons {e : K × UInt32} {ms : Masks K} (h : Keyed (e :: ms)) :
    e.1 ∉ ms.map Prod.fst ∧ Keyed ms := List.nodup_cons.mp h

theorem Keyed.filter {ms : Masks K} (h : Keyed ms) (p : K × UInt32 → Bool) :
    Keyed (ms.filter p) := h.sublist (List.filter_sublist.map Prod.fst)

theorem Keyed.keep {ms : Masks K} (h : Keyed ms) (p : K → Bool) : Keyed (ms.keep p) := h.filter _

theorem Keyed.dropZero {ms : Masks K} (h : Keyed ms) : Keyed ms.dropZero := h.filter _

variable [DecidableEq K]

def maskOf (k : K) (ms : Masks K) : UInt32 := (ms.lookup k).getD 0

/-- Add bits to the first entry of the key, or an entry at the end where there is none. -/
def add (k : K) (bits : UInt32) : Masks K → Masks K
  | [] => [(k, bits)]
  | e :: rest => if e.1 = k then (e.1, e.2 ||| bits) :: rest else e :: add k bits rest

def drop (k : K) (ms : Masks K) : Masks K := ms.keep (· ≠ k)

def set (k : K) (bits : UInt32) (ms : Masks K) : Masks K := (k, bits) :: ms.drop k

def remove (k : K) (bits : UInt32) (ms : Masks K) : Masks K :=
  ms.map fun e => if e.1 = k then (e.1, e.2 &&& ~~~bits) else e

@[simp] theorem maskOf_nil (k : K) : maskOf k [] = 0 := rfl

theorem maskOf_cons (j : K) (e : K × UInt32) (ms : Masks K) :
    maskOf j (e :: ms) = if j = e.1 then e.2 else maskOf j ms := by
  obtain ⟨k, m⟩ := e
  by_cases h : j = k
  · simp [maskOf, h]
  · have hbeq : (j == k) = false := beq_false_of_ne h
    simp [maskOf, List.lookup_cons, h, hbeq]

theorem maskOf_add (j k : K) (bits : UInt32) (ms : Masks K) :
    maskOf j (add k bits ms) = if j = k then maskOf k ms ||| bits else maskOf j ms := by
  induction ms with
  | nil =>
    rw [add, maskOf_cons, maskOf_nil, maskOf_nil]
    split_ifs with h
    · simp
    · rfl
  | cons e ms ih =>
    rw [add]
    split_ifs with he hj hj
    · rw [maskOf_cons, maskOf_cons, if_pos (hj.trans he.symm), if_pos he.symm]
    · rw [maskOf_cons, maskOf_cons, if_neg fun h => hj (h.trans he), if_neg fun h => hj (h.trans he)]
    · have hk : ¬k = e.1 := fun h => he h.symm
      rw [maskOf_cons, ih, if_pos hj, if_neg (hj ▸ hk), maskOf_cons, if_neg hk]
    · rw [maskOf_cons, ih, if_neg hj, maskOf_cons]

theorem maskOf_keep (j : K) (p : K → Bool) (ms : Masks K) :
    maskOf j (ms.keep p) = if p j then maskOf j ms else 0 := by
  induction ms with
  | nil => simp [keep]
  | cons e ms ih =>
    unfold keep at ih ⊢
    rw [List.filter_cons]
    cases hp : p e.1 with
    | true =>
      simp only [if_true]
      rw [maskOf_cons, ih, maskOf_cons]
      split_ifs with hj hk
      · rfl
      · exact absurd (hj ▸ hp) hk
      · rfl
      · rfl
    | false =>
      simp only [Bool.false_eq_true, if_false]
      rw [ih, maskOf_cons]
      split_ifs with hk hj
      · exact absurd (hj ▸ hk) (by simp [hp])
      · rfl
      · rfl

theorem maskOf_drop (j k : K) (ms : Masks K) :
    maskOf j (ms.drop k) = if j = k then 0 else maskOf j ms := by
  rw [drop, maskOf_keep]
  by_cases hj : j = k
  · simp [hj]
  · simp [hj]

theorem maskOf_set (j k : K) (bits : UInt32) (ms : Masks K) :
    maskOf j (ms.set k bits) = if j = k then bits else maskOf j ms := by
  rw [set, maskOf_cons, maskOf_drop]
  split_ifs with hj
  · rfl
  · rfl

theorem maskOf_remove (j k : K) (bits : UInt32) (ms : Masks K) :
    maskOf j (ms.remove k bits) =
      if j = k then maskOf k ms &&& ~~~bits else maskOf j ms := by
  induction ms with
  | nil => simp [remove]
  | cons e ms ih =>
    unfold remove at ih ⊢
    rw [List.map_cons, maskOf_cons, ih]
    by_cases he : e.1 = k
    · simp only [he, if_true, maskOf_cons]
      split_ifs with hj
      · rfl
      · rfl
    · have hk : ¬k = e.1 := fun h => he h.symm
      simp only [he, if_false, maskOf_cons, hk]
      split_ifs with hj hjk
      · exact absurd (hj.symm.trans hjk) he
      · rfl
      · rfl
      · rfl

theorem maskOf_of_not_mem {k : K} {ms : Masks K} (h : k ∉ ms.map Prod.fst) : maskOf k ms = 0 := by
  induction ms with
  | nil => rfl
  | cons e ms ih =>
    rw [List.map_cons, List.mem_cons, not_or] at h
    rw [maskOf_cons, if_neg h.1, ih h.2]

theorem maskOf_dropZero {ms : Masks K} (h : Keyed ms) (j : K) :
    maskOf j ms.dropZero = maskOf j ms := by
  induction ms with
  | nil => rfl
  | cons e ms ih =>
    obtain ⟨hnew, hms⟩ := h.cons
    have htail := ih hms
    unfold dropZero at htail ⊢
    rw [List.filter_cons]
    by_cases hzero : e.2 = 0
    · simp only [hzero, ne_eq, not_true_eq_false, decide_false, Bool.false_eq_true, if_false]
      rw [htail, maskOf_cons, hzero]
      split_ifs with hj
      · rw [hj, maskOf_of_not_mem hnew]
      · rfl
    · simp only [hzero, ne_eq, not_false_eq_true, decide_true, if_true]
      rw [maskOf_cons, htail, maskOf_cons]

theorem Keyed.drop {ms : Masks K} (h : Keyed ms) (k : K) : Keyed (ms.drop k) := h.keep _

theorem Keyed.remove {ms : Masks K} (h : Keyed ms) (k : K) (bits : UInt32) :
    Keyed (ms.remove k bits) := by
  have hkeys : (ms.remove k bits).map Prod.fst = ms.map Prod.fst := by
    rw [Masks.remove, List.map_map]
    apply List.map_congr_left
    intro e _
    rw [Function.comp_apply]
    split_ifs with he
    · rfl
    · rfl
  rw [Keyed, hkeys]
  exact h

theorem Keyed.set {ms : Masks K} (h : Keyed ms) (k : K) (bits : UInt32) : Keyed (ms.set k bits) := by
  refine List.nodup_cons.mpr ⟨?_, h.drop k⟩
  intro hmem
  obtain ⟨e, he, hk⟩ := List.mem_map.mp hmem
  have hne : e.1 ≠ k := by simpa using (List.mem_filter.mp he).2
  exact hne hk

theorem keys_add (k : K) (bits : UInt32) (ms : Masks K) (j : K) :
    j ∈ (add k bits ms).map Prod.fst ↔ j = k ∨ j ∈ ms.map Prod.fst := by
  induction ms with
  | nil => simp [add]
  | cons e ms ih =>
    rw [add]
    split_ifs with he
    · subst he
      simp
    · rw [List.map_cons, List.mem_cons, ih, List.map_cons, List.mem_cons]
      exact or_left_comm

theorem Keyed.add {ms : Masks K} (h : Keyed ms) (k : K) (bits : UInt32) : Keyed (add k bits ms) := by
  induction ms with
  | nil => exact List.nodup_singleton k
  | cons e ms ih =>
    obtain ⟨hnew, hms⟩ := h.cons
    rw [Masks.add]
    split_ifs with he
    · exact List.nodup_cons.mpr ⟨hnew, hms⟩
    · refine List.nodup_cons.mpr ⟨?_, ih hms⟩
      rw [keys_add]
      exact fun hor => hor.elim he hnew

/-- An entry of a key is its mask. -/
theorem Keyed.mem_iff {ms : Masks K} (h : Keyed ms) {k : K} {m : UInt32} (hm : m ≠ 0) :
    (k, m) ∈ ms ↔ maskOf k ms = m := by
  induction ms with
  | nil =>
    rw [maskOf_nil]
    exact ⟨fun hmem => absurd hmem List.not_mem_nil, fun heq => absurd heq.symm hm⟩
  | cons e ms ih =>
    obtain ⟨hnew, hms⟩ := h.cons
    rw [List.mem_cons, maskOf_cons, ih hms]
    split_ifs with hk
    · rw [maskOf_of_not_mem (hk ▸ hnew)]
      constructor
      · intro hor
        rcases hor with heq | hzero
        · rw [← heq]
        · exact absurd hzero.symm hm
      · exact fun heq => Or.inl (Prod.ext hk heq.symm)
    · constructor
      · intro hor
        rcases hor with heq | hmask
        · exact absurd (congrArg Prod.fst heq) hk
        · exact hmask
      · exact Or.inr

end Masks
