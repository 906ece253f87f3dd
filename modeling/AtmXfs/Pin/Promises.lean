import AtmXfs.Pin.Entry
import Mathlib.Data.List.Nodup

namespace AtmXfs.Pin

open Js

/-- What is done to the pad; every command comes with a promise of its own. -/
inductive PinCall where
  | pressKey (key : String)
  | command (c : PinCommand) (injected : Option String)
  | timeout (handle : Nat)
  | extract

/-- The pad, the number of commands so far, the entries that they began, newest first, and the
calls of the promises. -/
structure PinRun where
  pad : Pad Nat
  commands : Nat
  entries : List (EntrySpec Nat)
  settled : Settled Nat

namespace PinRun

def start : PinRun := ⟨Pad.init, 0, [], []⟩

def take (r : PinRun) (after : Pad Nat × Settled Nat) : PinRun :=
  { r with pad := after.1, settled := r.settled ++ after.2 }

/-- Whether a command gets as far as beginning an entry. -/
def begins : PinCommand → Option String → Bool
  | .getPin _, none => true
  | .getData _, none => true
  | _, _ => false

def command (r : PinRun) (c : PinCommand) (injected : Option String) : PinRun :=
  let after := r.pad.executeCommand c r.commands injected
  { pad := after.1
    commands := r.commands + 1
    entries := if begins c injected then after.1.active.toList ++ r.entries else r.entries
    settled := r.settled ++ after.2 }

/-- How often a promise has been settled. -/
def calls (r : PinRun) (waiter : Nat) : Nat := r.settled.countP fun s => s.1 = waiter

end PinRun

def pinStep (r : PinRun) : PinCall → Option PinRun
  | .pressKey key => some (r.take (r.pad.pressKey key))
  | .command c injected => some (r.command c injected)
  | .timeout handle => (r.pad.fire handle).map r.take
  | .extract => some { r with pad := r.pad.extractEnteredPin }

/-- The digits that an entry succeeds with. -/
def Answer.digits? : Answer → Option Nat
  | .pinLength n => some n
  | .data digits => some digits.length
  | _ => none

/-- The only pending timer is that of the active entry, every entry is settled once when it has
ended and not before, and one whose bounds are in order succeeds with a `good` number of digits. -/
structure Settles (good : PinGetPinPayload → Nat → Prop) (r : PinRun) : Prop where
  timers : r.pad.timers =
    (r.pad.active.map fun e => (e.timeoutHandle, Pad.timeoutReason e.mode)).toList
  handles : (r.entries.map EntrySpec.timeoutHandle).Nodup
  active : ∀ e, r.pad.active = some e → e ∈ r.entries ∧ r.calls e.waiter = 0
  ended : ∀ e ∈ r.entries, r.pad.active ≠ some e → r.calls e.waiter = 1
  lengths : ∀ e ∈ r.entries, e.spec.minLen.le e.spec.maxLen = true → ∀ answer,
    (e.waiter, .ok answer) ∈ r.settled → ∃ n, answer.digits? = some n ∧ good e.spec n

/-- The upper bound is a number of digits, or none at all. -/
def PinGetPinPayload.wholeMax (spec : PinGetPinPayload) : Bool :=
  match spec.maxLen with
  | .fin q => q.den = 1 ∧ 0 ≤ q
  | .inf negative => !negative
  | .nan => false

/-- So many digits there can be: none, or the last one was typed below the upper bound. -/
def PinGetPinPayload.reached (spec : PinGetPinPayload) (n : Nat) : Prop :=
  n = 0 ∨ (Number.ofInt ((n : Int) - 1)).lt spec.maxLen = true

/-- At least the lower bound, and at most the upper one if it is a number of digits. -/
def PinGetPinPayload.admits (spec : PinGetPinPayload) (n : Nat) : Prop :=
  spec.minLen.le (.ofInt n) = true ∧ spec.reached n ∧
    (spec.wholeMax = true → (Number.ofInt n).le spec.maxLen = true)

/-- What a run keeps: promises are new when they are made, timers too, and what is typed has
room. -/
structure Tidy (r : PinRun) : Prop where
  settles : Settles PinGetPinPayload.admits r
  waiters : (r.entries.map EntrySpec.waiter).Nodup
  fresh : ∀ e ∈ r.entries, e.waiter < r.commands ∧ e.timeoutHandle < r.pad.nextTimer
  past : ∀ s ∈ r.settled, s.1 < r.commands
  typed : ∀ e, r.pad.active = some e → e.spec.reached r.pad.pinBuffer.length

theorem PinGetPinPayload.wholeMax_iff {spec : PinGetPinPayload} : spec.wholeMax = true ↔
    spec.maxLen = .inf false ∨ ∃ k : Nat, spec.maxLen = .ofInt k := by
  unfold wholeMax
  cases spec.maxLen with
  | nan => simp [Number.ofInt]
  | inf negative => cases negative <;> simp [Number.ofInt]
  | fin q =>
    have hnat : (q.den = 1 ∧ 0 ≤ q) ↔ ∃ k : Nat, q = k := by
      constructor
      · rintro ⟨hden, hpos⟩
        have hq : (q.num : ℚ) = q := (Rat.den_eq_one_iff q).mp hden
        obtain ⟨k, hk⟩ := Int.eq_ofNat_of_zero_le (Rat.num_nonneg.mpr hpos)
        refine ⟨k, ?_⟩
        rw [← hq, hk]
        simp
      · rintro ⟨k, rfl⟩
        exact ⟨rfl, Nat.cast_nonneg k⟩
    simpa [Number.ofInt] using hnat

theorem PinGetPinPayload.reached.admits {spec : PinGetPinPayload} {n : Nat} (h : spec.reached n)
    (hmin : spec.minLen.le (.ofInt n) = true) : spec.admits n := by
  refine ⟨hmin, h, ?_⟩
  intro hwhole
  rw [PinGetPinPayload.wholeMax_iff] at hwhole
  unfold reached at h
  rcases hwhole with hmax | ⟨k, hmax⟩
  · rw [hmax]
    rfl
  · rw [hmax, Number.lt_ofInt, decide_eq_true_eq] at h
    have hle : ¬ ((k : Int) < n) := by omega
    rw [hmax]
    show (!(Number.ofInt k).lt (.ofInt n)) = true
    rw [Number.lt_ofInt, decide_eq_false hle]
    rfl

theorem calls_take (r : PinRun) (pad : Pad Nat) (waiter other : Nat)
    (result : Except String Answer) :
    (r.take (pad, [(other, result)])).calls waiter =
      r.calls waiter + if other = waiter then 1 else 0 := by
  simp [PinRun.take, PinRun.calls, List.countP_append, List.countP_cons]

/-- An operation that leaves the entry and its timer alone. -/
theorem Tidy.kept {r : PinRun} (h : Tidy r) {pad : Pad Nat} (hactive : pad.active = r.pad.active)
    (htimers : pad.timers = r.pad.timers) (hnext : pad.nextTimer = r.pad.nextTimer)
    (htyped : ∀ e, r.pad.active = some e → e.spec.reached pad.pinBuffer.length) :
    Tidy { r with pad } := by
  have hsettles : Settles PinGetPinPayload.admits { r with pad } := by
    refine ⟨?_, h.settles.handles, ?_, ?_, h.settles.lengths⟩
    · rw [htimers, hactive]
      exact h.settles.timers
    · rw [hactive]
      exact h.settles.active
    · rw [hactive]
      exact h.settles.ended
  refine ⟨hsettles, h.waiters, ?_, h.past, ?_⟩
  · rw [hnext]
    exact h.fresh
  · rw [hactive]
    exact htyped

/-- The active entry ends, its timer is cleared and its promise is settled. -/
theorem Tidy.ended {r : PinRun} (h : Tidy r) {e : EntrySpec Nat} (hactive : r.pad.active = some e)
    {pad : Pad Nat} (hnone : pad.active = none) (htimers : pad.timers = [])
    (hnext : pad.nextTimer = r.pad.nextTimer) {result : Except String Answer}
    (hresult : ∀ answer, result = .ok answer → e.spec.minLen.le e.spec.maxLen = true →
      ∃ n, answer.digits? = some n ∧ e.spec.admits n) :
    Tidy (r.take (pad, [(e.waiter, result)])) := by
  obtain ⟨hmem, hcalls⟩ := h.settles.active e hactive
  have hsame : ∀ e' ∈ r.entries, e'.waiter = e.waiter → e' = e :=
    fun e' he' hw => List.inj_on_of_nodup_map h.waiters he' hmem hw
  have hpast : ∀ s ∈ r.settled ++ [(e.waiter, result)], s.1 < r.commands := by
    intro s hs
    rcases List.mem_append.mp hs with hold | hnew
    · exact h.past s hold
    · rw [List.mem_singleton.mp hnew]
      exact (h.fresh e hmem).1
  have hsettles : Settles PinGetPinPayload.admits (r.take (pad, [(e.waiter, result)])) := by
    refine ⟨?_, h.settles.handles, ?_, ?_, ?_⟩
    · show pad.timers = (pad.active.map _).toList
      rw [htimers, hnone]
      rfl
    · intro e' he'
      have hnot : pad.active = some e' := he'
      rw [hnone] at hnot
      cases hnot
    · intro e' he' _
      rw [calls_take]
      by_cases hw : e.waiter = e'.waiter
      · rw [if_pos hw, ← hw, hcalls]
      · have hother : r.pad.active ≠ some e' := by
          intro hact
          rw [hactive, Option.some.injEq] at hact
          exact hw (by rw [hact])
        rw [if_neg hw, h.settles.ended e' he' hother]
    · intro e' he' hle answer hanswer
      rcases List.mem_append.mp hanswer with hold | hnew
      · exact h.settles.lengths e' he' hle answer hold
      · have hpair := List.mem_singleton.mp hnew
        rw [Prod.mk.injEq] at hpair
        have heq := hsame e' he' hpair.1
        rw [heq] at hle ⊢
        exact hresult answer hpair.2.symm hle
  refine ⟨hsettles, h.waiters, ?_, hpast, ?_⟩
  · intro e' he'
    rw [PinRun.take, hnext]
    exact h.fresh e' he'
  · intro e' he'
    have hnot : pad.active = some e' := he'
    rw [hnone] at hnot
    cases hnot

/-- A counter that is above all the numbers given out is a new number. -/
theorem not_mem_of_below {entries : List (EntrySpec Nat)} {f : EntrySpec Nat → Nat} {n : Nat}
    (h : ∀ e ∈ entries, f e < n) : n ∉ entries.map f := by
  intro hmem
  obtain ⟨e, he, heq⟩ := List.mem_map.mp hmem
  exact (h e he).ne heq

/-- A command begins an entry on a pad that has none. -/
theorem Tidy.begun {r : PinRun} (h : Tidy r) (hnone : r.pad.active = none) (mode : Mode)
    (spec : PinGetPinPayload) :
    Tidy { r with
      pad := r.pad.arm mode spec r.commands
      commands := r.commands + 1
      entries := ⟨spec, mode, r.commands, r.pad.nextTimer⟩ :: r.entries } := by
  have hempty : r.pad.timers = [] := by
    rw [h.settles.timers, hnone]
    rfl
  have hunsettled : r.calls r.commands = 0 := by
    apply List.countP_eq_zero.mpr
    intro s hs
    simpa using (h.past s hs).ne
  have hsettles : Settles PinGetPinPayload.admits { r with
      pad := r.pad.arm mode spec r.commands
      commands := r.commands + 1
      entries := ⟨spec, mode, r.commands, r.pad.nextTimer⟩ :: r.entries } := by
    refine ⟨?_, ?_, ?_, ?_, ?_⟩
    · show (r.pad.nextTimer, Pad.timeoutReason mode) :: r.pad.timers = _
      rw [hempty]
      rfl
    · have hnew := not_mem_of_below fun e he => (h.fresh e he).2
      exact List.nodup_cons.mpr ⟨hnew, h.settles.handles⟩
    · intro e he
      cases he
      exact ⟨List.mem_cons_self, hunsettled⟩
    · intro e he hne
      rcases List.mem_cons.mp he with rfl | hold
      · exact absurd rfl hne
      · apply h.settles.ended e hold
        rw [hnone]
        nofun
    · intro e he hle answer hanswer
      rcases List.mem_cons.mp he with rfl | hold
      · exact absurd rfl (h.past _ hanswer).ne
      · exact h.settles.lengths e hold hle answer hanswer
  refine ⟨hsettles, ?_, ?_, ?_, ?_⟩
  · have hnew := not_mem_of_below fun e he => (h.fresh e he).1
    exact List.nodup_cons.mpr ⟨hnew, h.waiters⟩
  · intro e he
    rcases List.mem_cons.mp he with rfl | hold
    · exact ⟨Nat.lt_succ_self _, Nat.lt_succ_self _⟩
    · obtain ⟨hw, ht⟩ := h.fresh e hold
      exact ⟨Nat.lt_succ_of_lt hw, Nat.lt_succ_of_lt ht⟩
  · intro s hs
    exact Nat.lt_succ_of_lt (h.past s hs)
  · intro e he
    cases he
    exact .inl rfl

/-- A command that begins no entry is answered itself. -/
theorem Tidy.answered {r : PinRun} (h : Tidy r) (result : Except String Answer) :
    Tidy { r with
      commands := r.commands + 1
      settled := r.settled ++ [(r.commands, result)] } := by
  have hcalls : ∀ e ∈ r.entries,
      ({ r with commands := r.commands + 1, settled := r.settled ++ [(r.commands, result)] } :
        PinRun).calls e.waiter = r.calls e.waiter := by
    intro e he
    have hne : r.commands ≠ e.waiter := (h.fresh e he).1.ne'
    have htake := calls_take r r.pad e.waiter r.commands result
    rw [if_neg hne] at htake
    exact htake
  refine ⟨⟨h.settles.timers, h.settles.handles, ?_, ?_, ?_⟩, h.waiters, ?_, ?_, h.typed⟩
  · intro e he
    obtain ⟨hmem, hzero⟩ := h.settles.active e he
    exact ⟨hmem, (hcalls e hmem).trans hzero⟩
  · intro e he hne
    exact (hcalls e he).trans (h.settles.ended e he hne)
  · intro e he hle answer hanswer
    rcases List.mem_append.mp hanswer with hold | hnew
    · exact h.settles.lengths e he hle answer hold
    · have hpair := List.mem_singleton.mp hnew
      rw [Prod.mk.injEq] at hpair
      exact absurd hpair.1 (h.fresh e he).1.ne
  · intro e he
    obtain ⟨hw, ht⟩ := h.fresh e he
    exact ⟨Nat.lt_succ_of_lt hw, ht⟩
  · intro s hs
    rcases List.mem_append.mp hs with hold | hnew
    · exact Nat.lt_succ_of_lt (h.past s hold)
    · rw [List.mem_singleton.mp hnew]
      exact Nat.lt_succ_self _

theorem take_nothing (r : PinRun) : r.take (r.pad, []) = r := by
  simp [PinRun.take]

/-- Without its timer the active entry leaves none. -/
theorem Tidy.no_timers {r : PinRun} (h : Tidy r) {e : EntrySpec Nat}
    (hactive : r.pad.active = some e) :
    r.pad.timers.filter (fun timer => timer.1 ≠ e.timeoutHandle) = [] := by
  rw [h.settles.timers, hactive]
  simp

theorem Tidy.cancelled {r : PinRun} (h : Tidy r) (reason : String) :
    Tidy (r.take (r.pad.cancelEntry reason)) := by
  cases hactive : r.pad.active with
  | none =>
    have hsame : r.pad.cancelEntry reason = (r.pad, []) := by
      simp only [Pad.cancelEntry, hactive]
    rw [hsame, take_nothing]
    exact h
  | some e =>
    have htimers := h.no_timers hactive
    simp only [Pad.cancelEntry, hactive]
    refine h.ended hactive ?_ ?_ ?_ ?_
    · rfl
    · exact htimers
    · rfl
    · intro answer hanswer
      cases hanswer

theorem Tidy.terminated {r : PinRun} (h : Tidy r) {e : EntrySpec Nat}
    (hactive : r.pad.active = some e) (hmin : e.spec.minLen.le e.spec.maxLen = true →
      e.spec.minLen.le (.ofInt r.pad.pinBuffer.length) = true) :
    Tidy (r.take r.pad.terminateEntry) := by
  have hadmits : e.spec.minLen.le e.spec.maxLen = true → e.spec.admits r.pad.pinBuffer.length :=
    fun hle => (h.typed e hactive).admits (hmin hle)
  have hresult : ∀ answer, (Except.ok (entryAnswer e.mode r.pad.pinBuffer) : Except String Answer) =
      .ok answer → e.spec.minLen.le e.spec.maxLen = true →
      ∃ n, answer.digits? = some n ∧ e.spec.admits n := by
    intro answer heq hle
    cases heq
    refine ⟨r.pad.pinBuffer.length, ?_, hadmits hle⟩
    cases e.mode with
    | pin => rfl
    | data => rfl
  have htimers := h.no_timers hactive
  obtain ⟨spec, mode, waiter, handle⟩ := e
  cases mode with
  | pin =>
    simp only [Pad.terminateEntry, hactive]
    refine h.ended hactive ?_ ?_ ?_ hresult
    · rfl
    · exact htimers
    · rfl
  | data =>
    simp only [Pad.terminateEntry, hactive]
    refine h.ended hactive ?_ ?_ ?_ hresult
    · rfl
    · exact htimers
    · rfl

/-- A digit goes into the buffer. -/
def PinRun.type (r : PinRun) (c : Char) : PinRun :=
  { r with pad := { r.pad with pinBuffer := r.pad.pinBuffer ++ [c] } }

theorem Tidy.typed_digit {r : PinRun} (h : Tidy r) {e : EntrySpec Nat}
    (hactive : r.pad.active = some e) (c : Char)
    (hroom : (Number.ofInt r.pad.pinBuffer.length).lt e.spec.maxLen = true) : Tidy (r.type c) := by
  refine h.kept ?_ ?_ ?_ ?_
  · rfl
  · rfl
  · rfl
  · intro e' he'
    rw [hactive, Option.some.injEq] at he'
    right
    rw [← he', List.length_append]
    simpa using hroom

theorem Tidy.blocked {r : PinRun} (h : Tidy r) (keyName pan : String) :
    Tidy { r with pad := (r.pad.getPinBlock keyName pan).1 } := by
  unfold Pad.getPinBlock
  split_ifs
  · exact h
  · split
    · exact h
    · split
      · exact h
      · exact h.kept rfl rfl rfl fun _ _ => .inl rfl

theorem ne_nan_of_le {x y : Number} (h : x.le y = true) : x ≠ .nan := by
  intro hx
  rw [hx] at h
  cases h

theorem Tidy.pressed {r : PinRun} (h : Tidy r) (key : String) :
    Tidy (r.take (r.pad.pressKey key)) := by
  cases hactive : r.pad.active with
  | none =>
    have hsame : r.pad.pressKey key = (r.pad, []) := by simp only [Pad.pressKey, hactive]
    rw [hsame, take_nothing]
    exact h
  | some e =>
    by_cases hcancel : key = "CANCEL"
    · have hpress : r.pad.pressKey key = r.pad.cancelEntry "user cancelled" := by
        simp only [Pad.pressKey, hactive, hcancel, if_true]
      rw [hpress]
      exact h.cancelled _
    by_cases hclear : key = "CLEAR"
    · have hpress : r.pad.pressKey key = ({ r.pad with pinBuffer := [] }, []) := by
        simp only [Pad.pressKey, hactive, hclear]
        rfl
      rw [hpress]
      simp only [PinRun.take, List.append_nil]
      exact h.kept rfl rfl rfl fun e _ => .inl rfl
    cases hends : e.spec.endsAt key with
    | true =>
      rw [pressKey_ends hactive hcancel hclear hends]
      split_ifs with hshort
      · rw [take_nothing]
        exact h
      · apply h.terminated hactive
        intro hle
        have hcount : Number.ofInt r.pad.pinBuffer.length ≠ .nan := fun hnan => by cases hnan
        exact Number.le_of_not_lt (ne_nan_of_le hle) hcount (by simpa using hshort)
    | false =>
      rw [pressKey_types hactive hcancel hclear hends, Pad.typeKey]
      split
      · next c _ =>
        split_ifs with hroom hfull
        · have hactive' : (r.type c).pad.active = some e := hactive
          apply (h.typed_digit hactive c hroom.2).terminated hactive'
          intro hle
          have hlen : Number.ofInt (r.type c).pad.pinBuffer.length = e.spec.maxLen := hfull.2
          rw [hlen]
          exact hle
        · simp only [PinRun.take, List.append_nil]
          exact h.typed_digit hactive c hroom.2
        · rw [take_nothing]
          exact h
      · rw [take_nothing]
        exact h

theorem Tidy.commanded {r : PinRun} (h : Tidy r) (c : PinCommand) (injected : Option String) :
    Tidy (r.command c injected) := by
  have hbegin : ∀ mode spec, Tidy { r with
      pad := (r.pad.beginEntry mode spec r.commands).1
      commands := r.commands + 1
      entries := (r.pad.beginEntry mode spec r.commands).1.active.toList ++ r.entries
      settled := r.settled ++ (r.pad.beginEntry mode spec r.commands).2 } := by
    intro mode spec
    have hbegun := (h.cancelled "superseded").begun (cancelEntry_active _ _) mode spec
    exact hbegun
  cases c with
  | reset =>
    have hcleared : Tidy { r.take (r.pad.cancelEntry "device reset") with
        pad := { (r.pad.cancelEntry "device reset").1 with pinBuffer := [] } } :=
      (h.cancelled "device reset").kept rfl rfl rfl fun _ _ => .inl rfl
    have hanswered := hcleared.answered (.ok .done)
    simp only [PinRun.take, List.append_assoc] at hanswered
    cases injected with
    | none => exact hanswered
    | some code => exact hanswered
  | getPin spec =>
    cases injected with
    | none => exact hbegin .pin spec
    | some code => exact h.answered _
  | getData spec =>
    cases injected with
    | none => exact hbegin .data spec
    | some code => exact h.answered _
  | getPinBlock keyName pan =>
    cases injected with
    | none => exact (h.blocked keyName pan).answered _
    | some code => exact h.answered _
  | getKeyDetail =>
    cases injected with
    | none => exact h.answered _
    | some code => exact h.answered _
  | other commandCode =>
    cases injected with
    | none => exact h.answered _
    | some code => exact h.answered _

/-- The timer that fires is that of the active entry. -/
theorem Tidy.fired {r : PinRun} (h : Tidy r) {handle : Nat} {after : Pad Nat × Settled Nat}
    (hfire : r.pad.fire handle = some after) : Tidy (r.take after) := by
  unfold Pad.fire at hfire
  split at hfire
  · cases hfire
  · next timer hfind =>
    cases hfire
    have hmem := List.mem_of_find?_eq_some hfind
    rw [h.settles.timers] at hmem
    cases hactive : r.pad.active with
    | none =>
      rw [hactive] at hmem
      cases hmem
    | some e =>
      have htimers : (r.pad.clearTimeout handle).timers.filter
          (fun timer => timer.1 ≠ e.timeoutHandle) = [] := by
        have hnone := h.no_timers hactive
        rw [List.filter_eq_nil_iff] at hnone ⊢
        intro timer' htimer'
        exact hnone timer' (List.mem_of_mem_filter htimer')
      have hactive' : (r.pad.clearTimeout handle).active = some e := hactive
      simp only [Pad.cancelEntry, hactive']
      refine h.ended hactive ?_ ?_ ?_ ?_
      · rfl
      · exact htimers
      · rfl
      · intro answer hanswer
        cases hanswer

theorem tidy_step {r r' : PinRun} {call : PinCall} (h : Tidy r) (hstep : pinStep r call = some r') :
    Tidy r' := by
  cases call with
  | pressKey key =>
    cases hstep
    exact h.pressed key
  | command c injected =>
    cases hstep
    exact h.commanded c injected
  | timeout handle =>
    obtain ⟨after, hafter, rfl⟩ := Option.map_eq_some_iff.mp hstep
    exact h.fired hafter
  | extract =>
    cases hstep
    exact h.kept rfl rfl rfl fun _ _ => .inl rfl

theorem tidy_start : Tidy .start :=
  ⟨⟨rfl, List.nodup_nil, nofun, nofun, nofun⟩, List.nodup_nil, nofun, nofun, nofun⟩

/-- In every state of every run the only pending timer is that of the active entry, the entries
that have ended have been settled once and the active one not, and where the bounds are in order
an entry succeeds with at least the lower and, if it is a number of digits, at most the upper
bound. -/
theorem entries_settle_once (calls : List PinCall) :
    Runs.Always pinStep (Settles PinGetPinPayload.admits) .start calls := by
  have htidy : Runs.Always pinStep Tidy .start calls := by
    apply Runs.always_of_along _ tidy_start (Runs.along_free pinStep .start calls)
    intro r call r' h _ hstep
    exact tidy_step h hstep
  exact htidy.mono fun _ h => h.settles

/-- A fifth digit is typed below an upper bound of four and a half. -/
theorem five_digits_above_bound :
    ¬ ∀ calls, Runs.Always pinStep (Settles fun spec n => spec.fits n = true) .start calls := by
  intro h
  let spec : PinGetPinPayload := ⟨.ofInt 4, .fin (9 / 2), false, [], []⟩
  have hrun := h [.command (.getPin spec) none, .pressKey "1", .pressKey "2", .pressKey "3",
    .pressKey "4", .pressKey "5", .pressKey "ENTER"]
  have hend : Settles _ _ := hrun.last rfl
  obtain ⟨n, hn, hfits⟩ := hend.lengths ⟨spec, .pin, 0, 0⟩ (by decide +kernel)
    (by decide +kernel) (.pinLength 5) (by decide +kernel)
  cases hn
  revert hfits
  decide +kernel

end AtmXfs.Pin
