import AtmXfs.Lib.JsString
import AtmXfs.Lib.Runs

namespace AtmXfs.Suite

open Js Runs

/-- Where a call of `MacroRunnerService.run` is: before the loop over its steps, in it, or at
the last update of its row. -/
inductive RunPhase where
  | loading | stepping | closing
  deriving DecidableEq

/-- A call of `MacroRunnerService.run`. -/
structure MacroCall where
  id : Nat
  macroId : Text
  phase : RunPhase
  deriving DecidableEq

/-- What a step of a macro does to the session of the ATM. -/
inductive SessionUse where
  | leaves | creates | ends
  deriving DecidableEq

inductive RunMove where
  | begin
  | act (use : SessionUse)
  | finish
  | close
  | throws
  deriving DecidableEq

namespace MacroCall

/-- The call after a move, or `none` if the move ends it. -/
def advance (call : MacroCall) : RunMove → Option (Option MacroCall)
  | .begin => if call.phase = .loading then some (some { call with phase := .stepping }) else none
  | .act _ => if call.phase = .stepping then some (some call) else none
  | .finish =>
    if call.phase = .stepping then some (some { call with phase := .closing }) else none
  | .close => if call.phase = .closing then some none else none
  -- an error of a step is its result; only the statements around the loop can throw
  | .throws => if call.phase = .stepping then none else some none

def session (call : MacroCall) : RunMove → Option Nat → Option Nat
  | .act .creates, _ => some call.id
  | .act .ends, _ => none
  | _, session => session

def executing (call : MacroCall) : List Nat :=
  if call.phase = .stepping then [call.id] else []

end MacroCall

/-- Where a call of `SuiteRunnerService.run` is; `rest` are the macros that are still to run. -/
inductive SuiteCall where
  | loading (suiteId : Text)
  | resetting (rest : List Text)
  | calling (call : MacroCall) (rest : List Text)
  | attaching (rest : List Text)
  | closing
  deriving DecidableEq

inductive SuiteMove where
  | found (macroIds : List Text)
  | reset (cancelled : Bool)
  | run (move : RunMove)
  | attached
  | close
  | throws
  deriving DecidableEq

namespace SuiteCall

/-- The call after a move, or `none` if the move ends it; `fresh` is the id of the macro run
that the move may start. -/
def advance (fresh : Nat) : SuiteCall → SuiteMove → Option (Option SuiteCall)
  | .loading _, .found macroIds => some (some (.resetting macroIds))
  | .loading _, .throws => some none
  | .resetting (macroId :: rest), .reset _ =>
    some (some (.calling ⟨fresh, macroId, .loading⟩ rest))
  | .resetting [], .reset _ => some (some .closing)
  | .calling call rest, .run move =>
    match call.advance move with
    | some (some call) => some (some (.calling call rest))
    -- the run is attached to the suite, unless it threw
    | some none => some (some (if move = .close then .attaching rest else .resetting rest))
    | none => none
  | .attaching rest, .attached => some (some (.resetting rest))
  | .closing, .close => some none
  | .closing, .throws => some none
  | _, _ => none

/-- `safeCancel` ignores an error of the cancellation, which may leave the session. -/
def session : SuiteCall → SuiteMove → Option Nat → Option Nat
  | .calling call _, .run move, session => call.session move session
  | .resetting _, .reset true, _ => none
  | _, _, session => session

def executing : SuiteCall → List Nat
  | .calling call _ => call.executing
  | _ => []

end SuiteCall

/-- The scheduler with its queue (`none` if it is disabled), the suite that the worker is on,
and the calls that HTTP requests have under way; `session` is the run that created the ATM's
session. -/
structure Service where
  queue : Option (List Text)
  worker : Option SuiteCall
  inline : List SuiteCall
  direct : List MacroCall
  fresh : Nat
  session : Option Nat
  deriving DecidableEq

inductive Action where
  | cron (suiteId : Text)
  | onDemand (suiteId : Text)
  | post (macroId : Text)
  | take
  | worker (move : SuiteMove)
  | inline (i : Nat) (move : SuiteMove)
  | direct (i : Nat) (move : RunMove)
  deriving DecidableEq

/-- Put what is left of an entry in its place. -/
def replaceAt {α : Type} (l : List α) (i : Nat) (entry : Option α) : List α :=
  l.take i ++ entry.toList ++ l.drop (i + 1)

namespace Service

def step (s : Service) : Action → Option Service
  | .cron suiteId => s.queue.map fun queue => { s with queue := some (queue ++ [suiteId]) }
  | .onDemand suiteId =>
    match s.queue with
    | some queue => some { s with queue := some (queue ++ [suiteId]) }
    | none => some { s with inline := s.inline ++ [.loading suiteId] }
  | .post macroId =>
    some { s with direct := s.direct ++ [⟨s.fresh, macroId, .loading⟩], fresh := s.fresh + 1 }
  -- one job at a time
  | .take =>
    match s.worker, s.queue with
    | none, some (suiteId :: rest) =>
      some { s with worker := some (.loading suiteId), queue := some rest }
    | _, _ => none
  | .worker move =>
    s.worker.bind fun call => (call.advance s.fresh move).map fun left =>
      { s with worker := left, fresh := s.fresh + 1, session := call.session move s.session }
  | .inline i move =>
    s.inline[i]?.bind fun call => (call.advance s.fresh move).map fun left =>
      { s with
        inline := replaceAt s.inline i left
        fresh := s.fresh + 1
        session := call.session move s.session }
  | .direct i move =>
    s.direct[i]?.bind fun call => (call.advance move).map fun left =>
      { s with direct := replaceAt s.direct i left, session := call.session move s.session }

/-- The runs outside the worker that are in their loop over the steps. -/
def outside (s : Service) : List Nat :=
  s.inline.flatMap SuiteCall.executing ++ s.direct.flatMap MacroCall.executing

/-- The runs that are in their loop over the steps. -/
def executing (s : Service) : List Nat :=
  s.worker.toList.flatMap SuiteCall.executing ++ s.outside

/-- At most one run executes steps, and none acts on the session of another. -/
def Exclusive (s : Service) : Prop :=
  s.executing.length ≤ 1 ∧
    ∀ run ∈ s.executing, ∀ creator ∈ s.session, creator ∈ s.executing → creator = run

/-- A run outside the worker comes to its steps when no run executes any, and a run of the
worker when no run outside the worker does. -/
def Alone (s : Service) : Action → Prop
  | .worker (.run .begin) => s.outside = []
  | .inline _ (.run .begin) => s.executing = []
  | .direct _ .begin => s.executing = []
  | _ => True

/-- The service when it starts. -/
def start (queue : Option (List Text)) : Service := ⟨queue, none, [], [], 0, none⟩

theorem exclusive_iff (s : Service) : s.Exclusive ↔ s.executing.length ≤ 1 := by
  refine ⟨fun h => h.1, fun h => ⟨h, fun run hrun creator _ hcreator => ?_⟩⟩
  cases hs : s.executing with
  | nil => simp [hs] at hrun
  | cons first rest =>
    cases rest with
    | nil =>
      rw [hs, List.mem_singleton] at hrun hcreator
      rw [hrun, hcreator]
    | cons second rest => simp [hs] at h

end Service

section
variable {α β : Type} (f : α → List β)

theorem length_flatMap_replaceAt {l : List α} {i : Nat} {a : α} (h : l[i]? = some a)
    (entry : Option α) :
    ((replaceAt l i entry).flatMap f).length + (f a).length =
      (l.flatMap f).length + (entry.toList.flatMap f).length := by
  obtain ⟨hi, rfl⟩ := List.getElem?_eq_some_iff.mp h
  have hsplit : l.flatMap f = (l.take i).flatMap f ++ (f l[i] ++ (l.drop (i + 1)).flatMap f) := by
    rw [← List.flatMap_cons, ← List.flatMap_append, ← List.drop_eq_getElem_cons hi,
      List.take_append_drop]
  rw [hsplit, replaceAt]
  simp only [List.flatMap_append, List.length_append]
  omega

end

namespace MacroCall

theorem advance_begin {call : MacroCall} {left : Option MacroCall}
    (h : call.advance .begin = some left) :
    call.executing = [] ∧ (left.toList.flatMap executing).length = 1 := by
  simp only [advance] at h
  split_ifs at h with hphase
  obtain rfl := Option.some.inj h
  exact ⟨by simp [executing, hphase], rfl⟩

/-- Only its first step makes a call execute steps. -/
theorem advance_other {call : MacroCall} {left : Option MacroCall} {move : RunMove}
    (h : call.advance move = some left) (hmove : move ≠ .begin) :
    (left.toList.flatMap executing).length ≤ call.executing.length := by
  cases move with
  | begin => exact absurd rfl hmove
  | act use =>
    simp only [advance] at h
    split_ifs at h
    obtain rfl := Option.some.inj h
    simp
  | finish =>
    simp only [advance] at h
    split_ifs at h
    obtain rfl := Option.some.inj h
    exact Nat.zero_le _
  | close =>
    simp only [advance] at h
    split_ifs at h
    obtain rfl := Option.some.inj h
    exact Nat.zero_le _
  | throws =>
    simp only [advance] at h
    split_ifs at h
    obtain rfl := Option.some.inj h
    exact Nat.zero_le _

end MacroCall

namespace SuiteCall

theorem advance_run {fresh : Nat} {suite : SuiteCall} {move : RunMove} {left : Option SuiteCall}
    (h : suite.advance fresh (.run move) = some left) :
    ∃ call rest, suite = .calling call rest ∧ ∃ after, call.advance move = some after ∧
      left.toList.flatMap executing = after.toList.flatMap MacroCall.executing := by
  cases suite with
  | calling call rest =>
    refine ⟨call, rest, rfl, ?_⟩
    simp only [advance] at h
    cases hcall : call.advance move with
    | none => simp [hcall] at h
    | some after =>
      refine ⟨after, rfl, ?_⟩
      simp only [hcall] at h
      cases after with
      | none =>
        obtain rfl := Option.some.inj h
        split_ifs <;> rfl
      | some after =>
        obtain rfl := Option.some.inj h
        rfl
  | loading => simp [advance] at h
  | resetting rest => cases rest <;> simp [advance] at h
  | attaching => simp [advance] at h
  | closing => simp [advance] at h

theorem advance_begin {fresh : Nat} {suite : SuiteCall} {left : Option SuiteCall}
    (h : suite.advance fresh (.run .begin) = some left) :
    suite.executing = [] ∧ (left.toList.flatMap executing).length = 1 := by
  obtain ⟨call, rest, rfl, after, hcall, hleft⟩ := advance_run h
  rw [hleft]
  exact MacroCall.advance_begin hcall

theorem advance_other {fresh : Nat} {suite : SuiteCall} {left : Option SuiteCall}
    {move : SuiteMove} (h : suite.advance fresh move = some left) (hmove : move ≠ .run .begin) :
    (left.toList.flatMap executing).length ≤ suite.executing.length := by
  by_cases hrun : ∃ m, move = .run m
  · obtain ⟨m, rfl⟩ := hrun
    obtain ⟨call, rest, rfl, after, hcall, hleft⟩ := advance_run h
    rw [hleft]
    exact MacroCall.advance_other hcall fun hm => hmove (by rw [hm])
  · -- no other move leaves a call in its loop
    have hleft : left.toList.flatMap executing = [] := by
      revert h
      fun_cases advance fresh suite move with
      | case1 | case2 | case3 | case4 | case8 | case9 | case10 =>
        intro h
        obtain rfl := Option.some.inj h
        rfl
      | case5 call rest m | case6 call rest m | case7 call rest m => exact absurd ⟨m, rfl⟩ hrun
      | case11 => exact fun h => absurd h (by simp)
    rw [hleft]
    exact Nat.zero_le _

end SuiteCall

namespace Service

def begins : Action → Bool
  | .worker (.run .begin) => true
  | .inline _ (.run .begin) => true
  | .direct _ .begin => true
  | _ => false

theorem length_executing (s : Service) :
    s.executing.length = (s.worker.toList.flatMap SuiteCall.executing).length +
      s.outside.length := by
  rw [executing, List.length_append]

theorem length_outside (s : Service) :
    s.outside.length = (s.inline.flatMap SuiteCall.executing).length +
      (s.direct.flatMap MacroCall.executing).length := by
  rw [outside, List.length_append]

/-- A step that begins no loop leaves no more runs in theirs. -/
theorem executing_step {s t : Service} {a : Action} (h : s.step a = some t)
    (ha : begins a = false) : t.executing.length ≤ s.executing.length := by
  cases a with
  | cron suiteId =>
    obtain ⟨queue, hqueue, rfl⟩ := Option.map_eq_some_iff.mp h
    exact le_rfl
  | onDemand suiteId =>
    cases hqueue : s.queue with
    | some queue =>
      simp only [step, hqueue, Option.some.injEq] at h
      rw [← h]
      exact le_rfl
    | none =>
      simp only [step, hqueue, Option.some.injEq] at h
      rw [← h]
      simp [executing, outside, SuiteCall.executing]
  | post macroId =>
    obtain rfl := Option.some.inj h
    simp [executing, outside, MacroCall.executing]
  | take =>
    simp only [step] at h
    split at h
    · rename_i hworker hqueue
      obtain rfl := Option.some.inj h
      simp [executing, outside, hworker, SuiteCall.executing]
    · cases h
  | worker move =>
    obtain ⟨call, hcall, h⟩ := Option.bind_eq_some_iff.mp h
    obtain ⟨left, hleft, rfl⟩ := Option.map_eq_some_iff.mp h
    have hmove : move ≠ .run .begin := by
      rintro rfl
      cases ha
    have hle := SuiteCall.advance_other hleft hmove
    simp only [length_executing, length_outside, hcall, Option.toList_some,
      List.flatMap_singleton]
    omega
  | inline i move =>
    obtain ⟨call, hcall, h⟩ := Option.bind_eq_some_iff.mp h
    obtain ⟨left, hleft, rfl⟩ := Option.map_eq_some_iff.mp h
    have hmove : move ≠ .run .begin := by
      rintro rfl
      cases ha
    have hle := SuiteCall.advance_other hleft hmove
    have hreplace := length_flatMap_replaceAt SuiteCall.executing hcall left
    simp only [length_executing, length_outside]
    omega
  | direct i move =>
    obtain ⟨call, hcall, h⟩ := Option.bind_eq_some_iff.mp h
    obtain ⟨left, hleft, rfl⟩ := Option.map_eq_some_iff.mp h
    have hmove : move ≠ .begin := by
      rintro rfl
      cases ha
    have hle := MacroCall.advance_other hleft hmove
    have hreplace := length_flatMap_replaceAt MacroCall.executing hcall left
    simp only [length_executing, length_outside]
    omega

theorem executing_worker_begin {s t : Service} (h : s.step (.worker (.run .begin)) = some t) :
    t.executing.length = s.outside.length + 1 := by
  obtain ⟨call, hcall, h⟩ := Option.bind_eq_some_iff.mp h
  obtain ⟨left, hleft, rfl⟩ := Option.map_eq_some_iff.mp h
  obtain ⟨_, hone⟩ := SuiteCall.advance_begin hleft
  simp only [length_executing, length_outside, hone]
  omega

theorem executing_inline_begin {s t : Service} {i : Nat}
    (h : s.step (.inline i (.run .begin)) = some t) :
    t.executing.length = s.executing.length + 1 := by
  obtain ⟨call, hcall, h⟩ := Option.bind_eq_some_iff.mp h
  obtain ⟨left, hleft, rfl⟩ := Option.map_eq_some_iff.mp h
  obtain ⟨hbefore, hone⟩ := SuiteCall.advance_begin hleft
  have hreplace := length_flatMap_replaceAt SuiteCall.executing hcall left
  rw [hbefore, hone, List.length_nil] at hreplace
  simp only [length_executing, length_outside]
  omega

theorem executing_direct_begin {s t : Service} {i : Nat}
    (h : s.step (.direct i .begin) = some t) :
    t.executing.length = s.executing.length + 1 := by
  obtain ⟨call, hcall, h⟩ := Option.bind_eq_some_iff.mp h
  obtain ⟨left, hleft, rfl⟩ := Option.map_eq_some_iff.mp h
  obtain ⟨hbefore, hone⟩ := MacroCall.advance_begin hleft
  have hreplace := length_flatMap_replaceAt MacroCall.executing hcall left
  rw [hbefore, hone, List.length_nil] at hreplace
  simp only [length_executing, length_outside]
  omega

/-- One step keeps the runs apart exactly if it begins no loop beside another. -/
theorem exclusive_step {s t : Service} {a : Action} (hs : s.Exclusive) (h : s.step a = some t) :
    t.Exclusive ↔ s.Alone a := by
  rw [exclusive_iff] at hs ⊢
  unfold Alone
  split
  · rw [executing_worker_begin h, ← List.length_eq_zero_iff]
    omega
  · rw [executing_inline_begin h, ← List.length_eq_zero_iff]
    omega
  · rw [executing_direct_begin h, ← List.length_eq_zero_iff]
    omega
  · rename_i hworker hinline hdirect
    have hbegins : begins a = false := by
      unfold begins
      split
      · exact absurd rfl hworker
      · exact absurd rfl (hinline _)
      · exact absurd rfl (hdirect _)
      · rfl
    exact iff_of_true ((executing_step h hbegins).trans hs) trivial

theorem exclusive_start (queue : Option (List Text)) : (start queue).Exclusive :=
  (exclusive_iff _).mpr (Nat.zero_le _)

/-- Nothing is under way outside the worker. -/
def Quiet (s : Service) : Prop := s.queue.isSome = true ∧ s.inline = [] ∧ s.direct = []

theorem quiet_step {s t : Service} {a : Action} (hs : s.Quiet) (ha : ∀ macroId, a ≠ .post macroId)
    (h : s.step a = some t) : t.Quiet := by
  obtain ⟨hqueue, hinline, hdirect⟩ := hs
  obtain ⟨queue, hsome⟩ := Option.isSome_iff_exists.mp hqueue
  cases a with
  | cron suiteId =>
    simp only [step, hsome, Option.map_some, Option.some.injEq] at h
    rw [← h]
    exact ⟨rfl, hinline, hdirect⟩
  | onDemand suiteId =>
    simp only [step, hsome, Option.some.injEq] at h
    rw [← h]
    exact ⟨rfl, hinline, hdirect⟩
  | post macroId => exact absurd rfl (ha macroId)
  | take =>
    simp only [step] at h
    split at h
    · obtain rfl := Option.some.inj h
      exact ⟨rfl, hinline, hdirect⟩
    · cases h
  | worker move =>
    obtain ⟨call, hcall, h⟩ := Option.bind_eq_some_iff.mp h
    obtain ⟨left, hleft, rfl⟩ := Option.map_eq_some_iff.mp h
    exact ⟨hqueue, hinline, hdirect⟩
  | inline i move => simp [step, hinline] at h
  | direct i move => simp [step, hdirect] at h

theorem Quiet.alone {s : Service} (hs : s.Quiet) (a : Action) {t : Service}
    (h : s.step a = some t) : s.Alone a := by
  have houtside : s.outside = [] := by simp [outside, hs.2.1, hs.2.2]
  unfold Alone
  split
  · exact houtside
  · simp [step, hs.2.1] at h
  · simp [step, hs.2.2] at h
  · trivial

/-- With its queue and without macros run directly, the scheduler keeps all runs apart. -/
theorem worker_exclusive (queue : List Text) (as : List Action)
    (has : ∀ a ∈ as, ∀ macroId, a ≠ .post macroId) :
    Always step Exclusive (start (some queue)) as := by
  have hquiet : ∀ (as : List Action) (s : Service), s.Quiet →
      (∀ a ∈ as, ∀ macroId, a ≠ .post macroId) → s.Exclusive → Always step Exclusive s as := by
    intro as
    induction as with
    | nil => exact fun s _ _ hs => hs
    | cons a as ih =>
      intro s hs has hexclusive
      refine ⟨hexclusive, fun t ht => ?_⟩
      exact ih t (quiet_step hs (has a (List.mem_cons_self ..)) ht)
        (fun b hb => has b (List.mem_cons_of_mem _ hb))
        ((exclusive_step hexclusive ht).mpr (hs.alone a ht))
  exact hquiet as _ ⟨rfl, rfl, rfl⟩ has (exclusive_start _)

end Service

open Service

/-- The runs of macros are kept apart in exactly the runs of the service in which none that was
not started by the worker begins its steps beside another. -/
theorem exclusive_iff_alone (queue : Option (List Text)) (as : List Action) :
    Always step Exclusive (start queue) as ↔ Along step Alone (start queue) as := by
  refine always_iff_along (fun _ => True) (fun _ _ _ _ _ => trivial) ?_ trivial
    (exclusive_start queue)
  exact fun s a t _ hs ht => exclusive_step hs ht

/-- Two requests to run a macro run it side by side. -/
theorem direct_runs_overlap :
    (exec step (start (some [])) [.post (utf16 "m"), .post (utf16 "m"), .direct 0 .begin,
        .direct 0 (.act .creates), .direct 1 .begin]).map (fun s => (s.executing, s.session)) =
      some ([0, 1], some 0) ∧
    ¬ Always step Exclusive (start (some [])) [.post (utf16 "m"), .post (utf16 "m"),
      .direct 0 .begin, .direct 0 (.act .creates), .direct 1 .begin] := by
  refine ⟨by decide, fun h => ?_⟩
  have hlast := (exclusive_iff _).mp (h.last rfl)
  exact absurd hlast (by decide)

end AtmXfs.Suite
