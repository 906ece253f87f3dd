import AtmXfs.Atm.Session

namespace AtmXfs

open Js Host Pin

/-- The states that only a verified PIN opens. -/
def AtmState.unlocked : AtmState → Bool
  | pinVerified | mainMenu | amountEntry | confirm => true
  | _ => false

/-- The await belongs to a withdrawal that the host was asked for. -/
def Cont.wid? : Cont → Option Nat
  | .authorized w => some w.wid
  | .dispensed a _ => some a.w.wid
  | _ => none

/-- The session keeps its state, its card and that it has an amount. -/
def Mild (f : AtmSession → AtmSession) : Prop := ∀ x : AtmSession,
  (f x).state = x.state ∧ (f x).cardPan = x.cardPan ∧
    (x.amount.isSome = true → (f x).amount.isSome = true)

/-- What a property may leave out of its steady moves: the begin of sessions, the states that a
session moves on to, the end of sessions and the card reader. -/
structure Scope where
  inserts : Bool
  moves : Bool
  ends : Bool
  cards : Bool

/-- The handler that awaits this goes on within the scope; it checks no PIN and serves no
withdrawal. -/
def Cont.plain (scope : Scope) : Cont → Bool
  | .pinVerified _ _ _ => false
  | .authorized _ => false
  | .dispensed _ _ => false
  | .inserted _ _ => scope.cards
  | .authenticated _ _ => scope.moves
  | .balanceRead => scope.moves
  | .receiptPrinted => scope.moves
  | .cardRetained _ => scope.ends
  | .retainMarked _ => scope.ends
  | .ejected _ => scope.ends
  | .ended _ _ => scope.ends
  | _ => true

/-- An await that no property treats on its own. -/
def Cont.quiet : Cont → Bool
  | .pinVerified _ _ _ => false
  | .authorized _ => false
  | .dispensed _ _ => false
  | .ended _ _ => false
  | _ => true

/-- The command of the await runs at its device within the scope. -/
def Cont.runs (scope : Scope) : Cont → Bool
  | .authorized _ => false
  | .dispensed _ _ => false
  | .cardRetained _ => scope.cards
  | .ejected _ => scope.cards
  | .ended _ _ => scope.ends
  | _ => true

/-- The command takes the card out of the reader. -/
def Cont.takesCard : Cont → Bool
  | .cardRetained _ => true
  | .ejected _ => true
  | _ => false

theorem Cont.runs_of_takesCard {scope : Scope} {cont : Cont} (h : cont.takesCard = true) :
    cont.runs scope = scope.cards := by
  cases cont with
  | cardRetained reason => rfl
  | ejected reason => rfl
  | _ => cases h

/-- The step needs no PIN, serves no withdrawal and stays within the scope. -/
def AtmStep.plain (scope : Scope) (s : Atm) : AtmStep → Bool
  | .selectTransaction _ => false
  | .submitAmount _ => false
  | .confirmTransaction => false
  | .onCardInserted _ => scope.inserts
  | .writeRow _ => scope.ends
  | .executeCommand i _ => (s.tasks i).all fun task => task.cont.runs scope
  | .resume i _ => (s.tasks i).all fun task => task.cont.plain scope
  | _ => true

namespace Atm

/-- The moves that the handlers are made of keep `P`. -/
structure Steady (scope : Scope) (P : Atm → Prop) : Prop where
  onCardInserted : ∀ s pan, scope.inserts = true → P s → P (s.onCardInserted pan)
  modify : ∀ s f, Mild f → P s → P (s.modify f)
  setAccount : ∀ s sid accountId, P s → P (s.setAccount sid accountId)
  toError : ∀ s, P s → P (s.transitionTo .error)
  transitionTo : ∀ s next, scope.moves = true → next.unlocked = false → P s →
    P (s.transitionTo next)
  notifyState : ∀ s, P s → P s.notifyState
  suspend : ∀ s cont phase, cont.quiet = true → P s → P (s.suspend cont phase)
  askPin : ∀ s sid entered, s.session = some sid → P s →
    P (s.suspend (.pinVerified sid (s.sessions sid).cardPan entered) .pending)
  drop : ∀ s i cont phase, s.tasks i = some ⟨cont, phase⟩ → cont.plain scope = true → P s →
    P (s.setTask i none)
  advance : ∀ s i cont phase phase', s.tasks i = some ⟨cont, phase⟩ → cont.runs scope = true →
    P s → P (s.setTask i (some ⟨cont, phase'⟩))
  clearIdleTimer : ∀ s, P s → P s.clearIdleTimer
  endSession : ∀ s reason, scope.ends = true → P s → P (s.endSession reason)
  rowEnded : ∀ s sid reason, scope.ends = true → P s → P (s.record (.rowEnded sid reason))
  afterEnded : ∀ s sid reason, scope.ends = true → P s → P (s.afterEnded sid reason)
  reader : ∀ s card, scope.cards = true → P s → P { s with card }
  pad : ∀ s pin, P s → P { s with pin }

/-- The PIN pad is asked, or the device has answered: nothing else has changed, a DISPENSE is seen
outside, or the card has left the reader. -/
theorem executeCommand_cases {s t : Atm} {i : Nat} {injected : Option String}
    (ht : s.executeCommand i injected = some t) : ∃ cont, s.tasks i = some ⟨cont, .issued⟩ ∧
      (cont = .pinEntered ∧ t = (s.setTask i (some ⟨.pinEntered, .entered⟩)).usePad
          (s.pin.executeCommand (.getPin pinEntrySpec) (some i) injected) ∨
        cont ≠ .pinEntered ∧ ∃ v error, t = v.setTask i (some ⟨cont, .replied error⟩) ∧
          (v = s ∧ (cont.takesCard = true → injected.isSome = true) ∨
            (∃ a amount, cont = .dispensed a amount ∧ v = s.record (.dispensed a.w.wid amount)) ∨
            cont.takesCard = true ∧ v = { s with card := none })) := by
  unfold executeCommand at ht
  split at ht
  · next cont htask =>
    refine ⟨cont, htask, ?_⟩
    split at ht <;> cases ht
    · exact .inl ⟨rfl, rfl⟩
    · next detail hpin => exact .inr ⟨hpin, s, _, rfl, .inl ⟨rfl, fun _ => rfl⟩⟩
    · exact .inr ⟨nofun, s, _, rfl, .inl ⟨rfl, nofun⟩⟩
    · next a amount => exact .inr ⟨nofun, _, _, rfl, .inr (.inl ⟨a, amount, rfl, rfl⟩)⟩
    · exact .inr ⟨nofun, _, _, rfl, .inr (.inr ⟨rfl, rfl⟩)⟩
    · exact .inr ⟨nofun, _, _, rfl, .inr (.inr ⟨rfl, rfl⟩)⟩
    · next hpin _ _ hretained hejected =>
      have htakes : cont.takesCard = false := by
        cases cont with
        | cardRetained reason => exact (hretained reason rfl).elim
        | ejected reason => exact (hejected reason rfl).elim
        | _ => rfl
      exact .inr ⟨hpin, s, _, rfl, .inl ⟨rfl, fun h => absurd (htakes.symm.trans h) nofun⟩⟩
  · cases ht

/-- The command of a withdrawal moves its task on; a DISPENSE that succeeds is seen outside. -/
theorem executeCommand_withdrawal {s t : Atm} {i : Nat} {injected : Option String}
    {task : Suspension} (htask : s.tasks i = some task)
    (hruns : task.cont.runs ⟨true, true, true, true⟩ = false)
    (ht : s.executeCommand i injected = some t) : ∃ phase,
      t = s.setTask i (some ⟨task.cont, phase⟩) ∨ ∃ wid amount,
        t = (s.record (.dispensed wid amount)).setTask i (some ⟨task.cont, phase⟩) := by
  obtain ⟨cont, hi, ⟨hpin, -⟩ | ⟨-, v, error, rfl, hv⟩⟩ := executeCommand_cases ht
  · cases hi.symm.trans htask
    rw [hpin] at hruns
    cases hruns
  · cases hi.symm.trans htask
    rcases hv with ⟨rfl, -⟩ | ⟨a, amount, -, rfl⟩ | ⟨htakes, -⟩
    · exact ⟨_, .inl rfl⟩
    · exact ⟨_, .inr ⟨_, _, rfl⟩⟩
    · exact absurd hruns (by simp [Cont.runs_of_takesCard htakes])

/-- The PIN pad answers tasks that await it, and changes nothing else. -/
theorem usePad_keeps {P : Atm → Prop} (hpad : ∀ s pin, P s → P { s with pin })
    (hanswer : ∀ s i phase, s.tasks i = some ⟨.pinEntered, .entered⟩ → P s →
      P (s.setTask i (some ⟨.pinEntered, phase⟩)))
    {s : Atm} (after : Pad (Option Nat) × Pin.Settled (Option Nat)) (h : P s) :
    P (s.usePad after) := by
  have hone : ∀ (u : Atm) (settled : Option Nat × Except String Pin.Answer), P u →
      P (u.answer settled) := by
    intro u settled hu
    unfold Atm.answer
    split
    · exact hu
    · split
      · next htask =>
        split
        · exact hanswer u _ _ htask hu
        · exact hanswer u _ _ htask hu
      · exact hu
  have hall : ∀ (settled : Pin.Settled (Option Nat)) (u : Atm), P u →
      P (settled.foldl Atm.answer u) := by
    intro settled
    induction settled with
    | nil => exact fun u hu => hu
    | cons first rest ih => exact fun u hu => ih _ (hone u first hu)
  exact hall after.2 _ (hpad s after.1 h)

namespace Steady

variable {scope : Scope} {P : Atm → Prop} {s t : Atm}

theorem safeEject (hP : Steady scope P) (reason : EndReason) (h : P s) : P (s.safeEject reason) :=
  hP.suspend s _ _ rfl h

theorem failSession (hP : Steady scope P) (msg : String) (reason : EndReason) (h : P s) :
    P (s.failSession msg reason) := by
  unfold Atm.failSession
  split
  · exact h
  · apply hP.safeEject
    apply hP.toError
    exact hP.modify s _ (fun _ => ⟨rfl, rfl, id⟩) h

theorem markError (hP : Steady scope P) (msg : String) (h : P s) : P (s.markError msg) :=
  hP.failSession msg .error h

theorem retainCard (hP : Steady scope P) (reason : String) (h : P s) :
    P (s.retainCard reason) := by
  unfold Atm.retainCard
  split
  · exact h
  · exact hP.suspend s _ _ rfl h

theorem beginPinEntry (hP : Steady scope P) (h : P s) : P s.beginPinEntry := by
  unfold Atm.beginPinEntry
  split
  · exact hP.suspend s _ _ rfl h
  · exact h

theorem verifyPinBuffer (hP : Steady scope P) (h : P s) : P s.verifyPinBuffer := by
  have hextracted : P s.extractEnteredPin := hP.pad s _ h
  unfold Atm.verifyPinBuffer
  split
  · exact h
  · next sid hsid =>
    split
    · exact hextracted
    · exact hP.askPin s.extractEnteredPin sid _ hsid hextracted

theorem cancelTransaction (hP : Steady scope P) (h : P s) : P s.cancelTransaction := by
  unfold Atm.cancelTransaction
  split
  · exact h
  · exact hP.safeEject _ h

theorem usePad (hP : Steady scope P) (after : Pad (Option Nat) × Pin.Settled (Option Nat))
    (h : P s) : P (s.usePad after) :=
  usePad_keeps hP.pad (fun u i phase htask => hP.advance u i _ _ phase htask rfl) after h

theorem afterInserted (hP : Steady scope P) (sid : Nat) (pan : String)
    (hcards : scope.cards = true) (h : P s) : P (s.afterInserted sid pan) := by
  have hnotified := hP.notifyState s h
  unfold Atm.afterInserted
  split
  · exact hP.markError _ hnotified
  · apply hP.suspend _ _ _ rfl
    exact hP.reader _ (some sid) hcards hnotified

theorem afterTrackRead (hP : Steady scope P) (sid : Nat) (pan : String) (error : Option String)
    (h : P s) : P (s.afterTrackRead sid pan error) := by
  cases error with
  | none => exact hP.suspend s _ _ rfl h
  | some detail => exact hP.markError _ h

theorem afterAuthenticate (hP : Steady scope P) (sid : Nat) (r : AuthResult)
    (hmoves : scope.moves = true) (h : P s) : P (s.afterAuthenticate sid r) := by
  unfold Atm.afterAuthenticate
  split
  · apply hP.transitionTo _ _ hmoves rfl
    exact hP.setAccount s _ _ h
  · exact hP.markError _ h

theorem afterDispense (hP : Steady scope P) (hmoves : scope.moves = true) (h : P s) :
    P s.afterDispense := by
  have hprinting := hP.transitionTo s .printing hmoves rfl h
  unfold Atm.afterDispense
  split
  · exact hP.suspend _ _ _ rfl hprinting
  · exact hprinting

theorem afterBalance (hP : Steady scope P) (responseCode : String) (hmoves : scope.moves = true)
    (h : P s) : P (s.afterBalance responseCode) := by
  unfold Atm.afterBalance
  split
  · split
    · exact h
    · apply hP.suspend _ _ _ rfl
      exact hP.transitionTo s _ hmoves rfl h
  · exact hP.markError _ h

theorem afterReceipt (hP : Steady scope P) (hmoves : scope.moves = true) (h : P s) :
    P s.afterReceipt :=
  hP.safeEject _ (hP.transitionTo s _ hmoves rfl h)

theorem afterRetain (hP : Steady scope P) (reason : String) (h : P s) :
    P (s.afterRetain reason) := by
  unfold Atm.afterRetain
  split
  · exact h
  · exact hP.suspend s _ _ rfl h

theorem afterRetainMarked (hP : Steady scope P) (reason : String) (hends : scope.ends = true)
    (h : P s) : P (s.afterRetainMarked reason) := by
  unfold Atm.afterRetainMarked
  split
  · exact h
  · apply hP.endSession _ _ hends
    apply hP.toError
    exact hP.modify s _ (fun _ => ⟨rfl, rfl, id⟩) h

/-- A handler that goes on within the scope. -/
theorem continueWith (hP : Steady scope P) {cont : Cont} {phase : Phase} {reply : Reply}
    (hplain : cont.plain scope = true) (h : P s)
    (ht : s.continueWith cont phase reply = some t) : P t := by
  unfold Atm.continueWith at ht
  split at ht
  · cases ht; exact hP.afterInserted _ _ hplain h
  · cases ht; exact hP.afterTrackRead _ _ _ h
  · cases ht; exact hP.afterAuthenticate _ _ hplain h
  · cases ht; exact hP.verifyPinBuffer h
  · cases hplain
  · cases hplain
  · cases hplain
  · cases hplain
  · cases ht; exact hP.markError _ h
  · cases ht; exact hP.afterReceipt hplain h
  · cases ht; exact hP.afterBalance _ hplain h
  · cases ht; exact hP.afterRetain _ h
  · cases ht; exact hP.afterRetainMarked _ hplain h
  · cases ht; exact hP.endSession s _ hplain h
  · cases ht; exact hP.endSession s _ hplain h
  · cases ht; exact hP.afterEnded s _ _ hplain h
  · cases ht
  · cases ht
  · cases ht; exact h
  · cases ht; exact h
  · cases ht

/-- A device that executes a command within the scope. -/
theorem executeCommand (hP : Steady scope P) {i : Nat} {injected : Option String}
    {task : Suspension} (htask : s.tasks i = some task) (hruns : task.cont.runs scope = true)
    (h : P s) (ht : s.executeCommand i injected = some t) : P t := by
  have hmove : ∀ (u : Atm) (phase : Phase), u.tasks i = some task → P u →
      P (u.setTask i (some ⟨task.cont, phase⟩)) := fun u phase hu hPu =>
    hP.advance u i task.cont task.phase phase hu hruns hPu
  obtain ⟨cont, hi, ⟨rfl, rfl⟩ | ⟨-, v, error, rfl, hv⟩⟩ := Atm.executeCommand_cases ht
  · cases hi.symm.trans htask
    exact hP.usePad _ (hmove s _ htask h)
  · cases hi.symm.trans htask
    rcases hv with ⟨rfl, -⟩ | ⟨a, amount, rfl, -⟩ | ⟨htakes, rfl⟩
    · exact hmove _ _ htask h
    · cases hruns
    · rw [Cont.runs_of_takesCard htakes] at hruns
      exact hmove _ _ htask (hP.reader s none hruns h)

theorem writeRow (hP : Steady scope P) {i : Nat} (hends : scope.ends = true) (h : P s)
    (ht : s.writeRow i = some t) : P t := by
  obtain ⟨sid, reason, htask, rfl⟩ := Atm.writeRow_ended ht
  have hwritten := hP.rowEnded s sid reason hends h
  exact hP.advance (s.record (.rowEnded sid reason)) i _ _ _ htask hends hwritten

/-- What the moves keep, a step within the scope keeps. -/
theorem step (hP : Steady scope P) {accountOf : String → String} {a : AtmStep}
    (hplain : a.plain scope s = true) (h : P s) (ht : atmStep accountOf s a = some t) : P t := by
  cases a with
  | onCardInserted pan => cases ht; exact hP.onCardInserted s pan hplain h
  | beginPinEntry => cases ht; exact hP.beginPinEntry h
  | verifyPinBuffer => cases ht; exact hP.verifyPinBuffer h
  | selectTransaction txn => cases hplain
  | submitAmount amount => cases hplain
  | confirmTransaction => cases hplain
  | cancelTransaction => cases ht; exact hP.cancelTransaction h
  | pressKey key => cases ht; exact hP.usePad _ h
  | entryTimeout handle =>
    obtain ⟨after, -, rfl⟩ := Option.map_eq_some_iff.mp ht
    exact hP.usePad after h
  | pinCommand command injected => cases ht; exact hP.usePad _ h
  | idleTimeout =>
    have hclear := hP.clearIdleTimer s h
    obtain ⟨sid, -, ⟨-, rfl⟩ | ⟨-, rfl⟩⟩ := idleTimeout_cases ht
    · exact hP.failSession _ _ hclear
    · exact hclear
  | executeCommand i injected =>
    obtain ⟨cont, htask⟩ := Atm.executeCommand_issued ht
    simp only [AtmStep.plain, htask, Option.all_some] at hplain
    exact hP.executeCommand htask hplain h ht
  | writeRow i => exact hP.writeRow hplain h ht
  | resume i reply =>
    obtain ⟨cont, phase, htask, -, hcont⟩ := resume_cases ht
    simp only [AtmStep.plain, htask, Option.all_some] at hplain
    have hgone : P (s.setTask i none) := hP.drop s i cont phase htask hplain h
    exact hP.continueWith hplain hgone hcont

end Steady

end Atm

end AtmXfs
