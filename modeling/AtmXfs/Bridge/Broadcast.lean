import AtmXfs.Bridge.Correlation
import AtmXfs.Bridge.Frames
import AtmXfs.Dll.Routing
import AtmXfs.Lib.Observers

namespace AtmXfs.Bridge

open Js JsonText Dll Runs
open Framing (Bytes Format Carries drain)

/-- The frames as `reader_loop` takes them from its socket; it gives up on any other length. -/
def readerFormat : Format :=
  { bridgeFormat with oversized := fun len => len = 0 || len > 1000000 }

/-- A frame that the server writes to a client: an event, or a response or pong of its own. -/
inductive Outgoing where
  | event (f : EventFrame)
  | answer (f : ServerFrame) (h : f.type.bytes ≠ ascii "event")

namespace Outgoing

def body : Outgoing → Bytes
  | event f => f.body
  | answer f _ => f.body

def event? : Outgoing → Option EventFrame
  | event f => some f
  | answer _ _ => none

/-- The reader of the client does not give up on it. -/
def fits (o : Outgoing) : Bool := o.body.length ≤ 1000000

end Outgoing

/-- The events among the bodies that a reader takes from a stream. -/
def eventsIn (stream : Bytes) : List Bytes :=
  (drain readerFormat stream).bodies.filter fun body =>
    findField body (ascii "type") = ascii "event"

theorem eventsIn_nil : eventsIn [] = [] := by
  rw [eventsIn, drain, if_neg (show ¬ readerFormat.header ≤ ([] : Bytes).length by decide)]
  rfl

/-- The connection of a client: whether it is in `clients`, what was written to it, how much of that
its reader has taken, whether `on_event` is set, the events that were handed to it, and the ones
that came before it was set. -/
structure Socket where
  listed : Bool
  wire : Bytes
  arrived : Nat
  handler : Bool
  heard : List Bytes
  dropped : List Bytes

/-- `connect` starts the reader; the handler is set afterwards. -/
def Socket.opened : Socket := ⟨true, [], 0, false, [], []⟩

/-- A socket that has closed takes nothing. -/
def Socket.sendFrame (k : Socket) (body : Bytes) : Socket :=
  if k.listed then { k with wire := k.wire ++ ((Bridge.sendFrame body).getD []) } else k

/-- The reader takes `n` bytes more; the events that end in them go to the handler, if there is
one. -/
def Socket.receive (k : Socket) (n : Nat) : Socket :=
  let before := eventsIn (k.wire.take k.arrived)
  let events := (eventsIn (k.wire.take (k.arrived + n))).drop before.length
  if k.handler then { k with arrived := k.arrived + n, heard := k.heard ++ events }
  else { k with arrived := k.arrived + n, dropped := k.dropped ++ events }

/-- The sockets of the server, of clients `C`. -/
abbrev ZxfsBridge (C : Type) := C → Option Socket

inductive ZxfsAction (C : Type) where
  | connect (c : C)
  | disconnect (c : C)
  | moduleDestroy
  | xfsEvent (f : EventFrame)
  | answer (c : C) (f : ServerFrame) (h : f.type.bytes ≠ ascii "event")
  | onEvent (c : C)
  | arrive (c : C) (n : Nat)

variable {C : Type} [DecidableEq C]

/-- No text in Node is so long that its length does not fit into the header. -/
def zxfsStep (s : ZxfsBridge C) : ZxfsAction C → Option (ZxfsBridge C)
  | .connect c =>
    match s c with
    | none => some (Function.update s c (some .opened))
    | some _ => none
  | .disconnect c => (s c).map fun k => Function.update s c (some { k with listed := false })
  | .moduleDestroy => some fun c => (s c).map fun k => { k with listed := false }
  | .xfsEvent f =>
    if f.body.length < 2 ^ 32 then some fun c => (s c).map fun k => k.sendFrame f.body else none
  | .answer c f _ =>
    if f.body.length < 2 ^ 32 then
      (s c).map fun k => Function.update s c (some (k.sendFrame f.body))
    else none
  | .onEvent c => (s c).map fun k => Function.update s c (some { k with handler := true })
  | .arrive c n =>
    match s c with
    | none => none
    | some k =>
      if k.arrived + n ≤ k.wire.length then some (Function.update s c (some (k.receive n)))
      else none

/-- Whether the client is connected, and the frames that it was due so far. -/
def follow (c : C) (o : Bool × List Outgoing) : ZxfsAction C → Bool × List Outgoing
  | .connect c' => (o.1 || c' = c, o.2)
  | .disconnect c' => (o.1 && c' ≠ c, o.2)
  | .moduleDestroy => (false, o.2)
  | .xfsEvent f => (o.1, if o.1 then o.2 ++ [.event f] else o.2)
  | .answer c' f h => (o.1, if o.1 && c' = c then o.2 ++ [.answer f h] else o.2)
  | .onEvent _ => o
  | .arrive _ _ => o

/-- The frames of the time that the client was connected, in order. -/
def sentTo (c : C) (as : List (ZxfsAction C)) : List Outgoing :=
  (as.foldl (follow c) (false, [])).2

/-- The events of the time that the client was connected, in order, up to the first frame that is
too long for its reader. -/
def eventsFor (c : C) (as : List (ZxfsAction C)) : List EventFrame :=
  ((sentTo c as).takeWhile Outgoing.fits).filterMap Outgoing.event?

/-- The socket carries the frames that its client was due, and the events of what has arrived were
handed on or dropped. -/
structure Carrying (k : Socket) (o : Bool × List Outgoing) : Prop where
  listed : k.listed = o.1
  within : k.arrived ≤ k.wire.length
  unheard : k.handler = false → k.heard = []
  taken : k.dropped ++ k.heard = eventsIn (k.wire.take k.arrived)
  frames : ∃ frames, List.Forall₂ (Carries readerFormat) frames (o.2.map Outgoing.body) ∧
    k.wire = frames.flatten

/-- Where the client stands. -/
def InStep (c : C) (s : ZxfsBridge C) (o : Bool × List Outgoing) : Prop :=
  match s c with
  | none => o = (false, [])
  | some k => Carrying k o

theorem carries_sendFrame {body frame : Bytes} (h : sendFrame body = some frame) :
    Carries readerFormat frame body := by
  obtain ⟨header, hwrite, rfl⟩ := Option.map_eq_some_iff.mp h
  obtain ⟨hheader, hread⟩ := readUInt32LE_writeUInt32LE hwrite
  exact ⟨header, rfl, hheader, hread⟩

theorem Carrying.sendFrame {k : Socket} {o : Bool × List Outgoing} (h : Carrying k o)
    (out : Outgoing) (hsize : out.body.length < 2 ^ 32) :
    Carrying (k.sendFrame out.body) (o.1, if o.1 then o.2 ++ [out] else o.2) := by
  obtain ⟨frames, hframes, hwire⟩ := h.frames
  cases hlisted : o.1 with
  | false =>
    have hk : k.listed = false := h.listed.trans hlisted
    rw [Socket.sendFrame, hk]
    exact ⟨hk, h.within, h.unheard, h.taken, frames, by simpa using hframes, by simpa using hwire⟩
  | true =>
    have hk : k.listed = true := h.listed.trans hlisted
    have hsent := implFrame_eq_sendFrame hsize
    rw [Socket.sendFrame, hk, if_pos rfl, hsent]
    refine ⟨rfl, ?_, h.unheard, ?_, frames ++ [implFrame out.body], ?_, ?_⟩
    · simp only [List.length_append]
      have := h.within
      omega
    · rw [List.take_append_of_le_length h.within]
      exact h.taken
    · rw [if_pos rfl, List.map_append]
      exact List.rel_append hframes (.cons (carries_sendFrame hsent) .nil)
    · rw [List.flatten_append, ← hwire]
      simp

theorem Carrying.receive {k : Socket} {o : Bool × List Outgoing} (h : Carrying k o) {n : Nat}
    (hn : k.arrived + n ≤ k.wire.length) : Carrying (k.receive n) o := by
  obtain ⟨events, hevents⟩ : eventsIn (k.wire.take k.arrived) <+:
      eventsIn (k.wire.take (k.arrived + n)) := by
    have hprefix := Framing.drain_prefix (f := readerFormat) (k.wire.take k.arrived)
      ((k.wire.drop k.arrived).take n)
    rw [← List.take_add] at hprefix
    exact hprefix.filter _
  simp only [Socket.receive, ← hevents, List.drop_left]
  cases hhandler : k.handler with
  | true =>
    refine ⟨h.listed, hn, fun hno => ?_, ?_, h.frames⟩
    · cases hno
    · show k.dropped ++ (k.heard ++ events) = eventsIn (k.wire.take (k.arrived + n))
      rw [← hevents, ← h.taken, List.append_assoc]
  | false =>
    have hsilent := h.unheard hhandler
    have htaken := h.taken
    rw [hsilent, List.append_nil] at htaken
    refine ⟨h.listed, hn, fun _ => hsilent, ?_, h.frames⟩
    show k.dropped ++ events ++ k.heard = eventsIn (k.wire.take (k.arrived + n))
    rw [← hevents, hsilent, List.append_nil, htaken]

theorem inStep_update {c c' : C} {s : ZxfsBridge C} {k k' : Socket} {o o' : Bool × List Outgoing}
    (hs : InStep c s o) (hk : s c' = some k) (hself : c' = c → Carrying k o → Carrying k' o')
    (hother : c' ≠ c → o' = o) : InStep c (Function.update s c' (some k')) o' := by
  unfold InStep at hs ⊢
  by_cases hc : c' = c
  · subst hc
    rw [hk] at hs
    rw [Function.update_self]
    exact hself rfl hs
  · rw [Function.update_of_ne (Ne.symm hc), hother hc]
    exact hs

omit [DecidableEq C] in
theorem inStep_map {c : C} {s : ZxfsBridge C} {g : Socket → Socket} {o o' : Bool × List Outgoing}
    (hs : InStep c s o) (hnone : o = (false, []) → o' = (false, []))
    (hsome : ∀ k, Carrying k o → Carrying (g k) o') : InStep c (fun c => (s c).map g) o' := by
  unfold InStep at hs ⊢
  cases hsocket : s c with
  | none =>
    rw [hsocket] at hs
    simp only [hsocket, Option.map_none]
    exact hnone hs
  | some k =>
    rw [hsocket] at hs
    simp only [hsocket, Option.map_some]
    exact hsome k hs

theorem inStep_step {c : C} {s t : ZxfsBridge C} {a : ZxfsAction C} {o : Bool × List Outgoing}
    (hs : InStep c s o) (ht : zxfsStep s a = some t) : InStep c t (follow c o a) := by
  cases a with
  | connect c' =>
    cases hsocket : s c' with
    | some k => simp [zxfsStep, hsocket] at ht
    | none =>
      simp only [zxfsStep, hsocket, Option.some.injEq] at ht
      subst ht
      unfold InStep at hs ⊢
      by_cases hc : c' = c
      · subst hc
        rw [hsocket] at hs
        rw [Function.update_self, hs]
        exact ⟨by simp [follow, Socket.opened], Nat.le_refl 0, fun _ => rfl, eventsIn_nil.symm,
          [], .nil, rfl⟩
      · rw [Function.update_of_ne (Ne.symm hc)]
        simpa [follow, hc] using hs
  | disconnect c' =>
    obtain ⟨k, hk, rfl⟩ := Option.map_eq_some_iff.mp ht
    refine inStep_update hs hk (fun hc h => ?_) fun hc => ?_
    · exact ⟨by simp [follow, hc], h.within, h.unheard, h.taken, h.frames⟩
    · simp [follow, hc]
  | moduleDestroy =>
    cases ht
    refine inStep_map hs (fun ho => ?_) fun k h =>
      ⟨rfl, h.within, h.unheard, h.taken, h.frames⟩
    rw [ho]
    rfl
  | xfsEvent f =>
    simp only [zxfsStep] at ht
    split_ifs at ht with hsize
    cases ht
    refine inStep_map hs (fun ho => ?_) fun k h => h.sendFrame (.event f) hsize
    rw [ho]
    rfl
  | answer c' f hf =>
    simp only [zxfsStep] at ht
    split_ifs at ht with hsize
    obtain ⟨k, hk, rfl⟩ := Option.map_eq_some_iff.mp ht
    refine inStep_update hs hk (fun hc h => ?_) fun hc => ?_
    · have hsent := h.sendFrame (.answer f hf) hsize
      simp only [follow, hc, decide_true, Bool.and_true]
      exact hsent
    · simp [follow, hc]
  | onEvent c' =>
    obtain ⟨k, hk, rfl⟩ := Option.map_eq_some_iff.mp ht
    refine inStep_update hs hk (fun _ h => ?_) fun _ => rfl
    exact ⟨h.listed, h.within, fun hno => absurd hno.symm Bool.false_ne_true, h.taken, h.frames⟩
  | arrive c' n =>
    cases hsocket : s c' with
    | none => simp [zxfsStep, hsocket] at ht
    | some k =>
      simp only [zxfsStep, hsocket] at ht
      split_ifs at ht with hn
      cases ht
      exact inStep_update hs hsocket (fun _ h => h.receive hn) fun _ => rfl

theorem findField_frameHead (type id ts : PlainText) (rest : Bytes) :
    findField (frameHead type id ts ++ rest) (ascii "type") = type.bytes := by
  have hfound : afterFirst typeName.searched (frameHead type id ts ++ rest) =
      some (0x22 :: (type.bytes ++ 0x22 :: (0x2c :: (textMember idName id ++
        textMember tsName ts ++ rest)))) := by
    rw [frameHead, List.cons_append, List.append_assoc, afterFirst_other (by decide),
      afterFirst_textMember_found]
    simp [PlainText.quoted]
  exact findField_found type.noQuote hfound

/-- The client takes the events for events, and nothing else. -/
theorem heard_bodies (sent : List Outgoing) :
    (sent.map Outgoing.body).filter
        (fun body => findField body (ascii "type") = ascii "event") =
      (sent.filterMap Outgoing.event?).map EventFrame.body := by
  induction sent with
  | nil => rfl
  | cons out sent ih =>
    cases out with
    | event f =>
      have htype : findField f.body (ascii "type") = ascii "event" := findField_frameHead ..
      rw [List.map_cons, List.filter_cons_of_pos (by simp [Outgoing.body, htype]), ih]
      rfl
    | answer f hf =>
      have htype : findField f.body (ascii "type") ≠ ascii "event" := by
        rw [f.findField_type]
        exact hf
      rw [List.map_cons, List.filter_cons_of_neg (by simp [Outgoing.body, htype]), ih]
      rfl

theorem body_ne_nil (out : Outgoing) : out.body ≠ [] := by
  cases out with
  | event f =>
    intro h
    cases h
  | answer f hf =>
    intro h
    cases h

theorem fits_eq (out : Outgoing) :
    (!readerFormat.oversized out.body.length) = out.fits := by
  have hpos : out.body.length ≠ 0 := by simpa using body_ne_nil out
  simp only [readerFormat, Outgoing.fits, hpos, decide_false, Bool.false_or, gt_iff_lt]
  rw [← decide_not]
  simp only [Nat.not_lt]

/-- The events of all that was written to a client. -/
theorem heard_whole {k : Socket} {o : Bool × List Outgoing} (h : Carrying k o) :
    eventsIn k.wire =
      ((o.2.takeWhile Outgoing.fits).filterMap Outgoing.event?).map EventFrame.body := by
  obtain ⟨frames, hframes, hwire⟩ := h.frames
  have hfits : (fun body => !readerFormat.oversized body.length) ∘ Outgoing.body =
      Outgoing.fits := funext fits_eq
  rw [eventsIn, hwire, Framing.drain_stream hframes, List.takeWhile_map, hfits, heard_bodies]

/-- In every run of the bridge, however its stream is cut, the events that were broadcast while a
client was connected go to its event handler in order and each once, but for those that its reader
takes before the handler is set: a first part of them at any time, and all of them when nothing is
on the way. Only a frame of more than a million bytes makes it deaf to what follows. -/
theorem broadcast_heard {as : List (ZxfsAction C)} {s : ZxfsBridge C}
    (hrun : exec zxfsStep (fun _ => none) as = some s) {c : C} {k : Socket} (hk : s c = some k) :
    k.dropped ++ k.heard <+: (eventsFor c as).map EventFrame.body ∧
      (k.arrived = k.wire.length →
        k.dropped ++ k.heard = (eventsFor c as).map EventFrame.body) := by
  have hstart : InStep c (fun _ => none) (false, []) := rfl
  have hend : InStep c s (as.foldl (follow c) (false, [])) :=
    followed_of_exec (follow c) (fun _ _ _ _ hs ht => inStep_step hs ht) hstart hrun
  unfold InStep at hend
  rw [hk] at hend
  have hwhole := heard_whole hend
  rw [hend.taken, eventsFor, sentTo, ← hwhole]
  constructor
  · have hprefix := Framing.drain_prefix (f := readerFormat) (k.wire.take k.arrived)
      (k.wire.drop k.arrived)
    rw [List.take_append_drop] at hprefix
    exact hprefix.filter _
  · intro hall
    rw [hall, List.take_length]

/-- One client whose handler is set between two events, and all that was written received. -/
def twoEvents : List (ZxfsAction Nat) :=
  [.connect 0, .xfsEvent cardInserted, .arrive 0 (4 + cardInserted.body.length), .onEvent 0,
    .xfsEvent cardInserted, .arrive 0 (4 + cardInserted.body.length)]

theorem broadcast_heard_twoEvents :
    ∃ s k, exec zxfsStep (fun _ => none) twoEvents = some s ∧ s 0 = some k ∧
      k.dropped = [cardInserted.body] ∧ k.heard = [cardInserted.body] := by
  have hran : (exec zxfsStep (fun _ => none) twoEvents).any (fun s =>
      (s 0).any fun k => k.arrived = k.wire.length ∧ k.dropped.length = 1) = true := by
    decide +kernel
  obtain ⟨s, hrun, hsocket⟩ := Option.any_eq_true _ _ |>.mp hran
  obtain ⟨k, hk, hends⟩ := Option.any_eq_true _ _ |>.mp hsocket
  obtain ⟨hall, hone⟩ := of_decide_eq_true hends
  have hevents : eventsFor 0 twoEvents = [cardInserted, cardInserted] := by
    have hfits : (Outgoing.event cardInserted).fits = true := by decide +kernel
    simp [eventsFor, sentTo, twoEvents, follow, hfits, Outgoing.event?]
  have hheard := (broadcast_heard hrun hk).2 hall
  rw [hevents] at hheard
  obtain ⟨hdropped, hhanded⟩ := List.append_inj hheard
    (show k.dropped.length = [cardInserted.body].length from hone)
  exact ⟨s, k, hrun, hk, hdropped, hhanded⟩

end AtmXfs.Bridge
