import Mathlib.Data.List.Basic
import Mathlib.Data.List.Forall2

namespace Framing

abbrev Bytes := List UInt8

/-- What is asked of all bytes is decided along the list and not for each of the 256 bytes. -/
instance (priority := high) decidableBAll {p : UInt8 → Prop} [DecidablePred p] (bs : Bytes) :
    Decidable (∀ b ∈ bs, p b) := List.decidableBAll p bs

/-- Frames on a stream: a header of fixed size gives the length of the body behind it. -/
structure Format where
  header : Nat
  /-- The length that the header at the start of a buffer gives. -/
  length : Bytes → Nat
  /-- A length that the receiver refuses. -/
  oversized : Nat → Bool
  header_pos : 0 < header
  length_append : ∀ buffer chunk : Bytes, header ≤ buffer.length →
    length (buffer ++ chunk) = length buffer

structure Drained where
  bodies : List Bytes
  rest : Bytes
  closed : Bool

variable (f : Format)

/-- Take all complete frames from the start of a buffer. -/
def drain (buffer : Bytes) : Drained :=
  if f.header ≤ buffer.length then
    let len := f.length buffer
    if f.oversized len then ⟨[], buffer, true⟩
    else if buffer.length < f.header + len then ⟨[], buffer, false⟩
    else
      let later := drain (buffer.drop (f.header + len))
      { later with bodies := (buffer.drop f.header).take len :: later.bodies }
  else ⟨[], buffer, false⟩
termination_by buffer.length
decreasing_by
  have hpos := f.header_pos
  rw [List.length_drop]
  omega

/-- One end of a connection: what is buffered, what was handed over, whether it was closed. -/
structure Receiver (β : Type) where
  buffer : Bytes
  handed : List β
  closed : Bool

/-- The handler of one chunk; `text` is how a body is read. -/
def onData {β : Type} (text : Bytes → β) (r : Receiver β) (chunk : Bytes) : Receiver β :=
  let d := drain f (r.buffer ++ chunk)
  ⟨d.rest, r.handed ++ d.bodies.map text, r.closed || d.closed⟩

def receive {β : Type} (text : Bytes → β) (chunks : List Bytes) : Receiver β :=
  chunks.foldl (onData f text) ⟨[], [], false⟩

/-- One frame: a header that gives the length of the body. -/
def IsFrame (frame body : Bytes) : Prop :=
  ∃ header, frame = header ++ body ∧ header.length = f.header ∧
    f.length header = body.length ∧ f.oversized body.length = false

variable {f}

/-- A complete frame at the start of a buffer. -/
theorem drain_complete (buffer : Bytes) (hheader : f.header ≤ buffer.length)
    (hsize : f.oversized (f.length buffer) = false)
    (hbody : f.header + f.length buffer ≤ buffer.length) :
    drain f buffer =
      { drain f (buffer.drop (f.header + f.length buffer)) with
        bodies := (buffer.drop f.header).take (f.length buffer) ::
          (drain f (buffer.drop (f.header + f.length buffer))).bodies } := by
  rw [drain, if_pos hheader]
  dsimp only
  rw [if_neg (by simp [hsize]), if_neg (by omega)]

/-- Draining does not depend on where a chunk ends: what is left is drained with the next one. -/
theorem drain_append (buffer chunk : Bytes) :
    drain f (buffer ++ chunk) =
      { drain f ((drain f buffer).rest ++ chunk) with
        bodies :=
          (drain f buffer).bodies ++ (drain f ((drain f buffer).rest ++ chunk)).bodies } := by
  induction buffer using drain.induct f with
  | case1 buffer hheader len hsize =>
    have hstop : drain f buffer = ⟨[], buffer, true⟩ := by
      rw [drain, if_pos hheader]
      exact if_pos hsize
    rw [hstop]
    rfl
  | case2 buffer hheader len hsize hshort =>
    have hstop : drain f buffer = ⟨[], buffer, false⟩ := by
      rw [drain, if_pos hheader]
      exact (if_neg hsize).trans (if_pos hshort)
    rw [hstop]
    rfl
  | case3 buffer hheader len hsize hshort ih =>
    have hsize' : f.oversized (f.length buffer) = false := by simpa using hsize
    have hbody : f.header + f.length buffer ≤ buffer.length := Nat.le_of_not_lt hshort
    have hlength : (buffer ++ chunk).length = buffer.length + chunk.length := List.length_append
    have hread := f.length_append buffer chunk hheader
    have hdrop : (buffer ++ chunk).drop (f.header + f.length buffer) =
        buffer.drop (f.header + f.length buffer) ++ chunk := List.drop_append_of_le_length hbody
    have htake : ((buffer ++ chunk).drop f.header).take (f.length buffer) =
        (buffer.drop f.header).take (f.length buffer) := by
      rw [List.drop_append_of_le_length hheader, List.take_append_of_le_length]
      rw [List.length_drop]
      omega
    rw [drain_complete (buffer ++ chunk) (by omega) (by rw [hread]; exact hsize')
      (by rw [hread]; omega), hread, hdrop, htake, drain_complete buffer hheader hsize' hbody, ih]
    rfl
  | case4 buffer hshort =>
    have hstop : drain f buffer = ⟨[], buffer, false⟩ := by rw [drain, if_neg hshort]
    rw [hstop]
    rfl

/-- Nothing complete is left behind. -/
theorem drain_rest (buffer : Bytes) : (drain f (drain f buffer).rest).bodies = [] := by
  have happend := congrArg Drained.bodies (drain_append (f := f) buffer [])
  simp only [List.append_nil] at happend
  exact List.self_eq_append_right.mp happend

theorem handed_foldl {β : Type} (text : Bytes → β) (chunks : List Bytes) {r : Receiver β}
    (h : (drain f r.buffer).bodies = []) :
    (chunks.foldl (onData f text) r).handed =
      r.handed ++ (drain f (r.buffer ++ chunks.flatten)).bodies.map text := by
  induction chunks generalizing r with
  | nil => simp [h]
  | cons chunk chunks ih =>
    have hnext : (drain f (onData f text r chunk).buffer).bodies = [] := drain_rest _
    rw [List.foldl_cons, ih hnext, List.flatten_cons, ← List.append_assoc r.buffer,
      drain_append (r.buffer ++ chunk)]
    simp [onData]

/-- What is handed over depends on the stream alone. -/
theorem handed_receive {β : Type} (text : Bytes → β) (chunks : List Bytes) :
    (receive f text chunks).handed = (drain f chunks.flatten).bodies.map text := by
  have hempty : (drain f []).bodies = [] := by
    have hpos := f.header_pos
    rw [drain, if_neg (by simp; omega)]
  rw [receive, handed_foldl text chunks hempty]
  simp

theorem drain_frame {frame body : Bytes} (h : IsFrame f frame body) (rest : Bytes) :
    drain f (frame ++ rest) = { drain f rest with bodies := body :: (drain f rest).bodies } := by
  obtain ⟨header, rfl, hheader, hlength, hsize⟩ := h
  have hread : f.length (header ++ body ++ rest) = body.length := by
    rw [List.append_assoc, f.length_append header _ (by omega), hlength]
  have htotal : (header ++ body ++ rest).length = f.header + body.length + rest.length := by
    simp [hheader]
    omega
  have hdrop : (header ++ body ++ rest).drop (f.header + body.length) = rest := by
    rw [← hheader, ← List.length_append, List.drop_left]
  have htake : ((header ++ body ++ rest).drop f.header).take body.length = body := by
    rw [List.append_assoc, ← hheader, List.drop_left, List.take_left]
  rw [drain_complete _ (by omega) (by rw [hread]; exact hsize) (by rw [hread]; omega), hread,
    hdrop, htake]

/-- A stream of frames is drained to its bodies, and nothing is left. -/
theorem drain_frames {frames bodies : List Bytes} (h : List.Forall₂ (IsFrame f) frames bodies) :
    (drain f frames.flatten).bodies = bodies := by
  induction h with
  | nil =>
    have hpos := f.header_pos
    rw [List.flatten_nil, drain, if_neg (by simp; omega)]
  | cons hframe _ ih => rw [List.flatten_cons, drain_frame hframe, ih]

/-- What was handed over of the start of a stream stays handed over. -/
theorem drain_prefix (buffer chunk : Bytes) :
    (drain f buffer).bodies <+: (drain f (buffer ++ chunk)).bodies := by
  rw [drain_append]
  exact List.prefix_append ..

variable (f) in
/-- A header that gives the length of its body, whether the receiver takes it or not. -/
def Carries (frame body : Bytes) : Prop :=
  ∃ header, frame = header ++ body ∧ header.length = f.header ∧ f.length header = body.length

theorem Carries.isFrame {frame body : Bytes} (h : Carries f frame body)
    (hsize : f.oversized body.length = false) : IsFrame f frame body := by
  obtain ⟨header, hframe, hheader, hlength⟩ := h
  exact ⟨header, hframe, hheader, hlength, hsize⟩

theorem drain_oversized {frame body : Bytes} (h : Carries f frame body)
    (hsize : f.oversized body.length = true) (rest : Bytes) :
    (drain f (frame ++ rest)).bodies = [] := by
  obtain ⟨header, rfl, hheader, hlength⟩ := h
  have hread : f.length (header ++ body ++ rest) = body.length := by
    rw [List.append_assoc, f.length_append header _ (by omega), hlength]
  have hlong : f.header ≤ (header ++ body ++ rest).length := by
    simp only [List.length_append]
    omega
  rw [drain, if_pos hlong]
  dsimp only
  rw [hread, if_pos hsize]

/-- A stream of frames is drained up to the first one that the receiver refuses. -/
theorem drain_stream {frames bodies : List Bytes} (h : List.Forall₂ (Carries f) frames bodies) :
    (drain f frames.flatten).bodies = bodies.takeWhile fun body => !f.oversized body.length := by
  induction h with
  | nil =>
    have hpos := f.header_pos
    rw [List.flatten_nil, drain, if_neg (by simp; omega)]
    rfl
  | @cons frame body frames bodies hframe _ ih =>
    rw [List.flatten_cons]
    cases hsize : f.oversized body.length with
    | true => rw [drain_oversized hframe hsize, List.takeWhile_cons_of_neg (by simp [hsize])]
    | false =>
      rw [drain_frame (hframe.isFrame hsize), List.takeWhile_cons_of_pos (by simp [hsize]), ih]

end Framing
