import AtmXfs.Lib.Framing
import Mathlib.Algebra.Group.Nat.Defs
import Mathlib.Data.List.GetD

namespace AtmXfs.Bridge

open Framing

def readUInt32LE (buffer : Bytes) : Nat :=
  (buffer.getD 0 0).toNat + (buffer.getD 1 0).toNat * 2 ^ 8 + (buffer.getD 2 0).toNat * 2 ^ 16 +
    (buffer.getD 3 0).toNat * 2 ^ 24

def readUInt16BE (buffer : Bytes) : Nat :=
  (buffer.getD 0 0).toNat * 2 ^ 8 + (buffer.getD 1 0).toNat

/-- `none` stands for the RangeError. -/
def writeUInt32LE (n : Nat) : Option Bytes :=
  if n < 2 ^ 32 then
    some [(n % 2 ^ 8).toUInt8, (n / 2 ^ 8 % 2 ^ 8).toUInt8, (n / 2 ^ 16 % 2 ^ 8).toUInt8,
      (n / 2 ^ 24 % 2 ^ 8).toUInt8]
  else none

def writeUInt16BE (n : Nat) : Option Bytes :=
  if n < 2 ^ 16 then some [(n / 2 ^ 8 % 2 ^ 8).toUInt8, (n % 2 ^ 8).toUInt8] else none

/-- What `sendFrame` writes for a body. -/
def sendFrame (body : Bytes) : Option Bytes := (writeUInt32LE body.length).map (· ++ body)

/-- `BridgeClient::Impl::frame`. -/
def implFrame (body : Bytes) : Bytes :=
  let len := body.length % 2 ^ 32
  [(len &&& 0xFF).toUInt8, ((len >>> 8) &&& 0xFF).toUInt8, ((len >>> 16) &&& 0xFF).toUInt8,
    ((len >>> 24) &&& 0xFF).toUInt8] ++ body

/-- The frames of the ISO 8583 TCP transport. -/
def isoFrame (body : Bytes) : Option Bytes := (writeUInt16BE body.length).map (· ++ body)

def bridgeFormat : Format where
  header := 4
  length := readUInt32LE
  oversized len := len > 1000000
  header_pos := by decide
  length_append := by
    intro buffer chunk hheader
    have hbyte (i : Nat) (hi : i < 4) : (buffer ++ chunk).getD i 0 = buffer.getD i 0 :=
      List.getD_append _ _ _ _ (by omega)
    simp only [readUInt32LE, hbyte 0 (by omega), hbyte 1 (by omega), hbyte 2 (by omega),
      hbyte 3 (by omega)]

def isoFormat : Format where
  header := 2
  length := readUInt16BE
  oversized _ := false
  header_pos := by decide
  length_append := by
    intro buffer chunk hheader
    have hbyte (i : Nat) (hi : i < 2) : (buffer ++ chunk).getD i 0 = buffer.getD i 0 :=
      List.getD_append _ _ _ _ (by omega)
    simp only [readUInt16BE, hbyte 0 (by omega), hbyte 1 (by omega)]

section

variable {β : Type}

/-- The `data` events of one ZXFS connection; `utf8` stands for `toString('utf8')`. -/
def handleClient (utf8 : Bytes → β) (chunks : List Bytes) : Receiver β :=
  receive bridgeFormat utf8 chunks

/-- The `data` events of one ISO 8583 connection; `ascii` stands for `toString('ascii')`. -/
def handleSocket (ascii : Bytes → β) (chunks : List Bytes) : Receiver β :=
  receive isoFormat ascii chunks

end

theorem toNat_byte (n : Nat) : (n % 2 ^ 8).toUInt8.toNat = n % 2 ^ 8 := by
  simp

theorem readUInt32LE_writeUInt32LE {n : Nat} {header : Bytes} (h : writeUInt32LE n = some header) :
    header.length = 4 ∧ readUInt32LE header = n := by
  unfold writeUInt32LE at h
  split_ifs at h with hn
  cases h
  refine ⟨rfl, ?_⟩
  have hread : readUInt32LE [(n % 2 ^ 8).toUInt8, (n / 2 ^ 8 % 2 ^ 8).toUInt8,
      (n / 2 ^ 16 % 2 ^ 8).toUInt8, (n / 2 ^ 24 % 2 ^ 8).toUInt8] =
      (n % 2 ^ 8).toUInt8.toNat + (n / 2 ^ 8 % 2 ^ 8).toUInt8.toNat * 2 ^ 8 +
        (n / 2 ^ 16 % 2 ^ 8).toUInt8.toNat * 2 ^ 16 +
        (n / 2 ^ 24 % 2 ^ 8).toUInt8.toNat * 2 ^ 24 := rfl
  rw [hread, toNat_byte, toNat_byte, toNat_byte, toNat_byte]
  omega

theorem readUInt16BE_writeUInt16BE {n : Nat} {header : Bytes} (h : writeUInt16BE n = some header) :
    header.length = 2 ∧ readUInt16BE header = n := by
  unfold writeUInt16BE at h
  split_ifs at h with hn
  cases h
  refine ⟨rfl, ?_⟩
  have hread : readUInt16BE [(n / 2 ^ 8 % 2 ^ 8).toUInt8, (n % 2 ^ 8).toUInt8] =
      (n / 2 ^ 8 % 2 ^ 8).toUInt8.toNat * 2 ^ 8 + (n % 2 ^ 8).toUInt8.toNat := rfl
  rw [hread, toNat_byte, toNat_byte]
  omega

/-- The DLL and the server write the same frames. -/
theorem implFrame_eq_sendFrame {body : Bytes} (h : body.length < 2 ^ 32) :
    sendFrame body = some (implFrame body) := by
  have hmask (n : Nat) : n &&& 0xFF = n % 2 ^ 8 := Nat.and_two_pow_sub_one_eq_mod n 8
  rw [sendFrame, writeUInt32LE, if_pos h, implFrame]
  simp only [hmask, Nat.shiftRight_eq_div_pow, Nat.mod_eq_of_lt h]
  rfl

theorem isFrame_sendFrame {body frame : Bytes} (hbody : body.length ≤ 1000000)
    (h : sendFrame body = some frame) : IsFrame bridgeFormat frame body := by
  obtain ⟨header, hwrite, rfl⟩ := Option.map_eq_some_iff.mp h
  obtain ⟨hheader, hread⟩ := readUInt32LE_writeUInt32LE hwrite
  exact ⟨header, rfl, hheader, hread, decide_eq_false (by omega)⟩

theorem isFrame_implFrame {body : Bytes} (h : body.length ≤ 1000000) :
    IsFrame bridgeFormat (implFrame body) body :=
  isFrame_sendFrame h (implFrame_eq_sendFrame (by omega))

/-- However the stream of a client is cut, the server takes its bodies out of it. -/
theorem handed_implFrames {β : Type} (utf8 : Bytes → β) {bodies chunks : List Bytes}
    (hsize : ∀ body ∈ bodies, body.length ≤ 1000000)
    (hstream : chunks.flatten = (bodies.map implFrame).flatten) :
    (handleClient utf8 chunks).handed = bodies.map utf8 := by
  have hall : List.Forall₂ (IsFrame bridgeFormat) (bodies.map implFrame) bodies :=
    List.forall₂_map_left_iff.mpr (List.forall₂_same.mpr fun body hbody =>
      isFrame_implFrame (hsize body hbody))
  rw [handleClient, handed_receive, hstream, drain_frames hall]

theorem isFrame_isoFrame {body frame : Bytes} (h : isoFrame body = some frame) :
    IsFrame isoFormat frame body := by
  obtain ⟨header, hwrite, rfl⟩ := Option.map_eq_some_iff.mp h
  obtain ⟨hheader, hread⟩ := readUInt16BE_writeUInt16BE hwrite
  exact ⟨header, rfl, hheader, hread, rfl⟩

/-- On both connections: the bodies handed over depend on the stream alone, and for a stream of
frames they are the bodies of these frames, in order, each once. -/
theorem bodies_handed_over {β γ : Type} (utf8 : Bytes → β) (ascii : Bytes → γ) :
    (∀ chunks chunks' : List Bytes, chunks.flatten = chunks'.flatten →
      (handleClient utf8 chunks).handed = (handleClient utf8 chunks').handed ∧
      (handleSocket ascii chunks).handed = (handleSocket ascii chunks').handed) ∧
    (∀ frames bodies chunks : List Bytes, (∀ body ∈ bodies, body.length ≤ 1000000) →
      List.Forall₂ (fun frame body => sendFrame body = some frame ∨ implFrame body = frame)
        frames bodies →
      chunks.flatten = frames.flatten → (handleClient utf8 chunks).handed = bodies.map utf8) ∧
    (∀ frames bodies chunks : List Bytes, (∀ body ∈ bodies, body.length ≤ 65535) →
      List.Forall₂ (fun frame body => isoFrame body = some frame) frames bodies →
      chunks.flatten = frames.flatten → (handleSocket ascii chunks).handed = bodies.map ascii) := by
  refine ⟨fun chunks chunks' hstream => ?_, fun frames bodies chunks hsize hframes hstream => ?_,
    fun frames bodies chunks _ hframes hstream => ?_⟩
  · simp only [handleClient, handleSocket, handed_receive, hstream, and_self]
  · have hall : List.Forall₂ (IsFrame bridgeFormat) frames bodies := by
      refine ((List.forall₂_and_left bodies frames).mpr ⟨hsize, hframes.flip⟩).flip.imp ?_
      intro frame body ⟨hbody, hframe⟩
      rcases hframe with hframe | rfl
      · exact isFrame_sendFrame hbody hframe
      · exact isFrame_implFrame hbody
    rw [handleClient, handed_receive, hstream, drain_frames hall]
  · have hall : List.Forall₂ (IsFrame isoFormat) frames bodies :=
      hframes.imp fun _ _ hframe => isFrame_isoFrame hframe
    rw [handleSocket, handed_receive, hstream, drain_frames hall]

/-- Two frames of each format, cut within a header and within a body. -/
theorem bodies_handed_over_cut :
    (handleClient id [[1, 0], [0, 0, 104, 2, 0, 0, 0, 105], [106]]).handed =
        [[104], [105, 106]] ∧
      (handleSocket id [[0], [1, 104, 0, 2, 105], [106]]).handed = [[104], [105, 106]] := by
  have hframes := (bodies_handed_over (β := Bytes) (γ := Bytes) id id).2
  exact ⟨hframes.1 [[1, 0, 0, 0, 104], [2, 0, 0, 0, 105, 106]] [[104], [105, 106]] _ (by decide)
      (.cons (.inl rfl) (.cons (.inr rfl) .nil)) rfl,
    hframes.2 [[0, 1, 104], [0, 2, 105, 106]] [[104], [105, 106]] _ (by decide)
      (.cons rfl (.cons rfl .nil)) rfl⟩

end AtmXfs.Bridge
