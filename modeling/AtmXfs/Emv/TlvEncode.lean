import AtmXfs.Emv.Apdu
import AtmXfs.Emv.TlvTiling

namespace AtmXfs.Emv

open Js

def encodeLength (length : Nat) : Except CodecError (List UInt8) :=
  if length < 0x80 then .ok [length.toUInt8]
  else if length < 0x100 then .ok [0x81, length.toUInt8]
  else if length < 0x10000 then
    .ok [0x82, (length >>> 8 &&& 0xff).toUInt8, (length &&& 0xff).toUInt8]
  else .error (.tlvLength length)

def encodeTlv (tagHex : Text) (value : List UInt8) : Except CodecError (List UInt8) := do
  let tagBytes ← hexToBytes tagHex
  let lengthBytes ← encodeLength value.length
  return tagBytes ++ lengthBytes ++ value

/-- `encodeTlv` of a value in hex. -/
def encodeTlvHex (tagHex valueHex : Text) : Except CodecError (List UInt8) := do
  encodeTlv tagHex (← hexToBytes valueHex)

def encodeTemplate (tagHex : Text) (children : List (List UInt8)) :
    Except CodecError (List UInt8) := encodeTlv tagHex children.flatten

/-- A tag field whose constructed bit is as given. -/
abbrev Tag (constructed : Bool) :=
  { bytes : List UInt8 // IsTag bytes ∧ constructedTag bytes = constructed }

def Tag.hex {constructed : Bool} (tag : Tag constructed) : String := bytesToHex tag.val

/-- What a caller of the encoder has in mind. -/
inductive TlvTree where
  | primitive (tag : Tag false) (value : List UInt8)
  | template (tag : Tag true) (children : List TlvTree)

namespace TlvTree

mutual

def encode : TlvTree → Except CodecError (List UInt8)
  | primitive tag value => encodeTlv (utf16 tag.hex) value
  | template tag children => do encodeTemplate (utf16 tag.hex) (← encodeAll children)

def encodeAll : List TlvTree → Except CodecError (List (List UInt8))
  | [] => .ok []
  | tree :: trees => do
    let part ← encode tree
    let parts ← encodeAll trees
    return part :: parts

end

/-- The encodings of the trees one behind the other. -/
def content (trees : List TlvTree) : List UInt8 := ((encodeAll trees).toOption.getD []).flatten

mutual

/-- Every value fits the two length bytes of the encoder. -/
def Fits : TlvTree → Prop
  | primitive _ value => value.length ≤ 65535
  | template _ children => FitsAll children ∧ (content children).length ≤ 65535

def FitsAll : List TlvTree → Prop
  | [] => True
  | tree :: trees => Fits tree ∧ FitsAll trees

end

mutual

/-- The tree as the decoder returns it. -/
def node : TlvTree → TlvNode
  | primitive tag value => .mk tag.hex value.length value [] false
  | template tag children =>
    .mk tag.hex (content children).length (content children) (nodes children) true

def nodes : List TlvTree → List TlvNode
  | [] => []
  | tree :: trees => node tree :: nodes trees

end

end TlvTree

theorem toNat_byte {n : Nat} (h : n < 256) : n.toUInt8.toNat = n := UInt8.toNat_ofNat_of_lt' h

theorem and_low_byte (n : Nat) : n &&& 0xff = n % 256 := Nat.and_two_pow_sub_one_eq_mod n 8

/-- The encoder's length field stands for the length, in the shortest of its three forms. -/
theorem encodeLength_declared {length : Nat} (h : length ≤ 65535) :
    ∃ bytes, encodeLength length = .ok bytes ∧ declaredLength bytes = some length := by
  unfold encodeLength
  split_ifs with hone htwo hthree
  · refine ⟨_, rfl, ?_⟩
    have hbyte : length.toUInt8.toNat = length := toNat_byte (by omega)
    have hshort : length.toUInt8 < 0x80 := by
      rw [UInt8.lt_iff_toNat_lt, hbyte]
      exact hone
    simp only [declaredLength, hshort, if_true, hbyte]
  · refine ⟨_, rfl, ?_⟩
    have hbyte : length.toUInt8.toNat = length := toNat_byte (by omega)
    have hnumber : beNat [length.toUInt8] = length := by simp [beNat, hbyte]
    rw [declaredLength, if_neg (by decide), if_pos ⟨rfl, by simp, by simp⟩, hnumber]
  · refine ⟨_, rfl, ?_⟩
    have hlow : (length &&& 0xff).toUInt8.toNat = length % 256 := by
      rw [and_low_byte, toNat_byte (by omega)]
    have hhigh : (length >>> 8 &&& 0xff).toUInt8.toNat = length / 256 := by
      rw [and_low_byte, Nat.shiftRight_eq_div_pow, toNat_byte (by omega)]
      omega
    have hnumber : beNat [(length >>> 8 &&& 0xff).toUInt8, (length &&& 0xff).toUInt8] =
        length := by
      simp only [beNat, List.foldl_cons, List.foldl_nil, hlow, hhigh]
      omega
    rw [declaredLength, if_neg (by decide), if_pos ⟨by simp, by simp, by simp⟩, hnumber]
  · omega

/-- What `encodeTlv` writes for a tag and a value that fits. -/
theorem encodeTlv_eq {constructed : Bool} (tag : Tag constructed) {value : List UInt8}
    (h : value.length ≤ 65535) : ∃ lenBytes, declaredLength lenBytes = some value.length ∧
      encodeTlv (utf16 tag.hex) value = .ok (tag.val ++ lenBytes ++ value) := by
  obtain ⟨lenBytes, hlength, hdecl⟩ := encodeLength_declared h
  refine ⟨lenBytes, hdecl, ?_⟩
  rw [encodeTlv, Tag.hex, hexToBytes_bytesToHex, hlength]
  rfl

/-- One turn of the decoder's loop over what `encodeTlv` wrote, whatever stands around it. -/
theorem readElement_encodeTlv {constructed : Bool} (tag : Tag constructed)
    {value lenBytes : List UInt8} (hdecl : declaredLength lenBytes = some value.length)
    (h : value.length ≤ 65535) (pre post : List UInt8) :
    readElement (pre ++ (tag.val ++ lenBytes ++ value) ++ post) pre.length = .ok
      { tag := tag.hex, length := value.length, value := value, isConstructed := constructed
        next := (pre ++ (tag.val ++ lenBytes ++ value)).length } := by
  have hdrop : (pre ++ (tag.val ++ lenBytes ++ value) ++ post).drop pre.length =
      tag.val ++ lenBytes ++ value ++ post := by
    rw [List.append_assoc, List.drop_left]
  rw [readElement_of_fields tag.property.1 hdecl (by omega) hdrop, tag.property.2, Tag.hex,
    ← List.length_append]

namespace TlvTree

/-- The element is read from the encoding of a tree, and its children are those of the tree. -/
def ReadsAs (tree : TlvTree) (part : List UInt8) : Prop :=
  part ≠ [] ∧ ∀ pre post, ∃ el fuel children,
    readElement (pre ++ part ++ post) pre.length = .ok el ∧
      el.next = (pre ++ part).length ∧ childrenOf fuel el = some (.ok children) ∧
      nodeOf el children = tree.node

theorem ok_bind {α β ε : Type} (a : α) (f : α → Except ε β) : (Except.ok a >>= f) = f a := rfl

theorem encode_template {tag : Tag true} {children : List TlvTree} {parts : List (List UInt8)}
    (h : encodeAll children = .ok parts) :
    (template tag children).encode = encodeTlv (utf16 tag.hex) parts.flatten := by
  rw [encode, h, ok_bind, encodeTemplate]

theorem append_ne_nil (tag : Tag b) (xs ys : List UInt8) : tag.val ++ xs ++ ys ≠ [] := by
  obtain ⟨bytes, htag, -⟩ := tag
  cases bytes with
  | nil => exact htag.elim
  | cons b bytes => simp

mutual

theorem encode_reads : ∀ tree : TlvTree, tree.Fits →
    ∃ part, tree.encode = .ok part ∧ tree.ReadsAs part
  | primitive tag value, h => by
    obtain ⟨lenBytes, hdecl, hencode⟩ := encodeTlv_eq tag h
    refine ⟨_, hencode, append_ne_nil tag _ _, fun pre post => ?_⟩
    have hread := readElement_encodeTlv tag hdecl h pre post
    exact ⟨_, 0, [], hread, rfl, childrenOf_primitive rfl, rfl⟩
  | template tag children, h => by
    obtain ⟨hchildren, hlength⟩ := h
    obtain ⟨parts, hparts, hreturns⟩ := encodeAll_returns children hchildren
    have hcontent : content children = parts.flatten := by
      rw [content, hparts]
      rfl
    obtain ⟨lenBytes, hdecl, hencode⟩ := encodeTlv_eq tag hlength
    rw [hcontent] at hlength hdecl hencode
    rw [← encode_template hparts] at hencode
    refine ⟨_, hencode, append_ne_nil tag _ _, fun pre post => ?_⟩
    have hread := readElement_encodeTlv tag hdecl hlength pre post
    obtain ⟨fuel, hdecode⟩ := hreturns []
    refine ⟨_, fuel, nodes children, hread, rfl, ?_, ?_⟩
    · rw [childrenOf_constructed rfl]
      exact hdecode
    · rw [node, hcontent]
      rfl

theorem encodeAll_returns : ∀ trees : List TlvTree, FitsAll trees →
    ∃ parts, encodeAll trees = .ok parts ∧
      ∀ pre, Returns (pre ++ parts.flatten) pre.length (nodes trees)
  | [], _ => ⟨[], rfl, fun pre => ⟨1, decodeFrom_done 0 (by simp)⟩⟩
  | tree :: trees, h => by
    obtain ⟨part, hpart, hne, hreads⟩ := encode_reads tree h.1
    obtain ⟨parts, hparts, hreturns⟩ := encodeAll_returns trees h.2
    refine ⟨part :: parts, by rw [encodeAll, hpart, hparts]; rfl, fun pre => ?_⟩
    obtain ⟨el, m, children, hel, hnext, hchildren, hnode⟩ := hreads pre parts.flatten
    obtain ⟨n, hrest⟩ := hreturns (pre ++ part)
    rw [← hnext] at hrest
    have hpos : 0 < part.length := List.length_pos_iff.mpr hne
    have hbefore : pre.length < (pre ++ part ++ parts.flatten).length := by
      rw [List.length_append, List.length_append]
      omega
    refine ⟨max m n + 1, ?_⟩
    rw [List.flatten_cons, ← List.append_assoc, decodeFrom_element _ (Int.ofNat_lt.mpr hbefore) hel,
      childrenOf_mono (Nat.le_max_left m n) hchildren, decodeFrom_mono (Nat.le_max_right m n) hrest]
    show some (Except.ok (nodeOf el children :: nodes trees)) = _
    rw [hnode, nodes]

end

end TlvTree

/-- The decoder returns the forest that was encoded. -/
theorem decodeTlv_encodeAll (forest : List TlvTree) (h : TlvTree.FitsAll forest) :
    ∃ parts fuel, TlvTree.encodeAll forest = .ok parts ∧
      decodeTlv fuel parts.flatten = some (.ok (TlvTree.nodes forest)) := by
  obtain ⟨parts, hparts, hreturns⟩ := TlvTree.encodeAll_returns forest h
  obtain ⟨fuel, hdecode⟩ := hreturns []
  exact ⟨parts, fuel, hparts, hdecode⟩

theorem isTag_single {b : UInt8} (hb : b &&& 0x1f ≠ 0x1f) : IsTag [b] := by
  rw [IsTag, if_neg hb]

theorem isTag_pair {b c : UInt8} (hb : b &&& 0x1f = 0x1f) (hc : c &&& 0x80 ≠ 0x80) :
    IsTag [b, c] := by
  rw [IsTag, if_pos hb]
  exact ⟨[], c, rfl, by simp, hc⟩

def tag70 : Tag true := ⟨[0x70], isTag_single (by decide), rfl⟩
def tag5A : Tag false := ⟨[0x5a], isTag_single (by decide), rfl⟩
def tag5F24 : Tag false := ⟨[0x5f, 0x24], isTag_pair (by decide) (by decide), rfl⟩

/-- A record template with a card number and an expiry date, the latter behind a two-byte tag. -/
def sampleForest : List TlvTree :=
  [.template tag70 [.primitive tag5A [0x45, 0x80], .primitive tag5F24 [0x28, 0x12, 0x00]]]

theorem decodeTlv_sampleForest : ∃ parts fuel, TlvTree.encodeAll sampleForest = .ok parts ∧
    decodeTlv fuel parts.flatten = some (.ok (TlvTree.nodes sampleForest)) :=
  decodeTlv_encodeAll sampleForest
    ⟨⟨⟨show 2 ≤ 65535 by decide, show 3 ≤ 65535 by decide, trivial⟩, by decide +kernel⟩, trivial⟩

end AtmXfs.Emv
