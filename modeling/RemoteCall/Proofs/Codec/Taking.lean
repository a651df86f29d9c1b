import RemoteCall.Proofs.Codec.Accepting
import RemoteCall.Proofs.Codec.Classes

/-!
# Decoders take spellings

A decoder takes bytes from slots of one kind to slots of another when, in front of any input, it
uses exactly these bytes, gives the meant datum and leaves slots of the other kind. As for the
readers of the wire, taking composes along sequencing; what is new is the slots between the steps.
-/

namespace RemoteCall

namespace Decoder

/-- A reader of the wire changes nothing but the input that is left. -/
theorem wire_of_eq_ok {r : Reader α} {input rest : List UInt8} {a : α}
    {slots : List DecodeSlot} {read : Nat} (h : r input = .ok (a, rest)) :
    wire r ⟨input, slots, read⟩ = .ok a ⟨rest, slots, read⟩ := by
  unfold wire
  rw [h]

/-- A reference of the right class gives the complete instance of its slot. -/
theorem referenced_of_slot {classId position : Nat} {input : List UInt8}
    {slots : List DecodeSlot} {read : Nat} {v : Value}
    (h : slots[position]? = some ⟨classId, some v⟩) :
    referenced classId position ⟨input, slots, read⟩ = .ok v ⟨input, slots, read⟩ := by
  unfold referenced
  have hget : (get : Decoder DecodeState) ⟨input, slots, read⟩ =
      .ok ⟨input, slots, read⟩ ⟨input, slots, read⟩ := rfl
  rw [bind_of_ok hget]
  dsimp only
  rw [h]
  dsimp only
  rw [if_neg (fun hne => hne rfl)]
  rfl

/-- From slots of the first kind, the decoder takes exactly these bytes from the front of any input,
gives the datum and leaves slots of the second kind. -/
def Takes (P : List DecodeSlot → Prop) (d : Decoder α) (bytes : List UInt8) (a : α)
    (Q : List DecodeSlot → Prop) : Prop :=
  ∀ slots rest read, P slots → ∃ slots' read', Q slots' ∧
    d ⟨bytes ++ rest, slots, read⟩ = .ok a ⟨rest, slots', read'⟩

namespace Takes

variable {P Q R : List DecodeSlot → Prop} {front bytes : List UInt8}

/-- Decoders in sequence take their spellings in sequence. -/
theorem bind {d : Decoder α} {f : α → Decoder β} {a : α} {b : β}
    (hd : Takes P d front a Q) (hf : Takes Q (f a) bytes b R) :
    Takes P (d >>= f) (front ++ bytes) b R := by
  intro slots rest read hP
  obtain ⟨slots₁, read₁, hQ, h₁⟩ := hd slots (bytes ++ rest) read hP
  obtain ⟨slots₂, read₂, hR, h₂⟩ := hf slots₁ rest read₁ hQ
  refine ⟨slots₂, read₂, hR, ?_⟩
  rw [List.append_assoc, bind_of_ok h₁, h₂]

/-- A result that is known is read from nothing. -/
theorem pure (a : α) : Takes P (Pure.pure a : Decoder α) [] a P :=
  fun slots _ read hP => ⟨slots, read, hP, rfl⟩

/-- A check that succeeds reads nothing. -/
theorem known {x : Except CodecError α} {a : α} (hx : x = .ok a) :
    Takes P (Decoder.known x) [] a P := by
  subst hx
  exact fun slots _ read hP => ⟨slots, read, hP, rfl⟩

/-- Counting reads nothing. -/
theorem counted (v : Value) : Takes P (Decoder.counted v) [] v P :=
  fun slots _ read hP => ⟨slots, read + 1, hP, rfl⟩

/-- A reader of the wire touches no instance. -/
theorem wire {r : Reader α} {a : α} (hr : r.Takes bytes a) :
    Takes P (Decoder.wire r) bytes a P :=
  fun slots rest read hP => ⟨slots, read, hP, wire_of_eq_ok (hr rest)⟩

/-- A last step that reads nothing leaves the bytes as they are. -/
theorem andThen {d : Decoder α} {f : α → Decoder β} {a : α} {b : β}
    (hd : Takes P d bytes a Q) (hf : Takes Q (f a) [] b R) : Takes P (d >>= f) bytes b R := by
  have h := hd.bind hf
  rwa [List.append_nil] at h

/-- A first step that reads nothing leaves the bytes as they are. -/
theorem after {d : Decoder α} {f : α → Decoder β} {a : α} {b : β}
    (hd : Takes P d [] a Q) (hf : Takes Q (f a) bytes b R) : Takes P (d >>= f) bytes b R :=
  hd.bind hf

/-- A first byte is read on its own. -/
theorem cons {r : Reader α} {f : α → Decoder β} {a : α} {b : β} {first : UInt8}
    (hr : r.Takes [first] a) (hf : Takes P (f a) bytes b Q) :
    Takes P (Decoder.wire r >>= f) (first :: bytes) b Q :=
  (wire hr).bind hf

/-- A datum that is only rewrapped is read from the same bytes. -/
theorem map {d : Decoder α} {a : α} (f : α → β) (hd : Takes P d bytes a Q) :
    Takes P (f <$> d) bytes (f a) Q := by
  rw [← bind_pure_comp]
  exact hd.andThen (.pure _)

/-- A count is accepted in front of at least as many elements of the least size. -/
theorem count {least n : Nat} {f : Nat → Decoder β} {b : β} (hn : n < UInt64.size)
    (hfit : n * max least 1 ≤ bytes.length) (hf : Takes P (f n) bytes b Q) :
    Takes P (Decoder.wire (Sized.readCount least) >>= f) (Varint.encode n ++ bytes) b Q := by
  intro slots rest read hP
  obtain ⟨slots₁, read₁, hQ, h₁⟩ := hf slots rest read hP
  refine ⟨slots₁, read₁, hQ, ?_⟩
  have hlen : n * max least 1 ≤ (bytes ++ rest).length := by
    rw [List.length_append]
    omega
  have hw : Decoder.wire (Sized.readCount least)
      ⟨Varint.encode n ++ (bytes ++ rest), slots, read⟩ = .ok n ⟨bytes ++ rest, slots, read⟩ :=
    wire_of_eq_ok (Sized.readCount_encode hn hlen)
  rw [List.append_assoc, bind_of_ok hw, h₁]

/-- Slots of a narrower kind will do. -/
theorem narrow {P' : List DecodeSlot → Prop} {d : Decoder α} {a : α} (hd : Takes P d bytes a Q)
    (h : ∀ slots, P' slots → P slots) : Takes P' d bytes a Q :=
  fun slots rest read hP => hd slots rest read (h slots hP)

section Bodies

variable {s : CodecSettings} {fresh : Nat → Nat → Decoder Value} {classId : Nat}
  {kind : ValueKind} {v : Value}

/-- A value that keeps no identity is read where it stands. -/
theorem plain (hkind : ValueKind.ofClassId s.registry classId = .ok kind)
    (hnot : kind ≠ .comparator) (htracked : kind.isTracked = false)
    (hf : Takes P (fresh 0 classId) bytes v Q) : Takes P (bodyWith s fresh classId) bytes v Q := by
  refine after (.known hkind) ?_
  rw [if_neg hnot, htracked, Bool.not_false, if_pos rfl]
  exact hf.andThen (.counted v)

/-- A reference gives the complete instance of its slot. -/
theorem again (hkind : ValueKind.ofClassId s.registry classId = .ok kind)
    (htracked : kind.isTracked = true) {position : Nat} (hlt : position + 1 < UInt32.size)
    (hslot : ∀ slots, P slots → slots[position]? = some ⟨classId, some v⟩) :
    Takes P (bodyWith s fresh classId) (Varint.encode (position + 1)) v P := by
  have hnot : kind ≠ .comparator := by
    rintro rfl
    cases htracked
  refine after (.known hkind) ?_
  rw [if_neg hnot, htracked, Bool.not_true, if_neg (by decide)]
  refine (wire (Varint.read32_takes hlt)).andThen ?_
  rw [if_pos (Nat.succ_ne_zero position)]
  refine andThen (Q := P) (a := v) (fun slots rest read hP => ?_) (.counted v)
  exact ⟨slots, read, hP, referenced_of_slot (hslot slots hP)⟩

/-- An instance that begins is read into a slot of its own. -/
theorem first (hkind : ValueKind.ofClassId s.registry classId = .ok kind)
    (htracked : kind.isTracked = true)
    (hf : ∀ slots, P slots → ∃ Q₁ : List DecodeSlot → Prop,
      Takes (· = slots ++ [⟨classId, none⟩]) (fresh slots.length classId) bytes v Q₁ ∧
      ∀ slots', Q₁ slots' → Q (slots'.set slots.length ⟨classId, some v⟩)) :
    Takes P (bodyWith s fresh classId) (0 :: bytes) v Q := by
  have hnot : kind ≠ .comparator := by
    rintro rfl
    cases htracked
  have hzero : Varint.encode 0 = [0] := Varint.encode_of_lt (by decide)
  have hmarker : Varint.read32.Takes [0] 0 := hzero ▸ Varint.read32_takes (by decide)
  refine after (.known hkind) ?_
  rw [if_neg hnot, htracked, Bool.not_true, if_neg (by decide)]
  refine cons hmarker ?_
  rw [if_neg (by decide)]
  intro slots rest read hP
  obtain ⟨Q₁, hfresh, hQ⟩ := hf slots hP
  obtain ⟨slots₁, read₁, hQ₁, h₁⟩ := hfresh _ rest read rfl
  refine ⟨_, read₁ + 1, hQ slots₁ hQ₁, ?_⟩
  exact bind_of_ok h₁

end Bodies

section Elements

variable {body : Nat → Decoder Value} {v : Value}

/-- Null is its tag. -/
theorem tagged_null : Takes P (tagged body) (Varint.encode 0) .null P := by
  refine (wire (Varint.read32_takes (by decide))).andThen ?_
  rw [if_pos rfl]
  exact .counted _

/-- Any other value is its tag and its body. -/
theorem tagged_body {classId : Nat} (hlt : classId + 1 < UInt32.size)
    (hb : Takes P (body classId) bytes v Q) :
    Takes P (tagged body) (Encoder.classTag classId ++ bytes) v Q := by
  refine (wire (Varint.read32_takes hlt)).bind ?_
  rw [if_neg (Nat.succ_ne_zero classId)]
  exact hb

/-- The elements of a collection from their count on, given how they are taken in a row. -/
theorem elements {items : List α} {tag : Nat} {vs : List Value} (hn : items.length < UInt64.size)
    (hfit : items.length ≤ bytes.length) (htag : items ≠ [] → tag < UInt32.size)
    (hempty : items = [] → bytes = [])
    (hf : Takes P (repeated (element body tag) items.length) bytes vs Q) :
    Takes P (Decoder.elements body) (Varint.encode items.length ++
      ((if items.isEmpty then [] else Varint.encode tag) ++ bytes)) vs Q := by
  refine count hn ?_ ?_
  · rw [List.length_append, Nat.max_self, Nat.mul_one]
    omega
  cases items with
  | nil =>
    rw [hempty rfl] at hf ⊢
    exact hf
  | cons item rest =>
    have hne : (item :: rest).length ≠ 0 := Nat.succ_ne_zero rest.length
    rw [if_neg hne, List.isEmpty_cons, if_neg (by decide)]
    exact (wire (Varint.read32_takes (htag (List.cons_ne_nil item rest)))).bind hf

/-- The entries of a map from their count on, given how they are taken in a row. -/
theorem entries {pairs : List α} {keyTag valueTag : Nat} {es : List (Value × Value)}
    (hn : pairs.length < UInt64.size) (hfit : pairs.length * 2 ≤ bytes.length)
    (htag : pairs ≠ [] → keyTag < UInt32.size ∧ valueTag < UInt32.size)
    (hempty : pairs = [] → bytes = [])
    (hf : Takes P (repeated (do
      let k ← element body keyTag
      let v ← element body valueTag
      return (k, v)) pairs.length) bytes es Q) :
    Takes P (Decoder.entries body) (Varint.encode pairs.length ++ ((if pairs.isEmpty then [] else
      Varint.encode keyTag ++ Varint.encode valueTag) ++ bytes)) es Q := by
  refine count hn ?_ ?_
  · rw [List.length_append, Nat.max_eq_left (by decide)]
    omega
  cases pairs with
  | nil =>
    rw [hempty rfl] at hf ⊢
    exact hf
  | cons e rest =>
    obtain ⟨hkey, hvalue⟩ := htag (List.cons_ne_nil e rest)
    have hne : (e :: rest).length ≠ 0 := Nat.succ_ne_zero rest.length
    rw [if_neg hne, List.isEmpty_cons, if_neg (by decide), List.append_assoc]
    exact (wire (Varint.read32_takes hkey)).bind ((wire (Varint.read32_takes hvalue)).bind hf)

end Elements

end Takes

/-- A decoder that takes a whole input from no slots gives its datum and leaves nothing over. -/
theorem run_of_takes {P Q : List DecodeSlot → Prop} {d : Decoder α} {bytes : List UInt8} {a : α}
    (h : Takes P d bytes a Q) (hP : P []) : run d bytes = .ok a := by
  obtain ⟨slots, read, -, hd⟩ := h [] [] 0 hP
  rw [List.append_nil] at hd
  have hrun : EStateM.run d ⟨bytes, [], 0⟩ = .ok a ⟨[], slots, read⟩ := hd
  rw [run, hrun]
  rfl

end Decoder

end RemoteCall
