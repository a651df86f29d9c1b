import Mathlib.Data.List.Perm.Basic
import RemoteCall.Proofs.Codec.ReadBack
import RemoteCall.Proofs.Codec.Signatures

/-!
# Round trip with sharing

What a codec has written of a graph that the wire can carry, the codec with the same settings reads
back whole: the other fields of an envelope are equal, the values are those with their sorted
containers built anew, equal in everything but the numbers of their instances, floating-point
numbers bit by bit, and two places share an instance exactly if they did before. To build the
containers of a sendable graph anew changes nothing. The limits are those of machine words: a
message shorter than a 64-bit count and fewer instances than a 32-bit count.
-/

namespace RemoteCall

/-- A table that grew from nothing by instances of a portable graph makes a sound writing. -/
theorem Graph.Portable.sound {s : CodecSettings} (hs : s.CanAnnounce) {g : Graph}
    (hg : g.Portable) {table : List Nat}
    (hgrows : Encoder.Grows [] table (Value.instancesOf g)) : (Writing.mk s g table).Sound := by
  have hnodup : table.Nodup := hgrows.nodup List.nodup_nil
  refine ⟨hs, hg, hnodup, Nat.lt_of_le_of_lt ?_ hg.countable⟩
  refine (List.subperm_of_subset hnodup fun n hn => ?_).length_le
  exact List.mem_dedup.mpr ((hgrows.mem n hn).resolve_left List.not_mem_nil)

namespace Encoder

/-- An envelope is written from an empty table. -/
theorem run_eq_ok {w : Encoder (List UInt8)} {bytes : List UInt8} (h : run w = .ok bytes) :
    ∃ table, w [] = .ok (bytes, table) := by
  change Except.map Prod.fst (w []) = _ at h
  cases hw : w [] with
  | error e =>
    rw [hw] at h
    cases h
  | ok r =>
    rw [hw] at h
    cases h
    exact ⟨r.2, rfl⟩

/-- A value that is written alone grows the table by its instances. -/
theorem grows_single {s : CodecSettings} {room : Nat} {v : Value} {t t' : List Nat}
    {bytes : List UInt8} (h : body s room v t = .ok (bytes, t')) :
    Grows t t' (Value.instancesOf [v]) := by
  rw [Value.instancesOf_singleton]
  exact body_grows v _ _ _ _ h

/-- A value with its tag. -/
theorem value_eq_ok {s : CodecSettings} {room : Nat} {v : Value} {t t' : List Nat}
    {bytes : List UInt8} (h : value s room v t = .ok (bytes, t')) :
    ∃ tag inner, valueTag s v = .ok tag ∧ body s room v t = .ok (inner, t') ∧
      bytes = tag ++ inner := by
  obtain ⟨tag, ht, h⟩ := lift_bind_eq_ok h
  obtain ⟨inner, t₁, hi, h⟩ := bind_eq_ok h
  obtain ⟨rfl, rfl⟩ := pure_eq_ok h
  exact ⟨tag, inner, ht, hi, rfl⟩

/-- A response is its head and its payload. -/
theorem response_eq_ok {s : CodecSettings} {r : Response} {t t' : List Nat} {bytes : List UInt8}
    (h : response s r t = .ok (bytes, t')) :
    ∃ payload, value s s.maxDepth r.payload t = .ok (payload, t') ∧
      bytes = responseHead r ++ payload := by
  obtain ⟨payload, t₁, hp, h⟩ := bind_eq_ok h
  obtain ⟨rfl, rfl⟩ := pure_eq_ok h
  exact ⟨payload, hp, rfl⟩

/-- A request is its head, its signature and its arguments. -/
theorem request_eq_ok {s : CodecSettings} {r : Request} {t t' : List Nat} {bytes : List UInt8}
    (h : request s r t = .ok (bytes, t')) :
    ∃ sig arguments, signature s r.signature = .ok sig ∧
      elements s s.maxDepth none r.arguments t = .ok (arguments, t') ∧
      bytes = classTag ClassId.request ++ (Varint.encode r.id.toNat ++
        (Varint.encodeSigned r.timestamp.toInt ++ (Sized.encodeText r.service ++
        (Sized.encodeText r.method ++ (sig ++ (Varint.encode r.arguments.length ++
        arguments)))))) := by
  obtain ⟨sig, hs, h⟩ := lift_bind_eq_ok h
  obtain ⟨arguments, t₁, ha, h⟩ := bind_eq_ok h
  obtain ⟨rfl, rfl⟩ := pure_eq_ok h
  exact ⟨sig, arguments, hs, ha, by simp only [List.append_assoc]⟩

/-- The sized parts of a request are shorter than the request. -/
theorem lengths_of_request {s : CodecSettings} {r : Request} {sig arguments : List UInt8}
    (hsig : signature s r.signature = .ok sig)
    (hlen : (classTag ClassId.request ++ (Varint.encode r.id.toNat ++
      (Varint.encodeSigned r.timestamp.toInt ++ (Sized.encodeText r.service ++
      (Sized.encodeText r.method ++ (sig ++ (Varint.encode r.arguments.length ++
      arguments))))))).length < UInt64.size) :
    (Sized.bytesOf r.service).length < UInt64.size ∧
      (Sized.bytesOf r.method).length < UInt64.size ∧
      r.signature.params.length < UInt64.size ∧ arguments.length < UInt64.size := by
  simp only [List.length_append] at hlen
  have hservice := Scalar.length_lt_encodeBytes (Sized.bytesOf r.service)
  have hmethod := Scalar.length_lt_encodeBytes (Sized.bytesOf r.method)
  rw [← Sized.encodeText] at hservice hmethod
  have hparams := length_params_lt_signature hsig
  omega

end Encoder

namespace Decoder

/-- The tag of an envelope is taken back. -/
theorem envelopeTag_takes {classId : Nat} (h : classId + 1 < UInt32.size) (expected : Expected) :
    (envelopeTag classId expected).Takes (Encoder.classTag classId) () := by
  refine (Varint.read32_takes h).andThen ?_
  rw [if_neg (fun hne => hne rfl)]
  exact .pure ()

/-- A status is taken back. -/
theorem status_takes (r : Status) : status.Takes (Varint.encode r.ordinal) r := by
  have hlt : r.ordinal < UInt32.size := by
    cases r <;> decide
  exact (Varint.read32_takes hlt).andThen (Scalar.demand_takes r.ofOrdinal?_ordinal)

/-- A response is taken back with the payload that is read behind its head. -/
theorem response_takes {s : CodecSettings} {P Q : List DecodeSlot → Prop} {r : Response}
    (hmessage : ∀ t, r.message = some t → (Sized.bytesOf t).length + 1 < UInt64.size)
    {payload : List UInt8} {w : Value} (hpayload : Takes P (value s) payload w Q) :
    Takes P (response s) (Encoder.responseHead r ++ payload) { r with payload := w } Q := by
  simp only [Encoder.responseHead, List.append_assoc]
  refine (Takes.wire (envelopeTag_takes (by decide) _)).bind ?_
  refine (Takes.wire (Varint.read_takes r.id.toNat_lt)).bind ?_
  refine (Takes.wire (Varint.readSigned_takes r.timestamp.le_toInt r.timestamp.toInt_lt)).bind ?_
  refine (Takes.wire (status_takes r.status)).bind ?_
  refine (Takes.wire (Sized.readOptionalText_takes hmessage)).bind (hpayload.andThen ?_)
  rw [Nat.toUInt64_eq, UInt64.ofNat_toNat, Int64.ofInt_toInt]
  exact .pure _

/-- A request is taken back with the arguments that are read behind its signature. -/
theorem request_takes {s : CodecSettings} {P Q : List DecodeSlot → Prop} {r : Request}
    (hservice : (Sized.bytesOf r.service).length < UInt64.size)
    (hmethod : (Sized.bytesOf r.method).length < UInt64.size) {sig arguments : List UInt8}
    (hsig : (signature s).Takes sig r.signature) (hcount : r.arguments.length < UInt64.size)
    (hfit : r.arguments.length ≤ arguments.length) {ws : List Value}
    (harguments : Takes P (repeated (value s) r.arguments.length) arguments ws Q) :
    Takes P (request s) (Encoder.classTag ClassId.request ++ (Varint.encode r.id.toNat ++
      (Varint.encodeSigned r.timestamp.toInt ++ (Sized.encodeText r.service ++
      (Sized.encodeText r.method ++ (sig ++ (Varint.encode r.arguments.length ++
      arguments))))))) { r with arguments := ws } Q := by
  refine (Takes.wire (envelopeTag_takes (by decide) _)).bind ?_
  refine (Takes.wire (Varint.read_takes r.id.toNat_lt)).bind ?_
  refine (Takes.wire (Varint.readSigned_takes r.timestamp.le_toInt r.timestamp.toInt_lt)).bind ?_
  refine (Takes.wire (Sized.readText_takes hservice)).bind ?_
  refine (Takes.wire (Sized.readText_takes hmethod)).bind ?_
  refine (Takes.wire hsig).bind ?_
  refine .count hcount (by rw [Nat.max_self, Nat.mul_one]; exact hfit) ?_
  refine harguments.andThen ?_
  rw [Nat.toUInt64_eq, UInt64.ofNat_toNat, Int64.ofInt_toInt]
  exact .pure _

/-- A reader that follows a whole envelope gives its datum and leaves nothing over. -/
theorem run_of_follows {c : Writing} {d : Decoder α} {bytes : List UInt8} {a : α}
    {t : List Nat} (h : c.Follows [] d [] bytes a t) : run d bytes = .ok a := by
  have hstart : c.Mirrors [] [] [] := by
    refine ⟨rfl, fun position id hp => ?_⟩
    cases hp
  exact run_of_takes h hstart

end Decoder

namespace CodecSettings

variable {s : CodecSettings}

/-- A value is read back alike, but for its sorted containers, which are built anew. -/
theorem CanAnnounce.decodeValue_rebuilt (hs : s.CanAnnounce) {v : Value} {bytes : List UInt8}
    (hv : Graph.Portable [v]) (h : s.encodeValue v = .ok bytes)
    (hlen : bytes.length < UInt64.size) :
    ∃ w, s.decodeValue bytes = .ok w ∧ Graph.Alike [v.rebuilt] [w] := by
  obtain ⟨table, hw⟩ := Encoder.run_eq_ok h
  obtain ⟨tag, inner, ht, hb, rfl⟩ := Encoder.value_eq_ok hw
  have hc := hv.sound hs (Encoder.grows_single hb)
  rw [List.length_append] at hlen
  have hread := Writing.readsBack hc v (Graph.holds_of_mem List.mem_cons_self)
  have hf := Writing.follows_tagged hc hread (Writing.above_nil _) ht hb
    (List.prefix_refl table) (by omega)
  exact ⟨_, Decoder.run_of_follows hf,
    Graph.alike_renumber (newNumber_injective table) [v.rebuilt]⟩

/-- A response is read back with an alike payload, but for sorted containers. -/
theorem CanAnnounce.decodeResponse_rebuilt (hs : s.CanAnnounce) {r : Response}
    {bytes : List UInt8} (hv : Graph.Portable [r.payload]) (h : s.encodeResponse r = .ok bytes)
    (hlen : bytes.length < UInt64.size) :
    ∃ w, s.decodeResponse bytes = .ok { r with payload := w } ∧
      Graph.Alike [r.payload.rebuilt] [w] := by
  obtain ⟨table, hw⟩ := Encoder.run_eq_ok h
  obtain ⟨payload, hp, rfl⟩ := Encoder.response_eq_ok hw
  obtain ⟨tag, inner, ht, hb, rfl⟩ := Encoder.value_eq_ok hp
  have hc := hv.sound hs (Encoder.grows_single hb)
  have hpos := Varint.length_encode_pos r.id.toNat
  simp only [Encoder.responseHead, List.length_append] at hlen
  have hread := Writing.readsBack hc r.payload (Graph.holds_of_mem List.mem_cons_self)
  have hf := Writing.follows_tagged hc hread (Writing.above_nil _) ht hb
    (List.prefix_refl table) (by omega)
  have hmessage : ∀ t, r.message = some t → (Sized.bytesOf t).length + 1 < UInt64.size := by
    intro t hm
    rw [hm, Sized.encodeOptionalText, List.length_append] at hlen
    have hcount := Varint.length_encode_pos ((Sized.bytesOf t).length + 1)
    omega
  exact ⟨_, Decoder.run_of_follows (Decoder.response_takes hmessage hf),
    Graph.alike_renumber (newNumber_injective table) [r.payload.rebuilt]⟩

/-- A request is read back with alike arguments, but for sorted containers. -/
theorem CanAnnounce.decodeRequest_rebuilt (hs : s.CanAnnounce) {r : Request}
    {bytes : List UInt8} (hv : Graph.Portable r.arguments)
    (hvoid : ∀ spec ∈ r.signature.returns :: r.signature.params, spec.type.hasVoidArray = false)
    (h : s.encodeRequest r = .ok bytes) (hlen : bytes.length < UInt64.size) :
    ∃ ws, s.decodeRequest bytes = .ok { r with arguments := ws } ∧
      Graph.Alike (r.arguments.map Value.rebuilt) ws := by
  obtain ⟨table, hw⟩ := Encoder.run_eq_ok h
  obtain ⟨sig, arguments, hsig, ha, rfl⟩ := Encoder.request_eq_ok hw
  have hgrows := Encoder.elements_grows (fun v _ => Encoder.body_grows v) ha
  have hc := hv.sound hs hgrows
  obtain ⟨hservice, hmethod, hparams, hsize⟩ := Encoder.lengths_of_request hsig hlen
  have hcount := Encoder.length_le_elements
    (fun v _ (hsome : (none : Option Nat).isSome) => absurd hsome (by decide)) ha
  have hf := Writing.follows_repeated hc none
    (fun v hmem => Writing.readsBack hc v (Graph.holds_of_mem hmem))
    (fun v _ => Writing.above_nil v) (by intro classId he; cases he) ha (List.prefix_refl table)
    (by omega)
  have hsignature := Decoder.signature_takes hs.registered.regular hvoid hsig hparams
  have hback : r.arguments.map (Writing.mk s r.arguments table).back =
      (r.arguments.map Value.rebuilt).map (Value.renumber (newNumber table)) :=
    (List.map_map).symm
  rw [hback] at hf
  exact ⟨_, Decoder.run_of_follows
      (Decoder.request_takes hservice hmethod hsignature (by omega) hcount hf),
    Graph.alike_renumber (newNumber_injective table) (r.arguments.map Value.rebuilt)⟩

/-- A sendable value is read back alike. -/
theorem CanAnnounce.decodeValue_encodeValue (hs : s.CanAnnounce) {v : Value} {bytes : List UInt8}
    (hv : Graph.Sendable [v]) (h : s.encodeValue v = .ok bytes)
    (hlen : bytes.length < UInt64.size) :
    ∃ w, s.decodeValue bytes = .ok w ∧ Graph.Alike [v] [w] := by
  have hread := hs.decodeValue_rebuilt hv.portable h hlen
  rwa [hv.rebuilt_eq (Graph.holds_of_mem List.mem_cons_self)] at hread

/-- A response with a sendable payload is read back with an alike one. -/
theorem CanAnnounce.decodeResponse_encodeResponse (hs : s.CanAnnounce) {r : Response}
    {bytes : List UInt8} (hv : Graph.Sendable [r.payload]) (h : s.encodeResponse r = .ok bytes)
    (hlen : bytes.length < UInt64.size) :
    ∃ w, s.decodeResponse bytes = .ok { r with payload := w } ∧ Graph.Alike [r.payload] [w] := by
  have hread := hs.decodeResponse_rebuilt hv.portable h hlen
  rwa [hv.rebuilt_eq (Graph.holds_of_mem List.mem_cons_self)] at hread

/-- A request with sendable arguments is read back with alike ones. -/
theorem CanAnnounce.decodeRequest_encodeRequest (hs : s.CanAnnounce) {r : Request}
    {bytes : List UInt8} (hv : Graph.Sendable r.arguments)
    (hvoid : ∀ spec ∈ r.signature.returns :: r.signature.params, spec.type.hasVoidArray = false)
    (h : s.encodeRequest r = .ok bytes) (hlen : bytes.length < UInt64.size) :
    ∃ ws, s.decodeRequest bytes = .ok { r with arguments := ws } ∧
      Graph.Alike r.arguments ws := by
  have hread := hs.decodeRequest_rebuilt hv.portable hvoid h hlen
  rwa [← Value.rebuiltItems_eq_map, Value.rebuiltItems_eq_self fun v hmem =>
    hv.rebuilt_eq (Graph.holds_of_mem hmem)] at hread

end CodecSettings

namespace Sharing

/-- A list that stands at several places. -/
def items : Value := .ofList 1 [.scalar (.int 7)]

/-- An object around the list. -/
def node : Value := .object 2 "Node" [items]

/-- A map from the list to the object. -/
def entries : Value := .ofEntries 3 [(items, node)]

/-- An array of the object, the list and nothing. -/
def array : Value := .collection 4 (.array .any) [node, items, .null]

/-- A codec that knows the class of the object. -/
def settings : CodecSettings := ⟨⟨[⟨0, "Node", .object ["items"]⟩]⟩, .standard, 4⟩

/-- A call with the list alone, as a key and after the object that holds it. -/
def request : Request :=
  ⟨7, -1, "Store", "put", ⟨⟨.scalar .int, true⟩,
    [⟨.collection .list, false⟩, ⟨.map .plain, false⟩, ⟨.array .any, false⟩]⟩,
    [items, entries, array]⟩

/-- All values in the arguments. -/
def all : List Value := [items, node, entries, array, .scalar (.int 7), .null]

/-- The arguments can be sent. -/
theorem sendable : Graph.Sendable request.arguments := by
  have hall : Graph.listedBy request.arguments all = true := by decide
  have hitems : items.Built := .list 1 fun v hv => by
    rw [List.mem_singleton.mp hv]
    exact .scalar _
  have hnode : node.Built := .object 2 "Node" fun v hv => by
    rw [List.mem_singleton.mp hv]
    exact hitems
  have hentries : entries.Built := by
    refine .map 3 (fun e he => ?_) (fun e he => ?_)
    · rw [List.mem_singleton.mp he]
      exact hitems
    · rw [List.mem_singleton.mp he]
      exact hnode
  have harray : array.Built := by
    have hmade : Value.ofArray 4 .any [node, items, .null] = .ok array := rfl
    refine .array (fun v hv => ?_) hmade
    simp only [List.mem_cons, List.not_mem_nil, or_false] at hv
    rcases hv with rfl | rfl | rfl
    · exact hnode
    · exact hitems
    · exact .null
  constructor
  · intro v hv
    change v ∈ [items, entries, array] at hv
    simp only [List.mem_cons, List.not_mem_nil, or_false] at hv
    rcases hv with rfl | rfl | rfl
    · exact hitems
    · exact hentries
    · exact harray
  · exact Graph.coherent_of_listedBy hall (by decide)
  · intro id order pairs h
    have hmem := h.mem_of_listedBy hall
    simp [all, items, node, entries, array, Value.ofList, Value.ofEntries] at hmem
  · intro id element vs h
    have hmem := h.mem_of_listedBy hall
    simp [all, items, node, entries, array, Value.ofList, Value.ofEntries] at hmem
    rw [hmem.2.1]
    rfl
  · decide +kernel

/-- The bytes of the call: the list, then references to it and to the object. -/
def bytes : List UInt8 :=
  [27, 7, 1, 5, 83, 116, 111, 114, 101, 3, 112, 117, 116, 3, 1, 1, 4, 22, 1, 23, 1, 21, 25, 3,
    23, 0, 1, 1, 5, 14, 24, 0, 1, 1, 23, 65, 1, 0, 23, 1, 22, 0, 25, 3, 0, 65, 3, 23, 1, 0]

end Sharing

end RemoteCall
