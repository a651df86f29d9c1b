import Mathlib.Data.List.Induction
import RemoteCall.Proofs.Wire.Framing
import RemoteCall.Proofs.Wire.Reading

/-!
# Streams of whole frames

A parse takes apart what `Frame.wrap` puts together: frames of acceptable bodies come out as these
bodies, whatever stands behind them. Conversely a stream that is nowhere refused is made of such
frames, perhaps with a header behind them, and of the bytes that are left over.
-/

namespace RemoteCall

/-- The number that bytes spell fits as many bytes. -/
theorem ofBigEndian_lt (bytes : List UInt8) : ofBigEndian bytes < 256 ^ bytes.length := by
  induction bytes using List.reverseRecOn with
  | nil => exact Nat.one_pos
  | append_singleton bytes b ih =>
    have hb := b.toNat_lt
    rw [ofBigEndian_append, List.length_append, List.length_singleton, Nat.pow_succ]
    omega

/-- Bytes are the spelling of the number that they spell. -/
theorem bigEndianBytes_ofBigEndian (bytes : List UInt8) :
    bigEndianBytes bytes.length (ofBigEndian bytes) = bytes := by
  induction bytes using List.reverseRecOn with
  | nil => rfl
  | append_singleton bytes b ih =>
    have hb := b.toNat_lt
    have hlow : (ofBigEndian bytes * 256 + b.toNat).toUInt8 = b := by
      refine UInt8.toNat_inj.mp ?_
      rw [Nat.toUInt8_eq, UInt8.toNat_ofNat']
      omega
    have hhigh : (ofBigEndian bytes * 256 + b.toNat) / 256 = ofBigEndian bytes := by omega
    rw [ofBigEndian_append, List.length_append, List.length_singleton, bigEndianBytes, hhigh, ih,
      hlow]

namespace Frame

/-- The header of a body of some length. -/
def header (length : Nat) : List UInt8 := bigEndianBytes 2 magic ++ bigEndianBytes 4 length

/-- Whether bodies of some length have a header and keep to a limit. -/
def IsLength (limit length : Nat) : Prop := length ≤ limit ∧ length < UInt32.size

/-- Whether all of these bodies can be framed and keep to a limit. -/
def Acceptable (limit : Nat) (bodies : List (List UInt8)) : Prop :=
  ∀ body ∈ bodies, IsLength limit body.length

instance (limit length : Nat) : Decidable (IsLength limit length) :=
  inferInstanceAs (Decidable (_ ∧ _))

instance (limit : Nat) (bodies : List (List UInt8)) : Decidable (Acceptable limit bodies) :=
  inferInstanceAs (Decidable (∀ body ∈ bodies, IsLength limit body.length))

/-- The frames of bodies, one behind the other. -/
def frames (bodies : List (List UInt8)) : List UInt8 := bodies.flatMap wrap

/-- The bytes of the next frame that a reader in some state has used. -/
def used : FrameState → List UInt8
  | .body length => header length
  | _ => []

variable {limit length : Nat} {stream rest body : List UInt8} {bodies : List (List UInt8)}

/-- A header has the length of a header. -/
theorem length_header (length : Nat) : (header length).length = headerLength := by
  rw [header, List.length_append, length_bigEndianBytes, length_bigEndianBytes]
  rfl

/-- A header is read as the length that it was made for. -/
theorem parse_header (h : IsLength limit length) (rest : List UInt8) :
    parse limit (header length ++ rest) = parseBody limit length rest := by
  have hmark : numberOf ((header length ++ rest).take 2) = magic := rfl
  have hlength : numberOf (((header length ++ rest).drop 2).take 4) = length :=
    ofBigEndian_bigEndianBytes 4 length h.2
  have hrest : (header length ++ rest).drop headerLength = rest := by
    rw [← length_header length, List.drop_left]
  have hlong : headerLength ≤ (header length ++ rest).length := by
    rw [List.length_append, length_header]
    omega
  rw [parse_of_header hlong, hmark, hlength, hrest, if_neg (fun hne => hne rfl),
    if_neg (Nat.not_lt.mpr h.1)]

/-- The frame of a body is parsed as this body. -/
theorem parse_wrap (h : IsLength limit body.length) (rest : List UInt8) :
    parse limit (wrap body ++ rest) = (parse limit rest).behind [body] := by
  have hparts : wrap body ++ rest = header body.length ++ (body ++ rest) := List.append_assoc ..
  have hlong : ¬ (body ++ rest).length < body.length := by
    rw [List.length_append]
    omega
  rw [hparts, parse_header h, parseBody, if_neg hlong, List.take_left, List.drop_left]

/-- Frames are parsed as their bodies. -/
theorem parse_frames (h : Acceptable limit bodies) (rest : List UInt8) :
    parse limit (frames bodies ++ rest) = (parse limit rest).behind bodies := by
  induction bodies with
  | nil => rfl
  | cons body bodies ih =>
    obtain ⟨hbody, hbodies⟩ := List.forall_mem_cons.mp h
    have hparts : frames (body :: bodies) ++ rest = wrap body ++ (frames bodies ++ rest) :=
      List.append_assoc ..
    rw [hparts, parse_wrap hbody, ih hbodies]
    rfl

/-- A stream of whole frames is parsed as their bodies, and nothing is left over. -/
theorem parse_whole (h : Acceptable limit bodies) :
    parse limit (frames bodies) = ⟨bodies, .incomplete .header []⟩ := by
  have hshort : ([] : List UInt8).length < headerLength := Nat.succ_pos 5
  have hparse := parse_frames h []
  rwa [parse_of_short hshort, List.append_nil, Parsed.behind, List.append_nil] at hparse

/-- A stream that begins with the mark begins with the header of the length that it spells. -/
theorem eq_header_append (hlong : headerLength ≤ stream.length)
    (hmark : numberOf (stream.take 2) = magic) :
    stream = header (numberOf ((stream.drop 2).take 4)) ++ stream.drop headerLength := by
  have hsix : 6 ≤ stream.length := hlong
  have htwo : (stream.take 2).length = 2 := by
    rw [List.length_take]
    omega
  have hfour : ((stream.drop 2).take 4).length = 4 := by
    rw [List.length_take, List.length_drop]
    omega
  have hfirst : bigEndianBytes 2 magic = stream.take 2 := by
    have hspelled := bigEndianBytes_ofBigEndian (stream.take 2)
    rwa [htwo, show ofBigEndian (stream.take 2) = magic from hmark] at hspelled
  have hsecond : bigEndianBytes 4 (numberOf ((stream.drop 2).take 4)) =
      (stream.drop 2).take 4 := by
    have hspelled := bigEndianBytes_ofBigEndian ((stream.drop 2).take 4)
    rwa [hfour] at hspelled
  calc stream = stream.take 2 ++ ((stream.drop 2).take 4 ++ (stream.drop 2).drop 4) := by
        rw [List.take_append_drop, List.take_append_drop]
    _ = header (numberOf ((stream.drop 2).take 4)) ++ stream.drop headerLength := by
        rw [header, hfirst, hsecond, List.append_assoc, List.drop_drop]
        rfl

/-- The announced length of a body fits 32 bits. -/
theorem announced_lt (stream : List UInt8) :
    numberOf ((stream.drop 2).take 4) < UInt32.size := by
  have hnumber := ofBigEndian_lt ((stream.drop 2).take 4)
  have hlength : ((stream.drop 2).take 4).length ≤ 4 := List.length_take_le 4 _
  exact Nat.lt_of_lt_of_le hnumber (Nat.pow_le_pow_right (by decide) hlength)

/-- What a parse makes of a stream that it nowhere refuses: whole frames, and bytes that are left
over behind them or behind the header of one more. -/
structure Stops (limit : Nat) (stream : List UInt8) (bodies : List (List UInt8))
    (state : FrameState) (rest : List UInt8) : Prop where
  acceptable : Acceptable limit bodies
  parts : stream = frames bodies ++ (used state ++ rest)
  /-- The stream stops before a header is complete, or before the body is that it announces. -/
  short : state = .header ∨
    ∃ length, state = .body length ∧ IsLength limit length ∧ rest.length < length

/-- A parse that nothing refuses accounts for all of its stream. -/
theorem stops_of_parse {stream : List UInt8} {bodies : List (List UInt8)} {state : FrameState}
    {rest : List UInt8} (h : parse limit stream = ⟨bodies, .incomplete state rest⟩) :
    Stops limit stream bodies state rest := by
  by_cases hshort : stream.length < headerLength
  · rw [parse_of_short hshort] at h
    cases h
    exact ⟨by simp [Acceptable], rfl, .inl rfl⟩
  have hlong := Nat.le_of_not_lt hshort
  rw [parse_of_header hlong] at h
  split at h
  case isTrue => cases h
  rename_i hmark
  split at h
  case isTrue => cases h
  rename_i hlimit
  have hhead := eq_header_append hlong (Decidable.not_not.mp hmark)
  have hlength : IsLength limit (numberOf ((stream.drop 2).take 4)) :=
    ⟨Nat.le_of_not_lt hlimit, announced_lt stream⟩
  generalize numberOf ((stream.drop 2).take 4) = length at h hhead hlength
  unfold parseBody at h
  split at h
  case isTrue hless =>
    cases h
    exact ⟨by simp [Acceptable], hhead, .inr ⟨length, rfl, hlength, hless⟩⟩
  rename_i hwhole
  -- the first frame is complete, and the parse goes on behind it
  rcases hrest : parse limit ((stream.drop headerLength).drop length) with ⟨later, ending⟩
  rw [hrest, Parsed.behind] at h
  cases h
  have hlater := stops_of_parse hrest
  have hbody : ((stream.drop headerLength).take length).length = length :=
    List.length_take_of_le (Nat.le_of_not_lt hwhole)
  refine ⟨List.forall_mem_cons.mpr ⟨by rwa [hbody], hlater.acceptable⟩, ?_, hlater.short⟩
  calc stream = header length ++ ((stream.drop headerLength).take length ++
          (stream.drop headerLength).drop length) := by rw [List.take_append_drop, ← hhead]
    _ = wrap ((stream.drop headerLength).take length) ++
          (frames later ++ (used state ++ rest)) := by
        rw [← hlater.parts, ← List.append_assoc]
        exact congrArg (· ++ _) (by rw [wrap, header, hbody])
    _ = frames ((stream.drop headerLength).take length :: later) ++ (used state ++ rest) := by
        rw [← List.append_assoc]
        rfl
termination_by stream.length
decreasing_by
  simp only [List.length_drop, headerLength] at hlong ⊢
  omega

end Frame

end RemoteCall
