import RemoteCall.Proofs.Value.Collapsing
import RemoteCall.Proofs.Value.Distinct
import RemoteCall.Proofs.Value.SortOrder
import RemoteCall.Value.Identity

/-!
# Finding values in sorted maps

The entries of a sorted map are collapsed by its comparator, but a key is looked for among them by
equality of contents. By the natural order, as it is or turned round, keys that compare equal are
the same, so every key that is given, and is the same as itself, is found. Other comparators also
find keys equal that differ. Of those only the key of the entry that is kept is found, and the
others are lost.
-/

namespace RemoteCall

namespace BigInteger

/-- Integers of any size of one key are one. -/
theorem sortKey_inj {a b : BigInteger} (h : a.sortKey = b.sortKey) : a = b := by
  obtain ⟨bytes, _⟩ := a
  obtain ⟨bytes', _⟩ := b
  cases Value.bytesKey_inj (List.cons.inj h).2
  rfl

end BigInteger

/-- Times of day with one second and one nanosecond are one. -/
theorem Time.eq_of_parts {a b : Time} (hs : (a.seconds : Int) = b.seconds)
    (hn : (a.nanos : Int) = b.nanos) : a = b := by
  obtain ⟨s, n, _, _⟩ := a
  obtain ⟨s', n', _, _⟩ := b
  cases Int.ofNat.inj hs
  cases Int.ofNat.inj hn
  rfl

/-- Dates with one day are one. -/
theorem Date.eq_of_days {a b : Date} (h : a.days = b.days) : a = b := by
  obtain ⟨d, _⟩ := a
  obtain ⟨d', _⟩ := b
  cases h
  rfl

/-- Local date-times of one key are one. -/
theorem DateTime.eq_of_parts {a b : DateTime}
    (h : [a.date.days, (a.time.seconds : Int), (a.time.nanos : Int)] =
      [b.date.days, (b.time.seconds : Int), (b.time.nanos : Int)]) : a = b := by
  obtain ⟨d, t⟩ := a
  obtain ⟨d', t'⟩ := b
  obtain ⟨hd, h⟩ := List.cons.inj h
  obtain ⟨hs, h⟩ := List.cons.inj h
  cases Date.eq_of_days hd
  cases Time.eq_of_parts hs (List.cons.inj h).1
  rfl

/-- Decimals of one key are one. -/
theorem BigDecimal.eq_of_parts {a b : BigDecimal} (hs : a.scale.toInt = b.scale.toInt)
    (hu : a.unscaled.sortKey = b.unscaled.sortKey) : a = b := by
  obtain ⟨u, s⟩ := a
  obtain ⟨u', s'⟩ := b
  cases Int32.toInt_inj.mp hs
  cases BigInteger.sortKey_inj hu
  rfl

/-- Floating-point numbers that compare equal are equal. -/
theorem Ieee.equal_of_compare?_eq {f : Ieee} {a b : Nat} (h : f.compare? a b = some .eq) :
    f.equal a b = true := by
  unfold compare? at h
  split at h
  case isTrue => cases h
  case isFalse hn =>
    obtain ⟨ha, hb⟩ := not_or.mp fun h => hn ((Bool.or_eq_true _ _).mpr h)
    have hkey := Std.LawfulEqCmp.compare_eq_iff_eq.mp (Option.some.inj h)
    exact equal_iff.mpr ⟨Bool.eq_false_iff.mpr ha, Bool.eq_false_iff.mpr hb, hkey⟩

namespace Scalar

/-- Scalars of one type and one key are one. -/
theorem sortKey_inj {a b : Scalar} (h : a.type = b.type) (hk : a.sortKey = b.sortKey) : a = b := by
  cases a <;> cases b <;> cases h
  case bool.bool.refl a b => cases a <;> cases b <;> first | rfl | exact absurd hk (by decide)
  case byte.byte.refl a b => rw [Int8.toInt_inj.mp (List.cons.inj hk).1]
  case short.short.refl a b => rw [Int16.toInt_inj.mp (List.cons.inj hk).1]
  case int.int.refl a b => rw [Int32.toInt_inj.mp (List.cons.inj hk).1]
  case long.long.refl a b => rw [Int64.toInt_inj.mp (List.cons.inj hk).1]
  case float.float.refl a b =>
    have hbits := Ieee.single.totalKey_inj a.toNat_lt b.toNat_lt (List.cons.inj hk).1
    rw [UInt32.toNat_inj.mp hbits]
  case double.double.refl a b =>
    have hbits := Ieee.double.totalKey_inj a.toNat_lt b.toNat_lt (List.cons.inj hk).1
    rw [UInt64.toNat_inj.mp hbits]
  case char.char.refl a b => rw [Char.toNat_inj.mp (Int.ofNat.inj (List.cons.inj hk).1)]
  case string.string.refl a b => rw [Value.textKey_inj hk]
  case bigInteger.bigInteger.refl a b => rw [BigInteger.sortKey_inj hk]
  case bigDecimal.bigDecimal.refl a b =>
    obtain ⟨hs, hu⟩ := List.cons.inj hk
    rw [BigDecimal.eq_of_parts hs hu]
  case uuid.uuid.refl a b =>
    obtain ⟨bytes, _⟩ := a
    obtain ⟨bytes', _⟩ := b
    cases Value.bytesKey_inj hk
    rfl
  case date.date.refl a b => rw [Date.eq_of_days (List.cons.inj hk).1]
  case time.time.refl a b =>
    obtain ⟨hs, hk⟩ := List.cons.inj hk
    rw [Time.eq_of_parts hs (List.cons.inj hk).1]
  case dateTime.dateTime.refl a b => rw [DateTime.eq_of_parts hk]
  case instant.instant.refl a b =>
    obtain ⟨utc⟩ := a
    obtain ⟨utc'⟩ := b
    cases DateTime.eq_of_parts hk
    rfl
  case duration.duration.refl a b =>
    obtain ⟨total, _⟩ := a
    obtain ⟨total', _⟩ := b
    cases (List.cons.inj hk).1
    rfl
  case charset.charset.refl a b =>
    obtain ⟨name, _⟩ := a
    obtain ⟨name', _⟩ := b
    cases Value.textKey_inj hk
    rfl
  case bytes.bytes.refl a b => rw [Value.bytesKey_inj hk]

/-- Scalars that compare equal are the same. -/
theorem same_of_compare?_eq {a b : Scalar} (h : a.compare? b = some .eq) : a.same b = true := by
  obtain ⟨x, y, rfl, rfl⟩ | ⟨x, y, rfl, rfl⟩ | ⟨htype, htotal, hsame⟩ := compare?_cases h
  · exact Ieee.equal_of_compare?_eq h
  · exact Ieee.equal_of_compare?_eq h
  · rw [totalCompare_eq_of_type_eq htype, Std.LawfulEqCmp.compare_eq_iff_eq] at htotal
    rw [hsame, sortKey_inj htype htotal]
    exact beq_self_eq_true b

end Scalar

namespace Value

/-- Values that compare equal by their natural order are the same. -/
theorem same_of_compare?_eq {a b : Value} (h : a.compare? b = some .eq) : a.same b = true := by
  cases a <;> cases b
  case scalar.scalar s t => exact Scalar.same_of_compare?_eq h
  case variant.variant c i d j =>
    rw [compare?] at h
    split at h
    case isTrue hc =>
      have hi : i = j := UInt32.toNat_inj.mp
        (Std.LawfulEqCmp.compare_eq_iff_eq.mp (Option.some.inj h))
      rw [same, hc, hi, beq_self_eq_true, beq_self_eq_true]
      rfl
    case isFalse => cases h
  all_goals cases h

end Value

section Finding

variable {q : Value} {entries : List (Value × Value)}

/-- A key is found if an entry has the same key. -/
theorem exists_findValue?_iff :
    (∃ w, findValue? q entries = some w) ↔ ∃ e ∈ entries, e.1.same q = true := by
  unfold findValue?
  rw [← List.find?_isSome, ← Option.isSome_map, Option.isSome_iff_exists]

/-- The value that is found is that of an entry with the same key. -/
theorem exists_mem_of_findValue? {w : Value} (h : findValue? q entries = some w) :
    ∃ k, (k, w) ∈ entries ∧ k.same q = true := by
  obtain ⟨⟨k, v⟩, he, rfl⟩ := Option.map_eq_some_iff.mp h
  have hsame := List.find?_some he
  exact ⟨k, List.mem_of_find?_eq_some he, hsame⟩

end Finding

/-- **What a sorted map finds.** What is found for a key is the value of a given entry whose key is
the same. A key is found exactly if the same key is that of a given entry which is kept: the
foremost, from behind, of those whose keys compare equal, or one whose key compares equal to
nothing. By the natural order, as it is or turned round, the value is that of the foremost entry,
from behind, with the same key, so each key that is given and is the same as itself is found. -/
theorem sortedMap_finds (id : Nat) (c : Comparator) (es : List (Value × Value)) (q : Value) :
    ∃ entries, Value.ofSortedEntries id c es = .map id (.sorted c) entries ∧
      (∀ w, findValue? q entries = some w → ∃ k, (k, w) ∈ es ∧ k.same q = true) ∧
      ((∃ w, findValue? q entries = some w) ↔ ∃ e ∈ es, e.1.same q = true ∧
        (c.equates e.1 e.1 = true →
          foremost? c (·.1) (fun d => c.equates e.1 d.1) es.reverse = some e)) ∧
      (c = .natural ∨ c = .reverse →
        findValue? q entries =
          (foremost? c (·.1) (fun e => e.1.same q) es.reverse).map (·.2) ∧
        ∀ e ∈ es, e.1.same q = true → ∃ w, findValue? q entries = some w) := by
  refine ⟨arrange c (·.1) es.reverse, rfl, fun w hw => ?_, ?_, fun hc => ?_⟩
  · obtain ⟨k, hmem, hsame⟩ := exists_mem_of_findValue? hw
    exact ⟨k, List.mem_reverse.mp (mem_of_mem_arrange hmem), hsame⟩
  · rw [exists_findValue?_iff]
    simp only [mem_arrange_iff, List.mem_reverse]
    refine exists_congr fun e => ?_
    rw [and_assoc, and_comm (a := e.1.same q = true)]
  · have hsame : ∀ a b : Value × Value, c.equates a.1 b.1 = true → a.1.same q = b.1.same q := by
      intro a b hab
      refine Value.same_congr (Value.same_of_compare?_eq ?_) q
      rcases hc with rfl | rfl
      · exact Comparator.equates_iff.mp hab
      · exact Comparator.reverse_compare?_iff.mp (Comparator.equates_iff.mp hab)
    have hfind : findValue? q (arrange c (·.1) es.reverse) =
        (foremost? c (·.1) (fun e => e.1.same q) es.reverse).map (·.2) := by
      rw [← find?_arrange hsame]
      rfl
    refine ⟨hfind, fun e he hq => ?_⟩
    obtain ⟨d, hd⟩ := exists_foremost? c (·.1) (p := fun e => e.1.same q)
      (List.mem_reverse.mpr he) hq
    exact ⟨d.2, by rw [hfind, hd]; rfl⟩

namespace Collapsed

/-- A key. -/
def one : Value := .scalar (.int 1)

/-- Another key. -/
def two : Value := .scalar (.int 2)

/-- The value of both keys. -/
def shared : Value := .scalar (.string "a")

/-- Entries of two keys with one value. -/
def given : List (Value × Value) := [(one, shared), (two, shared)]

end Collapsed

/-- Of two keys with one value a sorted map finds the first by the natural order, but if all keys
compare equal the first is lost. -/
theorem sortedMap_finds_collapsed :
    (∃ entries, Value.ofSortedEntries 0 .natural Collapsed.given =
        .map 0 (.sorted .natural) entries ∧
      findValue? Collapsed.one entries = some Collapsed.shared) ∧
    ∃ entries, Value.ofSortedEntries 0 .allEqual Collapsed.given =
        .map 0 (.sorted .allEqual) entries ∧
      Collapsed.one.same Collapsed.one = true ∧
      Comparator.allEqual.compare? Collapsed.one Collapsed.two = some .eq ∧
      findValue? Collapsed.one entries = none := by
  obtain ⟨sorted, hsorted, -, -, hfound⟩ :=
    sortedMap_finds 0 .natural Collapsed.given Collapsed.one
  obtain ⟨entries, hentries, -, hiff, -⟩ :=
    sortedMap_finds 0 .allEqual Collapsed.given Collapsed.one
  refine ⟨⟨sorted, hsorted, (hfound (.inl rfl)).1.trans ?_⟩, entries, hentries, ?_, rfl, ?_⟩
  · decide +kernel
  · decide +kernel
  · have hlost : ¬ ∃ e ∈ Collapsed.given, e.1.same Collapsed.one = true ∧
        (Comparator.allEqual.equates e.1 e.1 = true →
          foremost? .allEqual (·.1) (fun d => Comparator.allEqual.equates e.1 d.1)
            Collapsed.given.reverse = some e) := by
      decide +kernel
    cases hfind : findValue? Collapsed.one entries with
    | none => rfl
    | some w => exact absurd (hiff.mp ⟨w, hfind⟩) hlost

end RemoteCall
