import RemoteCall.Value.Order

/-!
# Sorting is by a real order

Every value has a key, a list of integers that begins with its kind, and the total order of values
is the lexicographic order of their keys. So the order by which a comparator sorts is total and
transitive over values of all kinds, mixed ones included; a comparator sorts by the keys, by the
keys turned round, by texts, or treats all values alike.
-/

namespace RemoteCall

/-- Lexicographic comparison of mapped lists is that of the lists under the mapped comparison. -/
theorem compareLex_map {α β : Type} (cmp : β → β → Ordering) (f : α → β) (xs ys : List α) :
    List.compareLex cmp (xs.map f) (ys.map f) =
      List.compareLex (fun a b => cmp (f a) (f b)) xs ys := by
  induction xs generalizing ys with
  | nil => cases ys <;> rfl
  | cons x xs ih =>
    cases ys with
    | nil => rfl
    | cons y ys =>
      simp only [List.map_cons, List.compareLex_cons_cons, ih]

/-- Natural numbers compare like the integers they are. -/
theorem compare_natCast (a b : Nat) : Ord.compare a b = Ord.compare (a : Int) (b : Int) := by
  change compareOfLessAndEq a b = compareOfLessAndEq (a : Int) (b : Int)
  have hlt : a < b ↔ (a : Int) < (b : Int) := by omega
  have heq : a = b ↔ (a : Int) = (b : Int) := by omega
  simp only [compareOfLessAndEq, hlt, heq]

/-- Keys of one number compare like the numbers. -/
theorem compare_singleton (a b : Int) : Ord.compare [a] [b] = Ord.compare a b := by
  rw [List.compare_cons_cons, List.compare_nil_nil, Ordering.then_eq]

/-- Bytes as keys; zero is kept free to end them. -/
def bytesKey (bytes : List UInt8) : List Int := bytes.map fun b => (b.toNat : Int) + 1

/-- Bytes compare like the numbers one above them. -/
theorem compare_byte (a b : UInt8) :
    Ord.compare a b = Ord.compare ((a.toNat : Int) + 1) ((b.toNat : Int) + 1) := by
  change compareOfLessAndEq a b = compareOfLessAndEq ((a.toNat : Int) + 1) ((b.toNat : Int) + 1)
  have hlt : a < b ↔ (a.toNat : Int) + 1 < (b.toNat : Int) + 1 := by
    rw [UInt8.lt_iff_toNat_lt]
    omega
  have heq : a = b ↔ (a.toNat : Int) + 1 = (b.toNat : Int) + 1 := by
    rw [← UInt8.toNat_inj]
    omega
  simp only [compareOfLessAndEq, hlt, heq]

/-- Byte strings compare like their keys. -/
theorem compareLex_bytesKey (a b : List UInt8) :
    List.compareLex Ord.compare a b = Ord.compare (bytesKey a) (bytesKey b) := by
  rw [List.compare_eq_compareLex, bytesKey, bytesKey, compareLex_map]
  have hcmp : (fun a b : UInt8 => Ord.compare a b) =
      fun a b => Ord.compare ((a.toNat : Int) + 1) ((b.toNat : Int) + 1) :=
    funext fun x => funext fun y => compare_byte x y
  rw [← hcmp]

/-- Ended byte keys compare by the bytes first and by what follows them next. -/
theorem compare_bytesKey_append (a b : List UInt8) (x y : List Int) :
    Ord.compare (bytesKey a ++ 0 :: x) (bytesKey b ++ 0 :: y) =
      (List.compareLex Ord.compare a b).then (Ord.compare x y) := by
  induction a generalizing b with
  | nil =>
    cases b with
    | nil => rfl
    | cons d b =>
      have hlt : Ord.compare (0 : Int) ((d.toNat : Int) + 1) = .lt :=
        Int.compare_eq_lt.mpr (by omega)
      simp only [bytesKey, List.map_nil, List.map_cons, List.nil_append, List.cons_append,
        List.compare_cons_cons, List.compareLex_nil_cons, hlt, Ordering.lt_then]
  | cons c a ih =>
    cases b with
    | nil =>
      have hgt : Ord.compare ((c.toNat : Int) + 1) (0 : Int) = .gt :=
        Int.compare_eq_gt.mpr (by omega)
      simp only [bytesKey, List.map_nil, List.map_cons, List.nil_append, List.cons_append,
        List.compare_cons_cons, List.compareLex_cons_nil, hgt, Ordering.gt_then]
    | cons d b =>
      rw [List.compareLex_cons_cons, compare_byte, Ordering.then_assoc, ← ih b]
      simp only [bytesKey, List.map_cons, List.cons_append, List.compare_cons_cons]

/-- The key of a text: its bytes. -/
def textKey (text : String) : List Int := bytesKey text.toUTF8.data.toList

/-- Texts compare like their keys. -/
theorem compareText_eq (a b : String) :
    Scalar.compareText a b = Ord.compare (textKey a) (textKey b) :=
  compareLex_bytesKey _ _

namespace BigInteger

/-- The key of an integer of any size: its length, negative for a negative one, and its bytes. -/
def sortKey (n : BigInteger) : List Int :=
  (if n.isNegative then -(n.bytes.length : Int) else n.bytes.length) :: bytesKey n.bytes

/-- No integer is without bytes. -/
theorem length_bytes_pos (n : BigInteger) : 0 < n.bytes.length := by
  have h := n.minimal
  cases hb : n.bytes with
  | nil =>
    rw [hb] at h
    exact h.elim
  | cons b rest => exact Nat.succ_pos _

/-- Integers of any size compare like their keys. -/
theorem compare_eq (a b : BigInteger) : a.compare b = Ord.compare a.sortKey b.sortKey := by
  have ha := a.length_bytes_pos
  have hb := b.length_bytes_pos
  unfold BigInteger.compare sortKey
  rw [List.compare_cons_cons, ← compareLex_bytesKey]
  cases a.isNegative <;> cases b.isNegative <;>
    simp only [Bool.false_eq_true, if_false, if_true]
  · rw [compare_natCast]
  · rw [Int.compare_eq_gt.mpr (by omega), Ordering.gt_then]
  · rw [Int.compare_eq_lt.mpr (by omega), Ordering.lt_then]
  · have hneg : Ord.compare b.bytes.length a.bytes.length =
        Ord.compare (-(a.bytes.length : Int)) (-(b.bytes.length : Int)) := by
      change compareOfLessAndEq _ _ = compareOfLessAndEq _ _
      have hlt : b.bytes.length < a.bytes.length ↔
          -(a.bytes.length : Int) < -(b.bytes.length : Int) := by omega
      have heq : b.bytes.length = a.bytes.length ↔
          -(a.bytes.length : Int) = -(b.bytes.length : Int) := by omega
      simp only [compareOfLessAndEq, hlt, heq]
    rw [hneg]

end BigInteger

/-- Times of day compare like seconds and nanoseconds. -/
theorem Time.compare_eq (a b : Time) : a.compare b =
    Ord.compare [(a.seconds : Int), a.nanos] [(b.seconds : Int), b.nanos] := by
  rw [List.compare_cons_cons, compare_singleton, ← compare_natCast, ← compare_natCast]
  rfl

/-- Local date-times compare like days, seconds and nanoseconds. -/
theorem DateTime.compare_eq (a b : DateTime) : a.compare b =
    Ord.compare [a.date.days, (a.time.seconds : Int), a.time.nanos]
      [b.date.days, (b.time.seconds : Int), b.time.nanos] := by
  rw [List.compare_cons_cons, ← Time.compare_eq]
  rfl

namespace ScalarType

/-- Types are numbered from one. -/
theorem classId_pos (t : ScalarType) : 1 ≤ t.classId := by
  cases t <;> decide

/-- There are nineteen types. -/
theorem classId_le (t : ScalarType) : t.classId ≤ 19 := by
  cases t <;> decide

/-- Every type has a number of its own. -/
theorem classId_inj {t u : ScalarType} (h : t.classId = u.classId) : t = u := by
  have ht := ofClassId?_classId t
  rw [h, ofClassId?_classId] at ht
  exact (Option.some.inj ht).symm

end ScalarType

namespace Scalar

/-- The key of a scalar among those of its type. -/
def sortKey : Scalar → List Int
  | bool v => [v.toNat]
  | byte v => [v.toInt]
  | short v => [v.toInt]
  | int v => [v.toInt]
  | long v => [v.toInt]
  | float bits => [Ieee.single.totalKey bits.toNat]
  | double bits => [Ieee.double.totalKey bits.toNat]
  | char v => [v.toNat]
  | string v => textKey v
  | bigInteger v => v.sortKey
  | bigDecimal v => v.scale.toInt :: v.unscaled.sortKey
  | uuid v => bytesKey v.bytes
  | date v => [v.days]
  | time v => [v.seconds, v.nanos]
  | dateTime v => [v.date.days, v.time.seconds, v.time.nanos]
  | instant v => [v.utc.date.days, v.utc.time.seconds, v.utc.time.nanos]
  | duration v => [v.total]
  | charset v => textKey v.name
  | bytes v => bytesKey v

/-- Scalars of one type are ordered by their keys. -/
theorem totalCompare_eq_of_type_eq {a b : Scalar} (h : a.type = b.type) :
    a.totalCompare b = Ord.compare a.sortKey b.sortKey := by
  cases a <;> cases b <;> cases h
  case bool.bool a b => cases a <;> cases b <;> rfl
  case byte.byte a b => exact (compare_singleton _ _).symm
  case short.short a b => exact (compare_singleton _ _).symm
  case int.int a b => exact (compare_singleton _ _).symm
  case long.long a b => exact (compare_singleton _ _).symm
  case float.float a b => exact (compare_singleton _ _).symm
  case double.double a b => exact (compare_singleton _ _).symm
  case char.char a b => exact (compare_natCast _ _).trans (compare_singleton _ _).symm
  case string.string a b => exact compareText_eq a b
  case bigInteger.bigInteger a b => exact a.compare_eq b
  case bigDecimal.bigDecimal a b =>
    change (Ord.compare a.scale.toInt b.scale.toInt).then (a.unscaled.compare b.unscaled) = _
    rw [sortKey, sortKey, List.compare_cons_cons, BigInteger.compare_eq]
  case uuid.uuid a b => exact compareLex_bytesKey a.bytes b.bytes
  case date.date a b => exact (compare_singleton _ _).symm
  case time.time a b => exact a.compare_eq b
  case dateTime.dateTime a b => exact a.compare_eq b
  case instant.instant a b => exact a.utc.compare_eq b.utc
  case duration.duration a b => exact (compare_singleton _ _).symm
  case charset.charset a b => exact compareText_eq a.name b.name
  case bytes.bytes a b => exact compareLex_bytesKey a b

/-- Scalars of two types are ordered by the numbers of their types. -/
theorem totalCompare_eq_of_type_ne {a b : Scalar} (h : a.type ≠ b.type) :
    a.totalCompare b = Ord.compare a.type.classId b.type.classId := by
  cases a <;> cases b <;> first | rfl | (exact absurd rfl h)

end Scalar

namespace Value

/-- What orders a value within its kind: the key of a scalar, the name and the position of a
variant. -/
def innerKey : Value → List Int
  | scalar s => s.sortKey
  | variant c i => textKey c ++ [0, (i.toNat : Int)]
  | _ => []

/-- The key of a value: the position of its kind and what orders it within its kind. -/
def sortKey (v : Value) : List Int := (v.rank : Int) :: v.innerKey

/-- Keys compare by kind first. -/
theorem compare_sortKey (a b : Value) : Ord.compare a.sortKey b.sortKey =
    (Ord.compare a.rank b.rank).then (Ord.compare a.innerKey b.innerKey) := by
  rw [sortKey, sortKey, List.compare_cons_cons, ← compare_natCast]

/-- Values of two kinds are ordered by their kinds. -/
theorem compare_sortKey_of_rank_ne {a b : Value} (h : a.rank ≠ b.rank) :
    Ord.compare a.sortKey b.sortKey = Ord.compare a.rank b.rank := by
  rw [compare_sortKey]
  rcases Nat.lt_or_gt_of_ne h with hlt | hgt
  · rw [Nat.compare_eq_lt.mpr hlt, Ordering.lt_then]
  · rw [Nat.compare_eq_gt.mpr hgt, Ordering.gt_then]

/-- Values with nothing more to order them are ordered by their kinds. -/
theorem compare_sortKey_of_nil {a b : Value} (ha : a.innerKey = []) (hb : b.innerKey = []) :
    Ord.compare a.sortKey b.sortKey = Ord.compare a.rank b.rank := by
  rw [compare_sortKey, ha, hb, List.compare_nil_nil, Ordering.then_eq]

/-- Two scalars are ordered by their keys. -/
theorem totalCompare_scalar (s t : Scalar) :
    s.totalCompare t = Ord.compare (scalar s).sortKey (scalar t).sortKey := by
  by_cases h : s.type = t.type
  · have hr : Ord.compare (scalar s).rank (scalar t).rank = .eq := by
      rw [rank, rank, h]
      exact Std.ReflCmp.compare_self
    rw [Scalar.totalCompare_eq_of_type_eq h, compare_sortKey, hr, Ordering.eq_then]
    rfl
  · have hr : (scalar s).rank ≠ (scalar t).rank := fun hr => h (ScalarType.classId_inj hr)
    rw [Scalar.totalCompare_eq_of_type_ne h, compare_sortKey_of_rank_ne hr]
    rfl

/-- Two variants are ordered by their keys. -/
theorem totalCompare_variant (c d : String) (i j : UInt32) :
    (variant c i).totalCompare (variant d j) =
      Ord.compare (variant c i).sortKey (variant d j).sortKey := by
  have hr : Ord.compare (variant c i).rank (variant d j).rank = .eq :=
    Std.ReflCmp.compare_self
  rw [compare_sortKey, hr, Ordering.eq_then]
  unfold innerKey textKey
  rw [compare_bytesKey_append, compare_singleton, ← compare_natCast]
  rfl

/-- The kinds of all other values are numbered apart from the types of scalars. -/
theorem rank_of_not_scalar {v : Value} (h : ∀ t, v ≠ scalar t) : v.rank = 0 ∨ 20 ≤ v.rank := by
  have hrank : 20 ≤ 20 ∧ 20 ≤ 21 ∧ 20 ≤ 22 ∧ 20 ≤ 23 ∧ 20 ≤ 24 ∧ 20 ≤ 25 ∧ 20 ≤ 26 ∧ 20 ≤ 27 := by
    decide
  obtain ⟨harray, hlist, hset, hsorted, hmap, hsortedMap, hvariant, hobject⟩ := hrank
  cases v with
  | null => exact .inl rfl
  | scalar t => exact absurd rfl (h t)
  | variant c i => exact .inr hvariant
  | collection id form items =>
    cases form with
    | array element => exact .inr harray
    | list => exact .inr hlist
    | set => exact .inr hset
    | sortedSet order => exact .inr hsorted
  | map id form entries =>
    cases form with
    | plain => exact .inr hmap
    | sorted order => exact .inr hsortedMap
  | object id c fields => exact .inr hobject

/-- Scalars, and only they, have the numbers of scalar types as their kinds. -/
theorem rank_ne_of_scalar (s : Scalar) (v : Value) (h : ∀ t, v ≠ scalar t) :
    (scalar s).rank ≠ v.rank := by
  have hpos : 1 ≤ (scalar s).rank := s.type.classId_pos
  have hle : (scalar s).rank ≤ 19 := s.type.classId_le
  have hv := rank_of_not_scalar h
  omega

/-- Variants, and only they, have the kind of variants. -/
theorem rank_ne_of_variant (c : String) (i : UInt32) (v : Value) (h : ∀ d j, v ≠ variant d j) :
    (variant c i).rank ≠ v.rank := by
  cases v with
  | scalar t => exact (rank_ne_of_scalar t (variant c i) fun u hu => by cases hu).symm
  | variant d j => exact absurd rfl (h d j)
  | null => exact (by decide : 26 ≠ 0)
  | collection id form items =>
    cases form with
    | array element => exact (by decide : 26 ≠ 20)
    | list => exact (by decide : 26 ≠ 21)
    | set => exact (by decide : 26 ≠ 22)
    | sortedSet order => exact (by decide : 26 ≠ 23)
  | map id form entries =>
    cases form with
    | plain => exact (by decide : 26 ≠ 24)
    | sorted order => exact (by decide : 26 ≠ 25)
  | object id d fields => exact (by decide : 26 ≠ 27)

/-- Two values that are not both scalars and not both variants are ordered by their kinds. -/
theorem totalCompare_eq_rank {a b : Value} (hs : ∀ s t, a = scalar s → b ≠ scalar t)
    (hv : ∀ c i d j, a = variant c i → b ≠ variant d j) :
    a.totalCompare b = Ord.compare a.rank b.rank := by
  cases a with
  | scalar s =>
    cases b with
    | scalar t => exact absurd rfl (hs s t rfl)
    | _ => rfl
  | variant c i =>
    cases b with
    | variant d j => exact absurd rfl (hv c i d j rfl)
    | _ => rfl
  | _ => rfl

/-- Values that are neither scalars nor variants have nothing to order them within their kind. -/
theorem innerKey_eq_nil {v : Value} (hs : ∀ s, v ≠ scalar s) (hv : ∀ c i, v ≠ variant c i) :
    v.innerKey = [] := by
  cases v with
  | scalar s => exact absurd rfl (hs s)
  | variant c i => exact absurd rfl (hv c i)
  | _ => rfl

/-- Values of one kind are both scalars, both variants, or tied. -/
theorem kinds_of_rank_eq {a b : Value} (h : a.rank = b.rank) :
    (∃ s t, a = scalar s ∧ b = scalar t) ∨
    (∃ c i d j, a = variant c i ∧ b = variant d j) ∨
    (∀ s, a ≠ scalar s) ∧ (∀ c i, a ≠ variant c i) ∧ a.innerKey = [] ∧ b.innerKey = [] := by
  by_cases hs : ∃ s, a = scalar s
  · obtain ⟨s, rfl⟩ := hs
    by_cases ht : ∃ t, b = scalar t
    · obtain ⟨t, rfl⟩ := ht
      exact .inl ⟨s, t, rfl, rfl⟩
    · exact absurd h (rank_ne_of_scalar s b fun t hb => ht ⟨t, hb⟩)
  have hb : ∀ t, b ≠ scalar t := by
    rintro t rfl
    exact rank_ne_of_scalar t a (fun s ha => hs ⟨s, ha⟩) h.symm
  by_cases hv : ∃ c i, a = variant c i
  · obtain ⟨c, i, rfl⟩ := hv
    by_cases hw : ∃ d j, b = variant d j
    · obtain ⟨d, j, rfl⟩ := hw
      exact .inr (.inl ⟨c, i, d, j, rfl, rfl⟩)
    · exact absurd h (rank_ne_of_variant c i b fun d j hb => hw ⟨d, j, hb⟩)
  have hw : ∀ d j, b ≠ variant d j := by
    rintro d j rfl
    exact rank_ne_of_variant d j a (fun c i ha => hv ⟨c, i, ha⟩) h.symm
  have hs' : ∀ s, a ≠ scalar s := fun s ha => hs ⟨s, ha⟩
  have hv' : ∀ c i, a ≠ variant c i := fun c i ha => hv ⟨c, i, ha⟩
  exact .inr (.inr ⟨hs', hv', innerKey_eq_nil hs' hv', innerKey_eq_nil hb hw⟩)

/-- The total order of values is the lexicographic order of their keys. -/
theorem totalCompare_eq (a b : Value) :
    a.totalCompare b = Ord.compare a.sortKey b.sortKey := by
  by_cases h : a.rank = b.rank
  · obtain ⟨s, t, rfl, rfl⟩ | ⟨c, i, d, j, rfl, rfl⟩ | ⟨hs, hv, ha, hb⟩ := kinds_of_rank_eq h
    · exact totalCompare_scalar s t
    · exact totalCompare_variant c d i j
    · rw [compare_sortKey_of_nil ha hb]
      exact totalCompare_eq_rank (fun s _ hs' => absurd hs' (hs s))
        (fun c i _ _ hv' => absurd hv' (hv c i))
  · by_cases hs : (∃ s, a = scalar s) ∧ ∃ t, b = scalar t
    · obtain ⟨⟨s, rfl⟩, t, rfl⟩ := hs
      exact totalCompare_scalar s t
    · rw [compare_sortKey_of_rank_ne h]
      refine totalCompare_eq_rank (fun s t ha hb => hs ⟨⟨s, ha⟩, t, hb⟩) ?_
      rintro c i d j rfl rfl
      exact h rfl

end Value

namespace Comparator

/-- The order of values is total and transitive. -/
theorem transCmp_totalCompare : Std.TransCmp Value.totalCompare := by
  have h : Value.totalCompare = compareOn Value.sortKey :=
    funext fun a => funext fun b => Value.totalCompare_eq a b
  rw [h]
  infer_instance

/-- The order of texts is total and transitive. -/
theorem transCmp_text : Std.TransCmp fun a b : Value => Scalar.compareText a.text b.text := by
  have h : (fun a b : Value => Scalar.compareText a.text b.text) =
      compareOn fun v : Value => textKey v.text :=
    funext fun a => funext fun b => compareText_eq a.text b.text
  rw [h]
  infer_instance

/-- The order by which a comparator sorts is total and transitive. -/
instance transCmp_sortOrder (c : Comparator) : Std.TransCmp c.sortOrder := by
  have hconst : Std.TransCmp fun _ _ : Value => Ordering.eq :=
    { eq_swap := rfl, isLE_trans := fun _ _ => rfl }
  have htotal := transCmp_totalCompare
  cases c with
  | natural => exact htotal
  | reverse => exact @Std.TransCmp.opposite _ _ htotal
  | allEqual => exact hconst
  | usingToString => exact transCmp_text
  | custom name => exact hconst

end Comparator

end RemoteCall
