import RemoteCall.Proofs.Value.Distinct

/-!
# Containers in order of insertion

Of items that are the same a set keeps the first, and of entries whose keys are the same a map keeps
the first key with the last value. What is not a number, and whatever holds such a part, is the same
as nothing, itself included: each occurrence of it is kept, and none is found.
-/

namespace RemoteCall

section Itself

/-- Whether a scalar is a floating-point datum that is not a number. -/
def Scalar.isNaN : Scalar → Bool
  | float bits => Ieee.single.isNaN bits.toNat
  | double bits => Ieee.double.isNaN bits.toNat
  | _ => false

/-- Whether a value is a floating-point datum that is not a number. -/
def Value.isNaN : Value → Bool
  | scalar s => s.isNaN
  | _ => false

/-- A floating-point number equals itself if it is one. -/
theorem Ieee.equal_self (f : Ieee) (bits : Nat) : f.equal bits bits = !f.isNaN bits := by
  simp only [equal, BEq.rfl, Bool.and_true, Bool.and_self]

/-- A scalar is the same as itself unless it is not a number. -/
theorem Scalar.same_self (s : Scalar) : s.same s = !s.isNaN := by
  cases s
  case float bits => exact Ieee.single.equal_self bits.toNat
  case double bits => exact Ieee.double.equal_self bits.toNat
  all_goals exact beq_self_eq_true _

namespace Value

/-- But for its parts a value is the same as itself unless it is not a number. -/
theorem sameHead_self (v : Value) : v.sameHead v = !v.isNaN := by
  cases v with
  | scalar s => exact s.same_self
  | _ => simp only [sameHead, isNaN, BEq.rfl, Bool.and_self, Bool.not_false]

/-- Values in a row are the same as themselves if each of them is. -/
theorem sameItems_self {vs : List Value} :
    sameItems vs vs = true ↔ ∀ v ∈ vs, v.same v = true := by
  induction vs with
  | nil => simp only [sameItems, List.not_mem_nil, false_implies, implies_true]
  | cons v vs ih => rw [sameItems_cons, ih, List.forall_mem_cons]

/-- A value is the same as itself exactly if nothing in it fails to be a number. -/
theorem same_self_iff (v : Value) :
    v.same v = true ↔ ∀ w, Graph.Holds [v] w → w.isNaN = false := by
  constructor
  · intro hv w hw
    have hself : w.same w = true := by
      refine Graph.Holds.induction (motive := fun u => u.same u = true) ?_ ?_ hw
      · intro root hroot
        rw [List.mem_singleton.mp hroot, hv]
      · exact fun u hu part hpart => sameItems_self.mp (same_iff.mp hu).2 part hpart
    have hhead := (same_iff.mp hself).1
    rw [sameHead_self] at hhead
    simpa only [Bool.not_eq_true'] using hhead
  · intro hnumbers
    induction v using byChildren with
    | step v ih =>
      have hroot : Graph.Holds [v] v := Graph.holds_of_mem List.mem_cons_self
      have hparts : ∀ part ∈ v.children, part.same part = true := by
        intro part hpart
        refine ih part hpart fun w hw => hnumbers w ?_
        refine Graph.Holds.induction (motive := Graph.Holds [v]) ?_ (fun u hu w => hu.child) hw
        intro u hu
        rw [List.mem_singleton.mp hu]
        exact hroot.child hpart
      have hhead : v.sameHead v = true := by rw [sameHead_self, hnumbers v hroot, Bool.not_false]
      exact same_iff.mpr ⟨hhead, sameItems_self.mpr hparts⟩

end Value

end Itself

section FirstOccurrences

variable {α : Type}

/-- The elements whose key is not the same as that of an earlier one, in their order. -/
def firstOccurrences (key : α → Value) (elements : List α) : List α :=
  (elements.zipIdx.filter fun e =>
    !(elements.take e.2).any fun earlier => (key earlier).same (key e.1)).map (·.1)

/-- One more element stays unless its key is the same as that of one before. -/
theorem firstOccurrences_concat (key : α → Value) (elements : List α) (x : α) :
    firstOccurrences key (elements ++ [x]) = firstOccurrences key elements ++
      if elements.any fun earlier => (key earlier).same (key x) then [] else [x] := by
  have hfront : ∀ e ∈ elements.zipIdx, (elements ++ [x]).take e.2 = elements.take e.2 := by
    intro e he
    have hlt : e.2 < 0 + elements.length := List.snd_lt_add_of_mem_zipIdx he
    exact List.take_append_of_le_length (by omega)
  have hlast : (elements ++ [x]).take elements.length = elements := List.take_left
  unfold firstOccurrences
  rw [List.zipIdx_append, List.filter_append, List.map_append]
  congr 1
  · refine congrArg (List.map Prod.fst) (List.filter_congr fun e he => ?_)
    rw [hfront e he]
  · simp only [Nat.zero_add, List.zipIdx_singleton, List.filter_cons, hlast, List.filter_nil]
    cases elements.any fun earlier => (key earlier).same (key x) <;> rfl

/-- An element with the key of another is among the first ones if it is there at all. -/
theorem any_firstOccurrences (key : α → Value) (elements : List α) (q : Value) :
    (firstOccurrences key elements).any (fun x => (key x).same q) =
      elements.any fun x => (key x).same q := by
  induction elements using List.reverseRecOn with
  | nil => rfl
  | append_singleton elements x ih =>
    rw [firstOccurrences_concat, List.any_append, List.any_append, ih]
    by_cases hearlier : elements.any fun earlier => (key earlier).same (key x)
    · obtain ⟨y, hy, hyx⟩ := List.any_eq_true.mp hearlier
      have hkept : (key x).same q = true → elements.any (fun x => (key x).same q) = true :=
        fun hx => List.any_eq_true.mpr ⟨y, hy, Value.same_trans hyx hx⟩
      rw [if_pos hearlier]
      simp only [List.any_nil, List.any_cons, Bool.or_false]
      cases hx : (key x).same q with
      | false => rw [Bool.or_false]
      | true => rw [hkept hx, Bool.or_true]
    · rw [if_neg hearlier]

end FirstOccurrences

section Sets

/-- A set of one more item has it if no item is the same. -/
theorem distinct_concat (items : List Value) (x : Value) : distinct (items ++ [x]) =
    distinct items ++ if (distinct items).any (·.same x) then [] else [x] := by
  unfold distinct
  rw [List.foldl_append, List.foldl_cons, List.foldl_nil]
  split
  · rw [List.append_nil]
  · rfl

/-- A set keeps the first occurrence of each item. -/
theorem distinct_eq_firstOccurrences (items : List Value) :
    distinct items = firstOccurrences (fun item => item) items := by
  induction items using List.reverseRecOn with
  | nil => rfl
  | append_singleton items x ih =>
    rw [distinct_concat, firstOccurrences_concat, ih,
      any_firstOccurrences (fun item => item) items x]

/-- A set contains what is the same as an item that it was made of. -/
theorem containsValue_distinct (x : Value) (items : List Value) :
    containsValue x (distinct items) = containsValue x items := by
  rw [distinct_eq_firstOccurrences]
  exact any_firstOccurrences (fun item => item) items x

end Sets

section Maps

variable {entries : List (Value × Value)}

/-- The value of the last entry with an equal key. -/
def lastValue? (key : Value) (entries : List (Value × Value)) : Option Value :=
  (entries.filter fun e => e.1.same key).getLast?.map (·.2)

/-- The last entry comes first from behind. -/
theorem findValue?_reverse (key : Value) (entries : List (Value × Value)) :
    findValue? key entries.reverse = lastValue? key entries := by
  unfold findValue? lastValue?
  rw [← List.head?_filter, List.filter_reverse, List.head?_reverse]

/-- One more entry is the last one of its key. -/
theorem lastValue?_concat (key : Value) (entries : List (Value × Value)) (e : Value × Value) :
    lastValue? key (entries ++ [e]) =
      if e.1.same key then some e.2 else lastValue? key entries := by
  rw [← findValue?_reverse, List.reverse_append, List.reverse_singleton, List.singleton_append,
    findValue?_cons, findValue?_reverse]

/-- Among keys that differ, putting an entry changes the value of its key, or adds the entry. -/
theorem Unrepeated.putEntry_eq (h : Unrepeated (·.1) entries) (key value : Value) :
    RemoteCall.putEntry key value entries =
      entries.map (fun e => if e.1.same key then (e.1, value) else e) ++
        if entries.any (·.1.same key) then [] else [(key, value)] := by
  induction entries with
  | nil => rfl
  | cons e rest ih =>
    obtain ⟨hfirst, hrest⟩ := List.pairwise_cons.mp h
    rw [RemoteCall.putEntry, List.map_cons, List.any_cons]
    by_cases hsame : e.1.same key = true
    · -- The key is the same as the first one, so it differs from all others.
      have hothers : ∀ d ∈ rest, d.1.same key = false := by
        intro d hd
        rw [Value.same_comm, ← Value.same_congr hsame]
        exact hfirst d hd
      have hid : rest.map (fun d => if d.1.same key then (d.1, value) else d) = rest := by
        refine (List.map_congr_left fun d hd => ?_).trans (List.map_id rest)
        rw [hothers d hd]
        rfl
      simp only [hsame, if_true, Bool.true_or, List.append_nil, hid]
    · have hdiffers : e.1.same key = false := Bool.eq_false_iff.mpr hsame
      simp only [hdiffers, Bool.false_eq_true, if_false, Bool.false_or, List.cons_append, ih hrest]

/-- A map of one more entry is the map with the entry put into it. -/
theorem distinctEntries_concat (entries : List (Value × Value)) (e : Value × Value) :
    distinctEntries (entries ++ [e]) = RemoteCall.putEntry e.1 e.2 (distinctEntries entries) := by
  unfold distinctEntries
  rw [List.foldl_append, List.foldl_cons, List.foldl_nil]

/-- A map keeps the first occurrence of each key, with the last value; a key that is the same as
nothing keeps its own value. -/
theorem distinctEntries_eq (entries : List (Value × Value)) : distinctEntries entries =
    (firstOccurrences (·.1) entries).map fun e => (e.1, (lastValue? e.1 entries).getD e.2) := by
  induction entries using List.reverseRecOn with
  | nil => rfl
  | append_singleton entries e ih =>
    have hfind : ((firstOccurrences (·.1) entries).map fun d : Value × Value =>
        (d.1, (lastValue? d.1 entries).getD d.2)).any (·.1.same e.1) =
          entries.any (·.1.same e.1) := by
      rw [List.any_map]
      exact any_firstOccurrences (·.1) entries e.1
    rw [distinctEntries_concat, (unrepeated_distinctEntries entries).putEntry_eq, ih, hfind,
      firstOccurrences_concat, List.map_append, List.map_map]
    congr 1
    · refine List.map_congr_left fun d _ => ?_
      simp only [Function.comp_apply, lastValue?_concat, Value.same_comm e.1]
      split <;> rfl
    · by_cases hearlier : entries.any (·.1.same e.1) = true
      · rw [if_pos hearlier, List.map_nil]
      · have hnone : lastValue? e.1 entries = none := by
          rw [← findValue?_reverse]
          refine findValue?_eq_none fun d hd => Bool.eq_false_iff.mpr fun hsame => ?_
          exact hearlier (List.any_eq_true.mpr ⟨d, List.mem_reverse.mp hd, hsame⟩)
        rw [if_neg hearlier, List.map_singleton, lastValue?_concat, hnone]
        split <;> rfl

end Maps

/-- What a set holds of the items that it is made of. -/
structure HoldsFirsts (items kept : List Value) : Prop where
  /-- Each item that no earlier one is the same as, and nothing else, in the given order. -/
  firsts : kept = firstOccurrences (fun item => item) items
  unrepeated : Unrepeated (fun item => item) kept
  /-- What is contained is what is the same as a given item. -/
  contains : ∀ x, containsValue x kept = true ↔ ∃ item ∈ items, item.same x = true

/-- What a map holds of the entries that it is made of. -/
structure HoldsLasts (entries kept : List (Value × Value)) : Prop where
  /-- Each key that no earlier one is the same as, and nothing else, in the given order, with the
  value of the last entry of that key. A key that is the same as nothing keeps its own value. -/
  lasts : kept =
    (firstOccurrences (·.1) entries).map fun e => (e.1, (lastValue? e.1 entries).getD e.2)
  unrepeated : Unrepeated (·.1) kept
  /-- What is found for a key is the value of the last given entry with the same key. -/
  get : ∀ key, findValue? key kept = lastValue? key entries
  /-- Nothing is found if there is no such entry. -/
  absent : ∀ key, findValue? key kept = none ↔ ∀ e ∈ entries, e.1.same key = false

/-- No entry has a key exactly if no last one does. -/
theorem lastValue?_eq_none_iff (key : Value) (entries : List (Value × Value)) :
    lastValue? key entries = none ↔ ∀ e ∈ entries, e.1.same key = false := by
  unfold lastValue?
  simp only [Option.map_eq_none_iff, List.getLast?_eq_none_iff, List.filter_eq_nil_iff,
    Bool.not_eq_true]

/-- **Sets and maps in order of insertion.** Sameness is symmetric and transitive, and a value is
the same as itself exactly if nothing in it fails to be a number. By this relation a set holds the
first occurrence of each item that it is made of and contains what is the same as one of them, and
a map holds the first occurrence of each key and finds for a key the value of the last entry with
it. -/
theorem insertion_firsts_lasts (id : Nat) (items : List Value) (entries : List (Value × Value)) :
    ((∀ a b : Value, a.same b = b.same a) ∧
      (∀ a b c : Value, a.same b = true → b.same c = true → a.same c = true) ∧
      ∀ v : Value, v.same v = true ↔ ∀ w, Graph.Holds [v] w → w.isNaN = false) ∧
    (∃ kept, Value.ofSet id items = .collection id .set kept ∧ HoldsFirsts items kept) ∧
    ∃ kept, Value.ofEntries id entries = .map id .plain kept ∧ HoldsLasts entries kept := by
  have hget : ∀ key, findValue? key (distinctEntries entries) = lastValue? key entries := by
    intro key
    rw [findValue?_distinctEntries, findValue?_reverse]
  refine ⟨⟨Value.same_comm, fun a b c => Value.same_trans, Value.same_self_iff⟩,
    ⟨distinct items, rfl, ?_⟩, distinctEntries entries, rfl, ?_⟩
  · constructor
    case firsts => exact distinct_eq_firstOccurrences items
    case unrepeated => exact unrepeated_distinct items
    case contains =>
      intro x
      rw [containsValue_distinct, containsValue, List.any_eq_true]
  · constructor
    case lasts => exact distinctEntries_eq entries
    case unrepeated => exact unrepeated_distinctEntries entries
    case get => exact hget
    case absent =>
      intro key
      rw [hget, lastValue?_eq_none_iff]

/-- What is not a number stays each time, as an item and as a key, and a number only once. -/
example :
    let nan : Value := .scalar (.float 0x7fc00000)
    let one : Value := .scalar (.int 1)
    distinct [nan, one, nan, one] = [nan, one, nan] ∧
      distinctEntries [(one, nan), (nan, one), (nan, nan), (one, one)] =
        [(one, one), (nan, one), (nan, nan)] := ⟨rfl, rfl⟩

end RemoteCall
