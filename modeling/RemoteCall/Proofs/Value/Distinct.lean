import RemoteCall.Proofs.Value.Built
import RemoteCall.Proofs.Value.Equality

/-!
# Sets without repeats

The constructor of a set keeps the first of the items that are the same, and the constructor of a
map the last value of the keys that are, so no two items of a built set are the same and no two keys
of a built map. Whether that holds of a graph does not depend on the numbers of its instances. Where
it holds a map has one value for a key, however it is looked for.
-/

namespace RemoteCall

/-- No two of the items are the same. -/
def Unrepeated (key : α → Value) (elements : List α) : Prop :=
  elements.Pairwise fun a b => (key a).same (key b) = false

/-- No two items of the value are the same if it is a set, and no two keys if it is a map in order
of insertion. -/
def Value.Distinct : Value → Prop
  | collection _ .set items => Unrepeated (fun item => item) items
  | map _ .plain entries => Unrepeated (·.1) entries
  | _ => True

/-- No set in the graph has items that are the same, and no map keys that are. -/
def Graph.Distinct (g : Graph) : Prop := ∀ v, g.Holds v → v.Distinct

/-- The items of a set that is made of any items differ. -/
theorem unrepeated_distinct (items : List Value) :
    Unrepeated (fun item => item) (distinct items) := by
  have hstep {kept : List Value} (h : Unrepeated (fun item => item) kept) (item : Value) :
      Unrepeated (fun item => item)
        (if kept.any (·.same item) then kept else kept ++ [item]) := by
    split
    case isTrue => exact h
    case isFalse hnew =>
      refine List.pairwise_append.mpr ⟨h, List.pairwise_singleton _ _, fun a ha b hb => ?_⟩
      rw [List.mem_singleton.mp hb]
      exact Bool.eq_false_iff.mpr fun hsame => hnew (List.any_eq_true.mpr ⟨a, ha, hsame⟩)
  have hfold (kept : List Value) (h : Unrepeated (fun item => item) kept) :
      Unrepeated (fun item => item) (items.foldl
        (fun kept item => if kept.any (·.same item) then kept else kept ++ [item]) kept) := by
    induction items generalizing kept with
    | nil => exact h
    | cons item items ih => exact ih _ (hstep h item)
  exact hfold [] List.Pairwise.nil

section Entries

variable {key value : Value} {entries : List (Value × Value)}

/-- Putting an entry repeats no key. -/
theorem Unrepeated.putEntry (h : Unrepeated (·.1) entries) :
    Unrepeated (·.1) (putEntry key value entries) := by
  induction entries with
  | nil => exact List.pairwise_singleton _ _
  | cons e rest ih =>
    obtain ⟨k, v⟩ := e
    obtain ⟨hfirst, hrest⟩ := List.pairwise_cons.mp h
    rw [RemoteCall.putEntry]
    split
    case isTrue => exact List.pairwise_cons.mpr ⟨hfirst, hrest⟩
    case isFalse hne =>
      refine List.pairwise_cons.mpr ⟨fun d hd => ?_, ih hrest⟩
      change k.same d.1 = false
      rcases (mem_putEntry hd).1 with hd | ⟨e, he, hd⟩
      · rw [hd]
        exact Bool.eq_false_iff.mpr hne
      · rw [← hd]
        exact hfirst e he

/-- The keys of a map that is made of any entries differ. -/
theorem unrepeated_distinctEntries (entries : List (Value × Value)) :
    Unrepeated (·.1) (distinctEntries entries) := by
  have hfold (kept : List (Value × Value)) (h : Unrepeated (·.1) kept) :
      Unrepeated (·.1) (entries.foldl (fun kept e => RemoteCall.putEntry e.1 e.2 kept) kept) := by
    induction entries generalizing kept with
    | nil => exact h
    | cons e entries ih => exact ih _ h.putEntry
  exact hfold [] List.Pairwise.nil

/-- The value of a key is that of the first entry if its key is the same, else that of the rest. -/
theorem findValue?_cons (q k v : Value) (rest : List (Value × Value)) :
    findValue? q ((k, v) :: rest) = if k.same q then some v else findValue? q rest := by
  unfold findValue?
  rw [List.find?_cons]
  cases k.same q with
  | true => rfl
  | false => rfl

/-- The value of a key in one list of entries behind another is looked for in the first. -/
theorem findValue?_append (q : Value) (front back : List (Value × Value)) :
    findValue? q (front ++ back) = (findValue? q front).or (findValue? q back) := by
  unfold findValue?
  rw [List.find?_append, Option.map_or]

/-- No entry has a key. -/
theorem findValue?_eq_none {q : Value} (h : ∀ e ∈ entries, e.1.same q = false) :
    findValue? q entries = none := by
  unfold findValue?
  rw [List.find?_eq_none.mpr fun e he => by rw [h e he]; exact Bool.false_ne_true]
  rfl

/-- A key has the value that was put last. -/
theorem findValue?_putEntry (q : Value) : findValue? q (putEntry key value entries) =
    if key.same q then some value else findValue? q entries := by
  induction entries with
  | nil => exact findValue?_cons q key value []
  | cons e rest ih =>
    obtain ⟨k, v⟩ := e
    rw [RemoteCall.putEntry]
    split
    case isTrue hsame =>
      rw [findValue?_cons, findValue?_cons, ← Value.same_congr hsame q]
      split
      · rfl
      · rfl
    case isFalse hne =>
      rw [findValue?_cons, findValue?_cons, ih]
      by_cases hk : k.same q = true
      · have hkey : ¬ key.same q = true := fun hkey =>
          hne (Value.same_trans hk (Value.same_symm hkey))
        rw [if_pos hk, if_pos hk, if_neg hkey]
      · rw [if_neg hk, if_neg hk]

/-- In a map that is made of entries a key has the value of the last of them. -/
theorem findValue?_distinctEntries (q : Value) (entries : List (Value × Value)) :
    findValue? q (distinctEntries entries) = findValue? q entries.reverse := by
  have hfold (kept : List (Value × Value)) : findValue? q
      (entries.foldl (fun kept e => RemoteCall.putEntry e.1 e.2 kept) kept) =
        (findValue? q entries.reverse).or (findValue? q kept) := by
    induction entries generalizing kept with
    | nil => rfl
    | cons e entries ih =>
      rw [List.foldl_cons, ih, findValue?_putEntry, List.reverse_cons, findValue?_append,
        Option.or_assoc, findValue?_cons]
      split
      · rfl
      · rfl
  exact (hfold []).trans Option.or_none

/-- Where no key is repeated a key has one value, from whichever side it is looked for. -/
theorem Unrepeated.findValue?_reverse (h : Unrepeated (·.1) entries) (q : Value) :
    findValue? q entries.reverse = findValue? q entries := by
  induction entries with
  | nil => rfl
  | cons e rest ih =>
    obtain ⟨k, v⟩ := e
    obtain ⟨hfirst, hrest⟩ := List.pairwise_cons.mp h
    rw [List.reverse_cons, findValue?_append, ih hrest, findValue?_cons, findValue?_cons]
    by_cases hk : k.same q = true
    · have hnone : findValue? q rest = none := findValue?_eq_none fun d hd => by
        rw [Value.same_comm, ← Value.same_congr hk]
        exact hfirst d hd
      rw [if_pos hk, if_pos hk, hnone]
      rfl
    · rw [if_neg hk, if_neg hk]
      exact Option.or_none

end Entries

namespace Value

/-- What its constructor makes is distinct. -/
theorem Built.distinct {v : Value} (h : Built v) : v.Distinct := by
  cases h with
  | null => trivial
  | scalar s => trivial
  | variant c i => trivial
  | array parts made =>
    obtain ⟨rfl, _⟩ := ofArray_eq_ok_iff.mp made
    trivial
  | list id parts => trivial
  | set id parts => exact unrepeated_distinct _
  | sortedSet id c parts => trivial
  | map id parts => exact unrepeated_distinctEntries _
  | sortedMap id c parts => trivial
  | object id c parts => trivial

/-- Whether a value is distinct does not depend on the numbers of instances. -/
theorem distinct_bare (v : Value) : v.bare.Distinct ↔ v.Distinct := by
  cases v with
  | collection id form items =>
    cases form with
    | set =>
      rw [bare, bareItems_eq_map, Distinct, Distinct, Unrepeated, Unrepeated, List.pairwise_map]
      simp only [bare_same_bare]
    | _ => exact Iff.rfl
  | map id form entries =>
    cases form with
    | plain =>
      rw [bare, bareEntries_eq_map, Distinct, Distinct, Unrepeated, Unrepeated, List.pairwise_map]
      simp only [bare_same_bare]
    | sorted order => exact Iff.rfl
  | _ => exact Iff.rfl

/-- Paths are the same without numbers. -/
theorem at?_bare (v : Value) (path : List Nat) : v.bare.at? path = (v.at? path).map bare := by
  induction path generalizing v with
  | nil => rfl
  | cons i path ih =>
    rw [at?, at?, children_bare, List.getElem?_map]
    cases v.children[i]? with
    | none => rfl
    | some child => exact ih child

end Value

namespace Graph

/-- Places are the same without numbers. -/
theorem at?_bareItems (g : Graph) (p : List Nat) :
    at? (Value.bareItems g) p = (g.at? p).map Value.bare := by
  rw [Value.bareItems_eq_map]
  cases p with
  | nil => rfl
  | cons i path =>
    rw [at?, at?, List.getElem?_map]
    cases g[i]? with
    | none => rfl
    | some root => exact root.at?_bare path

/-- Whether a graph is distinct depends on its contents only. -/
theorem Distinct.of_contents {g h : Graph} (hg : g.Distinct)
    (he : Value.bareItems g = Value.bareItems h) : h.Distinct := by
  rintro v ⟨p, hp⟩
  have hplace : (g.at? p).map Value.bare = some v.bare := by
    rw [← at?_bareItems, he, at?_bareItems, hp]
    rfl
  obtain ⟨w, hw, hbare⟩ := Option.map_eq_some_iff.mp hplace
  rw [← Value.distinct_bare, ← hbare, Value.distinct_bare]
  exact hg w ⟨p, hw⟩

/-- Alike graphs are distinct together. -/
theorem Alike.distinct_iff {g h : Graph} (ha : g.Alike h) : h.Distinct ↔ g.Distinct :=
  ⟨fun hh => hh.of_contents ha.contents.symm, fun hg => hg.of_contents ha.contents⟩

end Graph

end RemoteCall
