import RemoteCall.Proofs.Codec.Renaming
import RemoteCall.Proofs.Codec.RoundTrip
import RemoteCall.Proofs.Codec.Transcript
import RemoteCall.Proofs.Value.Listing

/-!
# The order of instances on the wire

Every instance of a coherent graph is written in full once, at its first place, and the number by
which it is repeated is its rank among the first places. A repeat stands for an instance that has
ended. For the numbers of instances this leaves no say: they decide which places are one instance,
and nothing else of them is written.
-/

namespace RemoteCall

/-- The numbers that stand already, and behind them each other one at its first place. -/
def firsts (t ns : List Nat) : List Nat := ns.foldl (fun t n => if n ∈ t then t else t ++ [n]) t

section Firsts

variable {t ns ms : List Nat} {n : Nat}

/-- Numbers are added one stretch after the other. -/
theorem firsts_append : firsts t (ns ++ ms) = firsts (firsts t ns) ms := List.foldl_append

/-- A number that stands already is not added. -/
theorem firsts_cons_of_mem (h : n ∈ t) : firsts t (n :: ns) = firsts t ns := by
  rw [firsts, List.foldl_cons, if_pos h, firsts]

/-- A number that does not stand yet is added at the end. -/
theorem firsts_cons_of_notMem (h : n ∉ t) : firsts t (n :: ns) = firsts (t ++ [n]) ns := by
  rw [firsts, List.foldl_cons, if_neg h, firsts]

/-- Numbers that stand already add nothing. -/
theorem firsts_of_subset (h : ns ⊆ t) : firsts t ns = t := by
  induction ns with
  | nil => rfl
  | cons n ns ih =>
    rw [firsts_cons_of_mem (h List.mem_cons_self), ih fun m hm => h (List.mem_cons_of_mem n hm)]

/-- The numbers that stand afterwards stood before or were added. -/
theorem mem_firsts : n ∈ firsts t ns ↔ n ∈ t ∨ n ∈ ns := by
  induction ns generalizing t with
  | nil => simp [firsts]
  | cons m ns ih =>
    by_cases hm : m ∈ t
    · rw [firsts_cons_of_mem hm, ih, List.mem_cons]
      constructor
      · exact fun h => h.imp_right .inr
      · rintro (h | rfl | h)
        · exact .inl h
        · exact .inl hm
        · exact .inr h
    · rw [firsts_cons_of_notMem hm, ih, List.mem_append, List.mem_singleton, List.mem_cons,
        or_assoc]

end Firsts

namespace Transcript

/-- Whatever the transcript repeats stands at its position among those that have begun, and has
ended. -/
def Repeats : (begun ended : List Nat) → Transcript → Prop
  | _, _, [] => True
  | t, done, .plain _ :: log => Repeats t done log
  | t, done, .begins n :: log => Repeats (t ++ [n]) done log
  | t, done, .ends n :: log => Repeats t (done ++ [n]) log
  | t, done, .repeats n position :: log =>
    t[position]? = some n ∧ n ∈ done ∧ Repeats t done log

/-- A transcript in two stretches repeats what has ended if both do, the second with what the first
has begun and ended. -/
theorem repeats_append {t done : List Nat} {log log' : Transcript} :
    Repeats t done (log ++ log') ↔
      Repeats t done log ∧ Repeats (t ++ begun log) (done ++ ended log) log' := by
  induction log generalizing t done with
  | nil =>
    rw [begun_nil, ended_nil, List.append_nil, List.append_nil, List.nil_append]
    exact (and_iff_right trivial).symm
  | cons mark log ih =>
    cases mark with
    | plain bytes => exact ih
    | begins n =>
      have h := @ih (t ++ [n]) done
      rwa [List.append_assoc] at h
    | ends n =>
      have h := @ih t (done ++ [n])
      rwa [List.append_assoc done] at h
    | «repeats» n position =>
      rw [List.cons_append, Repeats, Repeats, ih, begun_repeats, ended_repeats, and_assoc,
        and_assoc]

/-- A repeat in the middle stands for an instance that has begun and ended in front of it. -/
theorem Repeats.at {before after : Transcript} {n position : Nat}
    (h : Repeats [] [] (before ++ .repeats n position :: after)) :
    before.begun[position]? = some n ∧ .ends n ∈ before := by
  obtain ⟨-, hbegun, hended, -⟩ := repeats_append.mp h
  exact ⟨hbegun, ends_mem hended⟩

end Transcript

namespace Encoder

section Rows

variable {s : CodecSettings} {t t' : List Nat} {vs : List Value} {log : Transcript}

/-- The table has grown by what has begun. -/
theorem Logs.table_eq (h : Logs s t vs log t') : t' = t ++ log.begun := by
  induction h with
  | done t => exact (List.append_nil t).symm
  | plain bytes after ih => exact ih
  | inPlace untracked parts after ihparts ih =>
    rw [ih, ihparts, Transcript.begun_append, List.append_assoc]
  | again tracked found after ih => exact ih
  | first tracked new written parts after ihparts ih =>
    rw [ih, ihparts, Transcript.begun_begins, Transcript.begun_append, Transcript.begun_ends]
    simp only [List.append_assoc, List.cons_append, List.nil_append]

/-- What has begun has ended. -/
theorem Logs.begun_subset_ended (h : Logs s t vs log t') : log.begun ⊆ log.ended := by
  induction h with
  | done t => exact List.nil_subset _
  | plain bytes after ih => exact ih
  | inPlace untracked parts after ihparts ih =>
    rw [Transcript.begun_append, Transcript.ended_append]
    exact List.append_subset.mpr ⟨List.subset_append_of_subset_left _ ihparts,
      List.subset_append_of_subset_right _ ih⟩
  | again tracked found after ih => exact ih
  | @first t t₁ t' v n room vs inner log tracked new written parts after ihparts ih =>
    intro m hm
    simp only [Transcript.begun_begins, Transcript.begun_append, Transcript.begun_ends,
      List.mem_cons, List.mem_append] at hm
    simp only [Transcript.ended_begins, Transcript.ended_append, Transcript.ended_ends,
      List.mem_cons, List.mem_append]
    rcases hm with rfl | hm | hm
    · exact .inr (.inl rfl)
    · exact .inl (ihparts hm)
    · exact .inr (.inr (ih hm))

/-- An instance is written in full: between its beginning and its end stands what its body is
written with when only the instances in front of it have begun. -/
def InFull (s : CodecSettings) (t : List Nat) (v : Value) (n : Nat) (log : Transcript) : Prop :=
  ∃ room, ∃ before inner after : Transcript,
    log = before ++ .begins n :: (inner ++ .ends n :: after) ∧
      body s room v (t ++ before.begun) =
        .ok (0 :: inner.spell, t ++ before.begun ++ n :: inner.begun)

/-- What is written in full behind a transcript is written in full in the longer one. -/
theorem InFull.behind {u : List Nat} {v : Value} {n : Nat} (front : Transcript)
    (hu : u = t ++ front.begun) (h : InFull s u v n log) : InFull s t v n (front ++ log) := by
  obtain ⟨room, before, inner, after, rfl, hbody⟩ := h
  refine ⟨room, front ++ before, inner, after, (List.append_assoc ..).symm, ?_⟩
  rwa [Transcript.begun_append, ← List.append_assoc, ← hu]

/-- What is written in full stays so in front of a transcript. -/
theorem InFull.before {v : Value} {n : Nat} (h : InFull s t v n log) (back : Transcript) :
    InFull s t v n (log ++ back) := by
  obtain ⟨room, before, inner, after, rfl, hbody⟩ := h
  refine ⟨room, before, inner, after ++ back, ?_, hbody⟩
  simp only [List.append_assoc, List.cons_append]

end Rows

/-- The instances of a table that are not open have ended, and with each of them the table has all
the instances in it. -/
def Settled (g : Graph) (opened done t : List Nat) : Prop :=
  ∀ n ∈ t, n ∉ opened → n ∈ done ∧ ∀ w, g.Holds w → w.instanceId? = some n → w.instances ⊆ t

section Coherent

variable {s : CodecSettings} {g : Graph} {opened done t t' : List Nat} {vs : List Value}
  {log : Transcript}

/-- When the instances of a value have joined the table and have ended, they are settled. -/
theorem Settled.join (hg : g.Coherent) {v : Value} (hv : g.Holds v)
    (h : Settled g opened done t) {added ended : List Nat}
    (htable : firsts t v.instances = t ++ added) (hended : added ⊆ ended) :
    Settled g opened (done ++ ended) (firsts t v.instances) := by
  have hgrown : t ⊆ firsts t v.instances := fun n hn => mem_firsts.mpr (.inl hn)
  have hjoined : v.instances ⊆ firsts t v.instances := fun n hn => mem_firsts.mpr (.inr hn)
  intro n hn hclosed
  by_cases hold : n ∈ t
  · obtain ⟨hdone, hinside⟩ := h n hold hclosed
    exact ⟨List.mem_append_left _ hdone, fun w hw hid =>
      List.Subset.trans (hinside w hw hid) hgrown⟩
  · have hnew : n ∈ v.instances := (mem_firsts.mp hn).resolve_left hold
    rw [htable] at hn
    have hadded := (List.mem_append.mp hn).resolve_left hold
    exact ⟨List.mem_append_right _ (hended hadded), fun w hw hid =>
      List.Subset.trans (hg.instances_subset hv hnew hw hid) hjoined⟩

/-- An instance that begins is open. -/
theorem Settled.begin (h : Settled g opened done t) (n : Nat) :
    Settled g (n :: opened) done (t ++ [n]) := by
  intro m hm hmem
  obtain ⟨hne, hclosed⟩ := not_or.mp (mt List.mem_cons.mpr hmem)
  have hold : m ∈ t :=
    (List.mem_append.mp hm).resolve_right fun h => hne (List.mem_singleton.mp h)
  obtain ⟨hdone, hinside⟩ := h m hold hclosed
  exact ⟨hdone, fun w hw hid => List.subset_append_of_subset_left _ (hinside w hw hid)⟩

/-- While an instance is open, it does not stand in its parts. -/
theorem not_mem_opened_of_parts (hg : g.Coherent) {v : Value} {n : Nat} (hv : g.Holds v)
    (hid : v.instanceId? = some n) (hopen : ∀ m ∈ v.instances, m ∉ opened) :
    ∀ m ∈ Value.instancesOf v.children, m ∉ n :: opened := by
  intro m hm hmem
  obtain ⟨w, hw, hin⟩ := Value.mem_instancesOf.mp hm
  rcases List.mem_cons.mp hmem with rfl | hmem
  · exact hg.not_mem_instances_of_mem_children hv hid hw hin
  · exact hopen m (Value.instances_subset_of_mem_children hw hin) hmem

/-- A row of a coherent graph, none of whose instances is open, adds each of its instances at its
first place, and repeats what has ended. -/
theorem Logs.ordered (hg : g.Coherent) (h : Logs s t vs log t') :
    ∀ opened done, (∀ v ∈ vs, g.Holds v) → (∀ n ∈ Value.instancesOf vs, n ∉ opened) →
      Settled g opened done t →
      t' = firsts t (Value.instancesOf vs) ∧ Transcript.Repeats t done log := by
  induction h with
  | done t => exact fun opened done hv hopen hsettled => ⟨rfl, trivial⟩
  | plain bytes after ih => exact ih
  | @inPlace t t₁ t' v vs log log' untracked parts after ihparts ih =>
    intro opened done hv hopen hsettled
    obtain ⟨hheld, hrest⟩ := List.forall_mem_cons.mp hv
    obtain ⟨hopen₁, hopen₂⟩ := List.forall_mem_append.mp hopen
    have hinstances : v.instances = Value.instancesOf v.children := by
      rw [v.instances_eq, untracked]
      rfl
    obtain ⟨htable, hrepeats⟩ :=
      ihparts opened done (fun _ hw => hheld.child hw) (hinstances ▸ hopen₁) hsettled
    rw [← hinstances] at htable
    have hgrown := parts.table_eq
    have hjoined := hsettled.join hg hheld (htable ▸ hgrown) parts.begun_subset_ended
    rw [← htable] at hjoined
    obtain ⟨htable', hrepeats'⟩ := ih opened _ hrest hopen₂ hjoined
    rw [Value.instancesOf, firsts_append, ← htable]
    exact ⟨htable', Transcript.repeats_append.mpr ⟨hrepeats, hgrown ▸ hrepeats'⟩⟩
  | @again t t' v n position vs log tracked found after ih =>
    intro opened done hv hopen hsettled
    obtain ⟨hheld, hrest⟩ := List.forall_mem_cons.mp hv
    obtain ⟨hopen₁, hopen₂⟩ := List.forall_mem_append.mp hopen
    obtain ⟨hlt, hat, -⟩ := List.idxOf?_eq_some_iff.mp found
    have hstands : t[position]? = some n := List.getElem?_eq_some_iff.mpr ⟨hlt, hat⟩
    have hclosed := hopen₁ n (Value.mem_instances_of_instanceId? tracked)
    obtain ⟨hended, hinside⟩ := hsettled n (List.mem_of_getElem? hstands) hclosed
    obtain ⟨htable, hrepeats⟩ := ih opened done hrest hopen₂ hsettled
    rw [Value.instancesOf, firsts_append, firsts_of_subset (hinside v hheld tracked)]
    exact ⟨htable, hstands, hended, hrepeats⟩
  | @first t t₁ t' v n room vs inner log tracked new written parts after ihparts ih =>
    intro opened done hv hopen hsettled
    obtain ⟨hheld, hrest⟩ := List.forall_mem_cons.mp hv
    obtain ⟨hopen₁, hopen₂⟩ := List.forall_mem_append.mp hopen
    have hinstances : v.instances = n :: Value.instancesOf v.children := by
      rw [v.instances_eq, tracked]
      rfl
    obtain ⟨htable, hrepeats⟩ := ihparts (n :: opened) done (fun _ hw => hheld.child hw)
      (not_mem_opened_of_parts hg hheld tracked hopen₁) (hsettled.begin n)
    rw [← firsts_cons_of_notMem new, ← hinstances] at htable
    have hgrown := parts.table_eq
    -- The instance has ended behind everything that has begun in it.
    have hended : n :: inner.begun ⊆ inner.ended ++ [n] :=
      List.cons_subset.mpr ⟨List.mem_append_right _ List.mem_cons_self,
        List.subset_append_of_subset_left _ parts.begun_subset_ended⟩
    have hadded : firsts t v.instances = t ++ n :: inner.begun := by
      rw [← htable, hgrown, List.append_assoc, List.singleton_append]
    have hjoined := hsettled.join hg hheld hadded hended
    rw [← htable] at hjoined
    obtain ⟨htable', hrepeats'⟩ := ih opened _ hrest hopen₂ hjoined
    rw [Value.instancesOf, firsts_append, ← htable]
    refine ⟨htable', Transcript.repeats_append.mpr ⟨hrepeats, ?_⟩⟩
    rw [← hgrown, Transcript.Repeats, List.append_assoc]
    exact hrepeats'

end Coherent

end Encoder

namespace Diamond

/-- An empty list. -/
def tip : Value := .collection 9 .list []

/-- A set with the list in it. -/
def side : Value := .collection 4 .set [tip]

/-- A list of the set, the list in the set, and the set again. -/
def value : Value := .collection 7 .list [side, tip, side]

/-- The whole, the set, the list in the set, and references to the two. -/
def bytes : List UInt8 := [23, 0, 1, 3, 23, 0, 2, 1, 23, 0, 1, 0, 3, 2]

/-- Both parts are the same wherever they stand. -/
theorem coherent : Graph.Coherent [value] := by
  have hlisted : Graph.listedBy [value] [value, side, tip] = true := by decide
  exact Graph.coherent_of_listedBy hlisted (by decide)

end Diamond

end RemoteCall
