import Mathlib.Data.Set.Function
import RemoteCall.Proofs.Codec.Writing
import RemoteCall.Proofs.Value.Instances

/-!
# Renaming instances

A writer uses the number of an instance for one thing only: to look it up among those written
before. So if the instances of a graph are renumbered, and no two of them become one, every writer
does the same with the renumbered table as it did with the table, and gives the same bytes or the
same error.
-/

namespace RemoteCall

namespace Value

end Value

namespace Encoder

section Tags

variable (f : Nat → Nat)

end Tags

/-- An instance is a marker, or its contents with the instance at the end of the table. -/
theorem track_apply (id : Nat) (contents : Encoder (List UInt8)) (t : List Nat) :
    track id contents t = match t.idxOf? id with
      | some position => .ok (marker position, t)
      | none => (contents (t ++ [id])).map fun r => (0 :: r.1, r.2) := by
  change (match t.idxOf? id with
    | some position => pure (marker position)
    | none => do
      set (t ++ [id])
      return 0 :: (← contents) : Encoder (List UInt8)) t = _
  cases t.idxOf? id with
  | some position => rfl
  | none =>
    change Except.bind (contents (t ++ [id])) _ = _
    cases contents (t ++ [id]) with
    | error e => rfl
    | ok r => rfl

/-- An instance stands in the renumbered table where it stood in the table. -/
theorem idxOf?_map {f : Nat → Nat} {S : Set Nat} (hf : S.InjOn f) {id : Nat} (hid : id ∈ S)
    {t : List Nat} (ht : ∀ n ∈ t, n ∈ S) : (t.map f).idxOf? (f id) = t.idxOf? id := by
  induction t with
  | nil => rfl
  | cons n t ih =>
    have hn : (f n == f id) = (n == id) := by
      have hiff : f n = f id ↔ n = id := hf.eq_iff (ht n List.mem_cons_self) hid
      rw [Bool.eq_iff_iff, beq_iff_eq, beq_iff_eq, hiff]
    rw [List.map_cons, List.idxOf?_cons, List.idxOf?_cons, hn,
      ih fun m hm => ht m (List.mem_cons_of_mem n hm)]

/-- With a renumbered table the one writer does what the other does with the table, as long as the
table has only numbers of a set. -/
structure Renames (S : Set Nat) (f : Nat → Nat) (w' w : Encoder α) : Prop where
  /-- The table gets no other numbers. -/
  within : ∀ {t a t'}, (∀ n ∈ t, n ∈ S) → w t = .ok (a, t') → ∀ n ∈ t', n ∈ S
  /-- The results and the errors are the same, and the tables are renumbered. -/
  run : ∀ {t}, (∀ n ∈ t, n ∈ S) → w' (t.map f) = (w t).map fun p => (p.1, p.2.map f)

namespace Renames

variable {S : Set Nat} {f : Nat → Nat}

/-- Writers in sequence. -/
theorem bind {w' w : Encoder α} {k' k : α → Encoder β} (hw : Renames S f w' w)
    (hk : ∀ a, Renames S f (k' a) (k a)) : Renames S f (w' >>= k') (w >>= k) where
  within := by
    intro t b t' ht h
    obtain ⟨a, t₁, ha, h⟩ := bind_eq_ok h
    exact (hk a).within (hw.within ht ha) h
  run := by
    intro t ht
    change Except.bind (w' (t.map f)) (fun r => k' r.1 r.2) =
      (Except.bind (w t) fun r => k r.1 r.2).map _
    rw [hw.run ht]
    cases ha : w t with
    | error e => rfl
    | ok r => exact (hk r.1).run (hw.within ht ha)

/-- A known result. -/
theorem pure (a : α) : Renames S f (Pure.pure a) (Pure.pure a) where
  within := by
    intro t b t' ht h
    obtain ⟨-, rfl⟩ := pure_eq_ok h
    exact ht
  run := fun _ => rfl

/-- A failure. -/
theorem throw (e : CodecError) : Renames S f (MonadExcept.throw e : Encoder α)
    (MonadExcept.throw e) where
  within := fun _ h => nomatch h
  run := fun _ => rfl

/-- A check, which does not look at the table. -/
theorem lift (x : Except CodecError α) : Renames S f (liftM x : Encoder α) (liftM x) := by
  cases x with
  | error e => exact throw e
  | ok a => exact pure a

/-- A writer that is chosen by a condition is renamed with both. -/
theorem ite {p : Prop} [Decidable p] {w' w v' v : Encoder α} (hw : Renames S f w' w)
    (hv : Renames S f v' v) : Renames S f (if p then w' else v') (if p then w else v) := by
  split
  · exact hw
  · exact hv

/-- Going deeper. -/
theorem deeper (s : CodecSettings) (room : Nat) {inner' inner : Nat → Encoder α}
    (h : ∀ left, Renames S f (inner' left) (inner left)) :
    Renames S f (Encoder.deeper s room inner') (Encoder.deeper s room inner) := by
  cases room with
  | zero => exact throw _
  | succ left => exact h left

/-- An instance is written again if it was written before, and else for the first time. -/
theorem track (hf : S.InjOn f) {id : Nat} (hid : id ∈ S) {contents' contents : Encoder (List UInt8)}
    (h : Renames S f contents' contents) :
    Renames S f (Encoder.track (f id) contents') (Encoder.track id contents) where
  within := by
    intro t bytes t' ht hw
    cases track_eq_ok hw with
    | again position found => exact ht
    | first new written =>
      exact h.within (List.forall_mem_append.mpr ⟨ht, List.forall_mem_singleton.mpr hid⟩) written
  run := by
    intro t ht
    rw [track_apply, track_apply, idxOf?_map hf hid ht]
    cases t.idxOf? id with
    | some position => rfl
    | none =>
      have hrun := h.run (List.forall_mem_append.mpr ⟨ht, List.forall_mem_singleton.mpr hid⟩)
      rw [List.map_append, List.map_singleton] at hrun
      dsimp only
      rw [hrun]
      cases contents (t ++ [id]) with
      | error e => rfl
      | ok r => rfl

end Renames

section Values

variable {S : Set Nat} {f : Nat → Nat} (s : CodecSettings)

end Values

end Encoder

end RemoteCall
