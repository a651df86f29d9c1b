import RemoteCall.Proofs.Wire.Reading

/-!
# What readers give

A reader accepts more spellings of a datum than the one that a writer uses, but gives no datum that
a writer could not spell: numbers are words of 64 bits however many groups they came in, counts and
lengths are such numbers, and a text has the bytes that it was read from.
-/

namespace RemoteCall

namespace Reader

/-- Whatever the reader gives has the property. -/
def Gives (P : α → Prop) (r : Reader α) : Prop :=
  ∀ input a rest, r input = .ok (a, rest) → P a

namespace Gives

variable {P : α → Prop} {Q : β → Prop}

/-- Readers in sequence. -/
theorem bind {r : Reader α} {f : α → Reader β} (hr : Gives P r)
    (hf : ∀ a, P a → Gives Q (f a)) : Gives Q (r >>= f) := by
  intro input b rest h
  obtain ⟨a, middle, ha, h⟩ := bind_eq_ok h
  exact hf a (hr input a middle ha) middle b rest h

/-- A step of which nothing needs to be known. -/
theorem bind_any {r : Reader α} {f : α → Reader β} (hf : ∀ a, Gives Q (f a)) :
    Gives Q (r >>= f) :=
  bind (P := fun _ => True) (fun _ _ _ _ => trivial) fun a _ => hf a

/-- A datum that is only rewrapped. -/
theorem map {r : Reader α} (f : α → β) (hr : Gives (fun a => Q (f a)) r) : Gives Q (f <$> r) := by
  rw [← bind_pure_comp]
  refine bind hr fun a ha => ?_
  intro input b rest h
  cases h
  exact ha

/-- A known datum. -/
theorem pure {a : α} (h : P a) : Gives P (Pure.pure a : Reader α) := by
  intro input b rest hr
  cases hr
  exact h

/-- A failure gives nothing. -/
theorem throw (e : CodecError) : Gives P (throw e : Reader α) := by
  intro input a rest h
  cases h

/-- A check that succeeds. -/
theorem lift {x : Except CodecError α} (h : ∀ a, x = .ok a → P a) :
    Gives P (liftM x : Reader α) := by
  intro input a rest hr
  cases x with
  | error e => cases hr
  | ok b =>
    cases hr
    exact h _ rfl

/-- A datum that is given if a condition holds. -/
theorem ite {p : Prop} [Decidable p] {r q : Reader α} (hr : p → Gives P r) (hq : ¬ p → Gives P q) :
    Gives P (if p then r else q) := by
  split
  · exact hr ‹_›
  · exact hq ‹_›

/-- A weaker property. -/
theorem mono {P' : α → Prop} {r : Reader α} (hr : Gives P r) (h : ∀ a, P a → P' a) :
    Gives P' r := fun input a rest ha => h a (hr input a rest ha)

end Gives

/-- So many bytes. -/
theorem take_gives (count : Nat) : Gives (fun bytes => bytes.length = count) (take count) := by
  intro input bytes rest h
  simp only [take] at h
  split at h
  case isTrue hcount =>
    cases h
    exact hcount
  case isFalse => cases h

end Reader

namespace Varint

open Reader

/-- So many groups and one more carry a number below twice the power of 128. -/
theorem readGroups_gives (groups : Nat) :
    Gives (fun n => n < 2 * 128 ^ groups) (readGroups (groups + 1)) := by
  induction groups with
  | zero =>
    refine Gives.bind_any fun b => ?_
    by_cases hlast : 1 < b.toNat
    · rw [if_pos ⟨rfl, hlast⟩]
      exact .throw _
    · rw [if_neg (fun h => hlast h.2), if_pos (by omega)]
      exact .pure (by omega)
  | succ groups ih =>
    refine Gives.bind_any fun b => ?_
    have hpos : 0 < 128 ^ groups := Nat.pow_pos (by decide)
    rw [if_neg (fun h => Nat.succ_ne_zero groups h.1)]
    refine .ite (fun hb => .pure ?_) fun _ => .bind ih fun high hhigh => .pure ?_
    · rw [Nat.pow_succ]
      omega
    · rw [Nat.pow_succ]
      omega

/-- A number is a word of 64 bits. -/
theorem read_gives : Gives (fun n => n < UInt64.size) read :=
  readGroups_gives 9

/-- A number that fits 32 bits. -/
theorem read32_gives : Gives (fun n => n < UInt32.size) read32 :=
  .bind_any fun _ => .ite (fun h => .pure h) fun _ => .throw _

end Varint

namespace Sized

open Reader

/-- A count is a word of 64 bits. -/
theorem readCount_gives (least : Nat) : Gives (fun n => n < UInt64.size) (readCount least) := by
  refine .bind Varint.read_gives fun n hn => .bind_any fun input => ?_
  exact .ite (fun _ => .throw _) fun _ => .pure hn

/-- The length of a byte string is a count. -/
theorem readBytes_gives : Gives (fun bytes => bytes.length < UInt64.size) readBytes :=
  .bind (readCount_gives 1) fun count hcount =>
    (take_gives count).mono fun _ hlength => Nat.lt_of_le_of_lt (Nat.le_of_eq hlength) hcount

/-- A text has the bytes that spell it. -/
theorem bytesOf_of_textOf {bytes : List UInt8} {text : String} (h : textOf bytes = .ok text) :
    bytesOf text = bytes := by
  unfold textOf String.fromUTF8? at h
  split at h
  case h_1 found hfound =>
    obtain rfl := Except.ok.inj h
    split at hfound
    · obtain rfl := Option.some.inj hfound
      rw [bytesOf]
      exact congrArg Array.toList List.data_toByteArray
    · cases hfound
  case h_2 => cases h

/-- The length of a text is a count. -/
theorem readText_gives : Gives (fun text => (bytesOf text).length < UInt64.size) readText :=
  .bind readBytes_gives fun _ hbytes => .lift fun _ htext => by rwa [bytesOf_of_textOf htext]

/-- A text that may be absent leaves room for its tag. -/
theorem readOptionalText_gives : Gives (fun text => ∀ t, text = some t →
    (bytesOf t).length + 1 < UInt64.size) readOptionalText := by
  refine .bind Varint.read_gives fun tag htag => .ite (fun _ => .pure (by simp)) fun hne => ?_
  refine .bind (take_gives (tag - 1)) fun bytes hbytes => ?_
  refine .bind (P := fun text => bytesOf text = bytes) (.lift fun _ => bytesOf_of_textOf) ?_
  intro text htext
  refine .pure fun t ht => ?_
  rw [← Option.some.inj ht, htext, hbytes]
  omega

end Sized

end RemoteCall
