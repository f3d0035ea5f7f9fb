/-!
# Dictionaries

A dictionary holds one value at most for every key. It is kept as a list of entries of which the
first one for a key counts, so a value that is inserted takes the place of an older one for the same
key. Entries have no other order: everything there is to know about a dictionary is what is found in
it (`get?_insert`, `get?_modify`).
-/

namespace NetOnChip

/-- Values by keys. -/
structure Dictionary (κ β : Type) where
  /-- The entries; the first one for a key counts. -/
  entries : List (κ × β)
  deriving Repr

namespace Dictionary

variable {κ β : Type} [DecidableEq κ] (d : Dictionary κ β) (k : κ)

/-- No entries. -/
def empty : Dictionary κ β :=
  ⟨[]⟩

/-- The value for a key. -/
def get? : Option β :=
  d.entries.lookup k

/-- Whether there is a value for a key. -/
def contains : Bool :=
  (d.get? k).isSome

/-- Gives a key a value, whatever it had before. -/
def insert (v : β) : Dictionary κ β :=
  ⟨(k, v) :: d.entries⟩

/-- Changes the value for a key, if there is one. -/
def modify (g : β → β) : Dictionary κ β :=
  ⟨d.entries.map fun e ↦ if e.1 = k then (k, g e.2) else e⟩

variable {d k}

@[simp] theorem get?_empty : (empty : Dictionary κ β).get? k = none := rfl

/-- **Inserting** a value changes what is found for its key, and for no other. -/
theorem get?_insert (v : β) (k' : κ) :
    (d.insert k v).get? k' = if k = k' then some v else d.get? k' := by
  rw [get?, insert, List.lookup_cons]
  rcases Decidable.em (k = k') with rfl | hne
  · simp
  · rw [if_neg hne, beq_eq_false_iff_ne.2 (Ne.symm hne)]
    rfl

/-- **Changing** a value does so for its key, and for no other. -/
theorem get?_modify (g : β → β) (k' : κ) :
    (d.modify k g).get? k' = (d.get? k').map fun v ↦ if k = k' then g v else v := by
  obtain ⟨entries⟩ := d
  show (entries.map _).lookup k' = (entries.lookup k').map _
  induction entries with
  | nil => rfl
  | cons e entries ih =>
    have hkey : (if e.1 = k then (k, g e.2) else e).1 = e.1 := by
      split
      · exact Eq.symm ‹_›
      · rfl
    rw [List.map_cons, List.lookup_cons, List.lookup_cons, ih, hkey]
    rcases Decidable.em (k' = e.1) with rfl | hne
    · rcases Decidable.em (k = e.1) with rfl | hne
      · simp
      · simp [hne, Ne.symm hne]
    · rw [beq_eq_false_iff_ne.2 hne]

theorem contains_iff : d.contains k = true ↔ ∃ v, d.get? k = some v :=
  Option.isSome_iff_exists

theorem contains_eq_false_iff : d.contains k = false ↔ d.get? k = none :=
  Option.isSome_eq_false_iff.trans Option.isNone_iff_eq_none

/-- **A key that is inserted** has a value from then on, and so has every other that had one. -/
theorem contains_insert (v : β) (k' : κ) :
    (d.insert k v).contains k' = (decide (k = k') || d.contains k') := by
  rw [contains, get?_insert]
  split <;> simp [*, contains]

/-- Changing a value gives none to any other key, and takes none away. -/
theorem contains_modify (g : β → β) (k' : κ) : (d.modify k g).contains k' = d.contains k' := by
  rw [contains, contains, get?_modify, Option.isSome_map]

end Dictionary

end NetOnChip
