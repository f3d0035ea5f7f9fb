/-!
# Identifiers

Routers, links, traffic flows and placeable blocks are each numbered from zero. `Id kind` is the
number of one thing of that kind, so an identifier of a link cannot be taken for that of a router.

Where an identifier is made from a number it is a 32-bit word, and only the low bits of the number
count (`Id.ofNat`). A number that fits into a word stands for itself (`ofNat_of_lt`).
-/

namespace NetOnChip

/-- The kinds of things that carry an identifier. -/
inductive Kind where
  /-- A router of the network, at a fixed tile. -/
  | router
  /-- A directed link between two routers. -/
  | link
  /-- A traffic flow between two blocks. -/
  | flow
  /-- A placeable block: a logical router or an ordinary logic block. -/
  | block
  deriving DecidableEq, Repr

/-- The identifier of one thing of a kind: its position in the table of that kind. -/
@[ext] structure Id (kind : Kind) where
  /-- The position. -/
  index : Nat
  deriving DecidableEq, Repr

/-- Identifies a router. -/
abbrev RouterId := Id .router

/-- Identifies a link. -/
abbrev LinkId := Id .link

/-- Identifies a traffic flow. -/
abbrev FlowId := Id .flow

/-- Identifies a block. -/
abbrev BlockId := Id .block

namespace Id

variable {kind : Kind}

/-- The identifier with a given number, of which only the low 32 bits count. -/
def ofNat (n : Nat) : Id kind :=
  ⟨n % UInt32.size⟩

/-- The first `count` identifiers, in order. -/
def range (count : Nat) : List (Id kind) :=
  (List.range count).map .mk

/-- Comparing identifiers decides whether they are equal. -/
instance : LawfulBEq (Id kind) := inferInstance

/-- An identifier is written as its number. -/
instance : ToString (Id kind) := ⟨fun i ↦ toString i.index⟩

/-- A number that fits into a word stands for itself. -/
theorem ofNat_of_lt {n : Nat} (h : n < UInt32.size) : (ofNat n : Id kind) = ⟨n⟩ :=
  congrArg mk (Nat.mod_eq_of_lt h)

/-- The identifiers of a table that is not too large are words. -/
theorem map_ofNat_range {count : Nat} (h : count ≤ UInt32.size) :
    (List.range count).map ofNat = (range count : List (Id kind)) :=
  List.map_congr_left fun _ hi ↦ ofNat_of_lt (Nat.lt_of_lt_of_le (List.mem_range.1 hi) h)

@[simp] theorem length_range (count : Nat) : (range count : List (Id kind)).length = count := by
  simp [range]

@[simp] theorem mem_range {count : Nat} {i : Id kind} : i ∈ range count ↔ i.index < count := by
  constructor
  · intro h
    obtain ⟨n, hn, rfl⟩ := List.mem_map.1 h
    exact List.mem_range.1 hn
  · exact fun h ↦ List.mem_map.2 ⟨i.index, List.mem_range.2 h, rfl⟩

theorem getElem?_range_eq_some_iff {count i : Nat} {k : Id kind} :
    (range count)[i]? = some k ↔ k = ⟨i⟩ ∧ i < count := by
  rw [range, List.getElem?_map, Option.map_eq_some_iff]
  simp only [List.getElem?_eq_some_iff, List.length_range, List.getElem_range]
  constructor
  · rintro ⟨_, ⟨hi, rfl⟩, rfl⟩
    exact ⟨rfl, hi⟩
  · rintro ⟨rfl, hi⟩
    exact ⟨i, ⟨hi, rfl⟩, rfl⟩

theorem nodup_range (count : Nat) : (range count : List (Id kind)).Nodup :=
  List.pairwise_map.2 (List.nodup_range.imp fun h e ↦ h (congrArg index e))

theorem range_succ (count : Nat) :
    (range (count + 1) : List (Id kind)) = range count ++ [⟨count⟩] := by
  rw [range, List.range_succ, List.map_append]
  rfl

end Id

end NetOnChip
