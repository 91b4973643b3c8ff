import Mathlib

/-! A Go map whose values are slices, `map[K][]V`, as its entries in the order
their keys were first stored.

Go leaves a map's iteration order unspecified; the order of the entries stands
for one such order. `items` is what `for _, items := range m` with an inner
`for _, item := range items` visits. Storing under a key already present
replaces its slice in place; a new key goes last. `push`, `updateAt` and
`deleteAt` are `append`, `items[i] = v` and `append(items[:i], items[i+1:]...)`
on the slice under a key, stored back; the last two panic outside the slice.

The lemmas bound what the items can be after each operation: the old items and
the one written.
-/

set_option autoImplicit false

namespace GoMap

structure SliceMap (κ ι : Type) where
  entries : List (κ × List ι)
  deriving DecidableEq, Repr

variable {κ ι : Type}

def SliceMap.empty : SliceMap κ ι := ⟨[]⟩

/-- Every item, slice after slice. -/
def SliceMap.items (m : SliceMap κ ι) : List ι := m.entries.flatMap (·.2)

@[simp] theorem SliceMap.items_empty : (SliceMap.empty : SliceMap κ ι).items = [] := rfl

variable [DecidableEq κ]

/-- `items, ok := m[key]`. -/
def SliceMap.find? (m : SliceMap κ ι) (key : κ) : Option (List ι) :=
  (m.entries.find? fun e => e.1 = key).map (·.2)

/-- `m[key] = items`. -/
def SliceMap.store (m : SliceMap κ ι) (key : κ) (items : List ι) : SliceMap κ ι :=
  if m.entries.any fun e => e.1 = key then ⟨m.entries.map fun e => if e.1 = key then (key, items) else e⟩
  else ⟨m.entries ++ [(key, items)]⟩

/-- `m[key] = append(m[key], item)`. -/
def SliceMap.push (m : SliceMap κ ι) (key : κ) (item : ι) : SliceMap κ ι :=
  m.store key ((m.find? key).getD [] ++ [item])

/-- `items, _ := m[key]; items[i] = item`. -/
def SliceMap.updateAt (m : SliceMap κ ι) (key : κ) (i : Nat) (item : ι) : Option (SliceMap κ ι) :=
  let items := (m.find? key).getD []
  if i < items.length then some (m.store key (items.set i item)) else none

/-- `items, _ := m[key]; m[key] = append(items[:i], items[i+1:]...)`. -/
def SliceMap.deleteAt (m : SliceMap κ ι) (key : κ) (i : Nat) : Option (SliceMap κ ι) :=
  let items := (m.find? key).getD []
  if i < items.length then some (m.store key (items.eraseIdx i)) else none

section
variable {m m' : SliceMap κ ι} {key : κ} {x : ι}

theorem SliceMap.mem_items_of_find? {items : List ι} (found : m.find? key = some items) (member : x ∈ items) :
    x ∈ m.items := by
  obtain ⟨entry, entryFound, rfl⟩ := Option.map_eq_some_iff.mp found
  exact List.mem_flatMap.mpr ⟨entry, List.mem_of_find?_eq_some entryFound, member⟩

theorem SliceMap.mem_items_getD (member : x ∈ (m.find? key).getD []) : x ∈ m.items := by
  cases found : m.find? key with
  | none => simp [found] at member
  | some items =>
    rw [found] at member
    exact mem_items_of_find? found member

theorem SliceMap.mem_items_store {items : List ι} (member : x ∈ (m.store key items).items) :
    x ∈ m.items ∨ x ∈ items := by
  unfold store at member
  split_ifs at member
  · obtain ⟨entry, inEntries, inEntry⟩ := List.mem_flatMap.mp member
    obtain ⟨old, inOld, rfl⟩ := List.mem_map.mp inEntries
    split_ifs at inEntry
    · exact .inr inEntry
    · exact .inl (List.mem_flatMap.mpr ⟨old, inOld, inEntry⟩)
  · simp only [SliceMap.items, List.flatMap_append, List.mem_append, List.flatMap_cons, List.flatMap_nil,
      List.append_nil] at member
    exact member

theorem SliceMap.mem_items_push {item : ι} (member : x ∈ (m.push key item).items) : x ∈ m.items ∨ x = item := by
  rcases mem_items_store member with old | pushed
  · exact .inl old
  · rcases List.mem_append.mp pushed with kept | last
    · exact .inl (mem_items_getD kept)
    · exact .inr (List.mem_singleton.mp last)

theorem SliceMap.mem_items_updateAt {i : Nat} {item : ι} (updated : m.updateAt key i item = some m')
    (member : x ∈ m'.items) : x ∈ m.items ∨ x = item := by
  unfold updateAt at updated
  dsimp only at updated
  split_ifs at updated
  cases updated
  rcases mem_items_store member with old | written
  · exact .inl old
  · rcases List.mem_or_eq_of_mem_set written with kept | rfl
    · exact .inl (mem_items_getD kept)
    · exact .inr rfl

theorem SliceMap.mem_items_deleteAt {i : Nat} (deleted : m.deleteAt key i = some m') (member : x ∈ m'.items) :
    x ∈ m.items := by
  unfold deleteAt at deleted
  dsimp only at deleted
  split_ifs at deleted
  cases deleted
  rcases mem_items_store member with old | kept
  · exact old
  · exact mem_items_getD (List.mem_of_mem_eraseIdx kept)

end

end GoMap
