/-!
# Association lists

Finite maps that keep their entries in the order of first insertion. Each key occurs once.
-/

namespace Reckoner

/-- A finite map as a list of entries. -/
structure Assoc (κ α : Type) where
  entries : List (κ × α)
  deriving DecidableEq

namespace Assoc

variable {κ α : Type}

/-- The map without entries. -/
def empty : Assoc κ α :=
  ⟨[]⟩

/-- The number of entries. -/
def size (m : Assoc κ α) : Nat :=
  m.entries.length

variable [DecidableEq κ]

/-- The value of the first entry with a key. -/
def findIn (k : κ) : List (κ × α) → Option α
  | [] => none
  | (k', v) :: rest => if k' = k then some v else findIn k rest

/-- Replaces the entry of a key, or adds one at the end. -/
def insertIn (k : κ) (v : α) : List (κ × α) → List (κ × α)
  | [] => [(k, v)]
  | (k', v') :: rest => if k' = k then (k, v) :: rest else (k', v') :: insertIn k v rest

/-- The value of a key. -/
def find? (m : Assoc κ α) (k : κ) : Option α :=
  findIn k m.entries

/-- Whether a key has a value. -/
def contains (m : Assoc κ α) (k : κ) : Bool :=
  (m.find? k).isSome

/-- The map with a key bound to a value. -/
def insert (m : Assoc κ α) (k : κ) (v : α) : Assoc κ α :=
  ⟨insertIn k v m.entries⟩

/-- The map of a list of entries; of two entries with one key the later one counts. -/
def ofList (entries : List (κ × α)) : Assoc κ α :=
  entries.foldl (fun m (k, v) => m.insert k v) empty

/-! ### Reading after writing -/

theorem findIn_insertIn_self (k : κ) (v : α) (l : List (κ × α)) :
    findIn k (insertIn k v l) = some v := by
  induction l with
  | nil => simp [insertIn, findIn]
  | cons e rest ih =>
    obtain ⟨k', v'⟩ := e
    by_cases h : k' = k <;> simp [insertIn, findIn, h, ih]

theorem findIn_insertIn_of_ne {k k' : κ} (h : k ≠ k') (v : α) (l : List (κ × α)) :
    findIn k' (insertIn k v l) = findIn k' l := by
  induction l with
  | nil => simp [insertIn, findIn, h]
  | cons e rest ih =>
    obtain ⟨k₀, v₀⟩ := e
    by_cases h₀ : k₀ = k
    · subst h₀
      simp [insertIn, findIn, h]
    · simp [insertIn, findIn, h₀, ih]

@[simp] theorem find?_insert_self (m : Assoc κ α) (k : κ) (v : α) :
    (m.insert k v).find? k = some v :=
  findIn_insertIn_self k v m.entries

theorem find?_insert_of_ne (m : Assoc κ α) {k k' : κ} (h : k ≠ k') (v : α) :
    (m.insert k v).find? k' = m.find? k' :=
  findIn_insertIn_of_ne h v m.entries

end Assoc

end Reckoner
