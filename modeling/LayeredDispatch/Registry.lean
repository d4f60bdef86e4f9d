import LayeredDispatch.Layer

/-! The registry of levels: the liveness flag of each level in use, shared by all threads. -/

namespace LayeredDispatch

/-- Registered levels with the numbers of their flags, levels ascending. -/
structure Registry where
  /-- The entries, levels ascending. -/
  entries : List (Level × Nat) := []
  deriving DecidableEq, Inhabited

namespace Registry

/-- The flag of a level. -/
def find? (registry : Registry) (level : Level) : Option Nat :=
  (registry.entries.find? fun entry => entry.1 == level).map Prod.snd

/-- Whether a level is registered. -/
def contains (registry : Registry) (level : Level) : Bool :=
  (registry.find? level).isSome

/-- Puts an entry before the first one of a larger level. -/
def place (level : Level) (flag : Nat) : List (Level × Nat) → List (Level × Nat)
  | [] => [(level, flag)]
  | entry :: entries =>
      if level < entry.1 then (level, flag) :: entry :: entries
      else entry :: place level flag entries

/-- Registers a level that is not registered yet. -/
def insert (registry : Registry) (level : Level) (flag : Nat) : Registry :=
  ⟨place level flag registry.entries⟩

/-- Forgets a level. -/
def erase (registry : Registry) (level : Level) : Registry :=
  ⟨registry.entries.filter fun entry => entry.1 != level⟩

/-- The registered levels, ascending. -/
def levels (registry : Registry) : List Level :=
  registry.entries.map Prod.fst

/-- Whether no level is registered. -/
def isEmpty (registry : Registry) : Bool :=
  registry.entries.isEmpty

-----------------------------------------------------------------------------------------
-- Looking up after registering and forgetting
-----------------------------------------------------------------------------------------

/-- Placing an entry hides no entry of another level. -/
theorem find?_place_other {level other : Level} (flag : Nat) (apart : other ≠ level)
    (entries : List (Level × Nat))
    : (place level flag entries).find? (fun entry => entry.1 == other)
      = entries.find? (fun entry => entry.1 == other) := by
  induction entries with
  | nil => simp [place, Ne.symm apart]
  | cons entry entries ih =>
      unfold place
      split
      · simp [Ne.symm apart]
      · simp [List.find?_cons, ih]

/-- A placed entry is found if no entry has its level already. -/
theorem find?_place_same {level : Level} (flag : Nat) {entries : List (Level × Nat)}
    (fresh : entries.find? (fun entry => entry.1 == level) = none)
    : (place level flag entries).find? (fun entry => entry.1 == level) = some (level, flag) := by
  induction entries with
  | nil => simp [place]
  | cons entry entries ih =>
      unfold place
      split
      · simp
      · rw [List.find?_cons] at fresh ⊢
        split at fresh
        · cases fresh
        · simpa using ih fresh

/-- A level that was free is registered with its flag. -/
theorem find?_insert_same (registry : Registry) {level : Level} (flag : Nat)
    (fresh : registry.contains level = false)
    : (registry.insert level flag).find? level = some flag := by
  have absent : registry.entries.find? (fun entry => entry.1 == level) = none := by
    simpa [contains, find?] using fresh
  simp [insert, find?, find?_place_same flag absent]

/-- Registering a level leaves the others as they are. -/
theorem find?_insert_other (registry : Registry) {level other : Level} (flag : Nat)
    (apart : other ≠ level)
    : (registry.insert level flag).find? other = registry.find? other := by
  simp [insert, find?, find?_place_other flag apart]

/-- A forgotten level is not registered. -/
theorem find?_erase_same (registry : Registry) (level : Level)
    : (registry.erase level).find? level = none := by
  simp [erase, find?]

/-- Forgetting a level leaves the others as they are. -/
theorem find?_erase_other (registry : Registry) {level other : Level} (apart : other ≠ level)
    : (registry.erase level).find? other = registry.find? other := by
  simp only [erase, find?, List.find?_filter]
  congr 2
  funext entry
  by_cases same : entry.1 = other
  · simp [same, apart]
  · simp [same]

end Registry
end LayeredDispatch
