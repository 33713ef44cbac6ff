/-!
# Values in order of first insertion

A list of pairs in which a key occurs at most once. Writing a key that is there replaces its
value in place, a new key goes to the end: so the order is that of the first insertions, and
reading sees the last write (`get?_put`).
-/

namespace DocCite

/-- Pairs of keys and values, in the order in which the keys came in. -/
abbrev Keyed (α β : Type) := List (α × β)

namespace Keyed

variable {α β : Type} [DecidableEq α]

/-- The value of a key. -/
def get? (m : Keyed α β) (k : α) : Option β :=
  match m with
  | [] => none
  | (k', v) :: rest => if k' = k then some v else get? rest k

/-- Sets the value of a key, in its place or at the end. -/
def put (m : Keyed α β) (k : α) (v : β) : Keyed α β :=
  match m with
  | [] => [(k, v)]
  | (k', v') :: rest => if k' = k then (k', v) :: rest else (k', v') :: put rest k v

/-- Takes a key and its value out. -/
def erase (m : Keyed α β) (k : α) : Keyed α β := m.filter fun p => p.1 ≠ k

/-- Sets keys one after another. -/
def putAll (m : Keyed α β) (pairs : List (α × β)) : Keyed α β :=
  pairs.foldl (fun m p => m.put p.1 p.2) m

/-- **Reading sees the last write** and no other. -/
theorem get?_put (m : Keyed α β) (k k' : α) (v : β) :
    (m.put k v).get? k' = if k = k' then some v else m.get? k' := by
  induction m with
  | nil => rfl
  | cons p rest ih => grind [put, get?]

theorem mem_put {m : Keyed α β} {k : α} {v : β} {p : α × β} (h : p ∈ m.put k v) :
    p ∈ m ∨ p = (k, v) := by
  induction m with
  | nil => exact Or.inr (List.mem_singleton.mp h)
  | cons q rest ih => grind [put]

/-- The keys after a write: the same, or with the new one at the end. -/
theorem map_fst_put (m : Keyed α β) (k : α) (v : β) :
    (m.put k v).map Prod.fst =
      if (m.map Prod.fst).contains k then m.map Prod.fst else m.map Prod.fst ++ [k] := by
  induction m with
  | nil => rfl
  | cons p rest ih => grind [put]

end Keyed

end DocCite
