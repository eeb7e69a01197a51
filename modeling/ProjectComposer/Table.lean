/-!
Tables: finite maps in order of first insertion, as lists of pairs. `put` keeps a key's place and
replaces its value, so the last value put under a key is the one found.
-/
namespace ProjectComposer
set_option autoImplicit false

abbrev Table (α : Type) := List (String × α)

namespace Table
variable {α β : Type}

def get? (t : Table α) (key : String) : Option α :=
  (t.find? fun e => e.1 = key).map Prod.snd

def has (t : Table α) (key : String) : Bool :=
  (t.get? key).isSome

def keys (t : Table α) : List String :=
  t.map Prod.fst

def put (t : Table α) (key : String) (value : α) : Table α :=
  match t with
  | [] => [(key, value)]
  | e :: rest => if e.1 = key then (key, value) :: rest else e :: put rest key value

/-- The table of a list of pairs, the last value of a repeated key taken. -/
def ofPairs (pairs : List (String × α)) : Table α :=
  pairs.foldl (fun t e => put t e.1 e.2) []

/-! ## Views -/

@[simp] theorem get?_nil (key : String) : get? ([] : Table α) key = none := rfl

theorem get?_cons (e : String × α) (t : Table α) (key : String) :
    get? (e :: t) key = if e.1 = key then some e.2 else get? t key := by
  by_cases h : e.1 = key <;> simp [get?, h]

theorem get?_put (t : Table α) (key key' : String) (value : α) :
    (t.put key value).get? key' = if key = key' then some value else t.get? key' := by
  induction t with
  | nil => simp [put, get?_cons]
  | cons e rest ih =>
    unfold put
    split
    · next h =>
      subst h
      simp only [get?_cons]
      split <;> rfl
    · next h =>
      simp only [get?_cons, ih]
      by_cases h1 : e.1 = key'
      · have : key ≠ key' := fun h2 => h (h1.trans h2.symm)
        simp [h1, this]
      · simp [h1]

theorem keys_put (t : Table α) (key : String) (value : α) :
    (t.put key value).keys = if key ∈ t.keys then t.keys else t.keys ++ [key] := by
  induction t with
  | nil => simp [put, keys]
  | cons e rest ih =>
    unfold put
    split
    · next h => subst h; simp [keys]
    · next h =>
      have ne : ¬key = e.1 := fun h' => h h'.symm
      simp only [keys, List.map_cons, List.mem_cons, ne, false_or] at ih ⊢
      rw [ih]
      by_cases hm : key ∈ List.map Prod.fst rest <;> simp [hm]

theorem has_iff (t : Table α) (key : String) : t.has key = true ↔ key ∈ t.keys := by
  induction t with
  | nil => simp [has, keys]
  | cons e rest ih =>
    simp only [has, keys, get?_cons, List.map_cons, List.mem_cons] at ih ⊢
    by_cases h : e.1 = key
    · simp [h]
    · have : ¬key = e.1 := fun h' => h h'.symm
      simp [h, this, ih]

end Table
end ProjectComposer
