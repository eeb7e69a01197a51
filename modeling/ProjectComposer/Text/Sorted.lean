/-!
Sorted texts. `sortedDistinct` lists the members of a list once each, by code point order; two lists
with the same members have the same sorted set. `sortByKey` orders values by a text of theirs and
keeps the order of those with equal texts.
-/
namespace ProjectComposer.Text
set_option autoImplicit false

/-! ## Sets -/

/-- Adds a text to a strictly increasing list unless it is there. -/
def insertSorted (a : String) : List String → List String
  | [] => [a]
  | b :: rest =>
    if a < b then a :: b :: rest
    else if a = b then b :: rest
    else b :: insertSorted a rest

def sortedDistinct (l : List String) : List String :=
  l.foldr insertSorted []

@[simp] theorem sortedDistinct_nil : sortedDistinct [] = [] := rfl

@[simp] theorem sortedDistinct_cons (a : String) (l : List String) :
    sortedDistinct (a :: l) = insertSorted a (sortedDistinct l) := rfl

@[simp] theorem mem_insertSorted {a x : String} {l : List String} :
    x ∈ insertSorted a l ↔ x = a ∨ x ∈ l := by
  induction l with
  | nil => simp [insertSorted]
  | cons b rest ih =>
    unfold insertSorted
    split
    · simp
    · split
      · next h => subst h; simp
      · simp only [List.mem_cons, ih]
        constructor
        · rintro (h | h | h) <;> simp [h]
        · rintro (h | h | h) <;> simp [h]

@[simp] theorem mem_sortedDistinct {x : String} {l : List String} :
    x ∈ sortedDistinct l ↔ x ∈ l := by
  induction l with
  | nil => simp
  | cons a l ih => simp [ih]

/-! ## Values by key -/

/-- Puts a value in front of the first one whose key is not smaller. -/
def insertByKey {α : Type} (key : α → String) (a : α) : List α → List α
  | [] => [a]
  | b :: rest => if key b < key a then b :: insertByKey key a rest else a :: b :: rest

def sortByKey {α : Type} (key : α → String) (l : List α) : List α :=
  l.foldr (insertByKey key) []

@[simp] theorem mem_insertByKey {α : Type} {key : α → String} {a x : α} {l : List α} :
    x ∈ insertByKey key a l ↔ x = a ∨ x ∈ l := by
  induction l with
  | nil => simp [insertByKey]
  | cons b rest ih =>
    unfold insertByKey
    split
    · simp only [List.mem_cons, ih]
      constructor
      · rintro (h | h | h) <;> simp [h]
      · rintro (h | h | h) <;> simp [h]
    · simp

@[simp] theorem mem_sortByKey {α : Type} {key : α → String} {x : α} {l : List α} :
    x ∈ sortByKey key l ↔ x ∈ l := by
  induction l with
  | nil => simp [sortByKey]
  | cons a l ih =>
    show x ∈ insertByKey key a (sortByKey key l) ↔ _
    simp [ih]

end ProjectComposer.Text
