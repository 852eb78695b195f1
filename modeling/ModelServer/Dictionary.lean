import ModelServer.Text.Surrogate

/-!
# Dictionaries in the order of insertion

A dictionary is a list of keys with values, each key at most once. `put` keeps the place of a key that
is there already and appends one that is not, so the order is that in which keys were first put.
Look-up is `List.lookup`.
-/

namespace ModelServer.Dictionary

variable {κ α : Type} [BEq κ]

/-- The entries with the value put under the key. -/
def put (key : κ) (value : α) : List (κ × α) → List (κ × α)
  | [] => [(key, value)]
  | (k, a) :: rest => if k == key then (k, value) :: rest else (k, a) :: put key value rest

/-- The entries without the key. -/
def erase (key : κ) : List (κ × α) → List (κ × α)
  | [] => []
  | (k, a) :: rest => if k == key then erase key rest else (k, a) :: erase key rest

/-- The dictionary that results from putting the entries one after the other. -/
def ofList (entries : List (κ × α)) : List (κ × α) :=
  entries.foldl (fun d e ↦ put e.1 e.2 d) []

/-- The entries in the order of their names, by code points. -/
def sort (entries : List (String × α)) : List (String × α) :=
  entries.mergeSort fun a b ↦ Text.inOrder a.1 b.1

variable [LawfulBEq κ]

theorem lookup_put (key : κ) (value : α) (entries : List (κ × α)) (k : κ) :
    (put key value entries).lookup k = if k == key then some value else entries.lookup k := by
  induction entries with
  | nil => cases h : k == key <;> simp [put, List.lookup_cons, h]
  | cons e rest ih =>
    obtain ⟨k', a⟩ := e
    by_cases h : k' = key
    · subst h
      cases hk : k == k' <;> simp [put, List.lookup_cons, hk]
    · have h' : (k' == key) = false := by simpa using h
      simp only [put, h', Bool.false_eq_true, if_false, List.lookup_cons]
      cases hk : k == k'
      · simpa using ih
      · have : k = k' := by simpa using hk
        subst this
        simp [h']

theorem lookup_erase (key : κ) (entries : List (κ × α)) (k : κ) :
    (erase key entries).lookup k = if k == key then none else entries.lookup k := by
  induction entries with
  | nil => simp [erase]
  | cons e rest ih =>
    obtain ⟨k', a⟩ := e
    by_cases h : k' = key
    · subst h
      cases hk : k == k' <;> simp [erase, List.lookup_cons, hk, ih]
    · have h' : (k' == key) = false := by simpa using h
      simp only [erase, h', Bool.false_eq_true, if_false, List.lookup_cons]
      cases hk : k == k'
      · simpa using ih
      · have : k = k' := by simpa using hk
        subst this
        simp [h']

end ModelServer.Dictionary
