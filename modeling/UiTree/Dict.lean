set_option autoImplicit false

/-!
Dictionaries that remember the order in which their keys were first set. Setting a key again
replaces its value in place; only removal gives up the place. No key stands twice, and the type says
so.
-/

namespace UiTree

namespace Entries

variable {α : Type}

def keys (l : List (String × α)) : List String := l.map (·.1)

def lookup (key : String) : List (String × α) → Option α
  | [] => none
  | (k, a) :: rest => if k = key then some a else lookup key rest

def put (key : String) (value : α) : List (String × α) → List (String × α)
  | [] => [(key, value)]
  | (k, a) :: rest => if k = key then (k, value) :: rest else (k, a) :: put key value rest

def drop (key : String) : List (String × α) → List (String × α)
  | [] => []
  | (k, a) :: rest => if k = key then rest else (k, a) :: drop key rest

theorem keys_put (key : String) (value : α) (l : List (String × α)) :
    keys (put key value l) = if key ∈ keys l then keys l else keys l ++ [key] := by
  induction l with
  | nil => simp [put, keys]
  | cons e rest ih =>
    obtain ⟨k, a⟩ := e
    by_cases h : k = key
    · simp [put, keys, h]
    · simp only [keys] at ih
      simp only [put, keys, if_neg h, List.map_cons, List.mem_cons, ih, Ne.symm h, false_or]
      split <;> simp_all

theorem keys_drop (key : String) (l : List (String × α)) :
    keys (drop key l) = (keys l).erase key := by
  induction l with
  | nil => rfl
  | cons e rest ih =>
    obtain ⟨k, a⟩ := e
    by_cases h : k = key
    · simp [drop, keys, h]
    · simp only [keys] at ih
      simp [drop, keys, h, ih]

theorem nodup_put {key : String} {value : α} {l : List (String × α)} (h : (keys l).Nodup) :
    (keys (put key value l)).Nodup := by
  rw [keys_put]
  split
  · exact h
  · rename_i hk
    rw [List.nodup_append]
    refine ⟨h, by simp, ?_⟩
    intro a ha b hb
    rintro rfl
    simp at hb
    exact hk (hb ▸ ha)

theorem nodup_drop {key : String} {l : List (String × α)} (h : (keys l).Nodup) :
    (keys (drop key l)).Nodup := by
  rw [keys_drop]
  exact h.erase key

theorem lookup_put_self (key : String) (value : α) (l : List (String × α)) :
    lookup key (put key value l) = some value := by
  induction l with
  | nil => simp [put, lookup]
  | cons e rest ih =>
    obtain ⟨k, a⟩ := e
    by_cases h : k = key <;> simp [put, lookup, h, ih]

theorem lookup_put_of_ne {key other : String} (value : α) (l : List (String × α))
    (h : other ≠ key) : lookup other (put key value l) = lookup other l := by
  induction l with
  | nil => simp [put, lookup, Ne.symm h]
  | cons e rest ih =>
    obtain ⟨k, a⟩ := e
    by_cases hk : k = key
    · subst hk
      simp [put, lookup, Ne.symm h]
    · simp only [put, if_neg hk, lookup, ih]

theorem lookup_eq_none_iff {key : String} {l : List (String × α)} :
    lookup key l = none ↔ key ∉ keys l := by
  induction l with
  | nil => simp [lookup, keys]
  | cons e rest ih =>
    obtain ⟨k, a⟩ := e
    by_cases h : k = key
    · simp [lookup, keys, h]
    · simp only [keys] at ih
      simp [lookup, keys, h, ih, Ne.symm h]

theorem lookup_drop_self {key : String} {l : List (String × α)} (h : (keys l).Nodup) :
    lookup key (drop key l) = none := by
  rw [lookup_eq_none_iff, keys_drop]
  exact fun hk => (h.mem_erase_iff.1 hk).1 rfl

theorem lookup_drop_of_ne {key other : String} (l : List (String × α)) (h : other ≠ key) :
    lookup other (drop key l) = lookup other l := by
  induction l with
  | nil => rfl
  | cons e rest ih =>
    obtain ⟨k, a⟩ := e
    by_cases hk : k = key
    · subst hk
      simp [drop, lookup, Ne.symm h]
    · simp only [drop, if_neg hk, lookup, ih]

end Entries

structure Dict (α : Type) where
  entries : List (String × α)
  distinct : (Entries.keys entries).Nodup

namespace Dict

variable {α : Type}

def empty : Dict α := ⟨[], List.nodup_nil⟩

instance : Inhabited (Dict α) := ⟨empty⟩

def keys (d : Dict α) : List String := Entries.keys d.entries

def size (d : Dict α) : Nat := d.entries.length

def isEmpty (d : Dict α) : Bool := d.entries.isEmpty

def get? (d : Dict α) (key : String) : Option α := Entries.lookup key d.entries

def contains (d : Dict α) (key : String) : Bool := (d.get? key).isSome

def set (d : Dict α) (key : String) (value : α) : Dict α :=
  ⟨Entries.put key value d.entries, Entries.nodup_put d.distinct⟩

def erase (d : Dict α) (key : String) : Dict α :=
  ⟨Entries.drop key d.entries, Entries.nodup_drop d.distinct⟩

def remove (d : Dict α) (key : String) : Option α × Dict α := (d.get? key, d.erase key)

def ofList (pairs : List (String × α)) : Dict α :=
  pairs.foldl (fun d p => d.set p.1 p.2) empty

/-- The keys in the order of their code points, for outputs that do not show the order of
setting. -/
def sortedKeys (d : Dict α) : List String := d.keys.mergeSort (fun a b => decide (a ≤ b))

@[simp] theorem get?_empty (key : String) : (empty : Dict α).get? key = none := rfl

@[simp] theorem get?_set_self (d : Dict α) (key : String) (value : α) :
    (d.set key value).get? key = some value := Entries.lookup_put_self key value d.entries

theorem get?_set_of_ne (d : Dict α) {key other : String} (value : α) (h : other ≠ key) :
    (d.set key value).get? other = d.get? other := Entries.lookup_put_of_ne value d.entries h

@[simp] theorem get?_erase_self (d : Dict α) (key : String) : (d.erase key).get? key = none :=
  Entries.lookup_drop_self d.distinct

theorem get?_erase_of_ne (d : Dict α) {key other : String} (h : other ≠ key) :
    (d.erase key).get? other = d.get? other := Entries.lookup_drop_of_ne d.entries h

theorem keys_set (d : Dict α) (key : String) (value : α) :
    (d.set key value).keys = if key ∈ d.keys then d.keys else d.keys ++ [key] :=
  Entries.keys_put key value d.entries

theorem keys_erase (d : Dict α) (key : String) : (d.erase key).keys = d.keys.erase key :=
  Entries.keys_drop key d.entries

theorem get?_eq_none_iff (d : Dict α) (key : String) : d.get? key = none ↔ key ∉ d.keys :=
  Entries.lookup_eq_none_iff

end Dict

end UiTree
