import Mathlib.Data.List.Induction
import UiTree.Dict
set_option autoImplicit false

/-!
Dictionaries after a list of writes. A key has the value that was written last under it, and the
keys stand in the order in which they were first written.
-/

namespace UiTree

variable {α : Type}

namespace Entries

theorem keys_concat (l : List (String × α)) (e : String × α) :
    keys (l ++ [e]) = keys l ++ [e.1] := by simp [keys]

theorem put_of_notMem {key : String} (value : α) {l : List (String × α)} (h : key ∉ keys l) :
    put key value l = l ++ [(key, value)] := by
  induction l with
  | nil => rfl
  | cons e rest ih =>
    obtain ⟨k, a⟩ := e
    simp only [keys, List.map_cons, List.mem_cons, not_or] at h
    rw [put, if_neg (Ne.symm h.1), ih h.2]
    rfl

theorem lookup_append (key : String) (l l' : List (String × α)) :
    lookup key (l ++ l') = (lookup key l).or (lookup key l') := by
  induction l with
  | nil => simp [lookup]
  | cons e rest ih =>
    obtain ⟨k, a⟩ := e
    by_cases hk : k = key
    · simp [lookup, hk]
    · simp [lookup, hk, ih]

theorem lookup_reverse {l : List (String × α)} (h : (keys l).Nodup) (key : String) :
    lookup key l.reverse = lookup key l := by
  induction l with
  | nil => rfl
  | cons e rest ih =>
    obtain ⟨k, a⟩ := e
    obtain ⟨hfirst, hrest⟩ := List.nodup_cons.1 h
    rw [List.reverse_cons, lookup_append, ih hrest]
    by_cases hk : k = key
    · subst hk
      rw [lookup_eq_none_iff.2 hfirst]
      simp [lookup]
    · simp [lookup, hk]

end Entries

namespace Dict

def setAll (d : Dict α) (pairs : List (String × α)) : Dict α :=
  pairs.foldl (fun d p => d.set p.1 p.2) d

theorem setAll_append (d : Dict α) (xs ys : List (String × α)) :
    d.setAll (xs ++ ys) = (d.setAll xs).setAll ys :=
  List.foldl_append

theorem get?_setAll (d : Dict α) (pairs : List (String × α)) (key : String) :
    (d.setAll pairs).get? key = (Entries.lookup key pairs.reverse).or (d.get? key) := by
  induction pairs generalizing d with
  | nil => simp [setAll, Entries.lookup]
  | cons p rest ih =>
    obtain ⟨k, a⟩ := p
    have hset : (d.set k a).get? key = (Entries.lookup key [(k, a)]).or (d.get? key) := by
      by_cases hk : k = key
      · simp [Entries.lookup, hk]
      · simp [Entries.lookup, hk, d.get?_set_of_ne a (Ne.symm hk)]
    change ((d.set k a).setAll rest).get? key = _
    rw [ih, hset, List.reverse_cons, Entries.lookup_append, Option.or_assoc]

theorem get?_ofList (pairs : List (String × α)) (key : String) :
    (ofList pairs).get? key = Entries.lookup key pairs.reverse := by
  change (empty.setAll pairs).get? key = _
  rw [get?_setAll, get?_empty, Option.or_none]

theorem ofList_concat (pairs : List (String × α)) (p : String × α) :
    ofList (pairs ++ [p]) = (ofList pairs).set p.1 p.2 := by
  simp [ofList]

theorem keys_ofList (pairs : List (String × α)) :
    (ofList pairs).keys = (Entries.keys pairs).eraseDups := by
  induction pairs using List.reverseRecOn with
  | nil => rfl
  | append_singleton rest p ih =>
    rw [ofList_concat, keys_set, ih, Entries.keys_concat, List.eraseDups_append]
    by_cases hp : p.1 ∈ Entries.keys rest
    · simp [hp, List.mem_eraseDups, List.removeAll]
    · simp [hp, List.mem_eraseDups, List.removeAll, List.eraseDups_cons]

theorem ext_entries {d e : Dict α} (h : d.entries = e.entries) : d = e := by
  obtain ⟨entries, distinct⟩ := d
  subst h
  rfl

theorem entries_ofList {pairs : List (String × α)} (h : (Entries.keys pairs).Nodup) :
    (ofList pairs).entries = pairs := by
  induction pairs using List.reverseRecOn with
  | nil => rfl
  | append_singleton rest p ih =>
    rw [Entries.keys_concat] at h
    obtain ⟨hrest, -, hapart⟩ := List.nodup_append.1 h
    have hnew : p.1 ∉ Entries.keys rest := fun hp => hapart p.1 hp p.1 (by simp) rfl
    have hput : ((ofList rest).set p.1 p.2).entries = Entries.put p.1 p.2 (ofList rest).entries :=
      rfl
    rw [ofList_concat, hput, ih hrest, Entries.put_of_notMem p.2 hnew]

/-- The entries of a dictionary, written in turn, make it again. -/
theorem ofList_entries (d : Dict α) : ofList d.entries = d :=
  ext_entries (entries_ofList d.distinct)

theorem isEmpty_eq_false_iff (d : Dict α) : d.isEmpty = false ↔ d.keys ≠ [] := by
  simp [isEmpty, keys, Entries.keys]

theorem get?_setAll_entries (d e : Dict α) (key : String) :
    (d.setAll e.entries).get? key = (e.get? key).or (d.get? key) := by
  rw [get?_setAll, Entries.lookup_reverse e.distinct]
  rfl

end Dict

end UiTree
