import Mathlib.Data.Finmap
import UiTree.Proofs.Dict
set_option autoImplicit false

/-!
Dictionaries and their histories. A history is the list of the writes that were made to a dictionary
since it was empty, and it says what the dictionary must be in two ways that know nothing of
entries. The values are those of a finite map, which has no order, after the same writes. The order
is that of the places in the history at which the keys were born: a key that is there was set at
some place for the first time since it was last removed.
-/

namespace UiTree

inductive Write (α : Type) where
  | set (key : String) (value : α)
  | remove (key : String)

namespace Write

variable {α : Type}

def run (d : Dict α) : Write α → Dict α
  | set key value => d.set key value
  | remove key => (d.remove key).2

def ofEntry (e : String × α) : Write α := set e.1 e.2

def runOnMap (m : Finmap fun _ : String => α) : Write α → Finmap fun _ : String => α
  | set key value => m.insert key value
  | remove key => m.erase key

def mapOf (history : List (Write α)) : Finmap fun _ : String => α := history.foldl runOnMap ∅

theorem mapOf_concat (history : List (Write α)) (w : Write α) :
    mapOf (history ++ [w]) = w.runOnMap (mapOf history) := by
  simp [mapOf]

theorem get?_run {d : Dict α} {m : Finmap fun _ : String => α}
    (h : ∀ key, d.get? key = m.lookup key) (w : Write α) (key : String) :
    (w.run d).get? key = (w.runOnMap m).lookup key := by
  cases w with
  | set k value =>
    by_cases hkey : key = k
    · subst hkey
      exact (d.get?_set_self key value).trans (Finmap.lookup_insert m).symm
    · exact (d.get?_set_of_ne value hkey).trans
        ((h key).trans (Finmap.lookup_insert_of_ne m hkey).symm)
  | remove k =>
    by_cases hkey : key = k
    · subst hkey
      exact (d.get?_erase_self key).trans (Finmap.lookup_erase key m).symm
    · exact (d.get?_erase_of_ne hkey).trans ((h key).trans (Finmap.lookup_erase_ne hkey).symm)

def SetAt (history : List (Write α)) (key : String) (i : Nat) : Prop :=
  ∃ value, history[i]? = some (set key value)

def RemovedAt (history : List (Write α)) (key : String) (i : Nat) : Prop :=
  history[i]? = some (remove key)

/-- The place at which the key was set first since it was last removed. -/
structure BornAt (history : List (Write α)) (key : String) (i : Nat) : Prop where
  set : SetAt history key i
  kept : ∀ j, i < j → ¬ RemovedAt history key j
  first : ∀ j, j < i → SetAt history key j → ∃ r, j < r ∧ r < i ∧ RemovedAt history key r

variable {history : List (Write α)} {key k : String} {value : α} {i : Nat}

theorem SetAt.lt (h : SetAt history key i) : i < history.length := by
  obtain ⟨value, h⟩ := h
  exact (List.getElem?_eq_some_iff.1 h).1

theorem RemovedAt.lt (h : RemovedAt history key i) : i < history.length :=
  (List.getElem?_eq_some_iff.1 h).1

theorem getElem?_concat_eq_some_iff {w w' : Write α} :
    (history ++ [w])[i]? = some w' ↔ history[i]? = some w' ∨ i = history.length ∧ w = w' := by
  rcases Nat.lt_trichotomy i history.length with hi | rfl | hi
  · rw [List.getElem?_append_left hi]
    simp [Nat.ne_of_lt hi]
  · simp
  · rw [List.getElem?_eq_none (by simpa using Nat.succ_le_of_lt hi),
      List.getElem?_eq_none (Nat.le_of_lt hi)]
    simp [Nat.ne_of_gt hi]

theorem setAt_concat {w : Write α} :
    SetAt (history ++ [w]) key i ↔ SetAt history key i ∨ i = history.length ∧
    ∃ value, w = set key value := by
  simp only [SetAt, getElem?_concat_eq_some_iff, exists_or, exists_and_left]

theorem removedAt_concat {w : Write α} :
    RemovedAt (history ++ [w]) key i ↔ RemovedAt history key i ∨ i = history.length ∧
    w = remove key :=
  getElem?_concat_eq_some_iff

theorem removedAt_concat_set : RemovedAt (history ++ [set k value]) key i ↔
    RemovedAt history key i := by
  simp [removedAt_concat]

theorem setAt_concat_remove : SetAt (history ++ [remove k]) key i ↔ SetAt history key i := by
  simp [setAt_concat]

theorem SetAt.exists_bornAt (h : SetAt history key i)
    (hkept : ∀ j, i < j → ¬ RemovedAt history key j) : ∃ j, BornAt history key j := by
  induction i using Nat.strongRecOn with
  | _ i ih =>
    by_cases hfirst : ∀ j, j < i → SetAt history key j → ∃ r, j < r ∧ r < i ∧
      RemovedAt history key r
    · exact ⟨i, h, hkept, hfirst⟩
    · -- an earlier place will do, since nothing was removed between the two
      push Not at hfirst
      obtain ⟨j, hj, hset, hbetween⟩ := hfirst
      refine ih j hj hset fun r hr hremoved => ?_
      rcases Nat.lt_trichotomy r i with hri | rfl | hri
      · exact hbetween r hr hri hremoved
      · obtain ⟨value, hvalue⟩ := h
        rw [RemovedAt, hvalue] at hremoved
        cases hremoved
      · exact hkept r hri hremoved

theorem bornAt_concat_set : BornAt (history ++ [set k value]) key i ↔
    BornAt history key i ∨ key = k ∧ i = history.length ∧ ∀ j, ¬ BornAt history k j := by
  constructor
  · rintro ⟨hset, hkept, hfirst⟩
    simp only [removedAt_concat_set] at hkept hfirst
    rcases setAt_concat.1 hset with hold | ⟨rfl, value', hnew⟩
    · exact .inl ⟨hold, hkept, fun j hj hj' => hfirst j hj (setAt_concat.2 (.inl hj'))⟩
    · cases hnew
      refine .inr ⟨rfl, rfl, fun j hborn => ?_⟩
      obtain ⟨r, hr, -, hremoved⟩ := hfirst j hborn.set.lt (setAt_concat.2 (.inl hborn.set))
      exact hborn.kept r hr hremoved
  · rintro (⟨hset, hkept, hfirst⟩ | ⟨rfl, rfl, hunborn⟩)
    · refine ⟨setAt_concat.2 (.inl hset), ?_, fun j hj hj' => ?_⟩
      · simpa only [removedAt_concat_set] using hkept
      · simp only [removedAt_concat_set]
        refine hfirst j hj ((setAt_concat.1 hj').resolve_right fun hlast => ?_)
        exact absurd hset.lt (by omega)
    · refine ⟨setAt_concat.2 (.inr ⟨rfl, value, rfl⟩), fun j hj hremoved => ?_, fun j hj hset => ?_⟩
      · exact absurd (removedAt_concat_set.1 hremoved).lt (by omega)
      · -- were it not removed after that, it would be there
        have hold := (setAt_concat.1 hset).resolve_right fun hlast => absurd hlast.1 (by omega)
        by_contra hkept
        push Not at hkept
        obtain ⟨j', hborn⟩ := hold.exists_bornAt fun r hr hremoved =>
          hkept r hr hremoved.lt (removedAt_concat_set.2 hremoved)
        exact hunborn j' hborn

theorem bornAt_concat_remove :
    BornAt (history ++ [remove k]) key i ↔ BornAt history key i ∧ key ≠ k := by
  constructor
  · rintro ⟨hset, hkept, hfirst⟩
    simp only [setAt_concat_remove] at hset hfirst
    refine ⟨⟨hset, fun j hj hremoved => hkept j hj (removedAt_concat.2 (.inl hremoved)),
      fun j hj hj' => ?_⟩, ?_⟩
    · obtain ⟨r, hr, hri, hremoved⟩ := hfirst j hj hj'
      refine ⟨r, hr, hri, (removedAt_concat.1 hremoved).resolve_right fun hlast => ?_⟩
      exact absurd hset.lt (by omega)
    · rintro rfl
      exact hkept history.length hset.lt (removedAt_concat.2 (.inr ⟨rfl, rfl⟩))
  · rintro ⟨⟨hset, hkept, hfirst⟩, hne⟩
    refine ⟨setAt_concat_remove.2 hset, fun j hj hremoved => ?_, fun j hj hj' => ?_⟩
    · rcases removedAt_concat.1 hremoved with hold | ⟨-, hlast⟩
      · exact hkept j hj hold
      · cases hlast
        exact hne rfl
    · obtain ⟨r, hr, hri, hremoved⟩ := hfirst j hj (setAt_concat_remove.1 hj')
      exact ⟨r, hr, hri, removedAt_concat.2 (.inl hremoved)⟩

/-- The keys that are there after the history, in the order of their births. -/
structure InBirthOrder (history : List (Write α)) (keys : List String) : Prop where
  mem_iff : ∀ key, key ∈ keys ↔ ∃ i, BornAt history key i
  pairwise : keys.Pairwise fun a b => ∀ i j, BornAt history a i → BornAt history b j → i < j

namespace InBirthOrder

variable {keys : List String}

theorem nil : InBirthOrder ([] : List (Write α)) [] :=
  ⟨fun _ => ⟨nofun, fun ⟨_, hborn⟩ => absurd hborn.set.lt (Nat.not_lt_zero _)⟩, .nil⟩

theorem concat_set_of_mem (h : InBirthOrder history keys) (hk : k ∈ keys) (value : α) :
    InBirthOrder (history ++ [set k value]) keys := by
  obtain ⟨i, hborn⟩ := (h.mem_iff k).1 hk
  have hsame : ∀ key i, BornAt (history ++ [set k value]) key i ↔
      BornAt history key i := fun key j =>
    bornAt_concat_set.trans (or_iff_left fun hnew => hnew.2.2 i hborn)
  exact ⟨by simpa only [hsame] using h.mem_iff, by simpa only [hsame] using h.pairwise⟩

theorem concat_set_of_notMem (h : InBirthOrder history keys) (hk : k ∉ keys) (value : α) :
    InBirthOrder (history ++ [set k value]) (keys ++ [k]) := by
  have hunborn : ∀ j, ¬ BornAt history k j := fun j hborn => hk ((h.mem_iff k).2 ⟨j, hborn⟩)
  have hborn : ∀ key i, BornAt (history ++ [set k value]) key i ↔
      BornAt history key i ∨ key = k ∧ i = history.length :=
      fun key i => by simp [bornAt_concat_set, hunborn]
  have hold : ∀ key ∈ keys, ∀ i, BornAt (history ++ [set k value]) key i → BornAt history key i :=
    fun key hkey i hi => ((hborn key i).1 hi).resolve_right fun hnew => hk (hnew.1 ▸ hkey)
  refine ⟨fun key => ?_, List.pairwise_append.2 ⟨?_, List.pairwise_singleton _ _, ?_⟩⟩
  · simp [hborn, exists_or, ← h.mem_iff]
  · exact h.pairwise.imp_of_mem fun ha hb hab i j hi hj => hab i j (hold _ ha i hi) (hold _ hb j hj)
  · intro a ha b hb i j hi hj
    obtain rfl := List.mem_singleton.1 hb
    obtain ⟨-, rfl⟩ := ((hborn b j).1 hj).resolve_left (hunborn j)
    exact (hold a ha i hi).set.lt

theorem concat_remove (h : InBirthOrder history keys) (hkeys : keys.Nodup) (k : String) :
    InBirthOrder (history ++ [remove k]) (keys.erase k) := by
  refine ⟨fun key => ?_, (h.pairwise.sublist List.erase_sublist).imp fun hab i j hi hj => ?_⟩
  · rw [hkeys.mem_erase_iff, h.mem_iff]
    simp [bornAt_concat_remove, and_comm]
  · exact hab i j (bornAt_concat_remove.1 hi).1 (bornAt_concat_remove.1 hj).1

end InBirthOrder

end Write

namespace Dict

variable {α : Type} {d : Dict α} {history : List (Write α)}

/-- The dictionary is what the history says: each key once, in the order of births, with the value
of the finite map. -/
structure Records (d : Dict α) (history : List (Write α)) : Prop where
  distinct : d.keys.Nodup
  get?_eq : ∀ key, d.get? key = (Write.mapOf history).lookup key
  order : Write.InBirthOrder history d.keys

theorem records_empty : (empty : Dict α).Records [] := ⟨.nil, fun _ => rfl, .nil⟩

theorem Records.run (h : d.Records history) (w : Write α) : (w.run d).Records (history ++ [w]) := by
  refine ⟨(w.run d).distinct, fun key => ?_, ?_⟩
  · rw [Write.mapOf_concat]
    exact Write.get?_run h.get?_eq w key
  · cases w with
    | set key value =>
      rw [Write.run, keys_set]
      split
      · rename_i hkey
        exact h.order.concat_set_of_mem hkey value
      · rename_i hkey
        exact h.order.concat_set_of_notMem hkey value
    | remove key =>
      change Write.InBirthOrder _ (d.erase key).keys
      rw [keys_erase]
      exact h.order.concat_remove h.distinct key

theorem Records.runAll (h : d.Records history) (writes : List (Write α)) :
    (writes.foldl Write.run d).Records (history ++ writes) := by
  induction writes generalizing d history with
  | nil => simpa using h
  | cons w rest ih =>
    have hrest := ih (h.run w)
    rw [List.append_assoc] at hrest
    exact hrest

theorem records_ofList (pairs : List (String × α)) :
    (ofList pairs).Records (pairs.map .ofEntry) := by
  have hall := records_empty.runAll (pairs.map .ofEntry)
  rw [List.foldl_map] at hall
  exact hall

theorem records_entries (d : Dict α) : d.Records (d.entries.map .ofEntry) := by
  have hmade := records_ofList d.entries
  rw [ofList_entries] at hmade
  exact hmade

end Dict

end UiTree
