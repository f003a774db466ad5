import Mathlib.Data.List.Infix
import UiTree.Element
set_option autoImplicit false

/-!
A forest of elements by places. The place of an element is the number of the item that it is or is
inside of, then its place in there; places in their order run from left to right, with a fragment
before all that is inside it. `flatten` takes the nodes from the forest in that order, and
`collectFragments` the fragments.
-/

namespace UiTree

/-- The element stands in the forest at the place. -/
inductive Stands : List Element → List Nat → Element → Prop where
  | here {items : List Element} {i : Nat} {e : Element} (h : items[i]? = some e) :
      Stands items [i] e
  | inside {items inner : List Element} {i : Nat} {slot : SlotId} {place : List Nat} {e : Element}
      (h : items[i]? = some (.fragment slot inner)) (hin : Stands inner place e) :
      Stands items (i :: place) e

namespace Stands

variable {e x : Element} {items rest : List Element} {i : Nat} {place : List Nat}

theorem place_ne_nil (h : Stands items place x) : place ≠ [] := by
  cases h <;> simp

theorem from_zero_iff : (∃ j inner, place = (0 + j) :: inner ∧ Stands items (j :: inner) x) ↔
    Stands items place x := by
  constructor
  · rintro ⟨j, inner, rfl, h⟩
    simpa using h
  · intro h
    obtain ⟨j, inner, rfl⟩ := List.exists_cons_of_ne_nil h.place_ne_nil
    exact ⟨j, inner, by simp, h⟩

theorem not_of_nil : ¬ Stands [] place x := by
  intro h
  cases h with
  | here h => simp at h
  | inside h => simp at h

theorem zero_iff : Stands (e :: rest) (0 :: place) x ↔
    (place, x) = ([], e) ∨ ∃ slot inner, e = .fragment slot inner ∧ Stands inner place x := by
  constructor
  · intro h
    cases h with
    | here h => simp_all
    | inside h hin => exact .inr ⟨_, _, by simpa using h, hin⟩
  · rintro (h | ⟨slot, inner, rfl, hin⟩)
    · cases h
      exact .here rfl
    · exact .inside rfl hin

theorem succ_iff : Stands (e :: rest) ((i + 1) :: place) x ↔ Stands rest (i :: place) x := by
  constructor
  · intro h
    cases h with
    | here h => exact .here (by simpa using h)
    | inside h hin => exact .inside (by simpa using h) hin
  · intro h
    cases h with
    | here h => exact .here (by simpa using h)
    | inside h hin => exact .inside (by simpa using h) hin

end Stands

mutual

def Element.inside : Element → List (List Nat × Element)
  | .node _ => []
  | .fragment _ items => placed 0 items

/-- All that stands in a forest, the numbers of its items starting from `i`. -/
def placed (i : Nat) : List Element → List (List Nat × Element)
  | [] => []
  | e :: rest => ([i], e) :: e.inside.map (Prod.map (i :: ·) id) ++ placed (i + 1) rest

end

mutual

theorem Element.mem_inside (e : Element) {place : List Nat} {x : Element} :
    (place, x) ∈ e.inside ↔ ∃ slot inner, e = .fragment slot inner ∧ Stands inner place x := by
  cases e with
  | node n => simp [Element.inside]
  | fragment slot items =>
    rw [Element.inside, mem_placed, Stands.from_zero_iff]
    simp

theorem mem_placed (i : Nat) (items : List Element) {place : List Nat} {x : Element} :
    (place, x) ∈ placed i items ↔ ∃ j inner, place = (i + j) :: inner ∧
      Stands items (j :: inner) x := by
  cases items with
  | nil => simp [placed, Stands.not_of_nil]
  | cons e rest =>
    rw [placed, List.cons_append, List.mem_cons, List.mem_append, mem_placed (i + 1) rest,
      List.mem_map]
    constructor
    · rintro (h | ⟨⟨p, y⟩, h, heq⟩ | ⟨j, inner, rfl, h⟩)
      · cases h
        exact ⟨0, [], rfl, Stands.zero_iff.2 (.inl rfl)⟩
      · cases heq
        exact ⟨0, p, rfl, Stands.zero_iff.2 (.inr (e.mem_inside.1 h))⟩
      · exact ⟨j + 1, inner, by simp; omega, Stands.succ_iff.2 h⟩
    · rintro ⟨j, inner, rfl, h⟩
      cases j with
      | zero =>
        rcases Stands.zero_iff.1 h with h | h
        · cases h
          exact .inl rfl
        · exact .inr (.inl ⟨(inner, x), e.mem_inside.2 h, rfl⟩)
      | succ j => exact .inr (.inr ⟨j, inner, by simp; omega, Stands.succ_iff.1 h⟩)

end

mutual

theorem Element.pairwise_inside (e : Element) : e.inside.Pairwise (fun a b => a.1 < b.1) := by
  cases e with
  | node n => exact .nil
  | fragment slot items => exact pairwise_placed 0 items

theorem pairwise_placed (i : Nat) (items : List Element) :
    (placed i items).Pairwise (fun a b => a.1 < b.1) := by
  cases items with
  | nil => exact .nil
  | cons e rest =>
    have hlater : ∀ b ∈ placed (i + 1) rest, ∀ place, i :: place < b.1 := by
      rintro ⟨_, x⟩ hb place
      obtain ⟨j, inner, rfl, -⟩ := (mem_placed (i + 1) rest).1 hb
      exact List.cons_lt_cons_iff.2 (.inl (by omega))
    have hinside : ∀ b ∈ e.inside, [i] < i :: b.1 := by
      rintro ⟨place, x⟩ hb
      obtain ⟨_, _, -, h⟩ := e.mem_inside.1 hb
      obtain ⟨j, inner, rfl⟩ := List.exists_cons_of_ne_nil h.place_ne_nil
      exact List.cons_lt_cons_iff.2 (.inr ⟨rfl, List.nil_lt_cons j inner⟩)
    have hown : (([i], e) :: e.inside.map (Prod.map (i :: ·) id)).Pairwise
        (fun a b => a.1 < b.1) := by
      refine List.pairwise_cons.2 ⟨fun b hb => ?_,
        List.pairwise_map.2 (e.pairwise_inside.imp fun h => ?_)⟩
      · obtain ⟨a, ha, rfl⟩ := List.mem_map.1 hb
        exact hinside a ha
      · exact List.cons_lt_cons_iff.2 (.inr ⟨rfl, h⟩)
    rw [placed, List.pairwise_append]
    refine ⟨hown, pairwise_placed (i + 1) rest, fun a ha b hb => ?_⟩
    rcases List.mem_cons.1 ha with rfl | ha
    · exact hlater b hb []
    · obtain ⟨c, -, rfl⟩ := List.mem_map.1 ha
      exact hlater b hb c.1

end

theorem filterMap_placed_cons {α : Type} (pick : Element → Option α) (i : Nat) (e : Element)
    (rest : List Element) : (placed i (e :: rest)).filterMap (fun a => pick a.2) =
      ((pick e).toList ++ e.inside.filterMap (fun a => pick a.2)) ++
        (placed (i + 1) rest).filterMap (fun a => pick a.2) := by
  rw [placed, List.filterMap_append, List.filterMap_cons, List.filterMap_map]
  cases h : pick e <;> rfl

mutual

theorem Element.nodes_eq (e : Element) :
    e.nodes = e.node?.toList ++ e.inside.filterMap (fun a => a.2.node?) := by
  cases e with
  | node n => rfl
  | fragment slot items => exact flatten_eq_placed 0 items

theorem flatten_eq_placed (i : Nat) (items : List Element) :
    flatten items = (placed i items).filterMap (fun a => a.2.node?) := by
  cases items with
  | nil => rfl
  | cons e rest => rw [flatten, e.nodes_eq, flatten_eq_placed (i + 1) rest, filterMap_placed_cons]

end

mutual

theorem Element.fragments_eq (e : Element) :
    e.fragments = e.fragment?.toList ++ e.inside.filterMap (fun a => a.2.fragment?) := by
  cases e with
  | node n => rfl
  | fragment slot items =>
    rw [Element.fragments, collectFragments_eq_placed 0 items]
    rfl

theorem collectFragments_eq_placed (i : Nat) (items : List Element) :
    collectFragments items = (placed i items).filterMap (fun a => a.2.fragment?) := by
  cases items with
  | nil => rfl
  | cons e rest =>
    rw [collectFragments, e.fragments_eq, collectFragments_eq_placed (i + 1) rest,
      filterMap_placed_cons]

end

mutual

theorem Element.infix_of_mem_fragments (e : Element) {f : Fragment} (hf : f ∈ e.fragments) :
    f.nodes <:+: e.nodes := by
  cases e with
  | node n => cases hf
  | fragment slot items =>
    rw [Element.fragments, List.mem_cons] at hf
    rcases hf with rfl | hf
    · exact List.infix_rfl
    · exact infix_of_mem_collectFragments items hf

theorem infix_of_mem_collectFragments (items : List Element) {f : Fragment}
    (hf : f ∈ collectFragments items) : f.nodes <:+: flatten items := by
  cases items with
  | nil => cases hf
  | cons e rest =>
    rw [collectFragments, List.mem_append] at hf
    rw [flatten]
    rcases hf with hf | hf
    · exact (e.infix_of_mem_fragments hf).trans (List.prefix_append _ _).isInfix
    · exact (infix_of_mem_collectFragments rest hf).trans (List.suffix_append _ _).isInfix

end

/-- Of every forest: there is a list of all its elements in the order of their places, its nodes are
what the forest flattens to, and its fragments are what is collected. Both go through a
concatenation part by part; flattening again, or with one more fragment around, changes nothing; and
the nodes of each fragment stand together. -/
theorem flatten_collect_in_order (items : List Element) :
    (∃ places : List (List Nat × Element),
      (∀ place e, (place, e) ∈ places ↔ Stands items place e) ∧
      places.Pairwise (fun a b => a.1 < b.1) ∧
      flatten items = places.filterMap (fun a => a.2.node?) ∧
      collectFragments items = places.filterMap (fun a => a.2.fragment?)) ∧
    (∀ more, flatten (items ++ more) = flatten items ++ flatten more ∧
      collectFragments (items ++ more) = collectFragments items ++ collectFragments more) ∧
    flatten ((flatten items).map .node) = flatten items ∧
    (∀ slot, flatten [Fragment.toElement ⟨slot, items⟩] = flatten items) ∧
    ∀ f ∈ collectFragments items, f.nodes <:+: flatten items := by
  refine ⟨⟨placed 0 items, fun place e => ?_, pairwise_placed 0 items, flatten_eq_placed 0 items,
    collectFragments_eq_placed 0 items⟩,
    fun more => ⟨flatten_append items more, collectFragments_append items more⟩,
    flatten_nodes (flatten items), fun slot => ?_,
    fun f hf => infix_of_mem_collectFragments items hf⟩
  · exact (mem_placed 0 items).trans Stands.from_zero_iff
  · simp [Fragment.toElement, flatten, Element.nodes]

/-- The empty fragment between two nodes has a place of its own, after the fragment around it. -/
theorem flatten_collect_in_order_of_nested :
    let inner : List Element := [.node 7, .fragment 1 [], .node 2]
    let items : List Element := [.node 4, .fragment 0 inner, .node 4]
    Stands items [1, 1] (.fragment 1 []) ∧ flatten items = [4, 7, 2, 4] ∧
      (collectFragments items).map Fragment.slot = [0, 1] ∧ flatten inner <:+: flatten items := by
  intro inner items
  obtain ⟨-, -, -, -, htogether⟩ := flatten_collect_in_order items
  exact ⟨.inside rfl (.here rfl), rfl, rfl, htogether ⟨0, inner⟩ (.head _)⟩

end UiTree
