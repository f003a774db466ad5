import Mathlib.Data.List.Infix
import Mathlib.Order.Defs.Unbundled
import UiTree.Proofs.Append
set_option autoImplicit false

/-!
The tree seen from below and from above. `contains` climbs from parent to parent; the list of a
subtree in document order goes down from child to child. In every moment the two agree, and no list
names a node twice. So `contains` orders the nodes, and of two subtrees the one is a part of the
other or they have no node in common.
-/

namespace UiTree

open Relation

namespace Tree.WellFormed

variable {t : Tree}

theorem up_inj (h : WellFormed t) {i j : Nat} {x a : NodeId} (hi : t.up i x = some a)
    (hj : t.up j x = some a) : i = j := by
  obtain ⟨rank, hr⟩ := h.ranked
  have hlt := hr.up_ne_of_lt hi hj
  have hgt := hr.up_ne_of_lt hj hi
  omega

/-- A node below two children of one node has the parent of both at the same distance, so the two
are one. -/
theorem disjoint_of_siblings (h : WellFormed t) {p c d : NodeId} (hc : t.parent c = some p)
    (hd : t.parent d = some p) (hne : c ≠ d) (fuel : Nat) :
    (t.preorderFrom fuel c).Disjoint (t.preorderFrom fuel d) := by
  intro x hxc hxd
  obtain ⟨i, -, hi⟩ := h.mem_preorderFrom_iff.1 hxc
  obtain ⟨j, -, hj⟩ := h.mem_preorderFrom_iff.1 hxd
  have hij := h.up_inj (up_succ_eq_some_last.2 ⟨c, hi, hc⟩) (up_succ_eq_some_last.2 ⟨d, hj, hd⟩)
  obtain rfl : i = j := by omega
  exact hne (Option.some.inj (hi.symm.trans hj))

theorem nodup_preorderFrom (h : WellFormed t) (fuel : Nat) (n : NodeId) :
    (t.preorderFrom fuel n).Nodup := by
  induction fuel generalizing n with
  | zero => exact .nil
  | succ fuel ih =>
    have hparent : ∀ c ∈ t.children n, t.parent c = some n :=
      fun c hc => (h.mem_children_iff n c).1 hc
    rw [preorderFrom, List.nodup_cons, List.nodup_flatMap, List.mem_flatMap]
    refine ⟨?_, fun c _ => ih c, ?_⟩
    · rintro ⟨c, hc, hbelow⟩
      obtain ⟨k, -, hk⟩ := h.mem_preorderFrom_iff.1 hbelow
      have hzero : k + 1 = 0 := h.up_inj (up_succ_eq_some_last.2 ⟨c, hk, hparent c hc⟩) rfl
      omega
    · refine (h.nodup_children n).imp_of_mem fun hc hd hne => ?_
      exact h.disjoint_of_siblings (hparent _ hc) (hparent _ hd) hne fuel

theorem contains_iff_mem_preorder (h : WellFormed t) {a b : NodeId} (hb : b < t.size) :
    t.contains a b = true ↔ b ∈ t.preorder a := by
  rw [h.contains_iff_lists hb, h.mem_preorder_iff_of_lt hb]

theorem isPartialOrder_contains (h : WellFormed t) :
    IsPartialOrder (Fin t.size) fun a b => t.contains a b = true where
  refl a := (h.contains_iff a.2).2 .refl
  trans a b c hab hbc :=
    (h.contains_iff c.2).2 (.trans ((h.contains_iff c.2).1 hbc) ((h.contains_iff b.2).1 hab))
  antisymm a b hab hba := by
    obtain ⟨rank, hr⟩ := h.ranked
    rcases reflTransGen_iff_eq_or_transGen.1 ((h.contains_iff b.2).1 hab) with heq | hup
    · exact Fin.ext heq
    · exact absurd (hup.trans_left ((h.contains_iff a.2).1 hba)) (hr.not_above_self b)

theorem preorder_infix (h : WellFormed t) {a b : NodeId} (hab : ReflTransGen t.Lists a b) :
    t.preorder b <:+: t.preorder a := by
  induction hab using ReflTransGen.head_induction_on with
  | refl => exact List.infix_rfl
  | @head a c hac _ ih =>
    obtain ⟨before, after, hsplit⟩ := List.append_of_mem hac
    have hlist : t.preorder a =
        (a :: before.flatMap t.preorder) ++ t.preorder c ++ after.flatMap t.preorder := by
      rw [h.preorder_eq (lt_size_of_mem_children hac), hsplit]
      simp
    exact ih.trans (hlist ▸ List.infix_append _ _ _)

/-- Two nodes that have a node below both: the one that is met first on its way up is below the
other. -/
theorem infix_or_infix (h : WellFormed t) {a b x : NodeId} (hxa : x ∈ t.preorder a)
    (hxb : x ∈ t.preorder b) : t.preorder a <:+: t.preorder b ∨ t.preorder b <:+: t.preorder a := by
  have hnested : ∀ {a b i d}, t.up i x = some a → t.up (i + d) x = some b →
      t.preorder a <:+: t.preorder b := by
    intro a b i d hi hid
    obtain ⟨a', ha', hd⟩ := up_split hid
    cases hi.symm.trans ha'
    exact h.preorder_infix (h.reflTransGen_lists_iff.2 (reflTransGen_under_iff.2 ⟨d, hd⟩))
  obtain ⟨i, -, hi⟩ := h.mem_preorderFrom_iff.1 hxa
  obtain ⟨j, -, hj⟩ := h.mem_preorderFrom_iff.1 hxb
  rcases Nat.le_total i j with hle | hle
  · obtain ⟨d, rfl⟩ := Nat.exists_eq_add_of_le hle
    exact .inl (hnested hi hj)
  · obtain ⟨d, rfl⟩ := Nat.exists_eq_add_of_le hle
    exact .inr (hnested hj hi)

end Tree.WellFormed

namespace Course

/-- Of every moment and all nodes: the list below a node is the node itself and then what is listed
below its children, in their order; it names the nodes that `contains` finds by climbing, and each
of them once. So `contains` is a partial order, and two lists are one within the other, as a part
without gaps, or have nothing in common. -/
theorem Reachable.contains_iff_listed {m : Moment} (hm : Reachable m) :
    let t := m.scene.tree
    (∀ a : Fin t.size, t.preorder a = a.1 :: (t.children a).flatMap t.preorder) ∧
    (∀ a b : Fin t.size, t.contains a b = true ↔ b.1 ∈ t.preorder a) ∧
    (∀ a : Fin t.size, (t.preorder a).Nodup) ∧
    IsPartialOrder (Fin t.size) (fun a b => t.contains a b = true) ∧
    ∀ a b : Fin t.size, t.preorder a <:+: t.preorder b ∨ t.preorder b <:+: t.preorder a ∨
      (t.preorder a).Disjoint (t.preorder b) := by
  have h := hm.wellFormed
  intro t
  refine ⟨fun a => h.preorder_eq a.2, fun a b => h.contains_iff_mem_preorder b.2,
    fun a => h.nodup_preorderFrom t.size a, h.isPartialOrder_contains, fun a b => ?_⟩
  by_cases hcommon : ∃ x, x ∈ t.preorder a ∧ x ∈ t.preorder b
  · obtain ⟨x, hxa, hxb⟩ := hcommon
    exact (h.infix_or_infix hxa hxb).imp_right .inl
  · exact .inr (.inr fun x hxa hxb => hcommon ⟨x, hxa, hxb⟩)

theorem Reachable.contains_iff_listed_of_twoLists : ∃ m, Reachable m ∧
    m.scene.tree.preorder 0 = [0, 1, 2] ∧ m.scene.tree.contains 0 2 = true ∧
    m.scene.tree.contains 2 0 = false ∧
    (m.scene.tree.preorder 0).Nodup ∧
    (m.scene.tree.preorder 0).Disjoint (m.scene.tree.preorder 3) := by
  obtain ⟨-, hiff, hnodup, -, hparts⟩ := reachable_twoLists.contains_iff_listed
  have hlist : twoLists.scene.tree.preorder 0 = [0, 1, 2] := by decide
  refine ⟨twoLists, reachable_twoLists, hlist, ?_, ?_, hnodup ⟨0, by decide⟩, ?_⟩
  · exact (hiff ⟨0, by decide⟩ ⟨2, by decide⟩).2 (by decide)
  · exact Bool.eq_false_iff.2 fun hup => absurd ((hiff ⟨2, by decide⟩ ⟨0, by decide⟩).1 hup)
      (by decide)
  · rcases hparts ⟨0, by decide⟩ ⟨3, by decide⟩ with hin | hin | hdisjoint
    · exact absurd hin (by decide)
    · exact absurd hin (by decide)
    · exact hdisjoint

end Course

end UiTree
