import UiTree.Proofs.Tree.Lineage
set_option autoImplicit false

/-!
The invariant of the tree: both sides of every link agree, no list of children repeats a node, texts
have no children, and every node has a higher rank than its parent. Each operation that writes links
keeps it.
-/

namespace UiTree.Tree

open Relation

structure WellFormed (t : Tree) : Prop where
  mem_children_iff : ∀ p c, c ∈ t.children p ↔ t.parent c = some p
  nodup_children : ∀ p, (t.children p).Nodup
  children_of_isText : ∀ n, (t.get n).isText = true → t.children n = []
  ranked : ∃ rank, t.Ranked rank

namespace WellFormed

theorem empty : WellFormed .empty where
  mem_children_iff p c := by
    rw [parent_of_size_le (Nat.zero_le _), children_of_size_le (Nat.zero_le _)]
    simp
  nodup_children p := by
    rw [children_of_size_le (Nat.zero_le _)]
    exact .nil
  children_of_isText n _ := children_of_size_le (Nat.zero_le _)
  ranked := ⟨fun _ => 0, fun c p h => by
    rw [parent_of_size_le (Nat.zero_le _)] at h
    cases h⟩

variable {t t' : Tree}

theorem sameLinks (h : WellFormed t) (hs : SameLinks t t') : WellFormed t' where
  mem_children_iff p c := by
    rw [hs.children, hs.parent]
    exact h.mem_children_iff p c
  nodup_children p := by
    rw [hs.children]
    exact h.nodup_children p
  children_of_isText n hn := by
    rw [hs.isText] at hn
    rw [hs.children]
    exact h.children_of_isText n hn
  ranked := by
    obtain ⟨rank, hr⟩ := h.ranked
    refine ⟨rank, fun c p hc => hr c p ?_⟩
    rw [← hs.parent]
    exact hc

theorem parent_lt_size (h : WellFormed t) {c p : NodeId} (hc : t.parent c = some p) : p < t.size :=
  lt_size_of_mem_children ((h.mem_children_iff p c).2 hc)

theorem child_lt_size (h : WellFormed t) {c p : NodeId} (hc : c ∈ t.children p) : c < t.size := by
  refine Nat.lt_of_not_le fun hle => ?_
  have hp := (h.mem_children_iff p c).1 hc
  rw [parent_of_size_le hle] at hp
  cases hp

theorem up_lt_size (h : WellFormed t) {k : Nat} {c n : NodeId} (hn : n < t.size)
    (hu : t.up k c = some n) : k < t.size := by
  obtain ⟨rank, hr⟩ := h.ranked
  refine hr.up_lt_size (fun c p hc => h.parent_lt_size hc) ?_ hu
  cases k with
  | zero =>
    cases hu
    exact hn
  | succ k =>
    obtain ⟨p, hp, -⟩ := up_succ_eq_some.1 hu
    exact h.child_lt_size ((h.mem_children_iff p c).2 hp)

/-- The upward search of `contains` is complete: its fuel is never used up. -/
theorem contains_iff (h : WellFormed t) {a b : NodeId} (hb : b < t.size) :
    t.contains a b = true ↔ ReflTransGen t.Under b a := by
  obtain ⟨rank, hr⟩ := h.ranked
  rw [contains, meets_iff, reflTransGen_under_iff]
  constructor
  · rintro ⟨k, -, hk⟩
    exact ⟨k, hk⟩
  · rintro ⟨k, hk⟩
    exact ⟨k, hr.up_lt_size (fun c p hc => h.parent_lt_size hc) hb hk, hk⟩

theorem add (h : WellFormed t) (kind : Kind) : WellFormed (t.add kind).2 where
  mem_children_iff p c := by
    rw [children_add, parent_add]
    exact h.mem_children_iff p c
  nodup_children p := by
    rw [children_add]
    exact h.nodup_children p
  children_of_isText n hn := by
    rw [children_add]
    rw [get_add] at hn
    split at hn
    · rename_i hsize
      exact children_of_size_le (Nat.le_of_eq hsize.symm)
    · exact h.children_of_isText n hn
  ranked := by
    obtain ⟨rank, hr⟩ := h.ranked
    refine ⟨rank, fun c p hc => hr c p ?_⟩
    rw [← parent_add]
    exact hc

theorem children_detach (h : WellFormed t) (c n : NodeId) :
    (t.detach c).children n = (t.children n).filter (· ≠ c) := by
  rw [Tree.children_detach]
  split
  · rfl
  · rename_i hn
    refine (List.filter_eq_self.2 fun x hx => ?_).symm
    have hxn := (h.mem_children_iff n x).1 hx
    simp only [decide_eq_true_eq]
    rintro rfl
    exact hn hxn

theorem detach (h : WellFormed t) (c : NodeId) : WellFormed (t.detach c) where
  mem_children_iff p x := by
    rw [h.children_detach, parent_detach, List.mem_filter, h.mem_children_iff]
    by_cases hx : x = c <;> simp [hx]
  nodup_children p := by
    rw [h.children_detach]
    exact (h.nodup_children p).filter _
  children_of_isText n hn := by
    rw [isText_detach] at hn
    rw [h.children_detach, h.children_of_isText n hn]
    rfl
  ranked := by
    obtain ⟨rank, hr⟩ := h.ranked
    refine ⟨rank, fun x p hx => ?_⟩
    rw [parent_detach] at hx
    split at hx
    · cases hx
    · exact hr x p hx

/-- Hanging a root under a node that is not below it: the ranks below the moved node grow by more
than the rank of its new parent. -/
theorem ranked_attach (h : WellFormed t) {p c : NodeId} (hc : c < t.size)
    (hpc : ¬ ReflTransGen t.Under p c) : ∃ rank, (t.attach p c).Ranked rank := by
  obtain ⟨rank, hr⟩ := h.ranked
  classical
  refine ⟨fun x => if ReflTransGen t.Under x c then rank x + rank p + 1 else rank x,
    fun x q hx => ?_⟩
  rw [parent_attach t p hc] at hx
  by_cases hxc : x = c
  · subst hxc
    rw [if_pos rfl] at hx
    cases hx
    simp only [if_neg hpc, if_pos ReflTransGen.refl]
    omega
  · rw [if_neg hxc] at hx
    have hrank := hr x q hx
    -- A node other than `c` is below `c` exactly if its parent is.
    have hiff : ReflTransGen t.Under x c ↔ ReflTransGen t.Under q c := by
      constructor
      · intro hxt
        rcases ReflTransGen.cases_head hxt with heq | ⟨y, hy, hyc⟩
        · exact absurd heq hxc
        · rw [Under, hx] at hy
          cases hy
          exact hyc
      · exact ReflTransGen.head hx
    simp only [hiff]
    split <;> omega

theorem attach (h : WellFormed t) {p c : NodeId} (hc : c < t.size) (hroot : t.parent c = none)
    (hp : (t.get p).isText = false) (hpc : ¬ ReflTransGen t.Under p c) :
    WellFormed (t.attach p c) := by
  have hsize := lt_size_of_isText_eq_false hp
  have hfresh (n : NodeId) : c ∉ t.children n := by
    rw [h.mem_children_iff, hroot]
    simp
  refine ⟨fun q x => ?_, fun q => ?_, fun n hn => ?_, h.ranked_attach hc hpc⟩
  · rw [children_attach t c hsize, parent_attach t p hc, List.mem_append, h.mem_children_iff]
    by_cases hx : x = c
    · subst hx
      by_cases hq : q = p
      · simp [hq]
      · simp [hq, hroot, Ne.symm hq]
    · by_cases hq : q = p <;> simp [hx, hq]
  · rw [children_attach t c hsize]
    by_cases hq : q = p
    · simp only [if_pos hq]
      rw [List.nodup_append]
      refine ⟨h.nodup_children q, by simp, fun x hx y hy => ?_⟩
      rw [List.mem_singleton] at hy
      rintro rfl
      exact hfresh q (hy ▸ hx)
    · simpa [hq] using h.nodup_children q
  · rw [isText_attach] at hn
    have hne : n ≠ p := by
      rintro rfl
      rw [hp] at hn
      cases hn
    rw [children_attach t c hsize, h.children_of_isText n hn, if_neg hne]
    rfl

theorem append (h : WellFormed t) {p c : NodeId} (hc : c < t.size) (ha : t.append p c = .ok t') :
    WellFormed t' := by
  obtain ⟨hp, hpc, rfl⟩ := append_eq_ok ha
  refine (h.detach c).attach (by simpa using hc) (by simp [parent_detach]) (by simpa using hp) ?_
  intro hup
  have hsub : ∀ x y, (t.detach c).Under x y → t.Under x y := by
    intro x y hxy
    rw [Under, parent_detach] at hxy
    split at hxy
    · cases hxy
    · exact hxy
  replace hup := ReflTransGen.mono hsub p c hup
  rw [← h.contains_iff (lt_size_of_isText_eq_false hp), hpc] at hup
  cases hup

theorem appendAll (h : WellFormed t) (p : NodeId) {cs : List NodeId} (hcs : ∀ c ∈ cs, c < t.size) :
    WellFormed (t.appendAll p cs).2 := by
  induction cs generalizing t with
  | nil => exact h
  | cons c rest ih =>
    rw [Tree.appendAll]
    cases ha : t.append p c with
    | error e => exact h
    | ok t' =>
      refine ih (h.append (hcs c (by simp)) ha) fun x hx => ?_
      rw [size_append ha]
      exact hcs x (by simp [hx])

theorem clear (h : WellFormed t) (n : NodeId) : WellFormed (t.clear n) where
  mem_children_iff p c := by
    rw [children_clear, parent_clear]
    by_cases hc : c ∈ t.children n
    · have hpc := (h.mem_children_iff n c).1 hc
      rw [if_pos hc]
      split
      · simp
      · rename_i hne
        rw [h.mem_children_iff, hpc]
        simp [Ne.symm hne]
    · rw [if_neg hc]
      split
      · rename_i heq
        rw [heq, ← h.mem_children_iff]
        simp [hc]
      · exact h.mem_children_iff p c
  nodup_children p := by
    rw [children_clear]
    split
    · exact .nil
    · exact h.nodup_children p
  children_of_isText m hm := by
    rw [isText_clear] at hm
    rw [children_clear, h.children_of_isText m hm]
    simp
  ranked := by
    obtain ⟨rank, hr⟩ := h.ranked
    refine ⟨rank, fun c p hc => ?_⟩
    rw [parent_clear] at hc
    split at hc
    · cases hc
    · exact hr c p hc

theorem setTextContent (h : WellFormed t) (n : NodeId) (text : String) :
    WellFormed (t.setTextContent n text) := by
  rw [Tree.setTextContent]
  cases hk : (t.get n).kind with
  | text content =>
    refine h.sameLinks (.modify rfl rfl ?_)
    simp [NodeData.isText, hk]
  | element tag =>
    have hclear := h.clear n
    simp only
    split
    · exact hclear
    · have hleaf : ∀ c, (t.clear n).parent c ≠ some (t.clear n).size := by
        intro c hc
        exact Nat.lt_irrefl _ (hclear.parent_lt_size hc)
      have ht : (t.get n).isText = false := by simp [NodeData.isText, hk]
      have hn := lt_size_of_isText_eq_false ht
      refine (hclear.add (.text text)).attach (c := (t.clear n).size) (by simp) ?_ ?_ ?_
      · rw [parent_add]
        exact parent_of_size_le (Nat.le_refl _)
      · rw [get_add, if_neg (by simpa using Nat.ne_of_lt hn), isText_clear]
        exact ht
      · intro hup
        rcases ReflTransGen.cases_tail hup with heq | ⟨x, -, hx⟩
        · rw [size_clear] at heq
          exact absurd heq.symm (Nat.ne_of_lt hn)
        · rw [Under, parent_add] at hx
          exact hleaf x hx

theorem prune (h : WellFormed t) (kept : Array Bool) : WellFormed (t.prune kept) where
  mem_children_iff p c := by
    obtain ⟨hpc, -, -⟩ := prune_links t kept c
    obtain ⟨-, hch, -⟩ := prune_links t kept p
    rw [hpc, hch]
    cases hp : kept.getD p false <;> cases hc : kept.getD c false
    · simp
    · simp [Option.filter_eq_some_iff, -Array.getD_eq_getD_getElem?, hp]
    · simp [-Array.getD_eq_getD_getElem?, hc]
    · simp [Option.filter_eq_some_iff, -Array.getD_eq_getD_getElem?, hp, hc, h.mem_children_iff]
  nodup_children p := by
    rw [(prune_links t kept p).2.1]
    split
    · exact (h.nodup_children p).filter _
    · exact .nil
  children_of_isText n hn := by
    rw [(prune_links t kept n).2.2] at hn
    rw [(prune_links t kept n).2.1, h.children_of_isText n hn]
    simp
  ranked := by
    obtain ⟨rank, hr⟩ := h.ranked
    refine ⟨rank, fun c p hc => hr c p ?_⟩
    rw [(prune_links t kept c).1] at hc
    split at hc
    · exact (Option.filter_eq_some_iff.1 hc).1
    · cases hc

end WellFormed

end UiTree.Tree
