import UiTree.Proofs.Notices.Count
set_option autoImplicit false

/-!
What a delivery collects. It takes all that waits on the given nodes and in the given slots, in
order, and leaves nothing there; every other node and slot keeps what it has.
-/

namespace UiTree

/-- The rows of a table one after the other; a row that comes again has nothing left. -/
def gather (rows : Nat → List Notice) : List Nat → List Notice
  | [] => []
  | i :: rest => rows i ++ gather (fun j => if j = i then [] else rows j) rest

theorem gather_congr {f g : Nat → List Notice} (is : List Nat) (h : ∀ i ∈ is, f i = g i) :
    gather f is = gather g is := by
  induction is generalizing f g with
  | nil => rfl
  | cons i rest ih =>
    rw [gather, gather, h i (by simp)]
    refine congrArg (g i ++ ·) (ih fun j hj => ?_)
    simp only [h j (by simp [hj])]

/-- A row that has nothing can as well be left out. -/
theorem gather_clear (rows : Nat → List Notice) (i : Nat) (is : List Nat) :
    gather (fun j => if j = i then [] else rows j) is =
      gather rows (is.filter fun j => !j == i) := by
  induction is generalizing rows with
  | nil => rfl
  | cons k rest ih =>
    by_cases hk : k = i
    · rw [gather, if_pos hk, List.nil_append, List.filter_cons_of_neg (by simp [hk]), ← ih]
      refine gather_congr rest fun j _ => ?_
      by_cases hj : j = i <;> simp [hj, hk]
    · rw [gather, if_neg hk, List.filter_cons_of_pos (by simp [hk]), gather, ← ih]
      refine congrArg (rows k ++ ·) (gather_congr rest fun j _ => ?_)
      by_cases hj : j = k <;> simp [hj]

theorem gather_eq (rows : Nat → List Notice) (is : List Nat) :
    gather rows is = is.eraseDups.flatMap rows := by
  induction hk : is.length using Nat.strongRecOn generalizing is with
  | ind k ih =>
    cases is with
    | nil => rfl
    | cons i rest =>
      have hshorter : (rest.filter fun j => !j == i).length < k :=
        hk ▸ Nat.lt_succ_of_le (List.length_filter_le _ rest)
      rw [gather, gather_clear, ih _ hshorter _ rfl, List.eraseDups_cons, List.flatMap_cons]

theorem gather_of_nodup {is : List Nat} (h : is.Nodup) (rows : Nat → List Notice) :
    gather rows is = is.flatMap rows := by
  induction is generalizing rows with
  | nil => rfl
  | cons i rest ih =>
    obtain ⟨hi, hrest⟩ := List.nodup_cons.1 h
    rw [gather, ih hrest, List.flatMap_cons]
    refine congrArg (rows i ++ ·) (List.flatMap_congr fun j hj => ?_)
    have hne : j ≠ i := fun hji => hi (hji ▸ hj)
    rw [if_neg hne]

theorem mem_gather {rows : Nat → List Notice} {is : List Nat} {x : Notice} :
    x ∈ gather rows is ↔ ∃ i ∈ is, x ∈ rows i := by
  induction is generalizing rows with
  | nil => simp [gather]
  | cons i rest ih =>
    simp only [gather, List.mem_append, ih, List.exists_mem_cons_iff]
    constructor
    · rintro (hx | ⟨j, hj, hx⟩)
      · exact .inl hx
      · by_cases hji : j = i
        · simp [hji] at hx
        · exact .inr ⟨j, hj, by simpa [hji] using hx⟩
    · rintro (hx | ⟨j, hj, hx⟩)
      · exact .inl hx
      · by_cases hji : j = i
        · exact .inl (hji ▸ hx)
        · exact .inr ⟨j, hj, by simpa [hji] using hx⟩

theorem gather_of_empty {rows : Nat → List Notice} {is : List Nat} (h : ∀ i ∈ is, rows i = []) :
    gather rows is = [] := by
  refine List.eq_nil_iff_forall_not_mem.2 fun x hx => ?_
  obtain ⟨i, hi, hx⟩ := mem_gather.1 hx
  rw [h i hi] at hx
  cases hx

namespace Scene

theorem takeFromNodes_fst (nodes : List NodeId) (s : Scene) :
    (s.takeFromNodes nodes).1 = gather (fun n => (s.node n).pending) nodes := by
  induction nodes generalizing s with
  | nil => rfl
  | cons n rest ih => simp only [takeFromNodes, gather, ih, pending_setPending_nil]

theorem takeFromSlots_fst (slots : List SlotId) (s : Scene) :
    (s.takeFromSlots slots).1 = gather s.slot slots := by
  induction slots generalizing s with
  | nil => rfl
  | cons i rest ih =>
    simp only [takeFromSlots, gather, ih]
    exact congrArg (s.slot i ++ ·) (gather_congr rest fun j _ => s.slot_clear i j)

theorem pending_takeFromNodes (nodes : List NodeId) (s : Scene) (m : NodeId) :
    ((s.takeFromNodes nodes).2.node m).pending = if m ∈ nodes then [] else (s.node m).pending := by
  induction nodes generalizing s with
  | nil => rfl
  | cons n rest ih =>
    simp only [takeFromNodes, ih, pending_setPending_nil, List.mem_cons]
    by_cases hm : m = n <;> simp [hm]

theorem slots_takeFromNodes (nodes : List NodeId) (s : Scene) :
    (s.takeFromNodes nodes).2.slots = s.slots := by
  induction nodes generalizing s with
  | nil => rfl
  | cons n rest ih => exact ih _

theorem slot_takeFromSlots (slots : List SlotId) (s : Scene) (j : SlotId) :
    (s.takeFromSlots slots).2.slot j = if j ∈ slots then [] else s.slot j := by
  induction slots generalizing s with
  | nil => rfl
  | cons i rest ih =>
    simp only [takeFromSlots, ih, slot_clear, List.mem_cons]
    by_cases hj : j = i <;> simp [hj]

theorem size_takeFromSlots (slots : List SlotId) (s : Scene) :
    (s.takeFromSlots slots).2.slots.size = s.slots.size := by
  induction slots generalizing s with
  | nil => rfl
  | cons i rest ih =>
    rw [takeFromSlots, ih]
    exact Array.size_setIfInBounds

theorem collect_fst (s : Scene) (result : Element) (nodes : List NodeId) (slots : List SlotId) :
    (s.collect result nodes slots).1 =
      gather (fun n => (s.node n).pending) (nodes.filter fun n => result.node? ≠ some n) ++
        gather s.slot slots := by
  have hslot : (s.takeFromNodes (nodes.filter fun n => result.node? ≠ some n)).2.slot = s.slot := by
    funext j
    simp only [slot, slots_takeFromNodes]
  simp only [collect, takeFromNodes_fst, takeFromSlots_fst, hslot]

theorem collect_of_cleared {s : Scene} {nodes : List NodeId}
    (h : ∀ n ∈ nodes, (s.node n).pending = []) (result : Element) (slots : List SlotId) :
    (s.collect result nodes slots).1 = gather s.slot slots := by
  rw [collect_fst, gather_of_empty fun n hn => h n (List.mem_of_mem_filter hn), List.nil_append]

theorem pending_collect (s : Scene) (result : Element) (nodes : List NodeId) (slots : List SlotId)
    (m : NodeId) : ((s.collect result nodes slots).2.node m).pending =
      if m ∈ nodes ∧ result.node? ≠ some m then [] else (s.node m).pending := by
  simp only [collect, node, tree_takeFromSlots]
  change ((s.takeFromNodes _).2.node m).pending = _
  rw [pending_takeFromNodes]
  simp only [List.mem_filter, decide_eq_true_eq]
  rfl

theorem slot_collect (s : Scene) (result : Element) (nodes : List NodeId) (slots : List SlotId)
    (j : SlotId) : (s.collect result nodes slots).2.slot j = if j ∈
      slots then [] else s.slot j := by
  simp only [collect, slot_takeFromSlots]
  simp only [slot, slots_takeFromNodes]

theorem size_slots_collect (s : Scene) (result : Element) (nodes : List NodeId)
    (slots : List SlotId) : (s.collect result nodes slots).2.slots.size = s.slots.size := by
  simp only [collect, size_takeFromSlots, slots_takeFromNodes]

/-- What waits on the elements: first on their nodes, then in their slots. -/
def pendingOn (s : Scene) (es : List Element) : List Notice :=
  ((flatten es).flatMap fun n => (s.node n).pending) ++ (slotsOf es).flatMap s.slot

theorem pendingOn_congr {s s' : Scene} {es : List Element}
    (hn : ∀ n ∈ flatten es, (s'.node n).pending = (s.node n).pending)
    (hs : ∀ i ∈ slotsOf es, s'.slot i = s.slot i) :
    s'.pendingOn es = s.pendingOn es := by
  rw [pendingOn, pendingOn, List.flatMap_congr hn, List.flatMap_congr hs]

theorem collect_of_nodup {s : Scene} {es : List Element} (hn : (flatten es).Nodup)
    (hs : (slotsOf es).Nodup) {result : Element} (hr : ∀ n ∈ flatten es, result.node? ≠ some n) :
    (s.collect result (flatten es) (slotsOf es)).1 = s.pendingOn es := by
  have hall : ((flatten es).filter fun n => result.node? ≠ some n) = flatten es :=
    List.filter_eq_self.2 fun n hm => by simpa using hr n hm
  rw [collect_fst, hall, gather_of_nodup hn, gather_of_nodup hs, pendingOn]

theorem takeFromNodes_of_idle {s : Scene} {nodes : List NodeId}
    (h : ∀ n ∈ nodes, (s.node n).pending = []) : s.takeFromNodes nodes = ([], s) := by
  induction nodes with
  | nil => rfl
  | cons n rest ih =>
    have hn := h n (by simp)
    have hrow : NodeData.setPending [] (s.node n) = s.node n := by rw [← hn]; rfl
    have hsame : s.modifyNode n (.setPending []) = s := by
      rw [modifyNode, Tree.modify_eq_self hrow]
    rw [takeFromNodes, hsame, ih fun m hm => h m (by simp [hm]), hn]
    rfl

theorem takeFromSlots_of_idle {s : Scene} {slots : List SlotId} (h : ∀ i ∈ slots, s.slot i = []) :
    s.takeFromSlots slots = ([], s) := by
  induction slots with
  | nil => rfl
  | cons i rest ih =>
    have hi := h i (by simp)
    have hslots : s.slots.setIfInBounds i [] = s.slots := by
      refine Array.ext (by simp) fun j _ hj => ?_
      rw [Array.getElem_setIfInBounds hj]
      split
      · rename_i hij
        subst hij
        simpa [slot, Array.getD_eq_getD_getElem?, hj] using hi.symm
      · rfl
    have hsame : { s with slots := s.slots.setIfInBounds i [] } = s := by rw [hslots]
    rw [takeFromSlots, hsame, ih fun j hj => h j (by simp [hj]), hi]
    rfl

theorem collect_of_idle {s : Scene} {es : List Element} (h : s.pendingOn es = [])
    (result : Element) : s.collect result (flatten es) (slotsOf es) = ([], s) := by
  obtain ⟨hnodes, hslots⟩ := List.append_eq_nil_iff.1 h
  rw [List.flatMap_eq_nil_iff] at hnodes hslots
  rw [collect, takeFromNodes_of_idle fun n hn => hnodes n (List.mem_of_mem_filter hn)]
  simp only
  rw [takeFromSlots_of_idle hslots]
  rfl

/-- The scene after a delivery to a node has taken what waits, and before anything is told. -/
structure Drained (s s' : Scene) (p : NodeId) (nodes : List NodeId) (slots : List SlotId) :
    Prop where
  links : Tree.SameLinks s.tree s'.tree
  slots_size : s'.slots.size = s.slots.size
  offers : SameOffers s s'
  pending : ∀ m, (s'.node m).pending = if m ∈ nodes ∧ p ≠ m then [] else (s.node m).pending
  slot : ∀ j, s'.slot j = if j ∈ slots then [] else s.slot j

theorem drained_announce (s : Scene) (p : NodeId) (nodes : List NodeId) (slots : List SlotId)
    (notices : List Notice) :
    Drained s ((s.collect (.node p) nodes slots).2.announce (.node p) notices) p nodes slots := by
  let t := (s.collect (.node p) nodes slots).2
  have htree : (t.announce (.node p) notices).tree = t.tree := by cases notices <;> rfl
  have hslots : (t.announce (.node p) notices).slots = t.slots := by cases notices <;> rfl
  refine ⟨?_, ?_, ?_, fun m => ?_, fun j => ?_⟩
  · rw [htree]
    exact s.sameLinks_collect _ nodes slots
  · rw [hslots]
    exact s.size_slots_collect _ nodes slots
  · exact (s.sameOffers_collect (.node p) nodes slots).trans
      (t.sameOffers_announce (.node p) notices)
  · rw [node, htree]
    change (t.node m).pending = _
    rw [pending_collect]
    simp [Element.node?]
  · rw [slot, hslots]
    exact s.slot_collect _ nodes slots j

end Scene

end UiTree
