import Mathlib.Algebra.BigOperators.Group.Finset.Basic
import UiTree.Proofs.Notices.Stay
import UiTree.Proofs.Scene.Growth
set_option autoImplicit false

/-!
Counting notices. `waiting` says how often a notice stands on the nodes and in the slots of a scene,
`offered` how often in its sinks. Every operation that moves notices is described by what it adds to
these two counts or takes from them.
-/

namespace UiTree

/-- How often a notice stands in the lists of a table with `k` rows. -/
def occurrences (rows : Nat → List Notice) (k : Nat) (x : Notice) : Nat :=
  ∑ i ∈ Finset.range k, (rows i).count x

/-- Rows beyond the end are empty, so the end itself does not matter. -/
theorem occurrences_congr {f g : Nat → List Notice} {j k : Nat} (hf : ∀ i, j ≤ i → f i = [])
    (hg : ∀ i, k ≤ i → g i = []) (h : ∀ i, g i = f i) (x : Notice) :
    occurrences g k x = occurrences f j x := by
  have hwide : ∀ {f : Nat → List Notice} {j : Nat}, (∀ i, j ≤ i → f i = []) → ∀ l, j ≤ l →
      occurrences f j x = occurrences f l x := by
    intro f j hf l hl
    refine Finset.sum_subset (Finset.range_subset_range.2 hl) fun i _ hi => ?_
    rw [hf i (Nat.le_of_not_lt fun hlt => hi (Finset.mem_range.2 hlt))]
    rfl
  have hfg : g = f := funext h
  subst hfg
  rw [hwide hf (max j k) (Nat.le_max_left j k), hwide hg (max j k) (Nat.le_max_right j k)]

theorem occurrences_change {f g : Nat → List Notice} {k i : Nat} (h : ∀ j, j ≠ i → g j = f j)
    (hi : i < k ∨ g i = f i) (x : Notice) :
    occurrences g k x + (f i).count x = occurrences f k x + (g i).count x := by
  rcases hi with hi | hi
  · have hmem : i ∈ Finset.range k := Finset.mem_range.2 hi
    have hrest : ∑ j ∈ (Finset.range k).erase i, (g j).count x = ∑ j ∈ (Finset.range k).erase i,
        (f j).count x :=
      Finset.sum_congr rfl fun j hj => by rw [h j (Finset.ne_of_mem_erase hj)]
    unfold occurrences
    rw [← Finset.add_sum_erase _ (fun j => (g j).count x) hmem,
      ← Finset.add_sum_erase _ (fun j => (f j).count x) hmem, hrest]
    omega
  · have hfg : g = f := funext fun j => if hj : j = i then hj ▸ hi else h j hj
    rw [hfg]

namespace Scene

theorem pending_of_size_le (s : Scene) (n : NodeId) (h : s.tree.size ≤ n) :
    (s.node n).pending = [] := by
  rw [node, s.tree.get_of_size_le h]
  rfl

theorem slot_of_size_le (s : Scene) (id : SlotId) (h : s.slots.size ≤ id) : s.slot id = [] := by
  simp [slot, Array.getD_eq_getD_getElem?, h]

theorem notice_of_size_le (s : Scene) (id : SinkId) (h : s.sinks.size ≤ id) :
    (s.sink id).notice.toList = [] := by
  have hs : s.sink id = .empty := by simp [sink, Array.getD_eq_getD_getElem?, h]
  rw [hs]
  rfl

def onNodes (s : Scene) (x : Notice) : Nat :=
  occurrences (fun n => (s.node n).pending) s.tree.size x

def inSlots (s : Scene) (x : Notice) : Nat := occurrences s.slot s.slots.size x

/-- How often a notice waits somewhere to be told of a parent. -/
def waiting (s : Scene) (x : Notice) : Nat := s.onNodes x + s.inSlots x

def offered (s : Scene) (x : Notice) : Nat :=
  occurrences (fun id => (s.sink id).notice.toList) s.sinks.size x

theorem SameNotices.waiting_eq {s s' : Scene} (h : SameNotices s s') (x : Notice) :
    s'.waiting x = s.waiting x := by
  have hn : s'.onNodes x = s.onNodes x :=
    occurrences_congr s.pending_of_size_le s'.pending_of_size_le h.pending x
  have hl : s'.inSlots x = s.inSlots x :=
    occurrences_congr s.slot_of_size_le s'.slot_of_size_le h.slot x
  rw [waiting, waiting, hn, hl]

theorem SameNotices.offered_eq {s s' : Scene} (h : SameNotices s s') (x : Notice) :
    s'.offered x = s.offered x :=
  occurrences_congr s.notice_of_size_le s'.notice_of_size_le (fun id => by rw [h.notice id]) x

theorem SameOffers.offered_eq {s s' : Scene} (h : SameOffers s s') (x : Notice) :
    s'.offered x = s.offered x := by
  simp only [offered, sink, h.1]

theorem slot_modify (s : Scene) (i id : SlotId) (f : List Notice → List Notice) :
    { s with slots := s.slots.modify i f }.slot id =
      if id = i ∧ id < s.slots.size then f (s.slot id) else s.slot id := by
  simp only [slot, Array.getD_eq_getD_getElem?, Array.getElem?_modify]
  by_cases h : i = id
  · subst h
    by_cases hi : i < s.slots.size <;> simp [hi]
  · simp [h, Ne.symm h]

theorem pending_pushNotice {s : Scene} {e : Element} (he : s.Knows e) (y : Notice) (m : NodeId) :
    ((s.pushNotice e y).node m).pending = (s.node m).pending ++ if e.node? =
      some m then [y] else [] := by
  cases e with
  | node n =>
    have hn : n < s.tree.size := he.1 n (by simp [Element.nodes])
    by_cases hm : m = n
    · subst hm
      rw [pushNotice, node, modifyNode, s.tree.get_modify_self _ hn, Element.node?, if_pos rfl]
      rfl
    · have hne : some n ≠ some m := fun h => hm (Option.some.inj h).symm
      rw [pushNotice, node, modifyNode, s.tree.get_modify_of_ne _ hm, Element.node?, if_neg hne,
        List.append_nil]
      rfl
  | fragment slot items => exact (List.append_nil _).symm

theorem slot_pushNotice {s : Scene} {e : Element} (he : s.Knows e) (y : Notice) (j : SlotId) :
    (s.pushNotice e y).slot j = s.slot j ++ if e.fragment?.map (·.slot) =
      some j then [y] else [] := by
  cases e with
  | node n => exact (List.append_nil _).symm
  | fragment slot items =>
    have hi : slot < s.slots.size := he.2 ⟨slot, items⟩ (by simp [Element.fragments])
    by_cases hj : j = slot
    · simp [pushNotice, slot_modify, hj, hi, Element.fragment?]
    · simp [pushNotice, slot_modify, hj, Ne.symm hj, Element.fragment?]

theorem waiting_pushNotice {s : Scene} {e : Element} (he : s.Knows e) (y x : Notice) :
    (s.pushNotice e y).waiting x = s.waiting x + [y].count x := by
  have hpending := pending_pushNotice he y
  have hslot := slot_pushNotice he y
  cases e with
  | node n =>
    have hchange := occurrences_change (f := fun m => (s.node m).pending)
      (g := fun m => ((s.pushNotice (.node n) y).node m).pending) (i := n)
      (fun m hm => by simp [hpending, Element.node?, Ne.symm hm])
      (.inl (he.1 n (by simp [Element.nodes]))) x
    have hsize : (s.pushNotice (.node n) y).tree.size = s.tree.size := by
      simp [pushNotice, modifyNode]
    have hl : (s.pushNotice (.node n) y).inSlots x = s.inSlots x := rfl
    simp only [hpending n, Element.node?, if_true, List.count_append] at hchange
    rw [waiting, waiting, hl, onNodes, onNodes, hsize]
    omega
  | fragment slot items =>
    have hchange :=
      occurrences_change (f := s.slot) (g := (s.pushNotice (.fragment slot items) y).slot)
        (i := slot)
      (fun j hj => by simp [hslot, Element.fragment?, Ne.symm hj])
      (.inl (he.2 ⟨slot, items⟩ (by simp [Element.fragments]))) x
    have hsize : (s.pushNotice (.fragment slot items) y).slots.size = s.slots.size :=
      Array.size_modify
    have hn : (s.pushNotice (.fragment slot items) y).onNodes x = s.onNodes x := rfl
    simp only [hslot slot, Element.fragment?, Option.map_some, if_true,
      List.count_append] at hchange
    rw [waiting, waiting, hn, inSlots, inSlots, hsize]
    omega

theorem waiting_pushNotices {e : Element} (notices : List Notice) {s : Scene} (he : s.Knows e)
    (x : Notice) : (notices.foldl (·.pushNotice e) s).waiting x = s.waiting x +
      notices.count x := by
  induction notices generalizing s with
  | nil => rfl
  | cons y rest ih =>
    have hone := waiting_pushNotice he y x
    have hrest := ih ((s.extends_pushNotice e y).knows he)
    have hcount : (y :: rest).count x = [y].count x + rest.count x := by
      simp [List.count_cons, Nat.add_comm]
    simp only [List.foldl_cons]
    omega

theorem waiting_announce {s : Scene} {result : Element} (hk : s.Knows result)
    (notices : List Notice) (x : Notice) : (s.announce result notices).waiting x =
      s.waiting x + (if result.isFragment then notices else []).count x := by
  unfold announce
  split
  · rename_i hempty
    simp [List.isEmpty_iff.1 hempty]
  · cases result with
    | node parent => exact (s.sameNotices_message _ _).waiting_eq x
    | fragment slot items => exact waiting_pushNotices notices (s := s.message _ _) hk x

theorem pending_setPending_nil (s : Scene) (n m : NodeId) :
    ((s.modifyNode n (.setPending [])).node m).pending = if m =
      n then [] else (s.node m).pending := by
  by_cases hm : m = n
  · subst hm
    rw [if_pos rfl]
    by_cases hn : m < s.tree.size
    · rw [node, modifyNode, s.tree.get_modify_self _ hn]
      rfl
    · exact pending_of_size_le _ m (by simpa [modifyNode] using hn)
  · rw [if_neg hm, node, modifyNode, s.tree.get_modify_of_ne _ hm]
    rfl

theorem slot_clear (s : Scene) (i j : SlotId) :
    { s with slots := s.slots.setIfInBounds i [] }.slot j = if j = i then [] else s.slot j := by
  by_cases hj : j = i
  · subst hj
    by_cases hi : j < s.slots.size <;> simp [slot, Array.getD_eq_getD_getElem?, hi]
  · simp [slot, Array.getD_eq_getD_getElem?, hj, Ne.symm hj]

theorem onNodes_setPending_nil (s : Scene) (n : NodeId) (x : Notice) :
    (s.modifyNode n (.setPending [])).onNodes x + (s.node n).pending.count x = s.onNodes x := by
  have hin : n < s.tree.size ∨
      ((s.modifyNode n (.setPending [])).node n).pending = (s.node n).pending := by
    refine (Nat.lt_or_ge n s.tree.size).imp_right fun hn => ?_
    rw [pending_setPending_nil, if_pos rfl, s.pending_of_size_le n hn]
  have hchange := occurrences_change (f := fun n => (s.node n).pending)
    (g := fun m => ((s.modifyNode n (.setPending [])).node m).pending)
    (fun m hm => by rw [pending_setPending_nil, if_neg hm]) hin x
  rw [pending_setPending_nil, if_pos rfl, List.count_nil] at hchange
  have hsize : (s.modifyNode n (.setPending [])).tree.size = s.tree.size := by simp [modifyNode]
  rw [onNodes, hsize]
  exact hchange

theorem inSlots_clear (s : Scene) (i : SlotId) (x : Notice) :
    { s with slots := s.slots.setIfInBounds i [] }.inSlots x + (s.slot i).count x =
      s.inSlots x := by
  have hin : i < s.slots.size ∨ { s with slots := s.slots.setIfInBounds i [] }.slot i =
      s.slot i := by
    refine (Nat.lt_or_ge i s.slots.size).imp_right fun hi => ?_
    rw [slot_clear, if_pos rfl, s.slot_of_size_le i hi]
  have hchange :=
    occurrences_change (f := s.slot) (g := { s with slots := s.slots.setIfInBounds i [] }.slot)
    (fun j hj => by rw [slot_clear, if_neg hj]) hin x
  rw [slot_clear, if_pos rfl, List.count_nil] at hchange
  rw [inSlots, Array.size_setIfInBounds]
  exact hchange

theorem waiting_takeFromNodes (nodes : List NodeId) (s : Scene) (x : Notice) :
    (s.takeFromNodes nodes).1.count x + (s.takeFromNodes nodes).2.waiting x = s.waiting x := by
  induction nodes generalizing s with
  | nil => exact Nat.zero_add _
  | cons n rest ih =>
    have hone := s.onNodes_setPending_nil n x
    have hslots : (s.modifyNode n (.setPending [])).inSlots x = s.inSlots x := rfl
    have hrest := ih (s.modifyNode n (.setPending []))
    simp only [takeFromNodes, List.count_append]
    unfold waiting at hrest ⊢
    omega

theorem waiting_takeFromSlots (slots : List SlotId) (s : Scene) (x : Notice) :
    (s.takeFromSlots slots).1.count x + (s.takeFromSlots slots).2.waiting x = s.waiting x := by
  induction slots generalizing s with
  | nil => exact Nat.zero_add _
  | cons i rest ih =>
    have hone := s.inSlots_clear i x
    have hnodes : { s with slots := s.slots.setIfInBounds i [] }.onNodes x = s.onNodes x := rfl
    have hrest := ih { s with slots := s.slots.setIfInBounds i [] }
    simp only [takeFromSlots, List.count_append]
    unfold waiting at hrest ⊢
    omega

theorem waiting_collect (s : Scene) (result : Element) (nodes : List NodeId) (slots : List SlotId)
    (x : Notice) : (s.collect result nodes slots).1.count x +
      (s.collect result nodes slots).2.waiting x = s.waiting x := by
  have hnodes := waiting_takeFromNodes (nodes.filter fun n => result.node? ≠ some n) s x
  have hslots :=
    waiting_takeFromSlots slots (s.takeFromNodes (nodes.filter fun n => result.node? ≠ some n)).2 x
  simp only [collect, List.count_append]
  omega

theorem offered_setNotice (s : Scene) (cur : SinkId) (f : Sink → Sink) (x : Notice) :
    (s.modifySink cur f).offered x + (s.sink cur).notice.toList.count x =
      s.offered x + ((s.modifySink cur f).sink cur).notice.toList.count x := by
  have hin : cur < s.sinks.size ∨
      ((s.modifySink cur f).sink cur).notice.toList = (s.sink cur).notice.toList := by
    refine (Nat.lt_or_ge cur s.sinks.size).imp_right fun hc => ?_
    rw [sink_modifySink, if_neg fun h => Nat.not_lt.2 hc h.2]
  have hchange := occurrences_change (f := fun id => (s.sink id).notice.toList)
    (g := fun id => ((s.modifySink cur f).sink id).notice.toList)
    (fun id hid => by simp only [sink_modifySink, hid, false_and, if_false]) hin x
  have hsize : (s.modifySink cur f).sinks.size = s.sinks.size := by simp [modifySink]
  rw [offered, hsize]
  exact hchange

theorem offered_offer_le (s : Scene) (cur : SinkId) (y x : Notice) :
    (s.modifySink cur fun k => { k with notice := some y }).offered x ≤ s.offered x +
      [y].count x := by
  have hset := s.offered_setNotice cur (fun k => { k with notice := some y }) x
  have hself := s.sink_modifySink cur cur fun k => { k with notice := some y }
  split at hself
  · rw [hself] at hset
    simp only [Option.toList_some] at hset
    omega
  · rw [hself] at hset
    omega

theorem counts_moveNotice {s : Scene} {result : Element} (hk : s.Knows result) (cur : SinkId)
    (x : Notice) : (s.moveNotice cur result).waiting x = s.waiting x +
      (s.sink cur).notice.toList.count x ∧
      (s.moveNotice cur result).offered x + (s.sink cur).notice.toList.count x = s.offered x := by
  unfold moveNotice
  cases hn : (s.sink cur).notice with
  | none => exact ⟨rfl, rfl⟩
  | some y =>
    let s' := s.modifySink cur fun k => { k with notice := none }
    have hpush : (s'.pushNotice result y).waiting x = s'.waiting x + [y].count x :=
      waiting_pushNotice (s := s') hk y x
    have hsame : s'.waiting x = s.waiting x := rfl
    have hoff : (s'.pushNotice result y).offered x = s'.offered x := by cases result <;> rfl
    have hset := s.offered_setNotice cur (fun k => { k with notice := none }) x
    have hself : (s'.sink cur).notice = none := by
      rw [sink_modifySink]
      split
      · rfl
      · rename_i hc
        have hnone := s.notice_of_size_le cur (by simpa using hc)
        simpa using hnone
    simp only [hn] at hset
    change _ = s.offered x + (s'.sink cur).notice.toList.count x at hset
    rw [hself] at hset
    simp only [Option.toList_none, List.count_nil] at hset
    change (s'.pushNotice result y).waiting x = _ ∧ (s'.pushNotice result y).offered x + _ = _
    refine ⟨by rw [hpush, hsame]; rfl, ?_⟩
    rw [hoff]
    exact hset

/-- When a component body has returned, its notice moves from the sink to the result. -/
theorem counts_settle {s : Scene} {result : Element} (hk : s.Knows result) (name : Option String)
    (request : Option RefRequest) (cur : SinkId) (x : Notice) :
    (s.settle name request cur result).2.waiting x = s.waiting x +
      (s.sink cur).notice.toList.count x ∧
      (s.settle name request cur result).2.offered x + (s.sink cur).notice.toList.count x =
        s.offered x ∧
      s.serials ≤ (s.settle name request cur result).2.serials := by
  have hbind := s.sameNotices_bindIfAsked request result
  have hmove := counts_moveNotice ((s.extends_bindIfAsked request result).knows hk) cur x
  have hattach :=
    ((s.bindIfAsked request result).moveNotice cur result).sameNotices_attachMethods name cur result
  have hserials : ((s.bindIfAsked request result).moveNotice cur result).serials =
      (s.bindIfAsked request result).serials := by
    unfold moveNotice
    split
    · cases result <;> rfl
    · rfl
  rw [hbind.notice cur, hbind.waiting_eq x, hbind.offered_eq x] at hmove
  unfold settle
  rw [hattach.waiting_eq x, hattach.offered_eq x]
  exact ⟨hmove.1, hmove.2, Nat.le_trans hbind.serials (hserials ▸ hattach.serials)⟩

end Scene

end UiTree
