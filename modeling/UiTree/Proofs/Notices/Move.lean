import UiTree.Proofs.Notices.Collect
import UiTree.Proofs.Scene.Settle
set_option autoImplicit false

/-!
Where notices go after a component body. If the body offered no methods, its call is settled by
moving its notice, if it has one, to the result; what is then collected for a fragment is put into
the slot of the fragment.
-/

namespace UiTree.Scene

theorem sink_enter (s : Scene) (c : Component) (nodes : List NodeId) :
    (s.enter c nodes).sink s.sinks.size = .empty := by
  simp [enter, announceCall, message, addSink, addRefs, sink, Array.getD_eq_getD_getElem?]

theorem sink_enter_of_lt (s : Scene) (c : Component) (nodes : List NodeId) {id : SinkId}
    (h : id < s.sinks.size) : (s.enter c nodes).sink id = s.sink id := by
  simp [enter, announceCall, message, addSink, addRefs, sink, Array.getD_eq_getD_getElem?,
    Array.getElem?_push, Nat.ne_of_lt h]

theorem pending_settle {s : Scene} {result : Element} (hk : s.Knows result) (name : Option String)
    (request : Option RefRequest) (cur : SinkId) (n : NodeId) :
    ((s.settle name request cur result).2.node n).pending =
      (s.node n).pending ++ if result.node? = some n then (s.sink cur).notice.toList else [] := by
  rw [(settlement_settle hk name request cur).node n]
  by_cases hn : result.node? = some n
  · simp only [hn, if_true]
    rfl
  · simp only [hn, if_false, List.append_nil]

/-- A component call that offered no methods, once its body has returned `e` in the scene `s`. -/
structure Settled (s s' : Scene) (cur : SinkId) (e : Element) : Prop where
  links : Tree.SameLinks s.tree s'.tree
  slots : s'.slots.size = s.slots.size
  sinks : s'.sinks.size = s.sinks.size
  serials : s'.serials = s.serials
  sink_other : ∀ id, id ≠ cur → s'.sink id = s.sink id
  pending : ∀ m, (s'.node m).pending =
    (s.node m).pending ++ if e.node? = some m then (s.sink cur).notice.toList else []
  slot : ∀ j, s'.slot j = s.slot j ++ if e.fragment?.map (·.slot) =
    some j then (s.sink cur).notice.toList else []

theorem settled_of_no_methods {s : Scene} {cur : SinkId} (hm : (s.sink cur).methods = .empty)
    (name : Option String) (request : Option RefRequest) {e : Element} (he : s.Knows e) :
    ∃ s', s.settle name request cur e = (.ok e, s') ∧ Settled s s' cur e := by
  have hok : (s.settle name request cur e).1 = .ok e := by
    rw [fst_settle, hm]
    exact if_neg fun h => h.2 rfl
  have hsettled := settlement_settle he name request cur
  refine ⟨(s.settle name request cur e).2, Prod.ext hok rfl, ?_⟩
  exact {
    links := s.sameLinks_settle name request cur e
    slots := hsettled.slots
    sinks := hsettled.sinks
    serials := hsettled.serials
    sink_other := fun id hid => by rw [hsettled.sink, if_neg hid]
    pending := pending_settle he name request cur
    slot := hsettled.slot }

theorem slot_pushNotices {e : Element} (notices : List Notice) {s : Scene} (he : s.Knows e)
    (j : SlotId) : (notices.foldl (·.pushNotice e) s).slot j =
      s.slot j ++ if e.fragment?.map (·.slot) = some j then notices else [] := by
  induction notices generalizing s with
  | nil => simp
  | cons y rest ih =>
    rw [List.foldl_cons, ih ((s.extends_pushNotice e y).knows he), slot_pushNotice he]
    by_cases hj : e.fragment?.map (·.slot) = some j <;> simp [hj]

theorem slot_announce_fragment {s : Scene} {slot : SlotId} {items : List Element}
    (he : s.Knows (.fragment slot items)) (notices : List Notice) (j : SlotId) :
    (s.announce (.fragment slot items) notices).slot j =
      s.slot j ++ if j = slot then notices else [] := by
  unfold announce
  split
  · rename_i hempty
    simp [List.isEmpty_iff.1 hempty]
  · simp only
    rw [slot_pushNotices notices (s := s.message _ _) he]
    simp only [Element.fragment?, Option.map_some, Option.some.injEq]
    by_cases hj : j = slot
    · simp [hj]
      rfl
    · simp [hj, Ne.symm hj]
      rfl

theorem announce_fragment_tree (s : Scene) (slot : SlotId) (items : List Element)
    (notices : List Notice) : (s.announce (.fragment slot items) notices).tree = s.tree ∧
      (s.announce (.fragment slot items) notices).slots.size = s.slots.size := by
  have hpush : ∀ (notices : List Notice) (s : Scene),
      (notices.foldl (·.pushNotice (.fragment slot items)) s).tree = s.tree ∧
        (notices.foldl (·.pushNotice (.fragment slot items)) s).slots.size = s.slots.size := by
    intro notices
    induction notices with
    | nil => exact fun s => ⟨rfl, rfl⟩
    | cons y rest ih =>
      intro s
      obtain ⟨htree, hsize⟩ := ih (s.pushNotice (.fragment slot items) y)
      exact ⟨htree, hsize.trans Array.size_modify⟩
  unfold announce
  split
  · exact ⟨rfl, rfl⟩
  · exact hpush notices (s.message _ _)

theorem tree_announce (s : Scene) (result : Element) (notices : List Notice) :
    (s.announce result notices).tree = s.tree := by
  cases result with
  | node p => cases notices <;> rfl
  | fragment slot items => exact (s.announce_fragment_tree slot items notices).1

/-- The scene after the notices of the children were collected and put into the slot of the
result. -/
structure Deferred (s s' : Scene) (slot : SlotId) (nodes : List NodeId) (slots : List SlotId)
    (notices : List Notice) : Prop where
  links : Tree.SameLinks s.tree s'.tree
  slots_size : s'.slots.size = s.slots.size
  offers : SameOffers s s'
  pending : ∀ m, (s'.node m).pending = if m ∈ nodes then [] else (s.node m).pending
  slot : ∀ j, s'.slot j = (if j ∈ slots then [] else s.slot j) ++ if j = slot then notices else []

theorem deferred_announce {s : Scene} {slot : SlotId} {items : List Element}
    (he : s.Knows (.fragment slot items)) (nodes : List NodeId) (slots : List SlotId)
    (notices : List Notice) :
    Deferred s
      ((s.collect (.fragment slot items) nodes slots).2.announce (.fragment slot items) notices)
      slot nodes slots notices := by
  let t := (s.collect (.fragment slot items) nodes slots).2
  obtain ⟨htree, hsize⟩ := t.announce_fragment_tree slot items notices
  have hoffers := (s.sameOffers_collect (.fragment slot items) nodes slots).trans
    (t.sameOffers_announce (.fragment slot items) notices)
  have hknown : t.Knows (.fragment slot items) := (s.extends_collect _ nodes slots).knows he
  refine ⟨?_, hsize.trans (s.size_slots_collect _ nodes slots), hoffers, fun m => ?_, fun j => ?_⟩
  · rw [htree]
    exact s.sameLinks_collect _ nodes slots
  · rw [node, htree]
    change (t.node m).pending = _
    rw [pending_collect]
    simp [Element.node?]
  · rw [slot_announce_fragment hknown, slot_collect]

end UiTree.Scene
