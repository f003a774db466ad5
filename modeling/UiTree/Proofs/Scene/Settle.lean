import UiTree.Proofs.Dict
import UiTree.Proofs.Notices.Count
set_option autoImplicit false

/-!
The end of a component call, as a whole. When the body has returned, the ref is bound, the notice of
the sink goes to the result, and so do the methods if the result is a node. All else is as the body
left it.
-/

namespace UiTree

theorem Dict.eq_empty_of_isEmpty {α : Type} {d : Dict α} (h : d.isEmpty = true) : d = .empty := by
  obtain ⟨entries, distinct⟩ := d
  obtain rfl : entries = [] := List.isEmpty_iff.1 h
  rfl

namespace NodeData

def addMethods (methods : List (String × Closure)) (d : NodeData) : NodeData :=
  { d with methods := d.methods.setAll methods }

def addPending (notices : List Notice) (d : NodeData) : NodeData :=
  { d with pending := d.pending ++ notices }

def takeOver (sink : Sink) (d : NodeData) : NodeData :=
  (d.addPending sink.notice.toList).addMethods sink.methods.entries

end NodeData

namespace Scene

theorem modifySink_eq_self {s : Scene} {id : SinkId} {f : Sink → Sink}
    (h : f (s.sink id) = s.sink id) : s.modifySink id f = s := by
  have hsinks : s.sinks.modify id f = s.sinks := by
    refine Array.ext (by simp) fun i _ hi => ?_
    rw [Array.getElem_modify]
    split
    · rename_i hid
      subst hid
      simpa [sink, Array.getD_eq_getD_getElem?, hi] using h
    · rfl
  rw [modifySink, hsinks]

theorem modifySink_modifySink (s : Scene) (id : SinkId) (f g : Sink → Sink) :
    (s.modifySink id f).modifySink id g = s.modifySink id fun sink => g (f sink) := by
  have hsinks : (s.sinks.modify id f).modify id g = s.sinks.modify id fun sink => g (f sink) := by
    refine Array.ext (by simp) fun i _ _ => ?_
    simp only [Array.getElem_modify]
    split <;> rfl
  exact congrArg (fun sinks => { s with sinks }) hsinks

theorem sink_modifySink_of_empty (s : Scene) (cur : SinkId) {f : Sink → Sink}
    (hf : f .empty = .empty) (id : SinkId) :
    (s.modifySink cur f).sink id = if id = cur then f (s.sink cur) else s.sink id := by
  rw [sink_modifySink]
  by_cases hid : id = cur
  · subst hid
    by_cases hlt : id < s.sinks.size
    · simp [hlt]
    · have hnone : s.sink id = .empty := by simp [sink, Array.getD_eq_getD_getElem?, hlt]
      simp [hlt, hnone, hf]
  · simp [hid]

def addNotices (s : Scene) (e : Element) (notices : List Notice) : Scene :=
  match e with
  | .node n => s.modifyNode n (.addPending notices)
  | .fragment slot _ => { s with slots := s.slots.modify slot (· ++ notices) }

theorem addNotices_nil (s : Scene) (e : Element) : s.addNotices e [] = s := by
  cases e with
  | node n =>
    have hsame : s.tree.modify n (.addPending []) = s.tree :=
      Tree.modify_eq_self (by simp [NodeData.addPending])
    rw [addNotices, modifyNode, hsame]
  | fragment slot items =>
    have hsame : s.slots.modify slot (· ++ []) = s.slots := by
      refine Array.ext (by simp) fun i _ _ => ?_
      rw [Array.getElem_modify, List.append_nil, ite_self]
    rw [addNotices, hsame]

theorem moveNotice_eq (s : Scene) (cur : SinkId) (e : Element) :
    s.moveNotice cur e =
      (s.modifySink cur fun sink => { sink with notice := none }).addNotices e
        (s.sink cur).notice.toList := by
  unfold moveNotice
  cases hnotice : (s.sink cur).notice with
  | some y => cases e <;> rfl
  | none =>
    have hsink : s.modifySink cur (fun sink => { sink with notice := none }) = s :=
      modifySink_eq_self (by rw [← hnotice])
    rw [hsink, Option.toList_none, addNotices_nil]

theorem methods_moveNotice (s : Scene) (cur : SinkId) (e : Element) :
    ((s.moveNotice cur e).sink cur).methods = (s.sink cur).methods := by
  have hsinks :
      (s.moveNotice cur e).sinks =
      (s.modifySink cur fun sink => { sink with notice := none }).sinks := by
    rw [moveNotice_eq]
    cases e <;> rfl
  rw [sink, hsinks]
  change ((s.modifySink cur _).sink cur).methods = _
  rw [sink_modifySink_of_empty s cur rfl, if_pos rfl]

/-- Besides the journal, the loop that attaches methods writes one row of the tree. -/
theorem attachAll_eq (n : NodeId) (methods : List (String × Closure)) (s : Scene) :
    ∃ j, methods.foldl (attachMethod n) s = { s.modifyNode n (.addMethods methods)
      with journal := j } := by
  induction methods generalizing s with
  | nil =>
    have hsame : s.tree.modify n (.addMethods []) = s.tree := Tree.modify_eq_self rfl
    exact ⟨s.journal, by simp [modifyNode, hsame]⟩
  | cons m rest ih =>
    obtain ⟨j, hj⟩ := ih (s.attachMethod n m)
    refine ⟨j, hj.trans ?_⟩
    simp only [attachMethod, message, modifyNode, Tree.modify_modify]
    rfl

theorem attachMethods_node_eq (s : Scene) (name : Option String) (cur : SinkId) (p : NodeId) :
    ∃ j, (s.attachMethods name cur (.node p)).2 =
      { (s.modifySink cur fun sink => { sink with methods := .empty }).modifyNode p
          (.addMethods (s.sink cur).methods.entries) with journal := j } := by
  unfold attachMethods
  simp only
  split
  · rename_i hm
    have hempty := Dict.eq_empty_of_isEmpty hm
    have hsink : s.modifySink cur (fun sink => { sink with methods := .empty }) = s :=
      modifySink_eq_self (by rw [← hempty])
    have htree : s.tree.modify p (.addMethods []) = s.tree := Tree.modify_eq_self rfl
    refine ⟨s.journal, ?_⟩
    rw [hsink, hempty, modifyNode]
    change s = { s with tree := s.tree.modify p (.addMethods []) }
    rw [htree]
  · exact attachAll_eq p _ _

theorem attachMethods_fragment (s : Scene) (name : Option String) (cur : SinkId) (slot : SlotId)
    (items : List Element) : (s.attachMethods name cur (.fragment slot items)).2 = s := by
  unfold attachMethods
  simp only
  split <;> rfl

theorem fst_attachMethods (s : Scene) (name : Option String) (cur : SinkId) (result : Element) :
    (s.attachMethods name cur result).1 =
      if result.isFragment = true ∧ (s.sink cur).methods.isEmpty = false
        then .error (.methodsOnFragment name (s.sink cur).methods.keys) else .ok result := by
  unfold attachMethods
  simp only
  split
  · rename_i hm
    simp [hm]
  · rename_i hm
    cases result with
    | node n => simp [Element.isFragment, Element.fragment?]
    | fragment slot items => simp [Element.isFragment, Element.fragment?, hm]

theorem settle_node (s : Scene) (name : Option String) (request : Option RefRequest) (cur : SinkId)
    (p : NodeId) : ∃ journal, (s.settle name request cur (.node p)).2 =
      { (s.modifySink cur fun _ => .empty).modifyNode p (.takeOver (s.sink cur)) with
        refs := (s.bindIfAsked request (.node p)).refs
        journal } := by
  let t := s.bindIfAsked request (.node p)
  have hsink : t.sink cur = s.sink cur := by
    rw [sink, (s.sameOffers_bindIfAsked request (.node p)).1, sink]
  obtain ⟨journal, hattach⟩ := (t.moveNotice cur (.node p)).attachMethods_node_eq name cur p
  refine ⟨journal, ?_⟩
  have hmoved :
    (t.moveNotice cur (.node p)).modifySink cur (fun sink => { sink with methods := .empty }) =
      (t.modifySink cur fun _ => .empty).modifyNode p (.addPending (s.sink cur).notice.toList) := by
    have htwice := t.modifySink_modifySink cur (fun sink => { sink with notice := none })
      fun sink => { sink with methods := .empty }
    rw [moveNotice_eq, hsink]
    exact congrArg (·.modifyNode p (.addPending (s.sink cur).notice.toList)) htwice
  have htree : (s.tree.modify p (.addPending (s.sink cur).notice.toList)).modify p
      (.addMethods (s.sink cur).methods.entries) = s.tree.modify p (.takeOver (s.sink cur)) :=
    s.tree.modify_modify p _ _
  rw [settle, hattach, methods_moveNotice, hsink, hmoved]
  simp only [modifyNode, modifySink, t, tree_bindIfAsked, htree]
  cases request <;> rfl

theorem settle_fragment (s : Scene) (name : Option String) (request : Option RefRequest)
    (cur : SinkId) (slot : SlotId) (items : List Element) : ∃ journal,
      (s.settle name request cur (.fragment slot items)).2 =
        { s.modifySink cur fun sink => { sink with notice := none } with
        slots := s.slots.modify slot (· ++ (s.sink cur).notice.toList)
        refs := (s.bindIfAsked request (.fragment slot items)).refs
        journal } := by
  refine ⟨(s.bindIfAsked request (.fragment slot items)).journal, ?_⟩
  rw [settle, attachMethods_fragment, moveNotice_eq]
  cases request <;> rfl

/-- A component call has been settled whose body returned `result` in the scene `s`. -/
structure Settlement (s s' : Scene) (request : Option RefRequest) (cur : SinkId)
    (result : Element) : Prop where
  size : s'.tree.size = s.tree.size
  node : ∀ n, s'.node n =
    if result.node? = some n then (s.node n).takeOver (s.sink cur) else s.node n
  slots : s'.slots.size = s.slots.size
  slot : ∀ j, s'.slot j = s.slot j ++ if result.fragment?.map (·.slot) =
    some j then (s.sink cur).notice.toList else []
  sinks : s'.sinks.size = s.sinks.size
  -- The notice is gone from the sink. Methods that a fragment refused are still there.
  sink : ∀ id, s'.sink id =
    if id = cur then ⟨if result.isFragment then (s.sink cur).methods else .empty, none⟩
    else s.sink id
  refs : s'.refs = (s.bindIfAsked request result).refs
  flags : s'.flags = s.flags
  serials : s'.serials = s.serials

theorem settlement_settle {s : Scene} {result : Element} (hk : s.Knows result)
    (name : Option String) (request : Option RefRequest) (cur : SinkId) :
    Settlement s (s.settle name request cur result).2 request cur result := by
  cases result with
  | node p =>
    have hp : p < s.tree.size := hk.1 p (by simp [Element.nodes])
    obtain ⟨journal, heq⟩ := s.settle_node name request cur p
    rw [heq]
    exact {
      size := s.tree.size_modify p _
      node := fun n => by
        simp only [Element.node?, Option.some.injEq]
        by_cases hn : p = n
        · subst hn
          rw [if_pos rfl]
          exact s.tree.get_modify_self _ hp
        · rw [if_neg hn]
          exact s.tree.get_modify_of_ne _ (Ne.symm hn)
      slots := rfl
      slot := fun j => (List.append_nil _).symm
      sinks := Array.size_modify
      sink := s.sink_modifySink_of_empty cur rfl
      refs := rfl
      flags := rfl
      serials := rfl }
  | fragment slot items =>
    have hslot : slot < s.slots.size := hk.2 ⟨slot, items⟩ (by simp [Element.fragments])
    obtain ⟨journal, heq⟩ := s.settle_fragment name request cur slot items
    rw [heq]
    exact {
      size := rfl
      node := fun n => rfl
      slots := Array.size_modify
      slot := fun j => by
        refine (s.slot_modify slot j _).trans ?_
        by_cases hj : j = slot
        · simp [hj, hslot, Element.fragment?]
        · simp [hj, Ne.symm hj, Element.fragment?]
      sinks := Array.size_modify
      sink := s.sink_modifySink_of_empty cur (f := fun sink => { sink with notice := none }) rfl
      refs := rfl
      flags := rfl
      serials := rfl }

theorem refs_settle (s : Scene) (name : Option String) (request : Option RefRequest) (cur : SinkId)
    (result : Element) : (s.settle name request cur result).2.refs =
      (s.bindIfAsked request result).refs := by
  cases result with
  | node p =>
    obtain ⟨journal, heq⟩ := s.settle_node name request cur p
    rw [heq]
  | fragment slot items =>
    obtain ⟨journal, heq⟩ := s.settle_fragment name request cur slot items
    rw [heq]

theorem fst_settle (s : Scene) (name : Option String) (request : Option RefRequest) (cur : SinkId)
    (result : Element) : (s.settle name request cur result).1 =
      if result.isFragment = true ∧ (s.sink cur).methods.keys ≠ []
        then .error (.methodsOnFragment name (s.sink cur).methods.keys) else .ok result := by
  have hbind : (s.bindIfAsked request result).sink cur = s.sink cur := by
    rw [sink, (s.sameOffers_bindIfAsked request result).1, sink]
  rw [settle, fst_attachMethods, methods_moveNotice, hbind]
  simp only [Dict.isEmpty_eq_false_iff]

end Scene

end UiTree
