import UiTree.Proofs.Notices.Stay
import UiTree.Proofs.Scene.Growth
import UiTree.Proofs.Tree.AppendAll
set_option autoImplicit false

/-!
Building a host element succeeds whenever its ref is well formed and its children were made before:
the new node has no parent yet, so it lies under none of them. The children then have it for their
parent.
-/

namespace UiTree

namespace NodeData

def withEntry (events : EventSet) (d : NodeData) (entry : String × Value) : NodeData :=
  if entry.1 = Config.refKey then d
  else match events.eventForKey? entry.1 with
    | some event => d.listen event entry.2
    | none => d.setAttribute entry.1 entry.2.text

def furnished (events : EventSet) (tag : String) (config : Config) : NodeData :=
  config.entries.foldl (withEntry events) (ofKind (.element tag))

end NodeData

namespace Scene

/-- A scene with one more node, which has taken the given nodes for its children. -/
structure Hosts (s s' : Scene) (nodes : List NodeId) : Prop where
  size : s'.tree.size = s.tree.size + 1
  parent : ∀ n, s'.tree.parent n = if n ∈ nodes then some s.tree.size else s.tree.parent n
  pending : Tree.SamePending s.tree s'.tree
  slots : s'.slots = s.slots
  offers : SameOffers s s'

theorem applyEntry_eq (events : EventSet) (n : NodeId) (s : Scene) (entry : String × Value) :
    s.applyEntry events n entry = s.modifyNode n fun d => d.withEntry events entry := by
  unfold applyEntry
  split
  · rename_i hkey
    have hsame : (s.tree.get n).withEntry events entry = s.tree.get n := by
      simp [NodeData.withEntry, hkey]
    rw [modifyNode, Tree.modify_eq_self hsame]
  · rename_i hkey
    split
    · rename_i event hevent
      exact congrArg (s.modifyNode n) (funext fun d => by simp [NodeData.withEntry, hkey, hevent])
    · rename_i hevent
      exact congrArg (s.modifyNode n) (funext fun d => by simp [NodeData.withEntry, hkey, hevent])

theorem applyEntries_eq (events : EventSet) (n : NodeId) (entries : List (String × Value))
    (s : Scene) : entries.foldl (applyEntry events n) s = s.modifyNode n fun d =>
      entries.foldl (NodeData.withEntry events) d := by
  induction entries generalizing s with
  | nil =>
    have hsame : s.tree.modify n (fun d => d) = s.tree := Tree.modify_eq_self rfl
    exact congrArg (fun t => { s with tree := t }) hsame.symm
  | cons entry rest ih =>
    rw [List.foldl_cons, ih, applyEntry_eq]
    exact congrArg (fun t => { s with tree := t }) (s.tree.modify_modify n _ _)

theorem furnish_eq (s : Scene) (events : EventSet) (tag : String) (config : Config)
    (request : Option RefRequest) : s.furnish events tag config request =
      ((s.addNode (.element tag)).2.bindIfAsked request (.node s.tree.size)).modifyNode s.tree.size
        fun d => config.entries.foldl (NodeData.withEntry events) d :=
  applyEntries_eq events s.tree.size config.entries _

theorem furnish_rest (s : Scene) (events : EventSet) (tag : String) (config : Config)
    (request : Option RefRequest) :
    let f := s.furnish events tag config request
    f.refs = (s.bindIfAsked request (.node s.tree.size)).refs ∧ f.slots = s.slots ∧
      f.sinks = s.sinks ∧ f.flags = s.flags ∧ f.serials = s.serials := by
  rw [furnish_eq]
  cases request <;> exact ⟨rfl, rfl, rfl, rfl, rfl⟩

/-- The new node is an element without a parent, so all other nodes can be appended to it. -/
theorem furnish_root (s : Scene) (events : EventSet) (tag : String) (config : Config)
    (request : Option RefRequest) :
    let f := s.furnish events tag config request
    (f.tree.get s.tree.size).isText = false ∧ f.tree.parent s.tree.size = none ∧
      f.tree.size = s.tree.size + 1 ∧ ∀ nodes : List NodeId, (∀ n ∈ nodes, n < s.tree.size) →
      f.tree.Free s.tree.size nodes := by
  have hlinks := s.sameLinks_furnish events tag config request
  have hsize : (s.furnish events tag config request).tree.size = s.tree.size + 1 := by
    rw [hlinks.size, size_addNode]
  have hroot : (s.furnish events tag config request).tree.parent s.tree.size = none := by
    rw [hlinks.parent]
    change (s.tree.add (.element tag)).2.parent s.tree.size = none
    rw [Tree.parent_add, Tree.parent_of_size_le (Nat.le_refl _)]
  refine ⟨?_, hroot, hsize, fun nodes hn n hm =>
    ⟨Tree.contains_of_root hroot (Nat.ne_of_lt (hn n hm)), hsize ▸ Nat.lt_succ_of_lt (hn n hm)⟩⟩
  rw [hlinks.isText]
  change ((s.tree.add (.element tag)).2.get s.tree.size).isText = false
  rw [Tree.get_add, if_pos rfl]
  rfl

theorem build_of_lt {s : Scene} (events : EventSet) (tag : String) {config : Config}
    {request : Option RefRequest} (hr : config.refRequest = .ok request) {nodes : List NodeId}
    (hn : ∀ n ∈ nodes, n < s.tree.size) :
    ∃ s', s.build events tag config nodes = (.ok s.tree.size, s') ∧ Hosts s s' nodes := by
  let f := s.furnish events tag config request
  have hlinks : Tree.SameLinks (s.tree.add (.element tag)).2 f.tree :=
    s.sameLinks_furnish events tag config request
  have hparent : ∀ n, f.tree.parent n = s.tree.parent n :=
    fun n => by rw [hlinks.parent, Tree.parent_add]
  obtain ⟨hkind, -, hsize, hnodes⟩ := s.furnish_root events tag config request
  have hall := Tree.appendAll_of_free nodes hkind (hnodes nodes hn)
  have hnotices :=
    (s.sameNotices_furnish events tag config request).trans
      (f.sameNotices_appendAll s.tree.size nodes)
  have hbuild : s.build events tag config nodes = (.ok s.tree.size,
      (f.appendAll s.tree.size nodes).2) := by
    rw [build_eq, hr]
    have hok : (f.appendAll s.tree.size nodes).1 = .ok () := hall.1
    simp only
    change ((f.appendAll s.tree.size nodes).1.map fun _ => s.tree.size,
      (f.appendAll s.tree.size nodes).2) = _
    rw [hok]
    rfl
  refine ⟨(f.appendAll s.tree.size nodes).2, hbuild, ?_, ?_, hnotices.pending, ?_, ?_⟩
  · rw [tree_appendAll, Tree.size_appendAll, hsize]
  · intro n
    rw [tree_appendAll, hall.2, hparent]
  · exact (s.furnish_rest events tag config request).2.1
  · exact s.sameOffers_furnish events tag config request

end Scene

end UiTree
