import UiTree.Proofs.Dict.History
import UiTree.Scene
import UiTree.Tree
set_option autoImplicit false

/-!
Configs and attributes keep the order of insertion. Whatever is called on a config comes to one
write, and so does whatever is done to an attribute of a node, so both are what their histories say.
A history of attributes has in it only what was addressed to that node; what happens to other nodes
in between makes no difference.
-/

namespace UiTree

namespace Config

/-- What can be called on a config that is there, by itself or in a chain. -/
inductive Call where
  | set (key : String) (value : Value)
  | on (event : String) (handler : Closure)
  | withRef (request : RefRequest)
  | remove (key : String)

namespace Call

def run (c : Config) : Call → Config
  | set key value => Dict.set c key value
  | on event handler => c.on event handler
  | withRef request => c.withRef request
  | remove key => (Dict.remove c key).2

def write : Call → Write Value
  | set key value => .set key value
  | on event handler => .set (EventSet.keyForEvent event) (.handler handler)
  | withRef request => .set refKey (.ref request)
  | remove key => .remove key

theorem run_eq (c : Config) (call : Call) : call.run c = call.write.run c := by cases call <;> rfl

end Call

def made (pairs : List (String × Value)) (calls : List Call) : Config :=
  calls.foldl Call.run (.ofList pairs)

theorem records_made (pairs : List (String × Value)) (calls : List Call) :
    (made pairs calls).Records (pairs.map .ofEntry ++ calls.map Call.write) := by
  have hrun : Call.run = fun c call => call.write.run c := funext fun c => funext (Call.run_eq c)
  have hall := (Dict.records_ofList pairs).runAll (calls.map Call.write)
  rw [List.foldl_map, ← hrun] at hall
  exact hall

end Config

namespace Scene

def writeAttribute (s : Scene) (n : NodeId) : Write String → Scene
  | .set name value => s.modifyNode n (.setAttribute name value)
  | .remove name => (s.removeAttribute n name).2

def writeAttributes (s : Scene) (writes : List (NodeId × Write String)) : Scene :=
  writes.foldl (fun s w => s.writeAttribute w.1 w.2) s

def writesTo (n : NodeId) (writes : List (NodeId × Write String)) : List (Write String) :=
  (writes.filter (·.1 = n)).map (·.2)

theorem writeAttribute_eq (s : Scene) (n : NodeId) (w : Write String) :
    s.writeAttribute n w = s.modifyNode n fun d => { d with attributes := w.run d.attributes } := by
  cases w <;> rfl

theorem size_writeAttribute (s : Scene) (n : NodeId) (w : Write String) :
    (s.writeAttribute n w).tree.size = s.tree.size := by
  rw [writeAttribute_eq]
  exact s.tree.size_modify n _

theorem attributes_writeAttribute {s : Scene} {n : NodeId} (hn : n < s.tree.size) (m : NodeId)
    (w : Write String) : ((s.writeAttribute m w).node n).attributes =
      if m = n then w.run (s.node n).attributes else (s.node n).attributes := by
  rw [writeAttribute_eq]
  by_cases hm : m = n
  · subst hm
    rw [if_pos rfl]
    exact congrArg NodeData.attributes (s.tree.get_modify_self _ hn)
  · rw [if_neg hm]
    exact congrArg NodeData.attributes (s.tree.get_modify_of_ne _ (Ne.symm hm))

theorem attributes_writeAttributes {s : Scene} {n : NodeId} (hn : n < s.tree.size)
    (writes : List (NodeId × Write String)) :
    ((s.writeAttributes writes).node n).attributes =
      (writesTo n writes).foldl Write.run (s.node n).attributes := by
  induction writes generalizing s with
  | nil => rfl
  | cons w rest ih =>
    have hrest := ih (s := s.writeAttribute w.1 w.2) (by rwa [size_writeAttribute])
    rw [attributes_writeAttribute hn] at hrest
    change ((writeAttributes (s.writeAttribute w.1 w.2) rest).node n).attributes = _
    rw [hrest]
    by_cases hw : w.1 = n <;> simp [writesTo, hw]

theorem records_writeAttributes {s : Scene} {n : NodeId} (hn : n < s.tree.size)
    (writes : List (NodeId × Write String)) :
    ((s.writeAttributes writes).node n).attributes.Records
      ((s.node n).attributes.entries.map .ofEntry ++ writesTo n writes) := by
  rw [attributes_writeAttributes hn]
  exact (s.node n).attributes.records_entries.runAll (writesTo n writes)

end Scene

/-- Of every config that is made of any pairs and then called in any way, and of the attributes of
any node after any writes to it and to others, where what the node had before counts as set in its
order: each key stands once, with the value that a finite map has after the same writes; a removal
answers that value; and the keys stand in the order of their births, so that only a removal makes a
key lose its place. -/
theorem insertion_order_kept :
    (∀ (pairs : List (String × Value)) (calls : List Config.Call),
      let config := Config.made pairs calls
      let history := pairs.map Write.ofEntry ++ calls.map Config.Call.write
      config.Records history ∧ ∀ key, (config.remove key).1 = (Write.mapOf history).lookup key) ∧
    ∀ (s : Scene) (n : NodeId) (writes : List (NodeId × Write String)), n < s.tree.size →
      let after := s.writeAttributes writes
      let history := (s.node n).attributes.entries.map Write.ofEntry ++ Scene.writesTo n writes
      (after.node n).attributes.Records history ∧
        ∀ name, (after.removeAttribute n name).1 = (Write.mapOf history).lookup name := by
  refine ⟨fun pairs calls => ?_, fun s n writes hn => ?_⟩
  · have hrecords := Config.records_made pairs calls
    exact ⟨hrecords, hrecords.get?_eq⟩
  · have hrecords := Scene.records_writeAttributes hn writes
    exact ⟨hrecords, hrecords.get?_eq⟩

def labelled : Scene :=
  (((Scene.empty .off).addNode (.element "p")).2.addNode (.element "b")).2.modifyNode 0
    (.setAttribute "id" "x")

def relabelling : List (NodeId × Write String) :=
  [(0, .set "class" "a"), (1, .set "class" "z"), (0, .set "id" "y"), (0, .remove "id"),
    (0, .set "class" "b"), (0, .set "id" "w")]

/-- The id was removed and set again, which puts it behind the class, whose value was changed where
it stood. The class of the other node has nothing to do with it. -/
theorem insertion_order_kept_of_relabelled :
    let after := labelled.writeAttributes relabelling
    0 < labelled.tree.size ∧ (after.node 0).attributes.entries = [("class", "b"), ("id", "w")] ∧
      (after.node 0).attributes.Records
        [.set "id" "x", .set "class" "a", .set "id" "y", .remove "id", .set "class" "b",
        .set "id" "w"] ∧
      (after.removeAttribute 0 "id").1 = some "w" := by
  obtain ⟨hrecords, hremoved⟩ := insertion_order_kept.2 labelled 0 relabelling (by decide)
  exact ⟨by decide, rfl, hrecords, (hremoved "id").trans rfl⟩

end UiTree
