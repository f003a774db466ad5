import UiTree.Proofs.Lookup
import UiTree.Proofs.Script.Eval
set_option autoImplicit false

/-!
Operations are safe: what they do is a course of steps, whatever they are given. Where one of them
hands over a node that it has found, the node is in the tree, since the tree is well formed.
-/

namespace UiTree.Script

open Relation
open Run
open Course (Act)

variable {c : Context} {w : World Memory}

theorem sound_evalNode (e : Expr) : Sound (evalNode e) c w fun s n => n < s.tree.size :=
  (sound_evalExpr e).bind fun _ _ _ hv => sound_need fun _ hn => hv.node hn

theorem safe_evalMethod (e : Expr) : Safe (evalMethod e) c w :=
  (sound_evalExpr e).bind fun _ _ _ _ => sound_need fun _ _ => trivial

theorem safe_evalHandler (e : Expr) : Safe (evalHandler e) c w :=
  (sound_evalExpr e).bind fun _ _ _ _ => sound_need fun _ _ => trivial

theorem safe_actOnValue (op : ValueOp) : Safe (actOnValue op) c w := by
  cases op with
  | assign value dest => exact (sound_evalExpr value).bind fun v w₁ _ hv => safe_store dest hv
  | drop name =>
    refine .need fun name _ => ?_
    exact (sound_modifyMemory fun h =>
      ⟨h.globals.erase name, h.frames, h.configs, h.events⟩).safe.andThen fun _ _ _ => .pure trivial
  | add name amount =>
    refine .need fun name _ => (sound_lookup? name).safe.andThen fun old w₁ _ => ?_
    refine .need fun old _ => .need fun old _ => (sound_evalExpr amount).safe.andThen
      fun v w₂ _ => ?_
    refine .need fun more _ => (safe_assign name (Scene.has_of_elements_nil rfl)).andThen
      fun _ _ _ => ?_
    exact .pure trivial
  | inspect value => exact (sound_evalExpr value).safe.andThen fun _ _ _ => .pure trivial
  | describe value =>
    exact (sound_evalExpr value).safe.andThen fun _ _ _ => .scene (.pure trivial)
  | describeElement shape =>
    exact (sound_evalShape shape).safe.andThen fun _ _ _ => .scene (.pure trivial)
  | sameCallable a b =>
    refine (sound_evalExpr a).safe.andThen fun _ w₁ _ => (sound_evalExpr b).safe.andThen
      fun _ w₂ _ => ?_
    exact .need fun _ _ => .pure trivial
  | call method args dest =>
    refine (safe_evalMethod method).andThen fun m w₁ _ => ?_
    refine (sound_evalExprs args).bind fun vs w₂ _ hvs => ?_
    exact (sound_callMethod m hvs).bind fun v w₃ _ hv => safe_store dest hv

theorem safe_actOnElement (op : ElementOp) : Safe (actOnElement op) c w := by
  cases op with
  | newElement tag dest | newText text dest =>
    refine .need fun _ _ => (sound_addNode _).bind fun n w₁ _ hn => ?_
    exact safe_store dest (Scene.has_node_iff.2 hn)
  | make shape dest =>
    exact (sound_evalShape shape).bind fun e w₁ _ he => safe_store dest (Scene.has_element_iff.2 he)
  | push name item =>
    refine .need fun name _ => (sound_lookup? name).bind fun o w₁ _ ho => .need fun v hv => ?_
    have hold := ho v hv
    split
    · rename_i slot items
      obtain ⟨hslot, hitems⟩ := Scene.knows_fragment_iff.1 (Scene.has_element_iff.1 hold)
      refine (sound_evalShape item).bind fun e w₂ hx he => ?_
      have hpushed : w₂.scene.Knows (.fragment slot (items ++ [e])) := by
        refine Scene.knows_fragment_iff.2 ⟨Nat.lt_of_lt_of_le hslot hx.slots, fun e' he' => ?_⟩
        rcases List.mem_append.1 he' with he' | he'
        · exact hx.knows (hitems e' he')
        · rwa [List.mem_singleton.1 he']
      exact (safe_assign name (Scene.has_element_iff.2 hpushed)).andThen fun _ _ _ => .pure trivial
    · exact .throw _
  | info shape => exact (sound_evalShape shape).safe.andThen fun _ _ _ => .scene (.pure trivial)
  | same a b =>
    refine (sound_evalShape a).safe.andThen fun _ w₁ _ => ?_
    exact (sound_evalShape b).safe.andThen fun _ _ _ => .pure trivial
  | flatten items => exact (sound_evalChildren items).safe.andThen fun _ _ _ => .pure trivial
  | fragments items =>
    exact (sound_evalChildren items).safe.andThen fun _ _ _ => .scene (.pure trivial)
  | classify nodes => exact (sound_evalNodes nodes).safe.andThen fun _ _ _ => .scene (.pure trivial)

theorem sound_evalPairs (pairs : List (Name × Expr)) :
    Sound (evalPairs pairs) c w fun s ps => ∀ p ∈ ps, s.Has p.2 := by
  induction pairs generalizing w with
  | nil => exact .pure fun p hp => by cases hp
  | cons pair rest ih =>
    refine .need fun key _ => (sound_evalExpr pair.2).bind fun v w₁ _ hv => ?_
    refine ih.bind fun ps w₂ hx hps => .pure ?_
    exact List.forall_mem_cons.2 ⟨hx.has hv, hps⟩

theorem safe_savingConfig (name : String) {config : Config} (h : w.scene.HasAll config) :
    Safe (savingConfig name config) c w :=
  (safe_saveConfig name h).andThen fun _ _ _ => .scene (.pure trivial)

theorem safe_actOnConfig (op : ConfigOp) : Safe (actOnConfig op) c w := by
  cases op with
  | save config dest =>
    refine (sound_evalConfig config).bind fun config w₁ _ h => ?_
    exact .need fun dest _ => safe_savingConfig dest h
  | saveList pairs dest =>
    refine (sound_evalPairs pairs).bind fun ps w₁ _ h => ?_
    exact .need fun dest _ => safe_savingConfig dest (.ofList h)
  | set config key value =>
    refine .need fun name _ => (sound_configNamed name).bind fun config w₁ _ h => ?_
    refine .need fun key _ => (sound_evalExpr value).bind fun v w₂ hx hv => ?_
    exact safe_savingConfig name ((hx.hasAll h).set key hv)
  | remove config key =>
    refine .need fun name _ => (sound_configNamed name).bind fun config w₁ _ h => ?_
    refine .need fun key _ => (safe_saveConfig name (h.erase key)).andThen fun _ _ _ => ?_
    exact .scene (.pure trivial)
  | get config key =>
    refine .need fun name _ => (sound_configNamed name).safe.andThen fun _ _ _ => ?_
    exact .need fun key _ => .scene (.pure trivial)
  | info config =>
    refine .need fun name _ => (sound_configNamed name).safe.andThen fun _ _ _ => ?_
    exact .scene (.pure trivial)
  | ref config =>
    refine .need fun name _ => (sound_configNamed name).safe.andThen fun _ _ _ => ?_
    split
    · exact .scene (.pure trivial)
    · exact .throw _

theorem safe_actOnRefs (op : RefsOp) : Safe (actOnRefs op) c w := by
  cases op with
  | get refs key dest =>
    refine .need fun refs _ => (safe_refsNamed refs).andThen fun id w₁ _ => ?_
    refine .need fun key _ => .scene (.ready fun hr => ?_)
    split
    · rename_i e he
      exact safe_store dest (Scene.has_element_iff.2 (hr.inOrder.refs id key e he))
    · exact safe_store dest (Scene.has_of_elements_nil rfl)
  | node refs key dest =>
    refine .need fun refs _ => (safe_refsNamed refs).andThen fun id w₁ _ => ?_
    refine .need fun key _ => .scene (.ready fun hr => safe_storeNode dest fun n hn => ?_)
    obtain ⟨e, he, hnode⟩ := Option.bind_eq_some_iff.1 hn
    have hknown := hr.inOrder.refs id key e he
    cases e <;> cases hnode
    exact Scene.knows_node_iff.1 hknown
  | info refs asked =>
    refine .need fun refs _ => (safe_refsNamed refs).andThen fun id w₁ _ => ?_
    exact .scene (.pure trivial)
  | same a b =>
    refine .need fun a _ => (safe_refsNamed a).andThen fun _ w₁ _ => ?_
    exact .need fun b _ => (safe_refsNamed b).andThen fun _ _ _ => .pure trivial

theorem safe_actOnSink (op : SinkOp) : Safe (actOnSink op) c w := by
  cases op with
  | offer sink name method =>
    refine (safe_sinkNamed sink).andThen fun id w₁ _ => .need fun name _ => ?_
    refine (safe_evalMethod method).andThen fun m w₂ _ => ?_
    have hlog : noted.logOf ⟨w₂.scene.offerMethod id name m, w₂.program⟩ = noted.logOf w₂ := by
      unfold Scene.offerMethod
      split <;> rfl
    refine (safe_modifyScene (.single (.offerMethod _ _ _ _)) hlog).andThen fun _ _ _ => ?_
    exact .pure trivial
  | gotParent sink callback =>
    refine (safe_sinkNamed sink).andThen fun id w₁ _ => .need fun callback _ => ?_
    refine (safe_closure callback).andThen fun m w₂ _ => ?_
    exact (safe_modifyScene (.single (.offerNotice _ _ _)) rfl).andThen fun _ _ _ => .pure trivial
  | info sink asked => exact (safe_sinkNamed sink).andThen fun id w₁ _ => .scene (.pure trivial)

theorem safe_actOnComponent (op : ComponentOp) : Safe (actOnComponent op) c w := by
  cases op with
  | prop key =>
    exact .need fun key _ => sound_frame.safe.andThen fun _ _ _ => .scene (.pure trivial)
  | info component => exact .need fun key _ => .read (.pure trivial)

theorem safe_dispatchOn (event : String) {n : NodeId} (hn : n < w.scene.tree.size) (dest : Dest) :
    Safe (dispatchOn event n dest) c w := by
  have hdispatch : Sound (modifyGet (dispatch c.behaviours event n)) c w EventKnown := by
    refine sound_modifyGet fun hr => ?_
    obtain ⟨hlead, horder⟩ := hr.serves.follows.dispatch event hr.inOrder hr.inOrder.links hn
    have hsize := Nat.lt_of_lt_of_le hn hlead.grows.nodes
    exact ⟨hlead, horder, hsize, hsize⟩
  refine .read (hdispatch.bind fun e w₁ _ he => ?_)
  cases dest with
  | none => exact .scene (.pure trivial)
  | some name => exact (safe_saveEvent name he).andThen fun _ _ _ => .scene (.pure trivial)

theorem safe_callMethodOn (n : NodeId) (name : String) (args : List Expr) (dest : Dest) :
    Safe (callMethodOn n name args dest) c w := by
  refine (sound_evalExprs args).bind fun vs w₁ _ hvs => .scene ?_
  split
  · refine (sound_callMethod _ hvs).bind fun v w₂ _ hv => ?_
    exact (safe_store dest hv).andThen fun _ _ _ => .pure trivial
  · exact .pure trivial

theorem safe_doing {f : Scene → Scene} (h : Act w.scene (f w.scene))
    (hlog : noted.logOf ⟨f w.scene, w.program⟩ = noted.logOf w) :
    Safe (do modifyScene f; return Report.null) c w :=
  (safe_modifyScene (.single h) hlog).andThen fun _ _ _ => .pure trivial

theorem safe_actOnNode {n : NodeId} (hn : n < w.scene.tree.size) (op : NodeOp) :
    Safe (actOnNode n op) c w := by
  cases op with
  | kind | tag | isText | attrs | totalListeners | methodNames | hasGotParent | childCount
  | textContent | html | dump => exact .scene (.pure trivial)
  | setAttr name value | listen event value =>
    refine .need fun _ _ => (sound_evalExpr value).safe.andThen fun v w₁ _ => ?_
    exact safe_doing (by constructor) rfl
  | attr name | hasAttr name | listenerCount event => exact .need fun _ _ => .scene (.pure trivial)
  | removeAttr name =>
    refine .need fun name _ => ?_
    have hremove : Safe (making (·.removeAttribute n name)) c w :=
      sound_making (.single (.removeAttribute _ _ _)) rfl trivial
    exact hremove.andThen fun _ _ _ => .pure trivial
  | dispatch event dest => exact .need fun event _ => safe_dispatchOn event hn dest
  | setMethod name method =>
    refine .need fun name _ => (safe_evalMethod method).andThen fun m w₁ _ => ?_
    exact safe_doing (.setMethod _ _ _ _) rfl
  | getMethod name dest =>
    refine .need fun name _ => .scene ?_
    split <;> exact safe_store dest (Scene.has_of_elements_nil rfl)
  | callMethod name args dest => exact .need fun name _ => safe_callMethodOn n name args dest
  | parent dest =>
    exact .scene (.ready fun hr => safe_storeNode dest
      fun p hp => hr.inOrder.links.parent_lt_size hp)
  | children dest =>
    refine .scene (.ready fun hr => safe_store dest (Scene.has_list_iff.2 fun v hv => ?_))
    obtain ⟨m, hm, rfl⟩ := List.mem_map.1 hv
    exact Scene.has_node_iff.2 (hr.inOrder.links.child_lt_size hm)
  | contains other => exact (sound_evalNode other).safe.andThen fun _ _ _ => .scene (.pure trivial)
  | nodeEq other => exact (sound_evalNode other).safe.andThen fun _ _ _ => .pure trivial
  | append child =>
    refine (sound_evalNode child).bind fun m w₁ _ hm => ?_
    have happend : Safe (onScene (·.append n m)) c w₁ :=
      sound_onScene (.single (.append _ _ hm)) (noted.logOf_congr (Scene.notes_append _ _ _))
        fun _ _ => trivial
    exact happend.andThen fun _ _ _ => .pure trivial
  | remove => exact safe_doing (.detach _ _) rfl
  | setTextContent text =>
    refine (sound_evalExpr text).safe.andThen fun v w₁ _ => ?_
    exact safe_doing (.setTextContent _ _ _) rfl
  | findById id dest =>
    refine .need fun id _ => .scene (safe_storeNode dest fun m hm => ?_)
    exact Tree.lt_size_of_findById hm

theorem safe_actOnEvent (op : EventOp) : Safe (actOnEvent op) c w := by
  cases op with
  | make kind node dest =>
    refine .need fun kind _ => (sound_evalNode node).bind fun n w₁ _ hn => ?_
    have hevent : Sound (making (·.event kind n)) c w₁ EventKnown :=
      sound_making (.single (.makeFlag _)) rfl ⟨hn, hn⟩
    refine hevent.bind fun e w₂ _ he => .need fun dest _ => ?_
    exact (safe_saveEvent dest he).andThen fun _ _ _ => .scene (.pure trivial)
  | save event dest =>
    refine (sound_eventNamed event).bind fun e w₁ _ he => .need fun dest _ => ?_
    exact (safe_saveEvent dest he).andThen fun _ _ _ => .pure trivial
  | info event => exact (sound_eventNamed event).safe.andThen fun _ _ _ => .scene (.pure trivial)
  | stop event =>
    exact (sound_eventNamed event).safe.andThen fun e w₁ _ => safe_doing (.stop _ _) rfl
  | callHandler handler event =>
    refine (safe_evalHandler handler).andThen fun h w₁ _ => ?_
    refine (sound_eventNamed event).bind fun e w₂ _ he => .read ?_
    have hhandle : Safe (modify (c.behaviours.handle h e)) c w₂ :=
      safe_modify fun hr => hr.serves.follows.handle h hr.inOrder he.1 he.2
    exact hhandle.andThen fun _ _ _ => .pure trivial

theorem safe_actOnTable (op : TableOp) : Safe (actOnTable op) c w := by
  cases op with
  | add table value event =>
    refine .need fun table _ => ?_
    refine (safe_changingTable table fun l w₁ _ => ?_).andThen fun _ _ _ => .pure trivial
    exact (sound_evalExpr value).safe.andThen fun v w₂ _ => .need fun _ _ => .pure trivial
  | clear table =>
    exact .need fun table _ => (safe_saveTable table _).andThen fun _ _ _ => .pure trivial
  | info table event =>
    refine .need fun table _ => (safe_tableNamed table).andThen fun _ _ _ => ?_
    exact .need fun _ _ => .scene (.pure trivial)

theorem safe_actOnEngine (op : EngineOp) : Safe (actOnEngine op) c w := by
  cases op with
  | make source dest =>
    simp only [actOnEngine]
    split
    · refine .need fun dest _ => ?_
      exact (sound_modifyMemory fun h => h.elsewhere ..).safe.andThen fun _ _ _ => .pure trivial
    · exact .throw _
  | info engine keys => exact (safe_engineNamed engine).andThen fun _ _ _ => .pure trivial
  | create spec dest =>
    exact (sound_evalSpec spec).bind fun e w₁ _ he => safe_store dest (Scene.has_element_iff.2 he)
  | render doc tree root engine =>
    refine .need fun doc _ => (safe_documentNamed doc).andThen fun doc w₁ _ => ?_
    refine (sound_evalShape tree).bind fun e w₂ _ he => .need fun root _ => ?_
    refine (safe_makerNamed engine).andThen fun _ w₃ hx => ?_
    have hrender : Safe (onScene (·.render doc e root)) c w₃ :=
      sound_onScene (.single (.render _ _ _ (hx.knows he)))
        (noted.logOf_congr (Scene.notes_render _ _ _ _)) fun _ _ => trivial
    exact hrender.andThen fun _ _ _ => .pure trivial
  | renderInto node tree engine =>
    refine (sound_evalNode node).safe.andThen fun n w₁ _ => ?_
    refine (sound_evalShape tree).bind fun e w₂ _ he => ?_
    refine (safe_engineNamed engine).andThen fun _ w₃ hx => ?_
    have hrender : Safe (onScene (·.renderInto n e)) c w₃ :=
      sound_onScene (.single (.renderInto _ _ (hx.knows he)))
        (noted.logOf_congr (Scene.notes_renderInto _ _ _)) fun _ _ => trivial
    exact hrender.andThen fun _ _ _ => .pure trivial

theorem sound_document : Sound (making (·.document)) c w fun s d => d.body < s.tree.size := by
  refine sound_making (.single (.makeNode _ (.element "body"))) rfl ?_
  exact w.scene.lt_size_addNode (.element "body")

theorem acts_documentWithRoot (s : Scene) (id : String) :
    ReflTransGen Act s (s.documentWithRoot id).2 ∧ (s.documentWithRoot id).2.notes = s.notes ∧
      ∀ d, (s.documentWithRoot id).1 = .ok d → d.body < (s.documentWithRoot id).2.tree.size := by
  let root := (s.addNode (.element "body")).2.tree.size
  let made := ((s.addNode (.element "body")).2.addNode (.element "div")).2
  let marked := made.modifyNode root (.setAttribute "id" id)
  have hsize : marked.tree.size = made.tree.size := Tree.size_modify _ _ _
  have hbody : s.tree.size < root := by simp [root]
  have hroot : root < marked.tree.size := by simp [hsize, made, root]
  have hacts : ReflTransGen Act s (marked.append s.tree.size root).2 :=
    .tail (.tail (.tail (.single (.makeNode _ _)) (.makeNode _ _)) (.setAttribute _ _ _ _))
      (.append _ _ hroot)
  have hnotes : (marked.append s.tree.size root).2.notes = s.notes := marked.notes_append _ _
  have hgrows := (marked.extends_append s.tree.size root).nodes
  generalize hdoc : s.documentWithRoot id = made
  simp only [Scene.documentWithRoot, Scene.document, Scene.addNode] at hdoc
  split at hdoc
  · rename_i u s' hlink
    have happend : marked.append s.tree.size root = (.ok u, s') := hlink
    rw [happend] at hacts hnotes hgrows
    cases hdoc
    refine ⟨hacts, hnotes, fun d hd => ?_⟩
    cases hd
    exact Nat.lt_of_lt_of_le (Nat.lt_trans hbody hroot) hgrows
  · rename_i e s' hlink
    have happend : marked.append s.tree.size root = (.error e, s') := hlink
    rw [happend] at hacts hnotes
    cases hdoc
    exact ⟨hacts, hnotes, fun d hd => by cases hd⟩

theorem sound_documentWithRoot (id : String) :
    Sound (onScene (·.documentWithRoot id)) c w fun s d => d.body < s.tree.size := by
  obtain ⟨hacts, hnotes, hbody⟩ := acts_documentWithRoot w.scene id
  exact sound_onScene hacts (noted.logOf_congr hnotes) hbody

theorem safe_actOnDocument (op : DocumentOp) : Safe (actOnDocument op) c w := by
  cases op with
  | make doc root dest =>
    have hrest : ∀ (d : Document) (w : World Memory), d.body < w.scene.tree.size → Safe (do
        let doc ← need doc
        let made := d.body :: (← scene).tree.children d.body
        modifyMemory fun m =>
          { m with documents := m.documents.set doc d, unseen := made ++ m.unseen }
        store dest (.node d.body)) c w := by
      intro d w hd
      refine .need fun doc _ => .scene (.bind (sound_modifyMemory fun h => h.elsewhere ..)
        fun _ w₁ hx _ => ?_)
      exact safe_store dest (Scene.has_node_iff.2 (Nat.lt_of_lt_of_le hd hx.nodes))
    cases root with
    | none => exact sound_document.bind fun d w₁ _ hd => hrest d w₁ hd
    | some id => exact (sound_documentWithRoot id).bind fun d w₁ _ hd => hrest d w₁ hd
  | element doc tag dest | text doc text dest =>
    refine .need fun doc _ => (safe_documentNamed doc).andThen fun _ w₁ _ => .need fun _ _ => ?_
    exact (sound_addNode _).bind fun n w₂ _ hn => safe_store dest (Scene.has_node_iff.2 hn)
  | find doc id dest =>
    refine .need fun doc _ => (safe_documentNamed doc).andThen fun d w₁ _ => .need fun id _ => ?_
    refine .scene (safe_storeNode dest fun m hm => ?_)
    exact Tree.lt_size_of_findById hm
  | html doc | describe doc =>
    exact .need fun doc _ => (safe_documentNamed doc).andThen fun _ _ _ => .scene (.pure trivial)

theorem safe_countTo {act : Nat → Run Unit} (h : ∀ i w, Safe (act i) c w) (left i : Nat)
    {w : World Memory} : Safe (countTo act left i) c w := by
  induction left generalizing i w with
  | zero => exact .pure trivial
  | succ left ih => exact (h i w).andThen fun _ _ _ => ih (i + 1)

theorem safe_eachNode {act : Nat → NodeId → Run Unit}
    (h : ∀ i n w, n < w.scene.tree.size → Safe (act i n) c w) {ns : List NodeId} (i : Nat)
    {w : World Memory} (hns : NodesIn w.scene ns) : Safe (eachNode act ns i) c w := by
  induction ns generalizing i w with
  | nil => exact .pure trivial
  | cons n rest ih =>
    obtain ⟨hn, hrest⟩ := List.forall_mem_cons.1 hns
    have hone : Safe (holding rest (act i n)) c w :=
      sound_holding rest fun w₁ hw₁ => h i n w₁ (by rwa [hw₁])
    exact hone.andThen fun _ w₁ hx =>
      ih (i + 1) fun m hm => Nat.lt_of_lt_of_le (hrest m hm) hx.nodes

theorem safe_assignIndex (name : Option String) (i : Nat) : Safe (assignIndex name i) c w := by
  cases name with
  | none => exact .pure trivial
  | some name => exact safe_assign name (Scene.has_of_elements_nil rfl)

theorem safe_noteOutcome (label : Report) (caught : Bool) (r : Except Failure Report) :
    Safe (noteOutcome label caught r) c w := by
  unfold noteOutcome
  split
  · exact .pure trivial
  · exact safe_note rfl
  · rename_i e
    split
    · cases e with
      | misuse => exact safe_note rfl
      | error e => cases e <;> exact safe_note rfl
    · exact .throw e

mutual

theorem safe_execOp (op : Op) {w : World Memory} : Safe (execOp op) c w := by
  cases op with
  | node subject op =>
    rw [execOp]
    refine (sound_evalNode subject).bind fun n w₁ _ hn => sound_holding _ fun w₂ hw₂ => ?_
    refine safe_letGo.andThen fun _ w₃ hx => safe_actOnNode ?_ op
    exact Nat.lt_of_lt_of_le (by rwa [hw₂]) hx.nodes
  | value op =>
    rw [execOp]
    exact safe_actOnValue op
  | element op =>
    rw [execOp]
    exact safe_actOnElement op
  | config op =>
    rw [execOp]
    exact safe_actOnConfig op
  | refs op =>
    rw [execOp]
    exact safe_actOnRefs op
  | sink op =>
    rw [execOp]
    exact safe_actOnSink op
  | component op =>
    rw [execOp]
    exact safe_actOnComponent op
  | event op =>
    rw [execOp]
    exact safe_actOnEvent op
  | table op =>
    rw [execOp]
    exact safe_actOnTable op
  | engine op =>
    rw [execOp]
    exact safe_actOnEngine op
  | document op =>
    rw [execOp]
    exact safe_actOnDocument op
  | fail e | invalid => exact .throw _
  | branch condition yes no =>
    rw [execOp]
    refine (sound_evalExpr condition).safe.andThen fun v w₁ _ => ?_
    split
    · exact (safe_execSteps false yes).andThen fun _ _ _ => .pure trivial
    · exact (safe_execSteps false no).andThen fun _ _ _ => .pure trivial
  | count times index body =>
    rw [execOp]
    refine (sound_evalExpr times).safe.andThen fun v w₁ _ => .need fun n _ => ?_
    refine (safe_countTo (fun i w₂ => ?_) _ 0).andThen fun _ _ _ => .pure trivial
    exact (safe_assignIndex index i).andThen fun _ _ _ => safe_execSteps false body
  | forEach nodes item index body =>
    rw [execOp]
    refine (sound_evalNodes nodes).bind fun ns w₁ _ hns => .need fun item _ => ?_
    refine (safe_eachNode (fun i n w₂ hn => ?_) 0 hns).andThen fun _ _ _ => .pure trivial
    refine (safe_assign item (Scene.has_node_iff.2 hn)).andThen fun _ w₃ _ => ?_
    exact (safe_assignIndex index i).andThen fun _ _ _ => safe_execSteps false body

theorem safe_execSteps (all : Bool) (steps : List Step) {w : World Memory} :
    Safe (execSteps all steps) c w := by
  cases steps with
  | nil => exact .pure trivial
  | cons s rest =>
    rw [execSteps]
    exact (safe_execStep all s).andThen fun _ _ _ => safe_execSteps all rest

theorem safe_execStep (all : Bool) (s : Step) {w : World Memory} :
    Safe (execStep all s) c w := by
  cases s with
  | mk label caught op =>
    rw [execStep]
    exact (safe_execOp op).outcome.bind fun r w₁ _ _ => safe_noteOutcome label _ r

end

end UiTree.Script
