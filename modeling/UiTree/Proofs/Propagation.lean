import UiTree.Proofs.Append
set_option autoImplicit false

/-!
The way of an event. The loop of a dispatch has no bound of its own, so it is described here by a
relation that has none either. If no listener that is called changes a parent at or above the
target, the loop ends: it goes from the target towards the root and stops behind the first node at
whose end the event is stopped. What is called on the way is written down by behaviours that keep a
list beside the program.
-/

namespace UiTree

open Relation

variable {ω : Type}

inductive ListenerCall where
  | handler (c : Closure) (e : Event)
  | method (c : Closure) (args : List Value)

namespace ListenerCall

def of? (e : Event) : Value → Option ListenerCall
  | .handler c => some (.handler c e)
  | .method c => some (.method c [.node e.target])
  | _ => none

def due (e : Event) (n : NodeId) (w : World ω) : List ListenerCall :=
  ((w.scene.node n).listeners.get e.kind).filterMap (of? { e with current := n })

end ListenerCall

def World.listing (w : World ω) (calls : List ListenerCall) : World (ω × List ListenerCall) :=
  ⟨w.scene, (w.program, calls)⟩

/-- The same behaviours, but each call of a listener is put at the end of a list. -/
def Behaviours.traced (b : Behaviours ω) : Behaviours (ω × List ListenerCall) where
  render c props w :=
    let made := b.render c props ⟨w.scene, w.program.1⟩
    (made.1, made.2.listing w.program.2)
  handle c e w := (b.handle c e ⟨w.scene, w.program.1⟩).listing (w.program.2 ++ [.handler c e])
  respond c args e w :=
    (b.respond c args e ⟨w.scene, w.program.1⟩).listing (w.program.2 ++ [.method c args])
  invoke c args w :=
    let answered := b.invoke c args ⟨w.scene, w.program.1⟩
    (answered.1, answered.2.listing w.program.2)
  notify c p w := (b.notify c p ⟨w.scene, w.program.1⟩).listing w.program.2

section

variable (b : Behaviours ω) (e : Event)

theorem callListener_traced (w : World ω) (calls : List ListenerCall) (v : Value) :
    callListener b.traced e (w.listing calls) v =
      (callListener b e w v).listing (calls ++ (ListenerCall.of? e v).toList) := by
  cases v with
  | handler c => rfl
  | method c => rfl
  | null | bool | int | float | str | list | node | element | ref =>
    simp only [ListenerCall.of?, Option.toList_none, List.append_nil]
    rfl

theorem callListeners_traced (vs : List Value) (w : World ω) (calls : List ListenerCall) :
    vs.foldl (callListener b.traced e) (w.listing calls) =
      (vs.foldl (callListener b e) w).listing (calls ++ vs.filterMap (ListenerCall.of? e)) := by
  induction vs generalizing w calls with
  | nil => simp
  | cons v rest ih =>
    rw [List.foldl_cons, List.foldl_cons, callListener_traced, ih, List.filterMap_cons]
    cases ListenerCall.of? e v with
    | none => simp
    | some call => simp

theorem visit_traced (n : NodeId) (w : World ω) (calls : List ListenerCall) :
    visit b.traced e n (w.listing calls) =
      (visit b e n w).listing (calls ++ ListenerCall.due e n w) :=
  callListeners_traced b { e with current := n } _ w calls

theorem callListener_of_not_callable {v : Value} (hv : v.isCallable = false) (w : World ω) :
    ∃ j, callListener b e w v = ⟨{ w.scene with journal := j }, w.program⟩ := by
  cases v with
  | handler c => cases hv
  | method c => cases hv
  | null | bool | int | float | str | list | node | element | ref => exact ⟨_, rfl⟩

/-- The loop of a dispatch from a node on: which nodes are visited, in which worlds the event
arrives there, and in which world it all ends. The flag and the parent are looked at when the
listeners of a node have run. -/
inductive Bubbles : NodeId → World ω → List (NodeId × World ω) → World ω → Prop where
  | ends {n : NodeId} {w : World ω}
      (h : (visit b e n w).scene.stopped e = true ∨ (visit b e n w).scene.tree.parent n = none) :
      Bubbles n w [(n, w)] (visit b e n w)
  | rises {n p : NodeId} {w final : World ω} {visits : List (NodeId × World ω)}
      (hs : (visit b e n w).scene.stopped e = false)
      (hp : (visit b e n w).scene.tree.parent n = some p)
      (h : Bubbles p (visit b e n w) visits final) : Bubbles n w ((n, w) :: visits) final

end

namespace Bubbles

variable {b : Behaviours ω} {e : Event} {n : NodeId} {w final : World ω}
  {visits : List (NodeId × World ω)}

theorem length_pos (h : Bubbles b e n w visits final) : 0 < visits.length := by
  cases h with
  | ends => simp
  | rises => simp

/-- With as much fuel as there are visits, or more, the loop ends by itself. -/
theorem bubble_eq (h : Bubbles b e n w visits final) {fuel : Nat} (hfuel : visits.length ≤ fuel) :
    bubble b e fuel n w = final := by
  induction h generalizing fuel with
  | @ends n w h =>
    obtain ⟨k, rfl⟩ : ∃ k, fuel = k + 1 := Nat.exists_eq_succ_of_ne_zero (by simp at hfuel; omega)
    rw [bubble]
    split
    · rfl
    · rename_i hstop
      rw [h.resolve_left hstop]
  | @rises n p w final visits hs hp h ih =>
    obtain ⟨k, rfl⟩ : ∃ k, fuel = k + 1 := Nat.exists_eq_succ_of_ne_zero (by simp at hfuel; omega)
    simp only [List.length_cons, Nat.add_le_add_iff_right] at hfuel
    simp only [bubble, hs, hp, Bool.false_eq_true, if_false]
    exact ih hfuel

/-- The list beside the program gets the calls that are due at each visit. -/
theorem traced (h : Bubbles b e n w visits final) (calls : List ListenerCall) :
    ∃ visits' : List (NodeId × World (ω × List ListenerCall)), visits'.length = visits.length ∧
      Bubbles b.traced e n (w.listing calls) visits'
        (final.listing (calls ++ visits.flatMap fun v => ListenerCall.due e v.1 v.2)) := by
  induction h generalizing calls with
  | @ends n w h =>
    have hvisit := visit_traced b e n w calls
    refine ⟨[(n, w.listing calls)], rfl, ?_⟩
    rw [List.flatMap_singleton, ← hvisit]
    exact .ends (by rwa [hvisit])
  | @rises n p w final visits hs hp h ih =>
    have hvisit := visit_traced b e n w calls
    obtain ⟨visits', hlength, hrest⟩ := ih (calls ++ ListenerCall.due e n w)
    rw [← hvisit, List.append_assoc] at hrest
    refine ⟨(n, w.listing calls) :: visits', congrArg (· + 1) hlength, ?_⟩
    rw [List.flatMap_cons]
    exact .rises (by rwa [hvisit]) (by rwa [hvisit]) hrest

end Bubbles

/-- The event is at a node, with these listeners still to be called there, in a dispatch that began
in the world `start`. -/
inductive Hearing (b : Behaviours ω) (e : Event) (start : World ω) : NodeId → List Value → World ω →
    Prop where
  | sent : Hearing b e start e.target ((start.scene.node e.target).listeners.get e.kind) start
  | called {n : NodeId} {v : Value} {left : List Value} {w : World ω}
      (h : Hearing b e start n (v :: left) w) :
      Hearing b e start n left (callListener b { e with current := n } w v)
  | risen {n p : NodeId} {w : World ω} (h : Hearing b e start n [] w)
      (hs : w.scene.stopped e = false) (hp : w.scene.tree.parent n = some p) :
      Hearing b e start p ((w.scene.node p).listeners.get e.kind) w

/-- No listener that is called changes the parent of the target or of a node above it. -/
def Behaviours.KeepsWay (b : Behaviours ω) (e : Event) (start : World ω) : Prop :=
  ∀ {n : NodeId} {v : Value} {left : List Value} {w : World ω}, Hearing b e start n (v :: left) w →
    ∀ a, ReflTransGen start.scene.tree.Under e.target a →
      (callListener b { e with current := n } w v).scene.tree.parent a = w.scene.tree.parent a

section

variable {b : Behaviours ω} {e : Event} {start : World ω}

theorem Hearing.visited {n : NodeId} {vs : List Value} {w : World ω}
    (h : Hearing b e start n vs w) : Hearing b e start n []
    (vs.foldl (callListener b { e with current := n }) w) := by
  induction vs generalizing w with
  | nil => exact h
  | cons v rest ih => exact ih h.called

theorem Hearing.parent_eq {n : NodeId} {vs : List Value} {w : World ω}
    (h : Hearing b e start n vs w) (hkeep : b.KeepsWay e start) {a : NodeId}
    (ha : ReflTransGen start.scene.tree.Under e.target a) :
    w.scene.tree.parent a = start.scene.tree.parent a := by
  induction h with
  | sent => rfl
  | called h ih => exact (hkeep h a ha).trans ih
  | risen h hs hp ih => exact ih

/-- The rest of the way, from the `k`-th node above the target on. The ranks go down, so there is an
end to it. -/
theorem Hearing.exists_bubbles {rank : NodeId → Nat} (hr : start.scene.tree.Ranked rank)
    (hkeep : b.KeepsWay e start) {k : Nat} {n : NodeId} {w : World ω}
    (hup : start.scene.tree.up k e.target = some n)
    (h : Hearing b e start n ((w.scene.node n).listeners.get e.kind) w) :
    ∃ visits final, Bubbles b e n w visits final ∧
      (∀ j v, visits[j]? = some v → start.scene.tree.up (k + j) e.target = some v.1) ∧
      (final.scene.stopped e = true ∨ start.scene.tree.up (k + visits.length) e.target = none) := by
  induction hn : rank n using Nat.strong_induction_on generalizing k n w with
  | _ r ih =>
    subst hn
    have hleft : Hearing b e start n [] (visit b e n w) := h.visited
    have hparent := hleft.parent_eq hkeep (Tree.reflTransGen_under_iff.2 ⟨k, hup⟩)
    -- A way that ends here has one visit.
    have hone : ∀ j v, [(n, w)][j]? = some v → start.scene.tree.up (k + j) e.target = some v.1 := by
      intro j v hv
      cases j with
      | zero =>
        cases hv
        exact hup
      | succ j => cases hv
    cases hs : (visit b e n w).scene.stopped e with
    | true => exact ⟨_, _, .ends (.inl hs), hone, .inl hs⟩
    | false =>
      cases hp : (visit b e n w).scene.tree.parent n with
      | none =>
        refine ⟨_, _, .ends (.inr hp), hone,
          .inr (Option.eq_none_iff_forall_ne_some.2 fun a ha => ?_)⟩
        obtain ⟨c, hc, ha⟩ := Tree.up_succ_eq_some_last.1 ha
        rw [hup] at hc
        cases hc
        rw [← hparent, hp] at ha
        cases ha
      | some p =>
        have hpn : start.scene.tree.parent n = some p := hparent.symm.trans hp
        have hnext : start.scene.tree.up (k + 1) e.target = some p :=
          Tree.up_succ_eq_some_last.2 ⟨n, hup, hpn⟩
        obtain ⟨visits, final, hrest, hnodes, hend⟩ :=
          ih (rank p) (hr n p hpn) hnext (hleft.risen hs hp) rfl
        refine ⟨_, final, .rises hs hp hrest, fun j v hv => ?_, ?_⟩
        · cases j with
          | zero =>
            cases hv
            exact hup
          | succ j =>
            rw [← Nat.add_assoc, Nat.add_right_comm]
            exact hnodes j v hv
        · rw [List.length_cons, Nat.add_comm visits.length, ← Nat.add_assoc]
          exact hend

end

namespace Course

variable {m : Moment}

/-- Of every moment, every node and kind of event, and listeners that do anything but change a
parent at or above the node: the loop ends, for which the size of the tree is fuel enough. The
`k`-th visit is to the `k`-th node above the target, and the last one is where the event is stopped,
or the root. At each visit the listeners that the node had for the event when it arrived are called,
each once and in order: handlers with the event at that node, methods with the target alone. What
cannot be called does nothing but write the journal. -/
theorem Reachable.dispatch_bubbles (hm : Reachable m) (b : Behaviours ω) (program : ω)
    (kind : String) {target : NodeId} (ht : target < m.scene.tree.size)
    (hkeep : b.KeepsWay (m.scene.event kind target).1 ⟨(m.scene.event kind target).2, program⟩) :
    let e : Event := ⟨kind, target, target, m.scene.flags.size⟩
    let start : World ω := ⟨(m.scene.event kind target).2, program⟩
    ∃ visits final, Bubbles b e target start visits final ∧
      dispatch b kind target ⟨m.scene, program⟩ = (e, final) ∧
      (∀ fuel, m.scene.tree.size ≤ fuel → bubble b e fuel target start = final) ∧
      (∀ k v, visits[k]? = some v → m.scene.tree.up k target = some v.1) ∧
      (final.scene.stopped e = true ∨ m.scene.tree.up visits.length target = none) ∧
      dispatch b.traced kind target ⟨m.scene, (program, [])⟩ =
        (e, final.listing
          (visits.flatMap fun v => ((v.2.scene.node v.1).listeners.get kind).filterMap
            (ListenerCall.of? ⟨kind, target, v.1, m.scene.flags.size⟩))) ∧
      ∀ n w v, v.isCallable = false →
        ∃ j, callListener b { e with current := n } w v = ⟨{ w.scene with journal := j },
        w.program⟩ := by
  intro e start
  have hwf : start.scene.tree.WellFormed := hm.wellFormed
  obtain ⟨rank, hr⟩ := hwf.ranked
  obtain ⟨visits, final, hbubbles, hnodes, hend⟩ :=
    Hearing.exists_bubbles hr hkeep (k := 0) rfl .sent
  simp only [Nat.zero_add] at hnodes hend
  have hlength : visits.length ≤ m.scene.tree.size := by
    obtain ⟨k, hk⟩ := Nat.exists_eq_succ_of_ne_zero (Nat.ne_of_gt hbubbles.length_pos)
    obtain ⟨v, hv⟩ : ∃ v, visits[k]? = some v := ⟨_, List.getElem?_eq_getElem (by omega)⟩
    have hlt := hr.up_lt_size (fun c p => hwf.parent_lt_size) ht (hnodes k v hv)
    rw [hk]
    exact hlt
  obtain ⟨visits', hlength', htraced⟩ := hbubbles.traced []
  refine ⟨visits, final, hbubbles, ?_, fun fuel hfuel => hbubbles.bubble_eq (hlength.trans hfuel),
    hnodes, hend, ?_, fun n w v hv => callListener_of_not_callable b _ hv w⟩
  · exact congrArg (Prod.mk e) (hbubbles.bubble_eq (hlength.trans (Nat.le_add_right _ _)))
  · exact congrArg (Prod.mk e)
      (htraced.bubble_eq (hlength'.trans_le (hlength.trans (Nat.le_add_right _ _))))

/-- Behaviours of which only the handlers with the code `stop` do anything: they stop the event and
put themselves once more on the node. -/
def stopping : Behaviours Unit where
  render _ _ w := (.error (.component "no body"), w)
  handle c e w :=
    if c.code = "stop" then
      { w with scene := (w.scene.stop e).modifyNode e.current (.listen e.kind (.handler c)) }
    else w
  respond _ _ _ w := w
  invoke _ _ w := (.null, w)
  notify _ _ w := w

theorem keepsWay_stopping (e : Event) (start : World Unit) : stopping.KeepsWay e start := by
  intro n v left w _ a _
  have hlisten : ∀ (s : Scene) (c : Closure),
    (s.modifyNode n (.listen e.kind (.handler c))).tree.parent a =
      s.tree.parent a := fun s c => (Tree.SameLinks.modify rfl rfl rfl).parent a
  cases v with
  | handler c =>
    simp only [callListener, stopping]
    split
    · exact hlisten (w.scene.stop _) c
    · rfl
  | method c => rfl
  | null | bool | int | float | str | list | node | element | ref => rfl

/-- A list with an item and a text in it, which all listen for clicks; only the item stops them. -/
def clickable : Moment :=
  let s := (twoLists.scene.modifyNode 2 (.listen "click" (.str "x"))).modifyNode 2
    (.listen "click" (.handler ⟨1, "pass", none⟩))
  let s := (s.modifyNode 1 (.listen "click" (.handler ⟨2, "stop", none⟩))).modifyNode 1
    (.listen "click" (.method ⟨3, "answer", none⟩))
  { twoLists with scene := s.modifyNode 0 (.listen "click" (.handler ⟨4, "pass", none⟩)) }

theorem reachable_clickable : Reachable clickable := by
  obtain ⟨level, hs⟩ := reachable_twoLists
  exact ⟨level, ((((hs.tail (.act (.listen _ _ _ _))).tail (.act (.listen _ _ _ _))).tail
    (.act (.listen _ _ _ _))).tail (.act (.listen _ _ _ _))).tail (.act (.listen _ _ _ _))⟩

theorem Reachable.dispatch_bubbles_of_stopped :
    ∃ (m : Moment) (visits : List (NodeId × World Unit)) (final : World Unit),
    Reachable m ∧ m.scene.tree.up 1 2 = some 1 ∧ m.scene.tree.up 2 2 = some 0 ∧
    Bubbles stopping ⟨"click", 2, 2, 0⟩ 2 ⟨(m.scene.event "click" 2).2, ()⟩ visits final ∧
    visits.map (·.1) = [2, 1] ∧
    dispatch stopping "click" 2 ⟨m.scene, ()⟩ = (⟨"click", 2, 2, 0⟩, final) ∧
    final.scene.stopped ⟨"click", 2, 2, 0⟩ = true ∧
    (dispatch stopping.traced "click" 2 ⟨m.scene, ((), [])⟩).2.program.2 =
      [.handler ⟨1, "pass", none⟩ ⟨"click", 2, 2, 0⟩, .handler ⟨2, "stop", none⟩ ⟨"click", 2, 1, 0⟩,
        .method ⟨3, "answer", none⟩ [.node 2]] := by
  obtain ⟨visits, final, hbubbles, hdispatch, -, -, -, htraced, -⟩ :=
    reachable_clickable.dispatch_bubbles stopping () "click" (show 2 < _ by decide)
      (keepsWay_stopping _ _)
  have hway := hbubbles
  cases hbubbles with
  | ends h => exact absurd h (by decide)
  | @rises n p w final visits hs hp h =>
    obtain rfl : 1 = p := Option.some.inj hp
    cases h with
    | rises hs => exact absurd hs (by decide)
    | ends h =>
      refine ⟨clickable, _, _, reachable_clickable, rfl, rfl, hway, rfl, hdispatch, rfl, ?_⟩
      rw [htraced]
      rfl

end Course

end UiTree
