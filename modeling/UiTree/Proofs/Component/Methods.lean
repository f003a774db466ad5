import UiTree.Proofs.Component
set_option autoImplicit false

/-!
The methods of components. A body writes into the sink of its call, under names of its choice and in
any order; one name is reserved and makes a notice in place of a method. When the body has returned,
the methods go to the result, the last one written under each name, unless the result is a fragment:
a fragment carries no methods.
-/

namespace UiTree

/-- What a component body writes into its sink: a method under a name, or a callback for the
notice. -/
inductive Offer where
  | method (name : String) (c : Closure)
  | notice (c : Closure)

namespace Offer

def method? : Offer → Option (String × Closure)
  | .method name c => if name = Sink.gotParentName then none else some (name, c)
  | .notice _ => none

def methods (offers : List Offer) : List (String × Closure) := offers.filterMap method?

def names (offers : List Offer) : List String := ((methods offers).map (·.1)).eraseDups

def last? (offers : List Offer) (name : String) : Option Closure :=
  Entries.lookup name (methods offers).reverse

theorem methods_append (offers : List Offer) (x : Offer) :
    methods (offers ++ [x]) = methods offers ++ x.method?.toList := by
  simp only [methods, List.filterMap_append, List.filterMap_cons, List.filterMap_nil]
  cases x.method? <;> rfl

theorem last?_gotParentName (offers : List Offer) : last? offers Sink.gotParentName = none := by
  refine Entries.lookup_eq_none_iff.2 fun hmem => ?_
  simp only [Entries.keys, methods, List.map_reverse, List.mem_reverse, List.mem_map,
    List.mem_filterMap] at hmem
  obtain ⟨⟨name, c⟩, ⟨x, -, hx⟩, hname⟩ := hmem
  cases x with
  | notice c => cases hx
  | method name' c' =>
    simp only [method?] at hx
    split at hx
    · cases hx
    · rename_i hne
      cases hx
      exact hne hname

end Offer

namespace Scene

def offer (s : Scene) (cur : SinkId) : Offer → Scene
  | .method name c => s.offerMethod cur name c
  | .notice c => s.offerNotice cur c

/-- From `s` to `t` the offers were written into the sink, in this order, and nothing else was done
to it. Whatever happens elsewhere may happen in between. -/
inductive Offering (cur : SinkId) (s : Scene) : List Offer → Scene → Prop where
  | none : Offering cur s [] s
  | other {offers : List Offer} {t t' : Scene} (h : Offering cur s offers t)
      (hsize : t.sinks.size ≤ t'.sinks.size) (hsame : t'.sink cur = t.sink cur) :
      Offering cur s offers t'
  | write {offers : List Offer} {t : Scene} (h : Offering cur s offers t) (x : Offer) :
      Offering cur s (offers ++ [x]) (t.offer cur x)

theorem offer_eq (s : Scene) (cur : SinkId) (x : Offer) : ∃ (t : Scene) (f : Sink → Sink),
    s.offer cur x = t.modifySink cur f ∧ t.sinks = s.sinks ∧
      ∀ sink, (f sink).methods = sink.methods.setAll x.method?.toList := by
  cases x with
  | notice c => exact ⟨s.takeSerial.2, _, rfl, rfl, fun _ => rfl⟩
  | method name c =>
    by_cases hname : name = Sink.gotParentName
    · have hoffer : s.offerMethod cur name c = s.takeSerial.2.modifySink cur fun sink =>
          { sink with notice := some ⟨s.takeSerial.1, .method c⟩ } := if_pos hname
      refine ⟨_, _, hoffer, rfl, fun sink => ?_⟩
      simp only [Offer.method?, hname, if_true]
      rfl
    · have hoffer : s.offerMethod cur name c = s.modifySink cur fun sink =>
          { sink with methods := sink.methods.set name c } := if_neg hname
      refine ⟨_, _, hoffer, rfl, fun sink => ?_⟩
      simp only [Offer.method?, hname, if_false]
      rfl

theorem size_sinks_offer (s : Scene) (cur : SinkId) (x : Offer) :
    (s.offer cur x).sinks.size = s.sinks.size := by
  obtain ⟨t, f, heq, hsinks, -⟩ := s.offer_eq cur x
  rw [heq, ← hsinks]
  exact Array.size_modify

theorem methods_offer {s : Scene} {cur : SinkId} (hcur : cur < s.sinks.size) (x : Offer) :
    ((s.offer cur x).sink cur).methods = (s.sink cur).methods.setAll x.method?.toList := by
  obtain ⟨t, f, heq, hsinks, hmethods⟩ := s.offer_eq cur x
  rw [heq, sink_modifySink, if_pos ⟨rfl, by rwa [hsinks]⟩, hmethods, sink, hsinks, sink]

theorem sink_offer_of_ne (s : Scene) {cur id : SinkId} (h : id ≠ cur) (x : Offer) :
    (s.offer id x).sink cur = s.sink cur := by
  obtain ⟨t, f, heq, hsinks, -⟩ := s.offer_eq id x
  rw [heq, sink_modifySink, if_neg fun hand => h hand.1.symm, sink, hsinks, sink]

theorem sinks_of_build {s s' : Scene} {events : EventSet} {name : String} {config : Config}
    {nodes : List NodeId} {made : Except Error NodeId}
    (hb : (s.announceTag name nodes).build events name config nodes = (made, s')) :
    s'.sinks = s.sinks := by
  have hsame := (s.announceTag name nodes).sameOffers_build events name config nodes
  rw [hb] at hsame
  exact hsame.1

namespace Offering

variable {cur : SinkId} {s t u : Scene} {offers more : List Offer}

theorem trans (h : Offering cur s offers t) (h' : Offering cur t more u) :
    Offering cur s (offers ++ more) u := by
  induction h' with
  | none => rwa [List.append_nil]
  | other _ hsize hsame ih => exact .other ih hsize hsame
  | write _ x ih =>
    rw [← List.append_assoc]
    exact .write ih x

theorem of_sinks (h : t.sinks = s.sinks) : Offering cur s [] t :=
  .other .none (Nat.le_of_eq (congrArg Array.size h.symm)) (by rw [sink, h, sink])

theorem foldl (cur : SinkId) (offers : List Offer) (s : Scene) :
    Offering cur s offers (offers.foldl (·.offer cur) s) := by
  induction offers generalizing s with
  | nil => exact .none
  | cons x rest ih => exact (Offering.write .none x).trans (ih (s.offer cur x))

/-- The run lemma: a table that was written in order holds what the list of the offers says. -/
theorem methods_eq (h : Offering cur s offers t) (hcur : cur < s.sinks.size) :
    cur < t.sinks.size ∧
    (t.sink cur).methods = (s.sink cur).methods.setAll (Offer.methods offers) := by
  induction h with
  | none => exact ⟨hcur, rfl⟩
  | other _ hsize hsame ih => exact ⟨Nat.lt_of_lt_of_le ih.1 hsize, by rw [hsame, ih.2]⟩
  | @write offers t _ x ih =>
    refine ⟨by rw [size_sinks_offer]; exact ih.1, ?_⟩
    rw [methods_offer ih.1, ih.2, Offer.methods_append, Dict.setAll_append]

end Offering

end Scene

namespace Course

open Scene (Offering)

theorem Act.offering {s s' : Scene} (h : Act s s') {cur : SinkId} (hcur : cur < s.sinks.size) :
    ∃ offers, Offering cur s offers s' := by
  have hoffer : ∀ id (x : Offer), ∃ offers, Offering cur s offers (s.offer id x) := by
    intro id x
    by_cases hid : id = cur
    · subst hid
      exact ⟨_, .write .none x⟩
    · exact ⟨[], .other .none (Nat.le_of_eq (s.size_sinks_offer id x).symm)
        (s.sink_offer_of_ne hid x)⟩
  cases h with
  | offerMethod id name c => exact hoffer id (.method name c)
  | offerNotice id c => exact hoffer id (.notice c)
  | makeSink =>
    have hsink : s.addSink.2.sink cur = s.sink cur := by
      simp [Scene.addSink, Scene.sink, Array.getD_eq_getD_getElem?, Array.getElem?_push,
        Nat.ne_of_lt hcur]
    exact ⟨[], .other .none (by simp [Scene.addSink]) hsink⟩
  | append p hc =>
    refine ⟨[], .of_sinks ?_⟩
    unfold Scene.append
    split <;> rfl
  | render doc key he =>
    refine ⟨[], .of_sinks ?_⟩
    unfold Scene.render
    split <;> rfl
  | makeNode | detach | setTextContent | setAttribute | removeAttribute | listen | setMethod
  | renderInto | makeSlot
  | makeRefs | makeFlag | takeSerial | stop | journal | letGo => exact ⟨[], .of_sinks rfl⟩

def Frame.sink? : Frame → Option SinkId
  | .rendering _ _ cur _ _ => some cur
  | _ => none

/-- The sink is there, and no call that is under way is going to empty it. -/
def Moment.Apart (cur : SinkId) (m : Moment) : Prop :=
  cur < m.scene.sinks.size ∧ ∀ f ∈ m.frames, f.sink? ≠ some cur

theorem Moment.offering_deliver (m : Moment) (cur : SinkId) (result : Element) (nodes : List NodeId)
    (slots : List SlotId) : Offering cur m.scene [] (m.deliver result nodes slots).scene :=
  .of_sinks ((m.scene.sameOffers_collect result nodes slots).trans
    (Scene.sameOffers_announce _ result _)).1

theorem Moment.frames_deliver (m : Moment) (result : Element) (nodes : List NodeId)
    (slots : List SlotId) {f : Frame} (hf : f ∈ (m.deliver result nodes slots).frames) :
    f ∈ m.frames ∨ f.sink? = none := by
  cases result with
  | fragment slot items => exact .inl hf
  | node p =>
    rcases List.mem_cons.1 hf with rfl | hf
    · exact .inr rfl
    · exact .inl hf

theorem Step.sink?_frames {m m' : Moment} (h : Step m m') {f : Frame} (hf : f ∈ m'.frames) :
    f ∈ m.frames ∨ f.sink? = none ∨ f.sink? = some m.scene.sinks.size := by
  cases h with
  | build engine name config hc hb => exact (Moment.frames_deliver _ _ _ _ hf).imp_right .inl
  | bodyReturns nodes slots hk hs =>
    refine (Moment.frames_deliver _ _ _ _ hf).imp (fun hks => ?_) .inl
    exact List.mem_cons_of_mem _ (List.mem_cons_of_mem _ hks)
  | act | buildFails | call | bodyFails | bodyRefused | tell | answered | delivered | dispatch
  | hear | heard | rise | dispatched => grind [Frame.sink?, Moment.settle, Moment.arrive]

theorem offering_settle {s : Scene} {result : Element} (hk : s.Knows result) (name : Option String)
    (request : Option RefRequest) {cur id : SinkId} (hid : id ≠ cur) :
    Offering cur s [] (s.settle name request id result).2 := by
  have hsettled := Scene.settlement_settle hk name request id
  exact .other .none (Nat.le_of_eq hsettled.sinks.symm) (by rw [hsettled.sink, if_neg hid.symm])

theorem Step.offering {m m' : Moment} (h : Step m m') {cur : SinkId} (ha : m.Apart cur) :
    ∃ offers, Offering cur m.scene offers m'.scene := by
  obtain ⟨hcur, hframes⟩ := ha
  cases h with
  | act ha => exact ha.offering hcur
  | @build s s' ks l engine name config children n hc hb =>
    have hbuilt : Offering cur s [] s' := .of_sinks (Scene.sinks_of_build hb)
    exact ⟨_, hbuilt.trans (Moment.offering_deliver ⟨s', .code :: ks, l⟩ cur _ _ _)⟩
  | buildFails engine name config hc hb => exact ⟨[], .of_sinks (Scene.sinks_of_build hb)⟩
  | call s ks l c hc hr =>
    exact ⟨[], .other .none (Nat.le_of_lt (s.size_sinks_enter c _)) (s.sink_enter_of_lt c _ hcur)⟩
  | @bodyReturns s s' ks l name request id nodes slots result hk hs =>
    have hid : id ≠ cur :=
      fun h => hframes (.rendering name request id nodes slots) (by simp) (congrArg some h)
    have hsettled := offering_settle hk name request hid
    rw [hs] at hsettled
    exact ⟨_, hsettled.trans (Moment.offering_deliver (.settle ⟨s, ks, l⟩ id s') cur _ _ _)⟩
  | @bodyRefused s s' ks l name request id nodes slots result e hk hs =>
    have hid : id ≠ cur :=
      fun h => hframes (.rendering name request id nodes slots) (by simp) (congrArg some h)
    have hsettled := offering_settle hk name request hid
    rw [hs] at hsettled
    exact ⟨_, hsettled⟩
  | bodyFails | tell | answered | delivered | dispatch | hear | heard | rise | dispatched =>
    exact ⟨[], .of_sinks rfl⟩

theorem Step.apart {m m' : Moment} (h : Step m m') {cur : SinkId} (ha : m.Apart cur) :
    m'.Apart cur := by
  obtain ⟨offers, hoffering⟩ := h.offering ha
  refine ⟨(hoffering.methods_eq ha.1).1, fun f hf hsink => ?_⟩
  rcases h.sink?_frames hf with hold | hnone | hnew
  · exact ha.2 f hold hsink
  · rw [hnone] at hsink
    cases hsink
  · rw [hnew] at hsink
    cases hsink
    exact Nat.lt_irrefl _ ha.1

theorem Steps.offering {m m' : Moment} (h : Steps m m') {cur : SinkId} (ha : m.Apart cur) :
    m'.Apart cur ∧ ∃ offers, Offering cur m.scene offers m'.scene := by
  induction h with
  | refl => exact ⟨ha, [], .none⟩
  | tail _ hlast ih =>
    obtain ⟨hapart, offers, hoffering⟩ := ih
    obtain ⟨more, hmore⟩ := hlast.offering hapart
    exact ⟨hlast.apart hapart, _, hoffering.trans hmore⟩

/-- Whatever code does, to a given sink it can only make offers. -/
theorem Leads.offering {s s' : Scene} (h : Leads s s') {cur : SinkId} (hcur : cur < s.sinks.size) :
    ∃ offers, Offering cur s offers s' := by
  obtain ⟨l, hsteps⟩ := h [] ⟨[], []⟩
  exact (hsteps.offering (m := ⟨s, [.code], ⟨[], []⟩⟩) ⟨hcur, by simp [Frame.sink?]⟩).2

end Course

/-- The sink of a call is empty when the body begins, so at the end it holds just what the body
offered. -/
theorem Scene.Offering.methods_enter {s t : Scene} {c : Component} {nodes : List NodeId}
    {offers : List Offer} (h : Offering s.sinks.size (s.enter c nodes) offers t) :
    (t.sink s.sinks.size).methods = .ofList (Offer.methods offers) := by
  rw [(h.methods_eq (s.size_sinks_enter c nodes)).2, sink_enter]
  rfl

theorem Scene.get?_methods_settle {s : Scene} {result : Element} (hk : s.Knows result)
    (name : Option String) (request : Option RefRequest) (cur : SinkId) (n : NodeId)
    (key : String) :
    ((s.settle name request cur result).2.node n).methods.get? key =
      (if result.node? = some n then (s.sink cur).methods.get? key else none).or
        ((s.node n).methods.get? key) := by
  rw [(settlement_settle hk name request cur).node n]
  by_cases hn : result.node? = some n
  · simp only [hn, if_true]
    exact Dict.get?_setAll_entries _ _ key
  · simp only [hn, if_false, Option.none_or]

/-- Of every component call whose body has returned an element: whatever the body did, its sink was
written by a list of offers and by nothing else. The call fails just when the element is a fragment
and some name was written, and the error has the name of the component and the names written, in the
order of the first writing. Otherwise the element is returned and the notices of the children are
delivered. Before that, in the world `before`, a name that was written has the last method written
under it, if the element is a node, and every other name has what it had when the body returned.
What the call does before and after the body changes the methods of no other node, and attaches
nothing under the reserved name. -/
theorem Engine.create_attaches_methods {ω : Type} (b : Behaviours ω) (engine : Engine)
    (c : Component) {config : Config} {request : Option RefRequest}
    (hr : config.refRequest = .ok request) (children : List Element) {w w₁ : World ω}
    {result : Element}
    (hbody : b.render c (engine.propsIn config (flatten children) w.scene)
      { w with scene := w.scene.enter c (flatten children) } = (.ok result, w₁))
    (hk : w₁.scene.Knows result) :
    let start := w.scene.enter c (flatten children)
    let before := (engine.make b (.component c) config (flatten children) w).2
    (Course.Leads start w₁.scene →
      ∃ offers, Scene.Offering w.scene.sinks.size start offers w₁.scene) ∧
    ∀ offers, Scene.Offering w.scene.sinks.size start offers w₁.scene →
      (engine.create b (.component c) config children w =
        if result.isFragment = true ∧ Offer.names offers ≠ []
          then (.error (.methodsOnFragment c.name (Offer.names offers)), before)
          else (.ok result,
          (before.scene.tellings result children).foldl (fun w t => b.tell t.2 w t.1)
            { before with scene := before.scene.drained result children })) ∧
      (∀ n, result = .node n → ∀ name, (before.scene.node n).methods.get? name =
        (Offer.last? offers name).or ((w₁.scene.node n).methods.get? name)) ∧
      (∀ n, (start.node n).methods = (w.scene.node n).methods) ∧
      (∀ n, result ≠ .node n → (before.scene.node n).methods = (w₁.scene.node n).methods) ∧
      (∀ n, ((before.scene.drained result children).node n).methods =
        (before.scene.node n).methods) ∧
      ∀ n, (before.scene.node n).methods.get? Sink.gotParentName =
        (w₁.scene.node n).methods.get? Sink.gotParentName := by
  intro start before
  have hcur : w.scene.sinks.size < start.sinks.size := w.scene.size_sinks_enter c _
  have hbefore : before.scene = (w₁.scene.settle c.name request w.scene.sinks.size result).2 := by
    simp only [before, make_of_body hr hbody]
  refine ⟨fun h => h.offering hcur, fun offers hoffers => ?_⟩
  have hmethods := hoffers.methods_enter
  have hget : ∀ n name, (before.scene.node n).methods.get? name =
      (if result.node? = some n then Offer.last? offers name else none).or
      ((w₁.scene.node n).methods.get? name) := by
    intro n name
    rw [hbefore, Scene.get?_methods_settle hk, hmethods, Dict.get?_ofList]
    rfl
  refine ⟨?_, fun n hn name => ?_, fun n => rfl, fun n hn => ?_, fun n => ?_, fun n => ?_⟩
  · rw [create_of_body hr hbody, hmethods, Dict.keys_ofList]
    rfl
  · rw [hget, hn]
    simp only [Element.node?, if_true]
  · have hne : result.node? ≠ some n := fun h => hn (Element.node?_eq_some_iff.1 h)
    rw [hbefore, (Scene.settlement_settle hk c.name request w.scene.sinks.size).node, if_neg hne]
  · obtain ⟨waiting, hdrained⟩ := before.scene.node_drained result children n
    rw [hdrained]
    rfl
  · rw [hget, Offer.last?_gotParentName, ite_self, Option.none_or]

def doorOffers : List Offer :=
  [.method "open" ⟨1, "f", none⟩, .method Sink.gotParentName ⟨2, "g", none⟩,
    .method "close" ⟨3, "h", none⟩, .notice ⟨4, "i", none⟩, .method "open" ⟨5, "j", none⟩]

def doors : Behaviours Log :=
  { recording with
    render := fun _ props w =>
      let s := doorOffers.foldl (·.offer props.cur) w.scene
      match props.children with
      | [] => (.ok (.fragment s.addSlot.1 []), { w with scene := s.addSlot.2 })
      | n :: _ => (.ok (.node n), { w with scene := s }) }

def doorFrame : World Log :=
  let s := ((Scene.empty .off).addNode (.element "div")).2
  ⟨(s.modifyNode 0 (.setMethod "close" ⟨0, "e", none⟩)).modifyNode 0
    (.setMethod "hide" ⟨0, "e", none⟩), []⟩

theorem Engine.create_attaches_methods_of_overwritten :
    let door : ElementType := .component ⟨some "Door", "door"⟩
    let methods :=
      ((Engine.usual.make doors door .empty (flatten [.node 0]) doorFrame).2.scene.node 0).methods
    methods.get? "open" = some ⟨5, "j", none⟩ ∧ methods.get? "close" = some ⟨3, "h", none⟩ ∧
      methods.get? "hide" = some ⟨0, "e", none⟩ ∧ methods.get? Sink.gotParentName = none ∧
      (Engine.usual.create doors door .empty [] doorFrame).1 =
        .error (.methodsOnFragment (some "Door") ["open", "close"]) := by
  intro door methods
  have hr : Config.refRequest .empty = .ok none := rfl
  have hnode :=
    create_attaches_methods doors .usual ⟨some "Door", "door"⟩ hr [.node 0] (w := doorFrame) rfl
    ⟨fun n hn => List.mem_singleton.1 hn ▸ Nat.one_pos, fun f hf => by cases hf⟩
  have hfragment :=
    create_attaches_methods doors .usual ⟨some "Door", "door"⟩ hr [] (w := doorFrame) rfl
    ⟨fun n hn => (by cases hn), fun f hf => by cases List.mem_singleton.1 hf; exact Nat.one_pos⟩
  obtain ⟨-, hget, -, -, -, hreserved⟩ := hnode.2 doorOffers (.foldl 0 doorOffers _)
  obtain ⟨hcreate, -⟩ := hfragment.2 doorOffers (.other (.foldl 0 doorOffers _) (Nat.le_refl _) rfl)
  refine ⟨(hget 0 rfl "open").trans rfl, (hget 0 rfl "close").trans rfl,
    (hget 0 rfl "hide").trans rfl, (hreserved 0).trans rfl, ?_⟩
  rw [hcreate]
  rfl

end UiTree
