import UiTree.Proofs.Dict
import UiTree.Proofs.Host.Effect
import UiTree.Proofs.Recording
set_option autoImplicit false

/-!
Where the entries of a config go. Each entry but the ref becomes either an attribute of the new node
or one of its listeners, and its key alone decides which. Both keep the order of the config. No two
entries have one key, so no attribute is written twice; but several keys may stand for one event,
whose listeners then add up.
-/

namespace UiTree

namespace Listeners

theorem get_add (l : Listeners) (event : String) (v : Value) (e : String) :
    (l.add event v).get e = l.get e ++ if e = event then [v] else [] := by
  by_cases he : e = event
  · subst he
    simp [add, get]
  · simp [add, get, Dict.get?_set_of_ne _ _ he, he]

theorem length_flatMap_put (event : String) (vs : List Value) (l : List (String × List Value)) :
    ((Entries.put event vs l).flatMap (·.2)).length + ((Entries.lookup event l).getD []).length =
      (l.flatMap (·.2)).length + vs.length := by
  induction l with
  | nil => simp [Entries.put, Entries.lookup]
  | cons e rest ih =>
    obtain ⟨k, old⟩ := e
    by_cases hk : k = event
    · simp only [Entries.put, Entries.lookup, if_pos hk, List.flatMap_cons, List.length_append,
        Option.getD_some]
      omega
    · simp only [Entries.put, Entries.lookup, if_neg hk, List.flatMap_cons, List.length_append]
      omega

theorem total_add (l : Listeners) (event : String) (v : Value) :
    (l.add event v).total = l.total + 1 := by
  have hput := length_flatMap_put event (l.get event ++ [v]) l.table.entries
  simp only [List.length_append, List.length_singleton] at hput
  change _ + (l.get event).length = _ at hput
  change ((Entries.put event (l.get event ++ [v]) l.table.entries).flatMap (·.2)).length =
    (l.table.entries.flatMap (·.2)).length + 1
  omega

end Listeners

def filedUnder (events : EventSet) (event : Option String) (entries : List (String × Value)) :
    List (String × Value) :=
  entries.filter fun e => e.1 ≠ Config.refKey ∧ events.eventForKey? e.1 = event

theorem mem_filedUnder {events : EventSet} {event : Option String} {entries : List (String × Value)}
    {e : String × Value} : e ∈ filedUnder events event entries ↔
      e ∈ entries ∧ e.1 ≠ Config.refKey ∧ events.eventForKey? e.1 = event := by
  simp [filedUnder]

namespace NodeData

/-- The node `d'` is `d` with the entries added to it, each in its place. -/
structure Filed (events : EventSet) (entries : List (String × Value)) (d d' : NodeData) : Prop where
  attributes : d'.attributes.entries =
    d.attributes.entries ++ (filedUnder events none entries).map fun e => (e.1, e.2.text)
  listeners : ∀ event, d'.listeners.get event =
    d.listeners.get event ++ (filedUnder events (some event) entries).map (·.2)
  total : d'.attributes.size + d'.listeners.total =
    d.attributes.size + d.listeners.total + (entries.filter (·.1 ≠ Config.refKey)).length

variable {events : EventSet}

theorem Filed.trans {xs ys : List (String × Value)} {d d' d'' : NodeData} (h : Filed events xs d d')
    (h' : Filed events ys d' d'') : Filed events (xs ++ ys) d d'' where
  attributes := by
    rw [h'.attributes, h.attributes]
    simp [filedUnder]
  listeners event := by
    rw [h'.listeners, h.listeners]
    simp [filedUnder]
  total := by
    rw [h'.total, h.total, List.filter_append, List.length_append]
    omega

/-- One turn of the loop. The key is a new one, so an attribute comes at the end. -/
theorem filed_withEntry {d : NodeData} {entry : String × Value}
    (hnew : entry.1 ∉ d.attributes.keys) : Filed events [entry] d (d.withEntry events entry) := by
  obtain ⟨key, value⟩ := entry
  by_cases href : key = Config.refKey
  · have hsame : d.withEntry events (key, value) = d := if_pos href
    rw [hsame]
    exact ⟨by simp [filedUnder, href], fun event => by simp [filedUnder, href], by simp [href]⟩
  · have hlength : ([(key, value)].filter (·.1 ≠ Config.refKey)).length = 1 := by simp [href]
    cases hevent : events.eventForKey? key with
    | some event =>
      have hlisten : d.withEntry events (key, value) = d.listen event value := by
        simp [withEntry, href, hevent]
      rw [hlisten]
      refine ⟨by simp [filedUnder, hevent, listen], fun e => ?_, ?_⟩
      · rw [listen, Listeners.get_add]
        by_cases he : e = event
        · simp [filedUnder, hevent, href, he]
        · simp [filedUnder, hevent, he, Ne.symm he]
      · simp only [listen, Listeners.total_add, hlength]
        omega
    | none =>
      have hset : d.withEntry events (key, value) = d.setAttribute key value.text := by
        simp [withEntry, href, hevent]
      have hput : (d.setAttribute key value.text).attributes.entries = d.attributes.entries ++
          [(key, value.text)] :=
        Entries.put_of_notMem _ hnew
      rw [hset]
      refine ⟨?_, fun e => ?_, ?_⟩
      · rw [hput]
        simp [filedUnder, href, hevent]
      · simp [filedUnder, hevent, setAttribute]
      · simp only [Dict.size, hput, List.length_append, List.length_singleton, hlength]
        simp only [setAttribute]
        omega

theorem filed_foldl {entries : List (String × Value)} (hkeys : (Entries.keys entries).Nodup)
    {d : NodeData} (hnew : ∀ k ∈ Entries.keys entries, k ∉ d.attributes.keys) :
    Filed events entries d (entries.foldl (withEntry events) d) := by
  induction entries generalizing d with
  | nil => exact ⟨by simp [filedUnder], fun event => by simp [filedUnder], by simp⟩
  | cons entry rest ih =>
    obtain ⟨hfirst, hrest⟩ := List.nodup_cons.1 hkeys
    have hone : Filed events [entry] d (d.withEntry events entry) :=
      filed_withEntry (hnew entry.1 (by simp [Entries.keys]))
    refine hone.trans (ih hrest fun k hk hold => ?_)
    -- The first turn added no key but its own.
    simp only [Dict.keys, Entries.keys, hone.attributes, List.map_append, List.mem_append,
      List.map_map] at hold
    rcases hold with hold | hold
    · exact hnew k (List.mem_cons_of_mem _ hk) hold
    · obtain ⟨e, he, rfl⟩ := List.mem_map.1 hold
      obtain rfl : e = entry := List.mem_singleton.1 (mem_filedUnder.1 he).1
      exact hfirst hk

theorem filed_furnished (events : EventSet) (tag : String) (config : Config) :
    Filed events config.entries (.ofKind (.element tag)) (.furnished events tag config) :=
  filed_foldl config.distinct fun _ _ hold => by cases hold

theorem Filed.of_bare {entries : List (String × Value)} {d d' d'' : NodeData}
    (h : Filed events entries d d') (hbare : d''.bare = d'.bare) : Filed events entries d d'' := by
  have hattributes : d''.attributes = d'.attributes := (congrArg NodeData.attributes hbare :)
  have hlisteners : d''.listeners = d'.listeners := (congrArg NodeData.listeners hbare :)
  refine ⟨?_, fun event => ?_, ?_⟩
  · rw [hattributes, h.attributes]
  · rw [hlisteners, h.listeners]
  · rw [hattributes, hlisteners, h.total]

variable {entries : List (String × Value)} {kind : Kind} {d : NodeData} {key : String}
  {value : Value}

theorem Filed.of_mem_keys (h : Filed events entries (.ofKind kind) d)
    (hkey : key ∈ d.attributes.keys) : key ≠ Config.refKey ∧ events.eventForKey? key = none := by
  have hattributes : d.attributes.entries = (filedUnder events none entries).map fun e =>
    (e.1, e.2.text) :=
    h.attributes
  rw [Dict.keys, hattributes] at hkey
  simp only [Entries.keys, List.map_map, List.mem_map] at hkey
  obtain ⟨e, he, rfl⟩ := hkey
  exact (mem_filedUnder.1 he).2

theorem Filed.attribute_or_listener (h : Filed events entries (.ofKind kind) d)
    (hentry : (key, value) ∈ entries) (href : key ≠ Config.refKey) :
    (events.eventForKey? key = none ∧ (key, value.text) ∈ d.attributes.entries) ∨
      ∃ event, events.eventForKey? key = some event ∧ value ∈ d.listeners.get event ∧
        key ∉ d.attributes.keys := by
  cases hevent : events.eventForKey? key with
  | none =>
    refine .inl ⟨rfl, ?_⟩
    rw [h.attributes]
    exact List.mem_append_right _ (List.mem_map.2 ⟨_, mem_filedUnder.2 ⟨hentry, href, hevent⟩, rfl⟩)
  | some event =>
    refine .inr ⟨event, rfl, ?_, fun hkey => ?_⟩
    · rw [h.listeners]
      have hfiled := mem_filedUnder.2 ⟨hentry, href, hevent⟩
      exact List.mem_append_right _ (List.mem_map.2 ⟨_, hfiled, rfl⟩)
    · rw [(h.of_mem_keys hkey).2] at hevent
      cases hevent

end NodeData

namespace Engine

variable {ω : Type} {b : Behaviours ω} {engine : Engine} {tag : String} {config : Config}
  {es : List Element} {w w' : World ω} {result : Element}

theorem create_tag_filed (h : engine.create b (.tag tag) config es w = (.ok result, w')) :
    ∃ s : Scene, result = .node w.scene.tree.size ∧
      engine.make b (.tag tag) config (flatten es) w = (.ok result, { w with scene := s }) ∧
      w' = deliver b result (s.collect result (flatten es) (slotsOf es)).1
        { w with scene := (s.collect result (flatten es) (slotsOf es)).2 } ∧
      NodeData.Filed engine.events config.entries (.ofKind (.element tag))
          (s.node w.scene.tree.size) := by
  rw [create_eq] at h
  rcases hmade : engine.make b (.tag tag) config (flatten es) w with ⟨e | made, before⟩
  · rw [hmade] at h
    cases h
  · rw [hmade] at h
    cases h
    obtain ⟨n, s, hbuild, rfl, rfl⟩ := make_tag_eq_ok hmade
    obtain ⟨hn, request, -, happend⟩ := Scene.build_eq_ok hbuild
    let f := (w.scene.announceTag tag (flatten es)).furnish engine.events tag config request
    have hrow : f.node w.scene.tree.size = .furnished engine.events tag config :=
      (Scene.node_furnish _ engine.events tag config request _).trans (if_pos rfl)
    have hs : s.tree = (f.tree.appendAll w.scene.tree.size (flatten es)).2 :=
      (congrArg (fun made => made.2.tree) happend).symm
    refine ⟨s, congrArg Element.node hn, rfl, rfl,
      (NodeData.filed_furnished engine.events tag config).of_bare ?_⟩
    rw [Scene.node, hs, Tree.SameBare.appendAll, ← hrow]
    rfl

/-- Of every create call for a host element that succeeds, in the scene `s` in which nothing was
told yet: the attributes of the new node are the entries whose keys stand for no event, as texts;
the listeners of each event are the values of the entries whose keys stand for it; both in the order
of the config. So each entry but the ref is counted once, and it is found in one of the two
places. -/
theorem create_tag_files_entries (h : engine.create b (.tag tag) config es w = (.ok result, w')) :
    ∃ s : Scene, result = .node w.scene.tree.size ∧
      engine.make b (.tag tag) config (flatten es) w = (.ok result, { w with scene := s }) ∧
      w' = deliver b result (s.collect result (flatten es) (slotsOf es)).1
        { w with scene := (s.collect result (flatten es) (slotsOf es)).2 } ∧
      let d := s.node w.scene.tree.size
      d.attributes.entries =
        (filedUnder engine.events none config.entries).map (fun e => (e.1, e.2.text)) ∧
      (∀ event, d.listeners.get event =
        (filedUnder engine.events (some event) config.entries).map (·.2)) ∧
      d.attributes.size + d.listeners.total = (config.entries.filter (·.1 ≠ Config.refKey)).length ∧
      ∀ key value, (key, value) ∈ config.entries → key ≠ Config.refKey →
        (engine.events.eventForKey? key = none ∧ (key, value.text) ∈ d.attributes.entries) ∨
          ∃ event, engine.events.eventForKey? key = some event ∧ value ∈ d.listeners.get event ∧
            key ∉ d.attributes.keys := by
  obtain ⟨s, hresult, hmade, hlater, hfiled⟩ := create_tag_filed h
  refine ⟨s, hresult, hmade, hlater, hfiled.attributes, hfiled.listeners, ?_,
      fun key value hentry href =>
    hfiled.attribute_or_listener hentry href⟩
  exact hfiled.total.trans (Nat.zero_add _)

def mixedEntries : Config :=
  Dict.ofList [("onClick", .handler ⟨1, "f", none⟩), ("class", .str "x"), ("ref", .ref ⟨"k", 0⟩),
    ("onclick", .handler ⟨2, "g", none⟩)]

theorem create_tag_files_entries_of_mixed : ∃ (w' : World Log) (s : Scene),
    Engine.usual.create recording (.tag "a") mixedEntries [] ⟨.empty .off, []⟩ =
      (.ok (.node 0), w') ∧
    Engine.usual.make recording (.tag "a") mixedEntries [] ⟨.empty .off, []⟩ = (.ok (.node 0),
      ⟨s, []⟩) ∧
    (s.node 0).attributes.entries = [("class", "x")] ∧
    (s.node 0).listeners.get "click" = [.handler ⟨1, "f", none⟩, .handler ⟨2, "g", none⟩] ∧
    (s.node 0).attributes.size + (s.node 0).listeners.total = 3 := by
  have hcreate : Engine.usual.create recording (.tag "a") mixedEntries [] ⟨.empty .off, []⟩ =
    (.ok (.node 0), _) := rfl
  obtain ⟨s, -, hmade, -, hattributes, hlisteners, htotal, -⟩ := create_tag_files_entries hcreate
  exact ⟨_, s, hcreate, hmade, hattributes.trans rfl, (hlisteners "click").trans rfl,
    htotal.trans rfl⟩

end Engine

end UiTree
