import UiTree.Proofs.Host.Entries
set_option autoImplicit false

/-!
Events and their keys. The key of an event has the first letter of the event as a capital, and a key
is read with its first letter small. Reading the key of an event gives the event back just when the
first letter comes back. A letter does not that is a capital itself, or whose capital has another
small form. A handler that is bound to such an event goes to another event, or becomes an attribute.
-/

namespace UiTree

namespace Text

/-- What is left of a character that was made a capital, when the first character of that is made
small. -/
def recased (c : Char) : List Char := mapFirst lowerForm (upperForm c)

theorem upperForm_ne_nil (c : Char) : upperForm c ≠ [] := by
  have hlisted : ∀ e ∈ upperExpansions, e.2 ≠ [] := by decide
  unfold upperForm caseForm
  split
  · rename_i form hform
    obtain ⟨before, after, heq, -⟩ := List.lookup_eq_some_iff.1 hform
    have hmem : (c.toNat, form) ∈ upperExpansions := by simp [heq]
    simpa using hlisted _ hmem
  · split <;> simp

theorem mapFirst_append (form : Char → List Char) {cs : List Char} (h : cs ≠ [])
    (rest : List Char) : mapFirst form (cs ++ rest) = mapFirst form cs ++ rest := by
  cases cs with
  | nil => exact absurd rfl h
  | cons c cs => simp [mapFirst]

theorem decapitalize_capitalize_eq_iff {s : String} {c : Char} {rest : List Char}
    (h : s.toList = c :: rest) : decapitalize (capitalize s) = s ↔ recased c = [c] := by
  have hback : (decapitalize (capitalize s)).toList = recased c ++ rest := by
    simp only [decapitalize, capitalize, String.toList_ofList, h]
    exact mapFirst_append lowerForm (upperForm_ne_nil c) rest
  rw [← String.toList_inj, hback, h, ← List.singleton_append, List.append_left_inj]

theorem caseForm_of_ascii {expansions : List (Nat × List Nat)} (run : CaseRun) {runs : List CaseRun}
    (hexpansions : ∀ e ∈ expansions, 128 ≤ e.1) (hruns : ∀ r ∈ runs, 128 ≤ r.first) {c : Char}
    (hc : c.toNat < 128) :
    caseForm expansions (run :: runs) c = [Char.ofNat ((run.form? c.toNat).getD c.toNat)] := by
  have hlookup : expansions.lookup c.toNat = none := by
    rw [List.lookup_eq_none_iff]
    intro e he
    have := hexpansions e he
    simp only [bne_iff_ne, ne_eq]
    omega
  have hlater : runs.findSome? (·.form? c.toNat) = none := by
    rw [List.findSome?_eq_none_iff]
    intro r hr
    have := hruns r hr
    exact if_neg fun h => by omega
  rw [caseForm, hlookup, List.findSome?_cons, hlater]
  cases run.form? c.toNat <;> simp

theorem upperForm_of_ascii {c : Char} (hc : c.toNat < 128) : upperForm c = [c.toUpper] := by
  have hform : ∀ n < 128, Char.ofNat ((CaseRun.form? ⟨0x61, 0x7a, 1, 0x41⟩ n).getD n) =
      (Char.ofNat n).toUpper := by
    decide +kernel
  have hruns : ∀ r ∈ upperRuns.tail, 128 ≤ r.first := by decide +kernel
  have hone := hform c.toNat hc
  rw [Char.ofNat_toNat] at hone
  rw [← hone]
  exact caseForm_of_ascii _ (by decide) hruns hc

theorem lowerForm_of_ascii {c : Char} (hc : c.toNat < 128) : lowerForm c = [c.toLower] := by
  have hform : ∀ n < 128, Char.ofNat ((CaseRun.form? ⟨0x41, 0x5a, 1, 0x61⟩ n).getD n) =
      (Char.ofNat n).toLower := by
    decide +kernel
  have hruns : ∀ r ∈ lowerRuns.tail, 128 ≤ r.first := by decide +kernel
  have hone := hform c.toNat hc
  rw [Char.ofNat_toNat] at hone
  rw [← hone]
  exact caseForm_of_ascii _ (by decide) hruns hc

/-- Of the first 128 characters, all come back but the capital letters. -/
theorem recased_eq_iff_of_ascii {c : Char} (hc : c.toNat < 128) : recased c = [c] ↔
    c.isUpper = false := by
  have hall : ∀ n < 128, (Char.ofNat n).toUpper.toNat < 128 ∧
      ((Char.ofNat n).toUpper.toLower = Char.ofNat n ↔ (Char.ofNat n).isUpper = false) := by
    decide +kernel
  have hone := hall c.toNat hc
  rw [Char.ofNat_toNat] at hone
  have hback : recased c = [c.toUpper.toLower] := by
    rw [recased, upperForm_of_ascii hc, mapFirst, lowerForm_of_ascii hone.1, List.append_nil]
  rw [hback, List.singleton_inj]
  exact hone.2

end Text

namespace EventSet

def readBack (event : String) : String := Text.decapitalize (Text.capitalize event)

theorem eventForKey?_keyForEvent (s : EventSet) {event : String} (h : event ≠ "") :
    s.eventForKey? (keyForEvent event) =
      if s.contains (readBack event) then some (readBack event) else none := by
  have hne : (Text.capitalize event).toList ≠ [] := by
    cases hevent : event.toList with
    | nil => exact absurd (String.toList_eq_nil_iff.1 hevent) h
    | cons c rest =>
      simp [Text.capitalize, hevent, Text.mapFirst, Text.upperForm_ne_nil]
  obtain ⟨u, us, hus⟩ := List.exists_cons_of_ne_nil hne
  have hkey : (keyForEvent event).toList = 'o' :: 'n' :: u :: us := by
    rw [keyForEvent, String.toList_append, hus]
    rfl
  have hread : Text.decapitalize (String.ofList (u :: us)) = readBack event := by
    rw [← hus, String.ofList_toList, readBack]
  simp only [eventForKey?, hkey, hread]

theorem keyForEvent_ne_refKey (event : String) : keyForEvent event ≠ Config.refKey := by
  intro heq
  have hchars : 'o' :: 'n' :: (Text.capitalize event).toList = ['r', 'e', 'f'] := by
    rw [← String.toList_inj, keyForEvent, String.toList_append] at heq
    exact heq
  cases hchars

theorem eventForKey?_keyForEvent_eq_iff (s : EventSet) {event : String}
    (hevent : s.contains event = true) (hname : event ≠ "") :
    s.eventForKey? (keyForEvent event) = some event ↔ readBack event = event := by
  rw [s.eventForKey?_keyForEvent hname]
  constructor
  · intro hread
    split at hread
    · exact Option.some.inj hread
    · cases hread
  · intro hback
    rw [hback, if_pos hevent]

end EventSet

theorem Entries.mem_put_self {α : Type} (key : String) (value : α) (l : List (String × α)) :
    (key, value) ∈ put key value l := by
  induction l with
  | nil => simp [put]
  | cons e rest ih =>
    obtain ⟨k, a⟩ := e
    by_cases hk : k = key <;> simp [put, hk, ih]

namespace Engine

variable {ω : Type} {b : Behaviours ω} {engine : Engine} {tag event : String} {config : Config}
  {es : List Element} {w w' : World ω} {result : Element}

/-- Of every event that an engine knows, and of every host element that it makes with a handler for
that event: the key of the event is read as the event itself if and only if the first letter comes
back, which of the first 128 characters all do but the capital letters. Then the handler is a
listener for the event. Otherwise it is a listener for the event that the key is read as, or, if the
engine does not know that one, it is an attribute under the key. -/
theorem create_on_binds_iff (hevent : engine.events.contains event = true) (hname : event ≠ "")
    {handler : Closure}
    (h : engine.create b (.tag tag) (config.on event handler) es w = (.ok result, w')) :
    let key := EventSet.keyForEvent event
    let back := EventSet.readBack event
    (engine.events.eventForKey? key = some event ↔ back = event) ∧
    (∀ c rest, event.toList = c :: rest →
      (back = event ↔ Text.recased c = [c]) ∧
      (c.toNat < 128 → (back = event ↔ c.isUpper = false))) ∧
    ∃ s : Scene, result = .node w.scene.tree.size ∧
      engine.make b (.tag tag) (config.on event handler) (flatten es) w =
      (.ok result, { w with scene := s }) ∧
      let d := s.node w.scene.tree.size
      (back = event → .handler handler ∈ d.listeners.get event) ∧
      (engine.events.contains back = true → .handler handler ∈ d.listeners.get back ∧
        key ∉ d.attributes.keys) ∧
      (engine.events.contains back = false → (key, "[handler]") ∈ d.attributes.entries) := by
  intro key back
  obtain ⟨s, hresult, hmade, -, hfiled⟩ := create_tag_filed h
  have hentry : (key, Value.handler handler) ∈ (config.on event handler).entries :=
    Entries.mem_put_self _ _ config.entries
  have hplace := hfiled.attribute_or_listener hentry (EventSet.keyForEvent_ne_refKey event)
  rw [engine.events.eventForKey?_keyForEvent hname] at hplace
  have hknown : engine.events.contains back = true →
    .handler handler ∈ (s.node w.scene.tree.size).listeners.get back ∧
      key ∉ (s.node w.scene.tree.size).attributes.keys := by
    intro hback
    rw [if_pos hback] at hplace
    simpa using hplace
  refine ⟨engine.events.eventForKey?_keyForEvent_eq_iff hevent hname,
    fun c rest hc => ?_, s, hresult, hmade, fun hback => ?_, hknown, fun hback => ?_⟩
  · have hfirst : back = event ↔ Text.recased c = [c] := Text.decapitalize_capitalize_eq_iff hc
    exact ⟨hfirst, fun hascii => hfirst.trans (Text.recased_eq_iff_of_ascii hascii)⟩
  · rw [hback] at hknown
    exact (hknown hevent).1
  · rw [if_neg (ne_true_of_eq_false hback)] at hplace
    simpa [Value.text] using hplace

/-- An engine that knows `Click` makes an attribute of a handler for it, and one that knows `click`
binds it. With both known, a handler for `Click` hears the small one. -/
theorem create_on_binds_iff_of_click : ∃ s₁ s₂ s₃ : Scene,
    (Engine.mk ⟨["Click"]⟩).make recording (.tag "a") (Config.on .empty "Click" ⟨1, "f", none⟩)
    [] ⟨.empty .off, []⟩ =
      (.ok (.node 0), ⟨s₁, []⟩) ∧
    EventSet.eventForKey? ⟨["Click"]⟩ "onClick" ≠ some "Click" ∧
    ("onClick", "[handler]") ∈ (s₁.node 0).attributes.entries ∧
    (Engine.mk ⟨["click"]⟩).make recording (.tag "a") (Config.on .empty "click" ⟨1, "f", none⟩)
    [] ⟨.empty .off, []⟩ =
      (.ok (.node 0), ⟨s₂, []⟩) ∧
    .handler ⟨1, "f", none⟩ ∈ (s₂.node 0).listeners.get "click" ∧
    "onClick" ∉ (s₂.node 0).attributes.keys ∧
    (Engine.mk ⟨["Click", "click"]⟩).make recording (.tag "a")
    (Config.on .empty "Click" ⟨1, "f", none⟩) []
      ⟨.empty .off, []⟩ = (.ok (.node 0), ⟨s₃, []⟩) ∧
    .handler ⟨1, "f", none⟩ ∈ (s₃.node 0).listeners.get "click" := by
  have hcapital : (Engine.mk ⟨["Click"]⟩).create recording (.tag "a")
    (Config.on .empty "Click" ⟨1, "f", none⟩) [] ⟨.empty .off, []⟩ = (.ok (.node 0), _) := rfl
  have hsmall : (Engine.mk ⟨["click"]⟩).create recording (.tag "a")
    (Config.on .empty "click" ⟨1, "f", none⟩) [] ⟨.empty .off, []⟩ = (.ok (.node 0), _) := rfl
  have hboth : (Engine.mk ⟨["Click", "click"]⟩).create recording (.tag "a")
    (Config.on .empty "Click" ⟨1, "f", none⟩) [] ⟨.empty .off, []⟩ = (.ok (.node 0), _) := rfl
  obtain ⟨hread, -, s₁, -, hmade₁, -, -, hattribute⟩ :=
    create_on_binds_iff (by decide) (by decide) hcapital
  obtain ⟨-, -, s₂, -, hmade₂, hlistens, hnamed, -⟩ :=
    create_on_binds_iff (by decide) (by decide) hsmall
  obtain ⟨-, -, s₃, -, hmade₃, -, hother, -⟩ := create_on_binds_iff (by decide) (by decide) hboth
  refine ⟨s₁, s₂, s₃, hmade₁, fun hsame => ?_, hattribute (by decide), hmade₂, hlistens (by decide),
    (hnamed (by decide)).2, hmade₃, (hother (by decide)).1⟩
  exact absurd (hread.1 hsame) (by decide)

end Engine

end UiTree
