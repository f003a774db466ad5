import UiTree.Proofs.Options.Lexemes
set_option autoImplicit false

/-!
A document with no member but `events`, read from its first character to its last. Each part of the
text leads from one place of the reader to the next, and nowhere on the way is the document over.
-/

namespace UiTree.Options.Reader

/-- The way over the text, from place to place. At each place but the last, the document wants
more. -/
inductive Leads : Reader → List Char → Reader → Prop where
  | here (r : Reader) : Leads r [] r
  | step {r r₁ r' : Reader} {c : Char} {cs : List Char} (hwants : r.finish = .error .truncated)
      (hc : r.step c = .ok r₁) (h : Leads r₁ cs r') : Leads r (c :: cs) r'

theorem run_cons_of_ok {r r' : Reader} {c : Char} (h : r.step c = .ok r') (cs : List Char) :
    r.run (c :: cs) = r'.run cs := by
  change (r.step c >>= fun t => t.run cs) = _
  rw [h]
  rfl

namespace Leads

variable {r r₁ r₂ : Reader} {cs ds : List Char}

theorem append (h : Leads r cs r₁) (h' : Leads r₁ ds r₂) : Leads r (cs ++ ds) r₂ := by
  induction h with
  | here => exact h'
  | step hwants hc _ ih => exact .step hwants hc (ih h')

theorem run (h : Leads r cs r₁) : r.run cs = .ok r₁ := by
  induction h with
  | here => rfl
  | step _ hc _ ih => rw [run_cons_of_ok hc, ih]

theorem run_append (h : Leads r cs r₁) (rest : List Char) : r.run (cs ++ rest) = r₁.run rest := by
  rw [Reader.run_append, h.run]
  rfl

end Leads

/-- A place that passes over blanks. -/
structure Rests (r : Reader) : Prop where
  wants : r.finish = .error .truncated
  blank : ∀ c, isBlank c = true → r.step c = .ok r

theorem isBlank_of_mem {c : Char} (hc : c ∈ [' ', '\t', '\n', '\r']) : isBlank c = true := by
  simpa [isBlank, or_assoc] using hc

theorem Rests.leads {r : Reader} (hr : Rests r) {b : List Char} (hb : Blank b) : r.Leads b r := by
  induction b with
  | nil => exact .here r
  | cons c b ih =>
    obtain ⟨hc, hb⟩ := List.cons_subset.1 hb
    exact .step hr.wants (hr.blank c (isBlank_of_mem hc)) (ih hb)

/-- Where a string stands in the document, what its reader takes is taken, and the place stays the
same. -/
structure Hosts (place : StringReader → Reader) : Prop where
  wants : ∀ s, (place s).finish = .error .truncated
  more : ∀ s s' c, s.step c = .ok (.more s') → (place s).step c = .ok (place s')

theorem Hosts.leads {place : StringReader → Reader} (hplace : Hosts place) {s s' : StringReader}
    {cs : List Char} (h : s.Takes cs s') : (place s).Leads cs (place s') := by
  induction cs generalizing s with
  | nil =>
    cases h
    exact .here _
  | cons c cs ih =>
    obtain ⟨s₁, hc, hcs⟩ := h
    exact .step (hplace.wants s) (hplace.more s s₁ c hc) (ih hcs)

theorem Hosts.leads_body {place : StringReader → Reader} (hplace : Hosts place) (p : Bool)
    {r : Reader} {s : String} {ks : List Char} (hwants : r.finish = .error .truncated)
    (hopen : r.step '"' = .ok (place (.opened p)))
    (h : Quotes s ks) :
    ∃ init text, ks = init ++ ['"'] ∧ (p = true → text = s.toList.reverse) ∧
      r.Leads init (place ⟨p, text, .plain⟩) := by
  obtain ⟨h⟩ := h
  rename_i body
  obtain ⟨text, htakes, htext⟩ := StringReader.takes_spells p [] h
  refine ⟨'"' :: body, text, rfl, fun hp => ?_, .step hwants hopen (hplace.leads htakes)⟩
  rw [htext hp, List.append_nil]

theorem hosts_itemText (home : Home) (items : List String) : Hosts (itemText home items) where
  wants _ := rfl
  more s s' c h := by
    rw [step, h]
    rfl

theorem hosts_keyText (found : Option (List String)) : Hosts (keyText found) where
  wants _ := rfl
  more s s' c h := by
    rw [step, h]
    rfl

structure Due (r : Reader) (home : Home) (items : List String) : Prop extends Rests r where
  start : ∀ c, isBlank c = false → c ≠ ']' → r.step c = itemStart home items c

theorem due_opening (home : Home) : Due (opening home) home [] where
  wants := rfl
  blank c hc := by simp [step, hc]
  start c hc hend := by simp [step, hc, hend]

theorem due_item (home : Home) (items : List String) : Due (item home items) home items where
  wants := rfl
  blank c hc := by simp [step, hc]
  start c hc _ := by simp [step, hc]

theorem rests_between (home : Home) (items : List String) : Rests (between home items) where
  wants := rfl
  blank c hc := by simp [step, hc]

theorem leads_item {r : Reader} {home : Home} {items : List String} (hr : r.Due home items)
    {s : String} {cs : List Char} (h : Padded (.string s) cs) :
    r.Leads cs (between home (items ++ [s])) := by
  cases h with
  | mk hb hv hb' =>
    cases hv with
    | string hq =>
      obtain ⟨init, text, rfl, htext, hbody⟩ :=
        (hosts_itemText home items).leads_body true hr.wants (hr.start '"' rfl (by decide)) hq
      have hclose : (itemText home items ⟨true, text, .plain⟩).step '"' =
          .ok (between home (items ++ [s])) := by
        rw [step, StringReader.step_quote, htext rfl, List.reverse_reverse, String.ofList_toList]
        rfl
      exact ((hr.leads hb).append (hbody.append (.step rfl hclose (.here _)))).append
        ((rests_between home _).leads hb')

theorem leads_items {r : Reader} {home : Home} {items ss : List String} (hr : r.Due home items)
    {cs : List Char} (h : WritesItems (ss.map .string) cs) :
    r.Leads cs (between home (items ++ ss)) := by
  induction ss generalizing r items cs with
  | nil => cases h
  | cons s rest ih =>
    rw [List.map_cons] at h
    generalize hvs : rest.map Json.string = vs at h
    cases h with
    | last hv =>
      obtain rfl := List.map_eq_nil_iff.1 hvs
      exact leads_item hr hv
    | more hv hrest =>
      subst hvs
      have hcomma : (between home (items ++ [s])).step ',' = .ok (item home (items ++ [s])) := rfl
      have hmore := ih (due_item home (items ++ [s])) hrest
      rw [List.append_assoc] at hmore
      exact (leads_item hr hv).append (.step rfl hcomma hmore)

theorem leads_list (home : Home) {ss : List String} {cs : List Char}
    (h : Writes (.list (ss.map .string)) cs) : (events home).Leads cs (listDone ss home) := by
  have hopen : (events home).step '[' = .ok (opening home) := rfl
  generalize hvs : ss.map Json.string = vs at h
  cases h with
  | noItems hb =>
    obtain rfl := List.map_eq_nil_iff.1 hvs
    have hclose : (opening home).step ']' = .ok (listDone [] home) := rfl
    exact .step rfl hopen (((due_opening home).leads hb).append (.step rfl hclose (.here _)))
  | items hitems =>
    subst hvs
    have hclose : (between home ss).step ']' = .ok (listDone ss home) := rfl
    exact .step rfl hopen
      ((leads_items (due_opening home) hitems).append (.step rfl hclose (.here _)))

structure KeyDue (r : Reader) (found : Option (List String)) : Prop extends Rests r where
  quote : r.step '"' = .ok (keyText found (.opened true))

theorem keyDue_opened : KeyDue opened none where
  wants := rfl
  blank c hc := by simp [step, hc]
  quote := rfl

theorem keyDue_key (found : Option (List String)) : KeyDue (key found) found where
  wants := rfl
  blank c hc := by simp [step, hc]
  quote := rfl

theorem rests_colon (found : Option (List String)) (known : Bool) : Rests (colon found known) where
  wants := rfl
  blank c hc := by simp [step, hc]

theorem rests_events (home : Home) : Rests (events home) where
  wants := rfl
  blank c hc := by simp [step, hc]

theorem rests_member (found : Option (List String)) : Rests (member found) where
  wants := rfl
  blank c hc := by simp [step, memberStep, hc]

theorem KeyDue.leads_key {r : Reader} {found : Option (List String)} (hr : r.KeyDue found)
    {k : String} {b ks : List Char} (hb : Blank b) (hk : Quotes k ks) :
    ∃ init r', ks = init ++ ['"'] ∧ r.Leads (b ++ init) r' ∧ r'.finish = .error .truncated ∧
      r'.step '"' = keyDone found k := by
  obtain ⟨init, text, rfl, htext, hbody⟩ :=
    (hosts_keyText found).leads_body true hr.wants hr.quote hk
  refine ⟨init, _, rfl, (hr.leads hb).append hbody, rfl, ?_⟩
  rw [step, StringReader.step_quote, htext rfl, List.reverse_reverse, String.ofList_toList]
  rfl

theorem KeyDue.leads_colon {r : Reader} {found : Option (List String)} (hr : r.KeyDue found)
    {k : String} {known : Bool} {b b' ks : List Char} (hb : Blank b) (hk : Quotes k ks)
    (hb' : Blank b')
    (hdone : keyDone found k = .ok (colon found known)) :
    r.Leads (b ++ ks ++ b' ++ [':'])
    (if known then events .member else skipping found (.value [])) := by
  obtain ⟨init, r', rfl, hkey, hwants, hquote⟩ := hr.leads_key hb hk
  have hcolon :
    (colon found known).step ':' =
    .ok (if known then events .member else skipping found (.value [])) := rfl
  have hname :=
    hkey.append (.step hwants (hquote.trans hdone) ((rests_colon found known).leads hb'))
  have hall := hname.append (.step rfl hcolon (.here _))
  simpa using hall

theorem leads_member {r : Reader} (hr : r.KeyDue none) {ss : List String} {cs : List Char}
    (h : WritesMember ("events", .list (ss.map .string)) cs) : r.Leads cs (member (some ss)) := by
  cases h with
  | mk hb hk hb' hv =>
    cases hv with
    | mk hb₁ hv hb₂ =>
      have hdone : keyDone none "events" = .ok (colon none true) := rfl
      have hcolon := hr.leads_colon hb hk hb' hdone
      have hlist := ((rests_events .member).leads hb₁).append (leads_list .member hv)
      have hvalue := hlist.append ((rests_member _).leads hb₂)
      exact hcolon.append hvalue

theorem leads_object {ss : List String} {cs : List Char}
    (h : Writes (.object [("events", .list (ss.map .string))]) cs) :
    start.Leads cs (.over ⟨ss⟩) := by
  cases h with
  | members h =>
    cases h with
    | last hm =>
      have hopen : start.step '\x7b' = .ok opened := rfl
      have hclose : (member (some ss)).step '\x7d' = .ok (.over ⟨ss⟩) := rfl
      exact .step rfl hopen ((leads_member keyDue_opened hm).append (.step rfl hclose (.here _)))
    | more _ hms => cases hms

end UiTree.Options.Reader
