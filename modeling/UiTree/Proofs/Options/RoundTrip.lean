import UiTree.Proofs.Options.Events
set_option autoImplicit false

/-!
Options that were written read back as the same. What is written for them is one of the texts of an
object with the one member `events`, and that text leads from the start of a document to its end.
On the way over the whole text every place but the last wants more, so wherever the text is cut, its
end is reported and nothing else.
-/

namespace UiTree.Options

theorem isHex_lowHex {d : Nat} (hd : d < 16) : IsHex (lowHex d) d := ⟨hd, .inl rfl⟩

theorem spellsChar_jsonChar (c : Char) : SpellsChar c (jsonChar c) := by
  unfold jsonChar
  split
  case h_8 hquote hslash _ _ _ _ _ =>
    split
    · rename_i hlow
      have hzero : IsHex '0' 0 := isHex_lowHex (by decide)
      have hhigh : IsHex (lowHex (c.toNat / 16)) (c.toNat / 16) := isHex_lowHex (by omega)
      have hdigits := Hex4.mk hzero hzero hhigh (isHex_lowHex (Nat.mod_lt c.toNat (by decide)))
      have hnumber : ((0 * 16 + 0) * 16 + c.toNat / 16) * 16 + c.toNat % 16 = c.toNat := by omega
      rw [hnumber] at hdigits
      exact .unit hdigits
    · rename_i hhigh
      exact .plain hquote hslash (Nat.not_lt.1 hhigh)
  all_goals exact .short (by decide)

theorem spells_jsonChars (cs : List Char) : Spells cs (cs.flatMap jsonChar) := by
  induction cs with
  | nil => exact .nil
  | cons c cs ih => exact .cons (spellsChar_jsonChar c) ih

theorem padded_jsonString {b b' : List Char} (hb : Blank b) (s : String) (hb' : Blank b') :
    Padded (.string s) (b ++ jsonString s ++ b') :=
  .mk hb (.string (.mk (spells_jsonChars s.toList))) hb'

theorem writesItems_jsonItems (s : String) (rest : List String) {b : List Char} (hb : Blank b) :
    WritesItems ((s :: rest).map .string) (jsonItems (s :: rest) ++ b) := by
  have hindent : Blank "\n    ".toList := by decide
  induction rest generalizing s with
  | nil => exact .last (padded_jsonString hindent s hb)
  | cons s' rest ih =>
    have hfirst := padded_jsonString hindent s (List.nil_subset _)
    rw [List.append_nil] at hfirst
    have htext : jsonItems (s :: s' :: rest) ++ b =
        ("\n    ".toList ++ jsonString s) ++ ',' :: (jsonItems (s' :: rest) ++ b) :=
      List.append_assoc _ _ _
    rw [htext]
    exact .more hfirst (ih s')

theorem writes_jsonList (items : List String) : Writes (.list (items.map .string))
    (jsonList items) := by
  cases items with
  | nil => exact .noItems (List.nil_subset _)
  | cons s rest =>
    have hindent : Blank "\n  ".toList := by decide
    have h := Writes.items (writesItems_jsonItems s rest hindent)
    rw [List.cons_append, List.append_assoc] at h
    exact h

theorem writes_json (o : Options) :
    Writes (.object [("events", .list (o.events.map .string))]) o.json := by
  have hindent : Blank "\n  ".toList := by decide
  have hname : Quotes "events" (jsonString "events") := .mk (spells_jsonChars "events".toList)
  have hlist : Padded (.list (o.events.map .string))
      (" ".toList ++ jsonList o.events ++ "\n".toList) :=
    .mk (by decide) (writes_jsonList o.events) (by decide)
  have htext : o.json = "\x7b\n  \"events\": ".toList ++
      (jsonList o.events ++ "\n".toList ++ ['\x7d']) :=
    (List.append_assoc _ _ _).trans
      (congrArg _ (List.append_assoc (jsonList o.events) "\n".toList ['\x7d']).symm)
  rw [htext]
  exact .members (.last (.mk hindent hname (List.nil_subset _) hlist))

namespace Reader

theorem run_json (o : Options) : start.run o.json = .ok (.over o) :=
  (leads_object (writes_json o)).run

end Reader

/-- Written options read back as the same, whatever strings they have. -/
theorem ofJson_toJson (o : Options) : ofJson o.toJson = .ok o := by
  rw [ofJson, toJson, String.toList_ofList, readJson, Reader.run_json]
  rfl

theorem Reader.Leads.cut {r r' : Reader} {cs p : List Char} (h : r.Leads cs r') (hp : p <+: cs)
    (hne : p ≠ cs) : ∃ r₁, r.run p = .ok r₁ ∧ r₁.finish = .error .truncated := by
  induction h generalizing p with
  | here => exact absurd (List.prefix_nil.1 hp) hne
  | @step r r₁ _ c cs hwants hc _ ih =>
    cases p with
    | nil => exact ⟨r, rfl, hwants⟩
    | cons d p =>
      obtain ⟨rfl, htail⟩ := List.cons_prefix_cons.1 hp
      rw [run_cons_of_ok hc]
      exact ih htail fun heq => hne (congrArg (d :: ·) heq)

/-- Of all options and every beginning of what is written for them that is not the whole: it is
refused because it ends too early. -/
theorem ofJson_of_cut (o : Options) (p : String) (hp : p.toList <+: o.toJson.toList)
    (hne : p ≠ o.toJson) : ∃ refusal, ofJson p = .error refusal ∧ refusal.category = "eof" := by
  have hlist : p.toList ≠ o.json := by
    intro heq
    exact hne (String.toList_inj.1 (heq.trans String.toList_ofList.symm))
  rw [toJson, String.toList_ofList] at hp
  obtain ⟨r, hrun, hfinish⟩ := (Reader.leads_object (writes_json o)).cut hp hlist
  refine ⟨.truncated, ?_, rfl⟩
  rw [ofJson, readJson, hrun]
  exact hfinish

/-- Options with a control character, cut inside its escape; and cut before the first character. -/
theorem ofJson_of_cut_of_control :
    let o : Options := ⟨["a\x01"]⟩
    o.toJson = "\x7b\n  \"events\": [\n    \"a\\u0001\"\n  ]\n\x7d" ∧
      (∃ refusal, ofJson "\x7b\n  \"events\": [\n    \"a\\u00" = .error refusal ∧
        refusal.category = "eof") ∧
      ∃ refusal, ofJson "" = .error refusal ∧ refusal.category = "eof" := by
  intro o
  have hjson : o.toJson = "\x7b\n  \"events\": [\n    \"a\\u0001\"\n  ]\n\x7d" := by decide
  refine ⟨hjson, ofJson_of_cut o _ ?_ (by decide), ofJson_of_cut o _ List.nil_prefix (by decide)⟩
  rw [hjson]
  exact ⟨"01\"\n  ]\n\x7d".toList, rfl⟩

end UiTree.Options
