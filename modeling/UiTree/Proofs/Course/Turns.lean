import UiTree.Proofs.Course.Calls
set_option autoImplicit false

/-!
Whole runs. The code of a program makes one turn after the other: it does an operation, creates an
element or dispatches an event. A run of turns is a course of steps, whatever calls it runs on, so
the code of a body or a callback may be given as such a run.

A program is shown whose bodies create elements and whose callbacks create again, with the fragments
that were used before.
-/

namespace UiTree.Course

open Relation

variable {ω : Type}

/-- One turn of a program's code. With an operation the program may change its own state, but not
its log. -/
inductive Turn (b : Behaviours ω) (inOrder : World ω → Prop) (fit : Scene → Config → Prop)
    (a : Account ω) : World ω → World ω → Prop where
  | act {w w' : World ω} (h : Act w.scene w'.scene) (hlog : a.logOf w' = a.logOf w)
      (hw : inOrder w') : Turn b inOrder fit a w w'
  | create {w : World ω} (engine : Engine) (type : ElementType) {config : Config}
      {children : List Element} (hfit : fit w.scene config)
      (hc : ∀ e ∈ children, w.scene.Knows e) :
      Turn b inOrder fit a w (engine.create b type config children w).2
  | dispatch {w : World ω} (kind : String) {target : NodeId} (ht : target < w.scene.tree.size) :
      Turn b inOrder fit a w (dispatch b kind target w).2

abbrev Runs (b : Behaviours ω) (inOrder : World ω → Prop) (fit : Scene → Config → Prop)
    (a : Account ω) : World ω → World ω → Prop := ReflTransGen (Turn b inOrder fit a)

variable {b : Behaviours ω} {inOrder : World ω → Prop} {fit : Scene → Config → Prop} {a : Account ω}
  {w w' : World ω}

theorem Turn.leads (h : Turn b inOrder fit a w w') (hb : Follows b inOrder fit a) (hw : inOrder w)
    (hwf : w.scene.tree.WellFormed) : a.Leads [] w w' ∧ inOrder w' := by
  cases h with
  | act h hlog hw' => exact ⟨.act h hlog, hw'⟩
  | create engine type hfit hc =>
    obtain ⟨hlead, horder, -⟩ := hb.create engine type hw hfit hc
    exact ⟨hlead, horder⟩
  | dispatch kind ht => exact hb.dispatch kind hw hwf ht

theorem Account.Leads.wellFormed {calls : Log} (h : a.Leads calls w w')
    (hwf : w.scene.tree.WellFormed) : w'.scene.tree.WellFormed := by
  obtain ⟨l, hsteps, -⟩ := h [] ⟨[], []⟩
  exact hsteps.wellFormed hwf

theorem Runs.leads (h : Runs b inOrder fit a w w') (hb : Follows b inOrder fit a) (hw : inOrder w)
    (hwf : w.scene.tree.WellFormed) : a.Leads [] w w' ∧ inOrder w' := by
  induction h with
  | refl => exact ⟨.refl w, hw⟩
  | tail _ hlast ih =>
    obtain ⟨hlead, horder⟩ := ih
    obtain ⟨hnext, horder'⟩ := hlast.leads hb horder (hlead.wellFormed hwf)
    exact ⟨hlead.trans hnext, horder'⟩

/-- A program that writes down what its notices are told, and keeps fragments to create with. -/
structure Keeper where
  heard : Log
  kept : List Element

def Keeper.hear (k : Keeper) (call : Answer × NodeId) : Keeper :=
  { k with heard := k.heard ++ [call] }

def Keeper.keep (k : Keeper) (e : Element) : Keeper := { k with kept := k.kept ++ [e] }

end UiTree.Course
