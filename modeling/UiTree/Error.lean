import UiTree.Element
import UiTree.Options.Lexeme
import UiTree.Text
set_option autoImplicit false

/-!
What can go wrong, by cause, and the wording of each. Causes that a component body states itself
carry their own words.
-/

namespace UiTree

inductive Misplacement where
  | intoText (child parent : NodeId)
  | intoOwnSubtree (child parent : NodeId)
  | stated (reason : String)
  deriving DecidableEq, Repr

inductive BadRef where
  | notARequest (shown : String)
  | stated (reason : String)
  deriving DecidableEq, Repr

inductive Error where
  | rootNotFound (id : String)
  | methodsOnFragment (component : Option String) (methods : List String)
  | malformedRef (cause : BadRef)
  | hierarchy (cause : Misplacement)
  | options (refusal : Options.Refusal)
  | component (reason : String)
  deriving DecidableEq, Repr

def Misplacement.message : Misplacement → String
  | .intoText child parent => "cannot append node " ++ child.text ++ " to text node " ++ parent.text
  | .intoOwnSubtree child parent =>
    "cannot append node " ++ child.text ++ " into itself or its own descendant " ++ parent.text
  | .stated reason => reason

def BadRef.message : BadRef → String
  | .notARequest shown => "expected a (key, map) reference request, got '" ++ shown ++ "'"
  | .stated reason => reason

def Error.message : Error → String
  | .rootNotFound id => "Root with id '" ++ id ++ "' does not exist"
  | .methodsOnFragment owner methods =>
    (match owner with
      | some name => "'" ++ name ++ "' component: "
      | none => "")
      ++ "cannot attach methods " ++ Text.bracketed (methods.map Text.quoted)
      ++ " to a component that returns a fragment; only 'onGotParent' may be set on a fragment"
  | .malformedRef cause => "Malformed ref request: " ++ cause.message
  | .hierarchy cause => "Hierarchy error: " ++ cause.message
  | .options refusal => "Options error: " ++ refusal.category
  | .component reason => "Component error: " ++ reason

end UiTree
