import HtmlFragments.Document.Basic

/-! # Queries

A query combines selectors. A selector looks at one element; combinators relate an element to one
around it, and a union puts the results of two queries one after the other. -/
set_option autoImplicit false

namespace HtmlFragments

structure Selector where
  tag : Option Text := none
  ids : List Text := []
  classes : List Text := []
  attributes : List Attribute := []
deriving DecidableEq, Repr

inductive Combinator where
  | descendant
  | child
deriving DecidableEq, Repr

inductive Query where
  | simple (selector : Selector)
  | combined (combinator : Combinator) (left right : Query)
  | union (left right : Query)
deriving DecidableEq, Repr

namespace Selector

def idName : Text := Text.ofString "id"

def className : Text := Text.ofString "class"

/-- All pairs that an element must have: ids and classes are attributes too. -/
def requiredAttributes (selector : Selector) : List Attribute :=
  selector.ids.map (fun value => ⟨idName, value⟩) ++
    selector.classes.map (fun value => ⟨className, value⟩) ++ selector.attributes

/-- Ids and classes are compared with whole attribute values. -/
def accepts (selector : Selector) (element : Element) : Bool :=
  (match selector.tag with
    | none => true
    | some tag => tag == element.tag) &&
  selector.requiredAttributes.all fun required => element.attributes.contains required

end Selector

/-! ## Writing queries

Ids come before classes and classes before attributes, whatever their order was. A value is put
between double quotes unless it contains one. -/

def attributeTestText (pair : Attribute) : Text :=
  let quote : Text := if pair.value.contains 0x22 then [0x27] else [0x22]
  Text.ofString "[" ++ pair.name ++ Text.ofString "=" ++ quote ++ pair.value ++ quote ++
    Text.ofString "]"

def Selector.conditionsText (selector : Selector) : Text :=
  selector.ids.flatMap (fun value => 0x23 :: value) ++
    selector.classes.flatMap (fun value => 0x2E :: value) ++
    selector.attributes.flatMap attributeTestText

/-- A selector without tag and conditions is written `*`. -/
def Selector.text (selector : Selector) : Text :=
  match selector.tag with
  | some tag => tag ++ selector.conditionsText
  | none => if selector.conditionsText.isEmpty then [0x2A] else selector.conditionsText

def Combinator.text : Combinator → Text
  | .descendant => Text.ofString " "
  | .child => Text.ofString " > "

def Query.text : Query → Text
  | .simple selector => selector.text
  | .combined combinator left right => left.text ++ combinator.text ++ right.text
  | .union left right => left.text ++ Text.ofString ", " ++ right.text

end HtmlFragments
