import HtmlFragments.Unicode.LowerCase

/-! # Document trees

A document is a forest: an ordered list of top-level nodes, with no single root. Tags keep the case
they were written in, and an element keeps every attribute, repeated names included. -/
set_option autoImplicit false

namespace HtmlFragments

/-- An attribute written without a value has the empty value. -/
structure Attribute where
  name : Text
  value : Text
deriving DecidableEq, Repr

inductive Node where
  | text (value : Text)
  | element (tag : Text) (attributes : List Attribute) (children : List Node)
deriving Repr

mutual

def Node.decEq : (left right : Node) → Decidable (left = right)
  | .text value, .text other => decidable_of_iff (value = other) (by simp)
  | .text _, .element .. => .isFalse nofun
  | .element .., .text _ => .isFalse nofun
  | .element tag attributes children, .element otherTag otherAttributes otherChildren =>
    have := Node.decEqAll children otherChildren
    decidable_of_iff
      (tag = otherTag ∧ attributes = otherAttributes ∧ children = otherChildren) (by simp)

def Node.decEqAll : (left right : List Node) → Decidable (left = right)
  | [], [] => .isTrue rfl
  | [], _ :: _ => .isFalse nofun
  | _ :: _, [] => .isFalse nofun
  | node :: rest, other :: others =>
    have := Node.decEq node other
    have := Node.decEqAll rest others
    decidable_of_iff (node = other ∧ rest = others) (by simp)

end

instance : DecidableEq Node := Node.decEq

structure Element where
  tag : Text
  attributes : List Attribute
  children : List Node
deriving DecidableEq, Repr

structure Document where
  children : List Node
deriving DecidableEq, Repr

namespace Element

def toNode (element : Element) : Node :=
  .element element.tag element.attributes element.children

end Element

namespace Node

def element? : Node → Option Element
  | .text _ => none
  | .element tag attributes children => some ⟨tag, attributes, children⟩

def isElement : Node → Bool
  | .text _ => false
  | .element .. => true

def isText : Node → Bool
  | .text _ => true
  | .element .. => false

def elements (nodes : List Node) : List Element := nodes.filterMap element?

end Node

/-! ## Kinds of elements

Two closed sets of tags are read and written in a way of their own. A void element never has
content, and the content of a raw text element is taken as it stands up to its end tag. Membership
does not depend on the case of the tag. -/

def voidTags : List Text :=
  ["area", "base", "br", "col", "embed", "hr", "img", "input", "link", "meta", "param", "source",
    "track", "wbr"].map Text.ofString

def rawTextTags : List Text := ["script", "style"].map Text.ofString

def isVoid (tag : Text) : Bool := voidTags.contains tag.lowerCase

/-- The content of a raw text element is taken as it stands up to its end tag. -/
def isRawText (tag : Text) : Bool := rawTextTags.contains tag.lowerCase

/-! ## Writing nodes as markup

A void element is written as its start tag alone and a raw text element holds its text as it
stands. All other text and every attribute value is escaped. -/

def escapeTextUnit (unit : CodeUnit) : Text :=
  if unit == 0x26 then Text.ofString "&amp;"
  else if unit == 0x3C then Text.ofString "&lt;"
  else if unit == 0x3E then Text.ofString "&gt;"
  else [unit]

def escapeText (value : Text) : Text := value.flatMap escapeTextUnit

def escapeValueUnit (unit : CodeUnit) : Text :=
  if unit == 0x26 then Text.ofString "&amp;"
  else if unit == 0x3C then Text.ofString "&lt;"
  else if unit == 0x22 then Text.ofString "&quot;"
  else [unit]

def escapeValue (value : Text) : Text := value.flatMap escapeValueUnit

def Attribute.markup (pair : Attribute) : Text :=
  if pair.value.isEmpty then pair.name
  else pair.name ++ Text.ofString "=\"" ++ escapeValue pair.value ++ Text.ofString "\""

def startTagMarkup (tag : Text) (attributes : List Attribute) : Text :=
  Text.ofString "<" ++ tag ++ attributes.flatMap (fun pair => 0x20 :: pair.markup) ++
    Text.ofString ">"

def endTagMarkup (tag : Text) : Text := Text.ofString "</" ++ tag ++ Text.ofString ">"

namespace Node

mutual

/-- The markup of a node, where `verbatim` says that text stands in a raw text element. -/
def markupIn (verbatim : Bool) : Node → Text
  | .text value => if verbatim then value else escapeText value
  | .element tag attributes children =>
    if isVoid tag then startTagMarkup tag attributes
    else startTagMarkup tag attributes ++ contentMarkup (isRawText tag) children ++
      endTagMarkup tag

def contentMarkup (verbatim : Bool) : List Node → Text
  | [] => []
  | node :: rest => markupIn verbatim node ++ contentMarkup verbatim rest

end

def markup (node : Node) : Text := node.markupIn false

end Node

def Element.markup (element : Element) : Text := element.toNode.markup

def Document.markup (document : Document) : Text := Node.contentMarkup false document.children

end HtmlFragments
