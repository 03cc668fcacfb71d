import HtmlFragments.Proofs.Text.Span
import HtmlFragments.Selector.Basic

/-! # The grammar of queries

Which texts spell which queries, said without a reader: a text is cut into pieces in any way that
the rules allow, and no rule asks for the longest piece. Whitespace between compound selectors is a
descendant combinator, and around `>`, `,` and inside brackets it means nothing. -/
set_option autoImplicit false

namespace HtmlFragments.Query.Grammar

def Identifier (text : Text) : Prop := text ≠ [] ∧ Text.AllOf CodeUnit.isIdentifierUnit text

/-- The text of a value: an identifier, or units between two quotes that they do not contain. -/
inductive Value : Text → Text → Prop where
  | bare {name : Text} : Identifier name → Value name name
  | doubleQuoted {value : Text} : 0x22 ∉ value → Value value (0x22 :: (value ++ [0x22]))
  | singleQuoted {value : Text} : 0x27 ∉ value → Value value (0x27 :: (value ++ [0x27]))

inductive AttributeTest : Attribute → Text → Prop where
  | spaced {name value written beforeName afterName beforeValue afterValue : Text} :
      Text.Blank beforeName → Identifier name → Text.Blank afterName →
      Text.Blank beforeValue → Value value written → Text.Blank afterValue →
      AttributeTest ⟨name, value⟩
        (beforeName ++ (name ++ (afterName ++ 0x3D ::
          (beforeValue ++ (written ++ (afterValue ++ [0x5D]))))))

inductive Conditions : List Text → List Text → List Attribute → Text → Prop where
  | none : Conditions [] [] [] []
  | idIs {name rest : Text} {ids classes : List Text} {attributes : List Attribute} :
      Identifier name → Conditions ids classes attributes rest →
      Conditions (name :: ids) classes attributes (0x23 :: (name ++ rest))
  | classIs {name rest : Text} {ids classes : List Text} {attributes : List Attribute} :
      Identifier name → Conditions ids classes attributes rest →
      Conditions ids (name :: classes) attributes (0x2E :: (name ++ rest))
  | attributeIs {required : Attribute} {test rest : Text} {ids classes : List Text}
      {attributes : List Attribute} :
      AttributeTest required test → Conditions ids classes attributes rest →
      Conditions ids classes (required :: attributes) (0x5B :: (test ++ rest))

/-- A tag or `*` and conditions, or conditions alone; there is no empty compound selector. -/
inductive Compound : Selector → Text → Prop where
  | tagged {tag rest : Text} {ids classes : List Text} {attributes : List Attribute} :
      Identifier tag → Conditions ids classes attributes rest →
      Compound ⟨some tag, ids, classes, attributes⟩ (tag ++ rest)
  | starred {rest : Text} {ids classes : List Text} {attributes : List Attribute} :
      Conditions ids classes attributes rest →
      Compound ⟨none, ids, classes, attributes⟩ (0x2A :: rest)
  | untagged {rest : Text} {ids classes : List Text} {attributes : List Attribute} :
      rest ≠ [] → Conditions ids classes attributes rest →
      Compound ⟨none, ids, classes, attributes⟩ rest

inductive Separator : Combinator → Text → Prop where
  | child {before after : Text} :
      Text.Blank before → Text.Blank after → Separator .child (before ++ 0x3E :: after)
  | descendant {spaces : Text} :
      spaces ≠ [] → Text.Blank spaces → Separator .descendant spaces

/-- Compound selectors joined from left to right, both combinators at one level. -/
inductive Complex : Query → Text → Prop where
  | single {selector : Selector} {text : Text} :
      Compound selector text → Complex (.simple selector) text
  | joined {left : Query} {combinator : Combinator} {selector : Selector}
      {leftText separator text : Text} :
      Complex left leftText → Separator combinator separator → Compound selector text →
      Complex (.combined combinator left (.simple selector)) (leftText ++ (separator ++ text))

inductive Alternatives : Query → Text → Prop where
  | single {query : Query} {text : Text} : Complex query text → Alternatives query text
  | united {left right : Query} {leftText before after text : Text} :
      Alternatives left leftText → Text.Blank before → Text.Blank after → Complex right text →
      Alternatives (.union left right) (leftText ++ (before ++ 0x2C :: (after ++ text)))

/-- The whole text of a query may begin and end with whitespace. -/
inductive Spells : Query → Text → Prop where
  | padded {query : Query} {before text after : Text} :
      Text.Blank before → Alternatives query text → Text.Blank after →
      Spells query (before ++ (text ++ after))

end HtmlFragments.Query.Grammar
