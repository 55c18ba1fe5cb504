/-
  EmScale/Sheet/Basic.lean
  ========================
  **Stylesheets as trees that remember their text.**

  A stylesheet is a list of nodes: rules, at-rules, declarations and comments.  Selectors,
  preludes and values are raw texts.  Besides them a node holds the blanks and stray
  semicolons around its parts, so that printing a tree that was read gives back the text
  it was read from.  At-rules come in two kinds, with a block of children and without.
-/
import EmScale.Position

namespace EmScale

/-! ### Texts around the parts of a node -/

/-- What surrounds the head and the children of a rule or an at-rule: `before` the node,
    `between` the head and what follows it, `after` the last child, and whether the last
    child is followed by a semicolon. -/
structure BlockRaws where
  before : Text := []
  between : Text := []
  after : Text := []
  semicolon : Bool := false
deriving DecidableEq, Repr, Inhabited

/-! ### Nodes -/

structure Rule where
  selector : Text
  raws : BlockRaws := {}
  span : Span := {}
deriving DecidableEq, Repr, Inhabited

/-- The head of an at-rule: its name without the `@`, the blanks after the name, and its
    prelude. -/
structure AtRule where
  name : Text
  params : Text
  afterName : Text := []
  raws : BlockRaws := {}
  span : Span := {}
deriving DecidableEq, Repr, Inhabited

/-- A property and its value, with the text before the property, the colon and blanks
    between the two, and the blanks after the value. -/
structure Declaration where
  prop : Text
  value : Text
  before : Text := []
  between : Text := [':', ' ']
  after : Text := []
  span : Span := {}
deriving DecidableEq, Repr, Inhabited

/-- A comment: what stands between its delimiters. -/
structure Comment where
  text : Text
  before : Text := []
  span : Span := {}
deriving DecidableEq, Repr, Inhabited

inductive Node where
  /-- A rule and its children. -/
  | rule (head : Rule) (children : List Node)
  /-- An at-rule with a block. -/
  | atBlock (head : AtRule) (children : List Node)
  /-- An at-rule without a block. -/
  | atLine (head : AtRule)
  | declaration (decl : Declaration)
  | comment (note : Comment)
deriving Repr, Inhabited

/-- A stylesheet: its nodes, the blanks after the last of them, and whether the last of them
    is followed by a semicolon. -/
structure Stylesheet where
  nodes : List Node
  after : Text := []
  semicolon : Bool := false
deriving Repr, Inhabited

/-! ### Views of a node -/

/-- Whether the name of an at-rule is `name`, in any case of its ASCII letters. -/
def AtRule.isNamed (head : AtRule) (name : Text) : Bool :=
  head.name.map Char.toLower == name.map Char.toLower

namespace Node

/-- Whether a node is closed by a semicolon when another one follows. -/
def takesSemicolon : Node → Bool
  | atLine _ | declaration _ => true
  | rule .. | atBlock .. | comment _ => false

/-- Whether a node is the declaration of `value` for `prop`. -/
def declares (prop value : Text) : Node → Bool
  | declaration decl => decl.prop == prop && decl.value == value
  | _ => false

def declaration? : Node → Option Declaration
  | declaration decl => some decl
  | _ => none

def children : Node → List Node
  | rule _ children | atBlock _ children => children
  | atLine _ | declaration _ | comment _ => []

mutual

/-- A node and all nodes inside it, each in front of those inside it. -/
def preorder : Node → List Node
  | rule head children => rule head children :: preorderAll children
  | atBlock head children => atBlock head children :: preorderAll children
  | atLine head => [atLine head]
  | declaration decl => [declaration decl]
  | comment note => [comment note]

def preorderAll : List Node → List Node
  | [] => []
  | node :: rest => preorder node ++ preorderAll rest

end

end Node

/-- All nodes of a stylesheet, each in front of those inside it. -/
def Stylesheet.allNodes (sheet : Stylesheet) : List Node :=
  Node.preorderAll sheet.nodes

/-- A declaration with another value and all else that it has (`clone_with_value`). -/
def Declaration.withValue (decl : Declaration) (value : Text) : Declaration :=
  { decl with value }

end EmScale
