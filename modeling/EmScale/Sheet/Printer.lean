/-
  EmScale/Sheet/Printer.lean
  ==========================
  **The text of a stylesheet.**

  Printing writes every part of a tree in order and adds nothing but braces, comment
  delimiters, the `@` of an at-rule and semicolons.  A declaration or an at-rule without a
  block is closed by a semicolon if another node follows it in its block, or if the block
  says that its last node is.
-/
import EmScale.Sheet.Basic

namespace EmScale

namespace Node

def before : Node → Text
  | rule head _ => head.raws.before
  | atBlock head _ | atLine head => head.raws.before
  | declaration decl => decl.before
  | comment note => note.before

/-- Whether a semicolon is printed behind a node that `rest` follows in its block;
    `semicolon` tells whether the last node of the block has one. -/
def isClosed (semicolon : Bool) (rest : List Node) (node : Node) : Bool :=
  node.takesSemicolon && (!rest.isEmpty || semicolon)

/-- The semicolon behind a node, or nothing. -/
def closer (semicolon : Bool) (rest : List Node) (node : Node) : Text :=
  if node.isClosed semicolon rest then [';'] else []

end Node

/-- The head of an at-rule up to what follows its prelude. -/
def AtRule.print (head : AtRule) : Text :=
  '@' :: (head.name ++ head.afterName ++ head.params ++ head.raws.between)

mutual

/-- A node without the blanks in front of it, which `write_node` writes as well. -/
def Node.body : Node → Text
  | .rule head children =>
    head.selector ++ head.raws.between ++
      '{' :: (Node.printAll head.raws.semicolon children ++ head.raws.after ++ ['}'])
  | .atBlock head children =>
    head.print ++
      '{' :: (Node.printAll head.raws.semicolon children ++ head.raws.after ++ ['}'])
  | .atLine head => head.print
  | .declaration decl => decl.prop ++ decl.between ++ decl.value ++ decl.after
  | .comment note => '/' :: '*' :: (note.text ++ ['*', '/'])

/-- The nodes of a block, with the semicolons that close them (`write_nodes`). -/
def Node.printAll (semicolon : Bool) : List Node → Text
  | [] => []
  | node :: rest =>
    node.before ++ node.body ++ node.closer semicolon rest ++ Node.printAll semicolon rest

end

/-- The text of a stylesheet (`stringify`). -/
def Stylesheet.print (sheet : Stylesheet) : Text :=
  Node.printAll sheet.semicolon sheet.nodes ++ sheet.after

end EmScale
