/-
  EmScale/Converter/Emission.lean
  ===============================
  **Carrying out a decision.**

  A decision changes the block a declaration stands in, unless the block already holds a
  declaration of the same property with the new value.
-/
import EmScale.Converter.Decision
import EmScale.Sheet.Basic

namespace EmScale

/-- What a decision came to. -/
inductive Emission where
  | unchanged
  | replaced
  /-- A declaration was put behind the one decided on. -/
  | fallbackInserted
  /-- The block already held the converted declaration. -/
  | duplicate
deriving DecidableEq, Repr, Inhabited

namespace Emission

/-- What an emission counts for. -/
def tally : Emission → Tally
  | unchanged => {}
  | replaced => { replaced := 1 }
  | fallbackInserted => { fallbacks := 1 }
  | duplicate => { skippedDuplicates := 1 }

end Emission

namespace Decision

/-- What a decision on `decl` comes to in `block`, and what stands in the place of `decl`
    afterwards: `apply` of the source, without the rest of the block. -/
def emit (decision : Decision) (block : List Node) (decl : Declaration) :
    Emission × List Node :=
  match decision with
  | keep => (.unchanged, [.declaration decl])
  | replace value =>
    if block.any (Node.declares decl.prop value) then (.duplicate, [.declaration decl])
    else (.replaced, [.declaration (decl.withValue value)])
  | append value =>
    if block.any (Node.declares decl.prop value) then (.duplicate, [.declaration decl])
    else (.fallbackInserted, [.declaration decl, .declaration (decl.withValue value)])

/-- Carries out a decision on the node at a place of a block.  Only declarations are
    changed. -/
def apply (decision : Decision) (block : List Node) (index : Nat) : Emission × List Node :=
  match block[index]? with
  | some (.declaration decl) =>
    let (emission, nodes) := decision.emit block decl
    (emission, block.take index ++ nodes ++ block.drop (index + 1))
  | _ => (.unchanged, block)

end Decision

end EmScale
