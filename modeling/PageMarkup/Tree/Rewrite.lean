import PageMarkup.Diagnostic.Notice
import PageMarkup.Tree.Basic

/-!
# Rewriting trees from the top

Some stages put other trees in the place of certain subtrees. `expand` passes a forest in preorder;
where `f` answers, its answer takes the place of the subtree and is not looked into.
-/

namespace PageMarkup

namespace Tree

mutual

/-- A tree with the subtrees replaced for which `f` has an answer. -/
def expand (f : Tree → Option (Forest × List Notice)) : Tree → Forest × List Notice
  | .node data children =>
    match f (.node data children) with
    | some answer => answer
    | none =>
      let (inner, notices) := forestExpand f children
      ([.node data inner], notices)

/-- A forest with the subtrees replaced for which `f` has an answer. -/
def forestExpand (f : Tree → Option (Forest × List Notice)) : Forest → Forest × List Notice
  | [] => ([], [])
  | tree :: rest =>
    let (first, notices) := expand f tree
    let (others, more) := forestExpand f rest
    (first ++ others, notices ++ more)

end

end Tree

end PageMarkup
