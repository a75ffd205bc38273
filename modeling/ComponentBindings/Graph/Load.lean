import ComponentBindings.Graph.Decode

/-!
# Reading a graph from a text

A text is read as a document, and the document as a graph. Which texts are documents is settled by
whoever reads them, so that the reader of documents is given.
-/

namespace ComponentBindings

/-- **The graph that a text describes.** -/
def Graph.load (read : String → Except Fault Document) (text : String) : Except Fault Graph := do
  Graph.ofDocument (← read text)

end ComponentBindings
