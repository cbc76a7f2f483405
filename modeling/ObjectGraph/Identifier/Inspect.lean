import ObjectGraph.Identifier.Basic
import ObjectGraph.Text.Quoted

/-! # Identifiers under inspection

The form in which an identifier is shown to someone who looks for a mistake: every character of it
is visible.
-/
namespace ObjectGraph

/-- The identifier as a quoted text, marked as an identifier. -/
def Identifier.inspect (x : Identifier) : String := "Identifier(" ++ Text.quote x.text ++ ")"

end ObjectGraph
